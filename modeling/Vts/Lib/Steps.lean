/-!
# Steps that may stop

A step changes a state and may raise a signal. Steps are done one after another until one
of them raises; a loop does one step for each item of a list. The rules carry a relation
between states through sequences and loops: a reflexive and transitive relation that every
single step keeps is kept by the whole, and a loop that was not stopped has come to each
of its items.
-/

namespace Vts.Lib

universe u v w
variable {σ : Type u} {ε : Type v} {α : Type w}

/-- A change of the state, with the signal that it raises, if any. -/
abbrev Step (σ : Type u) (ε : Type v) := σ → σ × Option ε

namespace Step

/-- A step that changes the state only. -/
def change (f : σ → σ) : Step σ ε := fun state => (f state, none)

/-- A step that only raises a signal. -/
def raise (signal : ε) : Step σ ε := fun state => (state, some signal)

/-- Two steps, the second one unless the first one raises. -/
def seq (first second : Step σ ε) : Step σ ε := fun state =>
  match first state with
  | (next, none) => second next
  | (next, some signal) => (next, some signal)

/-- A loop, until a step raises. -/
def each (step : α → Step σ ε) : List α → Step σ ε
  | [] => fun state => (state, none)
  | item :: items => seq (step item) (each step items)

/-- The step relates each state to the state after it. -/
def Keeps (related : σ → σ → Prop) (step : Step σ ε) : Prop :=
  ∀ state, related state (step state).1

section

variable {related : σ → σ → Prop} (refl : ∀ state, related state state)
  (trans : ∀ first second third, related first second → related second third →
    related first third)

include trans in
theorem Keeps.seq {first second : Step σ ε} (firstKeeps : Keeps related first)
    (secondKeeps : Keeps related second) : Keeps related (seq first second) := by
  intro state
  have before := firstKeeps state
  unfold Step.seq
  cases done : first state with
  | mk next signal =>
    rw [done] at before
    cases signal with
    | none => exact trans _ _ _ before (secondKeeps next)
    | some signal => exact before

include refl trans in
theorem Keeps.each {step : α → Step σ ε} {items : List α}
    (keeps : ∀ item ∈ items, Keeps related (step item)) : Keeps related (each step items) := by
  induction items with
  | nil => exact refl
  | cons item items ih =>
    refine Keeps.seq trans (keeps item (by simp)) (ih ?_)
    intro other listed
    exact keeps other (by simp [listed])

end

/-- A sequence that was not stopped has done both steps. -/
theorem seq_eq_none {first second : Step σ ε} {state : σ}
    (ended : (seq first second state).2 = none) :
    (first state).2 = none ∧ seq first second state = second (first state).1 := by
  unfold seq at ended ⊢
  cases done : first state with
  | mk next signal =>
    rw [done] at ended
    cases signal with
    | none => exact ⟨rfl, rfl⟩
    | some signal => cases ended

/-- What the step for one item brings about, and later steps keep, holds after a loop that
was not stopped, for each item. -/
theorem each_of_none (reached : α → σ → Prop) {step : α → Step σ ε} {items : List α}
    (brings : ∀ item ∈ items, ∀ state, (step item state).2 = none →
      reached item (step item state).1)
    (kept : ∀ item ∈ items, ∀ other ∈ items, ∀ state, reached item state →
      reached item (step other state).1)
    {state : σ} (ended : (each step items state).2 = none) :
    ∀ item ∈ items, reached item (each step items state).1 := by
  induction items generalizing state with
  | nil =>
    intro item listed
    cases listed
  | cons item items ih =>
    obtain ⟨first, rest⟩ := seq_eq_none ended
    have restEnded : (each step items (step item state).1).2 = none := by
      rw [← rest]
      exact ended
    have whole : each step (item :: items) state = each step items (step item state).1 := rest
    intro other listed
    rw [whole]
    rcases List.mem_cons.mp listed with rfl | later
    · have stays : Keeps (fun before after => reached other before → reached other after)
          (each step items) := by
        apply Keeps.each
        · intro before held
          exact held
        · intro before between after one two held
          exact two (one held)
        · intro another member before held
          exact kept other (by simp) another (by simp [member]) before held
      exact stays _ (brings other (by simp) state first)
    · refine ih ?_ ?_ restEnded other later
      · intro another member
        exact brings another (by simp [member])
      · intro one oneListed two twoListed
        exact kept one (by simp [oneListed]) two (by simp [twoListed])

end Step

end Vts.Lib
