import Mathlib.Data.List.Forall2

/-!
# What holds if a computation returns

A computation in `Except` returns or stops. The rules carry a postcondition for what it returns
through its parts; nothing is said about a computation that stops.
-/

namespace Vts.Lib

universe u v
variable {ε : Type u} {α : Type v} {β : Type v}

/-- What a computation returns satisfies a condition. -/
def Ensures (result : Except ε α) (post : α → Prop) : Prop :=
  ∀ value, result = .ok value → post value

/-- A sequence returns if its first part returns something that the second returns for. -/
theorem bind_eq_ok_iff {first : Except ε α} {next : α → Except ε β} {value : β} :
    (first >>= next) = .ok value ↔ ∃ middle, first = .ok middle ∧ next middle = .ok value := by
  cases first with
  | error result | ok result => simp [bind, Except.bind]

theorem map_eq_ok_iff {result : Except ε α} {f : α → β} {value : β} :
    result.map f = .ok value ↔ ∃ inner, result = .ok inner ∧ f inner = value := by
  cases result with
  | error result | ok result => simp [Except.map]

namespace Ensures

variable {post : α → Prop}

theorem ok {value : α} (holds : post value) : Ensures (.ok value : Except ε α) post := by
  rintro _ ⟨⟩
  exact holds

theorem error (failure : ε) : Ensures (.error failure : Except ε α) post := by
  rintro _ ⟨⟩

theorem mono {result : Except ε α} {more : α → Prop} (ensured : Ensures result post)
    (weaker : ∀ value, post value → more value) : Ensures result more :=
  fun value returned => weaker value (ensured value returned)

/-- A sequence: what the second part ensures whatever the first part ensures. -/
theorem bind {result : Except ε α} {next : α → Except ε β} {more : β → Prop}
    (first : Ensures result post) (second : ∀ value, post value → Ensures (next value) more) :
    Ensures (result >>= next) more := by
  intro last returned
  cases done : result with
  | error failure =>
    rw [done] at returned
    cases returned
  | ok value =>
    rw [done] at returned
    exact second value (first value done) last returned

theorem map {result : Except ε α} {f : α → β} {more : β → Prop}
    (ensured : Ensures result fun value => more (f value)) : Ensures (result.map f) more := by
  intro last returned
  cases result with
  | error failure => cases returned
  | ok value =>
    cases returned
    exact ensured value rfl

theorem ite {condition : Prop} [Decidable condition] {first second : Except ε α}
    (left : condition → Ensures first post) (right : ¬ condition → Ensures second post) :
    Ensures (if condition then first else second) post := by
  split
  · exact left ‹_›
  · exact right ‹_›

end Ensures

/-- A loop over items returns values that are related to them exactly when each item does. -/
theorem exists_mapM_iff {f : α → Except ε β} {related : α → β → Prop} {items : List α} :
    (∃ values, items.mapM f = .ok values ∧ List.Forall₂ related items values) ↔
      ∀ item ∈ items, ∃ value, f item = .ok value ∧ related item value := by
  induction items with
  | nil => exact iff_of_true ⟨[], rfl, .nil⟩ (List.forall_mem_nil _)
  | cons item items ih =>
    rw [List.forall_mem_cons, ← ih, List.mapM_cons]
    constructor
    · rintro ⟨values, returned, relatedAll⟩
      obtain ⟨value, first, rest⟩ := bind_eq_ok_iff.mp returned
      obtain ⟨others, second, last⟩ := bind_eq_ok_iff.mp rest
      cases last
      cases relatedAll with
      | cons one others => exact ⟨⟨value, first, one⟩, _, second, others⟩
    · rintro ⟨⟨value, first, one⟩, others, second, relatedOthers⟩
      refine ⟨value :: others, ?_, .cons one relatedOthers⟩
      rw [first, second]
      rfl

end Vts.Lib
