import Mathlib.Order.Preorder.Finite

/-!
# Loops that may run for ever

A loop is given by what one iteration makes of a state, with nothing for a state in which the loop
ends. A loop whose iterations raise a number that stays below a bound comes to an end; a loop whose
iterations keep an invariant that no final state has does not.
-/

namespace Vts.Lib.Loop

open Option

universe u
variable {σ : Type u} {step : σ → Option σ}

/-- The state after some iterations, if there are as many. -/
def after (step : σ → Option σ) : Nat → σ → Option σ
  | 0, state => some state
  | count + 1, state => (step state).bind (after step count)

/-- The loop comes to an end. -/
def Ends (step : σ → Option σ) (start : σ) : Prop := ∃ count, after step count start = none

/-- The states that the loop passes through. -/
inductive Visits (step : σ → Option σ) (start : σ) : σ → Prop where
  | start : Visits step start start
  | next {state following : σ} (before : Visits step start state)
      (iteration : step state = some following) : Visits step start following

/-- The loop may be left at its first state. -/
theorem Visits.cons {start second state : σ} (first : step start = some second)
    (rest : Visits step second state) : Visits step start state := by
  induction rest with
  | start => exact .next .start first
  | next before iteration ih => exact .next ih iteration

/-- A number that every iteration raises, and that is below a bound as long as the loop runs. -/
theorem ends_of_raises {start : σ} (height : σ → Int) (bound : Int)
    (raises : ∀ state following, Visits step start state → step state = some following →
      height state < height following ∧ height state < bound) : Ends step start := by
  obtain ⟨room, enough⟩ : ∃ room : Nat, bound - height start ≤ room := ⟨_, Int.self_le_toNat _⟩
  induction room generalizing start with
  | zero =>
    refine ⟨1, ?_⟩
    cases first : step start with
    | none => rw [after, first, bind_none]
    | some second =>
      have below := (raises start second .start first).2
      omega
  | succ room ih =>
    cases first : step start with
    | none => exact ⟨1, by rw [after, first, bind_none]⟩
    | some second =>
      have raised := (raises start second .start first).1
      obtain ⟨count, ended⟩ := ih
        (fun state following visited => raises state following (visited.cons first)) (by omega)
      exact ⟨count + 1, by rw [after, first, bind_some, ended]⟩

/-- More iterations after some. -/
theorem after_add (step : σ → Option σ) (first second : Nat) (start : σ) :
    after step (first + second) start = (after step first start).bind (after step second) := by
  induction first generalizing start with
  | zero => rw [Nat.zero_add, after, bind_some]
  | succ first ih =>
    rw [Nat.add_right_comm, after, after, bind_assoc]
    congr 1
    funext following
    exact ih following

/-- What is left once the loop has ended stays so. -/
theorem after_eq_none_of_le {start : σ} {count more : Nat} (ended : after step count start = none)
    (le : count ≤ more) : after step more start = none := by
  obtain ⟨further, rfl⟩ := Nat.exists_eq_add_of_le le
  rw [after_add, ended, bind_none]

theorem visits_of_after {start state : σ} {count : Nat} (reached : after step count start = some state) :
    Visits step start state := by
  induction count generalizing start with
  | zero => cases reached; exact .start
  | succ count ih =>
    obtain ⟨following, iteration, rest⟩ := bind_eq_some_iff.mp reached
    exact (ih rest).cons iteration

/-- No state that the loop passes through is come to again. -/
def NeverReturns (step : σ → Option σ) (start : σ) : Prop :=
  ∀ state, Visits step start state → ∀ count, after step (count + 1) state ≠ some state

/-- A state that is come to again is come to any number of times. -/
theorem after_mul_of_returns {state : σ} {count : Nat} (returned : after step count state = some state)
    (rounds : Nat) : after step (rounds * count) state = some state := by
  induction rounds with
  | zero => rw [Nat.zero_mul, after]
  | succ rounds ih =>
    rw [Nat.succ_mul, after_add, ih, bind_some, returned]

theorem Visits.exists_after {start state : σ} (visited : Visits step start state) :
    ∃ count, after step count start = some state := by
  induction visited with
  | start => exact ⟨0, rfl⟩
  | next _ iteration ih =>
    obtain ⟨count, reached⟩ := ih
    refine ⟨count + 1, ?_⟩
    rw [after_add, reached, bind_some, after, iteration, bind_some, after]

/-- A loop that ends never comes to a state again. -/
theorem Ends.neverReturns {start : σ} (ends : Ends step start) : NeverReturns step start := by
  obtain ⟨count, ended⟩ := ends
  intro state visited more returned
  obtain ⟨before, reached⟩ := visited.exists_after
  have around := after_mul_of_returns returned count
  have still : after step (before + count * (more + 1)) start = some state := by
    rw [after_add, reached, bind_some, around]
  have long : count ≤ before + count * (more + 1) := by
    have rounds : count * 1 ≤ count * (more + 1) := Nat.mul_le_mul_left count (by omega)
    omega
  rw [after_eq_none_of_le ended long] at still
  cases still

/-- Where only finitely many states can be passed through, a loop ends exactly if it never comes to a
state again. -/
theorem ends_iff_neverReturns {start : σ} (finite : Set.Finite {state | Visits step start state}) :
    Ends step start ↔ NeverReturns step start := by
  refine ⟨Ends.neverReturns, ?_⟩
  intro never
  by_contra endless
  have goesOn : ∀ count, ∃ state, after step count start = some state := by
    intro count
    cases reached : after step count start with
    | none => exact absurd ⟨count, reached⟩ endless
    | some state => exact ⟨state, rfl⟩
  choose path reached using goesOn
  obtain ⟨early, late, before, same⟩ :=
    Set.Finite.exists_lt_map_eq_of_forall_mem (fun count => visits_of_after (reached count)) finite
  obtain ⟨between, rfl⟩ := Nat.exists_eq_add_of_lt before
  have again := reached (early + between + 1)
  rw [Nat.add_assoc, after_add, reached early, bind_some, ← Nat.add_assoc, ← same] at again
  exact never _ (visits_of_after (reached early)) between again

/-- Two loops whose iterations go on together end together. -/
theorem ends_iff_of_simulates {τ : Type u} {other : τ → Option τ} (related : σ → τ → Prop)
    (simulates : ∀ state image, related state image → Option.Rel related (step state) (other image))
    {start : σ} {image : τ} (begun : related start image) : Ends step start ↔ Ends other image := by
  have together : ∀ count state image, related state image →
      Option.Rel related (after step count state) (after other count image) := by
    intro count
    induction count with
    | zero => exact fun _ _ held => .some held
    | succ count ih =>
      intro state image held
      rw [after, after]
      have next := simulates state image held
      revert next
      generalize step state = following
      generalize other image = imageAfter
      intro next
      cases next with
      | none => exact .none
      | some next => exact ih _ _ next
  unfold Ends
  apply exists_congr
  intro count
  have both := together count start image begun
  revert both
  generalize after step count start = reached
  generalize after other count image = imageReached
  intro both
  cases both with
  | none => exact ⟨fun _ => rfl, fun _ => rfl⟩
  | some => exact ⟨nofun, nofun⟩

/-! ## Loops with a result -/

/-- What an iteration comes to: the loop goes on, or it is left. -/
inductive Iteration (σ : Type u) (ρ : Type u) where
  | next (state : σ)
  | left (result : ρ)

variable {ρ : Type u}

def Iteration.toOption : Iteration σ ρ → Option σ
  | next state => some state
  | left _ => none

/-- The result of a loop that is left within so many iterations. -/
def run (iterate : σ → Iteration σ ρ) : Nat → σ → Option ρ
  | 0, _ => none
  | fuel + 1, state =>
    match iterate state with
    | .next following => run iterate fuel following
    | .left result => some result

/-- A loop has a result exactly if it comes to an end. -/
theorem run_eq_none_iff {iterate : σ → Iteration σ ρ} {fuel : Nat} {start : σ} :
    run iterate fuel start = none ↔
      (after (fun state => (iterate state).toOption) fuel start).isSome := by
  induction fuel generalizing start with
  | zero => simp [run, after]
  | succ fuel ih =>
    rw [run, after]
    cases iterate start with
    | next following => exact ih
    | left result => simp [Iteration.toOption]

/-- An invariant that lets the loop go on keeps it going for ever. -/
theorem after_isSome_of_invariant (invariant : σ → Prop)
    (goesOn : ∀ state, invariant state →
      ∃ following, step state = some following ∧ invariant following)
    {start : σ} (held : invariant start) (count : Nat) : (after step count start).isSome := by
  induction count generalizing start with
  | zero => rfl
  | succ count ih =>
    obtain ⟨following, iteration, kept⟩ := goesOn start held
    rw [after, iteration, bind_some]
    exact ih kept

end Vts.Lib.Loop
