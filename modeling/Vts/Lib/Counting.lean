/-!
# Loops that count up

A loop `for (int i = start; i < bound; i++)` whose bound is read before every round. The
index is a machine integer, so a loop goes through at most as many rounds as there are
indices; a loop that would not end by then is stuck. The rules follow a run whose states are
known, carry what every round preserves to the end of the loop, and carry a loop over to
another kind of state.
-/

namespace Vts.Lib

universe u v w
variable {σ : Type u} {τ : Type v} {ε : Type w}

/-- The rounds of the loop from an index on. -/
def countUp (stuck : ε) (bound : Nat → Except ε Int) (body : Nat → σ → Except ε σ) :
    Nat → Nat → σ → Except ε σ
  | 0, _, _ => .error stuck
  | rounds + 1, index, state =>
    match bound index with
    | .error fault => .error fault
    | .ok limit =>
      if (index : Int) < limit then
        match body index state with
        | .error fault => .error fault
        | .ok next => countUp stuck bound body rounds (index + 1) next
      else .ok state

section

variable {stuck : ε} {bound : Nat → Except ε Int} {body : Nat → σ → Except ε σ} {rounds index : Nat}

/-- A loop goes through the states that its rounds lead to. -/
theorem countUp_run {limit : Nat} (states : Nat → σ)
    (bounded : ∀ index, index ≤ limit → bound index = .ok (limit : Int))
    (round : ∀ index, index < limit → body index (states index) = .ok (states (index + 1)))
    (inside : index ≤ limit) (enough : limit < index + rounds) :
    countUp stuck bound body rounds index (states index) = .ok (states limit) := by
  induction rounds generalizing index with
  | zero => exact absurd enough (Nat.not_lt.mpr inside)
  | succ rounds ih =>
    rw [countUp, bounded index inside]
    by_cases more : index < limit
    · simp only [Int.ofNat_lt.mpr more, if_true, round index more]
      exact ih (Nat.succ_le_of_lt more) (by omega)
    · obtain rfl : index = limit := Nat.le_antisymm inside (Nat.le_of_not_lt more)
      simp

/-- A loop whose first bound is not positive does nothing. -/
theorem countUp_none {limit : Int} (bounded : bound 0 = .ok limit) (empty : limit ≤ 0)
    (rounds : Nat) (state : σ) : countUp stuck bound body (rounds + 1) 0 state = .ok state := by
  have ends : ¬ ((0 : Nat) : Int) < limit := by omega
  rw [countUp, bounded]
  simp only [ends, if_false]

/-- A loop whose first bound cannot be read fails so. -/
theorem countUp_fault {fault : ε} (some_round : 0 < rounds) (failing : bound index = .error fault)
    (state : σ) : countUp stuck bound body rounds index state = .error fault := by
  obtain ⟨rounds, rfl⟩ := Nat.exists_eq_succ_of_ne_zero (Nat.ne_of_gt some_round)
  rw [countUp, failing]

end

section

variable {stuck : ε} {bound : Nat → Except ε Int} {limit : Nat}
  (bounded : ∀ index, bound index = .ok (limit : Int))

include bounded

section

variable {body : Nat → σ → Except ε σ}

/-- What the rounds preserve holds when the loop ends, and the loop only ends within the range
of its index. -/
theorem countUp_preserves {invariant : σ → Prop}
    (kept : ∀ index state next, index < limit → invariant state →
      body index state = .ok next → invariant next) {rounds index : Nat} {state last : σ}
    (held : invariant state) (ended : countUp stuck bound body rounds index state = .ok last) :
    invariant last ∧ limit < index + rounds := by
  induction rounds generalizing index state with
  | zero => cases ended
  | succ rounds ih =>
    rw [countUp, bounded] at ended
    by_cases more : index < limit
    · simp only [Int.ofNat_lt.mpr more, if_true] at ended
      cases next : body index state with
      | error fault =>
        rw [next] at ended
        cases ended
      | ok following =>
        rw [next] at ended
        have rest := ih (kept index state following more held next) ended
        exact ⟨rest.1, by omega⟩
    · have stops : ¬ (index : Int) < (limit : Int) := by omega
      simp only [stops, if_false] at ended
      cases ended
      exact ⟨held, by omega⟩

/-- A loop on the images of states does what a loop with the same bound on the states does. -/
theorem countUp_map {innerBound : Nat → Except ε Int}
    (innerBounded : ∀ index, innerBound index = .ok (limit : Int)) {inner : Nat → τ → Except ε τ}
    {invariant : τ → Prop} (image : τ → σ) (round : ∀ index state, index < limit → invariant state →
      body index (image state) = (inner index state).map image)
    (kept : ∀ index state next, index < limit → invariant state →
      inner index state = .ok next → invariant next) (rounds index : Nat) {state : τ}
    (held : invariant state) :
    countUp stuck bound body rounds index (image state) =
      (countUp stuck innerBound inner rounds index state).map image := by
  induction rounds generalizing index state with
  | zero => rfl
  | succ rounds ih =>
    rw [countUp, countUp, bounded, innerBounded]
    by_cases more : index < limit
    · simp only [Int.ofNat_lt.mpr more, if_true, round index state more held]
      cases next : inner index state with
      | error fault => rfl
      | ok following =>
        exact ih (index + 1) (kept index state following more held next)
    · have stops : ¬ (index : Int) < (limit : Int) := by omega
      simp only [stops, if_false]
      rfl

end

end

/-! ## Loops whose bound changes with the state -/

/-- The rounds of a loop from an index on, where the bound is read from the state. -/
def countWhile (stuck : ε) (bound : σ → Int) (body : Nat → σ → Except ε σ) :
    Nat → Nat → σ → Except ε σ
  | 0, _, _ => .error stuck
  | rounds + 1, index, state =>
    if (index : Int) < bound state then
      match body index state with
      | .error fault => .error fault
      | .ok next => countWhile stuck bound body rounds (index + 1) next
    else .ok state

section

variable {stuck : ε} {bound : σ → Int} {body : Nat → σ → Except ε σ}

/-- A loop goes through the states that its rounds lead to, up to the first one whose bound it has
reached. -/
theorem countWhile_run {last : Nat} (states : Nat → σ)
    (more : ∀ index, index < last → (index : Int) < bound (states index))
    (ends : bound (states last) ≤ last)
    (round : ∀ index, index < last → body index (states index) = .ok (states (index + 1)))
    {rounds index : Nat} (inside : index ≤ last) (enough : last < index + rounds) :
    countWhile stuck bound body rounds index (states index) = .ok (states last) := by
  induction rounds generalizing index with
  | zero => exact absurd enough (Nat.not_lt.mpr inside)
  | succ rounds ih =>
    rw [countWhile]
    by_cases before : index < last
    · rw [if_pos (more index before), round index before]
      exact ih before (by omega)
    · obtain rfl : index = last := Nat.le_antisymm inside (Nat.le_of_not_lt before)
      rw [if_neg (Int.not_lt.mpr ends)]

/-- What the rounds preserve holds of the last state and the index that it ends with. -/
theorem countWhile_preserves {invariant : Nat → σ → Prop}
    (kept : ∀ (index : Nat) (state next : σ), (index : Int) < bound state →
      invariant index state → body index state = .ok next → invariant (index + 1) next)
    {rounds index : Nat} {state last : σ} (held : invariant index state)
    (ended : countWhile stuck bound body rounds index state = .ok last) :
    ∃ final, invariant final last ∧ bound last ≤ final := by
  induction rounds generalizing index state with
  | zero => cases ended
  | succ rounds ih =>
    rw [countWhile] at ended
    by_cases more : (index : Int) < bound state
    · rw [if_pos more] at ended
      cases next : body index state with
      | error fault =>
        rw [next] at ended
        cases ended
      | ok following =>
        rw [next] at ended
        exact ih (kept index state following more held next) ended
    · rw [if_neg more] at ended
      cases ended
      exact ⟨index, held, Int.not_lt.mp more⟩

end

end Vts.Lib
