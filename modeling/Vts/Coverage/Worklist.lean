import Vts.Coverage.Summary
import Vts.Lib.Loops

/-!
# The worklist loop ends

The loop of `FunctionSummary.Resolve` with the variables it has, over any attempt to resolve an
arc. An arc that is resolved leaves the worklist. Otherwise the index moves on, and a pass that
starts with the length of the previous iteration is the last one.

Proved here: the loop ends for every graph and every outcome of the attempts, and returns True with
an empty worklist only.
-/

namespace Vts.Coverage

open Lib (Loop.Iteration Loop.run)

/-- The variables of the loop. -/
structure Worklist where
  index : Nat
  prevLength : Nat
  unresolved : List Nat
  func : FunctionSummary

namespace Worklist

/-- What `arc.Resolve()` returns, and the function after it. -/
abbrev Outcome := FunctionSummary → Nat → Bool × FunctionSummary

/-- The loop as the source starts it. -/
def start (func : FunctionSummary) : Worklist where
  index := 0
  prevLength := func.unresolvedArcs.length + 1
  unresolved := func.unresolvedArcs
  func := func

variable (outcome : Outcome) (state : Worklist)

def position : Nat := state.index % state.unresolved.length

def arc : Nat := state.unresolved.getD state.position 0

/-- The variables after an iteration that goes on. -/
def next : Worklist :=
  let resolved := outcome state.func state.arc
  { index := if resolved.1 then state.position else state.position + 1
    prevLength := state.unresolved.length
    unresolved := if resolved.1 then state.unresolved.erase state.arc else state.unresolved
    func := resolved.2 }

/-- One iteration, with the value that is returned if it is the last. -/
def iterate : Loop.Iteration Worklist (Bool × Worklist) :=
  if state.unresolved.length = 0 then .left (true, state)
  else if state.position = 0 ∧ state.unresolved.length = state.prevLength then .left (false, state)
  else .next (state.next outcome)

/-- What is left of the pass, once the worklist has the length of the previous iteration. -/
def remaining : Nat :=
  if state.prevLength = state.unresolved.length then state.unresolved.length - state.index
  else state.unresolved.length + 1

variable {outcome state}

section

variable (pending : state.unresolved.length ≠ 0)
include pending

theorem position_lt : state.position < state.unresolved.length :=
  Nat.mod_lt _ (Nat.pos_of_ne_zero pending)

theorem length_next_resolved (resolved : (outcome state.func state.arc).1 = true) :
    (state.next outcome).unresolved.length + 1 = state.unresolved.length := by
  have member : state.arc ∈ state.unresolved := by
    rw [arc, List.getD_eq_getElem _ _ (position_lt pending)]
    exact List.getElem_mem _
  have shorter := List.length_erase_of_mem member
  simp only [next, resolved, if_true]
  omega

theorem index_next_le : (state.next outcome).index ≤ (state.next outcome).unresolved.length := by
  have before := position_lt pending
  cases resolved : (outcome state.func state.arc).1 with
  | false => simpa [next, resolved] using Nat.succ_le_of_lt before
  | true =>
    have shorter := length_next_resolved pending resolved
    have kept : (state.next outcome).index = state.position := by simp [next, resolved]
    omega

end

section

variable (pending : state.unresolved.length ≠ 0) (inside : state.index ≤ state.unresolved.length)
  (goesOn : ¬ (state.position = 0 ∧ state.unresolved.length = state.prevLength))
include pending inside goesOn

/-- A failure brings the end of the pass nearer, or starts the pass that is compared with it. -/
theorem remaining_next_lt (failed : (outcome state.func state.arc).1 = false) :
    (state.next outcome).remaining < state.remaining := by
  have before := position_lt pending
  have after : (state.next outcome).remaining =
      state.unresolved.length - (state.position + 1) := by
    simp [remaining, next, failed]
  rw [after, remaining]
  split
  · next same =>
    have moved : state.position ≠ 0 := fun zero => goesOn ⟨zero, same.symm⟩
    have short : state.index < state.unresolved.length := by
      rcases Nat.lt_or_eq_of_le inside with short | atEnd
      · exact short
      · exact absurd (by rw [position, atEnd, Nat.mod_self]) moved
    have kept : state.position = state.index := Nat.mod_eq_of_lt short
    omega
  · omega

/-- The length of the worklist decreases, or what is left of the pass. -/
theorem next_lt :
    Prod.Lex (· < ·) (· < ·)
      ((state.next outcome).unresolved.length, (state.next outcome).remaining)
      (state.unresolved.length, state.remaining) := by
  cases resolved : (outcome state.func state.arc).1 with
  | true =>
    have shorter := length_next_resolved pending resolved
    exact Prod.Lex.left _ _ (by omega)
  | false =>
    have same : (state.next outcome).unresolved.length = state.unresolved.length := by
      simp [next, resolved]
    rw [same]
    exact Prod.Lex.right _ (remaining_next_lt pending inside goesOn resolved)

end

theorem ends (outcome : Outcome) (state : Worklist)
    (inside : state.index ≤ state.unresolved.length) :
    ∃ fuel result, Loop.run (iterate outcome) fuel state = some result := by
  by_cases empty : state.unresolved.length = 0
  · exact ⟨1, (true, state), by simp [Loop.run, iterate, empty]⟩
  by_cases stop : state.position = 0 ∧ state.unresolved.length = state.prevLength
  · exact ⟨1, (false, state), by simp only [Loop.run, iterate, if_neg empty, if_pos stop]⟩
  have nearer : Prod.Lex (· < ·) (· < ·)
      ((state.next outcome).unresolved.length, (state.next outcome).remaining)
      (state.unresolved.length, state.remaining) := next_lt empty inside stop
  obtain ⟨fuel, result, ran⟩ := ends outcome (state.next outcome) (index_next_le empty)
  refine ⟨fuel + 1, result, ?_⟩
  simpa only [Loop.run, iterate, if_neg empty, if_neg stop] using ran
termination_by (state.unresolved.length, state.remaining)
decreasing_by exact nearer

theorem unresolved_of_run {fuel : Nat} {result : Bool × Worklist}
    (ran : Loop.run (iterate outcome) fuel state = some result) (succeeded : result.1 = true) :
    result.2.unresolved = [] := by
  induction fuel generalizing state with
  | zero => cases ran
  | succ fuel ih =>
    rw [Loop.run, iterate] at ran
    by_cases empty : state.unresolved.length = 0
    · simp only [if_pos empty] at ran
      cases ran
      exact List.length_eq_zero_iff.mp empty
    by_cases stop : state.position = 0 ∧ state.unresolved.length = state.prevLength
    · simp only [if_neg empty, if_pos stop] at ran
      cases ran
      cases succeeded
    · simp only [if_neg empty, if_neg stop] at ran
      exact ih ran

/-- The loop of the model is this one. -/
theorem resolveLoop_eq (fuel : Nat) (state : Worklist) :
    FunctionSummary.resolveLoop fuel state.index state.prevLength state.unresolved state.func =
      (Loop.run (iterate ArcSummary.resolve) fuel state).map fun left => (left.1, left.2.func) := by
  induction fuel generalizing state with
  | zero => rfl
  | succ fuel ih =>
    have turn : FunctionSummary.resolveLoop (fuel + 1) state.index state.prevLength
        state.unresolved state.func =
      if state.unresolved.length = 0 then some (true, state.func)
      else if state.position = 0 ∧ state.unresolved.length = state.prevLength then
        some (false, state.func)
      else if (ArcSummary.resolve state.func state.arc).1 then
        FunctionSummary.resolveLoop fuel state.position state.unresolved.length
          (state.unresolved.erase state.arc) (ArcSummary.resolve state.func state.arc).2
      else
        FunctionSummary.resolveLoop fuel (state.position + 1) state.unresolved.length
          state.unresolved (ArcSummary.resolve state.func state.arc).2 := rfl
    rw [turn, Loop.run, iterate]
    by_cases empty : state.unresolved.length = 0
    · simp only [if_pos empty, Option.map_some]
    by_cases stop : state.position = 0 ∧ state.unresolved.length = state.prevLength
    · simp only [if_neg empty, if_pos stop, Option.map_some]
    simp only [if_neg empty, if_neg stop, ← ih, next]
    cases resolved : (ArcSummary.resolve state.func state.arc).1 <;> simp

/-- `FunctionSummary.Resolve` ends on every function, and so does its loop whatever becomes of the
arcs. True is returned with an empty worklist only. -/
theorem worklist_ends (func : FunctionSummary) :
    (∀ outcome, ∃ fuel result, Loop.run (iterate outcome) fuel (start func) = some result ∧
      (result.1 = true → result.2.unresolved = [])) ∧
    ∃ fuel last,
      Loop.run (iterate ArcSummary.resolve) fuel (start func) = some (func.resolve.1, last) ∧
        (func.resolve.1 = true → last.unresolved = []) := by
  constructor
  · intro outcome
    obtain ⟨fuel, result, ran⟩ := ends outcome (start func) (Nat.zero_le _)
    exact ⟨fuel, result, ran, unresolved_of_run ran⟩
  · have returned := resolveLoop_eq (FunctionSummary.resolveFuel func.unresolvedArcs) (start func)
    have decided := returned.symm.trans (FunctionSummary.resolveArcs_eq func)
    obtain ⟨⟨value, last⟩, ran, same⟩ := Option.map_eq_some_iff.mp decided
    obtain rfl : value = func.resolve.1 :=
      (congrArg Prod.fst same).trans (FunctionSummary.resolve_fst func).symm
    exact ⟨_, last, ran, unresolved_of_run ran⟩

end Worklist

end Vts.Coverage
