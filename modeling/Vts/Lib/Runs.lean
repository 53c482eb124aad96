/-!
# Runs whose steps meet a condition

A step function takes a state and an event, and a run is a list of events. The rule of this module
is the one for invariants: what the steps keep that meet a condition on the event and the state
before it, holds after every run of such steps.
-/

namespace Vts.Lib

universe u v
variable {σ : Type u} {ε : Type v}

/-- The state after a run. -/
def run (step : σ → ε → σ) (state : σ) (events : List ε) : σ := events.foldl step state

/-- All steps of a run meet a condition. -/
def AllMeet (step : σ → ε → σ) (condition : σ → ε → Prop) : σ → List ε → Prop
  | _, [] => True
  | state, event :: events =>
    condition state event ∧ AllMeet step condition (step state event) events

variable {step : σ → ε → σ} {condition : σ → ε → Prop}

@[simp] theorem run_nil (state : σ) : run step state [] = state := rfl

@[simp] theorem run_cons (state : σ) (event : ε) (events : List ε) :
    run step state (event :: events) = run step (step state event) events := rfl

theorem run_append (state : σ) (before after : List ε) :
    run step state (before ++ after) = run step (run step state before) after :=
  List.foldl_append

theorem allMeet_append {state : σ} {before after : List ε} :
    AllMeet step condition state (before ++ after) ↔
      AllMeet step condition state before ∧
        AllMeet step condition (run step state before) after := by
  induction before generalizing state with
  | nil => simp [AllMeet]
  | cons event before ih =>
    simp only [List.cons_append, AllMeet, run_cons, ih, and_assoc]

/-- What every step keeps that meets the condition, a run of such steps keeps. -/
theorem AllMeet.invariant {invariant : σ → Prop}
    (kept : ∀ state event, invariant state → condition state event →
      invariant (step state event))
    {state : σ} {events : List ε} (meet : AllMeet step condition state events)
    (start : invariant state) : invariant (run step state events) := by
  induction events generalizing state with
  | nil => exact start
  | cons event events ih =>
    exact ih meet.2 (kept state event start meet.1)

theorem allMeet_iff_steps {state : σ} {events : List ε} :
    AllMeet step condition state events ↔
      ∀ before event after, events = before ++ event :: after →
        condition (run step state before) event := by
  constructor
  · rintro meet before event after rfl
    exact (allMeet_append.mp meet).2.1
  · intro each
    induction events generalizing state with
    | nil => trivial
    | cons event events ih =>
      refine ⟨each [] event events rfl, ih ?_⟩
      rintro before later after rfl
      exact each (event :: before) later after rfl

/-- Conditions that are the same in every state that keeps an invariant. -/
theorem allMeet_congr {invariant : σ → Prop} {other : σ → ε → Prop}
    (kept : ∀ state event, invariant state → invariant (step state event))
    (same : ∀ state event, invariant state → (condition state event ↔ other state event))
    {state : σ} {events : List ε} (start : invariant state) :
    AllMeet step condition state events ↔ AllMeet step other state events := by
  induction events generalizing state with
  | nil => rfl
  | cons event events ih =>
    exact and_congr (same state event start) (ih (kept state event start))

/-- Where a step keeps an invariant exactly if it meets the condition, the invariant holds all the way
through a run exactly if every step meets it. -/
theorem allMeet_iff_prefixes {invariant : σ → Prop}
    (exact : ∀ state event, invariant state →
      (invariant (step state event) ↔ condition state event))
    {state : σ} {events : List ε} (start : invariant state) :
    (∀ before, before <+: events → invariant (run step state before)) ↔
      AllMeet step condition state events := by
  constructor
  · intro throughout
    induction events generalizing state with
    | nil => trivial
    | cons event events ih =>
      have next : invariant (step state event) := throughout [event] ⟨events, rfl⟩
      refine ⟨(exact state event start).mp next, ih next ?_⟩
      intro before isPrefix
      exact throughout (event :: before) (List.cons_prefix_cons.mpr ⟨rfl, isPrefix⟩)
  · rintro meet before ⟨after, rfl⟩
    refine (allMeet_append.mp meet).1.invariant ?_ start
    intro state event held meets
    exact (exact state event held).mpr meets

end Vts.Lib
