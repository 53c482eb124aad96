import Mathlib.Logic.Relation

/-!
# Runs of a step relation

A step takes a state to another one and is labelled with the event that it is. A run is any number
of steps, each of which meets a condition on the event and the state before it. The rule of this
module is the one for invariants of runs.
-/

namespace Vts.Lib

universe u v
variable {σ : Type u} {ε : Type v}

/-- A step that meets a condition. -/
def Meeting (step : σ → ε → σ → Prop) (condition : σ → ε → Prop) (state next : σ) : Prop :=
  ∃ event, condition state event ∧ step state event next

/-- The states that runs lead to whose steps meet a condition. -/
def Leads (step : σ → ε → σ → Prop) (condition : σ → ε → Prop) : σ → σ → Prop :=
  Relation.ReflTransGen (Meeting step condition)

variable {step : σ → ε → σ → Prop} {condition : σ → ε → Prop}

theorem Leads.next {start state next : σ} (leads : Leads step condition start state) (event : ε)
    (meets : condition state event) (done : step state event next) :
    Leads step condition start next :=
  Relation.ReflTransGen.tail leads ⟨event, meets, done⟩

/-- What every step keeps that meets the condition holds after every run of such steps. -/
theorem Leads.invariant {invariant : σ → Prop}
    (kept : ∀ state event next, invariant state → condition state event → step state event next →
      invariant next)
    {start state : σ} (leads : Leads step condition start state) (begins : invariant start) :
    invariant state := by
  induction leads with
  | refl => exact begins
  | tail _ last ih =>
    obtain ⟨event, meets, done⟩ := last
    exact kept _ event _ ih meets done

end Vts.Lib
