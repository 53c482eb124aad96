/-!
# Computations that send messages

A computation changes a state, and a part of the state is the list of what was sent. The rules say
how many messages a computation sends from what its parts send: a part is silent, or it sends one
message and returns that it did.
-/

namespace Vts.Lib

variable {σ α β μ : Type} {sent : σ → List μ}

/-- The computation sends nothing. -/
def Silent (sent : σ → List μ) (action : StateM σ α) : Prop :=
  ∀ state, sent (action.run state).2 = sent state

/-- The computation sends one message and returns true. -/
def SendsOne (sent : σ → List μ) (action : StateM σ Bool) : Prop :=
  ∀ state, (action.run state).1 = true ∧
    ∃ message, sent (action.run state).2 = sent state ++ [message]

theorem Silent.pure (value : α) : Silent sent (Pure.pure value) := fun _ => rfl

theorem Silent.bind {first : StateM σ α} {next : α → StateM σ β} (silent : Silent sent first)
    (silentToo : ∀ value, Silent sent (next value)) : Silent sent (first >>= next) := fun state =>
  (silentToo _ _).trans (silent state)

theorem SendsOne.bind {first : StateM σ α} {next : α → StateM σ Bool} (silent : Silent sent first)
    (sends : ∀ value, SendsOne sent (next value)) : SendsOne sent (first >>= next) := by
  intro state
  obtain ⟨returned, message, after⟩ := sends (first.run state).1 (first.run state).2
  rw [silent state] at after
  exact ⟨returned, message, after⟩

end Vts.Lib
