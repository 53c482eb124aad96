import Mathlib.Data.List.Basic

/-!
# Searching a stack with a second one

To look below the top of a stack, its items are moved one by one to a spare stack until
the top is the item looked for; the moved items are moved back afterwards. The head of a
list is the top. `unwind` is the search and `rewind` the way back.
-/

namespace Vts.Lib.StackSearch

variable {α : Type*}

/-- Move items to the spare stack until the top satisfies the test or nothing is left. -/
def unwind (test : α → Bool) : List α → List α → List α × List α
  | [], spare => ([], spare)
  | top :: below, spare =>
    if test top then (top :: below, spare) else unwind test below (top :: spare)

/-- Move all items of the spare stack back. -/
def rewind : List α → List α → List α
  | [], stack => stack
  | top :: below, stack => rewind below (top :: stack)

theorem rewind_eq (spare stack : List α) : rewind spare stack = spare.reverse ++ stack := by
  induction spare generalizing stack with
  | nil => rfl
  | cons top below ih => simp [rewind, ih]

/-- Without a match everything ends up on the spare stack. -/
theorem unwind_of_none {test : α → Bool} {stack : List α} (spare : List α)
    (absent : stack.find? test = none) : unwind test stack spare = ([], stack.reverse ++ spare) := by
  induction stack generalizing spare with
  | nil => rfl
  | cons top below ih =>
    obtain ⟨failed, rest⟩ : test top = false ∧ below.find? test = none := by
      simpa [List.find?_eq_none] using absent
    simp [unwind, failed, ih _ rest]

/-- The search stops at the uppermost match; moving the items back leaves the stack
without it. -/
theorem unwind_of_some {test : α → Bool} {stack : List α} {found : α} (spare : List α)
    (present : stack.find? test = some found) :
    ∃ below moved, unwind test stack spare = (found :: below, moved ++ spare) ∧
      rewind moved below = stack.eraseP test := by
  induction stack generalizing spare with
  | nil => cases present
  | cons top below ih =>
    cases tested : test top with
    | true =>
      obtain rfl : top = found := by simpa [tested] using present
      exact ⟨below, [], by simp [unwind, tested], by simp [rewind, tested]⟩
    | false =>
      have later : below.find? test = some found := by simpa [tested] using present
      obtain ⟨rest, moved, searched, back⟩ := ih (top :: spare) later
      refine ⟨rest, moved ++ [top], by simp [unwind, tested, searched], ?_⟩
      rw [rewind_eq] at back ⊢
      simp [tested, ← back]

end Vts.Lib.StackSearch
