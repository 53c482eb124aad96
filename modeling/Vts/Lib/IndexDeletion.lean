import Mathlib.Data.List.Basic

/-!
# Deleting collected positions

A loop that must not change the list it runs over first collects the positions of the
items to delete and then deletes them from the last to the first, so that no deletion
moves a position that is still to be deleted. The result is the list of the items that
were not collected, in their order.
-/

namespace Vts.Lib.IndexDeletion

variable {α : Type*}

/-- The positions of the items that satisfy a test, in increasing order. -/
def collect (test : α → Bool) (items : List α) : List Nat :=
  (List.range items.length).filter (fun index => items[index]?.any test)

/-- Delete positions one after another. -/
def deleteEach (indices : List Nat) (items : List α) : List α :=
  indices.foldl (fun remaining index => remaining.eraseIdx index) items

theorem collect_cons (test : α → Bool) (item : α) (items : List α) :
    collect test (item :: items) =
      (if test item then [0] else []) ++ (collect test items).map Nat.succ := by
  have shifted : (List.map Nat.succ (List.range items.length)).filter
        (fun index => (item :: items)[index]?.any test) =
      (collect test items).map Nat.succ := by
    rw [List.filter_map]
    rfl
  unfold collect at shifted ⊢
  rw [List.length_cons, List.range_succ_eq_map, List.filter_cons, shifted]
  cases tested : test item <;> simp [tested]

theorem deleteEach_append (first second : List Nat) (items : List α) :
    deleteEach (first ++ second) items = deleteEach second (deleteEach first items) := by
  simp [deleteEach]

/-- Deletions behind the first position leave it alone. -/
theorem deleteEach_succ (indices : List Nat) (item : α) (items : List α) :
    deleteEach (indices.map Nat.succ) (item :: items) = item :: deleteEach indices items := by
  induction indices generalizing items with
  | nil => rfl
  | cons index rest ih =>
    exact ih (items.eraseIdx index)

/-- Deleting the collected positions from the last to the first keeps exactly the items
that fail the test. -/
theorem deleteEach_collect (test : α → Bool) (items : List α) :
    deleteEach (collect test items).reverse items = items.filter (fun item => !test item) := by
  induction items with
  | nil => rfl
  | cons item items ih =>
    rw [collect_cons, List.reverse_append, ← List.map_reverse, deleteEach_append,
      deleteEach_succ, ih]
    cases tested : test item <;> simp [deleteEach, tested]

end Vts.Lib.IndexDeletion
