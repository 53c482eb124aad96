/-!
# Walks that may end early

A loop goes through a list until something stops it. It comes to an item exactly
when it has passed all items before it. `InOrder` says of a property that it holds
of every item that the loop comes to.
-/

namespace Vts.Lib

universe u
variable {α : Type u}

/-- Every item that the walk comes to is usable. -/
def InOrder (passed usable : α → Prop) (items : List α) : Prop :=
  ∀ before item after, items = before ++ item :: after →
    (∀ earlier ∈ before, passed earlier) → usable item

theorem inOrder_nil (passed usable : α → Prop) : InOrder passed usable [] := by
  intro before item after split
  cases before <;> cases split

/-- The walk comes to the first item, and to the others once it has passed it. -/
theorem inOrder_cons_iff {passed usable : α → Prop} {item : α} {items : List α} :
    InOrder passed usable (item :: items) ↔
      usable item ∧ (passed item → InOrder passed usable items) := by
  constructor
  · intro walk
    refine ⟨walk [] item items rfl (by simp), ?_⟩
    intro isPassed before other after split reached
    refine walk (item :: before) other after (by simp [split]) ?_
    intro earlier listed
    rcases List.mem_cons.mp listed with rfl | later
    · exact isPassed
    · exact reached earlier later
  · rintro ⟨first, others⟩ before other after split reached
    cases before with
    | nil =>
      cases split
      exact first
    | cons head before =>
      cases split
      exact others (reached item (by simp)) before other after rfl
        fun earlier listed => reached earlier (by simp [listed])

/-- A walk on which everything is usable. -/
theorem inOrder_of_forall {passed usable : α → Prop} {items : List α}
    (all : ∀ item ∈ items, usable item) : InOrder passed usable items := by
  rintro before item after rfl _
  exact all item (by simp)

end Vts.Lib
