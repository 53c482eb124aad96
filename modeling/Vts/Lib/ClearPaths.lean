import Mathlib.Data.Set.Insert

/-!
# Paths that avoid closed nodes

A path is clear if no node behind its start is closed. A search that closes the nodes of its
current path misses nothing: a path that comes back to a node can be taken from its last visit
there.
-/

namespace Vts.Lib

universe u
variable {α : Type u} {next : α → α → Prop}

/-- A node is reached without a closed one behind the start. -/
def Clear (next : α → α → Prop) (closed : Set α) : α → α → Prop :=
  Relation.ReflTransGen fun source target => next source target ∧ target ∉ closed

theorem clear_empty : Clear next ∅ = Relation.ReflTransGen next := by
  rw [Clear]
  simp only [Set.mem_empty_iff_false, not_false_eq_true, and_true]

/-- With fewer closed nodes no path is lost. -/
theorem Clear.mono {closed fewer : Set α} {start target : α} (subset : fewer ⊆ closed)
    (clear : Clear next closed start target) : Clear next fewer start target := by
  apply Relation.ReflTransGen.mono _ _ _ clear
  rintro source middle ⟨edge, outside⟩
  exact ⟨edge, fun inside => outside (subset inside)⟩

/-- From its last visit on, a path does not come back to its start. -/
theorem Clear.close_start {closed : Set α} {start target : α}
    (clear : Clear next closed start target) : Clear next (insert start closed) start target := by
  induction clear with
  | refl => exact Relation.ReflTransGen.refl
  | @tail middle target _ edge ih =>
    by_cases again : target = start
    · subst again
      exact Relation.ReflTransGen.refl
    · have outside : target ∉ insert start closed := by
        rintro (same | inside)
        · exact again same
        · exact edge.2 inside
      exact ih.tail ⟨edge.1, outside⟩

/-- The first edge of a clear path; its target can be closed for the rest. -/
theorem clear_iff {closed : Set α} {start target : α} :
    Clear next closed start target ↔
      target = start ∨ ∃ middle, next start middle ∧ middle ∉ closed ∧
        Clear next (insert middle closed) middle target := by
  constructor
  · intro clear
    rcases Relation.ReflTransGen.cases_head clear with same | ⟨middle, ⟨edge, outside⟩, rest⟩
    · exact .inl same.symm
    · exact .inr ⟨middle, edge, outside, Clear.close_start rest⟩
  · rintro (rfl | ⟨middle, edge, outside, rest⟩)
    · exact Relation.ReflTransGen.refl
    · have further : Clear next closed middle target := rest.mono (Set.subset_insert _ _)
      exact Relation.ReflTransGen.head ⟨edge, outside⟩ further

end Vts.Lib
