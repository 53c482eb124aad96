import Mathlib.Data.Set.Insert

/-!
# Saturation under a monotone rule system

A rule system decides when an item may be added to the items already known. The
only law asked of it is monotonicity: knowing more never disables an item. A
derivation adds enabled target items one at a time, in any order. A set is
saturated when no target outside it is enabled.

The one result is that a saturated set contains everything any derivation from a
smaller start can add, so the order in which items are tried cannot matter to a
procedure that stops only at saturation.
-/

namespace Vts.Lib.Saturation

universe u
variable {α : Type u}

/-- A monotone rule system over an arbitrary carrier. -/
structure Rules (α : Type u) where
  /-- The item may be added when these items are known. -/
  enabled : Set α → α → Prop
  /-- Further knowledge keeps an enabled item enabled. -/
  monotone : ∀ {known larger item}, known ⊆ larger → enabled known item → enabled larger item

/-- One derivation step adds one enabled target that was not known. -/
def Step (rules : Rules α) (targets known next : Set α) : Prop :=
  ∃ item ∈ targets, item ∉ known ∧ rules.enabled known item ∧ next = insert item known

/-- No unknown target is enabled. -/
def Saturated (rules : Rules α) (targets known : Set α) : Prop :=
  ∀ item ∈ targets, item ∉ known → ¬ rules.enabled known item

/-- A saturated set above the start of a derivation is above its end. The first
item to leave the saturated set would be enabled there by monotonicity. -/
theorem derived_subset_saturated (rules : Rules α) (targets start known saturated : Set α)
    (derivation : Relation.ReflTransGen (Step rules targets) start known)
    (above : start ⊆ saturated) (closed : Saturated rules targets saturated) :
    known ⊆ saturated := by
  induction derivation with
  | refl => exact above
  | tail _ last ih =>
    obtain ⟨item, target, _, enabled, rfl⟩ := last
    intro other member
    rcases Set.mem_insert_iff.mp member with rfl | earlier
    · by_contra outside
      exact closed other target outside (rules.monotone ih enabled)
    · exact ih earlier

end Vts.Lib.Saturation
