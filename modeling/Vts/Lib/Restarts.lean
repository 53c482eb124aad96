import Mathlib.Data.List.Dedup
import Mathlib.Data.List.Induction

/-!
# Intersections that start afresh

The common elements of a sequence of sets, folded from the left, where an empty result so far means
that there was no set so far. When the sets so far have nothing in common, the fold takes the next
set as its first. Proved here: for nonempty sets the result is the intersection exactly when there
is no such restart whose last part has a common element.
-/

namespace Vts.Lib

open List

variable {α : Type} [DecidableEq α]

/-- One round: the first set is taken, or the kept elements are cut down to the next set. -/
def meet (kept next : List α) : List α :=
  if kept = [] then next.dedup else kept.filter (· ∈ next)

/-- The elements that are kept in the end. -/
def meets (sets : List (List α)) (kept : List α) : List α := sets.foldl meet kept

/-- An element of all sets. -/
def Common (sets : List (List α)) (element : α) : Prop := ∀ set ∈ sets, element ∈ set

/-- Sets in blocks, each of which has nothing in common, but would without its last set. -/
inductive Cancels : List (List α) → Prop where
  | nil : Cancels []
  | block {front rest : List (List α)} {last : List α} (element : α) (nonempty : front ≠ [])
      (shared : Common front element) (apart : ∀ element, ¬ Common (front ++ [last]) element)
      (blocks : Cancels rest) : Cancels (front ++ [last] ++ rest)

/-- After blocks that cancel there are sets with a common element. -/
def Restarts (sets : List (List α)) : Prop :=
  ∃ first rest, sets = first ++ rest ∧ first ≠ [] ∧ Cancels first ∧ rest ≠ [] ∧
    ∃ element, Common rest element

omit [DecidableEq α]

theorem common_append {front rest : List (List α)} {element : α} :
    Common (front ++ rest) element ↔ Common front element ∧ Common rest element := by
  simp only [Common, forall_mem_append]

theorem common_singleton {set : List α} {element : α} :
    Common [set] element ↔ element ∈ set := by
  simp only [Common, forall_mem_singleton]

/-- One more block at the end. -/
theorem Cancels.concat {first front : List (List α)} {last : List α} {element : α}
    (cancels : Cancels first) (nonempty : front ≠ []) (shared : Common front element)
    (apart : ∀ element, ¬ Common (front ++ [last]) element) :
    Cancels (first ++ (front ++ [last])) := by
  induction cancels with
  | nil =>
    have only := Cancels.block element nonempty shared apart .nil
    rwa [append_nil] at only
  | block earlier earlierNonempty earlierShared earlierApart _ ih =>
    rw [append_assoc]
    exact .block earlier earlierNonempty earlierShared earlierApart ih

/-- Blocks that cancel have nothing in common. -/
theorem Cancels.apart {first : List (List α)} (cancels : Cancels first) (nonempty : first ≠ [])
    (element : α) : ¬ Common first element := by
  cases cancels with
  | nil => exact absurd rfl nonempty
  | block _ _ _ apart _ => exact fun shared => apart element (common_append.mp shared).1

/-- Nonempty sets are blocks that cancel, and sets with a common element after them. -/
theorem exists_cancels {sets : List (List α)} (nonempty : ∀ set ∈ sets, set ≠ []) :
    ∃ first current, sets = first ++ current ∧ Cancels first ∧
      (current = [] ∨ ∃ element, Common current element) := by
  induction sets using List.reverseRecOn with
  | nil => exact ⟨[], [], rfl, .nil, .inl rfl⟩
  | append_singleton sets last ih =>
    rw [forall_mem_append, forall_mem_singleton] at nonempty
    obtain ⟨first, current, rfl, cancels, current_shared⟩ := ih nonempty.1
    rw [append_assoc]
    by_cases common : ∃ element, Common (current ++ [last]) element
    · exact ⟨first, current ++ [last], rfl, cancels, .inr common⟩
    · refine ⟨first ++ (current ++ [last]), [], (append_nil _).symm, ?_, .inl rfl⟩
      rw [not_exists] at common
      rcases current_shared with rfl | ⟨element, shared⟩
      · obtain ⟨element, there⟩ := exists_mem_of_ne_nil last nonempty.2
        exact absurd (common_singleton.mpr there) (common element)
      · have begun : current ≠ [] := by
          rintro rfl
          obtain ⟨element, there⟩ := exists_mem_of_ne_nil last nonempty.2
          exact common element (common_singleton.mpr there)
        exact cancels.concat begun shared common

variable [DecidableEq α]

theorem meets_append (front rest : List (List α)) (kept : List α) :
    meets (front ++ rest) kept = meets rest (meets front kept) := foldl_append

theorem meets_nodup {sets : List (List α)} {kept : List α} (distinct : kept.Nodup) :
    (meets sets kept).Nodup := by
  induction sets generalizing kept with
  | nil => exact distinct
  | cons next rest ih =>
    refine ih ?_
    unfold meet
    split
    · exact next.nodup_dedup
    · exact distinct.filter _

theorem mem_meets {sets : List (List α)} {shared : α} (nonempty : sets ≠ [])
    (common : Common sets shared) (element : α) :
    element ∈ meets sets [] ↔ Common sets element := by
  induction sets using List.reverseRecOn generalizing element with
  | nil => exact absurd rfl nonempty
  | append_singleton front last ih =>
    rw [meets_append, common_append, common_singleton]
    change element ∈ meet (meets front []) last ↔ _
    cases front with
    | nil => simp [meets, meet, Common]
    | cons first rest =>
      have inside := ih (cons_ne_nil _ _) (common_append.mp common).1
      have kept : meets (first :: rest) [] ≠ [] :=
        ne_nil_of_mem ((inside shared).mpr (common_append.mp common).1)
      rw [meet, if_neg kept, mem_filter, decide_eq_true_iff, inside]

theorem meets_block {front : List (List α)} {last : List α} {shared : α} (nonempty : front ≠ [])
    (common : Common front shared) (apart : ∀ element, ¬ Common (front ++ [last]) element) :
    meets (front ++ [last]) [] = [] := by
  have inside := mem_meets nonempty common
  rw [meets_append]
  change meet (meets front []) last = []
  rw [meet, if_neg (ne_nil_of_mem ((inside shared).mpr common)), filter_eq_nil_iff]
  intro element kept there
  refine apart element (common_append.mpr ⟨(inside element).mp kept, ?_⟩)
  exact common_singleton.mpr (of_decide_eq_true there)

/-- Blocks that cancel leave nothing. -/
theorem Cancels.meets {first : List (List α)} (cancels : Cancels first) :
    meets first [] = [] := by
  induction cancels with
  | nil => rfl
  | block _ nonempty shared apart _ ih =>
    rw [meets_append, meets_block nonempty shared apart, ih]

/-- What is kept of nonempty sets are their common elements exactly when there is no restart. -/
theorem mem_meets_iff {sets : List (List α)} (someSet : sets ≠ [])
    (nonempty : ∀ set ∈ sets, set ≠ []) :
    (∀ element, element ∈ meets sets [] ↔ Common sets element) ↔ ¬ Restarts sets := by
  constructor
  · rintro right ⟨first, rest, rfl, begun, cancels, restNonempty, element, shared⟩
    have kept : element ∈ meets (first ++ rest) [] := by
      rw [meets_append, cancels.meets]
      exact (mem_meets restNonempty shared element).mpr shared
    exact cancels.apart begun element (common_append.mp ((right element).mp kept)).1
  · intro never element
    obtain ⟨first, current, rfl, cancels, current_shared⟩ := exists_cancels nonempty
    by_cases begun : first = []
    · subst begun
      rcases current_shared with rfl | ⟨shared, common⟩
      · exact absurd rfl someSet
      · exact mem_meets someSet common element
    · have closed : current = [] := by
        by_contra continued
        exact never ⟨first, current, rfl, begun, cancels, continued,
          current_shared.resolve_left continued⟩
      subst closed
      rw [append_nil, cancels.meets]
      exact iff_of_false not_mem_nil (cancels.apart begun element)

end Vts.Lib
