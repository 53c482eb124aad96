import Mathlib.Order.Lattice

/-!
# Maps that are walked in the order of their keys

The associative container of the C++ library: a key occurs once, the entries are met in ascending
order, and inserting under a key that is present changes nothing. The entries are a sorted list,
and being sorted is part of the type, so every key leads to at most one entry.
-/

namespace Vts.Lib

open List

universe u v

/-- Entries in ascending order of their keys. -/
structure OrderedMap (κ : Type u) (α : Type v) [LinearOrder κ] where
  entries : List (κ × α)
  sorted : entries.Pairwise fun first second => first.1 < second.1

namespace OrderedMap

variable {κ : Type u} {α : Type v} [LinearOrder κ]

def empty : OrderedMap κ α := ⟨[], .nil⟩

/-- The entries with one more, unless its key is there. -/
def insertEntry (key : κ) (value : α) : List (κ × α) → List (κ × α)
  | [] => [(key, value)]
  | entry :: rest =>
    if key < entry.1 then (key, value) :: entry :: rest
    else if key = entry.1 then entry :: rest
    else entry :: insertEntry key value rest

section

variable {key : κ} {value : α} {list : List (κ × α)} {entry : κ × α} {map : OrderedMap κ α}
  {other : κ} (entries : List (κ × α))

theorem mem_of_mem_insertEntry (listed : entry ∈ insertEntry key value list) :
    entry ∈ list ∨ entry = (key, value) := by
  induction list with
  | nil => exact .inr (mem_singleton.mp listed)
  | cons head rest ih =>
    rw [insertEntry] at listed
    split at listed
    · rcases mem_cons.mp listed with new | old
      · exact .inr new
      · exact .inl old
    · split at listed
      · exact .inl listed
      · rcases mem_cons.mp listed with first | later
        · exact .inl (first ▸ mem_cons_self)
        · exact (ih later).imp_left (mem_cons_of_mem _)

theorem mem_insertEntry_of_mem (listed : entry ∈ list) : entry ∈ insertEntry key value list := by
  induction list with
  | nil => exact (not_mem_nil listed).elim
  | cons head rest ih =>
    rw [insertEntry]
    split
    · exact mem_cons_of_mem _ listed
    · split
      · exact listed
      · rcases mem_cons.mp listed with first | later
        · exact first ▸ mem_cons_self
        · exact mem_cons_of_mem _ (ih later)

theorem mem_insertEntry_self (absent : key ∉ list.map Prod.fst) :
    (key, value) ∈ insertEntry key value list := by
  induction list with
  | nil => exact mem_singleton_self _
  | cons head rest ih =>
    rw [map_cons, mem_cons, not_or] at absent
    rw [insertEntry]
    split
    · exact mem_cons_self
    · rw [if_neg absent.1]
      exact mem_cons_of_mem _ (ih absent.2)

theorem length_insertEntry (absent : key ∉ list.map Prod.fst) :
    (insertEntry key value list).length = list.length + 1 := by
  induction list with
  | nil => rfl
  | cons head rest ih =>
    rw [map_cons, mem_cons, not_or] at absent
    rw [insertEntry]
    split
    · rfl
    · rw [if_neg absent.1, length_cons, ih absent.2]
      rfl

theorem sorted_insertEntry (sorted : list.Pairwise fun first second => first.1 < second.1) :
    (insertEntry key value list).Pairwise fun first second => first.1 < second.1 := by
  induction list with
  | nil => exact pairwise_singleton _ _
  | cons head rest ih =>
    obtain ⟨least, restSorted⟩ := pairwise_cons.mp sorted
    rw [insertEntry]
    split
    · rename_i before
      refine pairwise_cons.mpr ⟨fun entry listed => ?_, sorted⟩
      rcases mem_cons.mp listed with rfl | later
      · exact before
      · exact lt_trans before (least entry later)
    · rename_i notBefore
      split
      · exact sorted
      · rename_i different
        refine pairwise_cons.mpr ⟨fun entry listed => ?_, ih restSorted⟩
        rcases mem_of_mem_insertEntry listed with old | rfl
        · exact least entry old
        · exact lt_of_le_of_ne (not_lt.mp notBefore) (Ne.symm different)

/-- `insert` of the C++ map: a key that is present keeps its value. -/
def insert (map : OrderedMap κ α) (key : κ) (value : α) : OrderedMap κ α :=
  ⟨insertEntry key value map.entries, sorted_insertEntry map.sorted⟩

/-- `find` of the C++ map. -/
def find (map : OrderedMap κ α) (key : κ) : Option α := map.entries.lookup key

def size (map : OrderedMap κ α) : Nat := map.entries.length

def keys (map : OrderedMap κ α) : List κ := map.entries.map Prod.fst

theorem find_eq_some_iff : map.find key = some value ↔ (key, value) ∈ map.entries := by
  obtain ⟨entries, sorted⟩ := map
  unfold find
  induction entries with
  | nil => simp
  | cons head rest ih =>
    obtain ⟨least, restSorted⟩ := pairwise_cons.mp sorted
    obtain ⟨first, stored⟩ := head
    rw [lookup_cons]
    by_cases same : key = first
    · subst same
      rw [beq_self_eq_true, mem_cons]
      constructor
      · intro found
        exact .inl (Prod.ext rfl (Option.some.inj found).symm)
      · rintro (equal | later)
        · exact congrArg some (Prod.mk.inj equal).2.symm
        · exact absurd (least _ later) (lt_irrefl _)
    · rw [beq_eq_false_iff_ne.mpr same, mem_cons]
      refine (ih restSorted).trans ⟨.inr, ?_⟩
      rintro (equal | later)
      · exact absurd (Prod.mk.inj equal).1 same
      · exact later

theorem mem_keys_of_find (found : map.find key = some value) : key ∈ map.keys :=
  mem_map.mpr ⟨(key, value), find_eq_some_iff.mp found, rfl⟩

theorem not_mem_keys_of_find (absent : map.find key = none) : key ∉ map.keys := by
  intro present
  obtain ⟨entry, inside, rfl⟩ := mem_map.mp present
  rw [find_eq_some_iff.mpr inside] at absent
  exact absurd absent (by simp)

/-- A key that is present keeps leading to its value. -/
theorem find_insert_of_find {stored : α} (found : map.find other = some stored) :
    (map.insert key value).find other = some stored :=
  find_eq_some_iff.mpr (mem_insertEntry_of_mem (find_eq_some_iff.mp found))

theorem find_insert_self (absent : key ∉ map.keys) : (map.insert key value).find key = some value :=
  find_eq_some_iff.mpr (mem_insertEntry_self absent)

theorem find_insert_other (different : other ≠ key) :
    (map.insert key value).find other = map.find other := by
  refine Option.ext fun stored => ?_
  rw [find_eq_some_iff, find_eq_some_iff]
  constructor
  · intro listed
    rcases mem_of_mem_insertEntry listed with old | new
    · exact old
    · exact absurd (congrArg Prod.fst new) different
  · exact mem_insertEntry_of_mem

theorem mem_keys_insert : other ∈ (map.insert key value).keys ↔ other ∈ map.keys ∨ other = key := by
  constructor
  · intro present
    obtain ⟨entry, inside, rfl⟩ := mem_map.mp present
    rcases mem_of_mem_insertEntry inside with old | new
    · exact .inl (mem_map_of_mem old)
    · exact .inr (congrArg Prod.fst new)
  · rintro (present | rfl)
    · obtain ⟨entry, inside, rfl⟩ := mem_map.mp present
      exact mem_map_of_mem (mem_insertEntry_of_mem inside)
    · by_cases known : other ∈ map.keys
      · obtain ⟨entry, inside, rfl⟩ := mem_map.mp known
        exact mem_map_of_mem (mem_insertEntry_of_mem inside)
      · exact mem_keys_of_find (find_insert_self known)

/-- `map[key] = f(map[key])` of the C++ map, for a key that is present. -/
def modify (map : OrderedMap κ α) (key : κ) (f : α → α) : OrderedMap κ α where
  entries := map.entries.map fun entry => (entry.1, if entry.1 = key then f entry.2 else entry.2)
  sorted := List.pairwise_map.mpr map.sorted

theorem lookup_modify (key other : κ) (f : α → α) :
    (entries.map fun entry => (entry.1, if entry.1 = key then f entry.2 else entry.2)).lookup
        other =
      if other = key then (entries.lookup other).map f else entries.lookup other := by
  induction entries with
  | nil => split_ifs <;> rfl
  | cons head rest ih =>
    rw [map_cons, lookup_cons, lookup_cons]
    by_cases here : other = head.1
    · rw [beq_iff_eq.mpr here, here]
      split_ifs <;> rfl
    · rw [beq_eq_false_iff_ne.mpr here]
      exact ih

theorem find_modify (map : OrderedMap κ α) (key other : κ) (f : α → α) :
    (map.modify key f).find other =
      if other = key then (map.find other).map f else map.find other :=
  lookup_modify map.entries key other f

theorem modify_entries (key : κ) (f : α → α) (absent : key ∉ entries.map Prod.fst) :
    (entries.map fun entry => (entry.1, if entry.1 = key then f entry.2 else entry.2)) =
      entries := by
  refine (map_congr_left fun entry inside => ?_).trans (map_id entries)
  rw [if_neg fun same => absent (mem_map.mpr ⟨entry, inside, same⟩)]
  rfl

/-- A map with a key is its entry and others, of which the change leaves all as they are. -/
theorem modify_perm (f : α → α) (found : map.find key = some value) :
    ∃ others, map.entries.Perm ((key, value) :: others) ∧
      (map.modify key f).entries.Perm ((key, f value) :: others) := by
  obtain ⟨before, after, split⟩ := append_of_mem (find_eq_some_iff.mp found)
  have sorted := map.sorted
  rw [split, pairwise_append] at sorted
  obtain ⟨_, afterSorted, across⟩ := sorted
  have early : key ∉ before.map Prod.fst := by
    intro present
    obtain ⟨entry, inside, same⟩ := mem_map.mp present
    exact absurd (across entry inside _ mem_cons_self) (same ▸ lt_irrefl _)
  have late : key ∉ after.map Prod.fst := by
    intro present
    obtain ⟨entry, inside, same⟩ := mem_map.mp present
    exact absurd ((pairwise_cons.mp afterSorted).1 entry inside) (same ▸ lt_irrefl _)
  refine ⟨before ++ after, split ▸ perm_middle, ?_⟩
  unfold modify
  simp only [split]
  rw [map_append, map_cons, modify_entries before key f early,
    modify_entries after key f late, if_pos rfl]
  exact perm_middle

theorem insert_perm (absent : key ∉ map.keys) :
    (map.insert key value).entries.Perm ((key, value) :: map.entries) := by
  have inserted : ∀ {entries : List (κ × α)}, key ∉ entries.map Prod.fst →
      (insertEntry key value entries).Perm ((key, value) :: entries) := by
    intro entries fresh
    induction entries with
    | nil => exact List.Perm.refl _
    | cons head rest ih =>
      rw [map_cons, mem_cons, not_or] at fresh
      rw [insertEntry]
      split
      · exact List.Perm.refl _
      · rw [if_neg fresh.1]
        exact ((ih fresh.2).cons head).trans (List.Perm.swap _ _ _)
  exact inserted absent

end

/-- The map with other values. -/
def mapValues {β : Type v} (map : OrderedMap κ α) (f : α → β) : OrderedMap κ β where
  entries := map.entries.map fun entry => (entry.1, f entry.2)
  sorted := List.pairwise_map.mpr map.sorted

theorem find_mapValues {β : Type v} (map : OrderedMap κ α) (f : α → β) (key : κ) :
    (map.mapValues f).find key = (map.find key).map f := by
  have lookup : ∀ entries : List (κ × α),
      (entries.map fun entry => (entry.1, f entry.2)).lookup key =
        (entries.lookup key).map f := by
    intro entries
    induction entries with
    | nil => rfl
    | cons head rest ih =>
      rw [map_cons, lookup_cons, lookup_cons]
      cases key == head.1 with
      | true => rfl
      | false => exact ih
  exact lookup map.entries

section Lists

variable (map : OrderedMap κ (List α)) (key : κ) (value : α)

/-- The value is appended to the list under the key, or is the first one of a new list. -/
def push : OrderedMap κ (List α) :=
  match map.find key with
  | some _ => map.modify key (· ++ [value])
  | none => map.insert key [value]

/-- The list under a key, the empty one if there is none. -/
def listed : List α := (map.find key).getD []

variable {map key}

theorem find_push_other {other : κ} (different : other ≠ key) :
    (map.push key value).find other = map.find other := by
  unfold push
  cases map.find key with
  | none => exact find_insert_other different
  | some values =>
    simp only
    rw [find_modify, if_neg different]

theorem find_push_self : (map.push key value).find key = some (map.listed key ++ [value]) := by
  unfold push listed
  cases found : map.find key with
  | none =>
    simp only
    rw [find_insert_self (not_mem_keys_of_find found)]
    rfl
  | some values =>
    simp only
    rw [find_modify, if_pos rfl, found]
    rfl

theorem listed_push_self : (map.push key value).listed key = map.listed key ++ [value] := by
  rw [listed, find_push_self, Option.getD_some]

theorem listed_push_other {other : κ} (different : other ≠ key) :
    (map.push key value).listed other = map.listed other := by
  rw [listed, find_push_other value different, listed]

end Lists

section

variable {map : OrderedMap κ α} {key : κ} {value : α}

theorem size_insert (absent : key ∉ map.keys) : (map.insert key value).size = map.size + 1 :=
  length_insertEntry absent

theorem mem_entries_insert {entry : κ × α} (listed : entry ∈ (map.insert key value).entries) :
    entry ∈ map.entries ∨ entry = (key, value) :=
  mem_of_mem_insertEntry listed

end

end OrderedMap

end Vts.Lib
