import Mathlib.Algebra.Ring.Nat
import Mathlib.Algebra.Ring.Int.Defs
import Mathlib.Data.List.Nodup

/-!
# Tables whose ids are their sizes

A table holds objects under ids. A new object gets the number of entries as its id, as a signed
number of 32 bits, and releasing an object leaves its entry. The rule of this module: over any
changes with at most `2 ^ 32` new objects, every id is new when it is given out, and leads to its
own object until it is released and to none afterwards. With one more object the first id is given
out again.
-/

namespace Vts.Lib

open List

universe u

/-- A number as a signed one of 32 bits. -/
def toInt32 (value : Nat) : Int :=
  if value % 2 ^ 32 < 2 ^ 31 then ((value % 2 ^ 32 : Nat) : Int)
  else ((value % 2 ^ 32 : Nat) : Int) - 2 ^ 32

theorem toInt32_inj {first second : Nat} (small : first < 2 ^ 32) (smallToo : second < 2 ^ 32) :
    toInt32 first = toInt32 second ↔ first = second := by
  unfold toInt32
  split <;> split <;> omega

/-- The entries of a table, and for each the object unless it was released. -/
abbrev IdTable (α : Type u) := List (Int × Option α)

/-- What may be done to a table. -/
inductive TableChange (α : Type u) where
  | insert (object : α)
  | release (id : Int)

namespace IdTable

variable {α : Type u}

/-- The id of the next object. -/
def newId (table : IdTable α) : Int := toInt32 table.length

/-- An entry for an id that has none. -/
def emplace (table : IdTable α) (id : Int) (object : α) : IdTable α :=
  if (table.lookup id).isSome then table else table ++ [(id, some object)]

def insert (table : IdTable α) (object : α) : IdTable α := table.emplace table.newId object

def release (table : IdTable α) (id : Int) : IdTable α :=
  table.map fun entry => if entry.1 = id then (entry.1, none) else entry

/-- The object that an id leads to. -/
def get (table : IdTable α) (id : Int) : Option α := (table.lookup id).join

def change (table : IdTable α) : TableChange α → IdTable α
  | .insert object => table.insert object
  | .release id => table.release id

/-- The table after some changes. -/
def changes (table : IdTable α) (list : List (TableChange α)) : IdTable α := list.foldl change table

/-- The ids that are given out by some changes. -/
def issued (table : IdTable α) : List (TableChange α) → List Int
  | [] => []
  | .insert object :: list => table.newId :: (table.insert object).issued list
  | .release id :: list => (table.release id).issued list

/-- The number of new objects among some changes. -/
def inserts (list : List (TableChange α)) : Nat :=
  list.countP fun change => match change with
    | .insert _ => true
    | .release _ => false

/-- The ids of the entries are the numbers up to the size. -/
def Numbered (table : IdTable α) : Prop :=
  table.map Prod.fst = (List.range table.length).map toInt32

theorem numbered_nil : Numbered ([] : IdTable α) := rfl

theorem lookup_isSome_iff {table : IdTable α} {id : Int} :
    (table.lookup id).isSome ↔ id ∈ table.map Prod.fst := by
  rw [List.lookup_isSome_iff, List.mem_map]
  constructor
  · rintro ⟨entry, listed, same⟩
    exact ⟨entry, listed, (eq_of_beq same).symm⟩
  · rintro ⟨entry, listed, rfl⟩
    exact ⟨entry, listed, beq_self_eq_true _⟩

theorem keys_release (table : IdTable α) (id : Int) :
    (table.release id).map Prod.fst = table.map Prod.fst := by
  rw [release, map_map]
  refine map_congr_left fun entry _ => ?_
  rw [Function.comp_apply]
  split <;> rfl

theorem length_release (table : IdTable α) (id : Int) :
    (table.release id).length = table.length :=
  length_map _

section

variable {table : IdTable α} (numbered : table.Numbered)

include numbered in
theorem Numbered.release (id : Int) : (table.release id).Numbered := by
  rw [Numbered, keys_release, length_release]
  exact numbered

include numbered in
/-- The next id has no entry while there are ids. -/
theorem Numbered.newId_not_mem (room : table.length < 2 ^ 32) :
    table.newId ∉ table.map Prod.fst := by
  rw [numbered, List.mem_map]
  rintro ⟨index, inside, same⟩
  have below := mem_range.mp inside
  rw [newId, toInt32_inj (by omega) room] at same
  omega

include numbered in
theorem Numbered.insert_eq (room : table.length < 2 ^ 32) (object : α) :
    table.insert object = table ++ [(table.newId, some object)] := by
  rw [insert, emplace, if_neg]
  rw [lookup_isSome_iff]
  exact numbered.newId_not_mem room

include numbered in
theorem Numbered.insert (room : table.length < 2 ^ 32) (object : α) :
    (table.insert object).Numbered := by
  rw [numbered.insert_eq room, Numbered, map_append, numbered, length_append,
    length_singleton, range_succ, map_append, map_singleton, map_singleton,
    newId]

end

section

variable {id : Int} {list : List (TableChange α)} (table : IdTable α)
  (before after : List (TableChange α))

theorem get_release (id other : Int) :
    (table.release id).get other = if other = id then none else table.get other := by
  unfold get release
  induction table with
  | nil => simp
  | cons entry table ih =>
    obtain ⟨key, object⟩ := entry
    rw [map_cons]
    by_cases same : key = id
    · subst same
      simp only [if_true]
      by_cases found : other = key
      · simp [found]
      · rw [lookup_cons, lookup_cons, beq_eq_false_iff_ne.mpr found]
        simpa [found] using ih
    · simp only [same, if_false]
      by_cases found : other = key
      · subst found
        simp [same]
      · rw [lookup_cons, lookup_cons, beq_eq_false_iff_ne.mpr found]
        exact ih

theorem get_append_of_mem {table : IdTable α} {id : Int} (present : id ∈ table.map Prod.fst)
    (more : IdTable α) : (table ++ more).get id = table.get id := by
  obtain ⟨object, found⟩ := Option.isSome_iff_exists.mp (lookup_isSome_iff.mpr present)
  rw [get, lookup_append, get, found]
  rfl

theorem get_append_new {table : IdTable α} (absent : id ∉ table.map Prod.fst) (object : α) :
    (table ++ [(id, some object)]).get id = some object := by
  have missing : table.lookup id = none := by
    rw [← Option.not_isSome_iff_eq_none, lookup_isSome_iff]
    exact absent
  rw [get, lookup_append, missing]
  simp

@[simp] theorem inserts_insert (object : α) (list : List (TableChange α)) :
    inserts (.insert object :: list) = inserts list + 1 := by
  simp [inserts]

@[simp] theorem inserts_release (id : Int) (list : List (TableChange α)) :
    inserts (.release id :: list) = inserts list := by
  simp [inserts]

theorem inserts_append : inserts (before ++ after) = inserts before + inserts after :=
  countP_append

theorem changes_append : table.changes (before ++ after) = (table.changes before).changes after :=
  foldl_append

theorem issued_append :
    table.issued (before ++ after) = table.issued before ++ (table.changes before).issued after := by
  induction before generalizing table with
  | nil => rfl
  | cons head before ih =>
    cases head with
    | insert object | release object =>
      rw [cons_append, issued, issued, ih]
      rfl

/-- Changes with few enough new objects keep the numbering, and give out the next numbers. -/
theorem Numbered.changes {table : IdTable α} (numbered : table.Numbered)
    {list : List (TableChange α)} (room : table.length + inserts list ≤ 2 ^ 32) :
    (table.changes list).Numbered ∧ (table.changes list).length = table.length + inserts list ∧
      table.issued list = (List.range' table.length (inserts list)).map toInt32 := by
  induction list generalizing table with
  | nil => exact ⟨numbered, rfl, rfl⟩
  | cons head list ih =>
    cases head with
    | insert object =>
      rw [inserts_insert] at room
      have inserted := numbered.insert_eq (by omega) object
      have size : (table.insert object).length = table.length + 1 := by
        rw [inserted, length_append, length_singleton]
      obtain ⟨after, length, ids⟩ :=
        ih (numbered.insert (by omega) object) (by omega)
      refine ⟨after, ?_, ?_⟩
      · rw [inserts_insert]
        exact length.trans (by omega)
      · rw [issued, ids, size, inserts_insert, List.range'_succ, map_cons]
        rfl
    | release id =>
      rw [inserts_release] at room ⊢
      rw [← length_release table id] at room ⊢
      exact ih (numbered.release id) room

/-- The ids that are given out are different. -/
theorem issued_nodup (room : inserts list ≤ 2 ^ 32) : (issued [] list).Nodup := by
  obtain ⟨_, _, ids⟩ := numbered_nil.changes (by simpa using room : _ ≤ 2 ^ 32)
  rw [ids]
  refine List.Nodup.map_on ?_ nodup_range'
  intro first here second there same
  rw [mem_range'_1] at here there
  rw [length_nil] at here there
  exact (toInt32_inj (by omega) (by omega)).mp same

/-- What an id leads to after further changes. -/
theorem Numbered.get_changes {table : IdTable α} (numbered : table.Numbered)
    (present : id ∈ table.map Prod.fst) (room : table.length + inserts list ≤ 2 ^ 32) :
    (.release id ∈ list → (table.changes list).get id = none) ∧
      (.release id ∉ list → (table.changes list).get id = table.get id) := by
  induction list generalizing table with
  | nil => exact ⟨fun listed => (not_mem_nil listed).elim, fun _ => rfl⟩
  | cons head list ih =>
    cases head with
    | insert object =>
      rw [inserts_insert] at room
      have inserted := numbered.insert_eq (by omega) object
      have presentThen : id ∈ (table.insert object).map Prod.fst := by
        rw [inserted, map_append]
        exact mem_append_left _ present
      have size : (table.insert object).length = table.length + 1 := by
        rw [inserted, length_append, length_singleton]
      obtain ⟨released, kept⟩ :=
        ih (numbered.insert (by omega) object) presentThen (by omega)
      refine ⟨fun listed => released (by simpa using listed), fun free => ?_⟩
      have same : (table.insert object).get id = table.get id := by
        rw [inserted]
        exact get_append_of_mem present _
      rw [← same]
      exact kept (by simpa using free)
    | release other =>
      rw [inserts_release, ← length_release table other] at room
      obtain ⟨released, kept⟩ := ih (numbered.release other)
        (by rw [keys_release]; exact present) room
      have one := get_release table other id
      by_cases same : id = other
      · subst same
        rw [if_pos rfl] at one
        refine ⟨fun _ => ?_, fun free => (free mem_cons_self).elim⟩
        by_cases again : .release id ∈ list
        · exact released again
        · exact (kept again).trans one
      · rw [if_neg same] at one
        refine ⟨fun listed => released ?_, fun free => ?_⟩
        · rcases mem_cons.mp listed with equal | later
          · cases equal
            exact absurd rfl same
          · exact later
        · rw [← one]
          exact kept fun later => free (mem_cons_of_mem _ later)

/-- An object is found by the id it was given until that is released, and by none afterwards. -/
theorem get_of_insert {before after : List (TableChange α)} {object : α}
    (room : inserts (before ++ .insert object :: after) ≤ 2 ^ 32) :
    ∃ id, (issued [] (before ++ .insert object :: after))[inserts before]? = some id ∧
      (.release id ∈ after →
        (changes [] (before ++ .insert object :: after)).get id = none) ∧
      (.release id ∉ after →
        (changes [] (before ++ .insert object :: after)).get id = some object) := by
  rw [inserts_append, inserts_insert] at room
  have empty : ([] : IdTable α).length = 0 := rfl
  obtain ⟨numbered, size, ids⟩ := (@numbered_nil α).changes
    (show _ + inserts before ≤ 2 ^ 32 by omega)
  have few : (changes [] before).length < 2 ^ 32 := by omega
  have inserted := numbered.insert_eq few object
  have present : (changes [] before).newId ∈ ((changes [] before).insert object).map Prod.fst := by
    rw [inserted, map_append]
    exact mem_append_right _ mem_cons_self
  have found : ((changes [] before).insert object).get (changes [] before).newId = some object := by
    rw [inserted]
    exact get_append_new (numbered.newId_not_mem few) object
  have length : ((changes [] before).insert object).length = (changes [] before).length + 1 := by
    rw [inserted, length_append, length_singleton]
  obtain ⟨released, kept⟩ :=
    (numbered.insert few object).get_changes present
      (show _ + inserts after ≤ 2 ^ 32 by omega)
  refine ⟨(changes [] before).newId, ?_, ?_⟩
  · have count : (issued [] before).length = inserts before := by
      rw [ids, length_map, length_range']
    rw [issued_append, List.getElem?_append_right (Nat.le_of_eq count), count, Nat.sub_self]
    rfl
  · rw [changes_append]
    exact ⟨released, fun free => (kept free).trans found⟩

/-- When all ids are given out, the next object gets the first id again. -/
theorem not_issued_nodup (all : inserts list = 2 ^ 32) (object : α) :
    ¬ (issued [] (list ++ [.insert object])).Nodup := by
  obtain ⟨_, size, ids⟩ := (@numbered_nil α).changes
    (show _ + inserts list ≤ 2 ^ 32 by rw [all, length_nil, Nat.zero_add])
  have first : (0 : Int) ∈ issued [] list := by
    rw [ids, List.mem_map]
    exact ⟨0, mem_range'_1.mpr ⟨Nat.zero_le _, by rw [all, length_nil]; decide⟩, rfl⟩
  have last : (changes [] list).newId = 0 := by
    rw [newId, size, all, length_nil, Nat.zero_add, toInt32, Nat.mod_self]
    rfl
  rw [issued_append, nodup_append]
  rintro ⟨_, _, apart⟩
  refine apart 0 first 0 ?_ rfl
  rw [issued, last]
  exact mem_cons_self

end

end IdTable

end Vts.Lib
