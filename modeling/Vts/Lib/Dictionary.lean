import Mathlib.Data.List.Nodup

/-!
# Dictionaries

Lists of keys and values in which a key occurs once, and those whose keys are numbers that are given
out as they are needed: the next number is one more than the largest one in use. Removing the entry
with the largest number makes its number the next one again. The rule of this module: as long as no
object gets a number that another object had before, a number in use leads to the only object that
it was ever given to.
-/

namespace Vts.Lib

open List

universe u v w

section

variable {κ : Type u} {α : Type v} [BEq κ] [LawfulBEq κ]

section

variable {entries : List (κ × α)} (key : κ) (value : α)

theorem mem_of_lookup {key : κ} {value : α} (found : entries.lookup key = some value) :
    (key, value) ∈ entries := by
  obtain ⟨before, after, rfl, -⟩ := lookup_eq_some_iff.mp found
  exact mem_append_right _ mem_cons_self

/-- In a dictionary every entry is found under its key. -/
theorem lookup_of_mem (distinct : (entries.map Prod.fst).Nodup) {entry : κ × α}
    (listed : entry ∈ entries) : entries.lookup entry.1 = some entry.2 := by
  obtain ⟨before, after, rfl⟩ := mem_iff_append.mp listed
  rw [map_append, map_cons, nodup_append] at distinct
  refine lookup_eq_some_iff.mpr ⟨before, after, rfl, fun earlier early => ?_⟩
  exact bne_iff_ne.mpr fun same => distinct.2.2 earlier.1 (mem_map_of_mem early) entry.1
    mem_cons_self same.symm

/-- The dictionary with a value under a key: the key stays where it was first stored. -/
def store (key : κ) (value : α) : List (κ × α) → List (κ × α)
  | [] => [(key, value)]
  | (other, present) :: entries =>
    if other == key then (other, value) :: entries else (other, present) :: store key value entries

theorem lookup_store (other : κ) (value : α) (entries : List (κ × α)) :
    (store key value entries).lookup other =
      if other == key then some value else entries.lookup other := by
  induction entries with
  | nil =>
    rw [store, lookup_cons]
    cases other == key <;> rfl
  | cons entry entries ih =>
    obtain ⟨present, held⟩ := entry
    rw [store]
    cases found : present == key with
    | true =>
      cases eq_of_beq found
      rw [if_pos rfl, lookup_cons, lookup_cons]
      cases other == key <;> rfl
    | false =>
      rw [if_neg (by simp), lookup_cons, lookup_cons, ih]
      cases same : other == present with
      | true =>
        cases eq_of_beq same
        rw [found]
        rfl
      | false => rfl

end

end

/-- A dictionary of objects under numbers, each object under one. -/
structure Numbering (α : Type u) where
  entries : List (Nat × α)
  distinct : (entries.map Prod.fst).Nodup
  single : (entries.map Prod.snd).Nodup

namespace Numbering

variable {α : Type u}

def empty : Numbering α := ⟨[], .nil, .nil⟩

/-- One more than the largest number in use. -/
def next (numbering : Numbering α) : Nat :=
  match (numbering.entries.map Prod.fst).max? with
  | none => 0
  | some largest => largest + 1

section

variable (numbering : Numbering α)

theorem lt_next {entry : Nat × α} (listed : entry ∈ numbering.entries) :
    entry.1 < numbering.next := by
  have used : entry.1 ∈ numbering.entries.map Prod.fst := mem_map_of_mem listed
  rw [next]
  cases found : (numbering.entries.map Prod.fst).max? with
  | none =>
    rw [List.max?_eq_none_iff] at found
    rw [found] at used
    cases used
  | some largest => exact Nat.lt_succ_of_le ((List.max?_eq_some_iff.mp found).2 entry.1 used)

theorem next_follows :
    numbering.next = 0 ∨ ∃ entry ∈ numbering.entries, entry.1 + 1 = numbering.next := by
  rw [next]
  cases found : (numbering.entries.map Prod.fst).max? with
  | none => exact .inl rfl
  | some largest =>
    obtain ⟨entry, listed, same⟩ := mem_map.mp (List.max?_eq_some_iff.mp found).1
    exact .inr ⟨entry, listed, congrArg (· + 1) same⟩

theorem next_not_mem : numbering.next ∉ numbering.entries.map Prod.fst := by
  intro used
  obtain ⟨entry, listed, same⟩ := mem_map.mp used
  exact absurd (numbering.lt_next listed) (by omega)

end

def insert (numbering : Numbering α) (object : α)
    (absent : object ∉ numbering.entries.map Prod.snd) : Numbering α where
  entries := numbering.entries ++ [(numbering.next, object)]
  distinct := by
    rw [List.map_append, List.map_singleton]
    exact numbering.distinct.append (List.nodup_singleton _)
      (List.disjoint_singleton.mpr numbering.next_not_mem)
  single := by
    rw [List.map_append, List.map_singleton]
    exact numbering.single.append (List.nodup_singleton _) (List.disjoint_singleton.mpr absent)

def keep (numbering : Numbering α) (stays : Nat × α → Bool) : Numbering α where
  entries := numbering.entries.filter stays
  distinct := numbering.distinct.sublist (List.filter_sublist.map _)
  single := numbering.single.sublist (List.filter_sublist.map _)

/-- The numbers in use were given to their objects, and to no others. -/
structure Given (numbering : Numbering α) (given : List (Nat × α)) : Prop where
  listed : ∀ entry ∈ numbering.entries, entry ∈ given
  only : ∀ number first second, (number, first) ∈ given →
    (number, second) ∈ numbering.entries → first = second

theorem given_empty : (empty : Numbering α).Given [] :=
  ⟨fun _ listed => listed, fun _ _ _ listed => absurd listed not_mem_nil⟩

section

variable {numbering : Numbering α} {given : List (Nat × α)}

theorem Given.insert (held : numbering.Given given) {object : α}
    (absent : object ∉ numbering.entries.map Prod.snd)
    (fresh : ∀ other, (numbering.next, other) ∈ given → other = object) :
    (numbering.insert object absent).Given (given ++ [(numbering.next, object)]) := by
  constructor
  · intro entry listed
    rcases mem_append.mp listed with old | new
    · exact mem_append_left _ (held.listed entry old)
    · exact mem_append_right _ new
  · intro number first second was is
    rcases mem_append.mp is with old | new
    · rcases mem_append.mp was with before | now
      · exact held.only number first second before old
      · cases mem_singleton.mp now
        exact absurd (mem_map_of_mem old) numbering.next_not_mem
    · cases mem_singleton.mp new
      rcases mem_append.mp was with before | now
      · exact fresh first before
      · cases mem_singleton.mp now
        rfl

theorem Given.keep (held : numbering.Given given) (stays : Nat × α → Bool) :
    (numbering.keep stays).Given given :=
  ⟨fun entry listed => held.listed entry (mem_of_mem_filter listed),
    fun number first second was is =>
      held.only number first second was (mem_of_mem_filter is)⟩

end

end Numbering

end Vts.Lib
