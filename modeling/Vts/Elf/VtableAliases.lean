import Vts.Elf.VtablePartition

/-!
# Vtables that share addresses

The search for the vtable around an offset looks at one vtable, the last that does not
begin after the offset. Symbol tables may define vtables that begin at the same address,
that lie inside of each other or that are empty, and then another vtable may be around the
offset. Of two vtables with the same range the earlier one never gets an entry.
-/

namespace Vts.Elf

open Python (Exception Text)
open Lib

/-- Vtables of the same range have the same entries. -/
def AliasesAgree (result : List Vtable) : Prop :=
  ∀ first ∈ result, ∀ second ∈ result, first.beginAddr = second.beginAddr →
    first.endAddr = second.endAddr → first.entries = second.entries

/-- A vtable around an offset is found whenever the list has one. -/
def FindsContaining (vtables : List Vtable) : Prop :=
  ∀ offset, (∃ vtable ∈ vtables, vtable.Contains offset) →
    ∃ index vtable, locateVtable vtables offset = some (index, vtable)

/-- No vtable ends after the end of a later one, unless the next one begins before there is
a gap. -/
def NoneHidden (vtables : List Vtable) : Prop :=
  Bisect.NoneHidden Vtable.beginAddr Vtable.endAddr vtables

theorem findsContaining_iff {vtables : List Vtable}
    (sorted : vtables.Pairwise fun first second => first.beginAddr ≤ second.beginAddr)
    (forward : ∀ vtable ∈ vtables, vtable.beginAddr ≤ vtable.endAddr) :
    FindsContaining vtables ↔ NoneHidden vtables := by
  rw [NoneHidden, ← Bisect.finds_every_iff sorted forward]
  simp only [FindsContaining, locateVtable_sorted_iff sorted]
  rfl

namespace ElfParser

/-- An absolute or relative relocation lies in the range of two vtables, and the later of
them is the last one that does not begin after it. -/
def AliasRelocated (parser : ElfParser) (types : RelType) (vtables : List Vtable)
    (sites : List Site) : Prop :=
  ∃ i j first second, i < j ∧ vtables[i]? = some first ∧ vtables[j]? = some second ∧
    first.beginAddr = second.beginAddr ∧ first.endAddr = second.endAddr ∧
    ∃ site ∈ sites, parser.counted types site = true ∧ second.Contains site.2.rOffset ∧
      ∀ next, vtables[j + 1]? = some next → site.2.rOffset < next.beginAddr

variable {self : ElfParser} {types : RelType} {vtables result : List Vtable}
  {invTable : InverseTable} {sites : List Site}

/-- A vtable is returned without entries exactly if no relocation goes to it. -/
theorem entries_eq_nil_iff (decoded : self.Decoded types vtables invTable sites)
    (dumped : self.dumpVtables = .ok result) {index : Nat} {vtable : Vtable}
    (listed : result[index]? = some vtable) :
    vtable.entries = [] ↔ ∀ site ∈ sites, self.goesTo types vtables index site = false := by
  obtain ⟨_, placed, permuted, paired⟩ := (decoded.entries dumped).2 index vtable listed
  have lengths : vtable.entries.length =
      (sites.filter (self.goesTo types vtables index)).length := by
    rw [← paired.length_eq, permuted.length_eq]
  rw [← List.length_eq_zero_iff, lengths, List.length_eq_zero_iff, List.filter_eq_nil_iff]
  simp only [Bool.not_eq_true]

/-- Nothing goes to a vtable that begins where a later one begins. -/
theorem goesTo_earlier (prepared : self.Prepared vtables) {i j : Nat} (before : i < j)
    {first second : Vtable} (left : vtables[i]? = some first) (right : vtables[j]? = some second)
    (same : first.beginAddr = second.beginAddr) (site : Site) :
    self.goesTo types vtables i site = false := by
  rw [← Bool.not_eq_true, goesTo_iff_last prepared]
  rintro ⟨_, vtable, last, _⟩
  obtain rfl : first = vtable := Option.some.inj (left.symm.trans last.listed)
  have beyond := last.last before right
  have atMost := last.atMost
  omega

/-- The last vtable that begins at or before an offset, by the one behind it. -/
theorem lastAtMost_of_next (prepared : self.Prepared vtables) {offset index : Nat}
    {vtable : Vtable} (listed : vtables[index]? = some vtable) (begun : vtable.beginAddr ≤ offset)
    (next : ∀ next, vtables[index + 1]? = some next → offset < next.beginAddr) :
    Bisect.LastAtMost Vtable.beginAddr vtables offset index vtable := by
  refine ⟨listed, begun, fun {later other} after otherListed => ?_⟩
  obtain ⟨bound, _⟩ := List.getElem?_eq_some_iff.mp otherListed
  have nextListed := List.getElem?_eq_getElem (show index + 1 < vtables.length by omega)
  have ordered := Bisect.le_of_sorted prepared.sorted after nextListed otherListed
  exact Nat.lt_of_lt_of_le (next _ nextListed) ordered

theorem aliasesAgree_iff (decoded : self.Decoded types vtables invTable sites)
    (dumped : self.dumpVtables = .ok result) :
    AliasesAgree result ↔ ¬self.AliasRelocated types vtables sites := by
  have prepared := prepareVtables_ok decoded.prepared
  have ranges := (decoded.entries dumped).1
  constructor
  · rintro agree ⟨i, j, first, second, before, left, right, begins, ends, site, listed, counts,
      around, next⟩
    obtain ⟨earlier, earlierListed, earlierRange⟩ := exists_range ranges.symm left
    obtain ⟨later, laterListed, laterRange⟩ := exists_range ranges.symm right
    have empty : earlier.entries = [] := by
      rw [entries_eq_nil_iff decoded dumped earlierListed]
      exact fun other _ => goesTo_earlier prepared before left right begins other
    have same : earlier.entries = later.entries := by
      simp only [Vtable.range, Prod.mk.injEq] at earlierRange laterRange
      refine agree _ (List.mem_of_getElem? earlierListed) _ (List.mem_of_getElem? laterListed) ?_ ?_
        <;> omega
    rw [same, entries_eq_nil_iff decoded dumped laterListed] at empty
    have goes : self.goesTo types vtables j site = true :=
      (goesTo_iff_last prepared).mpr
        ⟨counts, second, lastAtMost_of_next prepared right around.1 next, around⟩
    rw [empty site listed] at goes
    cases goes
  · intro unrelocated
    -- both of a pair of aliases are without entries
    have none {i j : Nat} {first second : Vtable} (before : i < j)
        (left : result[i]? = some first) (right : result[j]? = some second)
        (begins : first.beginAddr = second.beginAddr) (ends : first.endAddr = second.endAddr) :
        first.entries = [] ∧ second.entries = [] := by
      obtain ⟨earlier, earlierListed, earlierRange⟩ := exists_range ranges left
      obtain ⟨later, laterListed, laterRange⟩ := exists_range ranges right
      simp only [Vtable.range, Prod.mk.injEq] at earlierRange laterRange
      have sameBegin : earlier.beginAddr = later.beginAddr := by omega
      have sameEnd : earlier.endAddr = later.endAddr := by omega
      constructor
      · rw [entries_eq_nil_iff decoded dumped left]
        exact fun site _ => goesTo_earlier prepared before earlierListed laterListed sameBegin site
      · rw [entries_eq_nil_iff decoded dumped right]
        intro site listed
        rw [← Bool.not_eq_true, goesTo_iff_last prepared]
        rintro ⟨counts, vtable, last, around⟩
        obtain rfl : later = vtable := Option.some.inj (laterListed.symm.trans last.listed)
        exact unrelocated ⟨i, j, earlier, later, before, earlierListed, laterListed, sameBegin,
          sameEnd, site, listed, counts, around, fun next => last.last (Nat.lt_succ_self j)⟩
    intro first firstListed second secondListed begins ends
    obtain ⟨i, left⟩ := List.mem_iff_getElem?.mp firstListed
    obtain ⟨j, right⟩ := List.mem_iff_getElem?.mp secondListed
    rcases Nat.lt_trichotomy i j with before | rfl | after
    · obtain ⟨firstNone, secondNone⟩ := none before left right begins ends
      rw [firstNone, secondNone]
    · rw [Option.some.inj (left.symm.trans right)]
    · obtain ⟨secondNone, firstNone⟩ := none after right left begins.symm ends.symm
      rw [firstNone, secondNone]

/-- Aliases agree exactly if no relocation goes to any of them, and every vtable around an
offset is found exactly if none is hidden behind the end of a later one. -/
theorem dumpVtables_aliases_iff (self : ElfParser) {types : RelType} {vtables result : List Vtable}
    {invTable : InverseTable} {sites : List Site}
    (decoded : self.Decoded types vtables invTable sites)
    (dumped : self.dumpVtables = .ok result) :
    AliasesAgree result ∧ FindsContaining vtables ↔
      ¬self.AliasRelocated types vtables sites ∧ NoneHidden vtables := by
  have prepared := prepareVtables_ok decoded.prepared
  exact and_congr (aliasesAgree_iff decoded dumped)
    (findsContaining_iff prepared.sorted prepared.forward)

/-- The vtables of one word each do not share addresses. -/
theorem smallParser_aliases_iff :
    AliasesAgree
        [⟨ztv ++ [97], 0x1000, 0x1004, [⟨⟨[], 0x2000, false⟩, 0⟩]⟩,
          ⟨ztv ++ [98], 0x1004, 0x1008, [⟨⟨[], 0x3000, false⟩, 0⟩]⟩] ∧
      FindsContaining
        [⟨ztv ++ [97], 0x1000, 0x1004, []⟩, ⟨ztv ++ [98], 0x1004, 0x1008, []⟩] ↔
      ¬(smallParser (0x1000, 4) (0x1004, 4) false 0x3000).AliasRelocated ⟨0x02, 0x17⟩
          [⟨ztv ++ [97], 0x1000, 0x1004, []⟩, ⟨ztv ++ [98], 0x1004, 0x1008, []⟩]
          [(smallTable false, .rel ⟨0x1004, 0x17⟩), (smallTable false, .rel ⟨0x1000, 0x17⟩)] ∧
        NoneHidden [⟨ztv ++ [97], 0x1000, 0x1004, []⟩, ⟨ztv ++ [98], 0x1004, 0x1008, []⟩] :=
  dumpVtables_aliases_iff _ smallParser_decoded (by decide +kernel)

/-- Of two vtables of two words at one address, the first is returned without entries; and
when the second has one word only, no vtable is found around the second word of the
first. -/
theorem smallParser_aliased :
    (∃ parser result,
      (ElfParser.init (smallSource (0x1000, 8) (0x1000, 8) false 0x3000)).1 = .ok parser ∧
        parser.dumpVtables = .ok result ∧ ¬AliasesAgree result) ∧
    ∃ parser vtables,
      (ElfParser.init (smallSource (0x1000, 8) (0x1000, 4) false 0x3000)).1 = .ok parser ∧
        parser.prepareVtables = .ok vtables ∧ ¬FindsContaining vtables := by
  constructor
  · have dumped : ((ElfParser.init (smallSource (0x1000, 8) (0x1000, 8) false 0x3000)).1 >>=
        ElfParser.dumpVtables) = .ok
          [⟨ztv ++ [97], 0x1000, 0x1008, []⟩,
            ⟨ztv ++ [98], 0x1000, 0x1008,
              [⟨⟨[], 0x2000, false⟩, 0⟩, ⟨⟨[], 0x3000, false⟩, 4⟩]⟩] := by
      decide +kernel
    obtain ⟨parser, made, ended⟩ := (bind_eq_ok_iff _ _ _).mp dumped
    refine ⟨parser, _, made, ended, fun agree => ?_⟩
    have same := agree _ (List.mem_cons_self) _ (List.mem_cons_of_mem _ List.mem_cons_self) rfl rfl
    cases same
  · have prepared : ((ElfParser.init (smallSource (0x1000, 8) (0x1000, 4) false 0x3000)).1 >>=
        ElfParser.prepareVtables) = .ok
          [⟨ztv ++ [97], 0x1000, 0x1008, []⟩, ⟨ztv ++ [98], 0x1000, 0x1004, []⟩] := by
      decide +kernel
    obtain ⟨parser, made, ended⟩ := (bind_eq_ok_iff _ _ _).mp prepared
    refine ⟨parser, _, made, ended, fun finds => ?_⟩
    obtain ⟨index, vtable, located⟩ := finds 0x1004
      ⟨_, List.mem_cons_self, by decide, by decide⟩
    have nowhere : locateVtable [⟨ztv ++ [97], 0x1000, 0x1008, []⟩,
        ⟨ztv ++ [98], 0x1000, 0x1004, []⟩] 0x1004 = none := by decide +kernel
    rw [nowhere] at located
    cases located

end ElfParser

end Vts.Elf
