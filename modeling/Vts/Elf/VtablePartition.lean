import Vts.Elf.VtableRuns

/-!
# The vtables that are returned

When the ranges of the vtables are disjoint and none is empty, the relocations are
distributed over them: each absolute or relative relocation is an entry of the vtable
around it, the vtables have no other entries, and the entries stand in the order of their
offsets. Nothing is assumed of the order of sections, symbols and relocations.

What happens to ranges that overlap or are empty is not said here.
-/

namespace Vts.Elf

open Python (Exception Text)
open Lib List

namespace ElfParser

/-- The vtables are those of the names that the symbol tables define, and they share out
the relocations. -/
structure Partitions (parser : ElfParser) (types : RelType) (invTable : InverseTable)
    (sites : List Site) (result : List Vtable) : Prop where
  distinct : (result.map Vtable.name).Nodup
  complete : ∀ name, name ∈ result.map Vtable.name ↔ ∃ sym, parser.DefinesVtable name sym
  defined : ∀ vtable ∈ result, ∃ sym, parser.DefinesVtable vtable.name sym ∧
    vtable.beginAddr = sym.stValue ∧ vtable.endAddr = sym.stValue + sym.stSize
  sorted : result.Pairwise fun first second => first.beginAddr < second.beginAddr
  unique : ∀ offset, ∀ first ∈ result, ∀ second ∈ result,
    first.Contains offset → second.Contains offset → first = second
  entries : ∀ vtable ∈ result,
    (vtable.entries.Pairwise fun first second => first.offset ≤ second.offset) ∧
    ∃ placed,
      placed.Perm (sites.filter fun site =>
        parser.counted types site && decide (vtable.Contains site.2.rOffset)) ∧
      List.Forall₂ (parser.EntryFor types invTable vtable) placed vtable.entries

variable {self : ElfParser} {types : RelType} {vtables : List Vtable} {invTable : InverseTable}
  {sites : List Site}

theorem sorted_strictly
    (sorted : vtables.Pairwise fun first second => first.beginAddr ≤ second.beginAddr)
    (nonempty : ∀ vtable ∈ vtables, vtable.beginAddr < vtable.endAddr)
    (disjoint : vtables.Pairwise fun first second =>
      ∀ offset, ¬(first.Contains offset ∧ second.Contains offset)) :
    vtables.Pairwise fun first second => first.beginAddr < second.beginAddr := by
  refine (sorted.and disjoint).imp_of_mem ?_
  rintro first second firstListed secondListed ⟨ordered, apart⟩
  refine Nat.lt_of_le_of_ne ordered fun same => ?_
  refine apart first.beginAddr ⟨⟨Nat.le_refl _, nonempty first firstListed⟩, ?_⟩
  rw [same]
  exact ⟨Nat.le_refl _, nonempty second secondListed⟩

/-- Among such ranges a relocation goes to the one around it. -/
theorem goesTo_iff_contains (prepared : self.Prepared vtables)
    (nonempty : ∀ vtable ∈ vtables, vtable.beginAddr < vtable.endAddr)
    (disjoint : vtables.Pairwise fun first second =>
      ∀ offset, ¬(first.Contains offset ∧ second.Contains offset)) {index : Nat} {site : Site} :
    self.goesTo types vtables index site = true ↔
      self.counted types site = true ∧
        ∃ vtable, vtables[index]? = some vtable ∧ vtable.Contains site.2.rOffset := by
  rw [goesTo_iff_last prepared]
  refine and_congr_right fun _ => exists_congr fun vtable => ?_
  refine ⟨fun ⟨last, around⟩ => ⟨last.listed, around⟩, fun ⟨listed, around⟩ => ?_⟩
  exact ⟨Bisect.lastAtMost_of_disjoint prepared.sorted nonempty disjoint listed around, around⟩

/-- The vtables share out the absolute and relative relocations of all sections. -/
theorem dumpVtables_partition (self : ElfParser) {types : RelType} {vtables : List Vtable}
    {invTable : InverseTable} {sites : List Site}
    (decoded : self.Decoded types vtables invTable sites)
    (resolved : ∀ site ∈ sites, self.counted types site = true → ∀ vtable ∈ vtables,
      vtable.Contains site.2.rOffset →
        ∃ target, self.relocationTarget types invTable site.1 site.2 = .ok target)
    (nonempty : ∀ vtable ∈ vtables, vtable.beginAddr < vtable.endAddr)
    (disjoint : vtables.Pairwise fun first second =>
      ∀ offset, ¬(first.Contains offset ∧ second.Contains offset)) :
    ∃ result, self.dumpVtables = .ok result ∧
      self.Partitions types invTable sites result := by
  have prepared := prepareVtables_ok decoded.prepared
  obtain ⟨dumped, looped⟩ : ∃ dumped, self.dumpSites types invTable sites vtables = .ok dumped := by
    refine (placed_nil vtables).ends fun site listed index goes => ?_
    obtain ⟨counts, vtable, vtableListed, around⟩ :=
      (goesTo_iff_contains prepared nonempty disjoint).mp goes
    exact resolved site listed counts vtable (mem_of_getElem? vtableListed) around
  obtain ⟨result, ended⟩ : ∃ result, self.dumpVtables = .ok result := by
    rw [decoded.dumpVtables_eq, looped]
    exact ⟨_, rfl⟩
  obtain ⟨ranges, entries⟩ := decoded.entries ended
  have names : result.map Vtable.name = vtables.map Vtable.name := by
    have projected := congrArg (List.map fun range => range.1) ranges
    simpa only [map_map, Function.comp_def, Vtable.range] using projected
  have begins : result.map Vtable.beginAddr = vtables.map Vtable.beginAddr := by
    have projected := congrArg (List.map fun range => range.2.1) ranges
    simpa only [map_map, Function.comp_def, Vtable.range] using projected
  refine ⟨result, ended, names ▸ prepared.distinct, fun name => ?_, fun vtable listed => ?_, ?_,
    ?_, fun vtable listed => ?_⟩
  · rw [names]
    constructor
    · intro listed
      obtain ⟨vtable, vtableListed, rfl⟩ := mem_map.mp listed
      obtain ⟨sym, defines, _⟩ := prepared.defined vtable vtableListed
      exact ⟨sym, defines⟩
    · rintro ⟨sym, defines⟩
      exact prepared.complete name sym defines
  · obtain ⟨index, found⟩ := mem_iff_getElem?.mp listed
    obtain ⟨other, otherListed, sameRange⟩ := exists_range ranges found
    obtain ⟨sym, defines, same⟩ := prepared.defined other (mem_of_getElem? otherListed)
    simp only [Vtable.range, Prod.mk.injEq] at sameRange
    refine ⟨sym, sameRange.1 ▸ defines, ?_, ?_⟩
    · rw [← sameRange.2.1, same]
      rfl
    · rw [← sameRange.2.2, same]
      rfl
  · have strictly := sorted_strictly prepared.sorted nonempty disjoint
    rw [← pairwise_map (f := Vtable.beginAddr)] at strictly ⊢
    rw [begins]
    exact strictly
  · intro offset first firstListed second secondListed around alsoAround
    obtain ⟨i, firstFound⟩ := mem_iff_getElem?.mp firstListed
    obtain ⟨j, secondFound⟩ := mem_iff_getElem?.mp secondListed
    obtain ⟨other, otherListed, sameRange⟩ := exists_range ranges firstFound
    obtain ⟨another, anotherListed, alsoSame⟩ := exists_range ranges secondFound
    have last := Bisect.lastAtMost_of_disjoint prepared.sorted nonempty disjoint otherListed
      ((Vtable.contains_of_range sameRange offset).mpr around)
    have alsoLast := Bisect.lastAtMost_of_disjoint prepared.sorted nonempty disjoint anotherListed
      ((Vtable.contains_of_range alsoSame offset).mpr alsoAround)
    have place := ((Bisect.lastAtMost_iff prepared.sorted).mp last).1
    have alsoPlace := ((Bisect.lastAtMost_iff prepared.sorted).mp alsoLast).1
    obtain rfl : i = j := Nat.add_right_cancel (place.symm.trans alsoPlace)
    exact Option.some.inj (firstFound.symm.trans secondFound)
  · obtain ⟨index, found⟩ := mem_iff_getElem?.mp listed
    obtain ⟨other, otherListed, sameRange⟩ := exists_range ranges found
    obtain ⟨inOrder, placed, permuted, paired⟩ := entries index vtable found
    refine ⟨inOrder, placed, ?_, paired⟩
    have filters : sites.filter (self.goesTo types vtables index) =
        sites.filter fun site =>
          self.counted types site && decide (vtable.Contains site.2.rOffset) := by
      refine filter_congr fun site _ => Bool.eq_iff_iff.mpr ?_
      rw [goesTo_iff_contains prepared nonempty disjoint, Bool.and_eq_true, decide_eq_true_eq]
      refine and_congr_right fun _ => ?_
      simp [otherListed, Vtable.contains_of_range sameRange]
    exact filters ▸ permuted

theorem smallParser_decoded :
    (smallParser (0x1000, 4) (0x1004, 4) false 0x3000).Decoded ⟨0x02, 0x17⟩
      [⟨ztv ++ [97], 0x1000, 0x1004, []⟩, ⟨ztv ++ [98], 0x1004, 0x1008, []⟩]
      [(0x1000, [ztv ++ [97]]), (0x1004, [ztv ++ [98]])]
      [(smallTable false, .rel ⟨0x1004, 0x17⟩), (smallTable false, .rel ⟨0x1000, 0x17⟩)] :=
  ⟨rfl, by decide +kernel, by decide +kernel, by decide +kernel⟩

/-- Two vtables of one word each, next to each other. -/
theorem smallParser_partition :
    ∃ result, (smallParser (0x1000, 4) (0x1004, 4) false 0x3000).dumpVtables = .ok result ∧
      (smallParser (0x1000, 4) (0x1004, 4) false 0x3000).Partitions ⟨0x02, 0x17⟩
        [(0x1000, [ztv ++ [97]]), (0x1004, [ztv ++ [98]])]
        [(smallTable false, .rel ⟨0x1004, 0x17⟩), (smallTable false, .rel ⟨0x1000, 0x17⟩)] result := by
  refine dumpVtables_partition _ smallParser_decoded ?_ (by decide) ?_
  · intro site listed _ _ _ _
    simp only [mem_cons, not_mem_nil, or_false] at listed
    rcases listed with rfl | rfl
    · exact ⟨⟨[], 0x3000, false⟩, by decide +kernel⟩
    · exact ⟨⟨[], 0x2000, false⟩, by decide +kernel⟩
  · refine .cons ?_ (pairwise_singleton _ _)
    intro second listed offset around
    rw [mem_singleton.mp listed] at around
    simp only [Vtable.Contains, Bisect.Contains] at around
    omega

end ElfParser

end Vts.Elf
