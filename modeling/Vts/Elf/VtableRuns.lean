import Mathlib.Data.List.Perm.Basic
import Vts.Elf.ErrorContract
import Vts.Elf.Vtable

/-!
# Runs of the vtable dumper

What the loops of the vtable dumper do over whole tables. The symbol tables are visited
as one list of symbols; the vtables that are collected are those of the names that these
symbols define, sorted by where they begin. The relocation sections are visited as one
list of relocations; each leaves the ranges of the vtables as they are and adds at most
one entry to one of them.
-/

namespace Vts.Elf

open Python (Exception Text)
open Lib List
open Lib.WordCodec (leBytes leBytes_length)

/-- A loop ends normally when its first pass does and the others do from there. -/
theorem foldlM_cons_ok_iff {α σ : Type} (body : σ → α → Except Exception σ) (item : α)
    (items : List α) (state result : σ) :
    (item :: items).foldlM body state = .ok result ↔
      ∃ next, body state item = .ok next ∧ items.foldlM body next = .ok result := by
  rw [foldlM_cons, bind_eq_ok_iff]

/-! ## Symbols -/

namespace ElfParser

variable (self : ElfParser)

/-- A symbol of one of the named symbol tables, with the string table for its name. -/
def ListsSymbol (names : List Text) (strtab : Shdr) (sym : Sym) : Prop :=
  ∃ name ∈ names, ∃ symtab, self.getSectionByName name = .ok (some symtab) ∧
    self.shdr[symtab.shLink]? = some strtab ∧
    ∃ count, self.countSymbols symtab = .ok count ∧
      ∃ idx < count, self.getSymbol symtab idx = .ok sym

variable {self} {σ : Type}

/-- The loop over one table is a loop over the list of its symbols. -/
theorem forSymbols_ok {symtab : Shdr} {body : σ → Sym → Except Exception σ} {idx count : Nat}
    {state result : σ} (ended : self.forSymbols symtab body idx count state = .ok result) :
    ∃ visited : List Sym, visited.foldlM body state = .ok result ∧
      ∀ sym, sym ∈ visited ↔
        ∃ other, idx ≤ other ∧ other < idx + count ∧ self.getSymbol symtab other = .ok sym := by
  induction count generalizing idx state with
  | zero =>
    refine ⟨[], ended, fun sym => ?_⟩
    simp only [not_mem_nil, false_iff]
    rintro ⟨other, from_, below, _⟩
    omega
  | succ count ih =>
    rw [forSymbols, bind_eq_ok_iff] at ended
    obtain ⟨first, read, ended⟩ := ended
    obtain ⟨next, stepped, ended⟩ := (bind_eq_ok_iff _ _ _).mp ended
    obtain ⟨visited, folded, members⟩ := ih ended
    refine ⟨first :: visited, ?_, fun sym => ?_⟩
    · rw [foldlM_cons_ok_iff]
      exact ⟨next, stepped, folded⟩
    · rw [mem_cons, members sym]
      constructor
      · rintro (rfl | ⟨other, from_, below, found⟩)
        · exact ⟨idx, by omega, by omega, read⟩
        · exact ⟨other, by omega, by omega, found⟩
      · rintro ⟨other, from_, below, found⟩
        rcases Nat.lt_or_eq_of_le from_ with later | rfl
        · exact .inr ⟨other, later, by omega, found⟩
        · rw [read] at found
          exact .inl (Except.ok.inj found).symm

theorem listsSymbol_cons_iff {name : Text} {names : List Text} {strtab : Shdr} {sym : Sym} :
    self.ListsSymbol (name :: names) strtab sym ↔
      self.ListsSymbol [name] strtab sym ∨ self.ListsSymbol names strtab sym := by
  simp only [ListsSymbol, mem_cons, not_mem_nil, or_false, exists_eq_or_imp,
    exists_eq_left]

/-- The loop over the tables is a loop over the list of all their symbols. -/
theorem forSymbolTables_ok {body : Shdr → σ → Sym → Except Exception σ} {names : List Text}
    {state result : σ} (ended : self.forSymbolTables body names state = .ok result) :
    ∃ visited : List (Shdr × Sym),
      visited.foldlM (fun state item => body item.1 state item.2) state = .ok result ∧
      ∀ strtab sym, (strtab, sym) ∈ visited ↔ self.ListsSymbol names strtab sym := by
  induction names generalizing state with
  | nil =>
    refine ⟨[], ended, fun strtab sym => ?_⟩
    simp [ListsSymbol]
  | cons name names ih =>
    rw [forSymbolTables, bind_eq_ok_iff] at ended
    obtain ⟨found, searched, ended⟩ := ended
    cases found with
    | none =>
      obtain ⟨visited, folded, members⟩ := ih ended
      refine ⟨visited, folded, fun strtab sym => ?_⟩
      rw [members, listsSymbol_cons_iff, or_iff_right]
      rintro ⟨_, here, symtab, other, _⟩
      rw [mem_singleton.mp here, searched] at other
      cases other
    | some symtab =>
      cases linked : self.shdr[symtab.shLink]? with
      | none => simp [linked] at ended
      | some strtab =>
        simp only [linked] at ended
        obtain ⟨count, counted, ended⟩ := (bind_eq_ok_iff _ _ _).mp ended
        obtain ⟨next, looped, ended⟩ := (bind_eq_ok_iff _ _ _).mp ended
        obtain ⟨symbols, symbolsFolded, symbolsRead⟩ := forSymbols_ok looped
        obtain ⟨visited, folded, members⟩ := ih ended
        refine ⟨symbols.map (strtab, ·) ++ visited, ?_, fun otherStrtab sym => ?_⟩
        · rw [foldlM_append, foldlM_map, symbolsFolded]
          exact folded
        · rw [mem_append, members, @listsSymbol_cons_iff self name]
          refine or_congr_left ?_
          constructor
          · intro listed
            obtain ⟨read, symListed, same⟩ := mem_map.mp listed
            cases same
            obtain ⟨idx, _, below, found⟩ := (symbolsRead sym).mp symListed
            exact ⟨name, mem_singleton_self _, symtab, searched, linked, count, counted, idx,
              by omega, found⟩
          · rintro ⟨_, here, otherSymtab, otherSearched, otherLinked, otherCount, otherCounted,
              idx, below, found⟩
            rw [mem_singleton.mp here, searched] at otherSearched
            cases otherSearched
            rw [linked] at otherLinked
            cases otherLinked
            rw [counted] at otherCounted
            cases otherCounted
            exact mem_map_of_mem ((symbolsRead sym).mpr ⟨idx, by omega, by omega, found⟩)

/-! ## The vtables -/

variable (self) in
/-- A symbol that defines a vtable of a name. -/
def NamesVtable (strtab : Shdr) (sym : Sym) (name : Text) : Prop :=
  sym.stShndx ≠ shnUndef ∧ self.getString strtab sym.stName = .ok name ∧ ztv <+: name

/-- The vtable of a symbol before any relocation. -/
def vtableOf (sym : Sym) (name : Text) : Vtable where
  name := name
  beginAddr := sym.stValue
  endAddr := sym.stValue + sym.stSize
  entries := []

section

variable {strtab : Shdr} {vtables next : List Vtable} {sym : Sym} {visited : List (Shdr × Sym)}

/-- A symbol adds the vtable that it defines, unless there is one of its name. -/
theorem prepareVtable_ok (prepared : self.prepareVtable strtab vtables sym = .ok next) :
    (next = vtables ∧
        ∀ name, self.NamesVtable strtab sym name → name ∈ vtables.map Vtable.name) ∨
      ∃ name, self.NamesVtable strtab sym name ∧ name ∉ vtables.map Vtable.name ∧
        next = vtables ++ [vtableOf sym name] := by
  rw [prepareVtable] at prepared
  by_cases undefined : sym.stShndx = shnUndef
  · rw [if_pos undefined] at prepared
    refine .inl ⟨(Except.ok.inj prepared).symm, fun name named => ?_⟩
    exact absurd undefined named.1
  · rw [if_neg undefined, bind_eq_ok_iff] at prepared
    obtain ⟨symName, read, prepared⟩ := prepared
    by_cases new : ztv <+: symName ∧ symName ∉ vtables.map Vtable.name
    · rw [if_pos new] at prepared
      exact .inr ⟨symName, ⟨undefined, read, new.1⟩, new.2, (Except.ok.inj prepared).symm⟩
    · rw [if_neg new] at prepared
      refine .inl ⟨(Except.ok.inj prepared).symm, fun name named => ?_⟩
      have same : symName = name := Except.ok.inj (read.symm.trans named.2.1)
      by_contra absent
      exact new ⟨same ▸ named.2.2, same ▸ absent⟩

/-- What the loop of `_PrepareVtables` has collected once it has visited some symbols. -/
structure Collected (parser : ElfParser) (visited : List (Shdr × Sym)) (vtables : List Vtable) :
    Prop where
  distinct : (vtables.map Vtable.name).Nodup
  defined : ∀ vtable ∈ vtables, ∃ strtab sym, (strtab, sym) ∈ visited ∧
    parser.NamesVtable strtab sym vtable.name ∧ vtable = vtableOf sym vtable.name
  complete : ∀ strtab sym name, (strtab, sym) ∈ visited → parser.NamesVtable strtab sym name →
    name ∈ vtables.map Vtable.name

theorem Collected.step {vtables : List Vtable} (collected : self.Collected visited vtables)
    (prepared : self.prepareVtable strtab vtables sym = .ok next) :
    self.Collected (visited ++ [(strtab, sym)]) next := by
  have earlier {item} (listed : item ∈ visited) : item ∈ visited ++ [(strtab, sym)] :=
    mem_append_left _ listed
  have latest : (strtab, sym) ∈ visited ++ [(strtab, sym)] := by simp
  rcases prepareVtable_ok prepared with ⟨rfl, known⟩ | ⟨symName, named, absent, rfl⟩
  · refine ⟨collected.distinct, fun vtable listed => ?_, ?_⟩
    · obtain ⟨otherStrtab, other, otherListed, defines⟩ := collected.defined vtable listed
      exact ⟨otherStrtab, other, earlier otherListed, defines⟩
    · intro otherStrtab other name listed defines
      rcases mem_append.mp listed with old | new
      · exact collected.complete _ _ _ old defines
      · cases mem_singleton.mp new
        exact known name defines
  · refine ⟨?_, fun vtable listed => ?_, ?_⟩
    · rw [map_append, nodup_append]
      refine ⟨collected.distinct, nodup_singleton _, ?_⟩
      intro name listed other here same
      rw [mem_singleton.mp here] at same
      rw [same] at listed
      exact absent listed
    · rcases mem_append.mp listed with old | new
      · obtain ⟨otherStrtab, other, otherListed, defines⟩ := collected.defined vtable old
        exact ⟨otherStrtab, other, earlier otherListed, defines⟩
      · rw [mem_singleton.mp new]
        exact ⟨strtab, sym, latest, named, rfl⟩
    · intro otherStrtab other name listed defines
      rw [map_append, mem_append]
      rcases mem_append.mp listed with old | new
      · exact .inl (collected.complete _ _ _ old defines)
      · cases mem_singleton.mp new
        have same : name = symName := Except.ok.inj (defines.2.1.symm.trans named.2.1)
        exact .inr (mem_singleton.mpr same)

theorem Collected.run {others : List (Shdr × Sym)} {result : List Vtable}
    (collected : self.Collected visited vtables)
    (folded : others.foldlM (fun vtables item => self.prepareVtable item.1 vtables item.2) vtables =
      .ok result) : self.Collected (visited ++ others) result := by
  induction others generalizing visited vtables with
  | nil =>
    cases folded
    rwa [append_nil]
  | cons item others ih =>
    obtain ⟨next, prepared, folded⟩ := (foldlM_cons_ok_iff _ _ _ _ _).mp folded
    have later := ih (collected.step prepared) folded
    rwa [append_assoc] at later

end

variable (self) in
/-- A name for which one of the symbol tables defines a vtable, with the symbol. -/
def DefinesVtable (name : Text) (sym : Sym) : Prop :=
  ∃ strtab, self.ListsSymbol symtabNames strtab sym ∧ self.NamesVtable strtab sym name

/-- What `_PrepareVtables` returns. -/
structure Prepared (parser : ElfParser) (vtables : List Vtable) : Prop where
  distinct : (vtables.map Vtable.name).Nodup
  defined : ∀ vtable ∈ vtables, ∃ sym, parser.DefinesVtable vtable.name sym ∧
    vtable = vtableOf sym vtable.name
  complete : ∀ name sym, parser.DefinesVtable name sym → name ∈ vtables.map Vtable.name
  sorted : vtables.Pairwise fun first second => first.beginAddr ≤ second.beginAddr

section

variable {vtables : List Vtable}

theorem prepareVtables_ok (ended : self.prepareVtables = .ok vtables) : self.Prepared vtables := by
  rw [prepareVtables, bind_eq_ok_iff] at ended
  obtain ⟨found, looped, ended⟩ := ended
  obtain ⟨visited, folded, members⟩ := forSymbolTables_ok looped
  have nothing : self.Collected [] [] := ⟨nodup_nil, by simp, by simp⟩
  have collected := nothing.run folded
  rw [nil_append] at collected
  have permuted : vtables.Perm found := by
    rw [← Except.ok.inj ended]
    exact perm_insertionSort _ _
  have names := permuted.map Vtable.name
  refine ⟨names.nodup_iff.mpr collected.distinct, fun vtable listed => ?_, ?_, ?_⟩
  · obtain ⟨strtab, sym, symListed, defines, same⟩ :=
      collected.defined vtable (permuted.mem_iff.mp listed)
    exact ⟨sym, ⟨strtab, (members strtab sym).mp symListed, defines⟩, same⟩
  · rintro name sym ⟨strtab, symListed, defines⟩
    rw [names.mem_iff]
    exact collected.complete _ _ _ ((members strtab sym).mpr symListed) defines
  · rw [← Except.ok.inj ended]
    have total : Std.Total fun first second : Vtable => first.beginAddr ≤ second.beginAddr :=
      ⟨fun first second => Nat.le_total _ _⟩
    have transitive : IsTrans Vtable fun first second => first.beginAddr ≤ second.beginAddr :=
      ⟨fun _ _ _ => Nat.le_trans⟩
    exact pairwise_insertionSort _ _

theorem Prepared.forward (prepared : self.Prepared vtables) :
    ∀ vtable ∈ vtables, vtable.beginAddr ≤ vtable.endAddr := by
  intro vtable listed
  obtain ⟨sym, _, same⟩ := prepared.defined vtable listed
  rw [same]
  exact Nat.le_add_right _ _

theorem Prepared.unrelocated (prepared : self.Prepared vtables) :
    ∀ vtable ∈ vtables, vtable.entries = [] := by
  intro vtable listed
  obtain ⟨sym, _, same⟩ := prepared.defined vtable listed
  rw [same]
  rfl

end

end ElfParser

/-! ## Locating -/

section

variable {vtables : List Vtable} {offset index : Nat} {vtable : Vtable} {others : List Vtable}

/-- `_LocateVtable` looks at the vtable before the place that is found. -/
theorem locateVtable_eq_some_iff :
    locateVtable vtables offset = some (index, vtable) ↔
      Bisect.bisect Vtable.beginAddr vtables offset = index + 1 ∧
        vtables[index]? = some vtable ∧ vtable.Contains offset := by
  rw [locateVtable]
  cases Bisect.bisect Vtable.beginAddr vtables offset with
  | zero => simp
  | succ place =>
    cases listed : vtables[place]? with
    | none =>
      simp only [listed, Nat.add_right_cancel_iff]
      refine iff_of_false nofun ?_
      rintro ⟨rfl, found, _⟩
      rw [listed] at found
      cases found
    | some found =>
      simp only [listed, Nat.add_right_cancel_iff]
      constructor
      · intro located
        split at located
        next around =>
          cases located
          exact ⟨rfl, listed, around⟩
        · cases located
      · rintro ⟨rfl, others, around⟩
        rw [listed] at others
        cases others
        exact if_pos around

/-- In a sorted list that is the last vtable that does not begin after the offset. -/
theorem locateVtable_sorted_iff
    (sorted : vtables.Pairwise fun first second => first.beginAddr ≤ second.beginAddr) :
    locateVtable vtables offset = some (index, vtable) ↔
      Bisect.LastAtMost Vtable.beginAddr vtables offset index vtable ∧ vtable.Contains offset := by
  rw [Bisect.lastAtMost_iff sorted, locateVtable_eq_some_iff, and_assoc]

/-- The name and the range of a vtable, which relocations leave as they are. -/
def Vtable.range (vtable : Vtable) : Text × Nat × Nat :=
  (vtable.name, vtable.beginAddr, vtable.endAddr)

theorem Vtable.contains_of_range {first second : Vtable} (same : first.range = second.range)
    (offset : Nat) : first.Contains offset ↔ second.Contains offset := by
  simp only [range, Prod.mk.injEq] at same
  simp only [Contains, Bisect.Contains, same]

/-- Vtables of the same ranges stand in the same places. -/
theorem exists_range (same : vtables.map Vtable.range = others.map Vtable.range)
    (listed : vtables[index]? = some vtable) :
    ∃ other, others[index]? = some other ∧ other.range = vtable.range := by
  have both := congrArg (·[index]?) same
  simp only [List.getElem?_map, listed, Option.map_some] at both
  exact Option.map_eq_some_iff.mp both.symm

theorem locateVtable_ranges (same : vtables.map Vtable.range = others.map Vtable.range)
    (located : locateVtable vtables offset = some (index, vtable)) :
    vtables[index]? = some vtable ∧ ∃ other, locateVtable others offset = some (index, other) ∧
      others[index]? = some other ∧ other.range = vtable.range := by
  have begins : vtables.map Vtable.beginAddr = others.map Vtable.beginAddr := by
    have projected := congrArg (List.map fun range => range.2.1) same
    simpa only [map_map, Function.comp_def, Vtable.range] using projected
  obtain ⟨place, listed, around⟩ := locateVtable_eq_some_iff.mp located
  obtain ⟨other, otherListed, otherRange⟩ := exists_range same listed
  rw [Bisect.bisect_congr begins] at place
  have otherAround := (Vtable.contains_of_range otherRange offset).mpr around
  exact ⟨listed, other, locateVtable_eq_some_iff.mpr ⟨place, otherListed, otherAround⟩,
    otherListed, otherRange⟩

end

/-! ## Relocations -/

/-- A relocation with its section. -/
abbrev Site := RelocationSection × Relocation

namespace ElfParser

variable (self : ElfParser)

/-- The relocations of a section. -/
def sectionSites (relSh : Shdr) : Except Exception (List Site) := do
  let table ← self.linkedTables relSh
  let relocations ← self.getRelocations relSh
  .ok (relocations.map (table, ·))

/-- The relocations of some sections. -/
def sitesOf : List Shdr → Except Exception (List Site)
  | [] => .ok []
  | relSh :: others => do
    let sites ← self.sectionSites relSh
    let more ← sitesOf others
    .ok (sites ++ more)

/-- The relocations of all sections. -/
def sites : Except Exception (List Site) := self.sitesOf self.relocationSections

/-- A relocation is absolute or relative. -/
def counted (types : RelType) (site : Site) : Bool :=
  self.isAbsoluteType types site.1.relSh site.2 || self.isRelativeType types site.1.relSh site.2

/-- A relocation gives an entry to the vtable at a position. -/
def goesTo (types : RelType) (vtables : List Vtable) (index : Nat) (site : Site) : Bool :=
  self.counted types site && (locateVtable vtables site.2.rOffset).map Prod.fst = some index

/-- The entry that a relocation gives to a vtable. -/
def EntryFor (types : RelType) (invTable : InverseTable) (vtable : Vtable) (site : Site)
    (entry : VtableEntry) : Prop :=
  entry.offset = site.2.rOffset - vtable.beginAddr ∧
    self.relocationTarget types invTable site.1 site.2 = .ok entry.toTarget

variable {self} in
theorem entryFor_of_range {types : RelType} {invTable : InverseTable} {first second : Vtable}
    (same : first.range = second.range) {site : Site} {entry : VtableEntry}
    (entryFor : self.EntryFor types invTable first site entry) :
    self.EntryFor types invTable second site entry := by
  simp only [Vtable.range, Prod.mk.injEq] at same
  rw [EntryFor, ← same.2.1]
  exact entryFor

/-- The loop over the relocations, whatever their section. -/
def dumpSites (types : RelType) (invTable : InverseTable) (sites : List Site)
    (vtables : List Vtable) : Except Exception (List Vtable) :=
  sites.foldlM (fun vtables site => self.dumpRelocation types invTable site.1 vtables site.2) vtables

variable {self} {types : RelType} {invTable : InverseTable}

theorem dumpSites_append (front back : List Site) (vtables : List Vtable) :
    self.dumpSites types invTable (front ++ back) vtables =
      self.dumpSites types invTable front vtables >>= self.dumpSites types invTable back := by
  rw [dumpSites, foldlM_append]
  rfl

/-- The two loops over the sections and over their relocations are one. -/
theorem dumpSections_eq {sections : List Shdr} {sites : List Site}
    (decoded : self.sitesOf sections = .ok sites) (vtables : List Vtable) :
    sections.foldlM (self.dumpSection types invTable) vtables =
      self.dumpSites types invTable sites vtables := by
  induction sections generalizing sites vtables with
  | nil =>
    cases decoded
    rfl
  | cons relSh others ih =>
    obtain ⟨here, sectionDecoded, decoded⟩ := (bind_eq_ok_iff _ _ _).mp decoded
    obtain ⟨more, othersDecoded, decoded⟩ := (bind_eq_ok_iff _ _ _).mp decoded
    obtain ⟨table, linked, sectionDecoded⟩ := (bind_eq_ok_iff _ _ _).mp sectionDecoded
    obtain ⟨relocations, read, sectionDecoded⟩ := (bind_eq_ok_iff _ _ _).mp sectionDecoded
    have first : self.dumpSection types invTable vtables relSh =
        self.dumpSites types invTable here vtables := by
      rw [← Except.ok.inj sectionDecoded, dumpSites, foldlM_map, dumpSection, linked, read]
      rfl
    rw [← Except.ok.inj decoded, dumpSites_append, foldlM_cons, first]
    refine congrArg _ (funext fun next => ?_)
    exact ih othersDecoded next

/-! ## Entries -/

/-- The vtables after some relocations, given those before the first. -/
structure Placed (parser : ElfParser) (types : RelType) (invTable : InverseTable)
    (start : List Vtable) (visited : List Site) (vtables : List Vtable) : Prop where
  ranges : vtables.map Vtable.range = start.map Vtable.range
  entries : ∀ {index first vtable}, start[index]? = some first → vtables[index]? = some vtable →
    ∃ new, vtable.entries = first.entries ++ new ∧
      List.Forall₂ (parser.EntryFor types invTable first)
        (visited.filter (parser.goesTo types start index)) new

theorem placed_nil (start : List Vtable) : self.Placed types invTable start [] start := by
  refine ⟨rfl, fun {index first vtable} before after => ?_⟩
  rw [before] at after
  cases after
  exact ⟨[], (append_nil _).symm, .nil⟩

theorem dumpRelocation_eq (vtables : List Vtable) (site : Site) :
    self.dumpRelocation types invTable site.1 vtables site.2 =
      if self.counted types site then
        match locateVtable vtables site.2.rOffset with
        | none => .ok vtables
        | some (index, vtable) => do
          let target ← self.relocationTarget types invTable site.1 site.2
          .ok (vtables.modify index
            (Vtable.append { target with offset := site.2.rOffset - vtable.beginAddr }))
      else .ok vtables := rfl

section

variable {start vtables next : List Vtable} {site : Site} {visited sites : List Site}

/-- What the body of the loop does with a relocation: nothing, or it adds its entry to the
vtable that it goes to. -/
theorem dumpRelocation_ok (same : vtables.map Vtable.range = start.map Vtable.range)
    (ended : self.dumpRelocation types invTable site.1 vtables site.2 = .ok next) :
    (next = vtables ∧ ∀ index, self.goesTo types start index site = false) ∨
      ∃ index vtable entry, vtables[index]? = some vtable ∧
        (∀ other, self.goesTo types start other site = true ↔ other = index) ∧
        self.EntryFor types invTable vtable site entry ∧
        next = vtables.modify index (Vtable.append entry) := by
  rw [dumpRelocation_eq] at ended
  by_cases counts : self.counted types site = true
  · rw [if_pos counts] at ended
    cases located : locateVtable vtables site.2.rOffset with
    | none =>
      rw [located] at ended
      refine .inl ⟨(Except.ok.inj ended).symm, fun index => ?_⟩
      cases elsewhere : locateVtable start site.2.rOffset with
      | none => simp [goesTo, elsewhere]
      | some place =>
        obtain ⟨_, other, found, _⟩ := locateVtable_ranges same.symm elsewhere
        rw [located] at found
        cases found
    | some place =>
      obtain ⟨index, vtable⟩ := place
      simp only [located] at ended
      obtain ⟨target, resolved, ended⟩ := (bind_eq_ok_iff _ _ _).mp ended
      obtain ⟨listed, other, found, _⟩ := locateVtable_ranges same located
      refine .inr ⟨index, vtable, _, listed, fun otherIndex => ?_, ⟨rfl, resolved⟩,
        (Except.ok.inj ended).symm⟩
      simp [goesTo, counts, found, eq_comm]
  · rw [if_neg counts] at ended
    refine .inl ⟨(Except.ok.inj ended).symm, fun index => ?_⟩
    simp [goesTo, Bool.eq_false_iff.mpr counts]

theorem Placed.step {vtables : List Vtable}
    (placed : self.Placed types invTable start visited vtables)
    (ended : self.dumpRelocation types invTable site.1 vtables site.2 = .ok next) :
    self.Placed types invTable start (visited ++ [site]) next := by
  rcases dumpRelocation_ok placed.ranges ended with
    ⟨rfl, nowhere⟩ | ⟨place, there, entry, thereListed, goes, entryFor, rfl⟩
  · refine ⟨placed.ranges, fun {index first vtable} before after => ?_⟩
    obtain ⟨new, grown, given⟩ := placed.entries before after
    refine ⟨new, grown, ?_⟩
    rw [filter_append, filter_cons_of_neg (by simp [nowhere]), filter_nil,
      append_nil]
    exact given
  · have ranges : (vtables.modify place (Vtable.append entry)).map Vtable.range =
        vtables.map Vtable.range := by
      refine ext_getElem? fun index => ?_
      rw [List.getElem?_map, List.getElem?_map, List.getElem?_modify]
      cases vtables[index]? with
      | none => rfl
      | some vtable => by_cases here : place = index <;> simp [here, Vtable.range, Vtable.append]
    refine ⟨ranges.trans placed.ranges, fun {index first vtable} before after => ?_⟩
    rw [List.getElem?_modify] at after
    obtain ⟨old, oldListed, appended⟩ := Option.map_eq_some_iff.mp after
    obtain ⟨new, grown, given⟩ := placed.entries before oldListed
    rw [filter_append]
    by_cases here : place = index
    · subst here
      rw [if_pos rfl] at appended
      rw [thereListed] at oldListed
      cases oldListed
      obtain ⟨other, otherListed, otherRange⟩ := exists_range placed.ranges thereListed
      obtain rfl : first = other := Option.some.inj (before.symm.trans otherListed)
      refine ⟨new ++ [entry], ?_, ?_⟩
      · rw [← appended, Vtable.append, grown, append_assoc]
      · rw [filter_cons_of_pos ((goes place).mpr rfl), filter_nil]
        exact rel_append given (.cons (entryFor_of_range otherRange.symm entryFor) .nil)
    · rw [if_neg here] at appended
      refine ⟨new, ?_, ?_⟩
      · rw [← appended]
        exact grown
      · rw [filter_cons_of_neg (fun goesHere => here ((goes index).mp goesHere).symm),
          filter_nil, append_nil]
        exact given

theorem Placed.run {result : List Vtable}
    (placed : self.Placed types invTable start visited vtables)
    (ended : self.dumpSites types invTable sites vtables = .ok result) :
    self.Placed types invTable start (visited ++ sites) result := by
  induction sites generalizing visited vtables with
  | nil =>
    cases ended
    rwa [append_nil]
  | cons site others ih =>
    obtain ⟨next, first, ended⟩ := (foldlM_cons_ok_iff _ _ _ _ _).mp ended
    have later := ih (placed.step first) ended
    rwa [append_assoc] at later

/-- A relocation is passed when what it refers to can be read, if it goes anywhere. -/
theorem dumpRelocation_ends (same : vtables.map Vtable.range = start.map Vtable.range)
    (resolved : ∀ index, self.goesTo types start index site = true →
      ∃ target, self.relocationTarget types invTable site.1 site.2 = .ok target) :
    ∃ next, self.dumpRelocation types invTable site.1 vtables site.2 = .ok next := by
  rw [dumpRelocation_eq]
  by_cases counts : self.counted types site = true
  · rw [if_pos counts]
    cases located : locateVtable vtables site.2.rOffset with
    | none => exact ⟨_, rfl⟩
    | some place =>
      obtain ⟨_, other, found, _⟩ := locateVtable_ranges same located
      obtain ⟨target, read⟩ := resolved place.1 (by simp [goesTo, counts, found])
      rw [read]
      exact ⟨_, rfl⟩
  · rw [if_neg counts]
    exact ⟨_, rfl⟩

theorem Placed.ends {visited : List Site}
    (placed : self.Placed types invTable start visited vtables)
    (resolved : ∀ site ∈ sites, ∀ index, self.goesTo types start index site = true →
      ∃ target, self.relocationTarget types invTable site.1 site.2 = .ok target) :
    ∃ result, self.dumpSites types invTable sites vtables = .ok result := by
  induction sites generalizing visited vtables with
  | nil => exact ⟨vtables, rfl⟩
  | cons site others ih =>
    obtain ⟨next, first⟩ := dumpRelocation_ends placed.ranges (resolved site mem_cons_self)
    obtain ⟨result, later⟩ := ih (placed.step first)
      fun other listed => resolved other (mem_cons_of_mem _ listed)
    exact ⟨result, (foldlM_cons_ok_iff _ _ _ _ _).mpr ⟨next, first, later⟩⟩

end

/-! ## The whole run -/

/-- What `DumpVtables` reads but for what the relocations refer to. -/
structure Decoded (parser : ElfParser) (types : RelType) (vtables : List Vtable)
    (invTable : InverseTable) (sites : List Site) : Prop where
  machine : relType parser.ehdr.eMachine = some types
  prepared : parser.prepareVtables = .ok vtables
  inverse : parser.functionSymbolInverseTable = .ok invTable
  relocations : parser.sites = .ok sites

variable {vtables : List Vtable} {sites : List Site}

theorem Decoded.dumpVtables_eq (read : self.Decoded types vtables invTable sites) :
    self.dumpVtables = (self.dumpSites types invTable sites vtables).map
      (List.map Vtable.sortEntries) := by
  rw [dumpVtables, read.machine]
  simp only [read.prepared, read.inverse, dumpSections_eq read.relocations, bind, Except.bind]
  cases self.dumpSites types invTable sites vtables <;> rfl

/-- A relocation goes to the last vtable that does not begin after it, if it lies in that. -/
theorem goesTo_iff_last (prepared : self.Prepared vtables) {index : Nat} {site : Site} :
    self.goesTo types vtables index site = true ↔
      self.counted types site = true ∧
        ∃ vtable, Bisect.LastAtMost Vtable.beginAddr vtables site.2.rOffset index vtable ∧
          vtable.Contains site.2.rOffset := by
  simp only [goesTo, Bool.and_eq_true, decide_eq_true_eq, Option.map_eq_some_iff]
  refine and_congr_right fun _ => ?_
  constructor
  · rintro ⟨⟨place, vtable⟩, located, rfl⟩
    exact ⟨vtable, (locateVtable_sorted_iff prepared.sorted).mp located⟩
  · rintro ⟨vtable, last⟩
    exact ⟨(index, vtable), (locateVtable_sorted_iff prepared.sorted).mpr last, rfl⟩

/-- The entries of a vtable that is returned: those of the relocations that go to it, in
ascending order of their offsets. -/
theorem Decoded.entries (read : self.Decoded types vtables invTable sites) {result : List Vtable}
    (ended : self.dumpVtables = .ok result) :
    result.map Vtable.range = vtables.map Vtable.range ∧
      ∀ index vtable, result[index]? = some vtable →
        (vtable.entries.Pairwise fun first second => first.offset ≤ second.offset) ∧
        ∃ placed, placed.Perm (sites.filter (self.goesTo types vtables index)) ∧
          List.Forall₂ (self.EntryFor types invTable vtable) placed vtable.entries := by
  rw [read.dumpVtables_eq] at ended
  obtain ⟨dumped, looped, ended⟩ : ∃ dumped, self.dumpSites types invTable sites vtables =
      .ok dumped ∧ dumped.map Vtable.sortEntries = result := by
    cases looped : self.dumpSites types invTable sites vtables with
    | error failure => simp [looped, Except.map] at ended
    | ok dumped => exact ⟨dumped, rfl, by simpa [looped, Except.map] using ended⟩
  have placed := (placed_nil vtables).run looped
  rw [nil_append] at placed
  have ranges : result.map Vtable.range = dumped.map Vtable.range := by
    rw [← ended, map_map]
    rfl
  refine ⟨ranges.trans placed.ranges, fun index vtable listed => ?_⟩
  rw [← ended, List.getElem?_map] at listed
  obtain ⟨unsorted, unsortedListed, sorts⟩ := Option.map_eq_some_iff.mp listed
  obtain ⟨first, before, firstRange⟩ := exists_range placed.ranges unsortedListed
  have sameRange : first.range = vtable.range := by
    rw [firstRange, ← sorts]
    rfl
  have unrelocated :=
    (prepareVtables_ok read.prepared).unrelocated first (mem_of_getElem? before)
  obtain ⟨new, grown, given⟩ := placed.entries before unsortedListed
  rw [unrelocated, nil_append] at grown
  have entries : vtable.entries =
      new.insertionSort fun first second => first.offset ≤ second.offset := by
    rw [← sorts, Vtable.sortEntries, grown]
  have total : Std.Total fun first second : VtableEntry => first.offset ≤ second.offset :=
    ⟨fun first second => Int.le_total _ _⟩
  have transitive : IsTrans VtableEntry fun first second => first.offset ≤ second.offset :=
    ⟨fun _ _ _ => Int.le_trans⟩
  refine ⟨entries ▸ pairwise_insertionSort _ _, ?_⟩
  obtain ⟨arranged, paired, permuted⟩ := perm_comp_forall₂
    (perm_insertionSort (fun first second : VtableEntry => first.offset ≤ second.offset) new)
    given.flip
  refine ⟨arranged, permuted, ?_⟩
  rw [entries]
  refine paired.flip.imp fun site entry entryFor => ?_
  exact entryFor_of_range sameRange entryFor

end ElfParser

/-! ## A small object -/

/-- Fields of one width, one after the other. -/
def fields (width : Nat) (values : List Nat) : Text := values.flatMap (leBytes width)

theorem fields_length (width : Nat) (values : List Nat) :
    (fields width values).length = width * values.length := by
  induction values with
  | nil => rfl
  | cons value others ih =>
    rw [fields, flatMap_cons, length_append, leBytes_length, ← fields,
      ih, length_cons, Nat.mul_succ, Nat.add_comm]

/-- A shared object of 32 bits for ARM with the sections `.strtab`, `.symtab`, `.data` and
`.rel` or `.rela`. It has two vtables of the given addresses and sizes. Its relocations are
relative, the first of the second word of the data and the second of the first word, and
their addends stand in the data and in a `.rela` section. -/
def smallObject (first second : Nat × Nat) (rela : Bool) (addend : Nat) : Text :=
  elfMagicNumber ++ [1, 1, 1] ++ List.replicate 9 0 ++
  fields 2 [3, emArm] ++ fields 4 [1, 0, 0, 52, 0] ++
  fields 2 [52, 32, 0, 40, 5, 1] ++
  fields 4 (List.replicate 10 0) ++
  fields 4 [0, 3, 0, 0, 252, 24, 0, 0, 1, 0] ++
  fields 4 [1, 2, 0, 0, 276, 48, 1, 0, 4, 16] ++
  fields 4 [0, 1, 3, 0x1000, 324, 8, 0, 0, 4, 0] ++
  fields 4 [0, bif rela then shtRela else shtRel, 0, 0, 332, bif rela then 24 else 16, 2, 0, 4,
    bif rela then 12 else 8] ++
  [0] ++ symtabName ++ [0] ++ ztv ++ [97, 0] ++ ztv ++ [98, 0] ++ [0, 0, 0] ++
  fields 4 [0, 0, 0, 0] ++
  fields 4 [9, first.1, first.2, 0x40011] ++ fields 4 [15, second.1, second.2, 0x40011] ++
  fields 4 [0x2000, addend] ++
  fields 4 (bif rela then [0x1004, 0x17, addend, 0x1000, 0x17, 0x2000]
    else [0x1004, 0x17, 0x1000, 0x17])

theorem smallObject_length (first second : Nat × Nat) (rela : Bool) (addend : Nat) :
    (smallObject first second rela addend).length = bif rela then 356 else 348 := by
  unfold smallObject
  simp only [elfMagicNumber, symtabName, ztv, length_append, fields_length,
    length_replicate, length_cons, length_nil]
  cases rela <;> rfl

/-- The file that is nothing but the object. -/
def smallSource (first second : Nat × Nat) (rela : Bool) (addend : Nat) : Source where
  file := .ideal (smallObject first second rela addend) (by
    rw [smallObject_length]
    cases rela <;> decide)
  beginOffset := 0

/-- The tables of its relocation section. -/
def smallTable (rela : Bool) : RelocationSection where
  relSh :=
    { shName := 0, shType := bif rela then shtRela else shtRel, shAddr := 0, shOffset := 332,
      shSize := bif rela then 24 else 16, shLink := 2, shEntsize := bif rela then 12 else 8 }
  symtab :=
    { shName := 1, shType := 2, shAddr := 0, shOffset := 276, shSize := 48, shLink := 1,
      shEntsize := 16 }
  strtab := { shName := 0, shType := 3, shAddr := 0, shOffset := 252, shSize := 24, shEntsize := 0 }

/-- The parser of the object. -/
def smallParser (first second : Nat × Nat) (rela : Bool) (addend : Nat) : ElfParser where
  source := smallSource first second rela addend
  elfClass := .elfClass32
  ehdr :=
    { eType := 3, eMachine := emArm, ePhoff := 0, eShoff := 52, ePhentsize := 32, ePhnum := 0,
      eShentsize := 40, eShnum := 5, eShstrndx := 1 }
  shdr :=
    [{ shName := 0, shType := 0, shAddr := 0, shOffset := 0, shSize := 0, shEntsize := 0 },
      (smallTable rela).strtab, (smallTable rela).symtab,
      { shName := 0, shType := 1, shAddr := 0x1000, shOffset := 324, shSize := 8, shEntsize := 0 },
      (smallTable rela).relSh]

/-- The constructor gives a parser when it gives its parts. -/
theorem init_eq_of_parts {source : Source} {parser : ElfParser} (same : parser.source = source)
    (parts : ((ElfParser.init source).1.map fun made => (made.elfClass, made.ehdr, made.shdr)) =
      .ok (parser.elfClass, parser.ehdr, parser.shdr)) :
    (ElfParser.init source).1 = .ok parser := by
  cases returned : (ElfParser.init source).1 with
  | error failure => simp [returned, Except.map] at parts
  | ok made =>
    have sameSource := (constructed_of_init returned).source
    simp only [returned, Except.map, Except.ok.injEq, Prod.mk.injEq] at parts
    obtain ⟨elfClass, ehdr, shdr⟩ := parts
    cases made
    cases parser
    simp_all

end Vts.Elf
