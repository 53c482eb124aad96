import Vts.Elf.VtableRuns

/-!
# Addends in the section content and in the relocation

The addend of a relocation stands in the place that the relocation changes or, in the
`RELA` sections, in the relocation itself. The dumper reads the one as an unsigned word
and the other as a signed one, and adds it to the value of the symbol without reducing the
sum to the width of an address.

Only the value and the names of an entry are compared.
-/

namespace Vts.Elf

open Python (Exception Text)
open Lib.WordCodec

/-- A word that is kept is the remainder. -/
theorem wrap_eq_emod (elfClass : ElfClass) (value : Int) :
    (elfClass.wrap value : Int) = value % 2 ^ elfClass.bitness := by
  have positive : (2 : Int) ^ elfClass.bitness ≠ 0 := by cases elfClass <;> decide
  exact Int.toNat_of_nonneg (Int.emod_nonneg value positive)

theorem wrap_lt (elfClass : ElfClass) (value : Int) :
    elfClass.wrap value < 2 ^ elfClass.bitness := by
  have positive : (0 : Int) < 2 ^ elfClass.bitness := by cases elfClass <;> decide
  have bound := Int.emod_lt_of_pos value positive
  rw [← wrap_eq_emod] at bound
  exact_mod_cast bound

theorem elfAddr_build {elfClass : ElfClass} {raw : Text} (length : raw.length = elfClass.addrSize) :
    elfClass.elfAddr.build raw = leValue raw := by
  simp [ElfClass.elfAddr, field, ← length]

namespace ElfParser

variable (self : ElfParser)

/-- A section covers an address. -/
def covers (offset : Nat) (sh : Shdr) : Bool :=
  sh.shAddr ≤ offset ∧ offset < sh.shAddr + sh.shSize

/-- The content of the first section that covers an address holds an addend there. -/
def StoresAddend (offset : Nat) (addend : Int) : Prop :=
  ∃ sh after, self.shdr.find? (covers offset) = some sh ∧ sh.shType ≠ shtNobits ∧
    self.source.rest (offset - sh.shAddr + sh.shOffset) =
      leBytes self.elfClass.addrSize (self.elfClass.wrap addend) ++ after

/-- The value that the addend is added to: that of the symbol, and nothing for a relative
relocation. -/
def relocationBase (types : RelType) (table : RelocationSection) (reloc : Relocation) :
    Except Exception Nat :=
  if self.isAbsoluteType types table.relSh reloc then
    (self.getRelocationSymbol table.symtab reloc).map Sym.stValue
  else .ok 0

/-- Two entries have one value, which is the sum modulo the size of an address, and the
same names. -/
def AddendsAgree (elfClass : ElfClass) (base : Nat) (addend : Int)
    (relEntry relaEntry : VtableEntry) : Prop :=
  relEntry.value = relaEntry.value ∧ relEntry.value = (base + addend) % 2 ^ elfClass.bitness ∧
    relEntry.names = relaEntry.names

/-- What a relocation refers to, once its addend is known. -/
def targetOf (types : RelType) (invTable : InverseTable) (table : RelocationSection)
    (reloc : Relocation) (addend : Int) : Except Exception Target :=
  if self.isAbsoluteType types table.relSh reloc then do
    let sym ← self.getRelocationSymbol table.symtab reloc
    let relocValue : Int := sym.stValue + addend
    match invTable.find relocValue with
    | some names => .ok { names, value := relocValue, isUndefined := sym.stShndx = shnUndef }
    | none => do
      let symName ← self.getString table.strtab sym.stName
      .ok { names := [symName], value := relocValue, isUndefined := sym.stShndx = shnUndef }
  else .ok { names := (invTable.find addend).getD [], value := addend, isUndefined := false }

variable {self}

section

variable {reloc : Relocation} {addend : Int} {types : RelType}

theorem relocationTarget_eq (types : RelType) (invTable : InverseTable) (table : RelocationSection)
    (reloc : Relocation) :
    self.relocationTarget types invTable table reloc =
      self.relocationAddend table.relSh reloc >>= self.targetOf types invTable table reloc := rfl

/-- The loop of `_ReadRelocationAddend` reads from the first section that covers the
address. -/
theorem addendIn_of_find {sections : List Shdr} {sh : Shdr}
    (found : sections.find? (covers reloc.rOffset) = some sh) (stored : sh.shType ≠ shtNobits) :
    self.addendIn reloc sections =
      self.source.seekReadStruct (reloc.rOffset - sh.shAddr + sh.shOffset)
        self.elfClass.elfAddr := by
  induction sections with
  | nil => cases found
  | cons first others ih =>
    rw [addendIn]
    by_cases here : covers reloc.rOffset first = true
    · rw [List.find?_cons_of_pos here] at found
      cases found
      rw [if_pos (of_decide_eq_true here), if_neg stored]
    · rw [List.find?_cons_of_neg here] at found
      rw [if_neg (fun covered => here (decide_eq_true covered))]
      exact ih found

theorem readRelocationAddend_stored (stored : self.StoresAddend reloc.rOffset addend) :
    self.readRelocationAddend reloc = .ok (self.elfClass.wrap addend) := by
  obtain ⟨sh, after, found, content, bytes⟩ := stored
  have length := leBytes_length self.elfClass.addrSize (self.elfClass.wrap addend)
  have positive := self.elfClass.addrSize_pos
  have read := Source.seekRead_stored (List.length_pos_iff.mp (by omega)) bytes
  have size : self.elfClass.elfAddr.sizeof = self.elfClass.addrSize := by
    simp [StructType.sizeof, ElfClass.elfAddr]
  have fits := wrap_lt self.elfClass addend
  rw [two_pow_bitness] at fits
  rw [length] at read
  rw [readRelocationAddend, addendIn_of_find found content, Source.seekReadStruct, size, read]
  simp only [bind, Except.bind, length, Nat.lt_irrefl, if_false, elfAddr_build length,
    leValue_leBytes _ _ fits]

/-- The value of an entry is the sum, whatever its size. -/
theorem targetOf_value {invTable : InverseTable} {table : RelocationSection} {base : Nat}
    {target : Target} (symbol : self.relocationBase types table reloc = .ok base)
    (ended : self.targetOf types invTable table reloc addend = .ok target) :
    target.value = base + addend := by
  rw [relocationBase] at symbol
  rw [targetOf] at ended
  by_cases absolute : self.isAbsoluteType types table.relSh reloc = true
  · rw [if_pos absolute] at symbol ended
    obtain ⟨sym, read, ended⟩ := (bind_eq_ok_iff _ _ _).mp ended
    rw [read] at symbol
    obtain rfl : sym.stValue = base := Except.ok.inj symbol
    cases found : invTable.find (sym.stValue + addend) with
    | some names =>
      simp only [found] at ended
      rw [← Except.ok.inj ended]
    | none =>
      simp only [found] at ended
      obtain ⟨symName, _, ended⟩ := (bind_eq_ok_iff _ _ _).mp ended
      rw [← Except.ok.inj ended]
  · rw [if_neg absolute] at symbol ended
    rw [← Except.ok.inj ended, ← Except.ok.inj symbol]
    simp

/-- With the same addend, the two forms of a relocation refer to the same. -/
theorem targetOf_rela {relTable relaTable : RelocationSection} {rel : Rel}
    (implicit : relTable.relSh.shType = shtRel ∨ relTable.relSh.shType = shtAndroidRel)
    (explicit : relaTable.relSh.shType = shtRela ∨ relaTable.relSh.shType = shtAndroidRela)
    (symtab : relaTable.symtab = relTable.symtab) (strtab : relaTable.strtab = relTable.strtab)
    (invTable : InverseTable) (value : Int) :
    self.targetOf types invTable relaTable (.rela ⟨rel.rOffset, rel.rInfo, addend⟩) value =
      self.targetOf types invTable relTable (.rel rel) value := by
  have typed : relTable.relSh.isRelr = false := by
    rcases implicit with type | type <;> simp [Shdr.isRelr, type] <;> decide
  have alsoTyped : relaTable.relSh.isRelr = false := by
    rcases explicit with type | type <;> simp [Shdr.isRelr, type] <;> decide
  rw [targetOf, targetOf, isAbsoluteType, isAbsoluteType, typed, alsoTyped, symtab, strtab]
  rfl

end

/-- A relocation with its addend in the section content and the same relocation with its
addend explicit agree exactly if the addend is not negative and the sum fits. -/
theorem addends_agree_iff (self : ElfParser) {types : RelType} {invTable : InverseTable}
    {relTable relaTable : RelocationSection} {rel : Rel} {addend : Int} {base : Nat}
    {vtable : Vtable} {relEntry relaEntry : VtableEntry}
    (implicit : relTable.relSh.shType = shtRel ∨ relTable.relSh.shType = shtAndroidRel)
    (explicit : relaTable.relSh.shType = shtRela ∨ relaTable.relSh.shType = shtAndroidRela)
    (symtab : relaTable.symtab = relTable.symtab) (strtab : relaTable.strtab = relTable.strtab)
    (stored : self.StoresAddend rel.rOffset addend)
    (symbol : self.relocationBase types relTable (.rel rel) = .ok base)
    (fromRel : self.EntryFor types invTable vtable (relTable, .rel rel) relEntry)
    (fromRela : self.EntryFor types invTable vtable
      (relaTable, .rela ⟨rel.rOffset, rel.rInfo, addend⟩) relaEntry) :
    AddendsAgree self.elfClass base addend relEntry relaEntry ↔
      0 ≤ addend ∧ base + addend < 2 ^ self.elfClass.bitness := by
  have notRela : relTable.relSh.isRela = false := by
    rcases implicit with type | type <;> simp [Shdr.isRela, type] <;> decide
  have isRela : relaTable.relSh.isRela = true := by
    rcases explicit with type | type <;> simp [Shdr.isRela, type]
  have relTarget := fromRel.2
  have relaTarget := fromRela.2
  rw [relocationTarget_eq, relocationAddend, notRela] at relTarget
  rw [relocationTarget_eq, relocationAddend, isRela] at relaTarget
  simp only [Bool.false_eq_true, if_false, if_true] at relTarget relaTarget
  have read : self.readRelocationAddend (.rel rel) = .ok (self.elfClass.wrap addend) :=
    readRelocationAddend_stored stored
  rw [read] at relTarget
  replace relTarget : self.targetOf types invTable relTable (.rel rel)
    (self.elfClass.wrap addend) = .ok relEntry.toTarget := relTarget
  replace relaTarget : self.targetOf types invTable relTable (.rel rel) addend =
      .ok relaEntry.toTarget := by
    exact (targetOf_rela implicit explicit symtab strtab invTable addend).symm.trans relaTarget
  have relValue : relEntry.value = base + (self.elfClass.wrap addend : Int) :=
    targetOf_value symbol relTarget
  have relaValue : relaEntry.value = base + addend := targetOf_value symbol relaTarget
  have word := wrap_eq_emod self.elfClass addend
  have positive : (0 : Int) < 2 ^ self.elfClass.bitness := by cases self.elfClass <;> decide
  constructor
  · rintro ⟨same, reduced, _⟩
    have addendSame : (self.elfClass.wrap addend : Int) = addend := by omega
    refine ⟨by omega, ?_⟩
    rw [← relaValue, ← same, reduced]
    exact Int.emod_lt_of_pos _ positive
  · rintro ⟨nonneg, fits⟩
    have addendSame : (self.elfClass.wrap addend : Int) = addend := by
      rw [word]
      exact Int.emod_eq_of_lt nonneg (by omega)
    rw [addendSame] at relTarget relValue
    have targets : relEntry.toTarget = relaEntry.toTarget :=
      Except.ok.inj (relTarget.symm.trans relaTarget)
    refine ⟨relValue.trans relaValue.symm, ?_, congrArg Target.names targets⟩
    rw [relValue]
    exact (Int.emod_eq_of_lt (by omega) fits).symm

theorem smallParser_stores (addend : Int) {word : Nat}
    (kept : ElfClass.wrap .elfClass32 addend = word)
    (stored : (smallParser (0x1000, 4) (0x1004, 4) false word).source.rest 328 =
      leBytes 4 word ++ (smallObject (0x1000, 4) (0x1004, 4) false word).drop 332) :
    (smallParser (0x1000, 4) (0x1004, 4) false word).StoresAddend 0x1004 addend := by
  subst kept
  exact ⟨_, _, rfl, by decide, stored⟩

/-- An addend that is small and not negative. -/
theorem smallParser_addends_agree_iff :
    AddendsAgree .elfClass32 0 0x3000 ⟨⟨[], 0x3000, false⟩, 0⟩ ⟨⟨[], 0x3000, false⟩, 0⟩ ↔
      (0 : Int) ≤ 0x3000 ∧ ((0 : Nat) : Int) + 0x3000 < 2 ^ ElfClass.elfClass32.bitness := by
  have fromRel : (smallParser (0x1000, 4) (0x1004, 4) false 0x3000).EntryFor ⟨0x02, 0x17⟩ []
      ⟨ztv ++ [98], 0x1004, 0x1008, []⟩ (smallTable false, .rel ⟨0x1004, 0x17⟩)
      ⟨⟨[], 0x3000, false⟩, 0⟩ := ⟨rfl, by decide +kernel⟩
  have fromRela : (smallParser (0x1000, 4) (0x1004, 4) false 0x3000).EntryFor ⟨0x02, 0x17⟩ []
      ⟨ztv ++ [98], 0x1004, 0x1008, []⟩ (smallTable true, .rela ⟨0x1004, 0x17, 0x3000⟩)
      ⟨⟨[], 0x3000, false⟩, 0⟩ := ⟨rfl, by decide +kernel⟩
  have kept : ElfClass.wrap .elfClass32 0x3000 = 0x3000 := by decide +kernel
  refine addends_agree_iff (smallParser (0x1000, 4) (0x1004, 4) false 0x3000) ?_ ?_ ?_ ?_ ?_ ?_ fromRel
    fromRela
  · exact .inl rfl
  · exact .inl rfl
  · rfl
  · rfl
  · exact smallParser_stores 0x3000 kept (by decide +kernel)
  · decide +kernel

/-- The addend of minus four: an entry with the largest multiple of four, and one with a
negative value. -/
theorem smallParser_negative :
    ∃ relParser relaParser relEntry relaEntry,
      (ElfParser.init (smallSource (0x1000, 4) (0x1004, 4) false 0xfffffffc)).1 = .ok relParser ∧
      (ElfParser.init (smallSource (0x1000, 4) (0x1004, 4) true 0xfffffffc)).1 = .ok relaParser ∧
      relParser.StoresAddend 0x1004 (-4) ∧
      relParser.sites = .ok
        [(smallTable false, .rel ⟨0x1004, 0x17⟩), (smallTable false, .rel ⟨0x1000, 0x17⟩)] ∧
      relaParser.sites = .ok
        [(smallTable true, .rela ⟨0x1004, 0x17, -4⟩),
          (smallTable true, .rela ⟨0x1000, 0x17, 0x2000⟩)] ∧
      relParser.dumpVtables = .ok
        [⟨ztv ++ [97], 0x1000, 0x1004, [⟨⟨[], 0x2000, false⟩, 0⟩]⟩,
          ⟨ztv ++ [98], 0x1004, 0x1008, [relEntry]⟩] ∧
      relaParser.dumpVtables = .ok
        [⟨ztv ++ [97], 0x1000, 0x1004, [⟨⟨[], 0x2000, false⟩, 0⟩]⟩,
          ⟨ztv ++ [98], 0x1004, 0x1008, [relaEntry]⟩] ∧
      ¬AddendsAgree .elfClass32 0 (-4) relEntry relaEntry := by
  have kept : ElfClass.wrap .elfClass32 (-4) = 0xfffffffc := by decide +kernel
  refine ⟨smallParser (0x1000, 4) (0x1004, 4) false 0xfffffffc,
    smallParser (0x1000, 4) (0x1004, 4) true 0xfffffffc, ⟨⟨[], 0xfffffffc, false⟩, 0⟩,
    ⟨⟨[], -4, false⟩, 0⟩, init_eq_of_parts rfl (by decide +kernel),
    init_eq_of_parts rfl (by decide +kernel),
    smallParser_stores (-4) kept (by decide +kernel), by decide +kernel, by decide +kernel,
    by decide +kernel, by decide +kernel, fun agree => ?_⟩
  exact absurd agree.1 (by decide)

end ElfParser

end Vts.Elf
