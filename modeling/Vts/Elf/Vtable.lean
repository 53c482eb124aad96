import Mathlib.Data.List.Sort
import Mathlib.Data.List.Dedup
import Vts.Elf.Parser
import Vts.Lib.Bisect

/-!
# The vtable dumper

The class `VtableDumper` of `utils/python/library/vtable/vtable_dumper.py`. It collects
the vtables that the symbol tables define, looks for the vtable around each relocation,
and gives the vtable an entry for it.

Symbols are read when the loops ask for them. The relocations of a section are decoded
before the first of them is used, so which of two failures comes first is not modelled
where a later relocation of the section is malformed.
-/

namespace Vts.Elf

open Python (Exception Host Text)
open Lib

/-! ## Constants -/

/-- `SHT_NOBITS`. -/
def shtNobits : Nat := 8

/-- `SHT_REL`. -/
def shtRel : Nat := 9

/-- `STT_OBJECT`. -/
def sttObject : Nat := 1

/-- `STT_FUNC`. -/
def sttFunc : Nat := 2

/-- `EM_386`. -/
def em386 : Nat := 3

/-- `EM_ARM`. -/
def emArm : Nat := 40

/-- `EM_X86_64`. -/
def emX8664 : Nat := 62

/-- `EM_AARCH64`. -/
def emAarch64 : Nat := 183

/-- The name `.symtab`. -/
def symtabName : Text := [46, 115, 121, 109, 116, 97, 98]

/-- The prefix `_ZTV`. -/
def ztv : Text := [95, 90, 84, 86]

/-- The absolute and the relative relocation type of a machine. -/
structure RelType where
  relAbsType : Nat
  relRelativeType : Nat
deriving DecidableEq

/-- The table `rel_type`. -/
def relType (machine : Nat) : Option RelType :=
  if machine = emArm then some ⟨0x02, 0x17⟩
  else if machine = emAarch64 then some ⟨0x101, 0x403⟩
  else if machine = em386 then some ⟨1, 8⟩
  else if machine = emX8664 then some ⟨1, 8⟩
  else none

/-! ## Relocations -/

namespace ElfClass

variable (elfClass : ElfClass)

/-- The number of low bits of `r_info` that hold the type. -/
def typeBits : Nat :=
  match elfClass with
  | elfClass32 => 8
  | elfClass64 => 32

/-- `GetSymbol` of a relocation. -/
def relSymbol (info : Nat) : Nat := info >>> elfClass.typeBits

/-- `GetType` of a relocation. -/
def relGetType (info : Nat) : Nat := info &&& (2 ^ elfClass.typeBits - 1)

/-- `Elf32_Addr` or `Elf64_Addr`. -/
def elfAddr : StructType Nat :=
  let widths := [elfClass.addrSize]
  { widths, build := fun raw => field widths 0 raw }

end ElfClass

/-- `r_offset`. -/
def Relocation.rOffset : Relocation → Nat
  | .rel reloc => reloc.rOffset
  | .rela reloc => reloc.rOffset

/-- `r_info`. -/
def Relocation.rInfo : Relocation → Nat
  | .rel reloc => reloc.rInfo
  | .rela reloc => reloc.rInfo

/-- `is_rela`. -/
def Shdr.isRela (relSh : Shdr) : Bool := relSh.shType = shtRela || relSh.shType = shtAndroidRela

/-- `is_relr`. -/
def Shdr.isRelr (relSh : Shdr) : Bool := relSh.shType = shtRelr || relSh.shType = shtAndroidRelr

/-- A section that `_RelocationSections` yields. -/
def Shdr.isRelocation (sh : Shdr) : Bool :=
  [shtRel, shtRela, shtRelr, shtAndroidRel, shtAndroidRela, shtAndroidRelr].contains sh.shType

/-- A relocation section with the tables that it is linked to. -/
structure RelocationSection where
  relSh : Shdr
  symtab : Shdr
  strtab : Shdr
deriving DecidableEq

/-! ## Vtables -/

/-- What an entry of a vtable refers to. -/
structure Target where
  names : List Text
  value : Int
  isUndefined : Bool
deriving DecidableEq

/-- `VtableEntry`. -/
structure VtableEntry extends Target where
  offset : Int
deriving DecidableEq

/-- `Vtable`. -/
structure Vtable where
  name : Text
  beginAddr : Nat
  endAddr : Nat
  entries : List VtableEntry
deriving DecidableEq

namespace Vtable

/-- `vtables.sort()`. -/
def sort (vtables : List Vtable) : List Vtable :=
  vtables.insertionSort fun first second => first.beginAddr ≤ second.beginAddr

/-- `vtable.entries.append`. -/
def append (entry : VtableEntry) (vtable : Vtable) : Vtable :=
  { vtable with entries := vtable.entries ++ [entry] }

/-- `vtable.entries.sort()`. -/
def sortEntries (vtable : Vtable) : Vtable :=
  { vtable with
    entries := vtable.entries.insertionSort fun first second => first.offset ≤ second.offset }

/-- The vtable contains an address. -/
def Contains (vtable : Vtable) (offset : Nat) : Prop :=
  Bisect.Contains Vtable.beginAddr Vtable.endAddr vtable offset

instance (vtable : Vtable) (offset : Nat) : Decidable (vtable.Contains offset) :=
  inferInstanceAs (Decidable (Bisect.Contains _ _ vtable offset))

end Vtable

/-- `_LocateVtable`: the vtable and its position. -/
def locateVtable (vtables : List Vtable) (offset : Nat) : Option (Nat × Vtable) :=
  match Bisect.bisect Vtable.beginAddr vtables offset with
  | 0 => none
  | index + 1 =>
    match vtables[index]? with
    | none => none
    | some vtable =>
      if vtable.beginAddr ≤ offset ∧ offset < vtable.endAddr then some (index, vtable) else none

/-! ## The inverse table -/

/-- The dictionary from addresses to symbol names. -/
abbrev InverseTable := List (Nat × List Text)

namespace InverseTable

/-- One more name of an address. -/
def add (value : Nat) (name : Text) (table : InverseTable) : InverseTable :=
  if table.any fun item => item.1 = value then
    table.map fun item => if item.1 = value then (item.1, item.2 ++ [name]) else item
  else table ++ [(value, [name])]

/-- `sorted(set(names))` for each address. -/
def sorted (table : InverseTable) : InverseTable :=
  table.map fun item => (item.1, item.2.dedup.insertionSort (· ≤ ·))

/-- The names of an address, if it is there. -/
def find (table : InverseTable) (value : Int) : Option (List Text) :=
  (table.find? fun item => (item.1 : Int) = value).map Prod.snd

end InverseTable

/-! ## The dumper -/

namespace ElfParser

variable (self : ElfParser)

/-- The number of symbols that `GetSymbols` yields. -/
def countSymbols (symtab : Shdr) : Except Exception Nat := do
  let num ← floorDiv symtab.shSize symtab.shEntsize
  self.host.range num

/-- A loop over the symbols of `GetSymbols` from an index on. -/
def forSymbols {σ : Type} (symtab : Shdr) (body : σ → Sym → Except Exception σ) :
    Nat → Nat → σ → Except Exception σ
  | _, 0, state => .ok state
  | idx, count + 1, state => do
    let sym ← self.getSymbol symtab idx
    let next ← body state sym
    forSymbols symtab body (idx + 1) count next

/-- The loop over the names of symbol tables: a table that is not there is passed. The
body is given the string table. -/
def forSymbolTables {σ : Type} (body : Shdr → σ → Sym → Except Exception σ) :
    List Text → σ → Except Exception σ
  | [], state => .ok state
  | name :: names, state => do
    let symtab ← self.getSectionByName name
    match symtab with
    | none => forSymbolTables body names state
    | some symtab =>
      match self.shdr[symtab.shLink]? with
      | none => .error .indexError
      | some strtab => do
        let count ← self.countSymbols symtab
        let next ← self.forSymbols symtab (body strtab) 0 count state
        forSymbolTables body names next

/-- `symtab_names`. -/
def symtabNames : List Text := [symtabName, dynsymName]

/-- The body of the loop of `_PrepareVtables`; `vtable_names` holds the names of the
vtables so far. -/
def prepareVtable (strtab : Shdr) (vtables : List Vtable) (sym : Sym) :
    Except Exception (List Vtable) :=
  if sym.stShndx = shnUndef then .ok vtables
  else do
    let symName ← self.getString strtab sym.stName
    if ztv <+: symName ∧ symName ∉ vtables.map Vtable.name then
      .ok (vtables ++
        [{ name := symName
           beginAddr := sym.stValue
           endAddr := sym.stValue + sym.stSize
           entries := [] }])
    else .ok vtables

/-- `_PrepareVtables`. -/
def prepareVtables : Except Exception (List Vtable) := do
  let vtables ← self.forSymbolTables self.prepareVtable symtabNames []
  .ok (Vtable.sort vtables)

/-- The body of the loop of `_FunctionSymbolInverseTable`. -/
def addFunctionSymbol (strtab : Shdr) (invTable : InverseTable) (sym : Sym) :
    Except Exception InverseTable :=
  if (sym.getType = sttObject ∨ sym.getType = sttFunc) ∧ sym.stShndx ≠ shnUndef then do
    let symName ← self.getString strtab sym.stName
    .ok (invTable.add sym.stValue symName)
  else .ok invTable

/-- `_FunctionSymbolInverseTable`. -/
def functionSymbolInverseTable : Except Exception InverseTable := do
  let invTable ← self.forSymbolTables self.addFunctionSymbol symtabNames []
  .ok invTable.sorted

/-- `_RelocationSections`. -/
def relocationSections : List Shdr := self.shdr.filter Shdr.isRelocation

/-- `GetRelocationSymbol`. -/
def getRelocationSymbol (symtab : Shdr) (reloc : Relocation) : Except Exception Sym :=
  self.getSymbol symtab (self.elfClass.relSymbol reloc.rInfo)

/-- The loop of `_ReadRelocationAddend`. -/
def addendIn (reloc : Relocation) : List Shdr → Except Exception Nat
  | [] =>
    .error (.vtableError
      ("Invalid relocation: Cannot find relocation target section " ++
        "r_offset = \x7b:#x\x7d, r_info = \x7b:#x\x7d")
      [reloc.rOffset, reloc.rInfo])
  | sh :: others =>
    if sh.shAddr ≤ reloc.rOffset ∧ reloc.rOffset < sh.shAddr + sh.shSize then
      if sh.shType = shtNobits then .ok 0
      else
        self.source.seekReadStruct (reloc.rOffset - sh.shAddr + sh.shOffset) self.elfClass.elfAddr
    else addendIn reloc others

/-- `_ReadRelocationAddend`. -/
def readRelocationAddend (reloc : Relocation) : Except Exception Nat :=
  self.addendIn reloc self.shdr

/-- `addend`, which is explicit in the `RELA` sections. -/
def relocationAddend (relSh : Shdr) (reloc : Relocation) : Except Exception Int :=
  if relSh.isRela then
    match reloc with
    | .rela rela => .ok rela.rAddend
    | .rel _ => .error .attributeError
  else do
    let addend ← self.readRelocationAddend reloc
    .ok (addend : Int)

/-- `is_absolute_type`. -/
def isAbsoluteType (types : RelType) (relSh : Shdr) (reloc : Relocation) : Bool :=
  !relSh.isRelr && self.elfClass.relGetType reloc.rInfo = types.relAbsType

/-- `is_relative_type`. -/
def isRelativeType (types : RelType) (relSh : Shdr) (reloc : Relocation) : Bool :=
  relSh.isRelr || self.elfClass.relGetType reloc.rInfo = types.relRelativeType

/-- What a relocation of one of the two types refers to. -/
def relocationTarget (types : RelType) (invTable : InverseTable) (table : RelocationSection)
    (reloc : Relocation) : Except Exception Target := do
  let addend ← self.relocationAddend table.relSh reloc
  if self.isAbsoluteType types table.relSh reloc then do
    let sym ← self.getRelocationSymbol table.symtab reloc
    let relocValue : Int := sym.stValue + addend
    match invTable.find relocValue with
    | some names =>
      .ok { names, value := relocValue, isUndefined := sym.stShndx = shnUndef }
    | none => do
      let symName ← self.getString table.strtab sym.stName
      .ok { names := [symName], value := relocValue, isUndefined := sym.stShndx = shnUndef }
  else
    .ok { names := (invTable.find addend).getD [], value := addend, isUndefined := false }

/-- The body of the loop over the relocations of a section. -/
def dumpRelocation (types : RelType) (invTable : InverseTable) (table : RelocationSection)
    (vtables : List Vtable) (reloc : Relocation) : Except Exception (List Vtable) :=
  if self.isAbsoluteType types table.relSh reloc || self.isRelativeType types table.relSh reloc then
    match locateVtable vtables reloc.rOffset with
    | none => .ok vtables
    | some (index, vtable) => do
      let target ← self.relocationTarget types invTable table reloc
      let entry : VtableEntry := { target with offset := reloc.rOffset - vtable.beginAddr }
      .ok (vtables.modify index (Vtable.append entry))
  else .ok vtables

/-- The tables that a relocation section is linked to. -/
def linkedTables (relSh : Shdr) : Except Exception RelocationSection :=
  match self.shdr[relSh.shLink]? with
  | none => .error .indexError
  | some symtab =>
    match self.shdr[symtab.shLink]? with
    | none => .error .indexError
    | some strtab => .ok { relSh, symtab, strtab }

/-- The body of the loop over the relocation sections. -/
def dumpSection (types : RelType) (invTable : InverseTable) (vtables : List Vtable)
    (relSh : Shdr) : Except Exception (List Vtable) := do
  let table ← self.linkedTables relSh
  let relocations ← self.getRelocations relSh
  relocations.foldlM (self.dumpRelocation types invTable table) vtables

/-- `DumpVtables`. -/
def dumpVtables : Except Exception (List Vtable) :=
  match relType self.ehdr.eMachine with
  | none => .error (.vtableError "Unexpected machine type: " [self.ehdr.eMachine])
  | some types => do
    let vtables ← self.prepareVtables
    let invTable ← self.functionSymbolInverseTable
    let dumped ← self.relocationSections.foldlM (self.dumpSection types invTable) vtables
    .ok (dumped.map Vtable.sortEntries)

end ElfParser

end Vts.Elf
