import Vts.Lib.WordCodec
import Vts.Python.Text

/-!
# The structures of an ELF file

The ctypes structures of `utils/python/library/elf/structs.py`. A structure is a
list of field widths; its fields stand one after the other without padding, least
significant byte first. Only the fields that the parser reads are kept.
-/

namespace Vts.Elf

open Python (Text)
open Lib.WordCodec (leValue)

/-- The file class, which decides the width of addresses. -/
inductive ElfClass where
  | elfClass32
  | elfClass64
deriving DecidableEq

namespace ElfClass

/-- The number of bytes of an address. -/
def addrSize : ElfClass → Nat
  | elfClass32 => 4
  | elfClass64 => 8

/-- The bitness of the ELF. -/
def bitness : ElfClass → Nat
  | elfClass32 => 32
  | elfClass64 => 64

end ElfClass

/-- The value of a field, given the widths of all fields. -/
def field (widths : List Nat) (index : Nat) (raw : Text) : Nat :=
  leValue ((raw.drop (widths.take index).sum).take (widths.getD index 0))

/-- A number as a signed integer of the given number of bits. -/
def signed (bits value : Nat) : Int :=
  if value < 2 ^ (bits - 1) then value else (value : Int) - 2 ^ bits

/-- A ctypes structure type: the widths of its fields, and the fields that are
used. -/
structure StructType (α : Type) where
  widths : List Nat
  build : Text → α

/-- `ctypes.sizeof`. -/
def StructType.sizeof {α : Type} (structType : StructType α) : Nat := structType.widths.sum

/-- The ELF header. -/
structure Ehdr where
  eType : Nat
  eMachine : Nat
  ePhoff : Nat
  eShoff : Nat
  ePhentsize : Nat
  ePhnum : Nat
  eShentsize : Nat
  eShnum : Nat
  eShstrndx : Nat
deriving DecidableEq

/-- A section header. -/
structure Shdr where
  shName : Nat
  shType : Nat
  shAddr : Nat
  shOffset : Nat
  shSize : Nat
  shLink : Nat := 0
  shEntsize : Nat
deriving DecidableEq

/-- An entry of the dynamic section; `d_val` and `d_ptr` are one union. -/
structure Dyn where
  dTag : Int
  dVal : Nat
deriving DecidableEq

/-- An entry of a symbol table. -/
structure Sym where
  stName : Nat
  stValue : Nat
  stSize : Nat
  stInfo : Nat
  stShndx : Nat
deriving DecidableEq

/-- A relocation. -/
structure Rel where
  rOffset : Nat
  rInfo : Nat
deriving DecidableEq

/-- A relocation with an explicit addend. -/
structure Rela where
  rOffset : Nat
  rInfo : Nat
  rAddend : Int
deriving DecidableEq

/-- A program header. -/
structure Phdr where
  pType : Nat
  pOffset : Nat
deriving DecidableEq

/-- The header of a note. -/
structure Nhdr where
  nNamesz : Nat
deriving DecidableEq

namespace ElfClass

variable (elfClass : ElfClass)

/-- `Elf32_Ehdr` or `Elf64_Ehdr`. -/
def elfEhdr : StructType Ehdr :=
  let addr := elfClass.addrSize
  let widths := [16, 2, 2, 4, addr, addr, addr, 4, 2, 2, 2, 2, 2, 2]
  { widths
    build := fun raw =>
      { eType := field widths 1 raw
        eMachine := field widths 2 raw
        ePhoff := field widths 5 raw
        eShoff := field widths 6 raw
        ePhentsize := field widths 9 raw
        ePhnum := field widths 10 raw
        eShentsize := field widths 11 raw
        eShnum := field widths 12 raw
        eShstrndx := field widths 13 raw } }

/-- `Elf32_Shdr` or `Elf64_Shdr`. -/
def elfShdr : StructType Shdr :=
  let addr := elfClass.addrSize
  let widths := [4, 4, addr, addr, addr, addr, 4, 4, addr, addr]
  { widths
    build := fun raw =>
      { shName := field widths 0 raw
        shType := field widths 1 raw
        shAddr := field widths 3 raw
        shOffset := field widths 4 raw
        shSize := field widths 5 raw
        shLink := field widths 6 raw
        shEntsize := field widths 9 raw } }

/-- `Elf32_Dyn` or `Elf64_Dyn`. -/
def elfDyn : StructType Dyn :=
  let addr := elfClass.addrSize
  let widths := [addr, addr]
  { widths
    build := fun raw =>
      { dTag := signed elfClass.bitness (field widths 0 raw)
        dVal := field widths 1 raw } }

/-- `Elf32_Sym` or `Elf64_Sym`, whose fields stand in different orders. -/
def elfSym : StructType Sym :=
  match elfClass with
  | elfClass32 =>
    let widths := [4, 4, 4, 1, 1, 2]
    { widths
      build := fun raw =>
        { stName := field widths 0 raw
          stValue := field widths 1 raw
          stSize := field widths 2 raw
          stInfo := field widths 3 raw
          stShndx := field widths 5 raw } }
  | elfClass64 =>
    let widths := [4, 1, 1, 2, 8, 8]
    { widths
      build := fun raw =>
        { stName := field widths 0 raw
          stValue := field widths 4 raw
          stSize := field widths 5 raw
          stInfo := field widths 1 raw
          stShndx := field widths 3 raw } }

/-- `Elf32_Rel` or `Elf64_Rel`. -/
def elfRel : StructType Rel :=
  let addr := elfClass.addrSize
  let widths := [addr, addr]
  { widths
    build := fun raw => { rOffset := field widths 0 raw, rInfo := field widths 1 raw } }

/-- `Elf32_Rela` or `Elf64_Rela`. -/
def elfRela : StructType Rela :=
  let addr := elfClass.addrSize
  let widths := [addr, addr, addr]
  { widths
    build := fun raw =>
      { rOffset := field widths 0 raw
        rInfo := field widths 1 raw
        rAddend := signed elfClass.bitness (field widths 2 raw) } }

/-- `Elf32_Phdr` or `Elf64_Phdr`, whose flags stand in different places. -/
def elfPhdr : StructType Phdr :=
  match elfClass with
  | elfClass32 =>
    let widths := [4, 4, 4, 4, 4, 4, 4, 4]
    { widths
      build := fun raw => { pType := field widths 0 raw, pOffset := field widths 1 raw } }
  | elfClass64 =>
    let widths := [4, 4, 8, 8, 8, 8, 8, 8]
    { widths
      build := fun raw => { pType := field widths 0 raw, pOffset := field widths 2 raw } }

/-- `Elf32_Nhdr` and `Elf64_Nhdr` are the same. -/
def elfNhdr : StructType Nhdr :=
  let widths := [4, 4, 4]
  { widths
    build := fun raw => { nNamesz := field widths 0 raw } }

/-- A value kept in an unsigned field of the width of an address. -/
def wrap (value : Int) : Nat := (value % 2 ^ elfClass.bitness).toNat

/-- A value kept in a signed field of the width of an address. -/
def wrapSigned (value : Int) : Int := signed elfClass.bitness (elfClass.wrap value)

/-- The constructor call `Elf_Rela(r_offset=..., r_info=..., r_addend=...)`. -/
def createRela (offset info addend : Int) : Rela where
  rOffset := elfClass.wrap offset
  rInfo := elfClass.wrap info
  rAddend := elfClass.wrapSigned addend

/-- `_CreateElfRel`, and the constructor call `Elf_Rel(r_offset=..., r_info=...)`. -/
def createElfRel (offset info : Int) : Rel where
  rOffset := elfClass.wrap offset
  rInfo := elfClass.wrap info

end ElfClass

/-- `GetBinding` of a symbol. -/
def Sym.getBinding (sym : Sym) : Nat := sym.stInfo >>> 4

/-- `GetType` of a symbol. -/
def Sym.getType (sym : Sym) : Nat := sym.stInfo &&& 0xf

end Vts.Elf
