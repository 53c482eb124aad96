import Vts.Elf.Structs
import Vts.Elf.Utils
import Vts.Lib.ByteReader
import Vts.Python.Host

/-!
# The ELF parser

The class `ElfParser` of `utils/python/library/elf_parser.py`. Generators are
modelled by the list that exhausting them gives, with reads in the order in which
the consumer asks for them. The host is little-endian. Opening the file is not
modelled: a parser starts from a file that is open.
-/

namespace Vts.Elf

open Python (Exception Host Text)
open Lib Lib.WordCodec

/-! ## The file -/

/-- An open or closed file. It is small enough for twice its size to be a machine
word, for positions shortly after its end to be reachable, and for `range` to list
as many items as it has bytes. -/
structure File where
  host : Host
  content : Text
  closed : Bool
  small : content.length < 2 ^ 62
  seekable : content.length + 2 ^ 33 ≤ host.seekLimit
  listable : content.length < host.rangeLimit

/-- `_file` and `_begin_offset` of the parser. -/
structure Source where
  file : File
  beginOffset : Nat

namespace Source

variable (self : Source)

/-- `_file_size`. -/
def fileSize : Nat := self.file.content.length

/-- What stands in the file from a position of the ELF object on. -/
def rest (offset : Nat) : Text := self.file.content.drop (self.beginOffset + offset)

/-- `_SeekRead`. -/
def seekRead (offset readSize : Nat) : Except Exception Text :=
  if offset + readSize > self.fileSize then .error (.elfError "Read beyond end of file." [])
  else
    match self.file.host.seek (self.beginOffset + offset) with
    | .error .ioError => .error (.elfError "Invalid argument" [])
    | .error failure => .error failure
    | .ok () => .ok ((self.rest offset).take readSize)

/-- `struct.unpack` of one unsigned integer. -/
def seekReadInt (offset width : Nat) : Except Exception Nat := do
  let raw ← self.seekRead offset width
  if raw.length = width then .ok (leValue raw) else .error .structError

/-- `_SeekRead8`. -/
def seekRead8 (offset : Nat) : Except Exception Nat := self.seekReadInt offset 1

/-- `_SeekRead16`. -/
def seekRead16 (offset : Nat) : Except Exception Nat := self.seekReadInt offset 2

/-- `_SeekRead32`. -/
def seekRead32 (offset : Nat) : Except Exception Nat := self.seekReadInt offset 4

/-- `_SeekRead64`. -/
def seekRead64 (offset : Nat) : Except Exception Nat := self.seekReadInt offset 8

/-- `buf_size` of `_SeekReadString`. -/
def bufSize : Nat := 16

/-- The loop of `_SeekReadString` over the bytes from the file position on. -/
def readString (ret stream : Text) : Except Exception Text :=
  let buf := stream.take bufSize
  match buf.findIdx? (· == 0) with
  | some endIndex => .ok (ret ++ buf.take endIndex)
  | none =>
    if buf.length ≠ bufSize then
      .error (.elfError "Null-terminated string reaches end of file." [])
    else readString (ret ++ buf) (stream.drop bufSize)
termination_by stream.length
decreasing_by
  simp only [buf, bufSize, List.length_take, List.length_drop] at *
  omega

/-- `_SeekReadString`. -/
def seekReadString (offset : Nat) : Except Exception Text := do
  self.file.host.seek (self.beginOffset + offset)
  readString [] (self.rest offset)

/-- `_SeekReadStruct`. -/
def seekReadStruct {α : Type} (offset : Nat) (structType : StructType α) : Except Exception α := do
  let rawBytes ← self.seekRead offset structType.sizeof
  if rawBytes.length < structType.sizeof then .error (.elfError "Buffer size too small" [])
  else .ok (structType.build rawBytes)

end Source

/-! ## Packed relocations -/

/-- `RELOCATION_GROUPED_BY_INFO_FLAG`. -/
def relocationGroupedByInfoFlag : Nat := 1

/-- `RELOCATION_GROUPED_BY_OFFSET_DELTA_FLAG`. -/
def relocationGroupedByOffsetDeltaFlag : Nat := 2

/-- `RELOCATION_GROUPED_BY_ADDEND_FLAG`. -/
def relocationGroupedByAddendFlag : Nat := 4

/-- `RELOCATION_GROUP_HAS_ADDEND_FLAG`. -/
def relocationGroupHasAddendFlag : Nat := 8

/-- `flags & flag` is not zero, for a flag of one bit. -/
def hasFlag (flags : Int) (flag : Nat) : Bool := flags / flag % 2 == 1

/-- The text `APS2`. -/
def aps2 : Text := [65, 80, 83, 50]

/-- The exception at the end of the words. -/
def pastEnd : Exception := .elfError "Decoding pass end of section." []

/-- `_PopWord` on the bytes from the cursor of the word generator on. -/
def popWord : ByteReader Exception Int := fun stream =>
  if 0 < stream.length then
    match decodeSLEB128 stream 0 with
    | none => .error pastEnd
    | some (value, num) => .ok (value, stream.drop num)
  else .error pastEnd

/-- A word that is only there under a condition. -/
def popWordIf (present : Bool) (absent : Int) : ByteReader Exception Int :=
  if present then popWord else pure absent

/-- The variables of `_UnpackAndroidRela` that are carried from one relocation to the
next. -/
structure PackedState where
  offset : Int
  info : Int
  addend : Int
deriving DecidableEq

/-- One pass of the inner loop of `_UnpackAndroidRela`. -/
def unpackEntry (elfClass : ElfClass) (groupFlags groupOffsetDelta : Int) (state : PackedState) :
    ByteReader Exception (Rela × PackedState) := do
  let groupedByInfo := hasFlag groupFlags relocationGroupedByInfoFlag
  let groupedByOffsetDelta := hasFlag groupFlags relocationGroupedByOffsetDeltaFlag
  let groupedByAddend := hasFlag groupFlags relocationGroupedByAddendFlag
  let groupHasAddend := hasFlag groupFlags relocationGroupHasAddendFlag
  let delta ← popWordIf (!groupedByOffsetDelta) groupOffsetDelta
  let info ← popWordIf (!groupedByInfo) state.info
  let added ← popWordIf (groupHasAddend && !groupedByAddend) 0
  let next := { offset := state.offset + delta, info, addend := state.addend + added }
  pure (elfClass.createRela next.offset next.info next.addend, next)

/-- The inner loop of `_UnpackAndroidRela`. -/
def unpackEntries (elfClass : ElfClass) (groupFlags groupOffsetDelta : Int) :
    Nat → PackedState → ByteReader Exception (List Rela × PackedState)
  | 0, state => pure ([], state)
  | count + 1, state => do
    let (relocation, next) ← unpackEntry elfClass groupFlags groupOffsetDelta state
    let (relocations, last) ← unpackEntries elfClass groupFlags groupOffsetDelta count next
    pure (relocation :: relocations, last)

/-- The words after the flags that the relocations of a group share: the delta, and
the state in which the inner loop starts. -/
def unpackShared (groupFlags : Int) (state : PackedState) :
    ByteReader Exception (Int × PackedState) := do
  let groupedByInfo := hasFlag groupFlags relocationGroupedByInfoFlag
  let groupedByOffsetDelta := hasFlag groupFlags relocationGroupedByOffsetDeltaFlag
  let groupedByAddend := hasFlag groupFlags relocationGroupedByAddendFlag
  let groupHasAddend := hasFlag groupFlags relocationGroupHasAddendFlag
  let groupOffsetDelta ← popWordIf groupedByOffsetDelta 0
  let info ← popWordIf groupedByInfo state.info
  let added ← popWordIf (groupHasAddend && groupedByAddend) 0
  let addend := if groupHasAddend then state.addend + added else 0
  pure (groupOffsetDelta, { offset := state.offset, info, addend })

/-- `range` inside of a reader. -/
def rangeReader (host : Host) (stop : Int) : ByteReader Exception Nat := fun stream =>
  (host.range stop).map fun count => (count, stream)

/-- One pass of the outer loop of `_UnpackAndroidRela`: the size of the group, its
relocations and the state after it. -/
def unpackGroup (host : Host) (elfClass : ElfClass) (state : PackedState) :
    ByteReader Exception (Int × List Rela × PackedState) := do
  let groupSize ← popWord
  let groupFlags ← popWord
  let (groupOffsetDelta, start) ← unpackShared groupFlags state
  let count ← rangeReader host groupSize
  let (relocations, last) ← unpackEntries elfClass groupFlags groupOffsetDelta count start
  pure (groupSize, relocations, last)

/-- The outer loop of `_UnpackAndroidRela`. -/
def unpackGroups (host : Host) (elfClass : ElfClass) (totalCount : Int) :
    Nat → Int → PackedState → ByteReader Exception (List Rela)
  | 0, _, _ => ByteReader.fail .unfinished
  | fuel + 1, currentCount, state =>
    if currentCount < totalCount then do
      let (groupSize, relocations, next) ← unpackGroup host elfClass state
      let others ← unpackGroups host elfClass totalCount fuel (currentCount + groupSize) next
      pure (relocations ++ others)
    else pure []

/-- The words after the header of a packed section. -/
def unpackWords (host : Host) (elfClass : ElfClass) (fuel : Nat) :
    ByteReader Exception (List Rela) := do
  let totalCount ← popWord
  let offset ← popWord
  -- `info` is unbound until the first group, which sets it before it is used
  unpackGroups host elfClass totalCount fuel 0 { offset, info := 0, addend := 0 }

/-- `_UnpackAndroidRela` once the section has been read. -/
def unpackData (host : Host) (elfClass : ElfClass) (data : Text) : Except Exception (List Rela) :=
  if data.length < 4 ∨ data.take 4 ≠ aps2 then
    .error (.elfError "Unexpected SHT_ANDROID_RELA header: " (data.take 4))
  else (unpackWords host elfClass data.length (data.drop 4)).map Prod.fst

/-! ## The parser object -/

/-- An `ElfParser` after its construction. -/
structure ElfParser where
  source : Source
  elfClass : ElfClass
  ehdr : Ehdr
  shdr : List Shdr

/-- `ELF_MAGIC_NUMBER`. -/
def elfMagicNumber : Text := [0x7f, 69, 76, 70]

/-- The file class of a class byte. -/
def elfClassOf (byte : UInt8) : Option ElfClass :=
  if byte = 1 then some .elfClass32
  else if byte = 2 then some .elfClass64
  else none

namespace Source

variable (self : Source)

/-- The checks of `e_ident`, which give the file class. -/
def checkIdent : Except Exception ElfClass := do
  let eIdent ← self.seekRead 0 16
  if eIdent.take 4 ≠ elfMagicNumber then
    .error (.elfError "Unexpected magic bytes: " (eIdent.take 4))
  else
    match eIdent[4]? with
    | none => .error .indexError
    | some classByte =>
      match elfClassOf classByte with
      | none => .error (.elfError "Unexpected file class: " [classByte])
      | some elfClass =>
        match eIdent[5]? with
        | none => .error .indexError
        | some dataByte =>
          if dataByte ≠ 1 then .error (.elfError "Unexpected data encoding: " [dataByte])
          else .ok elfClass

/-- The section headers from an index on. -/
def readShdr (elfClass : ElfClass) (shoff shentsize : Nat) :
    Nat → Nat → Except Exception (List Shdr)
  | _, 0 => .ok []
  | index, count + 1 => do
    let sh ← self.seekReadStruct (shoff + index * shentsize) elfClass.elfShdr
    let others ← readShdr elfClass shoff shentsize (index + 1) count
    .ok (sh :: others)

/-- The two headers, read once the file class is known. -/
def readHeaders (elfClass : ElfClass) : Except Exception ElfParser := do
  let ehdr ← self.seekReadStruct 0 elfClass.elfEhdr
  let count ← self.file.host.range ehdr.eShnum
  let shdr ← self.readShdr elfClass ehdr.eShoff ehdr.eShentsize 0 count
  .ok { source := self, elfClass, ehdr, shdr }

/-- `Close`. -/
def close : Source := { self with file := { self.file with closed := true } }

/-- The file is closed when an `ElfError` passes. -/
def closing {α : Type} (outcome : Except Exception α) : Source :=
  match outcome with
  | .error (.elfError _ _) => self.close
  | _ => self

end Source

/-- The constructor: its outcome, and the file after it. -/
def ElfParser.init (source : Source) : Except Exception ElfParser × Source :=
  match source.checkIdent with
  | .error failure => (.error failure, source.closing (.error failure : Except Exception ElfParser))
  | .ok elfClass => (source.readHeaders elfClass, source.closing (source.readHeaders elfClass))

/-! ## The methods -/

/-- `SHT_RELA`. -/
def shtRela : Nat := 4

/-- `SHT_DYNAMIC`. -/
def shtDynamic : Nat := 6

/-- `SHT_RELR`. -/
def shtRelr : Nat := 19

/-- `SHT_ANDROID_REL`. -/
def shtAndroidRel : Nat := 0x60000001

/-- `SHT_ANDROID_RELA`. -/
def shtAndroidRela : Nat := 0x60000002

/-- `SHT_ANDROID_RELR`. -/
def shtAndroidRelr : Nat := 0x6fffff00

/-- `DT_NULL`. -/
def dtNull : Int := 0

/-- `DT_NEEDED`. -/
def dtNeeded : Int := 1

/-- `DT_STRTAB`. -/
def dtStrtab : Int := 5

/-- `STT_NOTYPE`. -/
def sttNotype : Nat := 0

/-- `STB_GLOBAL`. -/
def stbGlobal : Nat := 1

/-- `STB_WEAK`. -/
def stbWeak : Nat := 2

/-- `SHN_UNDEF`. -/
def shnUndef : Nat := 0

/-- `PT_INTERP`. -/
def ptInterp : Nat := 3

/-- The name `.dynsym`. -/
def dynsymName : Text := [46, 100, 121, 110, 115, 121, 109]

/-- The name `.dynstr`. -/
def dynstrName : Text := [46, 100, 121, 110, 115, 116, 114]

/-- The name `.note.android.ident`. -/
def noteAndroidIdent : Text :=
  [46, 110, 111, 116, 101, 46, 97, 110, 100, 114, 111, 105, 100, 46, 105, 100, 101, 110, 116]

/-- The text `Android` with its terminator. -/
def androidName : Text := [65, 110, 100, 114, 111, 105, 100, 0]

/-- `a // b`. -/
def floorDiv (a b : Nat) : Except Exception Nat :=
  if b = 0 then .error .zeroDivisionError else .ok (a / b)

/-- A relocation of a section. -/
inductive Relocation where
  | rel (rel : Rel)
  | rela (rela : Rela)
deriving DecidableEq

namespace ElfParser

variable (self : ElfParser)

/-- The limits of the machine that the parser runs on. -/
def host : Host := self.source.file.host

/-- `GetString`. -/
def getString (strtab : Shdr) (offset : Nat) : Except Exception Text :=
  self.source.seekReadString (strtab.shOffset + offset)

/-- `GetSectionName`. -/
def getSectionName (sh : Shdr) : Except Exception Text :=
  match self.shdr[self.ehdr.eShstrndx]? with
  | none => .error .indexError
  | some strtab => self.getString strtab sh.shName

/-- The first of the sections with the name. -/
def firstByName (name : Text) : List Shdr → Except Exception (Option Shdr)
  | [] => .ok none
  | sh :: others => do
    let sectionName ← self.getSectionName sh
    if name = sectionName then .ok (some sh) else firstByName name others

/-- `GetSectionByName`. -/
def getSectionByName (name : Text) : Except Exception (Option Shdr) :=
  self.firstByName name self.shdr

/-- The loop of `GetDynamic`. -/
def dynEntries (entsize : Nat) : Nat → Nat → Except Exception (List Dyn)
  | 0, _ => .ok []
  | count + 1, off => do
    let dyn ← self.source.seekReadStruct off self.elfClass.elfDyn
    if dyn.dTag = dtNull then .ok [dyn]
    else do
      let others ← dynEntries entsize count (off + entsize)
      .ok (dyn :: others)

/-- `GetDynamic`. -/
def getDynamic (dynamic : Shdr) : Except Exception (List Dyn) := do
  let num ← floorDiv dynamic.shSize dynamic.shEntsize
  let count ← self.host.range num
  self.dynEntries dynamic.shEntsize count dynamic.shOffset

/-- `GetSymbol`. -/
def getSymbol (symtab : Shdr) (idx : Nat) : Except Exception Sym :=
  self.source.seekReadStruct (symtab.shOffset + idx * symtab.shEntsize) self.elfClass.elfSym

/-- The names that a list of string offsets stands for. -/
def getStrings (strtab : Shdr) : List Nat → Except Exception (List Text)
  | [] => .ok []
  | off :: others => do
    let name ← self.getString strtab off
    let names ← getStrings strtab others
    .ok (name :: names)

/-- `DT_STRTAB` of the entries: the last one counts. -/
def strtabAddr (entries : List Dyn) : Option Nat :=
  (entries.filter fun dyn => dyn.dTag = dtStrtab).getLast?.map Dyn.dVal

/-- The values of the `DT_NEEDED` entries. -/
def nameOffsets (entries : List Dyn) : List Nat :=
  (entries.filter fun dyn => dyn.dTag = dtNeeded).map Dyn.dVal

/-- `_LoadDtNeeded`. -/
def loadDtNeeded (dynamic : Shdr) : Except Exception (List Text) := do
  let entries ← self.getDynamic dynamic
  match strtabAddr entries with
  | none => .error (.elfError "Cannot find string table address in dynamic section." [])
  | some addr =>
    match self.shdr.find? fun sh => sh.shAddr = addr with
    | none => .error (.elfError "Cannot find dynamic string table." [])
    | some strtab => self.getStrings strtab (nameOffsets entries)

/-- The loop of `ListDependencies`. -/
def dependencies : List Shdr → Except Exception (List Text)
  | [] => .ok []
  | sh :: others =>
    if sh.shType = shtDynamic then do
      let names ← self.loadDtNeeded sh
      let deps ← dependencies others
      .ok (names ++ deps)
    else dependencies others

/-- `ListDependencies`. -/
def listDependencies : Except Exception (List Text) := self.dependencies self.shdr

/-- A symbol that `ListGlobalSymbols` lists. -/
def selected (includeWeak : Bool) (sym : Sym) : Bool :=
  sym.getType ≠ sttNotype &&
    (sym.getBinding = stbGlobal || (includeWeak && sym.getBinding = stbWeak)) &&
    sym.stShndx ≠ shnUndef

/-- The loop of `ListGlobalSymbols` from an index on. -/
def symbolNames (includeWeak : Bool) (symtab strtab : Shdr) :
    Nat → Nat → Except Exception (List Text)
  | _, 0 => .ok []
  | idx, count + 1 => do
    let sym ← self.getSymbol symtab idx
    if selected includeWeak sym then do
      let name ← self.getString strtab sym.stName
      let names ← symbolNames includeWeak symtab strtab (idx + 1) count
      .ok (name :: names)
    else symbolNames includeWeak symtab strtab (idx + 1) count

/-- `ListGlobalSymbols`. -/
def listGlobalSymbols (includeWeak : Bool) (symtabName strtabName : Text) :
    Except Exception (List Text) := do
  let symtab ← self.getSectionByName symtabName
  let strtab ← self.getSectionByName strtabName
  match symtab, strtab with
  | some symtab, some strtab =>
    if symtab.shSize = 0 then .error (.elfError "Cannot find symbol table." [])
    else do
      let num ← floorDiv symtab.shSize symtab.shEntsize
      let count ← self.host.range num
      self.symbolNames includeWeak symtab strtab 0 count
  | _, _ => .error (.elfError "Cannot find symbol table." [])

/-- `ListGlobalDynamicSymbols`. -/
def listGlobalDynamicSymbols (includeWeak : Bool) : Except Exception (List Text) :=
  self.listGlobalSymbols includeWeak dynsymName dynstrName

/-- A program header, as `GetProgramInterpreter` reads it. -/
def readPhdr (index : Nat) : Except Exception Phdr :=
  self.source.seekReadStruct (self.ehdr.ePhoff + index * self.ehdr.ePhentsize)
    self.elfClass.elfPhdr

/-- The loop of `GetProgramInterpreter` from an index on. -/
def interpreterFrom : Nat → Nat → Except Exception (Option Text)
  | _, 0 => .ok none
  | index, count + 1 => do
    let ph ← self.readPhdr index
    if ph.pType = ptInterp then do
      let path ← self.source.seekReadString ph.pOffset
      .ok (some path)
    else interpreterFrom (index + 1) count

/-- `GetProgramInterpreter`. -/
def getProgramInterpreter : Except Exception (Option Text) := do
  let count ← self.host.range self.ehdr.ePhnum
  self.interpreterFrom 0 count

/-- The loop of `HasAndroidIdent`. -/
def androidIdentIn : List Shdr → Except Exception Bool
  | [] => .ok false
  | sh :: others => do
    let sectionName ← self.getSectionName sh
    if noteAndroidIdent = sectionName then do
      let nh ← self.source.seekReadStruct sh.shOffset ElfClass.elfNhdr
      let name ← self.source.seekRead (sh.shOffset + ElfClass.elfNhdr.sizeof) nh.nNamesz
      if name = androidName then .ok true else androidIdentIn others
    else androidIdentIn others

/-- `HasAndroidIdent`. -/
def hasAndroidIdent : Except Exception Bool := self.androidIdentIn self.shdr

/-- The relocations of a bitmap word: the bits from an index on, and the offset of the
first of them. -/
def bitmapOffsets (addrSize relrEntry : Nat) : Nat → Nat → Nat → List Nat × Nat
  | _, 0, relOffset => ([], relOffset)
  | bitIdx, count + 1, relOffset =>
    let (others, last) := bitmapOffsets addrSize relrEntry (bitIdx + 1) count (relOffset + addrSize)
    if relrEntry >>> bitIdx &&& 1 = 1 then (relOffset :: others, last) else (others, last)

/-- `seek_read_entry` of `_DecodeAndroidRelr`. -/
def seekReadEntry (entOffset : Nat) : Except Exception Nat :=
  match self.elfClass with
  | .elfClass32 => self.source.seekRead32 entOffset
  | .elfClass64 => self.source.seekRead64 entOffset

/-- The loop of `_DecodeAndroidRelr`: the offsets that it yields. -/
def relrOffsets (entsize : Nat) : Nat → Nat → Nat → Except Exception (List Nat)
  | 0, _, _ => .ok []
  | count + 1, entOffset, relOffset => do
    let relrEntry ← self.seekReadEntry entOffset
    if relrEntry &&& 1 = 0 then do
      let others ← relrOffsets entsize count (entOffset + entsize)
        (relrEntry + self.elfClass.addrSize)
      .ok (relrEntry :: others)
    else do
      let bits ← self.host.rangeStep 1 (entsize * 8) 1
      let (offsets, next) := bitmapOffsets self.elfClass.addrSize relrEntry 1 bits relOffset
      let others ← relrOffsets entsize count (entOffset + entsize) next
      .ok (offsets ++ others)

/-- `_DecodeAndroidRelr`. -/
def decodeAndroidRelr (rel : Shdr) : Except Exception (List Rel) := do
  let count ← self.host.rangeStep rel.shOffset (rel.shOffset + rel.shSize) rel.shEntsize
  let offsets ← self.relrOffsets rel.shEntsize count rel.shOffset 0
  .ok (offsets.map fun offset : Nat => self.elfClass.createElfRel offset 0)

/-- `_UnpackAndroidRela`. -/
def unpackAndroidRela (androidRela : Shdr) : Except Exception (List Rela) := do
  let data ← self.source.seekRead androidRela.shOffset androidRela.shSize
  unpackData self.host self.elfClass data

/-- `GetRelocation`. -/
def getRelocation (rel : Shdr) (idx : Nat) : Except Exception Relocation :=
  let off := rel.shOffset + idx * rel.shEntsize
  if rel.shType = shtRela then do
    let rela ← self.source.seekReadStruct off self.elfClass.elfRela
    .ok (.rela rela)
  else do
    let rel ← self.source.seekReadStruct off self.elfClass.elfRel
    .ok (.rel rel)

/-- The relocations of a plain table from an index on. -/
def relocationsFrom (rel : Shdr) : Nat → Nat → Except Exception (List Relocation)
  | _, 0 => .ok []
  | idx, count + 1 => do
    let relocation ← self.getRelocation rel idx
    let others ← relocationsFrom rel (idx + 1) count
    .ok (relocation :: others)

/-- `GetRelocations`, exhausted. -/
def getRelocations (rel : Shdr) : Except Exception (List Relocation) :=
  if rel.shType = shtAndroidRel ∨ rel.shType = shtAndroidRela then do
    let relocations ← self.unpackAndroidRela rel
    if rel.shType = shtAndroidRel then
      .ok (relocations.map fun rela =>
        .rel (self.elfClass.createElfRel rela.rOffset rela.rInfo))
    else .ok (relocations.map .rela)
  else if rel.shType = shtRelr ∨ rel.shType = shtAndroidRelr then do
    let relocations ← self.decodeAndroidRelr rel
    .ok (relocations.map .rel)
  else do
    let num ← floorDiv rel.shSize rel.shEntsize
    let count ← self.host.range num
    self.relocationsFrom rel 0 count

end ElfParser

/-! ## Small files -/

/-- A file on an ideal machine. -/
def File.ideal (content : Text) (small : content.length < 2 ^ 62) : File where
  host := .ideal
  content := content
  closed := false
  small := small
  seekable := by
    have limit : Host.ideal.seekLimit = 2 ^ 63 := rfl
    omega
  listable := by
    have limit : Host.ideal.rangeLimit = 2 ^ 63 := rfl
    omega

/-- A parser of a file that is nothing but the content of one section. -/
def sectionParser (elfClass : ElfClass) (content : Text)
    (small : content.length < 2 ^ 62) : ElfParser where
  source := { file := .ideal content small, beginOffset := 0 }
  elfClass
  ehdr :=
    { eType := 0, eMachine := 0, ePhoff := 0, eShoff := 0, ePhentsize := 0, ePhnum := 0,
      eShentsize := 0, eShnum := 0, eShstrndx := 0 }
  shdr := []

end Vts.Elf
