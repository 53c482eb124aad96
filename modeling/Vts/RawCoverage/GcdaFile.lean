import Vts.Lib.WordCodec

/-!
# Buffered words of a gcda file

`GcdaFile` of `drivers/hal/libcodecoverage`: a file is read through a buffer that is shifted and
refilled when it has been used up. `Sync` moves back into the buffer or drops it and seeks.

An `unsigned` has 32 bits, a `long` and a `size_t` have 64, and the machine is little-endian. The
buffer is the list of its words below `length`. What only a writer uses is left out.
-/

namespace Vts.RawCoverage

open Lib.WordCodec

abbrev Unsigned := BitVec 32

def GCOV_BLOCK_SIZE : Nat := 1 <<< 10

/-! ## Files -/

/-- A `FILE` opened for reading. -/
structure File where
  bytes : List UInt8
  position : Nat

/-- `fread`: fewer bytes come only at the end of the file. -/
def File.fread (file : File) (count : Nat) : List UInt8 × File :=
  let bytes := (file.bytes.drop file.position).take count
  (bytes, { file with position := file.position + bytes.length })

/-- `fseek` from the start of the file; the end is no limit. -/
def File.fseek (file : File) (offset : Nat) : File := { file with position := offset }

/-- Bytes as words of the machine; less than four bytes at the end make no word. -/
def toWords : List UInt8 → List Unsigned
  | first :: second :: third :: fourth :: rest =>
    BitVec.ofNat 32 (ofBytes .little [first, second, third, fourth]) :: toWords rest
  | _ => []

/-! ## `gcov_var_` -/

structure GcovVar where
  file : Option File
  start : Unsigned
  offset : Unsigned
  length : Unsigned
  overread : Unsigned
  error : Int
  endian : Bool
  alloc : Nat
  buffer : List Unsigned

namespace GcovVar

/-- All zero. -/
def zero : GcovVar where
  file := none
  start := 0
  offset := 0
  length := 0
  overread := 0
  error := 0
  endian := false
  alloc := 0
  buffer := []

/-- `Open`, where `fopen` gives the bytes of the files that can be opened. -/
def Open (fopen : String → Option (List UInt8)) (filename_ : String) (self : GcovVar) :
    Bool × GcovVar :=
  if filename_.length < 1 then (false, self)
  else if self.file.isSome then (false, self)
  else
    let self := { zero with overread := -1 }
    match fopen filename_ with
    | none => (false, self)
    | some bytes => (true, { self with file := some ⟨bytes, 0⟩ })

def Close (self : GcovVar) : Int × GcovVar :=
  let self := if self.file.isSome then { self with file := none, length := 0 } else self
  (self.error, { self with alloc := 0, buffer := [] })

def Position (self : GcovVar) : Unsigned := self.start + self.offset

def IsError (self : GcovVar) : Int := if self.file.isSome then self.error else 1

def Sync (self : GcovVar) (base length : Unsigned) : GcovVar :=
  match self.file with
  | none => self
  | some file =>
    let base := base + length
    if base - self.start ≤ self.length then { self with offset := base - self.start }
    else
      let file := file.fseek (base <<< 2).toNat
      { self with
        offset := 0
        length := 0
        buffer := []
        file := some file
        start := BitVec.ofNat 32 (file.position >>> 2) }

/-- The new size of the buffer. -/
def Allocate (alloc : Nat) (length : Unsigned) : Nat :=
  let new_size := if alloc = 0 then GCOV_BLOCK_SIZE else alloc
  (new_size + length.toNat) * 2

/-- `ReadWords` up to the second check: the words that are left move to the front of the buffer,
and the room behind them is filled. -/
def refill (self : GcovVar) (file : File) (words : Unsigned) : GcovVar :=
  let excess := self.length - self.offset
  let alloc :=
    if (excess + words).toNat > self.alloc then Allocate self.alloc (excess + words) else self.alloc
  let room := BitVec.ofNat 32 alloc - excess
  let (bytes, file) := file.fread (room <<< 2).toNat
  { self with
    start := self.start + self.offset
    offset := 0
    length := excess + BitVec.ofNat 32 (bytes.length >>> 2)
    alloc := alloc
    file := some file
    buffer := (self.buffer.drop self.offset.toNat).take excess.toNat ++ toWords bytes }

/-- The words that the returned pointer points to. -/
def ReadWords (self : GcovVar) (words : Unsigned) : Option (List Unsigned) × GcovVar :=
  match self.file with
  | none => (none, self)
  | some file =>
    let short : Bool := self.length - self.offset < words
    let self := if short then self.refill file words else self
    if short ∧ self.length < words then
      (none, { self with
        overread := self.overread + (words - self.length)
        length := 0
        buffer := [] })
    else
      (some ((self.buffer.drop self.offset.toNat).take words.toNat),
        { self with offset := self.offset + words })

end GcovVar

/-- The bytes of a word in reverse order. -/
def swap (value : Unsigned) : Unsigned :=
  let value := (value >>> 16) ||| (value <<< 16)
  ((value &&& 0xff00ff) <<< 8) ||| ((value >>> 8) &&& 0xff00ff)

/-- A word in the byte order of the file. -/
def FromFile (endian : Bool) (value : Unsigned) : Unsigned := if endian then swap value else value

namespace GcovVar

def ReadUnsigned (self : GcovVar) : Unsigned × GcovVar :=
  match self.ReadWords 1 with
  | (none, self) => (0, self)
  | (some buffer, self) => (FromFile self.endian (buffer.headD 0), self)

def Magic (self : GcovVar) (magic expected : Unsigned) : Int × GcovVar :=
  if magic = expected then (1, self)
  else if swap magic = expected then (-1, { self with endian := true })
  else (0, self)

end GcovVar

end Vts.RawCoverage
