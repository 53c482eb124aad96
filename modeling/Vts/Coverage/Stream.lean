import Vts.Lib.ByteReader
import Vts.Lib.WordCodec
import Vts.Python.Exceptions

/-!
# The gcov stream

`parser.py`: the base class of the two gcov parsers. A stream is the list of its
bytes that have not been read. `self.format` is the byte order, `self.version`
the four bytes after the magic word and `self.checksum` the word after those. The
constructor reads all three little-endian and only then looks at the magic word.
-/

namespace Vts.Coverage

open Lib Lib.WordCodec
open Python (Exception)

/-- What reads the stream, with the exceptions of Python as failures. -/
abbrev Read (α : Type) : Type := ByteReader Exception α

/-- `GcovStreamParserUtil` after its constructor, apart from the stream. -/
structure GcovStream where
  format : ByteOrder
  version : List UInt8
  checksum : Nat
deriving DecidableEq

/-- `parser.FileFormatError('Corrupt file.')`. -/
def corruptFile : Exception := .fileFormatError "Corrupt file."

/-- `ReadInt`: four bytes in the byte order of the file. A short read is a
`struct.error`, which is turned into a `FileFormatError`. -/
def readInt (format : ByteOrder) : Read Nat
  | b0 :: b1 :: b2 :: b3 :: rest => .ok (ofBytes format [b0, b1, b2, b3], rest)
  | _ => .error corruptFile

/-- `ReadInt64`: the low word stands first in either byte order. -/
def readInt64 (format : ByteOrder) : Read Nat := do
  let lo ← readInt format
  let hi ← readInt format
  return hi <<< 32 ||| lo

/-- `stream.read(length)` unpacked as that many characters. -/
def readChars (length : Nat) (short : Exception) : Read (List UInt8) := fun stream =>
  if length ≤ stream.length then .ok (stream.take length, stream.drop length) else .error short

/-- `str.rstrip('\x00')`. -/
def rstripNul (text : List UInt8) : List UInt8 := (text.reverse.dropWhile (· == 0)).reverse

/-- `ReadString`: a number of words, then the characters without trailing NULs. -/
def readString (format : ByteOrder) : Read (List UInt8) := do
  let words ← readInt format
  let length := words <<< 2
  if length > 0 then
    let text ← readChars length corruptFile
    return rstripNul text
  else
    return []

/-- `GcovStreamParserUtil.__init__`. The version is unpacked outside of any `try`,
so a stream that ends there raises `struct.error`. -/
def GcovStream.init (magic : Nat) : Read GcovStream := do
  let tag ← readInt .little
  let version ← readChars 4 .structError
  let checksum ← readInt .little
  if tag ≠ magic then
    if byteSwap 4 tag = magic then
      return ⟨.big, version, checksum⟩
    else
      ByteReader.fail (.fileFormatError "Invalid file format.")
  else
    return ⟨.little, version, checksum⟩

/-- `int(self.version[1]) > 4`. A character that is no digit is a `ValueError`. -/
def GcovStream.versionAbove4 (self : GcovStream) : Except Exception Bool :=
  let character := self.version.getD 1 0
  if 48 ≤ character ∧ character ≤ 57 then .ok (decide (character.toNat - 48 > 4))
  else .error (.valueError "invalid literal for int() with base 10")

/-- The inner `while True` of both `Parse` methods: words are skipped until one of
the known tags is met. -/
def readTag (format : ByteOrder) (known : Nat → Bool) : Read Nat
  | b0 :: b1 :: b2 :: b3 :: rest =>
    let tag := ofBytes format [b0, b1, b2, b3]
    if known tag then .ok (tag, rest) else readTag format known rest
  | _ => .error corruptFile

/-- A record header: a known tag and the length word after it. -/
def readHeader (format : ByteOrder) (known : Nat → Bool) : Read (Nat × Nat) := do
  let tag ← readTag format known
  let length ← readInt format
  return (tag, length)

/-! ## Failures and consumption -/

/-- The one kind of exception the callers of the parsers catch. -/
def IsFormatError (failure : Exception) : Prop := ∃ message, failure = .fileFormatError message

instance (failure : Exception) : Decidable (IsFormatError failure) :=
  match failure with
  | .fileFormatError message => .isTrue ⟨message, rfl⟩
  | .elfError _ _ | .vtableError _ _ | .valueError _ | .indexError | .keyError | .attributeError
  | .structError | .overflowError | .zeroDivisionError | .memoryError | .ioError | .unfinished =>
    .isFalse (by rintro ⟨_, equal⟩; cases equal)

theorem corruptFile_isFormatError : IsFormatError corruptFile := ⟨_, rfl⟩

section

variable (format : ByteOrder) (known : Nat → Bool) (stream rest : List UInt8) (tag : Nat)

/-- `ReadInt` succeeds exactly on four bytes or more. -/
theorem readInt_cases :
    (∃ value rest, readInt format stream = .ok (value, rest) ∧ value < 2 ^ 32 ∧
      stream.length = rest.length + 4) ∨
    (readInt format stream = .error corruptFile ∧ stream.length < 4) := by
  match stream with
  | b0 :: b1 :: b2 :: b3 :: rest =>
    have bound := ofBytes_lt format [b0, b1, b2, b3]
    simp only [List.length_cons, List.length_nil] at bound
    exact .inl ⟨_, rest, rfl, by omega, by simp⟩
  | [] | [_] | [_, _] | [_, _, _] => exact .inr ⟨rfl, by simp⟩

theorem readInt_consumes : ByteReader.Consumes (readInt format) := by
  intro stream value rest read
  rcases readInt_cases format stream with ⟨_, _, equal, _, length⟩ | ⟨equal, _⟩
  · rw [equal] at read
    simp only [Except.ok.injEq, Prod.mk.injEq] at read
    rw [← read.2]
    omega
  · rw [equal] at read
    cases read

theorem readInt_failsOnly : ByteReader.FailsOnly IsFormatError (readInt format) := by
  intro stream failure failed
  rcases readInt_cases format stream with ⟨_, _, equal, _, _⟩ | ⟨equal, _⟩
  · rw [equal] at failed
    cases failed
  · rw [equal] at failed
    cases failed
    exact corruptFile_isFormatError

theorem readChars_consumes (length : Nat) (short : Exception) :
    ByteReader.Consumes (readChars length short) := by
  intro stream value rest read
  unfold readChars at read
  split at read
  · cases read
    simp
  · cases read

theorem readString_consumes : ByteReader.Consumes (readString format) := by
  apply (readInt_consumes format).bind
  intro words
  dsimp only
  split
  · exact (readChars_consumes _ _).bind fun text => ByteReader.consumes_pure _
  · exact ByteReader.consumes_pure _

/-- Skipping to a tag is reading words until one is known. -/
theorem readTag_eq :
    readTag format known stream =
      match readInt format stream with
      | .error failure => .error failure
      | .ok (tag, rest) => if known tag then .ok (tag, rest) else readTag format known rest := by
  match stream with
  | b0 :: b1 :: b2 :: b3 :: rest => simp only [readTag, readInt]
  | [] | [_] | [_, _] | [_, _, _] => rfl

/-- A tag that was met is known, and its word has been read. -/
theorem readTag_ok (read : readTag format known stream = .ok (tag, rest)) :
    known tag = true ∧ rest.length + 4 ≤ stream.length := by
  induction stream using readTag.induct format known with
  | case1 b0 b1 b2 b3 remaining value isKnown =>
    simp only [readTag] at read
    rw [if_pos isKnown] at read
    cases read
    exact ⟨isKnown, by simp⟩
  | case2 b0 b1 b2 b3 remaining value unknown ih =>
    simp only [readTag] at read
    rw [if_neg unknown] at read
    obtain ⟨isKnown, shorter⟩ := ih read
    exact ⟨isKnown, by simp only [List.length_cons]; omega⟩
  | case3 stream short =>
    rw [readTag] at read
    · cases read
    · exact short

/-- A record header takes eight bytes at least. -/
theorem readHeader_ok (length : Nat)
    (read : readHeader format known stream = .ok ((tag, length), rest)) :
    known tag = true ∧ rest.length + 8 ≤ stream.length := by
  obtain ⟨first, middle, tagRead, lengthRead⟩ := ByteReader.bind_eq_ok.mp read
  obtain ⟨second, remaining, wordRead, equal⟩ := ByteReader.bind_eq_ok.mp lengthRead
  simp only [ByteReader.pure_run, Except.ok.injEq, Prod.mk.injEq] at equal
  obtain ⟨⟨rfl, rfl⟩, rfl⟩ := equal
  obtain ⟨isKnown, shorter⟩ := readTag_ok format known stream middle first tagRead
  refine ⟨isKnown, ?_⟩
  rcases readInt_cases format middle with ⟨_, _, word, _, length⟩ | ⟨failed, _⟩
  · rw [word] at wordRead
    simp only [Except.ok.injEq, Prod.mk.injEq] at wordRead
    rw [← wordRead.2]
    omega
  · rw [failed] at wordRead
    cases wordRead

end

end Vts.Coverage
