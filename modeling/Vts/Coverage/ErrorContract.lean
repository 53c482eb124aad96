import Vts.Coverage.Accumulation

/-!
# Which exceptions the gcov parsers raise

The callers of the two parsers catch `FileFormatError` only. Other exceptions come
from five places: the version is unpacked outside of a `try`, a version character
is converted to a digit, a record before the first function is applied to `None`,
block numbers index a list, and identifiers index a dictionary.

For each record `Misused` says, from the words of the stream, whether one of these
places is reached before the stream ends. The number of blocks of the current
function is all that has to be known about the records before.
-/

namespace Vts.Coverage

open Lib Lib.WordCodec List ByteReader FunctionSummary
open Python (Exception)

/-! ## Words of a stream -/

/-- The word at a position, when the stream is long enough. -/
def wordAt (format : ByteOrder) (stream : List UInt8) (position : Nat) : Option Nat :=
  if 4 * position + 4 ≤ stream.length then
    some (ofBytes format ((stream.drop (4 * position)).take 4))
  else none

variable {stream : List UInt8} (format : ByteOrder) (length : Nat) (payload : List UInt8)

theorem wordAt_drop (stream : List UInt8) (words position : Nat) :
    wordAt format (stream.drop (4 * words)) position = wordAt format stream (words + position) := by
  unfold wordAt
  rw [length_drop, drop_drop, ← Nat.mul_add]
  by_cases inside : 4 * (words + position) + 4 ≤ stream.length
  · rw [if_pos inside, if_pos (by omega)]
  · rw [if_neg inside, if_neg (by omega)]

theorem readInt_eq (stream : List UInt8) :
    readInt format stream =
      match wordAt format stream 0 with
      | none => .error corruptFile
      | some value => .ok (value, stream.drop 4) := by
  match stream with
  | b0 :: b1 :: b2 :: b3 :: rest => simp [readInt, wordAt]
  | [] | [_] | [_, _] | [_, _, _] => rfl

theorem wordAt_eq_none (stream : List UInt8) (position : Nat) :
    wordAt format stream position = none ↔ stream.length < 4 * position + 4 := by
  simp [wordAt]

theorem wordAt_zero_none {format : ByteOrder} :
    wordAt format stream 0 = none ↔ stream.length < 4 := by
  simp [wordAt]

theorem length_of_wordAt {format : ByteOrder} {position value : Nat}
    (found : wordAt format stream position = some value) : 4 * position + 4 ≤ stream.length := by
  by_contra short
  simp [wordAt, short] at found

theorem readString_eq (stream : List UInt8) :
    readString format stream =
      match wordAt format stream 0 with
      | none => .error corruptFile
      | some count =>
        if 4 + 4 * count ≤ stream.length then
          .ok (rstripNul ((stream.drop 4).take (4 * count)), stream.drop (4 + 4 * count))
        else .error corruptFile := by
  rw [readString, bind_run, readInt_eq]
  cases first : wordAt format stream 0 with
  | none => rfl
  | some count =>
    have four : 4 ≤ stream.length := length_of_wordAt first
    have length : count <<< 2 = 4 * count := by
      rw [Nat.shiftLeft_eq]
      omega
    simp only [length]
    by_cases empty : count = 0
    · subst empty
      simp [four, rstripNul]
    · rw [if_pos (show 4 * count > 0 by omega), bind_run, readChars, length_drop]
      by_cases enough : 4 + 4 * count ≤ stream.length
      · rw [if_pos enough, if_pos (by omega)]
        simp [drop_drop]
      · rw [if_neg enough, if_neg (by omega)]

theorem readInt_drop (stream : List UInt8) (position : Nat) :
    readInt format (stream.drop (4 * position)) =
      match wordAt format stream position with
      | none => .error corruptFile
      | some value => .ok (value, stream.drop (4 * (position + 1))) := by
  rw [readInt_eq, wordAt_drop, drop_drop]
  rfl

theorem readString_drop (stream : List UInt8) (position : Nat) :
    readString format (stream.drop (4 * position)) =
      match wordAt format stream position with
      | none => .error corruptFile
      | some count =>
        if 4 * (position + 1 + count) ≤ stream.length then
          .ok (rstripNul ((stream.drop (4 * (position + 1))).take (4 * count)),
            stream.drop (4 * (position + 1 + count)))
        else .error corruptFile := by
  rw [readString_eq, wordAt_drop, Nat.add_zero, length_drop, drop_drop]
  cases found : wordAt format stream position with
  | none => rfl
  | some count =>
    have long := length_of_wordAt found
    simp only [drop_drop]
    by_cases fits : 4 * (position + 1 + count) ≤ stream.length
    · rw [if_pos fits, if_pos (by omega)]
      congr 3
      omega
    · rw [if_neg fits, if_neg (by omega)]

/-- A counter is read when its two words are there. -/
theorem readInt64_eq (stream : List UInt8) :
    readInt64 format stream =
      match wordAt format stream 0, wordAt format stream 1 with
      | some lo, some hi => .ok (hi <<< 32 ||| lo, stream.drop 8)
      | _, _ => .error corruptFile := by
  have firstRead := readInt_drop format stream 0
  rw [Nat.mul_zero, drop_zero] at firstRead
  rw [readInt64, bind_run, firstRead]
  cases wordAt format stream 0 with
  | none => rfl
  | some lo =>
    simp only
    rw [bind_run, readInt_drop, Nat.zero_add]
    cases wordAt format stream 1 with
    | none => rfl
    | some hi => rfl

/-! ## GCNO records -/

namespace GcnoParser

/-- `int(self.version[1])` succeeds. -/
def HasDigit (self : GcovStream) : Prop :=
  48 ≤ self.version.getD 1 0 ∧ self.version.getD 1 0 ≤ 57

instance (self : GcovStream) : Decidable (HasDigit self) :=
  inferInstanceAs (Decidable (_ ∧ _))

/-- The number of bytes of a LINES record, as `ReadLines` counts them. -/
def linesExtent (format : ByteOrder) (length : Nat) (stream : List UInt8) : Option Nat :=
  match wordAt format stream 2 with
  | none => none
  | some count =>
    let src := rstripNul ((stream.drop 12).take (4 * count))
    let bytes := 12 + 4 * count +
      4 * (length - ((src.length + (bytesInWord - 1)) / bytesInWord + 1) - headerLength)
    if bytes ≤ stream.length then some bytes else none

/-- The number of bytes of a FUNCTION record whose names start at the given word. -/
def functionExtent (format : ByteOrder) (start : Nat) (stream : List UInt8) : Option Nat :=
  match wordAt format stream start with
  | none => none
  | some name =>
    match wordAt format stream (start + 1 + name) with
    | none => none
    | some src =>
      let bytes := 4 * (start + 1 + name + 1 + src + 1)
      if bytes ≤ stream.length then some bytes else none

variable (self : GcovStream)

/-- The payload of a record makes `Parse` raise something else than a
`FileFormatError`. `blocks` is the number of blocks of the current function. -/
def Misused (blocks : Option Nat) (tag length : Nat) (payload : List UInt8) : Prop :=
  if tag = tagFunction then
    -- The identifier and a checksum are read before the version digit.
    8 ≤ payload.length ∧ ¬HasDigit self
  else if tag = tagBlocks then
    4 * length ≤ payload.length ∧ blocks = none
  else if tag = tagArcs then
    ∃ src, wordAt self.format payload 0 = some src ∧ ∀ count ∈ blocks, count ≤ src ∨
      ∃ arc < (length - 1) / 2, ∃ dst, wordAt self.format payload (1 + 2 * arc) = some dst ∧
        count ≤ dst
  else
    ∃ number, wordAt self.format payload 0 = some number ∧
      (linesExtent self.format length payload).isSome = true ∧ ∀ count ∈ blocks, count ≤ number

/-- The number of blocks after a record, and the number of its bytes. -/
def advance (blocks : Option Nat) (tag length : Nat) (payload : List UInt8) :
    Option (Nat × Nat) :=
  if tag = tagFunction then
    (functionExtent self.format (if self.version.getD 1 0 > 52 then 3 else 2) payload).map
      (fun bytes => (0, bytes))
  else if tag = tagBlocks then
    if 4 * length ≤ payload.length then blocks.map (fun count => (count + length, 4 * length))
    else none
  else if tag = tagArcs then
    if 4 + 8 * ((length - 1) / 2) ≤ payload.length then
      blocks.map (fun count => (count, 4 + 8 * ((length - 1) / 2)))
    else none
  else
    match linesExtent self.format length payload with
    | none => none
    | some bytes => blocks.map (fun count => (count, bytes))

/-- A record that the parser meets is misused. -/
inductive MeetsMisuse : Option Nat → List UInt8 → Prop where
  | here {blocks : Option Nat} {stream payload : List UInt8} {tag length : Nat}
      (header : readHeader self.format isTag stream = .ok ((tag, length), payload))
      (misused : Misused self blocks tag length payload) : MeetsMisuse blocks stream
  | later {blocks : Option Nat} {stream payload : List UInt8} {tag length count bytes : Nat}
      (header : readHeader self.format isTag stream = .ok ((tag, length), payload))
      (next : advance self blocks tag length payload = some (count, bytes))
      (meets : MeetsMisuse (some count) (payload.drop bytes)) : MeetsMisuse blocks stream

/-- What the reader of a record does, in these terms. -/
def Described (misused : Prop) (next : Option (Nat × Nat)) (payload : List UInt8)
    (result : Except Exception (FunctionSummary × List UInt8)) : Prop :=
  (misused ∧ ∃ failure, result = .error failure ∧ ¬IsFormatError failure) ∨
  (¬misused ∧ next = none ∧ ∃ failure, result = .error failure ∧ IsFormatError failure) ∨
  (¬misused ∧ ∃ func bytes, next = some (func.blocks.length, bytes) ∧
    result = .ok (func, payload.drop bytes))

variable {self}

/-- A loop that adds word after word to a list, when the words are there and when they are not. -/
theorem readWords_described {Item : Type} {read : Nat → List Item → Read (List Item)}
    {add : List Item → Nat → List Item} (zero : ∀ items, read 0 items = pure items)
    (succ : ∀ count items, read (count + 1) items = do
      let word ← readInt self.format
      read count (add items word))
    (count : Nat) (items : List Item) (stream : List UInt8) :
    (4 * count ≤ stream.length ∧ ∃ words : List Nat, words.length = count ∧
      read count items stream = .ok (words.foldl add items, stream.drop (4 * count))) ∨
    (stream.length < 4 * count ∧ read count items stream = .error corruptFile) := by
  induction count generalizing items stream with
  | zero =>
    rw [zero]
    exact .inl ⟨by omega, [], rfl, rfl⟩
  | succ count ih =>
    rw [succ, bind_run, readInt_eq]
    cases first : wordAt self.format stream 0 with
    | none =>
      have short := wordAt_zero_none.mp first
      exact .inr ⟨by omega, rfl⟩
    | some word =>
      have four : 4 ≤ stream.length := length_of_wordAt first
      rcases ih (add items word) (stream.drop 4) with
        ⟨enough, words, length, done⟩ | ⟨short, done⟩
      · rw [length_drop] at enough
        have dropped : 4 + 4 * count = 4 * (count + 1) := by omega
        refine .inl ⟨by omega, word :: words, congrArg (· + 1) length, ?_⟩
        simp only
        rw [done, drop_drop, dropped, foldl_cons]
      · rw [length_drop] at short
        exact .inr ⟨by omega, done⟩

theorem readBlockFlags_described (count : Nat) (blocks : List BlockSummary)
    (stream : List UInt8) :
    (4 * count ≤ stream.length ∧ ∃ result, result.length = blocks.length + count ∧
      readBlockFlags self count blocks stream = .ok (result, stream.drop (4 * count))) ∨
    (stream.length < 4 * count ∧ readBlockFlags self count blocks stream = .error corruptFile) := by
  have described := @readWords_described self _ (readBlockFlags self)
    (fun blocks flag => blocks ++ [BlockSummary.init blocks.length flag]) (fun _ => rfl)
    (fun _ _ => rfl) count blocks stream
  have grows (flags : List Nat) (blocks : List BlockSummary) :
      (flags.foldl (fun blocks flag => blocks ++ [BlockSummary.init blocks.length flag])
        blocks).length = blocks.length + flags.length := by
    induction flags generalizing blocks with
    | nil => rfl
    | cons flag flags ih =>
      rw [foldl_cons, ih, length_append, length_singleton,
        length_cons]
      omega
  refine described.imp_left fun ⟨enough, flags, length, read⟩ => ⟨enough, _, ?_, read⟩
  rw [grows, length]

theorem readLineNumbers_described (count : Nat) (lines : List Nat) (stream : List UInt8) :
    (4 * count ≤ stream.length ∧ ∃ result,
      readLineNumbers self count lines stream = .ok (result, stream.drop (4 * count))) ∨
    (stream.length < 4 * count ∧ readLineNumbers self count lines stream = .error corruptFile) := by
  have described := @readWords_described self _ (readLineNumbers self)
    (fun lines line => if line ≠ 0 then lines ++ [line] else lines) (fun _ => rfl)
    (fun _ _ => rfl) count lines stream
  exact described.imp_left fun ⟨enough, _, _, read⟩ => ⟨enough, _, read⟩

/-- One of the listed arcs that the stream holds ends in a block that does not exist. -/
def NamesOutside (format : ByteOrder) (blocks count : Nat) (stream : List UInt8) : Prop :=
  ∃ arc < count, ∃ dst, wordAt format stream (2 * arc) = some dst ∧ blocks ≤ dst

section

variable {format : ByteOrder} {blocks : Option Nat} {count : Nat} {misused : Prop}
  (func : Option FunctionSummary) (payload : List UInt8)

/-- A block number after the first pair is one of the stream without that pair. -/
theorem namesOutside_succ {blocks : Nat} :
    NamesOutside format blocks (count + 1) stream ↔
      (∃ dst, wordAt format stream 0 = some dst ∧ blocks ≤ dst) ∨
        NamesOutside format blocks count (stream.drop 8) := by
  have shift (arc : Nat) : wordAt format (stream.drop 8) (2 * arc) =
      wordAt format stream (2 * (arc + 1)) := by
    rw [show (8 : Nat) = 4 * 2 from rfl, wordAt_drop]
    congr 1
    omega
  constructor
  · rintro ⟨arc, below, dst, found, outside⟩
    cases arc with
    | zero => exact .inl ⟨dst, found, outside⟩
    | succ arc => exact .inr ⟨arc, by omega, dst, by rw [shift]; exact found, outside⟩
  · rintro (⟨dst, found, outside⟩ | ⟨arc, below, dst, found, outside⟩)
    · exact ⟨0, by omega, dst, found, outside⟩
    · exact ⟨arc + 1, by omega, dst, by rw [← shift]; exact found, outside⟩

theorem not_namesOutside_of_short {blocks : Nat} (short : stream.length < 4) :
    ¬NamesOutside format blocks count stream := by
  rintro ⟨arc, _, dst, found, _⟩
  have long := length_of_wordAt found
  omega

/-- The arcs of a record are read up to the first block number out of range. -/
theorem readArcPairs_described (src count : Nat) (func : FunctionSummary) (stream : List UInt8) :
    (NamesOutside self.format func.blocks.length count stream ∧
      readArcPairs self src count func stream = .error .indexError) ∨
    (¬NamesOutside self.format func.blocks.length count stream ∧ stream.length < 8 * count ∧
      readArcPairs self src count func stream = .error corruptFile) ∨
    (¬NamesOutside self.format func.blocks.length count stream ∧ 8 * count ≤ stream.length ∧
      ∃ result, result.blocks.length = func.blocks.length ∧
        readArcPairs self src count func stream = .ok (result, stream.drop (8 * count))) := by
  induction count generalizing func stream with
  | zero => exact .inr (.inr ⟨by simp [NamesOutside], by omega, func, rfl, rfl⟩)
  | succ count ih =>
    rw [namesOutside_succ, readArcPairs, bind_run, readInt_eq]
    cases first : wordAt self.format stream 0 with
    | none =>
      have short := wordAt_zero_none.mp first
      refine .inr (.inl ⟨?_, by omega, rfl⟩)
      rintro (⟨dst, found, _⟩ | later)
      · cases found
      · exact not_namesOutside_of_short (by rw [length_drop]; omega) later
    | some dst =>
      have four : 4 ≤ stream.length := length_of_wordAt first
      simp only
      by_cases inside : dst < func.blocks.length
      · have noFirst : ¬∃ other, some dst = some other ∧ func.blocks.length ≤ other := by
          rintro ⟨other, equal, outside⟩
          cases equal
          omega
        rw [if_pos inside, bind_run, readInt_eq, or_iff_right noFirst]
        cases second : wordAt self.format (stream.drop 4) 0 with
        | none =>
          have short := wordAt_zero_none.mp second
          rw [length_drop] at short
          refine .inr (.inl ⟨not_namesOutside_of_short ?_, by omega, rfl⟩)
          rw [length_drop]
          omega
        | some flag =>
          have eight := length_of_wordAt second
          rw [length_drop] at eight
          have next := ih (func.addArc src dst flag) (stream.drop 8)
          rw [addArc_blocks_length] at next
          simp only [drop_drop]
          rcases next with ⟨bad, read⟩ | ⟨good, short, read⟩ | ⟨good, enough, result, length, read⟩
          · exact .inl ⟨bad, read⟩
          · rw [length_drop] at short
            exact .inr (.inl ⟨good, by omega, read⟩)
          · rw [length_drop] at enough
            refine .inr (.inr ⟨good, by omega, result, length, ?_⟩)
            rw [read, drop_drop]
            congr 3
            omega
      · rw [if_neg inside]
        exact .inl ⟨.inl ⟨dst, rfl, by omega⟩, rfl⟩

/-- The end of `ReadFunction`, after the checksums. -/
def readNames (self : GcovStream) (ident : Nat) : Read FunctionSummary := do
  let name ← readString self.format
  let sourceFileName ← readString self.format
  let firstLineNumber ← readInt self.format
  return FunctionSummary.init ident name sourceFileName firstLineNumber

theorem readNames_described (ident start : Nat) (payload : List UInt8) :
    (functionExtent self.format start payload = none ∧
      readNames self ident (payload.drop (4 * start)) = .error corruptFile) ∨
    ∃ func bytes, functionExtent self.format start payload = some bytes ∧ func.blocks = [] ∧
      readNames self ident (payload.drop (4 * start)) = .ok (func, payload.drop bytes) := by
  unfold functionExtent readNames
  rw [bind_run, readString_drop]
  cases nameWord : wordAt self.format payload start with
  | none => exact .inl ⟨rfl, rfl⟩
  | some name =>
    simp only
    by_cases nameFits : 4 * (start + 1 + name) ≤ payload.length
    · rw [if_pos nameFits]
      simp only
      rw [bind_run, readString_drop]
      cases srcWord : wordAt self.format payload (start + 1 + name) with
      | none => exact .inl ⟨rfl, rfl⟩
      | some src =>
        simp only
        by_cases srcFits : 4 * (start + 1 + name + 1 + src) ≤ payload.length
        · rw [if_pos srcFits]
          simp only
          rw [bind_run, readInt_drop]
          cases lineWord : wordAt self.format payload (start + 1 + name + 1 + src) with
          | none =>
            have short := (wordAt_eq_none _ _ _).mp lineWord
            exact .inl ⟨if_neg (by omega), rfl⟩
          | some line =>
            have long := length_of_wordAt lineWord
            exact .inr ⟨_, _, if_pos (by omega), rfl, rfl⟩
        · rw [if_neg srcFits]
          exact .inl ⟨if_neg (by omega), rfl⟩
    · rw [if_neg nameFits, (wordAt_eq_none _ _ _).mpr (by omega)]
      exact .inl ⟨rfl, rfl⟩

theorem versionAbove4_eq (self : GcovStream) :
    self.versionAbove4 = if HasDigit self then .ok (decide (self.version.getD 1 0 > 52))
      else .error (.valueError "invalid literal for int() with base 10") := by
  unfold GcovStream.versionAbove4
  simp only
  by_cases digit : HasDigit self
  · have low : 48 ≤ (self.version.getD 1 0).toNat := digit.1
    have above : ((self.version.getD 1 0).toNat - 48 > 4) ↔ self.version.getD 1 0 > 52 := by
      rw [gt_iff_lt, gt_iff_lt, UInt8.lt_iff_toNat_lt]
      change _ ↔ 52 < _
      omega
    rw [if_pos digit, if_pos (show _ ∧ _ from digit)]
    simp only [above]
  · rw [if_neg digit, if_neg (show ¬(_ ∧ _) from digit)]

theorem corrupt_described {next : Option (Nat × Nat)} {payload : List UInt8}
    {result : Except Exception (FunctionSummary × List UInt8)} (good : ¬misused)
    (last : next = none) (failed : result = .error corruptFile) :
    Described misused next payload result :=
  .inr (.inl ⟨good, last, corruptFile, failed, corruptFile_isFormatError⟩)

theorem functionExtent_of_short {start : Nat} {payload : List UInt8}
    (short : payload.length < 4 * start + 4) : functionExtent format start payload = none := by
  rw [functionExtent, (wordAt_eq_none _ _ _).mpr short]

/-- After the checksums the names decide how far the record reaches. -/
theorem described_of_names (good : ¬misused) (ident start : Nat) (payload : List UInt8) :
    Described misused
      ((functionExtent self.format start payload).map (fun bytes => (0, bytes))) payload
      (readNames self ident (payload.drop (4 * start))) := by
  rcases @readNames_described self ident start payload with ⟨none, failed⟩ |
      ⟨func, bytes, some, empty, read⟩
  · exact corrupt_described good (by rw [none]; rfl) failed
  · exact .inr (.inr ⟨good, func, bytes, by rw [some, empty]; rfl, read⟩)

theorem readFunction_described :
    Described (8 ≤ payload.length ∧ ¬HasDigit self)
      ((functionExtent self.format (if self.version.getD 1 0 > 52 then 3 else 2) payload).map
        (fun bytes => (0, bytes))) payload (readFunction self payload) := by
  have startsLate : (if self.version.getD 1 0 > 52 then 3 else 2) ≥ 2 := by split <;> omega
  have readAll : readFunction self = (do
      let ident ← readInt self.format
      let _ ← readInt self.format
      readExtraChecksum self
      readNames self ident) := rfl
  rw [readAll, bind_run]
  have firstRead := readInt_drop self.format payload 0
  rw [Nat.mul_zero, drop_zero] at firstRead
  rw [firstRead]
  cases first : wordAt self.format payload 0 with
  | none =>
    have short := wordAt_zero_none.mp first
    refine corrupt_described (by omega) ?_ rfl
    rw [functionExtent_of_short (by omega)]
    rfl
  | some ident =>
    simp only
    rw [bind_run, readInt_drop]
    cases second : wordAt self.format payload (0 + 1) with
    | none =>
      have short := (wordAt_eq_none _ _ _).mp second
      refine corrupt_described (by omega) ?_ rfl
      rw [functionExtent_of_short (by omega)]
      rfl
    | some checksum =>
      have eight := length_of_wordAt second
      simp only
      rw [bind_run, readExtraChecksum, versionAbove4_eq]
      by_cases digit : HasDigit self
      · have good : ¬(8 ≤ payload.length ∧ ¬HasDigit self) := fun bad => bad.2 digit
        rw [if_pos digit]
        by_cases above : self.version.getD 1 0 > 52
        · rw [if_pos above]
          simp only [above, decide_true]
          rw [bind_run, readInt_drop]
          cases third : wordAt self.format payload (0 + 1 + 1) with
          | none =>
            have short := (wordAt_eq_none _ _ _).mp third
            refine corrupt_described good ?_ rfl
            rw [functionExtent_of_short (by omega)]
            rfl
          | some extra => exact described_of_names good ident 3 payload
        · rw [if_neg above]
          simp only [above, decide_false]
          exact described_of_names good ident 2 payload
      · rw [if_neg digit]
        exact .inl ⟨⟨by omega, digit⟩, _, rfl, by decide⟩

theorem readBlocks_described :
    Described (4 * length ≤ payload.length ∧ func.map (fun current => current.blocks.length) = none)
      (if 4 * length ≤ payload.length then
        (func.map (fun current => current.blocks.length)).map (fun count =>
          (count + length, 4 * length))
      else none) payload (readBlocks self length func payload) := by
  rw [readBlocks, bind_run]
  rcases @readBlockFlags_described self length [] payload with
    ⟨enough, result, count, read⟩ | ⟨short, read⟩
  · rw [read, if_pos enough]
    cases func with
    | none =>
      exact .inl ⟨⟨enough, rfl⟩, _, rfl, by decide⟩
    | some current =>
      refine .inr (.inr ⟨by simp, { current with blocks := current.blocks ++ result },
        4 * length, ?_, rfl⟩)
      simp [count]
  · rw [read, if_neg (by omega)]
    exact corrupt_described (by omega) rfl rfl

theorem readArcs_described :
    Described (∃ src, wordAt self.format payload 0 = some src ∧
        ∀ count ∈ func.map (fun current => current.blocks.length), count ≤ src ∨
          ∃ arc < (length - 1) / 2, ∃ dst, wordAt self.format payload (1 + 2 * arc) = some dst ∧
            count ≤ dst)
      (if 4 + 8 * ((length - 1) / 2) ≤ payload.length then
        (func.map (fun current => current.blocks.length)).map (fun count =>
          (count, 4 + 8 * ((length - 1) / 2)))
      else none) payload (readArcs self length func payload) := by
  rw [readArcs, bind_run, readInt_eq]
  cases first : wordAt self.format payload 0 with
  | none =>
    have short := wordAt_zero_none.mp first
    refine corrupt_described ?_ (if_neg (by omega)) rfl
    rintro ⟨src, found, _⟩
    cases found
  | some src =>
    have four := length_of_wordAt first
    cases func with
    | none =>
      exact .inl ⟨⟨src, rfl, by simp⟩, _, rfl, by decide⟩
    | some current =>
      simp only [Option.map_some, Option.mem_def, Option.some.injEq, forall_eq', exists_eq_left']
      have shift (arc : Nat) : wordAt self.format (payload.drop 4) (2 * arc) =
          wordAt self.format payload (1 + 2 * arc) := wordAt_drop self.format payload 1 (2 * arc)
      by_cases inside : src < current.blocks.length
      · rw [if_pos inside]
        have described := @readArcPairs_described self src ((length - 1) / 2) current
          (payload.drop 4)
        simp only [NamesOutside, shift, length_drop, drop_drop] at described
        rcases described with ⟨bad, read⟩ | ⟨good, short, read⟩ |
            ⟨good, enough, result, count, read⟩
        · exact .inl ⟨.inr bad, _, read, by decide⟩
        · refine corrupt_described ?_ (if_neg (by omega)) read
          rintro (outside | bad)
          · omega
          · exact good bad
        · refine .inr (.inr ⟨?_, result, _, ?_, read⟩)
          · rintro (outside | bad)
            · omega
            · exact good bad
          · rw [if_pos (by omega), count]
      · rw [if_neg inside]
        exact .inl ⟨.inl (by omega), _, rfl, by decide⟩

/-- The words of a LINES record are all read before the block is looked up. -/
theorem readLines_words (length : Nat) (func : Option FunctionSummary) (payload : List UInt8) :
    (linesExtent self.format length payload = none ∧
      readLines self length func payload = .error corruptFile) ∨
    ∃ number lines bytes, wordAt self.format payload 0 = some number ∧
      linesExtent self.format length payload = some bytes ∧
      readLines self length func payload =
        match func with
        | none => .error .attributeError
        | some current =>
          if number < current.blocks.length then
            .ok (current.setBlock number { current.block number with lines := lines },
              payload.drop bytes)
          else .error .indexError := by
  have firstRead := readInt_drop self.format payload 0
  rw [Nat.mul_zero, drop_zero] at firstRead
  rw [readLines, linesExtent, bind_run, firstRead]
  cases first : wordAt self.format payload 0 with
  | none =>
    have short := wordAt_zero_none.mp first
    rw [(wordAt_eq_none _ _ 2).mpr (by omega)]
    exact .inl ⟨rfl, rfl⟩
  | some number =>
    simp only
    rw [bind_run, readInt_drop]
    cases second : wordAt self.format payload (0 + 1) with
    | none =>
      have short := (wordAt_eq_none _ _ _).mp second
      rw [(wordAt_eq_none _ _ 2).mpr (by omega)]
      exact .inl ⟨rfl, rfl⟩
    | some dummy =>
      simp only
      rw [bind_run, readString_drop]
      cases third : wordAt self.format payload (0 + 1 + 1) with
      | none => exact .inl ⟨rfl, rfl⟩
      | some count =>
        simp only
        by_cases fits : 4 * (0 + 1 + 1 + 1 + count) ≤ payload.length
        · rw [if_pos fits]
          simp only
          rw [bind_run]
          rcases @readLineNumbers_described self (length -
            (((rstripNul ((payload.drop 12).take (4 * count))).length + (bytesInWord - 1)) /
              bytesInWord + 1) - headerLength) [] (payload.drop (4 * (0 + 1 + 1 + 1 + count))) with
            ⟨enough, lines, read⟩ | ⟨short, read⟩
          · rw [length_drop] at enough
            refine .inr ⟨number, lines, _, rfl, if_pos (by omega), ?_⟩
            rw [read, drop_drop]
            have position : 4 * (0 + 1 + 1 + 1 + count) = 12 + 4 * count := by omega
            rw [position]
            cases func with
            | none => rfl
            | some current =>
              simp only
              split <;> rfl
          · rw [length_drop] at short
            rw [read]
            exact .inl ⟨if_neg (by omega), rfl⟩
        · rw [if_neg fits]
          exact .inl ⟨if_neg (by omega), rfl⟩

theorem readLines_described :
    Described (∃ number, wordAt self.format payload 0 = some number ∧
        (linesExtent self.format length payload).isSome = true ∧
        ∀ count ∈ func.map (fun current => current.blocks.length), count ≤ number)
      (match linesExtent self.format length payload with
        | none => none
        | some bytes =>
          (func.map (fun current => current.blocks.length)).map (fun count => (count, bytes)))
      payload (readLines self length func payload) := by
  rcases @readLines_words self length func payload with ⟨short, failed⟩ |
      ⟨number, lines, bytes, first, extent, read⟩
  · rw [short]
    exact corrupt_described (by simp) rfl failed
  · rw [read, extent, first]
    cases func with
    | none =>
      exact .inl ⟨⟨number, rfl, rfl, by simp⟩, _, rfl, by decide⟩
    | some current =>
      by_cases inside : number < current.blocks.length
      · simp only [if_pos inside]
        refine .inr (.inr ⟨?_, _, bytes, ?_, rfl⟩)
        · rintro ⟨other, equal, _, outside⟩
          cases equal
          have beyond := outside current.blocks.length rfl
          omega
        · simp [FunctionSummary.setBlock]
      · simp only [if_neg inside]
        refine .inl ⟨⟨number, rfl, rfl, ?_⟩, _, rfl, by decide⟩
        intro count equal
        obtain rfl : current.blocks.length = count := Option.some.inj equal
        omega

/-- What a record does is decided by the words of its payload and the number of
blocks of the current function. -/
theorem readRecord_described (tag length : Nat) (func : Option FunctionSummary)
    (payload : List UInt8) :
    Described (Misused self (func.map (fun current => current.blocks.length)) tag length payload)
      (advance self (func.map (fun current => current.blocks.length)) tag length payload) payload
      (readRecord self tag length func payload) := by
  unfold Misused advance readRecord
  split
  · exact readFunction_described payload
  split
  · exact readBlocks_described length func payload
  split
  · exact readArcs_described length func payload
  · exact readLines_described length func payload

/-- Nothing is met after the last record. -/
theorem not_meetsMisuse {failure : Exception}
    (header : readHeader self.format isTag stream = .error failure) :
    ¬MeetsMisuse self blocks stream := by
  intro meets
  cases meets with
  | here found _ | later found _ _ =>
    rw [header] at found
    cases found

/-- What is met from a record on. -/
theorem meetsMisuse_iff {payload : List UInt8} {tag length : Nat}
    (header : readHeader self.format isTag stream = .ok ((tag, length), payload)) :
    MeetsMisuse self blocks stream ↔ Misused self blocks tag length payload ∨
      ∃ count bytes, advance self blocks tag length payload = some (count, bytes) ∧
        MeetsMisuse self (some count) (payload.drop bytes) := by
  constructor
  · intro meets
    cases meets with
    | here found misused =>
      rw [header] at found
      cases found
      exact .inl misused
    | later found next meets =>
      rw [header] at found
      cases found
      exact .inr ⟨_, _, next, meets⟩
  · rintro (misused | ⟨count, bytes, next, meets⟩)
    · exact .here header misused
    · exact .later header next meets

end

/-- The main loop raises only format errors exactly when it meets no misused record. -/
theorem run_contract (func : Option FunctionSummary) (summary : FileSummary)
    (stream : List UInt8) :
    (∀ failure, run self func summary stream = .error failure → IsFormatError failure) ↔
      ¬MeetsMisuse self (func.map (fun current => current.blocks.length)) stream := by
  induction size : stream.length using Nat.strong_induction_on generalizing func summary stream with
  | _ size ih =>
    subst size
    rw [run_eq]
    cases header : readHeader self.format isTag stream with
    | error failure =>
      refine iff_of_true ?_ (not_meetsMisuse header)
      intro other failed
      cases func with
      | none =>
        cases failed
        exact ⟨_, rfl⟩
      | some current => cases failed
    | ok found =>
      obtain ⟨⟨tag, length⟩, payload⟩ := found
      have shorter := (readHeader_ok _ _ _ _ _ _ header).2
      rw [meetsMisuse_iff header]
      rcases @readRecord_described self tag length func payload with
        ⟨misused, failure, read, other⟩ | ⟨good, last, failure, read, format⟩ |
        ⟨good, next, bytes, advanced, read⟩
      · simp only [read]
        exact iff_of_false (fun contract => other (contract failure rfl))
          (not_not_intro (.inl misused))
      · simp only [read]
        refine iff_of_true ?_ (by simp [good, last])
        intro other failed
        cases failed
        exact format
      · have smaller : (payload.drop bytes).length < stream.length := by
          rw [length_drop]
          omega
        simp only [read]
        rw [ih _ smaller (some next) _ _ rfl]
        simp [good, advanced]

end GcnoParser

/-! ## Whether counters can be resolved -/

namespace FunctionSummary

/-- Two states of one function with the same marks; the counts may differ. -/
structure SameMarks (left right : FunctionSummary) : Prop where
  graph : SameGraph left right
  resolved : ∀ arc, (right.arc arc).resolved = (left.arc arc).resolved

namespace SameMarks

variable {left right : FunctionSummary}

theorem allResolved_eq (same : SameMarks left right) (arcs : List Nat) :
    right.allResolved arcs = left.allResolved arcs := by
  simp only [allResolved, same.resolved]

theorem unresolvedArcs_eq (same : SameMarks left right) :
    right.unresolvedArcs = left.unresolvedArcs := by
  simp only [unresolvedArcs, same.graph.blocks, same.resolved]

theorem setArc (same : SameMarks left right) (self : Nat) (count other : Int) (mark : Bool) :
    SameMarks (left.setArc self { left.arc self with count := count, resolved := mark })
      (right.setArc self { right.arc self with count := other, resolved := mark }) := by
  refine ⟨?_, fun arc => ?_⟩
  · exact (setArc_sameGraph left self count mark).symm.trans
      (same.graph.trans (setArc_sameGraph right self other mark))
  · by_cases stored : self < left.arcs.length
    · rw [setArc_arc left self arc _ stored,
        setArc_arc right self arc _ (by rwa [same.graph.length])]
      by_cases equal : arc = self
      · simp [equal]
      · rw [if_neg equal, if_neg equal, same.resolved]
    · have beyond : left.arcs.length ≤ self := Nat.le_of_not_lt stored
      have leftKept : left.setArc self { left.arc self with count := count, resolved := mark } =
          left := by
        simp only [FunctionSummary.setArc, set_eq_of_length_le beyond]
      have rightKept : right.setArc self { right.arc self with count := other, resolved := mark } =
          right := by
        simp only [FunctionSummary.setArc,
          set_eq_of_length_le (show right.arcs.length ≤ self by rwa [same.graph.length])]
      rw [leftKept, rightKept, same.resolved]

/-- An attempt succeeds or fails by the marks alone. -/
theorem resolve (same : SameMarks left right) (self : Nat) :
    (ArcSummary.resolve right self).1 = (ArcSummary.resolve left self).1 ∧
      SameMarks (ArcSummary.resolve left self).2 (ArcSummary.resolve right self).2 := by
  have atSource : ArcSummary.resolvesAtSource right self =
      ArcSummary.resolvesAtSource left self := by
    simp only [ArcSummary.resolvesAtSource, same.graph.srcBlock, same.graph.block,
      same.allResolved_eq]
  have atTarget : ArcSummary.resolvesAtTarget right self =
      ArcSummary.resolvesAtTarget left self := by
    simp only [ArcSummary.resolvesAtTarget, same.graph.dstBlock, same.graph.block,
      same.allResolved_eq]
  unfold ArcSummary.resolve
  simp only [same.graph.dropped, atSource, atTarget]
  split
  · refine ⟨rfl, ⟨⟨?_, same.graph.length, same.graph.srcBlock, same.graph.dstBlock,
      same.graph.fake, same.graph.fallthrough, same.graph.onTree⟩, same.resolved⟩⟩
    simp only [setBlock, same.graph.blocks, same.graph.srcBlock, same.graph.block]
  split
  · exact ⟨rfl, same.setArc self _ _ true⟩
  split
  · exact ⟨rfl, same.setArc self _ _ true⟩
  · exact ⟨rfl, same⟩

/-- So does the worklist loop. -/
theorem resolveLoop (same : SameMarks left right) (fuel index prevLength : Nat)
    (unresolved : List Nat) :
    (FunctionSummary.resolveLoop fuel index prevLength unresolved right).map Prod.fst =
      (FunctionSummary.resolveLoop fuel index prevLength unresolved left).map Prod.fst := by
  induction fuel generalizing index prevLength unresolved left right with
  | zero => rfl
  | succ fuel ih =>
    unfold FunctionSummary.resolveLoop
    split
    · rfl
    split
    · rfl
    · simp only
      obtain ⟨outcome, after⟩ := same.resolve (unresolved.getD (index % unresolved.length) 0)
      rw [outcome]
      split
      · exact ih after _ _ _
      · exact ih after _ _ _

theorem resolve_fst_eq (same : SameMarks left right) : right.resolve.1 = left.resolve.1 := by
  have loops := same.resolveLoop (resolveFuel left.unresolvedArcs) 0
    (left.unresolvedArcs.length + 1) left.unresolvedArcs
  rw [resolveArcs_eq left] at loops
  rw [← same.unresolvedArcs_eq, resolveArcs_eq right] at loops
  rw [resolve_fst, resolve_fst]
  exact Option.some.inj loops

end SameMarks

/-- The counters of the function can be resolved, whatever their values. -/
def CountersResolve (func : FunctionSummary) : Prop :=
  (func.storeCounts (List.replicate func.countedArcs.length 0)).resolve.1 = true

instance (func : FunctionSummary) : Decidable func.CountersResolve :=
  inferInstanceAs (Decidable
    ((func.storeCounts (List.replicate func.countedArcs.length 0)).resolve.1 = true))

/-- The values of the counters do not matter. -/
theorem resolve_iff_countersResolve (func : FunctionSummary) (graph : func.WellFormed)
    (values : List Nat) (length : values.length = func.countedArcs.length) :
    (func.storeCounts values).resolve.1 = true ↔ func.CountersResolve := by
  have zeros : (List.replicate func.countedArcs.length 0).length = func.countedArcs.length := by
    simp
  have same : SameMarks (func.storeCounts (List.replicate func.countedArcs.length 0))
      (func.storeCounts values) := by
    have toZeros := storeCounts_sameGraph func (List.replicate func.countedArcs.length 0)
    refine ⟨toZeros.symm.trans (storeCounts_sameGraph func values), fun arc => ?_⟩
    rw [storeCounts_arc graph length, storeCounts_arc graph zeros]
    by_cases counted : arc ∈ func.countedArcs
    · cases first : func.counterOf values arc with
      | none => exact absurd counted ((counterOf_eq_none length arc).mp first)
      | some value =>
        cases second : func.counterOf (List.replicate func.countedArcs.length 0) arc with
        | none => exact absurd counted ((counterOf_eq_none zeros arc).mp second)
        | some other => rfl
    · rw [(counterOf_eq_none length arc).mpr counted, (counterOf_eq_none zeros arc).mpr counted]
  rw [same.resolve_fst_eq, CountersResolve]

end FunctionSummary

/-! ## GCDA records -/

namespace GcdaParser

open GcnoParser (HasDigit versionAbove4_eq)

/-- The number of bytes of a function record with the given number of checksums. -/
def functionExtent (format : ByteOrder) (start length : Nat) (stream : List UInt8) :
    Option Nat :=
  if 4 * start ≤ stream.length then
    if start + 1 < length then
      match wordAt format stream start with
      | none => none
      | some name =>
        if 4 * (start + 1 + name) ≤ stream.length then some (4 * (start + 1 + name)) else none
    else some (4 * start)
  else none

variable (self : GcovStream) (origin : FileSummary)

/-- The payload of a record makes `Parse` raise something else than a
`FileFormatError`. `func` is the identifier of the current function. -/
def Misused (func : Option Nat) (tag : Nat) (payload : List UInt8) : Prop :=
  if tag = tagFunction then
    -- The function is looked up before its checksums are read.
    ∃ ident, wordAt self.format payload 0 = some ident ∧
      (origin.get? ident = none ∨ 8 ≤ payload.length ∧ ¬HasDigit self)
  else tag = tagCounter ∧ func = none

/-- The current function after a record, and the number of bytes of the record. A
counter record that cannot be resolved ends the parse. -/
def advance (func : Option Nat) (tag length : Nat) (payload : List UInt8) :
    Option (Option Nat × Nat) :=
  if tag = tagFunction then
    match wordAt self.format payload 0 with
    | none => none
    | some ident =>
      (functionExtent self.format (if self.version.getD 1 0 > 52 then 3 else 2) length
        payload).map (fun bytes => (some ident, bytes))
  else if tag = tagCounter then
    let object := ((func.bind origin.get?).getD default)
    if 8 * object.countedArcs.length ≤ payload.length ∧ object.CountersResolve then
      some (func, 8 * object.countedArcs.length)
    else none
  else if tag = tagObject then
    some (func, 0)
  else if 4 * (1 + (length - 1)) ≤ payload.length then
    some (func, 4 * (1 + (length - 1)))
  else none

/-- A record that the parser meets is misused. -/
inductive MeetsMisuse : Option Nat → List UInt8 → Prop where
  | here {func : Option Nat} {stream payload : List UInt8} {tag length : Nat}
      (header : readHeader self.format isTag stream = .ok ((tag, length), payload))
      (misused : Misused self origin func tag payload) : MeetsMisuse func stream
  | later {func next : Option Nat} {stream payload : List UInt8} {tag length bytes : Nat}
      (header : readHeader self.format isTag stream = .ok ((tag, length), payload))
      (advanced : advance self origin func tag length payload = some (next, bytes))
      (meets : MeetsMisuse next (payload.drop bytes)) : MeetsMisuse func stream

/-- The states of a function during a parse: as it was parsed, or settled by
counters that could be resolved. -/
def FunctionState (before now : FunctionSummary) : Prop :=
  now = before ∨ before.Settled now ∧ before.CountersResolve

/-- The states of the summary during a parse. -/
def SummaryState (summary : FileSummary) : Prop :=
  List.Forall₂ (fun old new => new.1 = old.1 ∧ FunctionState old.2 new.2)
    origin.functions summary.functions

/-- What the reader of a record does, in these terms. -/
def Described (misused : Prop) (next : Option (Option Nat × Nat)) (payload : List UInt8)
    (result : Except Exception (Option Nat × List UInt8) × FileSummary) : Prop :=
  (misused ∧ ∃ failure, result.1 = .error failure ∧ ¬IsFormatError failure) ∨
  (¬misused ∧ next = none ∧ ∃ failure, result.1 = .error failure ∧ IsFormatError failure) ∨
  (¬misused ∧ SummaryState origin result.2 ∧ ∃ func bytes, next = some (func, bytes) ∧
    (∀ ident ∈ func, (origin.get? ident).isSome = true) ∧
    result.1 = .ok (func, payload.drop bytes))

variable {self origin}

/-- Counters are read for every counted arc, or the stream ends before. -/
theorem readCounts_described (arcs : List Nat) (func : FunctionSummary) (stream : List UInt8) :
    (8 * (arcs.filter (fun arc => (func.arc arc).counted)).length ≤ stream.length ∧
      ∃ values : List Nat,
        values.length = (arcs.filter (fun arc => (func.arc arc).counted)).length ∧
        readCounts self.format arcs func stream =
          (.ok (stream.drop (8 * (arcs.filter (fun arc => (func.arc arc).counted)).length)),
            ((arcs.filter (fun arc => (func.arc arc).counted)).zip values).foldl
              (fun current pair => current.setCount pair.1 pair.2) func)) ∨
    (stream.length < 8 * (arcs.filter (fun arc => (func.arc arc).counted)).length ∧
      (readCounts self.format arcs func stream).1 = .error corruptFile) := by
  induction arcs generalizing func stream with
  | nil => exact .inl ⟨by simp, [], rfl, rfl⟩
  | cons arc others ih =>
    by_cases counted : (func.arc arc).counted = true
    · rw [filter_cons_of_pos (by simpa using counted), readCounts, if_pos counted,
        readInt64_eq, length_cons]
      cases first : wordAt self.format stream 0 with
      | none =>
        have short := wordAt_zero_none.mp first
        exact .inr ⟨by omega, rfl⟩
      | some lo =>
        cases second : wordAt self.format stream 1 with
        | none =>
          have short := (wordAt_eq_none _ _ _).mp second
          exact .inr ⟨by omega, rfl⟩
        | some hi =>
          have eight := length_of_wordAt second
          have sameMarks : (fun other => ((func.setCount arc ((hi <<< 32 ||| lo : Nat) : Int)).arc
              other).counted) = fun other => (func.arc other).counted :=
            funext fun other => (setArc_evolves func arc _ true).counted other
          have next := ih (func.setCount arc ((hi <<< 32 ||| lo : Nat) : Int))
            (stream.drop 8)
          rw [sameMarks, length_drop] at next
          simp only
          rcases next with ⟨enough, values, length, read⟩ | ⟨short, read⟩
          · refine .inl ⟨by omega, (hi <<< 32 ||| lo) :: values, by simpa using length, ?_⟩
            rw [read, drop_drop]
            rw [show 8 + 8 * (others.filter (fun arc => (func.arc arc).counted)).length =
              8 * ((others.filter (fun arc => (func.arc arc).counted)).length + 1) by omega]
            rfl
          · exact .inr ⟨by omega, read⟩
    · rw [filter_cons_of_neg (by simpa using counted), readCounts, if_neg counted]
      exact ih func stream

theorem skipWords_described (count : Nat) (stream : List UInt8) :
    skipWords self.format count stream =
      if 4 * count ≤ stream.length then .ok ((), stream.drop (4 * count))
      else .error corruptFile := by
  induction count generalizing stream with
  | zero => simp [skipWords]
  | succ count ih =>
    rw [skipWords, bind_run, readInt_eq]
    cases first : wordAt self.format stream 0 with
    | none =>
      have short := wordAt_zero_none.mp first
      rw [if_neg (by omega)]
    | some value =>
      have four := length_of_wordAt first
      simp only
      rw [ih, length_drop, drop_drop]
      by_cases enough : 4 * (count + 1) ≤ stream.length
      · rw [if_pos enough, if_pos (by omega)]
        congr 3
        omega
      · rw [if_neg enough, if_neg (by omega)]

theorem corrupt_described {misused : Prop} {next : Option (Option Nat × Nat)}
    {payload : List UInt8} {result : Except Exception (Option Nat × List UInt8) × FileSummary}
    (good : ¬misused) (last : next = none) (failed : result.1 = .error corruptFile) :
    Described origin misused next payload result :=
  .inr (.inl ⟨good, last, corruptFile, failed, corruptFile_isFormatError⟩)

/-- The first word after the checksums of a function. -/
def nameStart (self : GcovStream) : Nat := if self.version.getD 1 0 > 52 then 3 else 2

theorem readChecksums_eq :
    readChecksums self (payload.drop (4 * 1)) =
      if payload.length < 8 then .error corruptFile
      else if HasDigit self then
        if 4 * nameStart self ≤ payload.length then
          .ok (nameStart self + 1, payload.drop (4 * nameStart self))
        else .error corruptFile
      else .error (.valueError "invalid literal for int() with base 10") := by
  rw [readChecksums, bind_run, readInt_drop]
  cases second : wordAt self.format payload 1 with
  | none =>
    have short := (wordAt_eq_none _ _ _).mp second
    rw [if_pos (show payload.length < 8 by omega)]
  | some checksum =>
    have eight := length_of_wordAt second
    rw [if_neg (show ¬payload.length < 8 by omega)]
    by_cases digit : HasDigit self
    · have version := versionAbove4_eq self
      rw [if_pos digit] at version
      rw [version, if_pos digit, nameStart]
      by_cases above : self.version.getD 1 0 > 52
      · simp only [above, decide_true, if_true]
        rw [bind_run, readInt_drop]
        cases third : wordAt self.format payload (1 + 1) with
        | none =>
          have short := (wordAt_eq_none _ _ _).mp third
          rw [if_neg (by omega)]
        | some extra =>
          have twelve := length_of_wordAt third
          rw [if_pos (by omega)]
          rfl
      · simp only [above, decide_false, if_false]
        rw [if_pos (by omega)]
        rfl
    · have version := versionAbove4_eq self
      rw [if_neg digit] at version
      rw [version, if_neg digit]
      rfl

section

variable (func : Option Nat) (length : Nat) (summary : FileSummary) (payload : List UInt8)

theorem readFunction_eq :
    readFunction self length summary payload =
      match wordAt self.format payload 0 with
      | none => .error corruptFile
      | some ident =>
        if (summary.get? ident).isSome = true then
          if payload.length < 8 then .error corruptFile
          else if HasDigit self then
            match functionExtent self.format (nameStart self) length payload with
            | none => .error corruptFile
            | some bytes => .ok (ident, payload.drop bytes)
          else .error (.valueError "invalid literal for int() with base 10")
        else .error .keyError := by
  have firstRead := readInt_drop self.format payload 0
  rw [Nat.mul_zero, drop_zero] at firstRead
  rw [readFunction, bind_run, firstRead]
  cases first : wordAt self.format payload 0 with
  | none => rfl
  | some ident =>
    simp only
    by_cases known : (summary.get? ident).isSome = true
    · rw [if_pos known, if_pos known, bind_run, readChecksums_eq]
      by_cases short : payload.length < 8
      · rw [if_pos short, if_pos short]
      by_cases digit : HasDigit self
      · rw [if_neg short, if_neg short, if_pos digit, if_pos digit, functionExtent]
        by_cases checksums : 4 * nameStart self ≤ payload.length
        · rw [if_pos checksums, if_pos checksums]
          simp only
          by_cases named : nameStart self + 1 < length
          · rw [if_pos named, if_pos named, bind_run, readString_drop]
            cases wordAt self.format payload (nameStart self) with
            | none => rfl
            | some name =>
              simp only
              by_cases fits : 4 * (nameStart self + 1 + name) ≤ payload.length
              · rw [if_pos fits, if_pos fits]
                rfl
              · rw [if_neg fits, if_neg fits]
          · rw [if_neg named, if_neg named]
            rfl
        · rw [if_neg checksums, if_neg checksums]
      · rw [if_neg short, if_neg short, if_neg digit, if_neg digit]
    · rw [if_neg known, if_neg known]
      rfl

/-- During a parse the summary keeps its keys, and each function is in one of its
two states. -/
theorem SummaryState.get? {summary : FileSummary} (state : SummaryState origin summary)
    (ident : Nat) :
    (origin.get? ident = none ∧ summary.get? ident = none) ∨
    ∃ old new, origin.get? ident = some old ∧ summary.get? ident = some new ∧
      FunctionState old new :=
  FileSummary.get?_related state ident

theorem functionRecord_described (state : SummaryState origin summary) :
    Described origin (Misused self origin func tagFunction payload)
      (advance self origin func tagFunction length payload) payload
      (readRecord self tagFunction length func summary payload) := by
  rw [Misused, if_pos rfl, advance, if_pos rfl, readRecord, if_pos rfl, readFunction_eq,
    ← nameStart]
  cases first : wordAt self.format payload 0 with
  | none => exact corrupt_described (by simp) rfl rfl
  | some ident =>
    simp only [Option.some.injEq, exists_eq_left']
    rcases state.get? ident with ⟨absent, missing⟩ | ⟨old, new, found, now, _⟩
    · rw [missing]
      exact .inl ⟨.inl absent, _, rfl, by decide⟩
    · have known : (summary.get? ident).isSome = true := by simp [now]
      rw [if_pos known]
      by_cases short : payload.length < 8
      · rw [if_pos short]
        refine corrupt_described ?_ ?_ rfl
        · rintro (absent | ⟨long, _⟩)
          · rw [found] at absent
            cases absent
          · omega
        · have late : 2 ≤ nameStart self := by
            unfold nameStart
            split <;> omega
          rw [functionExtent, if_neg (by omega)]
          rfl
      by_cases digit : HasDigit self
      · rw [if_neg short, if_pos digit]
        have good : ¬(origin.get? ident = none ∨ 8 ≤ payload.length ∧ ¬HasDigit self) := by
          rintro (absent | ⟨_, bad⟩)
          · rw [found] at absent
            cases absent
          · exact bad digit
        cases functionExtent self.format (nameStart self) length payload with
        | none => exact corrupt_described good rfl rfl
        | some bytes =>
          refine .inr (.inr ⟨good, state, some ident, bytes, rfl, ?_, rfl⟩)
          rintro other equal
          cases equal
          simp [found]
      · rw [if_neg short, if_neg digit]
        exact .inl ⟨.inr ⟨by omega, digit⟩, _, rfl, by decide⟩

/-- Counters for a function in either state: they are resolved exactly when they
could be in the function as it was parsed. -/
theorem FunctionState.counters {before now : FunctionSummary} (state : FunctionState before now)
    (pristine : before.Pristine) (values : List Nat)
    (length : values.length = before.countedArcs.length) :
    ((now.storeCounts values).resolve.1 = true ↔ before.CountersResolve) ∧
      ((now.storeCounts values).resolve.1 = true →
        FunctionState before (now.storeCounts values).resolve.2) := by
  rcases state with rfl | ⟨settled, resolvable⟩
  · have resolves := resolve_iff_countersResolve now pristine.graph values length
    exact ⟨resolves, fun returned =>
      .inr ⟨settled_first pristine.graph length returned, resolves.mp returned⟩⟩
  · have lengthNow : values.length = now.countedArcs.length := by
      rw [settled.evolves.countedArcs_eq pristine.graph, length]
    have stored := settled.storeCounts pristine.graph lengthNow
    rw [stored.resolve_eq]
    exact ⟨⟨fun _ => resolvable, fun _ => rfl⟩, fun _ => .inr ⟨stored.resolveBlocks, resolvable⟩⟩

theorem FunctionState.evolves {before now : FunctionSummary} (state : FunctionState before now) :
    before.Evolves now := by
  rcases state with rfl | ⟨settled, _⟩
  · exact FunctionSummary.Evolves.refl now
  · exact settled.evolves

theorem counterRecord_described (parsed : origin.Parsed) (state : SummaryState origin summary)
    (current : ∀ ident ∈ func, (origin.get? ident).isSome = true) :
    Described origin (Misused self origin func tagCounter payload)
      (advance self origin func tagCounter length payload) payload
      (readRecord self tagCounter length func summary payload) := by
  unfold Misused advance readRecord readCounters
  rw [if_neg (show ¬tagCounter = tagFunction by decide),
    if_neg (show ¬tagCounter = tagFunction by decide),
    if_neg (show ¬tagCounter = tagFunction by decide), if_pos rfl, if_pos rfl]
  cases func with
  | none => exact .inl ⟨⟨rfl, rfl⟩, _, rfl, by decide⟩
  | some ident =>
    have good : ¬(True ∧ some ident = none) := by simp
    rcases state.get? ident with ⟨absent, _⟩ | ⟨old, new, found, now, functionState⟩
    · have known := current ident rfl
      rw [absent] at known
      cases known
    · have pristine := parsed.pristine _ (FileSummary.mem_of_get? found)
      have sameArcs : new.exitArcs.filter (fun arc => (new.arc arc).counted) = old.countedArcs :=
        functionState.evolves.countedArcs_eq pristine.graph
      simp only [now, Option.getD_some, Option.bind_some, found]
      have described := @readCounts_described self new.exitArcs new payload
      rw [sameArcs] at described
      rcases described with ⟨enough, values, count, read⟩ | ⟨short, failed⟩
      · have storedNow : (old.countedArcs.zip values).foldl
            (fun current pair => current.setCount pair.1 pair.2) new = new.storeCounts values := by
          rw [FunctionSummary.storeCounts, ← sameArcs]
          rfl
        rw [storedNow] at read
        obtain ⟨resolves, next⟩ := functionState.counters pristine values count
        simp only [read]
        by_cases returned : (new.storeCounts values).resolve.1 = true
        · rw [if_pos ⟨enough, resolves.mp returned⟩]
          simp only [returned, if_true]
          exact .inr (.inr ⟨good, FileSummary.insert_related parsed.distinct state found
            (next returned), some ident, _, rfl, current, rfl⟩)
        · rw [if_neg (fun both => returned (resolves.mpr both.2))]
          simp only [if_neg returned]
          exact .inr (.inl ⟨good, rfl, _, rfl, _, rfl⟩)
      · rw [if_neg (fun both => by omega)]
        rcases outcome : readCounts self.format new.exitArcs new payload with ⟨result, counted⟩
        rw [outcome] at failed
        simp only at failed
        subst failed
        exact corrupt_described good rfl rfl

end

/-- What a record does is decided by the words of its payload, the current function
and the summary before the parse. -/
theorem readRecord_described (tag length : Nat) (func : Option Nat) (summary : FileSummary)
    (payload : List UInt8) (known : isTag tag = true) (parsed : origin.Parsed)
    (state : SummaryState origin summary)
    (current : ∀ ident ∈ func, (origin.get? ident).isSome = true) :
    Described origin (Misused self origin func tag payload)
      (advance self origin func tag length payload) payload
      (readRecord self tag length func summary payload) := by
  simp only [isTag, Bool.or_eq_true, beq_iff_eq] at known
  rcases known with ((rfl | rfl) | rfl) | rfl
  · exact functionRecord_described func length summary payload state
  · exact counterRecord_described func length summary payload parsed state current
  · rw [Misused, if_neg (by decide), advance, if_neg (by decide), if_neg (by decide), if_pos rfl,
      readRecord, if_neg (by decide), if_neg (by decide), if_pos rfl]
    exact .inr (.inr ⟨fun bad => absurd bad.1 (by decide), state, func, 0, rfl, current, rfl⟩)
  · have good : ¬(tagProgram = tagCounter ∧ func = none) := fun bad => absurd bad.1 (by decide)
    have notFunction : ¬tagProgram = tagFunction := by decide
    have notCounter : ¬tagProgram = tagCounter := by decide
    have notObject : ¬tagProgram = tagObject := by decide
    unfold Misused advance readRecord
    rw [if_neg notFunction, if_neg notFunction, if_neg notFunction, if_neg notCounter,
      if_neg notCounter, if_neg notObject, if_neg notObject, skipWords_described]
    by_cases enough : 4 * (1 + (length - 1)) ≤ payload.length
    · rw [if_pos enough, if_pos enough]
      exact .inr (.inr ⟨good, state, func, _, rfl, current, rfl⟩)
    · rw [if_neg enough, if_neg enough]
      exact corrupt_described good rfl rfl

/-- Nothing is met after the last record. -/
theorem not_meetsMisuse {func : Option Nat} {failure : Exception}
    (header : readHeader self.format isTag stream = .error failure) :
    ¬MeetsMisuse self origin func stream := by
  intro meets
  cases meets with
  | here found _ | later found _ _ =>
    rw [header] at found
    cases found

/-- What is met from a record on. -/
theorem meetsMisuse_iff {func : Option Nat} {payload : List UInt8} {tag length : Nat}
    (header : readHeader self.format isTag stream = .ok ((tag, length), payload)) :
    MeetsMisuse self origin func stream ↔ Misused self origin func tag payload ∨
      ∃ next bytes, advance self origin func tag length payload = some (next, bytes) ∧
        MeetsMisuse self origin next (payload.drop bytes) := by
  constructor
  · intro meets
    cases meets with
    | here found misused =>
      rw [header] at found
      cases found
      exact .inl misused
    | later found advanced meets =>
      rw [header] at found
      cases found
      exact .inr ⟨_, _, advanced, meets⟩
  · rintro (misused | ⟨next, bytes, advanced, meets⟩)
    · exact .here header misused
    · exact .later header advanced meets

/-- The main loop raises only format errors exactly when it meets no misused record. -/
theorem run_contract (func : Option Nat) (summary : FileSummary) (stream : List UInt8)
    (parsed : origin.Parsed) (state : SummaryState origin summary)
    (current : ∀ ident ∈ func, (origin.get? ident).isSome = true) :
    (∀ failure, (run self func summary stream).1 = .error failure → IsFormatError failure) ↔
      ¬MeetsMisuse self origin func stream := by
  induction size : stream.length using Nat.strong_induction_on generalizing func summary stream with
  | _ size ih =>
    subst size
    rw [run_eq]
    cases header : readHeader self.format isTag stream with
    | error failure =>
      refine iff_of_true ?_ (not_meetsMisuse header)
      intro other failed
      cases failed
    | ok found =>
      obtain ⟨⟨tag, length⟩, payload⟩ := found
      obtain ⟨known, shorter⟩ := readHeader_ok _ _ _ _ _ _ header
      rw [meetsMisuse_iff header]
      simp only
      have described := @readRecord_described self origin tag length func summary payload known
        parsed state current
      rcases read : readRecord self tag length func summary payload with ⟨outcome, after⟩
      rw [read] at described
      rcases described with ⟨misused, failure, failed, other⟩ |
          ⟨good, last, failure, failed, format⟩ |
          ⟨good, nextState, next, bytes, advanced, nextCurrent, succeeded⟩
      · simp only at failed
        subst failed
        exact iff_of_false (fun contract => other (contract failure rfl))
          (not_not_intro (.inl misused))
      · simp only at failed
        subst failed
        refine iff_of_true ?_ (by simp [good, last])
        intro other failed
        cases failed
        exact format
      · simp only at succeeded
        subst succeeded
        have smaller : (payload.drop bytes).length < stream.length := by
          rw [length_drop]
          omega
        simp only
        rw [ih _ smaller next after _ nextState nextCurrent rfl]
        simp [good, advanced]

end GcdaParser

/-! ## The contract -/

/-- The constructor raises `struct.error` exactly on four to seven bytes. -/
theorem GcovStream.init_contract (magic : Nat) (content : List UInt8) :
    (∀ failure, GcovStream.init magic content = .error failure → IsFormatError failure) ↔
      ¬(4 ≤ content.length ∧ content.length < 8) := by
  rw [GcovStream.init, bind_run, readInt_eq]
  cases first : wordAt .little content 0 with
  | none =>
    have short := wordAt_zero_none.mp first
    constructor
    · intro _ bad
      omega
    · intro _ failure failed
      cases failed
      exact corruptFile_isFormatError
  | some tag =>
    have four := length_of_wordAt first
    simp only
    rw [bind_run, readChars, length_drop]
    by_cases short : 4 ≤ content.length - 4
    · rw [if_pos short]
      simp only
      refine ⟨fun _ bad => by omega, fun _ failure failed => ?_⟩
      refine ByteReader.FailsOnly.bind (readInt_failsOnly .little) (fun checksum => ?_) _ failure
        failed
      intro stream other raised
      split at raised
      · split at raised
        · cases raised
        · cases raised
          exact ⟨_, rfl⟩
      · cases raised
    · rw [if_neg short]
      constructor
      · intro contract
        obtain ⟨message, equal⟩ := contract .structError rfl
        cases equal
      · intro none
        exact absurd ⟨four, by omega⟩ none

/-- Constructing a `GCNOParser` and calling `Parse`. -/
def gcnoOutcome (content : List UInt8) : Except Exception FileSummary :=
  match GcnoParser.init content with
  | .error failure => .error failure
  | .ok parser => parser.parse

/-- Constructing a `GCDAParser` and calling `Parse` with a summary. -/
def gcdaOutcome (content : List UInt8) (summary : FileSummary) : Except Exception Unit :=
  match GcdaParser.init content with
  | .error failure => .error failure
  | .ok parser => (parser.parse summary).1

/-- The outcome is a result or a `FileFormatError`. -/
def KeepsContract {Result : Type} (outcome : Except Exception Result) : Prop :=
  ∀ failure, outcome = .error failure → IsFormatError failure

/-- The content is not cut off inside the version, and no record that the parser
meets is misused. -/
def GcnoUsable (content : List UInt8) : Prop :=
  ¬(4 ≤ content.length ∧ content.length < 8) ∧
    ∀ header stream, GcovStream.init GcnoParser.magic content = .ok (header, stream) →
      ¬GcnoParser.MeetsMisuse header none stream

@[inherit_doc GcnoUsable]
def GcdaUsable (summary : FileSummary) (content : List UInt8) : Prop :=
  ¬(4 ≤ content.length ∧ content.length < 8) ∧
    ∀ header stream, GcovStream.init GcdaParser.magic content = .ok (header, stream) →
      ¬GcdaParser.MeetsMisuse header summary none stream

end Vts.Coverage
