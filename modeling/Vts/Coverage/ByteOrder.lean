import Vts.Coverage.GcdaCodec
import Vts.Coverage.GcnoCodec

/-!
# Byte order of gcov files

The constructor reads the version and the checksum little-endian and detects the
byte order afterwards. A big-endian file therefore has its version characters
reversed and its checksum swapped. Everything after the header is read in the
right order, so a big-endian file is read as the little-endian one exactly when
these two accidents do no harm: the checksum is its own swap, and the character
that takes the place of the version digit is a digit on the same side of 4.
-/

namespace Vts.Coverage

open Lib Lib.WordCodec List ByteReader
open Python (Exception)

/-- Two GCNO files are opened with the same checksum and parsed to the same summary. -/
def SameGcno (left right : List UInt8) : Prop :=
  ∃ first second, GcnoParser.init left = .ok first ∧ GcnoParser.init right = .ok second ∧
    first.header.checksum = second.header.checksum ∧ first.parse = second.parse

/-- Two GCDA files are opened with the same checksum and do the same to a summary. -/
def SameGcda (summary : FileSummary) (left right : List UInt8) : Prop :=
  ∃ first second, GcdaParser.init left = .ok first ∧ GcdaParser.init right = .ok second ∧
    first.header.checksum = second.header.checksum ∧ first.parse summary = second.parse summary

/-- A summary that a GCNO parser returned. -/
def FileSummary.FromGcno (summary : FileSummary) : Prop :=
  ∃ content parser, GcnoParser.init content = .ok parser ∧ parser.parse = .ok summary

theorem FileSummary.FromGcno.parsed {summary : FileSummary} (source : summary.FromGcno) :
    summary.Parsed := by
  obtain ⟨_, parser, _, returned⟩ := source
  exact GcnoParser.parse_parsed parser summary returned

/-- The header words survive being read in the wrong order: the checksum is its own
swap, and the third version character is a digit on the same side of 4. -/
def OrderFree (digit : Nat) (third : UInt8) (checksum : Nat) : Prop :=
  byteSwap 4 checksum = checksum ∧
    ∃ other < 10, third = UInt8.ofNat (48 + other) ∧ (digit > 4 ↔ other > 4)

theorem GcovStream.versionAbove4_ok (self : GcovStream) (above : Bool)
    (tested : self.versionAbove4 = .ok above) :
    ∃ digit < 10, self.version.getD 1 0 = UInt8.ofNat (48 + digit) ∧
      above = decide (digit > 4) := by
  unfold GcovStream.versionAbove4 at tested
  simp only at tested
  split at tested
  · next range =>
    cases tested
    have low : 48 ≤ (self.version.getD 1 0).toNat := range.1
    have high : (self.version.getD 1 0).toNat ≤ 57 := range.2
    refine ⟨(self.version.getD 1 0).toNat - 48, by omega, ?_, rfl⟩
    rw [Nat.add_sub_cancel' low, UInt8.ofNat_toNat]
  · cases tested

section Headers

variable (first third fourth : UInt8) (digit checksum : Nat)

/-- The version as the file has it, with the digit in second place. -/
def versionOf : List UInt8 := [first, UInt8.ofNat (48 + digit), third, fourth]

/-- The digit test on what the constructor keeps of a big-endian version. -/
theorem above4_big (free : OrderFree digit third checksum) :
    GcovStream.versionAbove4 ⟨.big, versionBytes .big (versionOf first third fourth digit),
      storedChecksum .big checksum⟩ = .ok (decide (digit > 4)) := by
  obtain ⟨_, other, small, rfl, side⟩ := free
  rw [GcovStream.versionAbove4_digit _ other small rfl]
  simp only [side]

theorem above4_little (isDigit : digit < 10) :
    GcovStream.versionAbove4 ⟨.little, versionBytes .little (versionOf first third fourth digit),
      storedChecksum .little checksum⟩ = .ok (decide (digit > 4)) :=
  GcovStream.versionAbove4_digit _ digit isDigit rfl

variable {first third fourth digit checksum}

/-- A header that survives gives the same GCNO summary in both orders. -/
theorem sameGcno_of_orderFree (functions : List GcnoFunction) (isDigit : digit < 10)
    (checksumFits : checksum < 2 ^ 32) (nonempty : functions ≠ [])
    (valid : ∀ source ∈ functions, source.Valid)
    (distinct : (functions.map GcnoFunction.ident).Nodup)
    (free : OrderFree digit third checksum) :
    SameGcno
      (encodeGcno .little (versionOf first third fourth digit) checksum (decide (digit > 4))
        functions)
      (encodeGcno .big (versionOf first third fourth digit) checksum (decide (digit > 4))
        functions) := by
  refine ⟨_, _, GcnoParser.init_gcovFile .little _ checksum _ rfl checksumFits,
    GcnoParser.init_gcovFile .big _ checksum _ rfl checksumFits, free.1.symm, ?_⟩
  rw [GcnoParser.parse_functions _ _ _ (above4_little first third fourth digit checksum isDigit)
      nonempty valid distinct,
    GcnoParser.parse_functions _ _ _ (above4_big first third fourth digit checksum free)
      nonempty valid distinct]

/-- A header that survives lets a GCDA file do the same in both orders. -/
theorem sameGcda_of_orderFree (summary : FileSummary) (records : List GcdaRecord)
    (isDigit : digit < 10) (checksumFits : checksum < 2 ^ 32) (source : summary.FromGcno)
    (valid : ∀ entry ∈ records, entry.Valid) (fits : GcdaFits summary none records)
    (free : OrderFree digit third checksum) :
    SameGcda summary
      (encodeGcda .little (versionOf first third fourth digit) checksum (decide (digit > 4))
        records)
      (encodeGcda .big (versionOf first third fourth digit) checksum (decide (digit > 4))
        records) := by
  refine ⟨_, _, GcdaParser.init_gcovFile .little _ checksum _ rfl checksumFits,
    GcdaParser.init_gcovFile .big _ checksum _ rfl checksumFits, free.1.symm, ?_⟩
  rw [GcdaParser.parse_records _ _ _ summary summary
      (above4_little first third fourth digit checksum isDigit) valid source.parsed
      (FileSummary.Evolves.refl summary) fits,
    GcdaParser.parse_records _ _ _ summary summary
      (above4_big first third fourth digit checksum free) valid source.parsed
      (FileSummary.Evolves.refl summary) fits]

end Headers

/-! ## Files that tell the orders apart -/

/-- A function whose name and configuration checksum are far too long when they are
taken for a string length. -/
def wideFunction : GcnoFunction where
  ident := 1
  lineChecksum := 0
  configChecksum := 2 ^ 32 - 1
  name := List.replicate 7 255
  srcFileName := []
  firstLineNumber := 1
  flags := []
  arcs := []
  lines := []

theorem wideFunction_valid : wideFunction.Valid := by
  constructor <;> decide

/-- The function of the file with the wide name. -/
def wideRecords : List GcdaRecord := [.function 1 0 (2 ^ 32 - 1) (some (List.replicate 7 255))]

theorem wideFunction_fromGcno : (gcnoSummary [wideFunction]).FromGcno := by
  refine ⟨_, _, GcnoParser.init_gcovFile .little (versionOf 42 48 52 8) 0
    ([wideFunction].flatMap (GcnoFunction.encode .little (decide (8 > 4)))) rfl (by decide), ?_⟩
  exact GcnoParser.parse_functions _ _ _ (above4_little 42 48 52 8 0 (by decide)) (by decide)
    (by simpa using wideFunction_valid) (by decide)

theorem wideRecords_valid : ∀ entry ∈ wideRecords, entry.Valid := by
  intro entry member
  obtain rfl := mem_singleton.mp member
  refine ⟨by decide, by decide, by decide, ?_⟩
  rintro text ⟨⟩
  decide

theorem wideRecords_fits : GcdaFits (gcnoSummary [wideFunction]) none wideRecords := ⟨rfl, trivial⟩

section Misreading

variable {self : GcovStream} {extra : Bool}

/-- The wide name in a file: its first characters are the largest word. -/
theorem wideName_bytes : stringBytes .big (List.replicate 7 255) =
    word .big 2 ++ (word .big (2 ^ 32 - 1) ++ [255, 255, 255, 0]) := by decide

/-- A name read after the wrong number of checksums is cut off: either the
configuration checksum or the name itself is taken for its length. -/
theorem wideName_misread (extra : Bool) (rest : List UInt8) (short : rest.length < 2 ^ 32) :
    readString .big ((if extra then word .big (2 ^ 32 - 1) else []) ++
        (if extra then stringBytes .big (List.replicate 7 255)
          else word .big (2 ^ 32 - 1) ++ [255, 255, 255, 0]) ++ rest) = .error corruptFile := by
  cases extra with
  | true =>
    rw [if_pos rfl, append_assoc]
    apply readString_short .big _ _ (by decide)
    simp only [if_true, length_append, stringBytes_length, length_replicate, stringWords]
    omega
  | false =>
    rw [if_neg (by simp), nil_append, if_neg (by simp), append_assoc]
    apply readString_short .big _ _ (by decide)
    simp only [length_append, length_cons, length_nil]
    omega

/-- The GCNO reader then gives up, as it does on a version without a digit. -/
theorem readFunction_misread (format : self.format = .big)
    (wrong : self.versionAbove4 ≠ .ok extra) (rest : List UInt8)
    (short : rest.length + 100 < 2 ^ 32) :
    ∃ failure, GcnoParser.readFunction self (wideFunction.functionPayload .big extra ++ rest) =
      .error failure := by
  unfold GcnoParser.readFunction GcnoFunction.functionPayload
  rw [format, append_assoc, append_assoc,
    bind_ok (readInt_word .big _ _ wideFunction_valid.ident),
    bind_ok (readInt_word .big _ _ wideFunction_valid.lineChecksum)]
  unfold GcnoParser.readExtraChecksum
  rw [format]
  have tail : (stringBytes .big wideFunction.srcFileName ++
      word .big wideFunction.firstLineNumber ++ rest).length < 2 ^ 32 := by
    simp only [length_append, stringBytes_length, word_length, wideFunction, stringWords,
      length_nil]
    omega
  have misread := wideName_misread extra _ tail
  cases version : self.versionAbove4 with
  | error failure => exact ⟨failure, rfl⟩
  | ok above =>
    refine ⟨corruptFile, ?_⟩
    cases above with
    | true =>
      obtain rfl : extra = false := by simpa [version, eq_comm] using wrong
      simp only [Bool.false_eq_true, if_false, nil_append, append_assoc] at misread ⊢
      rw [show wideFunction.name = List.replicate 7 255 from rfl, wideName_bytes]
      simp only [append_assoc]
      rw [bind_ok (by
        rw [bind_ok (readInt_word .big 2 _ (by decide))]
        rfl), bind_error misread]
    | false =>
      obtain rfl : extra = true := by simpa [version, eq_comm] using wrong
      simp only [if_true, append_assoc] at misread ⊢
      rw [bind_ok rfl]
      exact bind_error misread

theorem readFunctionGcda_misread (summary : FileSummary)
    (present : (summary.get? 1).isSome = true) (format : self.format = .big)
    (wrong : self.versionAbove4 ≠ .ok extra) {length : Nat} (long : 4 < length) :
    ∃ failure, GcdaParser.readFunction self length summary
      (GcdaRecord.functionPayload .big extra 1 0 (2 ^ 32 - 1) (some (List.replicate 7 255)) ++
        []) = .error failure := by
  have misread := wideName_misread extra [] (by decide)
  unfold GcdaParser.readFunction GcdaParser.readChecksums
  rw [GcdaRecord.functionPayload, format, append_assoc, append_assoc,
    bind_ok (readInt_word .big 1 _ (by decide)), if_pos present]
  cases version : self.versionAbove4 with
  | error failure =>
    exact ⟨failure, bind_error (by rw [bind_ok (readInt_word .big 0 _ (by decide))]; rfl)⟩
  | ok above =>
    refine ⟨corruptFile, ?_⟩
    cases above with
    | true =>
      obtain rfl : extra = false := by simpa [version, eq_comm] using wrong
      simp only [Bool.false_eq_true, if_false, nil_append, append_assoc,
        wideName_bytes] at misread ⊢
      rw [bind_ok (by
        rw [bind_ok (readInt_word .big 0 _ (by decide)),
          bind_ok (readInt_word .big 2 _ (by decide))]
        rfl), if_pos long]
      exact bind_error misread
    | false =>
      obtain rfl : extra = true := by simpa [version, eq_comm] using wrong
      simp only [if_true, append_assoc] at misread ⊢
      rw [bind_ok (by
        rw [bind_ok (readInt_word .big 0 _ (by decide))]
        rfl), if_pos (by omega)]
      exact bind_error misread

/-- A GCNO parser that reads the wide function in big-endian order has the right
idea of its checksums. -/
theorem above4_of_parse (summary : FileSummary) (format : self.format = .big)
    (parsed : (GcnoParser.mk self (wideFunction.encode .big extra)).parse = .ok summary) :
    self.versionAbove4 = .ok extra := by
  have small : (wideFunction.functionPayload .big extra).length / 4 < 2 ^ 32 := by
    cases extra <;> decide
  rw [GcnoParser.parse_eq_run, GcnoFunction.encode, GcnoParser.run_eq, format,
    readHeader_record .big GcnoParser.isTag _ _ _ (by decide) (by decide) small] at parsed
  simp only [GcnoParser.readRecord, if_true] at parsed
  by_contra wrong
  rw [(readFunction_misread format wrong _ ?_).choose_spec] at parsed
  · cases parsed
  · decide

theorem above4_of_parseGcda (before after : FileSummary)
    (present : (before.get? 1).isSome = true) (format : self.format = .big)
    (parsed : (GcdaParser.mk self (wideRecords.flatMap (GcdaRecord.encode .big extra))).parse
      before = (.ok (), after)) :
    self.versionAbove4 = .ok extra := by
  have small : (GcdaRecord.functionPayload .big extra 1 0 (2 ^ 32 - 1)
      (some (List.replicate 7 255))).length / 4 < 2 ^ 32 := by
    cases extra <;> decide
  rw [GcdaParser.parse_eq_run, wideRecords, flatMap_cons, flatMap_nil, GcdaRecord.encode,
    GcdaParser.run_eq, format,
    readHeader_record .big GcdaParser.isTag _ _ _ (by decide) (by decide) small] at parsed
  simp only [GcdaParser.readRecord, if_true] at parsed
  by_contra wrong
  rw [(readFunctionGcda_misread before present format wrong ?_).choose_spec] at parsed
  · cases parsed
  · cases extra <;> decide

end Misreading

section Characterization

variable (first third fourth : UInt8) (digit checksum : Nat)

/-- The third character is what the digit test sees in a big-endian file. -/
theorem orderFree_of_above4 (same : storedChecksum .little checksum = storedChecksum .big checksum)
    (tested : GcovStream.versionAbove4 ⟨.big,
      versionBytes .big (versionOf first third fourth digit), storedChecksum .big checksum⟩ =
        .ok (decide (digit > 4))) :
    OrderFree digit third checksum := by
  obtain ⟨other, small, character, side⟩ := GcovStream.versionAbove4_ok _ _ tested
  exact ⟨same.symm, other, small, character, by simpa using side⟩

/-- The header decides whether gcov files can be read in either byte order. For a
header with a version digit and a checksum, all big-endian GCNO files are read as
their little-endian twins, and all GCDA files are, exactly when the header survives
being read in the wrong order. -/
theorem byteOrder_free_iff (isDigit : digit < 10) (checksumFits : checksum < 2 ^ 32) :
    ((∀ functions : List GcnoFunction, functions ≠ [] → (∀ source ∈ functions, source.Valid) →
        (functions.map GcnoFunction.ident).Nodup →
        SameGcno
          (encodeGcno .little (versionOf first third fourth digit) checksum (decide (digit > 4))
            functions)
          (encodeGcno .big (versionOf first third fourth digit) checksum (decide (digit > 4))
            functions)) ↔ OrderFree digit third checksum) ∧
    ((∀ summary : FileSummary, ∀ records : List GcdaRecord, summary.FromGcno →
        (∀ entry ∈ records, entry.Valid) → GcdaFits summary none records →
        SameGcda summary
          (encodeGcda .little (versionOf first third fourth digit) checksum (decide (digit > 4))
            records)
          (encodeGcda .big (versionOf first third fourth digit) checksum (decide (digit > 4))
            records)) ↔ OrderFree digit third checksum) := by
  refine ⟨⟨fun all => ?_, fun free functions nonempty valid distinct =>
      sameGcno_of_orderFree functions isDigit checksumFits nonempty valid distinct free⟩,
    ⟨fun all => ?_, fun free summary records source valid fits =>
      sameGcda_of_orderFree summary records isDigit checksumFits source valid fits free⟩⟩
  · obtain ⟨left, right, openedLeft, openedRight, sameChecksum, sameParse⟩ :=
      all [wideFunction] (by simp) (by simpa using wideFunction_valid) (by simp)
    rw [encodeGcno, GcnoParser.init_gcovFile .little _ checksum _ rfl checksumFits] at openedLeft
    rw [encodeGcno, GcnoParser.init_gcovFile .big _ checksum _ rfl checksumFits] at openedRight
    cases openedLeft
    cases openedRight
    refine orderFree_of_above4 first third fourth digit checksum sameChecksum ?_
    rw [GcnoParser.parse_functions _ _ _
      (above4_little first third fourth digit checksum isDigit) (by simp)
      (by simpa using wideFunction_valid) (by simp)] at sameParse
    exact above4_of_parse _ rfl (by simpa using sameParse.symm)
  · obtain ⟨left, right, openedLeft, openedRight, sameChecksum, sameParse⟩ :=
      all (gcnoSummary [wideFunction]) wideRecords wideFunction_fromGcno wideRecords_valid
        wideRecords_fits
    rw [encodeGcda, GcdaParser.init_gcovFile .little _ checksum _ rfl checksumFits] at openedLeft
    rw [encodeGcda, GcdaParser.init_gcovFile .big _ checksum _ rfl checksumFits] at openedRight
    cases openedLeft
    cases openedRight
    refine orderFree_of_above4 first third fourth digit checksum sameChecksum ?_
    rw [GcdaParser.parse_records _ _ wideRecords (gcnoSummary [wideFunction])
      (gcnoSummary [wideFunction]) (above4_little first third fourth digit checksum isDigit)
      wideRecords_valid wideFunction_fromGcno.parsed (FileSummary.Evolves.refl _)
      wideRecords_fits] at sameParse
    exact above4_of_parseGcda _ _ rfl rfl sameParse.symm

end Characterization

/-- A header that survives: the checksum is 0 and the version is `*884`. -/
theorem orderFree_loopFunction :
    SameGcno
      (encodeGcno .little (versionOf 42 56 52 8) 0 (decide (8 > 4)) [loopFunction])
      (encodeGcno .big (versionOf 42 56 52 8) 0 (decide (8 > 4)) [loopFunction]) :=
  (byteOrder_free_iff 42 56 52 8 0 (by decide) (by decide)).1.mpr
    ⟨by decide, 8, by decide, rfl, by decide⟩ [loopFunction] (by simp)
    (by simpa using loopFunction_valid) (by simp)

/-- The version `*804` and the checksum 9 do not survive: the big-endian file is
opened with the checksum `0x09000000`. -/
theorem loopFunction_order_matters :
    ¬SameGcno
      (encodeGcno .little (versionOf 42 48 52 8) 9 (decide (8 > 4)) [loopFunction])
      (encodeGcno .big (versionOf 42 48 52 8) 9 (decide (8 > 4)) [loopFunction]) := by
  rintro ⟨left, right, openedLeft, openedRight, sameChecksum, _⟩
  rw [encodeGcno, GcnoParser.init_gcovFile .little _ 9 _ rfl (by decide)] at openedLeft
  rw [encodeGcno, GcnoParser.init_gcovFile .big _ 9 _ rfl (by decide)] at openedRight
  cases openedLeft
  cases openedRight
  exact absurd sameChecksum (by decide)

end Vts.Coverage
