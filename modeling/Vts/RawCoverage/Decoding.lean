import Mathlib.Tactic.IntervalCases
import Vts.Coverage.RecordStream
import Vts.RawCoverage.Termination

/-!
# The checksums of a gcda file

From a well-formed gcda file of either byte order `Parse` takes the second payload word of every
function record, whatever part of the file the buffer shows when it comes to it.
-/

namespace Vts.RawCoverage

open BitVec hiding append_assoc cons_append

open Lib Lib.WordCodec List
open Coverage (GcovRecord word words words_append words_nil words_cons words_length record)

/-! ## Words in either byte order -/

/-- A word of four bytes, least significant first. -/
def ofFour (first second third fourth : BitVec 8) : Unsigned := fourth ++ third ++ second ++ first

section

variable (first : BitVec 8) (order : ByteOrder) (value : Nat) (second third fourth : BitVec 8)

theorem getLsbD_ofFour (place : Nat) :
    (ofFour first second third fourth).getLsbD place =
      if place < 8 then first.getLsbD place
      else if place < 16 then second.getLsbD (place - 8)
      else if place < 24 then third.getLsbD (place - 16)
      else fourth.getLsbD (place - 24) := by
  unfold ofFour
  rw [getLsbD_append, getLsbD_append, getLsbD_append, Nat.sub_sub, Nat.sub_sub]
  by_cases inFirst : place < 8
  · rw [if_pos inFirst, if_pos inFirst]
  · rw [if_neg inFirst, if_neg inFirst]
    by_cases inSecond : place < 16
    · rw [if_pos inSecond, if_pos (by omega)]
    · rw [if_neg inSecond, if_neg (by omega)]
      by_cases inThird : place < 24
      · rw [if_pos inThird, if_pos (by omega)]
      · rw [if_neg inThird, if_neg (by omega)]

theorem swap_ofFour :
    swap (ofFour first second third fourth) = ofFour fourth third second first := by
  apply eq_of_getLsbD_eq
  intro place inside
  unfold swap
  simp only [getLsbD_ofFour, getLsbD_or, getLsbD_and, getLsbD_shiftLeft,
    getLsbD_ushiftRight]
  interval_cases place <;> simp

theorem ofFour_eq (first second third fourth : UInt8) :
    ofFour first.toBitVec second.toBitVec third.toBitVec fourth.toBitVec =
      BitVec.ofNat 32 (leValue [first, second, third, fourth]) := by
  have firstLt := first.toBitVec.isLt
  have secondLt := second.toBitVec.isLt
  have thirdLt := third.toBitVec.isLt
  have fourthLt := fourth.toBitVec.isLt
  apply eq_of_toNat_eq
  rw [ofFour, toNat_append, ← Nat.shiftLeft_add_eq_or_of_lt firstLt, toNat_append,
    ← Nat.shiftLeft_add_eq_or_of_lt secondLt, toNat_append,
    ← Nat.shiftLeft_add_eq_or_of_lt thirdLt, toNat_ofNat]
  simp only [leValue, Nat.shiftLeft_eq, ← UInt8.toNat_toBitVec]
  omega

/-- The byte order that the parser takes from the magic number. -/
def isSwapped (order : ByteOrder) : Bool := order = .big

theorem leValue_leBytes_word :
    BitVec.ofNat 32 (leValue (leBytes 4 value)) = BitVec.ofNat 32 value := by
  have byte : ∀ number : Nat, (UInt8.ofNat (number % 256)).toNat = number % 256 := by simp
  apply eq_of_toNat_eq
  simp only [leBytes, leValue, toNat_ofNat, byte]
  omega

theorem fromFile_word :
    (toWords (word order value)).map (FromFile (isSwapped order)) = [BitVec.ofNat 32 value] := by
  cases order with
  | little =>
    change [BitVec.ofNat 32 (leValue (leBytes 4 value))] = _
    rw [leValue_leBytes_word]
  | big =>
    rw [← leValue_leBytes_word, leBytes, leBytes, leBytes, leBytes, leBytes, ← ofFour_eq,
      ← swap_ofFour, ofFour_eq]
    rfl

theorem toWords_append (front rest : List UInt8) (four : front.length = 4) :
    toWords (front ++ rest) = toWords front ++ toWords rest := by
  match front, four with
  | [_, _, _, _], _ => rfl

theorem fileWords_words (values : List Nat) :
    fileWords (isSwapped order) (words order values) = values.map (BitVec.ofNat 32) := by
  induction values with
  | nil => rfl
  | cons value rest ih =>
    unfold fileWords at ih ⊢
    rw [words_cons, toWords_append _ _ (Coverage.word_length order value), map_append,
      fromFile_word, ih]
    rfl

end

/-! ## Files -/

/-- A gcda file: the last word may be zero. -/
def gcdaFile (order : ByteOrder) (version stamp : Nat) (records : List GcovRecord)
    (ending : List Nat) : List UInt8 :=
  words order [0x67636461, version, stamp] ++ (GcovRecord.encode order records ++ words order ending)

/-- The words of some records. -/
def recordWords (records : List GcovRecord) : List Nat :=
  records.flatMap fun entry => entry.tag :: entry.payload.length :: entry.payload

section

variable (order : ByteOrder) (version stamp : Nat) (records : List GcovRecord) (ending : List Nat)

theorem encode_eq : GcovRecord.encode order records = words order (recordWords records) := by
  induction records with
  | nil => rfl
  | cons entry rest ih =>
    rw [GcovRecord.encode_cons, GcovRecord.record_words, ih]
    change _ = words order (entry.tag :: (entry.body ++ recordWords rest))
    rw [words_cons, words_append, append_assoc]

theorem gcdaFile_words :
    gcdaFile order version stamp records ending =
      words order ([0x67636461, version, stamp] ++ (recordWords records ++ ending)) := by
  rw [gcdaFile, encode_eq, ← words_append, ← words_append]

theorem magicEndian_gcdaFile :
    magicEndian (gcdaFile order version stamp records ending) = some (isSwapped order) := by
  rw [gcdaFile_words, cons_append, words_cons, magicEndian,
    toWords_append _ _ (Coverage.word_length order _)]
  cases order with
  | little =>
    have first : toWords (word .little 0x67636461) = [0x67636461] := by decide
    rw [first]
    exact if_pos rfl
  | big =>
    have first : toWords (word .big 0x67636461) = [0x61646367] := by decide
    rw [first]
    have other : ¬(0x61646367 : Unsigned) = GCOV_DATA_MAGIC := by decide
    have turned : swap 0x61646367 = GCOV_DATA_MAGIC := by decide
    exact (if_neg other).trans (if_pos turned)

end

/-- The second payload words of the function records that have a payload. -/
def checksums (records : List GcovRecord) : List Unsigned :=
  (records.filter fun entry => entry.tag = GCOV_TAG_FUNCTION.toNat ∧ entry.payload ≠ []).map
    fun entry => BitVec.ofNat 32 (entry.payload.getD 1 0)

section

variable {words : List Unsigned} {position : Nat} {ending : List Nat} (entry : GcovRecord)

theorem ofNat_eq_iff {value : Nat} (fits : value < 2 ^ 32) (other : Unsigned) :
    BitVec.ofNat 32 value = other ↔ value = other.toNat := by
  rw [← toNat_inj, toNat_ofNat, Nat.mod_eq_of_lt fits]

/-- What a record adds to the result, as `recordFrom` finds it. -/
theorem checksums_single (notOne : entry.tag = GCOV_TAG_FUNCTION.toNat → entry.payload.length ≠ 1)
    (rest : List Nat) :
    (if BitVec.ofNat 32 entry.tag = GCOV_TAG_FUNCTION ∧ BitVec.ofNat 32 entry.payload.length ≠ 0 then
        [((entry.payload ++ rest).map (BitVec.ofNat 32))[1]?.getD 0]
      else []) = checksums [entry] := by
  have tag := ofNat_eq_iff entry.tagFits GCOV_TAG_FUNCTION
  have length := ofNat_eq_iff entry.lengthFits 0
  have empty : entry.payload.length = (0 : Unsigned).toNat ↔ entry.payload = [] :=
    length_eq_zero_iff
  simp only [ne_eq, length, empty, tag, checksums]
  by_cases isFunction : entry.tag = GCOV_TAG_FUNCTION.toNat ∧ ¬entry.payload = []
  · have long : 1 < entry.payload.length := by
      have some := length_pos_iff.mpr isFunction.2
      have two := notOne isFunction.1
      omega
    rw [if_pos isFunction, filter_cons_of_pos (by simpa using isFunction)]
    have second : ((entry.payload ++ rest).map (BitVec.ofNat 32))[1]?.getD 0 =
        BitVec.ofNat 32 (entry.payload.getD 1 0) := by
      rw [List.getElem?_map, List.getElem?_append_left long, getD_eq_getElem?_getD,
        List.getElem?_eq_getElem long]
      rfl
    rw [second]
    rfl
  · rw [if_neg isFunction, filter_cons_of_neg (by simpa using isFunction)]
    rfl

/-- A record that is read from its place: the next one is looked for right behind it. -/
theorem recordFrom_record {entry : GcovRecord} {rest : List Nat} (small : words.length < 2 ^ 30)
    (nonzero : entry.tag ≠ 0)
    (notOne : entry.tag = GCOV_TAG_FUNCTION.toNat → entry.payload.length ≠ 1)
    (here : words.drop position =
      (entry.tag :: entry.payload.length :: (entry.payload ++ rest)).map (BitVec.ofNat 32)) :
    recordFrom words position =
        some (checksums [entry], position + 2 + entry.payload.length) ∧
      words.drop (position + 2 + entry.payload.length) = rest.map (BitVec.ofNat 32) := by
  have size : words.length - position = entry.payload.length + rest.length + 2 := by
    have lengths := congrArg List.length here
    simpa using lengths
  have tag : words[position]?.getD 0 = BitVec.ofNat 32 entry.tag := by
    rw [← Nat.add_zero position, ← List.getElem?_drop, here]
    rfl
  have length : words[position + 1]?.getD 0 = BitVec.ofNat 32 entry.payload.length := by
    rw [← List.getElem?_drop, here]
    rfl
  have checksum : words[position + 3]?.getD 0 =
      ((entry.payload ++ rest).map (BitVec.ofNat 32))[1]?.getD 0 := by
    rw [← List.getElem?_drop, here]
    rfl
  have tagNonzero : BitVec.ofNat 32 entry.tag ≠ 0 := by
    rw [Ne, ofNat_eq_iff entry.tagFits]
    exact nonzero
  constructor
  · have next : (min (position + 2) words.length + entry.payload.length) % 2 ^ 30 =
        position + 2 + entry.payload.length := by omega
    unfold recordFrom
    dsimp only
    rw [tag, length, checksum, if_neg tagNonzero, checksums_single entry notOne, toNat_ofNat,
      Nat.mod_eq_of_lt entry.lengthFits, next]
  · rw [Nat.add_assoc, ← drop_drop, here, Nat.add_comm, ← map_drop]
    change ((entry.payload ++ rest).drop entry.payload.length).map _ = _
    rw [drop_left]

theorem recordFrom_end (ended : ending = [] ∨ ending = [0])
    (here : words.drop position = ending.map (BitVec.ofNat 32)) :
    recordFrom words position = none := by
  have tag : words[position]?.getD 0 = 0 := by
    rw [← Nat.add_zero position, ← List.getElem?_drop, here]
    rcases ended with rfl | rfl <;> rfl
  exact if_pos tag

/-! ## The run over the records -/

theorem checksums_cons (rest : List GcovRecord) :
    checksums (entry :: rest) = checksums [entry] ++ checksums rest := by
  unfold checksums
  rw [← map_append, ← filter_append]
  rfl

/-- Records with a tag, of which no function record has just one word. -/
def WellFormed (records : List GcovRecord) : Prop :=
  ∀ entry ∈ records, entry.tag ≠ 0 ∧
    (entry.tag = GCOV_TAG_FUNCTION.toNat → entry.payload.length ≠ 1)

/-- From the place of its first record on, the loop collects the checksums. -/
theorem run_decodes {bytes : List UInt8} {endian : Bool} {records : List GcovRecord}
    (ended : ending = [] ∨ ending = [0]) (wellFormed : WellFormed records) {body : Body}
    {window : Window} (standing : body.At bytes endian window)
    (small : Small (fileWords endian bytes) window)
    (here : (fileWords endian bytes).drop window.here =
      (recordWords records ++ ending).map (BitVec.ofNat 32)) (fuel : Nat)
    (enough : records.length < fuel) :
    ∃ left, Loop.run Body.iterate fuel body = some (.ok left) ∧
      left.self.result = body.self.result ++ checksums records := by
  induction records generalizing body window fuel with
  | nil =>
    obtain ⟨before, rfl⟩ := Nat.exists_eq_add_one_of_ne_zero (Nat.ne_zero_of_lt enough)
    have iteration := iterate_eq standing
    have position := small.recordAt_here
    rw [recordFrom_end ended here, Option.map_eq_none_iff] at position
    rw [position] at iteration
    obtain ⟨left, leaves, same⟩ := iteration
    refine ⟨left, ?_, ?_⟩
    · rw [Loop.run, leaves]
    · rw [same]
      exact (append_nil _).symm
  | cons entry rest ih =>
    obtain ⟨before, rfl⟩ := Nat.exists_eq_add_one_of_ne_zero (Nat.ne_zero_of_lt enough)
    have iteration := iterate_eq standing
    have position := small.recordAt_here
    have known := wellFormed entry mem_cons_self
    have others : WellFormed rest := fun other listed =>
      wellFormed other (mem_cons_of_mem _ listed)
    have first : recordWords (entry :: rest) ++ ending =
        entry.tag :: entry.payload.length :: (entry.payload ++ (recordWords rest ++ ending)) := by
      rw [← append_assoc]
      rfl
    rw [first] at here
    obtain ⟨record, restHere⟩ := recordFrom_record small.size known.1 known.2 here
    rw [record] at position
    obtain ⟨⟨added, place⟩, found, same⟩ := Option.map_eq_some_iff.mp position
    obtain ⟨rfl, next⟩ := Prod.mk.inj same
    rw [found] at iteration
    rw [← next] at restHere
    obtain ⟨after, goesOn, afterAt, result⟩ := iteration
    have fewer : rest.length < before := by
      rw [length_cons] at enough
      omega
    obtain ⟨left, runs, all⟩ := ih others afterAt
      (small.recordAt_small found) restHere before fewer
    refine ⟨left, ?_, ?_⟩
    · rw [Loop.run, goesOn]
      exact runs
    · rw [all, result, checksums_cons entry rest, append_assoc]

end

/-- `Open` succeeds on this file. -/
structure GcdaRawCoverageParser.CanOpen (fopen : String → Option (List UInt8))
    (parser : GcdaRawCoverageParser) (bytes : List UInt8) : Prop where
  named : parser.filename_ ≠ ""
  closed : parser.gcda_file_.file = none
  found : fopen parser.filename_ = some bytes

theorem GcdaRawCoverageParser.CanOpen.recordsOf {fopen : String → Option (List UInt8)}
    {parser : GcdaRawCoverageParser} {bytes : List UInt8} (canOpen : parser.CanOpen fopen bytes) :
    recordsOf fopen parser = (magicEndian bytes).map (·, bytes) := by
  have length : parser.filename_.length ≠ 0 := fun empty =>
    canOpen.named (String.length_eq_zero_iff.mp empty)
  unfold RawCoverage.recordsOf
  rw [canOpen.closed, canOpen.found, if_neg (by simp [canOpen.named])]
  rfl

/-- Every fuel above the number of records is enough for the checksums of a gcda file. -/
theorem Parse_decodes (order : ByteOrder) (version stamp : Nat) (records : List GcovRecord)
    (ending : List Nat) (ended : ending = [] ∨ ending = [0]) (wellFormed : WellFormed records)
    (small : (gcdaFile order version stamp records ending).length < 2 ^ 30)
    (fopen : String → Option (List UInt8)) (self : GcdaRawCoverageParser)
    (canOpen : self.CanOpen fopen (gcdaFile order version stamp records ending))
    (fuel : Nat) (enough : records.length < fuel) :
    ∃ after, self.Parse fopen fuel = some (.ok after) ∧ after.result = checksums records := by
  have opens := canOpen.recordsOf
  rw [magicEndian_gcdaFile] at opens
  have cases := Parse_cases fopen self
  rw [opens] at cases
  obtain ⟨start, nothing, standing, runs⟩ := cases
  have wordsOf := fileWords_words order ([0x67636461, version, stamp] ++ (recordWords records ++ ending))
  rw [← gcdaFile_words] at wordsOf
  have size : (fileWords (isSwapped order)
      (gcdaFile order version stamp records ending)).length < 2 ^ 30 := by
    rw [fileWords_length]
    omega
  have smallStart := (small_emptyAt size).nextWord.nextWord.nextWord
  have here := bodyPlace_here size
  have dropped : (fileWords (isSwapped order) (gcdaFile order version stamp records ending)).drop
      (bodyPlace (fileWords (isSwapped order)
        (gcdaFile order version stamp records ending))).here =
      (recordWords records ++ ending).map (BitVec.ofNat 32) := by
    rw [here, wordsOf, length_map]
    rfl
  obtain ⟨left, result, all⟩ :=
    run_decodes ended wellFormed standing smallStart dropped fuel enough
  refine ⟨{ left.self with gcda_file_ := left.self.gcda_file_.Close.2 }, ?_, ?_⟩
  · rw [runs, result]
    rfl
  · change left.self.result = _
    rw [all, nothing, nil_append]

/-- A function and a record without words. -/
def lightsRecords : List GcovRecord :=
  [⟨0x01000000, [7, 8, 9], by decide, by decide, by decide⟩,
    ⟨0x01a10000, [], by decide, GcovRecord.empty_lengthFits, GcovRecord.empty_payloadFits⟩]

theorem lightsRecords_decode : ∃ after, GcdaRawCoverageParser.Parse
      (fun _ => some (gcdaFile .big 0x34303670 5 lightsRecords [0])) 3
      ⟨"lights.gcda", GcovVar.zero, [], []⟩ = some (.ok after) ∧
    after.result = [8] :=
  Parse_decodes .big 0x34303670 5 lightsRecords [0] (.inr rfl)
    (by unfold WellFormed lightsRecords; decide) (by decide) _ _ ⟨by decide, rfl, rfl⟩ 3 (by decide)

end Vts.RawCoverage
