import Vts.Coverage.Flow
import Vts.Coverage.GcdaParser
import Vts.Coverage.GcnoGraph
import Vts.Coverage.GcovFormat

/-!
# GCDA files and what they do to a summary

A GCDA file is a sequence of records: functions, counters, object and program
summaries, and words that belong to no known record. `encodeGcda` writes the file
in either byte order and `applyRecords` says, without reference to the stream,
what the file does to a summary: each counter record stores its values into the
current function and resolves it.

`parse_records` proves that the parser does exactly this, for every file whose
functions are in the summary and whose counter records have one value for each
counted arc.
-/

namespace Vts.Coverage

open Lib Lib.WordCodec List
open Python (Exception)

/-- A record of a GCDA file. A function may repeat its name. -/
inductive GcdaRecord where
  | skipped (value : Nat)
  | object (payload : List Nat)
  | program (payload : List Nat)
  | function (ident lineChecksum configChecksum : Nat) (name : Option (List UInt8))
  | counters (values : List Nat)
deriving DecidableEq

/-! ## Storing counters -/

variable (func : FunctionSummary)

namespace FunctionSummary

/-- The arcs with a counter in the file, in the order of the counters. -/
def countedArcs (func : FunctionSummary) : List Nat :=
  func.exitArcs.filter (fun arc => (func.arc arc).counted)

/-- All counters of a record are stored. -/
def storeCounts (func : FunctionSummary) (values : List Nat) : FunctionSummary :=
  (func.countedArcs.zip values).foldl (fun current pair => current.setCount pair.1 pair.2) func

theorem setCount_sameGraph (arc : Nat) (count : Int) : SameGraph func (func.setCount arc count) :=
  setArc_sameGraph func arc count true

section

variable (pairs : List (Nat × Nat)) (func : FunctionSummary)

theorem setCounts_sameGraph :
    SameGraph func (pairs.foldl (fun current pair => current.setCount pair.1 pair.2) func) := by
  induction pairs generalizing func with
  | nil => exact SameGraph.refl func
  | cons pair others ih =>
    exact (setCount_sameGraph func pair.1 pair.2).trans (ih _)

theorem storeCounts_sameGraph (values : List Nat) : SameGraph func (func.storeCounts values) :=
  setCounts_sameGraph _ func

theorem setCounts_evolves :
    Evolves func (pairs.foldl (fun current pair => current.setCount pair.1 pair.2) func) := by
  induction pairs generalizing func with
  | nil => exact Evolves.refl func
  | cons pair others ih =>
    exact (setArc_evolves func pair.1 pair.2 true).trans (ih _)

end

theorem storeCounts_evolves (values : List Nat) : Evolves func (func.storeCounts values) :=
  setCounts_evolves _ func

theorem resolveBlocks_evolves : Evolves func func.resolveBlocks := by
  have lists (block : Nat) :
      (func.resolveBlocks.block block).lines = (func.block block).lines ∧
        (func.resolveBlocks.block block).entryArcs = (func.block block).entryArcs ∧
        (func.resolveBlocks.block block).exitArcs = (func.block block).exitArcs := by
    by_cases stored : block < func.blocks.length
    · rw [resolveBlocks_block func stored]
      exact ⟨rfl, rfl, rfl⟩
    · have outside : func.blocks.length ≤ block := Nat.le_of_not_lt stored
      rw [block_of_length_le func outside,
        block_of_length_le _ (by simpa [resolveBlocks] using outside)]
      exact ⟨rfl, rfl, rfl⟩
  refine ⟨rfl, rfl, rfl, rfl, by simp [resolveBlocks], fun block => (lists block).1,
    fun block => (lists block).2.1, fun block => ?_, fun block arc member _ => ?_, rfl,
    fun _ => rfl, fun _ => rfl, fun _ => rfl, fun _ => rfl, fun _ => rfl⟩
  · rw [(lists block).2.2]
  · rwa [(lists block).2.2]

/-- `Resolve` leads to a later state, whatever it returns. -/
theorem resolve_snd_evolves : Evolves func func.resolve.2 := by
  unfold resolve
  split
  · exact (resolveArcs_evolves func).trans (resolveBlocks_evolves _)
  · exact resolveArcs_evolves func

theorem Evolves.counted {before after : FunctionSummary} (evolves : Evolves before after)
    (arc : Nat) : (after.arc arc).counted = (before.arc arc).counted := by
  simp only [ArcSummary.counted, evolves.fake, evolves.onTree]

/-- A counted arc is not fake, so it is never dropped. -/
theorem counted_real {arc : ArcSummary} (counted : arc.counted = true) : arc.dropped = false := by
  simp only [ArcSummary.counted, Bool.and_eq_true, Bool.not_eq_true'] at counted
  simp [ArcSummary.dropped, counted.1]

/-- The counted arcs of a function stay the same, in the same order. -/
theorem Evolves.countedArcs_eq {before after : FunctionSummary} (evolves : Evolves before after)
    (graph : before.WellFormed) : after.countedArcs = before.countedArcs := by
  have atBlock (block : Nat) :
      (after.block block).exitArcs.filter (fun arc => (after.arc arc).counted) =
        (before.block block).exitArcs.filter (fun arc => (before.arc arc).counted) := by
    apply sublist_eq_filter
    · exact filter_sublist.trans (evolves.exitSublist block)
    · exact graph.exitNodup block
    · intro arc member
      rw [← evolves.counted]
      exact (mem_filter.mp member).2
    · intro arc member counted
      refine mem_filter.mpr ⟨evolves.exitKept block arc member (counted_real counted), ?_⟩
      rwa [evolves.counted]
  have blockwise (func : FunctionSummary) : func.countedArcs =
      (List.range func.blocks.length).flatMap (fun block =>
        (func.block block).exitArcs.filter (fun arc => (func.arc arc).counted)) := by
    rw [countedArcs, exitArcs, filter_flatMap]
    conv_lhs => rw [func.blocks_eq_map]
    rw [flatMap_map]
  rw [blockwise after, blockwise before, evolves.blocksLength]
  simp only [atBlock]

end FunctionSummary

/-! ## Updated summaries -/

namespace FileSummary

/-- A later state of a summary: the same keys in the same order, each with a later
state of its function. -/
def Evolves (before after : FileSummary) : Prop :=
  List.Forall₂ (fun old new => new.1 = old.1 ∧ old.2.Evolves new.2)
    before.functions after.functions

theorem Evolves.refl (summary : FileSummary) : Evolves summary summary :=
  forall₂_same.mpr fun entry _ => ⟨rfl, FunctionSummary.Evolves.refl entry.2⟩

theorem Evolves.trans {first second third : FileSummary} (left : Evolves first second)
    (right : Evolves second third) : Evolves first third := by
  unfold Evolves at *
  generalize first.functions = olds, second.functions = middles, third.functions = news at *
  induction left generalizing news with
  | nil => exact right
  | cons head _ ih =>
    cases right with
    | cons next rest =>
      exact .cons ⟨next.1.trans head.1, head.2.trans next.2⟩ (ih _ rest)

theorem Evolves.keys {before after : FileSummary} (evolves : Evolves before after) :
    after.functions.map Prod.fst = before.functions.map Prod.fst := by
  unfold Evolves at evolves
  generalize before.functions = olds, after.functions = news at evolves
  induction evolves with
  | nil => rfl
  | cons head _ ih =>
    rw [map_cons, map_cons, ih, head.1]

section Related

variable {relation : FunctionSummary → FunctionSummary → Prop} {before after : FileSummary}

/-- Summaries that are related entry by entry are related under each key. -/
theorem get?_related (related : List.Forall₂ (fun old new => new.1 = old.1 ∧ relation old.2 new.2)
      before.functions after.functions) (ident : Nat) :
    (before.get? ident = none ∧ after.get? ident = none) ∨
    ∃ old new, before.get? ident = some old ∧ after.get? ident = some new ∧ relation old new := by
  unfold FileSummary.get?
  generalize before.functions = olds, after.functions = news at related
  induction related with
  | nil => exact .inl ⟨rfl, rfl⟩
  | @cons old new olds news head _ ih =>
    obtain ⟨oldKey, oldFunc⟩ := old
    obtain ⟨newKey, newFunc⟩ := new
    obtain ⟨sameKey, later⟩ := head
    simp only at sameKey later
    subst sameKey
    rw [lookup_cons, lookup_cons]
    cases ident == newKey with
    | true => exact .inr ⟨oldFunc, newFunc, rfl, rfl, later⟩
    | false => exact ih

/-- Writing a function back keeps the relation if the new function is related. -/
theorem insert_related {ident : Nat} {old new : FunctionSummary}
    (distinct : (before.functions.map Prod.fst).Nodup)
    (related : List.Forall₂ (fun old new => new.1 = old.1 ∧ relation old.2 new.2)
      before.functions after.functions)
    (stored : before.get? ident = some old) (later : relation old new) :
    List.Forall₂ (fun old new => new.1 = old.1 ∧ relation old.2 new.2)
      before.functions (after.insert ident new).functions := by
  have present : (after.get? ident).isSome = true := by
    rcases get?_related related ident with ⟨absent, _⟩ | ⟨_, _, _, found, _⟩
    · rw [absent] at stored
      cases stored
    · simp [found]
  rw [insert, if_pos present]
  simp only [forall₂_map_right_iff]
  obtain ⟨length, pairs⟩ := forall₂_iff_zip.mp related
  refine forall₂_iff_zip.mpr ⟨length, fun {entry current} member => ?_⟩
  obtain ⟨sameKey, kept⟩ := pairs member
  by_cases same : current.1 = ident
  · have value : old = entry.2 := by
      have found := get?_of_mem before distinct (of_mem_zip member).1
      rw [← sameKey, same, stored] at found
      exact Option.some.inj found
    simp only [if_pos same]
    exact ⟨same.symm.trans sameKey, value ▸ later⟩
  · simp only [if_neg same]
    exact ⟨sameKey, kept⟩

end Related

/-- A present function has a later state under the same key, and no key is new. -/
theorem Evolves.get? {before after : FileSummary} (evolves : Evolves before after) (ident : Nat) :
    (before.get? ident = none ∧ after.get? ident = none) ∨
    ∃ old new, before.get? ident = some old ∧ after.get? ident = some new ∧ old.Evolves new :=
  get?_related evolves ident

/-- Writing a later state of a present function back. -/
theorem insert_evolves {summary : FileSummary} {ident : Nat} {func after : FunctionSummary}
    (distinct : (summary.functions.map Prod.fst).Nodup) (stored : summary.get? ident = some func)
    (later : func.Evolves after) : Evolves summary (summary.insert ident after) :=
  insert_related distinct (Evolves.refl summary) stored later

end FileSummary

/-! ## Encoding and effect of the records -/

namespace GcdaRecord

section Encoding

variable (order : ByteOrder)

/-- The payload of a function record. -/
def functionPayload (extra : Bool) (ident lineChecksum configChecksum : Nat)
    (name : Option (List UInt8)) : List UInt8 :=
  word order ident ++ (word order lineChecksum ++
    ((if extra then word order configChecksum else []) ++
      (match name with
        | none => []
        | some text => stringBytes order text)))

/-- The payload of a counter record: the low word of a counter stands first. -/
def counterPayload (values : List Nat) : List UInt8 :=
  values.flatMap (fun value => word order (value % 2 ^ 32) ++ word order (value / 2 ^ 32))

/-- The bytes of a record. The extra checksum word is written for versions above 4. -/
def encode (extra : Bool) : GcdaRecord → List UInt8
  | skipped value => word order value
  | object payload => record order GcdaParser.tagObject (words order payload)
  | program payload => record order GcdaParser.tagProgram (words order payload)
  | function ident lineChecksum configChecksum name => record order GcdaParser.tagFunction
      (functionPayload order extra ident lineChecksum configChecksum name)
  | counters values => record order GcdaParser.tagCounter (counterPayload order values)

end Encoding

/-- Every number fits its words, and what stands between records is not mistaken
for a tag. The parser looks for the next tag inside an object record. -/
def Valid : GcdaRecord → Prop
  | skipped value => value < 2 ^ 32 ∧ GcdaParser.isTag value = false
  | object payload => payload.length < 2 ^ 32 ∧
      ∀ value ∈ payload, value < 2 ^ 32 ∧ GcdaParser.isTag value = false
  | program payload => payload ≠ [] ∧ payload.length < 2 ^ 32 ∧ ∀ value ∈ payload, value < 2 ^ 32
  | function ident lineChecksum configChecksum name =>
      ident < 2 ^ 32 ∧ lineChecksum < 2 ^ 32 ∧ configChecksum < 2 ^ 32 ∧
        ∀ text ∈ name, GcovString text ∧ stringWords text + 4 < 2 ^ 32
  | counters values => 2 * values.length < 2 ^ 32 ∧ ∀ value ∈ values, value < 2 ^ 64

/-- The function that is current after a record. -/
def current (func : Option Nat) : GcdaRecord → Option Nat
  | function ident _ _ _ => some ident
  | _ => func

/-- A function record names a function of the summary, and a counter record has as
many values as the current function has counted arcs. -/
def Fits (summary : FileSummary) (func : Option Nat) : GcdaRecord → Prop
  | function ident _ _ _ => (summary.get? ident).isSome = true
  | counters values => ∃ ident object, func = some ident ∧ summary.get? ident = some object ∧
      values.length = object.countedArcs.length
  | _ => True

/-- What a record does to the summary, with the value that `Resolve` returns. -/
def apply (func : Option Nat) (summary : FileSummary) : GcdaRecord → Bool × FileSummary
  | counters values =>
    match func with
    | none => (true, summary)
    | some ident =>
      let resolved := (((summary.get? ident).getD default).storeCounts values).resolve
      (resolved.1, summary.insert ident resolved.2)
  | _ => (true, summary)

end GcdaRecord

/-- All records fit, each to the function that is current before it. -/
def GcdaFits (summary : FileSummary) : Option Nat → List GcdaRecord → Prop
  | _, [] => True
  | func, record :: rest =>
    record.Fits summary func ∧ GcdaFits summary (record.current func) rest

/-- What a file does to a summary: the first function that cannot be resolved ends
the parse. -/
def applyRecords : Option Nat → FileSummary → List GcdaRecord → Except Exception Unit × FileSummary
  | _, summary, [] => (.ok (), summary)
  | func, summary, record :: rest =>
    match record.apply func summary with
    | (false, after) => (.error GcdaParser.unresolvedCounts, after)
    | (true, after) => applyRecords (record.current func) after rest

/-- A whole GCDA file. -/
def encodeGcda (order : ByteOrder) (version : List UInt8) (checksum : Nat) (extra : Bool)
    (records : List GcdaRecord) : List UInt8 :=
  gcovFile order GcdaParser.magic version checksum
    (records.flatMap (GcdaRecord.encode order extra))

/-! ## Reading the records back -/

namespace GcdaParser

open FunctionSummary

variable {self : GcovStream}

section

variable {tag : Nat} {origin : FileSummary} {entry : GcdaRecord} (extra : Bool)
  (ident lineChecksum configChecksum : Nat) (name : Option (List UInt8))

theorem isTag_lt (known : isTag tag = true) : tag < 2 ^ 32 := by
  simp only [isTag, Bool.or_eq_true, beq_iff_eq] at known
  rcases known with ((rfl | rfl) | rfl) | rfl <;> decide

/-- `ReadCounts` takes one value for each counted arc and stores it there. -/
theorem readCounts_payload (arcs values : List Nat) (func : FunctionSummary) (rest : List UInt8)
    (length : values.length = (arcs.filter (fun arc => (func.arc arc).counted)).length)
    (fits : ∀ value ∈ values, value < 2 ^ 64) :
    readCounts self.format arcs func (GcdaRecord.counterPayload self.format values ++ rest) =
      (.ok rest, ((arcs.filter (fun arc => (func.arc arc).counted)).zip values).foldl
        (fun current pair => current.setCount pair.1 pair.2) func) := by
  induction arcs generalizing func values with
  | nil =>
    obtain rfl := eq_nil_of_length_eq_zero length
    rfl
  | cons arc others ih =>
    by_cases counted : (func.arc arc).counted = true
    · rw [filter_cons_of_pos (by simpa using counted)] at length ⊢
      obtain ⟨value, remaining, rfl⟩ := exists_cons_of_length_eq_add_one length
      have sameMarks : (fun other => ((func.setCount arc value).arc other).counted) =
          fun other => (func.arc other).counted :=
        funext fun other => (setArc_evolves func arc value true).counted other
      have bytes : GcdaRecord.counterPayload self.format (value :: remaining) ++ rest =
          word self.format (value % 2 ^ 32) ++ (word self.format (value / 2 ^ 32) ++
            (GcdaRecord.counterPayload self.format remaining ++ rest)) := by
        simp [GcdaRecord.counterPayload]
      rw [readCounts, if_pos counted, bytes, readInt64_words _ _ _ (fits value (by simp))]
      simp only
      rw [ih remaining (func.setCount arc value)
        (by rw [sameMarks]; simpa using length) (fun other member => fits other (by simp [member])),
        sameMarks]
      rfl
    · rw [filter_cons_of_neg (by simpa using counted)] at length ⊢
      rw [readCounts, if_neg counted]
      exact ih values func length fits

theorem skipWords_words (values : List Nat) (rest : List UInt8)
    (fits : ∀ value ∈ values, value < 2 ^ 32) :
    skipWords self.format values.length (words self.format values ++ rest) = .ok ((), rest) := by
  induction values with
  | nil => rfl
  | cons value others ih =>
    rw [words_cons, append_assoc, length_cons, skipWords,
      ByteReader.bind_ok (readInt_word self.format value _ (fits value (by simp)))]
    exact ih (fun other member => fits other (by simp [member]))

theorem run_words (values : List Nat) (func : Option Nat) (summary : FileSummary)
    (rest : List UInt8) (skipped : ∀ value ∈ values, value < 2 ^ 32 ∧ isTag value = false) :
    run self func summary (words self.format values ++ rest) = run self func summary rest := by
  have header : readHeader self.format isTag (words self.format values ++ rest) =
      readHeader self.format isTag rest := by
    induction values with
    | nil => rfl
    | cons value others ih =>
      obtain ⟨fits, unknown⟩ := skipped value (by simp)
      rw [words_cons, append_assoc, readHeader_skip self.format isTag value _ fits unknown,
        ih (fun other member => skipped other (by simp [member]))]
  rw [run_eq, header, ← run_eq]

theorem readFunction_payload (summary : FileSummary) (rest : List UInt8)
    (version : self.versionAbove4 = .ok extra)
    (valid : (GcdaRecord.function ident lineChecksum configChecksum name).Valid)
    (present : (summary.get? ident).isSome = true) :
    readFunction self ((GcdaRecord.functionPayload self.format extra ident lineChecksum
        configChecksum name).length / 4) summary
      (GcdaRecord.functionPayload self.format extra ident lineChecksum configChecksum name ++
        rest) = .ok (ident, rest) := by
  obtain ⟨identFits, lineFits, configFits, nameFits⟩ := valid
  have checksums (tail : List UInt8) : readChecksums self (word self.format lineChecksum ++
      ((if extra then word self.format configChecksum else []) ++ tail)) =
        .ok (if extra then 4 else 3, tail) := by
    rw [readChecksums, ByteReader.bind_ok (readInt_word self.format _ _ lineFits), version]
    cases extra with
    | true => exact ByteReader.bind_ok (readInt_word self.format _ tail configFits)
    | false => rfl
  have length : (GcdaRecord.functionPayload self.format extra ident lineChecksum
      configChecksum name).length / 4 = (if extra then 3 else 2) +
        (match name with
          | none => 0
          | some text => stringWords text + 1) := by
    cases extra <;> cases name <;>
      simp only [GcdaRecord.functionPayload, length_append, word_length, length_nil,
        stringBytes_length, if_true, Bool.false_eq_true, if_false] <;> omega
  rw [length, readFunction]
  simp only [GcdaRecord.functionPayload, append_assoc]
  rw [ByteReader.bind_ok (readInt_word self.format _ _ identFits), if_pos present,
    ByteReader.bind_ok (checksums _)]
  cases name with
  | none =>
    have enough : ¬(if extra then 4 else 3) < (if extra then 3 else 2) + 0 := by
      cases extra <;> decide
    rw [if_neg enough]
    rfl
  | some text =>
    have more : (if extra then 4 else 3) < (if extra then 3 else 2) + (stringWords text + 1) := by
      cases extra <;> simp only [stringWords, if_true, Bool.false_eq_true, if_false] <;> omega
    simp only [if_pos more]
    rw [ByteReader.bind_ok (readString_stringBytes self.format text rest (nameFits text rfl).1)]
    rfl

theorem run_record {payload : List UInt8} (rest : List UInt8) (func : Option Nat)
    (summary : FileSummary) (known : isTag tag = true) (lengthFits : payload.length / 4 < 2 ^ 32) :
    run self func summary (record self.format tag payload ++ rest) =
      match readRecord self tag (payload.length / 4) func summary (payload ++ rest) with
      | (.error failure, after) => (.error failure, after)
      | (.ok (next, remaining), after) => run self next after remaining := by
  have header := readHeader_record self.format isTag tag payload rest known (isTag_lt known)
    lengthFits
  have unfolded := @run_eq self func summary (record self.format tag payload ++ rest)
  rw [header] at unfolded
  exact unfolded

theorem counterPayload_length (values : List Nat) :
    (GcdaRecord.counterPayload self.format values).length = 8 * values.length := by
  induction values with
  | nil => rfl
  | cons value others ih =>
    simp only [GcdaRecord.counterPayload, flatMap_cons, length_append, word_length,
      length_cons] at ih ⊢
    omega

theorem functionPayload_lt
    (valid : (GcdaRecord.function ident lineChecksum configChecksum name).Valid) :
    (GcdaRecord.functionPayload self.format extra ident lineChecksum configChecksum
      name).length / 4 < 2 ^ 32 := by
  obtain ⟨_, _, _, nameFits⟩ := valid
  cases name with
  | none =>
    cases extra <;> simp [GcdaRecord.functionPayload]
  | some text =>
    have fits := (nameFits text rfl).2
    cases extra <;>
      simp only [GcdaRecord.functionPayload, length_append, word_length, length_nil,
        stringBytes_length, if_true, Bool.false_eq_true, if_false] <;> omega

theorem run_encoded (entry : GcdaRecord) (func : Option Nat) (summary : FileSummary)
    (rest : List UInt8) (version : self.versionAbove4 = .ok extra) (valid : entry.Valid)
    (fits : entry.Fits summary func) :
    run self func summary (entry.encode self.format extra ++ rest) =
      match entry.apply func summary with
      | (false, after) => (.error unresolvedCounts, after)
      | (true, after) => run self (entry.current func) after rest := by
  cases entry with
  | skipped value =>
    have one := @run_words self [value] func summary rest
      (by simpa [GcdaRecord.Valid] using valid)
    simpa [GcdaRecord.encode, GcdaRecord.apply, GcdaRecord.current] using one
  | object payload =>
    rw [GcdaRecord.encode, run_record rest func summary (by decide) (by
      rw [words_length, Nat.mul_div_cancel_left _ (by decide)]
      exact valid.1)]
    rw [readRecord, if_neg (by decide), if_neg (by decide), if_pos rfl]
    exact run_words payload func summary rest valid.2
  | program payload =>
    obtain ⟨nonempty, lengthFits, wordsFit⟩ := valid
    have count : (words self.format payload).length / 4 = payload.length := by
      rw [words_length, Nat.mul_div_cancel_left _ (by decide)]
    have positive := length_pos_iff.mpr nonempty
    rw [GcdaRecord.encode, run_record rest func summary (by decide) (by rwa [count]), count,
      readRecord, if_neg (by decide), if_neg (by decide), if_neg (by decide),
      show 1 + (payload.length - 1) = payload.length by omega,
      skipWords_words payload rest wordsFit]
    rfl
  | function ident lineChecksum configChecksum name =>
    rw [GcdaRecord.encode, run_record rest func summary (by decide)
      (functionPayload_lt extra ident lineChecksum configChecksum name valid), readRecord,
      if_pos rfl, readFunction_payload extra ident lineChecksum configChecksum name summary rest
        version valid fits]
    rfl
  | counters values =>
    obtain ⟨ident, object, rfl, stored, length⟩ := fits
    have count : (GcdaRecord.counterPayload self.format values).length / 4 =
        2 * values.length := by
      rw [counterPayload_length]
      omega
    rw [GcdaRecord.encode, run_record rest _ summary (by decide) (by rw [count]; exact valid.1),
      readRecord, if_neg (by decide), if_pos rfl]
    simp only [readCounters, GcdaRecord.apply, stored, Option.getD_some]
    have counted : readCounts self.format object.exitArcs object
        (GcdaRecord.counterPayload self.format values ++ rest) =
        (.ok rest, object.storeCounts values) :=
      readCounts_payload object.exitArcs values object rest length valid.2
    simp only [counted]
    generalize (object.storeCounts values).resolve = outcome
    obtain ⟨succeeded, resolved⟩ := outcome
    cases succeeded <;> rfl

section

variable {summary : FileSummary} {func : Option Nat} (parsed : origin.Parsed)
  (evolves : origin.Evolves summary) (fits : entry.Fits origin func)
include parsed evolves fits

/-- Whether a record fits does not change while the summary is updated. -/
theorem fits_evolves : entry.Fits summary func := by
  cases entry with
  | skipped value | object value | program value => trivial
  | function ident lineChecksum configChecksum name =>
    rcases evolves.get? ident with ⟨absent, _⟩ | ⟨old, new, _, stored, _⟩
    · simp [GcdaRecord.Fits, absent] at fits
    · simp [GcdaRecord.Fits, stored]
  | counters values =>
    obtain ⟨ident, object, current, stored, length⟩ := fits
    rcases evolves.get? ident with ⟨absent, _⟩ | ⟨old, new, before, after, later⟩
    · rw [absent] at stored
      cases stored
    · rw [stored] at before
      obtain rfl := Option.some.inj before
      refine ⟨ident, new, current, after, ?_⟩
      rw [length, later.countedArcs_eq (parsed.pristine _ (FileSummary.mem_of_get? stored)).graph]

/-- A record leads to a later state of the summary. -/
theorem apply_evolves : origin.Evolves (entry.apply func summary).2 := by
  cases entry with
  | skipped value | object value | program value => exact evolves
  | function ident lineChecksum configChecksum name => exact evolves
  | counters values =>
    obtain ⟨ident, object, rfl, stored, _⟩ := fits
    rcases evolves.get? ident with ⟨absent, _⟩ | ⟨old, new, before, after, later⟩
    · rw [absent] at stored
      cases stored
    · simp only [GcdaRecord.apply, after, Option.getD_some]
      refine evolves.trans (FileSummary.insert_evolves ?_ after
        ((FunctionSummary.storeCounts_evolves new values).trans
          (FunctionSummary.resolve_snd_evolves _)))
      rw [evolves.keys]
      exact parsed.distinct

end

end

/-- All records of a file that fits the summary it was written for. -/
theorem run_records (extra : Bool) (records : List GcdaRecord) (func : Option Nat)
    (origin summary : FileSummary) (version : self.versionAbove4 = .ok extra)
    (valid : ∀ entry ∈ records, entry.Valid) (parsed : origin.Parsed)
    (evolves : origin.Evolves summary) (fits : GcdaFits origin func records) :
    run self func summary (records.flatMap (GcdaRecord.encode self.format extra)) =
      applyRecords func summary records := by
  induction records generalizing func summary with
  | nil =>
    rw [run_eq, flatMap_nil, readHeader_nil]
    rfl
  | cons entry others ih =>
    obtain ⟨first, rest⟩ := fits
    rw [flatMap_cons, run_encoded extra entry func summary _ version (valid entry (by simp))
      (fits_evolves parsed evolves first), applyRecords]
    have later := apply_evolves parsed evolves first
    generalize entry.apply func summary = result at later
    obtain ⟨resolves, after⟩ := result
    cases resolves with
    | false => rfl
    | true =>
      exact ih _ _ (fun other member => valid other (by simp [member])) later rest

theorem init_gcovFile (order : ByteOrder) (version : List UInt8) (checksum : Nat)
    (body : List UInt8) (four : version.length = 4) (checksumFits : checksum < 2 ^ 32) :
    GcdaParser.init (gcovFile order magic version checksum body) =
      .ok ⟨⟨order, versionBytes order version, storedChecksum order checksum⟩, body⟩ := by
  rw [GcdaParser.init, GcovStream.init_gcovFile order magic version checksum body (by decide)
    (by decide) four checksumFits]

/-- The parser does what the records say, in the byte order the constructor found. -/
theorem parse_records (header : GcovStream) (extra : Bool) (records : List GcdaRecord)
    (origin summary : FileSummary) (version : header.versionAbove4 = .ok extra)
    (valid : ∀ entry ∈ records, entry.Valid) (parsed : origin.Parsed)
    (evolves : origin.Evolves summary) (fits : GcdaFits origin none records) :
    (GcdaParser.mk header (records.flatMap (GcdaRecord.encode header.format extra))).parse
        summary = applyRecords none summary records := by
  rw [parse_eq_run]
  exact run_records extra records none origin summary version valid parsed evolves fits

end GcdaParser

end Vts.Coverage
