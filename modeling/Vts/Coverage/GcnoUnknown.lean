import Mathlib.Data.List.Perm.Subperm
import Vts.Coverage.GcnoGraph
import Vts.Coverage.RecordStream

/-!
# Unknown records in a GCNO file

What `GCNOParser.Parse` does with a record whose tag is none of its own. It does
not skip the record by its length: the search for a tag goes on with the length
word and the payload.

`skips_iff` says which records can stand between any two others without a change of
the result: the search meets no tag in them, or only the tag of blocks with the
length 0. For any other record there is a file of two records that it changes.
-/

namespace Vts.Coverage

open Lib Lib.WordCodec List ByteReader
open Python (Exception)

variable {length ident : Nat} {func next : FunctionSummary} {stream rest : List UInt8}
  {values : List Nat}

namespace GcnoParser

variable {self : GcovStream}

/-! ## The parser as a scan -/

theorem readExtraChecksum_takesWords : TakesWords self.format (readExtraChecksum self) := by
  unfold readExtraChecksum
  split
  · exact takesWords_fail _
  · exact readInt_takesWords.bind fun _ => takesWords_pure _
  · exact takesWords_pure _

theorem readFunction_takesWords : TakesWords self.format (readFunction self) :=
  readInt_takesWords.bind fun _ => readInt_takesWords.bind fun _ =>
    readExtraChecksum_takesWords.bind fun _ => readString_takesWords.bind fun _ =>
      readString_takesWords.bind fun _ => readInt_takesWords.bind fun _ =>
        takesWords_pure _

theorem readBlockFlags_takesWords (count : Nat) (blocks : List BlockSummary) :
    TakesWords self.format (readBlockFlags self count blocks) := by
  induction count generalizing blocks with
  | zero => exact takesWords_pure _
  | succ count ih =>
    exact readInt_takesWords.bind fun _ => ih _

theorem readArcPairs_takesWords (src count : Nat) (func : FunctionSummary) :
    TakesWords self.format (readArcPairs self src count func) := by
  induction count generalizing func with
  | zero => exact takesWords_pure _
  | succ count ih =>
    refine readInt_takesWords.bind fun dst => ?_
    split
    · exact readInt_takesWords.bind fun _ => ih _
    · exact takesWords_fail _

section

variable {tag count : Nat} {left : List Nat} {result : FileSummary}

theorem readLineNumbers_takesWords (count : Nat) (lines : List Nat) :
    TakesWords self.format (readLineNumbers self count lines) := by
  induction count generalizing lines with
  | zero => exact takesWords_pure _
  | succ count ih =>
    exact readInt_takesWords.bind fun _ => ih _

theorem readRecord_takesWords (tag length : Nat) (func : Option FunctionSummary) :
    TakesWords self.format (readRecord self tag length func) := by
  unfold readRecord
  split
  · exact readFunction_takesWords
  split
  · refine (readBlockFlags_takesWords _ _).bind fun _ => ?_
    cases func with
    | none => exact takesWords_fail _
    | some func => exact takesWords_pure _
  split
  · refine readInt_takesWords.bind fun src => ?_
    cases func with
    | none => exact takesWords_fail _
    | some func =>
      dsimp only
      split
      · exact readArcPairs_takesWords _ _ _
      · exact takesWords_fail _
  · refine readInt_takesWords.bind fun _ => readInt_takesWords.bind fun _ =>
      readString_takesWords.bind fun _ => (readLineNumbers_takesWords _ _).bind fun _ => ?_
    cases func with
    | none => exact takesWords_fail _
    | some func =>
      dsimp only
      split
      · exact takesWords_pure _
      · exact takesWords_fail _

/-- What is made of the current function and the finished ones at the end of the file. -/
def finish : Option FunctionSummary × FileSummary → Except Exception (FileSummary × List UInt8)
  | (none, _) => .error (.fileFormatError "Invalid file.")
  | (some func, summary) => .ok (store summary (some func), [])

/-- The current function and the finished ones after a record. -/
def step (self : GcovStream) (tag length : Nat) :
    Option FunctionSummary × FileSummary → List UInt8 →
      Except (Except Exception (FileSummary × List UInt8))
        ((Option FunctionSummary × FileSummary) × List UInt8)
  | (func, summary), stream =>
    match readRecord self tag length func stream with
    | .error failure => .error (.error failure)
    | .ok (next, remaining) =>
      .ok ((some next, if tag = tagFunction then store summary func else summary), remaining)

theorem step_of_readRecord {tag length : Nat} {func : Option FunctionSummary}
    {next : FunctionSummary} {stream remaining : List UInt8}
    (read : readRecord self tag length func stream = .ok (next, remaining))
    (summary : FileSummary) :
    step self tag length (func, summary) stream =
      .ok ((some next, if tag = tagFunction then store summary func else summary), remaining) := by
  simp only [step, read]

/-- `GCNOParser.Parse` as a scan. -/
def scan (self : GcovStream) : RecordScan (Option FunctionSummary × FileSummary)
    (Except Exception (FileSummary × List UInt8)) where
  order := self.format
  known := isTag
  step := step self
  finish := finish
  run state stream := run self state.1 state.2 stream
  run_eq state stream := by
    obtain ⟨func, summary⟩ := state
    rw [run_eq]
    cases header : readHeader self.format isTag stream with
    | error failure => cases func <;> rfl
    | ok found =>
      obtain ⟨⟨tag, length⟩, rest⟩ := found
      simp only [step]
      cases readRecord self tag length func rest with
      | error failure => rfl
      | ok result => rfl
  step_takesWords := by
    rintro tag length ⟨func, summary⟩ values next rest read
    simp only [step] at read ⊢
    cases record : readRecord self tag length func (words self.format values) with
    | error failure =>
      rw [record] at read
      cases read
    | ok result =>
      rw [record] at read
      cases read
      obtain ⟨left, inside, same, more⟩ := readRecord_takesWords tag length func values _ _ record
      exact ⟨left, inside, same, fun extra => by rw [more extra]⟩

/-! ## What the search for a tag passes -/

/-- The words in which the search meets no tag, or only the tag of blocks with the length 0. -/
def passes : List Nat → Bool
  | [] => true
  | [value] => !isTag value
  | value :: length :: rest =>
    if isTag value then value == tagBlocks && length == 0 && passes rest
    else passes (length :: rest)

theorem readRecord_noBlocks (func : FunctionSummary) (stream : List UInt8) :
    readRecord self tagBlocks 0 (some func) stream = .ok (func, stream) := by
  rw [readRecord, if_neg (by decide), if_pos rfl, readBlocks]
  have none_read : readBlockFlags self 0 [] stream = .ok ([], stream) := rfl
  rw [bind_ok none_read]
  simp

theorem run_tag (known : isTag tag = true) (lengthFits : length < 2 ^ 32)
    (func : Option FunctionSummary) (summary : FileSummary) (rest : List UInt8) :
    run self func summary (word self.format tag ++ (word self.format length ++ rest)) =
      match readRecord self tag length func rest with
      | .error failure => .error failure
      | .ok (next, remaining) =>
        run self (some next) (if tag = tagFunction then store summary func else summary)
          remaining := by
  have tagFits : tag < 2 ^ 32 := by
    simp only [isTag, Bool.or_eq_true, beq_iff_eq] at known
    rcases known with ((rfl | rfl) | rfl) | rfl <;> decide
  have scanKnown : (scan self).known tag = true := known
  have header := RecordScan.run_header scanKnown tagFits lengthFits (func, summary) rest
  refine header.trans ?_
  simp only [scan, step]
  cases readRecord self tag length func rest with
  | error failure => rfl
  | ok result => rfl

theorem run_unknown {value : Nat} (fits : value < 2 ^ 32) (unknown : isTag value = false)
    (func : Option FunctionSummary) (summary : FileSummary) (rest : List UInt8) :
    run self func summary (word self.format value ++ rest) = run self func summary rest := by
  have scanUnknown : (scan self).known value = false := unknown
  exact RecordScan.run_word fits scanUnknown (func, summary) rest

theorem run_noBlocks (func : FunctionSummary) (summary : FileSummary) (rest : List UInt8) :
    run self (some func) summary (word self.format tagBlocks ++ (word self.format 0 ++ rest)) =
      run self (some func) summary rest := by
  rw [run_tag (by decide) (by decide), readRecord_noBlocks]
  exact congrArg (run self (some func) · rest) (if_neg (by decide))

theorem run_passes {values : List Nat} (fits : ∀ value ∈ values, value < 2 ^ 32)
    (passed : passes values = true) (func : FunctionSummary) (summary : FileSummary)
    (rest : List UInt8) :
    run self (some func) summary (words self.format values ++ rest) =
      run self (some func) summary rest := by
  induction values using passes.induct with
  | case1 => rfl
  | case2 value =>
    have unknown : isTag value = false := by simpa [passes] using passed
    rw [words_cons, words_nil, append_nil, run_unknown (fits value mem_cons_self) unknown]
  | case3 value length others isKnown ih =>
    rw [passes, if_pos isKnown] at passed
    simp only [Bool.and_eq_true, beq_iff_eq] at passed
    obtain ⟨⟨rfl, rfl⟩, further⟩ := passed
    rw [words_cons, words_cons, append_assoc, append_assoc, run_noBlocks]
    exact ih (fun value listed => fits value (by simp [listed])) further
  | case4 value length others unknown ih =>
    rw [passes, if_neg unknown] at passed
    rw [words_cons, append_assoc,
      run_unknown (fits value mem_cons_self) (Bool.eq_false_iff.mpr unknown)]
    exact ih (fun other listed => fits other (mem_cons_of_mem _ listed)) passed

theorem readBlockFlags_length {blocks result : List BlockSummary}
    (read : readBlockFlags self count blocks stream = .ok (result, rest)) :
    result.length = blocks.length + count := by
  induction count generalizing blocks stream with
  | zero =>
    cases read
    rfl
  | succ count ih =>
    obtain ⟨flag, remaining, _, next⟩ := bind_eq_ok.mp read
    rw [ih next, length_append, length_singleton]
    omega

/-- Arcs change neither the identifier of a function nor the number of its blocks. -/
theorem readArcPairs_keeps {src : Nat} {result : FunctionSummary}
    (read : readArcPairs self src count func stream = .ok (result, rest)) :
    result.ident = func.ident ∧ result.blocks.length = func.blocks.length := by
  induction count generalizing func stream with
  | zero =>
    cases read
    exact ⟨rfl, rfl⟩
  | succ count ih =>
    obtain ⟨dst, remaining, _, next⟩ := bind_eq_ok.mp read
    split at next
    · obtain ⟨flag, last, _, recursion⟩ := bind_eq_ok.mp next
      obtain ⟨ident, blocks⟩ := ih recursion
      exact ⟨ident, blocks.trans (FunctionSummary.addArc_blocks_length func src dst flag)⟩
    · cases next

/-- A function record gives the function the identifier that it starts with. -/
theorem readFunction_ident (fits : ∀ value ∈ values, value < 2 ^ 32)
    (read : readFunction self (words self.format values) = .ok (next, rest)) :
    ∃ others, values = next.ident :: others := by
  obtain ⟨ident, _, identRead, read⟩ := bind_eq_ok.mp read
  obtain ⟨_, _, _, read⟩ := bind_eq_ok.mp read
  obtain ⟨_, _, _, read⟩ := bind_eq_ok.mp read
  obtain ⟨_, _, _, read⟩ := bind_eq_ok.mp read
  obtain ⟨_, _, _, read⟩ := bind_eq_ok.mp read
  obtain ⟨_, _, _, read⟩ := bind_eq_ok.mp read
  cases read
  cases values with
  | nil => cases identRead
  | cons value others =>
    rw [words_cons, readInt_word _ value _ (fits value mem_cons_self)] at identRead
    cases identRead
    exact ⟨others, rfl⟩

/-- Every other record leaves the identifier and takes no block away; one of blocks adds as many as
its length says, and one of another kind needs a block. -/
theorem readRecord_keeps (other : tag ≠ tagFunction)
    (read : readRecord self tag length (some func) stream = .ok (next, rest)) :
    next.ident = func.ident ∧
      ((tag = tagBlocks ∧ next.blocks.length = func.blocks.length + length) ∨
        (0 < func.blocks.length ∧ next.blocks.length = func.blocks.length)) := by
  rw [readRecord, if_neg other] at read
  split at read
  · next isBlocks =>
    obtain ⟨blocks, _, blocksRead, read⟩ := bind_eq_ok.mp read
    cases read
    refine ⟨rfl, .inl ⟨isBlocks, ?_⟩⟩
    rw [length_append, readBlockFlags_length blocksRead, length_nil, Nat.zero_add]
  split at read
  · obtain ⟨src, _, _, read⟩ := bind_eq_ok.mp read
    dsimp only at read
    split at read
    · next inside =>
      obtain ⟨ident, blocks⟩ := readArcPairs_keeps read
      exact ⟨ident, .inr ⟨Nat.zero_lt_of_lt inside, blocks⟩⟩
    · cases read
  · obtain ⟨block, _, _, read⟩ := bind_eq_ok.mp read
    obtain ⟨_, _, _, read⟩ := bind_eq_ok.mp read
    obtain ⟨_, _, _, read⟩ := bind_eq_ok.mp read
    obtain ⟨_, _, _, read⟩ := bind_eq_ok.mp read
    dsimp only at read
    split at read
    · next inside =>
      cases read
      exact ⟨rfl, .inr ⟨Nat.zero_lt_of_lt inside, length_set⟩⟩
    · cases read

/-- The function that a record with an identifier and zeros describes. -/
def bare (ident : Nat) : FunctionSummary := FunctionSummary.init ident [] [] 0

/-- No function record in some words has an identifier, wherever it starts. -/
def Clear (ident : Nat) (values : List Nat) : Prop :=
  ∀ length rest, ¬ tagFunction :: length :: ident :: rest <:+ values

theorem Clear.suffix (clear : Clear ident values) (inside : left <:+ values) : Clear ident left :=
  fun length rest starts => clear length rest (starts.trans inside)

/-- The function cannot become the bare one any more. -/
def Tainted (ident : Nat) (func : FunctionSummary) : Prop :=
  func.ident ≠ ident ∨ func.blocks ≠ []

/-- What is stored is in the dictionary. -/
theorem mem_insert (summary : FileSummary) (ident : Nat) (func : FunctionSummary) :
    (ident, func) ∈ (summary.insert ident func).functions := by
  rw [FileSummary.insert]
  split
  · next present =>
    obtain ⟨entry, listed, same⟩ := mem_map.mp ((FileSummary.get?_isSome summary ident).mp present)
    exact mem_map.mpr ⟨entry, listed, if_pos same⟩
  · exact mem_append_right _ mem_cons_self

theorem store_tainted (tainted : Tainted ident func) (summary : FileSummary) :
    store summary (some func) ≠ ⟨[(ident, bare ident)]⟩ := by
  intro same
  have listed : (func.ident, func) ∈ (store summary (some func)).functions :=
    mem_insert summary func.ident func
  rw [same] at listed
  obtain ⟨sameIdent, sameFunc⟩ := Prod.mk.inj (mem_singleton.mp listed)
  rcases tainted with other | blocks
  · exact other sameIdent
  · exact blocks (congrArg FunctionSummary.blocks sameFunc)

theorem function_tainted {func : Option FunctionSummary} (fits : ∀ value ∈ values, value < 2 ^ 32)
    (clear : Clear ident (tagFunction :: length :: values))
    (read : readRecord self tagFunction length func (words self.format values) =
      .ok (next, rest)) : Tainted ident next := by
  rw [readRecord, if_pos rfl] at read
  obtain ⟨others, rfl⟩ := readFunction_ident fits read
  left
  rintro rfl
  exact clear length others suffix_rfl

/-- A function with another identifier or with blocks is followed by such a function. -/
theorem next_tainted (tainted : Tainted ident func) (fits : ∀ value ∈ values, value < 2 ^ 32)
    (clear : Clear ident (tag :: length :: values))
    (read : readRecord self tag length (some func) (words self.format values) =
      .ok (next, rest)) : Tainted ident next := by
  by_cases isFunction : tag = tagFunction
  · subst isFunction
    exact function_tainted fits clear read
  · obtain ⟨same, blocks⟩ := readRecord_keeps isFunction read
    rcases tainted with other | some_blocks
    · exact .inl (same ▸ other)
    · right
      have before : 0 < func.blocks.length := length_pos_iff.mpr some_blocks
      rw [← length_pos_iff]
      omega

/-- The function is not the only one at the end. -/
theorem run_tainted {summary : FileSummary} (fits : ∀ value ∈ values, value < 2 ^ 32)
    (clear : Clear ident values) (tainted : Tainted ident func)
    (ran : run self (some func) summary (words self.format values) = .ok (result, rest)) :
    result ≠ ⟨[(ident, bare ident)]⟩ := by
  induction size : values.length using Nat.strong_induction_on generalizing values func summary with
  | _ count ih =>
    rw [run_eq] at ran
    cases header : readHeader self.format isTag (words self.format values) with
    | error failure =>
      rw [header] at ran
      cases ran
      exact store_tainted tainted summary
    | ok found =>
      obtain ⟨⟨tag, length⟩, remaining⟩ := found
      rw [header] at ran
      obtain ⟨-, left, inside, rfl⟩ := readHeader_words fits header
      simp only at ran
      cases record : readRecord self tag length (some func) (words self.format left) with
      | error failure =>
        rw [record] at ran
        cases ran
      | ok next =>
        obtain ⟨next, after⟩ := next
        rw [record] at ran
        obtain ⟨last, further, rfl, -⟩ := readRecord_takesWords tag length (some func) left _ _ record
        have leftInside : left <:+ values :=
          ((suffix_cons _ _).trans (suffix_cons _ _)).trans inside
        have lastInside : last <:+ values := further.trans leftInside
        have leftFits : ∀ value ∈ left, value < 2 ^ 32 := fun value listed =>
          fits value (leftInside.subset listed)
        have shorter : last.length < count := by
          have first := inside.length_le
          have second := further.length_le
          simp only [length_cons] at first
          omega
        exact ih last.length shorter
          (fun value listed => fits value (lastInside.subset listed)) (clear.suffix lastInside)
          (next_tainted tainted leftFits (clear.suffix inside) record) ran rfl

/-- A record other than one of no blocks changes the bare function or ends the parse. -/
theorem run_stopped (known : isTag tag = true) (other : ¬ (tag = tagBlocks ∧ length = 0))
    (lengthFits : length < 2 ^ 32) (fits : ∀ value ∈ left, value < 2 ^ 32)
    (clear : Clear ident (tag :: length :: left))
    (ran : run self (some (bare ident)) FileSummary.init
      (words self.format (tag :: length :: left)) = .ok (result, rest)) :
    result ≠ ⟨[(ident, bare ident)]⟩ := by
  rw [words_cons, words_cons, run_tag known lengthFits] at ran
  cases record : readRecord self tag length (some (bare ident)) (words self.format left) with
  | error failure =>
    rw [record] at ran
    cases ran
  | ok next =>
    obtain ⟨next, after⟩ := next
    rw [record] at ran
    have tainted : Tainted ident next := by
      by_cases isFunction : tag = tagFunction
      · subst isFunction
        exact function_tainted fits clear record
      · right
        obtain ⟨-, blocks⟩ := readRecord_keeps isFunction record
        have none_before : (bare ident).blocks.length = 0 := rfl
        rw [← length_pos_iff]
        rcases blocks with ⟨isBlocks, more⟩ | ⟨before, -⟩
        · have some_blocks : length ≠ 0 := fun zero => other ⟨isBlocks, zero⟩
          omega
        · omega
    obtain ⟨last, further, rfl, -⟩ :=
      readRecord_takesWords tag length (some (bare ident)) left _ _ record
    have lastInside : last <:+ tag :: length :: left :=
      further.trans ((suffix_cons _ _).trans (suffix_cons _ _))
    exact run_tainted (fun value listed => fits value (further.subset listed))
      (clear.suffix lastInside) tainted ran

/-- Words that do not pass change the bare function or end the parse. -/
theorem run_not_passed {ident : Nat} {values : List Nat} {result : FileSummary}
    {rest : List UInt8} (fits : ∀ value ∈ values, value < 2 ^ 32)
    (clear : Clear ident (values ++ [tagBlocks, 0])) (stopped : passes values = false)
    (ran : run self (some (bare ident)) FileSummary.init
      (words self.format (values ++ [tagBlocks, 0])) = .ok (result, rest)) :
    result ≠ ⟨[(ident, bare ident)]⟩ := by
  induction values using passes.induct with
  | case1 => cases stopped
  | case2 value =>
    have known : isTag value = true := by simpa [passes] using stopped
    refine run_stopped known ?_ (by decide) ?_ clear ran
    · rintro ⟨-, zero⟩
      cases zero
    · simp
  | case3 value length others isKnown ih =>
    have othersFit : ∀ other ∈ others, other < 2 ^ 32 := fun other listed =>
      fits other (by simp [listed])
    rw [passes, if_pos isKnown] at stopped
    by_cases noBlocks : value = tagBlocks ∧ length = 0
    · obtain ⟨rfl, rfl⟩ := noBlocks
      have further : passes others = false := by simpa using stopped
      rw [cons_append, cons_append, words_cons, words_cons, run_noBlocks] at ran
      refine ih othersFit (clear.suffix ?_) further ran
      exact (suffix_cons _ _).trans (suffix_cons _ _)
    · refine run_stopped isKnown noBlocks (fits length (by simp)) ?_ clear ran
      intro other listed
      rcases mem_append.mp listed with inside | last
      · exact othersFit other inside
      · have cases_last : other = tagBlocks ∨ other = 0 := by simpa using last
        rcases cases_last with rfl | rfl <;> decide
  | case4 value length others unknown ih =>
    rw [passes, if_neg unknown] at stopped
    rw [cons_append, words_cons,
      run_unknown (fits value mem_cons_self) (Bool.eq_false_iff.mpr unknown)] at ran
    exact ih (fun other listed => fits other (mem_cons_of_mem _ listed))
      (clear.suffix (suffix_cons _ _)) stopped ran

/-! ## Records that are skipped -/

/-- A record may be put between two records of a file without a change of the result. -/
def Skips (inserted : GcovRecord) : Prop :=
  ∀ (header : GcovStream) (before after : List GcovRecord), before ≠ [] → after ≠ [] →
    (scan header).WellFormed (none, FileSummary.init) (before ++ after) →
    (GcnoParser.mk header (GcovRecord.encode header.format (before ++ inserted :: after))).parse =
      (GcnoParser.mk header (GcovRecord.encode header.format (before ++ after))).parse

/-- After every record there is a function. -/
theorem step_some {header : GcovStream} {state next : Option FunctionSummary × FileSummary}
    (read : (scan header).step tag length state stream = .ok (next, rest)) :
    ∃ func, next.1 = some func := by
  simp only [scan, step] at read
  cases record : readRecord header tag length state.1 stream with
  | error failure =>
    rw [record] at read
    cases read
  | ok result =>
    rw [record] at read
    cases read
    exact ⟨result.1, rfl⟩

end

section

variable {inserted : GcovRecord} (order : ByteOrder) (fits : ident < 2 ^ 32) (rest : List UInt8)

theorem skips_of_passes (unknown : isTag inserted.tag = false)
    (passed : passes inserted.body = true) : Skips inserted := by
  intro header before after some_before _ wellFormed
  obtain ⟨⟨current, summary⟩, held, -, runs⟩ := RecordScan.run_records step_some wellFormed
  obtain ⟨func, same⟩ := held (.inr some_before)
  cases same
  have same_run : run header none FileSummary.init
      (GcovRecord.encode header.format (before ++ inserted :: after)) =
        run header none FileSummary.init (GcovRecord.encode header.format (before ++ after)) := by
    rw [GcovRecord.encode_append, GcovRecord.encode_append, GcovRecord.encode_cons]
    refine (runs _).trans (Eq.trans ?_ (runs _).symm)
    rw [GcovRecord.record_words, append_assoc]
    exact (run_unknown inserted.tagFits unknown (some func) summary _).trans
      (run_passes inserted.body_fits passed func summary _)
  rw [parse_eq_run, parse_eq_run, same_run]

/-- The record of the bare function. -/
def bareRecord (ident : Nat) (fits : ident < 2 ^ 32) : GcovRecord where
  tag := tagFunction
  payload := [ident, 0, 0, 0, 0]
  tagFits := by decide
  lengthFits := by simp
  payloadFits := by simpa using fits

/-- A record of no blocks. -/
def noBlocks : GcovRecord where
  tag := tagBlocks
  payload := []
  tagFits := by decide
  lengthFits := GcovRecord.empty_lengthFits
  payloadFits := GcovRecord.empty_payloadFits

/-- The header of a little-endian file of version 4.4. -/
def version4 : GcovStream := ⟨.little, [42, 52, 48, 52], 0⟩

theorem readString_zero : readString order (word order 0 ++ rest) = .ok ([], rest) := by
  rw [readString, bind_ok (readInt_word order 0 rest (by decide))]
  rfl

theorem readFunction_bare (fits : ident < 2 ^ 32) (rest : List UInt8) :
    readFunction version4 (words version4.format [ident, 0, 0, 0, 0] ++ rest) = .ok (bare ident, rest) := by
  have zeroFits : 0 < 2 ^ 32 := by decide
  simp only [words_cons, words_nil, append_assoc, nil_append]
  rw [readFunction, bind_ok (readInt_word _ ident _ fits),
    bind_ok (readInt_word _ 0 _ zeroFits)]
  have extra (tail : List UInt8) : readExtraChecksum version4 tail = .ok ((), tail) := rfl
  rw [bind_ok (extra _), bind_ok (readString_zero _ _),
    bind_ok (readString_zero _ _), bind_ok (readInt_word _ 0 _ zeroFits)]
  rfl

theorem bare_wellFormed :
    (scan version4).WellFormed (none, FileSummary.init) ([bareRecord ident fits] ++ [noBlocks]) := by
  have function := readFunction_bare fits []
  rw [append_nil] at function
  refine ⟨rfl, (some (bare ident), FileSummary.init), [], nil_suffix, nofun, ?_, rfl,
    (some (bare ident), FileSummary.init), [], nil_suffix, nofun, ?_, trivial⟩
  · have first : readRecord version4 tagFunction 5 none
        (words version4.format [ident, 0, 0, 0, 0]) = .ok (bare ident, []) := by
      rw [readRecord, if_pos rfl, function]
    exact step_of_readRecord first FileSummary.init
  · have second : readRecord version4 tagBlocks 0 (some (bare ident)) [] = .ok (bare ident, []) :=
      readRecord_noBlocks _ _
    exact step_of_readRecord second FileSummary.init

/-- A list that is shorter than a bound leaves out a number below it. -/
theorem exists_lt_not_mem {bound : Nat} (short : values.length < bound) :
    ∃ value < bound, value ∉ values := by
  by_contra all
  push Not at all
  have inside : List.range bound ⊆ values := fun value listed => all value (mem_range.mp listed)
  have count := (subperm_of_subset nodup_range inside).length_le
  rw [length_range] at count
  omega

theorem mem_drop_of_suffix {first second third : Nat} {rest : List Nat}
    (inside : first :: second :: third :: rest <:+ values) : third ∈ values.drop 2 := by
  obtain ⟨front, rfl⟩ := inside
  match front with
  | [] | [_] | _ :: _ :: _ => simp

/-- Some identifier stands in no function record that the search may find: a payload that is as long
as a word can say does not have the length of the tag. -/
theorem exists_clear (entry : GcovRecord) :
    ∃ ident < 2 ^ 32, Clear ident (entry.body ++ [tagBlocks, 0]) := by
  have fits := entry.lengthFits
  by_cases isTag : entry.payload.length = tagFunction
  · obtain ⟨ident, small, absent⟩ : ∃ ident < 2 ^ 32,
        ident ∉ (entry.body ++ [tagBlocks, 0]).drop 2 := by
      apply exists_lt_not_mem
      simp only [GcovRecord.body, length_drop, length_append, length_cons,
        length_nil, isTag]
      decide
    exact ⟨ident, small, fun _ _ inside => absent (mem_drop_of_suffix inside)⟩
  · obtain ⟨ident, small, absent⟩ : ∃ ident < 2 ^ 32,
        ident ∉ (entry.payload ++ [tagBlocks, 0]).drop 2 := by
      apply exists_lt_not_mem
      simp only [length_drop, length_append, length_cons, length_nil]
      omega
    refine ⟨ident, small, ?_⟩
    intro length rest inside
    rcases suffix_cons_iff.mp inside with whole | further
    · exact isTag (List.cons.inj whole).1.symm
    · exact absent (mem_drop_of_suffix further)

theorem run_bare :
    run version4 none FileSummary.init
        (GcovRecord.encode version4.format [bareRecord ident fits] ++ rest) =
      run version4 (some (bare ident)) FileSummary.init rest := by
  have read : readRecord version4 tagFunction 5 none
      (words version4.format [ident, 0, 0, 0, 0] ++ rest) = .ok (bare ident, rest) := by
    rw [readRecord, if_pos rfl, readFunction_bare fits]
  have bytes : GcovRecord.encode version4.format [bareRecord ident fits] =
      word version4.format tagFunction ++
        (word version4.format 5 ++ words version4.format [ident, 0, 0, 0, 0]) := by
    rw [GcovRecord.encode_cons, GcovRecord.record_words, GcovRecord.encode_nil, append_nil]
    rfl
  rw [bytes, append_assoc, append_assoc, run_tag (by decide) (by decide), read]
  rfl

theorem encode_noBlocks : GcovRecord.encode order [noBlocks] = words order [tagBlocks, 0] := by
  rw [GcovRecord.encode_cons, GcovRecord.record_words, GcovRecord.encode_nil, append_nil]
  rfl

theorem passes_of_skips (unknown : isTag inserted.tag = false) (skips : Skips inserted) :
    passes inserted.body = true := by
  by_contra stopped
  obtain ⟨ident, small, clear⟩ := exists_clear inserted
  have same := skips version4 [bareRecord ident small] [noBlocks] (cons_ne_nil _ _)
    (cons_ne_nil _ _) (bare_wellFormed small)
  have alone : run version4 (some (bare ident)) FileSummary.init
      (GcovRecord.encode version4.format [noBlocks]) = .ok (⟨[(ident, bare ident)]⟩, []) := by
    rw [encode_noBlocks, words_cons, words_cons, run_noBlocks]
    rfl
  have inserted_words : GcovRecord.encode version4.format (inserted :: [noBlocks]) =
      word version4.format inserted.tag ++
        words version4.format (inserted.body ++ [tagBlocks, 0]) := by
    rw [GcovRecord.encode_cons, GcovRecord.record_words, encode_noBlocks, words_append,
      append_assoc]
  rw [parse_eq_run, parse_eq_run, GcovRecord.encode_append, GcovRecord.encode_append, run_bare,
    run_bare, alone, inserted_words, run_unknown inserted.tagFits unknown] at same
  cases ran : run version4 (some (bare ident)) FileSummary.init
      (words version4.format (inserted.body ++ [tagBlocks, 0])) with
  | error failure =>
    rw [ran] at same
    cases same
  | ok result =>
    rw [ran] at same
    exact run_not_passed inserted.body_fits clear (Bool.eq_false_iff.mpr stopped) ran
      (Except.ok.inj same)

end

end GcnoParser

end Vts.Coverage
