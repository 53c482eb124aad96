import Vts.Coverage.GcdaCodec
import Vts.Coverage.GcnoUnknown

/-!
# Unknown records in a GCDA file

What `GCDAParser.Parse` does with a record whose tag is none of its own. As in a
GCNO file, the search for a tag goes on with the length word and the payload. Here
an object tag with a word after it, and a program tag with a length and as many
words, do no harm.

For every other record there is a file of two records that it turns into an error.
`unknown_record_skipped_iff` says of both kinds of files which records are skipped.
-/

namespace Vts.Coverage

open Lib Lib.WordCodec List
open Python (Exception)

namespace GcdaParser

variable {self : GcovStream}

/-! ## The parser as a scan -/

theorem readChecksums_takesWords : TakesWords self.format (readChecksums self) := by
  refine readInt_takesWords.bind fun _ => ?_
  split
  · exact takesWords_fail _
  · exact readInt_takesWords.bind fun _ => takesWords_pure _
  · exact takesWords_pure _

theorem readFunction_takesWords (length : Nat) (summary : FileSummary) :
    TakesWords self.format (readFunction self length summary) := by
  refine readInt_takesWords.bind fun ident => ?_
  split
  · refine readChecksums_takesWords.bind fun wordsRead => ?_
    split
    · exact readString_takesWords.bind fun _ => takesWords_pure _
    · exact takesWords_pure _
  · exact takesWords_fail _

section

variable {values : List Nat} {tag length : Nat} (format : ByteOrder)

section

variable {rest : List UInt8} {func : Option Nat} {summary after : FileSummary}

theorem skipWords_takesWords (count : Nat) : TakesWords format (skipWords format count) := by
  induction count with
  | zero => exact takesWords_pure _
  | succ count ih => exact readInt_takesWords.bind fun _ => ih

theorem readCounts_takesWords (arcs : List Nat) {func after : FunctionSummary}
    (read : readCounts format arcs func (words format values) = (.ok rest, after)) :
    ∃ left, left <:+ values ∧ rest = words format left ∧
      ∀ more, readCounts format arcs func (words format values ++ more) =
        (.ok (words format left ++ more), after) := by
  induction arcs generalizing func values with
  | nil =>
    cases read
    exact ⟨values, suffix_rfl, rfl, fun _ => rfl⟩
  | cons arc arcs ih =>
    simp only [readCounts] at read ⊢
    split
    · next counted =>
      rw [if_pos counted] at read
      cases word : readInt64 format (words format values) with
      | error failure =>
        rw [word] at read
        cases read
      | ok result =>
        obtain ⟨count, remaining⟩ := result
        rw [word] at read
        obtain ⟨between, inside, rfl, wordMore⟩ := readInt64_takesWords values count remaining word
        obtain ⟨last, further, rfl, restMore⟩ := ih read
        refine ⟨last, further.trans inside, rfl, ?_⟩
        intro more
        rw [wordMore more]
        exact restMore more
    · next uncounted =>
      rw [if_neg uncounted] at read
      exact ih read

theorem readCounters_takesWords
    (read : readCounters self func summary (words self.format values) = (.ok rest, after)) :
    ∃ left, left <:+ values ∧ rest = words self.format left ∧
      ∀ more, readCounters self func summary (words self.format values ++ more) =
        (.ok (words self.format left ++ more), after) := by
  cases func with
  | none => cases read
  | some ident =>
    simp only [readCounters] at read ⊢
    rcases counts : readCounts self.format ((summary.get? ident).getD default).exitArcs
        ((summary.get? ident).getD default) (words self.format values) with ⟨outcome, counted⟩
    rw [counts] at read
    cases outcome with
    | error failure => cases read
    | ok remaining =>
      obtain ⟨left, inside, rfl, countsMore⟩ := readCounts_takesWords _ _ counts
      simp only at read
      by_cases resolved : counted.resolve.1 = true
      · rw [if_pos resolved] at read
        cases read
        refine ⟨left, inside, rfl, ?_⟩
        intro more
        rw [countsMore more]
        simp only
        rw [if_pos resolved]
      · rw [if_neg resolved] at read
        cases read

theorem readRecord_takesWords {next : Option Nat}
    (read : readRecord self tag length func summary (words self.format values) =
      (.ok (next, rest), after)) :
    ∃ left, left <:+ values ∧ rest = words self.format left ∧
      ∀ more, readRecord self tag length func summary (words self.format values ++ more) =
        (.ok (next, words self.format left ++ more), after) := by
  unfold readRecord at read ⊢
  split
  · next isFunction =>
    rw [if_pos isFunction] at read
    cases function : readFunction self length summary (words self.format values) with
    | error failure =>
      rw [function] at read
      cases read
    | ok result =>
      rw [function] at read
      cases read
      obtain ⟨left, inside, same, more⟩ := readFunction_takesWords length summary values _ _ function
      exact ⟨left, inside, same, fun extra => by rw [more extra]⟩
  next noFunction =>
  rw [if_neg noFunction] at read
  split
  · next isCounter =>
    rw [if_pos isCounter] at read
    rcases counters : readCounters self func summary (words self.format values) with
      ⟨outcome, changed⟩
    rw [counters] at read
    cases outcome with
    | error failure => cases read
    | ok remaining =>
      cases read
      obtain ⟨left, inside, same, more⟩ := readCounters_takesWords counters
      exact ⟨left, inside, same, fun extra => by rw [more extra]⟩
  next noCounter =>
  rw [if_neg noCounter] at read
  split
  · next isObject =>
    rw [if_pos isObject] at read
    cases read
    exact ⟨values, suffix_rfl, rfl, fun _ => rfl⟩
  · next noObject =>
    rw [if_neg noObject] at read
    cases skipped : skipWords self.format (1 + (length - 1)) (words self.format values) with
    | error failure =>
      rw [skipped] at read
      cases read
    | ok result =>
      rw [skipped] at read
      cases read
      obtain ⟨left, inside, same, more⟩ := skipWords_takesWords _ _ values _ _ skipped
      exact ⟨left, inside, same, fun extra => by rw [more extra]⟩

end

/-- The current function and the summary after a record. -/
def step (self : GcovStream) (tag length : Nat) : Option Nat × FileSummary → List UInt8 →
    Except (Except Exception Unit × FileSummary) ((Option Nat × FileSummary) × List UInt8)
  | (func, summary), stream =>
    match readRecord self tag length func summary stream with
    | (.error failure, after) => .error (.error failure, after)
    | (.ok (next, remaining), after) => .ok ((next, after), remaining)

/-- `GCDAParser.Parse` as a scan. -/
def scan (self : GcovStream) :
    RecordScan (Option Nat × FileSummary) (Except Exception Unit × FileSummary) where
  order := self.format
  known := isTag
  step := step self
  finish state := (.ok (), state.2)
  run state stream := run self state.1 state.2 stream
  run_eq state stream := by
    obtain ⟨func, summary⟩ := state
    rw [run_eq]
    cases header : readHeader self.format isTag stream with
    | error failure => rfl
    | ok found =>
      obtain ⟨⟨tag, length⟩, rest⟩ := found
      simp only [step]
      rcases readRecord self tag length func summary rest with ⟨outcome, after⟩
      cases outcome with
      | error failure => rfl
      | ok result => rfl
  step_takesWords := by
    rintro tag length ⟨func, summary⟩ values next rest read
    simp only [step] at read ⊢
    rcases record : readRecord self tag length func summary (words self.format values) with
      ⟨outcome, after⟩
    rw [record] at read
    cases outcome with
    | error failure => cases read
    | ok result =>
      cases read
      obtain ⟨left, inside, same, more⟩ := readRecord_takesWords record
      exact ⟨left, inside, same, fun extra => by rw [more extra]⟩

theorem run_tag (known : isTag tag = true) (lengthFits : length < 2 ^ 32) (func : Option Nat)
    (summary : FileSummary) (rest : List UInt8) :
    run self func summary (word self.format tag ++ (word self.format length ++ rest)) =
      match readRecord self tag length func summary rest with
      | (.error failure, after) => (.error failure, after)
      | (.ok (next, remaining), after) => run self next after remaining := by
  have tagFits : tag < 2 ^ 32 := by
    simp only [isTag, Bool.or_eq_true, beq_iff_eq] at known
    rcases known with ((rfl | rfl) | rfl) | rfl <;> decide
  have scanKnown : (scan self).known tag = true := known
  have header := RecordScan.run_header scanKnown tagFits lengthFits (func, summary) rest
  refine header.trans ?_
  simp only [scan, step]
  rcases readRecord self tag length func summary rest with ⟨outcome, after⟩
  cases outcome with
  | error failure => rfl
  | ok result => rfl

theorem run_unknown {value : Nat} (fits : value < 2 ^ 32) (unknown : isTag value = false)
    (func : Option Nat) (summary : FileSummary) (rest : List UInt8) :
    run self func summary (word self.format value ++ rest) = run self func summary rest := by
  have scanUnknown : (scan self).known value = false := unknown
  exact RecordScan.run_word fits scanUnknown (func, summary) rest

section

variable (lengthFits : length < 2 ^ 32) (func : Option Nat) (summary : FileSummary)
  (rest : List UInt8)
include lengthFits

theorem run_object :
    run self func summary (word self.format tagObject ++ (word self.format length ++ rest)) =
      run self func summary rest := by
  rw [run_tag (by decide) lengthFits]
  rfl

/-- After a program tag as many words are skipped as its length says, and one at least. -/
theorem run_program :
    run self func summary (word self.format tagProgram ++ (word self.format length ++ rest)) =
      match skipWords self.format (1 + (length - 1)) rest with
      | .error failure => (.error failure, summary)
      | .ok (_, remaining) => run self func summary remaining := by
  rw [run_tag (by decide) lengthFits, readRecord, if_neg (by decide), if_neg (by decide),
    if_neg (by decide)]
  cases skipWords self.format (1 + (length - 1)) rest with
  | error failure => rfl
  | ok result => rfl

end

end

/-! ## What the search for a tag passes -/

/-- The words in which the search, when it has some words to skip first, meets no tag, or only those
of objects with another word and those of programs with a length and as many words. -/
def passes : Nat → List Nat → Bool
  | 0, [] => true
  | _ + 1, [] => false
  | skip + 1, _ :: rest => passes skip rest
  | 0, [value] => !isTag value
  | 0, value :: length :: rest =>
    if value = tagObject then passes 0 rest
    else if value = tagProgram then passes (1 + (length - 1)) rest
    else if isTag value then false
    else passes 0 (length :: rest)

theorem run_passes {skip : Nat} {values : List Nat} (fits : ∀ value ∈ values, value < 2 ^ 32)
    (passed : passes skip values = true) (func : Option Nat) (summary : FileSummary)
    (rest : List UInt8) :
    ∃ stream, skipWords self.format skip (words self.format values ++ rest) = .ok ((), stream) ∧
      run self func summary stream = run self func summary rest := by
  induction skip, values using passes.induct with
  | case1 => exact ⟨rest, rfl, rfl⟩
  | case2 skip => cases passed
  | case3 skip value others ih =>
    obtain ⟨stream, skipped, same⟩ := ih
      (fun other listed => fits other (mem_cons_of_mem _ listed)) passed
    refine ⟨stream, ?_, same⟩
    rw [words_cons, append_assoc, skipWords,
      ByteReader.bind_ok (readInt_word _ value _ (fits value mem_cons_self))]
    exact skipped
  | case4 value =>
    have unknown : isTag value = false := by simpa [passes] using passed
    refine ⟨_, rfl, ?_⟩
    rw [words_cons, words_nil, append_nil, run_unknown (fits value mem_cons_self) unknown]
  | case5 length others ih =>
    rw [passes, if_pos rfl] at passed
    obtain ⟨stream, skipped, same⟩ := ih
      (fun other listed => fits other (by simp [listed])) passed
    cases skipped
    refine ⟨_, rfl, ?_⟩
    rw [words_cons, words_cons, append_assoc, append_assoc,
      run_object (fits length (by simp)), same]
  | case6 length others notObject ih =>
    rw [passes, if_neg notObject, if_pos rfl] at passed
    obtain ⟨stream, skipped, same⟩ := ih
      (fun other listed => fits other (by simp [listed])) passed
    refine ⟨_, rfl, ?_⟩
    rw [words_cons, words_cons, append_assoc, append_assoc,
      run_program (fits length (by simp)), skipped]
    exact same
  | case7 value length others notObject notProgram known =>
    rw [passes, if_neg notObject, if_neg notProgram, if_pos known] at passed
    cases passed
  | case8 value length others notObject notProgram unknown ih =>
    rw [passes, if_neg notObject, if_neg notProgram, if_neg unknown] at passed
    obtain ⟨stream, skipped, same⟩ := ih
      (fun other listed => fits other (mem_cons_of_mem _ listed)) passed
    cases skipped
    refine ⟨_, rfl, ?_⟩
    rw [words_cons, append_assoc,
      run_unknown (fits value mem_cons_self) (Bool.eq_false_iff.mpr unknown), same]

/-! ## Records that are skipped -/

/-- A record may be put between two records of a file without a change of the outcome. -/
def Skips (inserted : GcovRecord) : Prop :=
  ∀ (header : GcovStream) (summary : FileSummary) (before after : List GcovRecord),
    before ≠ [] → after ≠ [] → (scan header).WellFormed (none, summary) (before ++ after) →
    (GcdaParser.mk header (GcovRecord.encode header.format (before ++ inserted :: after))).parse
        summary =
      (GcdaParser.mk header (GcovRecord.encode header.format (before ++ after))).parse summary

theorem skips_of_passes {inserted : GcovRecord} (unknown : isTag inserted.tag = false)
    (passed : passes 0 inserted.body = true) : Skips inserted := by
  intro header start before after _ _ wellFormed
  obtain ⟨⟨func, summary⟩, -, -, runs⟩ :=
    @RecordScan.run_records _ _ (scan header) (fun _ => True) (fun _ => trivial) _ _ _ wellFormed
  have same_run : run header none start
      (GcovRecord.encode header.format (before ++ inserted :: after)) =
        run header none start (GcovRecord.encode header.format (before ++ after)) := by
    rw [GcovRecord.encode_append, GcovRecord.encode_append, GcovRecord.encode_cons]
    refine (runs _).trans (Eq.trans ?_ (runs _).symm)
    rw [GcovRecord.record_words, append_assoc]
    obtain ⟨stream, skipped, same⟩ := @run_passes header _ _ inserted.body_fits passed func summary
      (GcovRecord.encode header.format after)
    cases skipped
    exact (run_unknown inserted.tagFits unknown func summary _).trans same
  exact same_run

/-! ## Records that are not skipped -/

/-- A record of no objects. -/
def objectRecord : GcovRecord where
  tag := tagObject
  payload := []
  tagFits := by decide
  lengthFits := GcovRecord.empty_lengthFits
  payloadFits := GcovRecord.empty_payloadFits

/-- A program record that is filled with counter tags. -/
def programRecord (length : Nat) (fits : length < 2 ^ 32) : GcovRecord where
  tag := tagProgram
  payload := List.replicate length tagCounter
  tagFits := by decide
  lengthFits := by simpa using fits
  payloadFits := by
    intro value listed
    rw [List.eq_of_mem_replicate listed]
    decide

/-- The parse ends with an exception. -/
def Fails (outcome : Except Exception Unit × FileSummary) : Prop :=
  ∃ failure, outcome.1 = .error failure

section

variable {length count : Nat} {stream : List UInt8}

theorem run_counter (lengthFits : length < 2 ^ 32) (summary : FileSummary) (rest : List UInt8) :
    Fails (run self none summary
      (word self.format tagCounter ++ (word self.format length ++ rest))) := by
  rw [run_tag (by decide) lengthFits]
  exact ⟨_, rfl⟩

/-- A function record without a function of the summary is an error, wherever its words end. -/
theorem run_function {ident : Nat} (lengthFits : length < 2 ^ 32) (identFits : ident < 2 ^ 32)
    (rest : List UInt8) :
    Fails (run self none FileSummary.init
      (word self.format tagFunction ++ (word self.format length ++
        (word self.format ident ++ rest)))) := by
  rw [run_tag (by decide) lengthFits, readRecord, if_pos rfl, readFunction,
    ByteReader.bind_ok (readInt_word _ ident _ identFits)]
  exact ⟨_, rfl⟩

theorem run_counters (more : 2 ≤ count) (summary : FileSummary) :
    Fails (run self none summary (words self.format (List.replicate count tagCounter))) := by
  obtain ⟨others, rfl⟩ := Nat.exists_eq_add_of_le' more
  rw [replicate_succ, replicate_succ, words_cons, words_cons]
  exact run_counter (by decide) summary _

theorem skipWords_drop {values : List Nat}
    (skipped : skipWords self.format count (words self.format values) = .ok ((), stream)) :
    stream = words self.format (values.drop count) := by
  induction count generalizing values with
  | zero =>
    cases skipped
    rfl
  | succ count ih =>
    cases values with
    | nil => cases skipped
    | cons value others =>
      rw [skipWords, words_cons, ByteReader.bind_ok (readInt_append _ _ _ (word_length _ value))]
        at skipped
      exact ih skipped

/-- A program record filled with counter tags ends the parse with an exception if the search for a
tag skips its tag. -/
theorem run_filled (long : length = 2 ^ 32 - 1) {skip : Nat} (below : skip < length)
    (skipped : skipWords self.format skip
      (words self.format (length :: List.replicate length tagCounter)) = .ok ((), stream)) :
    Fails (run self none FileSummary.init stream) := by
  rw [skipWords_drop skipped]
  cases skip with
  | zero =>
    have unknown : isTag length = false := by
      rw [long]
      decide
    rw [drop_zero, words_cons, run_unknown (by omega) unknown]
    exact run_counters (by omega) FileSummary.init
  | succ skip =>
    rw [drop_succ_cons, drop_replicate]
    exact run_counters (by omega) FileSummary.init

/-- Words that do not pass end the parse with an exception if such a record comes next. -/
theorem run_not_passed {length : Nat} (long : length = 2 ^ 32 - 1) {skip : Nat}
    (below : skip ≤ length) {values : List Nat} (fits : ∀ value ∈ values, value < 2 ^ 32)
    (stopped : passes skip values = false) {stream : List UInt8}
    (skipped : skipWords self.format skip (words self.format values ++
      words self.format (tagProgram :: length :: List.replicate length tagCounter)) =
        .ok ((), stream)) :
    Fails (run self none FileSummary.init stream) := by
  induction skip, values using passes.induct generalizing stream with
  | case1 => cases stopped
  | case2 skip =>
    rw [words_nil, nil_append, words_cons, skipWords,
      ByteReader.bind_ok (readInt_word _ tagProgram _ (by decide))] at skipped
    exact run_filled long (by omega) skipped
  | case3 skip value others ih =>
    rw [words_cons, append_assoc, skipWords,
      ByteReader.bind_ok (readInt_word _ value _ (fits value mem_cons_self))] at skipped
    exact ih (by omega)
      (fun other listed => fits other (mem_cons_of_mem _ listed)) stopped skipped
  | case4 value =>
    have known : isTag value = true := by simpa [passes] using stopped
    cases skipped
    rw [words_cons, words_nil, append_nil, words_cons]
    simp only [isTag, Bool.or_eq_true, beq_iff_eq] at known
    rcases known with ((rfl | rfl) | rfl) | rfl
    · rw [words_cons]
      exact run_function (by decide) (by omega) _
    · exact run_counter (by decide) FileSummary.init _
    · rw [run_object (by decide)]
      have start : 0 < length := by omega
      exact run_filled long start rfl
    · rw [run_program (by decide)]
      cases further : skipWords self.format (1 + (tagProgram - 1))
          (words self.format (length :: List.replicate length tagCounter)) with
      | error failure => exact ⟨failure, rfl⟩
      | ok result =>
        refine run_filled long ?_ further
        rw [long]
        decide
  | case5 second others ih =>
    rw [passes, if_pos rfl] at stopped
    cases skipped
    rw [words_cons, words_cons, append_assoc, append_assoc,
      run_object (fits second (by simp))]
    exact ih (Nat.zero_le _) (fun other listed => fits other (by simp [listed]))
      stopped rfl
  | case6 second others notObject ih =>
    rw [passes, if_neg notObject, if_pos rfl] at stopped
    have secondFits := fits second (by simp)
    cases skipped
    rw [words_cons, words_cons, append_assoc, append_assoc, run_program secondFits]
    cases further : skipWords self.format (1 + (second - 1)) (words self.format others ++
        words self.format (tagProgram :: length :: List.replicate length tagCounter)) with
    | error failure => exact ⟨failure, rfl⟩
    | ok result =>
      exact ih (by omega) (fun other listed => fits other (by simp [listed]))
        stopped further
  | case7 value second others notObject notProgram known =>
    have secondFits := fits second (by simp)
    cases skipped
    rw [words_cons, words_cons, append_assoc, append_assoc]
    simp only [isTag, Bool.or_eq_true, beq_iff_eq] at known
    rcases known with ((rfl | rfl) | rfl) | rfl
    · cases others with
      | nil =>
        rw [words_nil, nil_append, words_cons]
        exact run_function secondFits (by decide) _
      | cons third others =>
        rw [words_cons, append_assoc]
        exact run_function secondFits (fits third (by simp)) _
    · exact run_counter secondFits FileSummary.init _
    · exact absurd rfl notObject
    · exact absurd rfl notProgram
  | case8 value second others notObject notProgram unknown ih =>
    rw [passes, if_neg notObject, if_neg notProgram, if_neg unknown] at stopped
    cases skipped
    rw [words_cons, append_assoc,
      run_unknown (fits value mem_cons_self) (Bool.eq_false_iff.mpr unknown)]
    exact ih (Nat.zero_le _)
      (fun other listed => fits other (mem_cons_of_mem _ listed)) stopped rfl

theorem encode_programRecord (order : ByteOrder) (fits : length < 2 ^ 32) :
    GcovRecord.encode order [programRecord length fits] =
      words order (tagProgram :: length :: List.replicate length tagCounter) := by
  have body : (programRecord length fits).body = length :: List.replicate length tagCounter := by
    simp [GcovRecord.body, programRecord]
  rw [GcovRecord.encode_cons, GcovRecord.record_words, GcovRecord.encode_nil, append_nil, body]
  rfl

/-- The header of a little-endian file. -/
def littleEndian : GcovStream := ⟨.little, [42, 52, 48, 52], 0⟩

theorem skipWords_filled (positive : 0 < length) :
    skipWords littleEndian.format (1 + (length - 1))
      (words littleEndian.format (List.replicate length tagCounter)) = .ok ((), []) := by
  have counted : 1 + (length - 1) = (List.replicate length tagCounter).length := by
    rw [length_replicate]
    omega
  have skipped := @skipWords_words littleEndian (List.replicate length tagCounter) [] (by
    intro value listed
    rw [eq_of_mem_replicate listed]
    decide)
  rw [append_nil] at skipped
  rw [counted, skipped]

theorem filled_wellFormed (fits : length < 2 ^ 32) (positive : 0 < length) :
    (scan littleEndian).WellFormed (none, FileSummary.init)
      ([objectRecord] ++ [programRecord length fits]) := by
  have program : readRecord littleEndian tagProgram (List.replicate length tagCounter).length none
      FileSummary.init (words littleEndian.format (List.replicate length tagCounter)) =
        (.ok (none, []), FileSummary.init) := by
    rw [readRecord, if_neg (by decide), if_neg (by decide), if_neg (by decide),
      length_replicate, skipWords_filled positive]
  refine ⟨rfl, (none, FileSummary.init), [], nil_suffix, by simp, rfl, rfl,
    (none, FileSummary.init), [], nil_suffix, by simp, ?_, trivial⟩
  simp only [scan, step, programRecord]
  rw [program]
  rfl

end

theorem passes_of_skips {inserted : GcovRecord} (unknown : isTag inserted.tag = false)
    (skips : Skips inserted) : passes 0 inserted.body = true := by
  by_contra stopped
  obtain ⟨length, long⟩ : ∃ length : Nat, length = 2 ^ 32 - 1 := ⟨_, rfl⟩
  have fits : length < 2 ^ 32 := by omega
  have positive : 0 < length := by omega
  have same := skips littleEndian FileSummary.init [objectRecord] [programRecord length fits]
    (cons_ne_nil _ _) (cons_ne_nil _ _) (filled_wellFormed fits positive)
  have object (rest : List UInt8) : run littleEndian none FileSummary.init
      (GcovRecord.encode littleEndian.format [objectRecord] ++ rest) =
        run littleEndian none FileSummary.init rest :=
    run_object (by decide) none FileSummary.init rest
  have alone : run littleEndian none FileSummary.init
      (GcovRecord.encode littleEndian.format [programRecord length fits]) =
        (.ok (), FileSummary.init) := by
    rw [encode_programRecord, words_cons, words_cons, run_program fits, skipWords_filled positive]
    rfl
  have inserted_words : GcovRecord.encode littleEndian.format
      (inserted :: [programRecord length fits]) =
        word littleEndian.format inserted.tag ++ (words littleEndian.format inserted.body ++
          words littleEndian.format (tagProgram :: length :: List.replicate length tagCounter)) := by
    rw [GcovRecord.encode_cons, GcovRecord.record_words, encode_programRecord, append_assoc]
  rw [parse_eq_run, parse_eq_run, GcovRecord.encode_append, GcovRecord.encode_append, object,
    object, alone, inserted_words, run_unknown inserted.tagFits unknown] at same
  obtain ⟨failure, failed⟩ := @run_not_passed littleEndian length long 0 (Nat.zero_le _)
    inserted.body inserted.body_fits (Bool.eq_false_iff.mpr stopped) _ rfl
  rw [same] at failed
  cases failed

end GcdaParser

/-- A record with an unknown tag is skipped, in every file and between any two records, if and only
if the search for a tag passes its length word and its payload. -/
theorem unknown_record_skipped_iff (inserted : GcovRecord) :
    (GcnoParser.isTag inserted.tag = false →
      (GcnoParser.Skips inserted ↔ GcnoParser.passes inserted.body = true)) ∧
    (GcdaParser.isTag inserted.tag = false →
      (GcdaParser.Skips inserted ↔ GcdaParser.passes 0 inserted.body = true)) :=
  ⟨fun unknown => ⟨GcnoParser.passes_of_skips unknown, GcnoParser.skips_of_passes unknown⟩,
    fun unknown => ⟨GcdaParser.passes_of_skips unknown, GcdaParser.skips_of_passes unknown⟩⟩

/-- A record with the tag 7 and one word as its payload. -/
def oneWord (value : Nat) (fits : value < 2 ^ 32) : GcovRecord where
  tag := 7
  payload := [value]
  tagFits := by decide
  lengthFits := by simp
  payloadFits := by simpa using fits

/-- A word that is no tag in either file. -/
theorem unknown_record_skipped_plain :
    GcnoParser.Skips (oneWord 9 (by decide)) ∧ GcdaParser.Skips (oneWord 9 (by decide)) :=
  ⟨((unknown_record_skipped_iff (oneWord 9 (by decide))).1 (by decide)).mpr (by decide),
    ((unknown_record_skipped_iff (oneWord 9 (by decide))).2 (by decide)).mpr (by decide)⟩

/-- The tag of functions as the payload makes an error of a GCNO file with a function. -/
theorem unknown_record_read :
    GcnoParser.isTag (oneWord GcnoParser.tagFunction (by decide)).tag = false ∧
      (GcnoParser.scan GcnoParser.version4).WellFormed (none, FileSummary.init)
        ([GcnoParser.bareRecord 5 (by decide)] ++ [GcnoParser.noBlocks]) ∧
      (GcnoParser.mk GcnoParser.version4 (GcovRecord.encode .little
        ([GcnoParser.bareRecord 5 (by decide)] ++ [GcnoParser.noBlocks]))).parse =
          .ok ⟨[(5, GcnoParser.bare 5)]⟩ ∧
      (GcnoParser.mk GcnoParser.version4 (GcovRecord.encode .little
        ([GcnoParser.bareRecord 5 (by decide)] ++
          oneWord GcnoParser.tagFunction (by decide) :: [GcnoParser.noBlocks]))).parse =
            .error corruptFile :=
  ⟨rfl, GcnoParser.bare_wellFormed (by decide), rfl, rfl⟩

end Vts.Coverage
