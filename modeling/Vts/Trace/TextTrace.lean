import Vts.Trace.Latency

/-!
# Text traces

`VtsTraceProcessor::ParseTextTrace` of `utils/native/trace_processor/VtsTraceProcessor.cpp`, which
reads the records of a trace from text where a blank line follows each of them. The text format of
messages belongs to another library: what is asked of it is that it reads back what it prints, and
that it prints lines that are not empty, each with a newline after it.

Proved here: a text of records with a blank line between any two of them is read as these records
exactly when there are none or a blank line follows the last one. Otherwise the last record is left
out, and the function succeeds all the same.
-/

namespace Vts.Trace

open List

/-! ## The text format -/

variable {Record : Type}

/-- The text format for a type of messages. -/
structure TextFormat (Record : Type) where
  PrintToString : Record → List Char
  MergeFromString : List Char → Option Record

/-- Lines with a newline after each of them. -/
def unlines (lines : List (List Char)) : List Char := lines.flatMap (· ++ ['\n'])

/-- The lines of a text are not blank. -/
def Solid (lines : List (List Char)) : Prop := ∀ line ∈ lines, line ≠ [] ∧ '\n' ∉ line

/-- What is asked of the text format. -/
structure TextFormat.Lawful (format : TextFormat Record) : Prop where
  lines : ∀ record, ∃ lines, Solid lines ∧ format.PrintToString record = unlines lines
  roundTrip : ∀ record, format.MergeFromString (format.PrintToString record) = some record

/-! ## The parser -/

/-- The lines that `getline` gives of a text, one after the other. -/
def getlines : List Char → List (List Char)
  | [] => []
  | '\n' :: rest => [] :: getlines rest
  | char :: rest =>
    match getlines rest with
    | [] => [[char]]
    | line :: others => (char :: line) :: others

/-- The variables of `ParseTextTrace`. -/
structure TextState (Record : Type) where
  new_record : Bool
  record_str : List Char
  records : List Record

/-- The loop of `ParseTextTrace` over the lines. -/
def parseLines (format : TextFormat Record) : List (List Char) → TextState Record →
    Bool × List Record
  | [], state => (true, state.records)
  | line :: rest, state =>
    let new_record := if line.isEmpty then false else state.new_record
    if new_record then
      parseLines format rest ⟨new_record, state.record_str ++ (line ++ ['\n']), state.records⟩
    else
      match format.MergeFromString state.record_str with
      | none => (false, state.records)
      | some record => parseLines format rest ⟨true, [], state.records ++ [record]⟩

/-- Whether the text could be parsed, and the records. -/
def ParseTextTrace (format : TextFormat Record) (text : List Char) : Bool × List Record :=
  parseLines format (getlines text) ⟨true, [], []⟩

/-! ## Texts of records -/

/-- What comes after the last record: its last newline is left out, or there is only this newline,
or there is a blank line. -/
inductive Ending where
  | noNewline
  | newline
  | blankLine
deriving DecidableEq

def Ending.finish : Ending → List Char → List Char
  | .noNewline, text => text.dropLast
  | .newline, text => text
  | .blankLine, text => text ++ ['\n']

/-- The text forms of records, with a blank line between any two of them. -/
def traceText (format : TextFormat Record) : List Record → Ending → List Char
  | [], _ => []
  | [record], ending => ending.finish (format.PrintToString record)
  | record :: next :: rest, ending =>
    format.PrintToString record ++ '\n' :: traceText format (next :: rest) ending

section

variable {line : List Char} {lines : List (List Char)} (format : TextFormat Record)

theorem traceText_concat (records : List Record) (last : Record) (ending : Ending) :
    traceText format (records ++ [last]) ending =
      records.flatMap (fun record => format.PrintToString record ++ ['\n']) ++
        ending.finish (format.PrintToString last) := by
  induction records with
  | nil => rfl
  | cons record rest ih =>
    cases rest with
    | nil => simp [traceText]
    | cons next others =>
      rw [cons_append, cons_append, traceText, ← cons_append, ih]
      simp

/-! ## Lines -/

theorem getlines_line (noNewline : '\n' ∉ line) (rest : List Char) :
    getlines (line ++ '\n' :: rest) = line :: getlines rest := by
  induction line with
  | nil => rfl
  | cons char chars ih =>
    obtain ⟨notNewline, others⟩ := ne_and_not_mem_of_not_mem_cons noNewline
    rw [cons_append, getlines, ih others]
    rintro rfl
    exact notNewline rfl

theorem getlines_unlines (solid : Solid lines) (rest : List Char) :
    getlines (unlines lines ++ rest) = lines ++ getlines rest := by
  induction lines with
  | nil => rfl
  | cons line others ih =>
    obtain ⟨here, later⟩ := forall_mem_cons.mp solid
    have text : unlines (line :: others) ++ rest = line ++ '\n' :: (unlines others ++ rest) := by
      simp [unlines]
    rw [text, getlines_line here.2, ih later, cons_append]

/-- A line at the end of a text needs no newline. -/
theorem getlines_last (noNewline : '\n' ∉ line) (nonempty : line ≠ []) :
    getlines line = [line] := by
  induction line with
  | nil => exact absurd rfl nonempty
  | cons char chars ih =>
    obtain ⟨notNewline, others⟩ := ne_and_not_mem_of_not_mem_cons noNewline
    have distinct : char = '\n' → False := fun same => notNewline same.symm
    cases chars with
    | nil =>
      rw [getlines, getlines]
      exact distinct
    | cons next rest =>
      rw [getlines, ih others (cons_ne_nil _ _)]
      exact distinct

/-- Without its last newline a text has the same lines. -/
theorem getlines_dropLast (solid : Solid lines) : getlines (unlines lines).dropLast = lines := by
  rcases eq_nil_or_concat lines with rfl | ⟨front, last, rfl⟩
  · rfl
  · rw [concat_eq_append] at solid ⊢
    have text : (unlines (front ++ [last])).dropLast = unlines front ++ last := by
      rw [unlines, flatMap_append, flatMap_singleton, ← append_assoc,
        dropLast_concat]
      rfl
    obtain ⟨nonempty, noNewline⟩ := solid last (mem_append_right _ (mem_singleton_self _))
    rw [text, getlines_unlines fun line listed => solid line (mem_append_left _ listed),
      getlines_last noNewline nonempty]

/-! ## Runs of the loop -/

/-- Lines that are not empty are added to the record. -/
theorem parseLines_solid (solid : Solid lines) (rest : List (List Char)) (text : List Char)
    (records : List Record) :
    parseLines format (lines ++ rest) ⟨true, text, records⟩ =
      parseLines format rest ⟨true, text ++ unlines lines, records⟩ := by
  induction lines generalizing text with
  | nil => simp [unlines]
  | cons line others ih =>
    obtain ⟨here, later⟩ := forall_mem_cons.mp solid
    have notEmpty : line.isEmpty = false := isEmpty_eq_false_iff.mpr here.1
    rw [cons_append, parseLines]
    simp only [notEmpty, Bool.false_eq_true, ↓reduceIte]
    rw [ih later]
    simp [unlines]

/-- The records that a blank line follows are read. -/
theorem parseLines_records {format : TextFormat Record} (lawful : format.Lawful)
    (records earlier : List Record) (rest : List Char) :
    parseLines format (getlines (records.flatMap (fun record =>
        format.PrintToString record ++ ['\n']) ++ rest)) ⟨true, [], earlier⟩ =
      parseLines format (getlines rest) ⟨true, [], earlier ++ records⟩ := by
  induction records generalizing earlier with
  | nil => simp
  | cons record others ih =>
    obtain ⟨lines, solid, printed⟩ := lawful.lines record
    have text : (record :: others).flatMap (fun record => format.PrintToString record ++ ['\n']) ++
        rest = unlines lines ++ '\n' :: (others.flatMap
          (fun record => format.PrintToString record ++ ['\n']) ++ rest) := by
      simp [printed]
    have flushed := lawful.roundTrip record
    rw [printed] at flushed
    rw [text, getlines_unlines solid, parseLines_solid format solid, getlines, parseLines]
    simp only [isEmpty_nil, ↓reduceIte, Bool.false_eq_true, nil_append, flushed]
    rw [ih, append_assoc, singleton_append]

/-- The lines of a record that no blank line follows are forgotten. -/
theorem parseLines_unfinished (solid : Solid lines) (records : List Record) :
    parseLines format lines ⟨true, [], records⟩ = (true, records) := by
  have whole := parseLines_solid format solid [] [] records
  rw [append_nil] at whole
  rw [whole, parseLines]

end

theorem parseTextTrace_eq {format : TextFormat Record} (lawful : format.Lawful)
    (records : List Record) (ending : Ending) :
    ParseTextTrace format (traceText format records ending) =
      (true, if ending = .blankLine then records else records.dropLast) := by
  rcases eq_nil_or_concat records with rfl | ⟨front, last, rfl⟩
  · cases ending <;> rfl
  · obtain ⟨lines, solid, printed⟩ := lawful.lines last
    rw [concat_eq_append, dropLast_concat, traceText_concat, ParseTextTrace]
    cases ending with
    | noNewline =>
      rw [parseLines_records lawful, Ending.finish, printed, getlines_dropLast solid]
      exact parseLines_unfinished format solid front
    | newline =>
      have whole := getlines_unlines solid []
      rw [append_nil, getlines, append_nil] at whole
      rw [parseLines_records lawful, Ending.finish, printed, whole]
      exact parseLines_unfinished format solid front
    | blankLine =>
      have text : front.flatMap (fun record => format.PrintToString record ++ ['\n']) ++
          Ending.blankLine.finish (format.PrintToString last) = (front ++ [last]).flatMap
            (fun record => format.PrintToString record ++ ['\n']) ++ [] := by
        simp [Ending.finish]
      rw [text, parseLines_records lawful]
      rfl

/-- A text of records is read as these records exactly when there are none, or a blank line follows
the last one. -/
theorem parseTextTrace_reads_iff {format : TextFormat Record} (lawful : format.Lawful)
    (records : List Record) (ending : Ending) :
    ParseTextTrace format (traceText format records ending) = (true, records) ↔
      records = [] ∨ ending = .blankLine := by
  rw [parseTextTrace_eq lawful]
  by_cases blank : ending = .blankLine
  · simp [blank]
  · rw [if_neg blank, Prod.mk.injEq]
    constructor
    · rintro ⟨-, same⟩
      refine .inl (eq_nil_of_length_eq_zero ?_)
      have shorter := congrArg List.length same
      rw [length_dropLast] at shorter
      omega
    · rintro (rfl | same)
      · exact ⟨rfl, rfl⟩
      · exact absurd same blank

/-! ## A text format -/

def InstrumentationEventType.name : InstrumentationEventType → String
  | .SERVER_API_ENTRY => "SERVER_API_ENTRY"
  | .SERVER_API_EXIT => "SERVER_API_EXIT"
  | .CLIENT_API_ENTRY => "CLIENT_API_ENTRY"
  | .CLIENT_API_EXIT => "CLIENT_API_EXIT"
  | .SYNC_CALLBACK_ENTRY => "SYNC_CALLBACK_ENTRY"
  | .SYNC_CALLBACK_EXIT => "SYNC_CALLBACK_EXIT"
  | .ASYNC_CALLBACK_ENTRY => "ASYNC_CALLBACK_ENTRY"
  | .ASYNC_CALLBACK_EXIT => "ASYNC_CALLBACK_EXIT"
  | .PASSTHROUGH_ENTRY => "PASSTHROUGH_ENTRY"
  | .PASSTHROUGH_EXIT => "PASSTHROUGH_EXIT"

/-- The line of a field. -/
def eventLine (event : InstrumentationEventType) : List Char := ("event: " ++ event.name).toList

/-- The text format of records in which nothing but the event may be set. -/
def eventFormat : TextFormat (Option InstrumentationEventType) where
  PrintToString record := unlines (record.toList.map eventLine)
  MergeFromString text :=
    [none, some .SERVER_API_ENTRY, some .SERVER_API_EXIT, some .CLIENT_API_ENTRY,
      some .CLIENT_API_EXIT, some .SYNC_CALLBACK_ENTRY, some .SYNC_CALLBACK_EXIT,
      some .ASYNC_CALLBACK_ENTRY, some .ASYNC_CALLBACK_EXIT, some .PASSTHROUGH_ENTRY,
      some .PASSTHROUGH_EXIT].find? fun record => unlines (record.toList.map eventLine) = text

theorem eventFormat_lawful : eventFormat.Lawful where
  lines record := by
    refine ⟨record.toList.map eventLine, ?_, rfl⟩
    intro line listed
    obtain ⟨event, -, rfl⟩ := mem_map.mp listed
    cases event <;> decide +kernel
  roundTrip record := by
    obtain _ | event := record
    · decide +kernel
    · cases event <;> decide +kernel

theorem parseTextTrace_reads_call :
    ParseTextTrace eventFormat (traceText eventFormat
        [some .SERVER_API_ENTRY, some .SERVER_API_EXIT] .blankLine) =
      (true, [some .SERVER_API_ENTRY, some .SERVER_API_EXIT]) :=
  (parseTextTrace_reads_iff eventFormat_lawful _ _).mpr (.inr rfl)

/-- The exit of the call is left out. -/
theorem parseTextTrace_reads_unfinished :
    ParseTextTrace eventFormat (traceText eventFormat
        [some .SERVER_API_ENTRY, some .SERVER_API_EXIT] .newline) =
      (true, [some .SERVER_API_ENTRY]) := by
  decide +kernel

end Vts.Trace
