import Vts.Trace.Latency

/-!
# Cleaning traces up

`VtsTraceProcessor::CleanupTraceFile` of `utils/native/trace_processor/VtsTraceProcessor.cpp`, with
`ParseBinaryTrace` and `WriteProfilingMsg`. A trace file is the list of the records in it; the
system opens and renames the files that there are.

The header says that traces are cleaned up to be used for replaying. The records are read without
the arguments and the results of the calls, and written back so. Proved here: when the records that
are kept are the ones of the original trace, and that cleaning up a second time changes nothing.
-/

namespace Vts.Trace.Cleanup

open List

/-! ## Records -/

variable {Variable Other : Type}

/-- `FunctionSpecificationMessage`, with the fields that are cleared. -/
structure FunctionSpecificationMessage (Variable Other : Type) where
  arg : List Variable
  return_type_hidl : List Variable
  other : Option Other
deriving DecidableEq

/-- `VtsProfilingRecord`: what the getters give for the event, package and version, and the rest of
the message. -/
structure VtsProfilingRecord (Variable Other : Type) where
  timestamp : Option Int64
  event : InstrumentationEventType
  package : String
  version_major : Int
  version_minor : Int
  func_msg : Option (FunctionSpecificationMessage Variable Other)
  other : Option Other
deriving DecidableEq

namespace VtsProfilingRecord

/-- `mutable_func_msg` makes a message where there is none. -/
def clear_params (record : VtsProfilingRecord Variable Other) : VtsProfilingRecord Variable Other :=
  { record with func_msg := some ⟨[], [], record.func_msg.bind (·.other)⟩ }

def clear_timestamp (record : VtsProfilingRecord Variable Other) :
    VtsProfilingRecord Variable Other :=
  { record with timestamp := none }

end VtsProfilingRecord

/-! ## Files -/

/-- The trace files by their names. -/
abbrev Files (Variable Other : Type) := String → Option (List (VtsProfilingRecord Variable Other))

/-- The records of a trace file, none when it cannot be opened. -/
def ParseBinaryTrace (files : Files Variable Other) (trace_file : String)
    (ignore_timestamp entry_only ignore_func_params : Bool) :
    Option (List (VtsProfilingRecord Variable Other)) :=
  (files trace_file).map fun records =>
    let records := if ignore_timestamp then records.map (·.clear_timestamp) else records
    let records := if ignore_func_params then records.map (·.clear_params) else records
    if entry_only then records.filter fun record => isEntryEvent record.event else records

/-- The files after a trace is written to a new file, none when there is a file already. -/
def WriteProfilingMsg (files : Files Variable Other) (output_file : String)
    (records : List (VtsProfilingRecord Variable Other)) : Option (Files Variable Other) :=
  match files output_file with
  | some _ => none
  | none => some (Function.update files output_file (some records))

def rename (files : Files Variable Other) (old new : String) : Files Variable Other :=
  Function.update (Function.update files new (files old)) old none

/-! ## The cleanup -/

inductive TRACE_TYPE where
  | server_trace | client_trace | passthrough_trace
deriving DecidableEq

/-- The type of a trace, by the event of its first record. -/
def traceType : InstrumentationEventType → Option TRACE_TYPE
  | .SERVER_API_ENTRY => some .server_trace
  | .CLIENT_API_ENTRY => some .client_trace
  | .PASSTHROUGH_ENTRY => some .passthrough_trace
  | _ => none

/-- The events of a type of trace. -/
def TRACE_TYPE.has (trace_type : TRACE_TYPE) (event : InstrumentationEventType) : Bool :=
  match trace_type with
  | .server_trace => event = .SERVER_API_ENTRY || event = .SERVER_API_EXIT
  | .client_trace => event = .CLIENT_API_ENTRY || event = .CLIENT_API_EXIT
  | .passthrough_trace => event = .PASSTHROUGH_ENTRY || event = .PASSTHROUGH_EXIT

/-- The loop over the records, none when the first one is not as expected. -/
def cleanRecords (records : List (VtsProfilingRecord Variable Other)) :
    Option (List (VtsProfilingRecord Variable Other)) :=
  match records with
  | [] => some []
  | first :: _ =>
    (traceType first.event).map fun trace_type =>
      records.filter fun record =>
        !(record.package ≠ first.package || record.version_major ≠ first.version_major ||
          record.version_minor ≠ first.version_minor) && trace_type.has record.event

/-- The files after the cleanup of one of them. -/
def CleanupTraceFile (files : Files Variable Other) (trace_file : String) : Files Variable Other :=
  match ParseBinaryTrace files trace_file false false true with
  | none => files
  | some records =>
    match cleanRecords records with
    | none => files
    | some clean_records =>
      match WriteProfilingMsg files (trace_file ++ "_tmp") clean_records with
      | none => files
      | some written => rename written (trace_file ++ "_tmp") trace_file

/-! ## What is kept -/

/-- The entry and the exit event of the side of an entry event. -/
def sideEvents : InstrumentationEventType → List InstrumentationEventType
  | .SERVER_API_ENTRY => [.SERVER_API_ENTRY, .SERVER_API_EXIT]
  | .CLIENT_API_ENTRY => [.CLIENT_API_ENTRY, .CLIENT_API_EXIT]
  | .PASSTHROUGH_ENTRY => [.PASSTHROUGH_ENTRY, .PASSTHROUGH_EXIT]
  | _ => []

/-- A record of the package, version and side of the first record. -/
def Belongs (first record : VtsProfilingRecord Variable Other) : Prop :=
  record.package = first.package ∧ record.version_major = first.version_major ∧
    record.version_minor = first.version_minor ∧ record.event ∈ sideEvents first.event

instance (first record : VtsProfilingRecord Variable Other) : Decidable (Belongs first record) :=
  inferInstanceAs (Decidable (_ ∧ _))

/-- A record with a function message that has no arguments and no results. -/
def VtsProfilingRecord.Bare (record : VtsProfilingRecord Variable Other) : Prop :=
  ∃ func_msg, record.func_msg = some func_msg ∧ func_msg.arg = [] ∧ func_msg.return_type_hidl = []

theorem clear_params_eq_self_iff (record : VtsProfilingRecord Variable Other) :
    record.clear_params = record ↔ record.Bare := by
  constructor
  · intro same
    have function : some _ = record.func_msg := congrArg VtsProfilingRecord.func_msg same
    exact ⟨_, function.symm, rfl, rfl⟩
  · rintro ⟨⟨arg, results, other⟩, function, rfl, rfl⟩
    rw [VtsProfilingRecord.clear_params, function]
    obtain ⟨timestamp, event, package, major, minor, func_msg, rest⟩ := record
    cases function
    rfl

/-- The records of a trace that belong to its first record. -/
def kept (records : List (VtsProfilingRecord Variable Other)) :
    List (VtsProfilingRecord Variable Other) :=
  match records with
  | [] => []
  | first :: _ => records.filter fun record => Belongs first record

section

variable {first : VtsProfilingRecord Variable Other}
  (records : List (VtsProfilingRecord Variable Other))

/-- What belongs together is not changed by clearing the parameters. -/
theorem kept_map_clear :
    kept (records.map (·.clear_params)) = (kept records).map (·.clear_params) := by
  cases records with
  | nil => rfl
  | cons first rest => exact filter_map ..

theorem kept_cons (own : Belongs first first) (rest : List (VtsProfilingRecord Variable Other)) :
    kept (first :: rest) = first :: rest.filter fun record => Belongs first record := by
  rw [kept, filter_cons, if_pos (decide_eq_true own)]

theorem belongs_of_entry (entry : isEntryEvent first.event = true) : Belongs first first := by
  refine ⟨rfl, rfl, rfl, ?_⟩
  revert entry
  cases first.event <;> simp [isEntryEvent, sideEvents]

theorem kept_kept : kept (kept records) = kept records := by
  cases records with
  | nil => rfl
  | cons first rest =>
    by_cases own : Belongs first first
    · have shape := kept_cons own rest
      rw [shape]
      refine filter_eq_self.mpr fun record listed => ?_
      rw [← shape] at listed
      exact (mem_filter.mp listed).2
    · have none : kept (first :: rest) = [] := by
        refine filter_eq_nil_iff.mpr fun record _ belongs => own ?_
        obtain ⟨-, -, -, event⟩ := of_decide_eq_true belongs
        refine ⟨rfl, rfl, rfl, ?_⟩
        revert event
        cases first.event <;> simp [sideEvents]
      rw [none]
      rfl

/-- For a trace that begins with an entry event the loop keeps what belongs to it. -/
theorem cleanRecords_eq (entry : isEntryEvent first.event = true)
    (rest : List (VtsProfilingRecord Variable Other)) :
    cleanRecords (first :: rest) = some (kept (first :: rest)) := by
  have typed : ∃ trace_type, traceType first.event = some trace_type ∧
      ∀ event, trace_type.has event = decide (event ∈ sideEvents first.event) := by
    revert entry
    cases first.event <;> simp [isEntryEvent, traceType, TRACE_TYPE.has, sideEvents]
  obtain ⟨trace_type, same, has⟩ := typed
  rw [cleanRecords, same]
  simp only [Option.map_some, Option.some.injEq, kept]
  refine filter_congr fun record _ => ?_
  rw [has, Bool.eq_iff_iff, decide_eq_true_iff]
  simp [Belongs, and_assoc]

end

section

variable {files : Files Variable Other} {trace_file : String}

theorem tmp_ne (trace_file : String) : trace_file ++ "_tmp" ≠ trace_file := by
  intro same
  have longer := congrArg String.length same
  rw [String.length_append] at longer
  exact absurd longer (by simp)

theorem cleanupTraceFile_eq {first : VtsProfilingRecord Variable Other}
    {rest : List (VtsProfilingRecord Variable Other)}
    (stored : files trace_file = some (first :: rest)) (entry : isEntryEvent first.event = true) :
    CleanupTraceFile files trace_file =
      if files (trace_file ++ "_tmp") = none then
        Function.update files trace_file (some ((kept (first :: rest)).map (·.clear_params)))
      else files := by
  have parsed : ParseBinaryTrace files trace_file false false true =
      some ((first :: rest).map (·.clear_params)) := by
    rw [ParseBinaryTrace, stored]
    rfl
  have cleaned : cleanRecords ((first :: rest).map (·.clear_params)) =
      some ((kept (first :: rest)).map (·.clear_params)) := by
    rw [← kept_map_clear]
    have cleared : isEntryEvent first.clear_params.event = true := entry
    exact cleanRecords_eq cleared _
  rw [CleanupTraceFile, parsed]
  simp only [cleaned]
  cases free : files (trace_file ++ "_tmp") with
  | some tmp => simp [WriteProfilingMsg, free]
  | none =>
    simp only [WriteProfilingMsg, free, ↓reduceIte]
    funext path
    by_cases temporary : path = trace_file ++ "_tmp"
    · subst temporary
      simp [rename, free]
    · by_cases own : path = trace_file
      · subst own
        simp [rename, temporary]
      · simp [rename, temporary, own]

/-- After a cleanup the file has the records of the trace that belong to its first record, and a
second cleanup changes nothing. -/
def CleansUp (files : Files Variable Other) (trace_file : String)
    (records : List (VtsProfilingRecord Variable Other)) : Prop :=
  CleanupTraceFile files trace_file trace_file = some (kept records) ∧
    CleanupTraceFile (CleanupTraceFile files trace_file) trace_file =
      CleanupTraceFile files trace_file

theorem map_clear_eq_self_iff (records : List (VtsProfilingRecord Variable Other)) :
    records.map (·.clear_params) = records ↔ ∀ record ∈ records, record.Bare := by
  induction records with
  | nil => simp
  | cons record rest ih =>
    rw [map_cons, List.cons.injEq, ih, clear_params_eq_self_iff,
      forall_mem_cons]

/-- A second cleanup changes nothing. -/
theorem cleanupTraceFile_twice {first : VtsProfilingRecord Variable Other}
    {rest : List (VtsProfilingRecord Variable Other)}
    (stored : files trace_file = some (first :: rest)) (entry : isEntryEvent first.event = true) :
    CleanupTraceFile (CleanupTraceFile files trace_file) trace_file =
      CleanupTraceFile files trace_file := by
  have once := cleanupTraceFile_eq stored entry
  by_cases free : files (trace_file ++ "_tmp") = none
  · rw [if_pos free] at once
    rw [once]
    have shape : (kept (first :: rest)).map (·.clear_params) = first.clear_params ::
        (rest.filter fun record => Belongs first record).map (·.clear_params) := by
      rw [kept_cons (belongs_of_entry entry)]
      rfl
    have cleared : isEntryEvent first.clear_params.event = true := entry
    have written : Function.update files trace_file
        (some ((kept (first :: rest)).map (·.clear_params))) trace_file =
        some (first.clear_params ::
          (rest.filter fun record => Belongs first record).map (·.clear_params)) := by
      rw [Function.update_self, shape]
    have again := cleanupTraceFile_eq written cleared
    rw [Function.update_of_ne (tmp_ne trace_file), if_pos free, Function.update_idem, ← shape,
      kept_map_clear, kept_kept, map_map] at again
    rw [again]
    rfl
  · rw [if_neg free] at once
    rw [once, once]

/-- A trace that begins with an entry event is cleaned up exactly when the records to keep have a
function message without arguments and results; where a file with the temporary name is in the way,
exactly when there is nothing to remove. -/
theorem cleanup_cleansUp_iff {first : VtsProfilingRecord Variable Other}
    {rest : List (VtsProfilingRecord Variable Other)}
    (stored : files trace_file = some (first :: rest)) (entry : isEntryEvent first.event = true) :
    CleansUp files trace_file (first :: rest) ↔
      (files (trace_file ++ "_tmp") = none ∧
        ∀ record ∈ first :: rest, Belongs first record → record.Bare) ∨
      (files (trace_file ++ "_tmp") ≠ none ∧ ∀ record ∈ first :: rest, Belongs first record) := by
  have once := cleanupTraceFile_eq stored entry
  unfold CleansUp
  rw [and_iff_left (cleanupTraceFile_twice stored entry), once]
  by_cases free : files (trace_file ++ "_tmp") = none
  · rw [if_pos free, Function.update_self, Option.some.injEq, map_clear_eq_self_iff]
    simp [free, kept]
  · rw [if_neg free, stored, Option.some.injEq, kept, eq_comm, filter_eq_self]
    simp [free]

end

/-! ## Traces with and without arguments -/

/-- A trace of a call on the server side, with a record of the client side in between. -/
def trace (arguments : List String) : List (VtsProfilingRecord String Unit) :=
  [⟨some 10, .SERVER_API_ENTRY, "android.hardware.nfc", 1, 0, some ⟨arguments, [], none⟩, none⟩,
    ⟨some 11, .CLIENT_API_ENTRY, "android.hardware.nfc", 1, 0, some ⟨[], [], none⟩, none⟩,
    ⟨some 12, .SERVER_API_EXIT, "android.hardware.nfc", 1, 0, some ⟨[], [], none⟩, none⟩]

/-- The only file is a trace. -/
def traceFiles (arguments : List String) : Files String Unit :=
  Function.update (fun _ => none) "nfc.trace" (some (trace arguments))

theorem cleanup_cleansUp_bare : CleansUp (traceFiles []) "nfc.trace" (trace []) := by
  have stored : traceFiles [] "nfc.trace" = some ((trace []).head (by decide) :: (trace []).tail) :=
    Function.update_self ..
  refine (cleanup_cleansUp_iff stored rfl).mpr (.inl ⟨rfl, ?_⟩)
  intro record listed _
  simp only [trace, head_cons, tail_cons, mem_cons, not_mem_nil,
    or_false] at listed
  rcases listed with rfl | rfl | rfl <;> exact ⟨_, rfl, rfl, rfl⟩

/-- The argument of the call is lost. -/
theorem cleanup_cleansUp_argument :
    isEntryEvent .SERVER_API_ENTRY = true ∧
      CleanupTraceFile (traceFiles ["7"]) "nfc.trace" "nfc.trace" = some (kept (trace [])) ∧
      ¬ CleansUp (traceFiles ["7"]) "nfc.trace" (trace ["7"]) := by
  have after : CleanupTraceFile (traceFiles ["7"]) "nfc.trace" "nfc.trace" =
      some (kept (trace [])) := by
    decide +kernel
  refine ⟨rfl, after, fun cleans => ?_⟩
  exact absurd (after.symm.trans cleans.1) (by decide +kernel)

end Vts.Trace.Cleanup
