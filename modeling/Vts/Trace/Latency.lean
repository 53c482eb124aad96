import Vts.Lib.StackSearch

/-!
# Latency profiling

`VtsTraceProcessor::ProcessTraceForLatencyProfiling` of
`utils/native/trace_processor/VtsTraceProcessor.cpp`, with `isEntryEvent`,
`isPairedRecord` and `GetFullApiStr`. The two vectors of the source are stacks whose top
is the head of a list. A record keeps what the function does not read in a field of any
type, so that results hold of records as a whole.

`pairedRecords` says which entry each exit belongs to: the most recent one that matches it
and was not paired before. Proved here: whatever record comes next, the code reports it as
`pairedRecords` does, exactly when every exit without a matching entry comes while no
entry is open. A negative latency ends the program, and with it what is asked of it.
Timestamps are machine words; the difference wraps around.
-/

namespace Vts.Trace

open Vts.Lib

/-- `InstrumentationEventType`. -/
inductive InstrumentationEventType where
  | SERVER_API_ENTRY
  | SERVER_API_EXIT
  | CLIENT_API_ENTRY
  | CLIENT_API_EXIT
  | SYNC_CALLBACK_ENTRY
  | SYNC_CALLBACK_EXIT
  | ASYNC_CALLBACK_ENTRY
  | ASYNC_CALLBACK_EXIT
  | PASSTHROUGH_ENTRY
  | PASSTHROUGH_EXIT
deriving DecidableEq

/-- `VtsProfilingRecord`; `func_name` is the name in its function message and `rest` what
else it holds. -/
structure VtsProfilingRecord (Rest : Type) where
  timestamp : Int64
  event : InstrumentationEventType
  package : String
  version_major : Int
  version_minor : Int
  interface : String
  func_name : String
  rest : Rest
deriving DecidableEq

section

variable {Rest : Type}

def isEntryEvent (event : InstrumentationEventType) : Bool :=
  event = .SERVER_API_ENTRY || event = .CLIENT_API_ENTRY || event = .PASSTHROUGH_ENTRY

def isPairedRecord (entry_record exit_record : VtsProfilingRecord Rest) : Bool :=
  if entry_record.package ≠ exit_record.package ∨
      entry_record.version_major ≠ exit_record.version_major ∨
      entry_record.version_minor ≠ exit_record.version_minor ∨
      entry_record.interface ≠ exit_record.interface ∨
      entry_record.func_name ≠ exit_record.func_name then false
  else
    match entry_record.event with
    | .SERVER_API_ENTRY => exit_record.event = .SERVER_API_EXIT
    | .CLIENT_API_ENTRY => exit_record.event = .CLIENT_API_EXIT
    | .PASSTHROUGH_ENTRY => exit_record.event = .PASSTHROUGH_EXIT
    | _ => false

def GetFullApiStr (record : VtsProfilingRecord Rest) : String :=
  record.package ++ "@" ++ toString record.version_major ++ "." ++
    toString record.version_minor ++ "::" ++ record.interface ++ "::" ++ record.func_name

/-- `end_timestamp - start_timestamp`. -/
def latency (entry_record record : VtsProfilingRecord Rest) : Int64 :=
  record.timestamp - entry_record.timestamp

/-- What the function reports. -/
inductive Report (Rest : Type) where
  /-- The trace file could not be parsed. -/
  | parseFailure
  | halMode (passthrough : Bool)
  /-- The latency of an API call: its entry and its exit. -/
  | latency (entry_record record : VtsProfilingRecord Rest)
  /-- No entry was found for an exit. -/
  | noEntry (record : VtsProfilingRecord Rest)
  /-- The sanity check failed, and the program ends. -/
  | negativeLatency (entry_record record : VtsProfilingRecord Rest)
deriving DecidableEq

/-- The line that a report adds to the standard output. -/
def Report.line : Report Rest → Option String
  | .parseFailure => none
  | .halMode true => some "hidl_hal_mode:passthrough"
  | .halMode false => some "hidl_hal_mode:binder"
  | .latency entry_record record =>
    some (GetFullApiStr record ++ ":" ++ toString (Vts.Trace.latency entry_record record))
  | .noEntry _ => none
  | .negativeLatency _ _ => none

/-- The loop over the records, with the two stacks. -/
def processRecords : List (VtsProfilingRecord Rest) → List (VtsProfilingRecord Rest) →
    List (VtsProfilingRecord Rest) → List (Report Rest)
  | [], _, _ => []
  | record :: records, seen_records, pending_records =>
    if isEntryEvent record.event then
      processRecords records (record :: seen_records) pending_records
    else
      match StackSearch.unwind (fun entry => isPairedRecord entry record) seen_records
          pending_records with
      -- The records that were moved stay on the second stack.
      | ([], pending_records) => .noEntry record :: processRecords records [] pending_records
      | (entry_record :: seen_records, pending_records) =>
        if latency entry_record record < 0 then [.negativeLatency entry_record record]
        else .latency entry_record record ::
          processRecords records (StackSearch.rewind pending_records seen_records) []

/-- `ProcessTraceForLatencyProfiling`, given what `ParseBinaryTrace` returns. -/
def ProcessTraceForLatencyProfiling :
    Option (List (VtsProfilingRecord Rest)) → List (Report Rest)
  | none => [.parseFailure]
  | some [] => []
  | some (record :: records) =>
    .halMode (record.event = .PASSTHROUGH_ENTRY || record.event = .PASSTHROUGH_EXIT) ::
      processRecords (record :: records) [] []

/-! ## Which entry an exit belongs to -/

/-- The reports when every exit is paired with the most recent open entry that matches it.
An entry is open until it is paired; the most recent one comes first. An exit without a
match changes nothing. -/
def pairedRecords : List (VtsProfilingRecord Rest) → List (VtsProfilingRecord Rest) →
    List (Report Rest)
  | [], _ => []
  | record :: records, opened =>
    if isEntryEvent record.event then pairedRecords records (record :: opened)
    else
      match opened.find? (fun entry => isPairedRecord entry record) with
      | none => .noEntry record :: pairedRecords records opened
      | some entry_record =>
        if latency entry_record record < 0 then [.negativeLatency entry_record record]
        else .latency entry_record record ::
          pairedRecords records (opened.eraseP fun entry => isPairedRecord entry record)

/-- The open entries after one more record; none when the program has ended. -/
def openStep (opened : List (VtsProfilingRecord Rest)) (record : VtsProfilingRecord Rest) :
    Option (List (VtsProfilingRecord Rest)) :=
  if isEntryEvent record.event then some (record :: opened)
  else
    match opened.find? (fun entry => isPairedRecord entry record) with
    | none => some opened
    | some entry_record =>
      if latency entry_record record < 0 then none
      else some (opened.eraseP fun entry => isPairedRecord entry record)

/-- The open entries after a sequence of records. -/
def openEntries (records opened : List (VtsProfilingRecord Rest)) :
    Option (List (VtsProfilingRecord Rest)) :=
  records.foldlM openStep opened

section

variable (record : VtsProfilingRecord Rest) (records opened : List (VtsProfilingRecord Rest))

theorem openEntries_cons :
    openEntries (record :: records) opened = (openStep opened record).bind (openEntries records) :=
  rfl

/-- The reports about one record while the given entries are open. -/
def stepReport (opened : List (VtsProfilingRecord Rest)) (record : VtsProfilingRecord Rest) :
    List (Report Rest) :=
  pairedRecords [record] opened

/-- No exit is skipped while an entry is open. -/
def CleanStep (opened : List (VtsProfilingRecord Rest)) (record : VtsProfilingRecord Rest) :
    Prop :=
  isEntryEvent record.event = false →
    (∀ entry ∈ opened, isPairedRecord entry record = false) → opened = []

theorem pairedRecords_cons :
    pairedRecords (record :: records) opened =
      stepReport opened record ++ (openStep opened record).elim [] (pairedRecords records) := by
  unfold stepReport openStep
  simp only [pairedRecords]
  cases isEntryEvent record.event with
  | true => simp
  | false =>
    cases opened.find? (fun entry => isPairedRecord entry record) with
    | none => simp
    | some entry_record =>
      simp only [Bool.false_eq_true, if_false]
      split_ifs <;> simp

/-- From a state without pending records, the code reports one record as it should. -/
theorem processRecords_singleton :
    processRecords [record] opened [] = stepReport opened record := by
  unfold stepReport
  simp only [processRecords, pairedRecords]
  cases isEntryEvent record.event with
  | true => rfl
  | false =>
    cases found : opened.find? (fun entry => isPairedRecord entry record) with
    | none => simp [StackSearch.unwind_of_none [] found]
    | some entry_record =>
      obtain ⟨below, moved, searched, _⟩ := StackSearch.unwind_of_some [] found
      simp [searched]

end

section

variable {record : VtsProfilingRecord Rest} {opened : List (VtsProfilingRecord Rest)}
  {next : VtsProfilingRecord Rest}

section

variable {records : List (VtsProfilingRecord Rest)}

/-- A clean step leaves no pending records, and the open entries are the seen ones. -/
theorem processRecords_cons (clean : CleanStep opened record)
    (records : List (VtsProfilingRecord Rest)) :
    processRecords (record :: records) opened [] = stepReport opened record ++
      (openStep opened record).elim [] (fun opened => processRecords records opened []) := by
  unfold stepReport openStep
  simp only [processRecords, pairedRecords]
  cases entry : isEntryEvent record.event with
  | true => simp
  | false =>
    cases found : opened.find? (fun entry => isPairedRecord entry record) with
    | none =>
      have closed : opened = [] := by
        apply clean entry
        intro entry listed
        simpa using List.find?_eq_none.mp found entry listed
      subst closed
      simp [StackSearch.unwind]
    | some entry_record =>
      obtain ⟨below, moved, searched, back⟩ := StackSearch.unwind_of_some [] found
      simp only [searched, List.append_nil, back, Bool.false_eq_true, if_false]
      split_ifs <;> simp

/-- The exit that belongs to an entry. -/
def exitOf (entry_record : VtsProfilingRecord Rest) : VtsProfilingRecord Rest :=
  { entry_record with
    event := match entry_record.event with
      | .SERVER_API_ENTRY => .SERVER_API_EXIT
      | .CLIENT_API_ENTRY => .CLIENT_API_EXIT
      | _ => .PASSTHROUGH_EXIT }

theorem isPairedRecord_exitOf {entry_record : VtsProfilingRecord Rest}
    (entry : isEntryEvent entry_record.event = true) :
    isPairedRecord entry_record (exitOf entry_record) = true ∧
      isEntryEvent (exitOf entry_record).event = false := by
  obtain ⟨timestamp, event, package, major, minor, interface, name, rest⟩ := entry_record
  cases event <;> simp_all [isPairedRecord, exitOf, isEntryEvent]

/-- After a skipped exit no open entry is seen any more, so the exit of the most recent one
is skipped as well. -/
theorem processRecords_skipped (exits : isEntryEvent record.event = false)
    (unmatched : ∀ entry ∈ opened, isPairedRecord entry record = false)
    (nextExits : isEntryEvent next.event = false) :
    processRecords [record, next] opened [] = [.noEntry record, .noEntry next] := by
  have found : opened.find? (fun entry => isPairedRecord entry record) = none := by
    rw [List.find?_eq_none]
    intro entry listed
    simpa using unmatched entry listed
  simp [processRecords, exits, nextExits, StackSearch.unwind_of_none [] found,
    StackSearch.unwind]

theorem pairedRecords_skipped (exits : isEntryEvent record.event = false)
    (unmatched : ∀ entry ∈ opened, isPairedRecord entry record = false)
    (nextExits : isEntryEvent next.event = false) {entry : VtsProfilingRecord Rest}
    (listed : entry ∈ opened) (paired : isPairedRecord entry next = true) :
    pairedRecords [record, next] opened ≠ [.noEntry record, .noEntry next] := by
  have found : opened.find? (fun entry => isPairedRecord entry record) = none := by
    rw [List.find?_eq_none]
    intro entry listed
    simpa using unmatched entry listed
  have second : ∃ partner, opened.find? (fun entry => isPairedRecord entry next) = some partner :=
    Option.isSome_iff_exists.mp (List.find?_isSome.mpr ⟨entry, listed, paired⟩)
  obtain ⟨partner, second⟩ := second
  simp only [pairedRecords, exits, nextExits, found, second, Bool.false_eq_true, if_false]
  split_ifs <;> simp

theorem openStep_entries {next : List (VtsProfilingRecord Rest)}
    (entries : ∀ entry ∈ opened, isEntryEvent entry.event = true)
    (stepped : openStep opened record = some next) :
    ∀ entry ∈ next, isEntryEvent entry.event = true := by
  unfold openStep at stepped
  cases entry : isEntryEvent record.event with
  | true =>
    obtain rfl : record :: opened = next := by simpa [entry] using stepped
    intro listed member
    rcases List.mem_cons.mp member with rfl | older
    · exact entry
    · exact entries listed older
  | false =>
    rw [entry] at stepped
    cases found : opened.find? (fun entry => isPairedRecord entry record) with
    | none =>
      obtain rfl : opened = next := by simpa [found] using stepped
      exact entries
    | some entry_record =>
      simp only [found, Bool.false_eq_true, if_false] at stepped
      split_ifs at stepped
      obtain rfl := Option.some.inj stepped
      intro listed member
      exact entries listed (List.mem_of_mem_eraseP member)

/-- The condition of the main theorem, from given open entries. -/
def CleanRun (records opened : List (VtsProfilingRecord Rest)) : Prop :=
  ∀ before record after stillOpen, records = before ++ record :: after →
    openEntries before opened = some stillOpen → CleanStep stillOpen record

theorem cleanRun_cons_iff :
    CleanRun (record :: records) opened ↔ CleanStep opened record ∧
      ∀ next, openStep opened record = some next → CleanRun records next := by
  constructor
  · intro clean
    refine ⟨clean [] record records opened rfl rfl, ?_⟩
    intro next stepped before other after stillOpen split reached
    refine clean (record :: before) other after stillOpen (by rw [split]; rfl) ?_
    rw [openEntries_cons, stepped]
    exact reached
  · rintro ⟨first, later⟩ before other after stillOpen split reached
    cases before with
    | nil =>
      obtain ⟨rfl, rfl⟩ := List.cons.inj split
      obtain rfl := Option.some.inj reached
      exact first
    | cons head before =>
      obtain ⟨rfl, rfl⟩ := List.cons.inj split
      rw [openEntries_cons] at reached
      obtain ⟨next, stepped, rest⟩ := Option.bind_eq_some_iff.mp reached
      exact later next stepped before other after stillOpen rfl rest

/-- The reports are right, whatever record comes after some of the records. -/
def PairsRight (records opened : List (VtsProfilingRecord Rest)) : Prop :=
  ∀ before next, before <+: records →
    processRecords (before ++ [next]) opened [] = pairedRecords (before ++ [next]) opened

theorem pairsRight_of_cleanRun (clean : CleanRun records opened) : PairsRight records opened := by
  induction records generalizing opened with
  | nil =>
    intro before next among
    obtain rfl := List.prefix_nil.mp among
    exact processRecords_singleton next opened
  | cons record records ih =>
    obtain ⟨first, later⟩ := cleanRun_cons_iff.mp clean
    intro before next among
    cases before with
    | nil => exact processRecords_singleton next opened
    | cons head before =>
      obtain ⟨same, amongRest⟩ := List.cons_prefix_cons.mp among
      rw [same, List.cons_append, processRecords_cons first, pairedRecords_cons]
      congr 1
      cases stepped : openStep opened record with
      | none => rfl
      | some stillOpen =>
        exact ih (later stillOpen stepped) before next amongRest

theorem cleanRun_of_pairsRight (entries : ∀ entry ∈ opened, isEntryEvent entry.event = true)
    (right : PairsRight records opened) : CleanRun records opened := by
  induction records generalizing opened with
  | nil =>
    intro before record after stillOpen split
    cases before <;> cases split
  | cons record records ih =>
    have first : CleanStep opened record := by
      intro exits unmatched
      cases opened with
      | nil => rfl
      | cons entry older =>
        -- The exit of the most recent entry would be reported as having no entry.
        obtain ⟨paired, nextExits⟩ := isPairedRecord_exitOf (entries entry (by simp))
        have reported := right [record] (exitOf entry) (by simp)
        exact absurd (reported.symm.trans (processRecords_skipped exits unmatched nextExits))
          (pairedRecords_skipped exits unmatched nextExits (by simp) paired)
    refine cleanRun_cons_iff.mpr ⟨first, ?_⟩
    intro next stepped
    apply ih (openStep_entries entries stepped)
    intro before following among
    have whole := right (record :: before) following (List.cons_prefix_cons.mpr ⟨rfl, among⟩)
    rw [List.cons_append, processRecords_cons first, pairedRecords_cons, stepped] at whole
    exact List.append_cancel_left whole

end

end

/-- After any number of the records, whatever record comes next, every exit is paired with
the most recent earlier entry that matches it and was not paired before, and an exit
without one is skipped without a change for later ones: exactly when every exit that no
open entry matches comes while no entry is open. -/
theorem processRecords_pairs_iff (records : List (VtsProfilingRecord Rest)) :
    (∀ before next, before <+: records →
      processRecords (before ++ [next]) [] [] = pairedRecords (before ++ [next]) []) ↔
    ∀ before record after opened, records = before ++ record :: after →
      openEntries before [] = some opened → isEntryEvent record.event = false →
      (∀ entry ∈ opened, isPairedRecord entry record = false) → opened = [] :=
  ⟨cleanRun_of_pairsRight (by simp), pairsRight_of_cleanRun⟩

end

/-- The entry of `open`, an exit of `close` without an entry, and the exit of `open`: the
last one finds no entry. -/
theorem processRecords_loses_entry :
    ¬ ∀ records : List (VtsProfilingRecord Unit),
      processRecords records [] [] = pairedRecords records [] := by
  intro right
  have wrong := right
    [⟨1, .SERVER_API_ENTRY, "android.hardware.nfc", 1, 0, "INfc", "open", ()⟩,
      ⟨2, .SERVER_API_EXIT, "android.hardware.nfc", 1, 0, "INfc", "close", ()⟩,
      ⟨3, .SERVER_API_EXIT, "android.hardware.nfc", 1, 0, "INfc", "open", ()⟩]
  exact absurd wrong (by decide)

end Vts.Trace
