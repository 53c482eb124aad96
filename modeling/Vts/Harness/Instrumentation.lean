import Mathlib.Data.List.Nodup
import Vts.Lib.Runs
import Vts.Lib.Steps

/-!
# Instrumentation events

`utils/python/instrumentation`. An event begins and ends, or is removed; two global lists have the
events that have begun and those that have ended. Events are objects, known by the number of their
creation. Timestamps and log lines are left out; they influence nothing else.

Proved here: along every sequence of calls the two lists are right and nothing is raised, exactly
when no call removes an event that has not begun or that has ended. The removal of such an event
looks for it in the stack, where it is not.
-/

namespace Vts.Harness

open Vts.Lib List

/-! ## The module `test_framework_instrumentation_event` -/

/-- The attribute `status` of an event: 0 to 3. -/
inductive Status where
  | notStarted | started | ended | removed
  deriving DecidableEq

structure TestFrameworkInstrumentationEvent where
  name : String
  category : String
  status : Status := .notStarted
  error : Option String := none
  enable_logging : Bool := false
  disable_subevent_logging : Bool := false

/-- The objects that were created, and the lists `event_stack` and `event_data` of the module. -/
structure Tfie where
  events : List TestFrameworkInstrumentationEvent
  event_stack : List Nat
  event_data : List Nat

/-- The exception of `list.remove`. -/
inductive ValueError where
  | notInList
  deriving DecidableEq

def ILLEGAL_CHARS : List Char := [':', '\t', '\r', '\n']

/-- A text with `_` for each illegal character. -/
def legal (text : String) : String :=
  text.map fun char => if char ∈ ILLEGAL_CHARS then '_' else char

def NormalizeNameCategory (name category : String) : String × String :=
  if (category ++ name).any (· ∈ ILLEGAL_CHARS) then (legal name, legal category)
  else (name, category)

namespace Tfie

/-- `TestFrameworkInstrumentationEvent(name, category)`. -/
def create (state : Tfie) (name category : String) : Tfie :=
  let (name, category) := NormalizeNameCategory name category
  { state with events := state.events ++ [⟨name, category, .notStarted, none, false, false⟩] }

/-- The attributes of an event are set. -/
def write (state : Tfie) (event : Nat) (attributes : TestFrameworkInstrumentationEvent) : Tfie :=
  { state with events := state.events.set event attributes }

/-- The status of an event, none when there is no such object. -/
def status (state : Tfie) (event : Nat) : Option Status :=
  (state.events[event]?).map (·.status)

/-- `event_stack and event_stack[-1]._disable_subevent_logging`. -/
def subeventLoggingDisabled (state : Tfie) : Bool :=
  match state.event_stack.getLast? with
  | none => false
  | some top => (state.events[top]?).any (·.disable_subevent_logging)

/-- `event_stack.remove(self)`. -/
def removeFromStack (event : Nat) : Step Tfie ValueError := fun state =>
  if event ∈ state.event_stack then
    ({ state with event_stack := state.event_stack.erase event }, none)
  else (state, some .notInList)

end Tfie

namespace TestFrameworkInstrumentationEvent

/-- `Match(name, category)`. -/
def Matches (event : TestFrameworkInstrumentationEvent) (name category : String) : Bool :=
  category == event.category && name == event.name

/-- The settings of the logging, as `Begin` changes them before it looks at the status. -/
def setLogging (event : TestFrameworkInstrumentationEvent) (overwritten : Bool)
    (enable_logging : Option Bool) (disable_subevent_logging : Bool) :
    TestFrameworkInstrumentationEvent :=
  if overwritten then { event with enable_logging := false, disable_subevent_logging := true }
  else { event with
    enable_logging := enable_logging.getD event.enable_logging
    disable_subevent_logging := disable_subevent_logging }

/-- `Begin`. There is no call on an object that does not exist. -/
def Begin (event : Nat) (enable_logging : Option Bool) (disable_subevent_logging : Bool) :
    Step Tfie ValueError := fun state =>
  match state.events[event]? with
  | none => (state, none)
  | some attributes =>
    let attributes := attributes.setLogging state.subeventLoggingDisabled enable_logging
      disable_subevent_logging
    match attributes.status with
    | .started => (state.write event
        { attributes with error := some "Tried to Begin but already began" }, none)
    | .ended => (state.write event
        { attributes with error := some "Tried to Begin but already ended" }, none)
    | .removed => (state.write event
        { attributes with error := some "Tried to Begin but already been removed" }, none)
    | .notStarted =>
      let begun := state.write event { attributes with status := .started }
      ({ begun with event_stack := begun.event_stack ++ [event] }, none)

/-- `End`. -/
def End (event : Nat) : Step Tfie ValueError := fun state =>
  match state.events[event]? with
  | none => (state, none)
  | some attributes =>
    match attributes.status with
    | .notStarted => (state.write event
        { attributes with error := some "Tried to End but have not began" }, none)
    | .ended => (state.write event
        { attributes with error := some "Tried to End but already ended" }, none)
    | .removed => (state.write event
        { attributes with error := some "Tried to End but already been removed" }, none)
    | .started =>
      let ended := state.write event { attributes with status := .ended }
      Tfie.removeFromStack event { ended with event_data := ended.event_data ++ [event] }

/-- `Remove`. -/
def Remove (event : Nat) (remove_reason : String) : Step Tfie ValueError := fun state =>
  match state.events[event]? with
  | none => (state, none)
  | some attributes =>
    if attributes.status = .removed then (state, none)
    else Tfie.removeFromStack event (state.write event
      { attributes with error := some remove_reason, status := .removed })

/-- `CheckEnded`. -/
def CheckEnded (event : Nat) (remove_reason : String) : Step Tfie ValueError := fun state =>
  match state.status event with
  | some .notStarted => Remove event remove_reason state
  | some .started => Remove event remove_reason state
  | _ => (state, none)

end TestFrameworkInstrumentationEvent

/-! ## The module `test_framework_instrumentation` -/

def FindEvent (state : Tfie) (name category : String) : Option Nat :=
  state.event_stack.reverse.find? fun event =>
    (state.events[event]?).any fun attributes => attributes.Matches name category

/-- `Begin(name, category)`: a new event, which begins. -/
def Begin (name category : String) (enable_logging : Option Bool)
    (disable_subevent_logging : Bool) : Step Tfie ValueError := fun state =>
  TestFrameworkInstrumentationEvent.Begin state.events.length enable_logging
    disable_subevent_logging (state.create name category)

/-- `End(name, category)`. -/
def End (name category : String) : Step Tfie ValueError := fun state =>
  match FindEvent state name category with
  | none => (state, none)
  | some event => TestFrameworkInstrumentationEvent.End event state

/-! ## Calls -/

/-- A call of a method of an event. -/
inductive EventCall where
  | Begin (enable_logging : Option Bool) (disable_subevent_logging : Bool)
  | End
  | CheckEnded (remove_reason : String)
  | Remove (remove_reason : String)

/-- A new event, a call of a method of an event, or of one of the two functions with names. -/
inductive Call where
  | create (name category : String)
  | method (event : Nat) (call : EventCall)
  | Begin (name category : String) (enable_logging : Option Bool)
      (disable_subevent_logging : Bool)
  | End (name category : String)

def EventCall.perform (event : Nat) : EventCall → Step Tfie ValueError
  | .Begin enable_logging disable_subevent_logging =>
    TestFrameworkInstrumentationEvent.Begin event enable_logging disable_subevent_logging
  | .End => TestFrameworkInstrumentationEvent.End event
  | .CheckEnded remove_reason => TestFrameworkInstrumentationEvent.CheckEnded event remove_reason
  | .Remove remove_reason => TestFrameworkInstrumentationEvent.Remove event remove_reason

def Call.perform : Call → Step Tfie ValueError
  | .create name category => Step.change fun state => state.create name category
  | .method event call => call.perform event
  | .Begin name category enable_logging disable_subevent_logging =>
    Harness.Begin name category enable_logging disable_subevent_logging
  | .End name category => Harness.End name category

/-- The event that a call is about, and which method it calls. -/
def Call.target (state : Tfie) : Call → Option (Nat × EventCall)
  | .create _ _ => none
  | .method event call => if event < state.events.length then some (event, call) else none
  | .Begin _ _ enable_logging disable_subevent_logging =>
    some (state.events.length, .Begin enable_logging disable_subevent_logging)
  | .End name category => (FindEvent state name category).map fun event => (event, .End)

/-! ## What has happened to the events -/

/-- The events that have begun, in the order of their beginning, those that have ended and those
that were removed. -/
structure Ledger where
  begun : List Nat
  ended : List Nat
  removed : List Nat

namespace Ledger

/-- What a call brings about. An event begins once, and not after its removal; it ends once, while
it is neither removed; and a check removes it unless it has ended. -/
def record (ledger : Ledger) (event : Nat) : EventCall → Ledger
  | .Begin _ _ =>
    if event ∉ ledger.begun ∧ event ∉ ledger.removed then
      { ledger with begun := ledger.begun ++ [event] }
    else ledger
  | .End =>
    if event ∈ ledger.begun ∧ event ∉ ledger.ended ∧ event ∉ ledger.removed then
      { ledger with ended := ledger.ended ++ [event] }
    else ledger
  | .CheckEnded _ =>
    if event ∉ ledger.ended then { ledger with removed := ledger.removed ++ [event] } else ledger
  | .Remove _ => { ledger with removed := ledger.removed ++ [event] }

/-- The status that an event has by the ledger. -/
def status (ledger : Ledger) (event : Nat) : Status :=
  if event ∈ ledger.removed then .removed
  else if event ∈ ledger.ended then .ended
  else if event ∈ ledger.begun then .started
  else .notStarted

end Ledger

/-- A run of calls: the module, what has happened, and whether a call has raised. -/
structure Run where
  state : Tfie
  ledger : Ledger
  raised : Bool

namespace Run

/-- No event was created yet. -/
def start : Run := ⟨⟨[], [], []⟩, ⟨[], [], []⟩, false⟩

def step (run : Run) (call : Call) : Run where
  state := (call.perform run.state).1
  ledger := match call.target run.state with
    | none => run.ledger
    | some (event, method) => run.ledger.record event method
  raised := run.raised || (call.perform run.state).2.isSome

/-- No call has raised, the stack has the events that have begun and neither ended nor been removed,
each once and in the order of their beginning, and the data has those that have ended and were not
removed. -/
structure Right (run : Run) : Prop where
  silent : run.raised = false
  stack : run.state.event_stack =
    run.ledger.begun.filter fun event => event ∉ run.ledger.ended ∧ event ∉ run.ledger.removed
  stackOnce : run.state.event_stack.Nodup
  data : ∀ event, event ∈ run.state.event_data ↔
    event ∈ run.ledger.ended ∧ event ∉ run.ledger.removed
  dataOnce : run.state.event_data.Nodup

/-- A call removes no event that has not begun, and none that has ended. -/
def Meets (run : Run) : Call → Prop
  | .method event (.Remove _) =>
    run.state.status event ≠ some .notStarted ∧ run.state.status event ≠ some .ended
  | .method event (.CheckEnded _) => run.state.status event ≠ some .notStarted
  | _ => True

end Run

/-! ## One call of a method -/

/-- The status after a call. -/
def EventCall.next : EventCall → Status → Status
  | .Begin _ _, .notStarted => .started
  | .End, .started => .ended
  | .CheckEnded _, .notStarted => .removed
  | .CheckEnded _, .started => .removed
  | .Remove _, _ => .removed
  | _, status => status

/-- The event is taken from the stack, or it is not there and the call raises. -/
def Taken (event : Nat) (before after : List Nat) (raised : Option ValueError) : Prop :=
  if event ∈ before then after = before.erase event ∧ raised = none
  else after = before ∧ raised = some .notInList

/-- What a call does that changes one status into another. -/
inductive Effect (event : Nat) (before after : Tfie) (raised : Option ValueError) :
    Status → Status → Prop where
  | kept {status : Status} (statuses : after.status = before.status)
      (stack : after.event_stack = before.event_stack)
      (data : after.event_data = before.event_data) (silent : raised = none) :
      Effect event before after raised status status
  | begun (statuses : after.status = Function.update before.status event (some .started))
      (stack : after.event_stack = before.event_stack ++ [event])
      (data : after.event_data = before.event_data) (silent : raised = none) :
      Effect event before after raised .notStarted .started
  | ended (statuses : after.status = Function.update before.status event (some .ended))
      (taken : Taken event before.event_stack after.event_stack raised)
      (data : after.event_data = before.event_data ++ [event]) :
      Effect event before after raised .started .ended
  | removed {status : Status} (present : status ≠ .removed)
      (statuses : after.status = Function.update before.status event (some .removed))
      (taken : Taken event before.event_stack after.event_stack raised)
      (data : after.event_data = before.event_data) :
      Effect event before after raised status .removed

section

variable {state : Tfie} {event : Nat} {attributes : TestFrameworkInstrumentationEvent}

section

variable (there : state.events[event]? = some attributes)
include there

theorem Tfie.status_eq : state.status event = some attributes.status := by
  rw [Tfie.status, there]
  rfl

theorem Tfie.status_write (written : TestFrameworkInstrumentationEvent) :
    (state.write event written).status =
      Function.update state.status event (some written.status) := by
  have inside : event < state.events.length := (List.getElem?_eq_some_iff.mp there).1
  funext other
  by_cases own : other = event
  · subst own
    simp [Tfie.status, Tfie.write, inside]
  · simp [Tfie.status, Tfie.write, own, List.getElem?_set_ne (Ne.symm own)]

/-- Attributes other than the status are set. -/
theorem Tfie.status_write_same {written : TestFrameworkInstrumentationEvent}
    (same : written.status = attributes.status) :
    (state.write event written).status = state.status := by
  rw [Tfie.status_write there, same, ← Tfie.status_eq there, Function.update_eq_self]

end

theorem Tfie.removeFromStack_taken (state : Tfie) (event : Nat) :
    Taken event state.event_stack (Tfie.removeFromStack event state).1.event_stack
      (Tfie.removeFromStack event state).2 ∧
    (Tfie.removeFromStack event state).1.status = state.status ∧
    (Tfie.removeFromStack event state).1.event_data = state.event_data := by
  unfold Taken Tfie.removeFromStack
  split
  · exact ⟨⟨rfl, rfl⟩, rfl, rfl⟩
  · exact ⟨⟨rfl, rfl⟩, rfl, rfl⟩

theorem TestFrameworkInstrumentationEvent.setLogging_status (overwritten : Bool)
    (enable_logging : Option Bool) (disable_subevent_logging : Bool) :
    (attributes.setLogging overwritten enable_logging disable_subevent_logging).status =
      attributes.status := by
  unfold TestFrameworkInstrumentationEvent.setLogging
  split <;> rfl

section

variable (there : state.events[event]? = some attributes)
include there

theorem remove_effect (present : attributes.status ≠ .removed) (remove_reason : String) :
    Effect event state (TestFrameworkInstrumentationEvent.Remove event remove_reason state).1
      (TestFrameworkInstrumentationEvent.Remove event remove_reason state).2 attributes.status
      .removed := by
  unfold TestFrameworkInstrumentationEvent.Remove
  rw [there]
  simp only [if_neg present]
  obtain ⟨taken, statuses, data⟩ := Tfie.removeFromStack_taken (state.write event
    { attributes with error := some remove_reason, status := .removed }) event
  rw [Tfie.status_write there] at statuses
  exact .removed present statuses taken data

theorem begin_effect (enable_logging : Option Bool) (disable_subevent_logging : Bool) :
    Effect event state
      (TestFrameworkInstrumentationEvent.Begin event enable_logging disable_subevent_logging
        state).1
      (TestFrameworkInstrumentationEvent.Begin event enable_logging disable_subevent_logging
        state).2 attributes.status
      ((EventCall.Begin enable_logging disable_subevent_logging).next attributes.status) := by
  have same := @TestFrameworkInstrumentationEvent.setLogging_status attributes
    state.subeventLoggingDisabled enable_logging disable_subevent_logging
  simp only [TestFrameworkInstrumentationEvent.Begin, there, same]
  cases found : attributes.status with
  | notStarted => exact .begun (Tfie.status_write there _) rfl rfl rfl
  | started | ended | removed => exact .kept (Tfie.status_write_same there found.symm) rfl rfl rfl

theorem end_effect :
    Effect event state (TestFrameworkInstrumentationEvent.End event state).1
      (TestFrameworkInstrumentationEvent.End event state).2 attributes.status
      (EventCall.End.next attributes.status) := by
  simp only [TestFrameworkInstrumentationEvent.End, there]
  cases found : attributes.status with
  | notStarted => exact .kept (Tfie.status_write_same there found.symm) rfl rfl rfl
  | started =>
    obtain ⟨taken, statuses, data⟩ := Tfie.removeFromStack_taken
      { state.write event { attributes with status := .ended } with
        event_data := state.event_data ++ [event] } event
    have written := Tfie.status_write there { attributes with status := .ended }
    exact .ended (statuses.trans written) taken data
  | ended => exact .kept (Tfie.status_write_same there found.symm) rfl rfl rfl
  | removed => exact .kept (Tfie.status_write_same there found.symm) rfl rfl rfl

theorem check_effect (remove_reason : String) :
    Effect event state (TestFrameworkInstrumentationEvent.CheckEnded event remove_reason state).1
      (TestFrameworkInstrumentationEvent.CheckEnded event remove_reason state).2
      attributes.status ((EventCall.CheckEnded remove_reason).next attributes.status) := by
  have removal := fun present => remove_effect there present remove_reason
  simp only [TestFrameworkInstrumentationEvent.CheckEnded, Tfie.status_eq there]
  revert removal
  cases attributes.status with
  | notStarted | started => exact fun removal => removal (by decide)
  | ended | removed => exact fun _ => .kept rfl rfl rfl rfl

theorem EventCall.perform_effect (call : EventCall) :
    Effect event state (call.perform event state).1 (call.perform event state).2
      attributes.status (call.next attributes.status) := by
  cases call with
  | Begin enable_logging disable_subevent_logging => exact begin_effect there _ _
  | End => exact end_effect there
  | CheckEnded remove_reason => exact check_effect there _
  | Remove remove_reason =>
    by_cases gone : attributes.status = .removed
    · simp only [EventCall.perform, TestFrameworkInstrumentationEvent.Remove, there, gone,
        ↓reduceIte]
      exact .kept rfl rfl rfl rfl
    · exact remove_effect there gone remove_reason

end

end

/-! ## The ledger and the status -/

theorem Ledger.status_record (ledger : Ledger) (event other : Nat) (call : EventCall) :
    (ledger.record event call).status other =
      if other = event then call.next (ledger.status event) else ledger.status other := by
  by_cases own : other = event
  · subst own
    rw [if_pos rfl]
    cases call <;>
      by_cases removed : other ∈ ledger.removed <;> by_cases ended : other ∈ ledger.ended <;>
        by_cases begun : other ∈ ledger.begun <;>
          simp [Ledger.record, Ledger.status, EventCall.next, removed, ended, begun]
  · rw [if_neg own]
    unfold Ledger.record
    cases call <;> dsimp only
    · split <;> simp [Ledger.status, own]
    · split <;> simp [Ledger.status, own]
    · split <;> simp [Ledger.status, own]
    · simp [Ledger.status, own]

variable {ledger : Ledger} {status : Status} (name category : String)

theorem Ledger.mem_begun_of_started {event : Nat} (started : ledger.status event = .started) :
    event ∈ ledger.begun := by
  unfold Ledger.status at started
  split at started
  · cases started
  · split at started
    · cases started
    · by_contra absent
      rw [if_neg absent] at started
      cases started

theorem Ledger.not_mem_begun_of_notStarted {event : Nat}
    (notStarted : ledger.status event = .notStarted) : event ∉ ledger.begun := by
  intro begun
  rw [Ledger.status, if_pos begun] at notStarted
  split at notStarted
  · cases notStarted
  · split at notStarted <;> cases notStarted

/-- An event begins where its status says so. -/
theorem Ledger.begun_record {event : Nat} (endedBegun : event ∈ ledger.ended → event ∈ ledger.begun)
    (call : EventCall) :
    (ledger.record event call).begun =
      if ledger.status event = .notStarted ∧ call.next (ledger.status event) = .started then
        ledger.begun ++ [event] else ledger.begun := by
  cases call <;>
    by_cases removed : event ∈ ledger.removed <;> by_cases begun : event ∈ ledger.begun <;>
      by_cases ended : event ∈ ledger.ended <;>
        simp_all [Ledger.record, Ledger.status, EventCall.next]

namespace Run

variable {run : Run}

/-- The objects have the status that the ledger gives them, and there is nothing else in it. -/
structure Consistent (run : Run) : Prop where
  statuses : ∀ event status, run.state.status event = some status →
    run.ledger.status event = status
  known : ∀ event, run.state.status event = none → run.ledger.status event = .notStarted
  endedBegun : ∀ event ∈ run.ledger.ended, event ∈ run.ledger.begun
  begunOnce : run.ledger.begun.Nodup

/-- `Right`, in terms of the status. -/
structure Listed (run : Run) : Prop where
  silent : run.raised = false
  stack : run.state.event_stack =
    run.ledger.begun.filter fun event => run.ledger.status event = .started
  data : ∀ event, event ∈ run.state.event_data ↔ run.ledger.status event = .ended
  dataOnce : run.state.event_data.Nodup

theorem right_iff_listed (consistent : run.Consistent) : run.Right ↔ run.Listed := by
  have openEvents : (run.ledger.begun.filter fun event =>
      event ∉ run.ledger.ended ∧ event ∉ run.ledger.removed) =
      run.ledger.begun.filter fun event => run.ledger.status event = .started := by
    refine filter_congr fun event begun => ?_
    rw [decide_eq_decide, Ledger.status]
    by_cases removed : event ∈ run.ledger.removed <;>
      by_cases ended : event ∈ run.ledger.ended <;> simp [removed, ended, begun]
  have endedEvents : ∀ event, event ∈ run.ledger.ended ∧ event ∉ run.ledger.removed ↔
      run.ledger.status event = .ended := by
    intro event
    rw [Ledger.status]
    by_cases removed : event ∈ run.ledger.removed <;>
      by_cases ended : event ∈ run.ledger.ended <;>
        by_cases begun : event ∈ run.ledger.begun <;> simp [removed, ended, begun]
  constructor
  · rintro ⟨silent, stack, -, data, dataOnce⟩
    exact ⟨silent, stack.trans openEvents, fun event => (data event).trans (endedEvents event),
      dataOnce⟩
  · rintro ⟨silent, stack, data, dataOnce⟩
    refine ⟨silent, stack.trans openEvents.symm, ?_,
      fun event => (data event).trans (endedEvents event).symm, dataOnce⟩
    rw [stack]
    exact consistent.begunOnce.filter _

/-- A new object. -/
def created (run : Run) (name category : String) : Run :=
  { run with state := run.state.create name category }

/-- A call of a method of an object. -/
def called (run : Run) (event : Nat) (call : EventCall) : Run where
  state := (call.perform event run.state).1
  ledger := run.ledger.record event call
  raised := run.raised || (call.perform event run.state).2.isSome

theorem status_create (state : Tfie) (name category : String) (event : Nat) :
    (state.create name category).status event =
      if event = state.events.length then some .notStarted else state.status event := by
  unfold Tfie.create Tfie.status
  rcases Nat.lt_trichotomy event state.events.length with before | same | after
  · simp [List.getElem?_append_left before, Nat.ne_of_lt before]
  · simp [same]
  · have none : state.events[event]? = none := List.getElem?_eq_none (Nat.le_of_lt after)
    simp [none, Nat.ne_of_gt after, List.getElem?_append_right (Nat.le_of_lt after),
      Nat.sub_eq_zero_iff_le, after]

section

variable {state : Tfie} {event : Nat} {after : Ledger}

theorem status_eq_none_iff : state.status event = none ↔ state.events.length ≤ event := by
  rw [Tfie.status, Option.map_eq_none_iff, List.getElem?_eq_none_iff]

theorem created_consistent (consistent : run.Consistent) (name category : String) :
    (run.created name category).Consistent := by
  obtain ⟨statuses, known, endedBegun, begunOnce⟩ := consistent
  refine ⟨fun event status has => ?_, fun event none => ?_, endedBegun, begunOnce⟩
  · rw [created, status_create] at has
    split at has
    · next new =>
      cases has
      exact known event (status_eq_none_iff.mpr (Nat.le_of_eq new.symm))
    · exact statuses event status has
  · rw [created, status_create] at none
    split at none
    · cases none
    · exact known event none

theorem created_listed : (run.created name category).Listed ↔ run.Listed :=
  ⟨fun ⟨silent, stack, data, dataOnce⟩ => ⟨silent, stack, data, dataOnce⟩,
    fun ⟨silent, stack, data, dataOnce⟩ => ⟨silent, stack, data, dataOnce⟩⟩

/-- The status of the object, and the attributes it belongs to. -/
theorem exists_attributes (has : state.status event = some status) :
    ∃ attributes, state.events[event]? = some attributes ∧ attributes.status = status :=
  Option.map_eq_some_iff.mp has

/-- The effect of a call on an object, in terms of its status. -/
theorem called_effect {status : Status} (has : run.state.status event = some status)
    (call : EventCall) :
    Effect event run.state (call.perform event run.state).1 (call.perform event run.state).2
      status (call.next status) := by
  obtain ⟨attributes, there, rfl⟩ := exists_attributes has
  exact call.perform_effect there

theorem effect_statuses {before after : Tfie} {raised : Option ValueError} {next : Status}
    (has : before.status event = some status)
    (effect : Effect event before after raised status next) :
    after.status = Function.update before.status event (some next) := by
  cases effect with
  | kept statuses _ _ _ => rw [statuses, ← has, Function.update_eq_self]
  | begun statuses _ _ _ | ended statuses _ _ | removed _ statuses _ _ => exact statuses

theorem called_consistent (consistent : run.Consistent) (has : run.state.status event = some status)
    (call : EventCall) : (run.called event call).Consistent := by
  have statuses := effect_statuses has (called_effect has call)
  have same := consistent.statuses event status has
  refine ⟨fun other now found => ?_, fun other none => ?_, fun other ended => ?_, ?_⟩
  · rw [called, statuses] at found
    rw [called, Ledger.status_record]
    by_cases own : other = event
    · subst own
      rw [Function.update_self] at found
      rw [if_pos rfl, same]
      exact Option.some.inj found
    · rw [Function.update_of_ne own] at found
      rw [if_neg own]
      exact consistent.statuses other now found
  · rw [called, statuses] at none
    rw [called, Ledger.status_record]
    by_cases own : other = event
    · subst own
      rw [Function.update_self] at none
      cases none
    · rw [Function.update_of_ne own] at none
      rw [if_neg own]
      exact consistent.known other none
  · have before := consistent.endedBegun
    revert ended
    unfold called Ledger.record
    cases call <;> dsimp only <;> grind
  · have once := consistent.begunOnce
    unfold called Ledger.record
    cases call <;> dsimp only <;> try split
    · next new => simpa only [concat_eq_append] using once.concat new.1
    all_goals exact once

/-- The list of begun events with a status, after the status of one event has changed. -/
theorem filter_status_of_not_mem
    (others : ∀ other, other ≠ event → after.status other = ledger.status other)
    (absent : event ∉ ledger.begun) :
    (ledger.begun.filter fun other => after.status other = .started) =
      ledger.begun.filter fun other => ledger.status other = .started := by
  refine filter_congr fun other begun => ?_
  rw [others other fun same => absent (same ▸ begun)]

theorem filter_status_erase (once : ledger.begun.Nodup)
    (others : ∀ other, other ≠ event → after.status other = ledger.status other)
    (closed : after.status event ≠ .started) :
    (ledger.begun.filter fun other => after.status other = .started) =
      (ledger.begun.filter fun other => ledger.status other = .started).erase event := by
  rw [(once.filter _).erase_eq_filter, filter_filter]
  refine filter_congr fun other _ => ?_
  by_cases own : other = event
  · subst own
    simp [closed]
  · simp [others other own, own]

/-- The same events have ended, after a change between two other statuses. -/
theorem status_ended_iff
    (others : ∀ other, other ≠ event → after.status other = ledger.status other)
    (before : ledger.status event ≠ .ended) (next : after.status event ≠ .ended) (other : Nat) :
    after.status other = .ended ↔ ledger.status other = .ended := by
  by_cases apart : other = event
  · subst apart
    exact iff_of_false next before
  · rw [others other apart]

/-- A call keeps the lists right exactly when it removes no event that has not begun or has
ended. -/
theorem called_listed (consistent : run.Consistent) (listed : run.Listed)
    (has : run.state.status event = some status) (call : EventCall) :
    (run.called event call).Listed ↔
      (call.next status = .removed → status = .started ∨ status = .removed) := by
  have same := consistent.statuses event status has
  have effect := called_effect has call
  have begun := Ledger.begun_record (consistent.endedBegun event) call
  have own : (run.ledger.record event call).status event = call.next status := by
    rw [Ledger.status_record, if_pos rfl, same]
  have others : ∀ other, other ≠ event →
      (run.ledger.record event call).status other = run.ledger.status other := fun other apart => by
    rw [Ledger.status_record, if_neg apart]
  have onStack : event ∈ run.state.event_stack ↔ status = .started := by
    rw [listed.stack, mem_filter, decide_eq_true_iff, same, and_iff_right_iff_imp]
    rintro rfl
    exact Ledger.mem_begun_of_started same
  rw [same] at begun
  generalize call.next status = next at effect begun own ⊢
  cases effect with
  | kept statuses stack data silent =>
    have unchanged : (run.ledger.record event call).status = run.ledger.status := by
      funext other
      by_cases apart : other = event
      · rw [apart, own, same]
      · exact others other apart
    rw [if_neg (by rintro ⟨rfl, started⟩; cases started)] at begun
    refine iff_of_true ⟨?_, ?_, fun other => ?_, ?_⟩ .inr
    · rw [called, listed.silent, silent]
      rfl
    · rw [called, stack, begun, unchanged, listed.stack]
    · rw [called, data, unchanged, listed.data]
    · exact data ▸ listed.dataOnce
  | begun statuses stack data silent =>
    rw [if_pos ⟨rfl, rfl⟩] at begun
    have absent := Ledger.not_mem_begun_of_notStarted same
    have sameEnded := status_ended_iff others (by rw [same]; decide) (by rw [own]; decide)
    refine iff_of_true ⟨?_, ?_, fun other => ?_, ?_⟩ fun no => by cases no
    · rw [called, listed.silent, silent]
      rfl
    · rw [called, stack, begun, filter_append, filter_status_of_not_mem others absent,
        listed.stack, filter_singleton, decide_eq_true own]
      rfl
    · rw [called, data, sameEnded, listed.data]
    · exact data ▸ listed.dataOnce
  | ended statuses taken data =>
    rw [if_neg (by rintro ⟨no, -⟩; cases no)] at begun
    rw [Taken, if_pos (onStack.mpr rfl)] at taken
    have fresh : event ∉ run.state.event_data := by
      rw [listed.data, same]
      decide
    refine iff_of_true ⟨?_, ?_, fun other => ?_, ?_⟩ fun no => by cases no
    · rw [called, listed.silent, taken.2]
      rfl
    · rw [called, taken.1, begun, filter_status_erase consistent.begunOnce others
        (by rw [own]; decide), listed.stack]
    · rw [called, data, mem_append, mem_singleton, listed.data]
      by_cases apart : other = event
      · rw [apart, own]
        exact iff_of_true (.inr rfl) rfl
      · rw [others other apart, or_iff_left apart]
    · rw [called, data]
      simpa only [concat_eq_append] using listed.dataOnce.concat fresh
  | removed present statuses taken data =>
    rw [if_neg (by rintro ⟨-, no⟩; cases no)] at begun
    by_cases started : status = .started
    · have sameEnded := status_ended_iff others (by rw [same, started]; decide)
        (by rw [own]; decide)
      rw [Taken, if_pos (onStack.mpr started)] at taken
      refine iff_of_true ⟨?_, ?_, fun other => ?_, ?_⟩ fun _ => .inl started
      · rw [called, listed.silent, taken.2]
        rfl
      · rw [called, taken.1, begun, filter_status_erase consistent.begunOnce others
          (by rw [own]; decide), listed.stack]
      · rw [called, data, sameEnded, listed.data]
      · exact data ▸ listed.dataOnce
    · rw [Taken, if_neg fun member => started (onStack.mp member)] at taken
      refine iff_of_false (fun after => ?_) fun allowed => (allowed rfl).elim started present
      have silent := after.silent
      rw [called, taken.2] at silent
      simp at silent

end

/-! ## Runs -/

/-- A call on an object that does not exist does nothing. -/
theorem perform_absent {state : Tfie} {event : Nat} (absent : state.status event = none)
    (call : EventCall) : call.perform event state = (state, none) := by
  have nothing : state.events[event]? = none := Option.map_eq_none_iff.mp absent
  cases call with
  | Begin enable_logging disable_subevent_logging =>
    simp only [EventCall.perform, TestFrameworkInstrumentationEvent.Begin, nothing]
  | End => simp only [EventCall.perform, TestFrameworkInstrumentationEvent.End, nothing]
  | CheckEnded remove_reason =>
    simp only [EventCall.perform, TestFrameworkInstrumentationEvent.CheckEnded, absent]
  | Remove remove_reason =>
    simp only [EventCall.perform, TestFrameworkInstrumentationEvent.Remove, nothing]

theorem step_create : run.step (.create name category) = run.created name category := by
  simp [step, created, Call.perform, Call.target, Step.change]

theorem step_absent {event : Nat} (absent : run.state.status event = none) (call : EventCall) :
    run.step (.method event call) = run := by
  have outside := Nat.not_lt.mpr (status_eq_none_iff.mp absent)
  simp only [step, Call.perform, Call.target, perform_absent absent, if_neg outside,
    Option.isSome_none, Bool.or_false]

theorem step_method {event : Nat} (has : run.state.status event = some status) (call : EventCall) :
    run.step (.method event call) = run.called event call := by
  have inside : event < run.state.events.length := by
    by_contra outside
    rw [status_eq_none_iff.mpr (Nat.not_lt.mp outside)] at has
    cases has
  simp only [step, called, Call.perform, Call.target, if_pos inside]

theorem step_Begin (enable_logging : Option Bool) (disable_subevent_logging : Bool) :
    run.step (.Begin name category enable_logging disable_subevent_logging) =
      (run.created name category).called run.state.events.length
        (.Begin enable_logging disable_subevent_logging) := rfl

theorem step_End :
    run.step (.End name category) = run ∨ ∃ event status,
      run.state.status event = some status ∧
        run.step (.End name category) = run.called event .End := by
  cases found : FindEvent run.state name category with
  | none =>
    refine .inl ?_
    simp only [step, Call.perform, Call.target, Harness.End, found, Option.map_none,
      Option.isSome_none, Bool.or_false]
  | some event =>
    have matched := List.find?_some found
    rw [Option.any_eq_true] at matched
    obtain ⟨attributes, there, -⟩ := matched
    refine .inr ⟨event, _, Tfie.status_eq there, ?_⟩
    simp only [step, called, Call.perform, Call.target, Harness.End, found, Option.map_some,
      EventCall.perform]

/-- The new object has not begun. -/
theorem created_status :
    (run.created name category).state.status run.state.events.length = some .notStarted := by
  rw [created, status_create, if_pos rfl]

theorem step_consistent (consistent : run.Consistent) (call : Call) :
    (run.step call).Consistent := by
  cases call with
  | create name category =>
    rw [step_create]
    exact created_consistent consistent name category
  | method event call =>
    cases has : run.state.status event with
    | none =>
      rw [step_absent has]
      exact consistent
    | some status =>
      rw [step_method has]
      exact called_consistent consistent has call
  | Begin name category enable_logging disable_subevent_logging =>
    rw [step_Begin]
    exact called_consistent (created_consistent consistent name category)
      (created_status name category) _
  | End name category =>
    rcases step_End name category with same | ⟨event, status, has, next⟩
    · rw [same]
      exact consistent
    · rw [next]
      exact called_consistent consistent has _

/-- What is required of a call on an object, in terms of the status. -/
theorem meets_method_iff {event : Nat} (has : run.state.status event = some status)
    (call : EventCall) :
    (call.next status = .removed → status = .started ∨ status = .removed) ↔
      run.Meets (.method event call) := by
  cases call <;> cases status <;> simp [EventCall.next, Meets, has]

/-- A step keeps the lists right exactly when it meets the condition. -/
theorem step_listed (consistent : run.Consistent) (listed : run.Listed) (call : Call) :
    (run.step call).Listed ↔ run.Meets call := by
  cases call with
  | create name category =>
    rw [step_create, created_listed]
    exact iff_of_true listed trivial
  | method event call =>
    cases has : run.state.status event with
    | none =>
      rw [step_absent has]
      refine iff_of_true listed ?_
      cases call <;> simp [Meets, has]
    | some status =>
      rw [step_method has, called_listed consistent listed has, meets_method_iff has]
  | Begin name category enable_logging disable_subevent_logging =>
    rw [step_Begin, called_listed (created_consistent consistent name category)
      ((created_listed name category).mpr listed) (created_status name category)]
    exact iff_of_true (fun no => by cases no) trivial
  | End name category =>
    refine iff_of_true ?_ trivial
    rcases step_End name category with same | ⟨event, status, has, next⟩
    · rw [same]
      exact listed
    · rw [next, called_listed consistent listed has]
      cases status <;> simp [EventCall.next]

theorem start_consistent : start.Consistent :=
  ⟨fun _ _ has => (by cases has), fun _ _ => rfl, fun _ no => absurd no not_mem_nil,
    nodup_nil⟩

theorem start_listed : start.Listed :=
  ⟨rfl, rfl, fun _ => ⟨fun no => absurd no not_mem_nil, fun no => (by cases no)⟩,
    nodup_nil⟩

theorem run_consistent (consistent : run.Consistent) (calls : List Call) :
    (Lib.run step run calls).Consistent := by
  induction calls generalizing run with
  | nil => exact consistent
  | cons call calls ih =>
    exact ih (step_consistent consistent call)

end Run

/-- Along a run of calls nothing is raised and the lists are right exactly when no call removes an
event that has not begun or that has ended. -/
theorem lifecycle_right_iff (calls : List Call) :
    (∀ before, before <+: calls → (run Run.step Run.start before).Right) ↔
      AllMeet Run.step Run.Meets Run.start calls := by
  have exact : ∀ (run : Run) call, run.Consistent ∧ run.Listed →
      ((run.step call).Consistent ∧ (run.step call).Listed ↔ run.Meets call) := by
    rintro run call ⟨consistent, listed⟩
    rw [and_iff_right (Run.step_consistent consistent call)]
    exact Run.step_listed consistent listed call
  rw [← allMeet_iff_prefixes exact ⟨Run.start_consistent, Run.start_listed⟩]
  refine forall₂_congr fun before _ => ?_
  have consistent := Run.run_consistent Run.start_consistent before
  rw [Run.right_iff_listed consistent, and_iff_right consistent]

/-- An event that has ended is removed: the call raises, and the event stays among those that have
ended. -/
theorem lifecycle_right_removed :
    (run Run.step Run.start [.Begin "setUp" "Misc" none false, .method 0 .End,
        .method 0 (.Remove "no result")]).raised = true ∧
      ¬ ∀ calls, (run Run.step Run.start calls).Right := by
  have raised : (run Run.step Run.start [.Begin "setUp" "Misc" none false, .method 0 .End,
      .method 0 (.Remove "no result")]).raised = true := by
    decide +kernel
  refine ⟨raised, fun right => ?_⟩
  have silent := (right [.Begin "setUp" "Misc" none false, .method 0 .End,
    .method 0 (.Remove "no result")]).silent
  rw [raised] at silent
  cases silent

end Vts.Harness
