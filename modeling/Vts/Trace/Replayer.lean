import Mathlib.Data.List.Induction
import Vts.Trace.Latency

/-!
# Replaying a trace

`VtsHidlHalReplayer::ReplayTrace` of `drivers/hal/replayer/VtsHidlHalReplayer.cpp`, with
`readOneDelimited` of `utils/native/libprofiling/VtsProfilingUtil.cpp`. The records of a trace are
read two at a time into two messages. A record is merged into what the message holds already, and the
messages are cleared only behind a call.

The driver manager is a parameter, and so is the reading of the deprecated version, a `float`. What is
asked of the driver manager is kept with the place in the trace where the call was read. Proved here:
when the calls of a trace are those of its pairs of an entry and its exit.
-/

namespace Vts.Trace.Replayer

/-! ## Messages -/

/-- A message that is read into another one; nothing comes of reading into an empty message. -/
class Message (M : Type) where
  empty : M
  merge : M → M → M
  merge_empty : ∀ message, merge empty message = message

/-- An optional field. -/
def mergeField {α : Type} (old new : Option α) : Option α := new <|> old

/-- An optional field that is a message. -/
def mergeMessage {M : Type} [Message M] : Option M → Option M → Option M
  | some old, some new => some (Message.merge old new)
  | old, none => old
  | none, new => new

/-- `FunctionSpecificationMessage`: the name, the arguments and results, and the other fields. -/
structure FunctionSpecificationMessage (Variable Other : Type) where
  name : Option String
  arg : List Variable
  return_type_hidl : List Variable
  other : Other
deriving DecidableEq

/-- Repeated fields are put behind each other. -/
instance {Variable Other : Type} [Message Other] :
    Message (FunctionSpecificationMessage Variable Other) where
  empty := ⟨none, [], [], Message.empty⟩
  merge old new := {
    name := mergeField old.name new.name
    arg := old.arg ++ new.arg
    return_type_hidl := old.return_type_hidl ++ new.return_type_hidl
    other := Message.merge old.other new.other }
  merge_empty message := by
    simp [mergeField, Message.merge_empty]

structure VtsProfilingRecord (Version Func : Type) where
  timestamp : Option Int64
  event : Option InstrumentationEventType
  package : Option String
  version : Option Version
  interface : Option String
  func_msg : Option Func
  version_major : Option Int
  version_minor : Option Int
deriving DecidableEq

instance {Version Func : Type} [Message Func] : Message (VtsProfilingRecord Version Func) where
  empty := ⟨none, none, none, none, none, none, none, none⟩
  merge old new := {
    timestamp := mergeField old.timestamp new.timestamp
    event := mergeField old.event new.event
    package := mergeField old.package new.package
    version := mergeField old.version new.version
    interface := mergeField old.interface new.interface
    func_msg := mergeMessage old.func_msg new.func_msg
    version_major := mergeField old.version_major new.version_major
    version_minor := mergeField old.version_minor new.version_minor }
  merge_empty message := by
    cases message with
    | mk _ _ _ _ _ func_msg _ _ => cases func_msg <;> simp [mergeField, mergeMessage]

/-! ## The driver manager -/

/-- `FunctionCallMessage`, of the component class `HAL_HIDL`. -/
structure FunctionCallMessage (Func : Type) where
  hal_driver_id : Int
  api : Func

/-- What the replayer uses of the driver manager, whose calls may change its state, and of the text
format of the results. -/
structure DriverManager (σ Func : Type) where
  GetDriverIdForHidlHalInterface : String → Int → Int → String → String → σ → Int × σ
  CallFunction : FunctionCallMessage Func → σ → String × σ
  ParseFromString : String → Option Func
  VerifyResults : Int → Func → Func → σ → Bool × σ

def kErrorString : String := "error"

def kVoidString : String := "void"

def kInvalidDriverId : Int := -1

/-- The interface whose function is called. -/
structure Target where
  package_name : String
  version_major : Int
  version_minor : Int
  interface_name : String
  hal_service_name : String
deriving DecidableEq

/-- What the driver manager is asked for, with the number of the record of the trace at which the call
was read. -/
inductive Request (Func : Type) where
  | call (position : Nat) (target : Target) (api : Func)
  | verify (position : Nat) (expected : Func)
deriving DecidableEq

def Request.position {Func : Type} : Request Func → Nat
  | call position _ _ => position
  | verify position _ => position

/-! ## `ReplayTrace` -/

section

variable {σ Version Func : Type} [Message Func]

namespace VtsProfilingRecord

def getEvent (record : VtsProfilingRecord Version Func) : InstrumentationEventType :=
  record.event.getD .SERVER_API_ENTRY

/-- The event of a call. -/
def isCall (record : VtsProfilingRecord Version Func) : Bool :=
  record.getEvent ∈ [.SERVER_API_ENTRY, .CLIENT_API_ENTRY, .SYNC_CALLBACK_ENTRY,
    .ASYNC_CALLBACK_ENTRY, .PASSTHROUGH_ENTRY]

/-- The event of a result. -/
def isResult (record : VtsProfilingRecord Version Func) : Bool :=
  record.getEvent ∈ [.SERVER_API_EXIT, .CLIENT_API_EXIT, .SYNC_CALLBACK_EXIT,
    .ASYNC_CALLBACK_EXIT, .PASSTHROUGH_EXIT]

def getFunc (record : VtsProfilingRecord Version Func) : Func :=
  record.func_msg.getD Message.empty

/-- The major and minor version, from the deprecated field where both are -1. -/
def getVersions (readVersion : Option Version → Int × Int)
    (record : VtsProfilingRecord Version Func) : Int × Int :=
  let version_major := record.version_major.getD (-1)
  let version_minor := record.version_minor.getD (-1)
  if version_major = -1 ∧ version_minor = -1 then readVersion record.version
  else (version_major, version_minor)

end VtsProfilingRecord

/-- `GetInterfaceFQName`. -/
def GetInterfaceFQName (package_name : String) (version_major version_minor : Int)
    (interface_name : String) : String :=
  package_name ++ "@" ++ toString version_major ++ "." ++ toString version_minor ++ "::" ++
    interface_name

/-- What a replayer is given besides the trace. -/
structure Setting (σ Version Func : Type) where
  driver_manager_ : DriverManager σ Func
  readVersion : Option Version → Int × Int
  hal_service_instances : String → Option String

namespace Setting

variable (setting : Setting σ Version Func)

def target (call_msg : VtsProfilingRecord Version Func) : Target :=
  let package_name := call_msg.package.getD ""
  let (version_major, version_minor) := call_msg.getVersions setting.readVersion
  let interface_name := call_msg.interface.getD ""
  let instance_name := GetInterfaceFQName package_name version_major version_minor interface_name
  let hal_service_name := (setting.hal_service_instances instance_name).getD "default"
  ⟨package_name, version_major, version_minor, interface_name, hal_service_name⟩

/-- A call and the check of its result: whether the replay goes on, and what was asked. -/
def replayCall (position : Nat) (call_msg expected_result_msg : VtsProfilingRecord Version Func)
    (state : σ) : Bool × List (Request Func) × σ :=
  let target := setting.target call_msg
  let (driver_id, state) := setting.driver_manager_.GetDriverIdForHidlHalInterface
    target.package_name target.version_major target.version_minor target.interface_name
    target.hal_service_name state
  if driver_id = kInvalidDriverId then (false, [], state)
  else
    let (result, state) := setting.driver_manager_.CallFunction ⟨driver_id, call_msg.getFunc⟩ state
    let called := .call position target call_msg.getFunc
    if result = kVoidString ∨ result = kErrorString then (false, [called], state)
    else
      match setting.driver_manager_.ParseFromString result with
      | none => (false, [called], state)
      | some result_msg =>
        let expected := expected_result_msg.getFunc
        let (_, state) := setting.driver_manager_.VerifyResults driver_id expected result_msg state
        (true, [called, .verify position expected], state)

/-- The loop over the records that are left; a single one at the end is read and nothing else. -/
def replayRecords (position : Nat) : List (VtsProfilingRecord Version Func) →
    VtsProfilingRecord Version Func → VtsProfilingRecord Version Func → σ →
    Bool × List (Request Func) × σ
  | first :: second :: records, call_msg, expected_result_msg, state =>
    let call_msg := Message.merge call_msg first
    let expected_result_msg := Message.merge expected_result_msg second
    if !call_msg.isCall then
      replayRecords (position + 2) records call_msg expected_result_msg state
    else if !expected_result_msg.isResult then
      replayRecords (position + 2) records call_msg expected_result_msg state
    else
      match setting.replayCall position call_msg expected_result_msg state with
      | (false, requests, state) => (false, requests, state)
      | (true, requests, state) =>
        let (done, more, state) :=
          replayRecords (position + 2) records Message.empty Message.empty state
        (done, requests ++ more, state)
  | _, _, _, state => (true, [], state)

/-- The trace is none where its file cannot be opened. -/
def ReplayTrace (trace : Option (List (VtsProfilingRecord Version Func))) (state : σ) :
    Bool × List (Request Func) × σ :=
  match trace with
  | none => (false, [], state)
  | some records => setting.replayRecords 0 records Message.empty Message.empty state

end Setting

end

/-! ## Pairs and stray records -/

/-- What a trace is made of: calls with their results, and further records. -/
inductive Item (Version Func : Type) where
  | pair (entry exit : VtsProfilingRecord Version Func) (called : entry.isCall = true)
      (answered : exit.isResult = true)
  | stray (record : VtsProfilingRecord Version Func)

namespace Item

variable {σ Version Func : Type} [Message Func]

def records : Item Version Func → List (VtsProfilingRecord Version Func)
  | pair entry exit _ _ => [entry, exit]
  | stray record => [record]

/-- The requests that the pairs of a trace are replayed with. -/
def requests (setting : Setting σ Version Func) : Nat → List (Item Version Func) →
    List (Request Func)
  | _, [] => []
  | position, pair entry exit _ _ :: items =>
    .call position (setting.target entry) entry.getFunc :: .verify position exit.getFunc ::
      requests setting (position + 2) items
  | position, stray _ :: items => requests setting (position + 1) items

end Item

/-- The driver manager finds every driver, and every call has a result. -/
structure DriverManager.Succeeds {σ Func : Type} (driver_manager_ : DriverManager σ Func) :
    Prop where
  finds : ∀ package version_major version_minor interface service state,
    (driver_manager_.GetDriverIdForHidlHalInterface package version_major version_minor interface
      service state).1 ≠ kInvalidDriverId
  calls : ∀ call state,
    (driver_manager_.CallFunction call state).1 ≠ kVoidString ∧
      (driver_manager_.CallFunction call state).1 ≠ kErrorString ∧
      (driver_manager_.ParseFromString (driver_manager_.CallFunction call state).1).isSome

section

variable {σ Version Func : Type} [Message Func] (setting : Setting σ Version Func)

/-- A pair is asked for as recorded, with what was read into the two messages before. -/
structure AsRecorded (call_msg expected_result_msg entry exit : VtsProfilingRecord Version Func) :
    Prop where
  isCall : (Message.merge call_msg entry).isCall = true
  target : setting.target (Message.merge call_msg entry) = setting.target entry
  api : (Message.merge call_msg entry).getFunc = entry.getFunc
  expected : (Message.merge expected_result_msg exit).getFunc = exit.getFunc

/-- Stray records stand in twos before each pair, no two of them are taken for a call, and what they
leave in the two messages does not show in the next pair. -/
def Undisturbed : VtsProfilingRecord Version Func → VtsProfilingRecord Version Func →
    List (Item Version Func) → Prop
  | call_msg, expected_result_msg, .pair entry exit _ _ :: items =>
    AsRecorded setting call_msg expected_result_msg entry exit ∧
      Undisturbed Message.empty Message.empty items
  | call_msg, expected_result_msg, .stray first :: .stray second :: items =>
    ¬((Message.merge call_msg first).isCall = true ∧
        (Message.merge expected_result_msg second).isResult = true) ∧
      Undisturbed (Message.merge call_msg first) (Message.merge expected_result_msg second) items
  | _, _, .stray _ :: .pair .. :: _ => False
  | _, _, [.stray _] => True
  | _, _, [] => True

/-! ## Runs -/

variable {setting}

section

variable {first second call_msg expected_result_msg : VtsProfilingRecord Version Func}

theorem replayCall_succeeds (succeeds : setting.driver_manager_.Succeeds) (position : Nat)
    (call_msg expected_result_msg : VtsProfilingRecord Version Func) (state : σ) :
    ∃ after, setting.replayCall position call_msg expected_result_msg state =
      (true, [.call position (setting.target call_msg) call_msg.getFunc,
        .verify position expected_result_msg.getFunc], after) := by
  have finds := succeeds.finds (setting.target call_msg).package_name
    (setting.target call_msg).version_major (setting.target call_msg).version_minor
    (setting.target call_msg).interface_name (setting.target call_msg).hal_service_name state
  obtain ⟨driver_id, foundState, found⟩ : ∃ driver_id foundState,
      setting.driver_manager_.GetDriverIdForHidlHalInterface (setting.target call_msg).package_name
        (setting.target call_msg).version_major (setting.target call_msg).version_minor
        (setting.target call_msg).interface_name (setting.target call_msg).hal_service_name state =
      (driver_id, foundState) := ⟨_, _, rfl⟩
  obtain ⟨result, calledState, called⟩ : ∃ result calledState,
      setting.driver_manager_.CallFunction ⟨driver_id, call_msg.getFunc⟩ foundState =
      (result, calledState) := ⟨_, _, rfl⟩
  obtain ⟨notVoid, notError, parsed⟩ := succeeds.calls ⟨driver_id, call_msg.getFunc⟩ foundState
  rw [found] at finds
  rw [called] at notVoid notError parsed
  obtain ⟨result_msg, read⟩ := Option.isSome_iff_exists.mp parsed
  have failed : ¬(result = kVoidString ∨ result = kErrorString) := not_or.mpr ⟨notVoid, notError⟩
  simp only [Setting.replayCall, found, called, if_neg finds, if_neg failed, read]
  exact ⟨_, rfl⟩

/-- A round that is no call only fills the messages. -/
theorem replayRecords_skip (skipped : ¬((Message.merge call_msg first).isCall = true ∧
      (Message.merge expected_result_msg second).isResult = true)) (position : Nat)
    (records : List (VtsProfilingRecord Version Func)) (state : σ) :
    setting.replayRecords position (first :: second :: records) call_msg expected_result_msg state =
      setting.replayRecords (position + 2) records (Message.merge call_msg first)
        (Message.merge expected_result_msg second) state := by
  rw [Setting.replayRecords]
  cases isCall : (Message.merge call_msg first).isCall with
  | false => rfl
  | true =>
    have notResult : (Message.merge expected_result_msg second).isResult = false :=
      Bool.eq_false_iff.mpr fun isResult => skipped ⟨isCall, isResult⟩
    rw [notResult]
    rfl

/-- A round with a call clears the messages. -/
theorem replayRecords_call (succeeds : setting.driver_manager_.Succeeds)
    (isCall : (Message.merge call_msg first).isCall = true)
    (isResult : (Message.merge expected_result_msg second).isResult = true) (position : Nat)
    (records : List (VtsProfilingRecord Version Func)) (state : σ) :
    ∃ after, (setting.replayRecords position (first :: second :: records) call_msg
        expected_result_msg state).2.1 =
      .call position (setting.target (Message.merge call_msg first))
          (Message.merge call_msg first).getFunc ::
        .verify position (Message.merge expected_result_msg second).getFunc ::
        (setting.replayRecords (position + 2) records Message.empty Message.empty after).2.1 := by
  obtain ⟨after, called⟩ := replayCall_succeeds succeeds position (Message.merge call_msg first)
    (Message.merge expected_result_msg second) state
  refine ⟨after, ?_⟩
  rw [Setting.replayRecords, isCall, isResult, called]
  rfl

end

/-- Calls are read at every second record. -/
theorem replayRecords_position (succeeds : setting.driver_manager_.Succeeds)
    (records : List (VtsProfilingRecord Version Func)) (position : Nat)
    (call_msg expected_result_msg : VtsProfilingRecord Version Func) (state : σ) :
    ∀ request ∈ (setting.replayRecords position records call_msg expected_result_msg state).2.1,
      ∃ rounds, request.position = position + 2 * rounds := by
  induction records using List.twoStepInduction generalizing position call_msg
    expected_result_msg state with
  | nil => exact List.forall_mem_nil _
  | singleton record => exact List.forall_mem_nil _
  | cons_cons first second records ih _ =>
    have later : ∀ call_msg expected_result_msg state, ∀ request ∈ (setting.replayRecords
        (position + 2) records call_msg expected_result_msg state).2.1,
        ∃ rounds, request.position = position + 2 * rounds := by
      intro call_msg expected_result_msg state request listed
      obtain ⟨rounds, same⟩ :=
        ih (position + 2) call_msg expected_result_msg state request listed
      exact ⟨rounds + 1, by omega⟩
    by_cases isPair : (Message.merge call_msg first).isCall = true ∧
        (Message.merge expected_result_msg second).isResult = true
    · obtain ⟨after, requests⟩ := replayRecords_call succeeds isPair.1 isPair.2 position records state
      rw [requests]
      intro request listed
      rcases List.mem_cons.mp listed with rfl | listed
      · exact ⟨0, rfl⟩
      · rcases List.mem_cons.mp listed with rfl | listed
        · exact ⟨0, rfl⟩
        · exact later _ _ _ request listed
    · rw [replayRecords_skip isPair]
      exact later _ _ _

/-- The pairs are found at their own records. -/
theorem requests_position (position : Nat) (items : List (Item Version Func)) :
    ∀ request ∈ Item.requests setting position items, position ≤ request.position := by
  induction items generalizing position with
  | nil => exact List.forall_mem_nil _
  | cons item items ih =>
    intro request listed
    cases item with
    | pair entry exit called answered =>
      rcases List.mem_cons.mp listed with rfl | listed
      · exact Nat.le_refl _
      · rcases List.mem_cons.mp listed with rfl | listed
        · exact Nat.le_refl _
        · have later := ih (position + 2) request listed
          omega
    | stray record =>
      have later := ih (position + 1) request listed
      omega

/-- An exit is recognised whatever was read before. -/
theorem isResult_merge {expected_result_msg exit : VtsProfilingRecord Version Func}
    (answered : exit.isResult = true) : (Message.merge expected_result_msg exit).isResult = true := by
  have same : (Message.merge expected_result_msg exit).event = exit.event := by
    cases event : exit.event with
    | some event =>
      change mergeField expected_result_msg.event exit.event = _
      rw [event]
      rfl
    | none =>
      rw [VtsProfilingRecord.isResult, VtsProfilingRecord.getEvent, event] at answered
      cases answered
  rw [VtsProfilingRecord.isResult, VtsProfilingRecord.getEvent, same]
  exact answered

/-- What is asked for is what the pairs ask for exactly if the stray records do not disturb them. -/
theorem replayRecords_iff (succeeds : setting.driver_manager_.Succeeds)
    (items : List (Item Version Func)) (position : Nat)
    (call_msg expected_result_msg : VtsProfilingRecord Version Func) (state : σ) :
    (setting.replayRecords position (items.flatMap Item.records) call_msg expected_result_msg
        state).2.1 = Item.requests setting position items ↔
      Undisturbed setting call_msg expected_result_msg items := by
  induction call_msg, expected_result_msg, items using Undisturbed.induct generalizing position state with
  | case1 call_msg expected_result_msg entry exit called answered items ih =>
    have isResult := @isResult_merge _ _ _ expected_result_msg _ answered
    change (setting.replayRecords position (entry :: exit :: items.flatMap Item.records) _ _ _).2.1 =
      .call position (setting.target entry) entry.getFunc :: .verify position exit.getFunc ::
        Item.requests setting (position + 2) items ↔ AsRecorded setting _ _ _ _ ∧ _
    by_cases isCall : (Message.merge call_msg entry).isCall = true
    · obtain ⟨after, requests⟩ := replayRecords_call succeeds isCall isResult position
        (items.flatMap Item.records) state
      rw [requests, List.cons.injEq, List.cons.injEq, Request.call.injEq, Request.verify.injEq,
        ih]
      constructor
      · rintro ⟨⟨_, target, api⟩, ⟨_, expected⟩, rest⟩
        exact ⟨⟨isCall, target, api, expected⟩, rest⟩
      · rintro ⟨recorded, rest⟩
        exact ⟨⟨rfl, recorded.target, recorded.api⟩, ⟨rfl, recorded.expected⟩, rest⟩
    · have skipped : ¬((Message.merge call_msg entry).isCall = true ∧
          (Message.merge expected_result_msg exit).isResult = true) := fun both => isCall both.1
      rw [replayRecords_skip skipped]
      refine iff_of_false ?_ (fun recorded => isCall recorded.1.isCall)
      intro same
      obtain ⟨rounds, later⟩ := replayRecords_position succeeds (items.flatMap Item.records)
        (position + 2) (Message.merge call_msg entry) (Message.merge expected_result_msg exit) state
        (.call position (setting.target entry) entry.getFunc) (same ▸ List.mem_cons_self)
      change position = position + 2 + 2 * rounds at later
      omega
  | case2 call_msg expected_result_msg first second items ih =>
    change (setting.replayRecords position (first :: second :: items.flatMap Item.records) _ _ _).2.1 =
      Item.requests setting (position + 2) items ↔ _ ∧ _
    by_cases isPair : (Message.merge call_msg first).isCall = true ∧
        (Message.merge expected_result_msg second).isResult = true
    · refine iff_of_false ?_ (fun undisturbed => undisturbed.1 isPair)
      intro same
      obtain ⟨after, requests⟩ := replayRecords_call succeeds isPair.1 isPair.2 position
        (items.flatMap Item.records) state
      rw [requests] at same
      have later := @requests_position _ _ _ _ setting (position + 2) items _
        (same ▸ List.mem_cons_self)
      change position + 2 ≤ position at later
      omega
    · rw [replayRecords_skip isPair, ih]
      exact ⟨fun rest => ⟨isPair, rest⟩, And.right⟩
  | case3 call_msg expected_result_msg record entry exit called answered items =>
    refine iff_of_false ?_ id
    intro same
    have listed : Request.call (position + 1) (setting.target entry) entry.getFunc ∈
        Item.requests setting position (.stray record :: .pair entry exit called answered :: items) :=
      List.mem_cons_self
    obtain ⟨rounds, even⟩ := replayRecords_position succeeds _ position call_msg expected_result_msg
      state _ (same ▸ listed)
    change position + 1 = position + 2 * rounds at even
    omega
  | case4 | case5 => exact iff_of_true rfl trivial

/-- The driver manager is asked for the pairs of a trace, each at its own records and with what it
recorded, and for nothing else, exactly if the stray records do not disturb them. -/
theorem ReplayTrace_replays_iff (succeeds : setting.driver_manager_.Succeeds)
    (items : List (Item Version Func)) (state : σ) :
    (setting.ReplayTrace (some (items.flatMap Item.records)) state).2.1 =
        Item.requests setting 0 items ↔
      Undisturbed setting Message.empty Message.empty items :=
  replayRecords_iff succeeds items 0 Message.empty Message.empty state

end

/-! ## A stray entry -/

instance : Message Unit := ⟨(), fun _ _ => (), fun _ => rfl⟩

/-- A driver manager with one driver, whose functions return nothing. -/
def quietSetting : Setting Unit Unit (FunctionSpecificationMessage Nat Unit) where
  driver_manager_ := {
    GetDriverIdForHidlHalInterface := fun _ _ _ _ _ state => (0, state)
    CallFunction := fun _ state => ("", state)
    ParseFromString := fun _ => some Message.empty
    VerifyResults := fun _ _ _ state => (true, state) }
  readVersion := fun _ => (1, 0)
  hal_service_instances := fun _ => none

theorem quietSetting_succeeds : quietSetting.driver_manager_.Succeeds where
  finds _ _ _ _ _ _ := (by decide : (0 : Int) ≠ kInvalidDriverId)
  calls _ _ := ⟨(by decide : "" ≠ kVoidString), (by decide : "" ≠ kErrorString), rfl⟩

/-- A record of `INfc` with a function, its arguments and its results. -/
def nfcRecord (event : InstrumentationEventType) (name : String)
    (arg return_type_hidl : List Nat) :
    VtsProfilingRecord Unit (FunctionSpecificationMessage Nat Unit) :=
  ⟨none, some event, some "android.hardware.nfc", none, some "INfc",
    some ⟨some name, arg, return_type_hidl, ()⟩, some 1, some 0⟩

def writeCall : Item Unit (FunctionSpecificationMessage Nat Unit) :=
  .pair (nfcRecord .SERVER_API_ENTRY "write" [5] []) (nfcRecord .SERVER_API_EXIT "write" [] [1])
    (by decide) (by decide)

theorem writeCall_replays_iff :
    (quietSetting.ReplayTrace (some ([writeCall].flatMap Item.records)) ()).2.1 =
        Item.requests quietSetting 0 [writeCall] ↔
      Undisturbed quietSetting Message.empty Message.empty [writeCall] :=
  ReplayTrace_replays_iff quietSetting_succeeds [writeCall] ()

/-- An entry without an exit stands before the call. -/
def strayEntry : Item Unit (FunctionSpecificationMessage Nat Unit) :=
  .stray (nfcRecord .SERVER_API_ENTRY "open" [] [])

/-- The entry of the call is read as the result of the stray one, and nothing is called. -/
theorem strayEntry_disturbs :
    (quietSetting.ReplayTrace (some ([strayEntry, writeCall].flatMap Item.records)) ()).2.1 ≠
      Item.requests quietSetting 0 [strayEntry, writeCall] := by
  decide

end Vts.Trace.Replayer
