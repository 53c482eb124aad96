import Vts.Resource.Steps

/-!
# Requests for objects that are not there

A request may name an id that was never given out, a handle that was deleted, or a queue of another
type or flavor. Proved here, for every run of commands: all these requests are rejected, with
nothing changed and all mutexes free, exactly if each of them is `Harmless`.

A request that is not harmless either ends the process, or leaves the mutex of the queues locked,
so that the next request for a queue never returns.
-/

namespace Vts.Resource

open Vts.Lib

/-- A driver has the objects that it had before, none of them was called, and its mutex is free. -/
structure Driver.Kept {Object : Type} (driver after : Driver Object) : Prop where
  objects : ∀ id, after.map.get id = driver.map.get id
  used : after.used = driver.used
  free : after.map_mutex_ = false

/-- All mutexes are free. -/
structure VtsResourceManager.Free (manager : VtsResourceManager) : Prop where
  handles : manager.hidl_handle_driver_.map_mutex_ = false
  memories : manager.hidl_memory_driver_.map_mutex_ = false
  queues : manager.fmq_driver_.map_mutex_ = false

/-- The queue of an id is of a type and a flavor. -/
def Driver.Matches (driver : Driver Queue) (data_type : String) (flavor : MQFlavor)
    (queue_id : Int) : Prop :=
  ∃ queue, driver.map.get queue_id = some queue ∧ queue.queue_data_type = data_type ∧
    queue.queue_flavor = flavor

/-- A command names an object that is not there, or a queue that does not match. -/
def Command.Misdirected (manager : VtsResourceManager) : Command → Prop
  | .handle request => request.operation ≠ .HANDLE_PROTO_CREATE_FILE ∧
      manager.hidl_handle_driver_.map.get request.handle_id = none
  | .memory request => request.operation ≠ .MEM_PROTO_ALLOCATE ∧
      manager.hidl_memory_driver_.map.get request.mem_id = none
  | .fmq request => ¬ (request.operation = .FMQ_CREATE ∧ request.queue_id = -1) ∧
      ¬ manager.fmq_driver_.Matches request.data_type request.flavor request.queue_id
  | .handleAddress handle_id => manager.hidl_handle_driver_.map.get handle_id = none
  | .memoryAddress mem_id => manager.hidl_memory_driver_.map.get mem_id = none
  | .queueAddress data_type sync fmq_id => ¬ manager.fmq_driver_.Matches data_type
      (if sync then .kSynchronizedReadWrite else .kUnsynchronizedWrite) fmq_id
  | _ => False

/-- A command reads no file, its arrays have room on the stack, and it does not come to look for a
queue. -/
def Command.Harmless (device : Device) : Command → Prop
  | .handle request => request.operation ≠ .HANDLE_PROTO_READ_FILE
  | .memory request =>
    request.operation = .MEM_PROTO_READ_BYTES → request.length ≤ device.stack
  | .fmq request => request.data_type ∉ func_map_ ∨
      request.room device ≤ device.stack ∧ request.skipsQueue device = true
  | .queueAddress data_type _ _ => data_type ∉ func_map_
  | _ => True

/-- A command is answered without success, with nothing changed and all mutexes free. -/
def VtsResourceManager.Rejects (manager : VtsResourceManager) (device : Device)
    (command : Command) : Prop :=
  ∃ after, manager.process device command = .ok (false, after) ∧
    manager.hidl_handle_driver_.Kept after.hidl_handle_driver_ ∧
    manager.hidl_memory_driver_.Kept after.hidl_memory_driver_ ∧
    manager.fmq_driver_.Kept after.fmq_driver_

section

variable {Object : Type} {driver : Driver Object}

theorem Driver.Kept.refl (free : driver.map_mutex_ = false) : driver.Kept driver :=
  ⟨fun _ => rfl, rfl, free⟩

theorem Driver.lock_of_free (free : driver.map_mutex_ = false) :
    driver.lock = .ok { driver with map_mutex_ := true } := by
  rw [Driver.lock, free]
  rfl

end

/-! ## Handles -/

section

variable {device : Device} {driver : Driver Handle} {handle_id : Int}

theorem FindHandle_eq (free : driver.map_mutex_ = false) :
    VtsHidlHandleDriver.FindHandle driver handle_id false =
      .ok (driver.map.get handle_id, driver) := by
  unfold VtsHidlHandleDriver.FindHandle IdTable.get
  rw [Driver.lock_of_free free]
  cases found : driver.map.lookup handle_id with
  | none =>
    simp [Bind.bind, Except.bind, found, Driver.unlock_eq free]
  | some handle =>
    simp [Bind.bind, Except.bind, found, Driver.unlock_eq free]

/-- Deleting a handle that is not there changes nothing. -/
theorem UnregisterHidlHandle_rejects (free : driver.map_mutex_ = false)
    (missing : driver.map.get handle_id = none) :
    ∃ after, VtsHidlHandleDriver.UnregisterHidlHandle driver handle_id = .ok (false, after) ∧
      driver.Kept after := by
  unfold VtsHidlHandleDriver.UnregisterHidlHandle VtsHidlHandleDriver.FindHandle
  rw [Driver.lock_of_free free]
  cases found : driver.map.lookup handle_id with
  | none =>
    refine ⟨driver, ?_, .refl free⟩
    simp [Bind.bind, Except.bind, found, Driver.unlock_eq free]
  | some handle =>
    have gone : handle = none := by simpa [IdTable.get, found] using missing
    subst gone
    refine ⟨{ driver with
      map := driver.map.release handle_id, log := driver.log ++ [.release handle_id] }, ?_, ?_⟩
    · cases driver
      cases free
      simp only [Bind.bind, Except.bind, found]
      rfl
    · refine ⟨fun id => ?_, rfl, free⟩
      rw [IdTable.get_release]
      split
      · rename_i same
        rw [same, missing]
      · rfl

/-- A request for a handle that is not there is rejected unless it is a read. -/
theorem handle_rejects_iff {request : HidlHandleRequestMessage}
    (free : driver.map_mutex_ = false) (used : request.operation ≠ .HANDLE_PROTO_CREATE_FILE)
    (missing : driver.map.get request.handle_id = none) :
    (∃ response after, ProcessHidlHandleOperation device driver request = .ok (response, after) ∧
      response.success = false ∧ driver.Kept after) ↔
        request.operation ≠ .HANDLE_PROTO_READ_FILE := by
  have found := @FindHandle_eq driver request.handle_id free
  rw [missing] at found
  unfold ProcessHidlHandleOperation
  cases operation : request.operation with
  | HANDLE_PROTO_CREATE_FILE => exact absurd operation used
  | HANDLE_PROTO_UNKNOWN => exact iff_of_true ⟨_, driver, rfl, rfl, .refl free⟩ (by simp)
  | HANDLE_PROTO_DELETE =>
    obtain ⟨after, done, kept⟩ := UnregisterHidlHandle_rejects free missing
    refine iff_of_true ⟨⟨false, none, none, none⟩, after, ?_, rfl, kept⟩ (by simp)
    dsimp only
    rw [done]
    rfl
  | HANDLE_PROTO_WRITE_FILE =>
    refine iff_of_true ⟨⟨false, none, none, some (-1)⟩, driver, ?_, rfl, .refl free⟩ (by simp)
    dsimp only
    unfold VtsHidlHandleDriver.WriteFile
    rw [found]
    rfl
  | HANDLE_PROTO_READ_FILE =>
    refine iff_of_false ?_ (by simp)
    rintro ⟨response, after, done, _⟩
    dsimp only at done
    unfold readFile VtsHidlHandleDriver.ReadFile at done
    rw [found] at done
    split at done <;> cases done

end

/-! ## Memory -/

section

variable {device : Device} {driver : Driver Memory} {mem_id : Int}

theorem FindMemory_eq (free : driver.map_mutex_ = false) :
    VtsHidlMemoryDriver.FindMemory driver mem_id = .ok (driver.map.get mem_id, driver) := by
  unfold VtsHidlMemoryDriver.FindMemory IdTable.get
  rw [Driver.lock_of_free free]
  cases found : driver.map.lookup mem_id with
  | none => simp [Bind.bind, Except.bind, found, Driver.unlock_eq free]
  | some mem_info => simp [Bind.bind, Except.bind, found, Driver.unlock_eq free]

/-- A request for memory that is not there is rejected if its bytes have room. -/
theorem memory_rejects_iff {request : HidlMemoryRequestMessage}
    (free : driver.map_mutex_ = false) (used : request.operation ≠ .MEM_PROTO_ALLOCATE)
    (missing : driver.map.get request.mem_id = none) :
    (∃ response after, ProcessHidlMemoryOperation device driver request = .ok (response, after) ∧
      response.success = false ∧ driver.Kept after) ↔
        (request.operation = .MEM_PROTO_READ_BYTES → request.length ≤ device.stack) := by
  have called : ∀ what, VtsHidlMemoryDriver.call device driver request.mem_id what =
      .ok (none, driver) := by
    intro what
    unfold VtsHidlMemoryDriver.call
    rw [FindMemory_eq free, missing]
    rfl
  have rejected : ∀ {result}, result = .ok (none, driver) →
      ∃ response after, memoryDone result = .ok (response, after) ∧ response.success = false ∧
        driver.Kept after := by
    rintro _ rfl
    exact ⟨_, driver, rfl, rfl, .refl free⟩
  unfold ProcessHidlMemoryOperation
  dsimp only
  cases operation : request.operation with
  | MEM_PROTO_ALLOCATE => exact absurd operation used
  | MEM_PROTO_UNKNOWN => exact iff_of_true ⟨_, driver, rfl, rfl, .refl free⟩ (by simp)
  | MEM_PROTO_READ_BYTES =>
    simp only [VtsHidlMemoryDriver.ReadBytes, called, forall_const]
    by_cases room : device.stack < request.length
    · rw [if_pos room]
      exact iff_of_false (fun ⟨_, _, impossible, _⟩ => nomatch impossible) (by omega)
    · rw [if_neg room]
      exact iff_of_true ⟨_, driver, rfl, rfl, .refl free⟩ (by omega)
  | MEM_PROTO_GET_SIZE =>
    simp only [VtsHidlMemoryDriver.GetSize, called]
    exact iff_of_true ⟨_, driver, rfl, rfl, .refl free⟩ (by simp)
  | MEM_PROTO_START_READ | MEM_PROTO_START_READ_RANGE | MEM_PROTO_START_UPDATE
  | MEM_PROTO_START_UPDATE_RANGE | MEM_PROTO_UPDATE_BYTES | MEM_PROTO_COMMIT =>
    exact iff_of_true (rejected (called _)) (by simp)

end

/-! ## Queues -/

section

variable {device : Device} {driver : Driver Queue}

section

variable {data_type : String} {flavor : MQFlavor} {queue_id : Int}

/-- A queue that does not match leaves the mutex locked. -/
theorem FindQueue_mismatch (mismatch : ¬ driver.Matches data_type flavor queue_id) :
    Ensures (VtsFmqDriver.FindQueue driver data_type flavor queue_id) fun result =>
      result.1 = none ∧ result.2.map_mutex_ = true := by
  refine driver.lock_ensures.bind fun locked found => ?_
  obtain ⟨_, rfl⟩ := found
  split
  · exact .ok ⟨rfl, rfl⟩
  · exact .error _
  · rename_i queue_info found
    refine .ite (fun _ => .ok ⟨rfl, rfl⟩) fun sameType =>
      .ite (fun _ => .ok ⟨rfl, rfl⟩) fun sameFlavor => ?_
    refine absurd ⟨queue_info, ?_, not_not.mp sameType, not_not.mp sameFlavor⟩ mismatch
    simpa [IdTable.get] using congrArg Option.join found

theorem FindQueue_matches (present : driver.Matches data_type flavor queue_id) :
    Ensures (VtsFmqDriver.FindQueue driver data_type flavor queue_id) fun result =>
      result.2 = driver := by
  obtain ⟨queue, found, rfl, rfl⟩ := present
  refine driver.lock_ensures.bind fun locked lock => ?_
  obtain ⟨free, rfl⟩ := lock
  split
  · rename_i missing
    simp [IdTable.get, missing] at found
  · rename_i missing
    simp [IdTable.get, missing] at found
  · rename_i queue_info there
    have same : queue_info = queue := by simpa [IdTable.get, there] using found
    subst same
    rw [if_neg (by simp), if_neg (by simp)]
    exact .ok (Driver.unlock_eq free)

theorem call_mismatch (mismatch : ¬ driver.Matches data_type flavor queue_id) (what : QueueCall) :
    Ensures (VtsFmqDriver.call device driver data_type flavor queue_id what) fun result =>
      result.2.map_mutex_ = true := by
  refine (FindQueue_mismatch mismatch).bind fun found locked => ?_
  obtain ⟨queue_object, after⟩ := found
  obtain ⟨rfl, locked⟩ := locked
  exact .ok locked

theorem call_matches (present : driver.Matches data_type flavor queue_id) (what : QueueCall) :
    Ensures (VtsFmqDriver.call device driver data_type flavor queue_id what) fun result =>
      driver.Steps result.2 := by
  refine (FindQueue_matches present).bind fun found same => ?_
  obtain ⟨queue_object, after⟩ := found
  cases same
  cases queue_object with
  | none => exact .ok .refl
  | some queue =>
    dsimp only
    split
    · exact .error _
    · exact .ok (.single (.use _ queue))

end

variable {request : FmqRequestMessage}

/-- A request that comes to look for a queue that does not match leaves the mutex locked. -/
theorem ProcessFmqOperation_mismatch
    (mismatch : ¬ driver.Matches request.data_type request.flavor request.queue_id)
    (named : ¬ (request.operation = .FMQ_CREATE ∧ request.queue_id = -1))
    (looks : request.skipsQueue device = false) :
    Ensures (ProcessFmqOperation device driver request) fun result =>
      result.2.map_mutex_ = true := by
  refine @ProcessFmqOperation_ensures device driver request (fun after => after.map_mutex_ = true)
    (call_mismatch mismatch) (fun skips => ?_) fun create => ?_
  · rw [looks] at skips
    cases skips
  · unfold newQueue
    rw [if_neg fun default => named ⟨create, default⟩]
    refine (FindQueue_mismatch mismatch).bind fun found locked => ?_
    obtain ⟨queue_object, after⟩ := found
    obtain ⟨rfl, _⟩ := locked
    exact .error _

/-- A request for a queue that matches, or for a new queue, leaves the mutex as it was. -/
theorem ProcessFmqOperation_matches
    (present : request.operation = .FMQ_CREATE ∧ request.queue_id = -1 ∨
      driver.Matches request.data_type request.flavor request.queue_id) :
    Ensures (ProcessFmqOperation device driver request) fun result => driver.Steps result.2 := by
  rcases present with ⟨create, _⟩ | present
  · unfold ProcessFmqOperation
    rw [create]
    exact (newQueue_steps driver request).bind fun _ steps => .ok steps
  · exact ProcessFmqOperation_ensures (call_matches present) (fun _ => .refl) fun _ =>
      newQueue_steps driver request

theorem callBlocking_skips (unsync : request.flavor = .kUnsynchronizedWrite) (what : QueueCall) :
    VtsFmqDriver.callBlocking device driver request.data_type request.flavor request.queue_id
      what = .ok (none, driver) := by
  rw [VtsFmqDriver.callBlocking, if_pos unsync]

theorem callBlockingLong_skips
    (fails : request.flavor = .kUnsynchronizedWrite ∨ device.createEventFlag = false)
    (what : QueueCall) :
    VtsFmqDriver.callBlockingLong device driver request.data_type request.flavor request.queue_id
      what = .ok (none, driver) := by
  unfold VtsFmqDriver.callBlockingLong
  split
  · rfl
  · rename_i sync
    rw [fails.resolve_left sync]
    rfl

theorem fmqRead_skips {result : Except Stop (Option QueueAnswer × Driver Queue)}
    (skips : result = .ok (none, driver)) :
    ∃ response, fmqRead device request result = .ok (response, driver) ∧
      response.success = false := by
  subst skips
  exact ⟨_, rfl, rfl⟩

/-- A write whose data is not translated, or that does not look for a queue. -/
theorem fmqWrite_skips {result : Except Stop (Option QueueAnswer × Driver Queue)}
    (skips : FmqProto2Cpp device request.data_type = true → result = .ok (none, driver)) :
    ∃ response, fmqWrite device driver request result = .ok (response, driver) ∧
      response.success = false := by
  unfold fmqWrite
  cases translated : FmqProto2Cpp device request.data_type with
  | false => exact ⟨_, rfl, rfl⟩
  | true =>
    rw [skips translated]
    exact ⟨_, rfl, rfl⟩

/-- A request that does not look for a queue is answered without success. -/
theorem ProcessFmqOperation_skips (skips : request.skipsQueue device = true) :
    ∃ response, ProcessFmqOperation device driver request = .ok (response, driver) ∧
      response.success = false := by
  unfold FmqRequestMessage.skipsQueue at skips
  unfold ProcessFmqOperation
  dsimp only
  cases operation : request.operation with
  | FMQ_UNKNOWN => exact ⟨_, rfl, rfl⟩
  | FMQ_READ_BLOCKING =>
    simp only [operation, decide_eq_true_eq] at skips
    exact fmqRead_skips (callBlocking_skips skips _)
  | FMQ_READ_BLOCKING_LONG =>
    simp only [operation, Bool.or_eq_true, decide_eq_true_eq, Bool.not_eq_true'] at skips
    exact fmqRead_skips (callBlockingLong_skips skips _)
  | FMQ_WRITE =>
    simp only [operation, Bool.not_eq_true'] at skips
    refine fmqWrite_skips fun translated => ?_
    rw [skips] at translated
    cases translated
  | FMQ_WRITE_BLOCKING =>
    simp only [operation, Bool.or_eq_true, decide_eq_true_eq, Bool.not_eq_true'] at skips
    refine fmqWrite_skips fun translated => callBlocking_skips ?_ _
    exact skips.resolve_left (by simp [translated])
  | FMQ_WRITE_BLOCKING_LONG =>
    simp only [operation, Bool.or_eq_true, decide_eq_true_eq, Bool.not_eq_true', or_assoc] at skips
    refine fmqWrite_skips fun translated => callBlockingLong_skips ?_ _
    exact skips.resolve_left (by simp [translated])
  | FMQ_CREATE | FMQ_READ | FMQ_AVAILABLE_WRITE | FMQ_AVAILABLE_READ | FMQ_GET_QUANTUM_SIZE
  | FMQ_GET_QUANTUM_COUNT | FMQ_IS_VALID | FMQ_GET_DESC_ADDR =>
    rw [operation] at skips
    cases skips

end

/-! ## Commands -/

section

variable {device : Device} {manager : VtsResourceManager} (free : manager.Free)

theorem ProcessFmqCommand_unknown {request : FmqRequestMessage}
    (unknown : request.data_type ∉ func_map_) :
    ProcessFmqCommand device manager request = .ok (⟨false, none, none, []⟩, manager) := by
  rw [ProcessFmqCommand, if_pos unknown]

/-- A request of a known type that comes to look for a queue that does not match leaves the mutex
locked. -/
theorem ProcessFmqCommand_locks {request : FmqRequestMessage}
    (named : ¬ (request.operation = .FMQ_CREATE ∧ request.queue_id = -1))
    (mismatch : ¬ manager.fmq_driver_.Matches request.data_type request.flavor request.queue_id)
    (known : request.data_type ∈ func_map_) (looks : request.skipsQueue device = false) :
    Ensures (ProcessFmqCommand device manager request) fun result =>
      result.2.fmq_driver_.map_mutex_ = true := by
  unfold ProcessFmqCommand
  rw [if_neg (not_not.mpr known)]
  refine .ite (fun _ => .error _) fun _ => ?_
  exact (ProcessFmqOperation_mismatch mismatch named looks).bind fun _ locked => .ok locked

include free in
theorem fmq_rejects_iff {request : FmqRequestMessage}
    (named : ¬ (request.operation = .FMQ_CREATE ∧ request.queue_id = -1))
    (mismatch : ¬ manager.fmq_driver_.Matches request.data_type request.flavor request.queue_id) :
    (∃ result, ProcessFmqCommand device manager request = .ok result ∧
      result.1.success = false ∧
      manager.hidl_handle_driver_.Kept result.2.hidl_handle_driver_ ∧
      manager.hidl_memory_driver_.Kept result.2.hidl_memory_driver_ ∧
      manager.fmq_driver_.Kept result.2.fmq_driver_) ↔
        (request.data_type ∉ func_map_ ∨
          request.room device ≤ device.stack ∧ request.skipsQueue device = true) := by
  have kept := And.intro (Driver.Kept.refl free.handles)
    (And.intro (Driver.Kept.refl free.memories) (Driver.Kept.refl free.queues))
  by_cases known : request.data_type ∈ func_map_
  · cases skips : request.skipsQueue device with
    | true =>
      obtain ⟨response, done, failed⟩ :=
        @ProcessFmqOperation_skips device manager.fmq_driver_ request skips
      unfold ProcessFmqCommand
      rw [if_neg (not_not.mpr known)]
      by_cases room : device.stack < request.room device
      · rw [if_pos room]
        refine iff_of_false (fun ⟨_, impossible, _⟩ => nomatch impossible) ?_
        rintro (unknown | ⟨fits, _⟩)
        · exact unknown known
        · omega
      · rw [if_neg room, done]
        exact iff_of_true ⟨(response, manager), rfl, failed, kept⟩ (.inr ⟨by omega, rfl⟩)
    | false =>
      refine iff_of_false ?_ (by simp [known])
      rintro ⟨result, done, _, _, _, _, _, unlocked⟩
      have locked := ProcessFmqCommand_locks named mismatch known skips result done
      exact Bool.false_ne_true (unlocked.symm.trans locked)
  · rw [ProcessFmqCommand_unknown known]
    exact iff_of_true ⟨_, rfl, rfl, kept⟩ (.inl known)

/-- What is made of a result is answered without success. -/
theorem exists_map_eq_ok {α β : Type} {result : Except Stop α} {f : α → Bool × β}
    {holds : β → Prop} :
    (∃ after, result.map f = .ok (false, after) ∧ holds after) ↔
      ∃ value, result = .ok value ∧ (f value).1 = false ∧ holds (f value).2 := by
  cases result with
  | error stop => simp [Except.map]
  | ok value =>
    constructor
    · rintro ⟨after, equal, held⟩
      have same : f value = (false, after) := Except.ok.inj equal
      exact ⟨value, rfl, congrArg Prod.fst same, same ▸ held⟩
    · rintro ⟨_, equal, failed, held⟩
      cases equal
      exact ⟨(f value).2, congrArg Except.ok (Prod.ext failed rfl), held⟩

theorem ProcessHidlHandleCommand_eq (request : HidlHandleRequestMessage) :
    ProcessHidlHandleCommand device manager request =
      (ProcessHidlHandleOperation device manager.hidl_handle_driver_ request).map fun result =>
        (result.1, { manager with hidl_handle_driver_ := result.2 }) := by
  unfold ProcessHidlHandleCommand
  cases ProcessHidlHandleOperation device manager.hidl_handle_driver_ request <;> rfl

theorem ProcessHidlMemoryCommand_eq (request : HidlMemoryRequestMessage) :
    ProcessHidlMemoryCommand device manager request =
      (ProcessHidlMemoryOperation device manager.hidl_memory_driver_ request).map fun result =>
        (result.1, { manager with hidl_memory_driver_ := result.2 }) := by
  unfold ProcessHidlMemoryCommand
  cases ProcessHidlMemoryOperation device manager.hidl_memory_driver_ request <;> rfl

include free in
/-- The address of the descriptor of a queue that does not match. -/
theorem queueAddress_rejects_iff {data_type : String} {sync : Bool} {fmq_id : Int}
    (mismatch : ¬ manager.fmq_driver_.Matches data_type
      (if sync then .kSynchronizedReadWrite else .kUnsynchronizedWrite) fmq_id) :
    manager.Rejects device (.queueAddress data_type sync fmq_id) ↔ data_type ∉ func_map_ := by
  constructor
  · rintro ⟨after, done, _, _, _, _, unlocked⟩ known
    have locked : Ensures (manager.process device (.queueAddress data_type sync fmq_id))
        fun result => result.2.fmq_driver_.map_mutex_ = true := by
      refine .map ((ProcessFmqCommand_locks ?_ ?_ ?_ ?_).bind fun _ locked => .ok locked)
      · simp
      · exact mismatch
      · exact known
      · rfl
    exact Bool.false_ne_true (unlocked.symm.trans (locked _ done))
  · intro unknown
    refine ⟨manager, ?_, .refl free.handles, .refl free.memories, .refl free.queues⟩
    unfold VtsResourceManager.process GetQueueDescAddress
    dsimp only
    rw [ProcessFmqCommand_unknown unknown]
    rfl

include free in
/-- A command for an object that is not there is rejected exactly if it is harmless. -/
theorem VtsResourceManager.rejects_iff {command : Command}
    (misdirected : command.Misdirected manager) :
    manager.Rejects device command ↔ command.Harmless device := by
  have handlesKept := Driver.Kept.refl free.handles
  have memoriesKept := Driver.Kept.refl free.memories
  have queuesKept := Driver.Kept.refl free.queues
  cases command with
  | handle request =>
    refine Iff.trans ?_
      (@handle_rejects_iff device _ request free.handles misdirected.1 misdirected.2)
    unfold VtsResourceManager.Rejects VtsResourceManager.process
    dsimp only
    rw [exists_map_eq_ok, ProcessHidlHandleCommand_eq]
    cases ProcessHidlHandleOperation device manager.hidl_handle_driver_ request with
    | error stop => simp [Except.map]
    | ok result =>
      obtain ⟨response, driver⟩ := result
      simp [Except.map, memoriesKept, queuesKept]
  | memory request =>
    refine Iff.trans ?_
      (@memory_rejects_iff device _ request free.memories misdirected.1 misdirected.2)
    unfold VtsResourceManager.Rejects VtsResourceManager.process
    dsimp only
    rw [exists_map_eq_ok, ProcessHidlMemoryCommand_eq]
    cases ProcessHidlMemoryOperation device manager.hidl_memory_driver_ request with
    | error stop => simp [Except.map]
    | ok result =>
      obtain ⟨response, driver⟩ := result
      simp [Except.map, handlesKept, queuesKept]
  | fmq request =>
    refine Iff.trans ?_ (fmq_rejects_iff free misdirected.1 misdirected.2)
    unfold VtsResourceManager.Rejects VtsResourceManager.process
    dsimp only
    rw [exists_map_eq_ok]
  | handleAddress handle_id =>
    refine iff_of_true ⟨manager, ?_, handlesKept, memoriesKept, queuesKept⟩ trivial
    unfold VtsResourceManager.process
    dsimp only
    rw [GetHidlHandleAddress, FindHandle_eq free.handles, show _ = none from misdirected]
    rfl
  | memoryAddress mem_id =>
    refine iff_of_true ⟨manager, ?_, handlesKept, memoriesKept, queuesKept⟩ trivial
    unfold VtsResourceManager.process
    dsimp only
    rw [GetHidlMemoryAddress, FindMemory_eq free.memories, show _ = none from misdirected]
    rfl
  | queueAddress data_type sync fmq_id => exact queueAddress_rejects_iff free misdirected
  | registerHandle _ | registerMemory _ | registerFmq _ _ _ => exact misdirected.elim

include free in
/-- A command for an object that is there leaves all mutexes free. -/
theorem VtsResourceManager.Free.process {command : Command}
    (directed : ¬ command.Misdirected manager) :
    Ensures (manager.process device command) fun result => result.2.Free := by
  have ofSteps : ∀ {after : VtsResourceManager}, manager.Steps after →
      manager.fmq_driver_.Steps after.fmq_driver_ → after.Free := by
    intro after steps queues
    exact ⟨steps.handles.mutex.trans free.handles, steps.memories.mutex.trans free.memories,
      queues.mutex.trans free.queues⟩
  have ofFmq : ∀ {request : FmqRequestMessage},
      (request.operation = .FMQ_CREATE ∧ request.queue_id = -1 ∨
        manager.fmq_driver_.Matches request.data_type request.flavor request.queue_id) →
      Ensures (ProcessFmqCommand device manager request) fun result => result.2.Free := by
    intro request present
    unfold ProcessFmqCommand
    refine .ite (fun _ => .ok free) fun _ => .ite (fun _ => .error _) fun _ => ?_
    exact (ProcessFmqOperation_matches present).bind fun _ steps =>
      .ok (ofSteps (.ofQueues (.inl steps)) steps)
  unfold VtsResourceManager.process
  cases command with
  | handle request =>
    exact .map ((ProcessHidlHandleOperation_steps _ request).bind fun _ steps =>
      .ok (ofSteps (.ofHandles steps) .refl))
  | memory request =>
    exact .map ((ProcessHidlMemoryOperation_steps _ request).bind fun _ steps =>
      .ok (ofSteps (.ofMemories steps) .refl))
  | fmq request =>
    refine .map (ofFmq ?_)
    by_contra neither
    exact directed (not_or.mp neither)
  | registerHandle handle =>
    refine .map (.ite (fun _ => .ok free) fun _ => ?_)
    exact (Driver.insert_steps _ _).bind fun _ steps => .ok (ofSteps (.ofHandles steps) .refl)
  | registerMemory hidl_mem_address =>
    refine .map (.ite (fun _ => .ok free) fun _ => ?_)
    exact (VtsHidlMemoryDriver.RegisterHidlMemory_steps device _ _).bind fun _ steps =>
      .ok (ofSteps (.ofMemories steps) .refl)
  | registerFmq data_type sync queue_desc_addr =>
    refine .map (.ite (fun _ => .ok free) fun _ => ?_)
    exact (ofFmq (.inl ⟨rfl, rfl⟩)).bind fun _ after => .ok after
  | handleAddress handle_id =>
    exact .map ((VtsHidlHandleDriver.FindHandle_steps _ _ _).bind fun _ steps =>
      .ok (ofSteps (.ofHandles steps) .refl))
  | memoryAddress mem_id =>
    exact .map ((VtsHidlMemoryDriver.FindMemory_steps _ _).bind fun _ steps =>
      .ok (ofSteps (.ofMemories steps) .refl))
  | queueAddress data_type sync fmq_id =>
    refine .map ((ofFmq (.inr ?_)).bind fun _ after => .ok after)
    exact not_not.mp directed

end

/-! ## Runs -/

/-- A condition on the commands of a run, each in the state in which it is processed. -/
def Throughout (condition : VtsResourceManager → Device → Command → Prop) :
    VtsResourceManager → List (Device × Command) → Prop
  | _, [] => True
  | manager, (device, command) :: commands => condition manager device command ∧
      ∀ success after, manager.process device command = .ok (success, after) →
        Throughout condition after commands

theorem VtsResourceManager.Free.throughout_iff {manager : VtsResourceManager}
    (free : manager.Free) (commands : List (Device × Command)) :
    Throughout (fun manager device command =>
        command.Misdirected manager → manager.Rejects device command) manager commands ↔
      Throughout (fun manager device command =>
        command.Misdirected manager → command.Harmless device) manager commands := by
  induction commands generalizing manager with
  | nil => exact Iff.rfl
  | cons head commands ih =>
    obtain ⟨device, command⟩ := head
    have here : (command.Misdirected manager → manager.Rejects device command) ↔
        (command.Misdirected manager → command.Harmless device) :=
      forall_congr' fun misdirected => rejects_iff free misdirected
    rw [Throughout, Throughout, ← here]
    refine and_congr_right fun rejects => forall_congr' fun success => forall_congr' fun after =>
      forall_congr' fun done => ih ?_
    by_cases misdirected : command.Misdirected manager
    · obtain ⟨kept, rejected, handles, memories, queues⟩ := rejects misdirected
      cases done.symm.trans rejected
      exact ⟨handles.free, memories.free, queues.free⟩
    · exact free.process misdirected _ done

/-- In every run, all commands for objects that are not there are rejected, with nothing changed
and all mutexes free, exactly if they are harmless. -/
theorem misdirected_rejected_iff (commands : List (Device × Command)) :
    Throughout (fun manager device command =>
        command.Misdirected manager → manager.Rejects device command) .new commands ↔
      Throughout (fun manager device command =>
        command.Misdirected manager → command.Harmless device) .new commands :=
  VtsResourceManager.Free.throughout_iff ⟨rfl, rfl, rfl⟩ commands

/-- A read of a queue that was never made leaves the mutex locked, and the request after it never
returns. -/
theorem misdirected_rejected_locked :
    ¬ Throughout (fun manager device command =>
        command.Misdirected manager → manager.Rejects device command) .new
      [(.plain, .fmq ⟨.FMQ_READ, "int32_t", true, 7, 0, false, false, [], 1, 0, 0⟩)] ∧
    VtsResourceManager.new.processAll
      [(.plain, .fmq ⟨.FMQ_READ, "int32_t", true, 7, 0, false, false, [], 1, 0, 0⟩),
        (.plain, .fmq ⟨.FMQ_CREATE, "int32_t", true, -1, 1, false, false, [], 0, 0, 0⟩)] =
      .error .blocked := by
  have done : VtsResourceManager.new.process .plain
      (.fmq ⟨.FMQ_READ, "int32_t", true, 7, 0, false, false, [], 1, 0, 0⟩) =
        .ok (false, { VtsResourceManager.new with
          fmq_driver_ := { Driver.new with map_mutex_ := true } }) := rfl
  refine ⟨fun rejected => ?_, rfl⟩
  have misdirected : Command.Misdirected .new
      (.fmq ⟨.FMQ_READ, "int32_t", true, 7, 0, false, false, [], 1, 0, 0⟩) := by
    refine ⟨by simp, ?_⟩
    rintro ⟨queue, found, _⟩
    cases found
  obtain ⟨after, answered, _, _, kept⟩ := rejected.1 misdirected
  cases done.symm.trans answered
  cases kept.free

end Vts.Resource
