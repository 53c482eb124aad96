import Mathlib.Logic.Relation
import Vts.Lib.Ensures
import Vts.Resource.Manager

/-!
# What a command can do to the drivers

All that a command does to the map of a driver is to call objects, to insert new ones and to
release handles, and every function leaves the mutex as it was. There is one exception: `FindQueue`
leaves it locked if it finds no queue. Whatever holds of the drivers over whole runs is derived
from this.
-/

namespace Vts.Resource

open Vts.Lib

section

variable {Object : Type}

/-- One change of a driver. -/
inductive Driver.Step : Driver Object → Driver Object → Prop
  | use (driver : Driver Object) (object : Object) : Step driver (driver.use object)
  | insert (driver : Driver Object) (object : Object) :
      Step driver
        { driver with
          map := driver.map.insert object
          log := driver.log ++ [.insert object]
          ids := driver.ids ++ [driver.map.newId] }
  | release (driver : Driver Object) (id : Int) :
      Step driver
        { driver with map := driver.map.release id, log := driver.log ++ [.release id] }

/-- Some changes of a driver. -/
abbrev Driver.Steps : Driver Object → Driver Object → Prop := Relation.ReflTransGen Driver.Step

theorem Driver.Steps.mutex {driver after : Driver Object} (steps : driver.Steps after) :
    after.map_mutex_ = driver.map_mutex_ := by
  induction steps with
  | refl => rfl
  | tail _ last ih =>
    rw [← ih]
    cases last <;> rfl

theorem Driver.lock_ensures (driver : Driver Object) :
    Ensures driver.lock fun locked => driver.map_mutex_ = false ∧
      locked = { driver with map_mutex_ := true } := by
  unfold Driver.lock
  split
  · exact .error _
  · rename_i free
    exact .ok ⟨by simpa using free, rfl⟩

theorem Driver.unlock_eq {driver : Driver Object} (free : driver.map_mutex_ = false) :
    { driver with map_mutex_ := true }.unlock = driver := by
  cases driver
  cases free
  rfl

theorem Driver.insert_steps (driver : Driver Object) (object : Object) :
    Ensures (driver.insert object) fun result => driver.Steps result.2 := by
  refine driver.lock_ensures.bind fun locked found => .ok ?_
  obtain ⟨free, rfl⟩ := found
  have step := Driver.Step.insert driver object
  cases driver
  cases free
  exact .single step

end

/-! ## Handles -/

namespace VtsHidlHandleDriver

variable (device : Device) (driver : Driver Handle) (handle_id : Int)

theorem FindHandle_steps (release : Bool) :
    Ensures (FindHandle driver handle_id release) fun result => driver.Steps result.2 := by
  refine driver.lock_ensures.bind fun locked found => ?_
  obtain ⟨free, rfl⟩ := found
  have unlocked := Driver.unlock_eq free
  split
  · exact .ok (unlocked.symm ▸ .refl)
  · refine .ite (fun _ => .ok ?_) fun _ => .ok (unlocked.symm ▸ .refl)
    have step := Driver.Step.release driver handle_id
    cases driver
    cases free
    exact .single step

theorem CreateFileHandle_steps (filepath : String) (flag : List OpenFlag) (mode : Nat)
    (data : List Int) : Ensures (CreateFileHandle device driver filepath flag mode data)
      fun result => driver.Steps result.2 := by
  unfold CreateFileHandle
  exact .ite (fun _ => .ok .refl) fun _ => .ite (fun _ => .ok .refl) fun _ =>
    driver.insert_steps _

theorem UnregisterHidlHandle_steps :
    Ensures (UnregisterHidlHandle driver handle_id) fun result => driver.Steps result.2 := by
  refine (FindHandle_steps driver handle_id true).bind fun found steps => ?_
  obtain ⟨handle_obj, after⟩ := found
  cases handle_obj <;> exact .ok steps

theorem ReadFile_steps (num_bytes : Nat) :
    Ensures (ReadFile device driver handle_id num_bytes) fun result => driver.Steps result.2 := by
  refine (FindHandle_steps driver handle_id false).bind fun found steps => ?_
  obtain ⟨handle_obj, after⟩ := found
  cases handle_obj with
  | none => exact .ok steps
  | some handle =>
    dsimp only
    split
    · exact .error _
    · exact .ok steps
    · exact .ok (steps.tail (.use after handle))

theorem WriteFile_steps (write_data : List UInt8) :
    Ensures (WriteFile device driver handle_id write_data) fun result =>
      driver.Steps result.2 := by
  refine (FindHandle_steps driver handle_id false).bind fun found steps => ?_
  obtain ⟨handle_obj, after⟩ := found
  cases handle_obj with
  | none => exact .ok steps
  | some handle =>
    dsimp only
    split
    · exact .error _
    · exact .ok steps
    · exact .ok (steps.tail (.use after handle))

end VtsHidlHandleDriver

/-! ## Memory -/

namespace VtsHidlMemoryDriver

variable (device : Device) (driver : Driver Memory) (mem_id : Int)

theorem FindMemory_steps :
    Ensures (FindMemory driver mem_id) fun result => driver.Steps result.2 := by
  refine driver.lock_ensures.bind fun locked found => ?_
  obtain ⟨free, rfl⟩ := found
  have unlocked := Driver.unlock_eq free
  split <;> exact .ok (unlocked.symm ▸ .refl)

theorem Allocate_steps (mem_size : Nat) :
    Ensures (Allocate device driver mem_size) fun result => driver.Steps result.2 := by
  unfold Allocate
  split
  · exact .error _
  · exact .ok .refl
  · exact driver.insert_steps _

theorem RegisterHidlMemory_steps (hidl_mem_address : Nat) :
    Ensures (RegisterHidlMemory device driver hidl_mem_address) fun result =>
      driver.Steps result.2 := by
  unfold RegisterHidlMemory
  exact .ite (fun _ => .ok .refl) fun _ => driver.insert_steps _

theorem call_steps (what : MemoryCall) :
    Ensures (call device driver mem_id what) fun result => driver.Steps result.2 := by
  refine (FindMemory_steps driver mem_id).bind fun found steps => ?_
  obtain ⟨mem_info, after⟩ := found
  cases mem_info with
  | none => exact .ok steps
  | some mem_info =>
    refine .ite (fun _ => .error _) fun _ => ?_
    split
    · exact .error _
    · exact .ok (steps.tail (.use after mem_info))

end VtsHidlMemoryDriver

/-! ## Queues -/

/-- Some changes of a driver, or the mutex is locked and nothing else is changed. -/
def Driver.StepsOrLocks {Object : Type} (driver after : Driver Object) : Prop :=
  driver.Steps after ∨ after = { driver with map_mutex_ := true }

namespace VtsFmqDriver

variable (device : Device) (driver : Driver Queue) (data_type : String) (flavor : MQFlavor)
  (queue_id : Int)

/-- A queue that is found leaves the driver as it was, and otherwise the mutex is locked. -/
theorem FindQueue_ensures :
    Ensures (FindQueue driver data_type flavor queue_id) fun result =>
      result.1 ≠ none ∧ result.2 = driver ∨
        result.1 = none ∧ result.2 = { driver with map_mutex_ := true } := by
  refine driver.lock_ensures.bind fun locked found => ?_
  obtain ⟨free, rfl⟩ := found
  have unlocked := Driver.unlock_eq free
  split
  · exact .ok (.inr ⟨rfl, rfl⟩)
  · exact .error _
  · refine .ite (fun _ => .ok (.inr ⟨rfl, rfl⟩)) fun _ =>
      .ite (fun _ => .ok (.inr ⟨rfl, rfl⟩)) fun _ => .ok (.inl ⟨by simp, unlocked⟩)

theorem InsertQueue_steps (source : QueueSource) :
    Ensures (InsertQueue device driver data_type flavor source) fun result =>
      driver.Steps result.2 := by
  unfold InsertQueue
  exact .ite (fun _ => .ok .refl) fun _ => driver.insert_steps _

theorem CreateFmqFrom_steps (reset_pointers : Bool) :
    Ensures (CreateFmqFrom device driver data_type flavor queue_id reset_pointers) fun result =>
      driver.Steps result.2 := by
  refine (FindQueue_ensures driver data_type flavor queue_id).bind fun found what => ?_
  obtain ⟨queue_object, after⟩ := found
  rcases what with ⟨present, rfl⟩ | ⟨rfl, _⟩
  · cases queue_object with
    | none => exact .error _
    | some queue =>
      dsimp only
      split
      · exact .error _
      · refine .ite (fun _ => .ok (.single (.use _ queue))) fun _ => ?_
        exact (InsertQueue_steps device _ data_type flavor _).mono fun _ steps =>
          .head (.use _ queue) steps
  · exact .error _

theorem call_steps (what : QueueCall) :
    Ensures (call device driver data_type flavor queue_id what) fun result =>
      driver.StepsOrLocks result.2 := by
  refine (FindQueue_ensures driver data_type flavor queue_id).bind fun found what => ?_
  obtain ⟨queue_object, after⟩ := found
  rcases what with ⟨present, rfl⟩ | ⟨rfl, rfl⟩
  · cases queue_object with
    | none => exact .ok (.inl .refl)
    | some queue =>
      dsimp only
      split
      · exact .error _
      · exact .ok (.inl (.single (.use _ queue)))
  · exact .ok (.inr rfl)

end VtsFmqDriver

/-! ## Commands -/

/-- What a command can do to the drivers. -/
structure VtsResourceManager.Steps (manager after : VtsResourceManager) : Prop where
  handles : manager.hidl_handle_driver_.Steps after.hidl_handle_driver_
  memories : manager.hidl_memory_driver_.Steps after.hidl_memory_driver_
  queues : manager.fmq_driver_.StepsOrLocks after.fmq_driver_

section

variable {device : Device} {manager : VtsResourceManager}

theorem VtsResourceManager.Steps.refl (manager : VtsResourceManager) : manager.Steps manager :=
  ⟨.refl, .refl, .inl .refl⟩

theorem VtsResourceManager.Steps.ofHandles {driver : Driver Handle}
    (steps : manager.hidl_handle_driver_.Steps driver) :
    manager.Steps { manager with hidl_handle_driver_ := driver } :=
  ⟨steps, .refl, .inl .refl⟩

theorem VtsResourceManager.Steps.ofMemories {driver : Driver Memory}
    (steps : manager.hidl_memory_driver_.Steps driver) :
    manager.Steps { manager with hidl_memory_driver_ := driver } :=
  ⟨.refl, steps, .inl .refl⟩

theorem VtsResourceManager.Steps.ofQueues {driver : Driver Queue}
    (steps : manager.fmq_driver_.StepsOrLocks driver) :
    manager.Steps { manager with fmq_driver_ := driver } :=
  ⟨.refl, .refl, steps⟩

section

variable (driver : Driver Handle) (request : HidlHandleRequestMessage)

theorem createFile_steps :
    Ensures (createFile device driver request) fun result => driver.Steps result.2 := by
  unfold createFile
  split
  · exact .ok .refl
  · refine .ite (fun _ => .ok .refl) fun _ => ?_
    split
    · exact .ok .refl
    · refine .ite (fun _ => .error _) fun _ => ?_
      exact (VtsHidlHandleDriver.CreateFileHandle_steps device driver _ _ _ _).bind
        fun _ steps => .ok steps

theorem readFile_steps :
    Ensures (readFile device driver request) fun result => driver.Steps result.2 := by
  unfold readFile
  refine .ite (fun _ => .error _) fun _ => ?_
  refine (VtsHidlHandleDriver.ReadFile_steps device driver _ _).bind fun _ steps => ?_
  exact .ite (fun _ => .error _) fun _ => .ok steps

theorem ProcessHidlHandleOperation_steps :
    Ensures (ProcessHidlHandleOperation device driver request) fun result =>
      driver.Steps result.2 := by
  unfold ProcessHidlHandleOperation
  split
  · exact createFile_steps _ request
  · exact readFile_steps _ request
  · exact (VtsHidlHandleDriver.WriteFile_steps device _ _ _).bind fun _ steps => .ok steps
  · exact (VtsHidlHandleDriver.UnregisterHidlHandle_steps _ _).bind fun _ steps => .ok steps
  · exact .ok .refl

end

theorem memoryDone_steps {driver : Driver Memory}
    {result : Except Stop (Option MemoryAnswer × Driver Memory)}
    (steps : Ensures result fun result => driver.Steps result.2) :
    Ensures (memoryDone result) fun result => driver.Steps result.2 :=
  steps.bind fun _ done => .ok done

theorem ProcessHidlMemoryOperation_steps (driver : Driver Memory)
    (request : HidlMemoryRequestMessage) :
    Ensures (ProcessHidlMemoryOperation device driver request) fun result =>
      driver.Steps result.2 := by
  have called := fun what => VtsHidlMemoryDriver.call_steps device driver request.mem_id what
  unfold ProcessHidlMemoryOperation
  dsimp only
  split
  · exact (VtsHidlMemoryDriver.Allocate_steps device _ _).bind fun _ steps => .ok steps
  · exact memoryDone_steps (called _)
  · exact memoryDone_steps (called _)
  · exact memoryDone_steps (called _)
  · exact memoryDone_steps (called _)
  · exact memoryDone_steps (called _)
  · exact .ite (fun _ => .error _) fun _ => (called _).bind fun _ steps => .ok steps
  · exact memoryDone_steps (called _)
  · exact (called _).bind fun _ steps => .ok steps
  · exact .ok .refl

/-- A request for a queue is answered without looking for the queue. -/
def FmqRequestMessage.skipsQueue (request : FmqRequestMessage) (device : Device) : Bool :=
  match request.operation with
  | .FMQ_UNKNOWN => true
  | .FMQ_READ_BLOCKING => request.flavor = .kUnsynchronizedWrite
  | .FMQ_READ_BLOCKING_LONG =>
    request.flavor = .kUnsynchronizedWrite || !device.createEventFlag
  | .FMQ_WRITE => !FmqProto2Cpp device request.data_type
  | .FMQ_WRITE_BLOCKING =>
    !FmqProto2Cpp device request.data_type || request.flavor = .kUnsynchronizedWrite
  | .FMQ_WRITE_BLOCKING_LONG =>
    !FmqProto2Cpp device request.data_type || request.flavor = .kUnsynchronizedWrite ||
      !device.createEventFlag
  | _ => false

section

variable {driver : Driver Queue} {request : FmqRequestMessage} {post : Driver Queue → Prop}
  {result : Except Stop (Option QueueAnswer × Driver Queue)}

theorem fmqRead_ensures (ensured : Ensures result fun result => post result.2) :
    Ensures (fmqRead device request result) fun result => post result.2 :=
  ensured.bind fun _ done => .ok done

theorem fmqWrite_ensures (untranslated : FmqProto2Cpp device request.data_type = false → post driver)
    (ensured : FmqProto2Cpp device request.data_type = true →
      Ensures result fun result => post result.2) :
    Ensures (fmqWrite device driver request result) fun result => post result.2 := by
  refine .ite (fun fails => .ok (untranslated (by simpa using fails))) fun works => ?_
  exact (ensured (by simpa using works)).bind fun _ done => .ok done

theorem fmqValue_ensures (ensured : Ensures result fun result => post result.2) :
    Ensures (fmqValue device result) fun result => post result.2 :=
  ensured.bind fun _ done => .ok done

variable (called : ∀ what, Ensures (VtsFmqDriver.call device driver request.data_type
  request.flavor request.queue_id what) fun result => post result.2)

include called in
theorem callBlocking_ensures (skipped : request.flavor = .kUnsynchronizedWrite → post driver)
    (what : QueueCall) : Ensures (VtsFmqDriver.callBlocking device driver request.data_type
      request.flavor request.queue_id what) fun result => post result.2 := by
  refine .ite (fun unsync => .ok (skipped unsync)) fun sync => ?_
  have flavor : request.flavor = .kSynchronizedReadWrite := by
    cases same : request.flavor with
    | kSynchronizedReadWrite => rfl
    | kUnsynchronizedWrite => exact absurd same sync
  rw [← flavor]
  exact called what

include called in
theorem callBlockingLong_ensures
    (skipped : request.flavor = .kUnsynchronizedWrite ∨ device.createEventFlag = false →
      post driver) (what : QueueCall) :
    Ensures (VtsFmqDriver.callBlockingLong device driver request.data_type request.flavor
      request.queue_id what) fun result => post result.2 := by
  refine .ite (fun unsync => .ok (skipped (.inl unsync))) fun sync => ?_
  refine .ite (fun fails => .ok (skipped (.inr (by simpa using fails)))) fun _ => ?_
  have flavor : request.flavor = .kSynchronizedReadWrite := by
    cases same : request.flavor with
    | kSynchronizedReadWrite => rfl
    | kUnsynchronizedWrite => exact absurd same sync
  rw [← flavor]
  exact called what

include called in
/-- What holds of the driver after every way an operation may go holds after the operation. -/
theorem ProcessFmqOperation_ensures (skipped : request.skipsQueue device = true → post driver)
    (made : request.operation = .FMQ_CREATE →
      Ensures (newQueue device driver request) fun result => post result.2) :
    Ensures (ProcessFmqOperation device driver request) fun result => post result.2 := by
  unfold FmqRequestMessage.skipsQueue at skipped
  unfold ProcessFmqOperation
  dsimp only
  cases operation : request.operation with
  | FMQ_CREATE => exact (made operation).bind fun _ done => .ok done
  | FMQ_UNKNOWN => exact .ok (skipped (by rw [operation]))
  | FMQ_READ => exact fmqRead_ensures (called _)
  | FMQ_READ_BLOCKING =>
    refine fmqRead_ensures (callBlocking_ensures called (fun unsync => skipped ?_) _)
    simp [operation, unsync]
  | FMQ_READ_BLOCKING_LONG =>
    refine fmqRead_ensures (callBlockingLong_ensures called (fun fails => skipped ?_) _)
    simpa [operation] using fails
  | FMQ_WRITE =>
    refine fmqWrite_ensures (fun fails => skipped ?_) fun _ => called _
    simp [operation, fails]
  | FMQ_WRITE_BLOCKING =>
    refine fmqWrite_ensures (fun fails => skipped ?_) fun _ =>
      callBlocking_ensures called (fun unsync => skipped ?_) _
    · simp [operation, fails]
    · simp [operation, unsync]
  | FMQ_WRITE_BLOCKING_LONG =>
    refine fmqWrite_ensures (fun fails => skipped ?_) fun _ =>
      callBlockingLong_ensures called (fun fails => skipped ?_) _
    · simp [operation, fails]
    · rcases fails with unsync | fails
      · simp [operation, unsync]
      · simp [operation, fails]
  | FMQ_IS_VALID => exact (called _).bind fun _ done => .ok done
  | FMQ_AVAILABLE_WRITE | FMQ_AVAILABLE_READ | FMQ_GET_QUANTUM_SIZE | FMQ_GET_QUANTUM_COUNT
  | FMQ_GET_DESC_ADDR => exact fmqValue_ensures (called _)

end

section

variable (driver : Driver Queue) (request : FmqRequestMessage)

theorem newQueue_steps :
    Ensures (newQueue device driver request) fun result => driver.Steps result.2 := by
  unfold newQueue
  refine .ite (fun _ => .ite (fun _ => ?_) fun _ => ?_) fun _ => ?_
  · exact VtsFmqDriver.InsertQueue_steps device driver _ _ _
  · exact VtsFmqDriver.InsertQueue_steps device driver _ _ _
  · exact VtsFmqDriver.CreateFmqFrom_steps device driver _ _ _ _

theorem ProcessFmqOperation_steps :
    Ensures (ProcessFmqOperation device driver request) fun result =>
      driver.StepsOrLocks result.2 :=
  ProcessFmqOperation_ensures (VtsFmqDriver.call_steps device driver _ _ _)
    (fun _ => .inl .refl) fun _ => (newQueue_steps driver request).mono fun _ => .inl

theorem ProcessFmqCommand_steps :
    Ensures (ProcessFmqCommand device manager request) fun result => manager.Steps result.2 := by
  unfold ProcessFmqCommand
  refine .ite (fun _ => .ok (.refl manager)) fun _ => .ite (fun _ => .error _) fun _ => ?_
  exact (ProcessFmqOperation_steps manager.fmq_driver_ request).bind fun _ steps =>
    .ok (.ofQueues steps)

end

/-- Every command, if it returns. -/
theorem VtsResourceManager.process_steps (command : Command) :
    Ensures (manager.process device command) fun result => manager.Steps result.2 := by
  unfold VtsResourceManager.process
  split
  · exact .map ((ProcessHidlHandleOperation_steps _ _).bind fun _ steps => .ok (.ofHandles steps))
  · exact .map ((ProcessHidlMemoryOperation_steps _ _).bind fun _ steps => .ok (.ofMemories steps))
  · exact .map (ProcessFmqCommand_steps _)
  · refine .map (.ite (fun _ => .ok (.refl manager)) fun _ => ?_)
    exact (Driver.insert_steps _ _).bind fun _ steps => .ok (.ofHandles steps)
  · refine .map (.ite (fun _ => .ok (.refl manager)) fun _ => ?_)
    exact (VtsHidlMemoryDriver.RegisterHidlMemory_steps device _ _).bind fun _ steps =>
      .ok (.ofMemories steps)
  · refine .map (.ite (fun _ => .ok (.refl manager)) fun _ => ?_)
    exact (ProcessFmqCommand_steps _).bind fun _ steps => .ok steps
  · refine .map ((VtsHidlHandleDriver.FindHandle_steps _ _ _).bind fun _ steps => ?_)
    exact .ok (.ofHandles steps)
  · refine .map ((VtsHidlMemoryDriver.FindMemory_steps _ _).bind fun _ steps => ?_)
    exact .ok (.ofMemories steps)
  · exact .map ((ProcessFmqCommand_steps _).bind fun _ steps => .ok steps)

end

end Vts.Resource
