import Vts.Resource.Drivers

/-!
# The resource manager

`VtsResourceManager` of `drivers/resource/resource_manager`: requests of the host for handles,
memory and message queues, the registration of objects that a HAL driver has made, and the
questions for their addresses. A field of a response is set only by the operations that set it.

The arrays for the data of a request are on the stack, so a request whose arrays have no room there
ends the process. So does a string that is made of -1 bytes.
-/

namespace Vts.Resource

open Vts.Lib

structure VtsResourceManager where
  hidl_handle_driver_ : Driver Handle
  hidl_memory_driver_ : Driver Memory
  fmq_driver_ : Driver Queue

def VtsResourceManager.new : VtsResourceManager := ⟨.new, .new, .new⟩

/-! ## Handles -/

inductive HidlHandleOp where
  | HANDLE_PROTO_UNKNOWN
  | HANDLE_PROTO_CREATE_FILE
  | HANDLE_PROTO_READ_FILE
  | HANDLE_PROTO_WRITE_FILE
  | HANDLE_PROTO_DELETE
deriving DecidableEq

/-- An `FdMessage`, and whether its type is `FILE_TYPE`. -/
structure FdMessage where
  isFile : Bool
  file_name : String
  file_mode_str : String

structure HidlHandleRequestMessage where
  operation : HidlHandleOp
  handle_id : Int
  fd_val : List FdMessage
  int_val : List Int
  read_data_size : Nat
  write_data : List UInt8

structure HidlHandleResponseMessage where
  success : Bool
  new_handle_id : Option Int
  read_data : Option (List UInt8)
  write_data_size : Option Int

def S_IRWXU : Nat := 0o700

/-- The flags and the mode for `open`, by the mode that the host gives. -/
def openFlags (device : Device) (filepath file_mode_str : String) :
    Option (List OpenFlag × Nat) :=
  if file_mode_str = "r" ∨ file_mode_str = "rb" then some ([.O_RDONLY], 0)
  else if file_mode_str = "w" ∨ file_mode_str = "wb" then
    some ([.O_WRONLY, .O_CREAT, .O_TRUNC], S_IRWXU)
  else if file_mode_str = "a" ∨ file_mode_str = "ab" then
    some ([.O_WRONLY, .O_CREAT, .O_APPEND], S_IRWXU)
  else if file_mode_str = "r+" ∨ file_mode_str = "rb+" ∨ file_mode_str = "r+b" then
    some ([.O_RDWR], 0)
  else if file_mode_str = "w+" ∨ file_mode_str = "wb+" ∨ file_mode_str = "w+b" then
    some ([.O_RDWR, .O_CREAT, .O_TRUNC], S_IRWXU)
  else if file_mode_str = "a+" ∨ file_mode_str = "ab+" ∨ file_mode_str = "a+b" then
    some ([.O_RDWR, .O_CREAT, .O_APPEND], S_IRWXU)
  else if file_mode_str = "x" ∨ file_mode_str = "x+" then
    if device.stat filepath = 0 then none
    else if file_mode_str = "x+" then some ([.O_CREAT, .O_RDWR], S_IRWXU)
    else some ([.O_CREAT, .O_WRONLY], S_IRWXU)
  else none

/-- The operation `HANDLE_PROTO_CREATE_FILE`. The vector for the numbers of the handle has the
length of `write_data`. -/
def createFile (device : Device) (driver : Driver Handle)
    (request : HidlHandleRequestMessage) :
    Except Stop (HidlHandleResponseMessage × Driver Handle) :=
  match request.fd_val with
  | [] => .ok (⟨false, none, none, none⟩, driver)
  | file_desc_info :: _ =>
    if !file_desc_info.isFile then .ok (⟨false, none, none, none⟩, driver)
    else
      match openFlags device file_desc_info.file_name file_desc_info.file_mode_str with
      | none => .ok (⟨false, none, none, none⟩, driver)
      | some (flag, mode) => do
        if request.write_data.length < request.int_val.length then .error .crashed
        else
          let int_data := request.int_val ++
            List.replicate (request.write_data.length - request.int_val.length) 0
          let (new_handle_id, driver) ← VtsHidlHandleDriver.CreateFileHandle device driver
            file_desc_info.file_name flag mode int_data
          .ok (⟨new_handle_id ≠ -1, some new_handle_id, none, none⟩, driver)

/-- The operation `HANDLE_PROTO_READ_FILE`. -/
def readFile (device : Device) (driver : Driver Handle) (request : HidlHandleRequestMessage) :
    Except Stop (HidlHandleResponseMessage × Driver Handle) := do
  if device.stack < request.read_data_size then .error .crashed
  else
    let ((read_success_bytes, read_data), driver) ←
      VtsHidlHandleDriver.ReadFile device driver request.handle_id request.read_data_size
    if read_success_bytes < 0 then .error .crashed
    else
      let read_data :=
        (read_data ++ device.unassigned request.read_data_size).take read_success_bytes.toNat
      .ok (⟨read_success_bytes ≠ -1, none, some read_data, none⟩, driver)

/-- The operations on handles. -/
def ProcessHidlHandleOperation (device : Device) (driver : Driver Handle)
    (request : HidlHandleRequestMessage) :
    Except Stop (HidlHandleResponseMessage × Driver Handle) :=
  match request.operation with
  | .HANDLE_PROTO_CREATE_FILE => createFile device driver request
  | .HANDLE_PROTO_READ_FILE => readFile device driver request
  | .HANDLE_PROTO_WRITE_FILE => do
    let (write_success_bytes, driver) ←
      VtsHidlHandleDriver.WriteFile device driver request.handle_id request.write_data
    .ok (⟨write_success_bytes ≠ -1, none, none, some write_success_bytes⟩, driver)
  | .HANDLE_PROTO_DELETE => do
    let (success, driver) ← VtsHidlHandleDriver.UnregisterHidlHandle driver request.handle_id
    .ok (⟨success, none, none, none⟩, driver)
  | .HANDLE_PROTO_UNKNOWN => .ok (⟨false, none, none, none⟩, driver)

def ProcessHidlHandleCommand (device : Device) (manager : VtsResourceManager)
    (request : HidlHandleRequestMessage) :
    Except Stop (HidlHandleResponseMessage × VtsResourceManager) := do
  let (response, driver) ← ProcessHidlHandleOperation device manager.hidl_handle_driver_ request
  .ok (response, { manager with hidl_handle_driver_ := driver })

/-- `RegisterHidlHandle`, for the handle at an address. -/
def RegisterHidlHandle (manager : VtsResourceManager) (handle : Handle) :
    Except Stop (Int × VtsResourceManager) := do
  if handle.address = 0 then .ok (-1, manager)
  else
    let (id, driver) ←
      VtsHidlHandleDriver.RegisterHidlHandle manager.hidl_handle_driver_ handle
    .ok (id, { manager with hidl_handle_driver_ := driver })

/-- The address of a handle, or none. -/
def GetHidlHandleAddress (manager : VtsResourceManager) (handle_id : Int) :
    Except Stop (Option Nat × VtsResourceManager) := do
  let (handle, driver) ←
    VtsHidlHandleDriver.FindHandle manager.hidl_handle_driver_ handle_id false
  .ok (handle.map (·.address), { manager with hidl_handle_driver_ := driver })

/-! ## Memory -/

inductive HidlMemoryOp where
  | MEM_PROTO_UNKNOWN
  | MEM_PROTO_ALLOCATE
  | MEM_PROTO_START_READ
  | MEM_PROTO_START_READ_RANGE
  | MEM_PROTO_READ_BYTES
  | MEM_PROTO_START_UPDATE
  | MEM_PROTO_START_UPDATE_RANGE
  | MEM_PROTO_UPDATE_BYTES
  | MEM_PROTO_COMMIT
  | MEM_PROTO_GET_SIZE
deriving DecidableEq

structure HidlMemoryRequestMessage where
  operation : HidlMemoryOp
  mem_id : Int
  mem_size : Nat
  start : Nat
  length : Nat
  write_data : List UInt8

structure HidlMemoryResponseMessage where
  success : Bool
  new_mem_id : Option Int
  mem_size : Option Nat
  read_data : Option (List UInt8)

/-- The response to an operation that only succeeds or fails. -/
def memoryDone (result : Except Stop (Option MemoryAnswer × Driver Memory)) :
    Except Stop (HidlMemoryResponseMessage × Driver Memory) := do
  let (answer, driver) ← result
  .ok (⟨answer.isSome, none, none, none⟩, driver)

/-- The operations on memory. -/
def ProcessHidlMemoryOperation (device : Device) (driver : Driver Memory)
    (request : HidlMemoryRequestMessage) :
    Except Stop (HidlMemoryResponseMessage × Driver Memory) :=
  let mem_id := request.mem_id
  match request.operation with
  | .MEM_PROTO_ALLOCATE => do
    let (new_mem_id, driver) ← VtsHidlMemoryDriver.Allocate device driver request.mem_size
    .ok (⟨new_mem_id ≠ -1, some new_mem_id, none, none⟩, driver)
  | .MEM_PROTO_START_READ => memoryDone (VtsHidlMemoryDriver.Read device driver mem_id)
  | .MEM_PROTO_START_READ_RANGE =>
    memoryDone (VtsHidlMemoryDriver.ReadRange device driver mem_id request.start request.length)
  | .MEM_PROTO_START_UPDATE => memoryDone (VtsHidlMemoryDriver.Update device driver mem_id)
  | .MEM_PROTO_START_UPDATE_RANGE =>
    memoryDone (VtsHidlMemoryDriver.UpdateRange device driver mem_id request.start request.length)
  | .MEM_PROTO_UPDATE_BYTES =>
    memoryDone (VtsHidlMemoryDriver.UpdateBytes device driver mem_id request.write_data
      request.length request.start)
  | .MEM_PROTO_READ_BYTES => do
    if device.stack < request.length then .error .crashed
    else
      let (answer, driver) ←
        VtsHidlMemoryDriver.ReadBytes device driver mem_id request.length request.start
      let read_data :=
        match answer with
        | some answer => answer.read_data
        | none => device.unassigned request.length
      .ok (⟨answer.isSome, none, none, some read_data⟩, driver)
  | .MEM_PROTO_COMMIT => memoryDone (VtsHidlMemoryDriver.Commit device driver mem_id)
  | .MEM_PROTO_GET_SIZE => do
    let (answer, driver) ← VtsHidlMemoryDriver.GetSize device driver mem_id
    let result_mem_size :=
      match answer with
      | some answer => answer.size
      | none => device.unassignedSize
    .ok (⟨answer.isSome, none, some result_mem_size, none⟩, driver)
  | .MEM_PROTO_UNKNOWN => .ok (⟨false, none, none, none⟩, driver)

def ProcessHidlMemoryCommand (device : Device) (manager : VtsResourceManager)
    (request : HidlMemoryRequestMessage) :
    Except Stop (HidlMemoryResponseMessage × VtsResourceManager) := do
  let (response, driver) ← ProcessHidlMemoryOperation device manager.hidl_memory_driver_ request
  .ok (response, { manager with hidl_memory_driver_ := driver })

def RegisterHidlMemory (device : Device) (manager : VtsResourceManager)
    (hidl_mem_address : Nat) : Except Stop (Int × VtsResourceManager) := do
  if hidl_mem_address = 0 then .ok (-1, manager)
  else
    let (id, driver) ←
      VtsHidlMemoryDriver.RegisterHidlMemory device manager.hidl_memory_driver_ hidl_mem_address
    .ok (id, { manager with hidl_memory_driver_ := driver })

def GetHidlMemoryAddress (manager : VtsResourceManager) (mem_id : Int) :
    Except Stop (Option Nat × VtsResourceManager) := do
  let (mem_info, driver) ← VtsHidlMemoryDriver.FindMemory manager.hidl_memory_driver_ mem_id
  .ok (mem_info.map (·.address), { manager with hidl_memory_driver_ := driver })

/-! ## Message queues -/

inductive FmqOp where
  | FMQ_UNKNOWN
  | FMQ_CREATE
  | FMQ_READ
  | FMQ_READ_BLOCKING
  | FMQ_READ_BLOCKING_LONG
  | FMQ_WRITE
  | FMQ_WRITE_BLOCKING
  | FMQ_WRITE_BLOCKING_LONG
  | FMQ_AVAILABLE_WRITE
  | FMQ_AVAILABLE_READ
  | FMQ_GET_QUANTUM_SIZE
  | FMQ_GET_QUANTUM_COUNT
  | FMQ_IS_VALID
  | FMQ_GET_DESC_ADDR
deriving DecidableEq

/-- The items of `write_data` are their bit patterns. -/
structure FmqRequestMessage where
  operation : FmqOp
  data_type : String
  sync : Bool
  queue_id : Int
  queue_size : Nat
  blocking : Bool
  reset_pointers : Bool
  write_data : List Nat
  read_data_size : Nat
  time_out_nanos : Int
  queue_desc_addr : Nat

structure FmqResponseMessage where
  success : Bool
  queue_id : Option Int
  sizet_return_val : Option Nat
  read_data : List Nat

/-- The scalar types of message queues. -/
def scalarTypes : List String :=
  ["int8_t", "uint8_t", "int16_t", "uint16_t", "int32_t", "uint32_t", "int64_t", "uint64_t",
    "float_t", "double_t", "bool_t"]

/-- The keys of `func_map_`. -/
def func_map_ : List String :=
  scalarTypes ++
    ["::android::hardware::audio::V4_0::IStreamIn::ReadParameters",
      "::android::hardware::audio::V4_0::IStreamIn::ReadStatus",
      "::android::hardware::audio::V4_0::IStreamOut::WriteCommand",
      "::android::hardware::audio::effect::V4_0::Result",
      "::android::hardware::audio::effect::V2_0::Result"]

/-- The flavor of a request. -/
def FmqRequestMessage.flavor (request : FmqRequestMessage) : MQFlavor :=
  if request.sync then .kSynchronizedReadWrite else .kUnsynchronizedWrite

/-- Whether the items of a request can be translated: those of predefined types need a function of
a shared library. -/
def FmqProto2Cpp (device : Device) (data_type : String) : Bool :=
  data_type ∈ scalarTypes || device.messageTo data_type

def FmqCpp2Proto (device : Device) (data_type : String) : Bool :=
  data_type ∈ scalarTypes || device.setResult data_type

/-- The response to a read. -/
def fmqRead (device : Device) (request : FmqRequestMessage)
    (result : Except Stop (Option QueueAnswer × Driver Queue)) :
    Except Stop (FmqResponseMessage × Driver Queue) := do
  let (answer, driver) ← result
  let read_data :=
    match answer with
    | some answer => answer.data
    | none => device.unassignedItems request.read_data_size
  .ok (⟨(answer.map (·.success)).getD false, none, none,
    if FmqCpp2Proto device request.data_type then read_data else []⟩, driver)

/-- The response to a write, unless the data cannot be translated. -/
def fmqWrite (device : Device) (driver : Driver Queue) (request : FmqRequestMessage)
    (result : Except Stop (Option QueueAnswer × Driver Queue)) :
    Except Stop (FmqResponseMessage × Driver Queue) := do
  if !FmqProto2Cpp device request.data_type then .ok (⟨false, none, none, []⟩, driver)
  else
    let (answer, driver) ← result
    .ok (⟨(answer.map (·.success)).getD false, none, none, []⟩, driver)

/-- The response to a question for a number. -/
def fmqValue (device : Device) (result : Except Stop (Option QueueAnswer × Driver Queue)) :
    Except Stop (FmqResponseMessage × Driver Queue) := do
  let (answer, driver) ← result
  let sizet_result :=
    match answer with
    | some answer => answer.value
    | none => device.unassignedSize
  .ok (⟨answer.isSome, none, some sizet_result, []⟩, driver)

/-- The three ways to make a queue. -/
def newQueue (device : Device) (driver : Driver Queue) (request : FmqRequestMessage) :
    Except Stop (Int × Driver Queue) :=
  if request.queue_id = -1 then
    if request.queue_desc_addr = 0 then
      VtsFmqDriver.CreateFmq device driver request.data_type request.flavor request.queue_size
        request.blocking
    else
      VtsFmqDriver.CreateFmqAt device driver request.data_type request.flavor
        request.queue_desc_addr
  else
    VtsFmqDriver.CreateFmqFrom device driver request.data_type request.flavor request.queue_id
      request.reset_pointers

/-- The operation `FMQ_CREATE`. -/
def fmqCreate (device : Device) (driver : Driver Queue) (request : FmqRequestMessage) :
    Except Stop (FmqResponseMessage × Driver Queue) := do
  let (new_queue_id, driver) ← newQueue device driver request
  .ok (⟨new_queue_id ≠ -1, some new_queue_id, none, []⟩, driver)

/-- The operations on queues. -/
def ProcessFmqOperation (device : Device) (driver : Driver Queue) (request : FmqRequestMessage) :
    Except Stop (FmqResponseMessage × Driver Queue) :=
  let data_type := request.data_type
  let flavor := request.flavor
  let queue_id := request.queue_id
  match request.operation with
  | .FMQ_CREATE => fmqCreate device driver request
  | .FMQ_READ =>
    fmqRead device request
      (VtsFmqDriver.ReadFmq device driver data_type flavor queue_id request.read_data_size)
  | .FMQ_READ_BLOCKING =>
    fmqRead device request (VtsFmqDriver.ReadFmqBlocking device driver data_type flavor queue_id
      request.read_data_size request.time_out_nanos)
  | .FMQ_READ_BLOCKING_LONG =>
    fmqRead device request (VtsFmqDriver.ReadFmqBlockingLong device driver data_type flavor
      queue_id request.read_data_size request.time_out_nanos)
  | .FMQ_WRITE =>
    fmqWrite device driver request
      (VtsFmqDriver.WriteFmq device driver data_type flavor queue_id request.write_data)
  | .FMQ_WRITE_BLOCKING =>
    fmqWrite device driver request (VtsFmqDriver.WriteFmqBlocking device driver data_type flavor
      queue_id request.write_data request.time_out_nanos)
  | .FMQ_WRITE_BLOCKING_LONG =>
    fmqWrite device driver request (VtsFmqDriver.WriteFmqBlockingLong device driver data_type
      flavor queue_id request.write_data request.time_out_nanos)
  | .FMQ_AVAILABLE_WRITE =>
    fmqValue device (VtsFmqDriver.AvailableToWrite device driver data_type flavor queue_id)
  | .FMQ_AVAILABLE_READ =>
    fmqValue device (VtsFmqDriver.AvailableToRead device driver data_type flavor queue_id)
  | .FMQ_GET_QUANTUM_SIZE =>
    fmqValue device (VtsFmqDriver.GetQuantumSize device driver data_type flavor queue_id)
  | .FMQ_GET_QUANTUM_COUNT =>
    fmqValue device (VtsFmqDriver.GetQuantumCount device driver data_type flavor queue_id)
  | .FMQ_IS_VALID => do
    let (answer, driver) ← VtsFmqDriver.IsValid device driver data_type flavor queue_id
    .ok (⟨(answer.map (·.success)).getD false, none, none, []⟩, driver)
  | .FMQ_GET_DESC_ADDR =>
    fmqValue device (VtsFmqDriver.GetQueueDescAddress device driver data_type flavor queue_id)
  | .FMQ_UNKNOWN => .ok (⟨false, none, none, []⟩, driver)

/-- The room that the arrays for the items of a request take. -/
def FmqRequestMessage.room (request : FmqRequestMessage) (device : Device) : Nat :=
  device.sizeof request.data_type * (request.write_data.length + request.read_data_size)

def ProcessFmqCommand (device : Device) (manager : VtsResourceManager)
    (request : FmqRequestMessage) : Except Stop (FmqResponseMessage × VtsResourceManager) := do
  if request.data_type ∉ func_map_ then .ok (⟨false, none, none, []⟩, manager)
  else if device.stack < request.room device then .error .crashed
  else
    let (response, driver) ← ProcessFmqOperation device manager.fmq_driver_ request
    .ok (response, { manager with fmq_driver_ := driver })

/-- `RegisterFmq` for a queue descriptor. An id that is not set reads as 0. -/
def RegisterFmq (device : Device) (manager : VtsResourceManager) (data_type : String)
    (sync : Bool) (queue_desc_addr : Nat) : Except Stop (Int × VtsResourceManager) := do
  if queue_desc_addr = 0 then .ok (-1, manager)
  else
    let (fmq_response, manager) ← ProcessFmqCommand device manager
      ⟨.FMQ_CREATE, data_type, sync, -1, 0, false, false, [], 0, 0, queue_desc_addr⟩
    .ok (fmq_response.queue_id.getD 0, manager)

/-- The address of the descriptor of a queue, or none. -/
def GetQueueDescAddress (device : Device) (manager : VtsResourceManager) (data_type : String)
    (sync : Bool) (fmq_id : Int) : Except Stop (Option Nat × VtsResourceManager) := do
  let (fmq_response, manager) ← ProcessFmqCommand device manager
    ⟨.FMQ_GET_DESC_ADDR, data_type, sync, fmq_id, 0, false, false, [], 0, 0, 0⟩
  .ok (if fmq_response.success then fmq_response.sizet_return_val else none, manager)

/-! ## Commands -/

/-- What the driver process is asked for. -/
inductive Command where
  | handle (request : HidlHandleRequestMessage)
  | memory (request : HidlMemoryRequestMessage)
  | fmq (request : FmqRequestMessage)
  | registerHandle (handle : Handle)
  | registerMemory (hidl_mem_address : Nat)
  | registerFmq (data_type : String) (sync : Bool) (queue_desc_addr : Nat)
  | handleAddress (handle_id : Int)
  | memoryAddress (mem_id : Int)
  | queueAddress (data_type : String) (sync : Bool) (fmq_id : Int)

/-- Whether a command was answered with success, and the manager after it. -/
def VtsResourceManager.process (device : Device) (manager : VtsResourceManager) :
    Command → Except Stop (Bool × VtsResourceManager)
  | .handle request =>
    (ProcessHidlHandleCommand device manager request).map fun result =>
      (result.1.success, result.2)
  | .memory request =>
    (ProcessHidlMemoryCommand device manager request).map fun result =>
      (result.1.success, result.2)
  | .fmq request =>
    (ProcessFmqCommand device manager request).map fun result => (result.1.success, result.2)
  | .registerHandle handle =>
    (RegisterHidlHandle manager handle).map fun result => (result.1 ≠ -1, result.2)
  | .registerMemory hidl_mem_address =>
    (RegisterHidlMemory device manager hidl_mem_address).map fun result =>
      (result.1 ≠ -1, result.2)
  | .registerFmq data_type sync queue_desc_addr =>
    (RegisterFmq device manager data_type sync queue_desc_addr).map fun result =>
      (result.1 ≠ -1, result.2)
  | .handleAddress handle_id =>
    (GetHidlHandleAddress manager handle_id).map fun result => (result.1.isSome, result.2)
  | .memoryAddress mem_id =>
    (GetHidlMemoryAddress manager mem_id).map fun result => (result.1.isSome, result.2)
  | .queueAddress data_type sync fmq_id =>
    (GetQueueDescAddress device manager data_type sync fmq_id).map fun result =>
      (result.1.isSome, result.2)

/-- The manager after some commands, each with the answers of the device while it is processed. A
command that does not return ends the run. -/
def VtsResourceManager.processAll (manager : VtsResourceManager) :
    List (Device × Command) → Except Stop VtsResourceManager
  | [] => .ok manager
  | (device, command) :: commands =>
    match manager.process device command with
    | .error stop => .error stop
    | .ok (_, manager) => manager.processAll commands

/-- A device on which everything works. -/
def Device.plain : Device where
  stack := 8 * 1024 * 1024
  unassigned := fun count => List.replicate count 0
  unassignedItems := fun count => List.replicate count 0
  unassignedSize := 0
  address := 4096
  stat := fun _ => -1
  openFile := fun _ _ _ => 3
  native_handle_create := fun _ _ => true
  readFile := fun _ num_bytes => (num_bytes, List.replicate num_bytes 65)
  writeFile := fun _ write_data => write_data.length
  allocate := fun _ => .success true
  mapMemory := fun _ => true
  onMemory := fun _ _ => some ⟨[], 0⟩
  newQueue := fun _ => true
  createEventFlag := true
  onQueue := fun _ _ => some ⟨true, [], 1⟩
  sizeof := fun _ => 8
  messageTo := fun _ => true
  setResult := fun _ => true

end Vts.Resource
