import Vts.Lib.IdTable

/-!
# Resource drivers

The three drivers of `drivers/resource`: `VtsHidlHandleDriver`, `VtsHidlMemoryDriver` and
`VtsFmqDriver`. Each of them keeps the objects it was given in a map that a mutex guards, and looks
them up under their ids.

The objects themselves belong to other libraries and to the kernel: what a call of them gives is
an answer of the `Device`, which may be another one for every request, and that the call was made
is written down. A call may also be undefined, which ends the process. Locking a mutex that is
locked already never returns, since all requests are processed by one thread.
-/

namespace Vts.Resource

open Vts.Lib

/-- Why a request does not return. -/
inductive Stop where
  | blocked
  | crashed
deriving DecidableEq

/-- A `hidl_handle`: its address, and the number of file descriptors of its native handle, if it
has one. -/
structure Handle where
  address : Nat
  numFds : Option Nat
deriving DecidableEq

/-- A `MemoryInfo`: the address of the `hidl_memory`, and whether it could be mapped. -/
structure Memory where
  address : Nat
  mapped : Bool
deriving DecidableEq

inductive MQFlavor where
  | kSynchronizedReadWrite
  | kUnsynchronizedWrite
deriving DecidableEq

/-- A `QueueInfo`, with the address of the queue. -/
structure Queue where
  address : Nat
  queue_data_type : String
  queue_flavor : MQFlavor
deriving DecidableEq

/-- The flags of `open`. -/
inductive OpenFlag where
  | O_RDONLY
  | O_WRONLY
  | O_RDWR
  | O_CREAT
  | O_TRUNC
  | O_APPEND
deriving DecidableEq

/-- The calls of a memory object. -/
inductive MemoryCall where
  | update
  | updateRange (start length : Nat)
  | read
  | readRange (start length : Nat)
  | copyTo (write_data : List UInt8) (length start : Nat)
  | copyFrom (length start : Nat)
  | commit
  | getSize
deriving DecidableEq

/-- What a call of a memory object gives: bytes that are copied from it, and its size. -/
structure MemoryAnswer where
  read_data : List UInt8
  size : Nat

/-- The calls of a message queue. -/
inductive QueueCall where
  | read (data_size : Nat)
  | readBlocking (data_size : Nat) (time_out_nanos : Int)
  | readBlockingLong (data_size : Nat) (time_out_nanos : Int)
  | write (data : List Nat)
  | writeBlocking (data : List Nat) (time_out_nanos : Int)
  | writeBlockingLong (data : List Nat) (time_out_nanos : Int)
  | availableToWrite
  | availableToRead
  | getQuantumSize
  | getQuantumCount
  | isValid
  | getDesc
deriving DecidableEq

/-- What a call of a message queue gives: whether it was done, the items that are read, and a
number or an address. -/
structure QueueAnswer where
  success : Bool
  data : List Nat
  value : Nat

/-- What a message queue is made of. -/
inductive QueueSource where
  | size (queue_size : Nat) (blocking : Bool)
  | copy (queue : Queue) (reset_pointers : Bool)
  | descriptor (queue_desc_addr : Nat)

/-- What `allocate` of the allocator service gives, if there is such a service. -/
inductive Allocation where
  | noService
  | failure
  | success (mapped : Bool)

/-- What the system and the other libraries answer while a request is processed. -/
structure Device where
  /-- The room on the stack, in bytes. -/
  stack : Nat
  /-- What an array of bytes or a number holds that was not assigned. -/
  unassigned : Nat → List UInt8
  unassignedItems : Nat → List Nat
  unassignedSize : Nat
  /-- The address of the next object that is made. -/
  address : Nat
  stat : String → Int
  openFile : String → List OpenFlag → Nat → Int
  native_handle_create : Nat → Nat → Bool
  readFile : Handle → Nat → Int × List UInt8
  writeFile : Handle → List UInt8 → Int
  allocate : Nat → Allocation
  mapMemory : Nat → Bool
  onMemory : Memory → MemoryCall → Option MemoryAnswer
  newQueue : QueueSource → Bool
  createEventFlag : Bool
  onQueue : Queue → QueueCall → Option QueueAnswer
  /-- The size of an item of a type. -/
  sizeof : String → Nat
  /-- Whether the translation functions of a predefined type are found. -/
  messageTo : String → Bool
  setResult : String → Bool

/-- The map of a driver and its mutex. What happened is written down: the changes of the map, the
ids that were returned for new objects, and the objects that were called. -/
structure Driver (Object : Type) where
  map : IdTable Object
  map_mutex_ : Bool
  log : List (TableChange Object)
  ids : List Int
  used : List Object

namespace Driver

variable {Object : Type}

def new : Driver Object := ⟨[], false, [], [], []⟩

def lock (driver : Driver Object) : Except Stop (Driver Object) :=
  if driver.map_mutex_ then .error .blocked else .ok { driver with map_mutex_ := true }

def unlock (driver : Driver Object) : Driver Object := { driver with map_mutex_ := false }

/-- A call of an object. -/
def use (driver : Driver Object) (object : Object) : Driver Object :=
  { driver with used := driver.used ++ [object] }

/-- The end of the functions that make or register an object. -/
def insert (driver : Driver Object) (object : Object) : Except Stop (Int × Driver Object) := do
  let driver ← driver.lock
  let new_id := driver.map.newId
  let driver : Driver Object :=
    { driver with
      map := driver.map.insert object
      log := driver.log ++ [.insert object]
      ids := driver.ids ++ [new_id] }
  .ok (new_id, driver.unlock)

end Driver

/-! ## `VtsHidlHandleDriver` -/

namespace VtsHidlHandleDriver

def FindHandle (driver : Driver Handle) (handle_id : Int) (release : Bool) :
    Except Stop (Option Handle × Driver Handle) := do
  let driver ← driver.lock
  match driver.map.lookup handle_id with
  | none => .ok (none, driver.unlock)
  | some handle =>
    if release then
      let driver : Driver Handle :=
        { driver with
          map := driver.map.release handle_id
          log := driver.log ++ [.release handle_id] }
      .ok (handle, driver.unlock)
    else .ok (handle, driver.unlock)

/-- The one file is opened after the native handle is made, and is its only descriptor. -/
def CreateFileHandle (device : Device) (driver : Driver Handle) (filepath : String)
    (flag : List OpenFlag) (mode : Nat) (data : List Int) : Except Stop (Int × Driver Handle) :=
  if !device.native_handle_create 1 data.length then .ok (-1, driver)
  else if device.openFile filepath flag mode = -1 then .ok (-1, driver)
  else driver.insert ⟨device.address, some 1⟩

def UnregisterHidlHandle (driver : Driver Handle) (handle_id : Int) :
    Except Stop (Bool × Driver Handle) := do
  let (handle_obj, driver) ← FindHandle driver handle_id true
  match handle_obj with
  | none => .ok (false, driver)
  | some _ => .ok (true, driver)

/-- The number of bytes that were read, or -1, and the bytes. -/
def ReadFile (device : Device) (driver : Driver Handle) (handle_id : Int) (num_bytes : Nat) :
    Except Stop ((Int × List UInt8) × Driver Handle) := do
  let (handle_obj, driver) ← FindHandle driver handle_id false
  match handle_obj with
  | none => .ok ((-1, []), driver)
  | some handle =>
    match handle.numFds with
    | none => .error .crashed
    | some 0 => .ok ((-1, []), driver)
    | some _ => .ok (device.readFile handle num_bytes, driver.use handle)

def WriteFile (device : Device) (driver : Driver Handle) (handle_id : Int)
    (write_data : List UInt8) : Except Stop (Int × Driver Handle) := do
  let (handle_obj, driver) ← FindHandle driver handle_id false
  match handle_obj with
  | none => .ok (-1, driver)
  | some handle =>
    match handle.numFds with
    | none => .error .crashed
    | some 0 => .ok (-1, driver)
    | some _ => .ok (device.writeFile handle write_data, driver.use handle)

def RegisterHidlHandle (driver : Driver Handle) (handle : Handle) :
    Except Stop (Int × Driver Handle) :=
  driver.insert handle

end VtsHidlHandleDriver

/-! ## `VtsHidlMemoryDriver` -/

namespace VtsHidlMemoryDriver

def FindMemory (driver : Driver Memory) (mem_id : Int) :
    Except Stop (Option Memory × Driver Memory) := do
  let driver ← driver.lock
  match driver.map.lookup mem_id with
  | none => .ok (none, driver.unlock)
  | some mem_info => .ok (mem_info, driver.unlock)

def Allocate (device : Device) (driver : Driver Memory) (mem_size : Nat) :
    Except Stop (Int × Driver Memory) :=
  match device.allocate mem_size with
  | .noService => .error .crashed
  | .failure => .ok (-1, driver)
  | .success mapped => driver.insert ⟨device.address, mapped⟩

def RegisterHidlMemory (device : Device) (driver : Driver Memory) (hidl_mem_address : Nat) :
    Except Stop (Int × Driver Memory) :=
  if !device.mapMemory hidl_mem_address then .ok (-1, driver)
  else driver.insert ⟨hidl_mem_address, true⟩

/-- A call of the memory object of an id: the answer, if the object is found. -/
def call (device : Device) (driver : Driver Memory) (mem_id : Int) (what : MemoryCall) :
    Except Stop (Option MemoryAnswer × Driver Memory) := do
  let (mem_info, driver) ← FindMemory driver mem_id
  match mem_info with
  | none => .ok (none, driver)
  | some mem_info =>
    if !mem_info.mapped then .error .crashed
    else
      match device.onMemory mem_info what with
      | none => .error .crashed
      | some answer => .ok (some answer, driver.use mem_info)

section

variable (device : Device) (driver : Driver Memory) (mem_id : Int)

def Update := call device driver mem_id .update

def UpdateRange (start length : Nat) := call device driver mem_id (.updateRange start length)

def Read := call device driver mem_id .read

def ReadRange (start length : Nat) := call device driver mem_id (.readRange start length)

def UpdateBytes (write_data : List UInt8) (length start : Nat) :=
  call device driver mem_id (.copyTo write_data length start)

def ReadBytes (length start : Nat) := call device driver mem_id (.copyFrom length start)

def Commit := call device driver mem_id .commit

def GetSize := call device driver mem_id .getSize

end

end VtsHidlMemoryDriver

/-! ## `VtsFmqDriver` -/

namespace VtsFmqDriver

def kInvalidQueueId : Int := -1

/-- The mutex is unlocked only where a queue is found. -/
def FindQueue (driver : Driver Queue) (data_type : String) (flavor : MQFlavor) (queue_id : Int) :
    Except Stop (Option Queue × Driver Queue) := do
  let driver ← driver.lock
  match driver.map.lookup queue_id with
  | none => .ok (none, driver)
  | some none => .error .crashed
  | some (some queue_info) =>
    if queue_info.queue_data_type ≠ data_type then .ok (none, driver)
    else if queue_info.queue_flavor ≠ flavor then .ok (none, driver)
    else .ok (some queue_info, driver.unlock)

/-- `InsertQueue`, for a queue that could be made or not. -/
def InsertQueue (device : Device) (driver : Driver Queue) (data_type : String)
    (flavor : MQFlavor) (source : QueueSource) : Except Stop (Int × Driver Queue) :=
  if !device.newQueue source then .ok (kInvalidQueueId, driver)
  else driver.insert ⟨device.address, data_type, flavor⟩

/-- `CreateFmq` of a size. -/
def CreateFmq (device : Device) (driver : Driver Queue) (data_type : String) (flavor : MQFlavor)
    (queue_size : Nat) (blocking : Bool) : Except Stop (Int × Driver Queue) :=
  InsertQueue device driver data_type flavor (.size queue_size blocking)

/-- `CreateFmq` for the descriptor of another queue. -/
def CreateFmqFrom (device : Device) (driver : Driver Queue) (data_type : String)
    (flavor : MQFlavor) (queue_id : Int) (reset_pointers : Bool) :
    Except Stop (Int × Driver Queue) := do
  let (queue_object, driver) ← FindQueue driver data_type flavor queue_id
  match queue_object with
  | none => .error .crashed
  | some queue =>
    match device.onQueue queue .getDesc with
    | none => .error .crashed
    | some descriptor =>
      if descriptor.value = 0 then .ok (kInvalidQueueId, driver.use queue)
      else InsertQueue device (driver.use queue) data_type flavor (.copy queue reset_pointers)

/-- `CreateFmq` for a descriptor at an address. -/
def CreateFmqAt (device : Device) (driver : Driver Queue) (data_type : String)
    (flavor : MQFlavor) (queue_desc_addr : Nat) : Except Stop (Int × Driver Queue) :=
  InsertQueue device driver data_type flavor (.descriptor queue_desc_addr)

/-- A call of the queue of an id: the answer, if the queue is found. -/
def call (device : Device) (driver : Driver Queue) (data_type : String) (flavor : MQFlavor)
    (queue_id : Int) (what : QueueCall) : Except Stop (Option QueueAnswer × Driver Queue) := do
  let (queue_object, driver) ← FindQueue driver data_type flavor queue_id
  match queue_object with
  | none => .ok (none, driver)
  | some queue =>
    match device.onQueue queue what with
    | none => .error .crashed
    | some answer => .ok (some answer, driver.use queue)

/-- The blocking calls are for synchronized queues only. -/
def callBlocking (device : Device) (driver : Driver Queue) (data_type : String)
    (flavor : MQFlavor) (queue_id : Int) (what : QueueCall) :
    Except Stop (Option QueueAnswer × Driver Queue) :=
  if flavor = .kUnsynchronizedWrite then .ok (none, driver)
  else call device driver data_type .kSynchronizedReadWrite queue_id what

/-- The long forms make an event flag first. -/
def callBlockingLong (device : Device) (driver : Driver Queue) (data_type : String)
    (flavor : MQFlavor) (queue_id : Int) (what : QueueCall) :
    Except Stop (Option QueueAnswer × Driver Queue) :=
  if flavor = .kUnsynchronizedWrite then .ok (none, driver)
  else if !device.createEventFlag then .ok (none, driver)
  else call device driver data_type .kSynchronizedReadWrite queue_id what

section

variable (device : Device) (driver : Driver Queue) (data_type : String) (flavor : MQFlavor)
  (queue_id : Int)

def ReadFmq (data_size : Nat) := call device driver data_type flavor queue_id (.read data_size)

def ReadFmqBlocking (data_size : Nat) (time_out_nanos : Int) :=
  callBlocking device driver data_type flavor queue_id (.readBlocking data_size time_out_nanos)

def ReadFmqBlockingLong (data_size : Nat) (time_out_nanos : Int) :=
  callBlockingLong device driver data_type flavor queue_id
    (.readBlockingLong data_size time_out_nanos)

def WriteFmq (data : List Nat) := call device driver data_type flavor queue_id (.write data)

def WriteFmqBlocking (data : List Nat) (time_out_nanos : Int) :=
  callBlocking device driver data_type flavor queue_id (.writeBlocking data time_out_nanos)

def WriteFmqBlockingLong (data : List Nat) (time_out_nanos : Int) :=
  callBlockingLong device driver data_type flavor queue_id (.writeBlockingLong data time_out_nanos)

def AvailableToWrite := call device driver data_type flavor queue_id .availableToWrite

def AvailableToRead := call device driver data_type flavor queue_id .availableToRead

def GetQuantumSize := call device driver data_type flavor queue_id .getQuantumSize

def GetQuantumCount := call device driver data_type flavor queue_id .getQuantumCount

def IsValid := call device driver data_type flavor queue_id .isValid

def GetQueueDescAddress := call device driver data_type flavor queue_id .getDesc

end

end VtsFmqDriver

end Vts.Resource
