import Vts.Lib.Counting
import Vts.Vtsc.Places

/-!
# The emitted code

What the code generators print, and what it does when it runs. There are two kinds: code that
reads a C++ variable and writes a message (`WriteCode`), and code that reads a message and
assigns a C++ variable (`ReadCode`). Each emitted function has one message and one variable.
A call holds the body of the function that is called, which has names of its own.

Two things are decided before the code runs. It only compiles if no block declares a name
twice. And every index expression means one of the loops around it.

Indices and pointers are looked up by their names when the code runs. Reading or assigning
what is not there is a fault; so are a null pointer that is dereferenced and an exit.
-/

namespace Vts.Vtsc

open Vts.Lib Children

/-! ## Running -/

inductive Fault where
  /-- A name that is not declared. -/
  | undeclared
  /-- A part of a value or a message that is not there. -/
  | outOfRange
  /-- A value of another kind than the code is made for. -/
  | notOfType
  | nullDereference
  /-- The code calls `exit`. -/
  | exits
  /-- A loop leaves the range of its index. -/
  | indexOverflow
deriving DecidableEq

/-- The part of a value that an expression stands for. -/
def readPlace (loops : List (String × Nat)) (object : Value) (place : Place) :
    Except Fault Value :=
  match place.path loops with
  | none => .error .undeclared
  | some path =>
    match getAt object path with
    | none => .error .outOfRange
    | some value => .ok value

/-- The part of a message that an expression stands for. -/
def readMessage (loops : List (String × Nat)) (root : Message) (message : MessageExpr) :
    Except Fault Message :=
  match message.path loops with
  | none => .error .undeclared
  | some path =>
    match getAt root path with
    | none => .error .outOfRange
    | some value => .ok value

/-- The kind of file that `st_mode` tells. -/
inductive FileKind where
  | regular
  | directory
  | character
  | block
  | fifo
  | socket
  | other
deriving DecidableEq

/-- The device on which emitted code runs. -/
structure Device where
  /-- What a new element of a vector holds. -/
  fresh : Spec → Value
  /-- Whether a handle with so many file descriptors and integers can be made. -/
  native_handle_create : Nat → Nat → Bool
  /-- What the data of a new handle holds. -/
  uninitialized : Nat → Int
  /-- The address of a new copy of a handle. -/
  new_hidl_handle : Option NativeHandle → Nat
  /-- The handle at an address. -/
  hidl_handle : Nat → Option NativeHandle
  /-- `open(file_name, flags | O_CREAT, mode)`, after the parent directories are made. -/
  openFile : String → Int → Nat → Int
  /-- `open(file_name, O_DIRECTORY, mode)`. -/
  openDirectory : String → Nat → Int
  ashmem_create_region : Int → Int
  /-- The file of a descriptor, by `/proc/self/fd`. -/
  readlink : Int → Option String
  fstat : Int → FileKind × Nat
  /-- `fcntl(fd, F_GETFL)`. -/
  fcntl : Int → Int
  ashmem_get_size_region : Int → Int

/-- The number of indices of a loop: they are of type `int`. -/
def indices : Nat := 2 ^ 31

/-! ## Code that writes a message -/

/-- The bound of a loop. -/
inductive Bound where
  /-- `(int)value.size()` -/
  | size (value : Place)
  | constant (number : Nat)
deriving DecidableEq

/-- Code that reads a variable and writes a message. Messages are named by variables that
point to them. -/
inductive WriteCode where
  | skip
  | seq (first second : WriteCode)
  | set_type (msg : String) (type : VariableType)
  | set_scalar_type (msg : String) (scalar_type : ScalarType)
  /-- `msg->mutable_scalar_value()->set_...(value);` -/
  | set_scalar_value (msg : String) (scalar_type : ScalarType) (value : Place)
  /-- Sets the message to `value.c_str()` and the length to `value.size()`. -/
  | set_string_value (msg : String) (value : Place)
  | set_vector_size (msg : String) (size : Bound)
  | set_name (msg name : String)
  /-- `auto *name = msg->add_...();` -/
  | add (name msg : String) (field : Repeated)
  /-- `for (int index_name = 0; index_name < bound; index_name++)`, over a place. -/
  | loop (index_name : String) (place : Place) (bound : Bound) (body : WriteCode)
  /-- `func_name(msg, value);`, with the first parameter and the body of the function. -/
  | call (func_name msg : String) (value : Place) (parameter : String) (body : WriteCode)
  /-- `auto handle_name = value.getNativeHandle();` and what is recorded of it. -/
  | set_handle_value (msg handle_name : String) (value : Place)
  /-- `msg->mutable_handle_value()->set_hidl_handle_address(...);`, of a new copy. -/
  | set_hidl_handle_address (msg : String) (value : Place)

/-- The part of a string before its first NUL. -/
def c_str (bytes : List UInt8) : List UInt8 := bytes.takeWhile (· ≠ 0)

/-- What is recorded of a file descriptor. -/
def recordFd (device : Device) (fd : Int) : FdMessage :=
  match device.readlink fd with
  | none => ⟨none, none, none, none, none⟩
  | some filePath =>
    match device.fstat fd with
    | (.regular, mode) =>
      ⟨some .FILE_TYPE, some mode, some (device.fcntl fd), some filePath, none⟩
    | (.directory, mode) =>
      ⟨some .DIR_TYPE, some mode, some (device.fcntl fd), some filePath, none⟩
    | (.character, mode) | (.block, mode) =>
      ⟨some .DEV_TYPE, some mode, none, some filePath,
        if filePath = "/dev/ashmem" then some (device.ashmem_get_size_region fd) else none⟩
    | (.fifo, mode) => ⟨some .PIPE_TYPE, some mode, none, some filePath, none⟩
    | (.socket, mode) => ⟨some .SOCKET_TYPE, some mode, none, some filePath, none⟩
    | (.other, mode) => ⟨some .LINK_TYPE, some mode, none, some filePath, none⟩

/-- What is recorded of a handle. -/
def recordHandle (device : Device) : Option NativeHandle → HandleDataValueMessage
  | none => ⟨0, 0, [], [], some 0⟩
  | some native =>
    ⟨native.fds.length, native.ints.length, native.fds.map (recordFd device), native.ints, none⟩

namespace WriteCode

/-- The names declared in a block once the code is in it, unless one is declared twice. -/
def scope : WriteCode → List String → Option (List String)
  | skip, names => some names
  | seq first second, names =>
    match first.scope names with
    | none => none
    | some names => second.scope names
  | add name _ _, names => if name ∈ names then none else some (name :: names)
  | loop index_name _ _ body, names => if (body.scope [index_name]).isSome then some names else none
  | call _ _ _ parameter body, names => if (body.scope [parameter]).isSome then some names else none
  | set_handle_value _ handle_name _, names =>
    if handle_name ∈ names then none else some (handle_name :: names)
  | _, names => some names

/-- Every index means the loop it was emitted for. -/
def Resolved (loops : List (String × Place)) : WriteCode → Prop
  | seq first second => first.Resolved loops ∧ second.Resolved loops
  | set_scalar_value _ _ value => value.Resolved loops
  | set_string_value _ value => value.Resolved loops
  | set_vector_size _ (.size value) => value.Resolved loops
  | loop index_name place (.size value) body =>
    value.Resolved ((index_name, place) :: loops) ∧ body.Resolved ((index_name, place) :: loops)
  | loop index_name place (.constant _) body => body.Resolved ((index_name, place) :: loops)
  | call _ _ value _ body => value.Resolved loops ∧ body.Resolved []
  | set_handle_value _ _ value => value.Resolved loops
  | set_hidl_handle_address _ value => value.Resolved loops
  | _ => True

/-- The message that is written, and what the variables point to. -/
structure State where
  pointers : List (String × List (Repeated × Nat))
  root : Message

/-- Changes the message that a variable points to. -/
def change (msg : String) (f : Message → Message) (state : State) : Except Fault State :=
  match state.pointers.lookup msg with
  | none => .error .undeclared
  | some path =>
    match getAt state.root path with
    | none => .error .outOfRange
    | some message => .ok { state with root := putAt state.root path (f message) }

/-- The value of a bound. -/
def limit (loops : List (String × Nat)) (object : Value) : Bound → Except Fault Int
  | .constant number => .ok number
  | .size value =>
    match readPlace loops object value with
    | .error fault => .error fault
    | .ok (.list elements) => .ok (ScalarType.int32_t.convert elements.length)
    | .ok _ => .error .notOfType

def run (device : Device) : WriteCode → List (String × Nat) → Value → State → Except Fault State
  | skip, _, _, state => .ok state
  | seq first second, loops, object, state =>
    match first.run device loops object state with
    | .error fault => .error fault
    | .ok next => second.run device loops object next
  | set_type msg type, _, _, state =>
    change msg (fun message => { message with type := some type }) state
  | set_scalar_type msg scalar_type, _, _, state =>
    change msg (fun message => { message with scalar_type := some scalar_type }) state
  | set_scalar_value msg scalar_type value, loops, object, state =>
    match readPlace loops object value with
    | .error fault => .error fault
    | .ok (.scalar number) =>
      change msg (fun message => { message with
        scalar_value := fun other =>
          if other = scalar_type then some (scalar_type.convert number)
          else message.scalar_value other }) state
    | .ok _ => .error .notOfType
  | set_string_value msg value, loops, object, state =>
    match readPlace loops object value with
    | .error fault => .error fault
    | .ok (.string bytes) =>
      change msg (fun message => { message with
        string_message := some (c_str bytes), string_length := some bytes.length }) state
    | .ok _ => .error .notOfType
  | set_vector_size msg (.constant number), _, _, state =>
    change msg (fun message => { message with vector_size := some number }) state
  | set_vector_size msg (.size value), loops, object, state =>
    match readPlace loops object value with
    | .error fault => .error fault
    | .ok (.list elements) =>
      change msg (fun message => { message with vector_size := some elements.length }) state
    | .ok _ => .error .notOfType
  | set_name msg name, _, _, state =>
    change msg (fun message => { message with name := some name }) state
  | add name msg field, _, _, state =>
    match state.pointers.lookup msg with
    | none => .error .undeclared
    | some path =>
      match getAt state.root path with
      | none => .error .outOfRange
      | some message => .ok
        { pointers := (name, path ++ [(field, (message.get field).length)]) :: state.pointers
          root := putAt state.root path (message.add field .empty) }
  | loop index_name _ bound body, loops, object, state =>
    countUp .indexOverflow (fun count => limit ((index_name, count) :: loops) object bound)
      (fun count state =>
        (body.run device ((index_name, count) :: loops) object state).map fun next =>
          { next with pointers := state.pointers })
      indices 0 state
  | call _ msg value parameter body, loops, object, state =>
    match readPlace loops object value with
    | .error fault => .error fault
    | .ok argument =>
      match state.pointers.lookup msg with
      | none => .error .undeclared
      | some path =>
        match getAt state.root path with
        | none => .error .outOfRange
        | some message =>
          match body.run device [] argument ⟨[(parameter, [])], message⟩ with
          | .error fault => .error fault
          | .ok done => .ok { state with root := putAt state.root path done.root }
  | set_handle_value msg _ value, loops, object, state =>
    match readPlace loops object value with
    | .error fault => .error fault
    | .ok (.handle native) =>
      change msg (fun message => { message with
        handle_value := some (recordHandle device native) }) state
    | .ok _ => .error .notOfType
  | set_hidl_handle_address msg value, loops, object, state =>
    match readPlace loops object value with
    | .error fault => .error fault
    | .ok (.handle native) =>
      change msg (fun message => { message with
        handle_value := some ⟨0, 0, [], [], some (device.new_hidl_handle native)⟩ }) state
    | .ok _ => .error .notOfType

theorem run_seq {device : Device} {first : WriteCode} {loops : List (String × Nat)}
    {object : Value} {state next : State} (ran : first.run device loops object state = .ok next)
    (second : WriteCode) :
    (seq first second).run device loops object state = second.run device loops object next := by
  rw [run, ran]

end WriteCode

/-! ## Code that reads a message -/

/-- Code that reads a message and assigns a variable. -/
inductive ReadCode where
  | skip
  | seq (first second : ReadCode)
  /-- `arg_name = arg_value_name.scalar_value().scalar_type();` -/
  | assign_scalar (arg_name : Place) (arg_value_name : MessageExpr) (scalar_type : ScalarType)
  | assign_string (arg_name : Place) (arg_value_name : MessageExpr)
  /-- `arg_name.resize(arg_value_name.vector_value_size());`, with the type of the elements. -/
  | resize (arg_name : Place) (arg_value_name : MessageExpr) (element : Spec)
  /-- `for (int index_name = 0; index_name < arg_value_name.vector_value_size(); index_name++)`,
  over a place. -/
  | loop (index_name : String) (arg_name : Place) (arg_value_name : MessageExpr) (body : ReadCode)
  /-- `func_name(arg_value_name, &(arg_name), callback_socket_name);`, with the body of the
  function. -/
  | call (func_name : String) (arg_value_name : MessageExpr) (arg_name : Place) (body : ReadCode)
  /-- `if (arg_value_name.name() == "name")` -/
  | if_name (arg_value_name : MessageExpr) (name : String) (body : ReadCode)
  | assign_handle (arg_name : Place) (arg_value_name : MessageExpr)

/-- The descriptor that is made from a recorded one for a position of a handle. -/
def openFd (device : Device) (index : Nat) (fd_val : FdMessage) : Except Fault Int :=
  match fd_val.type.getD .FILE_TYPE with
  | .FILE_TYPE =>
    let fd := device.openFile (fd_val.file_name.getD "") (fd_val.flags.getD 0)
      (fd_val.mode.getD 0)
    if fd = -1 then .error .exits else .ok fd
  | .DIR_TYPE => .ok (device.openDirectory (fd_val.file_name.getD "") (fd_val.mode.getD 0))
  | .DEV_TYPE =>
    if fd_val.file_name.getD "" = "/dev/ashmem" then
      .ok (device.ashmem_create_region (fd_val.memory_size.getD 0))
    else .ok (device.uninitialized index)
  | .PIPE_TYPE => .ok (device.uninitialized index)
  | .SOCKET_TYPE => .ok (device.uninitialized index)
  | .LINK_TYPE => .ok (device.uninitialized index)

/-- An item of a repeated field. -/
def item {α : Type} (items : List α) (index : Nat) : Except Fault α :=
  match items[index]? with
  | none => .error .outOfRange
  | some found => .ok found

/-- The handle that is made from a recorded one. -/
def makeHandle (device : Device) : Option HandleDataValueMessage →
    Except Fault (Option NativeHandle)
  | none => .ok none
  | some value =>
    match value.hidl_handle_address with
    | some address => if address = 0 then .error .nullDereference else .ok (device.hidl_handle address)
    | none =>
      if device.native_handle_create value.num_fds value.num_ints = false then .error .exits
      else do
        let fds ← (List.range value.num_fds).mapM fun index => do
          openFd device index (← item value.fd_val index)
        let ints ← (List.range value.num_ints).mapM fun index => item value.int_val index
        .ok (some ⟨fds, ints⟩)

/-- The elements of a vector after it is resized. -/
def resized (device : Device) (element : Spec) (size : Nat) (elements : List Value) :
    List Value :=
  elements.take size ++ List.replicate (size - elements.length) (device.fresh element)

namespace ReadCode

/-- Every index means the loop it was emitted for. -/
def Resolved (loops : List (String × Place × MessageExpr)) : ReadCode → Prop
  | seq first second => first.Resolved loops ∧ second.Resolved loops
  | assign_scalar arg_name arg_value_name _ | assign_string arg_name arg_value_name
  | resize arg_name arg_value_name _ | assign_handle arg_name arg_value_name =>
    arg_name.Resolved (loops.map fun loop => (loop.1, loop.2.1)) ∧
      arg_value_name.Resolved (loops.map fun loop => (loop.1, loop.2.2))
  | loop index_name arg_name arg_value_name body =>
    arg_value_name.Resolved (((index_name, arg_name, arg_value_name) :: loops).map
        fun loop => (loop.1, loop.2.2)) ∧
      body.Resolved ((index_name, arg_name, arg_value_name) :: loops)
  | call _ arg_value_name arg_name body =>
    arg_name.Resolved (loops.map fun loop => (loop.1, loop.2.1)) ∧
      arg_value_name.Resolved (loops.map fun loop => (loop.1, loop.2.2)) ∧ body.Resolved []
  | if_name arg_value_name _ body =>
    arg_value_name.Resolved (loops.map fun loop => (loop.1, loop.2.2)) ∧ body.Resolved loops
  | skip => True

/-- Assigns a part of the variable, from its value before. -/
def assign (loops : List (String × Nat)) (arg_name : Place) (f : Value → Except Fault Value)
    (object : Value) : Except Fault Value :=
  match arg_name.path loops with
  | none => .error .undeclared
  | some path =>
    match getAt object path with
    | none => .error .outOfRange
    | some present =>
      match f present with
      | .error fault => .error fault
      | .ok new => .ok (putAt object path new)

/-- Assigns a part of the variable, from a message and the value before. -/
def assignFrom (loops : List (String × Nat)) (root : Message) (arg_value_name : MessageExpr)
    (arg_name : Place) (f : Message → Value → Except Fault Value) (object : Value) :
    Except Fault Value :=
  match readMessage loops root arg_value_name with
  | .error fault => .error fault
  | .ok message => assign loops arg_name (f message) object

/-- A vector after it is resized to the number of messages. -/
def resizeTo (device : Device) (element : Spec) (message : Message) : Value → Except Fault Value
  | .list elements => .ok (.list (resized device element message.vector_value.length elements))
  | _ => .error .notOfType

/-- The number of messages in `vector_value`. -/
def limit (loops : List (String × Nat)) (root : Message) (arg_value_name : MessageExpr) :
    Except Fault Int :=
  (readMessage loops root arg_value_name).map fun message => message.vector_value.length

def run (device : Device) : ReadCode → List (String × Nat) → Message → Value → Except Fault Value
  | skip, _, _, object => .ok object
  | seq first second, loops, root, object =>
    match first.run device loops root object with
    | .error fault => .error fault
    | .ok next => second.run device loops root next
  | assign_scalar arg_name arg_value_name scalar_type, loops, root, object =>
    assignFrom loops root arg_value_name arg_name (fun message _ =>
      .ok (.scalar (scalar_type.convert ((message.scalar_value scalar_type).getD 0)))) object
  | assign_string arg_name arg_value_name, loops, root, object =>
    assignFrom loops root arg_value_name arg_name (fun message _ =>
      .ok (.string (message.string_message.getD []))) object
  | resize arg_name arg_value_name element, loops, root, object =>
    assignFrom loops root arg_value_name arg_name (resizeTo device element) object
  | loop index_name _ arg_value_name body, loops, root, object =>
    countUp .indexOverflow (fun count => limit ((index_name, count) :: loops) root arg_value_name)
      (fun count object => body.run device ((index_name, count) :: loops) root object)
      indices 0 object
  | call _ arg_value_name arg_name body, loops, root, object =>
    assignFrom loops root arg_value_name arg_name (fun message present =>
      body.run device [] message present) object
  | if_name arg_value_name name body, loops, root, object =>
    match readMessage loops root arg_value_name with
    | .error fault => .error fault
    | .ok message =>
      if message.name.getD "" = name then body.run device loops root object else .ok object
  | assign_handle arg_name arg_value_name, loops, root, object =>
    assignFrom loops root arg_value_name arg_name (fun message _ =>
      (makeHandle device message.handle_value).map .handle) object

end ReadCode

end Vts.Vtsc
