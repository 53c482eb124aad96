import Mathlib.Algebra.Ring.Int.Defs
import Mathlib.Algebra.Ring.Nat
import Vts.Lib.Paths

/-!
# Variables, their values and their messages

The types that a `VariableSpecificationMessage` describes, the C++ values of these types, and
the messages that carry the values (`proto/ComponentSpecificationMessage.proto`). Only the
kinds of types whose values are carried in messages alone are here: scalars, strings, masks,
enumerations, vectors, arrays, structs, unions and handles.

The specification of a variable of a predefined type only has the name of the type. As types
are not recursive, the definition stands in its place here, with the name beside it. Of a
message the fields are kept that the code for these types reads or sets.
-/

namespace Vts.Vtsc

open Vts.Lib

/-! ## Types -/

/-- The scalar types of HIDL. -/
inductive ScalarType where
  | bool_t
  | int8_t
  | uint8_t
  | int16_t
  | uint16_t
  | int32_t
  | uint32_t
  | int64_t
  | uint64_t
  | float_t
  | double_t
deriving DecidableEq

namespace ScalarType

/-- The least value of a type. The values of the floating types are their bit patterns. -/
def least : ScalarType → Int
  | int8_t => -2 ^ 7
  | int16_t => -2 ^ 15
  | int32_t => -2 ^ 31
  | int64_t => -2 ^ 63
  | _ => 0

/-- The number of values of a type. -/
def size : ScalarType → Int
  | bool_t => 2
  | int8_t => 2 ^ 8
  | uint8_t => 2 ^ 8
  | int16_t => 2 ^ 16
  | uint16_t => 2 ^ 16
  | int32_t => 2 ^ 32
  | uint32_t => 2 ^ 32
  | int64_t => 2 ^ 64
  | uint64_t => 2 ^ 64
  | float_t => 2 ^ 32
  | double_t => 2 ^ 64

def InRange (scalar_type : ScalarType) (value : Int) : Prop :=
  scalar_type.least ≤ value ∧ value < scalar_type.least + scalar_type.size

instance (scalar_type : ScalarType) (value : Int) : Decidable (scalar_type.InRange value) :=
  inferInstanceAs (Decidable (_ ∧ _))

/-- The conversion of an integer to a type. -/
def convert (scalar_type : ScalarType) (value : Int) : Int :=
  scalar_type.least + (value - scalar_type.least) % scalar_type.size

theorem convert_of_inRange {scalar_type : ScalarType} {value : Int}
    (inRange : scalar_type.InRange value) : scalar_type.convert value = value := by
  obtain ⟨above, below⟩ := inRange
  unfold convert
  rw [Int.emod_eq_of_lt (by omega) (by omega)]
  omega

/-- Every scalar type has a value other than a given one. -/
theorem exists_inRange_ne (scalar_type : ScalarType) (value : Int) :
    ∃ other, scalar_type.InRange other ∧ other ≠ value := by
  by_cases zero : value = 0
  · refine ⟨1, ?_, by omega⟩
    cases scalar_type <;> decide
  · refine ⟨0, ?_, fun same => zero same.symm⟩
    cases scalar_type <;> decide

end ScalarType

mutual

/-- The type of a variable. -/
inductive Spec where
  | scalar (scalar_type : ScalarType)
  | string
  | mask (scalar_type : ScalarType)
  /-- A predefined enumeration, with the scalar type of its definition. -/
  | enum (predefined_type : String) (scalar_type : ScalarType)
  | vector (vector_value : Spec)
  | array (vector_size : Nat) (vector_value : Spec)
  /-- A struct, predefined or with its fields in the specification of the variable. -/
  | struct (predefined_type : Option String) (struct_value : Fields)
  | union (predefined_type : Option String) (union_value : Fields)
  | handle

/-- The fields of a struct or union, in order. -/
inductive Fields where
  | nil
  | cons (name : String) (field : Spec) (rest : Fields)

end

def Fields.names : Fields → List String
  | .nil => []
  | .cons name _ rest => name :: rest.names

/-! ## Values -/

/-- `native_handle_t`, with the file descriptors and the integers of its data. -/
structure NativeHandle where
  fds : List Int
  ints : List Int
deriving DecidableEq

/-- A C++ value. Of a union the model keeps what each member was last assigned, or held at
first. -/
inductive Value where
  | scalar (value : Int)
  | string (bytes : List UInt8)
  /-- A vector or an array. -/
  | list (elements : List Value)
  /-- A struct or a union. -/
  | record (members : List (String × Value))
  | handle (native : Option NativeHandle)

/-- A step into a value. -/
inductive Access where
  | member (name : String)
  | element (index : Nat)
deriving DecidableEq

namespace Value

/-- The members with another value of one of them. -/
def setMember (name : String) (new : Value) : List (String × Value) → List (String × Value)
  | [] => []
  | (other, value) :: members =>
    if name = other then (other, new) :: members else (other, value) :: setMember name new members

section

variable {name : String} {present : Value} {members : List (String × Value)}

theorem lookup_setMember (new : Value) (there : members.lookup name = some present) :
    (setMember name new members).lookup name = some new := by
  induction members with
  | nil => cases there
  | cons member members ih =>
    obtain ⟨other, value⟩ := member
    by_cases same : name = other
    · subst same
      simp [setMember]
    · have different : (name == other) = false := by simpa using same
      rw [List.lookup_cons, different] at there
      simp only [setMember, same, if_false, List.lookup_cons, different]
      exact ih there

theorem setMember_setMember (name : String) (first second : Value)
    (members : List (String × Value)) :
    setMember name second (setMember name first members) = setMember name second members := by
  induction members with
  | nil => rfl
  | cons member members ih =>
    obtain ⟨other, value⟩ := member
    by_cases same : name = other
    · simp [setMember, same]
    · simp [setMember, same, ih]

theorem setMember_lookup (there : members.lookup name = some present) :
    setMember name present members = members := by
  induction members with
  | nil => rfl
  | cons member members ih =>
    obtain ⟨other, value⟩ := member
    by_cases same : name = other
    · subst same
      rw [List.lookup_cons_self] at there
      cases there
      simp [setMember]
    · have different : (name == other) = false := by simpa using same
      rw [List.lookup_cons, different] at there
      simp only [setMember, same, if_false, ih there]

end

/-- What a step leads to. -/
def access : Value → Access → Option Value
  | .record members, .member name => members.lookup name
  | .list elements, .element index => elements[index]?
  | _, _ => none

/-- The value with another value behind a step. -/
def assign : Value → Access → Value → Value
  | .record members, .member name, new => .record (setMember name new members)
  | .list elements, .element index, new => .list (elements.set index new)
  | value, _, _ => value

instance : Children Value Access where
  child := access
  replace := assign
  child_replace {tree present new key} there := by
    cases tree <;> cases key <;> try cases there
    · rename_i elements index
      obtain ⟨inside, _⟩ := List.getElem?_eq_some_iff.mp there
      simp [access, assign, inside]
    · exact lookup_setMember new there
  replace_replace {tree first second key} := by
    cases tree <;> cases key <;> try rfl
    · simp [assign]
    · simp [assign, setMember_setMember]
  replace_child {tree present key} there := by
    cases tree <;> cases key <;> try cases there
    · rename_i elements index
      obtain ⟨inside, rfl⟩ := List.getElem?_eq_some_iff.mp there
      simp [assign]
    · rw [assign, setMember_lookup there]

end Value

mutual

/-- A value is of a type. The size of a vector has 32 bits. -/
def Spec.Holds : Spec → Value → Prop
  | .scalar scalar_type, .scalar value => scalar_type.InRange value
  | .string, .string _ => True
  | .mask scalar_type, .scalar value => scalar_type.InRange value
  | .enum _ scalar_type, .scalar value => scalar_type.InRange value
  | .vector vector_value, .list elements =>
    elements.length < 2 ^ 32 ∧ ∀ element ∈ elements, vector_value.Holds element
  | .array vector_size vector_value, .list elements =>
    elements.length = vector_size ∧ ∀ element ∈ elements, vector_value.Holds element
  | .struct _ struct_value, .record members => struct_value.Hold members
  | .union _ union_value, .record members => union_value.Hold members
  | .handle, .handle _ => True
  | _, _ => False

/-- The members are those of the fields, in order. -/
def Fields.Hold : Fields → List (String × Value) → Prop
  | .nil, members => members = []
  | .cons name field rest, members =>
    ∃ value others, members = (name, value) :: others ∧ field.Holds value ∧ rest.Hold others

end

/-! ## Messages -/

/-- `VariableType`, for the types modelled here. -/
inductive VariableType where
  | TYPE_SCALAR
  | TYPE_STRING
  | TYPE_ENUM
  | TYPE_ARRAY
  | TYPE_VECTOR
  | TYPE_STRUCT
  | TYPE_UNION
  | TYPE_HANDLE
  | TYPE_MASK
deriving DecidableEq

/-- `FdType`. -/
inductive FdType where
  | FILE_TYPE
  | DIR_TYPE
  | DEV_TYPE
  | PIPE_TYPE
  | SOCKET_TYPE
  | LINK_TYPE
deriving DecidableEq

/-- `FdMessage`, with the size of its memory. -/
structure FdMessage where
  type : Option FdType
  mode : Option Nat
  flags : Option Int
  file_name : Option String
  memory_size : Option Int
deriving DecidableEq

/-- `HandleDataValueMessage`. -/
structure HandleDataValueMessage where
  num_fds : Nat
  num_ints : Nat
  fd_val : List FdMessage
  int_val : List Int
  hidl_handle_address : Option Nat
deriving DecidableEq

/-- `VariableSpecificationMessage`, as far as it carries a value. -/
structure Message where
  name : Option String
  type : Option VariableType
  scalar_value : ScalarType → Option Int
  scalar_type : Option ScalarType
  /-- The `message` of `string_value`. -/
  string_message : Option (List UInt8)
  /-- The `length` of `string_value`. -/
  string_length : Option Nat
  vector_value : List Message
  vector_size : Option Nat
  struct_value : List Message
  union_value : List Message
  handle_value : Option HandleDataValueMessage

/-- A repeated field with messages. -/
inductive Repeated where
  | vector_value
  | struct_value
  | union_value
deriving DecidableEq

namespace Message

/-- A message in which nothing is set. -/
def empty : Message := ⟨none, none, fun _ => none, none, none, none, [], none, [], [], none⟩

/-- A message in which at most a name is set. -/
def withName (name : Option String) : Message := { empty with name := name }

/-- The messages of a repeated field. -/
def get (message : Message) : Repeated → List Message
  | .vector_value => message.vector_value
  | .struct_value => message.struct_value
  | .union_value => message.union_value

/-- The message with other messages in a repeated field. -/
def set (message : Message) : Repeated → List Message → Message
  | .vector_value, messages => { message with vector_value := messages }
  | .struct_value, messages => { message with struct_value := messages }
  | .union_value, messages => { message with union_value := messages }

section

variable (message : Message) (field : Repeated)

@[simp] theorem get_set (messages : List Message) :
    (message.set field messages).get field = messages := by
  cases field <;> rfl

@[simp] theorem set_set (first second : List Message) :
    (message.set field first).set field second = message.set field second := by
  cases field <;> rfl

@[simp] theorem set_get : message.set field (message.get field) = message := by
  cases message
  cases field <;> rfl

end

/-- The message with one more message in a repeated field. -/
def add (message : Message) (field : Repeated) (new : Message) : Message :=
  message.set field (message.get field ++ [new])

instance : Children Message (Repeated × Nat) where
  child message key := (message.get key.1)[key.2]?
  replace message key new := message.set key.1 ((message.get key.1).set key.2 new)
  child_replace {tree present new key} there := by
    obtain ⟨inside, _⟩ := List.getElem?_eq_some_iff.mp there
    simp [inside]
  replace_replace {tree first second key} := by simp
  replace_child {tree present key} there := by
    obtain ⟨inside, rfl⟩ := List.getElem?_eq_some_iff.mp there
    simp

end Message

end Vts.Vtsc
