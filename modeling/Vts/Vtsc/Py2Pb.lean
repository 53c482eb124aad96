import Vts.Vtsc.Variables

/-!
# Python values to messages

`utils/python/mirror/py2pb.py`: how the host turns the arguments of a call into messages. The
specification of an argument is a `VariableSpecificationMessage` too; of it the fields are kept
that the conversion reads.

The functions fill in a message that is there already. Where one of them gives up it returns
`None`, but no caller among them looks at that, so what counts is the message it leaves behind:
the loop over the attributes of a struct or union just ends there. Exceptions end the whole
conversion.

A value of another kind than the function is made for is not followed further: it raises an
exception here, also where Python would go on for a while with what the value happens to offer.
-/

namespace Vts.Vtsc

/-- The specification of a variable, as far as `py2pb` reads it. -/
structure PbSpec where
  name : String
  type : VariableType
  scalar_type : Option ScalarType
  /-- The `scalar_type` of `enum_value`. -/
  enum_value : Option ScalarType
  predefined_type : Option String
  vector_value : List PbSpec
  struct_value : List PbSpec
  union_value : List PbSpec
  sub_struct : List PbSpec
  sub_union : List PbSpec

/-- A Python value. Those of the floating types are their bit patterns, and `bool` is a kind of
`int`. -/
inductive PyValue where
  | int (value : Int)
  | str (bytes : List UInt8)
  | list (items : List PyValue)
  | dict (entries : List (String × PyValue))
  | message (value : Message)

inductive PyError where
  | AttributeError
  | IndexError
  | KeyError
  | TypeError
  | ValueError
deriving DecidableEq

/-- The type of the field of `ScalarDataValueMessage` for a scalar type. -/
def ScalarType.field : ScalarType → ScalarType
  | .int8_t => .int32_t
  | .uint8_t => .uint32_t
  | .int16_t => .int32_t
  | .uint16_t => .uint32_t
  | scalar_type => scalar_type

/-- `setattr(message.scalar_value, scalar_type, py_value)`. -/
def setattr (message : Message) (scalar_type : ScalarType) : PyValue → Except PyError Message
  | .int value =>
    if scalar_type.field.InRange value then
      .ok { message with
        scalar_value := fun other =>
          if other = scalar_type then some value else message.scalar_value other }
    else .error .ValueError
  | _ => .error .TypeError

/-- The message with the name of a specification, if that has one. -/
def Message.named (message : Message) (name : String) : Message :=
  if name = "" then message else { message with name := some name }

def PyValue2PbEnum (message : Message) (pb_spec : PbSpec) (py_value : PyValue) :
    Except PyError Message :=
  let message := { message.named pb_spec.name with type := some .TYPE_ENUM }
  match pb_spec.enum_value with
  | some scalar_type => setattr message scalar_type py_value
  | none => setattr message .int32_t py_value

def PyValue2PbScalar (message : Message) (pb_spec : PbSpec) (py_value : PyValue) :
    Except PyError Message :=
  match pb_spec.scalar_type with
  | none => .error .AttributeError
  | some scalar_type =>
    setattr
      { message.named pb_spec.name with type := some .TYPE_SCALAR, scalar_type := some scalar_type }
      scalar_type py_value

/-- The length of a string has 32 bits. -/
def PyString2PbString (message : Message) (pb_spec : PbSpec) : PyValue → Except PyError Message
  | .str bytes =>
    if bytes.length < 2 ^ 32 then
      .ok { message.named pb_spec.name with
        type := some .TYPE_STRING
        string_message := some bytes
        string_length := some bytes.length }
    else .error .ValueError
  | _ => .error .TypeError

/-- What `PyList2PbVector`, `PyDict2PbStruct` and `PyDict2PbUnion` do for a specification. -/
abbrev Filling := Message → PyValue → Except PyError Message

/-- One attribute of a struct or union, given what is done for it if it is a vector and for the
type that it names. Returns the new message, and whether the loop goes on. -/
def convertAttr (attr : PbSpec) (vector : Filling) (struct union : Option Filling)
    (curr_value : PyValue) : Except PyError (Message × Bool) :=
  match attr.type with
  | .TYPE_ENUM => (PyValue2PbEnum .empty attr curr_value).map (·, true)
  | .TYPE_SCALAR => (PyValue2PbScalar .empty attr curr_value).map (·, true)
  | .TYPE_STRING => (PyString2PbString .empty attr curr_value).map (·, true)
  | .TYPE_VECTOR => (vector .empty curr_value).map (·, true)
  | .TYPE_STRUCT =>
    match struct with
    | some fill => (fill .empty curr_value).map (·, true)
    | none => .ok (.empty, false)
  | .TYPE_UNION =>
    match union with
    | some fill => (fill .empty curr_value).map (·, true)
    | none => .ok (.empty, false)
  | _ => .ok (.empty, false)

/-- The loop over the values of a vector. -/
def convertItems (convert : PyValue → Except PyError (Option Message)) :
    List PyValue → Message → Except PyError Message
  | [], message => .ok message
  | curr_value :: rest, message =>
    match convert curr_value with
    | .error error => .error error
    | .ok none => .error .TypeError
    | .ok (some new_vector_message) =>
      convertItems convert rest (message.add .vector_value new_vector_message)

/-- `Convert(pb_spec, py_value)`, given what is done for a struct, a union and a vector. -/
def convertWith (pb_spec : PbSpec) (struct union vector : Filling) (py_value : PyValue) :
    Except PyError (Option Message) :=
  let message := { Message.empty with name := some pb_spec.name }
  match py_value with
  | .message value => .ok (some value)
  | _ =>
    match pb_spec.type with
    | .TYPE_STRUCT => (struct message py_value).map some
    | .TYPE_UNION => (union message py_value).map some
    | .TYPE_ENUM => (PyValue2PbEnum message pb_spec py_value).map some
    | .TYPE_SCALAR => (PyValue2PbScalar message pb_spec py_value).map some
    | .TYPE_STRING => (PyString2PbString message pb_spec py_value).map some
    | .TYPE_VECTOR => (vector message py_value).map some
    | _ => .ok none

mutual

def PyList2PbVector : PbSpec → Filling
  | ⟨name, _, _, _, _, vector_value, _, _, _, _⟩, message, py_value =>
    match py_value with
    | .list items =>
      let message := { message.named name with type := some .TYPE_VECTOR }
      if items.length = 0 then .ok message
      else
        match convertFirst vector_value with
        | none => .error .IndexError
        | some convert =>
          match convertItems convert items message with
          | .error error => .error error
          | .ok message =>
            if items.length < 2 ^ 31 then .ok { message with vector_size := some items.length }
            else .error .ValueError
    | _ => .error .TypeError

/-- `Convert(pb_spec.vector_value[0], …)`. -/
def convertFirst : List PbSpec → Option (PyValue → Except PyError (Option Message))
  | [] => none
  | vector_spec :: _ =>
    some (convertWith vector_spec (PyDict2PbStruct vector_spec) (PyDict2PbUnion vector_spec)
      (PyList2PbVector vector_spec))

def PyDict2PbStruct : PbSpec → Filling
  | ⟨name, _, _, _, _, _, struct_value, _, sub_struct, _⟩, message, py_value =>
    match py_value with
    | .dict entries =>
      -- Structs and unions among the attributes are both looked up in `sub_struct`.
      convertAttrs struct_value .struct_value (structIn sub_struct) (unionIn sub_struct) entries
        (entries.map (·.1)) { message.named name with type := some .TYPE_STRUCT }
    | _ => .error .AttributeError

def PyDict2PbUnion : PbSpec → Filling
  | ⟨name, _, _, _, _, _, _, union_value, _, sub_union⟩, message, py_value =>
    match py_value with
    | .dict entries =>
      if 1 < entries.length then .ok message
      else
        -- Structs and unions among the attributes are both looked up in `sub_union`.
        convertAttrs union_value .union_value (structIn sub_union) (unionIn sub_union) entries
          (entries.map (·.1)) { message.named name with type := some .TYPE_UNION }
    | _ => .error .TypeError

/-- The loops over the attributes. An attribute that is not provided ends the loop of a struct,
and is an empty message in a union. -/
def convertAttrs : List PbSpec → Repeated → (String → Option Filling) →
    (String → Option Filling) → List (String × PyValue) → List String → Message →
    Except PyError Message
  | [], _, _, _, _, _, message => .ok message
  | attr :: rest, kind, struct, union, entries, provided_attrs, message =>
    match entries.lookup attr.name with
    | none =>
      if kind = .union_value then
        convertAttrs rest kind struct union entries provided_attrs (message.add kind .empty)
      else .ok message
    | some curr_value =>
      if attr.name ∈ provided_attrs then
        match convertAttr attr (PyList2PbVector attr) (struct (attr.predefined_type.getD ""))
            (union (attr.predefined_type.getD "")) curr_value with
        | .error error => .error error
        | .ok (attr_msg, true) =>
          convertAttrs rest kind struct union entries (provided_attrs.erase attr.name)
            (message.add kind attr_msg)
        | .ok (attr_msg, false) => .ok (message.add kind attr_msg)
      else .error .KeyError

/-- `PyDict2PbStruct` for the type of a name, by `FindSubStructType` or `FindSubUnionType`. -/
def structIn : List PbSpec → String → Option Filling
  | [], _ => none
  | sub :: rest, name => if sub.name = name then some (PyDict2PbStruct sub) else structIn rest name

/-- `PyDict2PbUnion` for the type of a name, by `FindSubStructType` or `FindSubUnionType`. -/
def unionIn : List PbSpec → String → Option Filling
  | [], _ => none
  | sub :: rest, name => if sub.name = name then some (PyDict2PbUnion sub) else unionIn rest name

end

def Convert (pb_spec : PbSpec) (py_value : PyValue) : Except PyError (Option Message) :=
  convertWith pb_spec (PyDict2PbStruct pb_spec) (PyDict2PbUnion pb_spec) (PyList2PbVector pb_spec)
    py_value

/-- `FindSubStructType` and `FindSubUnionType`, on `sub_struct` and `sub_union`. -/
def FindSubType (subs : List PbSpec) (name : String) : Option PbSpec :=
  subs.find? fun sub => sub.name = name

theorem structIn_eq (subs : List PbSpec) (name : String) :
    structIn subs name = (FindSubType subs name).map PyDict2PbStruct := by
  induction subs with
  | nil => rw [structIn, FindSubType, List.find?_nil, Option.map_none]
  | cons sub subs ih =>
    rw [structIn, FindSubType, List.find?_cons]
    by_cases same : sub.name = name
    · simp [same]
    · simp only [same, if_false, decide_false]
      exact ih

theorem unionIn_eq (subs : List PbSpec) (name : String) :
    unionIn subs name = (FindSubType subs name).map PyDict2PbUnion := by
  induction subs with
  | nil => rw [unionIn, FindSubType, List.find?_nil, Option.map_none]
  | cons sub subs ih =>
    rw [unionIn, FindSubType, List.find?_cons]
    by_cases same : sub.name = name
    · simp [same]
    · simp only [same, if_false, decide_false]
      exact ih

end Vts.Vtsc
