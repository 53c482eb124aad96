import Vts.Lib.Ensures
import Vts.Vtsc.Pb2Py

/-!
# The arguments of a callback

`utils/python/mirror/pb2py.py`: how the host turns the message of an argument of a callback
into a Python value. `None` stands for a vector with elements of another type than it knows,
also inside of a struct. An array in a struct is asked for by a name that the generated module
does not have, so that it raises an exception; `PbArray2PyList` is never reached, nor is what
reads the predefined types, which carry no value.

Proved here: on which messages the decoder agrees with `GetPythonDataOfVariableSpecMsg`, which
decodes the results of calls. The messages are those of scalars, enumerations, strings,
vectors, arrays and structs nested to any depth, with the scalar types set and the members of
structs named.
-/

namespace Vts.Vtsc.Pb2py

open Vts.Lib

/-! ## The source -/

/-- A Python value that may be `None`, or have `None` in it. -/
inductive PyData where
  | none
  | int (value : Int)
  | str (bytes : List UInt8)
  | list (items : List PyData)
  | dict (entries : List (String × PyData))

/-- `getattr(var.scalar_value, var.scalar_type)`. -/
def scalarValue (var : Message) : Except PyError PyData :=
  match var.scalar_type with
  | none => .error .AttributeError
  | some scalar_type => .ok (.int ((var.scalar_value scalar_type).getD 0))

def PbEnum2PyValue (var : Message) : Except PyError PyData := scalarValue var

def PbMask2PyValue (var : Message) : Except PyError PyData := scalarValue var

def PbScalar2PyValue (var : Message) : Except PyError PyData := scalarValue var

def PbString2PyString (var : Message) : Except PyError PyData :=
  .ok (.str (var.string_message.getD []))

/-- The list, or `None` for an unsupported element. -/
def listOrNone : Option (List PyData) → PyData
  | none => .none
  | some items => .list items

mutual

def PbVector2PyList : Message → Except PyError PyData
  | ⟨_, _, _, _, _, _, vector_value, _, _, _, _⟩ => (vectorItems vector_value).map listOrNone

/-- The loop over the elements of a vector. -/
def vectorItems : List Message → Except PyError (Option (List PyData))
  | [] => .ok (some [])
  | curr_value :: rest =>
    match curr_value.type with
    | some .TYPE_SCALAR => do
      let value ← PbScalar2PyValue curr_value
      (vectorItems rest).map (Option.map (value :: ·))
    | some .TYPE_STRUCT => do
      let value ← PbStruct2PyDict curr_value
      (vectorItems rest).map (Option.map (value :: ·))
    | _ => .ok none

def PbStruct2PyDict : Message → Except PyError PyData
  | ⟨_, _, _, _, _, _, _, _, struct_value, _, _⟩ => (structEntries struct_value []).map .dict

/-- The loop over the members of a struct. -/
def structEntries : List Message → List (String × PyData) →
    Except PyError (List (String × PyData))
  | [], result => .ok result
  | attr :: rest, result => do
    let value ← match attr.type with
      | some .TYPE_ENUM => PbEnum2PyValue attr
      | some .TYPE_SCALAR => PbScalar2PyValue attr
      | some .TYPE_STRING => PbString2PyString attr
      | some .TYPE_VECTOR => PbVector2PyList attr
      | some .TYPE_STRUCT => PbStruct2PyDict attr
      -- `CompSpecMsg.TYPE_Array` does not exist.
      | _ => .error .AttributeError
    structEntries rest (store (attr.name.getD "") value result)

end

def Convert (var : Message) : Except PyError PyData :=
  match var.type with
  | some .TYPE_SCALAR => PbScalar2PyValue var
  | some .TYPE_VECTOR => PbVector2PyList var
  | some .TYPE_STRUCT => PbStruct2PyDict var
  | some .TYPE_ENUM => PbEnum2PyValue var
  | some .TYPE_STRING => PbString2PyString var
  | some .TYPE_MASK => PbMask2PyValue var
  | _ => .ok .none

/-! ## Messages and values -/

mutual

/-- A node with its scalar types set and the members of its structs named. -/
def Node : Message → Prop
  | ⟨_, type, _, scalar_type, _, _, vector_value, _, struct_value, _, _⟩ =>
    match type with
    | some .TYPE_SCALAR => scalar_type ≠ none
    | some .TYPE_ENUM => scalar_type ≠ none
    | some .TYPE_STRING => True
    | some .TYPE_VECTOR => Nodes vector_value
    | some .TYPE_ARRAY => Nodes vector_value
    | some .TYPE_STRUCT => Members struct_value
    | _ => False

def Nodes : List Message → Prop
  | [] => True
  | element :: rest => Node element ∧ Nodes rest

def Members : List Message → Prop
  | [] => True
  | attr :: rest => attr.name.getD "" ≠ "" ∧ Node attr ∧ Members rest

end

/-- The two values are equal: dictionaries if they have the same keys with equal values. -/
inductive SameData : PyData → PyValue → Prop
  | int (value : Int) : SameData (.int value) (.int value)
  | str (bytes : List UInt8) : SameData (.str bytes) (.str bytes)
  | list {items : List PyData} {others : List PyValue} (each : List.Forall₂ SameData items others) :
      SameData (.list items) (.list others)
  | dict {entries : List (String × PyData)} {others : List (String × PyValue)}
      (keys : ∀ key, entries.lookup key = none ↔ others.lookup key = none)
      (each : ∀ key value other, entries.lookup key = some value →
        others.lookup key = some other → SameData value other) :
      SameData (.dict entries) (.dict others)

/-- Both decoders return the same value. -/
def Agree (message : Message) : Prop :=
  ∃ data value, Convert message = .ok data ∧ GetPythonDataOfVariableSpecMsg message = .ok value ∧
    SameData data value

/-! ## The messages on which they agree -/

mutual

/-- As a member of a struct the message raises no exception: there is no array among the
members of structs, but for those behind an element that ends a vector. -/
def Decodes : Message → Prop
  | ⟨_, type, _, _, _, _, vector_value, _, struct_value, _, _⟩ =>
    match type with
    | some .TYPE_SCALAR => True
    | some .TYPE_ENUM => True
    | some .TYPE_STRING => True
    | some .TYPE_VECTOR => ElementsDecode vector_value
    | some .TYPE_STRUCT => MembersDecode struct_value
    | _ => False

def ElementsDecode : List Message → Prop
  | [] => True
  | element :: rest =>
    match element.type with
    | some .TYPE_SCALAR => ElementsDecode rest
    | some .TYPE_STRUCT => Decodes element ∧ ElementsDecode rest
    | _ => True

def MembersDecode : List Message → Prop
  | [] => True
  | attr :: rest => Decodes attr ∧ MembersDecode rest

end

mutual

/-- The message is no array, the elements of its vectors are scalars and structs, and so for
the members of its structs; but of members with one name only the last has to be like that, as
long as the others raise no exception. -/
def Supported : Message → Prop
  | ⟨_, type, _, _, _, _, vector_value, _, struct_value, _, _⟩ =>
    match type with
    | some .TYPE_SCALAR => True
    | some .TYPE_ENUM => True
    | some .TYPE_STRING => True
    | some .TYPE_VECTOR => ElementsSupported vector_value
    | some .TYPE_STRUCT => MembersSupported struct_value
    | _ => False

def ElementsSupported : List Message → Prop
  | [] => True
  | element :: rest =>
    (element.type = some .TYPE_SCALAR ∨ element.type = some .TYPE_STRUCT) ∧ Supported element ∧
      ElementsSupported rest

def MembersSupported : List Message → Prop
  | [] => True
  | attr :: rest =>
    Decodes attr ∧ (attr.name.getD "" ∉ rest.map (·.name.getD "") → Supported attr) ∧
      MembersSupported rest

end

/-! ## One member -/

/-- The value of a member of a struct. -/
def attrValue (attr : Message) : Except PyError PyData :=
  match attr.type with
  | some .TYPE_ENUM => PbEnum2PyValue attr
  | some .TYPE_SCALAR => PbScalar2PyValue attr
  | some .TYPE_STRING => PbString2PyString attr
  | some .TYPE_VECTOR => PbVector2PyList attr
  | some .TYPE_STRUCT => PbStruct2PyDict attr
  | _ => .error .AttributeError

theorem structEntries_cons (attr : Message) (rest : List Message)
    (result : List (String × PyData)) :
    structEntries (attr :: rest) result =
      attrValue attr >>= fun value =>
        structEntries rest (store (attr.name.getD "") value result) := by
  rw [structEntries, attrValue]
  split <;> rfl

/-- The types of the elements that a vector may have. -/
def Listed (element : Message) : Prop :=
  element.type = some .TYPE_SCALAR ∨ element.type = some .TYPE_STRUCT

theorem vectorItems_of_listed {element : Message} (listed : Listed element)
    (rest : List Message) :
    vectorItems (element :: rest) = attrValue element >>= fun value =>
      (vectorItems rest).map (Option.map (value :: ·)) := by
  rw [vectorItems, attrValue]
  rcases listed with scalar | struct
  · simp only [scalar]
  · simp only [struct]

theorem vectorItems_of_not_listed {element : Message} (other : ¬ Listed element)
    (rest : List Message) : vectorItems (element :: rest) = .ok none := by
  rw [vectorItems]
  split
  · exact absurd (Or.inl ‹_›) other
  · exact absurd (Or.inr ‹_›) other
  · rfl

theorem elementsDecode_of_listed {element : Message} (listed : Listed element)
    {rest : List Message} :
    ElementsDecode (element :: rest) ↔ Decodes element ∧ ElementsDecode rest := by
  rw [ElementsDecode]
  rcases listed with scalar | struct
  · obtain ⟨_, type, _⟩ := element
    cases scalar
    exact ⟨fun decode => ⟨trivial, decode⟩, And.right⟩
  · simp only [struct]

theorem elementsDecode_of_not_listed {element : Message} (other : ¬ Listed element)
    {rest : List Message} : ElementsDecode (element :: rest) := by
  rw [ElementsDecode]
  split
  · exact absurd (Or.inl ‹_›) other
  · exact absurd (Or.inr ‹_›) other
  · trivial

/-- Outside of structs the arrays and the other types are `None` instead. -/
theorem convert_eq {message : Message} {data : PyData} (notNone : data ≠ .none)
    (node : Node message) : Convert message = .ok data ↔ attrValue message = .ok data := by
  obtain ⟨_, type, _⟩ := message
  cases type with
  | none => cases node
  | some type =>
    cases type with
    | TYPE_ARRAY =>
      simp only [Convert, attrValue, Except.ok.injEq, reduceCtorEq, iff_false]
      exact notNone.symm
    | TYPE_UNION | TYPE_HANDLE | TYPE_MASK => cases node
    | _ => rfl

/-- Under one key two dictionaries have equal values, or none. -/
def SameAt (entries : List (String × PyData)) (others : List (String × PyValue)) (key : String) :
    Prop :=
  (entries.lookup key = none ∧ others.lookup key = none) ∨
    ∃ data value, entries.lookup key = some data ∧ others.lookup key = some value ∧
      SameData data value

theorem sameData_dict_iff {entries : List (String × PyData)}
    {others : List (String × PyValue)} :
    SameData (.dict entries) (.dict others) ↔ ∀ key, SameAt entries others key := by
  constructor
  · rintro (_ | _ | _ | ⟨keys, each⟩) key
    cases here : entries.lookup key with
    | none => exact Or.inl ⟨here, (keys key).mp here⟩
    | some data =>
      cases there : others.lookup key with
      | none =>
        rw [(keys key).mpr there] at here
        cases here
      | some value => exact Or.inr ⟨data, value, here, there, each key data value here there⟩
  · intro same
    refine .dict (fun key => ?_) (fun key data value here there => ?_)
    · rcases same key with ⟨here, there⟩ | ⟨data, value, here, there, _⟩
      · simp [here, there]
      · simp [here, there]
    · rcases same key with ⟨missing, _⟩ | ⟨_, _, isHere, isThere, equal⟩
      · rw [missing] at here
        cases here
      · cases here.symm.trans isHere
        cases there.symm.trans isThere
        exact equal

/-- After one value has been stored in each: equal values under its key, and as before under
all others. -/
theorem sameAt_store (entries : List (String × PyData)) (others : List (String × PyValue))
    (name : String) (data : PyData) (value : PyValue) (key : String) :
    SameAt (store name data entries) (dictSet name value others) key ↔
      if key = name then SameData data value else SameAt entries others key := by
  rw [SameAt, SameAt, lookup_store, lookup_dictSet]
  by_cases same : key = name
  · simp [same]
  · simp [same]

/-! ## Without exceptions -/

mutual

theorem decodes_iff : ∀ {message : Message}, Node message →
    (Decodes message ↔ ∃ data, attrValue message = .ok data)
  | ⟨_, type, _, _, _, _, vector_value, _, struct_value, _, _⟩, node => by
    cases type with
    | none => cases node
    | some type =>
      cases type with
      | TYPE_SCALAR | TYPE_ENUM =>
        rw [Node] at node
        obtain ⟨scalar_type, rfl⟩ := Option.ne_none_iff_exists'.mp node
        exact ⟨fun _ => ⟨_, rfl⟩, fun _ => trivial⟩
      | TYPE_STRING => exact ⟨fun _ => ⟨_, rfl⟩, fun _ => trivial⟩
      | TYPE_VECTOR =>
        rw [Node] at node
        rw [Decodes, elementsDecode_iff node, attrValue]
        dsimp only
        rw [PbVector2PyList]
        cases vectorItems vector_value <;> simp [Except.map]
      | TYPE_STRUCT =>
        rw [Node] at node
        rw [Decodes, membersDecode_iff node [], attrValue]
        dsimp only
        rw [PbStruct2PyDict]
        cases structEntries struct_value [] <;> simp [Except.map]
      | TYPE_ARRAY => simp [Decodes, attrValue]
      | TYPE_UNION | TYPE_HANDLE | TYPE_MASK => cases node

theorem elementsDecode_iff : ∀ {elements : List Message}, Nodes elements →
    (ElementsDecode elements ↔ ∃ items, vectorItems elements = .ok items)
  | [], _ => by simp [ElementsDecode, vectorItems]
  | element :: rest, ⟨node, nodes⟩ => by
    have further := elementsDecode_iff nodes
    by_cases listed : Listed element
    · rw [elementsDecode_of_listed listed, vectorItems_of_listed listed, decodes_iff node, further]
      simp only [bind_eq_ok_iff]
      constructor
      · rintro ⟨⟨data, read⟩, items, rest⟩
        exact ⟨items.map (data :: ·), data, read, by rw [rest]; rfl⟩
      · rintro ⟨_, data, read, rest⟩
        refine ⟨⟨data, read⟩, ?_⟩
        cases restRead : vectorItems _ with
        | error failure =>
          rw [restRead] at rest
          cases rest
        | ok items => exact ⟨items, rfl⟩
    · simp [elementsDecode_of_not_listed listed, vectorItems_of_not_listed listed]

theorem membersDecode_iff : ∀ {attrs : List Message}, Members attrs →
    ∀ result : List (String × PyData),
      (MembersDecode attrs ↔ ∃ entries, structEntries attrs result = .ok entries)
  | [], _, result => by simp [MembersDecode, structEntries]
  | attr :: rest, ⟨_, node, members⟩, result => by
    rw [MembersDecode, structEntries_cons, decodes_iff node]
    simp only [bind_eq_ok_iff]
    constructor
    · rintro ⟨⟨data, read⟩, decode⟩
      obtain ⟨entries, stored⟩ := (membersDecode_iff members _).mp decode
      exact ⟨entries, data, read, stored⟩
    · rintro ⟨entries, data, read, stored⟩
      exact ⟨⟨data, read⟩, (membersDecode_iff members _).mpr ⟨entries, stored⟩⟩

end

mutual

/-- The other decoder has a value for every node. -/
theorem node_value : ∀ {message : Message}, Node message →
    ∃ value, GetPythonDataOfVariableSpecMsg message = .ok value
  | ⟨_, type, _, _, _, _, vector_value, _, struct_value, _, _⟩, node => by
    cases type with
    | none => cases node
    | some type =>
      cases type with
      | TYPE_SCALAR | TYPE_ENUM =>
        rw [Node] at node
        obtain ⟨scalar_type, rfl⟩ := Option.ne_none_iff_exists'.mp node
        exact ⟨_, rfl⟩
      | TYPE_STRING => exact ⟨_, rfl⟩
      | TYPE_VECTOR | TYPE_ARRAY =>
        rw [Node] at node
        obtain ⟨values, read⟩ := nodes_values node
        rw [GetPythonDataOfVariableSpecMsg, read]
        exact ⟨_, rfl⟩
      | TYPE_STRUCT =>
        rw [Node] at node
        obtain ⟨entries, read⟩ := members_values node 1 []
        rw [GetPythonDataOfVariableSpecMsg, read]
        exact ⟨_, rfl⟩
      | TYPE_UNION | TYPE_HANDLE | TYPE_MASK => cases node

theorem nodes_values : ∀ {elements : List Message}, Nodes elements →
    ∃ values, dataOfElements elements = .ok values
  | [], _ => ⟨_, rfl⟩
  | element :: rest, ⟨node, nodes⟩ => by
    obtain ⟨value, read⟩ := node_value node
    obtain ⟨values, restRead⟩ := nodes_values nodes
    refine ⟨value :: values, ?_⟩
    rw [dataOfElements, read, restRead]
    rfl

theorem members_values : ∀ {attrs : List Message}, Members attrs →
    ∀ (index : Nat) (result : List (String × PyValue)),
      ∃ entries, dataOfParts attrs index result = .ok entries
  | [], _, _, result => ⟨result, rfl⟩
  | attr :: rest, ⟨_, node, members⟩, index, result => by
    obtain ⟨value, read⟩ := node_value node
    rw [dataOfParts, read]
    exact members_values members (index + 1) _

end

/-! ## Agreement -/

/-- The decoders agree on a member of a struct, or on an element of a vector. -/
def MemberAgrees (message : Message) : Prop :=
  ∃ data value, attrValue message = .ok data ∧
    GetPythonDataOfVariableSpecMsg message = .ok value ∧ SameData data value

theorem partKey_of_named {name : String} (named : name ≠ "") (index : Nat) :
    partKey name index = name := by
  have positive : 0 < name.length := by
    refine Nat.pos_of_ne_zero fun empty => named ?_
    exact String.length_eq_zero_iff.mp empty
  rw [partKey, if_pos positive]

theorem sameData_list_iff {result : Option (List PyData)} {others : List PyValue} :
    SameData (listOrNone result) (.list others) ↔
      ∃ items, result = some items ∧ List.Forall₂ SameData items others := by
  cases result with
  | none =>
    constructor
    · rintro ⟨⟩
    · rintro ⟨_, ⟨⟩, _⟩
  | some items =>
    constructor
    · rintro (_ | _ | each | _)
      exact ⟨items, rfl, each⟩
    · rintro ⟨_, ⟨⟩, each⟩
      exact .list each

theorem memberAgrees_vector {message : Message} (type : message.type = some .TYPE_VECTOR) :
    MemberAgrees message ↔ ∃ items others, vectorItems message.vector_value = .ok (some items) ∧
      dataOfElements message.vector_value = .ok others ∧ List.Forall₂ SameData items others := by
  obtain ⟨_, _, _⟩ := message
  cases type
  simp only [MemberAgrees, attrValue, PbVector2PyList, GetPythonDataOfVariableSpecMsg,
    map_eq_ok_iff]
  constructor
  · rintro ⟨_, _, ⟨result, decoded, rfl⟩, ⟨others, read, rfl⟩, same⟩
    obtain ⟨items, rfl, each⟩ := sameData_list_iff.mp same
    exact ⟨items, others, decoded, read, each⟩
  · rintro ⟨items, others, decoded, read, each⟩
    exact ⟨_, _, ⟨some items, decoded, rfl⟩, ⟨others, read, rfl⟩, .list each⟩

theorem memberAgrees_struct {message : Message} (type : message.type = some .TYPE_STRUCT) :
    MemberAgrees message ↔ ∃ entries others, structEntries message.struct_value [] = .ok entries ∧
      dataOfParts message.struct_value 1 [] = .ok others ∧ ∀ key, SameAt entries others key := by
  obtain ⟨_, _, _⟩ := message
  cases type
  simp only [MemberAgrees, attrValue, PbStruct2PyDict, GetPythonDataOfVariableSpecMsg,
    map_eq_ok_iff]
  constructor
  · rintro ⟨_, _, ⟨entries, decoded, rfl⟩, ⟨others, read, rfl⟩, same⟩
    exact ⟨entries, others, decoded, read, sameData_dict_iff.mp same⟩
  · rintro ⟨entries, others, decoded, read, same⟩
    exact ⟨_, _, ⟨entries, decoded, rfl⟩, ⟨others, read, rfl⟩, sameData_dict_iff.mpr same⟩

mutual

theorem supported_iff : ∀ {message : Message}, Node message →
    (Supported message ↔ MemberAgrees message)
  | ⟨_, type, _, _, _, _, vector_value, _, struct_value, _, _⟩, node => by
    cases type with
    | none => cases node
    | some type =>
      cases type with
      | TYPE_SCALAR | TYPE_ENUM =>
        rw [Node] at node
        obtain ⟨scalar_type, rfl⟩ := Option.ne_none_iff_exists'.mp node
        exact ⟨fun _ => ⟨_, _, rfl, rfl, .int _⟩, fun _ => trivial⟩
      | TYPE_STRING => exact ⟨fun _ => ⟨_, _, rfl, rfl, .str _⟩, fun _ => trivial⟩
      | TYPE_VECTOR =>
        rw [Node] at node
        rw [Supported, elementsSupported_iff node, memberAgrees_vector rfl]
      | TYPE_STRUCT =>
        rw [Node] at node
        rw [Supported, memberAgrees_struct rfl]
        have nothing : ∀ key, SameAt [] [] key := fun _ => Or.inl ⟨rfl, rfl⟩
        rw [← membersSupported_iff node 1 [] []]
        exact ⟨fun supported => ⟨supported, fun key _ => nothing key⟩, And.left⟩
      | TYPE_ARRAY => simp [Supported, MemberAgrees, attrValue]
      | TYPE_UNION | TYPE_HANDLE | TYPE_MASK => cases node

theorem elementsSupported_iff : ∀ {elements : List Message}, Nodes elements →
    (ElementsSupported elements ↔ ∃ items others, vectorItems elements = .ok (some items) ∧
      dataOfElements elements = .ok others ∧ List.Forall₂ SameData items others)
  | [], _ => by
    refine ⟨fun _ => ⟨[], [], ?_, ?_, .nil⟩, fun _ => trivial⟩
    · rw [vectorItems]
    · rw [dataOfElements]
  | element :: rest, ⟨node, nodes⟩ => by
    rw [ElementsSupported, supported_iff node, elementsSupported_iff nodes]
    constructor
    · rintro ⟨listed, ⟨data, value, decoded, read, same⟩, items, others, restDecoded, restRead,
        each⟩
      refine ⟨data :: items, value :: others, ?_, ?_, .cons same each⟩
      · rw [vectorItems_of_listed listed, decoded, restDecoded]
        rfl
      · rw [dataOfElements, read, restRead]
        rfl
    · rintro ⟨items, others, decoded, read, each⟩
      by_cases listed : Listed element
      · rw [vectorItems_of_listed listed] at decoded
        obtain ⟨data, ownDecoded, further⟩ := bind_eq_ok_iff.mp decoded
        obtain ⟨result, restDecoded, added⟩ := map_eq_ok_iff.mp further
        obtain ⟨restItems, rfl, rfl⟩ := Option.map_eq_some_iff.mp added
        obtain ⟨value, ownRead⟩ := node_value node
        rw [dataOfElements, ownRead] at read
        obtain ⟨restOthers, restRead, rfl⟩ := map_eq_ok_iff.mp read
        obtain ⟨same, restEach⟩ := List.forall₂_cons.mp each
        exact ⟨listed, ⟨data, value, ownDecoded, ownRead, same⟩, restItems, restOthers,
          restDecoded, restRead, restEach⟩
      · rw [vectorItems_of_not_listed listed] at decoded
        cases decoded

/-- Under the names of the members that are still to come it does not matter what is stored. -/
theorem membersSupported_iff : ∀ {attrs : List Message}, Members attrs →
    ∀ (index : Nat) (result : List (String × PyData)) (other : List (String × PyValue)),
      (MembersSupported attrs ∧
        ∀ key, key ∉ attrs.map (·.name.getD "") → SameAt result other key) ↔
      ∃ entries others, structEntries attrs result = .ok entries ∧
        dataOfParts attrs index other = .ok others ∧ ∀ key, SameAt entries others key
  | [], _, _, result, other => by
    simp [MembersSupported, structEntries, dataOfParts]
  | attr :: rest, ⟨named, node, members⟩, index, result, other => by
    obtain ⟨value, read⟩ := node_value node
    have supported : ∀ data, attrValue attr = .ok data → (Supported attr ↔ SameData data value) := by
      intro data decoded
      rw [supported_iff node]
      constructor
      · rintro ⟨_, _, isData, isValue, same⟩
        cases decoded.symm.trans isData
        cases read.symm.trans isValue
        exact same
      · exact fun same => ⟨data, value, decoded, read, same⟩
    rw [MembersSupported, decodes_iff node, structEntries_cons, dataOfParts, read]
    dsimp only
    rw [partKey_of_named named]
    simp only [bind_eq_ok_iff, List.map_cons, List.mem_cons, not_or]
    constructor
    · rintro ⟨⟨⟨data, decoded⟩, own, others⟩, same⟩
      obtain ⟨entries, values, stored, restRead, equal⟩ := (membersSupported_iff members (index + 1)
        (store (attr.name.getD "") data result) (dictSet (attr.name.getD "") value other)).mp
        ⟨others, fun key fresh => by
          rw [sameAt_store]
          split
          case isTrue isName => exact (supported data decoded).mp (own (isName ▸ fresh))
          case isFalse notName => exact same key ⟨notName, fresh⟩⟩
      exact ⟨entries, values, ⟨data, decoded, stored⟩, restRead, equal⟩
    · rintro ⟨entries, values, ⟨data, decoded, stored⟩, restRead, equal⟩
      obtain ⟨others, same⟩ := (membersSupported_iff members (index + 1)
        (store (attr.name.getD "") data result) (dictSet (attr.name.getD "") value other)).mpr
        ⟨entries, values, stored, restRead, equal⟩
      refine ⟨⟨⟨data, decoded⟩, fun fresh => ?_, others⟩, fun key fresh => ?_⟩
      · have own := same _ fresh
        rw [sameAt_store, if_pos rfl] at own
        exact (supported data decoded).mpr own
      · have before := same key fresh.2
        rw [sameAt_store, if_neg fresh.1] at before
        exact before

end

/-- The decoders return the same value of a node exactly if it is `Supported`. -/
theorem decoders_agree_iff (message : Message) (node : Node message) :
    Agree message ↔ Supported message := by
  rw [supported_iff node]
  constructor
  · rintro ⟨data, value, decoded, read, same⟩
    have notNone : data ≠ .none := by
      rintro rfl
      cases same
    exact ⟨data, value, (convert_eq notNone node).mp decoded, read, same⟩
  · rintro ⟨data, value, decoded, read, same⟩
    have notNone : data ≠ .none := by
      rintro rfl
      cases same
    exact ⟨data, value, (convert_eq notNone node).mpr decoded, read, same⟩

/-- A string, and an array with it. -/
def hello : Message :=
  { Message.empty with type := some .TYPE_STRING, string_message := some [104, 105] }

def arrayOfHello : Message :=
  { Message.empty with type := some .TYPE_ARRAY, vector_value := [hello] }

theorem decoders_agree_hello : Agree hello :=
  (decoders_agree_iff hello trivial).mpr trivial

/-- An array is `None` to a callback and a list to a caller. -/
theorem decoders_disagree_array : Node arrayOfHello ∧ ¬ Agree arrayOfHello := by
  refine ⟨⟨trivial, trivial⟩, ?_⟩
  rintro ⟨data, value, decoded, _, same⟩
  cases decoded
  cases same

end Vts.Vtsc.Pb2py
