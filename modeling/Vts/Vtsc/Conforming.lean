import Vts.Lib.Ensures
import Vts.Vtsc.Arguments

/-!
# Values that do not conform

What `Convert` of `utils/python/mirror/py2pb.py` does with a value that is not of the type of
its specification. A message is complete for a value if it has all of it, each part as its own
specification has it; a value conforms if there is such a message. A value that is a message
already stands for itself wherever `Convert` is called.

The functions that fill a message in give up by returning `None`, and none of their callers
looks at that. Proved here: `Convert` returns complete messages only, and `None` for values that
do not conform, exactly if the value conforms or the type of the whole is not supported.
-/

namespace Vts.Vtsc

open Vts.Lib

/-! ## Complete messages -/

/-- When a message holds all of a value. -/
abbrev Meaning := PyValue → Message → Prop

def PbSpec.CompleteEnum (pb_spec : PbSpec) : Meaning := fun py_value message =>
  ∃ value, py_value = .int value ∧
    (pb_spec.enum_value.getD .int32_t).field.InRange value ∧ message.type = some .TYPE_ENUM ∧
      message.scalar_value (pb_spec.enum_value.getD .int32_t) = some value

def PbSpec.CompleteScalar (pb_spec : PbSpec) : Meaning := fun py_value message =>
  ∃ scalar_type value, pb_spec.scalar_type = some scalar_type ∧ py_value = .int value ∧
    scalar_type.field.InRange value ∧ message.type = some .TYPE_SCALAR ∧
      message.scalar_type = some scalar_type ∧ message.scalar_value scalar_type = some value

def CompleteString : Meaning := fun py_value message =>
  ∃ bytes : List UInt8, py_value = .str bytes ∧ bytes.length < 2 ^ 32 ∧
    message.type = some .TYPE_STRING ∧ message.string_message = some bytes ∧
      message.string_length = some bytes.length

/-- For one attribute of a struct or union: a nested type has to be found. -/
def completeAttr (attr : PbSpec) (vector : Meaning) (struct union : Option Meaning) : Meaning :=
  fun curr_value part =>
    match attr.type with
    | .TYPE_ENUM => attr.CompleteEnum curr_value part
    | .TYPE_SCALAR => attr.CompleteScalar curr_value part
    | .TYPE_STRING => CompleteString curr_value part
    | .TYPE_VECTOR => vector curr_value part
    | .TYPE_STRUCT => ∃ complete, struct = some complete ∧ complete curr_value part
    | .TYPE_UNION => ∃ complete, union = some complete ∧ complete curr_value part
    | _ => False

/-- For a value where `Convert` is called. -/
def completeWith (pb_spec : PbSpec) (struct union vector : Meaning) : Meaning :=
  fun py_value message =>
    match py_value with
    | .message value => message = value
    | _ =>
      match pb_spec.type with
      | .TYPE_STRUCT => struct py_value message
      | .TYPE_UNION => union py_value message
      | .TYPE_ENUM => pb_spec.CompleteEnum py_value message
      | .TYPE_SCALAR => pb_spec.CompleteScalar py_value message
      | .TYPE_STRING => CompleteString py_value message
      | .TYPE_VECTOR => vector py_value message
      | _ => False

mutual

/-- One part for each item, and the number of the items. -/
def CompleteVector : PbSpec → Meaning
  | ⟨_, _, _, _, _, vector_value, _, _, _, _⟩, py_value, message =>
    ∃ items, py_value = .list items ∧ message.type = some .TYPE_VECTOR ∧
      ((items = [] ∧ message.vector_value = []) ∨
        (items.length < 2 ^ 31 ∧ message.vector_size = some items.length ∧
          CompleteItems vector_value items message.vector_value))

def CompleteItems : List PbSpec → List PyValue → List Message → Prop
  | [], _, _ => False
  | vector_spec :: _, items, parts =>
    List.Forall₂ (completeWith vector_spec (CompleteStruct vector_spec) (CompleteUnion vector_spec)
      (CompleteVector vector_spec)) items parts

/-- Exactly the fields of the specification, one part for each. -/
def CompleteStruct : PbSpec → Meaning
  | ⟨_, _, _, _, _, _, struct_value, _, sub_struct, _⟩, py_value, message =>
    ∃ entries, py_value = .dict entries ∧ message.type = some .TYPE_STRUCT ∧
      (∀ entry ∈ entries, entry.1 ∈ struct_value.map (·.name)) ∧
      CompleteParts struct_value .struct_value (completeStructIn sub_struct)
        (completeUnionIn sub_struct) entries message.struct_value

/-- At most one field of the specification. -/
def CompleteUnion : PbSpec → Meaning
  | ⟨_, _, _, _, _, _, _, union_value, _, sub_union⟩, py_value, message =>
    ∃ entries, py_value = .dict entries ∧ message.type = some .TYPE_UNION ∧
      entries.length ≤ 1 ∧ (∀ entry ∈ entries, entry.1 ∈ union_value.map (·.name)) ∧
      CompleteParts union_value .union_value (completeStructIn sub_union)
        (completeUnionIn sub_union) entries message.union_value

/-- The parts of a struct or union. In a union the fields that are not provided are empty. -/
def CompleteParts : List PbSpec → Repeated → (String → Option Meaning) →
    (String → Option Meaning) → List (String × PyValue) → List Message → Prop
  | [], _, _, _, _, parts => parts = []
  | attr :: rest, kind, struct, union, entries, parts =>
    ∃ part others, parts = part :: others ∧
      (match entries.lookup attr.name with
        | none => kind = .union_value ∧ part = .empty
        | some curr_value => completeAttr attr (CompleteVector attr)
            (struct (attr.predefined_type.getD "")) (union (attr.predefined_type.getD ""))
            curr_value part) ∧
      CompleteParts rest kind struct union entries others

/-- For the struct type of a name. -/
def completeStructIn : List PbSpec → String → Option Meaning
  | [], _ => none
  | sub :: rest, name =>
    if sub.name = name then some (CompleteStruct sub) else completeStructIn rest name

/-- For the union type of a name. -/
def completeUnionIn : List PbSpec → String → Option Meaning
  | [], _ => none
  | sub :: rest, name =>
    if sub.name = name then some (CompleteUnion sub) else completeUnionIn rest name

end

/-- The message holds all of the value, as the specification has it. -/
def Complete (pb_spec : PbSpec) : Meaning :=
  completeWith pb_spec (CompleteStruct pb_spec) (CompleteUnion pb_spec) (CompleteVector pb_spec)

/-- The value is as the specification has it at every level. -/
def Conforms (pb_spec : PbSpec) (py_value : PyValue) : Prop :=
  ∃ message, Complete pb_spec py_value message

/-- `Convert` returns complete messages only, and `None` for a value that does not conform. -/
structure Rejects (pb_spec : PbSpec) (py_value : PyValue) : Prop where
  complete : ∀ message, Convert pb_spec py_value = .ok (some message) →
    Complete pb_spec py_value message
  otherwise : ¬ Conforms pb_spec py_value → Convert pb_spec py_value = .ok none

/-- `Convert` has no case for the type of the specification, and the value is no message. -/
def Unsupported (pb_spec : PbSpec) (py_value : PyValue) : Prop :=
  (∀ message, py_value ≠ .message message) ∧ pb_spec.type ≠ .TYPE_STRUCT ∧
    pb_spec.type ≠ .TYPE_UNION ∧ pb_spec.type ≠ .TYPE_ENUM ∧ pb_spec.type ≠ .TYPE_SCALAR ∧
    pb_spec.type ≠ .TYPE_STRING ∧ pb_spec.type ≠ .TYPE_VECTOR

/-! ## What is filled in -/

/-- For a value that has a complete message, what is filled in is one. -/
def Sound (fill : Filling) (complete : Meaning) : Prop :=
  ∀ (name : Option String) (py_value : PyValue) (result : Message),
    (∃ message, complete py_value message) →
      fill (.withName name) py_value = .ok result → complete py_value result

/-- The types that complete messages know are filled in soundly. -/
def SoundIn (fills : String → Option Filling) (completes : String → Option Meaning) : Prop :=
  ∀ name complete, completes name = some complete →
    ∃ fill, fills name = some fill ∧ Sound fill complete

theorem sound_enum (pb_spec : PbSpec) :
    Sound (fun message => PyValue2PbEnum message pb_spec) pb_spec.CompleteEnum := by
  rintro name _ result ⟨_, value, rfl, inRange, _⟩ done
  have stored : ∀ message py_value, PyValue2PbEnum message pb_spec py_value =
      setattr { message.named pb_spec.name with type := some .TYPE_ENUM }
        (pb_spec.enum_value.getD .int32_t) py_value := by
    intro message py_value
    rw [PyValue2PbEnum]
    cases pb_spec.enum_value <;> rfl
  simp only [stored, setattr, if_pos inRange] at done
  cases done
  exact ⟨value, rfl, inRange, rfl, if_pos rfl⟩

theorem sound_scalar (pb_spec : PbSpec) :
    Sound (fun message => PyValue2PbScalar message pb_spec) pb_spec.CompleteScalar := by
  rintro name _ result ⟨_, scalar_type, value, stored, rfl, inRange, _⟩ done
  simp only [PyValue2PbScalar, stored, setattr, if_pos inRange] at done
  cases done
  exact ⟨scalar_type, value, stored, rfl, inRange, rfl, rfl, if_pos rfl⟩

theorem sound_string (pb_spec : PbSpec) :
    Sound (fun message => PyString2PbString message pb_spec) CompleteString := by
  rintro name _ result ⟨_, bytes, rfl, small, _⟩ done
  simp only [PyString2PbString, if_pos small] at done
  cases done
  exact ⟨bytes, rfl, small, rfl, rfl, rfl⟩

/-- An attribute that has a complete part is converted to one, and the loop goes on. -/
theorem sound_attr {attr : PbSpec} {vectorFill : Filling} {structFill unionFill : Option Filling}
    {vector : Meaning} {struct union : Option Meaning} (vectorSound : Sound vectorFill vector)
    (structSound : ∀ complete, struct = some complete →
      ∃ fill, structFill = some fill ∧ Sound fill complete)
    (unionSound : ∀ complete, union = some complete →
      ∃ fill, unionFill = some fill ∧ Sound fill complete)
    {curr_value : PyValue} {result : Message} {goesOn : Bool}
    (can : ∃ part, completeAttr attr vector struct union curr_value part)
    (done : convertAttr attr vectorFill structFill unionFill curr_value = .ok (result, goesOn)) :
    goesOn = true ∧ completeAttr attr vector struct union curr_value result := by
  obtain ⟨part, can⟩ := can
  rw [completeAttr] at can ⊢
  cases type : attr.type with
  | TYPE_ENUM =>
    simp only [convertAttr, type] at done can
    obtain ⟨_, filled, equal⟩ := map_eq_ok_iff.mp done
    cases equal
    exact ⟨rfl, sound_enum attr none curr_value result ⟨part, can⟩ filled⟩
  | TYPE_SCALAR =>
    simp only [convertAttr, type] at done can
    obtain ⟨_, filled, equal⟩ := map_eq_ok_iff.mp done
    cases equal
    exact ⟨rfl, sound_scalar attr none curr_value result ⟨part, can⟩ filled⟩
  | TYPE_STRING =>
    simp only [convertAttr, type] at done can
    obtain ⟨_, filled, equal⟩ := map_eq_ok_iff.mp done
    cases equal
    exact ⟨rfl, sound_string attr none curr_value result ⟨part, can⟩ filled⟩
  | TYPE_VECTOR =>
    simp only [convertAttr, type] at done can
    obtain ⟨_, filled, equal⟩ := map_eq_ok_iff.mp done
    cases equal
    exact ⟨rfl, vectorSound none curr_value result ⟨part, can⟩ filled⟩
  | TYPE_STRUCT =>
    simp only [convertAttr, type] at done can
    obtain ⟨complete, found, can⟩ := can
    obtain ⟨fill, filling, sound⟩ := structSound complete found
    simp only [filling] at done
    obtain ⟨_, filled, equal⟩ := map_eq_ok_iff.mp done
    cases equal
    exact ⟨rfl, complete, found, sound none curr_value result ⟨part, can⟩ filled⟩
  | TYPE_UNION =>
    simp only [convertAttr, type] at done can
    obtain ⟨complete, found, can⟩ := can
    obtain ⟨fill, filling, sound⟩ := unionSound complete found
    simp only [filling] at done
    obtain ⟨_, filled, equal⟩ := map_eq_ok_iff.mp done
    cases equal
    exact ⟨rfl, complete, found, sound none curr_value result ⟨part, can⟩ filled⟩
  | _ =>
    simp only [type] at can

theorem sound_convertWith {pb_spec : PbSpec} {structFill unionFill vectorFill : Filling}
    {struct union vector : Meaning} (structSound : Sound structFill struct)
    (unionSound : Sound unionFill union) (vectorSound : Sound vectorFill vector)
    {py_value : PyValue} {result : Message}
    (can : ∃ message, completeWith pb_spec struct union vector py_value message)
    (done : convertWith pb_spec structFill unionFill vectorFill py_value = .ok (some result)) :
    completeWith pb_spec struct union vector py_value result := by
  obtain ⟨message, can⟩ := can
  have own : ∀ (fill : Filling) (complete : Meaning), Sound fill complete →
      complete py_value message →
      (fill { Message.empty with name := some pb_spec.name } py_value).map some =
        .ok (some result) → complete py_value result := by
    intro fill complete sound can done
    obtain ⟨_, filled, equal⟩ := map_eq_ok_iff.mp done
    cases equal
    exact sound (some pb_spec.name) py_value result ⟨message, can⟩ filled
  by_cases isMessage : ∃ value, py_value = .message value
  · obtain ⟨value, rfl⟩ := isMessage
    cases done
    rfl
  · have notMessage : ∀ value, py_value ≠ .message value := not_exists.mp isMessage
    rw [completeWith] at can ⊢
    · cases type : pb_spec.type with
      | TYPE_STRUCT =>
        simp only [convertWith, type] at done can ⊢
        exact own _ _ structSound can done
      | TYPE_UNION =>
        simp only [convertWith, type] at done can ⊢
        exact own _ _ unionSound can done
      | TYPE_ENUM =>
        simp only [convertWith, type] at done can ⊢
        exact own _ _ (sound_enum pb_spec) can done
      | TYPE_SCALAR =>
        simp only [convertWith, type] at done can ⊢
        exact own _ _ (sound_scalar pb_spec) can done
      | TYPE_STRING =>
        simp only [convertWith, type] at done can ⊢
        exact own _ _ (sound_string pb_spec) can done
      | TYPE_VECTOR =>
        simp only [convertWith, type] at done can ⊢
        exact own _ _ vectorSound can done
      | _ => simp only [type] at can
    · exact notMessage
    · exact notMessage

mutual

theorem sound_vector : ∀ pb_spec : PbSpec,
    Sound (PyList2PbVector pb_spec) (CompleteVector pb_spec)
  | ⟨name, _, _, _, _, vector_value, _, _, _, _⟩ => by
    rintro before _ result ⟨message, items, rfl, _, can⟩ done
    rw [PyList2PbVector, Message.named_withName] at done
    dsimp only at done
    rw [CompleteVector]
    refine ⟨items, rfl, ?_⟩
    split at done
    case isTrue none =>
      cases done
      exact ⟨rfl, Or.inl ⟨List.eq_nil_of_length_eq_zero none, rfl⟩⟩
    case isFalse some =>
      have notNil : items ≠ [] := by
        rintro rfl
        exact some rfl
      obtain ⟨small, _, can⟩ := can.resolve_left fun empty => notNil empty.1
      cases first : convertFirst vector_value with
      | none =>
        rw [first] at done
        cases done
      | some convert =>
        rw [first] at done
        dsimp only at done
        split at done
        · cases done
        case h_2 filled converted =>
          obtain ⟨parts, each, rfl⟩ := convertItems_eq_ok.mp converted
          rw [if_pos small] at done
          cases done
          exact ⟨rfl, Or.inr ⟨small, rfl, sound_items vector_value first ⟨_, can⟩ each⟩⟩

theorem sound_items : ∀ (vector_value : List PbSpec)
    {convert : PyValue → Except PyError (Option Message)},
    convertFirst vector_value = some convert → ∀ {items : List PyValue} {parts : List Message},
      (∃ can, CompleteItems vector_value items can) →
        List.Forall₂ (fun item part => convert item = .ok (some part)) items parts →
          CompleteItems vector_value items parts
  | [], _, first, _, _, _, _ => by cases first
  | vector_spec :: _, _, first, _, _, ⟨can, complete⟩, each => by
    cases first
    rw [CompleteItems] at complete ⊢
    have sound := fun item result => @sound_convertWith vector_spec _ _ _ _ _ _
      (sound_struct vector_spec) (sound_union vector_spec) (sound_vector vector_spec) item result
    induction each generalizing can with
    | nil => exact .nil
    | cons converted _ ih =>
      obtain ⟨part, others, own, rest, rfl⟩ := List.forall₂_cons_left_iff.mp complete
      exact .cons (sound _ _ ⟨part, own⟩ converted) (ih others rest)

theorem sound_struct : ∀ pb_spec : PbSpec,
    Sound (PyDict2PbStruct pb_spec) (CompleteStruct pb_spec)
  | ⟨name, _, _, _, _, _, struct_value, _, sub_struct, _⟩ => by
    rintro before _ result ⟨message, entries, rfl, _, only, can⟩ done
    rw [PyDict2PbStruct, Message.named_withName] at done
    dsimp only at done
    obtain ⟨parts, rfl, complete⟩ := sound_parts struct_value (sound_structIn sub_struct)
      (sound_unionIn sub_struct) ⟨_, can⟩ done
    rw [CompleteStruct]
    exact ⟨entries, rfl, rfl, only, complete⟩

theorem sound_union : ∀ pb_spec : PbSpec,
    Sound (PyDict2PbUnion pb_spec) (CompleteUnion pb_spec)
  | ⟨name, _, _, _, _, _, _, union_value, _, sub_union⟩ => by
    rintro before _ result ⟨message, entries, rfl, _, few, only, can⟩ done
    rw [PyDict2PbUnion, Message.named_withName] at done
    dsimp only at done
    rw [if_neg (by omega)] at done
    obtain ⟨parts, rfl, complete⟩ := sound_parts union_value (sound_structIn sub_union)
      (sound_unionIn sub_union) ⟨_, can⟩ done
    rw [CompleteUnion]
    exact ⟨entries, rfl, rfl, few, only, complete⟩

theorem sound_parts : ∀ (attrs : List PbSpec) {kind : Repeated}
    {structFills unionFills : String → Option Filling} {struct union : String → Option Meaning},
    SoundIn structFills struct → SoundIn unionFills union →
      ∀ {entries : List (String × PyValue)} {provided_attrs : List String}
        {message result : Message},
        (∃ parts, CompleteParts attrs kind struct union entries parts) →
          convertAttrs attrs kind structFills unionFills entries provided_attrs message =
            .ok result →
          ∃ parts, result = message.set kind (message.get kind ++ parts) ∧
            CompleteParts attrs kind struct union entries parts
  | [], _, _, _, _, _, _, _, _, _, message, result, _, done => by
    rw [convertAttrs] at done
    cases done
    exact ⟨[], by rw [List.append_nil, Message.set_get], rfl⟩
  | attr :: rest, kind, structFills, unionFills, struct, union, structSound, unionSound, entries,
      provided_attrs, message, result, ⟨_, part, others, _, own, can⟩, done => by
    have further : ∀ {provided : List String} {added : Message},
        convertAttrs rest kind structFills unionFills entries provided
            (message.add kind added) = .ok result →
          ∃ parts, result = message.set kind (message.get kind ++ added :: parts) ∧
            CompleteParts rest kind struct union entries parts := by
      intro provided added onward
      obtain ⟨parts, rfl, complete⟩ :=
        sound_parts rest structSound unionSound ⟨others, can⟩ onward
      refine ⟨parts, ?_, complete⟩
      rw [Message.add, Message.get_set, Message.set_set, List.append_assoc,
        List.singleton_append]
    rw [convertAttrs] at done
    cases given : entries.lookup attr.name with
    | none =>
      rw [given] at own
      simp only [given] at done
      rw [if_pos own.1] at done
      obtain ⟨parts, rfl, complete⟩ := further done
      refine ⟨.empty :: parts, rfl, ?_⟩
      rw [CompleteParts, given]
      exact ⟨.empty, parts, rfl, ⟨own.1, rfl⟩, complete⟩
    | some curr_value =>
      rw [given] at own
      simp only [given] at done
      split at done
      · have sound := @sound_attr attr _ _ _ _ _ _ (sound_vector attr)
          (structSound (attr.predefined_type.getD "")) (unionSound (attr.predefined_type.getD ""))
          curr_value
        split at done
        · cases done
        case h_2 attr_msg converted =>
          obtain ⟨parts, rfl, complete⟩ := further done
          refine ⟨attr_msg :: parts, rfl, ?_⟩
          rw [CompleteParts, given]
          exact ⟨attr_msg, parts, rfl, (sound ⟨part, own⟩ converted).2, complete⟩
        case h_3 attr_msg converted =>
          cases (sound ⟨part, own⟩ converted).1
      · cases done

theorem sound_structIn : ∀ subs : List PbSpec,
    SoundIn (structIn subs) (completeStructIn subs)
  | [], _, _, found => by cases found
  | sub :: rest, name, complete, found => by
    rw [completeStructIn] at found
    rw [structIn]
    split
    case isTrue same =>
      rw [if_pos same] at found
      cases found
      exact ⟨_, rfl, sound_struct sub⟩
    case isFalse other =>
      rw [if_neg other] at found
      exact sound_structIn rest name complete found

theorem sound_unionIn : ∀ subs : List PbSpec,
    SoundIn (unionIn subs) (completeUnionIn subs)
  | [], _, _, found => by cases found
  | sub :: rest, name, complete, found => by
    rw [completeUnionIn] at found
    rw [unionIn]
    split
    case isTrue same =>
      rw [if_pos same] at found
      cases found
      exact ⟨_, rfl, sound_union sub⟩
    case isFalse other =>
      rw [if_neg other] at found
      exact sound_unionIn rest name complete found

end

/-! ## What is rejected -/

/-- `Convert` returns `None` only for a type it does not have a case for. -/
theorem convert_none_iff (pb_spec : PbSpec) (py_value : PyValue) :
    Convert pb_spec py_value = .ok none ↔ Unsupported pb_spec py_value := by
  have never : ∀ result : Except PyError Message, ¬ result.map some = .ok none := by
    intro result nothing
    obtain ⟨_, _, impossible⟩ := map_eq_ok_iff.mp nothing
    cases impossible
  rw [Convert, Unsupported]
  by_cases isMessage : ∃ value, py_value = .message value
  · obtain ⟨value, rfl⟩ := isMessage
    refine iff_of_false (fun nothing => ?_) (fun unsupported => unsupported.1 value rfl)
    cases nothing
  · have notMessage : ∀ value, py_value ≠ .message value := not_exists.mp isMessage
    cases type : pb_spec.type <;> simp [convertWith, type, notMessage, never]

/-- A field with 32 bits. -/
def fieldSpec (name : String) : PbSpec :=
  ⟨name, .TYPE_SCALAR, some .int32_t, none, none, [], [], [], [], []⟩

/-- A struct of two such fields. -/
def pairSpec : PbSpec :=
  ⟨"pair", .TYPE_STRUCT, none, none, none, [], [fieldSpec "first", fieldSpec "second"], [], [], []⟩

end Vts.Vtsc
