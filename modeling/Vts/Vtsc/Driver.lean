import Mathlib.Data.List.Nodup
import Vts.Vtsc.Emitted

/-!
# The driver: from messages to variables

`GenerateDriverImplForTypedVariable` and `GenerateDriverImplForAttribute` of
`compilation_tools/vtsc/code_gen/driver/HalHidlCodeGen.cpp`, which emit the code that assigns
an argument from a message. The code for a struct reads the messages of its fields by
position, that for a predefined union asks each message for its name, and loops go over the
messages that are there.

Proved here: the emitted code does what `decode` does, a function on the message and the
value that the variable held before; every index it has means the loop it was emitted for;
and what it assigns is of the type of the variable.
-/

namespace Vts.Vtsc

open Vts.Lib Children List

/-- `ClearStringWithNameSpaceAccess(str)`. -/
def ClearStringWithNameSpaceAccess (str : String) : String := str.replace "::" "__"

/-- The name of the index of the loop over a place. -/
def indexName (arg_name : Place) : String := GetVarString arg_name.text ++ "_index"

mutual

/-- `GenerateDriverImplForTypedVariable(val, arg_name, arg_value_name)`. The functions that
are called are those of `GenerateDriverImplForAttribute`. -/
def GenerateDriverImplForTypedVariable : Spec → Place → MessageExpr → ReadCode
  | .scalar scalar_type, arg_name, arg_value_name =>
    .assign_scalar arg_name arg_value_name scalar_type
  | .string, arg_name, arg_value_name => .assign_string arg_name arg_value_name
  | .enum predefined_type scalar_type, arg_name, arg_value_name =>
    .call ("MessageTo" ++ ClearStringWithNameSpaceAccess predefined_type) arg_value_name arg_name
      (.assign_scalar (.var "*arg") (.var "var_msg") scalar_type)
  | .mask scalar_type, arg_name, arg_value_name =>
    .assign_scalar arg_name arg_value_name scalar_type
  | .vector vector_value, arg_name, arg_value_name =>
    .seq (.resize arg_name arg_value_name vector_value)
      (.loop (indexName arg_name) arg_name arg_value_name
        (GenerateDriverImplForTypedVariable vector_value (.index arg_name (indexName arg_name))
          (.vector_value arg_value_name (indexName arg_name))))
  | .array _ vector_value, arg_name, arg_value_name =>
    .loop (indexName arg_name) arg_name arg_value_name
      (GenerateDriverImplForTypedVariable vector_value (.index arg_name (indexName arg_name))
        (.vector_value arg_value_name (indexName arg_name)))
  | .struct (some predefined_type) struct_value, arg_name, arg_value_name =>
    .call ("MessageTo" ++ ClearStringWithNameSpaceAccess predefined_type) arg_value_name arg_name
      (GenerateDriverImplForFields struct_value false (.arrow "arg")
        (.struct_value (.var "var_msg")) 0)
  | .struct none struct_value, arg_name, arg_value_name =>
    GenerateDriverImplForFields struct_value false (.dot arg_name) (.struct_value arg_value_name) 0
  | .union (some predefined_type) union_value, arg_name, arg_value_name =>
    .call ("MessageTo" ++ ClearStringWithNameSpaceAccess predefined_type) arg_value_name arg_name
      (GenerateDriverImplForFields union_value true (.arrow "arg")
        (.union_value (.var "var_msg")) 0)
  | .union none union_value, arg_name, arg_value_name =>
    GenerateDriverImplForFields union_value false (.dot arg_name) (.union_value arg_value_name) 0
  | .handle, arg_name, arg_value_name => .assign_handle arg_name arg_value_name

/-- The loops over the fields. Those of a predefined union are only read from messages with
their names. -/
def GenerateDriverImplForFields : Fields → Bool → (String → Place) → (Nat → MessageExpr) → Nat →
    ReadCode
  | .nil, _, _, _, _ => .skip
  | .cons name field rest, named, member, message, index =>
    let code := GenerateDriverImplForTypedVariable field (member name) (message index)
    .seq (if named then .if_name (message index) name code else code)
      (GenerateDriverImplForFields rest named member message (index + 1))

end

/-! ## What the code does -/

/-- Assigns the part of a value behind a step, from a message if it is there. -/
def decodeAt (decodeOne : Option Message → Value → Except Fault Value) (step : Access)
    (part : Option Message) (object : Value) : Except Fault Value :=
  match object.access step with
  | none => .error .outOfRange
  | some present =>
    match decodeOne part present with
    | .error fault => .error fault
    | .ok new => .ok (object.assign step new)

/-- The loop over the messages of the elements. -/
def decodeElements (decodeOne : Option Message → Value → Except Fault Value) (message : Message)
    (object : Value) : Except Fault Value :=
  countUp .indexOverflow (fun _ => .ok message.vector_value.length)
    (fun count => decodeAt decodeOne (.element count) message.vector_value[count]?)
    indices 0 object

/-- Whether the message of a field is asked for its name, and has another one. -/
def passesOver (named : Bool) (name : String) (part : Option Message) : Except Fault Bool :=
  if named then
    match part with
    | none => .error .outOfRange
    | some part => .ok (part.name.getD "" != name)
  else .ok false

mutual

/-- The value that a variable of a type has after the code, from the message, if it is there,
and the value before. -/
def decode (device : Device) : Spec → Option Message → Value → Except Fault Value
  | .scalar scalar_type, some message, _ =>
    .ok (.scalar (scalar_type.convert ((message.scalar_value scalar_type).getD 0)))
  | .string, some message, _ => .ok (.string (message.string_message.getD []))
  | .mask scalar_type, some message, _ =>
    .ok (.scalar (scalar_type.convert ((message.scalar_value scalar_type).getD 0)))
  | .enum _ scalar_type, some message, _ =>
    .ok (.scalar (scalar_type.convert ((message.scalar_value scalar_type).getD 0)))
  | .vector vector_value, some message, .list elements =>
    decodeElements (decode device vector_value) message
      (.list (resized device vector_value message.vector_value.length elements))
  | .vector _, some _, _ => .error .notOfType
  | .array _ vector_value, some message, object =>
    decodeElements (decode device vector_value) message object
  | .struct (some _) struct_value, some message, object =>
    decodeFields device struct_value false .struct_value 0 (some message) object
  | .struct none struct_value, message, object =>
    decodeFields device struct_value false .struct_value 0 message object
  | .union (some _) union_value, some message, object =>
    decodeFields device union_value true .union_value 0 (some message) object
  | .union none union_value, message, object =>
    decodeFields device union_value false .union_value 0 message object
  | .handle, some message, _ => (makeHandle device message.handle_value).map .handle
  | _, none, _ => .error .outOfRange

/-- The same for the fields from a position on. -/
def decodeFields (device : Device) : Fields → Bool → Repeated → Nat → Option Message → Value →
    Except Fault Value
  | .nil, _, _, _, _, object => .ok object
  | .cons name field rest, named, kind, index, message, object =>
    let part := message.bind fun message => (message.get kind)[index]?
    match passesOver named name part with
    | .error fault => .error fault
    | .ok true => decodeFields device rest named kind (index + 1) message object
    | .ok false =>
      (decodeAt (decode device field) (.member name) part object).bind fun next =>
        decodeFields device rest named kind (index + 1) message next

end

/-! ## Values of the type -/

mutual

/-- Members of one struct or union have different names. -/
def Spec.WellFormed : Spec → Prop
  | .vector vector_value => vector_value.WellFormed
  | .array _ vector_value => vector_value.WellFormed
  | .struct _ struct_value => struct_value.names.Nodup ∧ struct_value.WellFormed
  | .union _ union_value => union_value.names.Nodup ∧ union_value.WellFormed
  | _ => True

def Fields.WellFormed : Fields → Prop
  | .nil => True
  | .cons _ field rest => field.WellFormed ∧ rest.WellFormed

end

/-- A field of a given name and type is there. -/
def Fields.Has : Fields → String → Spec → Prop
  | .nil, _, _ => False
  | .cons other type rest, name, field => (other = name ∧ type = field) ∨ rest.Has name field

theorem Fields.Has.mem_names {fields : Fields} {name : String} {field : Spec}
    (has : fields.Has name field) : name ∈ fields.names := by
  match fields with
  | .nil => cases has
  | .cons other type rest =>
    rcases has with ⟨rfl, _⟩ | later
    · exact mem_cons_self
    · exact mem_cons_of_mem _ later.mem_names

theorem Fields.Hold.lookup {fields : Fields} {members : List (String × Value)} {name : String}
    {field : Spec} (hold : fields.Hold members) (distinct : fields.names.Nodup)
    (has : fields.Has name field) :
    ∃ value, members.lookup name = some value ∧ field.Holds value := by
  match fields with
  | .nil => cases has
  | .cons other type rest =>
    obtain ⟨value, others, rfl, holds, further⟩ := hold
    obtain ⟨new, distinctRest⟩ := nodup_cons.mp distinct
    rcases has with ⟨rfl, rfl⟩ | later
    · exact ⟨value, lookup_cons_self, holds⟩
    · have different : (name == other) = false := by
        refine beq_eq_false_iff_ne.mpr ?_
        rintro rfl
        exact new later.mem_names
      obtain ⟨found, there, holdsFound⟩ := further.lookup distinctRest later
      refine ⟨found, ?_, holdsFound⟩
      rw [lookup_cons, different]
      exact there

theorem Fields.Hold.setMember {fields : Fields} {members : List (String × Value)} {name : String}
    {field : Spec} {new : Value} (hold : fields.Hold members) (distinct : fields.names.Nodup)
    (has : fields.Has name field) (holds : field.Holds new) :
    fields.Hold (Value.setMember name new members) := by
  match fields with
  | .nil => cases has
  | .cons other type rest =>
    obtain ⟨value, others, rfl, holdsValue, further⟩ := hold
    obtain ⟨fresh, distinctRest⟩ := nodup_cons.mp distinct
    rcases has with ⟨rfl, rfl⟩ | later
    · refine ⟨new, others, ?_, holds, further⟩
      simp [Value.setMember]
    · have different : name ≠ other := by
        rintro rfl
        exact fresh later.mem_names
      refine ⟨value, Value.setMember name new others, ?_, holdsValue,
        further.setMember distinctRest later holds⟩
      simp [Value.setMember, different]

/-- New elements of vectors are of the type of the elements. -/
def Device.Typed (device : Device) : Prop := ∀ spec : Spec, spec.Holds (device.fresh spec)

theorem ScalarType.convert_inRange (scalar_type : ScalarType) (value : Int) :
    scalar_type.InRange (scalar_type.convert value) := by
  have positive : 0 < scalar_type.size := by cases scalar_type <;> decide
  have above := Int.emod_nonneg (value - scalar_type.least) (by omega : scalar_type.size ≠ 0)
  have below := Int.emod_lt_of_pos (value - scalar_type.least) positive
  unfold InRange convert
  omega

/-- The elements are so many values of a type. -/
def ElementsHold (element : Spec) (size : Nat) (object : Value) : Prop :=
  ∃ elements, object = .list elements ∧ elements.length = size ∧
    ∀ value ∈ elements, element.Holds value

theorem ElementsHold.access {element : Spec} {size index : Nat} {object : Value}
    (held : ElementsHold element size object) (inside : index < size) :
    ∃ present, object.access (.element index) = some present ∧ element.Holds present := by
  obtain ⟨elements, rfl, rfl, all⟩ := held
  exact ⟨elements[index], List.getElem?_eq_getElem inside, all _ (getElem_mem inside)⟩

theorem ElementsHold.assign {element : Spec} {size index : Nat} {object new : Value}
    (held : ElementsHold element size object) (holds : element.Holds new) :
    ElementsHold element size (object.assign (.element index) new) := by
  obtain ⟨elements, rfl, rfl, all⟩ := held
  refine ⟨elements.set index new, rfl, length_set, ?_⟩
  intro value listed
  rcases mem_or_eq_of_mem_set listed with old | rfl
  · exact all value old
  · exact holds

variable {device : Device} {element : Spec}
  {decodeOne : Option Message → Value → Except Fault Value} {object : Value} {message : Message}
  {loops : List (String × Nat)} {steps : List (Repeated × Nat)} {arg_value_name : MessageExpr}

theorem resized_elementsHold (typed : device.Typed) {elements : List Value}
    (all : ∀ value ∈ elements, element.Holds value) (size : Nat) :
    ElementsHold element size (.list (resized device element size elements)) := by
  refine ⟨_, rfl, ?_, ?_⟩
  · unfold resized
    rw [length_append, length_take, length_replicate]
    omega
  · intro value listed
    rcases mem_append.mp listed with kept | new
    · exact all value (mem_of_mem_take kept)
    · rw [eq_of_mem_replicate new]
      exact typed element

theorem decodeAt_eq_ok {step : Access} {part : Option Message} {next : Value}
    (done : decodeAt decodeOne step part object = .ok next) :
    ∃ present new, object.access step = some present ∧ decodeOne part present = .ok new ∧
      next = object.assign step new := by
  unfold decodeAt at done
  cases found : object.access step with
  | none =>
    rw [found] at done
    cases done
  | some present =>
    rw [found] at done
    dsimp only at done
    cases decoded : decodeOne part present with
    | error fault =>
      rw [decoded] at done
      cases done
    | ok new =>
      rw [decoded] at done
      cases done
      exact ⟨present, new, rfl, decoded, rfl⟩

theorem ElementsHold.decodeAt (one : ∀ part present new, element.Holds present →
      decodeOne part present = .ok new → element.Holds new) {part : Option Message}
    {size count : Nat} {next : Value} (held : ElementsHold element size object)
    (done : decodeAt decodeOne (.element count) part object = .ok next) :
    ElementsHold element size next := by
  obtain ⟨present, new, found, decoded, rfl⟩ := decodeAt_eq_ok done
  refine held.assign (one part present new ?_ decoded)
  obtain ⟨elements, rfl, _, all⟩ := held
  exact all present (mem_of_getElem? found)

theorem decodeElements_holds (one : ∀ part present new, element.Holds present →
      decodeOne part present = .ok new → element.Holds new) {size : Nat} {last : Value}
    (held : ElementsHold element size object)
    (done : decodeElements decodeOne message object = .ok last) :
    ElementsHold element size last ∧ message.vector_value.length < indices := by
  have kept := countUp_preserves (fun _ => rfl)
    (fun _ _ _ _ held done => ElementsHold.decodeAt one held done) held done
  rwa [Nat.zero_add] at kept

mutual

/-- What is assigned is of the type of the variable. -/
theorem decode_holds {device : Device} (typed : device.Typed) :
    ∀ (spec : Spec), spec.WellFormed → ∀ (message : Option Message) (object last : Value),
      spec.Holds object → decode device spec message object = .ok last → spec.Holds last
  | .scalar scalar_type, _, message, object, last, held, done
  | .mask scalar_type, _, message, object, last, held, done
  | .enum _ scalar_type, _, message, object, last, held, done => by
    cases message with
    | none => cases done
    | some message =>
      cases done
      exact scalar_type.convert_inRange _
  | .string, _, message, object, last, held, done => by
    cases message with
    | none => cases done
    | some message =>
      cases done
      trivial
  | .vector vector_value, formed, message, object, last, held, done => by
    cases message with
    | none => cases done
    | some message =>
      cases object with
      | list elements =>
        obtain ⟨⟨result, rfl, size, all⟩, small⟩ := decodeElements_holds
          (fun part present new => decode_holds typed vector_value formed part present new)
          (resized_elementsHold typed held.2 message.vector_value.length) done
        exact ⟨by rw [size]; unfold indices at small; omega, all⟩
      | scalar | string | record | handle => exact held.elim
  | .array vector_size vector_value, formed, message, object, last, held, done => by
    cases message with
    | none => cases done
    | some message =>
      cases object with
      | list elements =>
        obtain ⟨⟨result, rfl, size, all⟩, _⟩ := decodeElements_holds
          (fun part present new => decode_holds typed vector_value formed part present new)
          ⟨elements, rfl, held.1, held.2⟩ done
        exact ⟨size, all⟩
      | scalar | string | record | handle => exact held.elim
  | .struct predefined_type struct_value, formed, message, object, last, held, done => by
    cases object with
    | record members =>
      have fields := decodeFields_holds typed struct_value formed.1 struct_value formed.2
        (fun _ _ => id) false .struct_value 0 message members last held
      cases predefined_type with
      | none =>
        obtain ⟨result, rfl, hold⟩ := fields done
        exact hold
      | some name =>
        cases message with
        | none => cases done
        | some message =>
          obtain ⟨result, rfl, hold⟩ := fields done
          exact hold
    | scalar | string | list | handle => exact held.elim
  | .union predefined_type union_value, formed, message, object, last, held, done => by
    cases object with
    | record members =>
      have fields := fun named => decodeFields_holds typed union_value formed.1 union_value
        formed.2 (fun _ _ => id) named .union_value 0 message members last held
      cases predefined_type with
      | none =>
        obtain ⟨result, rfl, hold⟩ := fields false done
        exact hold
      | some name =>
        cases message with
        | none => cases done
        | some message =>
          obtain ⟨result, rfl, hold⟩ := fields true done
          exact hold
    | scalar | string | list | handle => exact held.elim
  | .handle, _, message, object, last, held, done => by
    cases message with
    | none => cases done
    | some message =>
      unfold decode at done
      cases made : makeHandle device message.handle_value with
      | error fault =>
        rw [made] at done
        cases done
      | ok native =>
        rw [made] at done
        cases done
        trivial

/-- The members stay those of all fields while some of the fields are assigned. -/
theorem decodeFields_holds {device : Device} (typed : device.Typed) (all : Fields)
    (distinct : all.names.Nodup) :
    ∀ (fields : Fields), fields.WellFormed →
      (∀ name field, fields.Has name field → all.Has name field) →
      ∀ (named : Bool) (kind : Repeated) (index : Nat) (message : Option Message)
        (members : List (String × Value)) (last : Value), all.Hold members →
      decodeFields device fields named kind index message (.record members) = .ok last →
      ∃ result, last = .record result ∧ all.Hold result
  | .nil, _, _, named, kind, index, message, members, last, held, done => by
    cases done
    exact ⟨members, rfl, held⟩
  | .cons name field rest, formed, among, named, kind, index, message, members, last, held,
      done => by
    have has : all.Has name field := among name field (Or.inl ⟨rfl, rfl⟩)
    have amongRest : ∀ other type, rest.Has other type → all.Has other type :=
      fun other type has => among other type (Or.inr has)
    unfold decodeFields at done
    dsimp only at done
    cases passes : passesOver named name
        (message.bind fun message => (message.get kind)[index]?) with
    | error fault =>
      rw [passes] at done
      cases done
    | ok skips =>
      rw [passes] at done
      cases skips with
      | true =>
        exact decodeFields_holds typed all distinct rest formed.2 amongRest named kind (index + 1)
          message members last held done
      | false =>
        dsimp only at done
        cases assigned : decodeAt (decode device field) (.member name)
            (message.bind fun message => (message.get kind)[index]?) (.record members) with
        | error fault =>
          rw [assigned] at done
          cases done
        | ok next =>
          rw [assigned] at done
          obtain ⟨present, new, found, decoded, rfl⟩ := decodeAt_eq_ok assigned
          obtain ⟨value, there, holds⟩ := held.lookup distinct has
          obtain rfl : value = present := Option.some.inj (there.symm.trans found)
          have holdsNew := decode_holds typed field formed.1 _ value new holds decoded
          exact decodeFields_holds typed all distinct rest formed.2 amongRest named kind
            (index + 1) message _ last (held.setMember distinct has holdsNew) done

end

/-! ## Indices -/

/-- The index of the loop over a place is longer than every index in the place. -/
theorem indexName_not_mem (arg_name : Place) : indexName arg_name ∉ arg_name.indices := by
  intro used
  have shorter := Place.length_of_mem_indices used
  rw [indexName, String.length_append, length_GetVarString] at shorter
  omega

section

variable {arg_name : Place} (among : ∀ name ∈ arg_value_name.indices, name ∈ arg_name.indices)
include among

theorem indexName_not_mem_message : indexName arg_name ∉ arg_value_name.indices :=
  fun used => indexName_not_mem arg_name (among _ used)

/-- The place and the message mean the same inside the loop over the place. -/
theorem resolved_inside {loops : List (String × Place × MessageExpr)}
    (place : arg_name.Resolved (loops.map fun loop => (loop.1, loop.2.1)))
    (message : arg_value_name.Resolved (loops.map fun loop => (loop.1, loop.2.2))) :
    let inside := (indexName arg_name, arg_name, arg_value_name) :: loops
    arg_name.Resolved (inside.map fun loop => (loop.1, loop.2.1)) ∧
      arg_value_name.Resolved (inside.map fun loop => (loop.1, loop.2.2)) :=
  ⟨Place.resolved_cons (indexName_not_mem arg_name) arg_name place,
    MessageExpr.resolved_cons (indexName_not_mem_message among) arg_value_name message⟩

end

mutual

/-- Every index of the emitted code means the loop it was emitted for. -/
theorem GenerateDriverImplForTypedVariable_resolved :
    ∀ (spec : Spec) (arg_name : Place) (arg_value_name : MessageExpr)
      (loops : List (String × Place × MessageExpr)),
      (∀ name ∈ arg_value_name.indices, name ∈ arg_name.indices) →
      arg_name.Resolved (loops.map fun loop => (loop.1, loop.2.1)) →
      arg_value_name.Resolved (loops.map fun loop => (loop.1, loop.2.2)) →
      (GenerateDriverImplForTypedVariable spec arg_name arg_value_name).Resolved loops
  | .scalar _, _, _, _, _, place, message | .string, _, _, _, _, place, message
  | .mask _, _, _, _, _, place, message | .handle, _, _, _, _, place, message =>
    ⟨place, message⟩
  | .enum _ _, _, _, _, _, place, message => ⟨place, message, trivial, trivial⟩
  | .vector vector_value, arg_name, arg_value_name, loops, among, place, message => by
    obtain ⟨placeInside, messageInside⟩ := resolved_inside among place message
    refine ⟨⟨place, message⟩, messageInside, ?_⟩
    refine GenerateDriverImplForTypedVariable_resolved vector_value _ _ _ ?_
      ⟨lookup_cons_self, placeInside⟩ ⟨lookup_cons_self, messageInside⟩
    exact cons_subset_cons _ among
  | .array _ vector_value, arg_name, arg_value_name, loops, among, place, message => by
    obtain ⟨placeInside, messageInside⟩ := resolved_inside among place message
    refine ⟨messageInside, ?_⟩
    refine GenerateDriverImplForTypedVariable_resolved vector_value _ _ _ ?_
      ⟨lookup_cons_self, placeInside⟩ ⟨lookup_cons_self, messageInside⟩
    exact cons_subset_cons _ among
  | .struct (some _) fields, _, _, _, _, place, message
  | .union (some _) fields, _, _, _, _, place, message =>
    ⟨place, message, GenerateDriverImplForFields_resolved fields _ _ _ 0 []
      (fun _ _ => Subset.refl _) (fun _ => trivial) (fun _ => trivial)⟩
  | .struct none fields, _, _, loops, among, place, message
  | .union none fields, _, _, loops, among, place, message =>
    GenerateDriverImplForFields_resolved fields false _ _ 0 loops (fun _ _ => among)
      (fun _ => place) (fun _ => message)

theorem GenerateDriverImplForFields_resolved :
    ∀ (fields : Fields) (named : Bool) (member : String → Place) (message : Nat → MessageExpr)
      (index : Nat) (loops : List (String × Place × MessageExpr)),
      (∀ name index, ∀ used ∈ (message index).indices, used ∈ (member name).indices) →
      (∀ name, (member name).Resolved (loops.map fun loop => (loop.1, loop.2.1))) →
      (∀ index, (message index).Resolved (loops.map fun loop => (loop.1, loop.2.2))) →
      (GenerateDriverImplForFields fields named member message index).Resolved loops
  | .nil, _, _, _, _, _, _, _, _ => trivial
  | .cons name field rest, named, member, message, index, loops, among, place, part => by
    have first := GenerateDriverImplForTypedVariable_resolved field (member name) (message index)
      loops (among name index) (place name) (part index)
    refine ⟨?_, GenerateDriverImplForFields_resolved rest named member message (index + 1) loops
      among place part⟩
    cases named with
    | false => exact first
    | true => exact ⟨part index, first⟩

end

/-! ## Running the code -/

mutual

/-- The message has no more elements for an array than the array has. -/
def Spec.Sized : Spec → Message → Prop
  | .vector vector_value, message => ∀ part ∈ message.vector_value, vector_value.Sized part
  | .array vector_size vector_value, message =>
    message.vector_value.length ≤ vector_size ∧
      ∀ part ∈ message.vector_value, vector_value.Sized part
  | .struct _ struct_value, message => struct_value.Sized .struct_value 0 message
  | .union _ union_value, message => union_value.Sized .union_value 0 message
  | _, _ => True

def Fields.Sized : Fields → Repeated → Nat → Message → Prop
  | .nil, _, _, _ => True
  | .cons _ field rest, kind, index, message =>
    (∀ part, (message.get kind)[index]? = some part → field.Sized part) ∧
      rest.Sized kind (index + 1) message

end

section

variable {root : Message} {expression : MessageExpr} (there : expression.path loops = some steps)
include there

theorem readMessage_some (found : getAt root steps = some message) :
    readMessage loops root expression = .ok message := by
  simp only [readMessage, there, found]

theorem readMessage_none (missing : getAt root steps = none) :
    readMessage loops root expression = .error .outOfRange := by
  simp only [readMessage, there, missing]

end

namespace ReadCode

section

variable {root : Message} {arg_name : Place} {present : Value} {path : List Access}

/-- An assignment from a message changes the value at the end of the path, if the message is
there. -/
theorem assignFrom_eq (place : arg_name.path loops = some path)
    (message : arg_value_name.path loops = some steps) (there : getAt object path = some present)
    (f : Message → Value → Except Fault Value) :
    assignFrom loops root arg_value_name arg_name f object =
      ((getAt root steps).elim (.error .outOfRange) fun part => f part present).map
        (putAt object path) := by
  cases found : getAt root steps with
  | none =>
    simp only [assignFrom, readMessage_none message found]
    rfl
  | some part =>
    simp only [assignFrom, readMessage_some message found, assign, place, there, Option.elim_some]
    cases f part present <;> rfl

/-- What is done at the end of a longer path is done inside the value before. -/
theorem decodeAt_eq {step : Access} {part : Option Message} {before : Value} {old : Value}
    (there : getAt object path = some old) (found : before.access step = some present) :
    (decodeOne part present).map (putAt (putAt object path before) (path ++ [step])) =
      (decodeAt decodeOne step part before).map (putAt object path) := by
  unfold decodeAt
  rw [found]
  dsimp only
  cases decodeOne part present with
  | error fault => rfl
  | ok new =>
    have inside := putAt_concat (getAt_putAt there before) found new
    rw [putAt_putAt there] at inside
    exact congrArg Except.ok inside

/-- The loop over the elements of a place. -/
theorem run_loop (one : ∀ part present new, element.Holds present →
      decodeOne part present = .ok new → element.Holds new) {index_name : String} {body : ReadCode}
    {size : Nat} (unused : index_name ∉ arg_value_name.indices)
    (messageThere : arg_value_name.path loops = some steps)
    (message_eq : getAt root steps = some message) (there : getAt object path = some present)
    (held : ElementsHold element size present)
    (round : ∀ count before, count < message.vector_value.length →
      ElementsHold element size before →
      body.run device ((index_name, count) :: loops) root (putAt object path before) =
        (decodeAt decodeOne (.element count) message.vector_value[count]? before).map
          (putAt object path)) :
    (loop index_name arg_name arg_value_name body).run device loops root object =
      (decodeElements decodeOne message present).map (putAt object path) := by
  have bounded : ∀ count : Nat, limit ((index_name, count) :: loops) root arg_value_name =
      .ok (message.vector_value.length : Int) := by
    intro count
    have inside := (MessageExpr.path_cons unused count loops).trans messageThere
    rw [limit, readMessage_some inside message_eq]
    rfl
  rw [run, decodeElements, ← countUp_map bounded (fun _ => rfl) (putAt object path)
    (fun count before inside held => round count before inside held)
    (fun _ _ _ _ held done => ElementsHold.decodeAt one held done) indices 0 held,
    putAt_getAt there]

end

end ReadCode

/-- The emitted code for a type does to the place it assigns what `decode` does to its value. -/
def Spec.RunsAsDecode (device : Device) (spec : Spec) : Prop :=
  ∀ (arg_name : Place) (arg_value_name : MessageExpr) (loops : List (String × Nat))
    (root : Message) (object present : Value) (path : List Access)
    (steps : List (Repeated × Nat)),
    (∀ name ∈ arg_value_name.indices, name ∈ arg_name.indices) →
    arg_name.path loops = some path → arg_value_name.path loops = some steps →
    getAt object path = some present → spec.Holds present →
    (∀ message, getAt root steps = some message → spec.Sized message) →
    (GenerateDriverImplForTypedVariable spec arg_name arg_value_name).run device loops root
        object =
      (decode device spec (getAt root steps) present).map (putAt object path)

/-- The emitted code for some of the fields of a record does what `decodeFields` does to the
record. -/
def Fields.RunAsDecode (device : Device) (all fields : Fields) : Prop :=
  ∀ (named : Bool) (kind : Repeated) (member : String → Place) (part : Nat → MessageExpr)
    (index : Nat) (loops : List (String × Nat)) (root : Message) (object old : Value)
    (members : List (String × Value)) (path : List Access) (steps : List (Repeated × Nat)),
    (∀ name index, ∀ used ∈ (part index).indices, used ∈ (member name).indices) →
    (∀ name, (member name).path loops = some (path ++ [.member name])) →
    (∀ index, (part index).path loops = some (steps ++ [(kind, index)])) →
    getAt object path = some old → all.Hold members →
    (∀ message, getAt root steps = some message → fields.Sized kind index message) →
    (GenerateDriverImplForFields fields named member part index).run device loops root
        (putAt object path (.record members)) =
      (decodeFields device fields named kind index (getAt root steps) (.record members)).map
        (putAt object path)

/-- The message behind a key, if the message before is there. -/
theorem getAt_concat_bind (root : Message) (steps : List (Repeated × Nat)) (kind : Repeated)
    (index : Nat) {message : Option Message} (found : getAt root steps = message) :
    getAt root (steps ++ [(kind, index)]) =
      message.bind fun message => (message.get kind)[index]? := by
  cases message with
  | some message => exact getAt_concat found (kind, index)
  | none =>
    induction steps generalizing root with
    | nil => cases found
    | cons key steps ih =>
      rw [getAt] at found
      rw [cons_append, getAt]
      cases next : child root key with
      | none => rfl
      | some below =>
        rw [next] at found
        exact ih below found

theorem run_elements (runs : element.RunsAsDecode device)
    (one : ∀ part present new, element.Holds present →
      decode device element part present = .ok new → element.Holds new) {arg_name : Place}
    {root : Message} {present : Value} {path : List Access} {size : Nat}
    (among : ∀ name ∈ arg_value_name.indices, name ∈ arg_name.indices)
    (place : arg_name.path loops = some path)
    (messageThere : arg_value_name.path loops = some steps)
    (found : getAt root steps = some message) (there : getAt object path = some present)
    (held : ElementsHold element size present) (enough : message.vector_value.length ≤ size)
    (sized : ∀ part ∈ message.vector_value, element.Sized part) :
    (ReadCode.loop (indexName arg_name) arg_name arg_value_name
        (GenerateDriverImplForTypedVariable element (.index arg_name (indexName arg_name))
          (.vector_value arg_value_name (indexName arg_name)))).run device loops root object =
      (decodeElements (decode device element) message present).map (putAt object path) := by
  have unusedMessage := indexName_not_mem_message among
  refine ReadCode.run_loop one unusedMessage messageThere found there held ?_
  intro count before inside heldBefore
  obtain ⟨current, access, holds⟩ := heldBefore.access (Nat.lt_of_lt_of_le inside enough)
  have part : getAt root (steps ++ [(.vector_value, count)]) = message.vector_value[count]? :=
    getAt_concat_bind root steps .vector_value count found
  have currentThere : getAt (putAt object path before) (path ++ [.element count]) = some current :=
    (getAt_concat (getAt_putAt there before) _).trans access
  have ran := runs (.index arg_name (indexName arg_name))
    (.vector_value arg_value_name (indexName arg_name)) ((indexName arg_name, count) :: loops) root
    (putAt object path before) current (path ++ [.element count])
    (steps ++ [(.vector_value, count)]) (cons_subset_cons _ among)
    (Place.path_index (indexName_not_mem arg_name) place count)
    (MessageExpr.path_vector_value unusedMessage messageThere count) currentThere holds
    (fun message there => sized message (mem_of_getElem? (part.symm.trans there)))
  rw [ran, part]
  exact ReadCode.decodeAt_eq there access

theorem indices_pos : 0 < indices := by decide

/-- The code for the fields of a predefined type, in a function of its own. -/
theorem Fields.RunAsDecode.called {all : Fields} (fields : all.RunAsDecode device all)
    (named : Bool) {kind : Repeated} {part : MessageExpr → Nat → MessageExpr}
    (parts : ∀ index, (part (.var "var_msg") index).path [] = some [(kind, index)])
    (among : ∀ index, (part (.var "var_msg") index).indices = []) {members : List (String × Value)}
    (held : all.Hold members) (sized : all.Sized kind 0 message) :
    (GenerateDriverImplForFields all named (.arrow "arg") (part (.var "var_msg")) 0).run device []
        message (.record members) =
      decodeFields device all named kind 0 (some message) (.record members) := by
  have ran := fields named kind (.arrow "arg") (part (.var "var_msg")) 0 [] message
    (.record members) (.record members) members [] []
    (fun name index used listed => by rw [among index] at listed; cases listed)
    (fun _ => rfl) parts rfl held
    (fun _ same => by cases same; exact sized)
  rw [putAt_nil, getAt_nil] at ran
  rw [ran]
  cases decodeFields device all named kind 0 (some message) (.record members) <;> rfl

mutual

theorem run_GenerateDriverImplForTypedVariable {device : Device} (typed : device.Typed) :
    ∀ (spec : Spec), spec.WellFormed → spec.RunsAsDecode device
  | .scalar _, _ | .string, _ | .mask _, _ | .enum _ _, _ | .handle, _ => by
    intro _ _ _ root _ _ _ steps _ place message there _ _
    rw [GenerateDriverImplForTypedVariable, ReadCode.run,
      ReadCode.assignFrom_eq place message there]
    cases getAt root steps <;> rfl
  | .vector vector_value, formed => by
    intro arg_name arg_value_name loops root object present path steps among place messageThere
      there held sized
    have runs := run_GenerateDriverImplForTypedVariable typed vector_value formed
    have one := decode_holds typed vector_value formed
    cases present with
    | scalar | string | record | handle => exact held.elim
    | list elements =>
      rw [GenerateDriverImplForTypedVariable, ReadCode.run, ReadCode.run,
        ReadCode.assignFrom_eq place messageThere there]
      cases found : getAt root steps with
      | none => rfl
      | some message =>
        have looped := run_elements runs one among place messageThere found
          (getAt_putAt there (.list
            (resized device vector_value message.vector_value.length elements)))
          (resized_elementsHold typed held.2 _) (Nat.le_refl _) (sized message found)
        refine looped.trans (congrArg (fun put => Except.map put _) ?_)
        funext new
        exact putAt_putAt there _ new
  | .array vector_size vector_value, formed => by
    intro arg_name arg_value_name loops root object present path steps among place messageThere
      there held sized
    have runs := run_GenerateDriverImplForTypedVariable typed vector_value formed
    have one := decode_holds typed vector_value formed
    cases present with
    | scalar | string | record | handle => exact held.elim
    | list elements =>
      cases found : getAt root steps with
      | none =>
        have unused := indexName_not_mem_message among
        have inside := (MessageExpr.path_cons unused 0 loops).trans messageThere
        refine countUp_fault indices_pos ?_ object
        rw [ReadCode.limit, readMessage_none inside found]
        rfl
      | some message =>
        obtain ⟨enough, parts⟩ := sized message found
        exact run_elements runs one among place messageThere found there
          ⟨elements, rfl, held.1, held.2⟩ enough parts
  | .struct predefined_type members_value, formed | .union predefined_type members_value, formed => by
    intro arg_name arg_value_name loops root object present path steps among place messageThere
      there held sized
    have fields := run_GenerateDriverImplForFields typed members_value formed.1 members_value
      formed.2 (fun _ _ => id)
    cases present with
    | scalar | string | list | handle => exact held.elim
    | record members =>
      cases predefined_type with
      | none =>
        have whole := putAt_getAt there
        rw [GenerateDriverImplForTypedVariable, decode]
        nth_rewrite 1 [← whole]
        exact fields false _ (.dot arg_name) _ 0 loops root object _ members path steps
          (fun _ _ => among) (fun name => by rw [Place.path, place]; rfl)
          (fun index => by rw [MessageExpr.path, messageThere]; rfl) there held sized
      | some name =>
        rw [GenerateDriverImplForTypedVariable, ReadCode.run,
          ReadCode.assignFrom_eq place messageThere there]
        cases found : getAt root steps with
        | none => rfl
        | some message =>
          exact congrArg _ (fields.called _ (fun _ => rfl) (fun _ => rfl) held
            (sized message found))

theorem run_GenerateDriverImplForFields {device : Device} (typed : device.Typed) (all : Fields)
    (distinct : all.names.Nodup) :
    ∀ (fields : Fields), fields.WellFormed →
      (∀ name field, fields.Has name field → all.Has name field) →
      Fields.RunAsDecode device all fields
  | .nil, _, _ => by
    intro named kind member part index loops root object old members path steps _ _ _ _ _ _
    rfl
  | .cons name field rest, formed, among => by
    intro named kind member part index loops root object old members path steps used place
      message there held sized
    have has : all.Has name field := among name field (Or.inl ⟨rfl, rfl⟩)
    have runs := run_GenerateDriverImplForTypedVariable typed field formed.1
    have runRest := run_GenerateDriverImplForFields typed all distinct rest formed.2
      fun other type has => among other type (Or.inr has)
    have part_eq := getAt_concat_bind root steps kind index rfl
    obtain ⟨value, found, holds⟩ := held.lookup distinct has
    have sizedRest : ∀ message, getAt root steps = some message →
        rest.Sized kind (index + 1) message := fun message found => (sized message found).2
    -- The code of this field changes its member only.
    have first : (GenerateDriverImplForTypedVariable field (member name) (part index)).run device
        loops root (putAt object path (.record members)) =
        (decodeAt (decode device field) (.member name)
          ((getAt root steps).bind fun message => (message.get kind)[index]?)
          (.record members)).map (putAt object path) := by
      rw [runs (member name) (part index) loops root _ value _ _ (used name index) (place name)
        (message index) ((getAt_concat (getAt_putAt there _) _).trans found) holds ?_, part_eq]
      · exact ReadCode.decodeAt_eq there found
      · intro inner innerFound
        rw [part_eq] at innerFound
        obtain ⟨outer, outerFound, listed⟩ := Option.bind_eq_some_iff.mp innerFound
        exact (sized outer outerFound).1 inner listed
    have rounds : ∀ next, decodeAt (decode device field) (.member name)
        ((getAt root steps).bind fun message => (message.get kind)[index]?)
        (.record members) = .ok next →
        (GenerateDriverImplForFields rest named member part (index + 1)).run device loops root
          (putAt object path next) =
        (decodeFields device rest named kind (index + 1) (getAt root steps) next).map
          (putAt object path) := by
      intro next assigned
      obtain ⟨present, new, access, decoded, rfl⟩ := decodeAt_eq_ok assigned
      obtain rfl : value = present := Option.some.inj (found.symm.trans access)
      have holdsNew := decode_holds typed field formed.1 _ value new holds decoded
      exact runRest named kind member part (index + 1) loops root object old _ path steps used
        place message there (held.setMember distinct has holdsNew) sizedRest
    have assigns : (ReadCode.seq
        (GenerateDriverImplForTypedVariable field (member name) (part index))
        (GenerateDriverImplForFields rest named member part (index + 1))).run device loops root
          (putAt object path (.record members)) =
        ((decodeAt (decode device field) (.member name)
            ((getAt root steps).bind fun message => (message.get kind)[index]?)
            (.record members)).bind fun next =>
          decodeFields device rest named kind (index + 1) (getAt root steps) next).map
          (putAt object path) := by
      rw [ReadCode.run, first]
      cases assigned : decodeAt (decode device field) (.member name)
          ((getAt root steps).bind fun message => (message.get kind)[index]?)
          (.record members) with
      | error fault => rfl
      | ok next => exact rounds next assigned
    rw [GenerateDriverImplForFields, decodeFields]
    cases named with
    | false => exact assigns
    | true =>
      have message_eq := message index
      cases found : (getAt root steps).bind fun message => (message.get kind)[index]? with
      | none =>
        have missing := readMessage_none message_eq (part_eq.trans found)
        simp only [if_true, ReadCode.run, missing, passesOver]
        rfl
      | some inner =>
        have read := readMessage_some message_eq (part_eq.trans found)
        by_cases same : inner.name.getD "" = name
        · rw [found] at assigns
          simp only [if_true, ReadCode.run, read, passesOver, same, bne_self_eq_false]
          exact assigns
        · have other : (inner.name.getD "" != name) = true := by simpa using same
          simp only [if_true, ReadCode.run, read, passesOver, other, same, if_false]
          exact runRest true kind member part (index + 1) loops root object old members path steps
            used place message there held sizedRest

end

theorem run_GenerateDriverImplForTypedVariable_var (typed : device.Typed) {spec : Spec}
    (formed : spec.WellFormed) (sized : spec.Sized message) {before : Value}
    (held : spec.Holds before) (arg_name arg_value_name : String) :
    (GenerateDriverImplForTypedVariable spec (.var arg_name) (.var arg_value_name)).run device []
      message before = decode device spec (some message) before := by
  have runs := run_GenerateDriverImplForTypedVariable typed spec formed (.var arg_name)
    (.var arg_value_name) [] message before before [] [] (fun _ listed => by cases listed) rfl rfl
    rfl held (fun _ found => by cases found; exact sized)
  rw [runs, getAt_nil]
  cases decode device spec (some message) before <;> rfl

end Vts.Vtsc
