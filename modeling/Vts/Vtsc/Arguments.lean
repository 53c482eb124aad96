import Vts.Vtsc.Delivered

/-!
# Arguments from the host

A Python value becomes a message by `Convert`, and the message the value of a variable by the
code of the driver. Proved here: for every type, specification and value the variable is what the
Python value says, whatever it was before, exactly if the value is `Delivered`.

It is not the length of a message that the two sides disagree about, but where a part stands and
what it is called. So the loops over the attributes are followed part by part: an attribute that
is converted goes on, one of a type that is not found ends the loop, and one that is not given is
an empty message.
-/

namespace Vts.Vtsc

open Vts.Lib List Message

/-! ## One specification -/

/-- What `Convert` and the loops over attributes do for a specification, by its type. -/
def PbSpec.fill (pb_spec : PbSpec) (message : Message) (py_value : PyValue) :
    Except PyError Message :=
  match pb_spec.type with
  | .TYPE_ENUM => PyValue2PbEnum message pb_spec py_value
  | .TYPE_SCALAR => PyValue2PbScalar message pb_spec py_value
  | .TYPE_STRING => PyString2PbString message pb_spec py_value
  | .TYPE_VECTOR => PyList2PbVector pb_spec message py_value
  | .TYPE_STRUCT => PyDict2PbStruct pb_spec message py_value
  | .TYPE_UNION => PyDict2PbUnion pb_spec message py_value
  | _ => .ok message

/-- A Python value arrives by a conversion. -/
def Arrives (device : Device) (spec : Spec) (result : Except PyError Message)
    (py_value : PyValue) : Prop :=
  ∃ message, result = .ok message ∧ Gives device spec message py_value

section

variable {spec : Spec} {pb_spec : PbSpec} {py_value : PyValue} {sub_struct sub_union : List PbSpec}
  (described : spec.DescribedBy pb_spec sub_struct sub_union) (conforms : spec.Conforms py_value)
include described conforms

theorem Convert_eq :
    Convert pb_spec py_value = (pb_spec.fill (.withName (some pb_spec.name)) py_value).map some := by
  have type : pb_spec.type = .TYPE_ENUM ∨ pb_spec.type = .TYPE_SCALAR ∨
      pb_spec.type = .TYPE_STRING ∨ pb_spec.type = .TYPE_VECTOR ∨ pb_spec.type = .TYPE_STRUCT ∨
      pb_spec.type = .TYPE_UNION := by
    cases spec <;> simp_all [Spec.DescribedBy]
  have value : ∀ message, py_value ≠ .message message := by
    rintro message rfl
    cases spec <;> cases conforms
  unfold Convert convertWith PbSpec.fill
  cases py_value with
  | message message => exact absurd rfl (value message)
  | int _ | str _ | list _ | dict _ =>
    rcases type with type | type | type | type | type | type <;> rw [type] <;> rfl

theorem Convert_eq_ok {message : Message} :
    Convert pb_spec py_value = .ok (some message) ↔
      pb_spec.fill (.withName (some pb_spec.name)) py_value = .ok message := by
  rw [Convert_eq described conforms]
  cases pb_spec.fill (.withName (some pb_spec.name)) py_value <;> simp [Except.map]

end

theorem Message.named_withName (before : Option String) (name : String) :
    (Message.withName before).named name =
      Message.withName (if name = "" then before else some name) := by
  unfold Message.named
  split <;> rfl

theorem ScalarType.InRange.field {scalar_type : ScalarType} {value : Int}
    (inRange : scalar_type.InRange value) : scalar_type.field.InRange value := by
  unfold InRange at *
  cases scalar_type <;> simp only [ScalarType.field, least, size] at * <;> omega

section

variable {device : Device} {pb_spec : PbSpec} {sub_struct sub_union : List PbSpec}
  (name : Option String)

section

variable {scalar_type : ScalarType} {value : Int} {vector_spec : PbSpec}

theorem fill_scalar (described : (Spec.scalar scalar_type).DescribedBy pb_spec sub_struct sub_union)
    (inRange : scalar_type.InRange value) :
    Arrives device (.scalar scalar_type) (pb_spec.fill (.withName name) (.int value))
      (.int value) := by
  rw [PbSpec.fill, described.1]
  simp only [PyValue2PbScalar, described.2, setattr, inRange.field, if_true]
  refine ⟨_, rfl, fun before _ => ?_⟩
  rw [decode, Spec.assigned]
  simp [ScalarType.convert_of_inRange inRange]

theorem fill_string {bytes : List UInt8}
    (described : Spec.string.DescribedBy pb_spec sub_struct sub_union)
    (short : bytes.length < 2 ^ 32) :
    Arrives device .string (pb_spec.fill (.withName name) (.str bytes)) (.str bytes) := by
  have type : pb_spec.type = .TYPE_STRING := described
  rw [PbSpec.fill, type]
  simp only [PyString2PbString, short, if_true]
  exact ⟨_, rfl, fun before _ => rfl⟩

/-- The value of an enumeration is in the field for `int32_t`, and read from that for the type of
its definition. -/
theorem fill_enum {predefined_type : String}
    (described : (Spec.enum predefined_type scalar_type).DescribedBy pb_spec sub_struct sub_union)
    (inRange : scalar_type.InRange value) :
    Arrives device (.enum predefined_type scalar_type) (pb_spec.fill (.withName name) (.int value))
      (.int value) ↔ scalar_type = .int32_t ∨ value = 0 := by
  rw [PbSpec.fill, described.1]
  simp only [PyValue2PbEnum, described.2.1, setattr, ScalarType.field, named_withName]
  by_cases fits : ScalarType.int32_t.InRange value
  · rw [if_pos fits]
    by_cases same : scalar_type = .int32_t
    · subst same
      refine iff_of_true ⟨_, rfl, fun before _ => ?_⟩ (Or.inl rfl)
      rw [decode, Spec.assigned]
      simp [ScalarType.convert_of_inRange inRange]
    · have unset : scalar_type.convert 0 = 0 :=
        ScalarType.convert_of_inRange scalar_type.inRange_zero
      simp only [same, false_or]
      constructor
      · rintro ⟨_, equal, gives⟩
        cases equal
        have decoded := gives (.scalar value) inRange
        rw [decode, Spec.assigned] at decoded
        dsimp only at decoded
        rw [if_neg same, Except.ok.injEq, Value.scalar.injEq] at decoded
        exact decoded.symm.trans unset
      · rintro rfl
        refine ⟨_, rfl, fun before _ => ?_⟩
        rw [decode, Spec.assigned]
        dsimp only
        rw [if_neg same]
        exact congrArg (fun number => Except.ok (Value.scalar number)) unset
  · rw [if_neg fits]
    refine iff_of_false (fun ⟨_, impossible, _⟩ => nomatch impossible) ?_
    rintro (rfl | rfl)
    · exact fits inRange
    · exact fits (by decide)

theorem PyList2PbVector_eq (message : Message) (only : pb_spec.vector_value = [vector_spec])
    (items : List PyValue) :
    PyList2PbVector pb_spec message (.list items) =
      if items.length = 0 then .ok { message.named pb_spec.name with type := some .TYPE_VECTOR }
      else
        match convertItems (Convert vector_spec) items
          { message.named pb_spec.name with type := some .TYPE_VECTOR } with
        | .error error => .error error
        | .ok message =>
          if items.length < 2 ^ 31 then .ok { message with vector_size := some items.length }
          else .error .ValueError := by
  cases pb_spec
  cases only
  rw [PyList2PbVector, convertFirst]
  rfl

theorem fill_vector (typed : device.Typed) {element : Spec} {items : List PyValue}
    (type : pb_spec.type = .TYPE_VECTOR) (only : pb_spec.vector_value = [vector_spec])
    (described : element.DescribedBy vector_spec sub_struct sub_union) (few : items.length < 2 ^ 32)
    (conform : ∀ item ∈ items, element.Conforms item) :
    Arrives device (.vector element) (pb_spec.fill (.withName name) (.list items)) (.list items) ↔
      items.length < 2 ^ 31 ∧ ∀ item ∈ items,
        Arrives device element (vector_spec.fill (.withName (some vector_spec.name)) item) item := by
  rw [PbSpec.fill, type]
  dsimp only
  rw [PyList2PbVector_eq _ only, named_withName]
  generalize begun : ({ Message.withName (if pb_spec.name = "" then name else some pb_spec.name) with
    type := some .TYPE_VECTOR } : Message) = start
  have new : start.vector_value = [] := begun ▸ rfl
  by_cases empty : items.length = 0
  · rw [if_pos empty]
    obtain rfl := eq_nil_of_length_eq_zero empty
    refine iff_of_true ⟨start, rfl, ?_⟩ ⟨by decide, by simp⟩
    exact (gives_vector typed few (by rw [new]; rfl)).mpr ⟨by decide, new ▸ .nil⟩
  · rw [if_neg empty]
    constructor
    · rintro ⟨message, done, gives⟩
      cases converted : convertItems (Convert vector_spec) items start with
      | error error =>
        rw [converted] at done
        cases done
      | ok filled =>
        simp only [converted] at done
        obtain ⟨parts, all, rfl⟩ := convertItems_eq_ok.mp converted
        have written : message.vector_value = parts := by
          split at done
          · cases done
            simp [Message.set, new]
          · cases done
        have each := (gives_vector typed few (by rw [written, all.length_eq])).mp gives
        rw [written] at each
        refine ⟨each.1, fun item listed => ?_⟩
        obtain ⟨index, inside, rfl⟩ := getElem_of_mem listed
        have insideParts : index < parts.length := all.length_eq ▸ inside
        have one := (forall₂_iff_get.mp all).2 index inside insideParts
        exact ⟨parts[index], (Convert_eq_ok described (conform _ listed)).mp one,
          (forall₂_iff_get.mp each.2).2 index inside insideParts⟩
    · rintro ⟨small, arrive⟩
      obtain ⟨parts, all⟩ := exists_forall₂ arrive
      have converted : convertItems (Convert vector_spec) items start =
          .ok (start.set .vector_value (start.vector_value ++ parts)) := by
        refine convertItems_eq_ok.mpr ⟨parts, forall₂_iff_get.mpr ⟨all.length_eq, ?_⟩, rfl⟩
        intro index inside insideParts
        exact (Convert_eq_ok described (conform _ (get_mem _ _))).mpr
          ((forall₂_iff_get.mp all).2 index inside insideParts).1
      rw [converted]
      dsimp only
      rw [if_pos small]
      refine ⟨_, rfl, (gives_vector typed few ?_).mpr ⟨small, ?_⟩⟩
      · simp [Message.set, new, all.length_eq]
      · simp only [Message.set, new, nil_append]
        exact all.imp fun _ _ both => both.2

end

end

/-! ## The loops over attributes -/

/-- The loops only add messages. -/
theorem convertAttrs_extends {kind : Repeated} {struct union : String → Option Filling}
    {entries : List (String × PyValue)} (attrs : List PbSpec) (provided_attrs : List String)
    (message : Message) {result : Message}
    (done : convertAttrs attrs kind struct union entries provided_attrs message = .ok result) :
    ∃ parts, result = message.set kind (message.get kind ++ parts) := by
  induction attrs generalizing provided_attrs message with
  | nil =>
    rw [convertAttrs] at done
    cases done
    exact ⟨[], by rw [append_nil, set_get]⟩
  | cons attr rest ih =>
    have further : ∀ (provided : List String) (attr_msg : Message),
        convertAttrs rest kind struct union entries provided (message.add kind attr_msg) =
          .ok result → ∃ parts, result = message.set kind (message.get kind ++ parts) := by
      intro provided attr_msg onward
      obtain ⟨parts, equal⟩ := ih provided _ onward
      refine ⟨attr_msg :: parts, ?_⟩
      rw [equal, Message.add, Message.get_set, Message.set_set, append_assoc,
        singleton_append]
    rw [convertAttrs] at done
    cases provided : entries.lookup attr.name with
    | none =>
      simp only [provided] at done
      split at done
      · exact further _ _ done
      · cases done
        exact ⟨[], by rw [append_nil, set_get]⟩
    | some curr_value =>
      simp only [provided] at done
      split at done
      · split at done
        · cases done
        · exact further _ _ done
        · cases done
          exact ⟨[_], rfl⟩
      · cases done

theorem PyDict2PbStruct_eq (pb_spec : PbSpec) (message : Message)
    (entries : List (String × PyValue)) :
    PyDict2PbStruct pb_spec message (.dict entries) =
      convertAttrs pb_spec.struct_value .struct_value (structIn pb_spec.sub_struct)
        (unionIn pb_spec.sub_struct) entries (entries.map (·.1))
        { message.named pb_spec.name with type := some .TYPE_STRUCT } := by
  cases pb_spec
  rw [PyDict2PbStruct]

theorem PyDict2PbUnion_eq (pb_spec : PbSpec) (message : Message) (given : String)
    (value : PyValue) :
    PyDict2PbUnion pb_spec message (.dict [(given, value)]) =
      convertAttrs pb_spec.union_value .union_value (structIn pb_spec.sub_union)
        (unionIn pb_spec.sub_union) [(given, value)] [given]
        { message.named pb_spec.name with type := some .TYPE_UNION } := by
  cases pb_spec
  rw [PyDict2PbUnion]
  rfl

theorem FindSubType_name {subs : List PbSpec} {name : String} {listed : PbSpec}
    (found : FindSubType subs name = some listed) : listed.name = name := by
  simpa using List.find?_some found

variable {spec : Spec} {py_value value : PyValue} {predefined_type : Option String}
  {fields : Fields} {goal : List (String × Value) → List (String × Value)} {part : Message}

section

variable {field : Spec} {attr definition : PbSpec} {sub_struct sub_union : List PbSpec}
  {curr_value : PyValue}

theorem PbSpec.definition_eq (named : field.NamedBy attr sub_struct sub_union)
    (leaf : field.isUnion = false) (flat : ∀ predefined_type struct_value,
      field ≠ .struct predefined_type struct_value)
    (found : attr.definition sub_struct sub_union = some definition) : definition = attr := by
  have kinds : attr.type ≠ .TYPE_STRUCT ∧ attr.type ≠ .TYPE_UNION := by
    cases field with
    | struct _ _ => exact absurd rfl (flat _ _)
    | union _ _ => cases leaf
    | _ => exact named
  unfold PbSpec.definition at found
  split at found
  · exact absurd ‹_› kinds.1
  · exact absurd ‹_› kinds.2
  · exact (Option.some.inj found).symm

theorem convertAttr_leaf (described : field.DescribedBy attr sub_struct sub_union)
    (leaf : field.isUnion = false)
    (flat : ∀ predefined_type struct_value, field ≠ .struct predefined_type struct_value)
    (struct union : Option Filling) :
    convertAttr attr (PyList2PbVector attr) struct union curr_value =
      (attr.fill .empty curr_value).map (·, true) := by
  have type : attr.type = .TYPE_ENUM ∨ attr.type = .TYPE_SCALAR ∨ attr.type = .TYPE_STRING ∨
      attr.type = .TYPE_VECTOR := by
    cases field with
    | struct _ _ => exact absurd rfl (flat _ _)
    | union _ _ => cases leaf
    | _ => simp_all [Spec.DescribedBy]
  unfold convertAttr PbSpec.fill
  rcases type with type | type | type | type <;> rw [type]

/-- In a struct all attributes but unions are converted by their definitions. -/
theorem convertAttr_in_struct (named : field.NamedBy attr sub_struct sub_union)
    (found : attr.definition sub_struct sub_union = some definition)
    (described : field.DescribedBy definition sub_struct sub_union)
    (noUnion : field.isUnion = false) :
    convertAttr attr (PyList2PbVector attr) (structIn sub_struct (attr.predefined_type.getD ""))
        (unionIn sub_struct (attr.predefined_type.getD "")) curr_value =
      (definition.fill .empty curr_value).map (·, true) := by
  cases field with
  | struct predefined_type struct_value =>
    have listed : FindSubType sub_struct (attr.predefined_type.getD "") = some definition := by
      rwa [PbSpec.definition, named.1] at found
    unfold convertAttr PbSpec.fill
    rw [named.1, described.1, structIn_eq, listed]
    rfl
  | union _ _ => cases noUnion
  | _ =>
    obtain rfl := PbSpec.definition_eq named rfl (fun _ _ => nofun) found
    exact convertAttr_leaf described rfl (fun _ _ => nofun) _ _

theorem convertAttr_union_in_struct {union_value : Fields}
    (named : (Spec.union predefined_type union_value).NamedBy attr sub_struct sub_union) :
    convertAttr attr (PyList2PbVector attr) (structIn sub_struct (attr.predefined_type.getD ""))
        (unionIn sub_struct (attr.predefined_type.getD "")) curr_value = .ok (.empty, false) := by
  unfold convertAttr
  rw [named.1, unionIn_eq, named.2.2]
  rfl

/-- In a union all attributes but structs are converted by their definitions. -/
theorem convertAttr_in_union (named : field.NamedBy attr sub_struct sub_union)
    (found : attr.definition sub_struct sub_union = some definition)
    (described : field.DescribedBy definition sub_struct sub_union)
    (flat : ∀ predefined_type struct_value, field ≠ .struct predefined_type struct_value) :
    convertAttr attr (PyList2PbVector attr) (structIn sub_union (attr.predefined_type.getD ""))
        (unionIn sub_union (attr.predefined_type.getD "")) curr_value =
      (definition.fill .empty curr_value).map (·, true) := by
  cases field with
  | struct _ _ => exact absurd rfl (flat _ _)
  | union predefined_type union_value =>
    have listed : FindSubType sub_union (attr.predefined_type.getD "") = some definition := by
      rwa [PbSpec.definition, named.1] at found
    unfold convertAttr PbSpec.fill
    rw [named.1, described.1, unionIn_eq, listed]
    rfl
  | _ =>
    obtain rfl := PbSpec.definition_eq named rfl flat found
    exact convertAttr_leaf described rfl flat _ _

theorem convertAttr_struct_in_union {struct_value : Fields}
    (named : (Spec.struct predefined_type struct_value).NamedBy attr sub_struct sub_union) :
    convertAttr attr (PyList2PbVector attr) (structIn sub_union (attr.predefined_type.getD ""))
        (unionIn sub_union (attr.predefined_type.getD "")) curr_value = .ok (.empty, false) := by
  unfold convertAttr
  rw [named.1, structIn_eq, named.2.2]
  rfl

end

section

variable {device : Device} {message : Message}

/-- A variable with members is given a value if each member is given its part. -/
theorem gives_fields {named : Bool} {kind : Repeated} (distinct : fields.names.Nodup)
    (holds : ∀ before, spec.Holds before ↔ ∃ old, before = .record old ∧ fields.Hold old)
    (decodes : ∀ old, decode device spec (some message) (.record old) =
      decodeFields device fields named kind 0 (some message) (.record old))
    (assigned : ∀ old, spec.assigned device value (.record old) = .record (goal old)) :
    Gives device spec message value ↔ FieldsGive device fields named kind 0 message goal := by
  constructor
  · intro give old held
    have decoded := give (.record old) ((holds _).mpr ⟨old, rfl, held⟩)
    rw [decodes, assigned, decodeFields_eq_ok distinct held] at decoded
    obtain ⟨result, equal, further⟩ := decoded
    cases equal
    exact further
  · intro give before heldBefore
    obtain ⟨old, rfl, held⟩ := (holds before).mp heldBefore
    rw [decodes, assigned, decodeFields_eq_ok distinct held]
    exact ⟨_, rfl, give old held⟩

theorem gives_struct {struct_value : Fields} (distinct : struct_value.names.Nodup)
    (entries : List (String × PyValue)) :
    Gives device (.struct predefined_type struct_value) message (.dict entries) ↔
      FieldsGive device struct_value false .struct_value 0 message
        (struct_value.allAssigned device entries) := by
  refine gives_fields distinct (Spec.holds_struct _ _) (fun old => ?_)
    fun old => by rw [Spec.assigned]
  cases predefined_type <;> rw [decode]

theorem gives_union {union_value : Fields} (distinct : union_value.names.Nodup) (given : String)
    (value : PyValue) :
    Gives device (.union predefined_type union_value) message (.dict [(given, value)]) ↔
      FieldsGive device union_value predefined_type.isSome .union_value 0 message
        (union_value.givenAssigned device given value) := by
  refine gives_fields distinct (Spec.holds_union _ _) (fun old => ?_)
    fun old => by rw [Spec.assigned]
  cases predefined_type <;> rw [decode] <;> rfl

/-- Members that are not given are empty messages: they are passed over if they are asked for
their names, and else must have nothing to read. -/
theorem fieldsGive_empty {named : Bool} (fields : Fields) {attrs sub_struct sub_union : List PbSpec}
    (before : List Message)
    (parts : message.union_value = before ++ List.replicate attrs.length .empty)
    (described : fields.DescribedBy attrs sub_struct sub_union) (formed : fields.WellFormed) :
    FieldsGive device fields named .union_value before.length message id ↔
      named = true ∨ fields.Idle := by
  match fields with
  | .nil => exact iff_of_true (fun _ _ => rfl) (Or.inr trivial)
  | .cons name field rest =>
    obtain ⟨attr, others, definition, rfl, _, some_name, _, _, describedField, describedRest⟩ :=
      described
    have found : (message.get .union_value)[before.length]? = some .empty := by
      rw [Message.get, parts, List.getElem?_append_right (Nat.le_refl _), Nat.sub_self]
      rfl
    have later := @fieldsGive_empty named rest others sub_struct sub_union (before ++ [.empty])
      (by rw [parts, length_cons, replicate_succ, append_assoc]; rfl)
      describedRest formed.2
    rw [length_append, length_singleton] at later
    rw [fieldsGive_cons id id found (fun _ _ _ _ => rfl), later]
    cases named with
    | true => simp [passesOver, Message.empty, some_name.symm]
    | false =>
      have idle := @decode_empty_iff device field definition sub_struct sub_union formed.1
        describedField
      simp only [passesOver, Fields.Idle, ← idle]
      simp

end

/-! ## Names of converted attributes -/

theorem Message.name_set (message : Message) (kind : Repeated) (parts : List Message) :
    (message.set kind parts).name = message.name := by
  cases kind <;> rfl

theorem Message.named_empty_name (name : String) :
    (Message.empty.named name).name.getD "" = name := by
  unfold Message.named
  split
  · rename_i none
    rw [none]
    rfl
  · rfl

section

variable {message : Message} {pb_spec : PbSpec}

theorem setattr_name {scalar_type : ScalarType}
    (set : setattr message scalar_type py_value = .ok part) : part.name = message.name := by
  unfold setattr at set
  split at set
  · split at set
    · cases set
      rfl
    · cases set
  · cases set

theorem PyList2PbVector_name (done : PyList2PbVector pb_spec message py_value = .ok part) :
    part.name = (message.named pb_spec.name).name := by
  cases pb_spec
  rw [PyList2PbVector.eq_def] at done
  dsimp only at done
  split at done
  · split at done
    · cases done
      rfl
    · split at done
      · cases done
      · split at done
        · cases done
        · rename_i filled converted
          obtain ⟨parts, _, rfl⟩ := convertItems_eq_ok.mp converted
          split at done
          · cases done
            rfl
          · cases done
  · cases done

theorem PyDict2PbStruct_name (done : PyDict2PbStruct pb_spec message py_value = .ok part) :
    part.name = (message.named pb_spec.name).name := by
  cases py_value with
  | dict entries =>
    rw [PyDict2PbStruct_eq] at done
    obtain ⟨parts, rfl⟩ := convertAttrs_extends _ _ _ done
    rw [name_set]
  | int _ | str _ | list _ | message _ =>
    cases pb_spec
    rw [PyDict2PbStruct.eq_def] at done
    cases done

/-- What is converted has the name of its specification, but for unions. -/
theorem fill_name_of_type (type : pb_spec.type = .TYPE_ENUM ∨ pb_spec.type = .TYPE_SCALAR ∨
      pb_spec.type = .TYPE_STRING ∨ pb_spec.type = .TYPE_VECTOR ∨ pb_spec.type = .TYPE_STRUCT)
    (done : pb_spec.fill .empty py_value = .ok part) : part.name.getD "" = pb_spec.name := by
  unfold PbSpec.fill at done
  rcases type with type | type | type | type | type
  all_goals
    rw [type] at done
    dsimp only at done
  · unfold PyValue2PbEnum at done
    dsimp only at done
    split at done
    · rw [setattr_name done]
      exact named_empty_name _
    · rw [setattr_name done]
      exact named_empty_name _
  · unfold PyValue2PbScalar at done
    split at done
    · cases done
    · rw [setattr_name done]
      exact named_empty_name _
  · unfold PyString2PbString at done
    split at done
    · split at done
      · cases done
        exact named_empty_name _
      · cases done
    · cases done
  · rw [PyList2PbVector_name done]
    exact named_empty_name _
  · rw [PyDict2PbStruct_name done]
    exact named_empty_name _

/-- A converted attribute has the name of its definition. -/
theorem fill_name {sub_struct sub_union : List PbSpec}
    (described : spec.DescribedBy pb_spec sub_struct sub_union) (conforms : spec.Conforms py_value)
    (done : pb_spec.fill .empty py_value = .ok part) : part.name.getD "" = pb_spec.name := by
  cases spec with
  | scalar _ => exact fill_name_of_type (.inr (.inl described.1)) done
  | enum _ _ => exact fill_name_of_type (.inl described.1) done
  | string => exact fill_name_of_type (.inr (.inr (.inl described))) done
  | vector _ => exact fill_name_of_type (.inr (.inr (.inr (.inl described.1)))) done
  | struct _ _ => exact fill_name_of_type (.inr (.inr (.inr (.inr described.1)))) done
  | union predefined_type union_value =>
    rw [PbSpec.fill, described.1] at done
    cases py_value with
    | dict entries =>
      obtain ⟨given, value, rfl, _⟩ := conforms
      dsimp only at done
      rw [PyDict2PbUnion_eq] at done
      obtain ⟨parts, rfl⟩ := convertAttrs_extends _ _ _ done
      rw [name_set]
      exact named_empty_name _
    | int _ | str _ | list _ | message _ => exact conforms.elim
  | mask _ | array _ _ | handle => exact described.elim

end

theorem convertAttrs_not_given {struct union : String → Option Filling} {given : String}
    {attrs : List PbSpec} (others : ∀ attr ∈ attrs, attr.name ≠ given)
    (provided_attrs : List String) (message : Message) :
    convertAttrs attrs .union_value struct union [(given, value)] provided_attrs message =
      .ok (message.set .union_value
        (message.union_value ++ List.replicate attrs.length .empty)) := by
  induction attrs generalizing message with
  | nil =>
    rw [convertAttrs, length_nil, replicate_zero, append_nil]
    exact congrArg Except.ok (set_get message .union_value).symm
  | cons attr attrs ih =>
    obtain ⟨different, rest⟩ := forall_mem_cons.mp others
    have missing : [(given, value)].lookup attr.name = none := by
      rw [lookup_cons, beq_eq_false_iff_ne.mpr different]
      rfl
    rw [convertAttrs, missing]
    dsimp only
    rw [if_pos rfl, ih rest, length_cons, replicate_succ]
    simp [Message.add, Message.set, Message.get]

/-- The names of the attributes are those of the fields. -/
theorem Fields.DescribedBy.names : ∀ {fields : Fields} {attrs sub_struct sub_union : List PbSpec},
    fields.DescribedBy attrs sub_struct sub_union → attrs.map (·.name) = fields.names
  | .nil, _, _, _, described => by
    rw [show _ = [] from described]
    rfl
  | .cons name field rest, _, _, _, ⟨attr, others, _, equal, named, _, _, _, _, further⟩ => by
    rw [equal, List.map_cons, named, further.names]
    rfl

/-! ## One attribute of a loop -/

section

variable {attr : PbSpec} {rest : List PbSpec} {kind : Repeated}
  {struct union : String → Option Filling} {entries : List (String × PyValue)}
  {provided_attrs : List String} {curr_value : PyValue}

/-- An attribute that is converted is followed by the others. -/
theorem convertAttrs_goes_on {converted : Except PyError Message}
    (provided : entries.lookup attr.name = some curr_value)
    (first : attr.name ∈ provided_attrs)
    (one : convertAttr attr (PyList2PbVector attr) (struct (attr.predefined_type.getD ""))
      (union (attr.predefined_type.getD "")) curr_value = converted.map (·, true))
    (message : Message) :
    convertAttrs (attr :: rest) kind struct union entries provided_attrs message =
      converted.bind fun part =>
        convertAttrs rest kind struct union entries (provided_attrs.erase attr.name)
          (message.add kind part) := by
  rw [convertAttrs]
  simp only [provided, first, if_true, one]
  cases converted <;> rfl

/-- An attribute of a type that is not found ends the loop. -/
theorem convertAttrs_ends (provided : entries.lookup attr.name = some curr_value)
    (first : attr.name ∈ provided_attrs)
    (one : convertAttr attr (PyList2PbVector attr) (struct (attr.predefined_type.getD ""))
      (union (attr.predefined_type.getD "")) curr_value = .ok (.empty, false))
    (message : Message) :
    convertAttrs (attr :: rest) kind struct union entries provided_attrs message =
      .ok (message.add kind .empty) := by
  rw [convertAttrs]
  simp only [provided, first, if_true, one]

/-- What is added first stays where it is. -/
theorem convertAttrs_getElem? {message result : Message}
    (done : convertAttrs rest kind struct union entries provided_attrs (message.add kind part) =
      .ok result) : (result.get kind)[(message.get kind).length]? = some part := by
  obtain ⟨parts, rfl⟩ := convertAttrs_extends _ _ _ done
  rw [Message.get_set, Message.add, Message.get_set, append_assoc,
    List.getElem?_append_right (Nat.le_refl _), Nat.sub_self]
  rfl

end

theorem lookup_single {given name : String} (different : name ≠ given) :
    [(given, value)].lookup name = none := by
  rw [lookup_cons, beq_eq_false_iff_ne.mpr different]
  rfl

theorem Fields.DescribedBy.others {attrs sub_struct sub_union : List PbSpec} {name : String}
    (described : fields.DescribedBy attrs sub_struct sub_union) (fresh : name ∉ fields.names) :
    ∀ attr ∈ attrs, attr.name ≠ name := by
  rintro attr listed rfl
  exact fresh (described.names ▸ mem_map_of_mem listed)

theorem Fields.AllConform.mem : ∀ {fields : Fields} {entries : List (String × PyValue)},
    fields.AllConform entries → ∀ name ∈ fields.names, name ∈ entries.map (·.1)
  | .nil, _, _, _, listed => by cases listed
  | .cons name field rest, entries, ⟨⟨value, provided, _⟩, further⟩, other, listed => by
    rcases List.mem_cons.mp listed with rfl | listed
    · obtain ⟨before, after, rfl, _⟩ := lookup_eq_some_iff.mp provided
      simp
    · exact further.mem other listed

/-! ## The conversion of values that have nothing to assign -/

mutual

theorem Spec.Inert.fill : ∀ {spec : Spec} {pb_spec : PbSpec} {sub_struct sub_union : List PbSpec}
    {py_value : PyValue}, spec.DescribedBy pb_spec sub_struct sub_union → spec.WellFormed →
    spec.Conforms py_value → spec.Inert py_value →
    ∀ message, ∃ result, pb_spec.fill message py_value = .ok result
  | .struct _ struct_value, pb_spec, _, _, .dict entries, described, formed, conforms, inert => by
    intro message
    rw [PbSpec.fill, described.1]
    dsimp only
    rw [PyDict2PbStruct_eq]
    rcases described.2 with inline | ⟨nothing, _⟩
    · refine Fields.AllInert.convert inline formed.2 formed.1 conforms.2.2 inert
        conforms.2.2.mem _
    · rw [nothing, convertAttrs]
      exact ⟨_, rfl⟩
  | .union _ union_value, pb_spec, _, _, .dict _, described, formed, ⟨given, value, rfl, conforms⟩,
      inert => by
    intro message
    rw [PbSpec.fill, described.1]
    dsimp only
    rw [PyDict2PbUnion_eq]
    rcases described.2 with inline | ⟨nothing, _⟩
    · exact Fields.GivenInert.convert inline formed.2 formed.1 conforms inert _
    · rw [nothing, convertAttrs]
      exact ⟨_, rfl⟩

theorem Fields.AllInert.convert : ∀ {fields : Fields} {attrs sub_struct sub_union : List PbSpec}
    {entries : List (String × PyValue)} {provided_attrs : List String},
    fields.DescribedBy attrs sub_struct sub_union → fields.WellFormed → fields.names.Nodup →
    fields.AllConform entries → fields.AllInert entries →
    (∀ name ∈ fields.names, name ∈ provided_attrs) →
    ∀ message, ∃ result, convertAttrs attrs .struct_value (structIn sub_struct)
      (unionIn sub_struct) entries provided_attrs message = .ok result
  | .nil, _, _, _, _, _, described, _, _, _, _, _ => by
    intro message
    rw [show _ = [] from described, convertAttrs]
    exact ⟨_, rfl⟩
  | .cons name field rest, _, _, _, _, provided_attrs,
      ⟨attr, others, definition, rfl, sameName, _, named, found, describedField, describedRest⟩,
      formed, distinct, ⟨⟨value, provided, conforms⟩, further⟩, ⟨inert, inertRest⟩, present => by
    intro message
    subst sameName
    obtain ⟨fresh, distinctRest⟩ := nodup_cons.mp distinct
    have first : attr.name ∈ provided_attrs := present _ (mem_cons_self ..)
    by_cases union : field.isUnion = false
    · rw [convertAttrs_goes_on provided first
        (convertAttr_in_struct named found describedField union)]
      obtain ⟨part, converted⟩ :=
        Spec.Inert.fill describedField formed.1 conforms (inert value provided) .empty
      rw [converted]
      refine Fields.AllInert.convert describedRest formed.2 distinctRest further inertRest ?_ _
      intro other listed
      refine (mem_erase_of_ne ?_).mpr (present other (mem_cons_of_mem _ listed))
      rintro rfl
      exact fresh listed
    · cases field with
      | union _ _ =>
        rw [convertAttrs_ends provided first (convertAttr_union_in_struct named)]
        exact ⟨_, rfl⟩
      | _ => exact absurd rfl union

theorem Fields.GivenInert.convert : ∀ {fields : Fields} {attrs sub_struct sub_union : List PbSpec}
    {given : String} {value : PyValue},
    fields.DescribedBy attrs sub_struct sub_union → fields.WellFormed → fields.names.Nodup →
    fields.GivenConforms given value → fields.GivenInert given value →
    ∀ message, ∃ result, convertAttrs attrs .union_value (structIn sub_union)
      (unionIn sub_union) [(given, value)] [given] message = .ok result
  | .cons name field rest, _, _, _, given, value,
      ⟨attr, others, definition, rfl, sameName, _, named, found, describedField, describedRest⟩,
      formed, distinct, conforms, inert => by
    intro message
    subst sameName
    obtain ⟨fresh, distinctRest⟩ := nodup_cons.mp distinct
    rw [Fields.GivenConforms] at conforms
    rw [Fields.GivenInert] at inert
    by_cases same : attr.name = given
    · subst same
      rw [if_pos rfl] at conforms inert
      have provided : [(attr.name, value)].lookup attr.name = some value := lookup_cons_self
      have first : attr.name ∈ [attr.name] := mem_singleton_self _
      cases field with
      | struct _ _ =>
        rw [convertAttrs_ends provided first (convertAttr_struct_in_union named)]
        exact ⟨_, rfl⟩
      | union _ _ =>
        rw [convertAttrs_goes_on provided first
          (convertAttr_in_union named found describedField (fun _ _ => nofun))]
        obtain ⟨part, converted⟩ :=
          Spec.Inert.fill describedField formed.1 conforms inert .empty
        rw [converted]
        exact ⟨_, convertAttrs_not_given (describedRest.others fresh) _ _⟩
      | _ => exact inert.elim
    · simp only [same, if_false] at conforms inert
      rw [convertAttrs, lookup_single same]
      dsimp only
      rw [if_pos rfl]
      exact Fields.GivenInert.convert describedRest formed.2 distinctRest conforms inert _

end

/-! ## Values that arrive -/

section

variable {device : Device}

/-- A loop over attributes makes a message from which the fields become what they should be. -/
def AttrsArrive (device : Device) (fields : Fields) (named : Bool) (kind : Repeated)
    (result : Except PyError Message) (index : Nat)
    (goal : List (String × Value) → List (String × Value)) : Prop :=
  ∃ message, result = .ok message ∧ FieldsGive device fields named kind index message goal

/-- The message of a field is passed over or decoded, and either way the field becomes what it
should be. -/
def PartGives (device : Device) (field : Spec) (named : Bool) (name : String) (part : Message)
    (goal : Value → Value) : Prop :=
  passesOver named name (some part) = .ok true ∧
      (∀ before, field.Holds before → goal before = before) ∨
    passesOver named name (some part) = .ok false ∧
      ∀ before, field.Holds before → decode device field (some part) before = .ok (goal before)

section

variable {name : String} {field : Spec} {named : Bool} {kind : Repeated}
  {struct union : String → Option Filling} {entries : List (String × PyValue)}
  {provided_attrs : List String} {message : Message} {sub_struct sub_union : List PbSpec}
  {definition : PbSpec}

/-- The attributes arrive if the first of them does and the others do. -/
theorem attrsArrive_cons {rest : List PbSpec} (first : Value → Value)
    (later : List (String × Value) → List (String × Value))
    (split : ∀ present members, field.Holds present → fields.Hold members →
      goal ((name, present) :: members) = (name, first present) :: later members) :
    AttrsArrive device (.cons name field fields) named kind
        (convertAttrs rest kind struct union entries provided_attrs (message.add kind part))
        (message.get kind).length goal ↔
      PartGives device field named name part first ∧
        AttrsArrive device fields named kind
          (convertAttrs rest kind struct union entries provided_attrs (message.add kind part))
          ((message.add kind part).get kind).length later := by
  have length : ((message.add kind part).get kind).length = (message.get kind).length + 1 := by
    simp [Message.add]
  rw [length]
  constructor
  · rintro ⟨result, done, give⟩
    obtain ⟨one, further⟩ :=
      (fieldsGive_cons first later (convertAttrs_getElem? done) split).mp give
    exact ⟨one, result, done, further⟩
  · rintro ⟨one, result, done, further⟩
    exact ⟨result, done,
      (fieldsGive_cons first later (convertAttrs_getElem? done) split).mpr ⟨one, further⟩⟩

theorem attrsArrive_bind {converted : Except PyError Message}
    {onward : Message → Except PyError Message} {index : Nat} :
    AttrsArrive device fields named kind (converted.bind onward) index goal ↔
      ∃ part, converted = .ok part ∧
        AttrsArrive device fields named kind (onward part) index goal := by
  cases converted with
  | error error => simp [AttrsArrive, Except.bind]
  | ok part => simp [Except.bind]

/-- Nothing comes from attributes after the one that ended a loop. -/
theorem attrsArrive_ended {attrs : List PbSpec}
    (described : fields.DescribedBy attrs sub_struct sub_union) (first : Value → Value)
    (later : List (String × Value) → List (String × Value))
    (split : ∀ present members, field.Holds present → fields.Hold members →
      goal ((name, present) :: members) = (name, first present) :: later members)
    (kept : fields = .nil → later [] = []) :
    AttrsArrive device (.cons name field fields) named kind (.ok (message.add kind .empty))
        (message.get kind).length goal ↔
      PartGives device field named name .empty first ∧ fields = .nil := by
  have found : ((message.add kind .empty).get kind)[(message.get kind).length]? = some .empty := by
    simp [Message.add]
  have missing : ((message.add kind .empty).get kind)[(message.get kind).length + 1]? = none := by
    simp [Message.add]
  have last : FieldsGive device fields named kind ((message.get kind).length + 1)
      (message.add kind .empty) later ↔ fields = .nil := by
    constructor
    · intro give
      cases fields with
      | nil => rfl
      | cons other next others =>
        obtain ⟨attr, _, _, _, _, _, named_by, _⟩ := described
        exact absurd (give _ (Fields.hold_default _))
          (not_fieldsDecode_of_missing named_by.referred missing)
    · rintro rfl old rfl
      exact kept rfl
  constructor
  · rintro ⟨_, done, give⟩
    cases done
    obtain ⟨one, further⟩ := (fieldsGive_cons first later found split).mp give
    exact ⟨one, last.mp further⟩
  · rintro ⟨one, ended⟩
    exact ⟨_, rfl, (fieldsGive_cons first later found split).mpr ⟨one, last.mpr ended⟩⟩

theorem partGives_unnamed {goal : Value → Value} :
    PartGives device field false name part goal ↔
      ∀ before, field.Holds before → decode device field (some part) before = .ok (goal before) := by
  simp [PartGives, passesOver]

theorem partGives_of_name {goal : Value → Value} (same : part.name.getD "" = name) :
    PartGives device field named name part goal ↔
      ∀ before, field.Holds before → decode device field (some part) before = .ok (goal before) := by
  cases named <;> simp [PartGives, passesOver, same]

theorem partGives_of_ne {goal : Value → Value} (different : part.name.getD "" ≠ name) :
    PartGives device field true name part goal ↔
      ∀ before, field.Holds before → goal before = before := by
  simp [PartGives, passesOver, different]

/-- A union that is read from a message without members is not assigned. -/
theorem not_gives_union_missing {union_value : Fields} (nothing : message.get .union_value = [])
    (formed : (Spec.union predefined_type union_value).WellFormed)
    (described : (Spec.union predefined_type union_value).DescribedBy definition sub_struct
      sub_union) (conforms : (Spec.union predefined_type union_value).Conforms value) :
    ¬ Gives device (.union predefined_type union_value) message value := by
  have members : union_value ≠ .nil := by
    rintro rfl
    cases value with
    | dict _ =>
      obtain ⟨_, _, _, given⟩ := conforms
      exact given
    | _ => exact conforms
  intro gives
  have missing : ∀ {attrs nested nested_union : List PbSpec},
      union_value.DescribedBy attrs nested nested_union → union_value = .nil := fun inside =>
    (decode_fields_missing predefined_type.isSome _ formed.1 inside nothing (Spec.holds_union _ _)
      (fun old => by cases predefined_type <;> rw [decode] <;> rfl)
      (fun empty => absurd empty members)).mp gives
  rcases described.2 with inline | ⟨_, listed, _, nested⟩
  · exact members (missing inline)
  · exact members (missing nested)

/-- A struct that is read from a message without members has none. -/
theorem gives_struct_missing {struct_value : Fields} (nothing : message.get .struct_value = [])
    (formed : (Spec.struct predefined_type struct_value).WellFormed)
    (described : (Spec.struct predefined_type struct_value).DescribedBy definition sub_struct
      sub_union) (conforms : (Spec.struct predefined_type struct_value).Conforms value) :
    Gives device (.struct predefined_type struct_value) message value ↔ struct_value = .nil := by
  have kept : struct_value = .nil → ∀ before,
      (Spec.struct predefined_type struct_value).Holds before →
      (Spec.struct predefined_type struct_value).assigned device value before = before := by
    rintro rfl
    refine (Spec.assigned_eq_self conforms).mpr ?_
    cases value with
    | dict _ => trivial
    | _ => exact conforms.elim
  have missing : ∀ {attrs nested nested_union : List PbSpec},
      struct_value.DescribedBy attrs nested nested_union →
      (Gives device (.struct predefined_type struct_value) message value ↔ struct_value = .nil) :=
    fun inside => decode_fields_missing false _ formed.1 inside nothing (Spec.holds_struct _ _)
      (fun old => by cases predefined_type <;> rw [decode]) kept
  rcases described.2 with inline | ⟨_, listed, _, nested⟩
  · exact missing inline
  · exact missing nested

theorem Fields.givenAssigned_given {name : String} {field : Spec} {rest : Fields}
    {value : PyValue} (present : Value) (members : List (String × Value)) :
    (Fields.cons name field rest).givenAssigned device name value ((name, present) :: members) =
      (name, field.assigned device value present) :: members := by
  rw [Fields.givenAssigned, if_pos rfl]

theorem Fields.givenAssigned_other {name given : String} {field : Spec} {rest : Fields}
    {value : PyValue} (different : name ≠ given) (present : Value)
    (members : List (String × Value)) :
    (Fields.cons name field rest).givenAssigned device given value ((name, present) :: members) =
      (name, present) :: rest.givenAssigned device given value members := by
  rw [Fields.givenAssigned, if_neg different]

/-- What the conversion of the given member of a union must be: its message carries its name, or
is passed over where there is nothing to assign. -/
theorem arrive_member {attr : PbSpec} (namedBy : field.NamedBy attr sub_struct sub_union)
    (found : attr.definition sub_struct sub_union = some definition)
    (described : field.DescribedBy definition sub_struct sub_union) (formed : field.WellFormed)
    (conforms : field.Conforms value)
    (flat : ∀ predefined_type struct_value, field ≠ .struct predefined_type struct_value)
    (last : Prop) (arrives : Arrives device field (definition.fill .empty value) value ↔
      field.Delivered definition value) :
    (∃ part, definition.fill .empty value = .ok part ∧
        PartGives device field named attr.name part (field.assigned device value)) ↔
      field.MemberDelivered named attr.name last (field.Inert value)
        (∀ other, attr.definition sub_struct sub_union = some other →
          field.Delivered other value) := by
  have only : (∀ other, attr.definition sub_struct sub_union = some other →
      field.Delivered other value) ↔ field.Delivered definition value := by
    simp [found]
  have readable : ∀ {part : Message}, definition.fill .empty value = .ok part →
      part.name.getD "" = definition.name := fun done => fill_name described conforms done
  rw [only, ← arrives]
  -- A part with the name of the member is decoded.
  have sameName : definition.name = attr.name →
      ((∃ part, definition.fill .empty value = .ok part ∧
        PartGives device field named attr.name part (field.assigned device value)) ↔
      Arrives device field (definition.fill .empty value) value) := fun same =>
    exists_congr fun part => and_congr_right fun done =>
      partGives_of_name ((readable done).trans same)
  cases field with
  | struct predefined_type struct_value => exact absurd rfl (flat _ _)
  | union predefined_type union_value =>
    have listed : FindSubType sub_union (attr.predefined_type.getD "") = some definition := by
      rwa [PbSpec.definition, namedBy.1] at found
    have typeName : predefined_type = some definition.name := by
      rw [FindSubType_name listed]
      exact namedBy.2.1
    rw [Spec.MemberDelivered]
    by_cases same : definition.name = attr.name
    · rw [if_neg (by simp [typeName, same])]
      exact sameName same
    · cases named with
      | true =>
        rw [if_pos ⟨rfl, by simp [typeName, same]⟩, ← Spec.assigned_eq_self conforms]
        constructor
        · rintro ⟨part, done, gives⟩
          exact (partGives_of_ne (by rwa [readable done])).mp gives
        · intro nothing
          obtain ⟨part, done⟩ := Spec.Inert.fill described formed conforms
            ((Spec.assigned_eq_self conforms).mp nothing) .empty
          exact ⟨part, done, (partGives_of_ne (by rwa [readable done])).mpr nothing⟩
      | false =>
        rw [if_neg (by simp)]
        exact exists_congr fun part => and_congr_right fun _ => partGives_unnamed
  | _ =>
    obtain rfl := PbSpec.definition_eq namedBy rfl flat found
    exact sameName rfl

/-- After the given member all others are empty messages. -/
theorem attrsArrive_not_given {attrs : List PbSpec}
    (described : fields.DescribedBy attrs sub_struct sub_union) (fresh : name ∉ fields.names)
    (formed : fields.WellFormed) :
    AttrsArrive device fields named .union_value
        (convertAttrs attrs .union_value struct union [(name, value)] provided_attrs message)
        (message.get .union_value).length id ↔ named = true ∨ fields.Idle := by
  rw [convertAttrs_not_given (described.others fresh)]
  have give := @fieldsGive_empty device (message.set .union_value
    (message.union_value ++ List.replicate attrs.length .empty)) named fields attrs sub_struct
    sub_union message.union_value rfl described formed
  rw [← give]
  simp [AttrsArrive, Message.get]

theorem arrives_ok :
    Arrives device spec (.ok message) py_value ↔ Gives device spec message py_value := by
  simp [Arrives]

theorem Fields.allDelivered_nil :
    fields.AllDelivered [] sub_struct sub_union entries ↔ fields = .nil := by
  cases fields <;> simp [Fields.AllDelivered]

end

mutual

/-- A value that conforms to its specification arrives exactly under `Delivered`. -/
theorem fill_arrives (typed : device.Typed) : ∀ {spec : Spec} {pb_spec : PbSpec}
    {sub_struct sub_union : List PbSpec} {py_value : PyValue} {name : Option String},
    spec.DescribedBy pb_spec sub_struct sub_union → spec.WellFormed → spec.Conforms py_value →
    (Arrives device spec (pb_spec.fill (.withName name) py_value) py_value ↔
      spec.Delivered pb_spec py_value)
  | .scalar _, _, _, _, .int _, name, described, _, conforms =>
    iff_of_true (fill_scalar name described conforms) trivial
  | .string, _, _, _, .str _, name, described, _, conforms =>
    iff_of_true (fill_string name described conforms) trivial
  | .enum _ _, _, _, _, .int _, name, described, _, conforms => fill_enum name described conforms
  | .vector element, pb_spec, _, _, .list items, name, ⟨type, vector_spec, only, described⟩, formed,
      ⟨few, conform⟩ => by
    rw [fill_vector name typed type only described few conform, Spec.Delivered, only]
    refine and_congr_right fun _ => forall₂_congr fun item listed => ?_
    rw [fill_arrives typed described formed (conform item listed)]
    simp
  | .struct predefined_type struct_value, pb_spec, _, _, .dict entries, name, described, formed,
      conforms => by
    rw [PbSpec.fill, described.1]
    dsimp only
    rw [PyDict2PbStruct_eq, Spec.Delivered]
    have same : ∀ result, Arrives device (.struct predefined_type struct_value) result
        (.dict entries) ↔ AttrsArrive device struct_value false .struct_value result 0
          (struct_value.allAssigned device entries) := fun result =>
      exists_congr fun message => and_congr_right fun _ => gives_struct formed.1 entries
    rw [same]
    rcases described.2 with inline | ⟨nothing, listed, _, nested⟩
    · rw [← struct_arrives typed inline formed.2 formed.1 conforms.2.2 conforms.2.2.mem
        { (Message.withName name).named pb_spec.name with type := some .TYPE_STRUCT }]
      rw [named_withName]
      rfl
    · rw [nothing, convertAttrs, ← same, Fields.allDelivered_nil, arrives_ok]
      exact gives_struct_missing (by rw [named_withName]; rfl) formed described conforms
  | .union predefined_type union_value, pb_spec, _, _, .dict _, name, described, formed,
      ⟨given, value, rfl, conforms⟩ => by
    rw [PbSpec.fill, described.1]
    dsimp only
    rw [PyDict2PbUnion_eq, Spec.Delivered]
    have same : ∀ result, Arrives device (.union predefined_type union_value) result
        (.dict [(given, value)]) ↔ AttrsArrive device union_value predefined_type.isSome
          .union_value result 0 (union_value.givenAssigned device given value) := fun result =>
      exists_congr fun message => and_congr_right fun _ => gives_union formed.1 given value
    rw [same]
    rcases described.2 with inline | ⟨nothing, listed, _, nested⟩
    · rw [← union_arrives typed inline formed.2 formed.1 conforms
        { (Message.withName name).named pb_spec.name with type := some .TYPE_UNION }]
      rw [named_withName]
      rfl
    · rw [nothing, convertAttrs, ← same, arrives_ok]
      refine iff_of_false (not_gives_union_missing (by rw [named_withName]; rfl) formed
        described ⟨given, value, rfl, conforms⟩) ?_
      cases union_value with
      | nil => exact conforms.elim
      | cons _ _ _ => exact id

theorem struct_arrives (typed : device.Typed) : ∀ {fields : Fields}
    {attrs sub_struct sub_union : List PbSpec} {entries : List (String × PyValue)}
    {provided_attrs : List String}, fields.DescribedBy attrs sub_struct sub_union →
    fields.WellFormed → fields.names.Nodup → fields.AllConform entries →
    (∀ name ∈ fields.names, name ∈ provided_attrs) → ∀ message : Message,
    (AttrsArrive device fields false .struct_value
        (convertAttrs attrs .struct_value (structIn sub_struct) (unionIn sub_struct) entries
          provided_attrs message)
        (message.get .struct_value).length (fields.allAssigned device entries) ↔
      fields.AllDelivered attrs sub_struct sub_union entries)
  | .nil, _, _, _, _, _, described, _, _, _, _, message => by
    rw [show _ = [] from described, convertAttrs]
    exact iff_of_true ⟨message, rfl, fun old held => by rw [show old = [] from held]; rfl⟩ trivial
  | .cons name field rest, _, sub_struct, sub_union, entries, provided_attrs,
      ⟨attr, others, definition, rfl, sameName, _, named, found, describedField, describedRest⟩,
      formed, distinct, ⟨⟨value, provided, conforms⟩, further⟩, present, message => by
    subst sameName
    obtain ⟨fresh, distinctRest⟩ := nodup_cons.mp distinct
    have first : attr.name ∈ provided_attrs := present _ (mem_cons_self ..)
    have stillPresent : ∀ other ∈ rest.names, other ∈ provided_attrs.erase attr.name := by
      intro other listed
      refine (mem_erase_of_ne ?_).mpr (present other (mem_cons_of_mem _ listed))
      rintro rfl
      exact fresh listed
    have split := fun present members (_ : field.Holds present) (_ : rest.Hold members) =>
      @Fields.allAssigned_cons device attr.name field rest _ _ provided present members
    rw [Fields.AllDelivered]
    by_cases union : field.isUnion = false
    · rw [convertAttrs_goes_on provided first
        (convertAttr_in_struct named found describedField union)]
      have arrives : Arrives device field (definition.fill .empty value) value ↔ _ :=
        @fill_arrives typed _ _ _ _ _ none describedField formed.1 conforms
      have later := fun part => struct_arrives typed describedRest formed.2 distinctRest further
        stillPresent (message.add .struct_value part)
      have only : (∀ other given, attr.definition sub_struct sub_union = some other →
          entries.lookup attr.name = some given → field.Delivered other given) ↔
          field.Delivered definition value := by
        simp [found, provided]
      rw [attrsArrive_bind, and_iff_right union, only, ← arrives]
      simp only [attrsArrive_cons _ _ split, later, partGives_unnamed]
      constructor
      · rintro ⟨part, done, gives, others⟩
        exact ⟨⟨part, done, gives⟩, others⟩
      · rintro ⟨⟨part, done, gives⟩, others⟩
        exact ⟨part, done, gives, others⟩
    · cases field with
      | union _ _ =>
        rw [convertAttrs_ends provided first (convertAttr_union_in_struct named),
          attrsArrive_ended describedRest _ _ split (by rintro rfl; rfl), partGives_unnamed]
        refine iff_of_false (fun both => ?_) (fun both => union both.1)
        exact not_gives_union_missing rfl formed.1 describedField conforms both.1
      | _ => exact absurd rfl union

theorem union_arrives (typed : device.Typed) : ∀ {fields : Fields} {named : Bool}
    {attrs sub_struct sub_union : List PbSpec} {given : String} {value : PyValue},
    fields.DescribedBy attrs sub_struct sub_union → fields.WellFormed → fields.names.Nodup →
    fields.GivenConforms given value → ∀ message : Message,
    (AttrsArrive device fields named .union_value
        (convertAttrs attrs .union_value (structIn sub_union) (unionIn sub_union) [(given, value)]
          [given] message)
        (message.get .union_value).length (fields.givenAssigned device given value) ↔
      fields.GivenDelivered named attrs sub_struct sub_union given value)
  | .cons name field rest, named, _, sub_struct, sub_union, given, value,
      ⟨attr, others, definition, rfl, sameName, someName, namedBy, found, describedField,
        describedRest⟩, formed, distinct, conforms, message => by
    subst sameName
    obtain ⟨fresh, distinctRest⟩ := nodup_cons.mp distinct
    rw [Fields.GivenConforms] at conforms
    rw [Fields.GivenDelivered]
    by_cases same : attr.name = given
    · subst same
      rw [if_pos rfl] at conforms ⊢
      have provided : [(attr.name, value)].lookup attr.name = some value := lookup_cons_self
      have first : attr.name ∈ [attr.name] := mem_singleton_self _
      have split := fun present members (_ : field.Holds present) (_ : rest.Hold members) =>
        @Fields.givenAssigned_given device attr.name field rest value present members
      by_cases flat : ∀ predefined_type struct_value, field ≠ .struct predefined_type struct_value
      · have arrives : Arrives device field (definition.fill .empty value) value ↔ _ :=
          @fill_arrives typed _ _ _ _ _ none describedField formed.1 conforms
        rw [convertAttrs_goes_on provided first
          (convertAttr_in_union namedBy found describedField flat), attrsArrive_bind,
          ← arrive_member namedBy found describedField formed.1 conforms flat _ arrives]
        simp only [attrsArrive_cons _ id split, attrsArrive_not_given describedRest fresh formed.2]
        constructor
        · rintro ⟨part, done, gives, others⟩
          exact ⟨others, part, done, gives⟩
        · rintro ⟨others, part, done, gives⟩
          exact ⟨part, done, gives, others⟩
      · cases field with
        | struct predefined_type struct_value =>
          rw [convertAttrs_ends provided first (convertAttr_struct_in_union namedBy),
            attrsArrive_ended describedRest _ id split (fun _ => rfl), Spec.MemberDelivered]
          have member : PartGives device (.struct predefined_type struct_value) named attr.name
              .empty ((Spec.struct predefined_type struct_value).assigned device value) ↔
              if named = true then (Spec.struct predefined_type struct_value).Inert value
              else struct_value = .nil := by
            cases named with
            | true =>
              have unnamed : Message.empty.name.getD "" ≠ attr.name := someName.symm
              exact (partGives_of_ne unnamed).trans (Spec.assigned_eq_self conforms)
            | false =>
              exact partGives_unnamed.trans
                (gives_struct_missing rfl formed.1 describedField conforms)
          rw [member]
          constructor
          · rintro ⟨one, rfl⟩
            exact ⟨Or.inr trivial, rfl, one⟩
          · rintro ⟨_, ended, one⟩
            exact ⟨one, ended⟩
        | _ => exact absurd (fun _ _ => nofun) flat
    · simp only [same, if_false] at conforms ⊢
      have split := fun present members (_ : field.Holds present) (_ : rest.Hold members) =>
        @Fields.givenAssigned_other device attr.name given field rest value same present members
      have idle := @decode_empty_iff device field definition sub_struct sub_union formed.1
        describedField
      rw [convertAttrs, lookup_single same]
      dsimp only
      rw [if_pos rfl, attrsArrive_cons id _ split,
        union_arrives typed describedRest formed.2 distinctRest conforms, ← idle]
      refine and_congr_left fun _ => ?_
      cases named with
      | true =>
        have unnamed : Message.empty.name.getD "" ≠ attr.name := someName.symm
        simp [partGives_of_ne unnamed]
      | false => simp [partGives_unnamed]

end

end

/-! ## From the host to the driver -/

mutual

/-- Without arrays every message is of a size that fits. -/
theorem Spec.DescribedBy.sized : ∀ {spec : Spec} {pb_spec : PbSpec}
    {sub_struct sub_union : List PbSpec}, spec.DescribedBy pb_spec sub_struct sub_union →
    ∀ message, spec.Sized message
  | .scalar _, _, _, _, _, _ | .string, _, _, _, _, _ | .enum _ _, _, _, _, _, _ => trivial
  | .vector _, _, _, _, ⟨_, _, _, described⟩, _ => fun part _ => described.sized part
  | .struct _ _, _, _, _, ⟨_, .inl inline⟩, _
  | .struct _ _, _, _, _, ⟨_, .inr ⟨_, _, _, inline⟩⟩, _
  | .union _ _, _, _, _, ⟨_, .inl inline⟩, _
  | .union _ _, _, _, _, ⟨_, .inr ⟨_, _, _, inline⟩⟩, _ => inline.sized _ _ _

theorem Fields.DescribedBy.sized : ∀ {fields : Fields} {attrs sub_struct sub_union : List PbSpec},
    fields.DescribedBy attrs sub_struct sub_union → ∀ kind index message,
    fields.Sized kind index message
  | .nil, _, _, _, _, _, _, _ => trivial
  | .cons _ _ _, _, _, _, ⟨_, _, _, _, _, _, _, _, described, further⟩, kind, index, message =>
    ⟨fun part _ => described.sized part, further.sized kind (index + 1) message⟩

end

/-- A specification with nothing but a name and a type. -/
def PbSpec.ofType (name : String) (type : VariableType) : PbSpec where
  name := name
  type := type
  scalar_type := none
  enum_value := none
  predefined_type := none
  vector_value := []
  struct_value := []
  union_value := []
  sub_struct := []
  sub_union := []

/-- A struct with an enumeration, a vector and a nested struct, and its specification. -/
def probeSpec : Spec :=
  .struct (some "Probe") (.cons "mode" (.enum "Mode" .int32_t) (.cons "levels"
    (.vector (.scalar .uint8_t)) (.cons "tag" (.struct (some "Tag") (.cons "text" .string .nil))
      .nil)))

def probePbSpec : PbSpec where
  name := "Probe"
  type := .TYPE_STRUCT
  scalar_type := none
  enum_value := none
  predefined_type := none
  vector_value := []
  struct_value := [
    { PbSpec.ofType "mode" .TYPE_ENUM with predefined_type := some "Mode" },
    { PbSpec.ofType "levels" .TYPE_VECTOR with
      vector_value := [{ PbSpec.ofType "" .TYPE_SCALAR with scalar_type := some .uint8_t }] },
    { PbSpec.ofType "tag" .TYPE_STRUCT with predefined_type := some "Tag" }]
  union_value := []
  sub_struct := [
    { PbSpec.ofType "Tag" .TYPE_STRUCT with struct_value := [PbSpec.ofType "text" .TYPE_STRING] }]
  sub_union := []

end Vts.Vtsc
