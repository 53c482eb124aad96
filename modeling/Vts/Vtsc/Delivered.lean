import Vts.Vtsc.Py2Pb
import Vts.Vtsc.Rebuild

/-!
# Arguments and what they should become

What a specification on the host says of the type of an argument, which Python values conform to
it, and what the variable of the driver should be afterwards. `Delivered` is the condition under
which the host and the driver agree about an argument; that it is exact is proved in
`Vts.Vtsc.Arguments`.

The names of nested types tell structs from unions: a name is not in `sub_struct` and in
`sub_union`. The lemmas here are about the side of the driver: what is read from parts that are
missing or empty, and from the parts one by one.
-/

namespace Vts.Vtsc

open Vts.Lib List

/-! ## Specifications and values -/

/-- The specification in which the type of an attribute is described: for a nested type, the one
of its name in `sub_struct` or `sub_union`. -/
def PbSpec.definition (attr : PbSpec) (sub_struct sub_union : List PbSpec) : Option PbSpec :=
  match attr.type with
  | .TYPE_STRUCT => FindSubType sub_struct (attr.predefined_type.getD "")
  | .TYPE_UNION => FindSubType sub_union (attr.predefined_type.getD "")
  | _ => some attr

/-- An attribute names a nested type, which is not in the list for the other kind of types. -/
def Spec.NamedBy (field : Spec) (attr : PbSpec) (sub_struct sub_union : List PbSpec) : Prop :=
  match field with
  | .struct predefined_type _ => attr.type = .TYPE_STRUCT ∧
      predefined_type = some (attr.predefined_type.getD "") ∧
      FindSubType sub_union (attr.predefined_type.getD "") = none
  | .union predefined_type _ => attr.type = .TYPE_UNION ∧
      predefined_type = some (attr.predefined_type.getD "") ∧
      FindSubType sub_struct (attr.predefined_type.getD "") = none
  | _ => attr.type ≠ .TYPE_STRUCT ∧ attr.type ≠ .TYPE_UNION

/-- A specification only names a type, which one of the nested types has. -/
def PbSpec.Names (pb_spec : PbSpec) (predefined_type : Option String) (subs : List PbSpec)
    (listed : PbSpec) : Prop :=
  predefined_type = some (pb_spec.predefined_type.getD "") ∧
    FindSubType subs (pb_spec.predefined_type.getD "") = some listed

mutual

/-- A specification describes a type that is built from scalars, strings, predefined
enumerations, vectors, structs and unions. The elements of a vector may be of a nested type, from
the lists of the struct or union around it. -/
def Spec.DescribedBy : Spec → PbSpec → (sub_struct sub_union : List PbSpec) → Prop
  | .scalar scalar_type, pb_spec, _, _ =>
    pb_spec.type = .TYPE_SCALAR ∧ pb_spec.scalar_type = some scalar_type
  | .string, pb_spec, _, _ => pb_spec.type = .TYPE_STRING
  | .enum predefined_type _, pb_spec, _, _ => pb_spec.type = .TYPE_ENUM ∧
      pb_spec.enum_value = none ∧ pb_spec.predefined_type = some predefined_type
  | .vector vector_value, pb_spec, sub_struct, sub_union => pb_spec.type = .TYPE_VECTOR ∧
      ∃ vector_spec, pb_spec.vector_value = [vector_spec] ∧
        vector_value.DescribedBy vector_spec sub_struct sub_union
  | .struct predefined_type struct_value, pb_spec, sub_struct, _ => pb_spec.type = .TYPE_STRUCT ∧
      (struct_value.DescribedBy pb_spec.struct_value pb_spec.sub_struct pb_spec.sub_union ∨
        pb_spec.struct_value = [] ∧ ∃ listed, pb_spec.Names predefined_type sub_struct listed ∧
          struct_value.DescribedBy listed.struct_value listed.sub_struct listed.sub_union)
  | .union predefined_type union_value, pb_spec, _, sub_union => pb_spec.type = .TYPE_UNION ∧
      (union_value.DescribedBy pb_spec.union_value pb_spec.sub_struct pb_spec.sub_union ∨
        pb_spec.union_value = [] ∧ ∃ listed, pb_spec.Names predefined_type sub_union listed ∧
          union_value.DescribedBy listed.union_value listed.sub_struct listed.sub_union)
  | _, _, _, _ => False

def Fields.DescribedBy : Fields → List PbSpec → (sub_struct sub_union : List PbSpec) → Prop
  | .nil, attrs, _, _ => attrs = []
  | .cons name field rest, attrs, sub_struct, sub_union => ∃ attr others definition,
      attrs = attr :: others ∧ attr.name = name ∧ name ≠ "" ∧
      field.NamedBy attr sub_struct sub_union ∧
      attr.definition sub_struct sub_union = some definition ∧
      field.DescribedBy definition sub_struct sub_union ∧
      rest.DescribedBy others sub_struct sub_union

end

mutual

/-- A Python value conforms to a type. The value for a union is the one member that is given. -/
def Spec.Conforms : Spec → PyValue → Prop
  | .scalar scalar_type, .int value => scalar_type.InRange value
  | .string, .str bytes => bytes.length < 2 ^ 32
  | .enum _ scalar_type, .int value => scalar_type.InRange value
  | .vector vector_value, .list items =>
    items.length < 2 ^ 32 ∧ ∀ item ∈ items, vector_value.Conforms item
  | .struct _ struct_value, .dict entries =>
    (∀ entry ∈ entries, entry.1 ∈ struct_value.names) ∧ (entries.map (·.1)).Nodup ∧
      struct_value.AllConform entries
  | .union _ union_value, .dict entries => ∃ given value, entries = [(given, value)] ∧
      union_value.GivenConforms given value
  | _, _ => False

def Fields.AllConform : Fields → List (String × PyValue) → Prop
  | .nil, _ => True
  | .cons name field rest, entries =>
    (∃ value, entries.lookup name = some value ∧ field.Conforms value) ∧ rest.AllConform entries

def Fields.GivenConforms : Fields → String → PyValue → Prop
  | .nil, _, _ => False
  | .cons name field rest, given, value =>
    if name = given then field.Conforms value else rest.GivenConforms given value

end

mutual

/-- The value that a variable should have after a Python value is assigned to it. Of a union
only the given member is assigned. -/
def Spec.assigned (device : Device) : Spec → PyValue → Value → Value
  | .scalar _, .int value, _ => .scalar value
  | .string, .str bytes, _ => .string bytes
  | .enum _ _, .int value, _ => .scalar value
  | .vector vector_value, .list items, .list elements =>
    .list (List.zipWith (fun item element => vector_value.assigned device item element) items
      (resized device vector_value items.length elements))
  | .struct _ struct_value, .dict entries, .record members =>
    .record (struct_value.allAssigned device entries members)
  | .union _ union_value, .dict [(given, value)], .record members =>
    .record (union_value.givenAssigned device given value members)
  | _, _, before => before

def Fields.allAssigned (device : Device) : Fields → List (String × PyValue) →
    List (String × Value) → List (String × Value)
  | .cons name field rest, entries, (member, present) :: members =>
    (member, match entries.lookup name with
      | some value => field.assigned device value present
      | none => present) :: rest.allAssigned device entries members
  | _, _, members => members

def Fields.givenAssigned (device : Device) : Fields → String → PyValue →
    List (String × Value) → List (String × Value)
  | .cons name field rest, given, value, (member, present) :: members =>
    if name = given then (member, field.assigned device value present) :: members
    else (member, present) :: rest.givenAssigned device given value members
  | _, _, _, members => members

end

/-! ## When a value arrives -/

mutual

/-- A Python value has nothing to assign: it is made of structs without members. -/
def Spec.Inert : Spec → PyValue → Prop
  | .struct _ struct_value, .dict entries => struct_value.AllInert entries
  | .union _ union_value, .dict [(given, value)] => union_value.GivenInert given value
  | _, _ => False

def Fields.AllInert : Fields → List (String × PyValue) → Prop
  | .nil, _ => True
  | .cons name field rest, entries =>
    (∀ value, entries.lookup name = some value → field.Inert value) ∧ rest.AllInert entries

def Fields.GivenInert : Fields → String → PyValue → Prop
  | .nil, _, _ => True
  | .cons name field rest, given, value =>
    if name = given then field.Inert value else rest.GivenInert given value

end

/-- The code for a type reads nothing from a message. -/
def Spec.Idle : Spec → Prop
  | .struct _ .nil => True
  | .union _ .nil => True
  | _ => False

def Fields.Idle : Fields → Prop
  | .nil => True
  | .cons _ field rest => field.Idle ∧ rest.Idle

/-- The given member of a union arrives: a struct is not found among the nested types and ends
the message, and a union has the name of its type and not that of the member. -/
def Spec.MemberDelivered (field : Spec) (named : Bool) (name : String)
    (last inert delivered : Prop) : Prop :=
  match field with
  | .struct _ struct_value => last ∧ if named then inert else struct_value = .nil
  | .union predefined_type _ =>
    if named = true ∧ predefined_type ≠ some name then inert else delivered
  | _ => delivered

def Spec.isUnion : Spec → Bool
  | .union _ _ => true
  | _ => false

mutual

/-- The values of enumerations are of type `int32_t` or 0, vectors have less than 2³¹ elements,
no struct has a union in it, and the members of unions are given in a way that is understood. -/
def Spec.Delivered : Spec → PbSpec → PyValue → Prop
  | .enum _ scalar_type, _, .int value => scalar_type = .int32_t ∨ value = 0
  | .vector vector_value, pb_spec, .list items => items.length < 2 ^ 31 ∧
      ∀ item ∈ items, ∀ vector_spec ∈ pb_spec.vector_value, vector_value.Delivered vector_spec item
  | .struct _ struct_value, pb_spec, .dict entries =>
    struct_value.AllDelivered pb_spec.struct_value pb_spec.sub_struct pb_spec.sub_union entries
  | .union predefined_type union_value, pb_spec, .dict [(given, value)] =>
    union_value.GivenDelivered predefined_type.isSome pb_spec.union_value pb_spec.sub_struct
      pb_spec.sub_union given value
  | _, _, _ => True

/-- The members of a struct are in its own specification. -/
def Fields.AllDelivered : Fields → List PbSpec → (sub_struct sub_union : List PbSpec) →
    List (String × PyValue) → Prop
  | .nil, _, _, _, _ => True
  | .cons _ _ _, [], _, _, _ => False
  | .cons name field rest, attr :: attrs, sub_struct, sub_union, entries =>
    field.isUnion = false ∧
      (∀ definition value, attr.definition sub_struct sub_union = some definition →
        entries.lookup name = some value → field.Delivered definition value) ∧
      rest.AllDelivered attrs sub_struct sub_union entries

/-- A union that is not predefined is assigned member by member, also where none is given. -/
def Fields.GivenDelivered : Fields → Bool → List PbSpec → (sub_struct sub_union : List PbSpec) →
    String → PyValue → Prop
  | .nil, _, _, _, _, _, _ => True
  | .cons _ _ _, _, [], _, _, _, _ => False
  | .cons name field rest, named, attr :: attrs, sub_struct, sub_union, given, value =>
    if name = given then
      (named = true ∨ rest.Idle) ∧
        field.MemberDelivered named name (rest = .nil) (field.Inert value)
          (∀ definition, attr.definition sub_struct sub_union = some definition →
            field.Delivered definition value)
    else
      (named = true ∨ field.Idle) ∧
        rest.GivenDelivered named attrs sub_struct sub_union given value

end

/-! ## Values that have nothing to assign -/

section

variable {device : Device}

theorem Fields.allAssigned_cons (name : String) (field : Spec) (rest : Fields)
    {entries : List (String × PyValue)} {value : PyValue}
    (provided : entries.lookup name = some value) (present : Value)
    (members : List (String × Value)) :
    (Fields.cons name field rest).allAssigned device entries ((name, present) :: members) =
      (name, field.assigned device value present) :: rest.allAssigned device entries members := by
  rw [Fields.allAssigned, provided]

mutual

theorem Spec.assigned_eq_self : ∀ {spec : Spec} {value : PyValue}, spec.Conforms value →
    ((∀ before, spec.Holds before → spec.assigned device value before = before) ↔
      spec.Inert value)
  | .scalar scalar_type, .int number, _ | .enum _ scalar_type, .int number, _ => by
    refine iff_of_false (fun same => ?_) id
    obtain ⟨other, inRange, different⟩ := scalar_type.exists_inRange_ne number
    cases same (.scalar other) inRange
    exact different rfl
  | .string, .str bytes, _ => by
    refine iff_of_false (fun same => ?_) id
    have equal : Value.string bytes = .string (0 :: bytes) := same (.string (0 :: bytes)) trivial
    simp at equal
  | .vector vector_value, .list items, _ => by
    refine iff_of_false (fun same => ?_) id
    have lengths : ∀ elements : List Value, (Spec.vector vector_value).Holds (.list elements) →
        items.length = elements.length := by
      intro elements held
      have equal := same (.list elements) held
      rw [Spec.assigned, Value.list.injEq] at equal
      rw [← equal, length_zipWith, length_resized, Nat.min_self]
    have none := lengths [] ⟨by decide, by simp⟩
    have one := lengths [vector_value.default] ⟨by simp, by
      intro element listed
      rw [mem_singleton.mp listed]
      exact vector_value.holds_default⟩
    simp only [length_nil, length_singleton] at none one
    omega
  | .struct _ struct_value, .dict entries, conforms => by
    have fields := Fields.allAssigned_eq_self conforms.2.2
    rw [Spec.Inert, ← fields]
    constructor
    · intro same members held
      have equal := same (.record members) held
      rwa [Spec.assigned, Value.record.injEq] at equal
    · intro same before held
      obtain ⟨members, rfl, holds⟩ := (Spec.holds_struct _ _ before).mp held
      rw [Spec.assigned, same members holds]
  | .union _ union_value, .dict _, ⟨given, value, rfl, conforms⟩ => by
    have fields := Fields.givenAssigned_eq_self conforms
    rw [Spec.Inert, ← fields]
    constructor
    · intro same members held
      have equal := same (.record members) held
      rwa [Spec.assigned, Value.record.injEq] at equal
    · intro same before held
      obtain ⟨members, rfl, holds⟩ := (Spec.holds_union _ _ before).mp held
      rw [Spec.assigned, same members holds]

theorem Fields.allAssigned_eq_self : ∀ {fields : Fields} {entries : List (String × PyValue)},
    fields.AllConform entries →
    ((∀ members, fields.Hold members → fields.allAssigned device entries members = members) ↔
      fields.AllInert entries)
  | .nil, _, _ => by
    refine iff_of_true (fun members _ => ?_) trivial
    rw [Fields.allAssigned]
    exact fun _ _ _ _ _ _ impossible => nomatch impossible
  | .cons name field rest, entries, ⟨⟨value, provided, conforms⟩, further⟩ => by
    have one := Spec.assigned_eq_self conforms
    have others := Fields.allAssigned_eq_self further
    simp only [Fields.AllInert, provided, Option.some.injEq, forall_eq']
    rw [← one, ← others]
    constructor
    · intro same
      constructor
      · intro before held
        have equal := same ((name, before) :: rest.default)
          ⟨before, _, rfl, held, rest.hold_default⟩
        rw [Fields.allAssigned_cons _ _ _ provided] at equal
        exact congrArg Prod.snd (List.cons.inj equal).1
      · intro members held
        have equal := same ((name, field.default) :: members)
          ⟨_, members, rfl, field.holds_default, held⟩
        rw [Fields.allAssigned_cons _ _ _ provided] at equal
        exact (List.cons.inj equal).2
    · rintro ⟨first, later⟩ _ ⟨before, members, rfl, held, heldRest⟩
      rw [Fields.allAssigned_cons _ _ _ provided, first before held, later members heldRest]

theorem Fields.givenAssigned_eq_self : ∀ {fields : Fields} {given : String} {value : PyValue},
    fields.GivenConforms given value →
    ((∀ members, fields.Hold members →
        fields.givenAssigned device given value members = members) ↔
      fields.GivenInert given value)
  | .cons name field rest, given, value, conforms => by
    rw [Fields.GivenConforms] at conforms
    by_cases same : name = given
    · subst same
      rw [if_pos rfl] at conforms
      rw [Fields.GivenInert, if_pos rfl, ← Spec.assigned_eq_self conforms]
      constructor
      · intro equal before held
        have whole := equal ((name, before) :: rest.default)
          ⟨before, _, rfl, held, rest.hold_default⟩
        rw [Fields.givenAssigned, if_pos rfl] at whole
        exact congrArg Prod.snd (List.cons.inj whole).1
      · rintro equal _ ⟨before, members, rfl, held, _⟩
        rw [Fields.givenAssigned, if_pos rfl, equal before held]
    · simp only [same, if_false] at conforms
      simp only [Fields.GivenInert, same, if_false]
      rw [← Fields.givenAssigned_eq_self conforms]
      constructor
      · intro equal members held
        have whole := equal ((name, field.default) :: members)
          ⟨_, members, rfl, field.holds_default, held⟩
        simp only [Fields.givenAssigned, same, if_false] at whole
        exact (List.cons.inj whole).2
      · rintro equal _ ⟨before, members, rfl, _, heldRest⟩
        simp only [Fields.givenAssigned, same, if_false, equal members heldRest]

end

end

/-! ## Decoding what is not there -/

/-- A struct or union is of a predefined type. -/
def Spec.Referred : Spec → Prop
  | .struct predefined_type _ => predefined_type.isSome = true
  | .union predefined_type _ => predefined_type.isSome = true
  | _ => True

section

variable {field : Spec} {sub_struct sub_union : List PbSpec} {device : Device} {spec : Spec}
  {kind : Repeated} {message : Message}

theorem Spec.NamedBy.referred {attr : PbSpec} (named : field.NamedBy attr sub_struct sub_union) :
    field.Referred := by
  cases field with
  | struct predefined_type _ | union predefined_type _ =>
    obtain ⟨_, rfl, _⟩ := named
    rfl
  | _ => trivial

/-- A variable cannot be read from a message that is not there. -/
theorem decode_none (referred : spec.Referred) (before : Value) :
    decode device spec none before = .error .outOfRange := by
  cases spec with
  | struct predefined_type _ | union predefined_type _ =>
    cases predefined_type with
    | none => cases referred
    | some _ => rfl
  | _ => rfl

/-- The first field cannot be read if the message has no part for it. -/
theorem not_fieldsDecode_of_missing {name : String} {rest : Fields} {named : Bool} {index : Nat}
    {old new : List (String × Value)} (referred : field.Referred)
    (missing : (message.get kind)[index]? = none) :
    ¬ FieldsDecode device (.cons name field rest) named kind index (some message) old new := by
  simp only [FieldsDecode, Option.bind_some, missing]
  rintro ⟨first, _, result, _, _, _, ⟨passed, _⟩ | ⟨_, decoded⟩, _⟩
  · cases named <;> cases passed
  · rw [decode_none referred] at decoded
    cases decoded

/-- The fields of a type cannot be read from a message without parts, unless there are none. -/
theorem decode_fields_missing {fields : Fields} (named : Bool) {attrs : List PbSpec}
    (goal : Value → Value) (distinct : fields.names.Nodup)
    (described : fields.DescribedBy attrs sub_struct sub_union) (missing : message.get kind = [])
    (holds : ∀ value, spec.Holds value ↔ ∃ old, value = .record old ∧ fields.Hold old)
    (decodes : ∀ old, decode device spec (some message) (.record old) =
      decodeFields device fields named kind 0 (some message) (.record old))
    (kept : fields = .nil → ∀ before, spec.Holds before → goal before = before) :
    (∀ before, spec.Holds before → decode device spec (some message) before = .ok (goal before)) ↔
      fields = .nil := by
  constructor
  · intro give
    cases fields with
    | nil => rfl
    | cons name field rest =>
      have hold := (Fields.cons name field rest).hold_default
      have decoded := give (.record (Fields.cons name field rest).default)
        ((holds _).mpr ⟨_, rfl, hold⟩)
      rw [decodes, decodeFields_eq_ok distinct hold] at decoded
      obtain ⟨result, _, further⟩ := decoded
      obtain ⟨attr, _, _, _, _, _, named_by, _⟩ := described
      exact absurd further (not_fieldsDecode_of_missing named_by.referred (by simp [missing]))
  · rintro rfl before held
    obtain ⟨old, rfl, _⟩ := (holds before).mp held
    rw [decodes, decodeFields, kept rfl _ held]

end

/-- Nothing is read from a message in which nothing is set exactly if there is nothing to read. -/
theorem decode_empty_iff {device : Device} {field : Spec} {attr : PbSpec}
    {sub_struct sub_union : List PbSpec} (formed : field.WellFormed)
    (described : field.DescribedBy attr sub_struct sub_union) :
    (∀ before, field.Holds before → decode device field (some .empty) before = .ok before) ↔
      field.Idle := by
  cases field with
  | scalar scalar_type =>
    refine iff_of_false (fun same => ?_) id
    obtain ⟨other, inRange, different⟩ :=
      scalar_type.exists_inRange_ne (scalar_type.convert 0)
    cases same (.scalar other) inRange
    exact different rfl
  | enum predefined_type scalar_type =>
    refine iff_of_false (fun same => ?_) id
    obtain ⟨other, inRange, different⟩ :=
      scalar_type.exists_inRange_ne (scalar_type.convert 0)
    cases same (.scalar other) inRange
    exact different rfl
  | string =>
    refine iff_of_false (fun same => ?_) id
    cases same (.string [0]) trivial
  | vector vector_value =>
    refine iff_of_false (fun same => ?_) id
    have decoded := same (.list [vector_value.default]) ⟨by simp, by
      intro element listed
      rw [mem_singleton.mp listed]
      exact vector_value.holds_default⟩
    obtain ⟨_, new, equal, elements⟩ := decodeElements_eq_ok.mp decoded
    have lengths := elements.length.1
    cases equal
    rw [length_resized] at lengths
    cases lengths
  | struct predefined_type struct_value =>
    have missing : ∀ {attrs nested nested_union : List PbSpec},
        struct_value.DescribedBy attrs nested nested_union →
        ((∀ before, (Spec.struct predefined_type struct_value).Holds before →
          decode device (.struct predefined_type struct_value) (some .empty) before = .ok before) ↔
          struct_value = .nil) := fun inside =>
      decode_fields_missing false id formed.1 inside rfl (Spec.holds_struct _ _)
        (fun old => by cases predefined_type <;> rw [decode]) (fun _ _ _ => rfl)
    have idle : (Spec.struct predefined_type struct_value).Idle ↔ struct_value = .nil := by
      cases struct_value <;> simp [Spec.Idle]
    rw [idle]
    rcases described.2 with inline | ⟨_, listed, _, nested⟩
    · exact missing inline
    · exact missing nested
  | union predefined_type union_value =>
    have missing : ∀ {attrs nested nested_union : List PbSpec},
        union_value.DescribedBy attrs nested nested_union →
        ((∀ before, (Spec.union predefined_type union_value).Holds before →
          decode device (.union predefined_type union_value) (some .empty) before = .ok before) ↔
          union_value = .nil) := fun inside =>
      decode_fields_missing predefined_type.isSome id formed.1 inside rfl
        (Spec.holds_union _ _) (fun old => by cases predefined_type <;> rw [decode] <;> rfl)
        (fun _ _ _ => rfl)
    have idle : (Spec.union predefined_type union_value).Idle ↔ union_value = .nil := by
      cases union_value <;> simp [Spec.Idle]
    rw [idle]
    rcases described.2 with inline | ⟨_, listed, _, nested⟩
    · exact missing inline
    · exact missing nested
  | mask _ | array _ _ | handle => exact described.elim

/-! ## Fields that are read one by one -/

section

variable {device : Device} {name : String} {field : Spec} {rest : Fields} {named : Bool}
  {kind : Repeated} {index : Nat} {message : Message}

/-- The code for the fields turns all members into what they should be. -/
def FieldsGive (device : Device) (fields : Fields) (named : Bool) (kind : Repeated) (index : Nat)
    (message : Message) (goal : List (String × Value) → List (String × Value)) : Prop :=
  ∀ old, fields.Hold old →
    FieldsDecode device fields named kind index (some message) old (goal old)

theorem fieldsGive_cons {part : Option Message}
    {goal : List (String × Value) → List (String × Value)}
    (first : Value → Value) (later : List (String × Value) → List (String × Value))
    (found : (message.get kind)[index]? = part)
    (split : ∀ present members, field.Holds present → rest.Hold members →
      goal ((name, present) :: members) = (name, first present) :: later members) :
    FieldsGive device (.cons name field rest) named kind index message goal ↔
      (passesOver named name part = .ok true ∧
          (∀ before, field.Holds before → first before = before) ∨
        passesOver named name part = .ok false ∧
          ∀ before, field.Holds before → decode device field part before = .ok (first before)) ∧
      FieldsGive device rest named kind (index + 1) message later := by
  have step : ∀ present members, field.Holds present → rest.Hold members →
      (FieldsDecode device (.cons name field rest) named kind index (some message)
          ((name, present) :: members) (goal ((name, present) :: members)) ↔
        (passesOver named name part = .ok true ∧ first present = present ∨
          passesOver named name part = .ok false ∧
            decode device field part present = .ok (first present)) ∧
        FieldsDecode device rest named kind (index + 1) (some message) members (later members)) := by
    intro present members held heldRest
    rw [split present members held heldRest]
    simp only [FieldsDecode, Option.bind_some, found]
    constructor
    · rintro ⟨_, _, _, _, equal, equalNew, one, further⟩
      cases equal
      cases equalNew
      exact ⟨one, further⟩
    · rintro ⟨one, further⟩
      exact ⟨present, members, first present, later members, rfl, rfl, one, further⟩
  constructor
  · intro give
    have one := fun present members held heldRest => (step present members held heldRest).mp
      (give _ ⟨present, members, rfl, held, heldRest⟩)
    refine ⟨?_, fun members heldRest =>
      (one _ members field.holds_default heldRest).2⟩
    rcases (one _ _ field.holds_default rest.hold_default).1 with ⟨passed, _⟩ | ⟨taken, _⟩
    · refine Or.inl ⟨passed, fun before held => ?_⟩
      rcases (one before _ held rest.hold_default).1 with ⟨_, same⟩ | ⟨taken, _⟩
      · exact same
      · rw [passed] at taken
        cases taken
    · refine Or.inr ⟨taken, fun before held => ?_⟩
      rcases (one before _ held rest.hold_default).1 with ⟨passed, _⟩ | ⟨_, decoded⟩
      · rw [taken] at passed
        cases passed
      · exact decoded
  · rintro ⟨one, further⟩ _ ⟨present, members, rfl, held, heldRest⟩
    refine (step present members held heldRest).mpr ⟨?_, further members heldRest⟩
    rcases one with ⟨passed, same⟩ | ⟨taken, decoded⟩
    · exact Or.inl ⟨passed, same present held⟩
    · exact Or.inr ⟨taken, decoded present held⟩

end

/-! ## Elements -/

/-- The driver gives a variable what a Python value says, from a message. -/
def Gives (device : Device) (spec : Spec) (message : Message) (py_value : PyValue) : Prop :=
  ∀ before, spec.Holds before →
    decode device spec (some message) before = .ok (spec.assigned device py_value before)

section

variable {items : List PyValue} {device : Device} {element : Spec}

theorem convertItems_eq_ok {convert : PyValue → Except PyError (Option Message)}
    {message result : Message} :
    convertItems convert items message = .ok result ↔
      ∃ parts, List.Forall₂ (fun item part => convert item = .ok (some part)) items parts ∧
        result = message.set .vector_value (message.vector_value ++ parts) := by
  induction items generalizing message with
  | nil =>
    rw [convertItems]
    constructor
    · rintro ⟨⟩
      exact ⟨[], .nil, by rw [append_nil]; exact (Message.set_get _ .vector_value).symm⟩
    · rintro ⟨parts, all, rfl⟩
      cases all
      rw [append_nil]
      exact congrArg Except.ok (Message.set_get _ .vector_value).symm
  | cons item items ih =>
    rw [convertItems]
    cases converted : convert item with
    | error error =>
      refine iff_of_false (fun impossible => nomatch impossible) ?_
      rintro ⟨_, all, _⟩
      cases all with
      | cons one _ =>
        rw [converted] at one
        cases one
    | ok option =>
      cases option with
      | none =>
        refine iff_of_false (fun impossible => nomatch impossible) ?_
        rintro ⟨_, all, _⟩
        cases all with
        | cons one _ =>
          rw [converted] at one
          cases one
      | some part =>
        dsimp only
        rw [ih]
        have added : ∀ parts, (message.add .vector_value part).set .vector_value
            ((message.add .vector_value part).vector_value ++ parts) =
            message.set .vector_value (message.vector_value ++ part :: parts) := by
          intro parts
          simp [Message.add, Message.set, Message.get]
        constructor
        · rintro ⟨parts, all, rfl⟩
          exact ⟨part :: parts, .cons converted all, added parts⟩
        · rintro ⟨_, all, rfl⟩
          cases all with
          | cons one all =>
            rw [converted] at one
            cases one
            exact ⟨_, all, (added _).symm⟩

theorem exists_forall₂ {α β : Type} {relation : α → β → Prop} {items : List α}
    (each : ∀ item ∈ items, ∃ result, relation item result) :
    ∃ results, List.Forall₂ relation items results := by
  induction items with
  | nil => exact ⟨[], .nil⟩
  | cons item items ih =>
    obtain ⟨⟨result, one⟩, others⟩ := forall_mem_cons.mp each
    obtain ⟨results, all⟩ := ih others
    exact ⟨result :: results, .cons one all⟩

/-- Elements become what they should be exactly if each of them does. -/
theorem elementsGive_iff {goal : PyValue → Value → Value} {parts : List Message}
    (length : parts.length = items.length) :
    (∀ old : List Value, old.length = items.length → (∀ value ∈ old, element.Holds value) →
        ElementsDecode (decode device element) parts old (List.zipWith goal items old)) ↔
      List.Forall₂ (fun item part => ∀ before, element.Holds before →
        decode device element (some part) before = .ok (goal item before)) items parts := by
  induction items generalizing parts with
  | nil =>
    obtain rfl := eq_nil_of_length_eq_zero length
    refine iff_of_true (fun old oldLength _ => ?_) .nil
    obtain rfl := eq_nil_of_length_eq_zero oldLength
    rfl
  | cons item items ih =>
    obtain ⟨part, parts, rfl⟩ := exists_cons_of_length_eq_add_one length
    rw [forall₂_cons, ← ih (by simpa using length)]
    constructor
    · intro give
      have rest : ∀ value ∈ List.replicate items.length element.default,
          element.Holds value := by
        intro value listed
        rw [eq_of_mem_replicate listed]
        exact element.holds_default
      constructor
      · intro before held
        obtain ⟨_, _, _, _, equal, equalNew, decoded, _⟩ :=
          give (before :: List.replicate items.length element.default) (by simp)
            (forall_mem_cons.mpr ⟨held, rest⟩)
        cases equal
        cases equalNew
        exact decoded
      · intro old oldLength held
        obtain ⟨_, _, _, _, equal, equalNew, _, further⟩ :=
          give (element.default :: old) (by simp [oldLength])
            (forall_mem_cons.mpr ⟨element.holds_default, held⟩)
        cases equal
        cases equalNew
        exact further
    · rintro ⟨one, further⟩ old oldLength held
      obtain ⟨first, others, rfl⟩ := exists_cons_of_length_eq_add_one oldLength
      obtain ⟨heldFirst, heldOthers⟩ := forall_mem_cons.mp held
      exact ⟨first, others, _, _, rfl, rfl, one first heldFirst,
        further others (by simpa using oldLength) heldOthers⟩

/-- A vector is given its elements exactly if each of them is given. -/
theorem gives_vector (typed : device.Typed) {message : Message} (few : items.length < 2 ^ 32)
    (length : message.vector_value.length = items.length) :
    Gives device (.vector element) message (.list items) ↔
      items.length < 2 ^ 31 ∧
        List.Forall₂ (fun item part => Gives device element part item) items
          message.vector_value := by
  have elements : (∀ old : List Value, old.length = items.length →
        (∀ value ∈ old, element.Holds value) →
        ElementsDecode (decode device element) message.vector_value old
          (List.zipWith (element.assigned device) items old)) ↔
      List.Forall₂ (fun item part => Gives device element part item) items
        message.vector_value := elementsGive_iff length
  rw [← elements]
  have unfolded : ∀ old : List Value,
      (decode device (.vector element) (some message) (.list old) =
          .ok ((Spec.vector element).assigned device (.list items) (.list old)) ↔
        items.length < indices ∧ ElementsDecode (decode device element) message.vector_value
          (resized device element items.length old)
          (List.zipWith (element.assigned device) items
            (resized device element items.length old))) := by
    intro old
    rw [decode, Spec.assigned, length, decodeElements_eq_ok, length]
    simp
  constructor
  · intro give
    have each := fun old held => (unfolded old).mp (give (.list old) held)
    refine ⟨(each [] ⟨by decide, by simp⟩).1, ?_⟩
    intro old oldLength held
    have decoded := (each old ⟨oldLength ▸ few, held⟩).2
    rwa [← oldLength, resized_self] at decoded
  · rintro ⟨small, give⟩ before held
    cases before with
    | list old =>
      obtain ⟨_, equal, sizeNew, holdsNew⟩ := resized_elementsHold typed held.2 items.length
      cases equal
      exact (unfolded old).mpr ⟨small, give _ sizeNew holdsNew⟩
    | scalar _ | string _ | record _ | handle _ => exact held.elim

end

end Vts.Vtsc
