import Mathlib.Data.List.Perm.Subperm
import Vts.Vtsc.Arguments
import Vts.Vtsc.Pb2Py

/-!
# Values that come back to the host

A Python value becomes a message by `Convert`, and `GetPythonDataOfVariableSpecMsg` makes a value
of the message again. Proved here, for types of scalars, enumerations, strings, vectors and
structs: the value and all its parts come back exactly if they are `Recovered`.

The parts are looked at together with the whole because two mistakes may undo each other: a struct
comes back under the name of its type, so two members that have the names of each other's types
change places.
-/

namespace Vts.Vtsc

open List

/-! ## Specifications and values -/

mutual

/-- A specification of a type of scalars, enumerations, strings, vectors and structs. An
enumeration has its scalar type in the specification, or only in its definition. -/
def Spec.SpecifiedBy : Spec → PbSpec → (sub_struct : List PbSpec) → Prop
  | .scalar scalar_type, pb_spec, _ =>
    pb_spec.type = .TYPE_SCALAR ∧ pb_spec.scalar_type = some scalar_type
  | .string, pb_spec, _ => pb_spec.type = .TYPE_STRING
  | .enum _ scalar_type, pb_spec, _ => pb_spec.type = .TYPE_ENUM ∧
      (pb_spec.enum_value = some scalar_type ∨ pb_spec.enum_value = none)
  | .vector vector_value, pb_spec, sub_struct => pb_spec.type = .TYPE_VECTOR ∧
      ∃ vector_spec, pb_spec.vector_value = [vector_spec] ∧
        vector_value.SpecifiedBy vector_spec sub_struct
  | .struct predefined_type struct_value, pb_spec, sub_struct => pb_spec.type = .TYPE_STRUCT ∧
      (struct_value.SpecifiedBy pb_spec.struct_value pb_spec.sub_struct ∨
        pb_spec.struct_value = [] ∧ ∃ listed, pb_spec.Names predefined_type sub_struct listed ∧
          struct_value.SpecifiedBy listed.struct_value listed.sub_struct)
  | _, _, _ => False

def Fields.SpecifiedBy : Fields → List PbSpec → (sub_struct : List PbSpec) → Prop
  | .nil, attrs, _ => attrs = []
  | .cons name field rest, attrs, sub_struct => ∃ attr others definition,
      attrs = attr :: others ∧ attr.name = name ∧ name ≠ "" ∧
      attr.definition sub_struct [] = some definition ∧ attr.type = definition.type ∧
      field.SpecifiedBy definition sub_struct ∧ rest.SpecifiedBy others sub_struct

end

mutual

/-- A Python value is of a type. -/
def Spec.Accepts : Spec → PyValue → Prop
  | .scalar scalar_type, .int value => scalar_type.InRange value
  | .string, .str _ => True
  | .enum _ scalar_type, .int value => scalar_type.InRange value
  | .vector vector_value, .list items => ∀ item ∈ items, vector_value.Accepts item
  | .struct _ struct_value, .dict entries =>
    (∀ entry ∈ entries, entry.1 ∈ struct_value.names) ∧ (entries.map (·.1)).Nodup ∧
      struct_value.AllAccept entries
  | _, _ => False

def Fields.AllAccept : Fields → List (String × PyValue) → Prop
  | .nil, _ => True
  | .cons name field rest, entries =>
    (∃ value, entries.lookup name = some value ∧ field.Accepts value) ∧ rest.AllAccept entries

end

/-! ## When a value comes back -/

/-- The keys under which the members of a struct come back, from a position on. -/
def memberKeys (sub_struct : List PbSpec) : List PbSpec → Nat → List String
  | [], _ => []
  | attr :: attrs, index =>
    partKey (((attr.definition sub_struct []).map PbSpec.name).getD "") index ::
      memberKeys sub_struct attrs (index + 1)

mutual

/-- Enumerations have their values in the field for `int32_t`, or 0 elsewhere; strings and vectors
are of a length that a message has room for; structs have their members in their own
specification, and each member comes back under its own name, or under that of one with an equal
value. -/
def Spec.Recovered : Spec → PbSpec → PyValue → Prop
  | .enum _ scalar_type, pb_spec, .int value =>
    if pb_spec.enum_value.isSome then scalar_type = .int32_t ∨ value = 0
    else ScalarType.int32_t.InRange value
  | .string, _, .str bytes => bytes.length < 2 ^ 32
  | .vector vector_value, pb_spec, .list items => items.length < 2 ^ 31 ∧
      ∀ item ∈ items, ∀ vector_spec ∈ pb_spec.vector_value, vector_value.Recovered vector_spec item
  | .struct _ struct_value, pb_spec, .dict entries =>
    (memberKeys pb_spec.sub_struct pb_spec.struct_value 1).Nodup ∧
      struct_value.AllRecovered pb_spec.struct_value pb_spec.sub_struct 1 entries
  | _, _, _ => True

def Fields.AllRecovered : Fields → List PbSpec → (sub_struct : List PbSpec) → Nat →
    List (String × PyValue) → Prop
  | .nil, _, _, _, _ => True
  | .cons _ _ _, [], _, _, _ => False
  | .cons name field rest, attr :: attrs, sub_struct, index, entries =>
    (∀ definition value, attr.definition sub_struct [] = some definition →
        entries.lookup name = some value → field.Recovered definition value ∧
          (partKey definition.name index = name ∨ ∃ other,
            entries.lookup (partKey definition.name index) = some other ∧ value.Same other)) ∧
      rest.AllRecovered attrs sub_struct (index + 1) entries

end

/-- What is made of a conversion is the value that was converted. -/
def Returns (result : Except PyError Message) (py_value : PyValue) : Prop :=
  ∃ message data, result = .ok message ∧ GetPythonDataOfVariableSpecMsg message = .ok data ∧
    data.Same py_value

/-- A value comes back from its message. -/
def RoundTrips (pb_spec : PbSpec) (py_value : PyValue) : Prop :=
  ∃ message data, Convert pb_spec py_value = .ok (some message) ∧
    GetPythonDataOfVariableSpecMsg message = .ok data ∧ data.Same py_value

mutual

/-- The parts of a value come back, each with its own specification. -/
def Spec.PartsReturn : Spec → PbSpec → PyValue → Prop
  | .vector vector_value, pb_spec, .list items =>
    ∀ item ∈ items, ∀ vector_spec ∈ pb_spec.vector_value,
      RoundTrips vector_spec item ∧ vector_value.PartsReturn vector_spec item
  | .struct _ struct_value, pb_spec, .dict entries =>
    struct_value.PartsReturn pb_spec.struct_value pb_spec.sub_struct entries
  | _, _, _ => True

def Fields.PartsReturn : Fields → List PbSpec → (sub_struct : List PbSpec) →
    List (String × PyValue) → Prop
  | .cons name field rest, attr :: attrs, sub_struct, entries =>
    (∀ definition value, attr.definition sub_struct [] = some definition →
        entries.lookup name = some value →
          RoundTrips definition value ∧ field.PartsReturn definition value) ∧
      rest.PartsReturn attrs sub_struct entries
  | _, _, _, _ => True

end

/-! ## Conversion by the kind of a specification -/

theorem Spec.SpecifiedBy.type {spec : Spec} {pb_spec : PbSpec} {sub_struct : List PbSpec}
    (specified : spec.SpecifiedBy pb_spec sub_struct) :
    pb_spec.type = .TYPE_ENUM ∨ pb_spec.type = .TYPE_SCALAR ∨ pb_spec.type = .TYPE_STRING ∨
      pb_spec.type = .TYPE_VECTOR ∨ pb_spec.type = .TYPE_STRUCT := by
  cases spec <;> simp_all [Spec.SpecifiedBy]

theorem roundTrips_iff_recovered {spec : Spec} {pb_spec : PbSpec} {sub_struct : List PbSpec}
    {py_value : PyValue} (specified : spec.SpecifiedBy pb_spec sub_struct)
    (accepted : spec.Accepts py_value) :
    RoundTrips pb_spec py_value ↔
      Returns (pb_spec.fill (.withName (some pb_spec.name)) py_value) py_value := by
  have converted : Convert pb_spec py_value =
      (pb_spec.fill (.withName (some pb_spec.name)) py_value).map some := by
    have noMessage : ∀ message, py_value ≠ .message message := by
      rintro message rfl
      cases spec <;> cases accepted
    unfold Convert convertWith PbSpec.fill
    cases py_value with
    | message message => exact absurd rfl (noMessage message)
    | int _ | str _ | list _ | dict _ =>
      rcases specified.type with type | type | type | type | type <;> rw [type] <;> rfl
  unfold RoundTrips Returns
  rw [converted]
  cases pb_spec.fill (.withName (some pb_spec.name)) py_value <;> simp [Except.map]

theorem convertAttr_specified {field : Spec} {attr definition : PbSpec} {sub_struct : List PbSpec}
    (found : attr.definition sub_struct [] = some definition)
    (sameType : attr.type = definition.type) (specified : field.SpecifiedBy definition sub_struct)
    (curr_value : PyValue) :
    convertAttr attr (PyList2PbVector attr) (structIn sub_struct (attr.predefined_type.getD ""))
        (unionIn sub_struct (attr.predefined_type.getD "")) curr_value =
      (definition.fill .empty curr_value).map (·, true) := by
  have type := specified.type
  rw [← sameType] at type
  unfold PbSpec.definition at found
  unfold convertAttr PbSpec.fill
  rw [← sameType]
  rcases type with type | type | type | type | type
  all_goals
    rw [type] at found ⊢
    dsimp only at found ⊢
  · cases found
    rfl
  · cases found
    rfl
  · cases found
    rfl
  · cases found
    rfl
  · rw [structIn_eq, found]
    rfl

/-! ## Reading a message by its type -/

section

variable {message : Message}

theorem data_scalar {scalar_type : ScalarType} (type : message.type = some .TYPE_SCALAR)
    (stored : message.scalar_type = some scalar_type) :
    GetPythonDataOfVariableSpecMsg message =
      .ok (.int ((message.scalar_value scalar_type).getD 0)) := by
  cases message
  cases type
  cases stored
  rw [GetPythonDataOfVariableSpecMsg]

theorem data_enum (type : message.type = some .TYPE_ENUM) (unset : message.scalar_type = none) :
    GetPythonDataOfVariableSpecMsg message =
      .ok (.int ((message.scalar_value .int32_t).getD 0)) := by
  cases message
  cases type
  cases unset
  rw [GetPythonDataOfVariableSpecMsg]

theorem data_string (type : message.type = some .TYPE_STRING) :
    GetPythonDataOfVariableSpecMsg message = .ok (.str (message.string_message.getD [])) := by
  cases message
  cases type
  rw [GetPythonDataOfVariableSpecMsg]

theorem data_vector (type : message.type = some .TYPE_VECTOR) :
    GetPythonDataOfVariableSpecMsg message =
      (dataOfElements message.vector_value).map .list := by
  cases message
  cases type
  rw [GetPythonDataOfVariableSpecMsg]

theorem data_struct (type : message.type = some .TYPE_STRUCT) :
    GetPythonDataOfVariableSpecMsg message = (dataOfParts message.struct_value 1 []).map .dict := by
  cases message
  cases type
  rw [GetPythonDataOfVariableSpecMsg]

end

/-! ## Scalars, strings and enumerations -/

theorem PyValue.same_int_iff {first second : Int} :
    (PyValue.int first).Same (.int second) ↔ first = second := by
  constructor
  · rintro ⟨⟩
    rfl
  · rintro rfl
    exact .int _

theorem returns_ok_iff {message : Message} {py_value : PyValue} :
    Returns (.ok message) py_value ↔
      ∃ data, GetPythonDataOfVariableSpecMsg message = .ok data ∧ data.Same py_value := by
  constructor
  · rintro ⟨_, data, equal, read, same⟩
    cases equal
    exact ⟨data, read, same⟩
  · rintro ⟨data, read, same⟩
    exact ⟨message, data, rfl, read, same⟩

theorem not_returns_error {error : PyError} {py_value : PyValue} :
    ¬ Returns (.error error) py_value := by
  rintro ⟨_, _, impossible, _⟩
  cases impossible

/-- A conversion returns a number if the message reads as that number. -/
theorem returns_int_iff {message : Message} {value read : Int}
    (data : GetPythonDataOfVariableSpecMsg message = .ok (.int read)) :
    Returns (.ok message) (.int value) ↔ read = value := by
  rw [returns_ok_iff, data]
  simp [PyValue.same_int_iff]

section

variable {pb_spec : PbSpec} {sub_struct : List PbSpec} (name : Option String)

theorem returns_scalar {scalar_type : ScalarType} {value : Int}
    (specified : (Spec.scalar scalar_type).SpecifiedBy pb_spec sub_struct)
    (inRange : scalar_type.InRange value) :
    Returns (pb_spec.fill (.withName name) (.int value)) (.int value) := by
  rw [PbSpec.fill, specified.1]
  simp only [PyValue2PbScalar, specified.2, setattr, inRange.field, if_true]
  refine (returns_int_iff (data_scalar rfl rfl)).mpr ?_
  simp

theorem returns_string_iff {bytes : List UInt8} (type : pb_spec.type = .TYPE_STRING) :
    Returns (pb_spec.fill (.withName name) (.str bytes)) (.str bytes) ↔
      bytes.length < 2 ^ 32 := by
  rw [PbSpec.fill, type]
  simp only [PyString2PbString]
  split
  · rename_i short
    exact iff_of_true (returns_ok_iff.mpr ⟨_, data_string rfl, .str _⟩) short
  · rename_i long
    exact iff_of_false not_returns_error long

/-- The value of an enumeration is read from the field for `int32_t`, and stored in that only for
an enumeration of this type or one whose type is not in the specification. -/
theorem returns_enum_iff {predefined_type : String} {scalar_type : ScalarType} {value : Int}
    (specified : (Spec.enum predefined_type scalar_type).SpecifiedBy pb_spec sub_struct)
    (inRange : scalar_type.InRange value) :
    Returns (pb_spec.fill (.withName name) (.int value)) (.int value) ↔
      (Spec.enum predefined_type scalar_type).Recovered pb_spec (.int value) := by
  rw [PbSpec.fill, specified.1, Spec.Recovered, PyValue2PbEnum]
  dsimp only
  rcases specified.2 with stored | stored
  all_goals rw [stored]
  · simp only [setattr, inRange.field, if_true, Option.isSome_some]
    rw [returns_int_iff (data_enum rfl (by rw [Message.named_withName]; rfl))]
    by_cases same : scalar_type = .int32_t
    · subst same
      simp
    · dsimp only
      rw [if_neg (Ne.symm same), Message.named_withName]
      simp only [same, false_or]
      exact eq_comm
  · simp only [setattr, ScalarType.field, Option.isSome_none]
    split
    · rename_i fits
      rw [returns_int_iff (data_enum rfl (by rw [Message.named_withName]; rfl))]
      simp [fits]
    · rename_i large
      simp [large, not_returns_error]

end

/-! ## Vectors -/

theorem dataOfElements_eq_ok {parts : List Message} {datas : List PyValue} :
    dataOfElements parts = .ok datas ↔
      List.Forall₂ (fun part data => GetPythonDataOfVariableSpecMsg part = .ok data)
        parts datas := by
  induction parts generalizing datas with
  | nil =>
    rw [dataOfElements, forall₂_nil_left_iff, Except.ok.injEq]
    exact eq_comm
  | cons part parts ih =>
    rw [dataOfElements, forall₂_cons_left_iff]
    cases read : GetPythonDataOfVariableSpecMsg part with
    | error error => simp
    | ok value =>
      simp only [← ih]
      cases dataOfElements parts <;> simp [Except.map, eq_comm]

theorem PyValue.same_list_iff {items others : List PyValue} :
    (PyValue.list items).Same (.list others) ↔ List.Forall₂ PyValue.Same items others := by
  rw [forall₂_iff_get]
  constructor
  · rintro ⟨⟩
    rename_i length each
    refine ⟨length, fun index inside insideOthers => ?_⟩
    exact each index _ _ (List.getElem?_eq_getElem inside) (List.getElem?_eq_getElem insideOthers)
  · rintro ⟨length, each⟩
    refine .list length fun index item other here there => ?_
    obtain ⟨inside, rfl⟩ := List.getElem?_eq_some_iff.mp here
    obtain ⟨insideOthers, rfl⟩ := List.getElem?_eq_some_iff.mp there
    exact each index inside insideOthers

/-- A vector whose elements come back comes back, if it is short enough. -/
theorem returns_vector_iff {pb_spec vector_spec : PbSpec} (name : Option String)
    (type : pb_spec.type = .TYPE_VECTOR) (only : pb_spec.vector_value = [vector_spec])
    {items : List PyValue} (each : ∀ item ∈ items, RoundTrips vector_spec item) :
    Returns (pb_spec.fill (.withName name) (.list items)) (.list items) ↔
      items.length < 2 ^ 31 := by
  rw [PbSpec.fill, type]
  dsimp only
  rw [PyList2PbVector_eq _ only, Message.named_withName]
  by_cases empty : items.length = 0
  · rw [if_pos empty]
    obtain rfl := eq_nil_of_length_eq_zero empty
    refine iff_of_true (returns_ok_iff.mpr ⟨.list [], ?_, .list rfl (by simp)⟩) (by decide)
    rw [data_vector rfl]
    rfl
  · rw [if_neg empty]
    have paired : ∀ item ∈ items, ∃ pair : Message × PyValue,
        Convert vector_spec item = .ok (some pair.1) ∧
          GetPythonDataOfVariableSpecMsg pair.1 = .ok pair.2 ∧ pair.2.Same item :=
      fun item listed => (each item listed).elim fun message ⟨data, all⟩ => ⟨(message, data), all⟩
    obtain ⟨pairs, all⟩ := exists_forall₂ paired
    rw [convertItems_eq_ok.mpr ⟨pairs.map Prod.fst,
      forall₂_map_right_iff.mpr (all.imp fun _ _ both => both.1), rfl⟩]
    dsimp only
    split
    · rename_i short
      refine iff_of_true (returns_ok_iff.mpr ⟨.list (pairs.map Prod.snd), ?_, ?_⟩) short
      · rw [data_vector rfl]
        have read : dataOfElements (pairs.map Prod.fst) = .ok (pairs.map Prod.snd) := by
          rw [dataOfElements_eq_ok, forall₂_map_left_iff, forall₂_map_right_iff,
            forall₂_same]
          intro pair listed
          obtain ⟨index, inside, rfl⟩ := getElem_of_mem listed
          exact ((forall₂_iff_get.mp all).2 index (all.length_eq ▸ inside) inside).2.1
        exact congrArg (Except.map PyValue.list) read
      · rw [PyValue.same_list_iff, forall₂_map_left_iff]
        exact all.flip.imp fun _ _ both => both.2.2
    · rename_i long
      exact iff_of_false not_returns_error long

/-! ## Dictionaries -/

/-- The entries after a loop that stores some data. -/
def storeAll (datas : List (String × PyValue)) (result : List (String × PyValue)) :
    List (String × PyValue) :=
  datas.foldl (fun result data => dictSet data.1 data.2 result) result

theorem lookup_storeAll_eq_none {datas result : List (String × PyValue)} {key : String} :
    (storeAll datas result).lookup key = none ↔
      key ∉ datas.map (·.1) ∧ result.lookup key = none := by
  induction datas generalizing result with
  | nil => simp [storeAll]
  | cons data datas ih =>
    have unfolded : storeAll (data :: datas) result =
        storeAll datas (dictSet data.1 data.2 result) := rfl
    rw [unfolded, ih, lookup_dictSet, map_cons, mem_cons]
    by_cases same : key = data.1 <;> simp [same]

theorem lookup_storeAll_of_not_mem {datas result : List (String × PyValue)} {key : String}
    (absent : key ∉ datas.map (·.1)) :
    (storeAll datas result).lookup key = result.lookup key := by
  induction datas generalizing result with
  | nil => rfl
  | cons data datas ih =>
    rw [map_cons, mem_cons, not_or] at absent
    have unfolded : storeAll (data :: datas) result =
        storeAll datas (dictSet data.1 data.2 result) := rfl
    rw [unfolded, ih absent.2, lookup_dictSet, if_neg absent.1]

theorem lookup_storeAll_of_mem {datas result : List (String × PyValue)} {key : String}
    {value : PyValue} (unique : (datas.map (·.1)).Nodup) (listed : (key, value) ∈ datas) :
    (storeAll datas result).lookup key = some value := by
  induction datas generalizing result with
  | nil => cases listed
  | cons data datas ih =>
    obtain ⟨fresh, uniqueRest⟩ := nodup_cons.mp unique
    have unfolded : storeAll (data :: datas) result =
        storeAll datas (dictSet data.1 data.2 result) := rfl
    rw [unfolded]
    rcases mem_cons.mp listed with rfl | later
    · rw [lookup_storeAll_of_not_mem fresh, lookup_dictSet, if_pos rfl]
    · exact ih uniqueRest later

/-- A member is stored under its own name, or under that of a member with an equal value. -/
def KeyFits (entries : List (String × PyValue)) (name key : String) : Prop :=
  ∀ value, entries.lookup name = some value →
    key = name ∨ ∃ other, entries.lookup key = some other ∧ value.Same other

section

variable {names : List String} {datas entries : List (String × PyValue)}

/-- The data of a member is equal to its value. -/
def MemberData (entries : List (String × PyValue)) (name : String) (data : String × PyValue) :
    Prop :=
  ∃ value, entries.lookup name = some value ∧ data.2.Same value

theorem KeyFits.exists_same {name : String} {data : String × PyValue}
    (fits : KeyFits entries name data.1) (member : MemberData entries name data) :
    ∃ other, entries.lookup data.1 = some other ∧ data.2.Same other := by
  obtain ⟨value, provided, same⟩ := member
  rcases fits value provided with own | ⟨other, found, equal⟩
  · exact ⟨value, own ▸ provided, same⟩
  · exact ⟨other, found, same.trans equal⟩

/-- Dictionaries are equal if all keys are different and each of them fits. -/
theorem same_dict_of_keysFit (unique : (datas.map (·.1)).Nodup)
    (all : ∀ key, entries.lookup key ≠ none ↔ key ∈ names)
    (each : List.Forall₂ (MemberData entries) names datas)
    (fit : List.Forall₂ (KeyFits entries) names (datas.map (·.1))) :
    (PyValue.dict (storeAll datas [])).Same (.dict entries) := by
  have found : ∀ data ∈ datas, ∃ other, entries.lookup data.1 = some other ∧
      data.2.Same other := by
    intro data listed
    obtain ⟨index, inside, rfl⟩ := getElem_of_mem listed
    rw [forall₂_map_right_iff] at fit
    have insideNames : index < names.length := each.length_eq ▸ inside
    exact ((forall₂_iff_get.mp fit).2 index insideNames inside).exists_same
      ((forall₂_iff_get.mp each).2 index insideNames inside)
  have covered : datas.map (·.1) ⊆ names := by
    intro key listed
    obtain ⟨data, member, rfl⟩ := mem_map.mp listed
    obtain ⟨other, provided, _⟩ := found data member
    exact (all data.1).mp (by simp [provided])
  have permuted : (datas.map (·.1)).Perm names :=
    (subperm_of_subset unique covered).perm_of_length_le
      (by rw [length_map, each.length_eq])
  refine .dict (fun key => ?_) fun key value other here there => ?_
  · rw [lookup_storeAll_eq_none, permuted.mem_iff, ← all key, not_not]
    exact and_iff_left rfl
  · have listed : key ∈ datas.map (·.1) := by
      rw [permuted.mem_iff, ← all key]
      simp [there]
    obtain ⟨⟨_, held⟩, member, rfl⟩ := mem_map.mp listed
    rw [lookup_storeAll_of_mem unique member] at here
    cases here
    obtain ⟨found, provided, same⟩ := found _ member
    cases there.symm.trans provided
    exact same

theorem keysFit_of_same_dict (unique : names.Nodup)
    (all : ∀ key, entries.lookup key ≠ none ↔ key ∈ names)
    (each : List.Forall₂ (MemberData entries) names datas)
    (same : (PyValue.dict (storeAll datas [])).Same (.dict entries)) :
    (datas.map (·.1)).Nodup ∧ List.Forall₂ (KeyFits entries) names (datas.map (·.1)) := by
  cases same with
  | dict keys values =>
    have covered : names ⊆ datas.map (·.1) := by
      intro name listed
      by_contra absent
      exact (all name).mpr listed ((keys name).mp
        (lookup_storeAll_eq_none.mpr ⟨absent, rfl⟩))
    have permuted : names.Perm (datas.map (·.1)) :=
      (subperm_of_subset unique covered).perm_of_length_le
        (by rw [length_map, each.length_eq])
    have uniqueKeys : (datas.map (·.1)).Nodup := permuted.nodup_iff.mp unique
    refine ⟨uniqueKeys, ?_⟩
    rw [forall₂_map_right_iff, forall₂_iff_get]
    refine ⟨each.length_eq, fun index insideNames inside value provided => Or.inr ?_⟩
    obtain ⟨own, held, equal⟩ := (forall₂_iff_get.mp each).2 index insideNames inside
    cases held.symm.trans provided
    have stored := @lookup_storeAll_of_mem datas [] _ _ uniqueKeys
      (get_mem datas ⟨index, inside⟩)
    cases there : entries.lookup (datas.get ⟨index, inside⟩).1 with
    | none =>
      rw [(keys _).mpr there] at stored
      cases stored
    | some other => exact ⟨other, rfl, equal.symm.trans (values _ _ _ stored there)⟩

end

/-! ## Structs -/

/-- The members of a struct come back from the messages that are added for them. -/
def Fields.MembersReturn : Fields → List PbSpec → (sub_struct : List PbSpec) →
    List (String × PyValue) → Prop
  | .cons name _ rest, attr :: attrs, sub_struct, entries =>
    (∀ definition value, attr.definition sub_struct [] = some definition →
        entries.lookup name = some value → Returns (definition.fill .empty value) value) ∧
      rest.MembersReturn attrs sub_struct entries
  | _, _, _, _ => True

/-- The loop over the attributes of a struct, and what is read from the parts it adds. -/
theorem convertAttrs_membersReturn : ∀ {fields : Fields} {attrs sub_struct : List PbSpec}
    {entries : List (String × PyValue)}, fields.SpecifiedBy attrs sub_struct →
    fields.AllAccept entries → fields.names.Nodup → fields.MembersReturn attrs sub_struct entries →
    ∀ (index : Nat) {provided_attrs : List String},
      (∀ name ∈ fields.names, name ∈ provided_attrs) → ∀ message : Message, ∃ parts datas,
        convertAttrs attrs .struct_value (structIn sub_struct) (unionIn sub_struct) entries
          provided_attrs message =
            .ok (message.set .struct_value (message.struct_value ++ parts)) ∧
        (∀ result, dataOfParts parts index result = .ok (storeAll datas result)) ∧
        List.Forall₂ (MemberData entries) fields.names datas ∧
        datas.map (·.1) = memberKeys sub_struct attrs index
  | .nil, _, _, _, specified, _, _, _, _, _, _, message => by
    rw [show _ = [] from specified]
    refine ⟨[], [], ?_, fun result => ?_, .nil, rfl⟩
    · rw [convertAttrs, List.append_nil]
      exact congrArg Except.ok (Message.set_get message .struct_value).symm
    · rw [dataOfParts]
      rfl
  | .cons name field rest, _, sub_struct, entries,
      ⟨attr, attrs, definition, equal, named, _, found, sameType, specified, specifiedRest⟩,
      ⟨⟨value, provided, accepted⟩, acceptedRest⟩, unique, returns, index, provided_attrs, listed,
      message => by
    subst equal
    obtain ⟨fresh, uniqueRest⟩ := nodup_cons.mp unique
    obtain ⟨part, data, filled, read, same⟩ := returns.1 definition value found provided
    have goesOn := @convertAttrs_goes_on attr attrs .struct_value _ _ _ _ _ _
      (named.symm ▸ provided) (named.symm ▸ listed name mem_cons_self)
      (convertAttr_specified found sameType specified value) message
    have listedRest : ∀ other ∈ rest.names, other ∈ provided_attrs.erase attr.name := by
      intro other member
      have different : other ≠ attr.name := by
        rintro rfl
        exact fresh (named ▸ member)
      exact (mem_erase_of_ne different).mpr (listed other (mem_cons_of_mem _ member))
    obtain ⟨parts, datas, converted, reads, each, keys⟩ :=
      convertAttrs_membersReturn specifiedRest acceptedRest uniqueRest returns.2 (index + 1)
        listedRest (message.add .struct_value part)
    refine ⟨part :: parts, (partKey definition.name index, data) :: datas, ?_, fun result => ?_,
      .cons ⟨value, provided, same⟩ each, ?_⟩
    · rw [goesOn, filled]
      dsimp only [Except.bind]
      rw [converted]
      simp [Message.add, Message.set, Message.get]
    · rw [dataOfParts, read]
      dsimp only
      rw [fill_name_of_type specified.type filled, reads]
      rfl
    · rw [map_cons, keys, memberKeys, found]
      rfl

theorem Fields.AllAccept.lookup_ne_none : ∀ {fields : Fields} {entries : List (String × PyValue)},
    fields.AllAccept entries → ∀ name ∈ fields.names, entries.lookup name ≠ none
  | .nil, _, _, _, listed => by cases listed
  | .cons name field rest, entries, ⟨⟨value, provided, _⟩, further⟩, other, listed => by
    rcases List.mem_cons.mp listed with rfl | later
    · simp [provided]
    · exact further.lookup_ne_none other later

/-- The entries of a dictionary that is of a struct are those of its members. -/
theorem lookup_ne_none_iff {fields : Fields} {entries : List (String × PyValue)}
    (only : ∀ entry ∈ entries, entry.1 ∈ fields.names) (accepted : fields.AllAccept entries)
    (key : String) : entries.lookup key ≠ none ↔ key ∈ fields.names := by
  refine ⟨fun found => ?_, accepted.lookup_ne_none key⟩
  obtain ⟨value, provided⟩ := Option.ne_none_iff_exists'.mp found
  obtain ⟨before, after, rfl, _⟩ := lookup_eq_some_iff.mp provided
  exact only (key, value) (by simp)

section

variable {pb_spec : PbSpec} {entries : List (String × PyValue)} (name : Option String)

/-- A struct whose members come back comes back, if their keys are different and fit. -/
theorem returns_struct_iff {fields : Fields} (type : pb_spec.type = .TYPE_STRUCT)
    (specified : fields.SpecifiedBy pb_spec.struct_value pb_spec.sub_struct)
    (unique : fields.names.Nodup) (only : ∀ entry ∈ entries, entry.1 ∈ fields.names)
    (accepted : fields.AllAccept entries)
    (returns : fields.MembersReturn pb_spec.struct_value pb_spec.sub_struct entries) :
    Returns (pb_spec.fill (.withName name) (.dict entries)) (.dict entries) ↔
      (memberKeys pb_spec.sub_struct pb_spec.struct_value 1).Nodup ∧
        List.Forall₂ (KeyFits entries) fields.names
          (memberKeys pb_spec.sub_struct pb_spec.struct_value 1) := by
  have provided : ∀ name ∈ fields.names, name ∈ entries.map (·.1) := by
    intro name listed
    obtain ⟨value, found⟩ :=
      Option.ne_none_iff_exists'.mp (accepted.lookup_ne_none name listed)
    obtain ⟨before, after, rfl, _⟩ := lookup_eq_some_iff.mp found
    simp
  have all := lookup_ne_none_iff only accepted
  obtain ⟨parts, datas, converted, reads, each, keys⟩ :=
    convertAttrs_membersReturn specified accepted unique returns 1 provided
      { (Message.withName name).named pb_spec.name with type := some .TYPE_STRUCT }
  rw [PbSpec.fill, type]
  dsimp only
  rw [PyDict2PbStruct_eq, converted, returns_ok_iff, data_struct rfl, ← keys]
  have read : dataOfParts
      (((Message.withName name).named pb_spec.name).struct_value ++ parts) 1 [] =
        .ok (storeAll datas []) := by
    rw [Message.named_withName]
    exact reads []
  constructor
  · rintro ⟨data, equal, same⟩
    have stored : data = .dict (storeAll datas []) :=
      (Except.ok.inj ((congrArg (Except.map PyValue.dict) read).symm.trans equal)).symm
    exact keysFit_of_same_dict unique all each (stored ▸ same)
  · rintro ⟨uniqueKeys, fit⟩
    exact ⟨_, congrArg (Except.map PyValue.dict) read,
      same_dict_of_keysFit uniqueKeys all each fit⟩

/-- A specification that only names a struct gives an empty dictionary. -/
theorem not_returns_reference (type : pb_spec.type = .TYPE_STRUCT)
    (reference : pb_spec.struct_value = []) {key : String} (some : entries.lookup key ≠ none) :
    ¬ Returns (pb_spec.fill (.withName name) (.dict entries)) (.dict entries) := by
  rw [PbSpec.fill, type]
  dsimp only
  rw [PyDict2PbStruct_eq, reference, convertAttrs, returns_ok_iff, data_struct rfl,
    Message.named_withName]
  rintro ⟨_, equal, same⟩
  cases equal
  cases same with
  | dict keys _ => exact some ((keys key).mp rfl)

end

/-! ## All types -/

mutual

/-- A value and its parts come back exactly if they are recovered, whatever the message was called
before. -/
theorem returns_iff_recovered : ∀ {spec : Spec} {pb_spec : PbSpec} {sub_struct : List PbSpec}
    {py_value : PyValue}, spec.SpecifiedBy pb_spec sub_struct → spec.WellFormed →
    spec.Accepts py_value → ∀ name : Option String,
      Returns (pb_spec.fill (.withName name) py_value) py_value ∧ spec.PartsReturn pb_spec py_value ↔
        spec.Recovered pb_spec py_value
  | .scalar _, _, _, .int _, specified, _, inRange, name =>
    iff_of_true ⟨returns_scalar name specified inRange, trivial⟩ trivial
  | .string, _, _, .str _, specified, _, _, name =>
    (and_iff_left trivial).trans (returns_string_iff name specified)
  | .enum _ _, _, _, .int _, specified, _, inRange, name =>
    (and_iff_left trivial).trans (returns_enum_iff name specified inRange)
  | .vector vector_value, pb_spec, _, .list items, ⟨type, vector_spec, only, specified⟩, formed,
      accepted, name => by
    have element : ∀ item ∈ items,
        RoundTrips vector_spec item ∧ vector_value.PartsReturn vector_spec item ↔
          vector_value.Recovered vector_spec item := by
      intro item listed
      rw [roundTrips_iff_recovered specified (accepted item listed)]
      exact returns_iff_recovered specified formed (accepted item listed) _
    rw [Spec.PartsReturn, Spec.Recovered, only]
    simp only [mem_singleton, forall_eq]
    constructor
    · rintro ⟨returns, parts⟩
      exact ⟨(returns_vector_iff name type only fun item listed => (parts item listed).1).mp
        returns, fun item listed => (element item listed).mp (parts item listed)⟩
    · rintro ⟨short, recovered⟩
      have parts := fun item listed => (element item listed).mpr (recovered item listed)
      exact ⟨(returns_vector_iff name type only fun item listed => (parts item listed).1).mpr
        short, parts⟩
  | .struct _ struct_value, pb_spec, _, .dict entries, ⟨type, described⟩, ⟨unique, formed⟩,
      ⟨only, _, accepted⟩, name => by
    rw [Spec.PartsReturn, Spec.Recovered]
    have inline : struct_value.SpecifiedBy pb_spec.struct_value pb_spec.sub_struct →
        (Returns (pb_spec.fill (.withName name) (.dict entries)) (.dict entries) ∧
            struct_value.PartsReturn pb_spec.struct_value pb_spec.sub_struct entries ↔
          (memberKeys pb_spec.sub_struct pb_spec.struct_value 1).Nodup ∧
            struct_value.AllRecovered pb_spec.struct_value pb_spec.sub_struct 1 entries) := by
      intro specified
      rw [Fields.allRecovered_iff specified formed accepted 1]
      constructor
      · rintro ⟨returns, parts⟩
        obtain ⟨uniqueKeys, fit⟩ := (returns_struct_iff name type specified unique only accepted
          (parts.membersReturn specified formed accepted)).mp returns
        exact ⟨uniqueKeys, parts, fit⟩
      · rintro ⟨uniqueKeys, parts, fit⟩
        exact ⟨(returns_struct_iff name type specified unique only accepted
          (parts.membersReturn specified formed accepted)).mpr ⟨uniqueKeys, fit⟩, parts⟩
    rcases described with specified | ⟨reference, _, _, _⟩
    · exact inline specified
    · cases struct_value with
      | nil => exact inline reference
      | cons first field rest =>
        refine iff_of_false (fun both => ?_) ?_
        · exact not_returns_reference name type reference
            (accepted.lookup_ne_none first mem_cons_self) both.1
        · rw [reference, Fields.AllRecovered]
          exact fun both => both.2

theorem Fields.PartsReturn.membersReturn : ∀ {fields : Fields} {attrs sub_struct : List PbSpec}
    {entries : List (String × PyValue)}, fields.PartsReturn attrs sub_struct entries →
    fields.SpecifiedBy attrs sub_struct → fields.WellFormed → fields.AllAccept entries →
    fields.MembersReturn attrs sub_struct entries
  | .nil, _, _, _, _, _, _, _ => trivial
  | .cons name field rest, _, sub_struct, entries, parts,
      ⟨attr, attrs, definition, equal, named, _, found, sameType, specified, specifiedRest⟩,
      ⟨formed, formedRest⟩, ⟨⟨value, provided, accepted⟩, acceptedRest⟩ => by
    subst equal
    refine ⟨?_, parts.2.membersReturn specifiedRest formedRest acceptedRest⟩
    intro _ _ foundAgain providedAgain
    cases found.symm.trans foundAgain
    cases provided.symm.trans providedAgain
    have both := parts.1 definition value found provided
    rw [roundTrips_iff_recovered specified accepted, returns_iff_recovered specified formed accepted] at both
    exact ((returns_iff_recovered specified formed accepted none).mpr both).1

theorem Fields.allRecovered_iff : ∀ {fields : Fields} {attrs sub_struct : List PbSpec}
    {entries : List (String × PyValue)}, fields.SpecifiedBy attrs sub_struct → fields.WellFormed →
    fields.AllAccept entries → ∀ index : Nat,
      fields.AllRecovered attrs sub_struct index entries ↔
        fields.PartsReturn attrs sub_struct entries ∧
          List.Forall₂ (KeyFits entries) fields.names (memberKeys sub_struct attrs index)
  | .nil, _, _, _, specified, _, _, _ => by
    rw [show _ = [] from specified]
    exact iff_of_true trivial ⟨trivial, .nil⟩
  | .cons name field rest, _, sub_struct, entries,
      ⟨attr, attrs, definition, equal, named, _, found, sameType, specified, specifiedRest⟩,
      ⟨formed, formedRest⟩, ⟨⟨value, provided, accepted⟩, acceptedRest⟩, index => by
    subst equal
    have first : RoundTrips definition value ∧ field.PartsReturn definition value ↔
        field.Recovered definition value := by
      rw [roundTrips_iff_recovered specified accepted]
      exact returns_iff_recovered specified formed accepted _
    have only : ∀ {property : PbSpec → PyValue → Prop},
        (∀ definition value, attr.definition sub_struct [] = some definition →
          entries.lookup name = some value → property definition value) ↔
            property definition value := by
      intro property
      refine ⟨fun all => all definition value found provided, ?_⟩
      intro holds _ _ foundAgain providedAgain
      cases found.symm.trans foundAgain
      cases provided.symm.trans providedAgain
      exact holds
    have fits : KeyFits entries name (partKey definition.name index) ↔
        (partKey definition.name index = name ∨ ∃ other,
          entries.lookup (partKey definition.name index) = some other ∧ value.Same other) := by
      simp only [KeyFits, provided, Option.some.injEq, forall_eq']
    rw [Fields.AllRecovered, Fields.PartsReturn, memberKeys, Fields.names, forall₂_cons,
      Fields.allRecovered_iff specifiedRest formedRest acceptedRest, only, only, first, found,
      Option.map_some, Option.getD_some, fits]
    constructor
    · rintro ⟨⟨recovered, key⟩, parts, keys⟩
      exact ⟨⟨recovered, parts⟩, key, keys⟩
    · rintro ⟨⟨recovered, parts⟩, key, keys⟩
      exact ⟨⟨recovered, key⟩, parts, keys⟩

end

/-! ## There and back -/

/-- A specification of `probeSpec` in which the nested type is called like the member. -/
def tagPbSpec : PbSpec where
  name := "Probe"
  type := .TYPE_STRUCT
  scalar_type := none
  enum_value := none
  predefined_type := none
  vector_value := []
  struct_value := [
    { PbSpec.ofType "mode" .TYPE_ENUM with enum_value := some .int32_t },
    { PbSpec.ofType "levels" .TYPE_VECTOR with
      vector_value := [{ PbSpec.ofType "" .TYPE_SCALAR with scalar_type := some .uint8_t }] },
    { PbSpec.ofType "tag" .TYPE_STRUCT with predefined_type := some "tag" }]
  union_value := []
  sub_struct := [
    { PbSpec.ofType "tag" .TYPE_STRUCT with struct_value := [PbSpec.ofType "text" .TYPE_STRING] }]
  sub_union := []

def probeValue : PyValue :=
  .dict [("mode", .int (-3)), ("levels", .list [.int 7, .int 255]),
    ("tag", .dict [("text", .str [65])])]

theorem probeSpec_accepts : probeSpec.Accepts probeValue := by
  simp [probeSpec, probeValue, Spec.Accepts, Fields.AllAccept, Fields.names, ScalarType.InRange,
    ScalarType.least, ScalarType.size, lookup_cons]

theorem probeSpec_wellFormed : probeSpec.WellFormed := by
  simp [probeSpec, Spec.WellFormed, Fields.WellFormed, Fields.names]

end Vts.Vtsc
