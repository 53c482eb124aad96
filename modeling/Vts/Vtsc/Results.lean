import Vts.Vtsc.Rebuild
import Vts.Vtsc.SetResult

/-!
# Results that are rebuilt

The code that `GenerateSetResultCodeForTypedVariable` emits writes a result into a message, and
the code that `GenerateDriverImplForTypedVariable` emits reads an argument from one. For the
types without unions and handles this module says when the second is the inverse of the first.

`setResult` is the message that is written. The loop over an array stops after the first
element, because its bound is the number of element types and not the size of the array, and
the bound of the loop over a vector is converted to `int`. `rebuilds_setResult` says which
values are rebuilt, and `result_rebuilt_iff` adds what is decided before the code runs.

The declarations of the arguments in the driver leave arrays uninitialized, so a value only
counts as rebuilt if it is, whatever the argument held before.
-/

namespace Vts.Vtsc

open Vts.Lib Children List

mutual

/-- A type is built from scalars, strings, masks, enumerations, vectors, arrays with elements
and structs. -/
def Spec.Basic : Spec → Prop
  | .vector vector_value => vector_value.Basic
  | .array vector_size vector_value => 0 < vector_size ∧ vector_value.Basic
  | .struct _ struct_value => struct_value.Basic
  | .union _ _ => False
  | .handle => False
  | _ => True

def Fields.Basic : Fields → Prop
  | .nil => True
  | .cons _ field rest => field.Basic ∧ rest.Basic

end

/-! ## What the code writes -/

mutual

/-- What the code for a basic type makes of a message. The bound of the loop over a vector is
converted to `int`, and the loop over an array stops after the first element. -/
def setResult : Spec → Value → Message → Message
  | .scalar scalar_type, .scalar number, message =>
    message.setScalar .TYPE_SCALAR scalar_type number
  | .string, .string bytes, message =>
    { message with
      type := some .TYPE_STRING
      string_message := some (c_str bytes)
      string_length := some bytes.length }
  | .mask scalar_type, .scalar number, message => message.setScalar .TYPE_MASK scalar_type number
  | .enum _ scalar_type, .scalar number, message =>
    message.setScalar .TYPE_ENUM scalar_type number
  | .vector vector_value, .list elements, message =>
    { message with
      type := some .TYPE_VECTOR
      vector_size := some elements.length
      vector_value := message.vector_value ++
        (if elements.length < indices then elements else []).map fun element =>
          setResult vector_value element .empty }
  | .array _ vector_value, .list elements, message =>
    { message with
      type := some .TYPE_ARRAY
      vector_size := some 1
      vector_value := message.vector_value ++
        (elements.take 1).map fun element => setResult vector_value element .empty }
  | .struct _ struct_value, .record members, message =>
    { message with
      type := some .TYPE_STRUCT
      struct_value := message.struct_value ++ setResults struct_value members }
  | _, _, message => message

/-- The messages of the fields. -/
def setResults : Fields → List (String × Value) → List Message
  | .cons name field rest, (_, value) :: members =>
    { setResult field value .empty with name := some name } :: setResults rest members
  | _, _ => []

end

mutual

/-- The emitted code for a basic type writes `setResult`, if it can read its value. -/
theorem GenerateSetResultCodeForTypedVariable_does (device : Device) :
    ∀ (spec : Spec) (result_msg : String) (result_value : Place) (loops : List (String × Nat))
      (object value : Value), spec.Basic → spec.WellFormed →
      spec.Uncaptured (result_value.indices ≠ []) → result_value.OnlyI → spec.Holds value →
      (spec.Reads → readPlace loops object result_value = .ok value) →
      (GenerateSetResultCodeForTypedVariable spec result_msg result_value).Does device loops
        object result_msg (setResult spec value)
  | .scalar _, _, _, _, _, .scalar _, _, _, _, _, _, read
  | .mask _, _, _, _, _, .scalar _, _, _, _, _, _, read => .set_scalar (read trivial) _ _
  | .enum _ _, _, _, _, _, .scalar _, _, _, _, _, _, read => by
    refine ((WriteCode.Does.set_type _).seq ((WriteCode.Does.call (read trivial)
      (WriteCode.Does.set_scalar rfl _ _)).seq .skip)).congr ?_
    exact fun _ => rfl
  | .string, _, _, _, _, .string _, _, _, _, _, _, read => by
    refine ((WriteCode.Does.set_type _).seq
      ((WriteCode.Does.set_string_value (read trivial)).seq .skip)).congr ?_
    exact fun _ => rfl
  | .vector vector_value, result_msg, result_value, loops, object, .list elements, basic, formed,
      uncaptured, onlyI, held, read => by
    have unused : "i" ∉ result_value.indices := by
      rw [not_not.mp uncaptured.1]
      exact not_mem_nil
    have inner : vector_value.Uncaptured ((Place.index result_value "i").indices ≠ []) := by
      simpa [Place.indices] using uncaptured.2
    have round : ∀ count element, elements[count]? = some element →
        WriteCode.Does device (("i", count) :: loops) object
          (GenerateSetResultCodeForTypedVariable vector_value (result_msg ++ "_vector_i")
            (.index result_value "i")) (result_msg ++ "_vector_i")
          (setResult vector_value element) := by
      intro count element reached
      exact GenerateSetResultCodeForTypedVariable_does device vector_value _ _ _ object element
        basic formed inner onlyI.index (held.2 element (mem_of_getElem? reached))
        (fun _ => readPlace_index unused (read trivial) reached)
    refine ((WriteCode.Does.set_type _).seq ((WriteCode.Does.set_vector_size (read trivial)).seq
      ((WriteCode.Does.vector_elements (length_lt_append result_msg (by decide)) unused
        (read trivial) held.1 round).seq .skip))).congr ?_
    exact fun _ => rfl
  | .array vector_size vector_value, result_msg, result_value, loops, object, .list elements,
      basic, formed, uncaptured, onlyI, held, read => by
    have inner : vector_value.Uncaptured ((Place.index result_value "i").indices ≠ []) := by
      simpa [Place.indices] using uncaptured.2
    have first : 1 ≤ elements.length := by
      rw [held.1]
      exact basic.1
    have round : ∀ count element, elements[count]? = some element →
        WriteCode.Does device (("i", count) :: loops) object
          (GenerateSetResultCodeForTypedVariable vector_value (result_msg ++ "_array_i")
            (.index result_value "i")) (result_msg ++ "_array_i")
          (setResult vector_value element) := by
      intro count element reached
      refine GenerateSetResultCodeForTypedVariable_does device vector_value _ _ _ object element
        basic.2 formed inner onlyI.index (held.2 element (mem_of_getElem? reached)) ?_
      intro reads
      have unused : "i" ∉ result_value.indices := by
        rw [by_contra fun used => uncaptured.1 used reads]
        exact not_mem_nil
      exact readPlace_index unused (read reads) reached
    refine ((WriteCode.Does.set_type _).seq ((WriteCode.Does.set_constant_size 1).seq
      ((WriteCode.Does.elements (length_lt_append result_msg (by decide)) (fun _ => rfl)
        (by decide) first round).seq .skip))).congr ?_
    exact fun _ => rfl
  | .struct (some _) struct_value, result_msg, result_value, loops, object, .record members,
      basic, formed, uncaptured, _, held, read => by
    have fields := GenerateSetResultCodeForFields_does device struct_value "result_msg"
      (.var "result_value") [] (.record members) members basic formed.2
      (by simp only [Place.indices, ne_eq, not_true_eq_false]; exact uncaptured)
      (fun _ listed => by cases listed) held (by
        intro _ name value listed
        exact readPlace_dot rfl (held.lookup_of_mem formed.1 listed))
    refine ((WriteCode.Does.set_type _).seq ((WriteCode.Does.call (read trivial)
      ((WriteCode.Does.set_type _).seq (fields.seq .skip))).seq .skip)).congr ?_
    exact fun _ => rfl
  | .struct none struct_value, result_msg, result_value, loops, object, .record members, basic,
      formed, uncaptured, onlyI, held, read => by
    have fields := GenerateSetResultCodeForFields_does device struct_value result_msg
      result_value loops object members basic formed.2 uncaptured onlyI held (by
        intro reads name value listed
        exact readPlace_dot (read reads) (held.lookup_of_mem formed.1 listed))
    refine ((WriteCode.Does.set_type _).seq (fields.seq .skip)).congr ?_
    exact fun _ => rfl

theorem GenerateSetResultCodeForFields_does (device : Device) :
    ∀ (fields : Fields) (result_msg : String) (result_value : Place)
      (loops : List (String × Nat)) (object : Value) (members : List (String × Value)),
      fields.Basic → fields.WellFormed → fields.Uncaptured (result_value.indices ≠ []) →
      result_value.OnlyI → fields.Hold members →
      (fields.Read → ∀ name value, (name, value) ∈ members →
        readPlace loops object (.dot result_value name) = .ok value) →
      (GenerateSetResultCodeForFields fields .struct_value result_msg result_value).Does device
        loops object result_msg (fun message =>
          { message with struct_value := message.struct_value ++ setResults fields members })
  | .nil, _, _, _, _, _, _, _, _, _, _, _ => by
    refine WriteCode.Does.skip.congr ?_
    intro message
    cases message
    simp [setResults]
  | .cons name field rest, result_msg, result_value, loops, object, _, basic, formed, uncaptured,
      onlyI, ⟨value, others, rfl, holds, further⟩, read => by
    have one := GenerateSetResultCodeForTypedVariable_does device field
      (result_msg ++ "_" ++ name) (.dot result_value name) loops object value basic.1 formed.1
      uncaptured.1 onlyI holds (fun reads => read (Or.inl reads) name value mem_cons_self)
    have later := GenerateSetResultCodeForFields_does device rest result_msg result_value loops
      object others basic.2 formed.2 uncaptured.2 onlyI further
      (fun reads other found listed =>
        read (Or.inr reads) other found (mem_cons_of_mem _ listed))
    have named : WriteCode.Does device loops object (.set_name (result_msg ++ "_" ++ name) name)
        (result_msg ++ "_" ++ name) (fun message => { message with name := some name }) :=
      .of_change fun _ => rfl
    refine ((WriteCode.Does.part (length_lt_member _ _) (one.seq (named.seq .skip))).seq later).congr ?_
    intro message
    simp [setResults, Message.add, Message.set, Message.get]

end

/-! ## What is rebuilt -/

mutual

/-- Vectors have less than 2³¹ elements, and arrays have one element or elements with a single
value. -/
def Spec.Carried : Spec → Value → Prop
  | .vector vector_value, .list elements =>
    elements.length < 2 ^ 31 ∧ ∀ element ∈ elements, vector_value.Carried element
  | .array vector_size vector_value, .list elements =>
    (vector_size = 1 ∨ vector_value.Single) ∧ ∀ element ∈ elements, vector_value.Carried element
  | .struct _ struct_value, .record members => struct_value.Carried members
  | _, _ => True

def Fields.Carried : Fields → List (String × Value) → Prop
  | .cons _ field rest, (_, value) :: members => field.Carried value ∧ rest.Carried members
  | _, _ => True

end

mutual

theorem Spec.Single.carried : ∀ {spec : Spec}, spec.Single → spec.Basic → ∀ {value : Value},
    spec.Holds value → spec.Carried value
  | .array _ _, single, basic, .list _, held => by
    have singleElements := single.resolve_left (Nat.ne_of_gt basic.1)
    exact ⟨Or.inr singleElements, fun element listed =>
      singleElements.carried basic.2 (held.2 element listed)⟩
  | .struct _ struct_value, single, basic, .record _, held =>
    Fields.Single.carried single basic held

theorem Fields.Single.carried : ∀ {fields : Fields}, fields.Single → fields.Basic →
    ∀ {members : List (String × Value)}, fields.Hold members → fields.Carried members
  | .nil, _, _, _, _ => trivial
  | .cons _ _ _, single, basic, _, ⟨_, _, rfl, holds, further⟩ =>
    ⟨single.1.carried basic.1 holds, single.2.carried basic.2 further⟩

end

theorem one_lt_indices : 1 < indices := by decide

/-- The name of a message does not matter for the code. -/
theorem setResult_name (spec : Spec) (value : Value) (message : Message) (name : Option String) :
    { setResult spec value message with name := name } =
      setResult spec value { message with name := name } := by
  cases spec <;> cases value <;> rfl

mutual

theorem rebuilds_setResult {device : Device} (typed : device.Typed) :
    ∀ (spec : Spec) (value : Value) (name : Option String), spec.Basic → spec.WellFormed →
      spec.Holds value → spec.NulFree value →
      (Rebuilds device spec (some (setResult spec value (.withName name))) value ↔
        spec.Carried value)
  | .scalar _, .scalar _, name, _, _, held, _ | .mask _, .scalar _, name, _, _, held, _
  | .enum _ _, .scalar _, name, _, _, held, _ =>
    iff_of_true (rebuilds_scalar held held (fun _ _ => rfl) rfl (if_pos rfl)) trivial
  | .string, .string bytes, name, _, _, held, nulFree => by
    refine iff_of_true ((rebuilds_of_decode held fun _ => rfl).mpr ?_) trivial
    have whole : c_str bytes = bytes := c_str_of_not_mem nulFree
    exact congrArg Value.string whole.symm
  | .vector vector_value, .list elements, name, basic, formed, held, nulFree => by
    have parts : (setResult (.vector vector_value) (.list elements) (.withName name)).vector_value =
        (if elements.length < indices then elements else []).map fun element =>
          setResult vector_value element (.withName none) := nil_append _
    have each : (∀ element ∈ elements, Rebuilds device vector_value
          (some (setResult vector_value element (.withName none))) element) ↔
        ∀ element ∈ elements, vector_value.Carried element :=
      forall₂_congr fun element listed => rebuilds_setResult typed vector_value element none basic
        formed (held.2 element listed) (nulFree element listed)
    rw [rebuilds_vector typed held, parts, Spec.Carried, ← each]
    exact elementsRebuilt_vector _ _
  | .array vector_size vector_value, .list elements, name, basic, formed, held, nulFree => by
    obtain ⟨first, rest, rfl⟩ := exists_cons_of_ne_nil
      (ne_nil_of_length_pos (held.1 ▸ basic.1))
    obtain ⟨holdsFirst, holdsRest⟩ := forall_mem_cons.mp held.2
    have parts : (setResult (.array vector_size vector_value) (.list (first :: rest))
        (.withName name)).vector_value = [setResult vector_value first (.withName none)] := rfl
    have one := rebuilds_setResult typed vector_value first none basic.2 formed holdsFirst
      (nulFree first mem_cons_self)
    have kept : (∀ value ∈ rest, vector_value.Keeps value) ↔
        vector_size = 1 ∨ vector_value.Single := by
      have size : rest.length + 1 = vector_size := held.1
      cases rest with
      | nil => simp [← size]
      | cons second rest =>
        obtain ⟨holdsSecond, _⟩ := forall_mem_cons.mp holdsRest
        constructor
        · intro keeps
          exact Or.inr ((Spec.keeps_iff_single holdsSecond).mp (keeps second mem_cons_self))
        · rintro (one | single) value listed
          · rw [length_cons] at size
            omega
          · exact (Spec.keeps_iff_single (holdsRest value listed)).mpr single
    rw [rebuilds_array held, parts, ElementsRebuilt, ElementsRebuilt, one, kept, Spec.Carried]
    constructor
    · rintro ⟨_, carried, single⟩
      refine ⟨single, ?_⟩
      rcases single with alone | single
      · have size : rest.length + 1 = vector_size := held.1
        obtain rfl : rest = [] := eq_nil_of_length_eq_zero (by omega)
        simpa using carried
      · exact fun value listed => single.carried basic.2 (held.2 value listed)
    · rintro ⟨single, carried⟩
      exact ⟨one_lt_indices, carried first mem_cons_self, single⟩
  | .struct predefined_type struct_value, .record members, name, basic, formed, held,
      nulFree => by
    rw [rebuilds_struct formed.1 held]
    exact fieldsRebuilt_setResults typed struct_value members [] _ rfl basic formed.2 held nulFree

theorem fieldsRebuilt_setResults {device : Device} (typed : device.Typed) :
    ∀ (fields : Fields) (members : List (String × Value)) (before : List Message)
      (message : Message), message.struct_value = before ++ setResults fields members →
      fields.Basic → fields.WellFormed → fields.Hold members → fields.NulFree members →
      (FieldsRebuilt device fields false .struct_value before.length (some message) members ↔
        fields.Carried members)
  | .nil, _, _, _, _, _, _, _, _ => by
    simp [FieldsRebuilt, Fields.Carried]
  | .cons name field rest, members, before, message, parts, basic, formed, held, nulFree => by
    obtain ⟨value, others, rfl, holds, further⟩ := held
    have part : (message.get .struct_value)[before.length]? =
        some (setResult field value (.withName (some name))) := by
      rw [Message.get, parts, List.getElem?_append_right (Nat.le_refl _), Nat.sub_self, setResults,
        setResult_name]
      rfl
    have one := rebuilds_setResult typed field value (some name) basic.1 formed.1 holds nulFree.1
    have later := fieldsRebuilt_setResults typed rest others
      (before ++ [setResult field value (.withName (some name))]) message
      (by rw [parts, setResults, setResult_name, append_assoc]; rfl)
      basic.2 formed.2 further nulFree.2
    rw [length_append, length_singleton] at later
    rw [fieldsRebuilt_cons part, Fields.Carried, ← one, ← later]

end

mutual

/-- The code writes no more elements for an array than the array has. -/
theorem setResult_sized : ∀ (spec : Spec) (value : Value) (name : Option String), spec.Basic →
    spec.Holds value → spec.Sized (setResult spec value (.withName name))
  | .scalar _, _, _, _, _ | .string, _, _, _, _ | .mask _, _, _, _, _ | .enum _ _, _, _, _, _ =>
    trivial
  | .vector vector_value, .list elements, name, basic, held => by
    intro part listed
    have written : part ∈ (if elements.length < indices then elements else []).map fun element =>
        setResult vector_value element (.withName none) := listed
    obtain ⟨element, taken, rfl⟩ := mem_map.mp written
    refine setResult_sized vector_value element none basic (held.2 element ?_)
    split at taken
    · exact taken
    · cases taken
  | .array vector_size vector_value, .list elements, name, basic, held => by
    have parts : (setResult (.array vector_size vector_value) (.list elements)
        (.withName name)).vector_value =
        (elements.take 1).map fun element => setResult vector_value element (.withName none) := rfl
    rw [Spec.Sized, parts]
    constructor
    · rw [length_map, length_take]
      exact Nat.le_trans (Nat.min_le_left _ _) basic.1
    · intro part listed
      obtain ⟨element, taken, rfl⟩ := mem_map.mp listed
      exact setResult_sized vector_value element none basic.2
        (held.2 element (mem_of_mem_take taken))
  | .struct _ struct_value, .record members, name, basic, held =>
    setResults_sized struct_value members [] _ rfl basic held

theorem setResults_sized : ∀ (fields : Fields) (members : List (String × Value))
    (before : List Message) (message : Message),
    message.struct_value = before ++ setResults fields members → fields.Basic →
      fields.Hold members → fields.Sized .struct_value before.length message
  | .nil, _, _, _, _, _, _ => trivial
  | .cons name field rest, members, before, message, parts, basic, held => by
    obtain ⟨value, others, rfl, holds, further⟩ := held
    constructor
    · intro part found
      rw [Message.get, parts, List.getElem?_append_right (Nat.le_refl _), Nat.sub_self, setResults,
        setResult_name] at found
      cases found
      exact setResult_sized field value (some name) basic.1 holds
    · have later := setResults_sized rest others
        (before ++ [setResult field value (.withName (some name))]) message
        (by rw [parts, setResults, setResult_name, append_assoc]; rfl) basic.2 further
      rwa [length_append, length_singleton] at later

end

mutual

/-- Without handles, values that are the same are equal. -/
theorem Spec.Same.eq : ∀ {spec : Spec} {first second : Value}, spec.Same first second →
    spec.Basic → spec.Holds first → second = first
  | .scalar _, .scalar _, _, same, _, _ | .string, .string _, _, same, _, _
  | .mask _, .scalar _, _, same, _, _ | .enum _ _, .scalar _, _, same, _, _ => same.symm
  | .vector vector_value, .list first, .list second, same, basic, held => by
    have equal := (forall₂_iff_get.mp same)
    refine congrArg Value.list (ext_get equal.1.symm ?_)
    intro index insideSecond inside
    exact Spec.Same.eq (equal.2 index inside insideSecond) basic (held.2 _ (get_mem _ _))
  | .array _ vector_value, .list first, .list second, same, basic, held => by
    have equal := (forall₂_iff_get.mp same)
    refine congrArg Value.list (ext_get equal.1.symm ?_)
    intro index insideSecond inside
    exact Spec.Same.eq (equal.2 index inside insideSecond) basic.2 (held.2 _ (get_mem _ _))
  | .struct _ _, .record _, .record _, same, basic, held =>
    congrArg Value.record (Fields.Same.eq same basic held)

theorem Fields.Same.eq : ∀ {fields : Fields} {first second : List (String × Value)},
    fields.Same first second → fields.Basic → fields.Hold first → second = first
  | .nil, _, _, same, _, _ => same.symm
  | .cons _ _ _, _, _, ⟨_, _, _, _, _, rfl, rfl, same, further⟩, basic,
      ⟨_, _, equal, holds, holdsRest⟩ => by
    cases equal
    rw [Spec.Same.eq same basic.1 holds, Fields.Same.eq further basic.2 holdsRest]

end

theorem Fields.mem_declare {fields : Fields} {name : String} (listed : name ∈ fields.names)
    (result_msg : String) : result_msg ++ "_" ++ name ∈ fields.declare result_msg := by
  match fields with
  | .nil => cases listed
  | .cons other field rest =>
    rcases mem_cons.mp listed with rfl | later
    · exact mem_append_left _ mem_cons_self
    · exact mem_append_right _ (mem_declare later result_msg)

mutual

/-- If the code compiles, the members of each struct have different names. -/
theorem Spec.DistinctInside.wellFormed : ∀ {spec : Spec} {result_msg : String},
    spec.DistinctInside result_msg → (spec.declares result_msg).Nodup → spec.WellFormed
  | .scalar _, _, _, _ | .string, _, _, _ | .mask _, _, _, _ | .enum _ _, _, _, _
  | .handle, _, _, _ => trivial
  | .vector _, _, inside, _ | .array _ _, _, inside, _ => inside.2.wellFormed inside.1
  | .struct (some _) _, _, inside, _ => inside.2.wellFormed inside.1
  | .struct none _, _, inside, distinct => Fields.DistinctInside.wellFormed inside distinct
  | .union (some _) _, _, inside, _ => inside.2.wellFormed inside.1
  | .union none _, _, inside, distinct => Fields.DistinctInside.wellFormed inside distinct

theorem Fields.DistinctInside.wellFormed : ∀ {fields : Fields} {result_msg : String},
    fields.DistinctInside result_msg → (fields.declare result_msg).Nodup →
      fields.names.Nodup ∧ fields.WellFormed
  | .nil, _, _, _ => ⟨List.nodup_nil, trivial⟩
  | .cons name field rest, result_msg, inside, distinct => by
    obtain ⟨first, later, apart⟩ := nodup_append.mp distinct
    obtain ⟨distinctRest, formedRest⟩ := inside.2.wellFormed later
    refine ⟨nodup_cons.mpr ⟨?_, distinctRest⟩,
      inside.1.wellFormed (nodup_cons.mp first).2, formedRest⟩
    intro again
    exact apart _ mem_cons_self _ (Fields.mem_declare again result_msg) rfl

end

/-! ## Writing and reading back -/

/-- The code that writes a result and the code that reads an argument are inverse for a value:
the code compiles, every index means the loop it was emitted for, and both run without a fault
and give the value to the argument, whatever that held before. -/
structure ResultRebuilt (device : Device) (spec : Spec)
    (result_msg result_value arg_name arg_value_name : String) (value : Value) : Prop where
  compiles : ((GenerateSetResultCodeForTypedVariable spec result_msg (.var result_value)).scope
    [result_msg]).isSome = true
  writes_resolved :
    (GenerateSetResultCodeForTypedVariable spec result_msg (.var result_value)).Resolved []
  reads_resolved :
    (GenerateDriverImplForTypedVariable spec (.var arg_name) (.var arg_value_name)).Resolved []
  rebuilds : ∃ pointers message,
    (GenerateSetResultCodeForTypedVariable spec result_msg (.var result_value)).run device [] value
        ⟨[(result_msg, [])], .empty⟩ = .ok ⟨pointers, message⟩ ∧
      ∀ before, spec.Holds before →
        (GenerateDriverImplForTypedVariable spec (.var arg_name) (.var arg_value_name)).run device
          [] message before = .ok value

theorem GenerateSetResultCodeForTypedVariable_compiles (spec : Spec) (result_msg : String)
    (result_value : Place) :
    ((GenerateSetResultCodeForTypedVariable spec result_msg result_value).scope
        [result_msg]).isSome = true ↔ spec.DistinctNames result_msg :=
  (GenerateSetResultCodeForTypedVariable_declares spec result_msg result_value).isSome_scope_iff
    (WriteCode.not_mem_singleton_of_longer (spec.length_of_mem_declares result_msg))

theorem GenerateSetResultCodeForTypedVariable_resolved (spec : Spec)
    (result_msg result_value : String) :
    (GenerateSetResultCodeForTypedVariable spec result_msg (.var result_value)).Resolved [] ↔
      spec.Uncaptured False := by
  have resolved := resolved_iff_uncaptured spec result_msg (.var result_value) []
    (fun _ listed => by cases listed) trivial
  simpa only [Place.indices, ne_eq, not_true_eq_false] using resolved

section

variable {device : Device} {spec : Spec} {value : Value}

/-- What the code writes into a new message. -/
theorem run_GenerateSetResultCodeForTypedVariable (basic : spec.Basic) (formed : spec.WellFormed)
    (uncaptured : spec.Uncaptured False) (held : spec.Holds value)
    (result_msg result_value : String) :
    ∃ pointers,
      (GenerateSetResultCodeForTypedVariable spec result_msg (.var result_value)).run device []
        value ⟨[(result_msg, [])], .empty⟩ = .ok ⟨pointers, setResult spec value (.withName none)⟩ := by
  have does := GenerateSetResultCodeForTypedVariable_does device spec result_msg
    (.var result_value) [] value value basic formed
    (by simpa only [Place.indices, ne_eq, not_true_eq_false] using uncaptured)
    (fun _ listed => by cases listed) held (fun _ => rfl)
  obtain ⟨pointers, ran, _⟩ := does ⟨[(result_msg, [])], .empty⟩ [] .empty
    lookup_cons_self rfl
  exact ⟨pointers, ran⟩

/-- What is written is read back exactly if the value is carried by the message. -/
theorem written_and_read_iff (typed : device.Typed) (basic : spec.Basic)
    (formed : spec.WellFormed) (held : spec.Holds value) (nulFree : spec.NulFree value)
    (arg_name arg_value_name : String) :
    (∀ before, spec.Holds before →
      (GenerateDriverImplForTypedVariable spec (.var arg_name) (.var arg_value_name)).run device
        [] (setResult spec value (.withName none)) before = .ok value) ↔ spec.Carried value := by
  rw [← rebuilds_setResult typed spec value none basic formed held nulFree]
  have sized := setResult_sized spec value none basic held
  refine forall₂_congr fun before holdsBefore => ?_
  rw [run_GenerateDriverImplForTypedVariable_var typed formed sized holdsBefore]
  constructor
  · intro decoded
    exact ⟨value, decoded, held.same⟩
  · rintro ⟨after, decoded, same⟩
    rw [decoded, same.eq basic held]

/-- The code that writes a result and the code that reads an argument are inverse exactly if no
block of the code declares a name twice, no loop hides the index of a loop around it, and the
value has no array with a second element that can differ and no vector of 2³¹ elements. -/
theorem result_rebuilt_iff (typed : device.Typed) (basic : spec.Basic) (held : spec.Holds value)
    (nulFree : spec.NulFree value) (result_msg result_value arg_name arg_value_name : String) :
    ResultRebuilt device spec result_msg result_value arg_name arg_value_name value ↔
      spec.DistinctNames result_msg ∧ spec.Uncaptured False ∧ spec.Carried value := by
  constructor
  · rintro ⟨compiles, writes_resolved, _, pointers, message, ran, back⟩
    have distinct := (GenerateSetResultCodeForTypedVariable_compiles spec result_msg _).mp compiles
    have uncaptured := (GenerateSetResultCodeForTypedVariable_resolved spec result_msg _).mp
      writes_resolved
    have formed := distinct.2.wellFormed distinct.1
    obtain ⟨others, ranAlso⟩ := @run_GenerateSetResultCodeForTypedVariable device spec value basic
      formed uncaptured held result_msg result_value
    rw [ran] at ranAlso
    cases ranAlso
    exact ⟨distinct, uncaptured, (written_and_read_iff typed basic formed held nulFree arg_name
      arg_value_name).mp back⟩
  · rintro ⟨distinct, uncaptured, carried⟩
    have formed := distinct.2.wellFormed distinct.1
    obtain ⟨pointers, ran⟩ := @run_GenerateSetResultCodeForTypedVariable device spec value basic
      formed uncaptured held result_msg result_value
    exact {
      compiles := (GenerateSetResultCodeForTypedVariable_compiles spec result_msg _).mpr distinct
      writes_resolved := (GenerateSetResultCodeForTypedVariable_resolved spec result_msg _).mpr
        uncaptured
      reads_resolved := GenerateDriverImplForTypedVariable_resolved spec _ _ []
        (fun _ listed => by cases listed) trivial trivial
      rebuilds := ⟨pointers, _, ran, (written_and_read_iff typed basic formed held nulFree arg_name
        arg_value_name).mpr carried⟩ }

end

/-- A predefined struct with a vector, a string and an array of one element. -/
def scanSpec : Spec :=
  .struct (some "Scan") (.cons "points" (.vector (.scalar .int32_t)) (.cons "title" .string
    (.cons "flags" (.array 1 (.mask .uint8_t)) .nil)))

/-- Two points, a title and a flag. -/
def scan : Value :=
  .record [("points", .list [.scalar (-3), .scalar 7]), ("title", .string [72, 73]),
    ("flags", .list [.scalar 5])]

theorem result_rebuilt_scan :
    ResultRebuilt Device.bare scanSpec "result_val_0" "result0" "arg0" "func_msg.arg(0)" scan := by
  refine (result_rebuilt_iff Device.bare_typed ?_ ?_ ?_ _ _ _ _).mpr ⟨?_, ?_, ?_⟩
  · simp [scanSpec, Spec.Basic, Fields.Basic]
  · simp [scanSpec, scan, Spec.Holds, Fields.Hold, ScalarType.InRange, ScalarType.least,
      ScalarType.size]
  · simp [scanSpec, scan, Spec.NulFree, Fields.NulFree]
  · simp [scanSpec, Spec.DistinctNames, Spec.declares, Spec.DistinctInside, Fields.declare,
      Fields.DistinctInside]
  · simp [scanSpec, Spec.Uncaptured, Fields.Uncaptured]
  · simp [scanSpec, scan, Spec.Carried, Fields.Carried]

/-- The second element of an array is not written, and the argument keeps what it held. -/
theorem result_rebuilt_array :
    ¬ ResultRebuilt Device.bare (.array 2 (.scalar .int32_t)) "result_val_0" "result0" "arg0"
      "func_msg.arg(0)" (.list [.scalar 1, .scalar 2]) := by
  rintro ⟨_, _, _, pointers, message, ran, back⟩
  have held : (Spec.array 2 (.scalar .int32_t)).Holds (.list [.scalar 1, .scalar 2]) := by
    simp [Spec.Holds, ScalarType.InRange, ScalarType.least, ScalarType.size]
  have basic : (Spec.array 2 (.scalar .int32_t)).Basic := ⟨by decide, trivial⟩
  have nulFree : (Spec.array 2 (.scalar .int32_t)).NulFree (.list [.scalar 1, .scalar 2]) :=
    fun _ _ => trivial
  obtain ⟨others, written⟩ := @run_GenerateSetResultCodeForTypedVariable Device.bare _ _ basic
    trivial ⟨fun inLoop => inLoop.elim, trivial⟩ held "result_val_0" "result0"
  rw [ran] at written
  cases written
  have carried := (written_and_read_iff Device.bare_typed basic trivial held nulFree _ _).mp back
  rcases carried.1 with one | single
  · cases one
  · exact single

end Vts.Vtsc
