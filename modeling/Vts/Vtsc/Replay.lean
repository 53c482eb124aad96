import Vts.Lib.Ensures
import Vts.Vtsc.Profiler
import Vts.Vtsc.Rebuild

/-!
# Recorded arguments that are replayed

The code that the profiler generator emits records an argument in a message of the trace, and
the replayer hands that message to the code of the driver. This module says when the driver
gives its argument the recorded value.

`profile` is the message that is recorded. Its parts have no names, so the code for a predefined
union, which asks each part for its name, assigns nothing (`fieldsRebuilt_profiles_named`). A
null handle is recorded as the address 0, which the driver dereferences, since the address is
there. A descriptor whose file name cannot be read is recorded without a type and replayed as a
file without a name (`openFd_recordFd`). `rebuilds_profile` says which values are rebuilt, and
`replayed_iff` adds what is decided before the code runs.

What a descriptor of the new handle refers to is not compared, only how many there are.
-/

namespace Vts.Vtsc

open Vts.Lib Children

mutual

/-- A type can stand in a specification: the size of an array is an `int32_t`, unions are
predefined and members have names. -/
def Spec.Described : Spec → Prop
  | .vector vector_value => vector_value.Described
  | .array vector_size vector_value => vector_size < 2 ^ 31 ∧ vector_value.Described
  | .struct _ struct_value => struct_value.Described
  | .union predefined_type union_value => predefined_type.isSome = true ∧ union_value.Described
  | _ => True

def Fields.Described : Fields → Prop
  | .nil => True
  | .cons name field rest => name ≠ "" ∧ field.Described ∧ rest.Described

end

/-! ## What is recorded -/

mutual

/-- What the code for a type makes of a message. -/
def profile (device : Device) : Spec → Value → Message → Message
  | .scalar scalar_type, .scalar number, message =>
    { message with
      type := some .TYPE_SCALAR
      scalar_value := fun other =>
        if other = scalar_type then some (scalar_type.convert number)
        else message.scalar_value other }
  | .string, .string bytes, message =>
    { message with
      type := some .TYPE_STRING
      string_message := some (c_str bytes)
      string_length := some bytes.length }
  | .mask scalar_type, .scalar number, message => message.setScalar .TYPE_MASK scalar_type number
  | .enum _ scalar_type, .scalar number, message =>
    message.setScalar .TYPE_ENUM scalar_type number
  | .vector vector_value, .list elements, message =>
    { message with
      type := some .TYPE_VECTOR
      vector_size := some elements.length
      vector_value := message.vector_value ++
        (if elements.length < indices then elements else []).map fun element =>
          profile device vector_value element .empty }
  | .array vector_size vector_value, .list elements, message =>
    { message with
      type := some .TYPE_ARRAY
      vector_size := some vector_size
      vector_value := message.vector_value ++
        elements.map fun element => profile device vector_value element .empty }
  | .struct _ struct_value, .record members, message =>
    { message with
      type := some .TYPE_STRUCT
      struct_value := message.struct_value ++ profiles device struct_value members }
  | .union _ union_value, .record members, message =>
    { message with
      type := some .TYPE_UNION
      union_value := message.union_value ++ profiles device union_value members }
  | .handle, .handle native, message =>
    { message with
      type := some .TYPE_HANDLE
      handle_value := some (recordHandle device native) }
  | _, _, message => message

/-- The messages of the fields. They have no names. -/
def profiles (device : Device) : Fields → List (String × Value) → List Message
  | .cons _ field rest, (_, value) :: members =>
    profile device field value .empty :: profiles device rest members
  | _, _ => []

end

mutual

/-- The emitted code writes `profile`. -/
theorem GenerateProfilerForTypedVariable_does (device : Device) :
    ∀ (spec : Spec) (arg_name : String) (arg_value : Place) (loops : List (String × Nat))
      (object value : Value), spec.Described → spec.WellFormed → arg_value.Within arg_name →
      spec.Holds value → readPlace loops object arg_value = .ok value →
      (GenerateProfilerForTypedVariable spec arg_name arg_value).Does device loops object arg_name
        (profile device spec value)
  | .scalar scalar_type, _, _, _, _, .scalar _, _, _, _, _, read =>
    ((WriteCode.Does.set_type _).seq
      ((WriteCode.Does.set_scalar_value read scalar_type).seq .skip)).congr fun _ => rfl
  | .mask _, _, _, _, _, .scalar _, _, _, _, _, read => .set_scalar read _ _
  | .enum _ scalar_type, _, _, _, _, .scalar _, _, _, _, _, read => by
    refine ((WriteCode.Does.set_type _).seq ((WriteCode.Does.call read
      ((WriteCode.Does.set_type _).seq ((WriteCode.Does.set_scalar_value rfl scalar_type).seq
        ((WriteCode.Does.set_scalar_type scalar_type).seq .skip)))).seq .skip)).congr ?_
    exact fun _ => rfl
  | .string, _, _, _, _, .string _, _, _, _, _, read =>
    ((WriteCode.Does.set_type _).seq
      ((WriteCode.Does.set_string_value read).seq .skip)).congr fun _ => rfl
  | .handle, _, _, _, _, .handle _, _, _, _, _, read =>
    ((WriteCode.Does.set_type _).seq
      ((WriteCode.Does.set_handle_value read _).seq .skip)).congr fun _ => rfl
  | .vector vector_value, arg_name, arg_value, loops, object, .list elements, described, formed,
      within, held, read => by
    have round : ∀ count element, elements[count]? = some element →
        WriteCode.Does device ((profilerIndex arg_name, count) :: loops) object
          (GenerateProfilerForTypedVariable vector_value (profilerElement arg_name "_vector_")
            (.index arg_value (profilerIndex arg_name))) (profilerElement arg_name "_vector_")
          (profile device vector_value element) := by
      intro count element reached
      exact GenerateProfilerForTypedVariable_does device vector_value _ _ _ object element
        described formed (within.index (by decide)) (held.2 element (List.mem_of_getElem? reached))
        (readPlace_index within.unused read reached)
    refine ((WriteCode.Does.set_type _).seq ((WriteCode.Does.set_vector_size read).seq
      ((WriteCode.Does.vector_elements (length_lt_profilerElement arg_name (by decide))
        within.unused read held.1 round).seq .skip))).congr ?_
    exact fun _ => rfl
  | .array vector_size vector_value, arg_name, arg_value, loops, object, .list elements,
      described, formed, within, held, read => by
    have round : ∀ count element, elements[count]? = some element →
        WriteCode.Does device ((profilerIndex arg_name, count) :: loops) object
          (GenerateProfilerForTypedVariable vector_value (profilerElement arg_name "_array_")
            (.index arg_value (profilerIndex arg_name))) (profilerElement arg_name "_array_")
          (profile device vector_value element) := by
      intro count element reached
      exact GenerateProfilerForTypedVariable_does device vector_value _ _ _ object element
        described.2 formed (within.index (by decide))
        (held.2 element (List.mem_of_getElem? reached))
        (readPlace_index within.unused read reached)
    refine ((WriteCode.Does.set_type _).seq ((WriteCode.Does.set_constant_size vector_size).seq
      ((WriteCode.Does.elements (length_lt_profilerElement arg_name (by decide)) (fun _ => rfl)
        described.1 (Nat.le_of_eq held.1.symm) round).seq .skip))).congr ?_
    intro message
    simp only [Function.comp_apply, id_eq, profile]
    rw [← held.1, List.take_length]
  | .struct (some _) struct_value, _, _, _, _, .record members, described, formed, _, held,
      read => by
    have fields := GenerateProfilerForFields_does device struct_value .struct_value "arg_name"
      (.var "arg_val_name") [] (.record members) members described formed.2 (.var _ _) held (by
        intro name value listed
        exact readPlace_dot rfl (held.lookup_of_mem formed.1 listed))
    refine ((WriteCode.Does.set_type _).seq ((WriteCode.Does.call read
      ((WriteCode.Does.set_type _).seq (fields.seq .skip))).seq .skip)).congr ?_
    exact fun _ => rfl
  | .struct none struct_value, arg_name, arg_value, loops, object, .record members, described,
      formed, within, held, read => by
    have fields := GenerateProfilerForFields_does device struct_value .struct_value arg_name
      arg_value loops object members described formed.2 within held (by
        intro name value listed
        exact readPlace_dot read (held.lookup_of_mem formed.1 listed))
    exact ((WriteCode.Does.set_type _).seq (fields.seq .skip)).congr fun _ => rfl
  | .union (some _) union_value, _, _, _, _, .record members, described, formed, _, held,
      read => by
    have fields := GenerateProfilerForFields_does device union_value .union_value "arg_name"
      (.var "arg_val_name") [] (.record members) members described.2 formed.2 (.var _ _) held (by
        intro name value listed
        exact readPlace_dot rfl (held.lookup_of_mem formed.1 listed))
    refine ((WriteCode.Does.set_type _).seq ((WriteCode.Does.call read
      ((WriteCode.Does.set_type _).seq (fields.seq .skip))).seq .skip)).congr ?_
    exact fun _ => rfl
  | .union none _, _, _, _, _, _, described, _, _, _, _ => absurd described.1 (by decide)

theorem GenerateProfilerForFields_does (device : Device) :
    ∀ (fields : Fields) (kind : Repeated) (arg_name : String) (arg_value : Place)
      (loops : List (String × Nat)) (object : Value) (members : List (String × Value)),
      fields.Described → fields.WellFormed → arg_value.Within arg_name → fields.Hold members →
      (∀ name value, (name, value) ∈ members →
        readPlace loops object (.dot arg_value name) = .ok value) →
      (GenerateProfilerForFields fields kind arg_name arg_value).Does device loops object arg_name
        (fun message => message.set kind (message.get kind ++ profiles device fields members))
  | .nil, kind, _, _, _, _, _, _, _, _, _, _ => by
    refine WriteCode.Does.skip.congr ?_
    intro message
    simp [profiles]
  | .cons name field rest, kind, arg_name, arg_value, loops, object, _, described, formed, within,
      ⟨value, others, rfl, holds, further⟩, read => by
    have one := GenerateProfilerForTypedVariable_does device field (arg_name ++ "_" ++ name)
      (.dot arg_value name) loops object value described.2.1 formed.1 (within.dot name) holds
      (read name value List.mem_cons_self)
    have later := GenerateProfilerForFields_does device rest kind arg_name arg_value loops object
      others described.2.2 formed.2 within further
      (fun other found listed => read other found (List.mem_cons_of_mem _ listed))
    refine ((WriteCode.Does.part (length_lt_member _ _) (one.seq .skip)).seq later).congr ?_
    intro message
    simp [profiles, Message.add]

end

/-! ## Handles -/

/-- What is recorded of a descriptor can be opened: a descriptor without a file name is taken for
a file with an empty name. -/
def Device.Reopens (device : Device) (fd : Int) : Prop :=
  match device.readlink fd with
  | none => device.openFile "" 0 0 ≠ -1
  | some filePath => (device.fstat fd).1 = .regular →
    device.openFile filePath (device.fcntl fd) (device.fstat fd).2 ≠ -1

theorem openFd_recordFd (device : Device) (index : Nat) (fd : Int) :
    (∃ opened, openFd device index (recordFd device fd) = .ok opened) ↔ device.Reopens fd := by
  unfold Device.Reopens recordFd
  cases device.readlink fd with
  | none =>
    by_cases failed : device.openFile "" 0 0 = -1
    · simp [openFd, failed]
    · simp [openFd, failed]
  | some filePath =>
    rcases device.fstat fd with ⟨kind, mode⟩
    cases kind with
    | regular =>
      by_cases failed : device.openFile filePath (device.fcntl fd) mode = -1
      · simp [openFd, failed]
      · simp [openFd, failed]
    | directory | fifo | socket | other => simp [openFd]
    | character | block =>
      by_cases ashmem : filePath = "/dev/ashmem"
      · simp [openFd, ashmem]
      · simp [openFd, ashmem]

theorem item_eq_ok {α : Type} {items : List α} {index : Nat} {found : α}
    (there : items[index]? = some found) : item items index = .ok found := by
  rw [item, there]

/-- The integers are read one after another. -/
theorem mapM_item (items : List Int) :
    (List.range items.length).mapM (fun index => item items index) = .ok items := by
  have each : ∀ index ∈ List.range items.length, ∃ found,
      item items index = .ok found ∧ items[index]? = some found := by
    intro index listed
    have there := List.getElem?_eq_getElem (List.mem_range.mp listed)
    exact ⟨_, item_eq_ok there, there⟩
  obtain ⟨values, done, paired⟩ := exists_mapM_iff.mpr each
  obtain ⟨length, same⟩ := List.forall₂_iff_get.mp paired
  rw [List.length_range] at length
  refine done.trans (congrArg Except.ok (List.ext_getElem length.symm ?_))
  intro index inside insideItems
  have found := same index (by rwa [List.length_range]) inside
  rw [List.get_eq_getElem, List.getElem_range, List.getElem?_eq_getElem insideItems] at found
  exact (Option.some.inj found).symm

/-- The descriptors are opened one after another. -/
theorem mapM_openFd (device : Device) (fds : List Int) :
    (∃ opened, (List.range fds.length).mapM (fun index => do
        openFd device index (← item (fds.map (recordFd device)) index)) = .ok opened ∧
        opened.length = fds.length) ↔
      ∀ fd ∈ fds, device.Reopens fd := by
  have one : ∀ (index : Nat) (inside : index < fds.length),
      (∃ opened, (do openFd device index (← item (fds.map (recordFd device)) index)) =
          .ok opened ∧ True) ↔ device.Reopens fds[index] := by
    intro index inside
    have there : (fds.map (recordFd device))[index]? = some (recordFd device fds[index]) := by
      rw [List.getElem?_map, List.getElem?_eq_getElem inside, Option.map_some]
    rw [item_eq_ok there, ← openFd_recordFd device index]
    simp only [and_true]
    rfl
  constructor
  · rintro ⟨opened, done, length⟩ fd listed
    obtain ⟨index, inside, rfl⟩ := List.getElem_of_mem listed
    have paired : List.Forall₂ (fun _ _ => True) (List.range fds.length) opened :=
      List.forall₂_iff_get.mpr ⟨by rw [List.length_range, length], fun _ _ _ => trivial⟩
    exact (one index inside).mp
      (exists_mapM_iff.mp ⟨opened, done, paired⟩ index (List.mem_range.mpr inside))
  · intro reopens
    obtain ⟨opened, done, paired⟩ := exists_mapM_iff.mpr fun index listed =>
      (one index (List.mem_range.mp listed)).mpr (reopens _ (List.getElem_mem _))
    exact ⟨opened, done, by rw [← paired.length_eq, List.length_range]⟩

theorem makeHandle_recordHandle (device : Device) (native : NativeHandle) :
    (∃ made, makeHandle device (some (recordHandle device (some native))) = .ok made ∧
        sameHandle (some native) made) ↔
      device.native_handle_create native.fds.length native.ints.length = true ∧
        ∀ fd ∈ native.fds, device.Reopens fd := by
  rw [← mapM_openFd]
  cases created : device.native_handle_create native.fds.length native.ints.length with
  | false => simp [makeHandle, recordHandle, created]
  | true =>
    simp only [makeHandle, recordHandle, created, Bool.true_eq_false, if_false, mapM_item,
      true_and]
    constructor
    · rintro ⟨made, done, same⟩
      generalize (List.range native.fds.length).mapM (fun index => do
        openFd device index (← item (native.fds.map (recordFd device)) index)) = opening at done ⊢
      cases opening with
      | error fault => cases done
      | ok opened =>
        cases done
        exact ⟨opened, rfl, same.1.symm⟩
    · rintro ⟨opened, done, length⟩
      rw [done]
      exact ⟨_, rfl, length.symm, rfl⟩

/-! ## What is replayed -/

mutual

/-- Vectors have less than 2³¹ elements, unions have no member that can differ, no handle is
null, and handles can be made and their files opened. -/
def Spec.Replayable (device : Device) : Spec → Value → Prop
  | .vector vector_value, .list elements =>
    elements.length < 2 ^ 31 ∧ ∀ element ∈ elements, vector_value.Replayable device element
  | .array _ vector_value, .list elements =>
    ∀ element ∈ elements, vector_value.Replayable device element
  | .struct _ struct_value, .record members => struct_value.Replayable device members
  | .union _ union_value, _ => union_value.Single
  | .handle, .handle native => ∃ present, native = some present ∧
      device.native_handle_create present.fds.length present.ints.length = true ∧
      ∀ fd ∈ present.fds, device.Reopens fd
  | _, _ => True

def Fields.Replayable (device : Device) : Fields → List (String × Value) → Prop
  | .cons _ field rest, (_, value) :: members =>
    field.Replayable device value ∧ rest.Replayable device members
  | _, _ => True

end

theorem profile_name (device : Device) (spec : Spec) (value : Value) :
    (profile device spec value .empty).name = none := by
  cases spec <;> cases value <;> rfl

/-- Messages without names are passed over for the members of a predefined union. -/
theorem fieldsRebuilt_profiles_named {device : Device} : ∀ (fields : Fields)
    (members : List (String × Value)) (before : List Message) (message : Message),
    message.union_value = before ++ profiles device fields members → fields.Described →
      fields.Hold members →
      (FieldsRebuilt device fields true .union_value before.length (some message) members ↔
        fields.Single)
  | .nil, _, _, _, _, _, _ => by simp [FieldsRebuilt, Fields.Single]
  | .cons name field rest, members, before, message, parts, described, held => by
    obtain ⟨value, others, rfl, holds, further⟩ := held
    have part : (message.get .union_value)[before.length]? =
        some (profile device field value .empty) := by
      rw [Message.get, parts, List.getElem?_append_right (Nat.le_refl _), Nat.sub_self, profiles]
      rfl
    have later := fieldsRebuilt_profiles_named rest others
      (before ++ [profile device field value .empty]) message
      (by rw [parts, profiles, List.append_assoc]; rfl) described.2.2 further
    have passed : passesOver true name (some (profile device field value .empty)) = .ok true := by
      simp [passesOver, profile_name, Ne.symm described.1]
    rw [List.length_append, List.length_singleton] at later
    simp only [FieldsRebuilt, Option.bind_some, part, passed]
    rw [Fields.Single, ← later, ← Spec.keeps_iff_single holds]
    constructor
    · rintro ⟨_, _, equal, ⟨_, keeps⟩ | ⟨impossible, _⟩, others_rebuilt⟩
      · cases equal
        exact ⟨keeps, others_rebuilt⟩
      · cases impossible
    · rintro ⟨keeps, others_rebuilt⟩
      exact ⟨value, others, rfl, Or.inl ⟨trivial, keeps⟩, others_rebuilt⟩

theorem rebuilds_handle {device : Device} {message : Message} {native : Option NativeHandle}
    (held : Spec.handle.Holds (.handle native)) :
    Rebuilds device .handle (some message) (.handle native) ↔
      ∃ made, makeHandle device message.handle_value = .ok made ∧ sameHandle native made := by
  constructor
  · intro rebuilds
    obtain ⟨_, decoded, same⟩ := rebuilds _ held
    rw [decode] at decoded
    cases making : makeHandle device message.handle_value with
    | error fault =>
      rw [making] at decoded
      cases decoded
    | ok made =>
      rw [making] at decoded
      cases decoded
      exact ⟨made, rfl, same⟩
  · rintro ⟨made, done, same⟩ before _
    refine ⟨.handle made, ?_, same⟩
    rw [decode, done]
    rfl

mutual

theorem rebuilds_profile {device : Device} (typed : device.Typed) :
    ∀ (spec : Spec) (value : Value), spec.Described → spec.WellFormed → spec.Holds value →
      spec.NulFree value →
      (Rebuilds device spec (some (profile device spec value .empty)) value ↔
        spec.Replayable device value)
  | .scalar _, .scalar _, _, _, held, _ | .mask _, .scalar _, _, _, held, _
  | .enum _ _, .scalar _, _, _, held, _ =>
    iff_of_true (rebuilds_scalar held held (fun _ _ => rfl) rfl (if_pos rfl)) trivial
  | .string, .string bytes, _, _, held, nulFree => by
    refine iff_of_true ((rebuilds_of_decode held fun _ => rfl).mpr ?_) trivial
    have whole : c_str bytes = bytes := c_str_of_not_mem nulFree
    exact congrArg Value.string whole.symm
  | .vector vector_value, .list elements, described, formed, held, nulFree => by
    have parts : (profile device (.vector vector_value) (.list elements) .empty).vector_value =
        (if elements.length < indices then elements else []).map fun element =>
          profile device vector_value element .empty := List.nil_append _
    have each : (∀ element ∈ elements, Rebuilds device vector_value
          (some (profile device vector_value element .empty)) element) ↔
        ∀ element ∈ elements, vector_value.Replayable device element :=
      forall₂_congr fun element listed => rebuilds_profile typed vector_value element described
        formed (held.2 element listed) (nulFree element listed)
    rw [rebuilds_vector typed held, parts, Spec.Replayable, ← each]
    exact elementsRebuilt_vector _ _
  | .array vector_size vector_value, .list elements, described, formed, held, nulFree => by
    have parts : (profile device (.array vector_size vector_value) (.list elements)
        .empty).vector_value =
        elements.map fun element => profile device vector_value element .empty :=
      List.nil_append _
    have each : (∀ element ∈ elements, Rebuilds device vector_value
          (some (profile device vector_value element .empty)) element) ↔
        ∀ element ∈ elements, vector_value.Replayable device element :=
      forall₂_congr fun element listed => rebuilds_profile typed vector_value element described.2
        formed (held.2 element listed) (nulFree element listed)
    rw [rebuilds_array held, parts, Spec.Replayable, ← each, elementsRebuilt_map, List.length_map,
      held.1]
    exact and_iff_right described.1
  | .struct _ struct_value, .record members, described, formed, held, nulFree => by
    rw [rebuilds_struct formed.1 held]
    exact fieldsRebuilt_profiles typed struct_value members [] _ rfl described formed.2 held nulFree
  | .union (some _) union_value, .record members, described, formed, held, _ => by
    rw [rebuilds_union formed.1 held]
    exact fieldsRebuilt_profiles_named union_value members [] _ rfl described.2 held
  | .union none _, _, described, _, _, _ => absurd described.1 (by decide)
  | .handle, .handle none, _, _, held, _ => by
    -- The recorded address is there, and it is null.
    rw [rebuilds_handle held, Spec.Replayable]
    constructor
    · rintro ⟨_, dereferenced, _⟩
      cases dereferenced
    · rintro ⟨_, impossible, _⟩
      cases impossible
  | .handle, .handle (some native), _, _, held, _ => by
    rw [rebuilds_handle held, Spec.Replayable]
    refine (makeHandle_recordHandle device native).trans ?_
    constructor
    · intro replayable
      exact ⟨native, rfl, replayable⟩
    · rintro ⟨_, equal, replayable⟩
      cases equal
      exact replayable

theorem fieldsRebuilt_profiles {device : Device} (typed : device.Typed) :
    ∀ (fields : Fields) (members : List (String × Value)) (before : List Message)
      (message : Message), message.struct_value = before ++ profiles device fields members →
      fields.Described → fields.WellFormed → fields.Hold members → fields.NulFree members →
      (FieldsRebuilt device fields false .struct_value before.length (some message) members ↔
        fields.Replayable device members)
  | .nil, _, _, _, _, _, _, _, _ => by simp [FieldsRebuilt, Fields.Replayable]
  | .cons name field rest, members, before, message, parts, described, formed, held,
      nulFree => by
    obtain ⟨value, others, rfl, holds, further⟩ := held
    have part : (message.get .struct_value)[before.length]? =
        some (profile device field value .empty) := by
      rw [Message.get, parts, List.getElem?_append_right (Nat.le_refl _), Nat.sub_self, profiles]
      rfl
    have one := rebuilds_profile typed field value described.2.1 formed.1 holds nulFree.1
    have later := fieldsRebuilt_profiles typed rest others
      (before ++ [profile device field value .empty]) message
      (by rw [parts, profiles, List.append_assoc]; rfl) described.2.2 formed.2 further nulFree.2
    rw [List.length_append, List.length_singleton] at later
    rw [fieldsRebuilt_cons part, Fields.Replayable, ← one, ← later]

end

mutual

/-- The code records no more elements for an array than the array has. -/
theorem profile_sized (device : Device) : ∀ (spec : Spec) (value : Value), spec.Holds value →
    spec.Sized (profile device spec value .empty)
  | .scalar _, _, _ | .string, _, _ | .mask _, _, _ | .enum _ _, _, _ | .handle, _, _ => trivial
  | .vector vector_value, .list elements, held => by
    intro part listed
    have written : part ∈ (if elements.length < indices then elements else []).map fun element =>
        profile device vector_value element .empty := listed
    obtain ⟨element, taken, rfl⟩ := List.mem_map.mp written
    refine profile_sized device vector_value element (held.2 element ?_)
    split at taken
    · exact taken
    · cases taken
  | .array vector_size vector_value, .list elements, held => by
    have parts : (profile device (.array vector_size vector_value) (.list elements)
        .empty).vector_value =
        elements.map fun element => profile device vector_value element .empty :=
      List.nil_append _
    rw [Spec.Sized, parts]
    constructor
    · rw [List.length_map, held.1]
    · intro part listed
      obtain ⟨element, taken, rfl⟩ := List.mem_map.mp listed
      exact profile_sized device vector_value element (held.2 element taken)
  | .struct _ struct_value, .record members, held =>
    profiles_sized device struct_value .struct_value members [] _ rfl held
  | .union _ union_value, .record members, held =>
    profiles_sized device union_value .union_value members [] _ rfl held

theorem profiles_sized (device : Device) : ∀ (fields : Fields) (kind : Repeated)
    (members : List (String × Value)) (before : List Message) (message : Message),
    message.get kind = before ++ profiles device fields members → fields.Hold members →
      fields.Sized kind before.length message
  | .nil, _, _, _, _, _, _ => trivial
  | .cons name field rest, kind, members, before, message, parts, held => by
    obtain ⟨value, others, rfl, holds, further⟩ := held
    constructor
    · intro part found
      rw [parts, List.getElem?_append_right (Nat.le_refl _), Nat.sub_self, profiles] at found
      cases found
      exact profile_sized device field value holds
    · have later := profiles_sized device rest kind others
        (before ++ [profile device field value .empty]) message
        (by rw [parts, profiles, List.append_assoc]; rfl) further
      rwa [List.length_append, List.length_singleton] at later

end

theorem Fields.mem_variables {fields : Fields} {name : String} (listed : name ∈ fields.names)
    (arg_name : String) : arg_name ++ "_" ++ name ∈ fields.variables arg_name := by
  match fields with
  | .nil => cases listed
  | .cons other field rest =>
    rcases List.mem_cons.mp listed with rfl | later
    · exact List.mem_append_left _ List.mem_cons_self
    · exact List.mem_append_right _ (mem_variables later arg_name)

mutual

/-- If the code compiles, the members of each struct and union have different names. -/
theorem Spec.VariablesDifferInside.wellFormed : ∀ {spec : Spec} {arg_name : String},
    spec.VariablesDifferInside arg_name → (spec.variables arg_name).Nodup → spec.WellFormed
  | .scalar _, _, _, _ | .string, _, _, _ | .mask _, _, _, _ | .enum _ _, _, _, _
  | .handle, _, _, _ => trivial
  | .vector _, _, inside, _ | .array _ _, _, inside, _ => inside.2.wellFormed inside.1
  | .struct (some _) _, _, inside, _ => inside.2.wellFormed inside.1
  | .struct none _, _, inside, distinct => Fields.VariablesDifferInside.wellFormed inside distinct
  | .union (some _) _, _, inside, _ => inside.2.wellFormed inside.1
  | .union none _, _, inside, distinct => Fields.VariablesDifferInside.wellFormed inside distinct

theorem Fields.VariablesDifferInside.wellFormed : ∀ {fields : Fields} {arg_name : String},
    fields.VariablesDifferInside arg_name → (fields.variables arg_name).Nodup →
      fields.names.Nodup ∧ fields.WellFormed
  | .nil, _, _, _ => ⟨List.nodup_nil, trivial⟩
  | .cons name field rest, arg_name, inside, distinct => by
    obtain ⟨first, later, apart⟩ := List.nodup_append.mp distinct
    obtain ⟨distinctRest, formedRest⟩ := inside.2.wellFormed later
    refine ⟨List.nodup_cons.mpr ⟨?_, distinctRest⟩,
      inside.1.wellFormed (List.nodup_cons.mp first).2, formedRest⟩
    intro again
    exact apart _ List.mem_cons_self _ (Fields.mem_variables again arg_name) rfl

end

/-! ## Recording and replaying -/

/-- An argument is replayed as it was recorded: the code of the profiler compiles, every index
means the loop it was emitted for, and recording and replaying run without a fault and give the
argument of the driver the same value, whatever it held before. -/
structure Replayed (device : Device) (spec : Spec)
    (arg_name arg_value driver_arg driver_message : String) (value : Value) : Prop where
  compiles : ((GenerateProfilerForTypedVariable spec arg_name (.var arg_value)).scope
    [arg_name]).isSome = true
  records_resolved :
    (GenerateProfilerForTypedVariable spec arg_name (.var arg_value)).Resolved []
  reads_resolved :
    (GenerateDriverImplForTypedVariable spec (.var driver_arg) (.var driver_message)).Resolved []
  replays : ∃ pointers message,
    (GenerateProfilerForTypedVariable spec arg_name (.var arg_value)).run device [] value
        ⟨[(arg_name, [])], .empty⟩ = .ok ⟨pointers, message⟩ ∧
      ∀ before, spec.Holds before → ∃ after,
        (GenerateDriverImplForTypedVariable spec (.var driver_arg) (.var driver_message)).run device
          [] message before = .ok after ∧ spec.Same value after

theorem GenerateProfilerForTypedVariable_compiles (spec : Spec) (arg_name : String)
    (arg_value : Place) :
    ((GenerateProfilerForTypedVariable spec arg_name arg_value).scope [arg_name]).isSome = true ↔
      spec.VariablesDiffer arg_name :=
  (GenerateProfilerForTypedVariable_declares spec arg_name arg_value).isSome_scope_iff
    (WriteCode.not_mem_singleton_of_longer (spec.length_of_mem_variables arg_name))

section

variable {device : Device} {spec : Spec} {value : Value}

/-- What the code records in a new message. -/
theorem run_GenerateProfilerForTypedVariable (described : spec.Described)
    (formed : spec.WellFormed) (held : spec.Holds value) (arg_name arg_value : String) :
    ∃ pointers, (GenerateProfilerForTypedVariable spec arg_name (.var arg_value)).run device []
      value ⟨[(arg_name, [])], .empty⟩ = .ok ⟨pointers, profile device spec value .empty⟩ := by
  have does := GenerateProfilerForTypedVariable_does device spec arg_name (.var arg_value) [] value
    value described formed (.var _ _) held rfl
  obtain ⟨pointers, ran, _⟩ := does ⟨[(arg_name, [])], .empty⟩ [] .empty List.lookup_cons_self rfl
  exact ⟨pointers, ran⟩

theorem recorded_and_replayed_iff (typed : device.Typed) (described : spec.Described)
    (formed : spec.WellFormed) (held : spec.Holds value) (nulFree : spec.NulFree value)
    (driver_arg driver_message : String) :
    (∀ before, spec.Holds before → ∃ after,
      (GenerateDriverImplForTypedVariable spec (.var driver_arg) (.var driver_message)).run device
        [] (profile device spec value .empty) before = .ok after ∧ spec.Same value after) ↔
      spec.Replayable device value := by
  rw [← rebuilds_profile typed spec value described formed held nulFree]
  have sized := profile_sized device spec value held
  refine forall₂_congr fun before holdsBefore => ?_
  rw [run_GenerateDriverImplForTypedVariable_var typed formed sized holdsBefore]

/-- A recorded argument is replayed exactly if no block of the code of the profiler declares a
variable twice and the value is replayable. -/
theorem replayed_iff (typed : device.Typed) (described : spec.Described) (held : spec.Holds value)
    (nulFree : spec.NulFree value) (arg_name arg_value driver_arg driver_message : String) :
    Replayed device spec arg_name arg_value driver_arg driver_message value ↔
      spec.VariablesDiffer arg_name ∧ spec.Replayable device value := by
  constructor
  · rintro ⟨compiles, _, _, pointers, message, ran, replays⟩
    have differ := (GenerateProfilerForTypedVariable_compiles spec arg_name _).mp compiles
    have formed := differ.2.wellFormed differ.1
    obtain ⟨others, ranAlso⟩ := @run_GenerateProfilerForTypedVariable device spec value described
      formed held arg_name arg_value
    rw [ran] at ranAlso
    cases ranAlso
    exact ⟨differ, (recorded_and_replayed_iff typed described formed held nulFree driver_arg
      driver_message).mp replays⟩
  · rintro ⟨differ, replayable⟩
    have formed := differ.2.wellFormed differ.1
    obtain ⟨pointers, ran⟩ := @run_GenerateProfilerForTypedVariable device spec value described
      formed held arg_name arg_value
    exact {
      compiles := (GenerateProfilerForTypedVariable_compiles spec arg_name _).mpr differ
      records_resolved := GenerateProfilerForTypedVariable_resolved spec arg_name _ []
        (.var _ _) trivial
      reads_resolved := GenerateDriverImplForTypedVariable_resolved spec _ _ []
        (fun _ listed => by cases listed) trivial trivial
      replays := ⟨pointers, _, ran, (recorded_and_replayed_iff typed described formed held nulFree
        driver_arg driver_message).mpr replayable⟩ }

end

/-- A device with one file. -/
def Device.oneFile : Device :=
  { Device.bare with
    openFile := fun _ _ _ => 7
    readlink := fun _ => some "/data/local/tmp/frame"
    fstat := fun _ => (.regular, 33188) }

theorem Device.oneFile_typed : Device.oneFile.Typed := Spec.holds_default

/-- A struct with a vector of strings, an array and a handle. -/
def frameSpec : Spec :=
  .struct (some "Frame") (.cons "tags" (.vector .string) (.cons "size"
    (.array 2 (.scalar .uint32_t)) (.cons "buffer" .handle .nil)))

/-- Two tags, a size and a handle with a file and an integer. -/
def frame : Value :=
  .record [("tags", .list [.string [65], .string []]), ("size", .list [.scalar 640, .scalar 480]),
    ("buffer", .handle (some ⟨[5], [12]⟩))]

theorem replayed_frame :
    Replayed Device.oneFile frameSpec "arg_0" "(*arg_val_0)" "arg0" "func_msg.arg(0)" frame := by
  refine (replayed_iff Device.oneFile_typed ?_ ?_ ?_ _ _ _ _).mpr ⟨?_, ?_⟩
  · simp [frameSpec, Spec.Described, Fields.Described]
  · simp [frameSpec, frame, Spec.Holds, Fields.Hold, ScalarType.InRange, ScalarType.least,
      ScalarType.size]
  · simp [frameSpec, frame, Spec.NulFree, Fields.NulFree]
  · simp [frameSpec, Spec.VariablesDiffer, Spec.variables, Spec.VariablesDifferInside,
      Fields.variables, Fields.VariablesDifferInside]
  · simp [frameSpec, frame, Spec.Replayable, Fields.Replayable, Device.oneFile, Device.bare,
      Device.Reopens]

/-- A null handle is recorded, and replayed by dereferencing its address. -/
theorem replayed_null :
    ¬ Replayed Device.oneFile .handle "arg_0" "(*arg_val_0)" "arg0" "func_msg.arg(0)"
      (.handle none) := by
  rintro ⟨_, _, _, pointers, message, ran, replays⟩
  obtain ⟨others, recorded⟩ := @run_GenerateProfilerForTypedVariable Device.oneFile .handle
    (.handle none) trivial trivial trivial "arg_0" "(*arg_val_0)"
  rw [ran] at recorded
  cases recorded
  obtain ⟨_, replayed, _⟩ := replays (.handle none) trivial
  cases replayed

end Vts.Vtsc
