import Vts.Hal.Loading
import Vts.Hal.TypeName
import Vts.Host.Specification

/-!
# Mirrors of returned interfaces

A HIDL call may return interfaces. On the target `SetHidlHalFunctionCallResults` registers a driver
for each of them and returns its id, or -1 for a null pointer. On the host the end of `RemoteCall`
(`utils/python/mirror/native_entity_mirror.py`) replaces a result that is an interface by a mirror
that `GetHalMirrorForInterface` of `hal_mirror.py` makes. A call on the mirror carries the driver id
of the mirror.

Drivers have ids from 0 on, but the id 0 is taken for a missing one and replaced by that of the
mirror itself; and the `None` for a null pointer is overwritten. Proved here: for which results each
interface gets the right mirror.
-/

namespace Vts.Host

open Vts.Lib Vts.Hal Vts.Python

/-! ## The target -/

/-- The case of an interface in `SetHidlHalFunctionCallResults`: its id, and the manager afterwards;
none when the name of the type cannot be read or there is no specification for it. -/
def SetHidlInterfaceResult (loader : HalDriverLoader)
    (manager : VtsHalDriverManager (Option LoadedDriver)) (predefined_type : String)
    (hidl_interface_pointer : UInt64) :
    Option (Int × VtsHalDriverManager (Option LoadedDriver)) :=
  if hidl_interface_pointer ≠ 0 then do
    let name ← readTypeName predefined_type
    let spec_msg ← loader.FindComponentSpecification .HAL_HIDL name.package name.version_major
      name.version_minor name.component .UNKNOWN_TYPE
    let driver_lib_path :=
      GetHidlHalDriverLibName name.package name.version_major name.version_minor
    let driver := loader.GetDriver driver_lib_path spec_msg "default" hidl_interface_pointer true ""
    some (manager.RegisterDriver driver spec_msg hidl_interface_pointer)
  else some (-1, manager)

/-! ## The host -/

/-- The number of a class in messages. -/
def componentClassNumber : ComponentClass → Int
  | .UNKNOWN_CLASS => 0
  | .HAL_CONVENTIONAL => 1
  | .HAL_CONVENTIONAL_SUBMODULE => 2
  | .HAL_LEGACY => 3
  | .HAL_HIDL => 4
  | .HAL_HIDL_WRAPPED_CONVENTIONAL => 5
  | .LIB_SHARED => 11
  | .KERNEL => 21
  | .KERNEL_MODULE => 22

/-- What mirrors read of a specification, apart from its imports and attributes. -/
structure SpecHeader where
  component_class : ComponentClass
  component_type : Int
  component_type_version_major : Int
  component_type_version_minor : Int
  package : Text

/-- What the agent has for a request. -/
abbrev SpecAgent (Attribute : Type) := SpecRequest → Option (ComponentSpec Attribute SpecHeader)

/-- The mirror of an interface. All mirrors share the client and the callback server. -/
structure HalMirror (Attribute : Type) where
  driver_id : Int
  if_spec_msg : Option (ComponentSpec Attribute SpecHeader)
  caller_uid : Option Text

inductive MirrorError where
  /-- The specification is not loaded. -/
  | MirrorObjectError
  | ReadSpecification (failure : ReadError)
  | IndexError

variable {Attribute Data : Type}

/-- The call message of `RemoteCall`, without the API. -/
def HalMirror.call_msg (mirror : HalMirror Attribute)
    (if_spec_msg : ComponentSpec Attribute SpecHeader) : FunctionCallMessage where
  hal_driver_id := some mirror.driver_id
  component_class :=
    if if_spec_msg.rest.component_class = .UNKNOWN_CLASS then none
    else some if_spec_msg.rest.component_class
  component_type := none
  component_name := none
  package_name := none
  component_type_version_major := none
  component_type_version_minor := none

/-- The request of `GetHalMirrorForInterface`. -/
def interfaceRequest (msg : ComponentSpec Attribute SpecHeader) (interface_name : Text) :
    SpecRequest where
  interface_name := interface_name
  target_class := some (componentClassNumber msg.rest.component_class)
  target_type := some msg.rest.component_type
  target_version_major := msg.rest.component_type_version_major
  target_version_minor := msg.rest.component_type_version_minor
  target_package := msg.rest.package

def GetHalMirrorForInterface (agent : SpecAgent Attribute) (mirror : HalMirror Attribute)
    (interface_name : Text) (driver_id : Option Int) : Except MirrorError (HalMirror Attribute) :=
  match mirror.if_spec_msg with
  | none => .error .MirrorObjectError
  | some msg =>
    match ReadSpecification agent (interfaceRequest msg interface_name) true with
    | .error failure => .error (.ReadSpecification failure)
    | .ok found_api_spec =>
      -- `not driver_id` holds for `None` and for 0
      let driver_id :=
        match driver_id with
        | none => mirror.driver_id
        | some driver_id => if driver_id = 0 then mirror.driver_id else driver_id
      .ok ⟨driver_id, some found_api_spec, none⟩

/-- The type of the elements of a queue. -/
inductive FmqType where
  | TYPE_SCALAR | TYPE_ENUM | TYPE_STRUCT | TYPE_UNION | other

/-- What is read of the first `fmq_value` of a result. -/
structure FmqResult where
  type : FmqType
  scalar_type : Text
  predefined_type : Text
  fmq_id : Int

/-- The messages that `CallApi` leaves among the results; it converts all others. -/
inductive ResultMessage where
  | hidl_interface (hidl_interface_id : Int) (predefined_type : Text)
  /-- `TYPE_FMQ_SYNC` or `TYPE_FMQ_UNSYNC`. -/
  | fmq (sync : Bool) (fmq_value : List FmqResult)
  | hidl_memory (mem_id : Int)
  | handle (handle_id : Int)

/-- A result of `CallApi`. -/
inductive ApiResult (Data : Type) where
  | data (value : Data)
  | message (message : ResultMessage)

/-- A result of `RemoteCall`. -/
inductive MirrorResult (Attribute Data : Type) where
  | data (value : Data)
  | None
  | hal (mirror : HalMirror Attribute)
  | fmq (data_type : Text) (sync : Bool) (queue_id : Int)
  | memory (mem_id : Int)
  | handle (handle_id : Int)

/-- The type of the data in a queue, none for an unknown type. -/
def FmqResult.dataType (value : FmqResult) : Option Text :=
  match value.type with
  | .TYPE_SCALAR => some value.scalar_type
  | .TYPE_ENUM => some value.predefined_type
  | .TYPE_STRUCT => some value.predefined_type
  | .TYPE_UNION => some value.predefined_type
  | .other => none

/-- `predefined_type.split("::")[-1]`. -/
def nestedInterfaceName (predefined_type : Text) : Text :=
  (splitColons predefined_type).getLastD []

/-- A round of the loop of `RemoteCall` over the results. -/
def translateResult (agent : SpecAgent Attribute) (mirror : HalMirror Attribute) :
    ApiResult Data → Except MirrorError (MirrorResult Attribute Data)
  | .data value => .ok (.data value)
  | .message (.hidl_interface hidl_interface_id predefined_type) =>
    -- for an id of at most -1 the result is first set to `None`, and then overwritten all the same
    match GetHalMirrorForInterface agent mirror (nestedInterfaceName predefined_type)
        (some hidl_interface_id) with
    | .error failure => .error failure
    | .ok nested_interface => .ok (.hal nested_interface)
  | .message (.fmq sync fmq_value) =>
    match fmq_value with
    | [] => .error .IndexError
    | value :: _ =>
      if value.fmq_id = -1 then .ok .None
      else match value.dataType with
        | none => .ok .None
        | some data_type => .ok (.fmq data_type sync value.fmq_id)
  | .message (.hidl_memory mem_id) => .ok (if mem_id = -1 then .None else .memory mem_id)
  | .message (.handle handle_id) => .ok (if handle_id = -1 then .None else .handle handle_id)

/-- What `RemoteCall` returns: a single result is returned itself. -/
inductive Returned (Attribute Data : Type) where
  | single (result : MirrorResult Attribute Data)
  | list (results : List (MirrorResult Attribute Data))

def Returned.ofResults : List (MirrorResult Attribute Data) → Returned Attribute Data
  | [result] => .single result
  | results => .list results

/-- The end of `RemoteCall`, when `CallApi` has returned a list. -/
def RemoteCallResults (agent : SpecAgent Attribute) (mirror : HalMirror Attribute)
    (results : List (ApiResult Data)) : Except MirrorError (Returned Attribute Data) :=
  match results.mapM (translateResult agent mirror) with
  | .error failure => .error failure
  | .ok results => .ok (.ofResults results)

/-! ## The right mirrors -/

/-- The mirror has the driver id, and a call on it reaches the driver with this id. -/
structure HalMirror.LeadsTo (mirror : HalMirror Attribute) (hidl_interface_id : Int) : Prop where
  driver_id : mirror.driver_id = hidl_interface_id
  reaches : ∃ if_spec_msg, mirror.if_spec_msg = some if_spec_msg ∧
    ∀ (DriverBase : Type) (manager : VtsHalDriverManager DriverBase),
      manager.GetDriverWithCallMsg (mirror.call_msg if_spec_msg) =
        manager.GetDriverById hidl_interface_id

/-- A result that is a null interface has become `None`, and one that is another interface has
become a mirror that leads to it. -/
def Mirrors : ApiResult Data → MirrorResult Attribute Data → Prop
  | .message (.hidl_interface hidl_interface_id _), result =>
    if hidl_interface_id < 0 then result = .None
    else ∃ nested_interface, result = .hal nested_interface ∧
      nested_interface.LeadsTo hidl_interface_id
  | _, _ => True

/-- The call returns its results, each interface among them replaced. -/
def ReplacesInterfaces (agent : SpecAgent Attribute) (mirror : HalMirror Attribute)
    (results : List (ApiResult Data)) : Prop :=
  ∃ replaced, RemoteCallResults agent mirror results = .ok (.ofResults replaced) ∧
    List.Forall₂ Mirrors results replaced

/-- A result for which nothing is raised: the specification of an interface can be read, and a queue
has a value. -/
def ApiResult.Readable (agent : SpecAgent Attribute) (mirror : HalMirror Attribute) :
    ApiResult Data → Prop
  | .message (.hidl_interface _ predefined_type) =>
    ∃ msg found_api_spec, mirror.if_spec_msg = some msg ∧
      ReadSpecification agent (interfaceRequest msg (nestedInterfaceName predefined_type)) true =
        .ok found_api_spec
  | .message (.fmq _ fmq_value) => fmq_value ≠ []
  | _ => True

/-- An id that is kept: it is positive, or it is 0 and that of the mirror itself. -/
def ApiResult.Kept (mirror : HalMirror Attribute) : ApiResult Data → Prop
  | .message (.hidl_interface hidl_interface_id _) =>
    0 < hidl_interface_id ∨ (hidl_interface_id = 0 ∧ mirror.driver_id = 0)
  | _ => True

section

variable {agent : SpecAgent Attribute} {mirror : HalMirror Attribute}

section

variable {interface_name : Text} {nested_interface : HalMirror Attribute}
  {found_api_spec : ComponentSpec Attribute SpecHeader} {hidl_interface_id : Int}
  {predefined_type : Text}

/-- The mirror that is made for a driver id which is given. -/
theorem getHalMirrorForInterface_some {driver_id : Int} :
    GetHalMirrorForInterface agent mirror interface_name (some driver_id) =
        .ok nested_interface ↔
      ∃ msg found_api_spec, mirror.if_spec_msg = some msg ∧
        ReadSpecification agent (interfaceRequest msg interface_name) true = .ok found_api_spec ∧
        nested_interface = ⟨if driver_id = 0 then mirror.driver_id else driver_id,
          some found_api_spec, none⟩ := by
  unfold GetHalMirrorForInterface
  cases mirror.if_spec_msg with
  | none => simp
  | some msg =>
    cases read : ReadSpecification agent (interfaceRequest msg interface_name) true with
    | error failure => simp [read]
    | ok found_api_spec => simp [read, eq_comm]

theorem getHalMirrorForInterface_ok {msg : ComponentSpec Attribute SpecHeader}
    (loaded : mirror.if_spec_msg = some msg)
    (read : ReadSpecification agent (interfaceRequest msg interface_name) true =
      .ok found_api_spec) (driver_id : Int) :
    GetHalMirrorForInterface agent mirror interface_name (some driver_id) =
      .ok ⟨if driver_id = 0 then mirror.driver_id else driver_id, some found_api_spec, none⟩ :=
  getHalMirrorForInterface_some.mpr ⟨msg, found_api_spec, loaded, read, rfl⟩

/-- A call on a mirror reaches the driver with its id, when this is no negative number. -/
theorem leadsTo_iff (loaded : nested_interface.if_spec_msg = some found_api_spec)
    (valid : 0 ≤ hidl_interface_id) :
    nested_interface.LeadsTo hidl_interface_id ↔
      nested_interface.driver_id = hidl_interface_id := by
  refine ⟨HalMirror.LeadsTo.driver_id, fun same => ⟨same, found_api_spec, loaded, ?_⟩⟩
  intro DriverBase manager
  have positive : hidl_interface_id ≠ kInvalidDriverId := by
    unfold kInvalidDriverId
    omega
  simp [VtsHalDriverManager.GetDriverWithCallMsg, HalMirror.call_msg, same, positive]

theorem translateResult_interface {replaced : MirrorResult Attribute Data} :
    translateResult agent mirror (.message (.hidl_interface hidl_interface_id predefined_type)) =
        .ok replaced ↔
      ∃ nested_interface, GetHalMirrorForInterface agent mirror
          (nestedInterfaceName predefined_type) (some hidl_interface_id) = .ok nested_interface ∧
        replaced = .hal nested_interface := by
  rw [translateResult]
  cases GetHalMirrorForInterface agent mirror (nestedInterfaceName predefined_type)
    (some hidl_interface_id) with
  | error failure => simp
  | ok nested_interface => simp [eq_comm]

theorem interface_mirrors_iff :
    (∃ replaced : MirrorResult Attribute Data, translateResult agent mirror
        (.message (.hidl_interface hidl_interface_id predefined_type)) = .ok replaced ∧
      if hidl_interface_id < 0 then replaced = .None
      else ∃ nested_interface, replaced = .hal nested_interface ∧
        nested_interface.LeadsTo hidl_interface_id) ↔
    (∃ msg found_api_spec, mirror.if_spec_msg = some msg ∧
      ReadSpecification agent (interfaceRequest msg (nestedInterfaceName predefined_type)) true =
        .ok found_api_spec) ∧
      (0 < hidl_interface_id ∨ (hidl_interface_id = 0 ∧ mirror.driver_id = 0)) := by
  constructor
  · rintro ⟨replaced, returned, mirrors⟩
    obtain ⟨nested_interface, made, rfl⟩ := translateResult_interface.mp returned
    obtain ⟨msg, found_api_spec, loaded, read, rfl⟩ := getHalMirrorForInterface_some.mp made
    refine ⟨⟨msg, found_api_spec, loaded, read⟩, ?_⟩
    split at mirrors
    · cases mirrors
    · next valid =>
      obtain ⟨_, same, leads⟩ := mirrors
      cases same
      have kept : (if hidl_interface_id = 0 then mirror.driver_id else hidl_interface_id) =
          hidl_interface_id := leads.driver_id
      by_cases zero : hidl_interface_id = 0
      · rw [if_pos zero] at kept
        exact .inr ⟨zero, kept.trans zero⟩
      · exact .inl (by omega)
  · rintro ⟨⟨msg, found_api_spec, loaded, read⟩, kept⟩
    have valid : ¬ hidl_interface_id < 0 := by omega
    have made := getHalMirrorForInterface_ok loaded read hidl_interface_id
    refine ⟨_, translateResult_interface.mpr ⟨_, made, rfl⟩, ?_⟩
    rw [if_neg valid]
    refine ⟨_, rfl, (leadsTo_iff rfl (Int.not_lt.mp valid)).mpr ?_⟩
    rcases kept with positive | ⟨rfl, own⟩
    · exact if_neg (by omega)
    · exact own

end

/-- One result, by its kind. -/
theorem translateResult_mirrors_iff (result : ApiResult Data) :
    (∃ replaced, translateResult agent mirror result = .ok replaced ∧ Mirrors result replaced) ↔
      result.Readable agent mirror ∧ result.Kept mirror := by
  cases result with
  | data value => exact iff_of_true ⟨_, rfl, trivial⟩ ⟨trivial, trivial⟩
  | message message =>
    cases message with
    | hidl_interface hidl_interface_id predefined_type => exact interface_mirrors_iff
    | fmq sync fmq_value =>
      cases fmq_value with
      | nil => exact iff_of_false (fun ⟨_, no, _⟩ => by cases no) fun ⟨no, _⟩ => no rfl
      | cons value rest =>
        refine iff_of_true ?_ ⟨List.cons_ne_nil _ _, trivial⟩
        unfold translateResult
        by_cases invalid : value.fmq_id = -1
        · exact ⟨_, if_pos invalid, trivial⟩
        · simp only [if_neg invalid]
          cases value.dataType with
          | none => exact ⟨_, rfl, trivial⟩
          | some data_type => exact ⟨_, rfl, trivial⟩
    | hidl_memory id | handle id => exact iff_of_true ⟨_, rfl, trivial⟩ ⟨trivial, trivial⟩

theorem ofResults_injective :
    Function.Injective (@Returned.ofResults Attribute Data) := by
  intro first second same
  rcases first with _ | ⟨one, _ | ⟨two, rest⟩⟩ <;>
    rcases second with _ | ⟨other, _ | ⟨another, others⟩⟩ <;>
      simp_all [Returned.ofResults]

theorem replacesInterfaces_iff (results : List (ApiResult Data)) :
    ReplacesInterfaces agent mirror results ↔ ∀ result ∈ results, ∃ replaced,
      translateResult agent mirror result = .ok replaced ∧ Mirrors result replaced := by
  rw [← exists_mapM_iff]
  refine exists_congr fun replaced => and_congr_left fun _ => ?_
  unfold RemoteCallResults
  cases results.mapM (translateResult agent mirror) with
  | error failure => simp
  | ok values => simp [ofResults_injective.eq_iff]

end

/-! ## From the target to the host -/

/-! ## Which mirrors are right -/

/-- Every interface among the results gets the right mirror exactly when nothing is raised for any
result, and every id of an interface is positive, or 0 and that of the mirror itself. -/
theorem remoteCall_mirrors_iff (agent : SpecAgent Attribute) (mirror : HalMirror Attribute)
    (results : List (ApiResult Data)) :
    ReplacesInterfaces agent mirror results ↔
      (∀ result ∈ results, result.Readable agent mirror) ∧
        ∀ result ∈ results, result.Kept mirror := by
  rw [replacesInterfaces_iff, ← forall₂_and]
  exact forall₂_congr fun result _ => translateResult_mirrors_iff result

/-- A specification without imports. -/
def nfcSpec : ComponentSpec Unit SpecHeader := ⟨[], [], ⟨.HAL_HIDL, 9, 1, 0, []⟩⟩

def nfcAgent : SpecAgent Unit := fun _ => some nfcSpec

/-- The mirror of a nested interface, whose driver has the id 3. -/
def nfcMirror : HalMirror Unit := ⟨3, some nfcSpec, none⟩

/-- A call that returns an interface. -/
def oneInterface (hidl_interface_id : Int) : List (ApiResult Unit) :=
  [.message (.hidl_interface hidl_interface_id [])]

theorem oneInterface_returned (hidl_interface_id : Int) :
    RemoteCallResults nfcAgent nfcMirror (oneInterface hidl_interface_id) =
      .ok (.single (.hal ⟨if hidl_interface_id = 0 then 3 else hidl_interface_id, some nfcSpec,
        none⟩)) := by
  have read : ReadSpecification nfcAgent (interfaceRequest nfcSpec (nestedInterfaceName [])) true =
      .ok nfcSpec := readSpecification_true.mpr ⟨nfcSpec, rfl, rfl⟩
  have loaded : nfcMirror.if_spec_msg = some nfcSpec := rfl
  have made := getHalMirrorForInterface_ok loaded read hidl_interface_id
  have translated : translateResult nfcAgent nfcMirror
      (.message (.hidl_interface hidl_interface_id []) : ApiResult Unit) = _ :=
    translateResult_interface.mpr ⟨_, made, rfl⟩
  rw [RemoteCallResults, oneInterface, List.mapM_cons, translated]
  rfl

theorem not_replaces_oneInterface {hidl_interface_id : Int} (other : hidl_interface_id ≤ 0) :
    ¬ ReplacesInterfaces nfcAgent nfcMirror (oneInterface hidl_interface_id) := by
  rw [replacesInterfaces_iff]
  intro replaced
  obtain ⟨-, positive | ⟨-, own⟩⟩ := interface_mirrors_iff.mp
    (replaced _ (List.mem_singleton_self _))
  · omega
  · cases own

/-- The parent of the interface has the id 0: its mirror is one of the nested interface again. A
null interface becomes a mirror too. -/
theorem remoteCall_mirrors_parent :
    (RemoteCallResults nfcAgent nfcMirror (oneInterface 0) = .ok (.single (.hal nfcMirror)) ∧
      ¬ ReplacesInterfaces nfcAgent nfcMirror (oneInterface 0)) ∧
    RemoteCallResults nfcAgent nfcMirror (oneInterface (-1)) =
        .ok (.single (.hal { nfcMirror with driver_id := -1 })) ∧
      ¬ ReplacesInterfaces nfcAgent nfcMirror (oneInterface (-1)) :=
  ⟨⟨oneInterface_returned 0, not_replaces_oneInterface (by decide)⟩,
    oneInterface_returned (-1), not_replaces_oneInterface (by decide)⟩

end Vts.Host
