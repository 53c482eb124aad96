import Vts.Hal.DriverManager
import Vts.Hal.TypeName
import Vts.Lib.Ensures
import Vts.Resource.Manager

/-!
# Arguments of calls of HIDL HALs

`PreprocessHidlHalFunctionCallArgs` of
`drivers/hal/common/driver_manager/VtsHalDriverManager.cpp` prepares an argument of a call for the
driver: it sets the pointers of interfaces whose drivers are registered, and the addresses of queues,
memories and handles that the resource manager has.

The query for the driver of an interface has no component class, and such a query finds nothing: no
pointer is ever set. Proved here: for which arguments the interfaces carry the pointers of their
drivers afterwards.
-/

namespace Vts.Hal

open Vts.Lib Vts.Resource

/-! ## Arguments -/

inductive SequenceType where
  | TYPE_ARRAY | TYPE_VECTOR
deriving DecidableEq

/-- The types of arguments that are not prepared. -/
inductive PlainType where
  | UNKNOWN_VARIABLE_TYPE | TYPE_PREDEFINED | TYPE_SCALAR | TYPE_STRING | TYPE_ENUM
  | TYPE_FUNCTION_POINTER | TYPE_VOID | TYPE_HIDL_CALLBACK | TYPE_SUBMODULE | TYPE_MASK
  | TYPE_POINTER | TYPE_SAFE_UNION
deriving DecidableEq

/-- What is read of the first `fmq_value` of a message. -/
structure FmqValue where
  scalar_type : String
  fmq_id : Int
  fmq_desc_address : Nat
deriving DecidableEq

/-- A `VariableSpecificationMessage` by its type, with the fields that are read or set for this
type. -/
inductive CallArg where
  | sequence (type : SequenceType) (vector_size : Int) (vector_value : List CallArg)
  | union (union_value : List CallArg)
  | struct (struct_value : List CallArg)
  /-- A `ref_value` that is not set reads as the default message, which has no type. -/
  | ref (ref_value : CallArg)
  | hidl_interface (predefined_type : String) (hidl_interface_pointer : Option UInt64)
  /-- `TYPE_FMQ_SYNC` or `TYPE_FMQ_UNSYNC`. -/
  | fmq (sync : Bool) (fmq_value : Option FmqValue)
  | hidl_memory (mem_id : Int) (hidl_mem_address : Nat)
  | handle (handle_id : Int) (hidl_handle_address : Nat)
  | plain (type : PlainType)

/-- The lookups of the resource manager: the address, if there is one. -/
structure Lookups where
  GetQueueDescAddress (scalar_type : String) (sync : Bool) (fmq_id : Int) :
    Except Stop (Option Nat)
  GetHidlMemoryAddress (mem_id : Int) : Except Stop (Option Nat)
  GetHidlHandleAddress (handle_id : Int) : Except Stop (Option Nat)

/-- The lookups of a resource manager. A failed one ends the preparation, and the others leave the
maps as they are. -/
def lookups (device : Device) (resource_manager_ : VtsResourceManager) : Lookups where
  GetQueueDescAddress scalar_type sync fmq_id :=
    (Resource.GetQueueDescAddress device resource_manager_ scalar_type sync fmq_id).map Prod.fst
  GetHidlMemoryAddress mem_id :=
    (Resource.GetHidlMemoryAddress resource_manager_ mem_id).map Prod.fst
  GetHidlHandleAddress handle_id :=
    (Resource.GetHidlHandleAddress resource_manager_ handle_id).map Prod.fst

variable {DriverBase : Type}

/-! ## The preparation -/

namespace VtsHalDriverManager

def GetDriverPointerById (manager : VtsHalDriverManager DriverBase) (id : Int) : UInt64 :=
  match manager.hal_driver_map_.find id with
  | none => 0
  | some info => info.hidl_hal_proxy_pt

/-- The query for the driver of an interface. -/
def interfaceQuery (name : TypeName) : ComponentSpecificationMessage where
  component_class := none
  component_type := none
  component_name := some name.component
  component_type_version_major := some name.version_major
  component_type_version_minor := some name.version_minor
  package := some name.package

/-- The pointer of an interface after its preparation. -/
def interfacePointer (manager : VtsHalDriverManager DriverBase) (name : TypeName)
    (hidl_interface_pointer : Option UInt64) : Option UInt64 :=
  let driver_id := manager.FindDriverIdInternal (interfaceQuery name) 0 false
  if driver_id ≠ kInvalidDriverId then some (manager.GetDriverPointerById driver_id)
  else hidl_interface_pointer

variable (manager : VtsHalDriverManager DriverBase) (resources : Lookups)

mutual

/-- Whether the argument could be prepared, and the argument afterwards. An index outside of a
repeated field is undefined. -/
def PreprocessHidlHalFunctionCallArgs : CallArg → Except Stop (Bool × CallArg)
  | .sequence type vector_size vector_value => do
    let (success, vector_value) ← preprocessFirst vector_size.toNat vector_value
    .ok (success, .sequence type vector_size vector_value)
  | .union union_value => do
    let (success, union_value) ← preprocessFirst union_value.length union_value
    .ok (success, .union union_value)
  | .struct struct_value => do
    let (success, struct_value) ← preprocessFirst struct_value.length struct_value
    .ok (success, .struct struct_value)
  | .ref ref_value => do
    let (success, ref_value) ← PreprocessHidlHalFunctionCallArgs ref_value
    .ok (success, .ref ref_value)
  | .hidl_interface predefined_type hidl_interface_pointer =>
    match readTypeName predefined_type with
    | none => .error .crashed
    | some name => .ok (true,
        .hidl_interface predefined_type (manager.interfacePointer name hidl_interface_pointer))
  | .fmq sync fmq_value =>
    match fmq_value with
    | none => .ok (false, .fmq sync none)
    | some value =>
      if value.fmq_id ≠ -1 then do
        match ← resources.GetQueueDescAddress value.scalar_type sync value.fmq_id with
        | none => .ok (false, .fmq sync (some value))
        | some descriptor_addr =>
          .ok (true, .fmq sync (some { value with fmq_desc_address := descriptor_addr }))
      else .ok (true, .fmq sync (some value))
  | .hidl_memory mem_id hidl_mem_address =>
    if mem_id ≠ -1 then do
      match ← resources.GetHidlMemoryAddress mem_id with
      | none => .ok (false, .hidl_memory mem_id hidl_mem_address)
      | some hidl_mem_address => .ok (true, .hidl_memory mem_id hidl_mem_address)
    else .ok (true, .hidl_memory mem_id hidl_mem_address)
  | .handle handle_id hidl_handle_address =>
    if handle_id ≠ -1 then do
      match ← resources.GetHidlHandleAddress handle_id with
      | none => .ok (false, .handle handle_id hidl_handle_address)
      | some hidl_handle_address => .ok (true, .handle handle_id hidl_handle_address)
    else .ok (true, .handle handle_id hidl_handle_address)
  | .plain type => .ok (true, .plain type)

/-- The loops over the values of a repeated field. -/
def preprocessFirst : Nat → List CallArg → Except Stop (Bool × List CallArg)
  | 0, values => .ok (true, values)
  | _ + 1, [] => .error .crashed
  | count + 1, value :: rest => do
    let (success, value) ← PreprocessHidlHalFunctionCallArgs value
    if success then
      let (success, rest) ← preprocessFirst count rest
      .ok (success, value :: rest)
    else .ok (false, value :: rest)

end

end VtsHalDriverManager

/-! ## What becomes of the nodes -/

mutual

/-- The nodes of an argument before and after: the pointers of interfaces are related, and apart from
the addresses of resources nothing is changed. -/
def CallArg.Related (pointers : String → Option UInt64 → Option UInt64 → Prop) :
    CallArg → CallArg → Prop
  | .sequence type vector_size values, after =>
    ∃ later, RelatedAll pointers values later ∧ after = .sequence type vector_size later
  | .union values, after => ∃ later, RelatedAll pointers values later ∧ after = .union later
  | .struct values, after => ∃ later, RelatedAll pointers values later ∧ after = .struct later
  | .ref value, after => ∃ later, value.Related pointers later ∧ after = .ref later
  | .hidl_interface predefined_type pointer, after =>
    ∃ later, pointers predefined_type pointer later ∧
      after = .hidl_interface predefined_type later
  | .fmq sync none, after => after = .fmq sync none
  | .fmq sync (some value), after =>
    ∃ address, after = .fmq sync (some { value with fmq_desc_address := address })
  | .hidl_memory mem_id _, after => ∃ address, after = .hidl_memory mem_id address
  | .handle handle_id _, after => ∃ address, after = .handle handle_id address
  | .plain type, after => after = .plain type

def RelatedAll (pointers : String → Option UInt64 → Option UInt64 → Prop) :
    List CallArg → List CallArg → Prop
  | [], after => after = []
  | value :: rest, after =>
    ∃ later others, value.Related pointers later ∧ RelatedAll pointers rest others ∧
      after = later :: others

end

/-- Nothing but addresses of resources is changed. -/
abbrev CallArg.Same := CallArg.Related fun _ before after => after = before

abbrev SameAll := RelatedAll fun _ before after => after = before

/-- A driver that is registered for the interface of a name. -/
def HalDriverInfo.NamedBy (info : HalDriverInfo DriverBase) (type_name : String) : Prop :=
  info.spec_msg.component_class = some .HAL_HIDL ∧ ∃ name : TypeName,
    name.text = type_name ∧ info.spec_msg.package = some name.package ∧
    info.spec_msg.component_type_version_major = some name.version_major ∧
    info.spec_msg.component_type_version_minor = some name.version_minor ∧
    info.spec_msg.component_name = some name.component

/-- An interface whose name is that of a registered driver carries the pointer of such a driver, and
another one what it carried. -/
def VtsHalDriverManager.Carries (manager : VtsHalDriverManager DriverBase) (type_name : String)
    (before after : Option UInt64) : Prop :=
  ((∃ entry ∈ manager.hal_driver_map_.entries, entry.2.NamedBy type_name) →
    ∃ entry ∈ manager.hal_driver_map_.entries, entry.2.NamedBy type_name ∧
      after = some entry.2.hidl_hal_proxy_pt) ∧
  ((¬ ∃ entry ∈ manager.hal_driver_map_.entries, entry.2.NamedBy type_name) → after = before)

/-! ## Where the preparation stops -/

/-- What ends a preparation: the argument is refused, or the call does not return. -/
inductive Fault where
  | refused
  | stopped (stop : Stop)
deriving DecidableEq

/-- What a lookup of a resource ends with. -/
def lookupFaults : Except Stop (Option Nat) → List Fault
  | .error stop => [.stopped stop]
  | .ok none => [.refused]
  | .ok (some _) => []

variable (resources : Lookups)

mutual

/-- The faults of an argument in reading order: names of interfaces that cannot be read, resources
that are not there, and vectors with fewer elements than their size. -/
def CallArg.faults : CallArg → List Fault
  | .sequence _ vector_size values => faultsOfFirst vector_size.toNat values
  | .union values => faultsOfFirst values.length values
  | .struct values => faultsOfFirst values.length values
  | .ref value => value.faults
  | .hidl_interface predefined_type _ =>
    if (readTypeName predefined_type).isSome then [] else [.stopped .crashed]
  | .fmq _ none => [.refused]
  | .fmq sync (some value) =>
    if value.fmq_id = -1 then []
    else lookupFaults (resources.GetQueueDescAddress value.scalar_type sync value.fmq_id)
  | .hidl_memory mem_id _ =>
    if mem_id = -1 then [] else lookupFaults (resources.GetHidlMemoryAddress mem_id)
  | .handle handle_id _ =>
    if handle_id = -1 then [] else lookupFaults (resources.GetHidlHandleAddress handle_id)
  | .plain _ => []

def faultsOfFirst : Nat → List CallArg → List Fault
  | 0, _ => []
  | _ + 1, [] => [.stopped .crashed]
  | count + 1, value :: rest => value.faults ++ faultsOfFirst count rest

end

/-- What a preparation that stops at the first of some faults gives. -/
def Outcome {Arg : Type} (faults : List Fault) (result : Except Stop (Bool × Arg))
    (Same : Arg → Prop) : Prop :=
  match faults.head? with
  | none => ∃ after, result = .ok (true, after) ∧ Same after
  | some .refused => ∃ after, result = .ok (false, after) ∧ Same after
  | some (.stopped stop) => result = .error stop

namespace Outcome

variable {Arg Other : Type} {faults : List Fault} {result : Except Stop (Bool × Arg)}
  {Kept : Arg → Prop}

theorem succeed {arg : Arg} (kept : Kept arg) : Outcome [] (.ok (true, arg)) Kept :=
  ⟨arg, rfl, kept⟩

theorem refuse {arg : Arg} (kept : Kept arg) (rest : List Fault) :
    Outcome (.refused :: rest) (.ok (false, arg)) Kept :=
  ⟨arg, rfl, kept⟩

theorem stop (stop : Stop) (rest : List Fault) :
    Outcome (.stopped stop :: rest) (.error stop : Except Stop (Bool × Arg)) Kept :=
  rfl

/-- An argument that is built around a prepared one. -/
theorem wrap (prepared : Outcome faults result Kept) {build : Arg → Other}
    {KeptOther : Other → Prop}
    (built : ∀ after, Kept after → KeptOther (build after)) :
    Outcome faults (do let (success, after) ← result; .ok (success, build after)) KeptOther := by
  cases faults with
  | nil =>
    obtain ⟨after, rfl, kept⟩ := prepared
    exact ⟨build after, rfl, built after kept⟩
  | cons fault rest =>
    cases fault with
    | refused =>
      obtain ⟨after, rfl, kept⟩ := prepared
      exact ⟨build after, rfl, built after kept⟩
    | stopped stop =>
      obtain rfl : result = .error stop := prepared
      rfl

/-- A lookup for an id that is set, with what is built from the address. -/
theorem lookup {id : Int} (found : Except Stop (Option Nat)) {arg : Arg} {build : Nat → Arg}
    (kept : Kept arg) (built : ∀ address, Kept (build address)) :
    Outcome (if id = -1 then [] else lookupFaults found) (if id ≠ -1 then do
      match ← found with
      | none => .ok (false, arg)
      | some address => .ok (true, build address)
      else .ok (true, arg)) Kept := by
  by_cases unset : id = -1
  · rw [if_pos unset, if_neg (not_not.mpr unset)]
    exact succeed kept
  · rw [if_neg unset, if_pos unset]
    cases found with
    | error failure => exact stop failure []
    | ok address =>
      cases address with
      | none => exact refuse kept []
      | some address => exact succeed (built address)

/-- A round of a loop and the rounds after it. -/
theorem round {others : List CallArg} {rest : Except Stop (Bool × List CallArg)}
    {first : Except Stop (Bool × CallArg)} {faultsFirst faultsRest : List Fault}
    {KeptValue : CallArg → Prop} {KeptRest KeptAll : List CallArg → Prop}
    (head : Outcome faultsFirst first KeptValue) (tail : Outcome faultsRest rest KeptRest)
    (refl : KeptRest others)
    (cons : ∀ value rest, KeptValue value → KeptRest rest → KeptAll (value :: rest)) :
    Outcome (faultsFirst ++ faultsRest) (do
      let (success, value) ← first
      if success then
        let (success, rest) ← rest
        .ok (success, value :: rest)
      else .ok (false, value :: others)) KeptAll := by
  cases faultsFirst with
  | nil =>
    obtain ⟨after, rfl, kept⟩ := head
    exact tail.wrap fun rest keptRest => cons after rest kept keptRest
  | cons fault faults =>
    cases fault with
    | refused =>
      obtain ⟨after, rfl, kept⟩ := head
      exact refuse (cons after others kept refl) _
    | stopped stop =>
      obtain rfl : first = .error stop := head
      rfl

end Outcome

mutual

theorem CallArg.same_refl : ∀ arg : CallArg, arg.Same arg
  | .sequence _ _ values | .union values | .struct values => ⟨values, sameAll_refl values, rfl⟩
  | .ref value => ⟨value, value.same_refl, rfl⟩
  | .hidl_interface _ pointer => ⟨pointer, rfl, rfl⟩
  | .fmq _ none => rfl
  | .fmq _ (some value) => ⟨value.fmq_desc_address, rfl⟩
  | .hidl_memory _ address | .handle _ address => ⟨address, rfl⟩
  | .plain _ => rfl

theorem sameAll_refl : ∀ values : List CallArg, SameAll values values
  | [] => rfl
  | value :: rest => ⟨value, rest, value.same_refl, sameAll_refl rest, rfl⟩

end

namespace VtsHalDriverManager

variable (manager : VtsHalDriverManager DriverBase)

/-- The query without a component class finds nothing. -/
theorem interfacePointer_eq (name : TypeName) (hidl_interface_pointer : Option UInt64) :
    manager.interfacePointer name hidl_interface_pointer = hidl_interface_pointer := by
  have lacking : (interfaceQuery name).lacking = true := rfl
  have invalid : manager.FindDriverIdInternal (interfaceQuery name) 0 false = kInvalidDriverId := by
    rw [FindDriverIdInternal, if_pos lacking]
  rw [interfacePointer, invalid]
  exact if_neg fun valid => valid rfl

mutual

/-- What a preparation gives: it stops at the first fault, and sets addresses of resources only. -/
theorem preprocess_outcome : ∀ arg : CallArg, Outcome (arg.faults resources)
    (manager.PreprocessHidlHalFunctionCallArgs resources arg) arg.Same
  | .sequence type size values =>
    (preprocessFirst_outcome size.toNat values).wrap fun after kept => ⟨after, kept, rfl⟩
  | .union values | .struct values =>
    (preprocessFirst_outcome values.length values).wrap fun after kept => ⟨after, kept, rfl⟩
  | .ref value => (preprocess_outcome value).wrap fun after kept => ⟨after, kept, rfl⟩
  | .hidl_interface predefined_type pointer => by
    rw [CallArg.faults, PreprocessHidlHalFunctionCallArgs]
    cases readTypeName predefined_type with
    | none => exact .stop .crashed []
    | some name => exact .succeed ⟨_, manager.interfacePointer_eq name pointer, rfl⟩
  | .fmq sync none => .refuse (CallArg.same_refl (.fmq sync none)) []
  | .fmq sync (some value) => by
    rw [CallArg.faults, PreprocessHidlHalFunctionCallArgs]
    exact .lookup _ (CallArg.same_refl _) fun address => ⟨address, rfl⟩
  | .hidl_memory mem_id address | .handle mem_id address => by
    rw [CallArg.faults, PreprocessHidlHalFunctionCallArgs]
    exact .lookup _ (CallArg.same_refl _) fun address => ⟨address, rfl⟩
  | .plain _ => .succeed rfl

theorem preprocessFirst_outcome : ∀ (count : Nat) (values : List CallArg),
    Outcome (faultsOfFirst resources count values) (manager.preprocessFirst resources count values)
      (SameAll values)
  | 0, values => by
    rw [faultsOfFirst, preprocessFirst]
    exact .succeed (sameAll_refl values)
  | _ + 1, [] => .stop .crashed []
  | count + 1, value :: rest =>
    (preprocess_outcome value).round (preprocessFirst_outcome count rest) (sameAll_refl rest)
      fun value rest kept keptRest => ⟨value, rest, kept, keptRest, rfl⟩

end

end VtsHalDriverManager

/-! ## When the interfaces get their pointers -/

section

variable {pointers : String → Option UInt64 → Option UInt64 → Prop}

mutual

/-- Where no pointer is changed, it does not matter which of the two arguments the pointers are taken
from. -/
theorem CallArg.Same.related_iff : ∀ {arg after : CallArg}, arg.Same after →
    (arg.Related pointers after ↔ arg.Related pointers arg)
  | .sequence type size values, _, ⟨later, kept, rfl⟩ => by
    have all := SameAll.related_iff kept
    simp only [CallArg.Related, CallArg.sequence.injEq, true_and, exists_eq_right']
    exact all
  | .union values, _, ⟨later, kept, rfl⟩ => by
    have all := SameAll.related_iff kept
    simp only [CallArg.Related, CallArg.union.injEq, exists_eq_right']
    exact all
  | .struct values, _, ⟨later, kept, rfl⟩ => by
    have all := SameAll.related_iff kept
    simp only [CallArg.Related, CallArg.struct.injEq, exists_eq_right']
    exact all
  | .ref value, _, ⟨later, kept, rfl⟩ => by
    have all := CallArg.Same.related_iff kept
    simp only [CallArg.Related, CallArg.ref.injEq, exists_eq_right']
    exact all
  | .hidl_interface _ _, _, ⟨_, rfl, rfl⟩ => Iff.rfl
  | .fmq _ none, _, rfl => Iff.rfl
  | .fmq _ (some value), _, ⟨address, rfl⟩ =>
    ⟨fun _ => ⟨value.fmq_desc_address, rfl⟩, fun _ => ⟨address, rfl⟩⟩
  | .hidl_memory _ before, _, ⟨address, rfl⟩ => ⟨fun _ => ⟨before, rfl⟩, fun _ => ⟨address, rfl⟩⟩
  | .handle _ before, _, ⟨address, rfl⟩ => ⟨fun _ => ⟨before, rfl⟩, fun _ => ⟨address, rfl⟩⟩
  | .plain _, _, rfl => Iff.rfl

theorem SameAll.related_iff : ∀ {values after : List CallArg}, SameAll values after →
    (RelatedAll pointers values after ↔ RelatedAll pointers values values)
  | [], _, rfl => Iff.rfl
  | value :: rest, _, ⟨later, others, kept, keptRest, rfl⟩ => by
    have head := CallArg.Same.related_iff kept
    have tail := SameAll.related_iff keptRest
    simp only [RelatedAll, List.cons.injEq]
    constructor
    · rintro ⟨_, _, first, second, rfl, rfl⟩
      exact ⟨value, rest, head.mp first, tail.mp second, rfl, rfl⟩
    · rintro ⟨_, _, first, second, rfl, rfl⟩
      exact ⟨later, others, head.mpr first, tail.mpr second, rfl, rfl⟩

end

end

namespace VtsHalDriverManager

/-- The preparation returns, every interface that has the name of a registered driver carries the
pointer of such a driver, and apart from addresses of resources the other nodes are unchanged. -/
def Prepares (manager : VtsHalDriverManager DriverBase) (resources : Lookups) (arg : CallArg) :
    Prop :=
  ∃ success after,
    manager.PreprocessHidlHalFunctionCallArgs resources arg = .ok (success, after) ∧
    arg.Related manager.Carries after

/-- The interfaces of an argument get the pointers of their drivers exactly when they carry them
already, and no name that cannot be read, vector with too few elements or lookup that does not
return comes before a resource that is missing. -/
theorem preprocess_prepares_iff (manager : VtsHalDriverManager DriverBase) (resources : Lookups)
    (arg : CallArg) : manager.Prepares resources arg ↔
      (∀ stop, (arg.faults resources).head? ≠ some (.stopped stop)) ∧
        arg.Related manager.Carries arg := by
  have outcome : Outcome (arg.faults resources)
      (manager.PreprocessHidlHalFunctionCallArgs resources arg) arg.Same :=
    manager.preprocess_outcome resources arg
  unfold Prepares
  revert outcome
  cases arg.faults resources with
  | nil =>
    rintro ⟨after, returned, kept⟩
    rw [returned]
    simp [kept.related_iff]
  | cons fault rest =>
    cases fault with
    | refused =>
      rintro ⟨after, returned, kept⟩
      rw [returned]
      simp [kept.related_iff]
    | stopped stop =>
      intro stopped
      rw [show manager.PreprocessHidlHalFunctionCallArgs resources arg = .error stop from stopped]
      simp

/-- A manager with a driver for an interface of the NFC HAL. -/
def nfcManager : VtsHalDriverManager Nat :=
  new.register ⟨⟨some .HAL_HIDL, none, some "INfcClientCallback", some 1, some 0,
    some "android.hardware.nfc"⟩, 7, 1⟩

def nfcCallback : CallArg :=
  .hidl_interface "::android::hardware::nfc::V1_0::INfcClientCallback" none

/-- The interface of the registered driver is passed without a pointer. -/
theorem preprocess_prepares_unset :
    nfcManager.PreprocessHidlHalFunctionCallArgs (lookups .plain .new) nfcCallback =
        .ok (true, nfcCallback) ∧
      ¬ nfcManager.Prepares (lookups .plain .new) nfcCallback := by
  have unset : nfcManager.PreprocessHidlHalFunctionCallArgs (lookups .plain .new) nfcCallback =
      .ok (true, nfcCallback) := by
    rfl
  refine ⟨unset, ?_⟩
  rintro ⟨success, after, returned, related⟩
  obtain rfl : nfcCallback = after := (Prod.mk.inj (Except.ok.inj (unset.symm.trans returned))).2
  obtain ⟨pointer, ⟨carried, -⟩, same⟩ := related
  obtain rfl : none = pointer := (CallArg.hidl_interface.inj same).2
  obtain ⟨entry, -, -, impossible⟩ := carried ⟨nfcManager.hal_driver_map_.entries.head (by decide),
    List.head_mem _, rfl, ⟨"android.hardware.nfc", 1, 0, "INfcClientCallback"⟩, by decide +kernel,
    rfl, rfl, rfl, rfl⟩
  cases impossible

end VtsHalDriverManager

end Vts.Hal
