import Vts.Lib.IdTable
import Vts.Lib.OrderedMap
import Vts.Lib.Runs

/-!
# The map of HAL drivers

`RegisterDriver`, `GetDriverById`, `FindDriverIdInternal` and `GetDriverWithCallMsg` of
`drivers/hal/common/driver_manager/VtsHalDriverManager.cpp`. The fields of a message are optional,
and reading one that is not set gives its default. A driver id is an `int32_t` that is made from
the size of the map.

Proved here: while there are fewer than `2 ^ 32` registrations, the id of a registration leads to
its driver from then on, or to the one that agrees with it when there was one; and a call message
for a HIDL HAL that has no driver id finds a registered driver of this package, version and name.
The type of a component is not compared for a HIDL HAL. A call message for a shared library that
has no driver id finds nothing.
-/

namespace Vts.Hal

open Vts.Lib List

/-- The classes of components. -/
inductive ComponentClass where
  | UNKNOWN_CLASS | HAL_CONVENTIONAL | HAL_CONVENTIONAL_SUBMODULE | HAL_LEGACY | HAL_HIDL
  | HAL_HIDL_WRAPPED_CONVENTIONAL | LIB_SHARED | KERNEL | KERNEL_MODULE
deriving DecidableEq

/-- The types of components. -/
inductive ComponentType where
  | UNKNOWN_TYPE | AUDIO | CAMERA | GPS | LIGHT | WIFI | MOBILE | BLUETOOTH | NFC | POWER
  | MEMTRACK | BFP | VIBRATOR | THERMAL | TV_INPUT | TV_CEC | SENSORS | VEHICLE | VR
  | GRAPHICS_ALLOCATOR | GRAPHICS_MAPPER | RADIO | CONTEXTHUB | GRAPHICS_COMPOSER | MEDIA_OMX
  | TESTS_MSGQ | TESTS_MEMORY | DUMPSTATE | BIONIC_LIBM | BIONIC_LIBC | VNDK_LIBCUTILS | SYSCALL
deriving DecidableEq

/-- What the driver manager reads of a specification. -/
structure ComponentSpecificationMessage where
  component_class : Option ComponentClass
  component_type : Option ComponentType
  component_name : Option String
  component_type_version_major : Option Int
  component_type_version_minor : Option Int
  package : Option String
deriving DecidableEq

namespace ComponentSpecificationMessage

variable (message : ComponentSpecificationMessage)

def getClass : ComponentClass := message.component_class.getD .UNKNOWN_CLASS

def getType : ComponentType := message.component_type.getD .UNKNOWN_TYPE

def getName : String := message.component_name.getD ""

def getMajor : Int := message.component_type_version_major.getD (-1)

def getMinor : Int := message.component_type_version_minor.getD (-1)

def getPackage : String := message.package.getD ""

/-- The checks at the start of `FindDriverIdInternal`: something that is needed is missing. -/
def lacking : Bool :=
  message.component_class.isNone ||
    (decide (message.getClass = .HAL_HIDL) &&
      ((message.package.isNone || message.getPackage.isEmpty) ||
        (message.component_type_version_major.isNone ||
          message.component_type_version_minor.isNone) ||
        (message.component_name.isNone || message.getName.isEmpty)))

end ComponentSpecificationMessage

/-- A driver in the map, with its specification and the pointer to the proxy. -/
structure HalDriverInfo (DriverBase : Type) where
  spec_msg : ComponentSpecificationMessage
  hidl_hal_proxy_pt : UInt64
  driver : DriverBase
deriving DecidableEq

variable {DriverBase : Type}

/-- A round of the loop of `FindDriverIdInternal`: the driver is the wanted one. -/
def HalDriverInfo.agrees (info : HalDriverInfo DriverBase) (spec_msg : ComponentSpecificationMessage)
    (interface_pt : UInt64) (with_interface_pointer : Bool) : Bool :=
  let cur_spec_msg := info.spec_msg
  if cur_spec_msg.getClass ≠ spec_msg.getClass then false
  else if spec_msg.package.isSome ∧
      (cur_spec_msg.package.isNone ∨ cur_spec_msg.getPackage ≠ spec_msg.getPackage) then false
  else if (spec_msg.component_type_version_major.isSome ∧
        spec_msg.component_type_version_minor.isSome) ∧
      (cur_spec_msg.component_type_version_major.isNone ∨
        cur_spec_msg.component_type_version_minor.isNone ∨
        cur_spec_msg.getMajor ≠ spec_msg.getMajor ∨
        cur_spec_msg.getMinor ≠ spec_msg.getMinor) then false
  else match spec_msg.getClass with
    | .HAL_HIDL =>
      if cur_spec_msg.getName ≠ spec_msg.getName then false
      else if with_interface_pointer ∧ info.hidl_hal_proxy_pt ≠ interface_pt then false
      else true
    | .LIB_SHARED => spec_msg.component_type.isSome && cur_spec_msg.getType = spec_msg.getType
    | _ => false

def kInvalidDriverId : Int := -1

/-- The driver manager, as far as drivers are concerned. -/
structure VtsHalDriverManager (DriverBase : Type) where
  hal_driver_map_ : OrderedMap Int (HalDriverInfo DriverBase)

/-- What the driver manager reads of a call message. -/
structure FunctionCallMessage where
  hal_driver_id : Option Int
  component_class : Option ComponentClass
  component_type : Option ComponentType
  component_name : Option String
  package_name : Option String
  component_type_version_major : Option Int
  component_type_version_minor : Option Int
deriving DecidableEq

/-- The specification that `GetDriverWithCallMsg` looks for. -/
def FunctionCallMessage.spec_msg (call_msg : FunctionCallMessage) :
    ComponentSpecificationMessage where
  component_class := some (call_msg.component_class.getD .UNKNOWN_CLASS)
  component_type := none
  component_name := some (call_msg.component_name.getD "")
  component_type_version_major := some (call_msg.component_type_version_major.getD (-1))
  component_type_version_minor := some (call_msg.component_type_version_minor.getD (-1))
  package := some (call_msg.package_name.getD "")

/-- The arguments of a call of `RegisterDriver`. -/
abbrev Registration := HalDriverInfo

namespace VtsHalDriverManager

variable (manager : VtsHalDriverManager DriverBase)

def new : VtsHalDriverManager DriverBase := ⟨.empty⟩

def FindDriverIdInternal (spec_msg : ComponentSpecificationMessage) (interface_pt : UInt64)
    (with_interface_pointer : Bool) : Int :=
  if spec_msg.lacking then kInvalidDriverId
  else match manager.hal_driver_map_.entries.find? fun entry =>
      entry.2.agrees spec_msg interface_pt with_interface_pointer with
    | some entry => entry.1
    | none => kInvalidDriverId

/-- The returned id, and the manager afterwards. -/
def RegisterDriver (driver : DriverBase) (spec_msg : ComponentSpecificationMessage)
    (interface_pt : UInt64) : Int × VtsHalDriverManager DriverBase :=
  let driver_id := manager.FindDriverIdInternal spec_msg interface_pt true
  if driver_id = kInvalidDriverId then
    let driver_id := toInt32 manager.hal_driver_map_.size
    (driver_id, ⟨manager.hal_driver_map_.insert driver_id ⟨spec_msg, interface_pt, driver⟩⟩)
  else (driver_id, manager)

/-- The driver under an id, `none` for `nullptr`. -/
def GetDriverById (id : Int) : Option DriverBase :=
  (manager.hal_driver_map_.find id).map HalDriverInfo.driver

def GetDriverWithCallMsg (call_msg : FunctionCallMessage) : Option DriverBase :=
  let driver_id :=
    if call_msg.hal_driver_id.isSome ∧ call_msg.hal_driver_id.getD (-1) ≠ kInvalidDriverId then
      call_msg.hal_driver_id.getD (-1)
    else manager.FindDriverIdInternal call_msg.spec_msg 0 false
  if driver_id = kInvalidDriverId then none else manager.GetDriverById driver_id

/-- The manager after a call of `RegisterDriver`. -/
def register (registration : Registration DriverBase) : VtsHalDriverManager DriverBase :=
  (manager.RegisterDriver registration.driver registration.spec_msg
    registration.hidl_hal_proxy_pt).2

/-- A driver that agrees with a specification is in the map. -/
def Knows (spec_msg : ComponentSpecificationMessage) (interface_pt : UInt64)
    (with_interface_pointer : Bool) : Prop :=
  spec_msg.lacking = false ∧ ∃ entry ∈ manager.hal_driver_map_.entries,
    entry.2.agrees spec_msg interface_pt with_interface_pointer = true

/-- The ids are the numbers up to the size, and none of them is the invalid one. -/
structure Numbered : Prop where
  keys : ∀ id ∈ manager.hal_driver_map_.keys, ∃ number < manager.hal_driver_map_.size,
    id = toInt32 number
  few : manager.hal_driver_map_.size < 2 ^ 32

variable {manager}

theorem numbered_new : (new : VtsHalDriverManager DriverBase).Numbered where
  keys id listed := (not_mem_nil listed).elim
  few := show 0 < 2 ^ 32 by decide

section

variable (numbered : manager.Numbered)
include numbered

theorem Numbered.ne_invalid {id : Int} (listed : id ∈ manager.hal_driver_map_.keys) :
    id ≠ kInvalidDriverId := by
  obtain ⟨number, below, rfl⟩ := numbered.keys id listed
  have few := numbered.few
  unfold toInt32 kInvalidDriverId
  split <;> omega

theorem Numbered.next_not_mem :
    toInt32 manager.hal_driver_map_.size ∉ manager.hal_driver_map_.keys := by
  intro listed
  obtain ⟨number, below, same⟩ := numbered.keys _ listed
  rw [toInt32_inj numbered.few (by have := numbered.few; omega)] at same
  omega

/-- What `FindDriverIdInternal` returns: the id of a driver that agrees, unless there is none. -/
theorem Numbered.find_cases (spec_msg : ComponentSpecificationMessage) (interface_pt : UInt64)
    (with_interface_pointer : Bool) :
    (manager.FindDriverIdInternal spec_msg interface_pt with_interface_pointer = kInvalidDriverId ∧
      ¬ manager.Knows spec_msg interface_pt with_interface_pointer) ∨
    ∃ id info, manager.FindDriverIdInternal spec_msg interface_pt with_interface_pointer = id ∧
      id ≠ kInvalidDriverId ∧ manager.hal_driver_map_.find id = some info ∧
      spec_msg.lacking = false ∧
      info.agrees spec_msg interface_pt with_interface_pointer = true := by
  unfold FindDriverIdInternal
  split
  · rename_i lacking
    refine .inl ⟨rfl, ?_⟩
    rintro ⟨complete, -⟩
    rw [complete] at lacking
    cases lacking
  · rename_i complete
    split
    · rename_i entry found
      have stored : manager.hal_driver_map_.find entry.1 = some entry.2 :=
        OrderedMap.find_eq_some_iff.mpr (mem_of_find?_eq_some found)
      exact .inr ⟨entry.1, entry.2, rfl, numbered.ne_invalid (OrderedMap.mem_keys_of_find stored),
        stored, Bool.eq_false_iff.mpr complete,
        List.find?_some (p := fun entry : Int × HalDriverInfo DriverBase =>
          entry.2.agrees spec_msg interface_pt with_interface_pointer) found⟩
    · rename_i none
      refine .inl ⟨rfl, ?_⟩
      rintro ⟨-, entry, listed, agrees⟩
      exact List.find?_eq_none.mp none entry listed agrees

/-- A registration either finds a driver that agrees, or puts its own under the next id. -/
theorem Numbered.register_cases (registration : Registration DriverBase) :
    (∃ id info, manager.RegisterDriver registration.driver registration.spec_msg
        registration.hidl_hal_proxy_pt = (id, manager) ∧
      manager.hal_driver_map_.find id = some info ∧ registration.spec_msg.lacking = false ∧
      info.agrees registration.spec_msg registration.hidl_hal_proxy_pt true = true) ∨
    (¬ manager.Knows registration.spec_msg registration.hidl_hal_proxy_pt true ∧
      manager.RegisterDriver registration.driver registration.spec_msg
        registration.hidl_hal_proxy_pt = (toInt32 manager.hal_driver_map_.size,
          ⟨manager.hal_driver_map_.insert (toInt32 manager.hal_driver_map_.size)
            registration⟩)) := by
  unfold RegisterDriver
  rcases numbered.find_cases registration.spec_msg registration.hidl_hal_proxy_pt true with
    ⟨none, unknown⟩ | ⟨id, info, same, valid, stored, complete, agrees⟩
  · exact .inr ⟨unknown, if_pos none⟩
  · refine .inl ⟨id, info, ?_, stored, complete, agrees⟩
    rw [same]
    exact if_neg valid

end

/-- What registrations do to the map: the entries stay, the new ones are registrations, and there
are no more of them than registrations. -/
structure Grows (manager after : VtsHalDriverManager DriverBase)
    (registrations : List (Registration DriverBase)) : Prop where
  numbered : after.Numbered
  size : after.hal_driver_map_.size ≤ manager.hal_driver_map_.size + registrations.length
  kept : ∀ id info, manager.hal_driver_map_.find id = some info →
    after.hal_driver_map_.find id = some info
  source : ∀ id info, after.hal_driver_map_.find id = some info →
    manager.hal_driver_map_.find id = some info ∨ info ∈ registrations

theorem Numbered.grows (numbered : manager.Numbered) : manager.Grows manager [] where
  numbered := numbered
  size := Nat.le_refl _
  kept _ _ found := found
  source _ _ found := .inl found

theorem Numbered.grows_register (numbered : manager.Numbered)
    (room : manager.hal_driver_map_.size + 1 < 2 ^ 32) (registration : Registration DriverBase) :
    manager.Grows (manager.register registration) [registration] := by
  rcases numbered.register_cases registration with ⟨id, info, found, -, -, -⟩ | ⟨-, inserted⟩
  · have same : manager.register registration = manager := congrArg Prod.snd found
    rw [same]
    exact ⟨numbered, Nat.le_add_right _ _, fun _ _ stored => stored, fun _ _ stored => .inl stored⟩
  · have now : manager.register registration = ⟨manager.hal_driver_map_.insert
        (toInt32 manager.hal_driver_map_.size) registration⟩ := congrArg Prod.snd inserted
    have size : (manager.hal_driver_map_.insert (toInt32 manager.hal_driver_map_.size)
        registration).size = manager.hal_driver_map_.size + 1 :=
      OrderedMap.size_insert numbered.next_not_mem
    rw [now]
    refine ⟨⟨?_, ?_⟩, ?_, ?_, ?_⟩
    · intro id listed
      obtain ⟨entry, inside, rfl⟩ := mem_map.mp listed
      rcases OrderedMap.mem_entries_insert inside with old | rfl
      · obtain ⟨number, below, same⟩ := numbered.keys _ (mem_map_of_mem old)
        exact ⟨number, Nat.lt_of_lt_of_eq (Nat.lt_succ_of_lt below) size.symm, same⟩
      · exact ⟨_, Nat.lt_of_lt_of_eq (Nat.lt_succ_self _) size.symm, rfl⟩
    · exact Nat.lt_of_le_of_lt (Nat.le_of_eq size) room
    · exact Nat.le_of_eq size
    · intro id info found
      exact OrderedMap.find_insert_of_find found
    · intro id info found
      rcases OrderedMap.mem_entries_insert (OrderedMap.find_eq_some_iff.mp found) with old | new
      · exact .inl (OrderedMap.find_eq_some_iff.mpr old)
      · exact .inr (mem_singleton.mpr (Prod.mk.inj new).2)

theorem Grows.trans {between after : VtsHalDriverManager DriverBase}
    {first second : List (Registration DriverBase)} (before : manager.Grows between first)
    (later : between.Grows after second) : manager.Grows after (first ++ second) where
  numbered := later.numbered
  size := by
    have := before.size
    have := later.size
    rw [length_append]
    omega
  kept id info found := later.kept id info (before.kept id info found)
  source id info found := by
    rcases later.source id info found with earlier | new
    · exact (before.source id info earlier).imp_right (mem_append_left _)
    · exact .inr (mem_append_right _ new)

theorem Numbered.grows_run (numbered : manager.Numbered)
    {registrations : List (Registration DriverBase)}
    (room : manager.hal_driver_map_.size + registrations.length < 2 ^ 32) :
    manager.Grows (run register manager registrations) registrations := by
  induction registrations generalizing manager with
  | nil => exact numbered.grows
  | cons registration registrations ih =>
    rw [length_cons] at room
    have first := numbered.grows_register (by omega) registration
    have size := first.size
    rw [length_singleton] at size
    exact first.trans (ih first.numbered (by omega))

end VtsHalDriverManager

/-- Two specifications have the same class, package, version and name. -/
structure ComponentSpecificationMessage.SameComponent
    (first second : ComponentSpecificationMessage) : Prop where
  component_class : first.component_class = second.component_class
  package : first.package = second.package
  major : first.component_type_version_major = second.component_type_version_major
  minor : first.component_type_version_minor = second.component_type_version_minor
  component_name : first.component_name = second.component_name

theorem ComponentSpecificationMessage.SameComponent.symm
    {first second : ComponentSpecificationMessage} (same : first.SameComponent second) :
    second.SameComponent first :=
  ⟨same.component_class.symm, same.package.symm, same.major.symm, same.minor.symm,
    same.component_name.symm⟩

theorem ComponentSpecificationMessage.SameComponent.trans
    {first second third : ComponentSpecificationMessage} (same : first.SameComponent second)
    (sameToo : second.SameComponent third) : first.SameComponent third :=
  ⟨same.component_class.trans sameToo.component_class, same.package.trans sameToo.package,
    same.major.trans sameToo.major, same.minor.trans sameToo.minor,
    same.component_name.trans sameToo.component_name⟩

theorem ComponentSpecificationMessage.SameComponent.refl
    (message : ComponentSpecificationMessage) : message.SameComponent message :=
  ⟨rfl, rfl, rfl, rfl, rfl⟩

/-- A specification of a HIDL HAL that has what `FindDriverIdInternal` asks for. -/
def ComponentSpecificationMessage.Complete (message : ComponentSpecificationMessage) : Prop :=
  message.component_class = some .HAL_HIDL ∧ message.lacking = false

theorem ComponentSpecificationMessage.Complete.of_same
    {first second : ComponentSpecificationMessage} (complete : second.Complete)
    (same : first.SameComponent second) : first.Complete := by
  obtain ⟨component_class, component_type, component_name, major, minor, package⟩ := first
  obtain ⟨rfl, rfl, rfl, rfl, rfl⟩ := same
  exact complete

/-- A call message has no driver id, and the class, package, version and name of a
specification. -/
structure FunctionCallMessage.For (call_msg : FunctionCallMessage)
    (spec_msg : ComponentSpecificationMessage) : Prop where
  hal_driver_id : call_msg.hal_driver_id.getD (-1) = kInvalidDriverId
  component_class : call_msg.component_class = spec_msg.component_class
  package_name : call_msg.package_name = spec_msg.package
  major : call_msg.component_type_version_major = spec_msg.component_type_version_major
  minor : call_msg.component_type_version_minor = spec_msg.component_type_version_minor
  component_name : call_msg.component_name = spec_msg.component_name

theorem ComponentSpecificationMessage.Complete.fields {message : ComponentSpecificationMessage}
    (complete : message.Complete) :
    ∃ package name major minor, message.component_class = some .HAL_HIDL ∧
      message.package = some package ∧ package ≠ "" ∧ message.component_name = some name ∧
      name ≠ "" ∧ message.component_type_version_major = some major ∧
      message.component_type_version_minor = some minor := by
  obtain ⟨hidl, present⟩ := complete
  obtain ⟨component_class, component_type, component_name, major, minor, package⟩ := message
  cases hidl
  cases package <;> cases component_name <;> cases major <;> cases minor <;>
    simp_all [lacking, getClass, getPackage, getName]

theorem getD_eq_iff {α : Type} {stored : Option α} {default value : α} (other : value ≠ default) :
    stored.getD default = value ↔ stored = some value := by
  cases stored with
  | none => simp [other.symm]
  | some _ => simp

theorem present_and_getD_eq_iff {α : Type} {stored : Option α} (default : α) {value : α} :
    stored ≠ none ∧ stored.getD default = value ↔ stored = some value := by
  cases stored <;> simp

theorem HalDriverInfo.agrees_iff {info : HalDriverInfo DriverBase}
    {spec_msg : ComponentSpecificationMessage} (complete : spec_msg.Complete)
    {interface_pt : UInt64} {with_interface_pointer : Bool} :
    info.agrees spec_msg interface_pt with_interface_pointer = true ↔
      info.spec_msg.SameComponent spec_msg ∧
        (with_interface_pointer = true → info.hidl_hal_proxy_pt = interface_pt) := by
  obtain ⟨package, name, major, minor, hidl, package_eq, -, name_eq, nonempty, major_eq, minor_eq⟩ :=
    complete.fields
  have expanded : info.agrees spec_msg interface_pt with_interface_pointer = true ↔
      info.spec_msg.getClass = .HAL_HIDL ∧
        (info.spec_msg.package ≠ none ∧ info.spec_msg.getPackage = package) ∧
        (info.spec_msg.component_type_version_major ≠ none ∧
          info.spec_msg.component_type_version_minor ≠ none ∧
          info.spec_msg.getMajor = major ∧ info.spec_msg.getMinor = minor) ∧
        info.spec_msg.getName = name ∧
        (with_interface_pointer = true → info.hidl_hal_proxy_pt = interface_pt) := by
    simp [agrees, ComponentSpecificationMessage.getClass, ComponentSpecificationMessage.getPackage,
      ComponentSpecificationMessage.getMajor, ComponentSpecificationMessage.getMinor,
      ComponentSpecificationMessage.getName, hidl, package_eq, name_eq, major_eq, minor_eq]
    intros
    cases with_interface_pointer <;> simp
  rw [expanded]
  constructor
  · rintro ⟨classes, packages, ⟨majorSet, minorSet, majors, minors⟩, names, pointers⟩
    refine ⟨⟨?_, ?_, ?_, ?_, ?_⟩, pointers⟩
    · rw [hidl]
      exact (getD_eq_iff (by decide)).mp classes
    · rw [package_eq]
      exact (present_and_getD_eq_iff _).mp packages
    · rw [major_eq]
      exact (present_and_getD_eq_iff _).mp ⟨majorSet, majors⟩
    · rw [minor_eq]
      exact (present_and_getD_eq_iff _).mp ⟨minorSet, minors⟩
    · rw [name_eq]
      exact (getD_eq_iff nonempty).mp names
  · rintro ⟨same, pointers⟩
    have majors := (present_and_getD_eq_iff (-1)).mpr (same.major.trans major_eq)
    have minors := (present_and_getD_eq_iff (-1)).mpr (same.minor.trans minor_eq)
    exact ⟨(getD_eq_iff (by decide)).mpr (same.component_class.trans hidl),
      (present_and_getD_eq_iff _).mpr (same.package.trans package_eq),
      ⟨majors.1, minors.1, majors.2, minors.2⟩,
      (getD_eq_iff nonempty).mpr (same.component_name.trans name_eq), pointers⟩

/-- What is looked for on a call message with the fields of a complete specification. -/
theorem FunctionCallMessage.For.spec_msg {call_msg : FunctionCallMessage}
    {spec_msg : ComponentSpecificationMessage} (same : call_msg.For spec_msg)
    (complete : spec_msg.Complete) :
    call_msg.spec_msg.Complete ∧ call_msg.spec_msg.SameComponent spec_msg := by
  obtain ⟨package, name, major, minor, hidl, package_eq, packageSet, name_eq, nameSet, major_eq,
    minor_eq⟩ := complete.fields
  have looked : call_msg.spec_msg = ⟨some .HAL_HIDL, none, some name, some major, some minor,
      some package⟩ := by
    rw [FunctionCallMessage.spec_msg, same.component_class, same.package_name, same.major,
      same.minor, same.component_name, hidl, package_eq, name_eq, major_eq, minor_eq]
    rfl
  rw [looked]
  refine ⟨⟨rfl, ?_⟩, hidl.symm, package_eq.symm, major_eq.symm, minor_eq.symm, name_eq.symm⟩
  simp [ComponentSpecificationMessage.lacking, ComponentSpecificationMessage.getClass,
    ComponentSpecificationMessage.getPackage, ComponentSpecificationMessage.getName, packageSet,
    nameSet]

namespace VtsHalDriverManager

/-- The id of a registration after some others. -/
def registeredId (before : List (Registration DriverBase))
    (registration : Registration DriverBase) : Int :=
  ((run register new before).RegisterDriver registration.driver registration.spec_msg
    registration.hidl_hal_proxy_pt).1

section

variable {call_msg : FunctionCallMessage} (manager : VtsHalDriverManager DriverBase)

/-- The driver that the id of a registration leads to, for ever: its own, or the one in the map
that agrees with it. -/
theorem registeredId_leads {before after : List (Registration DriverBase)}
    {registration : Registration DriverBase}
    (few : (before ++ registration :: after).length < 2 ^ 32) :
    ∃ info, (run register new (before ++ registration :: after)).hal_driver_map_.find
        (registeredId before registration) = some info ∧
      ((¬ (run register new before).Knows registration.spec_msg registration.hidl_hal_proxy_pt
          true ∧ info = registration) ∨
        ((run register new before).hal_driver_map_.find (registeredId before registration) =
            some info ∧ registration.spec_msg.lacking = false ∧
          info.agrees registration.spec_msg registration.hidl_hal_proxy_pt true = true)) := by
  rw [length_append, length_cons] at few
  have empty : (new : VtsHalDriverManager DriverBase).hal_driver_map_.size = 0 := rfl
  have earlier : new.Grows (run register new before) before := numbered_new.grows_run (by omega)
  have bound := earlier.size
  have step := earlier.numbered.grows_register (by omega) registration
  have stepBound := step.size
  rw [length_singleton] at stepBound
  have later : Grows _ (run register _ after) after := step.numbered.grows_run (by omega)
  rw [run_append, run_cons]
  unfold registeredId
  rcases earlier.numbered.register_cases registration with
    ⟨id, info, found, stored, complete, agrees⟩ | ⟨unknown, inserted⟩
  · rw [found]
    exact ⟨info, later.kept _ _ (step.kept _ _ stored), .inr ⟨stored, complete, agrees⟩⟩
  · rw [inserted]
    refine ⟨registration, later.kept _ _ ?_, .inl ⟨unknown, rfl⟩⟩
    rw [register, inserted]
    exact OrderedMap.find_insert_self earlier.numbered.next_not_mem

theorem getDriverWithCallMsg_eq (noId : call_msg.hal_driver_id.getD (-1) = kInvalidDriverId) :
    manager.GetDriverWithCallMsg call_msg =
      if manager.FindDriverIdInternal call_msg.spec_msg 0 false = kInvalidDriverId then none
      else manager.GetDriverById (manager.FindDriverIdInternal call_msg.spec_msg 0 false) := by
  have unset : ¬ (call_msg.hal_driver_id.isSome = true ∧
      call_msg.hal_driver_id.getD (-1) ≠ kInvalidDriverId) := fun given => given.2 noId
  rw [GetDriverWithCallMsg, if_neg unset]

/-- The driver that is found for a call message with the fields of a complete specification in the
map. -/
theorem Numbered.call_leads {manager : VtsHalDriverManager DriverBase} (numbered : manager.Numbered)
    {id : Int} {info : HalDriverInfo DriverBase}
    (stored : manager.hal_driver_map_.find id = some info)
    {spec_msg : ComponentSpecificationMessage} (complete : spec_msg.Complete)
    (same : info.spec_msg.SameComponent spec_msg) (call : call_msg.For spec_msg) :
    ∃ id info, manager.hal_driver_map_.find id = some info ∧
      manager.GetDriverWithCallMsg call_msg = some info.driver ∧
      info.spec_msg.SameComponent spec_msg := by
  obtain ⟨callComplete, callSame⟩ := call.spec_msg complete
  have agrees : info.agrees call_msg.spec_msg 0 false = true := by
    exact (HalDriverInfo.agrees_iff callComplete).mpr ⟨same.trans callSame.symm, nofun⟩
  have known : manager.Knows call_msg.spec_msg 0 false :=
    ⟨callComplete.2, (id, info), OrderedMap.find_eq_some_iff.mp stored, agrees⟩
  rcases numbered.find_cases call_msg.spec_msg 0 false with
    ⟨-, unknown⟩ | ⟨other, found, result, valid, storedToo, -, agreesToo⟩
  · exact absurd known unknown
  · obtain ⟨sameToo, -⟩ := (HalDriverInfo.agrees_iff callComplete).mp agreesToo
    refine ⟨other, found, storedToo, ?_, sameToo.trans callSame⟩
    rw [manager.getDriverWithCallMsg_eq call.hal_driver_id, result, if_neg valid, GetDriverById,
      storedToo]
    rfl

/-- With fewer than `2 ^ 32` registrations, the id of a registration leads to its driver for ever
when no driver agreed with it, and else to one that agreed. A call message without a driver id that
has the class, package, version and name of a registered HIDL HAL, none of them empty, finds a
registered driver with these. -/
theorem registered_driver_found {before after : List (Registration DriverBase)}
    {registration : Registration DriverBase}
    (few : (before ++ registration :: after).length < 2 ^ 32) :
    (¬ (run register new before).Knows registration.spec_msg registration.hidl_hal_proxy_pt true →
      (run register new (before ++ registration :: after)).GetDriverById
        (registeredId before registration) = some registration.driver) ∧
    ((run register new before).Knows registration.spec_msg registration.hidl_hal_proxy_pt true →
      ∃ info, (run register new before).hal_driver_map_.find (registeredId before registration) =
          some info ∧
        info.agrees registration.spec_msg registration.hidl_hal_proxy_pt true = true ∧
        (run register new (before ++ registration :: after)).GetDriverById
          (registeredId before registration) = some info.driver) ∧
    (registration.spec_msg.Complete → ∀ call_msg : FunctionCallMessage,
      call_msg.For registration.spec_msg →
      ∃ info ∈ before ++ registration :: after,
        (∃ id, (run register new (before ++ registration :: after)).hal_driver_map_.find id =
          some info) ∧
        (run register new (before ++ registration :: after)).GetDriverWithCallMsg call_msg =
          some info.driver ∧
        info.spec_msg.SameComponent registration.spec_msg) := by
  obtain ⟨info, stored, which⟩ := registeredId_leads few
  have grown : new.Grows (run register new (before ++ registration :: after)) _ :=
    numbered_new.grows_run (Nat.lt_of_le_of_lt (Nat.le_of_eq (Nat.zero_add _)) few)
  have leads : (run register new (before ++ registration :: after)).GetDriverById
      (registeredId before registration) = some info.driver := by
    rw [GetDriverById, stored]
    rfl
  refine ⟨fun unknown => ?_, fun known => ?_, fun complete call_msg call => ?_⟩
  · rcases which with ⟨-, rfl⟩ | ⟨storedBefore, present, agrees⟩
    · exact leads
    · exact absurd ⟨present, _, OrderedMap.find_eq_some_iff.mp storedBefore, agrees⟩ unknown
  · rcases which with ⟨unknown, -⟩ | ⟨storedBefore, -, agrees⟩
    · exact absurd known unknown
    · exact ⟨info, storedBefore, agrees, leads⟩
  · have same : info.spec_msg.SameComponent registration.spec_msg := by
      rcases which with ⟨-, rfl⟩ | ⟨-, -, agrees⟩
      · exact .refl _
      · exact ((HalDriverInfo.agrees_iff complete).mp agrees).1
    obtain ⟨id, found, storedThere, result, sameThere⟩ :=
      grown.numbered.call_leads stored complete same call
    refine ⟨found, ?_, ⟨id, storedThere⟩, result, sameThere⟩
    rcases grown.source id found storedThere with nowhere | listed
    · cases nowhere
    · exact listed

/-- Two drivers of one interface, for different components. -/
def twoInterfaces : List (Registration Nat) :=
  [⟨⟨some .HAL_HIDL, some .NFC, some "INfc", some 1, some 0, some "android.hardware.nfc"⟩, 1, 10⟩,
    ⟨⟨some .HAL_HIDL, some .LIGHT, some "INfc", some 1, some 0, some "android.hardware.nfc"⟩, 2, 20⟩]

def lightCall : FunctionCallMessage :=
  ⟨none, some .HAL_HIDL, some .LIGHT, some "INfc", some "android.hardware.nfc", some 1, some 0⟩

theorem registered_driver_found_pair :
    (run register new twoInterfaces).GetDriverById
        (registeredId [twoInterfaces[0]] twoInterfaces[1]) = some 20 ∧
      ∃ info ∈ twoInterfaces,
        (run register new twoInterfaces).GetDriverWithCallMsg lightCall = some info.driver := by
  obtain ⟨own, -, called⟩ := @registered_driver_found Nat [twoInterfaces[0]] [] twoInterfaces[1]
    (by decide)
  refine ⟨own ?_, ?_⟩
  · unfold Knows
    decide +kernel
  · obtain ⟨info, listed, -, found, -⟩ :=
      called ⟨rfl, by decide⟩ lightCall ⟨rfl, rfl, rfl, rfl, rfl, rfl⟩
    exact ⟨info, listed, found⟩

/-- The call for the second component is given the driver of the first one. -/
theorem registered_driver_found_mistyped :
    (∃ registration ∈ twoInterfaces, lightCall.For registration.spec_msg ∧
      lightCall.component_type = registration.spec_msg.component_type) ∧
    ¬ ∃ info ∈ twoInterfaces,
      (run register new twoInterfaces).GetDriverWithCallMsg lightCall = some info.driver ∧
      info.spec_msg.component_type = lightCall.component_type := by
  refine ⟨⟨twoInterfaces[1], getElem_mem _, ⟨rfl, rfl, rfl, rfl, rfl, rfl⟩, rfl⟩, ?_⟩
  decide +kernel

end

end VtsHalDriverManager

end Vts.Hal
