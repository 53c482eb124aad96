import Vts.Hal.DriverManager

/-!
# Loading drivers for service instances

`LoadTargetComponent` of `drivers/hal/common/driver_manager/VtsHalDriverManager.cpp`, with
`FindComponentSpecification` of `drivers/hal/common/component_loader/HalDriverLoader.cpp`. What the
directories of specification files hold is a parameter, and so is which drivers can be loaded. A
loaded driver is known by what it was created for.

A loaded driver is registered with the pointer 0, and the name of its service is not part of the
specification. Proved here: with fewer than `2 ^ 32` loads, every load gets a driver for its own
service exactly when the loads of one component all name one service.
-/

namespace Vts.Hal

open Vts.Lib List

/-- What a driver was created for: the arguments of `GetDriver`. -/
structure LoadedDriver where
  driver_lib_path : String
  spec_msg : ComponentSpecificationMessage
  hw_binder_service_name : String
  interface_pt : UInt64
  with_interface_pointer : Bool
  dll_file_name : String
deriving DecidableEq

/-- The arguments of a call of `LoadTargetComponent`. -/
structure Load where
  dll_file_name : String
  spec_lib_file_path : String
  component_class : ComponentClass
  component_type : ComponentType
  version_major : Int
  version_minor : Int
  package_name : String
  component_name : String
  hw_binder_service_name : String
deriving DecidableEq

/-- The loader and the device: the regular files with the extension of specifications in a
directory, in the order of `readdir` and each with what it is parsed to, and the drivers that can
be loaded. -/
structure HalDriverLoader where
  dir_path_ : String
  readdir : String → Option (List (Option ComponentSpecificationMessage))
  loadable : LoadedDriver → Bool

def GetVersionString (version_major version_minor : Int) ( for_macro : Bool) : String :=
  (if for_macro then "V" else "") ++ toString version_major ++ (if for_macro then "_" else ".") ++
    toString version_minor

def GetHidlHalDriverLibName (package_name : String) (version_major version_minor : Int) : String :=
  package_name ++ "@" ++ GetVersionString version_major version_minor false ++ "-vts.driver.so"

/-- The checks of `FindComponentSpecification` on a file that was parsed. -/
def ComponentSpecificationMessage.wanted (spec_msg : ComponentSpecificationMessage)
    (component_class : ComponentClass) (package_name : String) (version_major version_minor : Int)
    (component_name : String) (component_type : ComponentType) : Bool :=
  if spec_msg.getClass ≠ component_class then false
  else if spec_msg.getClass ≠ .HAL_HIDL then
    if spec_msg.getType ≠ component_type ∨ spec_msg.getMajor ≠ version_major ∨
        spec_msg.getMinor ≠ version_minor then false
    else true
  else if spec_msg.getPackage ≠ package_name ∨ spec_msg.getMajor ≠ version_major ∨
      spec_msg.getMinor ≠ version_minor then false
  else if component_name ≠ "" ∧ spec_msg.getName ≠ component_name then false
  else true

namespace HalDriverLoader

variable (loader : HalDriverLoader)

/-- The directory of the specifications of a package. -/
def driver_lib_dir (package_name : String) (version_major version_minor : Int) : String :=
  (if loader.dir_path_.toList.getLast? = some '/' then loader.dir_path_
    else loader.dir_path_ ++ "/") ++
  String.ofList (package_name.toList.map fun c => if c = '.' then '/' else c) ++ "/" ++
  GetVersionString version_major version_minor false

def FindComponentSpecification (component_class : ComponentClass) (package_name : String)
    (version_major version_minor : Int) (component_name : String)
    (component_type : ComponentType) : Option ComponentSpecificationMessage :=
  (loader.readdir (loader.driver_lib_dir package_name version_major version_minor)).bind fun files =>
    (files.filterMap id).find? fun spec_msg => spec_msg.wanted component_class package_name
      version_major version_minor component_name component_type

/-- The driver for a specification, `none` for `nullptr`. -/
def GetDriver (driver_lib_path : String) (spec_msg : ComponentSpecificationMessage)
    (hw_binder_service_name : String) (interface_pt : UInt64) (with_interface_pointer : Bool)
    (dll_file_name : String) : Option LoadedDriver :=
  let driver := ⟨driver_lib_path, spec_msg, hw_binder_service_name, interface_pt,
    with_interface_pointer, dll_file_name⟩
  if loader.loadable driver then some driver else none

/-- The specification that a load finds. -/
def specification (load : Load) : Option ComponentSpecificationMessage :=
  loader.FindComponentSpecification load.component_class load.package_name load.version_major
    load.version_minor load.component_name load.component_type

end HalDriverLoader

/-- The library of the driver. -/
def Load.driver_lib_path (load : Load) : String :=
  if load.component_class = .HAL_HIDL then
    GetHidlHalDriverLibName load.package_name load.version_major load.version_minor
  else load.spec_lib_file_path

/-- The returned id, and the manager afterwards. -/
def VtsHalDriverManager.LoadTargetComponent (manager : VtsHalDriverManager LoadedDriver)
    (loader : HalDriverLoader) (load : Load) : Int × VtsHalDriverManager LoadedDriver :=
  match loader.specification load with
  | none => (kInvalidDriverId, manager)
  | some spec_message =>
    match loader.GetDriver load.driver_lib_path spec_message load.hw_binder_service_name 0 false
        load.dll_file_name with
    | none => (kInvalidDriverId, manager)
    | some hal_driver => manager.RegisterDriver hal_driver spec_message 0

/-- The driver that a load creates for a specification. -/
def Load.created (load : Load) (spec_msg : ComponentSpecificationMessage) : LoadedDriver :=
  ⟨load.driver_lib_path, spec_msg, load.hw_binder_service_name, 0, false, load.dll_file_name⟩

/-- What a load registers for a specification. -/
def Load.registration (load : Load) (spec_msg : ComponentSpecificationMessage) :
    Registration LoadedDriver :=
  ⟨spec_msg, 0, load.created spec_msg⟩

/-- A load of a HIDL HAL for which the specification is found and the driver can be loaded. -/
def Load.Succeeds (loader : HalDriverLoader) (load : Load) : Prop :=
  load.component_class = .HAL_HIDL ∧
    ∃ spec_msg, loader.specification load = some spec_msg ∧
      (loader.GetDriver load.driver_lib_path spec_msg load.hw_binder_service_name 0 false
        load.dll_file_name).isSome

/-- A driver was created for the service of a load, and for its package, version and component. -/
structure LoadedDriver.CreatedFor (driver : LoadedDriver) (loader : HalDriverLoader) (load : Load) :
    Prop where
  service : driver.hw_binder_service_name = load.hw_binder_service_name
  package : driver.spec_msg.getPackage = load.package_name
  major : driver.spec_msg.getMajor = load.version_major
  minor : driver.spec_msg.getMinor = load.version_minor
  component : load.component_name ≠ "" → driver.spec_msg.getName = load.component_name
  found : ∃ spec_msg, loader.specification load = some spec_msg ∧
    driver.spec_msg.SameComponent spec_msg

/-- Two loads that differ in the service and in nothing else. -/
def Load.OtherService (first second : Load) : Prop :=
  first.hw_binder_service_name ≠ second.hw_binder_service_name ∧
    { first with hw_binder_service_name := second.hw_binder_service_name } = second

/-- The manager, and the loads so far with their ids. -/
structure Session where
  manager : VtsHalDriverManager LoadedDriver
  results : List (Load × Int)

namespace Session

def new : Session := ⟨.new, []⟩

def load (loader : HalDriverLoader) (session : Session) (load : Load) : Session :=
  let (id, manager) := session.manager.LoadTargetComponent loader load
  ⟨manager, (load, id) :: session.results⟩

/-- Every id leads to a driver for the service of its load, and another service has another id. -/
structure EachOwn (loader : HalDriverLoader) (session : Session) : Prop where
  own : ∀ result ∈ session.results, ∃ driver,
    session.manager.GetDriverById result.2 = some driver ∧ driver.CreatedFor loader result.1
  apart : ∀ first ∈ session.results, ∀ second ∈ session.results,
    first.1.OtherService second.1 → first.2 ≠ second.2

end Session

/-- Loads whose specifications are of one component, with all that is needed to find it again,
name one service. -/
def HalDriverLoader.OneService (loader : HalDriverLoader) (loads : List Load) : Prop :=
  ∀ first ∈ loads, ∀ second ∈ loads, ∀ spec_msg found,
    loader.specification first = some spec_msg → loader.specification second = some found →
    spec_msg.Complete → found.SameComponent spec_msg →
    first.hw_binder_service_name = second.hw_binder_service_name

theorem HalDriverLoader.specification_spec {loader : HalDriverLoader} {load : Load}
    {spec_msg : ComponentSpecificationMessage} (hidl : load.component_class = .HAL_HIDL)
    (found : loader.specification load = some spec_msg) :
    spec_msg.component_class = some .HAL_HIDL ∧ spec_msg.getPackage = load.package_name ∧
      spec_msg.getMajor = load.version_major ∧ spec_msg.getMinor = load.version_minor ∧
      (load.component_name ≠ "" → spec_msg.getName = load.component_name) := by
  rw [specification, FindComponentSpecification, Option.bind_eq_some_iff] at found
  obtain ⟨files, -, first⟩ := found
  have wanted := List.find?_some first
  simp only [ComponentSpecificationMessage.wanted, hidl] at wanted
  split at wanted
  · cases wanted
  · rename_i classes
    rw [not_not] at classes
    split at wanted
    · cases wanted
    · rename_i fields
      split at wanted
      · cases wanted
      · rename_i names
        rw [not_or, not_or, not_not, not_not, not_not] at fields
        refine ⟨(getD_eq_iff (by decide)).mp classes, fields.1, fields.2.1, fields.2.2, ?_⟩
        intro named
        by_contra other
        exact names ⟨named, other⟩

theorem ComponentSpecificationMessage.SameComponent.getters
    {first second : ComponentSpecificationMessage} (same : first.SameComponent second) :
    first.getPackage = second.getPackage ∧ first.getMajor = second.getMajor ∧
      first.getMinor = second.getMinor ∧ first.getName = second.getName := by
  unfold getPackage getMajor getMinor getName
  rw [same.package, same.major, same.minor, same.component_name]
  exact ⟨rfl, rfl, rfl, rfl⟩

/-- A load that succeeds registers the driver that it creates. -/
theorem Load.Succeeds.registers {loader : HalDriverLoader} {load : Load}
    (succeeds : load.Succeeds loader) (manager : VtsHalDriverManager LoadedDriver) :
    ∃ spec_msg, loader.specification load = some spec_msg ∧
      manager.LoadTargetComponent loader load =
        manager.RegisterDriver (load.registration spec_msg).driver
          (load.registration spec_msg).spec_msg
          (load.registration spec_msg).hidl_hal_proxy_pt := by
  obtain ⟨-, spec_msg, found, loaded⟩ := succeeds
  refine ⟨spec_msg, found, ?_⟩
  have driver : loader.GetDriver load.driver_lib_path spec_msg load.hw_binder_service_name 0 false
      load.dll_file_name = some (load.created spec_msg) := by
    rw [HalDriverLoader.GetDriver] at loaded ⊢
    split at loaded
    · rename_i loadable
      exact if_pos loadable
    · cases loaded
  rw [VtsHalDriverManager.LoadTargetComponent, found]
  dsimp only
  rw [driver]
  rfl

namespace Session

/-- The map and the results after loads: a driver comes from a load, an id leads to a driver for the
component of its load, which is the one this load created when the component cannot be found again,
and a component that can be found again is there once. -/
structure Consistent (loader : HalDriverLoader) (session : Session) : Prop where
  numbered : session.manager.Numbered
  size : session.manager.hal_driver_map_.size ≤ session.results.length
  source : ∀ id info, session.manager.hal_driver_map_.find id = some info →
    ∃ result ∈ session.results, loader.specification result.1 = some info.spec_msg ∧
      info = result.1.registration info.spec_msg
  leads : ∀ result ∈ session.results, ∃ spec_msg info,
    loader.specification result.1 = some spec_msg ∧
      session.manager.hal_driver_map_.find result.2 = some info ∧
      info.spec_msg.SameComponent spec_msg ∧
      (info = result.1.registration spec_msg ∨ spec_msg.Complete)
  once : ∀ id info other found, session.manager.hal_driver_map_.find id = some info →
    session.manager.hal_driver_map_.find other = some found → info.spec_msg.Complete →
    found.spec_msg.SameComponent info.spec_msg → id = other

theorem consistent_new (loader : HalDriverLoader) : Session.new.Consistent loader where
  numbered := VtsHalDriverManager.numbered_new
  size := Nat.le_refl _
  source _ _ found := nomatch found
  leads _ listed := nomatch listed
  once _ _ _ _ found := nomatch found

/-- A load that finds its component keeps the map. -/
theorem Consistent.found {loader : HalDriverLoader} {session : Session}
    (consistent : session.Consistent loader) {load : Load} {id : Int}
    {spec_msg : ComponentSpecificationMessage} {info : HalDriverInfo LoadedDriver}
    (known : loader.specification load = some spec_msg) (complete : spec_msg.Complete)
    (stored : session.manager.hal_driver_map_.find id = some info)
    (same : info.spec_msg.SameComponent spec_msg) :
    Consistent loader ⟨session.manager, (load, id) :: session.results⟩ where
  numbered := consistent.numbered
  size := Nat.le_succ_of_le consistent.size
  source id info found := by
    obtain ⟨result, listed, rest⟩ := consistent.source id info found
    exact ⟨result, mem_cons_of_mem _ listed, rest⟩
  leads result listed := by
    rcases mem_cons.mp listed with rfl | earlier
    · exact ⟨spec_msg, info, known, stored, same, .inr complete⟩
    · exact consistent.leads result earlier
  once := consistent.once

section

variable {loader : HalDriverLoader} {session : Session} {info : HalDriverInfo LoadedDriver}
  {spec_msg : ComponentSpecificationMessage} {result : Load × Int}

/-- A component that is in the map and can be found again is found. -/
theorem Consistent.knows {loader : HalDriverLoader} (consistent : session.Consistent loader)
    {id : Int} (stored : session.manager.hal_driver_map_.find id = some info)
    (complete : spec_msg.Complete) (same : info.spec_msg.SameComponent spec_msg) :
    session.manager.Knows spec_msg 0 true := by
  obtain ⟨result, -, -, origin⟩ := consistent.source id info stored
  refine ⟨complete.2, (id, info), OrderedMap.find_eq_some_iff.mp stored, ?_⟩
  refine (HalDriverInfo.agrees_iff complete).mpr ⟨same, fun _ => ?_⟩
  rw [origin]
  rfl

/-- A load whose component is not there adds its driver. -/
theorem Consistent.added (consistent : session.Consistent loader)
    (room : session.results.length + 1 < 2 ^ 32) {load : Load}
    (known : loader.specification load = some spec_msg)
    (unknown : ¬ session.manager.Knows spec_msg 0 true)
    (now : session.manager.register (load.registration spec_msg) =
      ⟨session.manager.hal_driver_map_.insert (toInt32 session.manager.hal_driver_map_.size)
        (load.registration spec_msg)⟩) :
    Consistent loader ⟨session.manager.register (load.registration spec_msg),
      (load, toInt32 session.manager.hal_driver_map_.size) :: session.results⟩ := by
  have size := consistent.size
  have grows := consistent.numbered.grows_register (by omega) (load.registration spec_msg)
  have split : ∀ id info, (session.manager.register
      (load.registration spec_msg)).hal_driver_map_.find id = some info →
      session.manager.hal_driver_map_.find id = some info ∨
        (id, info) = (toInt32 session.manager.hal_driver_map_.size,
          load.registration spec_msg) := by
    intro id info found
    rw [now, OrderedMap.find_eq_some_iff] at found
    exact (OrderedMap.mem_entries_insert found).imp_left OrderedMap.find_eq_some_iff.mpr
  refine ⟨grows.numbered, Nat.le_trans grows.size (Nat.succ_le_succ size), ?_, ?_, ?_⟩
  · intro id info found
    rcases split id info found with old | new
    · obtain ⟨result, listed, rest⟩ := consistent.source id info old
      exact ⟨result, mem_cons_of_mem _ listed, rest⟩
    · cases new
      exact ⟨_, mem_cons_self, known, rfl⟩
  · intro result listed
    rcases mem_cons.mp listed with rfl | earlier
    · refine ⟨spec_msg, load.registration spec_msg, known, ?_, .refl _, .inl rfl⟩
      rw [now]
      exact OrderedMap.find_insert_self consistent.numbered.next_not_mem
    · obtain ⟨found, info, knownThen, stored, rest⟩ := consistent.leads result earlier
      exact ⟨found, info, knownThen, grows.kept _ _ stored, rest⟩
  · intro id info other found here there complete same
    rcases split id info here with old | new <;> rcases split other found there with old' | new'
    · exact consistent.once id info other found old old' complete same
    · cases new'
      exact absurd (consistent.knows old (complete.of_same same) same.symm) unknown
    · cases new
      exact absurd (consistent.knows old' complete same) unknown
    · cases new
      cases new'
      rfl

/-- A load keeps what holds of the map and the results. -/
theorem Consistent.load {loader : HalDriverLoader} {session : Session}
    (consistent : session.Consistent loader) (room : session.results.length + 1 < 2 ^ 32)
    {load : Load} (succeeds : load.Succeeds loader) :
    (session.load loader load).Consistent loader := by
  obtain ⟨spec_msg, known, registers⟩ := succeeds.registers session.manager
  have hidl := (HalDriverLoader.specification_spec succeeds.1 known).1
  rw [Session.load, registers]
  rcases consistent.numbered.register_cases (load.registration spec_msg) with
    ⟨id, info, found, stored, present, agrees⟩ | ⟨unknown, inserted⟩
  · have complete : spec_msg.Complete := ⟨hidl, present⟩
    rw [found]
    exact consistent.found known complete stored ((HalDriverInfo.agrees_iff complete).mp agrees).1
  · have added := consistent.added room known unknown (congrArg Prod.snd inserted)
    rw [VtsHalDriverManager.register, inserted] at added
    rw [inserted]
    exact added

theorem results_load (loader : HalDriverLoader) (session : Session) (load : Load) :
    (session.load loader load).results.map Prod.fst = load :: session.results.map Prod.fst := rfl

/-- What holds of the map and the results after any number of loads. -/
theorem Consistent.run {loader : HalDriverLoader} {session : Session}
    (consistent : session.Consistent loader) {loads : List Load}
    (room : session.results.length + loads.length < 2 ^ 32)
    (succeed : ∀ load ∈ loads, load.Succeeds loader) :
    (run (Session.load loader) session loads).Consistent loader ∧
      (run (Session.load loader) session loads).results.map Prod.fst =
        loads.reverse ++ session.results.map Prod.fst := by
  induction loads generalizing session with
  | nil => exact ⟨consistent, rfl⟩
  | cons load loads ih =>
    rw [length_cons] at room
    have length : (session.load loader load).results.length = session.results.length + 1 := rfl
    have first := consistent.load (by omega) (succeed load mem_cons_self)
    obtain ⟨after, results⟩ := ih first (by omega)
      fun other listed => succeed other (mem_cons_of_mem _ listed)
    refine ⟨after, ?_⟩
    rw [run_cons, results, results_load, reverse_cons, append_assoc]
    rfl

/-- Two loads of one component that can be found again have one id. -/
theorem Consistent.same_id (consistent : session.Consistent loader) {first second : Load × Int}
    (listed : first ∈ session.results) (listedToo : second ∈ session.results)
    {found : ComponentSpecificationMessage} (known : loader.specification first.1 = some spec_msg)
    (knownToo : loader.specification second.1 = some found) (complete : spec_msg.Complete)
    (same : found.SameComponent spec_msg) : first.2 = second.2 := by
  obtain ⟨spec, info, spec_eq, stored, infoSame, -⟩ := consistent.leads first listed
  obtain ⟨specToo, infoToo, specToo_eq, storedToo, infoTooSame, -⟩ :=
    consistent.leads second listedToo
  cases known.symm.trans spec_eq
  cases knownToo.symm.trans specToo_eq
  exact consistent.once _ info _ infoToo stored storedToo (complete.of_same infoSame)
    ((infoTooSame.trans same).trans infoSame.symm)

/-- The driver of an id was created for the component of its load. -/
theorem Consistent.createdFor (consistent : session.Consistent loader)
    (listed : result ∈ session.results) (succeeds : result.1.Succeeds loader)
    (stored : session.manager.hal_driver_map_.find result.2 = some info)
    (service : info.driver.hw_binder_service_name = result.1.hw_binder_service_name) :
    info.driver.CreatedFor loader result.1 := by
  obtain ⟨spec_msg, found, known, storedThere, same, -⟩ := consistent.leads result listed
  cases storedThere.symm.trans stored
  obtain ⟨-, package, major, minor, component⟩ :=
    HalDriverLoader.specification_spec succeeds.1 known
  obtain ⟨packages, majors, minors, names⟩ := same.getters
  obtain ⟨_, -, -, origin⟩ := consistent.source _ info stored
  have spec : info.driver.spec_msg = info.spec_msg := by
    rw [origin]
    rfl
  rw [← spec] at packages majors minors names same
  exact ⟨service, packages.trans package, majors.trans major, minors.trans minor,
    fun named => names.trans (component named), spec_msg, known, same⟩

/-- With one service for each component, the driver of an id is for the service of its load. -/
theorem Consistent.service (consistent : session.Consistent loader)
    (one : loader.OneService (session.results.map Prod.fst)) (listed : result ∈ session.results)
    (stored : session.manager.hal_driver_map_.find result.2 = some info) :
    info.driver.hw_binder_service_name = result.1.hw_binder_service_name := by
  obtain ⟨spec_msg, found, known, storedThere, same, own | complete⟩ :=
    consistent.leads result listed
  · cases storedThere.symm.trans stored
    rw [own]
    rfl
  · cases storedThere.symm.trans stored
    obtain ⟨creator, created, knownThen, origin⟩ := consistent.source _ info stored
    have services := one result.1 (mem_map_of_mem listed) creator.1
      (mem_map_of_mem created) spec_msg info.spec_msg known knownThen complete same
    rw [services, origin]
    rfl

end

end Session

/-- With fewer than `2 ^ 32` loads, every load of a HIDL HAL gets the id of a driver for its own
service, and another id for another service, exactly when the loads of one component name one
service. -/
theorem loads_get_own_drivers_iff {loader : HalDriverLoader} {loads : List Load}
    (few : loads.length < 2 ^ 32) (succeed : ∀ load ∈ loads, load.Succeeds loader) :
    (run (Session.load loader) .new loads).EachOwn loader ↔ loader.OneService loads := by
  obtain ⟨consistent, results⟩ := (Session.consistent_new loader).run
    (Nat.lt_of_le_of_lt (Nat.le_of_eq (Nat.zero_add _)) few) succeed
  have listed : ∀ load, load ∈ loads ↔
      ∃ id, (load, id) ∈ (run (Session.load loader) .new loads).results := by
    intro load
    have member : load ∈ (run (Session.load loader) .new loads).results.map Prod.fst ↔
        load ∈ loads := by
      rw [results]
      simp [Session.new]
    rw [← member]
    simp
  constructor
  · rintro ⟨own, -⟩ first here second there spec_msg found known knownToo complete same
    obtain ⟨id, inside⟩ := (listed first).mp here
    obtain ⟨other, insideToo⟩ := (listed second).mp there
    have sameId : id = other := consistent.same_id inside insideToo known knownToo complete same
    obtain ⟨driver, leads, created⟩ := own _ inside
    obtain ⟨driverToo, leadsToo, createdToo⟩ := own _ insideToo
    rw [← sameId, leads] at leadsToo
    cases leadsToo
    exact created.service.symm.trans createdToo.service
  · intro one
    have oneThere : loader.OneService
        ((run (Session.load loader) .new loads).results.map Prod.fst) := by
      intro first here second there
      obtain ⟨⟨_, id⟩, inside, rfl⟩ := mem_map.mp here
      obtain ⟨⟨_, other⟩, insideToo, rfl⟩ := mem_map.mp there
      exact one _ ((listed _).mpr ⟨id, inside⟩) _ ((listed _).mpr ⟨other, insideToo⟩)
    have own : ∀ result ∈ (run (Session.load loader) .new loads).results, ∃ driver,
        (run (Session.load loader) .new loads).manager.GetDriverById result.2 = some driver ∧
          driver.CreatedFor loader result.1 := by
      intro result inside
      obtain ⟨spec_msg, info, -, stored, -⟩ := consistent.leads result inside
      refine ⟨info.driver, ?_, ?_⟩
      · rw [VtsHalDriverManager.GetDriverById, stored]
        rfl
      · exact consistent.createdFor inside (succeed _ ((listed _).mpr ⟨_, inside⟩)) stored
          (consistent.service oneThere inside stored)
    refine ⟨own, ?_⟩
    intro first inside second insideToo other sameId
    obtain ⟨driver, leads, created⟩ := own _ inside
    obtain ⟨driverToo, leadsToo, createdToo⟩ := own _ insideToo
    rw [← sameId, leads] at leadsToo
    cases leadsToo
    exact other.1 (created.service.symm.trans createdToo.service)

/-- A device with one specification, all of whose drivers can be loaded. -/
def nfcLoader : HalDriverLoader where
  dir_path_ := "/data/local/tmp/spec"
  readdir path :=
    if path = "/data/local/tmp/spec/android/hardware/nfc/1.0" then
      some [some ⟨some .HAL_HIDL, none, some "INfc", some 1, some 0, some "android.hardware.nfc"⟩]
    else none
  loadable _ := true

/-- The load of the interface of this specification for a service. -/
def nfcLoad (hw_binder_service_name : String) : Load where
  dll_file_name := ""
  spec_lib_file_path := ""
  component_class := .HAL_HIDL
  component_type := .UNKNOWN_TYPE
  version_major := 1
  version_minor := 0
  package_name := "android.hardware.nfc"
  component_name := "INfc"
  hw_binder_service_name := hw_binder_service_name

theorem nfcLoad_succeeds (service : String) : (nfcLoad service).Succeeds nfcLoader := by
  have found : nfcLoader.specification (nfcLoad "") = some
      ⟨some .HAL_HIDL, none, some "INfc", some 1, some 0, some "android.hardware.nfc"⟩ := by
    decide +kernel
  exact ⟨rfl, _, found, rfl⟩

theorem loads_get_own_drivers_repeated :
    (run (Session.load nfcLoader) .new [nfcLoad "a", nfcLoad "a"]).EachOwn nfcLoader := by
  refine (loads_get_own_drivers_iff (by decide) ?_).mpr ?_
  · simp [nfcLoad_succeeds]
  · intro first here second there _ _ _ _ _ _
    simp only [mem_cons, not_mem_nil, or_false, or_self] at here there
    rw [here, there]

/-- The second service of an interface is given the driver of the first one. -/
theorem loads_get_own_drivers_shared :
    (∀ load ∈ [nfcLoad "a", nfcLoad "b"], load.Succeeds nfcLoader) ∧
      ¬ (run (Session.load nfcLoader) .new [nfcLoad "a", nfcLoad "b"]).EachOwn nfcLoader := by
  refine ⟨by simp [nfcLoad_succeeds], fun each => ?_⟩
  have ids : (run (Session.load nfcLoader) .new [nfcLoad "a", nfcLoad "b"]).results =
      [(nfcLoad "b", 0), (nfcLoad "a", 0)] := by
    decide +kernel
  refine each.apart (nfcLoad "a", 0) ?_ (nfcLoad "b", 0) ?_ ⟨by decide, rfl⟩ rfl
  · rw [ids]
    exact mem_cons_of_mem _ mem_cons_self
  · rw [ids]
    exact mem_cons_self

end Vts.Hal
