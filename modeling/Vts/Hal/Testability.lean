import Mathlib.Data.Finset.Lattice.Fold
import Vts.Lib.Separators

/-!
# Testability of a package and of its interfaces

`CheckHalForComplianceTest` and `CheckHalForNonComplianceTest` of
`utils/native/testability_checker/VtsTestabilityChecker.cpp`. Without an interface name the
registered services are searched for texts that begin with `package@version`. The manifests, the
service manager and the names that libvintf writes are parameters.

Proved here: for a compliance test a package is testable exactly when one of its interfaces is. For
a non-compliance test this fails exactly when nothing of the package is there in that version, and a
service of another version, whose number goes on with further digits, is registered.
-/

namespace Vts.Hal.Testability

open Vts.Lib List

abbrev Text := List Char

/-! ## Manifests and services -/

inductive Arch where
  | ARCH_EMPTY
  | ARCH_32
  | ARCH_64
  | ARCH_32_64
deriving DecidableEq

inductive Transport where
  | EMPTY
  | HWBINDER
  | PASSTHROUGH
deriving DecidableEq

@[ext]
structure Version where
  majorVer : Nat
  minorVer : Nat
deriving DecidableEq

structure ManifestInstance where
  transport : Transport
  arch : Arch
  name : Text
deriving DecidableEq

abbrev HalManifest := Text → Version → Text → List ManifestInstance

/-- `IServiceManager`: no answer when the call has failed. -/
structure ServiceManager where
  list : Option (List Text)
  listByInterface : Text → Option (List Text)

/-- What the checker is made of, and the functions of libvintf it calls. -/
structure Checker where
  framework_hal_manifest : HalManifest
  device_hal_manifest : HalManifest
  sm : ServiceManager
  has32 : Arch → Bool
  has64 : Arch → Bool
  toFQNameString : Text → Version → Text → Text

/-! ## The checks -/

variable (checker : Checker)

def CheckPassthroughManifestArch (manifest_arch arch : Arch) : Bool :=
  match arch with
  | .ARCH_32 => checker.has32 manifest_arch
  | .ARCH_64 => checker.has64 manifest_arch
  | _ => false

/-- The instance can be tested on the architecture. -/
def supports (arch : Arch) (manifest_instance : ManifestInstance) : Bool :=
  !(manifest_instance.transport = .PASSTHROUGH &&
    !CheckPassthroughManifestArch checker manifest_instance.arch arch)

/-- One turn of the loop over the instances. -/
def checkInstance (hal_interface_name : Text) (arch : Arch) (found : Bool × Finset Text)
    (manifest_instance : ManifestInstance) : Bool × Finset Text :=
  if supports checker arch manifest_instance then
    (true, if hal_interface_name = [] then found.2 else insert manifest_instance.name found.2)
  else found

/-- That there is no instance at all is only logged. -/
def CheckManifestHal (hal_manifest : HalManifest) (hal_package_name : Text)
    (hal_version : Version) (hal_interface_name : Text) (arch : Arch) : Bool × Finset Text :=
  (hal_manifest hal_package_name hal_version hal_interface_name).foldl
    (checkInstance checker hal_interface_name arch) (false, ∅)

def CheckFrameworkManifestHal := CheckManifestHal checker checker.framework_hal_manifest

def CheckVendorManifestHal := CheckManifestHal checker checker.device_hal_manifest

/-- `service.find(fqName) == 0`: the text begins with the name. -/
def CheckTestHalWithHwManager (hal_package_name : Text) (hal_version : Version)
    (hal_interface_name : Text) : Bool × Finset Text :=
  let fqName := checker.toFQNameString hal_package_name hal_version hal_interface_name
  if hal_interface_name ≠ [] then
    match checker.sm.listByInterface fqName with
    | some registered_instances => (!registered_instances.isEmpty, registered_instances.toFinset)
    | none => (false, ∅)
  else
    match checker.sm.list with
    | some services => (services.any fqName.isPrefixOf, ∅)
    | none => (false, ∅)

/-- The verdict, and the instances that are added to those of the caller. -/
def CheckHalForComplianceTest (hal_package_name : Text) (hal_version : Version)
    (hal_interface_name : Text) (arch : Arch) (instances : Finset Text) : Bool × Finset Text :=
  let framework :=
    CheckFrameworkManifestHal checker hal_package_name hal_version hal_interface_name arch
  let vendor := CheckVendorManifestHal checker hal_package_name hal_version hal_interface_name arch
  (framework.1 || vendor.1, instances ∪ (framework.2 ∪ vendor.2))

def CheckHalForNonComplianceTest (hal_package_name : Text) (hal_version : Version)
    (hal_interface_name : Text) (arch : Arch) (instances : Finset Text) : Bool × Finset Text :=
  let vendor := CheckVendorManifestHal checker hal_package_name hal_version hal_interface_name arch
  let test := CheckTestHalWithHwManager checker hal_package_name hal_version hal_interface_name
  (vendor.1 || test.1, instances ∪ (vendor.2 ∪ test.2))

/-! ## What libvintf and the service manager do -/

def Version.text (version : Version) : Text :=
  Nat.toDigits 10 version.majorVer ++ '.' :: Nat.toDigits 10 version.minorVer

/-- `package@version` -/
def packageText (package : Text) (version : Version) : Text :=
  package ++ '@' :: version.text

/-- `package@version::interface` -/
def interfaceText (package : Text) (version : Version) (interface : Text) : Text :=
  packageText package version ++ ':' :: ':' :: interface

/-- A registered service. -/
structure Service where
  package : Text
  version : Version
  interface : Text
  name : Text
  interface_ne : interface ≠ []

def Service.fqName (service : Service) : Text :=
  interfaceText service.package service.version service.interface

def Service.text (service : Service) : Text :=
  service.fqName ++ '/' :: service.name

/-- Without an interface name, the instances of all interfaces are listed. -/
def ListsAll (hal_manifest : HalManifest) : Prop :=
  ∀ package version, ∀ manifest_instance : ManifestInstance,
    manifest_instance ∈ hal_manifest package version [] ↔
      ∃ interface ≠ [], manifest_instance ∈ hal_manifest package version interface

/-- What is relied on: the manifests list all instances, names are written as they should be, and
the service manager answers for these services. -/
structure Documented (services : List Service) : Prop where
  framework : ListsAll checker.framework_hal_manifest
  device : ListsAll checker.device_hal_manifest
  packageName : ∀ package version,
    checker.toFQNameString package version [] = packageText package version
  interfaceName : ∀ package version, ∀ interface ≠ [],
    checker.toFQNameString package version interface = interfaceText package version interface
  list : ∃ texts, checker.sm.list = some texts ∧
    ∀ text, text ∈ texts ↔ ∃ service ∈ services, service.text = text
  listByInterface : ∀ fqName, ∃ names, checker.sm.listByInterface fqName = some names ∧
    ∀ name, name ∈ names ↔ ∃ service ∈ services, service.fqName = fqName ∧ service.name = name

/-! ## Names and versions -/

/-- A registered service offers an interface of the package in the version. -/
def Offers (package : Text) (version : Version) (service : Service) : Prop :=
  ∃ interface ≠ [], service.fqName = interfaceText package version interface

theorem Offers.begins {package : Text} {version : Version} {service : Service}
    (offers : Offers package version service) : packageText package version <+: service.text := by
  obtain ⟨interface, _, same⟩ := offers
  rw [Service.text, same, interfaceText, append_assoc]
  exact prefix_append _ _

theorem offers_iff {package : Text} (plain : '@' ∉ package) (version : Version) {service : Service}
    (servicePlain : '@' ∉ service.package) :
    Offers package version service ↔ service.package = package ∧ service.version = version := by
  have point (number : Nat) : '.' ∉ Nat.toDigits 10 number := not_mem_digits (by decide)
  have colon (number : Nat) : ':' ∉ Nat.toDigits 10 number := not_mem_digits (by decide)
  constructor
  · rintro ⟨interface, _, same⟩
    simp only [Service.fqName, interfaceText, packageText, Version.text, append_assoc,
      cons_append] at same
    obtain ⟨samePackage, versions⟩ := (split_first_iff servicePlain plain).mp same
    obtain ⟨major, minors⟩ := (split_first_iff (point _) (point _)).mp versions
    obtain ⟨minor, _⟩ := (split_first_iff (colon _) (colon _)).mp minors
    rw [digits_inj] at major minor
    exact ⟨samePackage, Version.ext major minor⟩
  · rintro ⟨rfl, rfl⟩
    exact ⟨service.interface, service.interface_ne, rfl⟩

/-! ## One check -/

section

variable (hal_interface_name : Text) (arch : Arch)

theorem checkInstance_supports (found : Bool × Finset Text) (manifest_instance : ManifestInstance) :
    (checkInstance checker hal_interface_name arch found manifest_instance).1 =
      (found.1 || supports checker arch manifest_instance) := by
  unfold checkInstance
  split
  · next supported => rw [supported, Bool.or_true]
  · next unsupported => rw [eq_false_of_ne_true unsupported, Bool.or_false]

theorem foldl_checkInstance_supports (manifest_instances : List ManifestInstance) :
    ∀ found : Bool × Finset Text,
      (manifest_instances.foldl (checkInstance checker hal_interface_name arch) found).1 =
        (found.1 || manifest_instances.any (supports checker arch)) := by
  induction manifest_instances with
  | nil => simp
  | cons manifest_instance others ih =>
    intro found
    rw [foldl_cons, ih, checkInstance_supports, any_cons, Bool.or_assoc]

/-- A manifest has an instance that can be tested. -/
theorem CheckManifestHal_iff (hal_manifest : HalManifest) (package : Text) (version : Version) :
    (CheckManifestHal checker hal_manifest package version hal_interface_name arch).1 = true ↔
      ∃ manifest_instance ∈ hal_manifest package version hal_interface_name,
        supports checker arch manifest_instance = true := by
  rw [CheckManifestHal, foldl_checkInstance_supports, Bool.false_or, any_eq_true]

end

/-- The manifests are searched alike with and without an interface. -/
theorem CheckManifestHal_package {hal_manifest : HalManifest} (all : ListsAll hal_manifest)
    (package : Text) (version : Version) (arch : Arch) :
    (CheckManifestHal checker hal_manifest package version [] arch).1 = true ↔
      ∃ interface ≠ [],
        (CheckManifestHal checker hal_manifest package version interface arch).1 = true := by
  simp only [CheckManifestHal_iff, all package version]
  constructor
  · rintro ⟨manifest_instance, ⟨interface, named, listed⟩, supported⟩
    exact ⟨interface, named, manifest_instance, listed, supported⟩
  · rintro ⟨interface, named, manifest_instance, listed, supported⟩
    exact ⟨manifest_instance, ⟨interface, named, listed⟩, supported⟩

section

variable {checker} {services : List Service} (documented : Documented checker services)
include documented

theorem CheckTestHalWithHwManager_package (package : Text) (version : Version) :
    (CheckTestHalWithHwManager checker package version []).1 = true ↔
      ∃ service ∈ services, packageText package version <+: service.text := by
  obtain ⟨texts, list, mem⟩ := documented.list
  simp only [CheckTestHalWithHwManager, ne_eq, not_true_eq_false, if_false, list,
    documented.packageName, any_eq_true, isPrefixOf_iff_prefix, mem]
  constructor
  · rintro ⟨_, ⟨service, registered, rfl⟩, begins⟩
    exact ⟨service, registered, begins⟩
  · rintro ⟨service, registered, begins⟩
    exact ⟨service.text, ⟨service, registered, rfl⟩, begins⟩

theorem CheckTestHalWithHwManager_interface (package : Text) (version : Version)
    {interface : Text} (named : interface ≠ []) :
    (CheckTestHalWithHwManager checker package version interface).1 = true ↔
      ∃ service ∈ services, service.fqName = interfaceText package version interface := by
  obtain ⟨names, list, mem⟩ :=
    documented.listByInterface (interfaceText package version interface)
  simp only [CheckTestHalWithHwManager, named, ne_eq, not_false_eq_true, if_true,
    documented.interfaceName package version interface named, list, Bool.not_eq_true',
    isEmpty_eq_false_iff_exists_mem, mem]
  constructor
  · rintro ⟨_, service, registered, same, _⟩
    exact ⟨service, registered, same⟩
  · rintro ⟨service, registered, same⟩
    exact ⟨service.name, service, registered, same, rfl⟩

end

/-! ## A package and its interfaces -/

/-- A test of the package is to be run exactly when one of its interfaces has a test to be run. -/
def Agrees (check : Text → Bool) : Prop :=
  check [] = true ↔ ∃ interface ≠ [], check interface = true

/-- Both checks agree, whatever instances the caller has collected. -/
def ChecksAgree (package : Text) (version : Version) (arch : Arch) : Prop :=
  ∀ instances : Finset Text,
    Agrees (fun interface =>
      (CheckHalForComplianceTest checker package version interface arch instances).1) ∧
    Agrees (fun interface =>
      (CheckHalForNonComplianceTest checker package version interface arch instances).1)

section

variable {checker} {services : List Service} (documented : Documented checker services)
  (package : Text) (version : Version) (arch : Arch) (instances : Finset Text)
include documented

/-- The service manager knows an interface of the package if a service offers one. -/
theorem CheckTestHalWithHwManager_offers :
    (∃ interface ≠ [], (CheckTestHalWithHwManager checker package version interface).1 = true) ↔
      ∃ service ∈ services, Offers package version service := by
  constructor
  · rintro ⟨interface, named, found⟩
    obtain ⟨service, listed, same⟩ :=
      (CheckTestHalWithHwManager_interface documented package version named).mp found
    exact ⟨service, listed, interface, named, same⟩
  · rintro ⟨service, listed, interface, named, same⟩
    exact ⟨interface, named,
      (CheckTestHalWithHwManager_interface documented package version named).mpr
        ⟨service, listed, same⟩⟩

theorem compliance_agrees :
    Agrees fun interface =>
      (CheckHalForComplianceTest checker package version interface arch instances).1 := by
  have framework := CheckManifestHal_package checker documented.framework package version arch
  have device := CheckManifestHal_package checker documented.device package version arch
  simp only [Agrees, CheckHalForComplianceTest, CheckFrameworkManifestHal, CheckVendorManifestHal,
    Bool.or_eq_true, framework, device, ← exists_or, ← and_or_left]

/-- The services that begin like the package, against those that offer an interface of it. -/
theorem nonCompliance_agrees_iff :
    (Agrees fun interface =>
      (CheckHalForNonComplianceTest checker package version interface arch instances).1) ↔
    ((∃ manifest_instance ∈ checker.device_hal_manifest package version [],
        supports checker arch manifest_instance = true) ∨
      (∃ service ∈ services, Offers package version service) ∨
      ∀ service ∈ services, ¬ packageText package version <+: service.text) := by
  have vendor := CheckManifestHal_iff checker [] arch checker.device_hal_manifest package version
  have device := CheckManifestHal_package checker documented.device package version arch
  have registered := CheckTestHalWithHwManager_package documented package version
  have offered := CheckTestHalWithHwManager_offers documented package version
  simp only [Agrees, CheckHalForNonComplianceTest, CheckVendorManifestHal, Bool.or_eq_true,
    and_or_left, exists_or, ← device, offered, registered, ← vendor]
  constructor
  · intro agrees
    by_cases begun : ∃ service ∈ services, packageText package version <+: service.text
    · exact (agrees.mp (Or.inr begun)).imp_right Or.inl
    · apply Or.inr
      apply Or.inr
      intro service listed begins
      exact begun ⟨service, listed, begins⟩
  · rintro (supported | ⟨service, listed, offers⟩ | none_begins)
    · exact iff_of_true (Or.inl supported) (Or.inl supported)
    · exact iff_of_true (Or.inr ⟨service, listed, offers.begins⟩)
        (Or.inr ⟨service, listed, offers⟩)
    · apply or_congr_right
      constructor
      · rintro ⟨service, listed, begins⟩
        exact absurd begins (none_begins service listed)
      · rintro ⟨service, listed, offers⟩
        exact absurd offers.begins (none_begins service listed)

end

theorem checksAgree_iff {services : List Service} (documented : Documented checker services)
    (package : Text) (version : Version) (arch : Arch) :
    ChecksAgree checker package version arch ↔
      ((∃ manifest_instance ∈ checker.device_hal_manifest package version [],
          supports checker arch manifest_instance = true) ∨
        (∃ service ∈ services, Offers package version service) ∨
        ∀ service ∈ services, ¬ packageText package version <+: service.text) := by
  have agrees := nonCompliance_agrees_iff documented package version arch
  constructor
  · intro both
    exact (agrees ∅).mp (both ∅).2
  · intro condition instances
    exact ⟨compliance_agrees documented package version arch instances,
      (agrees instances).mpr condition⟩

/-! ## Checkers of given manifests and services -/

/-- An instance in a manifest. -/
structure Entry where
  package : Text
  version : Version
  interface : Text
  interface_ne : interface ≠ []
  manifest_instance : ManifestInstance

def manifestOf (entries : List Entry) : HalManifest := fun package version interface =>
  (entries.filter fun entry => entry.package = package ∧ entry.version = version ∧
    (interface = [] ∨ entry.interface = interface)).map Entry.manifest_instance

theorem listsAll_manifestOf (entries : List Entry) : ListsAll (manifestOf entries) := by
  intro package version manifest_instance
  simp only [manifestOf, mem_map, mem_filter, decide_eq_true_eq, true_or, and_true]
  constructor
  · rintro ⟨entry, ⟨listed, named, sameVersion⟩, same⟩
    exact ⟨entry.interface, entry.interface_ne, entry,
      ⟨listed, named, sameVersion, Or.inr rfl⟩, same⟩
  · rintro ⟨interface, _, entry, ⟨listed, named, sameVersion, _⟩, same⟩
    exact ⟨entry, ⟨listed, named, sameVersion⟩, same⟩

def managerOf (services : List Service) : ServiceManager where
  list := some (services.map Service.text)
  listByInterface fqName :=
    some ((services.filter fun service => service.fqName = fqName).map Service.name)

def checkerOf (framework device : List Entry) (services : List Service) : Checker where
  framework_hal_manifest := manifestOf framework
  device_hal_manifest := manifestOf device
  sm := managerOf services
  has32 arch := arch = .ARCH_32 || arch = .ARCH_32_64
  has64 arch := arch = .ARCH_64 || arch = .ARCH_32_64
  toFQNameString package version interface :=
    if interface = [] then packageText package version else interfaceText package version interface

theorem documented_checkerOf (framework device : List Entry) (services : List Service) :
    Documented (checkerOf framework device services) services where
  framework := listsAll_manifestOf framework
  device := listsAll_manifestOf device
  packageName package version := by simp [checkerOf]
  interfaceName package version interface named := by simp [checkerOf, named]
  list := ⟨services.map Service.text, rfl, fun text => mem_map⟩
  listByInterface fqName := ⟨_, rfl, fun name => by simp [and_assoc]⟩

def foo : Text := "android.hardware.foo".toList

/-- The service `android.hardware.foo@1.10::IFoo/default`. -/
def IFoo : Service where
  package := foo
  version := ⟨1, 10⟩
  interface := "IFoo".toList
  name := "default".toList
  interface_ne := by decide

theorem checksAgree_foo : ChecksAgree (checkerOf [] [] [IFoo]) foo ⟨1, 10⟩ .ARCH_32 :=
  (checksAgree_iff _ (documented_checkerOf [] [] [IFoo]) foo ⟨1, 10⟩ .ARCH_32).mpr
    (Or.inr (Or.inl ⟨IFoo, mem_singleton_self _, "IFoo".toList, by decide, rfl⟩))

theorem not_checksAgree_foo :
    Documented (checkerOf [] [] [IFoo]) [IFoo] ∧
      ¬ ChecksAgree (checkerOf [] [] [IFoo]) foo ⟨1, 1⟩ .ARCH_32 := by
  have documented := documented_checkerOf [] [] [IFoo]
  refine ⟨documented, ?_⟩
  intro agree
  obtain supported | ⟨service, listed, offers⟩ | silent :=
    (nonCompliance_agrees_iff documented foo ⟨1, 1⟩ .ARCH_32 ∅).mp (agree ∅).2
  · obtain ⟨_, listed, _⟩ := supported
    cases listed
  · cases mem_singleton.mp listed
    have same := (offers_iff (by decide) ⟨1, 1⟩ (by decide)).mp offers
    revert same
    decide
  · have begins : packageText foo ⟨1, 1⟩ <+: IFoo.text := by decide
    exact silent IFoo (mem_singleton_self _) begins

end Vts.Hal.Testability
