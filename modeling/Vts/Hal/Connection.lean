import Vts.Lib.Runs

/-!
# Connected drivers

The class of drivers that `compilation_tools/vtsc/code_gen/driver/HalHidlCodeGen.cpp` emits for a
HIDL interface: its constructors, `GetService` (`GenerateGetServiceImpl`) and the check at the start
of `CallFunction` (`GenerateDriverFunctionImpl`). The flag `initialized` is a static variable of the
function, so all objects of the class share it, while the proxy is a member of the object. What
`getService` of the interface returns, a proxy for the name that it is given or null, may be another
at each moment.

Proved here: after the first call of `GetService` that returns true on some object, every call
returns true and leaves its object as it is. So every object is connected to the service that it was
asked for exactly if those later calls are on objects that already have a proxy for the name that is
given.
-/

namespace Vts.Hal

open Vts.Lib

/-- The service manager of the device, as the interface sees it: what `getService` returns at a
moment, `none` for a null pointer, and the name that a proxy is for. -/
structure HwServices (Proxy : Type) where
  getService : (moment : Nat) → (service_name : String) → (get_stub : Bool) → Option Proxy
  nameOf : Proxy → String
  names : ∀ {moment service_name get_stub proxy},
    getService moment service_name get_stub = some proxy → nameOf proxy = service_name

/-- An object of the class, `none` for a null pointer. -/
structure FuzzerExtended (Proxy : Type) where
  hw_binder_proxy_ : Option Proxy
deriving DecidableEq

variable {Proxy : Type}

namespace FuzzerExtended

/-- The emitted `GetService`: the result, the static variable and the object afterwards. -/
def GetService (services : HwServices Proxy) (moment : Nat) (initialized : Bool)
    (driver : FuzzerExtended Proxy) (get_stub : Bool) (service_name : String) :
    Bool × Bool × FuzzerExtended Proxy :=
  if !initialized then
    let driver := { driver with
      hw_binder_proxy_ := services.getService moment service_name get_stub }
    if driver.hw_binder_proxy_ = none then (false, initialized, driver)
    else (true, true, driver)
  else (true, initialized, driver)

/-- The emitted `CallFunction`: the code for the functions of the interface is reached with a proxy
only. -/
def CallFunction (driver : FuzzerExtended Proxy) (functions : Proxy → Bool) : Bool :=
  match driver.hw_binder_proxy_ with
  | none => false
  | some proxy => functions proxy

/-- The object has a proxy for a service. -/
def HasProxyFor (driver : FuzzerExtended Proxy) (services : HwServices Proxy)
    (service_name : String) : Prop :=
  ∃ proxy, driver.hw_binder_proxy_ = some proxy ∧ services.nameOf proxy = service_name

end FuzzerExtended

/-- An object, with the name and the result of the last call of `GetService` on it. -/
structure Created (Proxy : Type) where
  driver : FuzzerExtended Proxy
  last_call : Option (String × Bool)
deriving DecidableEq

/-- The class: its static variable, its objects in the order of their creation, and the number of
things that happened. -/
structure DriverClass (Proxy : Type) where
  initialized : Bool
  objects : List (Created Proxy)
  moment : Nat
deriving DecidableEq

/-- What can happen: an object is created, without a proxy or with a given one, or `GetService` is
called on an object. -/
inductive DriverEvent (Proxy : Type) where
  | create (hw_binder_proxy : Option Proxy)
  | getService (object : Nat) (get_stub : Bool) (service_name : String)

namespace DriverClass

def new : DriverClass Proxy := ⟨false, [], 0⟩

def step (services : HwServices Proxy) (state : DriverClass Proxy) :
    DriverEvent Proxy → DriverClass Proxy
  | .create hw_binder_proxy =>
    ⟨state.initialized, state.objects ++ [⟨⟨hw_binder_proxy⟩, none⟩], state.moment + 1⟩
  | .getService object get_stub service_name =>
    match state.objects[object]? with
    | none => state
    | some created =>
      let (result, initialized, driver) := created.driver.GetService services state.moment
        state.initialized get_stub service_name
      ⟨initialized, state.objects.set object ⟨driver, some (service_name, result)⟩,
        state.moment + 1⟩

/-- The last call of `GetService` on an object did not return true, or the object has a proxy for
its name. -/
def Connected (services : HwServices Proxy) (state : DriverClass Proxy) : Prop :=
  ∀ created ∈ state.objects, ∀ service_name, created.last_call = some (service_name, true) →
    created.driver.HasProxyFor services service_name

/-- A call of `GetService` comes before any that returned true, or its object already has a proxy for
the name. -/
def Own (services : HwServices Proxy) (state : DriverClass Proxy) : DriverEvent Proxy → Prop
  | .create _ => True
  | .getService object _ service_name =>
    state.initialized = true → ∀ created, state.objects[object]? = some created →
      created.driver.HasProxyFor services service_name

variable {services : HwServices Proxy} {state : DriverClass Proxy}

/-- A call that no true one comes before returns true with a proxy for the name only. -/
theorem getService_first {moment : Nat} {driver : FuzzerExtended Proxy} {get_stub : Bool}
    {service_name : String}
    (connected : (driver.GetService services moment false get_stub service_name).1 = true) :
    (driver.GetService services moment false get_stub service_name).2.2.HasProxyFor services
      service_name := by
  cases found : services.getService moment service_name get_stub with
  | none => simp [FuzzerExtended.GetService, found] at connected
  | some proxy =>
    refine ⟨proxy, ?_, services.names found⟩
    simp [FuzzerExtended.GetService, found]

/-- Where a property holds of all objects, it does so after one is replaced exactly if it holds of
the new one. -/
theorem forall_mem_set_iff {α : Type} {holds : α → Prop} {list : List α} {index : Nat} {old new : α}
    (there : list[index]? = some old) (held : ∀ element ∈ list, holds element) :
    (∀ element ∈ list.set index new, holds element) ↔ holds new := by
  have inside : index < list.length := (List.getElem?_eq_some_iff.mp there).1
  constructor
  · intro all
    exact all new (List.mem_set inside new)
  · intro one element listed
    rcases List.mem_or_eq_of_mem_set listed with before | rfl
    · exact held element before
    · exact one

/-- A step keeps the objects connected exactly if it is on an object with a proxy of its own. -/
theorem connected_step_iff (services : HwServices Proxy) (state : DriverClass Proxy)
    (event : DriverEvent Proxy) (connected : state.Connected services) :
    (state.step services event).Connected services ↔ state.Own services event := by
  cases event with
  | create hw_binder_proxy =>
    simp only [Own, iff_true]
    intro created listed service_name called
    rcases List.mem_append.mp listed with before | last
    · exact connected created before service_name called
    · cases List.mem_singleton.mp last
      cases called
  | getService object get_stub service_name =>
    rw [step, Own]
    cases there : state.objects[object]? with
    | none => simpa using connected
    | some created =>
      simp only [Connected]
      rw [forall_mem_set_iff there connected]
      cases flag : state.initialized with
      | false =>
        simp only [Bool.false_eq_true, false_imp_iff, iff_true]
        intro name called
        obtain ⟨rfl, result⟩ := Prod.mk.inj (Option.some.inj called)
        exact getService_first result
      | true =>
        simp only [true_imp_iff, Option.some.injEq, forall_eq']
        constructor
        · intro kept
          exact kept service_name rfl
        · intro own name called
          obtain ⟨rfl, -⟩ := Prod.mk.inj called
          exact own

/-- Every object is connected to the service of its last call throughout a run if and only if every
call after the first one that returned true is on an object that already has a proxy for the name. -/
theorem connected_iff (services : HwServices Proxy) (events : List (DriverEvent Proxy)) :
    (∀ before, before <+: events → (run (step services) new before).Connected services) ↔
      AllMeet (step services) (Own services) new events := by
  refine allMeet_iff_prefixes (connected_step_iff services) ?_
  intro created listed
  cases listed

/-- A device where every service is there at every moment. -/
def everyService : HwServices String where
  getService _ service_name _ := some service_name
  nameOf := id
  names found := (Option.some.inj found).symm

/-- Two objects, each asked for the same service. -/
def twoObjects : List (DriverEvent String) :=
  [.create none, .create none, .getService 0 false "default", .getService 1 false "default"]

/-- The second object is told that it is connected, has no proxy and calls no function. -/
theorem connected_second :
    ¬ (run (step everyService) new twoObjects).Connected everyService ∧
      ∃ created, (run (step everyService) new twoObjects).objects[1]? = some created ∧
        created.last_call = some ("default", true) ∧ created.driver.hw_binder_proxy_ = none ∧
        ∀ functions, created.driver.CallFunction functions = false := by
  have second : (run (step everyService) new twoObjects).objects[1]? =
      some ⟨⟨none⟩, some ("default", true)⟩ := by decide
  refine ⟨?_, _, second, rfl, rfl, fun _ => rfl⟩
  intro connected
  obtain ⟨proxy, has, -⟩ := connected _ (List.mem_of_getElem? second) "default" rfl
  cases has

end DriverClass

end Vts.Hal
