import Vts.Lib.Restarts

/-!
# Combinations of service instances

`utils/python/hal/hal_service_name_utils.py`. A test of several services runs for combinations of
their registered instances: all of them, or those whose instances have one name.

A set is a list without repetition here; nothing that is proved depends on its order. Proved: all
combinations are the product of the services with instances if there are such services; and those
of one name are right exactly when names that are not shared do not make the intersection start
afresh.
-/

namespace Vts.Hal

open Vts.Lib List

/-- The dictionary `service_instances`: the names of the instances of a service. -/
abbrev ServiceInstances := String → Option (List String)

/-- The names, none for a service that is not in the dictionary. -/
def ServiceInstances.names (service_instances : ServiceInstances) (service : String) :
    List String :=
  (service_instances service).getD []

/-- `CombMode`. -/
inductive CombMode where
  | FULL_PERMUTATION | NAME_MATCH | NO_COMBINATION
  deriving DecidableEq

section

variable (service_instances : ServiceInstances)

/-- The list of services is the one of the caller, and is empty afterwards. The recursive call goes
through `GetServiceInstancesCombinations`, whose default mode calls this function. -/
def GetServiceInstancesFullCombinations (services : List String) : List (List String) :=
  match _popped : services.getLast? with
  | none => []
  | some service =>
    let pre_instance_combs := GetServiceInstancesFullCombinations services.dropLast
    match service_instances service with
    | none => pre_instance_combs
    | some [] => pre_instance_combs
    | some names => names.flatMap fun name =>
      if pre_instance_combs = [] then [[service ++ "/" ++ name]]
      else pre_instance_combs.map fun instance_comb => (service ++ "/" ++ name) :: instance_comb
termination_by services.length
decreasing_by
  cases services with
  | nil => cases _popped
  | cons service services => simp

/-- The names that all services have, none when a service has no instance. -/
def matchedNames : List String → List String → Option (List String)
  | [], instance_names => some instance_names
  | service :: services, instance_names =>
    match service_instances service with
    | none => none
    | some [] => none
    | some names => matchedNames services
      (if instance_names = [] then names.dedup else instance_names.filter (· ∈ names))

def GetServiceInstancesNameMatchCombinations (services : List String) : List (List String) :=
  match matchedNames service_instances services [] with
  | none => []
  | some instance_names => instance_names.map fun name =>
    services.map fun service => service ++ "/" ++ name

def GetServiceInstancesCombinations (services : List String) : CombMode → List (List String)
  | .FULL_PERMUTATION => GetServiceInstancesFullCombinations service_instances services
  | .NAME_MATCH => GetServiceInstancesNameMatchCombinations service_instances services
  | .NO_COMBINATION => GetServiceInstancesFullCombinations service_instances services

/-- The services that have instances. -/
def served (services : List String) : List String :=
  services.filter fun service => service_instances.names service ≠ []

/-- One instance of each service that has instances, the last service first. -/
def Chooses (services comb : List String) : Prop :=
  List.Forall₂ (fun text service => ∃ name ∈ service_instances.names service,
    text = service ++ "/" ++ name) comb (served service_instances services).reverse

/-- Both kinds of combinations are complete, and have each combination once. -/
structure Combines (services : List String) : Prop where
  full_once : (GetServiceInstancesCombinations service_instances services .FULL_PERMUTATION).Nodup
  full : ∀ comb, comb ∈ GetServiceInstancesCombinations service_instances services
    .FULL_PERMUTATION ↔ Chooses service_instances services comb
  match_once : (GetServiceInstancesCombinations service_instances services .NAME_MATCH).Nodup
  matched : ∀ comb, comb ∈ GetServiceInstancesCombinations service_instances services
    .NAME_MATCH ↔ ∃ name, (∀ service ∈ services, name ∈ service_instances.names service) ∧
      comb = services.map fun service => service ++ "/" ++ name

end

/-! ## All combinations -/

section

variable {service_instances : ServiceInstances} {services : List String} {service : String}

section

variable {combs : List (List String)}

theorem full_nil : GetServiceInstancesFullCombinations service_instances [] = [] := by
  rw [GetServiceInstancesFullCombinations]
  rfl

/-- The combinations to extend: that of no services, when there are none. -/
def orUnit (combs : List (List String)) : List (List String) := if combs = [] then [[]] else combs

theorem full_concat :
    GetServiceInstancesFullCombinations service_instances (services ++ [service]) =
      if service_instances.names service = [] then
        GetServiceInstancesFullCombinations service_instances services
      else (service_instances.names service).flatMap fun name =>
        (orUnit (GetServiceInstancesFullCombinations service_instances services)).map
          fun instance_comb => (service ++ "/" ++ name) :: instance_comb := by
  rw [GetServiceInstancesFullCombinations, dropLast_concat, List.getLast?_concat]
  unfold ServiceInstances.names orUnit
  cases found : service_instances service with
  | none => simp [found]
  | some names =>
    cases names with
    | nil => simp [found]
    | cons first rest =>
      simp only [found, Option.getD_some, reduceCtorEq, ↓reduceIte]
      split <;> rfl

theorem orUnit_ne_nil : orUnit combs ≠ [] := by
  unfold orUnit
  split
  · exact cons_ne_nil _ _
  · assumption

theorem orUnit_of_ne_nil (some : combs ≠ []) :
    orUnit combs = combs := if_neg some

theorem served_concat : served service_instances (services ++ [service]) =
    if service_instances.names service = [] then served service_instances services
    else served service_instances services ++ [service] := by
  unfold served
  rw [filter_append, filter_singleton]
  split <;> simp_all

/-- There are no combinations exactly when no service has instances. -/
theorem full_eq_nil_iff : GetServiceInstancesFullCombinations service_instances services = [] ↔
    served service_instances services = [] := by
  induction services using List.reverseRecOn with
  | nil => simp [full_nil, served]
  | append_singleton services service ih =>
    rw [full_concat, served_concat]
    by_cases without : service_instances.names service = []
    · rw [if_pos without, if_pos without, ih]
    · obtain ⟨name, listed⟩ := exists_mem_of_ne_nil _ without
      rw [if_neg without, if_neg without, flatMap_eq_nil_iff]
      refine iff_of_false (fun nothing => ?_) (append_ne_nil_of_right_ne_nil _
        (cons_ne_nil _ _))
      exact orUnit_ne_nil (map_eq_nil_iff.mp (nothing name listed))

/-- The product, when the combination of no services counts. -/
theorem mem_orUnit_full {comb : List String} :
    comb ∈ orUnit (GetServiceInstancesFullCombinations service_instances services) ↔
      Chooses service_instances services comb := by
  induction services using List.reverseRecOn generalizing comb with
  | nil => simp [full_nil, orUnit, Chooses, served, forall₂_nil_right_iff]
  | append_singleton services service ih =>
    unfold Chooses at ih ⊢
    rw [served_concat]
    by_cases without : service_instances.names service = []
    · rw [full_concat, if_pos without, if_pos without, ih]
    · have some : GetServiceInstancesFullCombinations service_instances (services ++ [service]) ≠
          [] := by
        rw [Ne, full_eq_nil_iff, served_concat, if_neg without]
        exact append_ne_nil_of_right_ne_nil _ (cons_ne_nil _ _)
      rw [orUnit_of_ne_nil some, full_concat, if_neg without, if_neg without, reverse_append,
        reverse_singleton, singleton_append, forall₂_cons_right_iff]
      simp only [mem_flatMap, mem_map, ih]
      constructor
      · rintro ⟨name, listed, instance_comb, chosen, rfl⟩
        exact ⟨_, _, ⟨name, listed, rfl⟩, chosen, rfl⟩
      · rintro ⟨_, instance_comb, ⟨name, listed, rfl⟩, chosen, rfl⟩
        exact ⟨name, listed, instance_comb, chosen, rfl⟩

/-- The text of an instance determines its name. -/
theorem instance_injective (service : String) :
    Function.Injective fun name : String => service ++ "/" ++ name := by
  intro name other same
  exact (String.append_right_inj _).mp same

theorem nodup_extend_iff {names : List String} (some : combs ≠ []) {text : String → String}
    (distinct : Function.Injective text) (filled : names ≠ []) :
    (names.flatMap fun name => combs.map fun comb => text name :: comb).Nodup ↔
      names.Nodup ∧ combs.Nodup := by
  have apart : ∀ name other, (Function.onFun List.Disjoint fun name : String =>
      combs.map fun comb => text name :: comb) name other ↔ name ≠ other := by
    intro name other
    constructor
    · rintro disjoint rfl
      obtain ⟨comb, listed⟩ := exists_mem_of_ne_nil _ some
      exact disjoint (mem_map_of_mem listed) (mem_map_of_mem listed)
    · intro different extended here there
      obtain ⟨comb, -, rfl⟩ := mem_map.mp here
      obtain ⟨_, -, same⟩ := mem_map.mp there
      exact different (distinct (List.cons.inj same).1.symm)
  have each : ∀ name, (combs.map fun comb => text name :: comb).Nodup ↔ combs.Nodup := fun name =>
    nodup_map_iff fun _ _ same => (List.cons.inj same).2
  rw [nodup_flatMap, List.Pairwise.iff apart, forall₂_congr fun name _ => each name]
  constructor
  · rintro ⟨combsNodup, namesNodup⟩
    obtain ⟨name, listed⟩ := exists_mem_of_ne_nil _ filled
    exact ⟨namesNodup, combsNodup name listed⟩
  · rintro ⟨namesNodup, combsNodup⟩
    exact ⟨fun _ _ => combsNodup, namesNodup⟩

theorem nodup_orUnit : (orUnit combs).Nodup ↔ combs.Nodup := by
  unfold orUnit
  split
  · simp_all
  · rfl

end

/-- Each combination is there once exactly when no service has a name twice. -/
theorem nodup_full_iff :
    (GetServiceInstancesFullCombinations service_instances services).Nodup ↔
      ∀ service ∈ services, (service_instances.names service).Nodup := by
  induction services using List.reverseRecOn with
  | nil => simp [full_nil]
  | append_singleton services service ih =>
    rw [full_concat, forall_mem_append, forall_mem_singleton, ← ih]
    by_cases without : service_instances.names service = []
    · rw [if_pos without, without]
      exact (and_iff_left nodup_nil).symm
    · rw [if_neg without, nodup_extend_iff orUnit_ne_nil (instance_injective service) without,
        nodup_orUnit, and_comm]

end

/-! ## Combinations of one name -/

section

variable {service_instances : ServiceInstances} {services : List String}

/-- The loop is a fold of the sets of names, when all services have instances. -/
theorem matchedNames_eq (services instance_names : List String) :
    matchedNames service_instances services instance_names =
      if ∀ service ∈ services, service_instances.names service ≠ [] then
        some (meets (services.map service_instances.names) instance_names) else none := by
  induction services generalizing instance_names with
  | nil => rw [if_pos (forall_mem_nil _)]; rfl
  | cons service services ih =>
    rw [matchedNames]
    simp only [forall_mem_cons]
    unfold ServiceInstances.names at ih ⊢
    cases found : service_instances service with
    | none => simp
    | some names =>
      cases names with
      | nil => simp
      | cons first rest =>
        simp only [ih, Option.getD_some, ne_eq, reduceCtorEq, not_false_eq_true,
          true_and, map_cons, found]
        rfl

theorem common_names {name : String} : Common (services.map service_instances.names) name ↔
    ∀ service ∈ services, name ∈ service_instances.names service := by
  unfold Common
  rw [forall_mem_map]

/-- Combinations of different names differ. -/
theorem combination_injective (some : services ≠ []) :
    Function.Injective fun name : String => services.map fun service => service ++ "/" ++ name := by
  intro name other same
  cases services with
  | nil => exact absurd rfl some
  | cons service services => exact instance_injective service (List.cons.inj same).1

/-- The combinations of one name are right when some service has no instance. -/
theorem matched_of_without {service : String} (listed : service ∈ services)
    (without : service_instances.names service = []) :
    GetServiceInstancesNameMatchCombinations service_instances services = [] := by
  rw [GetServiceInstancesNameMatchCombinations, matchedNames_eq,
    if_neg fun all => all service listed without]

theorem matched_eq (all : ∀ service ∈ services, service_instances.names service ≠ []) :
    GetServiceInstancesNameMatchCombinations service_instances services =
      (meets (services.map service_instances.names) []).map fun name =>
        services.map fun service => service ++ "/" ++ name := by
  rw [GetServiceInstancesNameMatchCombinations, matchedNames_eq, if_pos all]

theorem nodup_matched (some : services ≠ []) :
    (GetServiceInstancesNameMatchCombinations service_instances services).Nodup := by
  by_cases all : ∀ service ∈ services, service_instances.names service ≠ []
  · rw [matched_eq all]
    exact (meets_nodup nodup_nil).map (combination_injective some)
  · push Not at all
    obtain ⟨service, listed, without⟩ := all
    rw [matched_of_without listed without]
    exact nodup_nil

/-- The combinations of one name are right exactly when there is no restart. -/
theorem mem_matched_iff (some : services ≠ []) :
    (∀ comb, comb ∈ GetServiceInstancesNameMatchCombinations service_instances services ↔
      ∃ name, (∀ service ∈ services, name ∈ service_instances.names service) ∧
        comb = services.map fun service => service ++ "/" ++ name) ↔
    ((∀ service ∈ services, service_instances.names service ≠ []) →
      ¬ Restarts (services.map service_instances.names)) := by
  by_cases all : ∀ service ∈ services, service_instances.names service ≠ []
  · have sets : services.map service_instances.names ≠ [] := fun no =>
      some (map_eq_nil_iff.mp no)
    rw [matched_eq all, forall_prop_of_true all, ← mem_meets_iff sets (forall_mem_map.mpr all)]
    simp only [common_names]
    constructor
    · intro right name
      constructor
      · intro kept
        obtain ⟨other, shared, same⟩ := (right _).mp (mem_map_of_mem kept)
        exact combination_injective some same ▸ shared
      · intro shared
        obtain ⟨other, kept, same⟩ := mem_map.mp ((right _).mpr ⟨name, shared, rfl⟩)
        exact combination_injective some same ▸ kept
    · intro right comb
      rw [mem_map]
      constructor
      · rintro ⟨name, kept, rfl⟩
        exact ⟨name, (right name).mp kept, rfl⟩
      · rintro ⟨name, shared, rfl⟩
        exact ⟨name, (right name).mpr shared, rfl⟩
  · refine iff_of_true (fun comb => ?_) fun every => absurd every all
    push Not at all
    obtain ⟨service, listed, without⟩ := all
    rw [matched_of_without listed without]
    refine iff_of_false not_mem_nil ?_
    rintro ⟨name, shared, -⟩
    exact not_mem_nil (without ▸ shared service listed)

end

/-! ## Both kinds -/

/-- The combinations are right exactly when some service has instances, no service has a name
twice, and the intersection of the names does not start afresh before its last part. -/
theorem combinations_combine_iff (service_instances : ServiceInstances) (services : List String) :
    Combines service_instances services ↔
      (∃ service ∈ services, service_instances.names service ≠ []) ∧
      (∀ service ∈ services, (service_instances.names service).Nodup) ∧
      ((∀ service ∈ services, service_instances.names service ≠ []) →
        ¬ Restarts (services.map service_instances.names)) := by
  have servedSome : served service_instances services ≠ [] ↔
      ∃ service ∈ services, service_instances.names service ≠ [] := by
    simp [served, filter_eq_nil_iff]
  rw [← servedSome, ← nodup_full_iff]
  constructor
  · rintro ⟨full_once, full, match_once, matched⟩
    have some : served service_instances services ≠ [] := by
      intro nothing
      have unit : [] ∈ GetServiceInstancesFullCombinations service_instances services := by
        refine (full []).mpr ?_
        rw [Chooses, nothing]
        exact .nil
      exact ne_nil_of_mem unit (full_eq_nil_iff.mpr nothing)
    have nonempty : services ≠ [] := by
      rintro rfl
      exact some rfl
    exact ⟨some, full_once, (mem_matched_iff nonempty).mp matched⟩
  · rintro ⟨some, full_once, never⟩
    have nonempty : services ≠ [] := by
      rintro rfl
      exact some rfl
    have product : orUnit (GetServiceInstancesFullCombinations service_instances services) =
        GetServiceInstancesFullCombinations service_instances services :=
      orUnit_of_ne_nil fun no => some (full_eq_nil_iff.mp no)
    refine ⟨full_once, fun comb => ?_, nodup_matched nonempty, (mem_matched_iff nonempty).mpr never⟩
    have chosen := @mem_orUnit_full service_instances services comb
    rwa [product] at chosen

/-- The names of the first two of three services are not shared. -/
def disjointNames : ServiceInstances
  | "IFoo" => some ["a"]
  | "IBar" => some ["b"]
  | "IBaz" => some ["c"]
  | _ => none

/-- The name of the third service counts for all three. -/
theorem combinations_combine_disjoint :
    GetServiceInstancesCombinations disjointNames ["IFoo", "IBar", "IBaz"] .NAME_MATCH =
        [["IFoo/c", "IBar/c", "IBaz/c"]] ∧
      ¬ Combines disjointNames ["IFoo", "IBar", "IBaz"] := by
  have combined : GetServiceInstancesCombinations disjointNames ["IFoo", "IBar", "IBaz"]
      .NAME_MATCH = [["IFoo/c", "IBar/c", "IBaz/c"]] := by
    decide +kernel
  refine ⟨combined, fun combines => ?_⟩
  obtain ⟨name, shared, -⟩ := (combines.matched ["IFoo/c", "IBar/c", "IBaz/c"]).mp
    (combined ▸ mem_singleton_self _)
  have first : name ∈ ["a"] := shared "IFoo" (by decide)
  have second : name ∈ ["b"] := shared "IBar" (by decide)
  simp_all

end Vts.Hal
