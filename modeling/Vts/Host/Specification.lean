import Mathlib.Logic.Relation
import Vts.Lib.Ensures
import Vts.Python.Text

/-!
# Specifications with their imports

`ReadSpecification` of `runners/host/tcp_client/vts_tcp_client.py`: the host asks the agent for
the specification of an interface and, if `recursive` is set, for those that it imports, whose
attributes it adds to those of the first.

The agent is a function of the request; `none` is the result "error". What the text of the
response is merged to is taken for the specification itself. The class and the type of the
component, if they are not given, are asked for by the name `msg`, which is not defined here.

The requests for the imported specifications leave `recursive` at its default. Proved here:
exactly when all attributes of all specifications that are reached through imports are returned.
-/

namespace Vts.Host

open Vts.Lib Vts.Python List

/-! ## The source -/

/-- The arguments of `ReadSpecification` but for the last. -/
structure SpecRequest where
  interface_name : Text
  target_class : Option Int
  target_type : Option Int
  target_version_major : Int
  target_version_minor : Int
  target_package : Text
deriving DecidableEq

/-- `ComponentSpecificationMessage`: the imports, the attributes and the rest. -/
structure ComponentSpec (Attribute Rest : Type) where
  imports : List Text
  attributes : List Attribute
  rest : Rest

inductive ReadError where
  | VtsTcpCommunicationError
  | ValueError
  | IndexError
  | NameError
deriving DecidableEq

/-- `"android.hidl.base@1.0::types"`. -/
def baseTypes : Text := "android.hidl.base@1.0::types".toList.map fun char => UInt8.ofNat char.toNat

/-- `text.split("::")`. -/
def splitColons : Text → List Text
  | [] => [[]]
  | 58 :: 58 :: rest => [] :: splitColons rest
  | byte :: rest =>
    match splitColons rest with
    | [] => [[byte]]
    | first :: others => (byte :: first) :: others

/-- What is made of the name of an import: the name of the interface, the texts of the two
numbers of the version, and the package. -/
def parseImport (imported_interface : Text) : Except ReadError (Text × Int × Int × Text) :=
  match imported_interface.splitOn 64 with
  | [package, version_str] =>
    match ((splitColons version_str).headD []).splitOn 46 with
    | [version_major, version_minor] =>
      match (splitColons imported_interface)[1]? with
      | none => .error .IndexError
      | some name =>
        match parseInt version_major, parseInt version_minor with
        | some major, some minor => .ok (name, major, minor, package)
        | _, _ => .error .ValueError
    | _ => .error .ValueError
  | _ => .error .ValueError

/-- The request for an import. -/
def importRequest (request : SpecRequest) (imported_interface : Text) :
    Except ReadError SpecRequest := do
  let (name, major, minor, package) ← parseImport imported_interface
  match request.target_class, request.target_type with
  | some target_class, some target_type =>
    .ok ⟨name, some target_class, some target_type, major, minor, package⟩
  | _, _ => .error .NameError

section Source

variable {Attribute Rest : Type}

/-- One round of the loop over the imports, given how a specification is read. -/
def importStep (read : SpecRequest → Except ReadError (ComponentSpec Attribute Rest))
    (request : SpecRequest) (result : ComponentSpec Attribute Rest) (imported_interface : Text) :
    Except ReadError (ComponentSpec Attribute Rest) :=
  if imported_interface = baseTypes then .ok result
  else do
    let imported_result ← read (← importRequest request imported_interface)
    .ok { result with attributes := result.attributes ++ imported_result.attributes }

/-- What the agent answers. -/
def served (agent : SpecRequest → Option (ComponentSpec Attribute Rest)) (request : SpecRequest) :
    Except ReadError (ComponentSpec Attribute Rest) :=
  match agent request with
  | none => .error .VtsTcpCommunicationError
  | some result => .ok result

/-- `ReadSpecification`, with `recursive` as its last argument. -/
def ReadSpecification (agent : SpecRequest → Option (ComponentSpec Attribute Rest)) :
    SpecRequest → Bool → Except ReadError (ComponentSpec Attribute Rest)
  | request, false => served agent request
  | request, true => do
    let result ← served agent request
    result.imports.foldlM
      (importStep (fun imported => ReadSpecification agent imported false) request) result
termination_by _ recursive => recursive.toNat

/-! ## Imports -/

/-- The first specification imports the second one. -/
def Imports (agent : SpecRequest → Option (ComponentSpec Attribute Rest))
    (request imported : SpecRequest) : Prop :=
  ∃ spec imported_interface, agent request = some spec ∧ imported_interface ∈ spec.imports ∧
    imported_interface ≠ baseTypes ∧ importRequest request imported_interface = .ok imported

theorem imports_single {agent : SpecRequest → Option (ComponentSpec Attribute Rest)}
    {request imported target : SpecRequest} {spec : ComponentSpec Attribute Rest}
    {imported_interface : Text} (found : agent request = some spec)
    (only : spec.imports = [imported_interface]) (notBase : imported_interface ≠ baseTypes)
    (asked : importRequest request imported_interface = .ok target) :
    Imports agent request imported ↔ imported = target := by
  constructor
  · rintro ⟨_, _, foundToo, listed, _, askedToo⟩
    cases foundToo.symm.trans found
    rw [only, mem_singleton] at listed
    subst listed
    exact Except.ok.inj (askedToo.symm.trans asked)
  · rintro rfl
    exact ⟨_, _, found, only ▸ mem_singleton.mpr rfl, notBase, asked⟩

/-- Through one import or more. -/
def Reaches (agent : SpecRequest → Option (ComponentSpec Attribute Rest)) :
    SpecRequest → SpecRequest → Prop :=
  Relation.TransGen (Imports agent)

/-- The agent has the specification, and the names of its imports can be read. -/
def Served (agent : SpecRequest → Option (ComponentSpec Attribute Rest)) (request : SpecRequest) :
    Prop :=
  ∃ spec, agent request = some spec ∧ ∀ imported_interface ∈ spec.imports,
    imported_interface ≠ baseTypes → ∃ parts, parseImport imported_interface = .ok parts

/-- The attributes of a specification of the agent. -/
def attributesOf (agent : SpecRequest → Option (ComponentSpec Attribute Rest))
    (request : SpecRequest) : List Attribute :=
  ((agent request).map ComponentSpec.attributes).getD []

/-- What is read is the specification with the attributes of reached ones behind its own, and no
attribute of a reached one is missing. -/
def ReadsAll (agent : SpecRequest → Option (ComponentSpec Attribute Rest))
    (request : SpecRequest) : Prop :=
  ∃ (spec : ComponentSpec Attribute Rest) (visited : List SpecRequest),
    agent request = some spec ∧ (∀ reached ∈ visited, Reaches agent request reached) ∧
    ReadSpecification agent request true =
      .ok { spec with attributes := spec.attributes ++ visited.flatMap (attributesOf agent) } ∧
    ∀ reached, Reaches agent request reached →
      ∀ item ∈ attributesOf agent reached, item ∈ visited.flatMap (attributesOf agent)

/-- The class and the type are given. -/
def SpecRequest.Given (request : SpecRequest) : Prop :=
  request.target_class ≠ none ∧ request.target_type ≠ none

/-! ## One import after the other -/

variable {agent : SpecRequest → Option (ComponentSpec Attribute Rest)}

section

variable {request : SpecRequest} {last : ComponentSpec Attribute Rest}

theorem served_ok_iff {spec : ComponentSpec Attribute Rest} :
    served agent request = .ok spec ↔ agent request = some spec := by
  rw [served]
  cases agent request <;> simp

/-- The request for an import whose name can be read. -/
theorem importRequest_ok_iff {imported_interface : Text}
    (parses : ∃ parts, parseImport imported_interface = .ok parts) :
    (∃ imported, importRequest request imported_interface = .ok imported) ↔ request.Given := by
  obtain ⟨⟨name, major, minor, package⟩, parsed⟩ := parses
  rw [importRequest, parsed, SpecRequest.Given]
  rcases request.target_class with _ | target_class <;>
    rcases request.target_type with _ | target_type <;> simp [bind, Except.bind]

/-- The loop adds the attributes of the imports themselves, one after the other. -/
theorem foldlM_importStep {imports : List Text} {result : ComponentSpec Attribute Rest} :
    imports.foldlM (importStep (served agent) request) result = .ok last ↔
      ∃ visited : List SpecRequest,
        List.Forall₂ (fun imported_interface imported =>
          importRequest request imported_interface = .ok imported ∧ ∃ spec, agent imported = some spec)
          (imports.filter (· ≠ baseTypes)) visited ∧
        last = { result with
          attributes := result.attributes ++ visited.flatMap (attributesOf agent) } := by
  induction imports generalizing result with
  | nil =>
    simp only [foldlM_nil, pure, Except.pure, Except.ok.injEq, filter_nil,
      forall₂_nil_left_iff]
    constructor
    · rintro rfl
      exact ⟨[], rfl, by simp⟩
    · rintro ⟨_, rfl, rfl⟩
      simp
  | cons imported_interface imports ih =>
    rw [foldlM_cons, importStep]
    by_cases skipped : imported_interface = baseTypes
    · rw [if_pos skipped, filter_cons_of_neg (by simpa using skipped)]
      exact ih
    · rw [if_neg skipped, filter_cons_of_pos (by simpa using skipped)]
      simp only [bind_eq_ok_iff, served_ok_iff, Except.ok.injEq, ih]
      constructor
      · rintro ⟨_, ⟨imported, asked, spec, found, rfl⟩, visited, each, rfl⟩
        refine ⟨imported :: visited, .cons ⟨asked, spec, found⟩ each, ?_⟩
        simp [attributesOf, found]
      · rintro ⟨_, each, rfl⟩
        obtain ⟨imported, visited, ⟨asked, spec, found⟩, rest, rfl⟩ :=
          forall₂_cons_left_iff.mp each
        refine ⟨_, ⟨imported, asked, spec, found, rfl⟩, visited, rest, ?_⟩
        simp [attributesOf, found]

/-- The specifications that are imported are read without their own imports. -/
theorem readSpecification_true :
    ReadSpecification agent request true = .ok last ↔ ∃ spec, agent request = some spec ∧
      spec.imports.foldlM (importStep (served agent) request) spec = .ok last := by
  have inner : (fun imported => ReadSpecification agent imported false) = served agent := by
    funext imported
    rw [ReadSpecification]
  rw [ReadSpecification, inner, bind_eq_ok_iff]
  simp only [served_ok_iff]

end

/-- If everything that is imported is served, the loop comes to its end for given arguments. -/
theorem exists_visited {request : SpecRequest} {imports : List Text}
    (given : request.Given ∨ ∀ imported_interface ∈ imports, imported_interface = baseTypes)
    (parses : ∀ imported_interface ∈ imports, imported_interface ≠ baseTypes →
      ∃ parts, parseImport imported_interface = .ok parts)
    (servedToo : ∀ imported_interface ∈ imports, imported_interface ≠ baseTypes →
      ∀ imported, importRequest request imported_interface = .ok imported →
        Served agent imported) :
    ∃ visited, List.Forall₂ (fun imported_interface imported =>
      importRequest request imported_interface = .ok imported ∧ ∃ spec, agent imported = some spec)
      (imports.filter (· ≠ baseTypes)) visited := by
  induction imports with
  | nil => exact ⟨[], .nil⟩
  | cons imported_interface imports ih =>
    obtain ⟨visited, each⟩ := ih
      (given.imp_right fun base other listed => base other (mem_cons_of_mem _ listed))
      (fun other listed => parses other (mem_cons_of_mem _ listed))
      (fun other listed => servedToo other (mem_cons_of_mem _ listed))
    by_cases skipped : imported_interface = baseTypes
    · rw [filter_cons_of_neg (by simpa using skipped)]
      exact ⟨visited, each⟩
    · rw [filter_cons_of_pos (by simpa using skipped)]
      have isGiven : request.Given := given.resolve_right fun base =>
        skipped (base imported_interface mem_cons_self)
      have readable := parses imported_interface mem_cons_self skipped
      obtain ⟨imported, asked⟩ := (importRequest_ok_iff readable).mpr isGiven
      obtain ⟨spec, found, _⟩ :=
        servedToo imported_interface mem_cons_self skipped imported asked
      exact ⟨imported :: visited, .cons ⟨asked, spec, found⟩ each⟩

theorem mem_visited_iff {request imported : SpecRequest} {spec : ComponentSpec Attribute Rest}
    {visited : List SpecRequest} (found : agent request = some spec)
    (each : List.Forall₂ (fun imported_interface imported =>
      importRequest request imported_interface = .ok imported ∧ ∃ spec, agent imported = some spec)
      (spec.imports.filter (· ≠ baseTypes)) visited) :
    imported ∈ visited ↔ Imports agent request imported := by
  constructor
  · intro listed
    obtain ⟨index, inside, rfl⟩ := getElem_of_mem listed
    have sameLength := each.length_eq
    have within : index < (spec.imports.filter (· ≠ baseTypes)).length := by omega
    obtain ⟨asked, _⟩ := (forall₂_iff_get.mp each).2 index within inside
    have isImport := mem_filter.mp (getElem_mem within)
    exact ⟨spec, _, found, isImport.1, by simpa using isImport.2, asked⟩
  · rintro ⟨other, imported_interface, isSpec, listed, notBase, asked⟩
    cases found.symm.trans isSpec
    have kept : imported_interface ∈ spec.imports.filter (· ≠ baseTypes) :=
      mem_filter.mpr ⟨listed, by simpa using notBase⟩
    obtain ⟨index, within, rfl⟩ := getElem_of_mem kept
    have sameLength := each.length_eq
    have inside : index < visited.length := by omega
    obtain ⟨same, _⟩ := (forall₂_iff_get.mp each).2 index within inside
    cases asked.symm.trans same
    exact getElem_mem inside

/-- All attributes are read exactly if every attribute of a specification that is reached is one
of a specification that is imported directly, and the class and the type are given if there is
anything to import. -/
theorem readSpecification_readsAll_iff (agent : SpecRequest → Option (ComponentSpec Attribute Rest))
    (request : SpecRequest) (isServed : Served agent request)
    (servedToo : ∀ reached, Reaches agent request reached → Served agent reached) :
    ReadsAll agent request ↔
      (request.Given ∨ ∀ spec, agent request = some spec →
        ∀ imported_interface ∈ spec.imports, imported_interface = baseTypes) ∧
      ∀ reached, Reaches agent request reached → ∀ item ∈ attributesOf agent reached,
        ∃ imported, Imports agent request imported ∧ item ∈ attributesOf agent imported := by
  obtain ⟨spec, found, parses⟩ := isServed
  have loop : ∀ last, ReadSpecification agent request true = .ok last ↔
      spec.imports.foldlM (importStep (served agent) request) spec = .ok last := by
    intro last
    simp [readSpecification_true, found]
  constructor
  · rintro ⟨other, visited, isSpec, _, read, all⟩
    cases found.symm.trans isSpec
    obtain ⟨directs, each, same⟩ := foldlM_importStep.mp ((loop _).mp read)
    have sameAttributes : visited.flatMap (attributesOf agent) =
        directs.flatMap (attributesOf agent) := by
      have whole := congrArg ComponentSpec.attributes same
      exact append_cancel_left whole
    refine ⟨?_, fun reached way item listed => ?_⟩
    · by_cases base : ∀ imported_interface ∈ spec.imports, imported_interface = baseTypes
      · refine Or.inr fun other isSpec => ?_
        cases found.symm.trans isSpec
        exact base
      · simp only [not_forall] at base
        obtain ⟨imported_interface, isImport, notBase⟩ := base
        have kept : imported_interface ∈ spec.imports.filter (· ≠ baseTypes) :=
          mem_filter.mpr ⟨isImport, by simpa using notBase⟩
        obtain ⟨index, within, rfl⟩ := getElem_of_mem kept
        have sameLength := each.length_eq
        obtain ⟨asked, _⟩ := (forall₂_iff_get.mp each).2 index within (by omega)
        exact Or.inl ((importRequest_ok_iff (parses _ isImport notBase)).mp ⟨_, asked⟩)
    · have present := all reached way item listed
      rw [sameAttributes] at present
      obtain ⟨imported, direct, isItem⟩ := mem_flatMap.mp present
      exact ⟨imported, (mem_visited_iff found each).mp direct, isItem⟩
  · rintro ⟨given, all⟩
    obtain ⟨directs, each⟩ := @exists_visited _ _ agent request spec.imports (given.imp_right (· spec found)) parses
      fun imported_interface listed notBase imported asked =>
        servedToo imported (.single ⟨spec, imported_interface, found, listed, notBase, asked⟩)
    have isDirect := fun imported => @mem_visited_iff _ _ agent request imported spec directs found each
    refine ⟨spec, directs, found, fun reached listed => .single ((isDirect reached).mp listed), ?_,
      fun reached way item listed => ?_⟩
    · exact (loop _).mpr (foldlM_importStep.mpr ⟨directs, each, rfl⟩)
    · obtain ⟨imported, direct, isItem⟩ := all reached way item listed
      exact mem_flatMap.mpr ⟨imported, (isDirect imported).mpr direct, isItem⟩

end Source

/-! ## A chain of imports -/

/-- The request for one version of an interface. -/
def chainRequest (version : Int) : SpecRequest :=
  ⟨"I".toList.map fun char => UInt8.ofNat char.toNat, some 4, some 7, version, 0, [112]⟩

/-- Version 1 imports version 2, and version 2 imports version 3; each has its own attribute. -/
def chainAgent (request : SpecRequest) : Option (ComponentSpec Nat Unit) :=
  match request.target_version_major with
  | 1 => some ⟨["p@2.0::I".toList.map fun char => UInt8.ofNat char.toNat], [1], ()⟩
  | 2 => some ⟨["p@3.0::I".toList.map fun char => UInt8.ofNat char.toNat], [2], ()⟩
  | 3 => some ⟨[], [3], ()⟩
  | _ => none

section

variable {imported : SpecRequest}

theorem chainAgent_imports_first :
    Imports chainAgent (chainRequest 1) imported ↔ imported = chainRequest 2 := by
  have asked : importRequest (chainRequest 1)
      ("p@2.0::I".toList.map fun char => UInt8.ofNat char.toNat) = .ok (chainRequest 2) := by
    decide +kernel
  exact imports_single rfl rfl (by decide +kernel) asked

theorem chainAgent_imports_second :
    Imports chainAgent (chainRequest 2) imported ↔ imported = chainRequest 3 := by
  have asked : importRequest (chainRequest 2)
      ("p@3.0::I".toList.map fun char => UInt8.ofNat char.toNat) = .ok (chainRequest 3) := by
    decide +kernel
  exact imports_single rfl rfl (by decide +kernel) asked

theorem chainAgent_imports_third : ¬ Imports chainAgent (chainRequest 3) imported := by
  rintro ⟨_, _, found, listed, _⟩
  cases found
  cases listed

end

theorem chainAgent_reaches_second {reached : SpecRequest}
    (way : Reaches chainAgent (chainRequest 2) reached) : reached = chainRequest 3 := by
  induction way with
  | single direct => exact chainAgent_imports_second.mp direct
  | tail _ last ih =>
    rw [ih] at last
    exact absurd last chainAgent_imports_third

theorem chainAgent_served : Served chainAgent (chainRequest 1) ∧
    Served chainAgent (chainRequest 2) ∧ Served chainAgent (chainRequest 3) := by
  refine ⟨⟨_, rfl, fun imported_interface listed _ => ?_⟩,
    ⟨_, rfl, fun imported_interface listed _ => ?_⟩,
    ⟨_, rfl, fun imported_interface listed _ => absurd listed (by simp)⟩⟩
  · cases mem_singleton.mp listed
    exact ⟨([73], 2, 0, [112]), by decide +kernel⟩
  · cases mem_singleton.mp listed
    exact ⟨([73], 3, 0, [112]), by decide +kernel⟩

/-- With one step of imports nothing is missing. -/
theorem readSpecification_oneStep : ReadsAll chainAgent (chainRequest 2) := by
  refine (readSpecification_readsAll_iff chainAgent (chainRequest 2) chainAgent_served.2.1
    fun reached way => ?_).mpr ⟨Or.inl ⟨by decide, by decide⟩, fun reached way item listed => ?_⟩
  · rw [chainAgent_reaches_second way]
    exact chainAgent_served.2.2
  · rw [chainAgent_reaches_second way] at listed
    exact ⟨_, chainAgent_imports_second.mpr rfl, listed⟩

/-- With two steps the attribute of the last version is missing. -/
theorem readSpecification_twoSteps :
    (Served chainAgent (chainRequest 1) ∧
      ∀ reached, Reaches chainAgent (chainRequest 1) reached → Served chainAgent reached) ∧
    ¬ ReadsAll chainAgent (chainRequest 1) := by
  have ways : ∀ reached, Reaches chainAgent (chainRequest 1) reached →
      reached = chainRequest 2 ∨ reached = chainRequest 3 := by
    intro reached way
    induction way with
    | single direct => exact Or.inl (chainAgent_imports_first.mp direct)
    | tail _ last ih =>
      rcases ih with rfl | rfl
      · exact Or.inr (chainAgent_imports_second.mp last)
      · exact absurd last chainAgent_imports_third
  refine ⟨⟨chainAgent_served.1, fun reached way => ?_⟩, ?_⟩
  · rcases ways reached way with rfl | rfl
    · exact chainAgent_served.2.1
    · exact chainAgent_served.2.2
  · rintro ⟨spec, visited, found, _, read, all⟩
    cases found
    have direct : Imports chainAgent (chainRequest 1) (chainRequest 2) :=
      chainAgent_imports_first.mpr rfl
    have second : Imports chainAgent (chainRequest 2) (chainRequest 3) :=
      chainAgent_imports_second.mpr rfl
    obtain ⟨spec, isSpec, loop⟩ := readSpecification_true.mp read
    cases isSpec
    obtain ⟨directs, each, same⟩ := foldlM_importStep.mp loop
    have sameAttributes := append_cancel_left (congrArg ComponentSpec.attributes same)
    have missing := all (chainRequest 3) (.tail (.single direct) second) 3 (by decide)
    rw [sameAttributes] at missing
    obtain ⟨imported, listed, isItem⟩ := mem_flatMap.mp missing
    rw [chainAgent_imports_first.mp ((mem_visited_iff rfl each).mp listed)] at isItem
    exact absurd isItem (by decide)

end Vts.Host
