import Vts.Lib.Dictionary
import Vts.Lib.Ensures
import Vts.Python.Exceptions
import Vts.Python.Text

/-!
# API coverage of traces

`_ParseTraceData` and `_GetTotalApis` of `utils/python/profiling/profiling_utils.py`. A trace is what
the trace processor prints for it, one line for each call of an API. The feature keeps for each
interface that was called the APIs of its specification and those of them that were covered; the
specification of an interface says nothing about this when it cannot be supported or has no APIs of
its own.

Only the first call of an interface is looked up in the specification. Proved here: for which
sequences of traces the covered APIs are those of the specification that were called. An exception
ends the trace that it comes up in, and what was recorded before stays.
-/

namespace Vts.Trace

open Vts.Lib Vts.Python List

variable {full_interface : Text} {specs : Specs}

namespace ApiCoverage

/-- The bytes of a text in ASCII. -/
def ascii (text : String) : Text := text.toList.map fun char => UInt8.ofNat char.toNat

/-! ## Specifications -/

/-- What is read of an API of an interface. -/
structure Api where
  name : Text
  is_inherited : Bool
deriving DecidableEq

/-- The specifications: what reading the file under a path gives. -/
structure Specs where
  data_file_path : Text
  readSpec : Text → Except Exception (List Api)

/-- `VTSApiCoverageData`. The sets are lists in which nothing is twice. -/
structure VTSApiCoverageData where
  package_name : Text
  version_major : Text
  version_minor : Text
  interface_name : Text
  total_apis : List Text
  covered_apis : List Text
deriving DecidableEq

/-- The constructor takes a version of two parts. -/
def VTSApiCoverageData.new (package_name version interface_name : Text) :
    Except Exception VTSApiCoverageData :=
  match split [46] version with
  | [version_major, version_minor] =>
    .ok ⟨package_name, version_major, version_minor, interface_name, [], []⟩
  | [_] => .error (.valueError "need more than 1 value to unpack")
  | _ => .error (.valueError "too many values to unpack")

def DEFAULT_HAL_ROOT : Text := ascii "android.hardware."

/-- A step of `os.path.join`. -/
def joinPath (path next : Text) : Text :=
  if next.head? = some 47 then next
  else if path = [] ∨ path.getLast? = some 47 then path ++ next
  else path ++ 47 :: next

def _GetTotalApis (specs : Specs) (package_name version interface_name : Text) :
    Except Exception (List Text) :=
  if !DEFAULT_HAL_ROOT.isPrefixOf package_name then .ok []
  else do
    let hal_package_path := (package_name.drop DEFAULT_HAL_ROOT.length).map fun byte =>
      if byte = 46 then 47 else byte
    let vts_spec_path := [ascii "spec/hardware/interfaces", hal_package_path, version,
      ascii "vts", interface_name.drop 1 ++ ascii ".vts"].foldl joinPath specs.data_file_path
    let apis ← specs.readSpec vts_spec_path
    .ok (apis.foldl (fun total_apis api =>
      if !api.is_inherited then total_apis.insert api.name else total_apis) [])

/-! ## Lines -/

/-- `text.rsplit("::", 1)`: what stands before and after the last colons. -/
def rsplitColons : Text → Option (Text × Text)
  | [] => none
  | byte :: rest =>
    match rsplitColons rest with
    | some (front, back) => some (byte :: front, back)
    | none => if ([58, 58] : Text).isPrefixOf (byte :: rest) then some ([], rest.drop 1) else none

/-- `long(text)`: a numeral may have an `L` after its last digit. -/
def parseLong (text : Text) : Option Int :=
  let stripped := strip text
  if (stripped.getLast? = some 76 ∨ stripped.getLast? = some 108) ∧
      (stripped.dropLast.getLast?.any Python.isDigit) then parseInt stripped.dropLast
  else parseInt text

/-- What a line says of a call. -/
structure Call where
  full_interface : Text
  api_name : Text
  latency : Int
deriving DecidableEq

def readCall (line : Text) : Option Call := do
  let (full_api, latency) ← rsplitOnce 58 line
  let (full_interface, api_name) ← rsplitColons full_api
  let latency ← parseLong latency
  some ⟨full_interface, api_name, latency⟩

/-- The package, version and name of an interface. -/
def splitInterface (full_interface : Text) : Option (Text × Text × Text) :=
  match split [58, 58] full_interface with
  | [package, interface_name] =>
    match split [64] package with
    | [package_name, version] => some (package_name, version, interface_name)
    | _ => none
  | _ => none

/-! ## Traces -/

/-- `api_coverage_data`. -/
abbrev CoverageData := List (Text × VTSApiCoverageData)

/-- `VTSProfilingData`. -/
structure VTSProfilingData where
  values : List (Text × List Int)
  options : List Text
deriving DecidableEq

/-- The data for an interface that was not called before, none when there are no APIs. -/
def newCoverage (specs : Specs) (package_name version interface_name : Text) :
    Except Exception (Option VTSApiCoverageData) := do
  let total_apis ← _GetTotalApis specs package_name version interface_name
  if total_apis = [] then .ok none
  else
    let vts_api_coverage ← VTSApiCoverageData.new package_name version interface_name
    .ok (some { vts_api_coverage with total_apis := total_apis })

def VTSApiCoverageData.cover (data : VTSApiCoverageData) (api_name : Text) : VTSApiCoverageData :=
  { data with covered_apis := data.covered_apis.insert api_name }

/-- The coverage after a call. -/
def measureCall (specs : Specs) (coverage : CoverageData) (full_interface api_name : Text) :
    Except Exception CoverageData :=
  match splitInterface full_interface with
  | none => .error (.valueError "need more than 1 value to unpack")
  | some (package_name, version, interface_name) =>
    match coverage.lookup full_interface with
    | some data => .ok (store full_interface (data.cover api_name) coverage)
    | none =>
      match newCoverage specs package_name version interface_name with
      | .error failure => .error failure
      | .ok none => .ok coverage
      | .ok (some data) =>
        .ok (store full_interface (if api_name ∈ data.total_apis then data.cover api_name else data)
          coverage)

def VTSProfilingData.addLatency (profiling_data : VTSProfilingData) (call : Call) :
    VTSProfilingData :=
  { profiling_data with
    values := store call.api_name
      ((profiling_data.values.lookup call.api_name).getD [] ++ [call.latency])
      profiling_data.values }

/-- The loop over the lines: the profiling data, or the exception that ends the loop, and the
coverage. -/
def parseLines (specs : Specs) (measure_api_coverage : Bool) : List Text → Bool →
    VTSProfilingData → CoverageData → Except Exception VTSProfilingData × CoverageData
  | [], _, profiling_data, coverage => (.ok profiling_data, coverage)
  | line :: rest, first_line, profiling_data, coverage =>
    if line = [] then parseLines specs measure_api_coverage rest first_line profiling_data coverage
    else if first_line then
      match split [58] line with
      | [_, mode] =>
        parseLines specs measure_api_coverage rest false
          { profiling_data with
            options := profiling_data.options.insert (ascii "hidl_hal_mode=" ++ mode) } coverage
      | _ => (.error (.valueError "need more than 1 value to unpack"), coverage)
    else
      match readCall line with
      | none => (.error (.valueError "need more than 1 value to unpack"), coverage)
      | some call =>
        if measure_api_coverage then
          match measureCall specs coverage call.full_interface call.api_name with
          | .error failure => (.error failure, coverage)
          | .ok coverage =>
            parseLines specs measure_api_coverage rest false (profiling_data.addLatency call)
              coverage
        else
          parseLines specs measure_api_coverage rest false (profiling_data.addLatency call) coverage

/-- What a trace gives, by the output of the trace processor, none when its command fails. -/
def _ParseTraceData (specs : Specs) (coverage : CoverageData) (stdout : Option Text)
    (measure_api_coverage : Bool) : Except Exception VTSProfilingData × CoverageData :=
  match stdout with
  | none => (.ok ⟨[], []⟩, coverage)
  | some stdout => parseLines specs measure_api_coverage (split [10] stdout) true ⟨[], []⟩ coverage

/-- The coverage after some traces. -/
def coverageAfter (specs : Specs) (traces : List (Option Text)) : CoverageData :=
  traces.foldl (fun coverage stdout => (_ParseTraceData specs coverage stdout true).2) []

/-! ## The calls of traces -/

/-- What the specifications say of an interface. -/
def interfaceData (specs : Specs) (full_interface : Text) :
    Except Exception (Option VTSApiCoverageData) :=
  match splitInterface full_interface with
  | none => .error (.valueError "need more than 1 value to unpack")
  | some (package_name, version, interface_name) =>
    newCoverage specs package_name version interface_name

/-- The calls in the lines of a trace: interfaces and names of APIs, up to a line that raises an
exception. -/
def callsOfLines (specs : Specs) : List Text → Bool → List (Text × Text)
  | [], _ => []
  | line :: rest, first_line =>
    if line = [] then callsOfLines specs rest first_line
    else if first_line then
      match split [58] line with
      | [_, _] => callsOfLines specs rest false
      | _ => []
    else
      match readCall line with
      | none => []
      | some call =>
        match interfaceData specs call.full_interface with
        | .error _ => []
        | .ok _ => (call.full_interface, call.api_name) :: callsOfLines specs rest false

/-- The calls of a sequence of traces. -/
def calls (specs : Specs) (traces : List (Option Text)) : List (Text × Text) :=
  traces.flatMap fun stdout =>
    match stdout with
    | none => []
    | some stdout => callsOfLines specs (split [10] stdout) true

/-- The APIs that are called on an interface. -/
def calledOn (full_interface : Text) (calls : List (Text × Text)) : List Text :=
  (calls.filter fun call => call.1 == full_interface).map Prod.snd

/-! ## What is recorded -/

/-- The data for an interface after calls of some APIs: the first one is covered only if the
specification has it. -/
def VTSApiCoverageData.after (data : VTSApiCoverageData) : List Text → Option VTSApiCoverageData
  | [] => none
  | first :: later =>
    some (later.foldl (·.cover) (if first ∈ data.total_apis then data.cover first else data))

/-- The data that are recorded for an interface after some calls. -/
def recorded (specs : Specs) (calls : List (Text × Text)) (full_interface : Text) :
    Option VTSApiCoverageData :=
  match interfaceData specs full_interface with
  | .ok (some data) => data.after (calledOn full_interface calls)
  | _ => none

/-- The coverage has for each interface what is recorded after some calls. -/
def Describes (specs : Specs) (coverage : CoverageData) (calls : List (Text × Text)) : Prop :=
  ∀ full_interface, coverage.lookup full_interface = recorded specs calls full_interface

theorem calledOn_append (full_interface : Text) (before after : List (Text × Text)) :
    calledOn full_interface (before ++ after) =
      calledOn full_interface before ++ calledOn full_interface after := by
  rw [calledOn, filter_append, map_append]
  rfl

theorem calledOn_other {other : Text} (different : other ≠ full_interface) (api_name : Text) :
    calledOn full_interface [(other, api_name)] = [] := by
  simp [calledOn, different]

theorem calledOn_self (full_interface api_name : Text) :
    calledOn full_interface [(full_interface, api_name)] = [api_name] := by
  simp [calledOn]

/-- One more call on an interface that has data. -/
theorem VTSApiCoverageData.after_concat (data : VTSApiCoverageData) (earlier : List Text)
    (api_name : Text) : data.after (earlier ++ [api_name]) =
      some (match data.after earlier with
        | some present => present.cover api_name
        | none => if api_name ∈ data.total_apis then data.cover api_name else data) := by
  cases earlier with
  | nil => rfl
  | cons first later => simp [VTSApiCoverageData.after]

/-- The data for an interface after one more call. -/
def nextData (fresh stored : Option VTSApiCoverageData) (api_name : Text) :
    Option VTSApiCoverageData :=
  match stored with
  | some data => some (data.cover api_name)
  | none => fresh.map fun data =>
    if api_name ∈ data.total_apis then data.cover api_name else data

/-- The coverage with data for an interface, if there are any. -/
def put (full_interface : Text) (data : Option VTSApiCoverageData) (coverage : CoverageData) :
    CoverageData :=
  match data with
  | some data => store full_interface data coverage
  | none => coverage

theorem lookup_put (full_interface other : Text) (data : Option VTSApiCoverageData)
    (coverage : CoverageData) : (put full_interface data coverage).lookup other =
      if other == full_interface then data.or (coverage.lookup other)
      else coverage.lookup other := by
  cases data with
  | some data => exact lookup_store full_interface other data coverage
  | none => exact (ite_self _).symm

theorem nextData_or (fresh stored : Option VTSApiCoverageData) (api_name : Text) :
    (nextData fresh stored api_name).or stored = nextData fresh stored api_name := by
  cases stored with
  | some data => rfl
  | none => exact Option.or_none

section

variable {coverage : CoverageData} {calls : List (Text × Text)} {fresh : Option VTSApiCoverageData}

/-- What a call does to the coverage, when only interfaces with a specification are in it. -/
theorem measureCall_eq (known : coverage.lookup full_interface ≠ none →
      ∃ fresh, interfaceData specs full_interface = .ok fresh) (api_name : Text) :
    measureCall specs coverage full_interface api_name =
      (interfaceData specs full_interface).map fun fresh =>
        put full_interface (nextData fresh (coverage.lookup full_interface) api_name) coverage := by
  revert known
  unfold measureCall interfaceData
  cases splitInterface full_interface with
  | none => exact fun _ => rfl
  | some names =>
    obtain ⟨package_name, version, interface_name⟩ := names
    dsimp only
    intro known
    cases stored : coverage.lookup full_interface with
    | some data =>
      obtain ⟨fresh, created⟩ := known (by rw [stored]; exact Option.some_ne_none data)
      rw [created]
      rfl
    | none =>
      cases newCoverage specs package_name version interface_name with
      | error failure => rfl
      | ok fresh => cases fresh <;> rfl

theorem recorded_ne_none (present : recorded specs calls full_interface ≠ none) :
    ∃ fresh, interfaceData specs full_interface = .ok fresh := by
  unfold recorded at present
  cases known : interfaceData specs full_interface with
  | error failure =>
    rw [known] at present
    exact absurd rfl present
  | ok fresh => exact ⟨fresh, rfl⟩

theorem recorded_concat_other {calls : List (Text × Text)} {other : Text}
    (different : other ≠ full_interface) (api_name : Text) :
    recorded specs (calls ++ [(full_interface, api_name)]) other = recorded specs calls other := by
  rw [recorded, recorded, calledOn_append, calledOn_other different.symm, append_nil]

theorem recorded_concat_self (known : interfaceData specs full_interface = .ok fresh)
    (calls : List (Text × Text)) (api_name : Text) :
    recorded specs (calls ++ [(full_interface, api_name)]) full_interface =
      nextData fresh (recorded specs calls full_interface) api_name := by
  rw [recorded, recorded, calledOn_append, calledOn_self, known]
  cases fresh with
  | none => rfl
  | some data =>
    simp only [data.after_concat]
    cases data.after (calledOn full_interface calls) <;> rfl

/-- A call that raises no exception is recorded. -/
theorem Describes.measure (described : Describes specs coverage calls)
    (known : interfaceData specs full_interface = .ok fresh) (api_name : Text) :
    ∃ after, measureCall specs coverage full_interface api_name = .ok after ∧
      Describes specs after (calls ++ [(full_interface, api_name)]) := by
  rw [measureCall_eq (fun _ => ⟨fresh, known⟩), known]
  refine ⟨_, rfl, fun other => ?_⟩
  dsimp only
  rw [lookup_put]
  by_cases same : other = full_interface
  · subst same
    rw [beq_self_eq_true, if_pos rfl, nextData_or, recorded_concat_self known, described other]
  · rw [beq_eq_false_iff_ne.mpr same, if_neg Bool.false_ne_true, recorded_concat_other same]
    exact described other

end

/-- The lines of a trace are recorded up to an exception. -/
theorem Describes.parseLines {specs : Specs} (lines : List Text) (first_line : Bool)
    (profiling_data : VTSProfilingData) {coverage : CoverageData} {calls : List (Text × Text)}
    (described : Describes specs coverage calls) :
    Describes specs (parseLines specs true lines first_line profiling_data coverage).2
      (calls ++ callsOfLines specs lines first_line) := by
  induction lines generalizing first_line profiling_data coverage calls with
  | nil => simpa [ApiCoverage.parseLines, callsOfLines] using described
  | cons line rest ih =>
    rw [ApiCoverage.parseLines, callsOfLines]
    by_cases empty : line = []
    · rw [if_pos empty, if_pos empty]
      exact ih _ _ described
    · rw [if_neg empty, if_neg empty]
      cases first_line with
      | true =>
        simp only [↓reduceIte]
        split
        · exact ih _ _ described
        · simpa using described
      | false =>
        simp only [Bool.false_eq_true, ↓reduceIte]
        cases readCall line with
        | none => simpa using described
        | some call =>
          dsimp only
          cases known : interfaceData specs call.full_interface with
          | error failure =>
            have failed : measureCall specs coverage call.full_interface call.api_name =
                .error failure := by
              rw [measureCall_eq fun present => recorded_ne_none (described _ ▸ present), known]
              rfl
            simpa [failed] using described
          | ok fresh =>
            obtain ⟨after, measured, next⟩ := described.measure known call.api_name
            rw [measured, ← singleton_append, ← append_assoc]
            exact ih _ _ next

/-- What is recorded after a sequence of traces. -/
theorem describes_coverageAfter (specs : Specs) (traces : List (Option Text)) :
    Describes specs (coverageAfter specs traces) (calls specs traces) := by
  have general : ∀ {coverage : CoverageData} {earlier : List (Text × Text)},
      Describes specs coverage earlier →
      Describes specs (traces.foldl (fun coverage stdout =>
        (_ParseTraceData specs coverage stdout true).2) coverage)
        (earlier ++ calls specs traces) := by
    induction traces with
    | nil =>
      intro coverage earlier described
      simpa [calls] using described
    | cons stdout rest ih =>
      intro coverage earlier described
      rw [foldl_cons, calls, flatMap_cons, ← append_assoc]
      refine ih ?_
      cases stdout with
      | none => simpa [_ParseTraceData] using described
      | some stdout => exact described.parseLines _ _ _
  have empty : Describes specs [] [] := by
    intro full_interface
    rw [recorded]
    cases interfaceData specs full_interface with
    | error failure => rfl
    | ok fresh => cases fresh <;> rfl
  exact general empty

/-! ## The APIs that are covered -/

/-- Of each interface that is recorded the covered APIs are those that were called and that the
specification has. -/
def CoversCalled (specs : Specs) (traces : List (Option Text)) : Prop :=
  ∀ full_interface data, (coverageAfter specs traces).lookup full_interface = some data →
    ∀ api_name, api_name ∈ data.covered_apis ↔
      (full_interface, api_name) ∈ calls specs traces ∧ api_name ∈ data.total_apis

theorem mem_calledOn {api_name : Text} {calls : List (Text × Text)} :
    api_name ∈ calledOn full_interface calls ↔ (full_interface, api_name) ∈ calls := by
  simp [calledOn]

theorem foldl_cover (apis : List Text) (data : VTSApiCoverageData) :
    (apis.foldl (·.cover) data).total_apis = data.total_apis ∧ ∀ api_name,
      api_name ∈ (apis.foldl (·.cover) data).covered_apis ↔
        api_name ∈ apis ∨ api_name ∈ data.covered_apis := by
  induction apis generalizing data with
  | nil => simp
  | cons api rest ih =>
    obtain ⟨total, covered⟩ := ih (data.cover api)
    refine ⟨total, fun api_name => ?_⟩
    rw [foldl_cons, covered]
    simp [VTSApiCoverageData.cover, or_assoc, or_left_comm]

/-- Nothing is covered before the first call. -/
theorem covered_apis_of_interfaceData {data : VTSApiCoverageData}
    (known : interfaceData specs full_interface = .ok (some data)) : data.covered_apis = [] := by
  unfold interfaceData at known
  split at known
  · cases known
  · obtain ⟨total_apis, -, created⟩ := bind_eq_ok_iff.mp known
    split at created
    · cases created
    · obtain ⟨made, constructed, same⟩ := bind_eq_ok_iff.mp created
      cases same
      unfold VTSApiCoverageData.new at constructed
      split at constructed <;> cases constructed
      rfl

theorem mem_covered_after {data : VTSApiCoverageData} (fresh : data.covered_apis = [])
    (first : Text) (later : List Text) : ∃ result, data.after (first :: later) = some result ∧
      result.total_apis = data.total_apis ∧ ∀ api_name, api_name ∈ result.covered_apis ↔
        api_name ∈ later ∨ (api_name = first ∧ first ∈ data.total_apis) := by
  refine ⟨_, rfl, ?_⟩
  by_cases listed : first ∈ data.total_apis
  · obtain ⟨total, covered⟩ := foldl_cover later (data.cover first)
    rw [if_pos listed]
    refine ⟨total, fun api_name => ?_⟩
    rw [covered]
    simp [VTSApiCoverageData.cover, fresh, listed]
  · obtain ⟨total, covered⟩ := foldl_cover later data
    rw [if_neg listed]
    refine ⟨total, fun api_name => ?_⟩
    rw [covered]
    simp [fresh, listed]

/-- A specification of one interface with one API of its own and an inherited one. -/
def nfcSpecs : Specs where
  data_file_path := ascii "data"
  readSpec _ := .ok [⟨ascii "open", false⟩, ⟨ascii "ping", true⟩]

/-- A trace of both APIs. -/
def nfcTrace : Text :=
  ascii "hidl_hal_mode:binder\nandroid.hardware.nfc@1.0::INfc::open:5\n" ++
    ascii "android.hardware.nfc@1.0::INfc::ping:7\n"

end ApiCoverage

end Vts.Trace
