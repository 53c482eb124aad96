import Vts.Trace.TestList

/-!
# The tests that cover a HAL

`GetTestListForHal` of `utils/native/trace_processor/VtsTraceProcessor.cpp`. It scans the
summaries of a HAL in their order and chooses each test with an API that no test before it
calls. By default the chosen tests are output; verbose output has all tests.

Proved here: the chosen tests call each API that any test calls on the HAL, and each of them
calls one that no test before it calls.
-/

namespace Vts.Trace

open Vts.Lib List

/-- The APIs that are covered so far and the tests chosen for it, a `set<string>`. -/
structure TestChoice where
  covered_apis : List String
  test_list : OrderedMap String Unit

/-- One round of the loop over the APIs of a test. -/
def coverApi (test_name : String) (choice : TestChoice) (api : String) : TestChoice :=
  if api ∈ choice.covered_apis then choice
  else ⟨choice.covered_apis ++ [api], choice.test_list.insert test_name ()⟩

/-- One round of the loop over the summaries. -/
def coverTest (choice : TestChoice) (summary : TraceSummary) : TestChoice :=
  summary.api_stats.keys.foldl (coverApi summary.test_name) choice

/-- What is output for a test. -/
structure OutputTest where
  test_name : String
  unique_api_count : Int
  total_api_count : Int
deriving DecidableEq

def TraceSummary.output (summary : TraceSummary) : OutputTest :=
  ⟨summary.test_name, summary.unique_api_count, summary.total_api_count⟩

/-- The tests that are output for the summaries of a HAL. -/
def outputTests (verbose_output : Bool) (trace_summaries : List TraceSummary) :
    List OutputTest :=
  if verbose_output then trace_summaries.map TraceSummary.output
  else
    (trace_summaries.foldl coverTest ⟨[], OrderedMap.empty⟩).test_list.keys.filterMap fun test =>
      (trace_summaries.find? (·.test_name = test)).map TraceSummary.output

variable (test_name : String)

section

variable {Rest : Type}

/-- `GetTestListForHal`: the HALs with the tests that are output for them. -/
def GetTestListForHal (sorting : Sorting better) (test_trace_dir : TestDir Rest)
    (verbose_output : Bool) : OrderedMap String (List OutputTest) :=
  (GetHalTraceMapping sorting test_trace_dir).mapValues (outputTests verbose_output)

/-- Tests that are output for the summaries of a HAL call all of its APIs, and each of them
calls one that no test before it calls. -/
structure CoversHal (test_trace_dir : TestDir Rest) (hal_name : String)
    (summaries : List TraceSummary) (tests : List OutputTest) : Prop where
  summarized : ∀ test ∈ tests, ∃ summary ∈ summaries, summary.output = test
  covers : ∀ test_name, ∀ api ∈ calls test_trace_dir test_name hal_name,
    ∃ test ∈ tests, api ∈ calls test_trace_dir test.test_name hal_name
  contributes : ∀ before summary after, summaries = before ++ summary :: after →
    summary.output ∈ tests → ∃ api ∈ calls test_trace_dir summary.test_name hal_name,
      ∀ earlier ∈ before, api ∉ calls test_trace_dir earlier.test_name hal_name

/-! ## The mapping -/

theorem listed_mapping (sorting : Sorting better) (test_trace_dir : TestDir Rest)
    (hal_name : String) :
    (GetHalTraceMapping sorting test_trace_dir).listed hal_name =
      sorting.sort ((traceSummaries test_trace_dir).filter (·.hal = hal_name)) := by
  unfold GetHalTraceMapping
  rw [OrderedMap.listed, OrderedMap.find_mapValues, find_pushed]
  cases (traceSummaries test_trace_dir).filter (·.hal = hal_name) with
  | nil => exact (sorting.perm []).eq_nil.symm
  | cons first rest => rfl

/-- Each test and each HAL that it calls have one summary in the mapping. -/
theorem mapping_summarizes (sorting : Sorting better) (test_trace_dir : TestDir Rest)
    (hal_name : String) :
    Summarizes test_trace_dir hal_name
      ((GetHalTraceMapping sorting test_trace_dir).listed hal_name) := by
  have summed := summed_traceSummaries test_trace_dir
  rw [listed_mapping]
  have perm := sorting.perm ((traceSummaries test_trace_dir).filter (·.hal = hal_name))
  have own : ∀ {summary}, summary ∈ sorting.sort
      ((traceSummaries test_trace_dir).filter (·.hal = hal_name)) ↔
        summary ∈ traceSummaries test_trace_dir ∧ summary.hal = hal_name := by
    intro summary
    rw [perm.mem_iff, mem_filter, decide_eq_true_iff]
  constructor
  · refine ((perm.map _).nodup_iff).mpr (List.Nodup.of_map (fun test => (test, hal_name)) ?_)
    rw [map_map]
    have pairs : ((traceSummaries test_trace_dir).filter (·.hal = hal_name)).map
        ((fun test => (test, hal_name)) ∘ TraceSummary.test_name) =
          ((traceSummaries test_trace_dir).filter (·.hal = hal_name)).map TraceSummary.pair := by
      refine map_congr_left fun summary present => ?_
      have hal := of_decide_eq_true (mem_filter.mp present).2
      rw [TraceSummary.pair, hal]
      rfl
    rw [pairs]
    exact summed.distinct.sublist (filter_sublist.map _)
  · intro test_name
    rw [calls, ← summed.listed, mem_map, mem_map]
    constructor
    · rintro ⟨summary, present, rfl⟩
      obtain ⟨inside, rfl⟩ := own.mp present
      exact ⟨summary, inside, rfl⟩
    · rintro ⟨summary, inside, same⟩
      obtain ⟨rfl, rfl⟩ := Prod.mk.inj same
      exact ⟨summary, own.mpr ⟨inside, rfl⟩, rfl⟩
  · exact fun summary present => (own.mp present).2
  · intro summary present
    obtain ⟨inside, rfl⟩ := own.mp present
    exact summed.counts summary inside
  · refine (sorting.sorted _).imp fun {first second} sorted => ?_
    unfold better at sorted
    simp only [Bool.or_eq_false_iff, Bool.and_eq_false_iff, decide_eq_false_iff_not] at sorted
    omega

/-! ## The scan -/

section

variable (apis : List String) (summaries : List TraceSummary) (choice : TestChoice)
  (api test : String)

theorem mem_coverApi (other : String) :
    other ∈ (coverApi test_name choice api).covered_apis ↔
      other ∈ choice.covered_apis ∨ other = api := by
  unfold coverApi
  split_ifs with known
  · exact (or_iff_left_of_imp fun same => same ▸ known).symm
  · rw [mem_append, mem_singleton]

theorem chosen_coverApi :
    test ∈ (coverApi test_name choice api).test_list.keys ↔
      test ∈ choice.test_list.keys ∨ (test = test_name ∧ api ∉ choice.covered_apis) := by
  unfold coverApi
  split_ifs with known
  · simp [known]
  · rw [OrderedMap.mem_keys_insert]
    simp [known]

theorem mem_coverApis :
    api ∈ (apis.foldl (coverApi test_name) choice).covered_apis ↔
      api ∈ choice.covered_apis ∨ api ∈ apis := by
  induction apis generalizing choice with
  | nil => simp
  | cons first apis ih =>
    rw [foldl_cons, ih, mem_coverApi, mem_cons, or_assoc]

theorem chosen_coverApis :
    test ∈ (apis.foldl (coverApi test_name) choice).test_list.keys ↔
      test ∈ choice.test_list.keys ∨
        (test = test_name ∧ ∃ api ∈ apis, api ∉ choice.covered_apis) := by
  induction apis generalizing choice with
  | nil => simp
  | cons first apis ih =>
    rw [foldl_cons, ih, chosen_coverApi, or_assoc, ← and_or_left]
    refine or_congr_right (and_congr_right fun _ => ?_)
    simp only [mem_coverApi, not_or, exists_mem_cons_iff]
    constructor
    · rintro (new | ⟨api, present, uncovered, _⟩)
      · exact .inl new
      · exact .inr ⟨api, present, uncovered⟩
    · rintro (new | ⟨api, present, uncovered⟩)
      · exact .inl new
      · by_cases same : api = first
        · exact .inl (same ▸ uncovered)
        · exact .inr ⟨api, present, uncovered, same⟩

/-- A test has an API that no summary before its own has. -/
def Contributes (summaries : List TraceSummary) (test : String) : Prop :=
  ∃ before summary after, summaries = before ++ summary :: after ∧ summary.test_name = test ∧
    ∃ api ∈ summary.api_stats.keys, ∀ earlier ∈ before, api ∉ earlier.api_stats.keys

theorem contributes_append (last : TraceSummary) (test : String) :
    Contributes (summaries ++ [last]) test ↔ Contributes summaries test ∨
      (test = last.test_name ∧ ∃ api ∈ last.api_stats.keys,
        ∀ earlier ∈ summaries, api ∉ earlier.api_stats.keys) := by
  constructor
  · rintro ⟨before, summary, after, split, rfl, new⟩
    rcases eq_nil_or_concat after with rfl | ⟨middle, final, rfl⟩
    · obtain ⟨rfl, same⟩ := append_inj' split rfl
      obtain rfl := singleton_injective same
      exact .inr ⟨rfl, new⟩
    · rw [concat_eq_append, ← cons_append, ← append_assoc] at split
      obtain ⟨rfl, _⟩ := append_inj' split rfl
      exact .inl ⟨before, summary, middle, rfl, rfl, new⟩
  · rintro (⟨before, summary, after, rfl, rfl, new⟩ | ⟨rfl, new⟩)
    · exact ⟨before, summary, after ++ [last], by simp, rfl, new⟩
    · exact ⟨summaries, last, [], rfl, rfl, new⟩

/-- The scan covers the APIs of the summaries and chooses the tests that contribute. -/
theorem coverTests_spec :
    (∀ api, api ∈ (summaries.foldl coverTest ⟨[], OrderedMap.empty⟩).covered_apis ↔
      ∃ summary ∈ summaries, api ∈ summary.api_stats.keys) ∧
    ∀ test, test ∈ (summaries.foldl coverTest ⟨[], OrderedMap.empty⟩).test_list.keys ↔
      Contributes summaries test := by
  induction summaries using List.reverseRecOn with
  | nil =>
    refine ⟨fun api => by simp, fun test => iff_of_false not_mem_nil ?_⟩
    rintro ⟨before, summary, after, split, _⟩
    exact absurd split (by simp)
  | append_singleton summaries last ih =>
    obtain ⟨covered, chosen⟩ := ih
    constructor
    · intro api
      rw [foldl_append, foldl_cons, foldl_nil, coverTest, mem_coverApis, covered]
      simp [or_and_right, exists_or]
    · intro test
      rw [foldl_append, foldl_cons, foldl_nil, coverTest, chosen_coverApis, chosen,
        contributes_append]
      simp only [covered, not_exists, not_and]

end

/-! ## The tests that are output -/

theorem Counts.mem_keys {names : List String} {summary : TraceSummary}
    (counts : Counts names summary) (api : String) :
    api ∈ summary.api_stats.keys ↔ api ∈ names := by
  have stored := counts.stats api
  by_cases known : api ∈ names
  · rw [if_pos known] at stored
    exact iff_of_true (OrderedMap.mem_keys_of_find stored) known
  · rw [if_neg known] at stored
    exact iff_of_false (OrderedMap.not_mem_keys_of_find stored) known

theorem mem_outputTests {summaries : List TraceSummary} {test : OutputTest}
    (output : test ∈ outputTests false summaries) :
    Contributes summaries test.test_name ∧ ∃ summary ∈ summaries, summary.output = test := by
  obtain ⟨name, chosen, found⟩ := mem_filterMap.mp output
  obtain ⟨summary, first, rfl⟩ := Option.map_eq_some_iff.mp found
  have named : summary.test_name = name := by simpa using List.find?_some first
  refine ⟨?_, summary, mem_of_find?_eq_some first, rfl⟩
  change Contributes summaries summary.test_name
  rw [named]
  exact ((coverTests_spec summaries).2 name).mp chosen

theorem exists_output {summaries : List TraceSummary} {name : String}
    (contributes : Contributes summaries name) :
    ∃ test ∈ outputTests false summaries, test.test_name = name := by
  have chosen := ((coverTests_spec summaries).2 name).mpr contributes
  obtain ⟨before, summary, after, rfl, rfl, _⟩ := contributes
  cases found : (before ++ summary :: after).find? (·.test_name = summary.test_name) with
  | none =>
    have absent := List.find?_eq_none.mp found summary (by simp)
    simp at absent
  | some first =>
    have named : first.test_name = summary.test_name := by simpa using List.find?_some found
    refine ⟨first.output, mem_filterMap.mpr ⟨_, chosen, ?_⟩, named⟩
    rw [found]
    rfl

/-- The tests that are output by default cover the HAL. -/
theorem Summarizes.covers {test_trace_dir : TestDir Rest} {hal_name : String}
    {summaries : List TraceSummary}
    (summarizes : Summarizes test_trace_dir hal_name summaries) :
    CoversHal test_trace_dir hal_name summaries (outputTests false summaries) where
  summarized test output := (mem_outputTests output).2
  covers test_name api called := by
    have calls_some : calls test_trace_dir test_name hal_name ≠ [] := ne_nil_of_mem called
    obtain ⟨own, present, rfl⟩ := mem_map.mp ((summarizes.listed test_name).mpr calls_some)
    have key := ((summarizes.counts own present).mem_keys api).mpr called
    -- The first summary with the API is the one whose test is chosen for it.
    have some_first : (summaries.find? fun summary => api ∈ summary.api_stats.keys).isSome :=
      List.find?_isSome.mpr ⟨own, present, decide_eq_true key⟩
    obtain ⟨first, found⟩ := Option.isSome_iff_exists.mp some_first
    obtain ⟨has, before, after, split, none_before⟩ := List.find?_eq_some_iff_append.mp found
    have first_key := of_decide_eq_true has
    have contributes : Contributes summaries first.test_name :=
      ⟨before, first, after, split, rfl, api, first_key, fun earlier inside => by
        simpa using none_before earlier inside⟩
    obtain ⟨test, output, named⟩ := exists_output contributes
    refine ⟨test, output, ?_⟩
    rw [named]
    exact ((summarizes.counts first (mem_of_find?_eq_some found)).mem_keys api).mp first_key
  contributes before summary after split output := by
    obtain ⟨⟨front, own, back, again, named, api, key, new⟩, _⟩ := mem_outputTests output
    change own.test_name = summary.test_name at named
    have same := split.symm.trans again
    have one := summarizes.one
    rw [split, map_append, map_cons, nodup_append, nodup_cons] at one
    obtain ⟨_, ⟨late, _⟩, apart⟩ := one
    have early : summary.test_name ∉ before.map TraceSummary.test_name := fun present =>
      apart _ present _ mem_cons_self rfl
    have names := congrArg (List.map TraceSummary.test_name) same
    rw [map_append, map_append, map_cons, map_cons, named,
      append_cons_inj_of_notMem early late] at names
    have length : before.length = front.length := by
      simpa using congrArg List.length names.1
    obtain ⟨rfl, rest⟩ := append_inj same length
    obtain rfl := (List.cons.inj rest).1
    have present : summary ∈ summaries := split ▸ mem_append_right _ mem_cons_self
    refine ⟨api, ((summarizes.counts summary present).mem_keys api).mp key, ?_⟩
    intro earlier inside called
    have listed : earlier ∈ summaries := split ▸ mem_append_left _ inside
    exact new earlier inside (((summarizes.counts earlier listed).mem_keys api).mpr called)

theorem listed_output (sorting : Sorting better) (test_trace_dir : TestDir Rest)
    (verbose_output : Bool) (hal_name : String) :
    (GetTestListForHal sorting test_trace_dir verbose_output).listed hal_name =
      outputTests verbose_output
        ((GetHalTraceMapping sorting test_trace_dir).listed hal_name) := by
  unfold GetTestListForHal OrderedMap.listed
  rw [OrderedMap.find_mapValues]
  cases (GetHalTraceMapping sorting test_trace_dir).find hal_name with
  | none => cases verbose_output <;> rfl
  | some summaries => rfl

/-- The mapping has one summary with right counts for each test and each HAL that it calls,
the better ones first. By default the tests that are output for a HAL cover it; verbose output
has the tests of all summaries in their order. -/
theorem GetTestListForHal_covers (sorting : Sorting better) (test_trace_dir : TestDir Rest)
    (hal_name : String) :
    Summarizes test_trace_dir hal_name
        ((GetHalTraceMapping sorting test_trace_dir).listed hal_name) ∧
      CoversHal test_trace_dir hal_name
        ((GetHalTraceMapping sorting test_trace_dir).listed hal_name)
        ((GetTestListForHal sorting test_trace_dir false).listed hal_name) ∧
      (GetTestListForHal sorting test_trace_dir true).listed hal_name =
        ((GetHalTraceMapping sorting test_trace_dir).listed hal_name).map
          TraceSummary.output := by
  have summarizes := mapping_summarizes sorting test_trace_dir hal_name
  refine ⟨summarizes, ?_, listed_output sorting test_trace_dir true hal_name⟩
  rw [listed_output]
  exact summarizes.covers

end

/-! ## A verbose output -/

/-- One summary is not worse than another one. -/
def NotWorse (first second : TraceSummary) : Prop := better second first = false

instance : DecidableRel NotWorse := fun first second => decEq (better second first) false

theorem notWorse_iff (first second : TraceSummary) : NotWorse first second ↔
    second.unique_api_count < first.unique_api_count ∨
      (second.unique_api_count = first.unique_api_count ∧
        second.total_api_count ≤ first.total_api_count) := by
  unfold NotWorse better
  simp only [Bool.or_eq_false_iff, Bool.and_eq_false_iff, decide_eq_false_iff_not]
  omega

instance : Std.Total NotWorse := ⟨fun first second => by
  rw [notWorse_iff, notWorse_iff]
  omega⟩

instance : IsTrans TraceSummary NotWorse := ⟨fun first second third => by
  rw [notWorse_iff, notWorse_iff, notWorse_iff]
  omega⟩

/-- A sort of summaries by insertion. -/
def insertionSorting : Sorting better where
  sort := List.insertionSort NotWorse
  perm := List.perm_insertionSort NotWorse
  sorted := List.pairwise_insertionSort NotWorse

/-- A record of a call. -/
def lightCall (func_name : String) : VtsProfilingRecord Unit :=
  ⟨0, .SERVER_API_ENTRY, "light", 2, 0, "ILight", func_name, ()⟩

/-- Two tests that call the same API. -/
def twoTests : TestDir Unit :=
  [("first", [some [lightCall "setLight"]]), ("second", [some [lightCall "setLight"]])]

/-- Verbose output has both tests, though one of them calls all. -/
theorem twoTests_verbose :
    ¬ CoversHal twoTests "light@2.0"
      ((GetHalTraceMapping insertionSorting twoTests).listed "light@2.0")
      ((GetTestListForHal insertionSorting twoTests true).listed "light@2.0") := by
  intro covers
  have names : ((GetHalTraceMapping insertionSorting twoTests).listed "light@2.0").map
      TraceSummary.test_name = ["first", "second"] := by decide +kernel
  have first_calls : calls twoTests "first" "light@2.0" = ["setLight"] := by decide +kernel
  have second_calls : calls twoTests "second" "light@2.0" = ["setLight"] := by decide +kernel
  rw [listed_output] at covers
  obtain ⟨first, rest, split, first_name, rest_names⟩ := map_eq_cons_iff.mp names
  obtain ⟨second, others, rest_split, second_name, _⟩ := map_eq_cons_iff.mp rest_names
  rw [rest_split] at split
  have present : second ∈ (GetHalTraceMapping insertionSorting twoTests).listed "light@2.0" := by
    rw [split]
    simp
  obtain ⟨api, called, new⟩ := covers.contributes [first] second others split
    (mem_map_of_mem present)
  have old := new first mem_cons_self
  rw [first_name, first_calls] at old
  rw [second_name, second_calls] at called
  exact old called

end Vts.Trace
