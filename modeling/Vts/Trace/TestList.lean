import Mathlib.Algebra.BigOperators.Group.List.Basic
import Mathlib.Algebra.Ring.Int.Defs
import Mathlib.Data.Finset.Card
import Mathlib.Data.List.Sort
import Mathlib.Data.String.Basic
import Vts.Lib.OrderedMap
import Vts.Lib.Separators
import Vts.Trace.Latency

/-!
# Tests that call the APIs of a HAL

`GetHalTraceSummary`, `GetHalTraceMapping` and `GetTestListForHal` of
`utils/native/trace_processor/VtsTraceProcessor.cpp`, from the records of the trace files on,
and `ParseBinaryTrace` as far as the summaries read its records. Directories are listed in
any order. `std::sort` may put equal items in any order, so it is given with what it promises.

What a test calls on a HAL is the list of the functions in its entry records there. Proved
here: there is one summary for each test that calls a HAL, with the right counts. Which tests
are output is the subject of `Vts.Trace.TestCover`. The output is not formatted, and what is
printed while the tests are chosen is left out.
-/

namespace Vts.Trace

open String hiding append_assoc length_append

open Vts.Lib List

/-- `std::sort` with a comparison: items that compare as equal come in any order. -/
structure Sorting {α : Type} (comp : α → α → Bool) where
  sort : List α → List α
  perm : ∀ items, (sort items).Perm items
  sorted : ∀ items, (sort items).Pairwise fun first second => comp second first = false

/-- `TraceSummary`. -/
structure TraceSummary where
  test_name : String
  package : String
  version_major : Int
  version_minor : Int
  total_api_count : Int
  unique_api_count : Int
  api_stats : OrderedMap String Int

section

variable {Rest : Type}

/-- `ParseBinaryTrace` with `entry_only`, of the records in a file; none when the file cannot
be opened. -/
def ParseBinaryTrace (trace_file : Option (List (VtsProfilingRecord Rest))) :
    Option (List (VtsProfilingRecord Rest)) :=
  trace_file.map (List.filter fun record => isEntryEvent record.event)

/-- The summary of one call. -/
def firstCall (test_name : String) (record : VtsProfilingRecord Rest) : TraceSummary where
  test_name := test_name
  package := record.package
  version_major := record.version_major
  version_minor := record.version_minor
  total_api_count := 1
  unique_api_count := 1
  api_stats := OrderedMap.empty.insert record.func_name 1

/-- A summary with one more call. -/
def countCall (found : TraceSummary) (func_name : String) : TraceSummary :=
  let found := { found with total_api_count := found.total_api_count + 1 }
  match found.api_stats.find func_name with
  | some _ => { found with api_stats := found.api_stats.modify func_name (· + 1) }
  | none =>
    { found with
      unique_api_count := found.unique_api_count + 1
      api_stats := found.api_stats.insert func_name 1 }

/-- A record counts for the first summary of its test, package and version. -/
def addRecord (test_name : String) (record : VtsProfilingRecord Rest) :
    List TraceSummary → List TraceSummary
  | [] => [firstCall test_name record]
  | summary :: rest =>
    if test_name = summary.test_name ∧ record.package = summary.package ∧
        record.version_major = summary.version_major ∧
        record.version_minor = summary.version_minor then
      countCall summary record.func_name :: rest
    else summary :: addRecord test_name record rest

def GetHalTraceSummary (test_name : String) (trace_summaries : List TraceSummary)
    (trace_file : Option (List (VtsProfilingRecord Rest))) : List TraceSummary :=
  match ParseBinaryTrace trace_file with
  | none => trace_summaries
  | some records =>
    records.foldl (fun trace_summaries record => addRecord test_name record trace_summaries)
      trace_summaries

def halName (package : String) (version_major version_minor : Int) : String :=
  package ++ "@" ++ (toString version_major ++ "." ++ toString version_minor)

def TraceSummary.hal (summary : TraceSummary) : String :=
  halName summary.package summary.version_major summary.version_minor

/-- The comparison of the sort: more different APIs first, then more calls. -/
def better (lhs rhs : TraceSummary) : Bool :=
  lhs.unique_api_count > rhs.unique_api_count ||
    (lhs.unique_api_count = rhs.unique_api_count && lhs.total_api_count > rhs.total_api_count)

/-- A directory of tests: for each its name and its trace files. -/
abbrev TestDir (Rest : Type) := List (String × List (Option (List (VtsProfilingRecord Rest))))

/-- The summaries of all tests. -/
def traceSummaries (test_trace_dir : TestDir Rest) : List TraceSummary :=
  test_trace_dir.foldl (fun trace_summaries test_dir =>
    test_dir.2.foldl (GetHalTraceSummary test_dir.1) trace_summaries) []

def GetHalTraceMapping (sorting : Sorting better) (test_trace_dir : TestDir Rest) :
    OrderedMap String (List TraceSummary) :=
  let hal_trace_mapping := (traceSummaries test_trace_dir).foldl
    (fun hal_trace_mapping trace_summary =>
      hal_trace_mapping.push trace_summary.hal trace_summary) OrderedMap.empty
  hal_trace_mapping.mapValues sorting.sort

/-! ## The calls of a test -/

/-- The name of a HAL in a record. -/
def VtsProfilingRecord.hal (record : VtsProfilingRecord Rest) : String :=
  halName record.package record.version_major record.version_minor

/-- The entry records of all tests, each with the name of its test. -/
def events (test_trace_dir : TestDir Rest) : List (String × VtsProfilingRecord Rest) :=
  test_trace_dir.flatMap fun test_dir => test_dir.2.flatMap fun trace_file =>
    ((ParseBinaryTrace trace_file).getD []).map fun record => (test_dir.1, record)

/-- What a test calls on a HAL in some records. -/
def callsIn (events : List (String × VtsProfilingRecord Rest)) (test_name hal_name : String) :
    List String :=
  (events.filter fun event => (event.1, event.2.hal) = (test_name, hal_name)).map fun event =>
    event.2.func_name

/-- What a test calls on a HAL. -/
def calls (test_trace_dir : TestDir Rest) (test_name hal_name : String) : List String :=
  callsIn (events test_trace_dir) test_name hal_name

theorem foldl_addRecord (test_trace_dir : TestDir Rest) :
    traceSummaries test_trace_dir = (events test_trace_dir).foldl
      (fun trace_summaries event => addRecord event.1 event.2 trace_summaries) [] := by
  unfold traceSummaries events
  rw [foldl_flatMap]
  congr 1
  funext trace_summaries test_dir
  rw [foldl_flatMap]
  congr 1
  funext trace_summaries trace_file
  rw [foldl_map, GetHalTraceSummary]
  cases ParseBinaryTrace trace_file <;> rfl

end

/-! ## Names of HALs -/

theorem isDigit_of_mem_repr {value : Nat} {char : Char} (present : char ∈ value.repr.toList) :
    char.isDigit := by
  rw [Nat.toList_repr] at present
  exact isDigit_of_mem_digits present

theorem repr_inj {first second : Nat} (same : first.repr = second.repr) : first = second := by
  have digits := congrArg String.toList same
  rw [Nat.toList_repr, Nat.toList_repr] at digits
  exact digits_inj.mp digits

theorem toString_inj {first second : Int} (same : toString first = toString second) :
    first = second := by
  have signed : ∀ {value other : Nat}, "-" ++ value.repr ≠ other.repr := by
    intro value other equal
    have digit : '-' ∈ other.repr.toList := by
      rw [← equal, toList_append]
      exact mem_append_left _ (mem_singleton_self _)
    exact absurd (isDigit_of_mem_repr digit) (by decide)
  rw [Int.toString_eq_repr, Int.toString_eq_repr, Int.repr_eq_if, Int.repr_eq_if] at same
  split_ifs at same with nonneg otherNonneg otherNonneg
  · have := repr_inj same
    omega
  · exact absurd same.symm signed
  · exact absurd same signed
  · have chars := congrArg String.toList same
    rw [toList_append, toList_append] at chars
    have := repr_inj (toList_injective (append_cancel_left chars))
    omega

theorem mem_toString {number : Int} {char : Char} (present : char ∈ (toString number).toList) :
    char.isDigit ∨ char = '-' := by
  rw [Int.toString_eq_repr, Int.repr_eq_if] at present
  split_ifs at present
  · exact .inl (isDigit_of_mem_repr present)
  · rw [toList_append, mem_append] at present
    rcases present with sign | inside
    · exact .inr (by simpa using sign)
    · exact .inl (isDigit_of_mem_repr inside)

/-- The name of a HAL determines its package and version, also when the package contains an
at sign. -/
theorem halName_inj {package other : String} {major minor otherMajor otherMinor : Int}
    (same : halName package major minor = halName other otherMajor otherMinor) :
    package = other ∧ major = otherMajor ∧ minor = otherMinor := by
  have plain : ∀ number : Int, '@' ∉ (toString number).toList ∧ '.' ∉ (toString number).toList := by
    intro number
    constructor
    · intro present
      rcases mem_toString present with digit | sign
      · exact absurd digit (by decide)
      · exact absurd sign (by decide)
    · intro present
      rcases mem_toString present with digit | sign
      · exact absurd digit (by decide)
      · exact absurd sign (by decide)
  have chars := congrArg String.toList same
  simp only [halName, toList_append] at chars
  have at_sign : "@".toList = ['@'] := rfl
  have dot : ".".toList = ['.'] := rfl
  have free : ∀ first second : Int,
      '@' ∉ (toString first).toList ++ ('.' :: (toString second).toList) := by
    intro first second present
    rw [mem_append, mem_cons] at present
    rcases present with major | same | minor
    · exact (plain first).1 major
    · exact absurd same (by decide)
    · exact (plain second).1 minor
  simp only [at_sign, dot, append_assoc, singleton_append] at chars
  obtain ⟨front, version⟩ := split_last chars (free _ _) (free _ _)
  obtain ⟨majors, minors⟩ := split_last version (plain _).2 (plain _).2
  exact ⟨toList_injective front, toString_inj (toList_injective majors),
    toString_inj (toList_injective minors)⟩

/-! ## Counting -/

/-- The counts of a summary are those of the functions called. -/
structure Counts (names : List String) (summary : TraceSummary) : Prop where
  total : summary.total_api_count = names.length
  unique : summary.unique_api_count = names.toFinset.card
  stats : ∀ api, summary.api_stats.find api =
    if api ∈ names then some (names.count api : Int) else none
  sum : (summary.api_stats.entries.map Prod.snd).sum = summary.total_api_count

theorem counts_firstCall {Rest : Type} (test_name : String) (record : VtsProfilingRecord Rest) :
    Counts [record.func_name] (firstCall test_name record) where
  total := rfl
  unique := rfl
  stats api := by
    by_cases same : api = record.func_name
    · subst same
      simp [firstCall, OrderedMap.insert, OrderedMap.find, OrderedMap.empty,
        OrderedMap.insertEntry]
    · have other : (record.func_name == api) = false := beq_eq_false_iff_ne.mpr (Ne.symm same)
      simp [firstCall, OrderedMap.insert, OrderedMap.find, OrderedMap.empty,
        OrderedMap.insertEntry, same]
  sum := rfl

theorem Counts.countCall {names : List String} {summary : TraceSummary}
    (counts : Counts names summary) (func_name : String) :
    Counts (names ++ [func_name]) (countCall summary func_name) := by
  have stored := counts.stats func_name
  have length : ((names ++ [func_name]).length : Int) = names.length + 1 := by
    rw [length_append]
    rfl
  have again : ∀ api, (names ++ [func_name]).count api =
      if api = func_name then names.count api + 1 else names.count api := by
    intro api
    rw [count_append, count_singleton]
    split_ifs with same other other <;> simp_all
  unfold Vts.Trace.countCall
  by_cases known : func_name ∈ names
  · rw [if_pos known] at stored
    simp only [stored]
    have same : (names ++ [func_name]).toFinset = names.toFinset := by
      ext api
      simp only [mem_toFinset, mem_append, mem_singleton]
      exact or_iff_left_of_imp fun equal => equal ▸ known
    refine ⟨?_, ?_, fun api => ?_, ?_⟩
    · rw [counts.total, length]
    · rw [counts.unique, same]
    · rw [OrderedMap.find_modify, counts.stats, again]
      have here : (api ∈ names ++ [func_name]) = (api ∈ names) := by
        rw [← mem_toFinset, same, mem_toFinset]
      simp only [here]
      split_ifs with equal present
      · rfl
      · exact absurd (equal ▸ known) present
      · rfl
      · rfl
    · obtain ⟨others, before, after⟩ := OrderedMap.modify_perm (· + 1) stored
      have sum := counts.sum
      rw [(before.map Prod.snd).sum_eq, map_cons, sum_cons] at sum
      rw [(after.map Prod.snd).sum_eq, map_cons, sum_cons]
      change _ = summary.total_api_count + 1
      omega
  · rw [if_neg known] at stored
    simp only [stored]
    have absent := OrderedMap.not_mem_keys_of_find stored
    refine ⟨?_, ?_, fun api => ?_, ?_⟩
    · rw [counts.total, length]
    · have more : (names ++ [func_name]).toFinset = insert func_name names.toFinset := by
        ext api
        simp
      rw [counts.unique, more, Finset.card_insert_of_notMem (by simpa using known)]
      rfl
    · rw [again]
      by_cases equal : api = func_name
      · rw [equal, OrderedMap.find_insert_self absent, if_pos (by simp), if_pos rfl,
          count_eq_zero_of_not_mem known]
        rfl
      · rw [OrderedMap.find_insert_other equal, counts.stats, if_neg equal]
        simp [equal]
    · rw [((OrderedMap.insert_perm absent).map Prod.snd).sum_eq, map_cons, sum_cons,
        counts.sum, add_comm]

section

variable {Rest : Type}

/-- The test and the HAL of a summary. -/
def TraceSummary.pair (summary : TraceSummary) : String × String :=
  (summary.test_name, summary.hal)

section

variable {summaries : List TraceSummary} (test_name : String) (record : VtsProfilingRecord Rest)
  (summary : TraceSummary)

/-- The comparison of four fields is one of the test and the HAL. -/
theorem same_pair_iff :
    (test_name = summary.test_name ∧ record.package = summary.package ∧
        record.version_major = summary.version_major ∧
        record.version_minor = summary.version_minor) ↔
      summary.pair = (test_name, record.hal) := by
  constructor
  · rintro ⟨test, package, major, minor⟩
    rw [TraceSummary.pair, TraceSummary.hal, VtsProfilingRecord.hal, test, package, major, minor]
  · intro same
    obtain ⟨test, hal⟩ := Prod.mk.inj same
    obtain ⟨package, major, minor⟩ := halName_inj hal
    exact ⟨test.symm, package.symm, major.symm, minor.symm⟩

theorem countCall_pair (func_name : String) :
    (countCall summary func_name).pair = summary.pair := by
  unfold countCall
  cases stored : summary.api_stats.find func_name with
  | none =>
    simp only [stored]
    rfl
  | some count =>
    simp only [stored]
    rfl

theorem addRecord_pairs (summaries : List TraceSummary) :
    (addRecord test_name record summaries).map TraceSummary.pair =
      if (test_name, record.hal) ∈ summaries.map TraceSummary.pair then
        summaries.map TraceSummary.pair
      else summaries.map TraceSummary.pair ++ [(test_name, record.hal)] := by
  induction summaries with
  | nil => rfl
  | cons summary rest ih =>
    rw [addRecord]
    simp only [same_pair_iff]
    by_cases same : summary.pair = (test_name, record.hal)
    · rw [if_pos same, map_cons, map_cons, countCall_pair, same,
        if_pos mem_cons_self]
    · rw [if_neg same, map_cons, map_cons, ih]
      have other : ((test_name, record.hal) ∈ summary.pair :: rest.map TraceSummary.pair) =
          ((test_name, record.hal) ∈ rest.map TraceSummary.pair) := by
        rw [mem_cons, or_iff_right (Ne.symm same)]
      simp only [other]
      split_ifs <;> rfl

/-- Each summary after a record was there before, counts one more call, or is new. -/
theorem mem_addRecord {test_name : String} {record : VtsProfilingRecord Rest}
    (distinct : (summaries.map TraceSummary.pair).Nodup) {summary : TraceSummary}
    (present : summary ∈ addRecord test_name record summaries) :
    (summary ∈ summaries ∧ summary.pair ≠ (test_name, record.hal)) ∨
      (∃ counted ∈ summaries, counted.pair = (test_name, record.hal) ∧
        summary = countCall counted record.func_name) ∨
      ((test_name, record.hal) ∉ summaries.map TraceSummary.pair ∧
        summary = firstCall test_name record) := by
  induction summaries with
  | nil => exact .inr (.inr ⟨not_mem_nil, mem_singleton.mp present⟩)
  | cons first rest ih =>
    obtain ⟨fresh, restDistinct⟩ := nodup_cons.mp distinct
    rw [addRecord] at present
    simp only [same_pair_iff] at present
    by_cases same : first.pair = (test_name, record.hal)
    · rw [if_pos same] at present
      rcases mem_cons.mp present with rfl | later
      · exact .inr (.inl ⟨first, mem_cons_self, same, rfl⟩)
      · refine .inl ⟨mem_cons_of_mem _ later, fun again => fresh ?_⟩
        rw [same, ← again]
        exact mem_map_of_mem later
    · rw [if_neg same] at present
      rcases mem_cons.mp present with rfl | later
      · exact .inl ⟨mem_cons_self, same⟩
      · rcases ih restDistinct later with
          ⟨inside, other⟩ | ⟨counted, inside, pair, equal⟩ | ⟨absent, equal⟩
        · exact .inl ⟨mem_cons_of_mem _ inside, other⟩
        · exact .inr (.inl ⟨counted, mem_cons_of_mem _ inside, pair, equal⟩)
        · refine .inr (.inr ⟨?_, equal⟩)
          rw [map_cons, mem_cons, not_or]
          exact ⟨Ne.symm same, absent⟩

theorem callsIn_append (events : List (String × VtsProfilingRecord Rest))
    (event : String × VtsProfilingRecord Rest) (test_name hal_name : String) :
    callsIn (events ++ [event]) test_name hal_name = callsIn events test_name hal_name ++
      if (event.1, event.2.hal) = (test_name, hal_name) then [event.2.func_name] else [] := by
  unfold callsIn
  rw [filter_append, map_append, filter_singleton]
  split_ifs with same
  · simp [same]
  · simp [same]

/-- The summaries of some records: one for each test and each HAL that it calls there. -/
structure Summed (events : List (String × VtsProfilingRecord Rest))
    (summaries : List TraceSummary) : Prop where
  distinct : (summaries.map TraceSummary.pair).Nodup
  counts : ∀ summary ∈ summaries,
    Counts (callsIn events summary.test_name summary.hal) summary
  listed : ∀ test_name hal_name, (test_name, hal_name) ∈ summaries.map TraceSummary.pair ↔
    callsIn events test_name hal_name ≠ []

theorem Summed.step {events : List (String × VtsProfilingRecord Rest)}
    (summed : Summed events summaries) (event : String × VtsProfilingRecord Rest) :
    Summed (events ++ [event]) (addRecord event.1 event.2 summaries) where
  distinct := by
    rw [addRecord_pairs]
    split_ifs with known
    · exact summed.distinct
    · refine nodup_append.mpr ⟨summed.distinct, nodup_singleton _, ?_⟩
      intro pair inside other last same
      rw [mem_singleton.mp last] at same
      exact known (same ▸ inside)
  counts summary present := by
    rw [callsIn_append]
    rcases mem_addRecord summed.distinct present with
      ⟨inside, other⟩ | ⟨counted, inside, pair, rfl⟩ | ⟨absent, rfl⟩
    · have different : (event.1, event.2.hal) ≠ (summary.test_name, summary.hal) := Ne.symm other
      rw [if_neg different, append_nil]
      exact summed.counts summary inside
    · have own : (event.1, event.2.hal) = (counted.test_name, counted.hal) := pair.symm
      obtain ⟨test, hal⟩ := Prod.mk.inj (countCall_pair counted event.2.func_name)
      rw [test, hal, if_pos own]
      exact (summed.counts counted inside).countCall event.2.func_name
    · have none_before : callsIn events event.1 event.2.hal = [] := by
        by_contra some_before
        exact absent ((summed.listed event.1 event.2.hal).mpr some_before)
      have new : (firstCall event.1 event.2).pair = (event.1, event.2.hal) := rfl
      obtain ⟨test, hal⟩ := Prod.mk.inj new
      rw [test, hal, none_before, if_pos rfl, nil_append]
      exact counts_firstCall event.1 event.2
  listed test_name hal_name := by
    rw [addRecord_pairs, callsIn_append]
    have before := summed.listed test_name hal_name
    by_cases same : (event.1, event.2.hal) = (test_name, hal_name)
    · rw [if_pos same, same]
      refine iff_of_true ?_ (by simp)
      split_ifs with known
      · exact known
      · exact mem_append_right _ mem_cons_self
    · rw [if_neg same, append_nil, ← before]
      split_ifs
      · exact Iff.rfl
      · rw [mem_append, mem_singleton, or_iff_left (Ne.symm same)]

end

/-- All records are summed up. -/
theorem summed_traceSummaries (test_trace_dir : TestDir Rest) :
    Summed (events test_trace_dir) (traceSummaries test_trace_dir) := by
  have run : ∀ (before later : List (String × VtsProfilingRecord Rest))
      (summaries : List TraceSummary), Summed before summaries →
        Summed (before ++ later) (later.foldl (fun trace_summaries event =>
          addRecord event.1 event.2 trace_summaries) summaries) := by
    intro before later
    induction later generalizing before with
    | nil =>
      intro summaries summed
      rwa [append_nil]
    | cons event later ih =>
      intro summaries summed
      rw [append_cons]
      exact ih _ _ (summed.step event)
  rw [foldl_addRecord]
  exact run [] (events test_trace_dir) []
    ⟨nodup_nil, fun _ present => absurd present not_mem_nil, fun _ _ => by simp [callsIn]⟩

/-! ## The mapping -/

/-- The summaries of a HAL: one for each test that calls it, with right counts, and the
better ones first. -/
structure Summarizes (test_trace_dir : TestDir Rest) (hal_name : String)
    (summaries : List TraceSummary) : Prop where
  one : (summaries.map TraceSummary.test_name).Nodup
  listed : ∀ test_name, test_name ∈ summaries.map TraceSummary.test_name ↔
    calls test_trace_dir test_name hal_name ≠ []
  hal : ∀ summary ∈ summaries, summary.hal = hal_name
  counts : ∀ summary ∈ summaries,
    Counts (calls test_trace_dir summary.test_name hal_name) summary
  ordered : summaries.Pairwise fun first second =>
    second.unique_api_count < first.unique_api_count ∨
      (second.unique_api_count = first.unique_api_count ∧
        second.total_api_count ≤ first.total_api_count)

/-- The mapping before the sort: a HAL leads to its summaries, unless it has none. -/
theorem find_pushed (summaries : List TraceSummary)
    (map : OrderedMap String (List TraceSummary)) (hal_name : String) :
    (summaries.foldl (fun map summary => map.push summary.hal summary) map).find hal_name =
      match summaries.filter (·.hal = hal_name) with
      | [] => map.find hal_name
      | first :: rest => some (map.listed hal_name ++ first :: rest) := by
  induction summaries generalizing map with
  | nil => rfl
  | cons summary summaries ih =>
    rw [foldl_cons, ih, filter_cons]
    by_cases same : summary.hal = hal_name
    · subst same
      rw [if_pos (decide_eq_true rfl), OrderedMap.find_push_self, OrderedMap.listed_push_self]
      cases summaries.filter (·.hal = summary.hal) with
      | nil => rfl
      | cons first rest => simp
    · rw [if_neg (by simpa using same), OrderedMap.find_push_other _ (Ne.symm same),
        OrderedMap.listed_push_other _ (Ne.symm same)]

end

end Vts.Trace
