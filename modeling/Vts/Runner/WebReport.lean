import Mathlib.Data.List.Nodup
import Vts.Runner.Retry

/-!
# The report of a test class

What the message that `GenerateReportMessage` makes says about the tests of a run. Every
execution adds an entry, a silenced test takes its entry back, and every report adds entries
for the requested records behind the first `len(executed)` ones, as if these were the records
of the tests that were not executed. Entries stay from one attempt to the next.

The law carried through a run is that the names of the entries and of the silenced tests are
together the names of the executions, of the tests that the reports so far took to be not
executed, and of the entries for class errors. From it follows exactly when the last report
is complete, in runs in which the reports before it added nothing.
-/

namespace Vts.Runner

open Vts.Lib List

/-- The names in `requested[len(executed):]`. -/
def TestResult.behindExecuted (results : TestResult) : List String :=
  (results.requested.drop results.executed.length).map TestResultRecord.test_name

namespace RunnerState

/-- The names of all tests executed so far, once for each execution. -/
def executedNames (state : RunnerState) : List String :=
  state.executions.map TestResultRecord.test_name

/-- The names of the entries of the report. -/
def entryNames (state : RunnerState) : List String :=
  state.web.test_case.map TestCaseReport.name

/-- The names that the reports so far took to be not executed. -/
def listedMissing (state : RunnerState) : List String :=
  state.reports.flatMap TestResult.behindExecuted

end RunnerState

/-! ## Entries -/

namespace WebFeature

section

variable (entries : List TestCaseReport) (entry : TestCaseReport)

theorem modify_last {α : Type} (items : List α) (item : α) (f : α → α) :
    (items ++ [item]).modify items.length f = items ++ [f item] := by
  induction items with
  | nil => rfl
  | cons head items ih =>
    rw [cons_append, length_cons, modify_succ_cons, ih]
    rfl

theorem SetTestResult_last (result : TestCaseResult) :
    SetTestResult ⟨entries ++ [entry], some entries.length⟩ (some result) =
      ⟨entries ++ [{ entry with test_result := some result }], some entries.length⟩ := by
  unfold SetTestResult
  simp only [modify_last]

/-- The entry that was added last is taken back, up to the order of equal entries. -/
theorem SetTestResult_none_perm :
    (SetTestResult ⟨entries ++ [entry], some entries.length⟩ none).test_case.Perm entries := by
  have current : (entries ++ [entry])[entries.length]? = some entry := by simp
  unfold SetTestResult
  simp only [current]
  have moved : (entries ++ [entry]).Perm (entry :: entries) := perm_append_comm
  have erased := moved.erase entry
  rwa [erase_cons_head] at erased

end

end WebFeature

namespace World

variable (world : World)

/-- A test that is not silenced adds one entry with its name. -/
theorem reported_spec (web : WebFeature) (test_name : String) (now : Nat) (ending : TestEnd)
    (is_final_run : Bool) (heard : ending ≠ .silent) :
    ∃ result, reported (web.AddTestReport test_name now) ending is_final_run =
      ⟨web.test_case ++ [⟨test_name, result, now, none⟩], some web.test_case.length⟩ := by
  unfold reported WebFeature.AddTestReport
  cases ending with
  | passed | skipped => exact ⟨_, WebFeature.SetTestResult_last _ _ _⟩
  | failed =>
    cases is_final_run with
    | false => exact ⟨_, rfl⟩
    | true => exact ⟨_, WebFeature.SetTestResult_last _ _ _⟩
  | error =>
    cases is_final_run with
    | false => exact ⟨_, rfl⟩
    | true =>
      simp only [if_true, WebFeature.SetTestResult_last]
      exact ⟨_, rfl⟩
  | silent => exact absurd rfl heard
  | abortClass | abortAll | interrupted => exact ⟨_, rfl⟩

/-! ## The law -/

/-- The name of the entry that shows errors of the class. -/
def classEntry : String := "setup_class"

/-- What the report and the requested records have to do with the history. -/
structure Accounted (state : RunnerState) : Prop where
  entries : ∃ errors, (state.entryNames ++ state.silenced).Perm
    (state.executedNames ++ state.listedMissing ++ List.replicate errors classEntry)
  failed : ∀ entry ∈ state.web.test_case, entry.name ∈ state.executedNames ∨
    entry.test_result = some .fail
  silenced : ∀ name ∈ state.silenced, name ∈ state.executedNames
  asked : ∀ record ∈ state.results.requested,
    record.test_class = some world.test_module_name ∧ record.test_name ∈ state.requests
  waiting : ∀ name ∈ state.requests, name ∈ state.executedNames ∨
    ∃ record ∈ state.results.requested, record.test_name = name
  unreserved : ∀ name ∈ state.requests ++ state.executedNames, name ≠ classEntry

section

variable {state next : RunnerState}

/-- An execution adds one name to the entries and the silenced tests, and removes the
requested records of its test only. -/
theorem Accounted.executed (accounted : world.Accounted state) {record : TestResultRecord}
    (classed : record.test_class = some world.test_module_name)
    (unreserved : record.test_name ≠ classEntry)
    (executions : next.executions = state.executions ++ [record])
    (requested : next.results.requested =
      state.results.requested.filter fun listed => !listed.isSameTestCase record)
    (requests : next.requests = state.requests) (reports : next.reports = state.reports)
    (entries : (next.entryNames ++ next.silenced).Perm
      (record.test_name :: (state.entryNames ++ state.silenced)))
    (named : ∀ entry ∈ next.web.test_case, entry ∈ state.web.test_case ∨
      entry.name = record.test_name)
    (silenced : ∀ name ∈ next.silenced, name ∈ state.silenced ∨ name = record.test_name) :
    world.Accounted next := by
  have names : next.executedNames = state.executedNames ++ [record.test_name] := by
    simp [RunnerState.executedNames, executions]
  have missing : next.listedMissing = state.listedMissing := by
    rw [RunnerState.listedMissing, RunnerState.listedMissing, reports]
  have grown : ∀ {name}, name ∈ state.executedNames → name ∈ next.executedNames := by
    intro name listed
    rw [names]
    exact mem_append_left _ listed
  have added : record.test_name ∈ next.executedNames := by simp [names]
  constructor
  · obtain ⟨errors, law⟩ := accounted.entries
    refine ⟨errors, entries.trans ((law.cons record.test_name).trans ?_)⟩
    rw [names, missing]
    simp only [append_assoc]
    exact perm_middle.symm
  · intro entry listed
    rcases named entry listed with old | new
    · exact (accounted.failed entry old).imp_left grown
    · exact Or.inl (new ▸ added)
  · intro name listed
    rcases silenced name listed with old | rfl
    · exact grown (accounted.silenced name old)
    · exact added
  · intro other listed
    rw [requested] at listed
    rw [requests]
    exact accounted.asked other (mem_of_mem_filter listed)
  · intro name listed
    rw [requests] at listed
    rcases accounted.waiting name listed with old | ⟨other, member, rfl⟩
    · exact Or.inl (grown old)
    · by_cases same : other.test_name = record.test_name
      · exact Or.inl (same ▸ added)
      · refine Or.inr ⟨other, ?_, rfl⟩
        rw [requested, mem_filter]
        refine ⟨member, ?_⟩
        simp only [Bool.not_eq_true', Bool.eq_false_iff]
        intro sameTest
        have sameClass := (accounted.asked other member).1.trans classed.symm
        exact same ((isSameTestCase_iff_name sameClass).mp sameTest)
  · intro name listed
    rw [requests, names, ← append_assoc, mem_append, mem_singleton] at listed
    rcases listed with old | rfl
    · exact accounted.unreserved name old
    · exact unreserved

theorem Accounted.execOneTest (accounted : world.Accounted state) {test_name : String}
    (unreserved : test_name ≠ classEntry) :
    world.Accounted (world.execOneTest test_name state).1 := by
  have named := world.nextRecord_test_name state test_name
  have classed := world.nextRecord_test_class state test_name
  have nextUnreserved : (world.nextRecord state test_name).test_name ≠ classEntry := by
    rw [named]
    exact unreserved
  rcases world.execOneTest_cases test_name state with ⟨_, done⟩ | ⟨_, heard, done⟩ |
    ⟨_, _, done⟩
  · rw [done]
    exact ⟨accounted.entries, accounted.failed, accounted.silenced, accounted.asked,
      accounted.waiting, accounted.unreserved⟩
  · obtain ⟨result, added⟩ := reported_spec state.web test_name
      (world.execution state.executions.length).begin_time
      (world.execution state.executions.length).ending state.is_final_run heard
    rw [done, added]
    refine accounted.executed world classed nextUnreserved rfl
      (TestResult.addRecord_requested _ _) rfl rfl ?_ ?_ fun name listed => Or.inl listed
    · rw [named]
      simp only [RunnerState.entryNames, map_append, append_assoc, map_cons,
        map_nil, singleton_append]
      exact perm_middle
    · intro entry listed
      rcases mem_append.mp listed with old | new
      · exact Or.inl old
      · rw [mem_singleton.mp new, named]
        exact Or.inr rfl
  · have taken := WebFeature.SetTestResult_none_perm state.web.test_case
      ⟨test_name, none, (world.execution state.executions.length).begin_time, none⟩
    rw [done]
    refine accounted.executed world classed nextUnreserved rfl
      (TestResult.removeFrom_eq_filter _ _) rfl rfl ?_ ?_ ?_
    · rw [named]
      refine (List.Perm.append_right _ (taken.map TestCaseReport.name)).trans ?_
      rw [← append_assoc]
      exact perm_append_singleton _ _
    · intro entry listed
      exact Or.inl (taken.mem_iff.mp listed)
    · intro name listed
      rw [named]
      exact (mem_append.mp listed).imp_right mem_singleton.mp

theorem Accounted.requestAll (accounted : world.Accounted state) {names : List String}
    (unreserved : ∀ name ∈ names, name ≠ classEntry) :
    world.Accounted (world.requestAll names state) := by
  constructor
  · exact accounted.entries
  · exact accounted.failed
  · exact accounted.silenced
  · intro record listed
    rcases mem_append.mp listed with old | new
    · obtain ⟨classed, asked⟩ := accounted.asked record old
      exact ⟨classed, mem_append_left _ asked⟩
    · obtain ⟨name, member, rfl⟩ := mem_map.mp new
      exact ⟨rfl, mem_append_right _ member⟩
  · intro name listed
    rcases mem_append.mp listed with old | new
    · rcases accounted.waiting name old with executed | ⟨record, member, named⟩
      · exact Or.inl executed
      · exact Or.inr ⟨record, mem_append_left _ member, named⟩
    · exact Or.inr ⟨world.record name, mem_append_right _ (mem_map_of_mem new), rfl⟩
  · intro name listed
    rcases mem_append.mp listed with requested | executed
    · rcases mem_append.mp requested with old | new
      · exact accounted.unreserved name (mem_append_left _ old)
      · exact unreserved name new
    · exact accounted.unreserved name (mem_append_right _ executed)

/-- The law holds after the loop over the tests, also when it was stopped. -/
theorem Accounted.testLoop (accounted : world.Accounted state) {count : Nat} {tests : List Test}
    (unreserved : ∀ name ∈ plainNames tests ++ world.generatedNames count tests,
      name ≠ classEntry) :
    world.Accounted (world.testLoop count tests state).1 := by
  refine world.testLoop_preserves ?_ ?_ accounted
  · intro name listed before accounted
    exact accounted.execOneTest world (unreserved name listed)
  · intro names listed before accounted
    exact accounted.requestAll world fun name member =>
      unreserved name (mem_append_right _ (listed name member))

/-- A report adds entries for what it takes to be not executed, and one for class errors. -/
theorem tearDownClass_test_case (count : Nat) (state : RunnerState) :
    ∃ errors, (world.tearDownClass count state).web.test_case =
      state.web.test_case ++ List.replicate errors ⟨classEntry, some .fail, world.now count, none⟩ ++
        (state.results.requested.drop state.results.executed.length).map fun test =>
          WebFeature.failedReport test (world.now count) := by
  unfold tearDownClass WebFeature.GenerateReportMessage
  dsimp only
  cases state.results.class_errors.isEmpty with
  | true =>
    refine ⟨0, ?_⟩
    simp
  | false =>
    refine ⟨1, ?_⟩
    simp [WebFeature.AddTestReport, WebFeature.SetTestResult_last, classEntry]

theorem Accounted.tearDownClass (accounted : world.Accounted state) (count : Nat) :
    world.Accounted (world.tearDownClass count state) := by
  obtain ⟨added, test_case⟩ := world.tearDownClass_test_case count state
  have missing : (world.tearDownClass count state).listedMissing =
      state.listedMissing ++ state.results.behindExecuted := by
    simp [RunnerState.listedMissing, World.tearDownClass]
  have names : (world.tearDownClass count state).entryNames =
      state.entryNames ++ List.replicate added classEntry ++ state.results.behindExecuted := by
    rw [RunnerState.entryNames, test_case]
    simp [RunnerState.entryNames, TestResult.behindExecuted, WebFeature.failedReport,
      Function.comp_def]
  constructor
  · obtain ⟨errors, law⟩ := accounted.entries
    refine ⟨errors + added, perm_iff_count.mpr ?_⟩
    intro name
    have counted := law.count_eq name
    rw [names, missing]
    have silenced : (world.tearDownClass count state).silenced = state.silenced := rfl
    have executed : (world.tearDownClass count state).executedNames = state.executedNames := rfl
    rw [silenced, executed, replicate_add]
    simp only [count_append] at counted ⊢
    omega
  · intro entry listed
    rw [test_case] at listed
    rcases mem_append.mp listed with before | missed
    · rcases mem_append.mp before with old | ofClass
      · exact accounted.failed entry old
      · rw [eq_of_mem_replicate ofClass]
        exact Or.inr rfl
    · obtain ⟨test, _, rfl⟩ := mem_map.mp missed
      exact Or.inr rfl
  · exact accounted.silenced
  · exact accounted.asked
  · exact accounted.waiting
  · exact accounted.unreserved

end

/-! ## Runs -/

/-- The last report was made from the results. -/
def Reported (state : RunnerState) : Prop :=
  ∃ earlier, state.reports = earlier ++ [state.results]

theorem tearDownClass_reported (count : Nat) (state : RunnerState) :
    Reported (world.tearDownClass count state) :=
  ⟨state.reports, rfl⟩

theorem Accounted.finishAttempt {state : RunnerState} (accounted : world.Accounted state)
    (count : Nat) (signal : Option Signal) :
    world.Accounted (world.finishAttempt count state signal) := by
  unfold World.finishAttempt
  apply Accounted.tearDownClass
  split_ifs <;> exact ⟨accounted.entries, accounted.failed, accounted.silenced, accounted.asked,
    accounted.waiting, accounted.unreserved⟩

theorem initial_accounted {tests : List Test}
    (unreserved : ∀ name ∈ plainNames tests, name ≠ classEntry) :
    world.Accounted (world.initial tests) := by
  constructor
  · exact ⟨0, List.Perm.refl _⟩
  · intro entry listed
    cases listed
  · intro name listed
    cases listed
  · intro record listed
    obtain ⟨name, member, rfl⟩ := mem_map.mp listed
    exact ⟨rfl, member⟩
  · intro name listed
    exact Or.inr ⟨world.record name, mem_map_of_mem listed, rfl⟩
  · intro name listed
    rcases mem_append.mp listed with requested | executed
    · exact unreserved name requested
    · cases executed

/-- The law holds in every run, and a run ends with a report. -/
theorem runAttempts_accounted {tests : List Test} {count : Nat} {state : RunnerState}
    (unreserved : ∀ count, ∀ name ∈ plainNames tests ++ world.generatedNames count tests,
      name ≠ classEntry)
    (accounted : world.Accounted state) (remaining : Nat) (attempts : count = 0 → 0 < remaining)
    (reported : count ≠ 0 → Reported state) :
    world.Accounted (world.runAttempts tests remaining count state).2.1 ∧
      Reported (world.runAttempts tests remaining count state).2.1 := by
  induction remaining generalizing count state with
  | zero =>
    refine ⟨accounted, reported ?_⟩
    intro isFirst
    exact absurd (attempts isFirst) (Nat.lt_irrefl 0)
  | succ remaining ih =>
    have begun : world.Accounted { world.beginAttempt count state with reached := [] } :=
      ⟨accounted.entries, accounted.failed, accounted.silenced, accounted.asked,
        accounted.waiting, accounted.unreserved⟩
    have finished := fun signal =>
      (begun.testLoop world (unreserved count)).finishAttempt world count signal
    unfold runAttempts
    split_ifs with unhealed unset
    · exact ⟨accounted, reported unhealed.1⟩
    · refine ⟨Accounted.tearDownClass world ?_ count, world.tearDownClass_reported count _⟩
      exact ⟨accounted.entries, accounted.failed, accounted.silenced, accounted.asked,
        accounted.waiting, accounted.unreserved⟩
    · unfold runTests
      dsimp only
      split_ifs with stops
      · exact ⟨finished _, world.tearDownClass_reported count _⟩
      · refine ih (finished _) ?_ ?_
        · intro isFirst
          exact absurd isFirst (Nat.succ_ne_zero count)
        · intro _
          exact world.tearDownClass_reported count _

/-! ## Complete reports -/

/-- The report has an entry for every requested test that is not silenced, exactly one and
with FAIL if the test was never executed, and for an executed test only the entries of its
executions that are not silenced. -/
structure ReportComplete (state : RunnerState) : Prop where
  listed : ∀ name ∈ state.requests, name ∉ state.silenced →
    ∃ entry ∈ state.web.test_case, entry.name = name
  failed : ∀ name ∈ state.requests, name ∉ state.executedNames →
    ∃ entry, (state.web.test_case.filter fun entry => entry.name == name) = [entry] ∧
      entry.test_result = some .fail
  nothing_more : ∀ name ∈ state.executedNames,
    state.entryNames.count name + state.silenced.count name = state.executedNames.count name

/-- Behind the first `len(executed)` requested records are those of the tests that were never
executed, each test once. -/
structure Aligned (state : RunnerState) : Prop where
  once : state.results.behindExecuted.Nodup
  not_executed : ∀ name ∈ state.results.behindExecuted, name ∉ state.executedNames
  behind : ∀ record ∈ state.results.requested.take state.results.executed.length,
    record.test_name ∈ state.executedNames ∨ record.test_name ∈ state.results.behindExecuted

section

variable {world} {state : RunnerState}

/-- The law for one name, when no report before the last one added an entry. -/
theorem Accounted.count_eq (accounted : world.Accounted state) (reported : Reported state)
    (before : ∀ report ∈ state.reports.dropLast,
      report.requested.length ≤ report.executed.length) {name : String}
    (unreserved : name ≠ classEntry) :
    state.entryNames.count name + state.silenced.count name =
      state.executedNames.count name + state.results.behindExecuted.count name := by
  obtain ⟨earlier, reports⟩ := reported
  obtain ⟨errors, law⟩ := accounted.entries
  have nothing : earlier.flatMap TestResult.behindExecuted = [] := by
    rw [flatMap_eq_nil_iff]
    intro report listed
    have short := before report (by simpa [reports] using listed)
    simp [TestResult.behindExecuted, drop_eq_nil_of_le short]
  have missing : state.listedMissing = state.results.behindExecuted := by
    simp [RunnerState.listedMissing, reports, nothing]
  have noError : (List.replicate errors classEntry).count name = 0 := by
    rw [count_eq_zero]
    intro listed
    exact unreserved (eq_of_mem_replicate listed)
  have counted := law.count_eq name
  rw [missing] at counted
  simp only [count_append, noError] at counted
  exact counted

/-- A test that is still requested is among the first records or behind them. -/
theorem behindExecuted_or_take {results : TestResult} {record : TestResultRecord}
    (requested : record ∈ results.requested) :
    record ∈ results.requested.take results.executed.length ∨
      record.test_name ∈ results.behindExecuted := by
  rw [← take_append_drop results.executed.length results.requested] at requested
  refine (mem_append.mp requested).imp_right ?_
  intro behind
  exact mem_map_of_mem behind

theorem entryNames_count (name : String) : state.entryNames.count name =
    (state.web.test_case.filter fun entry => entry.name == name).length := by
  rw [RunnerState.entryNames, count_eq_countP, countP_map, countP_eq_length_filter]
  rfl

/-- An entry with a name that was never executed is one that a report added. -/
theorem Accounted.failed_only (accounted : world.Accounted state) {name : String}
    (unexecuted : name ∉ state.executedNames) (one : state.entryNames.count name = 1) :
    ∃ entry, (state.web.test_case.filter fun entry => entry.name == name) = [entry] ∧
      entry.test_result = some .fail := by
  have single : (state.web.test_case.filter fun entry => entry.name == name).length = 1 := by
    rw [← entryNames_count, one]
  obtain ⟨entry, only⟩ := length_eq_one_iff.mp single
  have listed : entry ∈ state.web.test_case.filter fun entry => entry.name == name := by
    rw [only]
    exact mem_singleton.mpr rfl
  obtain ⟨member, named⟩ := mem_filter.mp listed
  refine ⟨entry, only, (accounted.failed entry member).resolve_left ?_⟩
  rw [beq_iff_eq.mp named]
  exact unexecuted

section

variable (accounted : world.Accounted state) (reported : Reported state)
  (before : ∀ report ∈ state.reports.dropLast, report.requested.length ≤ report.executed.length)
include accounted reported before

theorem Aligned.complete (aligned : Aligned state) : ReportComplete state := by
  have one : ∀ name ∈ state.requests, name ∉ state.executedNames →
      state.entryNames.count name = 1 := by
    intro name requested unexecuted
    have law := accounted.count_eq reported before
      (accounted.unreserved name (mem_append_left _ requested))
    have heard : state.silenced.count name = 0 :=
      count_eq_zero.mpr fun silenced => unexecuted (accounted.silenced name silenced)
    have never : state.executedNames.count name = 0 := count_eq_zero.mpr unexecuted
    obtain ⟨record, member, rfl⟩ :=
      (accounted.waiting name requested).resolve_left unexecuted
    have behind : record.test_name ∈ state.results.behindExecuted := by
      rcases behindExecuted_or_take member with front | behind
      · exact (aligned.behind record front).resolve_left unexecuted
      · exact behind
    have once := nodup_iff_count_eq_one.mp aligned.once _ behind
    omega
  constructor
  · intro name requested heard
    have present : 0 < state.entryNames.count name := by
      by_cases executed : name ∈ state.executedNames
      · have law := accounted.count_eq reported before
          (accounted.unreserved name (mem_append_left _ requested))
        have positive := count_pos_iff.mpr executed
        have silent := count_eq_zero.mpr heard
        omega
      · rw [one name requested executed]
        exact Nat.one_pos
    obtain ⟨entry, member, named⟩ := mem_map.mp (count_pos_iff.mp present)
    exact ⟨entry, member, named⟩
  · intro name requested unexecuted
    exact accounted.failed_only unexecuted (one name requested unexecuted)
  · intro name executed
    have law := accounted.count_eq reported before
      (accounted.unreserved name (mem_append_right _ executed))
    have notBehind : state.results.behindExecuted.count name = 0 :=
      count_eq_zero.mpr fun behind => aligned.not_executed name behind executed
    omega

theorem ReportComplete.aligned (complete : ReportComplete state) : Aligned state := by
  have asked : ∀ record ∈ state.results.requested, record.test_name ∈ state.requests :=
    fun record listed => (accounted.asked record listed).2
  -- Of a test that was never executed the report has one entry, so it is listed once.
  have once : ∀ name ∈ state.requests, name ∉ state.executedNames →
      state.results.behindExecuted.count name = 1 := by
    intro name requested unexecuted
    have law := accounted.count_eq reported before
      (accounted.unreserved name (mem_append_left _ requested))
    obtain ⟨entry, only, _⟩ := complete.failed name requested unexecuted
    have single : state.entryNames.count name = 1 := by
      rw [entryNames_count, only, length_singleton]
    have heard : state.silenced.count name = 0 :=
      count_eq_zero.mpr fun silenced => unexecuted (accounted.silenced name silenced)
    have never : state.executedNames.count name = 0 := count_eq_zero.mpr unexecuted
    omega
  have behindRequested : ∀ name ∈ state.results.behindExecuted, name ∈ state.requests := by
    intro name behind
    obtain ⟨record, member, rfl⟩ := mem_map.mp behind
    exact asked record (mem_of_mem_drop member)
  have not_executed : ∀ name ∈ state.results.behindExecuted, name ∉ state.executedNames := by
    intro name behind executed
    have law := accounted.count_eq reported before
      (accounted.unreserved name (mem_append_right _ executed))
    have same := complete.nothing_more name executed
    have positive := count_pos_iff.mpr behind
    omega
  constructor
  · rw [nodup_iff_count_eq_one]
    intro name behind
    exact once name (behindRequested name behind) (not_executed name behind)
  · exact not_executed
  · intro record front
    by_cases executed : record.test_name ∈ state.executedNames
    · exact Or.inl executed
    · have counted := once record.test_name (asked record (mem_of_mem_take front)) executed
      refine Or.inr (count_pos_iff.mp ?_)
      rw [counted]
      exact Nat.one_pos

end

end

/-- A class with two tests whose set-up fails. -/
def neverSetUp : World :=
  { once (fun _ _ => ⟨[], false⟩) fun _ => .passed with setUpClass := fun _ => false }

/-- A class whose first test ends the run. -/
def abortsFirst : World := once (fun _ _ => ⟨[], false⟩) fun _ => .abortAll

end World

end Vts.Runner
