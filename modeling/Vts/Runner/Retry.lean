import Vts.Runner.BaseTest
import Vts.Runner.FilterRule

/-!
# Retries

What the attempts of `runTestsWithRetry` do to the records of a test class. Within an
attempt the state only grows: records are added, tests that are known stay known, and what
is executed passes the filter of the attempt. From one attempt to the next the filter is
made of the names that are not passing.

Proved here, for names that no filter reads as patterns: a test that passed or was skipped
is not executed again, a test that failed or ended with an error is executed again when
the next attempt comes to it, and an attempt that is not stopped leaves a record of every
plain test and every generated test that was requested before it. The record is that of
the last execution. Tests that are generated for the first time in a later attempt are
left out: the filter of the attempt does not know them.
-/

namespace Vts.Runner

open Vts.Lib List

/-- A name that a filter takes as it is. -/
def Literal (name : String) : Prop :=
  (∀ rest, name ≠ "-" ++ rest) ∧ (∀ body, name ≠ "r(" ++ body ++ ")") ∧
    ∀ body, name ≠ "\\r(" ++ body ++ ")"

namespace World

variable (world : World)

/-! ## The filter of an attempt -/

section

variable {settings : FilterSettings} {included : List String}

theorem literal_including (literal : ∀ name ∈ included, Literal name) :
    Including settings {name | name ∈ included} = {name | name ∈ included} := by
  ext name
  constructor
  · exact And.left
  · intro listed
    exact ⟨listed, fun _ => (literal name listed).1⟩

theorem literal_standsFor {engine : RegexEngine} {pattern name : String} (literal : Literal pattern)
    (compact : settings.expand_bitness = false) :
    StandsFor engine settings pattern name ↔ pattern = name := by
  have exact_iff : ∀ {named : String}, ExactName settings pattern named → pattern = named := by
    intro named exactly
    cases exactly with
    | plain _ => rfl
    | escaped _ body => exact absurd rfl (literal.2.2 body)
  constructor
  · intro stands
    cases stands with
    | exact named => exact exact_iff named
    | bitness _ expanded => exact absurd (compact.symm.trans expanded) (by simp)
    | regex _ compiles whole => exact absurd rfl (literal.2.1 _)
  · rintro rfl
    exact StandsFor.exact (ExactName.plain fun _ => literal.2)

/-- A filter of literal names lets exactly these names pass. -/
theorem filter_literal (some_name : included ≠ []) (literal : ∀ name ∈ included, Literal name)
    (item : String) :
    (Filter.new world.engine included [] ⟨true, none, true, false, none, false⟩).filter
      world.engine item = true ↔ item ∈ included := by
  rw [Filter.new_eq_made, Filter.filter_made_iff]
  have restricts : Restricts world.engine ⟨true, none, true, false, none, false⟩
      {name | name ∈ included} := by
    obtain ⟨first, listed⟩ := exists_mem_of_ne_nil included some_name
    refine ⟨first, ?_, ?_⟩
    · rw [literal_including literal]
      exact listed
    · rintro ⟨_, body, wrapped, _⟩
      exact (literal first listed).2.1 body wrapped
  have listed_iff : Listed world.engine ⟨true, none, true, false, none, false⟩
      {name | name ∈ included} item ↔ item ∈ included := by
    constructor
    · rintro (⟨pattern, listed, stands⟩ | ⟨matching, _⟩)
      · rw [literal_standsFor (literal pattern listed) rfl] at stands
        rw [← stands]
        exact listed
      · cases matching
    · intro listed
      exact Or.inl ⟨item, listed, (literal_standsFor (literal item listed) rfl).mpr rfl⟩
  unfold Passes
  rw [if_neg (by simp), literal_including literal]
  constructor
  · rintro ⟨included, _⟩
    exact listed_iff.mp (included restricts)
  · intro listed
    exact ⟨fun _ => listed_iff.mpr listed, fun unrestricted => absurd restricts unrestricted⟩

end

/-! ## One test -/

section

variable (record : TestResultRecord) (state : RunnerState) (test_name : String)
  (execution : Execution) (is_final_run : Bool)

@[simp] theorem ended_test_name :
    (ended record execution is_final_run).test_name = record.test_name := by
  unfold ended
  cases execution.ending <;> dsimp only <;> (try split_ifs) <;> rfl

@[simp] theorem ended_test_class :
    (ended record execution is_final_run).test_class = record.test_class := by
  unfold ended
  cases execution.ending <;> dsimp only <;> (try split_ifs) <;> rfl

/-- The record of the execution that comes next. -/
def nextRecord (state : RunnerState) (test_name : String) : TestResultRecord :=
  ended ((world.record test_name).testBegin (world.execution state.executions.length).begin_time)
    (world.execution state.executions.length) state.is_final_run

theorem nextRecord_test_name : (world.nextRecord state test_name).test_name = test_name := by
  simp [nextRecord, TestResultRecord.testBegin, record, TestResultRecord.new]

theorem nextRecord_test_class :
    (world.nextRecord state test_name).test_class = some world.test_module_name := by
  simp [nextRecord, TestResultRecord.testBegin, record, TestResultRecord.new]

/-- What `execOneTest` can do: nothing when the filter leaves the test out, and else one
execution, whose record is added unless the test is silenced. -/
theorem execOneTest_cases (state : RunnerState) :
    (world.filteredOut state test_name = true ∧
      world.execOneTest test_name state =
        ({ state with reached := state.reached ++ [test_name] }, none)) ∨
    (world.filteredOut state test_name = false ∧
      (world.execution state.executions.length).ending ≠ .silent ∧
      world.execOneTest test_name state =
        ({ state with
          results := state.results.addRecord (world.nextRecord state test_name)
          web := reported (state.web.AddTestReport test_name
            (world.execution state.executions.length).begin_time)
            (world.execution state.executions.length).ending state.is_final_run
          is_final_run := state.is_final_run ||
            (world.execution state.executions.length).ending.signal.isSome
          reached := state.reached ++ [test_name]
          executions := state.executions ++ [world.nextRecord state test_name] },
          (world.execution state.executions.length).ending.signal)) ∨
    (world.filteredOut state test_name = false ∧
      (world.execution state.executions.length).ending = .silent ∧
      world.execOneTest test_name state =
        ({ state with
          results := state.results.removeRecord (world.nextRecord state test_name) true
          web := (state.web.AddTestReport test_name
            (world.execution state.executions.length).begin_time).SetTestResult none
          reached := state.reached ++ [test_name]
          executions := state.executions ++ [world.nextRecord state test_name]
          silenced := state.silenced ++ [test_name] }, none)) := by
  have sameFilter : world.filteredOut { state with reached := state.reached ++ [test_name] }
      test_name = world.filteredOut state test_name := rfl
  unfold execOneTest
  simp only [sameFilter]
  cases left_out : world.filteredOut state test_name with
  | true => exact Or.inl ⟨rfl, by simp⟩
  | false =>
    by_cases silent : (world.execution state.executions.length).ending = .silent
    · refine Or.inr (Or.inr ⟨rfl, silent, ?_⟩)
      simp [silent, nextRecord, reported, TestEnd.signal]
    · refine Or.inr (Or.inl ⟨rfl, silent, ?_⟩)
      simp [silent, nextRecord]

end

/-! ## What an attempt keeps -/

/-- A test that is requested or has a record. -/
def Known (results : TestResult) (name : String) : Prop :=
  (∃ record ∈ results.requested, record.test_name = name) ∨
    ∃ record ∈ results.executed, record.test_name = name

/-- From one state of an attempt to a later one: the filter is the same, new executions
pass it, and a test that was reached and passes it was executed. -/
structure Progress (state later : RunnerState) : Prop where
  same_filter : later.test_filter_retry = state.test_filter_retry
  grows : ∃ executed reached : List _, later.executions = state.executions ++ executed ∧
    later.reached = state.reached ++ reached ∧
    (∀ record ∈ executed, world.filteredOut state record.test_name = false) ∧
    ∀ name ∈ reached, world.filteredOut state name = false →
      ∃ record ∈ executed, record.test_name = name

theorem progress_refl (state : RunnerState) : world.Progress state state :=
  ⟨rfl, [], [], by simp, by simp, by simp, by simp⟩

theorem filteredOut_congr {state later : RunnerState}
    (same : later.test_filter_retry = state.test_filter_retry) (name : String) :
    world.filteredOut later name = world.filteredOut state name := by
  unfold filteredOut
  rw [same]

theorem progress_trans (first second third : RunnerState) (one : world.Progress first second)
    (two : world.Progress second third) : world.Progress first third := by
  obtain ⟨sameOne, executedOne, reachedOne, executions, reached, passOne, doneOne⟩ := one
  obtain ⟨sameTwo, executedTwo, reachedTwo, executionsTwo, reachedLater, passTwo, doneTwo⟩ := two
  refine ⟨sameTwo.trans sameOne, executedOne ++ executedTwo, reachedOne ++ reachedTwo, ?_, ?_,
    ?_, ?_⟩
  · rw [executionsTwo, executions, append_assoc]
  · rw [reachedLater, reached, append_assoc]
  · intro record listed
    rcases mem_append.mp listed with inFirst | inSecond
    · exact passOne record inFirst
    · rw [← world.filteredOut_congr sameOne]
      exact passTwo record inSecond
  · intro name listed passes
    rcases mem_append.mp listed with inFirst | inSecond
    · obtain ⟨record, member, named⟩ := doneOne name inFirst passes
      exact ⟨record, mem_append_left _ member, named⟩
    · rw [← world.filteredOut_congr sameOne] at passes
      obtain ⟨record, member, named⟩ := doneTwo name inSecond passes
      exact ⟨record, mem_append_right _ member, named⟩

theorem execOneTest_progress (test_name : String) :
    Step.Keeps world.Progress (world.execOneTest test_name) := by
  intro state
  rcases world.execOneTest_cases test_name state with ⟨out, done⟩ | ⟨passes, _, done⟩ |
    ⟨passes, _, done⟩
  · rw [done]
    refine ⟨rfl, [], [test_name], by simp, rfl, by simp, ?_⟩
    intro name listed passes
    rw [mem_singleton.mp listed, out] at passes
    cases passes
  all_goals
    rw [done]
    refine ⟨rfl, [world.nextRecord state test_name], [test_name], rfl, rfl, ?_, ?_⟩
    · intro record listed
      rw [mem_singleton.mp listed, nextRecord_test_name]
      exact passes
    · intro name listed _
      rw [mem_singleton.mp listed]
      exact ⟨_, mem_singleton.mpr rfl, world.nextRecord_test_name state test_name⟩

/-- The names of the tests that an attempt may generate. -/
def generatedNames (count : Nat) (tests : List Test) : List String :=
  tests.zipIdx.flatMap fun test =>
    match test.1 with
    | .plain _ => []
    | .generate _ => (world.generate count test.2).calls.flatMap GeneratedTests.testNames

/-- The names of the plain tests. -/
def plainNames (tests : List Test) : List String := tests.filterMap Test.plainName

theorem mem_plainNames {tests : List Test} {test_name : String} {position : Nat}
    (listed : (Test.plain test_name, position) ∈ tests.zipIdx) :
    test_name ∈ plainNames tests :=
  mem_filterMap.mpr ⟨_, fst_mem_of_mem_zipIdx listed, rfl⟩

theorem mem_generatedNames {count : Nat} {tests : List Test} {function name : String}
    {position : Nat} {call : GeneratedTests}
    (listed : (Test.generate function, position) ∈ tests.zipIdx)
    (called : call ∈ (world.generate count position).calls) (named : name ∈ call.testNames) :
    name ∈ world.generatedNames count tests :=
  mem_flatMap.mpr ⟨_, listed, mem_flatMap.mpr ⟨call, called, named⟩⟩

section

variable {related : RunnerState → RunnerState → Prop} (refl : ∀ state, related state state)
  (trans : ∀ first second third, related first second → related second third →
    related first third)

include refl trans in
/-- What the single tests and the requests of an attempt keep, the loop over the tests
keeps. -/
theorem testLoop_keeps {count : Nat} {tests : List Test}
    (plain : ∀ name ∈ plainNames tests, Step.Keeps related (world.execOneTest name))
    (generated : ∀ name ∈ world.generatedNames count tests,
      Step.Keeps related (world.execOneTest name))
    (request : ∀ names, (∀ name ∈ names, name ∈ world.generatedNames count tests) →
      ∀ state, related state (world.requestAll names state)) :
    Step.Keeps related (world.testLoop count tests) := by
  refine Step.Keeps.each refl trans ?_
  rintro ⟨test, position⟩ listed
  cases test with
  | plain test_name => exact plain test_name (mem_plainNames listed)
  | generate function =>
    refine Step.Keeps.seq trans (Step.Keeps.each refl trans ?_) ?_
    · intro call called
      have named : ∀ name ∈ call.testNames, name ∈ world.generatedNames count tests :=
        fun name => world.mem_generatedNames listed called
      exact Step.Keeps.seq trans (request call.testNames named)
        (Step.Keeps.each refl trans fun name member => generated name (named name member))
    · cases (world.generate count position).raises with
      | true | false => exact refl

end

/-- What holds before the loop, and single tests and requests preserve, holds after it. -/
theorem testLoop_preserves {invariant : RunnerState → Prop} {count : Nat} {tests : List Test}
    (exec : ∀ name ∈ plainNames tests ++ world.generatedNames count tests, ∀ state,
      invariant state → invariant (world.execOneTest name state).1)
    (request : ∀ names, (∀ name ∈ names, name ∈ world.generatedNames count tests) →
      ∀ state, invariant state → invariant (world.requestAll names state))
    {state : RunnerState} (held : invariant state) :
    invariant (world.testLoop count tests state).1 := by
  have keeps : Step.Keeps (fun before after => invariant before → invariant after)
      (world.testLoop count tests) := by
    refine world.testLoop_keeps ?_ ?_ ?_ ?_ request
    · intro state held
      exact held
    · intro first second third one two held
      exact two (one held)
    · intro name listed
      exact exec name (mem_append_left _ listed)
    · intro name listed
      exact exec name (mem_append_right _ listed)
  exact keeps state held

theorem testLoop_progress (count : Nat) (tests : List Test) :
    Step.Keeps world.Progress (world.testLoop count tests) := by
  refine world.testLoop_keeps world.progress_refl world.progress_trans
    (fun name _ => world.execOneTest_progress name)
    (fun name _ => world.execOneTest_progress name) ?_
  intro names _ state
  exact ⟨rfl, [], [], by simp [requestAll], by simp [requestAll], by simp, by simp⟩

/-! ## Reaching the tests -/

theorem progress_reached {state later : RunnerState} (progress : world.Progress state later)
    {name : String} (reached : name ∈ state.reached) : name ∈ later.reached := by
  obtain ⟨_, _, new, _, grown, _⟩ := progress
  rw [grown]
  exact mem_append_left _ reached

theorem execOneTest_reaches (test_name : String) (state : RunnerState) :
    test_name ∈ (world.execOneTest test_name state).1.reached := by
  rcases world.execOneTest_cases test_name state with ⟨_, done⟩ | ⟨_, _, done⟩ | ⟨_, _, done⟩
  all_goals
    rw [done]
    simp

section

variable (call : GeneratedTests) (function : GenerateRun) (count : Nat) (state : RunnerState)

theorem runGeneratedTests_progress : Step.Keeps world.Progress (world.runGeneratedTests call) := by
  refine Step.Keeps.seq world.progress_trans ?_
    (Step.Keeps.each world.progress_refl world.progress_trans
      fun name _ => world.execOneTest_progress name)
  intro state
  exact ⟨rfl, [], [], by simp [Step.change, requestAll], by simp [Step.change, requestAll],
    by simp, by simp⟩

theorem runGeneratedTests_reaches (ended : (world.runGeneratedTests call state).2 = none) :
    ∀ name ∈ call.testNames, name ∈ (world.runGeneratedTests call state).1.reached := by
  obtain ⟨_, whole⟩ := Step.seq_eq_none ended
  have looped : world.runGeneratedTests call state = Step.each world.execOneTest call.testNames
      (world.requestAll call.testNames state) := whole
  rw [looped] at ended ⊢
  refine Step.each_of_none (fun name state => name ∈ state.reached) ?_ ?_ ended
  · intro name _ state _
    exact world.execOneTest_reaches name state
  · intro name _ other _ state reached
    exact world.progress_reached (world.execOneTest_progress other state) reached

theorem runGenerate_progress : Step.Keeps world.Progress (world.runGenerate function) := by
  refine Step.Keeps.seq world.progress_trans (Step.Keeps.each world.progress_refl
    world.progress_trans fun call _ => world.runGeneratedTests_progress call) ?_
  cases function.raises with
  | true | false => exact world.progress_refl

theorem runGenerate_reaches (ended : (world.runGenerate function state).2 = none) :
    ∀ call ∈ function.calls, ∀ name ∈ call.testNames,
      name ∈ (world.runGenerate function state).1.reached := by
  obtain ⟨calls, whole⟩ := Step.seq_eq_none ended
  have kept : (world.runGenerate function state).1 =
      (Step.each world.runGeneratedTests function.calls state).1 := by
    rw [runGenerate, whole]
    cases function.raises <;> rfl
  rw [kept]
  refine Step.each_of_none (fun call state => ∀ name ∈ call.testNames, name ∈ state.reached)
    ?_ ?_ calls
  · intro call _ state ended
    exact world.runGeneratedTests_reaches call state ended
  · intro call _ other _ state reached name named
    exact world.progress_reached (world.runGeneratedTests_progress other state)
      (reached name named)

theorem runTest_progress (test : Test × Nat) :
    Step.Keeps world.Progress (world.runTest count test) := by
  obtain ⟨test, position⟩ := test
  cases test with
  | plain test_name => exact world.execOneTest_progress test_name
  | generate _ => exact world.runGenerate_progress _

/-- An attempt that is not stopped comes to all its tests. -/
theorem testLoop_reaches (tests : List Test) (state : RunnerState)
    (ended : (world.testLoop count tests state).2 = none) :
    ∀ name ∈ plainNames tests ++ world.generatedNames count tests,
      name ∈ (world.testLoop count tests state).1.reached := by
  have each : ∀ test ∈ tests.zipIdx,
      (∀ name, test.1.plainName = some name →
        name ∈ (world.testLoop count tests state).1.reached) ∧
      ∀ function, test.1 = .generate function → ∀ call ∈ (world.generate count test.2).calls,
        ∀ name ∈ call.testNames, name ∈ (world.testLoop count tests state).1.reached := by
    refine Step.each_of_none (fun test state =>
      (∀ name, test.1.plainName = some name → name ∈ state.reached) ∧
        ∀ function, test.1 = .generate function → ∀ call ∈ (world.generate count test.2).calls,
          ∀ name ∈ call.testNames, name ∈ state.reached) ?_ ?_ ended
    · rintro ⟨test, position⟩ _ state ended
      cases test with
      | plain test_name =>
        refine ⟨?_, by simp⟩
        intro name named
        obtain rfl : test_name = name := by simpa [Test.plainName] using named
        exact world.execOneTest_reaches test_name state
      | generate function =>
        refine ⟨by simp [Test.plainName], ?_⟩
        intro _ _
        exact world.runGenerate_reaches (world.generate count position) state ended
    · rintro item _ other _ state ⟨plain, generated⟩
      have progress := world.runTest_progress count other state
      constructor
      · intro name named
        exact world.progress_reached progress (plain name named)
      · intro function same call called name named
        exact world.progress_reached progress (generated function same call called name named)
  intro name listed
  rcases mem_append.mp listed with inPlain | inGenerated
  · obtain ⟨test, member, named⟩ := mem_filterMap.mp inPlain
    obtain ⟨position, found⟩ := mem_iff_getElem?.mp member
    exact (each _ (mk_mem_zipIdx_iff_getElem?.mpr found)).1 name named
  · obtain ⟨⟨test, position⟩, indexed, named⟩ := mem_flatMap.mp inGenerated
    cases test with
    | plain _ => cases named
    | generate function =>
      obtain ⟨call, called, member⟩ := mem_flatMap.mp named
      exact (each _ indexed).2 function rfl call called name member

end

/-! ## Records -/

/-- What holds of the records while no test is silenced: the lists of results are right,
the records are of this class and have literal names, the record of a test is that of its
last execution, and what was requested is known. -/
structure Recorded (plain : List String) (state : RunnerState) : Prop where
  bucketed : state.results.Bucketed
  own : ∀ record ∈ state.results.requested ++ state.results.executed,
    record.test_class = some world.test_module_name ∧ Literal record.test_name
  latest : ∀ name,
    (state.results.executed.filter fun record => decide (record.test_name = name)) =
      (state.executions.filter fun record => decide (record.test_name = name)).getLast?.toList
  known : ∀ name ∈ state.requests, Known state.results name
  requested : ∀ name ∈ plain, name ∈ state.requests

section

variable {first second : TestResultRecord} {state : RunnerState} {record : TestResultRecord}

/-- Within the class, a full name is as good as a name. -/
theorem isSameTestCase_iff_name (sameClass : first.test_class = second.test_class) :
    first.isSameTestCase second = true ↔ first.test_name = second.test_name := by
  rw [TestResultRecord.isSameTestCase_iff]
  unfold TestResultRecord.fullname
  rw [sameClass]
  constructor
  · exact append_left_cancel
  · intro same
    rw [same]

theorem Recorded.execOneTest {plain : List String} {state : RunnerState}
    (recorded : world.Recorded plain state) {test_name : String} (literal : Literal test_name)
    (heard : (world.execution state.executions.length).ending ≠ .silent) :
    world.Recorded plain (world.execOneTest test_name state).1 := by
  obtain ⟨bucketed, own, latest, known, requested⟩ := recorded
  rcases world.execOneTest_cases test_name state with ⟨_, done⟩ | ⟨_, _, done⟩ | ⟨_, silent, _⟩
  · rw [done]
    exact ⟨bucketed, own, latest, known, requested⟩
  · rw [done]
    have named := world.nextRecord_test_name state test_name
    have classed := world.nextRecord_test_class state test_name
    have same_iff : ∀ record ∈ state.results.requested ++ state.results.executed,
        (record.isSameTestCase (world.nextRecord state test_name) = true ↔
          record.test_name = test_name) := by
      intro record listed
      rw [isSameTestCase_iff_name ((own record listed).1.trans classed.symm), named]
    refine ⟨bucketed.addRecord _, ?_, ?_, ?_, requested⟩
    · intro record listed
      rw [TestResult.addRecord_requested, TestResult.addRecord_executed] at listed
      rcases mem_append.mp listed with inRequested | inExecuted
      · exact own record (mem_append_left _ (mem_filter.mp inRequested).1)
      · rcases mem_append.mp inExecuted with earlier | latest
        · exact own record (mem_append_right _ (mem_filter.mp earlier).1)
        · rw [mem_singleton.mp latest, named]
          exact ⟨classed, literal⟩
    · intro name
      rw [TestResult.addRecord_executed, filter_append, filter_append,
        filter_filter]
      by_cases sameName : test_name = name
      · subst sameName
        have gone : (state.results.executed.filter fun record =>
            decide (record.test_name = test_name) &&
              !record.isSameTestCase (world.nextRecord state test_name)) = [] := by
          apply filter_eq_nil_iff.mpr
          intro record listed
          have same := same_iff record (mem_append_right _ listed)
          simp [← same]
        rw [gone]
        simp [named]
      · have kept : (state.results.executed.filter fun record =>
            decide (record.test_name = name) &&
              !record.isSameTestCase (world.nextRecord state test_name)) =
            state.results.executed.filter fun record => decide (record.test_name = name) := by
          apply filter_congr
          intro record listed
          have same := same_iff record (mem_append_right _ listed)
          by_cases here : record.test_name = name
          · have other : record.isSameTestCase (world.nextRecord state test_name) = false := by
              rw [← Bool.not_eq_true, same, here]
              exact fun back => sameName back.symm
            simp [here, other]
          · simp [here]
        rw [kept, latest]
        simp [named, sameName]
    · intro name listed
      by_cases sameName : test_name = name
      · refine Or.inr ⟨world.nextRecord state test_name, ?_, named.trans sameName⟩
        rw [TestResult.addRecord_executed]
        simp
      · have stays : ∀ record ∈ state.results.requested ++ state.results.executed,
            record.test_name = name →
            (!record.isSameTestCase (world.nextRecord state test_name)) = true := by
          intro record member here
          rw [Bool.not_eq_true', ← Bool.not_eq_true, same_iff record member, here]
          exact fun back => sameName back.symm
        rcases known name listed with ⟨record, member, here⟩ | ⟨record, member, here⟩
        · refine Or.inl ⟨record, ?_, here⟩
          rw [TestResult.addRecord_requested, mem_filter]
          exact ⟨member, stays record (mem_append_left _ member) here⟩
        · refine Or.inr ⟨record, ?_, here⟩
          rw [TestResult.addRecord_executed]
          exact mem_append_left _ (mem_filter.mpr
            ⟨member, stays record (mem_append_right _ member) here⟩)
  · exact absurd silent heard

theorem Recorded.requestAll {plain : List String} {state : RunnerState}
    (recorded : world.Recorded plain state) {names : List String}
    (literal : ∀ name ∈ names, Literal name) :
    world.Recorded plain (world.requestAll names state) := by
  obtain ⟨bucketed, own, latest, known, requested⟩ := recorded
  refine ⟨?_, ?_, latest, ?_, ?_⟩
  · intro token
    have lists := bucketed token
    cases token <;> exact lists
  · intro record listed
    rcases mem_append.mp listed with inRequested | inExecuted
    · rcases mem_append.mp inRequested with earlier | new
      · exact own record (mem_append_left _ earlier)
      · obtain ⟨name, member, rfl⟩ := mem_map.mp new
        exact ⟨rfl, literal name member⟩
    · exact own record (mem_append_right _ inExecuted)
  · intro name listed
    rcases mem_append.mp listed with earlier | new
    · rcases known name earlier with ⟨record, member, here⟩ | executed
      · exact Or.inl ⟨record, mem_append_left _ member, here⟩
      · exact Or.inr executed
    · exact Or.inl ⟨world.record name, mem_append_right _ (mem_map_of_mem new), rfl⟩
  · intro name listed
    exact mem_append_left _ (requested name listed)

/-- The records stay right during an attempt. -/
theorem Recorded.testLoop {plain : List String} {state : RunnerState} {count : Nat}
    {tests : List Test} (heard : ∀ number, (world.execution number).ending ≠ .silent)
    (literal : ∀ name ∈ plainNames tests ++ world.generatedNames count tests, Literal name)
    (recorded : world.Recorded plain state) :
    world.Recorded plain (world.testLoop count tests state).1 := by
  refine world.testLoop_preserves ?_ ?_ recorded
  · intro name listed state recorded
    exact recorded.execOneTest world (literal name listed) (heard _)
  · intro names among state recorded
    exact recorded.requestAll world fun name listed =>
      literal name (mem_append_right _ (among name listed))

/-- A record of a test that was not executed since is still there. -/
theorem Recorded.kept {plain : List String} {later : RunnerState}
    (recorded : world.Recorded plain state) (recordedLater : world.Recorded plain later)
    {executed : List TestResultRecord} (grown : later.executions = state.executions ++ executed)
    (listed : record ∈ state.results.executed)
    (notAgain : ∀ again ∈ executed, again.test_name ≠ record.test_name) :
    record ∈ later.results.executed := by
  have none_new : (executed.filter fun other => decide (other.test_name = record.test_name)) =
      [] := by
    apply filter_eq_nil_iff.mpr
    intro again member
    simpa using notAgain again member
  have same : (later.results.executed.filter fun other =>
      decide (other.test_name = record.test_name)) =
      state.results.executed.filter fun other => decide (other.test_name = record.test_name) := by
    rw [recordedLater.latest, recorded.latest, grown, filter_append, none_new,
      append_nil]
  have here : record ∈ state.results.executed.filter fun other =>
      decide (other.test_name = record.test_name) := mem_filter.mpr ⟨listed, by simp⟩
  rw [← same] at here
  exact (mem_filter.mp here).1

/-- A test has at most one record. -/
theorem Recorded.unique {plain : List String} (recorded : world.Recorded plain state)
    (firstListed : first ∈ state.results.executed) (secondListed : second ∈ state.results.executed)
    (same : first.test_name = second.test_name) : first = second := by
  have inFirst : first ∈ state.results.executed.filter fun record =>
      decide (record.test_name = second.test_name) :=
    mem_filter.mpr ⟨firstListed, by simpa using same⟩
  have inSecond : second ∈ state.results.executed.filter fun record =>
      decide (record.test_name = second.test_name) :=
    mem_filter.mpr ⟨secondListed, by simp⟩
  rw [recorded.latest, Option.mem_toList] at inFirst inSecond
  exact Option.some.inj (inFirst.symm.trans inSecond)

theorem mem_nonPassing {results : TestResult} :
    record ∈ nonPassing results ↔
      record ∈ results.getNonExecutedRecords ∨ record ∈ results.failed ∨
        record ∈ results.error := by
  simp [nonPassing, TestResult.getNonPassingRecords]

/-- Of the tests with a record, those with a failure or an error are run again. -/
theorem Recorded.nonPassing_iff {plain : List String} (recorded : world.Recorded plain state)
    (listed : record ∈ state.results.executed) :
    (∃ other ∈ nonPassing state.results, other.test_name = record.test_name) ↔
      record.result ≠ some .pass ∧ record.result ≠ some .skip := by
  have failed := recorded.bucketed .fail
  have errors := recorded.bucketed .error
  simp only [TestResult.resultList] at failed errors
  constructor
  · rintro ⟨other, member, named⟩
    rcases mem_nonPassing.mp member with unexecuted | inFailed | inErrors
    · obtain ⟨inRequested, absent⟩ := mem_filter.mp unexecuted
      have sameClass := (recorded.own other (mem_append_left _ inRequested)).1.trans
        (recorded.own record (mem_append_right _ listed)).1.symm
      have found : (state.results.executed.any fun executed =>
          other.isSameTestCase executed) = true :=
        any_eq_true.mpr ⟨record, listed, (isSameTestCase_iff_name sameClass).mpr named⟩
      rw [found] at absent
      cases absent
    · rw [failed] at inFailed
      obtain ⟨executed, token⟩ := mem_filter.mp inFailed
      rw [recorded.unique world executed listed named] at token
      cases result : record.result with
      | none => simp
      | some known => cases known <;> simp_all [TestResult.bucket]
    · rw [errors] at inErrors
      obtain ⟨executed, token⟩ := mem_filter.mp inErrors
      rw [recorded.unique world executed listed named] at token
      cases result : record.result with
      | none => simp
      | some known => cases known <;> simp_all [TestResult.bucket]
  · rintro ⟨noPass, noSkip⟩
    refine ⟨record, mem_nonPassing.mpr (Or.inr ?_), rfl⟩
    rw [failed, errors]
    cases result : record.result with
    | none => exact Or.inr (mem_filter.mpr ⟨listed, by simp [TestResult.bucket, result]⟩)
    | some known =>
      cases known with
      | pass => exact absurd result noPass
      | skip => exact absurd result noSkip
      | fail => exact Or.inl (mem_filter.mpr ⟨listed, by simp [TestResult.bucket, result]⟩)
      | error => exact Or.inr (mem_filter.mpr ⟨listed, by simp [TestResult.bucket, result]⟩)

end

/-- A known test without a record is run again. -/
theorem Known.nonPassing {results : TestResult} {name : String} (known : Known results name)
    (unexecuted : ∀ record ∈ results.executed, record.test_name ≠ name)
    (sameClass : ∀ requested ∈ results.requested, ∀ record ∈ results.executed,
      requested.test_class = record.test_class) :
    ∃ record ∈ nonPassing results, record.test_name = name := by
  rcases known with ⟨record, listed, named⟩ | ⟨record, listed, named⟩
  · refine ⟨record, mem_nonPassing.mpr (Or.inl (mem_filter.mpr ⟨listed, ?_⟩)), named⟩
    rw [Bool.not_eq_true', any_eq_false]
    intro executed member same
    rw [isSameTestCase_iff_name (sameClass record listed executed member)] at same
    exact unexecuted executed member (same.symm.trans named)
  · exact absurd named (unexecuted record listed)

/-! ## One attempt -/

/-- The records of the executions of an attempt. -/
def Attempt.executed (attempt : Attempt) : List TestResultRecord :=
  attempt.finish.executions.drop attempt.start.executions.length

/-- The state in which an attempt comes to its tests: the records are right, and the filter
is that of the attempt. -/
structure Ready (tests : List Test) (count : Nat) (state : RunnerState) : Prop where
  recorded : world.Recorded (plainNames tests) state
  first : count = 0 → state.test_filter_retry = none
  retry : count ≠ 0 → state.test_filter_retry = some (world.retryFilter state.results) ∧
    nonPassing state.results ≠ []

theorem Ready.filteredOut {tests : List Test} {count : Nat} {state : RunnerState}
    (ready : world.Ready tests count state) (later : count ≠ 0) (name : String) :
    world.filteredOut state name = false ↔
      ∃ record ∈ nonPassing state.results, record.test_name = name := by
  obtain ⟨filter, some_record⟩ := ready.retry later
  have literal : ∀ name ∈ (nonPassing state.results).map TestResultRecord.test_name,
      Literal name := by
    intro name listed
    obtain ⟨record, member, rfl⟩ := mem_map.mp listed
    have lists : record ∈ state.results.requested ++ state.results.executed := by
      have failed := ready.recorded.bucketed .fail
      have errors := ready.recorded.bucketed .error
      simp only [TestResult.resultList] at failed errors
      rcases mem_nonPassing.mp member with unexecuted | inFailed | inErrors
      · exact mem_append_left _ (mem_filter.mp unexecuted).1
      · rw [failed] at inFailed
        exact mem_append_right _ (mem_filter.mp inFailed).1
      · rw [errors] at inErrors
        exact mem_append_right _ (mem_filter.mp inErrors).1
    exact (ready.recorded.own record lists).2
  have passes := world.filter_literal (by simpa using some_record) literal name
  unfold World.filteredOut
  rw [filter, Option.any_some, Bool.not_eq_false', retryFilter, passes, mem_map]

section

variable {world} {tests : List Test} {count : Nat} {state : RunnerState}
  (ready : world.Ready tests count state)

include ready in
theorem Ready.not_again (later : count ≠ 0) {record : TestResultRecord}
    (listed : record ∈ state.results.executed)
    (passed : record.result = some .pass ∨ record.result = some .skip) :
    ∀ again ∈ Attempt.executed ⟨count, state, (world.testLoop count tests state).1, none⟩,
      again.test_name ≠ record.test_name := by
  obtain ⟨_, executed, _, grown, _, passing, _⟩ := world.testLoop_progress count tests state
  intro again member same
  have new : again ∈ executed := by
    rw [Attempt.executed, grown, drop_left] at member
    exact member
  have retried := (ready.filteredOut world later _).mp (passing again new)
  rw [same, ready.recorded.nonPassing_iff world listed] at retried
  rcases passed with pass | skip
  · exact retried.1 pass
  · exact retried.2 skip

include ready in
/-- In a later attempt a test with a failure or an error is executed when it is reached. -/
theorem Ready.again (later : count ≠ 0) (fresh : state.reached = []) {record : TestResultRecord}
    (listed : record ∈ state.results.executed) (noPass : record.result ≠ some .pass)
    (noSkip : record.result ≠ some .skip)
    (reached : record.test_name ∈ (world.testLoop count tests state).1.reached) :
    ∃ again ∈ Attempt.executed ⟨count, state, (world.testLoop count tests state).1, none⟩,
      again.test_name = record.test_name := by
  obtain ⟨_, executed, new, grown, reachedNew, _, done⟩ := world.testLoop_progress count tests state
  rw [reachedNew, fresh, nil_append] at reached
  have passes := (ready.filteredOut world later record.test_name).mpr
    ((ready.recorded.nonPassing_iff world listed).mpr ⟨noPass, noSkip⟩)
  obtain ⟨again, member, named⟩ := done record.test_name reached passes
  refine ⟨again, ?_, named⟩
  rw [Attempt.executed, grown, drop_left]
  exact member

include ready in
/-- An attempt that is not stopped leaves a record, that of the last execution, of every
test that it reached and, if it is a later one, that was known before. -/
theorem Ready.records (fresh : state.reached = [])
    (heard : ∀ number, (world.execution number).ending ≠ .silent)
    (literal : ∀ name ∈ plainNames tests ++ world.generatedNames count tests, Literal name)
    {name : String} (reached : name ∈ (world.testLoop count tests state).1.reached)
    (known : count = 0 ∨ name ∈ state.requests) :
    ∃ record, ((world.testLoop count tests state).1.results.executed.filter fun record =>
        decide (record.test_name = name)) = [record] ∧
      ((world.testLoop count tests state).1.executions.filter fun record =>
        decide (record.test_name = name)).getLast? = some record := by
  have after := ready.recorded.testLoop world heard literal
  -- It is enough that the test was executed at some time.
  suffices executed : ∃ record ∈ (world.testLoop count tests state).1.executions,
      record.test_name = name by
    obtain ⟨record, member, named⟩ := executed
    have here : record ∈ (world.testLoop count tests state).1.executions.filter fun record =>
        decide (record.test_name = name) := mem_filter.mpr ⟨member, by simpa using named⟩
    obtain ⟨last, isLast⟩ := List.getLast?_isSome.mpr (ne_nil_of_mem here) |>
      Option.isSome_iff_exists.mp
    refine ⟨last, ?_, isLast⟩
    rw [after.latest, isLast]
    rfl
  obtain ⟨_, executed, new, grown, reachedNew, _, done⟩ := world.testLoop_progress count tests state
  rw [reachedNew, fresh, nil_append] at reached
  by_cases passes : world.filteredOut state name = false
  · obtain ⟨record, member, named⟩ := done name reached passes
    exact ⟨record, by rw [grown]; exact mem_append_right _ member, named⟩
  · -- The filter leaves the test out, so it has a record from before.
    have later : count ≠ 0 := by
      intro isFirst
      refine passes ?_
      unfold World.filteredOut
      rw [ready.first isFirst]
      rfl
    have requested := known.resolve_left later
    have before : ∃ record ∈ state.results.executed, record.test_name = name := by
      by_contra unexecuted
      push Not at unexecuted
      refine passes ((ready.filteredOut world later name).mpr ?_)
      refine (ready.recorded.known name requested).nonPassing unexecuted ?_
      intro one inRequested two inExecuted
      exact (ready.recorded.own one (mem_append_left _ inRequested)).1.trans
        (ready.recorded.own two (mem_append_right _ inExecuted)).1.symm
    obtain ⟨record, member, named⟩ := before
    have here : record ∈ state.results.executed.filter fun other =>
        decide (other.test_name = name) := mem_filter.mpr ⟨member, by simpa using named⟩
    rw [ready.recorded.latest, Option.mem_toList] at here
    refine ⟨record, ?_, named⟩
    rw [grown]
    exact mem_append_left _ (mem_filter.mp (mem_of_getLast? here)).1

end

/-! ## All attempts -/

/-- A test passed or was skipped. -/
def Settled (record : TestResultRecord) : Prop :=
  record.result = some .pass ∨ record.result = some .skip

/-- The attempt executes the test of a record. -/
def Attempt.Executes (attempt : Attempt) (record : TestResultRecord) : Prop :=
  ∃ again ∈ attempt.executed, again.test_name = record.test_name

/-- The results have one record of a test, and it is that of its last execution. -/
def Attempt.Records (attempt : Attempt) (name : String) : Prop :=
  ∃ record, (attempt.finish.results.executed.filter fun record =>
      decide (record.test_name = name)) = [record] ∧
    (attempt.finish.executions.filter fun record =>
      decide (record.test_name = name)).getLast? = some record

/-- What attempts do that begin with the given one and in the given state. -/
structure AttemptsRight (tests : List Test) (count : Nat) (state : RunnerState)
    (attempts : List Attempt) : Prop where
  settled : count ≠ 0 → ∀ record ∈ state.results.executed, Settled record →
    ∀ attempt ∈ attempts, ¬ attempt.Executes record
  failed : count ≠ 0 → ∀ record ∈ state.results.executed, ¬ Settled record →
    ∀ next ∈ attempts.head?, record.test_name ∈ next.finish.reached → next.Executes record
  later : attempts.Pairwise fun earlier later =>
    ∀ record ∈ earlier.finish.results.executed, Settled record → ¬ later.Executes record
  next : ∀ before earlier next after, attempts = before ++ earlier :: next :: after →
    ∀ record ∈ earlier.finish.results.executed, ¬ Settled record →
      record.test_name ∈ next.finish.reached → next.Executes record
  ended : ∀ attempt ∈ attempts, attempt.signal = none →
    (∀ name ∈ plainNames tests ++ world.generatedNames attempt.count tests,
      name ∈ attempt.finish.reached) ∧
    ∀ name ∈ attempt.finish.reached, attempt.count = 0 ∨ name ∈ attempt.start.requests →
      attempt.Records name
  plain : ∀ attempt ∈ attempts, ∀ name ∈ plainNames tests, name ∈ attempt.start.requests

theorem attemptsRight_nil (tests : List Test) (count : Nat) (state : RunnerState) :
    world.AttemptsRight tests count state [] :=
  ⟨by simp, by simp, List.Pairwise.nil, by simp, by simp, by simp⟩

section

variable {world} {tests : List Test} {count : Nat} {state : RunnerState}

theorem Recorded.congr {plain : List String} {other : RunnerState}
    (recorded : world.Recorded plain state)
    (requested : other.results.requested = state.results.requested)
    (executed : other.results.executed = state.results.executed)
    (lists : ∀ token, other.results.resultList token = state.results.resultList token)
    (executions : other.executions = state.executions)
    (requests : other.requests = state.requests) : world.Recorded plain other := by
  obtain ⟨bucketed, own, latest, known, plainRequested⟩ := recorded
  refine ⟨?_, ?_, ?_, ?_, ?_⟩
  · intro token
    rw [lists, executed]
    exact bucketed token
  · rw [requested, executed]
    exact own
  · rw [executed, executions]
    exact latest
  · unfold Known
    rw [requests, requested, executed]
    exact known
  · rw [requests]
    exact plainRequested

/-- The end of an attempt changes nothing that the next one reads, and when there is a next
one, something is left to run again. -/
theorem finishAttempt_spec (count : Nat) (state : RunnerState) (signal : Option Signal) :
    (world.finishAttempt count state signal).results.requested = state.results.requested ∧
      (world.finishAttempt count state signal).results.executed = state.results.executed ∧
      (∀ token, (world.finishAttempt count state signal).results.resultList token =
        state.results.resultList token) ∧
      (world.finishAttempt count state signal).executions = state.executions ∧
      (world.finishAttempt count state signal).requests = state.requests ∧
      ((world.finishAttempt count state signal).is_final_run = false →
        nonPassing (world.finishAttempt count state signal).results ≠ []) := by
  unfold finishAttempt tearDownClass
  refine ⟨?_, ?_, ?_, rfl, rfl, ?_⟩
  · dsimp only
    split_ifs <;> rfl
  · dsimp only
    split_ifs <;> rfl
  · intro token
    dsimp only
    split_ifs <;> cases token <;> rfl
  · dsimp only
    intro running empty
    have nothing : nonPassing state.results = [] := by
      split_ifs at empty <;> exact empty
    simp [nothing] at running

theorem Recorded.ready (recorded : world.Recorded (plainNames tests) state)
    (first : count = 0 → state.test_filter_retry = none)
    (retry : count ≠ 0 → nonPassing state.results ≠ []) :
    world.Ready tests count { world.beginAttempt count state with reached := [] } := by
  refine ⟨recorded.congr rfl rfl (fun _ => rfl) rfl rfl, ?_, ?_⟩
  · intro isFirst
    simp [beginAttempt, isFirst, first isFirst]
  · intro later
    exact ⟨by simp [beginAttempt, later], retry later⟩

/-- One attempt before others. -/
theorem AttemptsRight.cons (heard : ∀ number, (world.execution number).ending ≠ .silent)
    (literal : ∀ count, ∀ name ∈ plainNames tests ++ world.generatedNames count tests,
      Literal name)
    {start next : RunnerState} (ready : world.Ready tests count start)
    (fresh : start.reached = []) (same : start.results = state.results)
    (left : next.results.executed = (world.testLoop count tests start).1.results.executed)
    {attempts : List Attempt} (rest : world.AttemptsRight tests (count + 1) next attempts) :
    world.AttemptsRight tests count state
      (⟨count, start, (world.testLoop count tests start).1,
        (world.testLoop count tests start).2⟩ :: attempts) := by
  have after := ready.recorded.testLoop world heard (literal count)
  refine ⟨?_, ?_, ?_, ?_, ?_, ?_⟩
  · intro later record listed settled attempt member
    rw [← same] at listed
    have notAgain := ready.not_again later listed settled
    rcases mem_cons.mp member with rfl | inRest
    · rintro ⟨again, executed, named⟩
      exact notAgain again executed named
    · obtain ⟨_, executed, _, grown, _⟩ := world.testLoop_progress count tests start
      refine rest.settled (Nat.succ_ne_zero count) record ?_ settled attempt inRest
      rw [left]
      refine ready.recorded.kept world after grown listed ?_
      intro again new
      refine notAgain again ?_
      rw [Attempt.executed, grown, drop_left]
      exact new
  · intro later record listed unsettled attempt isHead reached
    rw [← same] at listed
    obtain rfl : (⟨count, start, _, _⟩ : Attempt) = attempt := by simpa using isHead
    exact ready.again later fresh listed (fun pass => unsettled (Or.inl pass))
      (fun skip => unsettled (Or.inr skip)) reached
  · refine pairwise_cons.mpr ⟨?_, rest.later⟩
    intro attempt member record listed settled
    refine rest.settled (Nat.succ_ne_zero count) record ?_ settled attempt member
    rw [left]
    exact listed
  · intro before earlier following after split record listed unsettled reached
    cases before with
    | nil =>
      obtain ⟨rfl, rfl⟩ := List.cons.inj split
      refine rest.failed (Nat.succ_ne_zero count) record ?_ unsettled following rfl reached
      rw [left]
      exact listed
    | cons head before =>
      obtain ⟨_, tail⟩ := List.cons.inj split
      exact rest.next before earlier following after tail record listed unsettled reached
  · intro attempt member ended
    rcases mem_cons.mp member with rfl | inRest
    · refine ⟨world.testLoop_reaches count tests start ended, ?_⟩
      intro name reached known
      exact ready.records fresh heard (literal count) reached known
    · exact rest.ended attempt inRest ended
  · intro attempt member
    rcases mem_cons.mp member with rfl | inRest
    · exact ready.recorded.requested
    · exact rest.plain attempt inRest

theorem runAttempts_right (heard : ∀ number, (world.execution number).ending ≠ .silent)
    (literal : ∀ count, ∀ name ∈ plainNames tests ++ world.generatedNames count tests,
      Literal name)
    (recorded : world.Recorded (plainNames tests) state)
    (first : count = 0 → state.test_filter_retry = none)
    (retry : count ≠ 0 → nonPassing state.results ≠ []) (remaining : Nat) :
    world.AttemptsRight tests count state (world.runAttempts tests remaining count state).1 := by
  induction remaining generalizing count state with
  | zero => exact world.attemptsRight_nil tests count state
  | succ remaining ih =>
    have ready := recorded.ready first retry
    have after := ready.recorded.testLoop world heard (literal count)
    obtain ⟨requested, executed, lists, executions, requests, more⟩ :=
      world.finishAttempt_spec count
        (world.testLoop count tests { world.beginAttempt count state with reached := [] }).1
        (world.testLoop count tests { world.beginAttempt count state with reached := [] }).2
    have same : ({ world.beginAttempt count state with reached := [] } : RunnerState).results =
        state.results := rfl
    have cons := fun attempts (rest : world.AttemptsRight tests (count + 1) _ attempts) =>
      AttemptsRight.cons heard literal ready rfl same executed rest
    unfold runAttempts
    split_ifs with unhealed unset
    · exact world.attemptsRight_nil tests count state
    · exact world.attemptsRight_nil tests count state
    · unfold runTests
      dsimp only
      split_ifs with stops
      · exact cons [] (world.attemptsRight_nil tests (count + 1) _)
      · have running := (not_or.mp stops).2
        refine cons _ (ih ?_ ?_ ?_)
        · exact after.congr requested executed lists executions requests
        · intro isFirst
          exact absurd isFirst (Nat.succ_ne_zero count)
        · intro _
          exact more (by simpa using running)

end

/-! ## Retries -/

/-- What the attempts of a run should do: no test that passed or was skipped is executed
again, every test with another record is executed in the next attempt, and an attempt that
nothing stops leaves a record of every plain test and every test it generates. -/
def RetriesRight (tests : List Test) : Prop :=
  ((world.run tests).1.Pairwise fun earlier later =>
    ∀ record ∈ earlier.finish.results.executed, Settled record → ¬ later.Executes record) ∧
  (∀ before earlier next after, (world.run tests).1 = before ++ earlier :: next :: after →
    ∀ record ∈ earlier.finish.results.executed, ¬ Settled record → next.Executes record) ∧
  ∀ attempt ∈ (world.run tests).1, attempt.signal = none →
    ∀ name ∈ plainNames tests ++ world.generatedNames attempt.count tests, attempt.Records name

theorem initial_recorded {tests : List Test} (literal : ∀ name ∈ plainNames tests, Literal name) :
    world.Recorded (plainNames tests) (world.initial tests) := by
  refine ⟨TestResult.bucketed_new, ?_, fun _ => rfl, ?_, fun _ => id⟩
  · intro record listed
    rw [initial, TestResult.new, append_nil] at listed
    obtain ⟨name, member, rfl⟩ := mem_map.mp listed
    exact ⟨rfl, literal name member⟩
  · intro name listed
    exact Or.inl ⟨world.record name, mem_map_of_mem listed, rfl⟩

/-- In every run in which no test is silenced and no test has a name that is read as a
pattern: a test that passed or was skipped is not executed in a later attempt; a test with
another record is executed in the next attempt if that comes to it; and an attempt that
nothing stops comes to all plain tests and all tests that it generates, and leaves exactly
one record, that of the last execution, of every plain test and of every test it generates
that was requested before or that the first attempt generates. -/
theorem run_retries (tests : List Test)
    (heard : ∀ number, (world.execution number).ending ≠ .silent)
    (literal : ∀ count, ∀ name ∈ plainNames tests ++ world.generatedNames count tests,
      Literal name) :
    ((world.run tests).1.Pairwise fun earlier later =>
      ∀ record ∈ earlier.finish.results.executed, Settled record → ¬ later.Executes record) ∧
    (∀ before earlier next after, (world.run tests).1 = before ++ earlier :: next :: after →
      ∀ record ∈ earlier.finish.results.executed, ¬ Settled record →
        record.test_name ∈ next.finish.reached → next.Executes record) ∧
    ∀ attempt ∈ (world.run tests).1, attempt.signal = none →
      (∀ name ∈ plainNames tests ++ world.generatedNames attempt.count tests,
        name ∈ attempt.finish.reached) ∧
      (∀ name ∈ plainNames tests, attempt.Records name) ∧
      ∀ name ∈ world.generatedNames attempt.count tests,
        attempt.count = 0 ∨ name ∈ attempt.start.requests → attempt.Records name := by
  have right : world.AttemptsRight tests 0 (world.initial tests) (world.run tests).1 :=
    runAttempts_right heard literal
      (world.initial_recorded fun name listed => literal 0 name (mem_append_left _ listed))
      (fun _ => rfl) (fun later => absurd rfl later) _
  refine ⟨right.later, right.next, ?_⟩
  intro attempt member ended
  obtain ⟨reached, records⟩ := right.ended attempt member ended
  refine ⟨reached, ?_, ?_⟩
  · intro name listed
    exact records name (reached name (mem_append_left _ listed))
      (Or.inr (right.plain attempt member name listed))
  · intro name listed known
    exact records name (reached name (mem_append_right _ listed)) known

/-- A class `Module` with one retry, on devices that always work. -/
def once (generate : Nat → Nat → GenerateRun) (ending : Nat → TestEnd) : World where
  engine := ⟨fun _ => true, fun _ _ => none⟩
  test_module_name := "Module"
  max_retry_count := 1
  Heal _ := true
  setUpClass _ := true
  generate := generate
  execution number := ⟨ending number, false, number, number⟩
  now _ := 0
  class_error _ := ""

theorem literal_of_head {name : String} {first : Char} (begins : name.toList.head? = some first)
    (noSign : first ≠ '-') (noRegex : first ≠ 'r') (noEscape : first ≠ '\\') : Literal name := by
  refine ⟨?_, ?_, ?_⟩
  · rintro rest rfl
    simp [String.toList_append] at begins
    exact noSign begins.symm
  · rintro body rfl
    simp [String.toList_append] at begins
    exact noRegex begins.symm
  · rintro body rfl
    simp [String.toList_append] at begins
    exact noEscape begins.symm

/-- A plain test fails once, a generated test passes. -/
def failsOnce : World :=
  once (fun _ _ => ⟨[⟨"G", ["1"], none⟩], false⟩)
    fun number => if number = 0 then .failed else .passed

theorem run_retries_failsOnce :
    (failsOnce.run [.plain "testA", .generate "generateG"]).1.length = 2 ∧
      ∀ attempt ∈ (failsOnce.run [.plain "testA", .generate "generateG"]).1,
        attempt.signal = none → attempt.Records "testA" := by
  obtain ⟨_, _, ended⟩ := failsOnce.run_retries [.plain "testA", .generate "generateG"]
    (by intro number; simp only [failsOnce, once]; split_ifs <;> simp)
    (by
      intro count name listed
      have cases : name = "testA" ∨ name = "G 1" := by
        simpa [plainNames, Test.plainName, generatedNames, failsOnce, once,
          GeneratedTests.testNames, GeneratedTests.GenerateTestName, MAX_FILENAME_LEN] using listed
      rcases cases with rfl | rfl
      · exact @literal_of_head _ 't' rfl (by decide) (by decide) (by decide)
      · exact @literal_of_head _ 'G' rfl (by decide) (by decide) (by decide))
  refine ⟨by decide +kernel, ?_⟩
  intro attempt member finished
  exact (ended attempt member finished).2.1 "testA" (by decide)

/-- The generate function raises in the second attempt, before the failed test. -/
def raisesLater : World := once (fun count _ => ⟨[], count == 1⟩) fun _ => .failed

/-- The generate function raises in the first attempt and generates a test in the second. -/
def raisesFirst : World :=
  once (fun count _ => if count = 0 then ⟨[], true⟩ else ⟨[⟨"G", ["1"], none⟩], false⟩)
    fun number => if number = 0 then .failed else .passed

/-- The name of the failed test is read as a negative pattern. -/
def signedName : World :=
  once (fun _ _ => ⟨[⟨"", ["-x", "y"], some some⟩], false⟩)
    fun number => if number = 0 then .failed else .passed

/-- They do not when an exception ends the next attempt early, when a test is generated
for the first time in a later attempt, and when a name is read as a pattern. -/
theorem run_retries_fails :
    ¬ raisesLater.RetriesRight [.generate "generateG", .plain "testZ"] ∧
      ¬ raisesFirst.RetriesRight [.plain "testA", .generate "generateG"] ∧
      ¬ signedName.RetriesRight [.generate "generateG"] := by
  refine ⟨?_, ?_, ?_⟩
  · intro right
    have again := right.2.1 []
      ((raisesLater.run [.generate "generateG", .plain "testZ"]).1.get ⟨0, by decide⟩)
      ((raisesLater.run [.generate "generateG", .plain "testZ"]).1.get ⟨1, by decide⟩) [] rfl
      ⟨"testZ", some "Module", some 0, some 0, some .fail⟩ (by decide)
      (by unfold Settled; decide)
    unfold Attempt.Executes at again
    revert again
    decide
  · intro right
    obtain ⟨record, only, _⟩ := right.2.2
      ((raisesFirst.run [.plain "testA", .generate "generateG"]).1.get ⟨1, by decide +kernel⟩)
      (get_mem _ _) (by decide +kernel) "G 1" (by decide +kernel)
    have nothing : ((raisesFirst.run [.plain "testA", .generate "generateG"]).1.get
        ⟨1, by decide +kernel⟩).finish.results.executed.filter
          (fun record => decide (record.test_name = "G 1")) = [] := by decide +kernel
    rw [nothing] at only
    cases only
  · intro right
    have notAgain := (pairwise_iff_getElem.mp right.1) 0 1 (by decide +kernel)
      (by decide +kernel) (by decide) ⟨"y", some "Module", some 1, some 1, some .pass⟩
      (by decide +kernel) (by unfold Settled; decide)
    unfold Attempt.Executes at notAgain
    revert notAgain
    decide +kernel

end World

end Vts.Runner
