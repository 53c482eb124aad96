import Vts.Lib.Latest
import Vts.Runner.Retry

/-!
# What generated tests return

`runGeneratedTests` of `runners/host/base_test.py` with its result, the settings whose test
did not pass. It takes a test as passed when its execution makes the list of passed records
longer by one. But an added record takes the place of an earlier one of the same name, and
a test that is left out on a retry adds none.

Proved here: exactly when a call that returns gives the settings whose test did not pass
and leaves one record for each execution. A test that is left out has passed if there is a
passed record of it; a silent test leaves no record.
-/

namespace Vts.Runner

open Vts.Lib List

/-- The test passes and so does its record. -/
def Execution.passes (execution : Execution) : Bool :=
  decide (execution.ending = .passed) && !execution.procedure_raises

/-- The execution leaves a record. -/
def Execution.recorded (execution : Execution) : Bool := decide (execution.ending ≠ .silent)

variable (call : GeneratedTests) (before : String → Bool)

namespace World

variable (world : World)

/-! ## The source -/

/-- The second loop of `runGeneratedTests`. A signal of a test leaves the function. -/
def generatedLoop (call : GeneratedTests) :
    List String → List String → RunnerState → RunnerState × Except Signal (List String)
  | [], failed_settings, state => (state, .ok failed_settings)
  | setting :: settings, failed_settings, state =>
    let previous_success_cnt := state.results.passed.length
    match world.execOneTest (call.GenerateTestName setting) state with
    | (state, some signal) => (state, .error signal)
    | (state, none) =>
      generatedLoop call settings
        (if (state.results.passed.length : Int) - previous_success_cnt ≠ 1 then
          failed_settings ++ [setting]
        else failed_settings) state

/-- `runGeneratedTests` with the list that it returns. -/
def failedSettings (call : GeneratedTests) (state : RunnerState) :
    RunnerState × Except Signal (List String) :=
  world.generatedLoop call call.settings [] (world.requestAll call.testNames state)

/-! ## What the tests of a call do -/

/-- The settings of a call with the executions of their tests, which are numbered on; a
test that the filter of the attempt leaves out has none. -/
def plan (state : RunnerState) (call : GeneratedTests) :
    Nat → List String → List (String × Option Execution)
  | _, [] => []
  | number, setting :: settings =>
    if world.filteredOut state (call.GenerateTestName setting) then
      (setting, none) :: plan state call number settings
    else (setting, some (world.execution number)) :: plan state call (number + 1) settings

/-- The executions of a call with the names of their tests. -/
def executed (call : GeneratedTests) (planned : List (String × Option Execution)) :
    List (String × Execution) :=
  planned.filterMap fun item => item.2.map (call.GenerateTestName item.1, ·)

/-- The results hold a passed record of the test. -/
def hasPassed (state : RunnerState) (test_name : String) : Bool :=
  state.results.passed.any fun record => record.isSameTestCase (world.record test_name)

/-- The number of records of the test. -/
def recordCount (state : RunnerState) (test_name : String) : Nat :=
  state.results.executed.countP fun record => record.isSameTestCase (world.record test_name)

/-- The test of a setting passed, in this attempt or, if it is left out, before. -/
def testPassed (state : RunnerState) (call : GeneratedTests)
    (item : String × Option Execution) : Bool :=
  match item.2 with
  | none => world.hasPassed state (call.GenerateTestName item.1)
  | some execution => execution.passes

/-- The settings of a call and what happens to their tests. -/
def callPlan (state : RunnerState) (call : GeneratedTests) :
    List (String × Option Execution) :=
  world.plan state call state.executions.length call.settings

/-- A call returns exactly the settings whose test did not pass, and then the results hold
one record for each execution. -/
def ReturnsFailures (state : RunnerState) (call : GeneratedTests) : Prop :=
  ∀ failed, (world.failedSettings call state).2 = .ok failed →
    failed = ((world.callPlan state call).filter fun item =>
      !world.testPassed state call item).map Prod.fst ∧
    ∀ test_name execution, (test_name, execution) ∈ executed call (world.callPlan state call) →
      execution.recorded = true →
      world.recordCount (world.failedSettings call state).1 test_name =
        countKept Execution.recorded (executed call (world.callPlan state call)) test_name

/-- `runGeneratedTests` and its result come from one run. -/
theorem failedSettings_run (state : RunnerState) :
    world.runGeneratedTests call state = ((world.failedSettings call state).1,
      match (world.failedSettings call state).2 with
      | .ok _ => none
      | .error signal => some signal) := by
  have loop : ∀ (settings failed_settings : List String) (state : RunnerState),
      Step.each world.execOneTest (settings.map call.GenerateTestName) state =
        ((world.generatedLoop call settings failed_settings state).1,
          match (world.generatedLoop call settings failed_settings state).2 with
          | .ok _ => none
          | .error signal => some signal) := by
    intro settings
    induction settings with
    | nil =>
      intro failed_settings state
      rfl
    | cons setting settings ih =>
      intro failed_settings state
      rw [map_cons, Step.each, Step.seq, generatedLoop]
      rcases world.execOneTest (call.GenerateTestName setting) state with ⟨next, _ | signal⟩
      · exact ih _ next
      · rfl
  exact loop call.settings [] _

/-! ## One test -/

section

variable {first second : String} (state : RunnerState) (test_name : String)

theorem isSameTestCase_record :
    (world.record first).isSameTestCase (world.record second) = true ↔ first = second :=
  isSameTestCase_iff_name rfl

theorem isSameTestCase_nextRecord (listed : TestResultRecord) (test_name : String) :
    listed.isSameTestCase (world.nextRecord state test_name) =
      listed.isSameTestCase (world.record test_name) := by
  have full : (world.nextRecord state test_name).fullname =
      (world.record test_name).fullname := by
    unfold TestResultRecord.fullname
    rw [nextRecord_test_name, nextRecord_test_class]
    rfl
  rw [TestResultRecord.isSameTestCase, full]
  rfl

theorem nextRecord_isSameTestCase (other : String) :
    (world.nextRecord state test_name).isSameTestCase (world.record other) = true ↔
      test_name = other := by
  rw [isSameTestCase_iff_name (world.nextRecord_test_class state test_name),
    nextRecord_test_name]
  rfl

theorem bucket_nextRecord :
    TestResult.bucket (world.nextRecord state test_name) = .pass ↔
      (world.execution state.executions.length).passes = true := by
  unfold nextRecord ended Execution.passes TestResult.bucket
  cases (world.execution state.executions.length).ending <;>
    cases (world.execution state.executions.length).procedure_raises <;>
    cases state.is_final_run <;>
    simp [TestResultRecord.testPass, TestResultRecord.testFail, TestResultRecord.testSkip,
      TestResultRecord.testError, TestResultRecord.testEnd, TestResultRecord.testBegin, record,
      TestResultRecord.new]

/-- What an execution does to the lists of the results. -/
structure Executed (state next : RunnerState) (test_name : String) : Prop where
  number : next.executions.length = state.executions.length + 1
  same_filter : next.test_filter_retry = state.test_filter_retry
  passed : next.results.passed =
    (state.results.passed.filter fun listed =>
      !listed.isSameTestCase (world.record test_name)) ++
      if (world.execution state.executions.length).passes then
        [world.nextRecord state test_name] else []
  executed : next.results.executed =
    (state.results.executed.filter fun listed =>
      !listed.isSameTestCase (world.record test_name)) ++
      if (world.execution state.executions.length).recorded then
        [world.nextRecord state test_name] else []

/-- A call of `execOneTest` does nothing to the results or executes the test. -/
theorem execOneTest_executed (state : RunnerState) :
    (world.filteredOut state test_name = true ∧
      (world.execOneTest test_name state).2 = none ∧
      (world.execOneTest test_name state).1 =
        { state with reached := state.reached ++ [test_name] }) ∨
    (world.filteredOut state test_name = false ∧
      (world.execOneTest test_name state).2 =
        (world.execution state.executions.length).ending.signal ∧
      world.Executed state (world.execOneTest test_name state).1 test_name) := by
  have removed : ∀ listed : List TestResultRecord,
      TestResult.removeFrom (world.nextRecord state test_name) listed =
        listed.filter fun record => !record.isSameTestCase (world.record test_name) := by
    intro listed
    rw [TestResult.removeFrom_eq_filter]
    simp only [isSameTestCase_nextRecord]
  rcases world.execOneTest_cases test_name state with ⟨out, done⟩ | ⟨runs, heard, done⟩ |
    ⟨runs, silent, done⟩
  · rw [done]
    exact Or.inl ⟨out, rfl, rfl⟩
  · rw [done]
    refine Or.inr ⟨runs, rfl, ?_⟩
    constructor
    · simp
    · rfl
    · have passed := TestResult.resultList_appendRecord
        (state.results.removeRecord (world.nextRecord state test_name) false)
        (world.nextRecord state test_name) .pass
      simp only [bucket_nextRecord] at passed
      refine passed.trans ?_
      rw [TestResult.resultList_removeRecord, removed]
      rfl
    · have recorded : (world.execution state.executions.length).recorded = true :=
        decide_eq_true heard
      rw [TestResult.addRecord_executed, recorded]
      simp only [isSameTestCase_nextRecord, if_true]
  · rw [done]
    refine Or.inr ⟨runs, by rw [silent]; rfl, ?_⟩
    have unheard : (world.execution state.executions.length).recorded = false :=
      decide_eq_false (not_not.mpr silent)
    have notPassed : (world.execution state.executions.length).passes = false := by
      rw [Execution.passes, silent]
      rfl
    constructor
    · simp
    · rfl
    · rw [notPassed, if_neg Bool.false_ne_true, append_nil]
      exact removed state.results.passed
    · rw [unheard, if_neg Bool.false_ne_true, append_nil]
      exact removed state.results.executed

theorem others_kept (distinct : first ≠ second) (listed : TestResultRecord) :
    (!listed.isSameTestCase (world.record first) &&
      listed.isSameTestCase (world.record second)) =
        listed.isSameTestCase (world.record second) := by
  cases isSecond : listed.isSameTestCase (world.record second) with
  | false => rw [Bool.and_false]
  | true =>
    have notFirst : listed.isSameTestCase (world.record first) = false := by
      rw [← Bool.not_eq_true]
      intro isFirst
      rw [TestResultRecord.isSameTestCase_iff] at isFirst isSecond
      exact distinct (world.isSameTestCase_record.mp
        (TestResultRecord.isSameTestCase_iff.mpr (isFirst.symm.trans isSecond)))
    rw [notFirst]
    rfl

end

section

variable {world} {state next : RunnerState} {test_name : String}

theorem Executed.hasPassed (executed : world.Executed state next test_name) (other : String) :
    world.hasPassed next other =
      if test_name = other then (world.execution state.executions.length).passes
      else world.hasPassed state other := by
  unfold World.hasPassed
  rw [executed.passed, any_append, any_filter]
  by_cases same : test_name = other
  · rw [if_pos same, ← same]
    have none : (state.results.passed.any fun listed =>
        !listed.isSameTestCase (world.record test_name) &&
          listed.isSameTestCase (world.record test_name)) = false := by
      simp
    rw [none, Bool.false_or]
    split_ifs with passes
    · rw [any_cons, (world.nextRecord_isSameTestCase state test_name test_name).mpr rfl, passes]
      rfl
    · simpa using passes
  · rw [if_neg same]
    have notOwn : (if (world.execution state.executions.length).passes then
        [world.nextRecord state test_name] else []).any (fun listed =>
          listed.isSameTestCase (world.record other)) = false := by
      split_ifs
      · rw [any_cons, any_nil, Bool.or_false, ← Bool.not_eq_true,
          nextRecord_isSameTestCase]
        exact same
      · rfl
    rw [notOwn, Bool.or_false]
    exact congrArg state.results.passed.any (funext (world.others_kept same))

theorem Executed.recordCount (executed : world.Executed state next test_name) (other : String) :
    world.recordCount next other =
      if test_name = other then
        if (world.execution state.executions.length).recorded then 1 else 0
      else world.recordCount state other := by
  unfold World.recordCount
  rw [executed.executed, countP_append, countP_filter]
  by_cases same : test_name = other
  · rw [if_pos same, ← same]
    have none : (state.results.executed.countP fun listed =>
        listed.isSameTestCase (world.record test_name) &&
          !listed.isSameTestCase (world.record test_name)) = 0 := by
      simp
    rw [none, Nat.zero_add]
    split_ifs
    · rw [countP_singleton,
        if_pos ((world.nextRecord_isSameTestCase state test_name test_name).mpr rfl)]
    · rfl
  · rw [if_neg same]
    have notOwn : (if (world.execution state.executions.length).recorded then
        [world.nextRecord state test_name] else []).countP (fun listed =>
          listed.isSameTestCase (world.record other)) = 0 := by
      split_ifs
      · rw [countP_singleton,
          if_neg (mt (world.nextRecord_isSameTestCase state test_name other).mp same)]
      · rfl
    rw [notOwn, Nat.add_zero]
    refine countP_congr ?_
    intro listed _
    rw [Bool.and_comm, world.others_kept same listed]

/-- The passed records grow by one exactly when the test passes and had no passed record. -/
theorem Executed.grows_iff (executed : world.Executed state next test_name) :
    (next.results.passed.length : Int) - state.results.passed.length = 1 ↔
      (world.execution state.executions.length).passes = true ∧
        world.hasPassed state test_name = false := by
  have fewer : (state.results.passed.filter fun listed =>
      !listed.isSameTestCase (world.record test_name)).length ≤ state.results.passed.length :=
    length_filter_le _ _
  have same : (state.results.passed.filter fun listed =>
      !listed.isSameTestCase (world.record test_name)).length = state.results.passed.length ↔
        world.hasPassed state test_name = false := by
    rw [length_filter_eq_length_iff, World.hasPassed, any_eq_false]
    simp
  rw [executed.passed, length_append, ← same]
  generalize (state.results.passed.filter fun listed =>
    !listed.isSameTestCase (world.record test_name)).length = kept at fewer ⊢
  split_ifs with passes
  · rw [length_singleton, eq_true passes, true_and]
    omega
  · rw [length_nil, eq_false passes, false_and, iff_false]
    omega

end

/-! ## The loop -/

section

variable {state : RunnerState} {settings : List String} (setting : String)

/-- The plan depends on the state by the filter of the attempt only. -/
theorem plan_congr {later : RunnerState} (same : later.test_filter_retry = state.test_filter_retry)
    (number : Nat) (settings : List String) :
    world.plan later call number settings = world.plan state call number settings := by
  induction settings generalizing number with
  | nil => rfl
  | cons setting settings ih =>
    rw [plan, plan, world.filteredOut_congr same, ih, ih]

/-- What the loop returns for a plan, given which tests have a passed record. -/
def returned (call : GeneratedTests) :
    (String → Bool) → List (String × Option Execution) → List String
  | _, [] => []
  | passed, (setting, none) :: planned => setting :: returned call passed planned
  | passed, (setting, some execution) :: planned =>
    (if execution.passes && !passed (call.GenerateTestName setting) then [] else [setting]) ++
      returned call
        (fun test_name => if call.GenerateTestName setting = test_name then execution.passes
          else passed test_name) planned

theorem executed_cons_none (planned : List (String × Option Execution)) :
    executed call ((setting, none) :: planned) = executed call planned := rfl

theorem executed_cons_some (execution : Execution) (planned : List (String × Option Execution)) :
    executed call ((setting, some execution) :: planned) =
      (call.GenerateTestName setting, execution) :: executed call planned := rfl

/-- A loop that is not left returns what its plan says, and the latest execution of a test
decides about its records. -/
theorem generatedLoop_ok {failed_settings failed : List String} {final : RunnerState}
    (done : world.generatedLoop call settings failed_settings state = (final, .ok failed)) :
    failed = failed_settings ++ returned call (world.hasPassed state)
        (world.plan state call state.executions.length settings) ∧
      (∀ test_name, world.recordCount final test_name =
        (latest (executed call (world.plan state call state.executions.length settings))
          test_name).elim (world.recordCount state test_name)
            (fun execution => if execution.recorded then 1 else 0)) ∧
      ∀ item ∈ executed call (world.plan state call state.executions.length settings),
        item.2.ending.signal = none := by
  induction settings generalizing failed_settings state with
  | nil =>
    cases done
    exact ⟨(append_nil _).symm, fun _ => rfl, by simp [plan, executed]⟩
  | cons setting settings ih =>
    rw [generatedLoop] at done
    rcases step : world.execOneTest (call.GenerateTestName setting) state with ⟨next, signal⟩
    have cases := world.execOneTest_executed (call.GenerateTestName setting) state
    rw [step] at cases done
    rcases cases with ⟨out, rfl, rfl⟩ | ⟨runs, rfl, execution⟩
    · have planned : world.plan state call state.executions.length (setting :: settings) =
          (setting, none) :: world.plan state call state.executions.length settings := by
        rw [plan, if_pos out]
      have notOne : ((state.results.passed.length : Int) - state.results.passed.length ≠ 1) := by
        omega
      rw [planned, returned, executed_cons_none]
      simp only [notOne, ne_eq, not_false_eq_true, if_true] at done
      have samePlan : ∀ number, world.plan
          { state with reached := state.reached ++ [call.GenerateTestName setting] } call number
            settings = world.plan state call number settings := by
        intro number
        exact world.plan_congr call (by rfl) number settings
      obtain ⟨list, counts, quiet⟩ := ih done
      rw [samePlan] at list quiet
      simp only [samePlan] at counts
      refine ⟨?_, counts, quiet⟩
      rw [list, append_assoc]
      rfl
    · have planned : world.plan state call state.executions.length (setting :: settings) =
          (setting, some (world.execution state.executions.length)) ::
            world.plan next call next.executions.length settings := by
        rw [plan, runs, execution.number, world.plan_congr call execution.same_filter]
        rfl
      rw [planned, returned, executed_cons_some]
      cases ended : (world.execution state.executions.length).ending.signal with
      | some signal =>
        rw [ended] at done
        simp at done
      | none =>
        rw [ended] at done
        obtain ⟨list, counts, quiet⟩ := ih done
        refine ⟨?_, ?_, ?_⟩
        · have grown : (if (next.results.passed.length : Int) - state.results.passed.length ≠ 1
              then failed_settings ++ [setting] else failed_settings) =
              failed_settings ++ (if (world.execution state.executions.length).passes &&
                !world.hasPassed state (call.GenerateTestName setting) then []
                else [setting]) := by
            simp only [ne_eq, execution.grows_iff]
            cases (world.execution state.executions.length).passes <;>
              cases world.hasPassed state (call.GenerateTestName setting) <;> simp
          rw [list, grown, append_assoc, funext execution.hasPassed]
        · intro test_name
          rw [counts, latest_cons_elim, execution.recordCount]
        · intro item listed
          rcases mem_cons.mp listed with rfl | later
          · exact ended
          · exact quiet item later

/-- A loop without a test that stops it returns. -/
theorem generatedLoop_returns (failed_settings : List String)
    (quiet : ∀ item ∈ executed call (world.plan state call state.executions.length settings),
      item.2.ending.signal = none) :
    ∃ final failed,
      world.generatedLoop call settings failed_settings state = (final, .ok failed) := by
  induction settings generalizing failed_settings state with
  | nil => exact ⟨state, failed_settings, rfl⟩
  | cons setting settings ih =>
    rw [generatedLoop]
    rcases step : world.execOneTest (call.GenerateTestName setting) state with ⟨next, signal⟩
    have cases := world.execOneTest_executed (call.GenerateTestName setting) state
    rw [step] at cases
    rcases cases with ⟨out, rfl, rfl⟩ | ⟨runs, rfl, execution⟩
    · rw [plan, if_pos out, executed_cons_none] at quiet
      refine ih _ ?_
      rw [world.plan_congr call (by rfl : _ = state.test_filter_retry)]
      exact quiet
    · rw [plan, runs, if_neg Bool.false_ne_true, executed_cons_some,
        ← world.plan_congr call execution.same_filter, ← execution.number] at quiet
      rw [quiet _ mem_cons_self]
      refine ih _ ?_
      intro item listed
      exact quiet item (mem_cons_of_mem _ listed)

end

/-! ## When the list is right -/

/-- Whether the test of a setting passed, given which tests had passed before the call. -/
def verdict (call : GeneratedTests) (before : String → Bool)
    (item : String × Option Execution) : Bool :=
  match item.2 with
  | none => before (call.GenerateTestName item.1)
  | some execution => execution.passes

section

variable {execution : Execution} (setting : String) (passed : String → Bool)
  (planned : List (String × Option Execution))

theorem verdict_none :
    verdict call before (setting, none) = before (call.GenerateTestName setting) := rfl

theorem verdict_some (execution : Execution) :
    verdict call before (setting, some execution) = execution.passes := rfl

/-- Nothing that should be returned is left out. -/
theorem returned_length :
    (planned.filter fun item => !verdict call before item).length ≤
      (returned call passed planned).length := by
  induction planned generalizing passed with
  | nil => exact Nat.le_refl 0
  | cons item planned ih =>
    obtain ⟨setting, _ | execution⟩ := item
    · have rest := ih passed
      rw [returned, length_cons, filter_cons]
      split_ifs
      · exact Nat.succ_le_succ rest
      · exact Nat.le_succ_of_le rest
    · have rest := ih fun test_name =>
        if call.GenerateTestName setting = test_name then execution.passes else passed test_name
      rw [returned, length_append, filter_cons, verdict_some]
      cases passes : execution.passes with
      | false =>
        rw [passes] at rest
        simp only [Bool.not_false, if_true, length_cons, Bool.false_and,
          Bool.false_eq_true, if_false, length_nil]
        omega
      | true =>
        rw [passes] at rest
        simp only [Bool.not_true, Bool.false_eq_true, if_false]
        omega

/-- No test is left out that had passed before the call, and none passes of which the
latest record is a passed one. -/
def Fresh (call : GeneratedTests) (before passed : String → Bool)
    (planned : List (String × Option Execution)) : Prop :=
  (∀ setting, (setting, none) ∈ planned → before (call.GenerateTestName setting) = false) ∧
    ∀ front test_name execution back,
      executed call planned = front ++ (test_name, execution) :: back →
      execution.passes = true →
      (latest front test_name).elim (passed test_name) Execution.passes = false

section

variable {call : GeneratedTests} {before passed : String → Bool} {setting : String}
  {planned : List (String × Option Execution)}

theorem fresh_cons_none :
    Fresh call before passed ((setting, none) :: planned) ↔
      before (call.GenerateTestName setting) = false ∧ Fresh call before passed planned := by
  unfold Fresh
  rw [executed_cons_none, ← and_assoc]
  refine and_congr_left fun _ => ?_
  simp only [mem_cons, Prod.mk.injEq, and_true, forall_eq_or_imp]

theorem fresh_cons_some :
    Fresh call before passed ((setting, some execution) :: planned) ↔
      (execution.passes = true → passed (call.GenerateTestName setting) = false) ∧
        Fresh call before (fun test_name => if call.GenerateTestName setting = test_name then
          execution.passes else passed test_name) planned := by
  unfold Fresh
  rw [executed_cons_some, and_left_comm]
  refine and_congr ?_ ?_
  · simp
  · -- An execution comes first or has the first one before it.
    constructor
    · intro fresh
      refine ⟨fresh [] _ execution _ rfl, ?_⟩
      intro front test_name other back split passes
      have later := fresh ((call.GenerateTestName setting, execution) :: front) test_name other
        back (by rw [split]; rfl) passes
      rwa [latest_cons_elim] at later
    · rintro ⟨first, fresh⟩ front test_name other back split passes
      cases front with
      | nil =>
        cases split
        exact first passes
      | cons head front =>
        obtain ⟨rfl, rest⟩ := List.cons.inj split
        rw [latest_cons_elim]
        exact fresh front test_name other back rest passes

end

theorem returned_eq_iff :
    returned call passed planned =
        (planned.filter fun item => !verdict call before item).map Prod.fst ↔
      Fresh call before passed planned := by
  induction planned generalizing passed with
  | nil =>
    refine iff_of_true rfl ⟨by simp, ?_⟩
    intro front test_name execution back split
    cases front <;> cases split
  | cons item planned ih =>
    obtain ⟨setting, _ | execution⟩ := item
    · rw [fresh_cons_none, returned, filter_cons, verdict_none]
      cases known : before (call.GenerateTestName setting) with
      | false =>
        rw [Bool.not_false, if_pos rfl, map_cons, cons_inj_right, ih,
          eq_self, true_and]
      | true =>
        refine iff_of_false ?_ (by simp)
        intro same
        have lengths := congrArg List.length same
        have shorter := returned_length call before passed planned
        simp only [Bool.not_true, Bool.false_eq_true, if_false, length_cons,
          length_map] at lengths
        omega
    · rw [fresh_cons_some, returned, filter_cons, verdict_some]
      have rest := ih fun test_name =>
        if call.GenerateTestName setting = test_name then execution.passes else passed test_name
      cases passes : execution.passes with
      | false =>
        rw [passes] at rest
        simp only [Bool.not_false, if_true, Bool.false_and, Bool.false_eq_true, if_false,
          map_cons, singleton_append, cons_inj_right, rest, false_implies, true_and]
      | true =>
        rw [passes] at rest
        cases known : passed (call.GenerateTestName setting) with
        | false =>
          simp only [Bool.not_true, Bool.not_false, Bool.true_and, Bool.false_eq_true, if_false,
            if_true, nil_append, rest, eq_self, true_implies, true_and]
        | true =>
          refine iff_of_false ?_ (by simp)
          intro same
          have lengths := congrArg List.length same
          have shorter := returned_length call before (fun test_name =>
            if call.GenerateTestName setting = test_name then true else passed test_name) planned
          simp only [Bool.not_true, Bool.and_false, Bool.false_eq_true, if_false,
            singleton_append, length_cons, length_map] at lengths
          omega

/-- The tests of a call can be told apart: a test that is left out has no passed record, no
name is executed again after an execution that leaves a record, and a test that passes when
its name is first executed had no passed record. -/
structure ToldApart (state : RunnerState) (call : GeneratedTests) : Prop where
  leftOut : ∀ setting, (setting, none) ∈ world.callPlan state call →
    world.hasPassed state (call.GenerateTestName setting) = false
  once : Isolated Execution.recorded (executed call (world.callPlan state call))
  notBefore : ∀ front test_name execution back,
    executed call (world.callPlan state call) = front ++ (test_name, execution) :: back →
    execution.passes = true → (∀ item ∈ front, item.1 ≠ test_name) →
    world.hasPassed state test_name = false

theorem recorded_of_passes (passes : execution.passes = true) : execution.recorded = true := by
  obtain ⟨passed, _⟩ := Bool.and_eq_true_iff.mp passes
  refine decide_eq_true ?_
  rw [of_decide_eq_true passed]
  decide

end

/-- With isolated executions only the first one of a name can meet an older record. -/
theorem fresh_iff_toldApart {state : RunnerState} {call : GeneratedTests} :
    Fresh call (world.hasPassed state) (world.hasPassed state) (world.callPlan state call) ∧
        Isolated Execution.recorded (executed call (world.callPlan state call)) ↔
      world.ToldApart state call := by
  constructor
  · rintro ⟨⟨leftOut, fresh⟩, once⟩
    refine ⟨leftOut, once, ?_⟩
    intro front test_name execution back split passes first
    have known := fresh front test_name execution back split passes
    rwa [latest_eq_none_iff.mpr first] at known
  · rintro ⟨leftOut, once, notBefore⟩
    refine ⟨⟨leftOut, ?_⟩, once⟩
    intro front test_name execution back split passes
    cases found : latest front test_name with
    | none =>
      exact notBefore front test_name execution back split passes (latest_eq_none_iff.mp found)
    | some earlier =>
      obtain ⟨start, middle, frontSplit, _⟩ := exists_split_of_latest found
      change earlier.passes = false
      rw [← Bool.not_eq_true]
      intro earlierPasses
      have again := once start test_name earlier (middle ++ (test_name, execution) :: back)
        (by rw [split, frontSplit]; simp) (recorded_of_passes earlierPasses)
        (test_name, execution) (by simp)
      exact again rfl

/-- A call that returns gives exactly the settings whose test did not pass and leaves one
record for each execution, exactly when its tests can be told apart; a call that a signal
of a test leaves returns nothing. -/
theorem runGeneratedTests_returns_iff (state : RunnerState) (call : GeneratedTests) :
    world.ReturnsFailures state call ↔
      (∃ item ∈ executed call (world.callPlan state call), item.2.ending.signal ≠ none) ∨
        world.ToldApart state call := by
  have samePlan : world.plan (world.requestAll call.testNames state) call
      (world.requestAll call.testNames state).executions.length call.settings =
        world.callPlan state call :=
    world.plan_congr call (by rfl) _ _
  by_cases quiet : ∀ item ∈ executed call (world.callPlan state call),
      item.2.ending.signal = none
  · have noSignal : ¬ ∃ item ∈ executed call (world.callPlan state call),
        item.2.ending.signal ≠ none := by
      rintro ⟨item, listed, signal⟩
      exact signal (quiet item listed)
    obtain ⟨final, failed, done⟩ := world.generatedLoop_returns call []
      (by rw [samePlan]; exact quiet)
    obtain ⟨list, counts, _⟩ := world.generatedLoop_ok call done
    rw [samePlan] at list
    simp only [samePlan] at counts
    have counted : ∀ test_name execution,
        (test_name, execution) ∈ executed call (world.callPlan state call) →
        world.recordCount final test_name =
          if (latest (executed call (world.callPlan state call)) test_name).any
            Execution.recorded then 1 else 0 := by
      intro test_name execution listed
      rw [counts]
      cases found : latest (executed call (world.callPlan state call)) test_name with
      | none => exact absurd rfl (latest_eq_none_iff.mp found _ listed)
      | some last => rfl
    rw [or_iff_right noSignal, ← fresh_iff_toldApart, ← returned_eq_iff, ← count_eq_latest_iff]
    have isDone : world.failedSettings call state = (final, .ok failed) := done
    unfold ReturnsFailures
    rw [isDone]
    constructor
    · intro returns
      obtain ⟨right, records⟩ := returns failed rfl
      refine ⟨list.symm.trans right, ?_⟩
      intro test_name execution listed kind
      rw [← counted test_name execution listed]
      exact records test_name execution listed kind
    · rintro ⟨right, records⟩ other same
      cases same
      refine ⟨list.trans right, ?_⟩
      intro test_name execution listed kind
      rw [counted test_name execution listed]
      exact records test_name execution listed kind
  · have signal : ∃ item ∈ executed call (world.callPlan state call),
        item.2.ending.signal ≠ none := by
      simpa using quiet
    refine iff_of_true ?_ (Or.inl signal)
    intro failed done
    rcases ended : world.failedSettings call state with ⟨final, result⟩
    rw [ended] at done
    cases done
    obtain ⟨_, _, unstopped⟩ := world.generatedLoop_ok call ended
    rw [samePlan] at unstopped
    exact absurd unstopped quiet

/-- A world in which every test passes. -/
def allPass : World where
  engine := Filter.oneRegex
  test_module_name := "Module"
  max_retry_count := 0
  Heal _ := true
  setUpClass _ := true
  generate _ _ := ⟨[], false⟩
  execution _ := ⟨.passed, false, 0, 1⟩
  now _ := 2
  class_error _ := ""

/-- A call whose name function gives both settings one name. -/
def oneName : GeneratedTests := ⟨"", ["first", "second"], some fun _ => some "test"⟩

/-- Both tests pass, yet the second setting is returned and there is one record. -/
theorem runGeneratedTests_oneName :
    (allPass.failedSettings oneName (allPass.initial [])).2 = .ok ["second"] ∧
      allPass.recordCount (allPass.failedSettings oneName (allPass.initial [])).1 "test" = 1 ∧
      ¬ allPass.ReturnsFailures (allPass.initial []) oneName := by
  have returned : (allPass.failedSettings oneName (allPass.initial [])).2 = .ok ["second"] := by
    rfl
  refine ⟨returned, by decide, ?_⟩
  intro returns
  obtain ⟨right, _⟩ := returns ["second"] returned
  exact absurd right (by decide)

end World

end Vts.Runner
