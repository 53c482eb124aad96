import Vts.Lib.Steps
import Vts.Runner.Filter
import Vts.Runner.Records

/-!
# Running the tests of a class

`run`, `runTestsWithRetry`, `_runTests`, `execOneTest` and `runGeneratedTests` of
`runners/host/base_test.py`, with what they use of the web report in
`utils/python/web/web_utils.py`. Tests run one after another; a test with a failure or an
error is run again in the next attempt, for which a filter is made of the names of all
records that are not passing.

What the code runs is given by a `World`: whether set-up and healing succeed, which tests a
generate function makes and whether it raises, and how each execution of a test ends. All
of it may depend on everything before. A generate function does not catch the signals of its
tests. The state also keeps a history: the calls of `execOneTest` in the attempt, and the
executions, requests, silenced tests and reports so far.

Left out are class runs that are self tests or skipped as a whole, and timers: a timeout
ends a test with an exception. The web feature is enabled.
-/

namespace Vts.Runner

open Vts.Lib

/-! ## The web report -/

/-- `ReportMsg.TestCaseResult`, the results that are set. -/
inductive TestCaseResult where
  | pass
  | fail
  | skip
  | exception
deriving DecidableEq

/-- `TestCaseReportMessage`, with the fields that are set here. -/
structure TestCaseReport where
  name : String
  test_result : Option TestCaseResult
  start_timestamp : Nat
  end_timestamp : Option Nat
deriving DecidableEq

/-- `WebFeature`: the test cases of its report and the position of the current one. -/
structure WebFeature where
  test_case : List TestCaseReport
  current_test_report_msg : Option Nat
deriving DecidableEq

namespace WebFeature

def AddTestReport (self : WebFeature) (test_name : String) (now : Nat) : WebFeature where
  test_case := self.test_case ++ [⟨test_name, none, now, none⟩]
  current_test_report_msg := some self.test_case.length

/-- `SetTestResult`. Without a result, the first message equal to the current one is
removed. -/
def SetTestResult (self : WebFeature) (result : Option TestCaseResult) : WebFeature :=
  match self.current_test_report_msg with
  | none => self
  | some current =>
    match result with
    | none =>
      { test_case := match self.test_case[current]? with
          | none => self.test_case
          | some message => self.test_case.erase message
        current_test_report_msg := none }
    | some result =>
      { self with test_case := self.test_case.modify current fun message =>
          { message with test_result := some result } }

/-- The message that is added for a test that was not executed. -/
def failedReport (test : TestResultRecord) (now : Nat) : TestCaseReport :=
  ⟨test.test_name, some .fail, now, some now⟩

/-- `GenerateReportMessage(requested, executed)`: the test cases of the message. -/
def GenerateReportMessage (self : WebFeature) (requested executed : List TestResultRecord)
    (now : Nat) : WebFeature :=
  { self with test_case := self.test_case ++
      (requested.drop executed.length).map fun test => failedReport test now }

end WebFeature

/-! ## What is run -/

/-- How the body of a test ends, by the handler of `execOneTest` that deals with it. -/
inductive TestEnd where
  /-- It returned, or raised `TestPass`. -/
  | passed
  /-- It returned False, failed an assertion, or raised `TestFailure` or an `AdbError` from
  which the devices recover. -/
  | failed
  | skipped
  | silent
  /-- Another exception was raised. -/
  | error
  | abortClass
  /-- `TestAbortAll`, a timeout, or an `AdbError` from which the devices do not recover. -/
  | abortAll
  | interrupted
deriving DecidableEq

/-- An execution of a test: how it ends, and whether the procedure functions that are then
called raise. -/
structure Execution where
  ending : TestEnd
  procedure_raises : Bool
  begin_time : Nat
  end_time : Nat

/-- A call of `runGeneratedTests`. The name function fails where it has no value. -/
structure GeneratedTests where
  tag : String
  settings : List String
  name_func : Option (String → Option String)

def MAX_FILENAME_LEN : Nat := 255

/-- `GenerateTestName(setting)`. -/
def GeneratedTests.GenerateTestName (call : GeneratedTests) (setting : String) : String :=
  let test_name := (call.name_func.bind fun name_func => name_func setting).getD
    (call.tag ++ " " ++ setting)
  String.ofList (test_name.toList.take MAX_FILENAME_LEN)

def GeneratedTests.testNames (call : GeneratedTests) : List String :=
  call.settings.map call.GenerateTestName

/-- What a generate function does: its calls of `runGeneratedTests`, and whether it raises
an exception after them. -/
structure GenerateRun where
  calls : List GeneratedTests
  raises : Bool

/-- The test functions of a class, by the starts of their names. -/
inductive Test where
  | plain (test_name : String)
  | generate (test_name : String)
deriving DecidableEq

def Test.plainName : Test → Option String
  | .plain test_name => some test_name
  | .generate _ => none

/-- All that the code does not decide. -/
structure World where
  engine : RegexEngine
  test_module_name : String
  max_retry_count : Nat
  /-- Whether the devices recover before an attempt. -/
  Heal : Nat → Bool
  /-- Whether an attempt sets the class up, if need be after some tries. -/
  setUpClass : Nat → Bool
  /-- What the generate function at a position of the list of tests does in an attempt. -/
  generate : Nat → Nat → GenerateRun
  /-- The executions of tests, by their numbers. -/
  execution : Nat → Execution
  /-- The time of the report after an attempt. -/
  now : Nat → Nat
  /-- The text of the exception that ends an attempt. -/
  class_error : Nat → String

/-- What leaves `execOneTest` or a generate function. -/
inductive Signal where
  | abortClass
  | abortAll
  | interrupted
  | exception
deriving DecidableEq

def TestEnd.signal : TestEnd → Option Signal
  | .abortClass => some .abortClass
  | .abortAll => some .abortAll
  | .interrupted => some .interrupted
  | _ => none

/-- The state of the test class, with the history. -/
structure RunnerState where
  results : TestResult
  web : WebFeature
  test_filter_retry : Option Filter
  is_final_run : Bool
  /-- The calls of `execOneTest` in the attempt. -/
  reached : List String
  /-- The records of all executions so far. -/
  executions : List TestResultRecord
  /-- The names of all tests requested so far. -/
  requests : List String
  /-- The names of all tests silenced so far. -/
  silenced : List String
  /-- The results from which reports were made so far. -/
  reports : List TestResult

/-! ## The source -/

namespace World

variable (world : World)

/-- A record for a test of the class. -/
def record (test_name : String) : TestResultRecord :=
  TestResultRecord.new test_name (some world.test_module_name)

/-- The record once a test has ended. A procedure function that raises makes the result an
error; those for failures are called in the final attempt only. -/
def ended (tr_record : TestResultRecord) (execution : Execution) (is_final_run : Bool) :
    TestResultRecord :=
  match execution.ending with
  | .passed =>
    if execution.procedure_raises then
      { tr_record.testPass execution.end_time with result := some .error }
    else tr_record.testPass execution.end_time
  | .skipped =>
    if execution.procedure_raises then
      { tr_record.testSkip execution.end_time with result := some .error }
    else tr_record.testSkip execution.end_time
  | .failed =>
    if is_final_run && execution.procedure_raises then
      { tr_record.testFail execution.end_time with result := some .error }
    else tr_record.testFail execution.end_time
  | .error => tr_record.testError execution.end_time
  | .silent => tr_record
  | .abortClass => tr_record.testFail execution.end_time
  | .abortAll => tr_record.testFail execution.end_time
  | .interrupted => tr_record.testFail execution.end_time

/-- The web report once a test has ended. -/
def reported (web : WebFeature) (ending : TestEnd) (is_final_run : Bool) : WebFeature :=
  match ending with
  | .passed => web.SetTestResult (some .pass)
  | .skipped => web.SetTestResult (some .skip)
  | .failed => if is_final_run then web.SetTestResult (some .fail) else web
  | .error =>
    if is_final_run then
      (web.SetTestResult (some .exception)).SetTestResult (some .fail)
    else web
  | .silent => web.SetTestResult none
  | .abortClass => web
  | .abortAll => web
  | .interrupted => web

/-- The test is left out of this attempt. -/
def filteredOut (state : RunnerState) (test_name : String) : Bool :=
  state.test_filter_retry.any fun retryFilter => !retryFilter.filter world.engine test_name

/-- `execOneTest(test_name)`. -/
def execOneTest (test_name : String) : Step RunnerState Signal := fun state =>
  let state := { state with reached := state.reached ++ [test_name] }
  if world.filteredOut state test_name then (state, none)
  else
    let execution := world.execution state.executions.length
    let tr_record := ended ((world.record test_name).testBegin execution.begin_time) execution
      state.is_final_run
    let state := { state with
      web := reported (state.web.AddTestReport test_name execution.begin_time) execution.ending
        state.is_final_run
      is_final_run := state.is_final_run || execution.ending.signal.isSome
      executions := state.executions ++ [tr_record] }
    if execution.ending = .silent then
      ({ state with
        results := state.results.removeRecord tr_record true
        silenced := state.silenced ++ [test_name] }, none)
    else ({ state with results := state.results.addRecord tr_record }, execution.ending.signal)

/-- The first loop of `runGeneratedTests`. -/
def requestAll (test_names : List String) (state : RunnerState) : RunnerState :=
  { state with
    results := { state.results with
      requested := state.results.requested ++ test_names.map world.record }
    requests := state.requests ++ test_names }

/-- `runGeneratedTests`: all tests are requested, then each of them is executed. -/
def runGeneratedTests (call : GeneratedTests) : Step RunnerState Signal :=
  Step.seq (Step.change (world.requestAll call.testNames))
    (Step.each world.execOneTest call.testNames)

/-- A generate function. -/
def runGenerate (function : GenerateRun) : Step RunnerState Signal :=
  Step.seq (Step.each world.runGeneratedTests function.calls)
    (if function.raises then Step.raise .exception else Step.change id)

/-- One round of the loop of `_runTests` over the tests and their positions. -/
def runTest (count : Nat) (test : Test × Nat) : Step RunnerState Signal :=
  match test.1 with
  | .plain test_name => world.execOneTest test_name
  | .generate _ => world.runGenerate (world.generate count test.2)

/-- The loop of `_runTests` over the tests. -/
def testLoop (count : Nat) (tests : List Test) : Step RunnerState Signal :=
  Step.each (world.runTest count) tests.zipIdx

/-- `getNonPassingRecords(skipped=False)`. -/
def nonPassing (results : TestResult) : List TestResultRecord :=
  results.getNonPassingRecords true true false true

/-- `_tearDownClass`: the report is made, with an entry that shows errors of the class. -/
def tearDownClass (count : Nat) (state : RunnerState) : RunnerState :=
  let web := if state.results.class_errors.isEmpty then state.web
    else (state.web.AddTestReport "setup_class" (world.now count)).SetTestResult (some .fail)
  { state with
    web := web.GenerateReportMessage state.results.requested state.results.executed
      (world.now count)
    reports := state.reports ++ [state.results] }

/-- The `except` and `finally` clauses of `_runTests`, after the loop ended so. -/
def finishAttempt (count : Nat) (state : RunnerState) (signal : Option Signal) : RunnerState :=
  let is_final_run := state.is_final_run || (match signal with
    | some .abortClass | some .abortAll | some .interrupted => true
    | some .exception | none => false) || (nonPassing state.results).isEmpty
  let results := if signal.isSome && is_final_run then
    state.results.failClass world.test_module_name (world.class_error count) else state.results
  world.tearDownClass count { state with is_final_run := is_final_run, results := results }

/-- An attempt that came to the tests: the states before and after the loop, and what ended
the loop. -/
structure Attempt where
  count : Nat
  start : RunnerState
  finish : RunnerState
  signal : Option Signal

/-- `_runTests` after the class was set up. Only `TestAbortClass` is not passed on. -/
def runTests (count : Nat) (tests : List Test) (state : RunnerState) :
    Attempt × RunnerState × Option Signal :=
  let start := { state with reached := [] }
  let done := world.testLoop count tests start
  (⟨count, start, done.1, done.2⟩, world.finishAttempt count done.1 done.2,
    done.2.filter (· ≠ .abortClass))

/-- The filter that runs tests again. -/
def retryFilter (results : TestResult) : Filter :=
  Filter.new world.engine ((nonPassing results).map TestResultRecord.test_name) []
    ⟨true, none, true, false, none, false⟩

/-- The state in which an attempt sets the class up. -/
def beginAttempt (count : Nat) (state : RunnerState) : RunnerState :=
  { state with
    test_filter_retry :=
      if count = 0 then state.test_filter_retry else some (world.retryFilter state.results)
    is_final_run := count == world.max_retry_count }

/-- The loop of `runTestsWithRetry`: the attempts that came to the tests, the last state,
and the signal that leaves the function. -/
def runAttempts (tests : List Test) : Nat → Nat → RunnerState →
    List Attempt × RunnerState × Option Signal
  | 0, _, state => ([], state, none)
  | remaining + 1, count, state =>
    if count ≠ 0 ∧ world.Heal count = false then ([], state, none)
    else
      let state := world.beginAttempt count state
      if world.setUpClass count = false then
        ([], world.tearDownClass count { state with
          is_final_run := true
          results :=
            state.results.failClass world.test_module_name (world.class_error count) }, none)
      else
        match world.runTests count tests state with
        | (attempt, state, signal) =>
          if signal = some .interrupted ∨ state.is_final_run = true then
            ([attempt], state, signal)
          else
            match runAttempts tests remaining (count + 1) state with
            | (attempts, state, signal) => (attempt :: attempts, state, signal)

/-- `runTestsWithRetry(tests)`. -/
def runTestsWithRetry (tests : List Test) (state : RunnerState) :
    List Attempt × RunnerState × Option Signal :=
  world.runAttempts tests (world.max_retry_count + 1) 0 state

/-- The state in which `run` begins: the plain tests are requested. -/
def initial (tests : List Test) : RunnerState where
  results := { TestResult.new with
    requested := (tests.filterMap Test.plainName).map world.record }
  web := ⟨[], none⟩
  test_filter_retry := none
  is_final_run := false
  reached := []
  executions := []
  requests := tests.filterMap Test.plainName
  silenced := []
  reports := []

/-- `run()`. -/
def run (tests : List Test) : List Attempt × RunnerState × Option Signal :=
  world.runTestsWithRetry tests (world.initial tests)

end World

end Vts.Runner
