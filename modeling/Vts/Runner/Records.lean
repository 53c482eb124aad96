import Mathlib.Data.List.Perm.Basic
import Vts.Lib.IndexDeletion

/-!
# Test records and their container

The records of `runners/host/records.py` and the container that a test class fills
while it runs. A test is known by its full name, which joins the names of its class
and of the test, so two records of one full name are one test; a record that is added
takes the place of the earlier ones.

Proved here: after any sequence of operations the executed records are split among the
four lists of results, and adding records keeps the list of requested tests exactly when
no added record is requested. Details, extras and tables of a record are left out, as no
modelled function reads them. Times are what the clock shows, given as an argument.
-/

namespace Vts.Runner

open Vts.Lib List

/-- `TestResultEnums`: the result tokens. -/
inductive ResultToken where
  | pass
  | fail
  | skip
  | error
deriving DecidableEq

/-- `TestResultRecord`. Without a result the test has not ended. -/
structure TestResultRecord where
  test_name : String
  test_class : Option String
  begin_time : Option Nat
  end_time : Option Nat
  result : Option ResultToken
deriving DecidableEq

variable (self : TestResult) (record : TestResultRecord)

namespace TestResultRecord

/-- `TestResultRecord(t_name, t_class)`. -/
def new (t_name : String) (t_class : Option String) : TestResultRecord :=
  ⟨t_name, t_class, none, none, none⟩

/-- A class name as `'%s'` prints it. -/
def className (test_class : Option String) : String := test_class.getD "None"

def fullname (record : TestResultRecord) : String :=
  className record.test_class ++ "." ++ record.test_name

def isSameTestCase (self record : TestResultRecord) : Bool :=
  self.fullname == record.fullname

def testBegin (self : TestResultRecord) (now : Nat) : TestResultRecord :=
  { self with begin_time := some now }

/-- `_testEnd`, without the details that the signal carries. -/
def testEnd (self : TestResultRecord) (result : ResultToken) (now : Nat) : TestResultRecord :=
  { self with end_time := some now, result := some result }

def testPass (self : TestResultRecord) (now : Nat) : TestResultRecord := self.testEnd .pass now

def testFail (self : TestResultRecord) (now : Nat) : TestResultRecord := self.testEnd .fail now

def testSkip (self : TestResultRecord) (now : Nat) : TestResultRecord := self.testEnd .skip now

def testError (self : TestResultRecord) (now : Nat) : TestResultRecord := self.testEnd .error now

theorem isSameTestCase_iff {self record : TestResultRecord} :
    self.isSameTestCase record = true ↔ self.fullname = record.fullname := by
  simp [isSameTestCase]

@[simp] theorem isSameTestCase_self : record.isSameTestCase record = true := by
  simp [isSameTestCase]

end TestResultRecord

/-- `TestResult`. -/
structure TestResult where
  requested : List TestResultRecord
  failed : List TestResultRecord
  executed : List TestResultRecord
  passed : List TestResultRecord
  skipped : List TestResultRecord
  error : List TestResultRecord
  class_errors : List String
deriving DecidableEq

/-- The dictionary that `summaryDict` makes. -/
structure Summary where
  requested : Nat
  executed : Nat
  passed : Nat
  failed : Nat
  skipped : Nat
  error : Nat
deriving DecidableEq

namespace TestResult

/-- `TestResult()`. -/
def new : TestResult := ⟨[], [], [], [], [], [], []⟩

/-- `getNonExecutedRecords`. -/
def getNonExecutedRecords (self : TestResult) : List TestResultRecord :=
  self.requested.filter fun requested => !self.executed.any fun executed =>
    requested.isSameTestCase executed

/-- `getNonPassingRecords(non_executed, failed, skipped, error)`. -/
def getNonPassingRecords (self : TestResult) (non_executed failed skipped error : Bool) :
    List TestResultRecord :=
  (if non_executed then self.getNonExecutedRecords else []) ++
    (if failed then self.failed else []) ++
    (if skipped then self.skipped else []) ++
    (if error then self.error else [])

/-- The body of the loop in `removeRecord`: the indices of the matching records are
collected, then deleted from the last to the first. -/
def removeFrom (record : TestResultRecord) (l : List TestResultRecord) :
    List TestResultRecord :=
  IndexDeletion.deleteEach
    (IndexDeletion.collect (fun listed => listed.isSameTestCase record) l).reverse l

/-- `removeRecord(record, remove_requested)`. The body does not read the flag. -/
def removeRecord (self : TestResult) (record : TestResultRecord) (_remove_requested : Bool) :
    TestResult :=
  { self with
    requested := removeFrom record self.requested
    failed := removeFrom record self.failed
    executed := removeFrom record self.executed
    passed := removeFrom record self.passed
    skipped := removeFrom record self.skipped
    error := removeFrom record self.error }

/-- The appends of `addRecord`, once earlier records of the test are removed. -/
def appendRecord (self : TestResult) (record : TestResultRecord) : TestResult :=
  let self := { self with executed := self.executed ++ [record] }
  if record.result = some .fail then { self with failed := self.failed ++ [record] }
  else if record.result = some .skip then { self with skipped := self.skipped ++ [record] }
  else if record.result = some .pass then { self with passed := self.passed ++ [record] }
  else { self with error := self.error ++ [record] }

/-- `addRecord(record)`. -/
def addRecord (self : TestResult) (record : TestResultRecord) : TestResult :=
  (self.removeRecord record false).appendRecord record

/-- `failClass(class_name, e)`; the text of the exception is given. -/
def failClass (self : TestResult) (class_name text : String) : TestResult :=
  { self with class_errors := self.class_errors ++ [class_name ++ ": " ++ text] }

/-- `passClass(class_name)`. -/
def passClass (self : TestResult) (class_name : String) (begin_time end_time : Nat) :
    TestResult :=
  let record := ((TestResultRecord.new "setup_class" (some class_name)).testBegin
    begin_time).testPass end_time
  { self with executed := self.executed ++ [record], passed := self.passed ++ [record] }

/-- `skipClass(class_name, reason)`. -/
def skipClass (self : TestResult) (class_name : String) (begin_time end_time : Nat) :
    TestResult :=
  let record := ((TestResultRecord.new "skip_class" (some class_name)).testBegin
    begin_time).testSkip end_time
  { self with executed := self.executed ++ [record], skipped := self.skipped ++ [record] }

def summaryDict (self : TestResult) : Summary where
  requested := self.requested.length
  executed := self.executed.length
  passed := self.passed.length
  failed := self.failed.length
  skipped := self.skipped.length
  error := self.error.length

/-- `progressStr`. -/
def progressStr (self : TestResult) : String :=
  toString (self.executed.length + self.skipped.length + 1) ++ "/" ++
    toString self.requested.length

/-! ## Removal and addition -/

/-- The deletions keep exactly the records of other tests. -/
theorem removeFrom_eq_filter (l : List TestResultRecord) :
    removeFrom record l = l.filter fun listed => !listed.isSameTestCase record :=
  IndexDeletion.deleteEach_collect _ l

/-- The list of results that `addRecord` appends a record to. -/
def bucket (record : TestResultRecord) : ResultToken :=
  record.result.getD .error

/-- The four lists of results. -/
def resultList (self : TestResult) : ResultToken → List TestResultRecord
  | .pass => self.passed
  | .fail => self.failed
  | .skip => self.skipped
  | .error => self.error

theorem resultList_removeRecord (flag : Bool) (token : ResultToken) :
    (self.removeRecord record flag).resultList token =
      removeFrom record (self.resultList token) := by
  cases token <;> rfl

theorem appendRecord_requested : (self.appendRecord record).requested = self.requested := by
  unfold appendRecord
  split_ifs <;> rfl

theorem appendRecord_executed :
    (self.appendRecord record).executed = self.executed ++ [record] := by
  unfold appendRecord
  split_ifs <;> rfl

/-- `addRecord` appends the record to the list of its own result only. -/
theorem resultList_appendRecord (token : ResultToken) :
    (self.appendRecord record).resultList token =
      self.resultList token ++ (if bucket record = token then [record] else []) := by
  unfold appendRecord bucket
  cases known : record.result with
  | none => cases token <;> simp [resultList]
  | some result => cases result <;> cases token <;> simp [resultList]

theorem addRecord_executed :
    (self.addRecord record).executed =
      (self.executed.filter fun listed => !listed.isSameTestCase record) ++ [record] := by
  rw [addRecord, appendRecord_executed]
  exact congrArg (· ++ [record]) (removeFrom_eq_filter record self.executed)

/-- Requested records of the added test are removed, whatever the flag says. -/
theorem addRecord_requested :
    (self.addRecord record).requested =
      self.requested.filter fun listed => !listed.isSameTestCase record := by
  rw [addRecord, appendRecord_requested]
  exact removeFrom_eq_filter record self.requested

/-! ## The lists of results -/

/-- Each list of results holds the executed records of its result, in their order. -/
def Bucketed (self : TestResult) : Prop :=
  ∀ token, self.resultList token = self.executed.filter fun record => bucket record = token

theorem bucketed_new : Bucketed new := by
  intro token
  cases token <;> rfl

theorem Bucketed.removeRecord {self : TestResult} (bucketed : Bucketed self)
    (record : TestResultRecord) (flag : Bool) : Bucketed (self.removeRecord record flag) := by
  intro token
  have executed : (self.removeRecord record flag).executed = removeFrom record self.executed :=
    rfl
  rw [resultList_removeRecord, bucketed token, executed, removeFrom_eq_filter,
    removeFrom_eq_filter, filter_comm]

/-- Appending one record to the executed records and to its own list. -/
theorem Bucketed.append {self next : TestResult} (bucketed : Bucketed self)
    (record : TestResultRecord) (executed : next.executed = self.executed ++ [record])
    (lists : ∀ token, next.resultList token =
      self.resultList token ++ (if bucket record = token then [record] else [])) :
    Bucketed next := by
  intro token
  rw [lists token, bucketed token, executed, filter_append, filter_singleton]
  by_cases own : bucket record = token <;> simp [own]

theorem Bucketed.addRecord {self : TestResult} (bucketed : Bucketed self)
    (record : TestResultRecord) : Bucketed (self.addRecord record) :=
  (bucketed.removeRecord record false).append record (appendRecord_executed _ record)
    (resultList_appendRecord _ record)

theorem Bucketed.passClass {self : TestResult} (bucketed : Bucketed self)
    (class_name : String) (begin_time end_time : Nat) :
    Bucketed (self.passClass class_name begin_time end_time) := by
  refine bucketed.append _ rfl ?_
  intro token
  cases token <;> simp [resultList, TestResult.passClass, bucket, TestResultRecord.testPass,
    TestResultRecord.testEnd]

theorem Bucketed.skipClass {self : TestResult} (bucketed : Bucketed self)
    (class_name : String) (begin_time end_time : Nat) :
    Bucketed (self.skipClass class_name begin_time end_time) := by
  refine bucketed.append _ rfl ?_
  intro token
  cases token <;> simp [resultList, TestResult.skipClass, bucket, TestResultRecord.testSkip,
    TestResultRecord.testEnd]

/-- A list of results holds an executed record as often as it was executed, and no
record of another result. -/
theorem Bucketed.count {self : TestResult} (bucketed : Bucketed self) (token : ResultToken)
    (record : TestResultRecord) :
    (self.resultList token).count record =
      if bucket record = token then self.executed.count record else 0 := by
  rw [bucketed token]
  split_ifs with own
  · exact count_filter (by simpa using own)
  · apply count_eq_zero_of_not_mem
    intro listed
    exact own (by simpa using (mem_filter.mp listed).2)

/-- The four lists together hold each executed record once. -/
theorem Bucketed.perm {self : TestResult} (bucketed : Bucketed self) :
    self.executed.Perm (self.passed ++ self.failed ++ self.skipped ++ self.error) := by
  rw [perm_iff_count]
  intro record
  have passed := bucketed.count .pass record
  have failed := bucketed.count .fail record
  have skipped := bucketed.count .skip record
  have error := bucketed.count .error record
  simp only [resultList] at passed failed skipped error
  rw [count_append, count_append, count_append, passed, failed, skipped, error]
  cases bucket record <;> simp

theorem Bucketed.bucket_eq {self : TestResult} (bucketed : Bucketed self) {token : ResultToken}
    {record : TestResultRecord} (listed : record ∈ self.resultList token) :
    bucket record = token := by
  rw [bucketed token] at listed
  simpa using (mem_filter.mp listed).2

theorem Bucketed.disjoint {self : TestResult} (bucketed : Bucketed self)
    {first second : ResultToken} (distinct : first ≠ second) :
    (self.resultList first).Disjoint (self.resultList second) := by
  intro record inFirst inSecond
  exact distinct ((bucketed.bucket_eq inFirst).symm.trans (bucketed.bucket_eq inSecond))

/-! ## Runs -/

/-- The operations that change the lists of results. -/
inductive Operation where
  | addRecord (record : TestResultRecord)
  | removeRecord (record : TestResultRecord) (remove_requested : Bool)
  | passClass (class_name : String) (begin_time end_time : Nat)
  | skipClass (class_name : String) (begin_time end_time : Nat)

def Operation.apply (self : TestResult) : Operation → TestResult
  | .addRecord record => self.addRecord record
  | .removeRecord record remove_requested => self.removeRecord record remove_requested
  | .passClass class_name begin_time end_time => self.passClass class_name begin_time end_time
  | .skipClass class_name begin_time end_time => self.skipClass class_name begin_time end_time

/-- The container after a sequence of operations. -/
def run (self : TestResult) (operations : List Operation) : TestResult :=
  operations.foldl Operation.apply self

theorem Bucketed.apply {self : TestResult} (bucketed : Bucketed self) (operation : Operation) :
    Bucketed (Operation.apply self operation) := by
  cases operation with
  | addRecord record => exact bucketed.addRecord record
  | removeRecord record remove_requested => exact bucketed.removeRecord record remove_requested
  | passClass class_name begin_time end_time =>
    exact bucketed.passClass class_name begin_time end_time
  | skipClass class_name begin_time end_time =>
    exact bucketed.skipClass class_name begin_time end_time

theorem Bucketed.run {self : TestResult} (bucketed : Bucketed self)
    (operations : List Operation) : Bucketed (self.run operations) := by
  induction operations generalizing self with
  | nil => exact bucketed
  | cons operation rest ih =>
    exact ih (bucketed.apply operation)

/-- After an addition the added record is the only executed record of its test. -/
theorem addRecord_only :
    ((self.addRecord record).executed.filter fun listed =>
      decide (listed.fullname = record.fullname)) = [record] := by
  rw [addRecord_executed, filter_append, filter_filter]
  have removed : (self.executed.filter fun listed =>
      decide (listed.fullname = record.fullname) && !listed.isSameTestCase record) = [] := by
    apply filter_eq_nil_iff.mpr
    intro listed _
    simp [TestResultRecord.isSameTestCase]
  rw [removed]
  simp

/-- In every container that operations make from the empty one, the executed records are,
with their multiplicities, the records of the four lists of results, which share none;
each list holds records of its own result, the list of errors also those without a
result; and a record that is then added is the only executed one of its full name. -/
theorem run_bucketed (operations : List Operation) :
    (new.run operations).executed.Perm
        ((new.run operations).passed ++ (new.run operations).failed ++
          (new.run operations).skipped ++ (new.run operations).error) ∧
      [(new.run operations).passed, (new.run operations).failed,
        (new.run operations).skipped, (new.run operations).error].Pairwise List.Disjoint ∧
      (∀ record ∈ (new.run operations).passed, record.result = some .pass) ∧
      (∀ record ∈ (new.run operations).failed, record.result = some .fail) ∧
      (∀ record ∈ (new.run operations).skipped, record.result = some .skip) ∧
      (∀ record ∈ (new.run operations).error,
        record.result = some .error ∨ record.result = none) ∧
      ∀ record, (((new.run operations).addRecord record).executed.filter fun listed =>
        decide (listed.fullname = record.fullname)) = [record] := by
  have bucketed : Bucketed (new.run operations) := bucketed_new.run operations
  have known : ∀ token, token ≠ .error → ∀ record ∈ (new.run operations).resultList token,
      record.result = some token := by
    intro token noError record listed
    have own : record.result.getD .error = token := bucketed.bucket_eq listed
    cases result : record.result with
    | none =>
      rw [result] at own
      exact absurd own.symm noError
    | some known =>
      rw [result] at own
      exact congrArg some own
  have disjoint : [(new.run operations).passed, (new.run operations).failed,
      (new.run operations).skipped, (new.run operations).error].Pairwise List.Disjoint := by
    simp only [pairwise_cons, mem_cons, not_mem_nil, or_false]
    refine ⟨?_, ?_, ?_, by simp, List.Pairwise.nil⟩
    · rintro other (rfl | rfl | rfl)
      · exact bucketed.disjoint (by decide : ResultToken.pass ≠ .fail)
      · exact bucketed.disjoint (by decide : ResultToken.pass ≠ .skip)
      · exact bucketed.disjoint (by decide : ResultToken.pass ≠ .error)
    · rintro other (rfl | rfl)
      · exact bucketed.disjoint (by decide : ResultToken.fail ≠ .skip)
      · exact bucketed.disjoint (by decide : ResultToken.fail ≠ .error)
    · rintro other rfl
      exact bucketed.disjoint (by decide : ResultToken.skip ≠ .error)
  have errors : ∀ record ∈ (new.run operations).error,
      record.result = some .error ∨ record.result = none := by
    intro record listed
    have own : record.result.getD .error = .error :=
      @Bucketed.bucket_eq _ bucketed .error record listed
    cases result : record.result with
    | none => exact Or.inr rfl
    | some known =>
      rw [result] at own
      exact Or.inl (congrArg some own)
  exact ⟨bucketed.perm, disjoint, known .pass (by decide), known .fail (by decide),
    known .skip (by decide), errors, addRecord_only _⟩

/-! ## Requested tests -/

/-- The container after records were added. -/
def addRecords (self : TestResult) (records : List TestResultRecord) : TestResult :=
  records.foldl addRecord self

theorem addRecords_cons (records : List TestResultRecord) :
    self.addRecords (record :: records) = (self.addRecord record).addRecords records := rfl

/-- Requested tests that are added disappear from the list of requested tests. -/
theorem addRecords_requested (records : List TestResultRecord) :
    (self.addRecords records).requested = self.requested.filter fun requested =>
      !records.any fun record => requested.isSameTestCase record := by
  induction records generalizing self with
  | nil => simp [addRecords]
  | cons record records ih =>
    rw [addRecords_cons, ih, addRecord_requested, filter_filter]
    congr 1
    funext requested
    simp [Bool.and_comm]

/-- The list stays as it was exactly when no added record is of a requested test. -/
theorem addRecords_requested_eq_iff (records : List TestResultRecord) :
    (self.addRecords records).requested = self.requested ↔
      ∀ record ∈ records, ∀ requested ∈ self.requested,
        requested.fullname ≠ record.fullname := by
  rw [addRecords_requested, filter_eq_self]
  constructor
  · intro kept record added requested listed same
    have absent := kept requested listed
    simp only [Bool.not_eq_true', any_eq_false] at absent
    exact absent record added (TestResultRecord.isSameTestCase_iff.mpr same)
  · intro distinct requested listed
    simp only [Bool.not_eq_true', any_eq_false]
    intro record added same
    exact distinct record added requested listed (TestResultRecord.isSameTestCase_iff.mp same)

/-- While records are added the list of requested tests stays as it was, the requested
tests that were not executed are those of the first list without an executed record of
their full name, and the summary counts the requested tests: after every number of
additions, exactly when no added record has the full name of a requested one. -/
theorem addRecords_requested_iff (self : TestResult) (records : List TestResultRecord) :
    (∀ count,
      (self.addRecords (records.take count)).requested = self.requested ∧
      (self.addRecords (records.take count)).getNonExecutedRecords =
        (self.requested.filter fun requested =>
          !(self.addRecords (records.take count)).executed.any fun executed =>
            decide (requested.fullname = executed.fullname)) ∧
      (self.addRecords (records.take count)).summaryDict.requested = self.requested.length) ↔
    ∀ record ∈ records, ∀ requested ∈ self.requested, requested.fullname ≠ record.fullname := by
  constructor
  · intro kept
    have whole := (kept records.length).1
    rw [take_length] at whole
    exact (addRecords_requested_eq_iff self records).mp whole
  · intro distinct count
    have same : (self.addRecords (records.take count)).requested = self.requested := by
      apply (addRecords_requested_eq_iff self _).mpr
      intro record added
      exact distinct record (mem_of_mem_take added)
    refine ⟨same, ?_, congrArg List.length same⟩
    unfold getNonExecutedRecords
    rw [same]
    congr 1

/-- One requested test is executed: nothing is requested any more. -/
theorem addRecords_requested_lost :
    ¬ ∀ (self : TestResult) (records : List TestResultRecord) (count : Nat),
      (self.addRecords (records.take count)).requested = self.requested ∧
      (self.addRecords (records.take count)).getNonExecutedRecords =
        (self.requested.filter fun requested =>
          !(self.addRecords (records.take count)).executed.any fun executed =>
            decide (requested.fullname = executed.fullname)) ∧
      (self.addRecords (records.take count)).summaryDict.requested =
        self.requested.length := by
  intro kept
  have lost := (kept { new with requested := [TestResultRecord.new "testA" (some "Module")] }
    [((TestResultRecord.new "testA" (some "Module")).testBegin 0).testPass 1] 1).1
  exact absurd lost (by decide)

end TestResult

end Vts.Runner
