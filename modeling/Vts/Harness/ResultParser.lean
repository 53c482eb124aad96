import Mathlib.Data.List.DropRight
import Mathlib.Data.List.Infix

/-!
# Test results from a log

`VtsMultiDeviceTestResultParser.processNewLines` in
`harnesses/tradefed/src/com/android/tradefed/testtype/VtsMultiDeviceTestResultParser.java`: how
the harness finds the results of a class of tests in the lines of its log.

A `HashMap` gives its entries in some order, and `SimpleDateFormat` reads a time in its own way:
both are taken from a `Runtime`. What `new TestDescription(null, name)` does is not followed
further; a class without a name is `none`.
-/

namespace Vts.Harness

/-- A line of a log, or a word of it. -/
abbrev Line := List Char

/-! ## Words -/

/-- `line.split(" ")`: empty words at the end are left out, but a line without a space is a
word. -/
def split (line : Line) : List Line :=
  if ' ' ∈ line then (line.splitOn ' ').rdropWhile List.isEmpty else [line]

/-- `toks[toks.length - 1]`. -/
def lastToken (line : Line) : Option Line := (split line).getLast?

theorem lastToken_append (front word : Line) (solid : ' ' ∉ word) (some_char : word ≠ []) :
    lastToken (front ++ ' ' :: word) = some word := by
  have spaced : ' ' ∈ front ++ ' ' :: word := by simp
  have words : (front ++ ' ' :: word).splitOn ' ' = front.splitOn ' ' ++ [word] := by
    rw [List.splitOn_append_cons_self, List.splitOn_eq_singleton solid]
  rw [lastToken, split, if_pos spaced, words,
    List.rdropWhile_concat_neg _ _ _ (by simpa using some_char), List.getLast?_concat]

theorem eq_space_of_splitOn {line : Line} (empty : ∀ word ∈ line.splitOn ' ', word.isEmpty) :
    ∀ char ∈ line, char = ' ' := by
  induction line with
  | nil => simp
  | cons first rest ih =>
    rw [List.splitOn_cons_eq_if_modifyHead] at empty
    by_cases space : first = ' '
    · subst space
      simp only [beq_self_eq_true, if_true, List.forall_mem_cons] at empty
      exact List.forall_mem_cons.mpr ⟨rfl, ih empty.2⟩
    · rw [if_neg (by simpa using space)] at empty
      obtain ⟨word, words, cut⟩ := List.exists_cons_of_ne_nil (List.splitOn_ne_nil ' ' rest)
      rw [cut] at empty
      simp at empty

/-- A line with anything but spaces in it has a last word. -/
theorem exists_lastToken {line : Line} {char : Char} (listed : char ∈ line) (solid : char ≠ ' ') :
    ∃ token, lastToken line = some token := by
  unfold lastToken Harness.split
  split
  · have words : (line.splitOn ' ').rdropWhile List.isEmpty ≠ [] := fun none =>
      solid (eq_space_of_splitOn (List.rdropWhile_eq_nil_iff.mp none) char listed)
    exact ⟨_, List.getLast?_eq_some_getLast words⟩
  · exact ⟨line, rfl⟩

/-! ## Results and events -/

inductive ParserState where
  | TEST_CASE_ENTRY
  | COMPLETE
  | TEST_RUN
deriving DecidableEq

/-- The outcomes of tests. The parser itself only puts down the first three. -/
inductive Outcome where
  | PASS
  | FAIL
  | TIMEOUT
  | SKIP
  | ERROR
  | RETRY
deriving DecidableEq

def Outcome.text : Outcome → Line
  | .PASS => "PASS".toList
  | .FAIL => "FAIL".toList
  | .TIMEOUT => "TIMEOUT".toList
  | .SKIP => "SKIP".toList
  | .ERROR => "ERROR".toList
  | .RETRY => "RETRY".toList

def TEST_CASE : Line := "[Test Case]".toList

def END_PATTERN : Line := "<==========".toList

def BEGIN_PATTERN : Line := "==========>".toList

structure TestDescription where
  className : Option Line
  testName : Line
deriving DecidableEq

/-- What a listener is told. -/
inductive Event where
  | testRunStarted (runName : Option Line) (testCount : Nat)
  | testStarted (test : TestDescription)
  | testFailed (test : TestDescription) (trace : Outcome)
  | testAssumptionFailure (test : TestDescription) (trace : Outcome)
  | testEnded (test : TestDescription)
  | testRunEnded (elapsedTimeMillis : Int)
deriving DecidableEq

/-- The parts of the Java library that the parser leaves its choices to. -/
structure Runtime where
  /-- The entries of a `HashMap`. -/
  entrySet : List (TestDescription × Outcome) → List (TestDescription × Outcome)
  entrySet_perm : ∀ entries, (entrySet entries).Perm entries
  /-- `new SimpleDateFormat("HH:mm:ss.SSS").parse(time)`, in milliseconds. -/
  parseTime : Line → Option Int

/-! ## The parser -/

structure Parser where
  mCurrentParseState : ParserState
  mTestClass : Option Line
  mCurrentTestId : Option TestDescription
  mCurrentTestName : Option Line
  mTestResultCache : List (TestDescription × Outcome)
  mTotalTestCount : Nat

namespace Parser

/-- A new parser. -/
def new : Parser where
  mCurrentParseState := .TEST_CASE_ENTRY
  mTestClass := none
  mCurrentTestId := none
  mCurrentTestName := none
  mTestResultCache := []
  mTotalTestCount := 0

/-- `mTestResultCache.put(test, outcome)`. -/
def put (test : TestDescription) (outcome : Outcome) :
    List (TestDescription × Outcome) → List (TestDescription × Outcome)
  | [] => [(test, outcome)]
  | (other, present) :: entries =>
    if other = test then (other, outcome) :: entries else (other, present) :: put test outcome entries

/-- `markTestSuccess`, `markTestFailure` and `markTestTimeout`. -/
def mark (parser : Parser) (outcome : Outcome) : Parser :=
  match parser.mCurrentTestId with
  | none => parser
  | some test => { parser with mTestResultCache := put test outcome parser.mTestResultCache }

def markTestSuccess (parser : Parser) : Parser := parser.mark .PASS

def markTestFailure (parser : Parser) : Parser := parser.mark .FAIL

def markTestTimeout (parser : Parser) : Parser := parser.mark .TIMEOUT

/-- With the last word of the line. -/
def registerTest (parser : Parser) (token : Line) : Parser :=
  { parser with
    mCurrentTestName := some token
    mCurrentTestId := some ⟨parser.mTestClass, token⟩
    mTotalTestCount := parser.mTotalTestCount + 1 }

/-- With the last word of the line. Returns whether the test is over. -/
def testRun (parser : Parser) (token : Line) : Bool × Parser :=
  if token = Outcome.PASS.text then (true, parser.markTestSuccess)
  else if token = Outcome.FAIL.text then (true, parser.markTestFailure)
  -- SKIP is not a recognized test type in TradeFed.
  else if token = Outcome.SKIP.text then (true, parser)
  else (false, parser.markTestTimeout)

/-- `parse` in the state `TEST_CASE_ENTRY`. Without a last word the exception leaves the parser
in this state. -/
def parseEntry (parser : Parser) (line : Line) : Parser :=
  let parser := { parser with mCurrentParseState := .TEST_CASE_ENTRY }
  match lastToken line with
  | none => parser
  | some token => { parser.registerTest token with mCurrentParseState := .TEST_RUN }

def parse (parser : Parser) (line : Line) : Parser :=
  match parser.mCurrentParseState with
  | .TEST_CASE_ENTRY => parser.parseEntry line
  | .TEST_RUN =>
    match lastToken line with
    | none => parser
    | some token =>
      match parser.testRun token with
      | (true, parser) => { parser with mCurrentParseState := .COMPLETE }
      -- incomplete test due to timeout.
      | (false, parser) => parser.parseEntry line
  | .COMPLETE => parser.parseEntry line

/-- The loop over all lines. -/
def parseLines (parser : Parser) (lines : List Line) : Parser :=
  lines.foldl (fun parser line =>
    if line.length = 0 ∨ ¬ TEST_CASE <:+: line then parser else parser.parse line) parser

end Parser

/-- `getDate`, with the lines in the order in which they are looked at. -/
def getDate (runtime : Runtime) : List Line → Option Int
  | [] => none
  | line :: lines =>
    match (split line)[2]? with
    | none => getDate runtime lines
    | some time =>
      match runtime.parseTime time with
      | none => getDate runtime lines
      | some date => some date

/-- `summary`. -/
def elapsedTime (runtime : Runtime) (lines : List Line) : Int :=
  match getDate runtime lines, getDate runtime lines.reverse with
  | some startDate, some endDate => endDate - startDate
  | _, _ => 0

/-- What the listener is told about one test. -/
def report : TestDescription × Outcome → List Event
  | (test, .PASS) => [.testStarted test, .testEnded test]
  | (test, .SKIP) => [.testStarted test, .testAssumptionFailure test .SKIP, .testEnded test]
  | (test, outcome) => [.testStarted test, .testFailed test outcome, .testEnded test]

def completeTestRun (runtime : Runtime) (parser : Parser) (mTotalElapsedTime : Int) : List Event :=
  .testRunStarted parser.mCurrentTestName parser.mTotalTestCount ::
    (runtime.entrySet parser.mTestResultCache).flatMap report ++ [.testRunEnded mTotalElapsedTime]

/-- The name of the class, if the first line is that of a class. -/
def testClass (line : Line) : Option Line :=
  match (split line).reverse with
  | last :: name :: first :: _ =>
    if last = END_PATTERN ∧ first = BEGIN_PATTERN then some name else none
  | _ => none

/-- The events for the lines of a log. Without lines there is no first one, and the parser
fails. -/
def processNewLines (runtime : Runtime) : List Line → Option (List Event)
  | [] => none
  | first :: rest =>
    let parser := { Parser.new with mTestClass := testClass first }.parseLines (first :: rest)
    -- current state should not be in TEST_RUN state; if it's then mark for timeout.
    let parser :=
      if parser.mCurrentParseState = .TEST_RUN then parser.markTestTimeout else parser
    some (completeTestRun runtime parser (elapsedTime runtime (first :: rest)))

end Vts.Harness
