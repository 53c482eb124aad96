import Mathlib.Data.List.Dedup
import Mathlib.Data.List.Perm.Subperm
import Vts.Harness.ResultParser

/-!
# The log of a class of tests and what is reported of it

`runners/host/base_test.py` writes the log that the parser reads: a line when a test begins and a
line with its result, between lines of any other kind. Proved here: the listener is told exactly
the tests and their results, and their number, if and only if no test is run twice, all results
are PASS or FAIL, and no other line has the mark of a test in it.
-/

namespace Vts.Harness

open Option hiding map_map

open List

/-! ## The log -/

/-- The name of a test or of a class. -/
structure TestName where
  text : Line
  solid : ' ' ∉ text
  some_char : text ≠ []

/-- The results that are written to a log. -/
inductive TestResult where
  | PASS
  | FAIL
  | SKIP
  | ERROR
  | RETRY
deriving DecidableEq

def TestResult.outcome : TestResult → Outcome
  | .PASS => .PASS
  | .FAIL => .FAIL
  | .SKIP => .SKIP
  | .ERROR => .ERROR
  | .RETRY => .RETRY

/-- The parts of a line that change from one line to the next: the time and the level before the
message, and the progress. -/
structure Stamp where
  stamp : Line
  progressStr : Line

def TEST_CASE_TEMPLATE (progressStr test_name : Line) : Line :=
  TEST_CASE ++ ' ' :: progressStr ++ ' ' :: test_name

def RESULT_LINE_TEMPLATE (progressStr test_name result : Line) : Line :=
  TEST_CASE_TEMPLATE progressStr test_name ++ ' ' :: result

/-- `log_line_format`. -/
def logLine (stamp message : Line) : Line := stamp ++ ' ' :: message

/-- One execution of a test, with the other lines that are written meanwhile and afterwards. -/
structure Execution where
  test_name : TestName
  started : Stamp
  during : List Line
  result : Option (Stamp × TestResult)
  afterwards : List Line

namespace Execution

def beginLine (execution : Execution) : Line :=
  logLine execution.started.stamp
    (TEST_CASE_TEMPLATE execution.started.progressStr execution.test_name.text)

def resultLine (execution : Execution) (written : Stamp × TestResult) : Line :=
  logLine written.1.stamp
    (RESULT_LINE_TEMPLATE written.1.progressStr execution.test_name.text written.2.outcome.text)

def lines (execution : Execution) : List Line :=
  execution.beginLine :: execution.during ++
    (execution.result.map execution.resultLine).toList ++ execution.afterwards

/-- The result of an execution, or that it has none. -/
def outcome (execution : Execution) : Outcome :=
  match execution.result with
  | some written => written.2.outcome
  | none => .TIMEOUT

end Execution

/-- The log of a class. Only the last execution may be without a result. -/
structure Log where
  test_class : TestName
  stamp : Line
  before : List Line
  executions : List Execution
  finished : ∀ execution ∈ executions.dropLast, execution.result.isSome

namespace Log

def header (log : Log) : Line :=
  logLine log.stamp (BEGIN_PATTERN ++ ' ' :: log.test_class.text ++ ' ' :: END_PATTERN)

def lines (log : Log) : List Line :=
  log.header :: log.before ++ log.executions.flatMap Execution.lines

/-- The lines that are not about a test. -/
def others (log : Log) : List Line :=
  log.header :: log.before ++
    log.executions.flatMap fun execution => execution.during ++ execution.afterwards

/-- The names of the executed tests. -/
def names (log : Log) : List Line := log.executions.map (·.test_name.text)

def test (log : Log) (name : Line) : TestDescription := ⟨some log.test_class.text, name⟩

/-- The outcome of the last execution of a test. -/
def outcome (log : Log) (name : Line) : Outcome :=
  match (log.executions.filter (·.test_name.text = name)).getLast? with
  | some execution => execution.outcome
  | none => .TIMEOUT

/-- The executed tests, each with its outcome. -/
def expected (log : Log) : List (TestDescription × Outcome) :=
  log.names.dedup.map fun name => (log.test name, log.outcome name)

/-- No test is run twice, all results are PASS or FAIL, and no other line has the mark of a
test. -/
def Readable (log : Log) : Prop :=
  log.names.Nodup ∧
    (∀ execution ∈ log.executions, ∀ written ∈ execution.result,
      written.2 = .PASS ∨ written.2 = .FAIL) ∧
    ∀ line ∈ log.others, ¬ TEST_CASE <:+: line

end Log

def Event.isTestStarted : Event → Bool
  | .testStarted _ => true
  | _ => false

/-- The listener is told the executed tests, in some order, each with its outcome, and the number
that it is told first is the number of the tests that follow. -/
def Reported (runtime : Runtime) (log : Log) : Prop :=
  ∃ events runName testCount, ∃ reports : List (TestDescription × Outcome), ∃ elapsed,
    processNewLines runtime log.lines = some events ∧
    events = .testRunStarted runName testCount :: reports.flatMap report ++
      [.testRunEnded elapsed] ∧
    reports.Perm log.expected ∧ testCount = events.countP Event.isTestStarted

/-! ## Words that are read -/

/-- The last words of the lines with the mark of a test. -/
def tokens (lines : List Line) : List Line :=
  lines.filterMap fun line => if TEST_CASE <:+: line then lastToken line else none

theorem lastToken_of_mark {line : Line} (marked : TEST_CASE <:+: line) :
    ∃ token, lastToken line = some token := by
  have bracket : '[' ∈ line := marked.subset (by decide)
  exact exists_lastToken bracket (by decide)

theorem tokens_marked {line token : Line} (marked : TEST_CASE <:+: line)
    (last : lastToken line = some token) (lines : List Line) :
    tokens (line :: lines) = token :: tokens lines := by
  rw [tokens, filterMap_cons, if_pos marked, last]
  rfl

theorem tokens_unmarked {line : Line} (unmarked : ¬ TEST_CASE <:+: line) (lines : List Line) :
    tokens (line :: lines) = tokens lines := by
  rw [tokens, filterMap_cons, if_neg unmarked]
  rfl

theorem tokens_append (first second : List Line) :
    tokens (first ++ second) = tokens first ++ tokens second :=
  filterMap_append

variable {test : TestDescription} {outcome : Outcome} {cache : List (TestDescription × Outcome)}
  (execution : Execution) (log : Log)

theorem mark_beginLine : TEST_CASE <:+: execution.beginLine := by
  refine ⟨execution.started.stamp ++ [' '],
    ' ' :: execution.started.progressStr ++ ' ' :: execution.test_name.text, ?_⟩
  simp [Execution.beginLine, logLine, TEST_CASE_TEMPLATE]

theorem mark_resultLine (written : Stamp × TestResult) :
    TEST_CASE <:+: execution.resultLine written := by
  refine ⟨written.1.stamp ++ [' '], ' ' :: written.1.progressStr ++
    ' ' :: execution.test_name.text ++ ' ' :: written.2.outcome.text, ?_⟩
  simp [Execution.resultLine, logLine, RESULT_LINE_TEMPLATE, TEST_CASE_TEMPLATE]

theorem Outcome.text_solid (outcome : Outcome) : ' ' ∉ outcome.text ∧ outcome.text ≠ [] := by
  cases outcome <;> decide

theorem lastToken_beginLine : lastToken execution.beginLine = some execution.test_name.text := by
  have shape : execution.beginLine = (execution.started.stamp ++ ' ' :: TEST_CASE ++
      ' ' :: execution.started.progressStr) ++ ' ' :: execution.test_name.text := by
    simp [Execution.beginLine, logLine, TEST_CASE_TEMPLATE]
  rw [shape, lastToken_append _ _ execution.test_name.solid execution.test_name.some_char]

theorem lastToken_resultLine (written : Stamp × TestResult) :
    lastToken (execution.resultLine written) = some written.2.outcome.text := by
  have shape : execution.resultLine written = (written.1.stamp ++ ' ' :: TEST_CASE ++
      ' ' :: written.1.progressStr ++ ' ' :: execution.test_name.text) ++
      ' ' :: written.2.outcome.text := by
    simp [Execution.resultLine, logLine, RESULT_LINE_TEMPLATE, TEST_CASE_TEMPLATE]
  rw [shape, lastToken_append _ _ (Outcome.text_solid _).1 (Outcome.text_solid _).2]

theorem testClass_header : testClass log.header = some log.test_class.text := by
  have words : log.header.splitOn ' ' = log.stamp.splitOn ' ' ++
      [BEGIN_PATTERN, log.test_class.text, END_PATTERN] := by
    have shape : log.header = log.stamp ++ ' ' :: (BEGIN_PATTERN ++
        ' ' :: (log.test_class.text ++ ' ' :: END_PATTERN)) := by
      simp [Log.header, logLine]
    rw [shape, splitOn_append_cons_self, splitOn_append_cons_self,
      splitOn_append_cons_self, splitOn_eq_singleton log.test_class.solid,
      splitOn_eq_singleton (show ' ' ∉ BEGIN_PATTERN by decide),
      splitOn_eq_singleton (show ' ' ∉ END_PATTERN by decide)]
    rfl
  have spaced : ' ' ∈ log.header := by simp [Log.header, logLine]
  have ends : split log.header = log.stamp.splitOn ' ' ++
      [BEGIN_PATTERN, log.test_class.text] ++ [END_PATTERN] := by
    rw [split, if_pos spaced, words, append_cons, append_cons,
      rdropWhile_concat_neg _ _ _ (by decide)]
    simp
  unfold testClass
  rw [ends]
  simp

/-! ## The parser, word by word -/

/-- A word ends the current test. -/
def Ends (token : Line) : Prop :=
  token = Outcome.PASS.text ∨ token = Outcome.FAIL.text ∨ token = Outcome.SKIP.text

namespace Parser

variable {parser : Parser} {token : Line}

/-- What the parser does with a line, by its last word. -/
def take (parser : Parser) (token : Line) : Parser :=
  match parser.mCurrentParseState with
  | .TEST_RUN =>
    match parser.testRun token with
    | (true, parser) => { parser with mCurrentParseState := .COMPLETE }
    | (false, parser) => { parser.registerTest token with mCurrentParseState := .TEST_RUN }
  | _ => { parser.registerTest token with mCurrentParseState := .TEST_RUN }

theorem parse_eq_take {line : Line} (last : lastToken line = some token) :
    parser.parse line = parser.take token := by
  unfold parse take parseEntry
  simp only [last]
  cases parser.mCurrentParseState with
  | TEST_CASE_ENTRY => rfl
  | COMPLETE => rfl
  | TEST_RUN => rcases parser.testRun token with ⟨_ | _, _⟩ <;> rfl

theorem parseLines_eq (lines : List Line) :
    parser.parseLines lines = (tokens lines).foldl take parser := by
  induction lines generalizing parser with
  | nil => rfl
  | cons line lines ih =>
    have rest := fun parser => @ih parser
    unfold parseLines at rest ⊢
    rw [foldl_cons, rest]
    by_cases marked : TEST_CASE <:+: line
    · obtain ⟨token, last⟩ := lastToken_of_mark marked
      have some_char : line.length ≠ 0 := by
        intro empty
        rw [eq_nil_of_length_eq_zero empty] at marked
        exact absurd (infix_nil.mp marked) (by decide)
      rw [if_neg (by simp [some_char, marked]), tokens_marked marked last, foldl_cons,
        parse_eq_take last]
    · rw [if_pos (.inr marked), tokens_unmarked marked]

/-- Everything that a word can do. -/
theorem take_cases (parser : Parser) (token : Line) :
    (parser.mCurrentParseState ≠ .TEST_RUN ∧
      parser.take token = { parser.registerTest token with mCurrentParseState := .TEST_RUN }) ∨
    (parser.mCurrentParseState = .TEST_RUN ∧ Ends token ∧
      ∃ marked, (marked = parser ∨ ∃ outcome, outcome ≠ .TIMEOUT ∧ marked = parser.mark outcome) ∧
        parser.take token = { marked with mCurrentParseState := .COMPLETE }) ∨
    (parser.mCurrentParseState = .TEST_RUN ∧ ¬ Ends token ∧
      parser.take token =
        { parser.markTestTimeout.registerTest token with mCurrentParseState := .TEST_RUN }) := by
  unfold take
  cases state : parser.mCurrentParseState with
  | TEST_CASE_ENTRY | COMPLETE => exact .inl ⟨nofun, rfl⟩
  | TEST_RUN =>
    refine .inr ?_
    unfold testRun
    by_cases pass : token = Outcome.PASS.text
    · rw [if_pos pass]
      exact .inl ⟨rfl, .inl pass, _, .inr ⟨.PASS, nofun, rfl⟩, rfl⟩
    rw [if_neg pass]
    by_cases fail : token = Outcome.FAIL.text
    · rw [if_pos fail]
      exact .inl ⟨rfl, .inr (.inl fail), _, .inr ⟨.FAIL, nofun, rfl⟩, rfl⟩
    rw [if_neg fail]
    by_cases skip : token = Outcome.SKIP.text
    · rw [if_pos skip]
      exact .inl ⟨rfl, .inr (.inr skip), _, .inl rfl, rfl⟩
    rw [if_neg skip]
    refine .inr ⟨rfl, ?_, rfl⟩
    rintro (ended | ended | ended)
    · exact pass ended
    · exact fail ended
    · exact skip ended

/-! ### The cache -/

theorem mem_put {entry : TestDescription × Outcome} (listed : entry ∈ put test outcome cache) :
    entry = (test, outcome) ∨ entry ∈ cache := by
  induction cache with
  | nil => exact .inl (mem_singleton.mp listed)
  | cons first cache ih =>
    obtain ⟨other, present⟩ := first
    rw [put] at listed
    split at listed
    · rename_i same
      rcases mem_cons.mp listed with rfl | inside
      · exact .inl (by rw [same])
      · exact .inr (mem_cons_of_mem _ inside)
    · rcases mem_cons.mp listed with rfl | inside
      · exact .inr (mem_cons_self ..)
      · exact (ih inside).imp_right (mem_cons_of_mem _)

theorem put_of_mem (there : test ∈ cache.map (·.1)) :
    (put test outcome cache).map (·.1) = cache.map (·.1) := by
  induction cache with
  | nil => cases there
  | cons first cache ih =>
    obtain ⟨other, present⟩ := first
    rw [put]
    split
    · rfl
    · rename_i different
      rw [map_cons, ih
        ((mem_cons.mp there).resolve_left fun same => different same.symm)]
      rfl

theorem put_of_not_mem (fresh : test ∉ cache.map (·.1)) :
    put test outcome cache = cache ++ [(test, outcome)] := by
  induction cache with
  | nil => rfl
  | cons first cache ih =>
    obtain ⟨different, rest⟩ := not_or.mp (mt mem_cons.mpr fresh)
    rw [put, if_neg (fun same => different same.symm), ih rest]
    rfl

theorem nodup_put (distinct : (cache.map (·.1)).Nodup) :
    ((put test outcome cache).map (·.1)).Nodup := by
  by_cases there : test ∈ cache.map (·.1)
  · rw [put_of_mem there]
    exact distinct
  · rw [put_of_not_mem there, map_append]
    refine nodup_append.mpr ⟨distinct, by simp, ?_⟩
    rintro first listed second single rfl
    have same : first = test := mem_singleton.mp single
    exact there (same ▸ listed)

/-! ### What is counted -/

/-- A cache has a test that was not ended. -/
def hasTimeout (cache : List (TestDescription × Outcome)) : Bool :=
  cache.any fun entry => entry.2 = .TIMEOUT

/-- What holds of a parser after it has read some words: it has registered the words that end no
test, and others, and each of these at most with one further word. -/
structure Registered (parser : Parser) (test_class : Option Line) (seen names : List Line) :
    Prop where
  class_eq : parser.mTestClass = test_class
  count : parser.mTotalTestCount = names.length
  unknown : ∀ token, ¬ Ends token → names.count token = seen.count token
  current : parser.mCurrentParseState = .TEST_RUN →
    ∃ name ∈ names, parser.mCurrentTestId = some ⟨test_class, name⟩
  keys : ∀ entry ∈ parser.mTestResultCache, ∃ name ∈ names, entry.1 = ⟨test_class, name⟩
  distinct : (parser.mTestResultCache.map (·.1)).Nodup
  bound : seen.length + (if parser.mCurrentParseState = .TEST_RUN then 1 else 0) +
    (hasTimeout parser.mTestResultCache).toNat ≤ 2 * names.length

theorem Registered.new (test_class : Option Line) :
    Registered { Parser.new with mTestClass := test_class } test_class [] [] where
  class_eq := rfl
  count := rfl
  unknown := fun _ _ => rfl
  current := nofun
  keys := nofun
  distinct := nodup_nil
  bound := by simp [Parser.new, hasTimeout]

section

variable {test_class : Option Line} {seen names : List Line}

/-- A word begins a test. -/
theorem Registered.register (registered : Registered parser test_class seen names)
    (idle : parser.mCurrentParseState ≠ .TEST_RUN) :
    Registered { parser.registerTest token with mCurrentParseState := .TEST_RUN } test_class
      (seen ++ [token]) (names ++ [token]) where
  class_eq := registered.class_eq
  count := by simp [registerTest, registered.count]
  unknown other unknown := by
    rw [count_append, count_append, registered.unknown other unknown]
  current _ := ⟨token, by simp, by simp [registerTest, registered.class_eq]⟩
  keys entry listed := by
    obtain ⟨name, among, same⟩ := registered.keys entry listed
    exact ⟨name, mem_append_left _ among, same⟩
  distinct := registered.distinct
  bound := by
    have before := registered.bound
    rw [if_neg idle] at before
    simp only [if_true, length_append, length_singleton, registerTest]
    omega

theorem hasTimeout_put (ended : outcome ≠ .TIMEOUT) (cache : List (TestDescription × Outcome)) :
    (hasTimeout (put test outcome cache)).toNat ≤ (hasTimeout cache).toNat := by
  cases there : hasTimeout (put test outcome cache) with
  | false => exact Nat.zero_le _
  | true =>
    obtain ⟨entry, listed, timeout⟩ := any_eq_true.mp there
    rcases mem_put listed with rfl | inside
    · exact absurd (of_decide_eq_true timeout) ended
    · rw [hasTimeout, any_eq_true.mpr ⟨entry, inside, timeout⟩]

/-- A test is put down. -/
theorem Registered.mark (registered : Registered parser test_class seen names)
    (running : parser.mCurrentParseState = .TEST_RUN) (outcome : Outcome) :
    (∀ entry ∈ (parser.mark outcome).mTestResultCache, ∃ name ∈ names,
        entry.1 = ⟨test_class, name⟩) ∧
      ((parser.mark outcome).mTestResultCache.map (·.1)).Nodup := by
  obtain ⟨name, among, current⟩ := registered.current running
  simp only [Parser.mark, current]
  refine ⟨fun entry listed => ?_, nodup_put registered.distinct⟩
  rcases mem_put listed with rfl | inside
  · exact ⟨name, among, rfl⟩
  · exact registered.keys entry inside

theorem mark_fields (parser : Parser) (outcome : Outcome) :
    (parser.mark outcome).mTestClass = parser.mTestClass ∧
      (parser.mark outcome).mTotalTestCount = parser.mTotalTestCount ∧
      (parser.mark outcome).mCurrentParseState = parser.mCurrentParseState := by
  unfold Parser.mark
  split <;> exact ⟨rfl, rfl, rfl⟩

theorem hasTimeout_mark (ended : outcome ≠ .TIMEOUT) (parser : Parser) :
    (hasTimeout (parser.mark outcome).mTestResultCache).toNat ≤
      (hasTimeout parser.mTestResultCache).toNat := by
  unfold Parser.mark
  split
  · exact Nat.le_refl _
  · exact hasTimeout_put ended _

section

variable (registered : Registered parser test_class seen names)
  (running : parser.mCurrentParseState = .TEST_RUN)
include registered running

/-- A word ends a test. -/
theorem Registered.complete (ends : Ends token) {marked : Parser}
    (how : marked = parser ∨ ∃ outcome, outcome ≠ .TIMEOUT ∧ marked = parser.mark outcome) :
    Registered { marked with mCurrentParseState := .COMPLETE } test_class (seen ++ [token])
      names := by
  have before := registered.bound
  rw [if_pos running] at before
  have fields : marked.mTestClass = parser.mTestClass ∧
      marked.mTotalTestCount = parser.mTotalTestCount ∧
      (∀ entry ∈ marked.mTestResultCache, ∃ name ∈ names, entry.1 = ⟨test_class, name⟩) ∧
      (marked.mTestResultCache.map (·.1)).Nodup ∧
      (hasTimeout marked.mTestResultCache).toNat ≤
        (hasTimeout parser.mTestResultCache).toNat := by
    rcases how with rfl | ⟨outcome, ended, rfl⟩
    · exact ⟨rfl, rfl, registered.keys, registered.distinct, Nat.le_refl _⟩
    · obtain ⟨keys, distinct⟩ := registered.mark running outcome
      obtain ⟨sameClass, sameCount, _⟩ := mark_fields parser outcome
      exact ⟨sameClass, sameCount, keys, distinct, hasTimeout_mark ended parser⟩
  obtain ⟨sameClass, sameCount, keys, distinct, timeouts⟩ := fields
  exact {
    class_eq := sameClass.trans registered.class_eq
    count := sameCount.trans registered.count
    unknown := fun other unknown => by
      have different : token ≠ other := fun same => unknown (same ▸ ends)
      rw [count_append, count_singleton, if_neg (by simpa using different),
        Nat.add_zero, registered.unknown other unknown]
    current := nofun
    keys := keys
    distinct := distinct
    bound := by
      rw [if_neg (by simp), length_append, length_singleton]
      dsimp only
      omega }

/-- A word that ends no test begins one. -/
theorem Registered.abandon :
    Registered { parser.markTestTimeout.registerTest token with mCurrentParseState := .TEST_RUN }
      test_class (seen ++ [token]) (names ++ [token]) where
  class_eq := (mark_fields parser .TIMEOUT).1.trans registered.class_eq
  count := by
    rw [length_append, ← registered.count, ← (mark_fields parser .TIMEOUT).2.1]
    rfl
  unknown other unknown := by
    rw [count_append, count_append, registered.unknown other unknown]
  current _ := by
    refine ⟨token, by simp, ?_⟩
    rw [← registered.class_eq, ← (mark_fields parser .TIMEOUT).1]
    rfl
  keys entry listed := by
    obtain ⟨name, among, same⟩ := (registered.mark running .TIMEOUT).1 entry listed
    exact ⟨name, mem_append_left _ among, same⟩
  distinct := (registered.mark running .TIMEOUT).2
  bound := by
    have before := registered.bound
    rw [if_pos running] at before
    have timeouts := Bool.toNat_le (hasTimeout parser.markTestTimeout.mTestResultCache)
    simp only [if_true, length_append, length_singleton, registerTest]
    omega

end

theorem Registered.take (registered : Registered parser test_class seen names) (token : Line) :
    ∃ names, Registered (parser.take token) test_class (seen ++ [token]) names := by
  rcases take_cases parser token with
    ⟨idle, taken⟩ | ⟨running, ends, marked, how, taken⟩ | ⟨running, _, taken⟩
  · exact ⟨_, taken ▸ registered.register idle⟩
  · exact ⟨_, taken ▸ registered.complete running ends how⟩
  · exact ⟨_, taken ▸ registered.abandon running⟩

theorem Registered.run (registered : Registered parser test_class seen names)
    (words : List Line) :
    ∃ names, Registered (words.foldl Parser.take parser) test_class (seen ++ words) names := by
  induction words generalizing parser seen names with
  | nil => exact ⟨names, by rwa [append_nil]⟩
  | cons token words ih =>
    obtain ⟨next, taken⟩ := registered.take token
    have further := ih taken
    rwa [append_assoc] at further

end

/-- A test that still runs is put down. -/
def finish (parser : Parser) : Parser :=
  if parser.mCurrentParseState = .TEST_RUN then parser.markTestTimeout else parser

/-- What holds at the end. -/
theorem Registered.finished {test_class : Option Line} {seen names : List Line}
    (registered : Registered parser test_class seen names) :
    parser.finish.mTotalTestCount = names.length ∧
      (∀ entry ∈ parser.finish.mTestResultCache, ∃ name ∈ names, entry.1 = ⟨test_class, name⟩) ∧
      (parser.finish.mTestResultCache.map (·.1)).Nodup ∧
      seen.length + (hasTimeout parser.finish.mTestResultCache).toNat ≤ 2 * names.length := by
  have bound := registered.bound
  unfold finish
  split
  · rename_i running
    obtain ⟨keys, distinct⟩ := registered.mark running .TIMEOUT
    refine ⟨(mark_fields parser .TIMEOUT).2.1.trans registered.count, keys, distinct, ?_⟩
    rw [if_pos running] at bound
    have timeouts := Bool.toNat_le (hasTimeout parser.markTestTimeout.mTestResultCache)
    omega
  · rename_i idle
    rw [if_neg idle] at bound
    exact ⟨registered.count, registered.keys, registered.distinct, by omega⟩

end Parser

/-! ## What is reported -/

/-- The parser at the end of a log. -/
def Log.parser (log : Log) : Parser :=
  ((tokens log.lines).foldl Parser.take
    { Parser.new with mTestClass := some log.test_class.text }).finish

theorem processNewLines_log (runtime : Runtime) (log : Log) :
    processNewLines runtime log.lines = some (completeTestRun runtime log.parser
      (elapsedTime runtime log.lines)) := by
  rw [Log.parser, ← Parser.parseLines_eq, Log.lines, cons_append, processNewLines,
    testClass_header]
  rfl

/-- The reports can be told apart. -/
theorem report_injective {first second : List (TestDescription × Outcome)} {start finish : Int}
    (same : first.flatMap report ++ [.testRunEnded start] =
      second.flatMap report ++ [.testRunEnded finish]) : first = second := by
  induction first generalizing second with
  | nil =>
    cases second with
    | nil => rfl
    | cons entry second =>
      obtain ⟨test, outcome⟩ := entry
      cases outcome <;> simp [report] at same
  | cons entry first ih =>
    obtain ⟨test, outcome⟩ := entry
    cases second with
    | nil => cases outcome <;> simp [report] at same
    | cons other second =>
      obtain ⟨otherTest, otherOutcome⟩ := other
      have parts : test = otherTest ∧ outcome = otherOutcome ∧
          first.flatMap report ++ [.testRunEnded start] =
            second.flatMap report ++ [.testRunEnded finish] := by
        cases outcome <;> cases otherOutcome <;> simp_all [report]
      obtain ⟨rfl, rfl, rest⟩ := parts
      rw [ih rest]

theorem countP_report (reports : List (TestDescription × Outcome)) :
    (reports.flatMap report).countP Event.isTestStarted = reports.length := by
  induction reports with
  | nil => rfl
  | cons entry reports ih =>
    obtain ⟨test, outcome⟩ := entry
    rw [flatMap_cons, countP_append, ih, length_cons, Nat.add_comm]
    congr 1
    cases outcome <;> rfl

theorem reported_iff (runtime : Runtime) (log : Log) :
    Reported runtime log ↔ log.parser.mTestResultCache.Perm log.expected ∧
      log.parser.mTotalTestCount = log.parser.mTestResultCache.length := by
  have perm := runtime.entrySet_perm log.parser.mTestResultCache
  unfold Reported
  rw [processNewLines_log]
  have counted : ∀ name count elapsed, ∀ reports : List (TestDescription × Outcome),
      (Event.testRunStarted name count :: reports.flatMap report ++
        [Event.testRunEnded elapsed]).countP Event.isTestStarted = reports.length := by
    intro name count elapsed reports
    rw [cons_append, countP_cons, countP_append, countP_report]
    rfl
  constructor
  · rintro ⟨_, runName, testCount, reports, elapsed, done, rfl, expected, number⟩
    rw [counted] at number
    simp only [completeTestRun, Option.some.injEq, cons_append, List.cons.injEq,
      Event.testRunStarted.injEq] at done
    obtain ⟨⟨_, rfl⟩, same⟩ := done
    obtain rfl := report_injective same
    exact ⟨perm.symm.trans expected, number.trans perm.length_eq⟩
  · rintro ⟨expected, number⟩
    refine ⟨_, _, _, _, _, rfl, rfl, perm.trans expected, ?_⟩
    rw [completeTestRun, counted, number, perm.length_eq]

/-! ## Logs that are not readable -/

/-- The words of the result lines. -/
def Log.results (log : Log) : List Line :=
  log.executions.filterMap fun execution => execution.result.map (·.2.outcome.text)

theorem tokens_execution :
    tokens execution.lines = execution.test_name.text :: tokens execution.during ++
      (execution.result.map (·.2.outcome.text)).toList ++ tokens execution.afterwards := by
  have result : tokens (execution.result.map execution.resultLine).toList =
      (execution.result.map (·.2.outcome.text)).toList := by
    cases execution.result with
    | none => rfl
    | some written =>
      exact tokens_marked (mark_resultLine execution written)
        (lastToken_resultLine execution written) []
  rw [Execution.lines, tokens_append, tokens_append,
    tokens_marked (mark_beginLine execution) (lastToken_beginLine execution), result]

/-- The words that are read are the names, the results and those of other lines. -/
theorem Log.tokens_perm :
    (tokens log.lines).Perm (log.names ++ log.results ++ tokens log.others) := by
  have executed : ∀ executions : List Execution,
      (tokens (executions.flatMap Execution.lines)).Perm
        (executions.map (·.test_name.text) ++
          executions.filterMap (fun execution => execution.result.map (·.2.outcome.text)) ++
          tokens (executions.flatMap fun execution =>
            execution.during ++ execution.afterwards)) := by
    intro executions
    induction executions with
    | nil => exact .refl _
    | cons execution executions ih =>
      rw [perm_iff_count] at ih ⊢
      intro token
      have rest := ih token
      simp only [flatMap_cons, tokens_append, tokens_execution, map_cons,
        filterMap_cons, count_append, count_cons, cons_append] at rest ⊢
      cases execution.result with
      | none =>
        simp only [map_none, toList_none, count_nil]
        omega
      | some written =>
        simp only [map_some, toList_some, count_cons, count_nil]
        omega
  have whole := executed log.executions
  rw [perm_iff_count] at whole ⊢
  intro token
  have counted := whole token
  rw [count_append, count_append] at counted
  rw [Log.lines, Log.others, tokens_append, tokens_append, count_append, count_append,
    count_append, count_append, Log.names, Log.results]
  omega

/-- Every execution has a result, or the last test is expected to have none. -/
theorem Log.length_le_results (expected : log.parser.mTestResultCache.Perm log.expected) :
    log.executions.length ≤ log.results.length +
      (Parser.hasTimeout log.parser.mTestResultCache).toNat := by
  rcases eq_nil_or_concat log.executions with none | ⟨earlier, last, executions⟩
  · rw [none]
    exact Nat.zero_le _
  rw [concat_eq_append] at executions
  have all : ∀ execution ∈ earlier, execution.result.isSome := by
    have finished := log.finished
    rwa [executions, dropLast_concat] at finished
  have results : log.results.length = earlier.length +
      (last.result.map (·.2.outcome.text)).toList.length := by
    rw [Log.results, executions, filterMap_append, length_append,
      filterMap_length_eq_length.mpr (by simpa using all)]
    cases found : last.result <;> simp [found]
  rw [results, executions, length_append, length_singleton]
  cases result : last.result with
  | some written => simp
  | none =>
    have timeout : log.outcome last.test_name.text = .TIMEOUT := by
      rw [Log.outcome, executions, filter_append]
      simp [Execution.outcome, result]
    have listed : (log.test last.test_name.text, Outcome.TIMEOUT) ∈ log.expected := by
      refine mem_map.mpr ⟨last.test_name.text, mem_dedup.mpr ?_, by rw [timeout]⟩
      rw [Log.names, executions]
      simp
    have found : Parser.hasTimeout log.parser.mTestResultCache = true :=
      any_eq_true.mpr ⟨_, expected.mem_iff.mpr listed, by simp⟩
    rw [found]
    simp

/-- Where the tests are reported, none is run twice, all results end a test, and no other line is
marked. -/
theorem Log.of_reported (expected : log.parser.mTestResultCache.Perm log.expected)
    (number : log.parser.mTotalTestCount = log.parser.mTestResultCache.length) :
    log.names.Nodup ∧ (∀ result ∈ log.results, Ends result) ∧
      ∀ line ∈ log.others, ¬ TEST_CASE <:+: line := by
  obtain ⟨registered, run⟩ := (Parser.Registered.new (some log.test_class.text)).run
    (tokens log.lines)
  obtain ⟨count, keys, distinct, bound⟩ := run.finished
  rw [nil_append] at bound
  -- The registered words are the executed tests, each of them once.
  have same : registered.Perm log.names.dedup := by
    have subset : log.parser.mTestResultCache.map (·.1) ⊆ registered.map log.test := by
      intro test listed
      obtain ⟨entry, among, rfl⟩ := mem_map.mp listed
      obtain ⟨name, inside, equal⟩ := keys entry among
      exact mem_map.mpr ⟨name, inside, equal.symm⟩
    have perm := (subperm_of_subset distinct subset).perm_of_length_le (by
      rw [length_map, length_map, ← count]
      exact number.le)
    have executed := perm.symm.trans (expected.map (·.1))
    rw [Log.expected, map_map] at executed
    have names := executed.map TestDescription.testName
    simpa [Log.test, Function.comp_def] using names
  have perm := log.tokens_perm
  have once : ∀ token, ¬ Ends token → token ∉ log.results ++ tokens log.others := by
    intro token unknown listed
    have counted := run.unknown token unknown
    rw [nil_append, same.count_eq, perm.count_eq, append_assoc, count_append]
      at counted
    have positive := count_pos_iff.mpr listed
    have executed : token ∈ log.names :=
      mem_dedup.mp (count_pos_iff.mp (by omega))
    have also := count_pos_iff.mpr executed
    have single := nodup_iff_count.mp (nodup_dedup log.names) token
    omega
  have lengths := perm.length_eq
  have executions : log.names.length = log.executions.length := length_map ..
  rw [length_append, length_append] at lengths
  have enough := log.length_le_results expected
  have shorter := (dedup_sublist log.names).length_le
  rw [same.length_eq] at bound
  have nothing : tokens log.others = [] := eq_nil_of_length_eq_zero (by
    unfold Log.parser at enough
    omega)
  refine ⟨?_, fun result listed => ?_, fun line listed marked => ?_⟩
  · refine dedup_eq_self.mp ((dedup_sublist _).eq_of_length ?_)
    unfold Log.parser at enough
    omega
  · by_contra unknown
    exact once result unknown (mem_append_left _ listed)
  · obtain ⟨token, last⟩ := lastToken_of_mark marked
    have found : token ∈ tokens log.others :=
      mem_filterMap.mpr ⟨line, listed, by rw [if_pos marked, last]⟩
    rw [nothing] at found
    cases found

/-! ## Logs whose lines alternate -/

/-- What is put down for an execution. -/
def Execution.entry (test_class : Option Line) (execution : Execution) :
    Option (TestDescription × Outcome) :=
  match execution.result with
  | some (_, .SKIP) => none
  | _ => some (⟨test_class, execution.test_name.text⟩, execution.outcome)

theorem TestResult.of_ends {result : TestResult} (ends : Ends result.outcome.text) :
    result = .PASS ∨ result = .FAIL ∨ result = .SKIP := by
  cases result with
  | PASS => exact .inl rfl
  | FAIL => exact .inr (.inl rfl)
  | SKIP => exact .inr (.inr rfl)
  | ERROR | RETRY =>
    unfold Ends at ends
    exact absurd ends (by decide)

theorem tokens_eq_nil {lines : List Line} (unmarked : ∀ line ∈ lines, ¬ TEST_CASE <:+: line) :
    tokens lines = [] := by
  induction lines with
  | nil => rfl
  | cons line lines ih =>
    obtain ⟨first, rest⟩ := forall_mem_cons.mp unmarked
    rw [tokens_unmarked first, ih rest]

namespace Parser

variable {parser : Parser} {test_class : Option Line}

theorem take_result (running : parser.mCurrentParseState = .TEST_RUN) {test : TestDescription}
    (current : parser.mCurrentTestId = some test)
    (fresh : test ∉ parser.mTestResultCache.map (·.1)) {result : TestResult}
    (ends : Ends result.outcome.text) :
    (parser.take result.outcome.text).mCurrentParseState = .COMPLETE ∧
      (parser.take result.outcome.text).mTestClass = parser.mTestClass ∧
      (parser.take result.outcome.text).mTotalTestCount = parser.mTotalTestCount ∧
      (parser.take result.outcome.text).mTestResultCache = parser.mTestResultCache ++
        (if result = .SKIP then [] else [(test, result.outcome)]) := by
  have different : Outcome.FAIL.text ≠ Outcome.PASS.text ∧
      Outcome.SKIP.text ≠ Outcome.PASS.text ∧ Outcome.SKIP.text ≠ Outcome.FAIL.text := by decide
  rcases result.of_ends ends with rfl | rfl | rfl
  · simp [take, running, testRun, TestResult.outcome, markTestSuccess, mark, current,
      put_of_not_mem fresh]
  · simp [take, running, testRun, TestResult.outcome, markTestFailure, mark, current,
      put_of_not_mem fresh, different]
  · simp [take, running, testRun, TestResult.outcome, different]

/-- The parser follows executions whose results end their tests. -/
theorem run_executions {executions : List Execution} (idle : parser.mCurrentParseState ≠ .TEST_RUN)
    (class_eq : parser.mTestClass = test_class)
    (finished : ∀ execution ∈ executions.dropLast, execution.result.isSome)
    (unmarked : ∀ execution ∈ executions, ∀ line ∈ execution.during ++ execution.afterwards,
      ¬ TEST_CASE <:+: line)
    (ends : ∀ execution ∈ executions, ∀ written ∈ execution.result, Ends written.2.outcome.text)
    (distinct : (executions.map (·.test_name.text)).Nodup)
    (fresh : ∀ execution ∈ executions,
      (⟨test_class, execution.test_name.text⟩ : TestDescription) ∉
        parser.mTestResultCache.map (·.1)) :
    let done := ((tokens (executions.flatMap Execution.lines)).foldl take parser).finish
    done.mTotalTestCount = parser.mTotalTestCount + executions.length ∧
      done.mTestResultCache =
        parser.mTestResultCache ++ executions.filterMap (Execution.entry test_class) := by
  induction executions generalizing parser with
  | nil =>
    have kept : parser.finish = parser := if_neg idle
    exact ⟨congrArg mTotalTestCount kept,
      (congrArg mTestResultCache kept).trans (append_nil _).symm⟩
  | cons execution executions ih =>
    obtain ⟨during, others⟩ := forall_mem_cons.mp unmarked
    obtain ⟨nameFresh, distinctRest⟩ := nodup_cons.mp distinct
    obtain ⟨here, later⟩ := forall_mem_cons.mp fresh
    have quiet := forall_mem_append.mp during
    have begun : parser.take execution.test_name.text =
        { parser.registerTest execution.test_name.text with mCurrentParseState := .TEST_RUN } := by
      unfold take
      cases state : parser.mCurrentParseState with
      | TEST_RUN => exact absurd state idle
      | TEST_CASE_ENTRY => rfl
      | COMPLETE => rfl
    rw [flatMap_cons, tokens_append, tokens_execution, tokens_eq_nil quiet.1,
      tokens_eq_nil quiet.2, append_nil, singleton_append, cons_append,
      foldl_cons, begun]
    cases result : execution.result with
    | none =>
      -- Only the last execution is without a result.
      have last : executions = [] := by
        by_contra more
        rw [dropLast_cons_of_ne_nil more] at finished
        have some_result := finished execution (mem_cons_self ..)
        rw [result] at some_result
        cases some_result
      subst last
      simp [finish, tokens, markTestTimeout, mark, registerTest, class_eq, put_of_not_mem here,
        Execution.entry, result, Execution.outcome]
    | some written =>
      have ended := ends execution (mem_cons_self ..) written result
      obtain ⟨state, sameClass, sameCount, cache⟩ := @take_result
        { parser.registerTest execution.test_name.text with mCurrentParseState := .TEST_RUN } rfl
        ⟨parser.mTestClass, execution.test_name.text⟩ rfl (by rw [class_eq]; exact here)
        written.2 ended
      simp only [map_some, toList_some, singleton_append, foldl_cons]
      generalize ({ parser.registerTest execution.test_name.text with
        mCurrentParseState := .TEST_RUN } : Parser).take written.2.outcome.text = next at *
      have entry : (Execution.entry test_class execution).toList =
          if written.2 = .SKIP then []
          else [(⟨parser.mTestClass, execution.test_name.text⟩, written.2.outcome)] := by
        rw [class_eq]
        obtain ⟨stamp, outcome⟩ := written
        cases outcome <;> simp [Execution.entry, result, Execution.outcome]
      have known : next.mTestResultCache = parser.mTestResultCache ++
          (Execution.entry test_class execution).toList := by
        rw [cache, entry]
        rfl
      have further := @ih next (by rw [state]; nofun) (sameClass.trans class_eq)
        (fun other listed => finished other (by
          cases executions with
          | nil => cases listed
          | cons second rest => exact mem_cons_of_mem _ listed))
        others (fun other listed => ends other (mem_cons_of_mem _ listed)) distinctRest
        (fun other listed inside => by
          rw [known, map_append, mem_append] at inside
          rcases inside with inside | inside
          · exact later other listed inside
          · obtain ⟨found, among, same⟩ := mem_map.mp inside
            have whose : found.1 = ⟨test_class, execution.test_name.text⟩ := by
              rw [entry] at among
              split at among
              · cases among
              · rw [mem_singleton.mp among, class_eq]
            rw [whose] at same
            have names := (TestDescription.mk.inj same).2
            exact nameFresh (mem_map.mpr ⟨other, listed, names.symm⟩))
      obtain ⟨count, done⟩ := further
      refine ⟨?_, ?_⟩
      · rw [count, sameCount, length_cons]
        simp only [registerTest]
        omega
      · rw [done, known, append_assoc, filterMap_cons]
        cases Execution.entry test_class execution <;> rfl

end Parser

theorem Log.parser_eq (distinct : log.names.Nodup) (ends : ∀ result ∈ log.results, Ends result)
    (unmarked : ∀ line ∈ log.others, ¬ TEST_CASE <:+: line) :
    log.parser.mTotalTestCount = log.executions.length ∧
      log.parser.mTestResultCache =
        log.executions.filterMap (Execution.entry (some log.test_class.text)) := by
  obtain ⟨before, within⟩ := forall_mem_append.mp unmarked
  have executed : tokens log.lines = tokens (log.executions.flatMap Execution.lines) := by
    rw [Log.lines, tokens_append, tokens_eq_nil before, nil_append]
  have run := @Parser.run_executions
    { Parser.new with mTestClass := some log.test_class.text } (some log.test_class.text)
    log.executions (by simp [Parser.new]) rfl log.finished
    (fun execution listed line inside => within line (mem_flatMap.mpr ⟨_, listed, inside⟩))
    (fun execution listed written found => ends _ (mem_filterMap.mpr
      ⟨execution, listed, by rw [mem_def.mp found]; rfl⟩))
    distinct (fun _ _ => by simp [Parser.new])
  rw [Log.parser, executed]
  simpa [Parser.new] using run

/-- Of a list without repetitions each element is found alone. -/
theorem filter_eq_singleton {executions : List Execution} {execution : Execution}
    (distinct : (executions.map (·.test_name.text)).Nodup) (listed : execution ∈ executions) :
    executions.filter (·.test_name.text = execution.test_name.text) = [execution] := by
  induction executions with
  | nil => cases listed
  | cons first executions ih =>
    obtain ⟨fresh, rest⟩ := nodup_cons.mp distinct
    rcases mem_cons.mp listed with rfl | inside
    · rw [filter_cons, if_pos (by simp), filter_eq_nil_iff.mpr]
      intro other among same
      exact fresh (mem_map.mpr ⟨other, among, of_decide_eq_true same⟩)
    · rw [filter_cons, if_neg, ih rest inside]
      intro same
      exact fresh (mem_map.mpr ⟨execution, inside, (of_decide_eq_true same).symm⟩)

/-- What is expected of a log in which no test is run twice. -/
theorem Log.expected_eq (distinct : log.names.Nodup) :
    log.expected = log.executions.map fun execution =>
      (log.test execution.test_name.text, execution.outcome) := by
  rw [Log.expected, distinct.dedup, Log.names, map_map]
  refine map_congr_left fun execution listed => ?_
  have outcome : log.outcome execution.test_name.text = execution.outcome := by
    rw [Log.outcome, filter_eq_singleton distinct listed]
    rfl
  rw [Function.comp_apply, outcome]

/-- The tests of a log are reported exactly if the log is readable. -/
theorem processNewLines_reports_iff (runtime : Runtime) (log : Log) :
    Reported runtime log ↔ log.Readable := by
  rw [reported_iff]
  constructor
  · rintro ⟨expected, number⟩
    obtain ⟨distinct, ends, unmarked⟩ := log.of_reported expected number
    obtain ⟨count, cache⟩ := log.parser_eq distinct ends unmarked
    refine ⟨distinct, fun execution listed written found => ?_, unmarked⟩
    rw [count, cache] at number
    have some_entry := filterMap_length_eq_length.mp number.symm execution listed
    have ended := ends _ (mem_filterMap.mpr
      ⟨execution, listed, by rw [mem_def.mp found]; rfl⟩)
    rcases written.2.of_ends ended with pass | fail | skip
    · exact .inl pass
    · exact .inr fail
    · obtain ⟨stamp, result⟩ := written
      cases skip
      simp [Execution.entry, mem_def.mp found] at some_entry
  · rintro ⟨distinct, results, unmarked⟩
    have ends : ∀ result ∈ log.results, Ends result := by
      intro result listed
      obtain ⟨execution, among, found⟩ := mem_filterMap.mp listed
      obtain ⟨written, result_eq, rfl⟩ := map_eq_some_iff.mp found
      rcases results execution among written result_eq with pass | fail
      · exact .inl (by rw [pass]; rfl)
      · exact .inr (.inl (by rw [fail]; rfl))
    obtain ⟨count, cache⟩ := log.parser_eq distinct ends unmarked
    have entries : log.parser.mTestResultCache = log.expected := by
      rw [cache, log.expected_eq distinct, ← filterMap_eq_map']
      refine filterMap_congr fun execution listed => ?_
      cases found : execution.result with
      | none => simp [Execution.entry, found, Log.test]
      | some written =>
        obtain ⟨stamp, result⟩ := written
        rcases results execution listed _ found with pass | fail
        · cases pass
          simp [Execution.entry, found, Log.test]
        · cases fail
          simp [Execution.entry, found, Log.test]
    refine ⟨entries ▸ .refl _, ?_⟩
    rw [count, entries, log.expected_eq distinct, length_map]

/-- One test, which is skipped. -/
def skippedLog : Log where
  test_class := ⟨"SampleTest".toList, by decide, by decide⟩
  stamp := "06-06 12:00:00.000 INFO".toList
  before := []
  executions := [{
    test_name := ⟨"testOne".toList, by decide, by decide⟩
    started := ⟨"06-06 12:00:01.000 INFO".toList, "1/1".toList⟩
    during := []
    result := some (⟨"06-06 12:00:02.000 INFO".toList, "1/1".toList⟩, .SKIP)
    afterwards := [] }]
  finished := by simp

/-- A library that gives entries in the order in which they came, and reads no times. -/
def Runtime.plain : Runtime where
  entrySet := id
  entrySet_perm := fun _ => .refl _
  parseTime := fun _ => none

/-- A skipped test is announced and then not reported. -/
theorem processNewLines_skipped :
    processNewLines Runtime.plain skippedLog.lines =
        some [.testRunStarted (some "testOne".toList) 1, .testRunEnded 0] ∧
      ¬ Reported Runtime.plain skippedLog := by
  have events : processNewLines Runtime.plain skippedLog.lines =
      some [.testRunStarted (some "testOne".toList) 1, .testRunEnded 0] := by
    decide +kernel
  refine ⟨events, ?_⟩
  rintro ⟨_, runName, testCount, reports, elapsed, done, shape, _, number⟩
  rw [events] at done
  cases done
  rw [cons_append, List.cons.injEq, Event.testRunStarted.injEq] at shape
  rw [← shape.1.2] at number
  exact absurd number (by decide)

end Vts.Harness
