import Mathlib.Data.Bool.AllAny
import Vts.Runner.BinaryTest

/-!
# Listing gtest cases

`GtestBinaryTest.CreateTestCase` in `testcases/template/gtest_binary_test/gtest_binary_test.py`:
a gtest binary lists its tests, and a test case is made for each of them.

The shell is given: it answers a list of commands. What is logged is left out.
-/

namespace Vts.Runner.BinaryTest

open List

open Vts.Python (Text isSpace lstrip rstrip strip split firstPiece split_append_byte
  split_of_not_mem)

/-- A `BinaryTestCase` or a `GtestTestCase`. All settings are stripped when they are set, but the
path of the profiling libraries. -/
structure TestCase where
  test_suite : Text
  test_name : Text
  path : Text
  tag : Text
  working_directory : Option Text
  ld_library_path : Option Text
  profiling_library_path : Option Text
  cmd : Text
  envp : Text
  args : Text
deriving DecidableEq

/-- The constructor, where `cmd` is left out. -/
def TestCase.init (test_suite test_name path tag : Text)
    (working_directory ld_library_path profiling_library_path : Option Text) (envp args : Text) :
    TestCase where
  test_suite := strip test_suite
  test_name := strip test_name
  path := strip path
  tag := strip tag
  working_directory := working_directory.map strip
  ld_library_path := ld_library_path.map strip
  profiling_library_path := profiling_library_path
  cmd := []
  envp := strip envp
  args := strip args

/-- A text behind another one, unless it is empty. -/
def labelled (label : Text) (ending : Text) (text : Text) : Text :=
  if text.isEmpty then [] else label ++ text ++ ending

/-- `BinaryTestCase.GetRunCommand`. -/
def TestCase.GetRunCommand (self : TestCase) : Text :=
  let working_directory := labelled (bytes "cd ") (bytes " && ") (self.working_directory.getD [])
  let envp := labelled (bytes "env ") (bytes " ") self.envp
  let ld_library_path :=
    labelled (bytes "LD_LIBRARY_PATH=") (bytes " ") (self.ld_library_path.getD [])
  let envp :=
    if ld_library_path.isEmpty then envp
    else if envp.isEmpty then bytes "env " ++ ld_library_path ++ bytes " "
    else envp ++ ld_library_path
  let args := labelled (bytes " ") [] self.args
  working_directory ++ envp ++ (if self.cmd.isEmpty then self.path else self.cmd) ++ args

/-- `full_name`, which is not set otherwise. -/
def TestCase.full_name (self : TestCase) : Text :=
  if self.test_suite.isEmpty then self.test_name
  else self.test_suite ++ 46 :: self.test_name

/-- The settings of a test class that test cases take over, by tag. -/
structure Settings where
  working_directory : List (Text × Text)
  envp : List (Text × Text)
  args : List (Text × Text)
  ld_library_path : List (Text × Text)
  profiling_library_path : List (Text × Text)

/-- What the shell answers. -/
structure CommandResults where
  EXIT_CODE : List Int
  STDOUT : List Text

/-- The exceptions of `CreateTestCase`. -/
inductive ListingError where
  | TestFailure
  | IndexError
deriving DecidableEq

/-- The test case of a path and a tag with the names given. -/
def Settings.testCase (self : Settings) (path tag test_suite test_name : Text) : TestCase :=
  .init test_suite test_name path tag (self.working_directory.lookup tag)
    (self.ld_library_path.lookup tag) (self.profiling_library_path.lookup tag)
    ((self.envp.lookup tag).getD []) ((self.args.lookup tag).getD [])

/-- The test case that lists the tests of a binary. -/
def Settings.list_test_case (self : Settings) (path tag : Text) : TestCase :=
  .init (bytes "gtest_list_tests") path path tag (self.working_directory.lookup tag)
    (self.ld_library_path.lookup tag) (self.profiling_library_path.lookup tag)
    ((self.envp.lookup tag).getD []) ((self.args.lookup tag).getD [] ++ bytes " --gtest_list_tests")

/-- `test_suite[:-1]` for a name with a dot behind it. -/
def dropDot (test_suite : Text) : Text :=
  if test_suite.getLast? = some 46 then test_suite.dropLast else test_suite

/-- One round of the loop over the lines, with the last suite and the test cases so far. -/
def readLine (self : Settings) (path tag : Text) (state : Text × List TestCase) (line : Text) :
    Text × List TestCase :=
  let (test_suite, test_cases) := state
  if (strip line).length = 0 then (test_suite, test_cases)
  else if [32].isPrefixOf line then
    let test_name := strip (firstPiece [35] line)
    (test_suite, test_cases ++ [self.testCase path tag test_suite test_name])
  else (dropDot (strip line), test_cases)

/-- `cmd`. -/
def Settings.listCommands (self : Settings) (path tag : Text) : List Text :=
  [bytes "chmod 755 " ++ path, (self.list_test_case path tag).GetRunCommand]

def CreateTestCase (self : Settings) (Execute : List Text → CommandResults) (path tag : Text) :
    Except ListingError (List TestCase) :=
  let cmd_results := Execute (self.listCommands path tag)
  if cmd_results.EXIT_CODE.any (· ≠ 0) then .error .TestFailure
  else match cmd_results.STDOUT[1]? with
    | none => .error .IndexError
    | some output => .ok ((split [10] output).foldl (readLine self path tag) ([], [])).2

/-! ## Listings -/

/-- White space that stays on its line. -/
def Blank (text : Text) : Prop := ∀ byte ∈ text, isSpace byte ∧ byte ≠ 10

/-- The name of a suite or a test. -/
structure Name where
  text : Text
  some_byte : text ≠ []
  solid : ∀ byte ∈ text, isSpace byte = false
  clean : 35 ∉ text

/-- A comment with the white space before it. -/
structure Comment where
  gap : Text
  blank : Blank gap
  text : Text
  one_line : 10 ∉ text

/-- What stands behind a name. -/
def commentText : Option Comment → Text
  | none => []
  | some comment => comment.gap ++ 35 :: comment.text

/-- The line of a test: the name is indented. -/
structure ListedTest where
  indent : Text
  blank : Blank indent
  name : Name
  comment : Option Comment

def ListedTest.line (test : ListedTest) : Text :=
  32 :: (test.indent ++ test.name.text ++ commentText test.comment)

/-- A suite with its tests. -/
structure ListedSuite where
  name : Name
  comment : Option Comment
  tests : List ListedTest

def ListedSuite.line (suite : ListedSuite) : Text :=
  suite.name.text ++ 46 :: commentText suite.comment

def ListedSuite.lines (suite : ListedSuite) : List Text :=
  suite.line :: suite.tests.map ListedTest.line

/-- The output of `--gtest_list_tests`. -/
def listing (suites : List ListedSuite) : Text :=
  (suites.flatMap ListedSuite.lines).flatMap fun line => line ++ [10]

/-- The names of all tests in order, as the filter of gtest takes them. -/
def listedNames (suites : List ListedSuite) : List (Text × Text) :=
  suites.flatMap fun suite => suite.tests.map fun test => (suite.name.text, test.name.text)

/-- The answer of the shell to the two commands: both succeed, and the second one has an output. -/
def Answers (results : CommandResults) (output : Text) : Prop :=
  (∀ code ∈ results.EXIT_CODE, code = 0) ∧ results.STDOUT[1]? = some output

/-- The test cases are those of the listing. -/
def Lists (created : Except ListingError (List TestCase)) (suites : List ListedSuite) : Prop :=
  ∃ test_cases, created = .ok test_cases ∧
    test_cases.map (fun test_case => (test_case.test_suite, test_case.test_name)) =
      listedNames suites

/-! ## Stripping -/

theorem strip_padded {front text back : Text} (before : ∀ byte ∈ front, isSpace byte)
    (solid : ∀ byte ∈ text, isSpace byte = false) (behind : ∀ byte ∈ back, isSpace byte) :
    strip (front ++ text ++ back) = text := by
  have left : lstrip (front ++ text ++ back) = lstrip (text ++ back) := by
    rw [lstrip, append_assoc, dropWhile_append_of_pos before]
    rfl
  have right (kept : Text) : rstrip (kept ++ back) = rstrip kept := by
    rw [rstrip, List.rdropWhile, reverse_append, dropWhile_append_of_pos]
    · rfl
    · exact fun byte listed => behind byte (mem_reverse.mp listed)
  rw [strip, left]
  cases text with
  | nil =>
    rw [nil_append, lstrip, dropWhile_eq_nil_iff.mpr behind]
    rfl
  | cons first text =>
    have start : lstrip (first :: text ++ back) = first :: text ++ back := by
      apply Python.lstrip_eq_self
      intro byte isFirst
      cases isFirst
      exact solid first mem_cons_self
    rw [start, right, rstrip, rdropWhile_eq_self_iff]
    intro present last
    rw [solid _ (getLast_mem present)] at last
    cases last

theorem strip_solid {text : Text} (solid : ∀ byte ∈ text, isSpace byte = false) :
    strip text = text := by
  have padded := @strip_padded [] text [] (by simp) solid (by simp)
  rwa [nil_append, append_nil] at padded

theorem mem_strip {text : Text} {byte : UInt8} (listed : byte ∈ text)
    (solid : isSpace byte = false) : byte ∈ strip text := by
  have stays {kept : Text} (inside : byte ∈ kept) : byte ∈ lstrip kept := by
    rw [← takeWhile_append_dropWhile (p := isSpace) (l := kept)] at inside
    rcases mem_append.mp inside with dropped | left
    · have spacious := mem_takeWhile_imp dropped
      rw [solid] at spacious
      cases spacious
    · exact left
  have reversed : byte ∈ lstrip (lstrip text).reverse := stays (mem_reverse.mpr (stays listed))
  rw [strip, rstrip, List.rdropWhile]
  exact mem_reverse.mpr reversed

/-! ## Lines -/

theorem Name.no_newline (name : Name) : 10 ∉ name.text := by
  intro listed
  have solid := name.solid 10 listed
  revert solid
  decide

theorem commentText_no_newline (comment : Option Comment) : 10 ∉ commentText comment := by
  cases comment with
  | none => simp [commentText]
  | some comment =>
    have gap : 10 ∉ comment.gap := fun listed => (comment.blank 10 listed).2 rfl
    simp [commentText, gap, comment.one_line]

/-- A line does not go on behind its newline. -/
theorem ListedSuite.no_newline {suite : ListedSuite} {line : Text} (listed : line ∈ suite.lines) :
    10 ∉ line := by
  rcases mem_cons.mp listed with rfl | isTest
  · simp [ListedSuite.line, suite.name.no_newline, commentText_no_newline]
  · obtain ⟨test, -, rfl⟩ := mem_map.mp isTest
    have indent : 10 ∉ test.indent := fun listed => (test.blank 10 listed).2 rfl
    simp [ListedTest.line, indent, test.name.no_newline, commentText_no_newline]

/-- The lines of a text that ends with a newline, and an empty one. -/
theorem split_unlines {lines : List Text} (oneLine : ∀ line ∈ lines, 10 ∉ line) :
    split [10] (lines.flatMap fun line => line ++ [10]) = lines ++ [[]] := by
  induction lines with
  | nil => rfl
  | cons line lines ih =>
    obtain ⟨here, later⟩ := forall_mem_cons.mp oneLine
    rw [flatMap_cons, append_assoc, singleton_append, split_append_byte,
      split_of_not_mem here, ih later]
    rfl

/-- What stands before the first number sign. -/
theorem firstPiece_append (front rest : Text) (clean : 35 ∉ front) :
    firstPiece [35] (front ++ 35 :: rest) = front := by
  simp only [firstPiece, split_append_byte, split_of_not_mem clean, singleton_append,
    head_cons]

/-- The name of a test is read without indentation and comment. -/
theorem ListedTest.name_read (test : ListedTest) :
    strip (firstPiece [35] test.line) = test.name.text := by
  have indent : ∀ byte ∈ 32 :: test.indent, isSpace byte := by
    exact forall_mem_cons.mpr ⟨by decide, fun byte listed => (test.blank byte listed).1⟩
  have clean (gap : Text) (blank : ∀ byte ∈ gap, isSpace byte) :
      35 ∉ 32 :: test.indent ++ test.name.text ++ gap := by
    have notSpace : ¬ isSpace 35 := by decide
    have inIndent : 35 ∉ 32 :: test.indent := fun listed => notSpace (indent _ listed)
    have inGap : 35 ∉ gap := fun listed => notSpace (blank _ listed)
    rw [mem_append, mem_append]
    rintro ((listed | listed) | listed)
    · exact inIndent listed
    · exact test.name.clean listed
    · exact inGap listed
  cases commented : test.comment with
  | none =>
    have piece : firstPiece [35] test.line = 32 :: test.indent ++ test.name.text ++ [] := by
      have whole : test.line = 32 :: test.indent ++ test.name.text ++ [] := by
        rw [ListedTest.line, commented]
        rfl
      simp only [whole, firstPiece, split_of_not_mem (clean [] (by simp)), head_cons]
    rw [piece]
    exact strip_padded indent test.name.solid (by simp)
  | some comment =>
    have blank : ∀ byte ∈ comment.gap, isSpace byte := fun byte listed =>
      (comment.blank byte listed).1
    have whole : test.line =
        32 :: test.indent ++ test.name.text ++ comment.gap ++ 35 :: comment.text := by
      rw [ListedTest.line, commented]
      simp [commentText]
    rw [whole, firstPiece_append _ _ (clean comment.gap blank)]
    exact strip_padded indent test.name.solid blank

theorem ListedTest.strip_line (test : ListedTest) : (strip test.line).length ≠ 0 := by
  obtain ⟨byte, listed⟩ := exists_mem_of_ne_nil _ test.name.some_byte
  have inLine : byte ∈ test.line := by simp [ListedTest.line, listed]
  have stays : byte ∈ strip test.line := mem_strip inLine (test.name.solid byte listed)
  exact length_pos_of_mem stays |>.ne'

/-- The suite that its line leaves to the lines of its tests. -/
def ListedSuite.readName (suite : ListedSuite) : Text := dropDot (strip suite.line)

theorem ListedSuite.readName_plain {suite : ListedSuite} (plain : suite.comment = none) :
    suite.readName = suite.name.text := by
  have solid : ∀ byte ∈ suite.name.text ++ [46], isSpace byte = false := by
    intro byte listed
    rcases mem_append.mp listed with inName | isDot
    · exact suite.name.solid byte inName
    · rw [mem_singleton.mp isDot]
      decide
  simp [ListedSuite.readName, ListedSuite.line, plain, commentText, strip_solid solid, dropDot]

/-- A comment stays in the name that is read: its number sign is no white space and no dot. -/
theorem ListedSuite.mem_readName {suite : ListedSuite} (commented : suite.comment ≠ none) :
    35 ∈ suite.readName := by
  obtain ⟨comment, present⟩ := Option.ne_none_iff_exists'.mp commented
  have stays : 35 ∈ strip suite.line :=
    mem_strip (by simp [ListedSuite.line, present, commentText]) (by decide)
  rw [ListedSuite.readName, dropDot]
  split
  · rename_i dotted
    obtain ⟨front, ends⟩ := List.getLast?_eq_some_iff.mp dotted
    rw [ends] at stays
    rw [ends, dropLast_concat]
    simpa using stays
  · exact stays

/-! ## The whole listing -/

section Reading

variable (self : Settings) (path tag : Text)

theorem readLine_suite (suite : ListedSuite) (test_suite : Text) (test_cases : List TestCase) :
    readLine self path tag (test_suite, test_cases) suite.line =
      (suite.readName, test_cases) := by
  obtain ⟨byte, rest, named⟩ := exists_cons_of_ne_nil suite.name.some_byte
  have solid : isSpace byte = false := suite.name.solid byte (by simp [named])
  have inLine : byte ∈ suite.line := by simp [ListedSuite.line, named]
  have some_byte : (strip suite.line).length ≠ 0 :=
    (length_pos_of_mem (mem_strip inLine solid)).ne'
  have noIndent : ¬ [32].isPrefixOf suite.line := by
    rw [ListedSuite.line, named]
    intro starts
    have same : 32 = byte := by simpa [List.isPrefixOf] using starts
    subst same
    revert solid
    decide
  rw [readLine]
  dsimp only
  rw [if_neg some_byte, if_neg noIndent, ListedSuite.readName]

theorem readLine_test (test : ListedTest) (test_suite : Text) (test_cases : List TestCase) :
    readLine self path tag (test_suite, test_cases) test.line =
      (test_suite, test_cases ++ [self.testCase path tag test_suite test.name.text]) := by
  have indented : [32].isPrefixOf test.line := by simp [ListedTest.line, List.isPrefixOf]
  rw [readLine]
  dsimp only
  rw [if_neg test.strip_line, if_pos indented, test.name_read]

/-- The test cases that the lines of a suite give. -/
def ListedSuite.created (suite : ListedSuite) : List TestCase :=
  suite.tests.map fun test => self.testCase path tag suite.readName test.name.text

theorem foldl_tests (tests : List ListedTest) (test_suite : Text) (test_cases : List TestCase) :
    (tests.map ListedTest.line).foldl (readLine self path tag) (test_suite, test_cases) =
      (test_suite, test_cases ++
        tests.map fun test => self.testCase path tag test_suite test.name.text) := by
  induction tests generalizing test_cases with
  | nil => simp
  | cons test tests ih =>
    rw [map_cons, foldl_cons, readLine_test, ih, append_assoc]
    rfl

/-- The suite of a line holds up to the next one. -/
theorem foldl_suites (suites : List ListedSuite) (test_suite : Text)
    (test_cases : List TestCase) :
    ((suites.flatMap ListedSuite.lines).foldl (readLine self path tag)
      (test_suite, test_cases)).2 =
        test_cases ++ suites.flatMap (ListedSuite.created self path tag) := by
  induction suites generalizing test_suite test_cases with
  | nil => simp
  | cons suite suites ih =>
    rw [flatMap_cons, foldl_append, ListedSuite.lines, foldl_cons, readLine_suite,
      foldl_tests, ih, append_assoc]
    rfl

/-- What is created for a listing: a test case for each test, with the suite as it is read. -/
theorem CreateTestCase_listing {Execute : List Text → CommandResults} {suites : List ListedSuite}
    (answers : Answers (Execute (self.listCommands path tag)) (listing suites)) :
    CreateTestCase self Execute path tag =
      .ok (suites.flatMap (ListedSuite.created self path tag)) := by
  obtain ⟨succeeded, output⟩ := answers
  have oneLine : ∀ line ∈ suites.flatMap ListedSuite.lines, 10 ∉ line := by
    intro line listed
    obtain ⟨suite, -, inSuite⟩ := mem_flatMap.mp listed
    exact suite.no_newline inSuite
  have blank (state : Text × List TestCase) : readLine self path tag state [] = state := rfl
  have noFailure : ¬ (Execute (self.listCommands path tag)).EXIT_CODE.any (· ≠ 0) := by
    simpa using succeeded
  rw [CreateTestCase, if_neg noFailure, output]
  dsimp only
  rw [listing, split_unlines oneLine, foldl_concat, blank, foldl_suites, nil_append]

end Reading

/-- The test cases are those of the listing unless a suite with a test has a comment. -/
theorem CreateTestCase_lists_iff (self : Settings) (Execute : List Text → CommandResults)
    (path tag : Text) (suites : List ListedSuite)
    (answers : Answers (Execute (self.listCommands path tag)) (listing suites)) :
    Lists (CreateTestCase self Execute path tag) suites ↔
      ∀ suite ∈ suites, suite.comment ≠ none → suite.tests = [] := by
  rw [CreateTestCase_listing self path tag answers]
  have names : (suites.flatMap (ListedSuite.created self path tag)).map
      (fun test_case => (test_case.test_suite, test_case.test_name)) =
      suites.flatMap fun suite => suite.tests.map fun test =>
        (strip suite.readName, strip test.name.text) := by
    rw [map_flatMap]
    apply flatMap_congr
    intro suite listed
    rw [ListedSuite.created, map_map]
    rfl
  constructor
  · rintro ⟨test_cases, created, same⟩ suite listed commented
    cases created
    rw [names] at same
    by_contra some_test
    obtain ⟨test, inSuite⟩ := exists_mem_of_ne_nil _ some_test
    have created : (strip suite.readName, strip test.name.text) ∈ listedNames suites := by
      rw [← same]
      exact mem_flatMap.mpr ⟨suite, listed, mem_map_of_mem inSuite⟩
    obtain ⟨other, -, isName⟩ := mem_flatMap.mp created
    obtain ⟨named, inOther, pair⟩ := mem_map.mp isName
    have read : other.name.text = strip suite.readName := congrArg Prod.fst pair
    have stays : 35 ∈ strip suite.readName :=
      mem_strip (ListedSuite.mem_readName commented) (by decide)
    rw [← read] at stays
    exact other.name.clean stays
  · intro uncommented
    refine ⟨_, rfl, ?_⟩
    rw [names, listedNames]
    apply flatMap_congr
    intro suite listed
    by_cases plain : suite.comment = none
    · apply map_congr_left
      intro test inSuite
      rw [ListedSuite.readName_plain plain, strip_solid suite.name.solid,
        strip_solid test.name.solid]
    · rw [uncommented suite listed plain]
      rfl

/-- A settings object without any setting. -/
def noSettings : Settings := ⟨[], [], [], [], []⟩

def sampleName : Name :=
  ⟨bytes "A", by decide, List.all_iff_forall_prop.mp (by decide), by decide⟩

def sampleTest : ListedTest := ⟨[32], by simp [Blank]; decide, sampleName, none⟩

/-- One suite with one test. -/
def plainSuite : ListedSuite := ⟨sampleName, none, [sampleTest]⟩

/-- One typed suite with one test. -/
def typedSuite : ListedSuite :=
  ⟨sampleName, some ⟨[32, 32], by simp [Blank]; decide, bytes " TypeParam = int", by decide⟩,
    [sampleTest]⟩

theorem plainSuite_lists :
    Lists (CreateTestCase noSettings (fun _ => ⟨[0, 0], [[], listing [plainSuite]]⟩) [] [])
      [plainSuite] :=
  (CreateTestCase_lists_iff noSettings _ [] [] [plainSuite] ⟨by simp, rfl⟩).mpr (by simp [plainSuite])

theorem typedSuite_misread :
    ¬ ∀ (self : Settings) (Execute : List Text → CommandResults) (path tag : Text)
      (suites : List ListedSuite),
      Answers (Execute (self.listCommands path tag)) (listing suites) →
        Lists (CreateTestCase self Execute path tag) suites := by
  intro always
  obtain ⟨test_cases, created, names⟩ := always noSettings
    (fun _ => ⟨[0, 0], [[], listing [typedSuite]]⟩) [] [] [typedSuite] ⟨by simp, rfl⟩
  have misread : (CreateTestCase noSettings (fun _ => ⟨[0, 0], [[], listing [typedSuite]]⟩) [] []).map
      (·.map TestCase.test_suite) = .ok [bytes "A.  # TypeParam = int"] := by decide
  rw [created] at misread
  have suites : test_cases.map TestCase.test_suite = [bytes "A.  # TypeParam = int"] :=
    Except.ok.inj misread
  have listed := congrArg (List.map Prod.fst) names
  rw [map_map] at listed
  revert listed
  rw [show (Prod.fst ∘ fun test_case : TestCase => (test_case.test_suite, test_case.test_name)) =
    TestCase.test_suite from rfl, suites]
  decide

end Vts.Runner.BinaryTest
