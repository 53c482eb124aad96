import Vts.Runner.FilterRule

/-!
# Which tests are let run

`filterOneTest` of `runners/host/base_test.py`: the filter of a retry, the filter of the
user, the skipping of all tests, and the bitness of the ABI. Each layer raises a signal or
hands the test on. The last one joins its conditions with `and` and `or` without brackets,
so that the check for a known bitness belongs to the first of them alone.

Proved here: exactly when the signals are those of the documentation, in which the bitness
counts only if it is known and a 32-bit test may run on a 64-bit ABI if that is allowed.
-/

namespace Vts.Runner

/-! ## The source -/

/-- What a layer raises, with its details. -/
inductive FilterSignal where
  | TestSilent (details : String)
  | TestSkip (details : String)
deriving DecidableEq

/-- The attributes of a test class that the layers read. -/
structure TestGate where
  test_filter : Filter
  test_filter_retry : Option Filter
  reason_to_skip_all_tests : Option String
  abi_bitness : Option String
  skip_on_32bit_abi : Bool
  skip_on_64bit_abi : Bool
  run_32bit_on_64bit_abi : Bool

/-- `text.lower()` of a byte string. -/
def lower (text : String) : String := String.ofList (text.toList.map Char.toLower)

namespace TestGate

/-- `getSkipAllTestsReason`. -/
def getSkipAllTestsReason (self : TestGate) : Option String := self.reason_to_skip_all_tests

def isSkipAllTests (self : TestGate) : Bool := self.getSkipAllTestsReason.isSome

/-- `_filterOneTestThroughTestFilter`. A filter object counts as true. The text of the
first signal is raised as it is written. -/
def filterOneTestThroughTestFilter (engine : RegexEngine) (self : TestGate)
    (test_name : String) (test_filter : Option Filter) : Except FilterSignal Unit :=
  let test_filter := test_filter.getD self.test_filter
  if !test_filter.filter engine test_name then
    .error (.TestSilent "Test case '%s' did not pass filters.")
  else if self.isSkipAllTests then
    .error (.TestSkip (self.getSkipAllTestsReason.getD "None"))
  else .ok ()

/-- No bitness and the empty one count as false. -/
def hasBitness (self : TestGate) : Bool := self.abi_bitness.getD "" != ""

/-- The condition of `_filterOneTestThroughAbiBitness`, as its operators bind. -/
def excludedByBitness (self : TestGate) (test_name : String) : Bool :=
  (self.hasBitness && (self.skip_on_32bit_abi && self.abi_bitness == some "32")) ||
    (self.skip_on_64bit_abi && self.abi_bitness == some "64") ||
    (endswith (lower test_name) SUFFIX_32BIT && self.abi_bitness != some "32") ||
    (endswith (lower test_name) SUFFIX_64BIT &&
      (self.abi_bitness != some "64" && !self.run_32bit_on_64bit_abi))

/-- `_filterOneTestThroughAbiBitness`. -/
def filterOneTestThroughAbiBitness (self : TestGate) (test_name : String) :
    Except FilterSignal Unit :=
  if self.excludedByBitness test_name then
    .error (.TestSkip ("Test case '" ++ test_name ++ "' excluded as ABI bitness is " ++
      self.abi_bitness.getD "None" ++ "."))
  else .ok ()

/-- The filter of a retry leaves the test out. -/
def completed (engine : RegexEngine) (self : TestGate) (test_name : String) : Bool :=
  self.test_filter_retry.any fun retryFilter => !retryFilter.filter engine test_name

def filterOneTest (engine : RegexEngine) (self : TestGate) (test_name : String)
    (test_filter : Option Filter) : Except FilterSignal Unit :=
  if self.completed engine test_name then
    .error (.TestSkip "Skipping completed tests in retry run attempt.")
  else do
    self.filterOneTestThroughTestFilter engine test_name test_filter
    self.filterOneTestThroughAbiBitness test_name

/-! ## The documented decision -/

/-- The name asks for 32 or for 64 bits. -/
def asksFor32bit (test_name : String) : Prop := endswith (lower test_name) "32bit" = true

def asksFor64bit (test_name : String) : Prop := endswith (lower test_name) "64bit" = true

/-- The bitness is known and the name or a flag is in conflict with it. -/
structure Conflicts (gate : TestGate) (test_name : String) : Prop where
  known : gate.abi_bitness ≠ none ∧ gate.abi_bitness ≠ some ""
  conflict :
    (asksFor32bit test_name ∧ gate.abi_bitness ≠ some "32" ∧
      ¬ (gate.abi_bitness = some "64" ∧ gate.run_32bit_on_64bit_abi = true)) ∨
    (asksFor64bit test_name ∧ gate.abi_bitness ≠ some "64") ∨
    (gate.skip_on_32bit_abi = true ∧ gate.abi_bitness = some "32") ∨
    (gate.skip_on_64bit_abi = true ∧ gate.abi_bitness = some "64")

/-- The filter of the user lets the name pass. -/
def accepted (engine : RegexEngine) (self : TestGate) (test_name : String)
    (test_filter : Option Filter) : Prop :=
  (test_filter.getD self.test_filter).filter engine test_name = true

/-- A name that the filter rejects is silent; else the test is skipped if all tests are or
the bitness is in conflict, and else it runs. -/
structure Decides (engine : RegexEngine) (gate : TestGate) (test_name : String)
    (test_filter : Option Filter) : Prop where
  silent : (∃ details, gate.filterOneTest engine test_name test_filter =
      .error (.TestSilent details)) ↔ ¬ gate.accepted engine test_name test_filter
  skip : (∃ details, gate.filterOneTest engine test_name test_filter =
      .error (.TestSkip details)) ↔ gate.accepted engine test_name test_filter ∧
        (gate.isSkipAllTests = true ∨ gate.Conflicts test_name)
  run : gate.filterOneTest engine test_name test_filter = .ok () ↔
    gate.accepted engine test_name test_filter ∧
      ¬ (gate.isSkipAllTests = true ∨ gate.Conflicts test_name)

/-- The inputs on which the bracketless condition is the documented one. With an unknown
bitness the name must not ask for 32 bits, and for 64 bits only if 32-bit tests may run on a
64-bit ABI; with a known one and this permission, a name that asks for the other bitness
needs a flag that skips. -/
def BitnessAgrees (self : TestGate) (test_name : String) : Prop :=
  if self.hasBitness then
    self.run_32bit_on_64bit_abi = true →
      (asksFor32bit test_name → self.abi_bitness = some "64" → self.skip_on_64bit_abi = true) ∧
      (asksFor64bit test_name → self.abi_bitness ≠ some "64" →
        self.abi_bitness = some "32" ∧ self.skip_on_32bit_abi = true)
  else ¬ asksFor32bit test_name ∧
    (asksFor64bit test_name → self.run_32bit_on_64bit_abi = true)

/-! ## The bitness -/

theorem not_asksFor_both {test_name : String} (first : asksFor32bit test_name) :
    ¬ asksFor64bit test_name := by
  intro second
  obtain ⟨front, split⟩ := endswith_iff.mp first
  obtain ⟨other, otherSplit⟩ := endswith_iff.mp second
  have chars : front.toList ++ "32bit".toList = other.toList ++ "64bit".toList := by
    rw [← String.toList_append, ← String.toList_append, ← split, ← otherSplit]
  exact absurd (List.append_inj' chars rfl).2 (by decide)

section

variable (self : TestGate) (test_name : String)

/-- The condition of the code, with the layers of its operators. -/
theorem excludedByBitness_iff :
    self.excludedByBitness test_name = true ↔
      (self.skip_on_32bit_abi = true ∧ self.abi_bitness = some "32") ∨
      (self.skip_on_64bit_abi = true ∧ self.abi_bitness = some "64") ∨
      (asksFor32bit test_name ∧ self.abi_bitness ≠ some "32") ∨
      (asksFor64bit test_name ∧ self.abi_bitness ≠ some "64" ∧
        self.run_32bit_on_64bit_abi = false) := by
  have known : self.abi_bitness = some "32" → self.hasBitness = true := by
    intro isKnown
    rw [hasBitness, isKnown]
    decide
  unfold excludedByBitness asksFor32bit asksFor64bit
  simp only [Bool.or_eq_true, Bool.and_eq_true, beq_iff_eq, bne_iff_ne, ne_eq, Bool.not_eq_true',
    SUFFIX_32BIT, SUFFIX_64BIT]
  constructor
  · rintro (((⟨_, flag⟩ | flag) | narrow) | wide)
    · exact Or.inl flag
    · exact Or.inr (Or.inl flag)
    · exact Or.inr (Or.inr (Or.inl narrow))
    · exact Or.inr (Or.inr (Or.inr wide))
  · rintro (flag | flag | narrow | wide)
    · exact Or.inl (Or.inl (Or.inl ⟨known flag.2, flag⟩))
    · exact Or.inl (Or.inl (Or.inr flag))
    · exact Or.inl (Or.inr narrow)
    · exact Or.inr wide

theorem hasBitness_iff :
    self.hasBitness = true ↔ self.abi_bitness ≠ none ∧ self.abi_bitness ≠ some "" := by
  rw [hasBitness]
  cases self.abi_bitness <;> simp

/-- The code excludes a test for its bitness as documented exactly on these inputs. -/
theorem excluded_iff_conflicts_iff :
    (self.excludedByBitness test_name = true ↔ self.Conflicts test_name) ↔
      self.BitnessAgrees test_name := by
  have notBoth := @not_asksFor_both test_name
  have conflicts_iff : self.Conflicts test_name ↔ self.hasBitness = true ∧
      ((asksFor32bit test_name ∧ self.abi_bitness ≠ some "32" ∧
        ¬ (self.abi_bitness = some "64" ∧ self.run_32bit_on_64bit_abi = true)) ∨
      (asksFor64bit test_name ∧ self.abi_bitness ≠ some "64") ∨
      (self.skip_on_32bit_abi = true ∧ self.abi_bitness = some "32") ∨
      (self.skip_on_64bit_abi = true ∧ self.abi_bitness = some "64")) := by
    rw [hasBitness_iff]
    exact ⟨fun conflicts => ⟨conflicts.known, conflicts.conflict⟩,
      fun both => ⟨both.1, both.2⟩⟩
  rw [excludedByBitness_iff, conflicts_iff]
  unfold BitnessAgrees
  cases known : self.hasBitness with
  | false =>
    have unknown : self.abi_bitness ≠ some "32" ∧ self.abi_bitness ≠ some "64" := by
      rw [hasBitness, bne_eq_false_iff_eq] at known
      constructor
      · intro is32
        rw [is32] at known
        exact absurd known (by decide)
      · intro is64
        rw [is64] at known
        exact absurd known (by decide)
    simp [unknown]
  | true =>
    -- the bitness is 64, 32 or another, and the name asks for at most one of the two
    by_cases is64 : self.abi_bitness = some "64"
    · have not32 : self.abi_bitness ≠ some "32" := by
        rw [is64]
        decide
      by_cases narrow : asksFor32bit test_name
      · have notWide := notBoth narrow
        cases self.run_32bit_on_64bit_abi <;> simp [is64, narrow, notWide]
      · cases self.run_32bit_on_64bit_abi <;> simp [is64, narrow]
    · by_cases narrow : asksFor32bit test_name
      · have notWide := notBoth narrow
        cases self.run_32bit_on_64bit_abi <;> simp [is64, narrow, notWide, or_comm]
      · by_cases wide : asksFor64bit test_name
        · cases self.run_32bit_on_64bit_abi <;> simp [is64, narrow, wide, and_comm]
        · cases self.run_32bit_on_64bit_abi <;> simp [is64, narrow, wide]

end

/-! ## The layers -/

section Layers

variable (engine : RegexEngine) (self : TestGate) (test_name : String)
  (test_filter : Option Filter)

/-- The layer of the bitness lets the test on or skips it. -/
theorem filterOneTestThroughAbiBitness_ok_iff :
    self.filterOneTestThroughAbiBitness test_name = .ok () ↔
      ¬ self.excludedByBitness test_name = true := by
  rw [filterOneTestThroughAbiBitness]
  split <;> simp_all

theorem filterOneTestThroughAbiBitness_skip_iff :
    (∃ details, self.filterOneTestThroughAbiBitness test_name = .error (.TestSkip details)) ↔
      self.excludedByBitness test_name = true := by
  rw [filterOneTestThroughAbiBitness]
  split <;> simp_all

theorem filterOneTestThroughAbiBitness_not_silent (details : String) :
    self.filterOneTestThroughAbiBitness test_name ≠ .error (.TestSilent details) := by
  rw [filterOneTestThroughAbiBitness]
  split <;> simp

/-- A name the filter of the retry leaves out is skipped, whatever the layers say. -/
theorem filterOneTest_of_completed (isCompleted : self.completed engine test_name = true) :
    self.filterOneTest engine test_name test_filter =
      .error (.TestSkip "Skipping completed tests in retry run attempt.") := by
  rw [filterOneTest, if_pos isCompleted]

section

variable (isOpen : ¬ self.completed engine test_name = true)
include isOpen

theorem filterOneTest_of_rejected (rejected : ¬ self.accepted engine test_name test_filter) :
    self.filterOneTest engine test_name test_filter =
      .error (.TestSilent "Test case '%s' did not pass filters.") := by
  have fails : (test_filter.getD self.test_filter).filter engine test_name = false := by
    simpa [accepted] using rejected
  rw [filterOneTest, if_neg isOpen, filterOneTestThroughTestFilter]
  simp only [fails, Bool.not_false, if_true]
  rfl

theorem filterOneTest_of_skipAll (passes : self.accepted engine test_name test_filter)
    (skipsAll : self.isSkipAllTests = true) :
    self.filterOneTest engine test_name test_filter =
      .error (.TestSkip (self.getSkipAllTestsReason.getD "None")) := by
  rw [accepted] at passes
  rw [filterOneTest, if_neg isOpen, filterOneTestThroughTestFilter]
  simp only [passes, Bool.not_true, Bool.false_eq_true, if_false, skipsAll, if_true]
  rfl

/-- What is left is decided by the bitness. -/
theorem filterOneTest_of_accepted (passes : self.accepted engine test_name test_filter)
    (skipsNotAll : ¬ self.isSkipAllTests = true) :
    self.filterOneTest engine test_name test_filter =
      self.filterOneTestThroughAbiBitness test_name := by
  rw [accepted] at passes
  rw [filterOneTest, if_neg isOpen, filterOneTestThroughTestFilter]
  simp only [passes, Bool.not_true, Bool.false_eq_true, if_false, skipsNotAll]
  rfl

end

/-- `filterOneTest` decides as documented exactly if the filter of the retry leaves out only
tests that would be skipped all the same, and the bitness agrees on the tests it is asked
about. -/
theorem filterOneTest_decides_iff :
    self.Decides engine test_name test_filter ↔
      if self.completed engine test_name then
        self.accepted engine test_name test_filter ∧
          (self.isSkipAllTests = true ∨ self.Conflicts test_name)
      else self.accepted engine test_name test_filter → self.isSkipAllTests = false →
        self.BitnessAgrees test_name := by
  by_cases isCompleted : self.completed engine test_name = true
  · have skipped := filterOneTest_of_completed engine self test_name test_filter isCompleted
    rw [if_pos isCompleted]
    constructor
    · intro decides
      exact decides.skip.mp ⟨_, skipped⟩
    · intro shouldSkip
      constructor <;> simp [skipped, shouldSkip]
  rw [if_neg isCompleted]
  by_cases passes : self.accepted engine test_name test_filter
  case neg =>
    have silent := filterOneTest_of_rejected engine self test_name test_filter isCompleted passes
    refine ⟨fun _ accepts => absurd accepts passes, fun _ => ?_⟩
    constructor <;> simp [silent, passes]
  by_cases skipsAll : self.isSkipAllTests = true
  · have skipped :=
      filterOneTest_of_skipAll engine self test_name test_filter isCompleted passes skipsAll
    refine ⟨fun _ _ skipsNotAll => ?_, fun _ => ?_⟩
    · rw [skipsAll] at skipsNotAll
      exact absurd skipsNotAll (by decide)
    · constructor <;> simp [skipped, passes, skipsAll]
  · have decided :=
      filterOneTest_of_accepted engine self test_name test_filter isCompleted passes skipsAll
    have skipsNotAll : self.isSkipAllTests = false := Bool.eq_false_iff.mpr skipsAll
    have agrees := excluded_iff_conflicts_iff self test_name
    constructor
    · intro decides _ _
      have skips := decides.skip
      rw [decided, filterOneTestThroughAbiBitness_skip_iff] at skips
      refine agrees.mp ⟨fun excluded => ?_, fun conflicts => skips.mpr ⟨passes, Or.inr conflicts⟩⟩
      exact (skips.mp excluded).2.resolve_left skipsAll
    · intro condition
      have same := agrees.mpr (condition passes skipsNotAll)
      constructor
      · rw [decided]
        simp [filterOneTestThroughAbiBitness_not_silent, passes]
      · rw [decided, filterOneTestThroughAbiBitness_skip_iff, same]
        simp [passes, skipsAll]
      · rw [decided, filterOneTestThroughAbiBitness_ok_iff, same]
        simp [passes, skipsAll]

end Layers

/-- An engine without patterns. -/
def noPatterns : RegexEngine where
  compiles := fun _ => false
  matchSpan := fun _ _ => none

/-- A filter without rules lets every name pass. -/
def acceptsAll : Filter := Filter.new noPatterns [] []
  { enable_regex := false, exclude_over_include := none, enable_negative_pattern := true,
    enable_module_name_prefix_matching := false, module_name := none, expand_bitness := false }

/-- A class that knows no bitness and skips nothing. -/
def unknownBitness : TestGate where
  test_filter := acceptsAll
  test_filter_retry := none
  reason_to_skip_all_tests := none
  abi_bitness := none
  skip_on_32bit_abi := false
  skip_on_64bit_abi := false
  run_32bit_on_64bit_abi := false

/-- Without a bitness a 32-bit test is skipped all the same. -/
theorem filterOneTest_unknownBitness :
    ¬ unknownBitness.Decides noPatterns "test_32bit" none := by
  intro decides
  have skipped : unknownBitness.filterOneTest noPatterns "test_32bit" none =
      .error (.TestSkip "Test case 'test_32bit' excluded as ABI bitness is None.") := by
    decide +kernel
  obtain ⟨_, skipsAll | conflicts⟩ := decides.skip.mp ⟨_, skipped⟩
  · exact absurd skipsAll (by decide)
  · exact conflicts.known.1 rfl

end TestGate

end Vts.Runner
