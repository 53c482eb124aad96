import Mathlib.Algebra.Order.BigOperators.Group.List
import Mathlib.Data.List.Infix
import Vts.Coverage.Summary

/-!
# Line coverage vectors

`GenerateLineCoverageVector` of `coverage_report.py`: the block counts of a summary
are added to one vector for each source file, where position `line - 1` holds the
count of a line and -1 a line that no block lists.

Everything the function does to one line is an instance of `bump`: the first block
that lists the line replaces -1 by 0, and then all counts are added. Bumps with
non-negative amounts compose, so the effect of a whole summary on a line is one
bump by the sum of the counts.
-/

namespace Vts.Coverage

open List

/-- `coverage_dict`: the vector of each source file that has one. -/
abbrev CoverageDict : Type := List UInt8 → Option (List Int)

/-- `GEN_TAG`, the text `/gen/`. -/
def genTag : List UInt8 := [47, 103, 101, 110, 47]

/-- `needle in text`. -/
def isSubstring (needle text : List UInt8) : Bool :=
  text.tails.any (fun rest => needle.isPrefixOf rest)

/-- The source file is generated or below an excluded path. -/
def skipsFile (excludePaths : List (List UInt8)) (fileName : List UInt8) : Bool :=
  isSubstring genTag fileName || excludePaths.any (fun path => path.isPrefixOf fileName)

/-- The body of the innermost loop of `GenerateLineCoverageVector`. Line numbers
are positive: `ReadLines` keeps no others. -/
def addLine (count : Int) (counts : List Int) (line : Nat) : List Int :=
  let extended :=
    if line > counts.length then counts ++ List.replicate (line - counts.length) (-1) else counts
  let current := extended.getD (line - 1) (-1)
  extended.set (line - 1) ((if current < 0 then 0 else current) + count)

/-- All lines of one block. -/
def addBlock (counts : List Int) (block : BlockSummary) : List Int :=
  block.lines.foldl (addLine block.count) counts

/-- All blocks of one function, unless its source file is skipped. -/
def addFunction (excludePaths : List (List UInt8)) (dict : CoverageDict)
    (func : FunctionSummary) : CoverageDict :=
  if skipsFile excludePaths func.srcFileName then dict
  else fun file =>
    if file = func.srcFileName then
      some (func.blocks.foldl addBlock ((dict func.srcFileName).getD []))
    else dict file

/-- `GenerateLineCoverageVector`. -/
def generateLineCoverageVector (summary : FileSummary) (excludePaths : List (List UInt8))
    (dict : CoverageDict) : CoverageDict :=
  summary.functions.foldl (fun current entry => addFunction excludePaths current entry.2) dict

/-! ## One line -/

/-- The count a vector gives to a line, and -1 outside of it. -/
def lineCount (counts : List Int) (line : Nat) : Int := counts.getD (line - 1) (-1)

/-- What happens to the count of a line: nothing, or an amount is added to a count
that is made 0 first if it was negative. -/
def bump (listed : Bool) (amount value : Int) : Int :=
  if listed then max value 0 + amount else value

theorem bump_bump {first second : Bool} {left right : Int} (value : Int) (nonnegative : 0 ≤ left)
    (firstIdle : first = false → left = 0) (secondIdle : second = false → right = 0) :
    bump second right (bump first left value) = bump (first || second) (left + right) value := by
  cases first with
  | false =>
    simp [bump, firstIdle rfl]
  | true =>
    cases second with
    | false => simp [bump, secondIdle rfl]
    | true =>
      have positive : 0 ≤ max value 0 + left := by
        have := le_max_right value 0
        omega
      simp only [bump, if_true, Bool.or_self, max_eq_left positive]
      omega

theorem addLine_lineCount (count : Int) (counts : List Int) {line other : Nat}
    (linePositive : 0 < line) (otherPositive : 0 < other) :
    lineCount (addLine count counts line) other =
      bump (other == line) (if other == line then count else 0) (lineCount counts other) := by
  have extended (position : Nat) :
      (if line > counts.length then counts ++ List.replicate (line - counts.length) (-1)
        else counts).getD position (-1) = counts.getD position (-1) := by
    split
    · by_cases old : position < counts.length
      · rw [getD_append _ _ _ _ old]
      · rw [getD_append_right _ _ _ _ (Nat.le_of_not_lt old),
          getD_eq_default _ _ (Nat.le_of_not_lt old)]
        by_cases new : position - counts.length < line - counts.length
        · rw [getD_eq_getElem _ _ (by simpa using new), getElem_replicate]
        · rw [getD_eq_default _ _ (by simpa using new)]
    · rfl
  have inside : line - 1 < (if line > counts.length then
      counts ++ List.replicate (line - counts.length) (-1) else counts).length := by
    split
    · simp only [length_append, length_replicate]
      omega
    · omega
  unfold addLine lineCount
  simp only [extended]
  by_cases same : other = line
  · subst same
    simp only [getD_eq_getElem?_getD, List.getElem?_set_self inside, Option.getD_some, bump,
      beq_self_eq_true, if_true]
    split <;> omega
  · have distinct : line - 1 ≠ other - 1 := by omega
    rw [getD_eq_getElem?_getD, List.getElem?_set_ne distinct, ← getD_eq_getElem?_getD,
      extended]
    simp [bump, same]

/-- A loop whose steps bump one count bumps it once, by the sum. -/
theorem foldl_bump {State Item : Type} (step : State → Item → State) (read : State → Int)
    (listed : Item → Bool) (amount : Item → Int) (items : List Item) (start : State)
    (each : ∀ item ∈ items, ∀ state,
      read (step state item) = bump (listed item) (amount item) (read state))
    (nonnegative : ∀ item ∈ items, 0 ≤ amount item)
    (idle : ∀ item ∈ items, listed item = false → amount item = 0) :
    read (items.foldl step start) =
      bump (items.any listed) ((items.map amount).sum) (read start) := by
  induction items generalizing start with
  | nil => simp [bump]
  | cons item rest ih =>
    have restIdle : rest.any listed = false → (rest.map amount).sum = 0 := by
      intro none
      apply sum_eq_zero
      intro value member
      obtain ⟨other, inRest, rfl⟩ := mem_map.mp member
      have unlisted : listed other = false := by simpa using any_eq_false.mp none other inRest
      exact idle other (by simp [inRest]) unlisted
    rw [foldl_cons, ih _ (fun other member => each other (by simp [member]))
      (fun other member => nonnegative other (by simp [member]))
      (fun other member => idle other (by simp [member])), each item (by simp),
      bump_bump _ (nonnegative item (by simp)) (idle item (by simp)) restIdle]
    simp

/-! ## Blocks, functions and files -/

/-- What a block adds to a line, with repetitions. -/
def BlockSummary.lineTotal (block : BlockSummary) (line : Nat) : Int :=
  block.lines.count line * block.count

/-- What a function adds to a line. -/
def FunctionSummary.lineTotal (func : FunctionSummary) (line : Nat) : Int :=
  (func.blocks.map (fun block => block.lineTotal line)).sum

/-- Some block of the function lists the line. -/
def FunctionSummary.lists (func : FunctionSummary) (line : Nat) : Bool :=
  func.blocks.any (fun block => block.lines.contains line)

/-- The function is reported for the source file. -/
def FunctionSummary.reportedFor (excludePaths : List (List UInt8)) (file : List UInt8)
    (func : FunctionSummary) : Bool :=
  !skipsFile excludePaths func.srcFileName && file == func.srcFileName

namespace FileSummary

/-- Some function reported for the file lists the line. -/
def lists (excludePaths : List (List UInt8)) (summary : FileSummary) (file : List UInt8)
    (line : Nat) : Bool :=
  summary.functions.any (fun entry => entry.2.reportedFor excludePaths file && entry.2.lists line)

/-- What the functions reported for the file add to a line. -/
def lineTotal (excludePaths : List (List UInt8)) (summary : FileSummary) (file : List UInt8)
    (line : Nat) : Int :=
  (summary.functions.map (fun entry =>
    if entry.2.reportedFor excludePaths file then entry.2.lineTotal line else 0)).sum

/-- All block counts are non-negative and all line numbers positive. -/
structure Countable (summary : FileSummary) : Prop where
  counts : ∀ entry ∈ summary.functions, ∀ block ∈ entry.2.blocks, 0 ≤ block.count
  lines : ∀ entry ∈ summary.functions, ∀ block ∈ entry.2.blocks, ∀ line ∈ block.lines, 0 < line

end FileSummary

/-- The count a dictionary gives to a line of a file. -/
def CoverageDict.lineCount (dict : CoverageDict) (file : List UInt8) (line : Nat) : Int :=
  Coverage.lineCount ((dict file).getD []) line

section

variable (block : BlockSummary) (summary : FileSummary) (func : FunctionSummary)
  (excludePaths : List (List UInt8)) (counts : List Int) (line : Nat) (file : List UInt8)

theorem addBlock_lineCount {line : Nat} (nonnegative : 0 ≤ block.count)
    (positive : ∀ other ∈ block.lines, 0 < other) (linePositive : 0 < line) :
    lineCount (addBlock counts block) line =
      bump (block.lines.contains line) (block.lineTotal line) (lineCount counts line) := by
  have total : (block.lines.map (fun other => if line == other then block.count else 0)).sum =
      block.lineTotal line := by
    rw [BlockSummary.lineTotal]
    induction block.lines with
    | nil => simp
    | cons other rest ih =>
      rw [map_cons, sum_cons, ih, count_cons]
      by_cases same : other = line
      · simp [same, Int.add_mul, Int.add_comm]
      · have distinct : ¬line = other := fun equal => same equal.symm
        simp [same, distinct]
  have whole := foldl_bump (addLine block.count) (fun current => lineCount current line)
    (fun other => line == other) (fun other => if line == other then block.count else 0)
    block.lines counts
    (fun other member state =>
      addLine_lineCount block.count state (positive other member) linePositive)
    (fun other _ => by split <;> omega)
    (fun other _ unlisted => by simp only [unlisted]; rfl)
  rw [total] at whole
  exact whole.trans (by rw [contains_eq_any_beq])

theorem lineTotal_nonnegative (nonnegative : 0 ≤ block.count) : 0 ≤ block.lineTotal line :=
  Int.mul_nonneg (Int.natCast_nonneg _) nonnegative

theorem lineTotal_unlisted (unlisted : block.lines.contains line = false) :
    block.lineTotal line = 0 := by
  have absent : line ∉ block.lines := by simpa using unlisted
  rw [BlockSummary.lineTotal, count_eq_zero_of_not_mem absent]
  simp

theorem addBlocks_lineCount {line : Nat} (nonnegative : ∀ block ∈ func.blocks, 0 ≤ block.count)
    (positive : ∀ block ∈ func.blocks, ∀ other ∈ block.lines, 0 < other) (linePositive : 0 < line) :
    lineCount (func.blocks.foldl addBlock counts) line =
      bump (func.lists line) (func.lineTotal line) (lineCount counts line) :=
  foldl_bump addBlock (fun current => lineCount current line)
    (fun block => block.lines.contains line) (fun block => block.lineTotal line) func.blocks counts
    (fun block member state => addBlock_lineCount block state (nonnegative block member)
      (positive block member) linePositive)
    (fun block member => lineTotal_nonnegative block line (nonnegative block member))
    (fun block _ unlisted => lineTotal_unlisted block line unlisted)

theorem addFunction_lineCount (func : FunctionSummary) (dict : CoverageDict) (file : List UInt8)
    {line : Nat} (nonnegative : ∀ block ∈ func.blocks, 0 ≤ block.count)
    (positive : ∀ block ∈ func.blocks, ∀ other ∈ block.lines, 0 < other) (linePositive : 0 < line) :
    (addFunction excludePaths dict func).lineCount file line =
      bump (func.reportedFor excludePaths file && func.lists line)
        (if func.reportedFor excludePaths file then func.lineTotal line else 0)
        (dict.lineCount file line) := by
  unfold addFunction FunctionSummary.reportedFor
  by_cases skipped : skipsFile excludePaths func.srcFileName = true
  · simp [skipped, bump]
  · have kept : skipsFile excludePaths func.srcFileName = false := by simpa using skipped
    by_cases same : file = func.srcFileName
    · simp only [kept, same, CoverageDict.lineCount, if_true, Bool.false_eq_true, if_false,
        Option.getD_some, Bool.not_false, beq_self_eq_true, Bool.and_self, Bool.true_and]
      exact addBlocks_lineCount func _ nonnegative positive linePositive
    · simp [kept, same, CoverageDict.lineCount, bump]

theorem functionTotal_nonnegative (nonnegative : ∀ block ∈ func.blocks, 0 ≤ block.count) :
    0 ≤ func.lineTotal line := by
  apply sum_nonneg
  intro value member
  obtain ⟨block, listed, rfl⟩ := mem_map.mp member
  exact lineTotal_nonnegative block line (nonnegative block listed)

theorem functionTotal_unlisted (unlisted : func.lists line = false) : func.lineTotal line = 0 := by
  apply sum_eq_zero
  intro value member
  obtain ⟨block, listed, rfl⟩ := mem_map.mp member
  exact lineTotal_unlisted block line (by simpa using any_eq_false.mp unlisted block listed)

/-- The effect of `GenerateLineCoverageVector` on one line of one file. -/
theorem generate_lineCount (dict : CoverageDict) (file : List UInt8) {line : Nat}
    (countable : summary.Countable) (linePositive : 0 < line) :
    (generateLineCoverageVector summary excludePaths dict).lineCount file line =
      bump (summary.lists excludePaths file line) (summary.lineTotal excludePaths file line)
        (dict.lineCount file line) :=
  foldl_bump (fun current (entry : Nat × FunctionSummary) =>
      addFunction excludePaths current entry.2)
    (fun current => current.lineCount file line)
    (fun entry => entry.2.reportedFor excludePaths file && entry.2.lists line)
    (fun entry => if entry.2.reportedFor excludePaths file then entry.2.lineTotal line else 0)
    summary.functions dict
    (fun entry member state => addFunction_lineCount excludePaths entry.2 state file
      (countable.counts entry member) (countable.lines entry member) linePositive)
    (fun entry member => by
      split
      · exact functionTotal_nonnegative entry.2 line (countable.counts entry member)
      · omega)
    (fun entry member unlisted => by
      split
      · next reported =>
        rw [reported, Bool.true_and] at unlisted
        exact functionTotal_unlisted entry.2 line unlisted
      · rfl)

theorem FileSummary.lineTotal_nonnegative (line : Nat) (countable : summary.Countable) :
    0 ≤ summary.lineTotal excludePaths file line := by
  apply sum_nonneg
  intro value member
  obtain ⟨entry, listed, rfl⟩ := mem_map.mp member
  split
  · exact functionTotal_nonnegative entry.2 line (countable.counts entry listed)
  · exact Int.le_refl 0

theorem FileSummary.lineTotal_unlisted (line : Nat)
    (unlisted : summary.lists excludePaths file line = false) :
    summary.lineTotal excludePaths file line = 0 := by
  apply sum_eq_zero
  intro value member
  obtain ⟨entry, listed, rfl⟩ := mem_map.mp member
  have absent := any_eq_false.mp unlisted entry listed
  split
  · next reported =>
    rw [reported, Bool.true_and] at absent
    exact functionTotal_unlisted entry.2 line (by simpa using absent)
  · rfl

end

end Vts.Coverage
