import Vts.Coverage.Report

/-!
# Whole line vectors

What `GenerateLineCoverageVector` of `coverage_report.py` leaves in the coverage
dictionary. `Report` says how the count of one line changes. Here the vectors are
described as a whole: how long they become, which files get one and which are
left alone, and that the order of the functions does not matter.

Besides the files below excluded paths, generated files are left alone: those
with `/gen/` in their name.
-/

namespace Vts.Coverage

open Option hiding map_id

open List

/-! ## The last line -/

/-- The last line of a list, or 0. -/
def lastOf (lines : List Nat) : Nat := lines.foldr max 0

theorem lastOf_perm {lines others : List Nat} (same : lines.Perm others) :
    lastOf lines = lastOf others :=
  same.foldr_eq 0

def BlockSummary.lastLine (block : BlockSummary) : Nat := lastOf block.lines

def FunctionSummary.lastLine (func : FunctionSummary) : Nat :=
  lastOf (func.blocks.map BlockSummary.lastLine)

/-- The last line that the functions reported for the file list. -/
def FileSummary.lastLine (excludePaths : List (List UInt8)) (summary : FileSummary)
    (file : List UInt8) : Nat :=
  lastOf (summary.functions.map fun entry =>
    if entry.2.reportedFor excludePaths file then entry.2.lastLine else 0)

/-- A loop whose steps reach a position each reaches the last of them. -/
theorem foldl_reach {State Item : Type} (step : State → Item → State) (read : State → Nat)
    (reach : Item → Nat) (items : List Item) (start : State)
    (each : ∀ item ∈ items, ∀ state, read (step state item) = max (read state) (reach item)) :
    read (items.foldl step start) = max (read start) (lastOf (items.map reach)) := by
  induction items generalizing start with
  | nil => exact (Nat.max_zero _).symm
  | cons item rest ih =>
    rw [foldl_cons,
      ih _ (fun other listed => each other (mem_cons_of_mem _ listed)),
      each item mem_cons_self, Nat.max_assoc]
    rfl

theorem addLine_length (count : Int) (counts : List Int) (line : Nat) :
    (addLine count counts line).length = max counts.length line := by
  rw [addLine, length_set]
  split
  · rw [length_append, length_replicate]
    omega
  · omega

theorem addBlock_length (block : BlockSummary) (counts : List Int) :
    (addBlock counts block).length = max counts.length block.lastLine := by
  have reached := foldl_reach (addLine block.count) List.length id block.lines counts
    (fun line _ state => addLine_length block.count state line)
  rw [map_id] at reached
  exact reached

theorem addBlocks_length (func : FunctionSummary) (counts : List Int) :
    (func.blocks.foldl addBlock counts).length = max counts.length func.lastLine :=
  foldl_reach addBlock List.length BlockSummary.lastLine func.blocks counts
    fun block _ state => addBlock_length block state

/-- The vector of a file, empty if it has none. -/
def CoverageDict.vector (dict : CoverageDict) (file : List UInt8) : List Int :=
  (dict file).getD []

theorem addFunction_length (excludePaths : List (List UInt8)) (func : FunctionSummary)
    (dict : CoverageDict) (file : List UInt8) :
    ((addFunction excludePaths dict func).vector file).length =
      max (dict.vector file).length
        (if func.reportedFor excludePaths file then func.lastLine else 0) := by
  unfold addFunction FunctionSummary.reportedFor
  by_cases skipped : skipsFile excludePaths func.srcFileName = true
  · simp [skipped]
  · have kept : skipsFile excludePaths func.srcFileName = false := by simpa using skipped
    by_cases same : file = func.srcFileName
    · subst same
      simpa [kept, CoverageDict.vector] using addBlocks_length func (dict.vector func.srcFileName)
    · simp [kept, same, CoverageDict.vector]

theorem generate_length (summary : FileSummary) (excludePaths : List (List UInt8))
    (dict : CoverageDict) (file : List UInt8) :
    ((generateLineCoverageVector summary excludePaths dict).vector file).length =
      max (dict.vector file).length (summary.lastLine excludePaths file) :=
  foldl_reach (fun current (entry : Nat × FunctionSummary) =>
      addFunction excludePaths current entry.2)
    (fun current => (current.vector file).length)
    (fun entry => if entry.2.reportedFor excludePaths file then entry.2.lastLine else 0)
    summary.functions dict
    fun entry _ state => addFunction_length excludePaths entry.2 state file

/-! ## The files that get a vector -/

/-- Some function is reported for the file. -/
def FileSummary.reports (excludePaths : List (List UInt8)) (summary : FileSummary)
    (file : List UInt8) : Bool :=
  summary.functions.any fun entry => entry.2.reportedFor excludePaths file

variable {excludePaths : List (List UInt8)} {file : List UInt8} {summary : FileSummary}

section

variable {func : FunctionSummary} {other : FileSummary}

theorem addFunction_reported (reported : func.reportedFor excludePaths file = true)
    (dict : CoverageDict) : (addFunction excludePaths dict func file).isSome = true := by
  simp only [FunctionSummary.reportedFor, Bool.and_eq_true, Bool.not_eq_true', beq_iff_eq]
    at reported
  simp [addFunction, reported.1, reported.2]

theorem addFunction_unreported (unreported : func.reportedFor excludePaths file = false)
    (dict : CoverageDict) : addFunction excludePaths dict func file = dict file := by
  unfold addFunction
  split
  · rfl
  · next kept =>
    have other : file ≠ func.srcFileName := by
      simpa [FunctionSummary.reportedFor, kept] using unreported
    exact if_neg other

/-- No step takes a vector away. -/
theorem addFunction_isSome {dict : CoverageDict} (present : (dict file).isSome = true) :
    (addFunction excludePaths dict func file).isSome = true := by
  cases reported : func.reportedFor excludePaths file with
  | true => exact addFunction_reported reported dict
  | false => rwa [addFunction_unreported reported]

/-- A file that no function is reported for is left alone. -/
theorem generate_unreported (unreported : summary.reports excludePaths file = false)
    (dict : CoverageDict) :
    generateLineCoverageVector summary excludePaths dict file = dict file := by
  refine List.foldlRecOn (motive := fun (current : CoverageDict) => current file = dict file)
    summary.functions _ rfl ?_
  intro current same entry listed
  have other := any_eq_false.mp unreported entry listed
  rw [addFunction_unreported (by simpa using other), same]

/-- Every other file has a vector. -/
theorem generate_reported (reported : summary.reports excludePaths file = true)
    (dict : CoverageDict) :
    (generateLineCoverageVector summary excludePaths dict file).isSome = true := by
  obtain ⟨entry, listed, reportedFor⟩ := any_eq_true.mp reported
  obtain ⟨before, after, functions⟩ := append_of_mem listed
  rw [generateLineCoverageVector, functions, foldl_append, foldl_cons]
  refine List.foldlRecOn (motive := fun (current : CoverageDict) => (current file).isSome = true)
    after _ (addFunction_reported reportedFor _) ?_
  intro current present _ _
  exact addFunction_isSome present

/-! ## What the dictionary holds afterwards -/

/-- The functions in another order list the same lines for a file, with the same counts. -/
structure FileSummary.SameLines (excludePaths : List (List UInt8)) (summary other : FileSummary)
    (file : List UInt8) : Prop where
  reports : summary.reports excludePaths file = other.reports excludePaths file
  lastLine : summary.lastLine excludePaths file = other.lastLine excludePaths file
  lists : ∀ line, summary.lists excludePaths file line = other.lists excludePaths file line
  lineTotal : ∀ line,
    summary.lineTotal excludePaths file line = other.lineTotal excludePaths file line

theorem FileSummary.sameLines_of_perm (reordered : summary.functions.Perm other.functions)
    (excludePaths : List (List UInt8)) (file : List UInt8) :
    summary.SameLines excludePaths other file where
  reports := reordered.any_eq
  lastLine := lastOf_perm (reordered.map _)
  lists _ := reordered.any_eq
  lineTotal _ := (reordered.map _).sum_eq

theorem FileSummary.Countable.of_perm (countable : summary.Countable)
    (reordered : summary.functions.Perm other.functions) : other.Countable where
  counts entry listed := countable.counts entry (reordered.mem_iff.mpr listed)
  lines entry listed := countable.lines entry (reordered.mem_iff.mpr listed)

theorem getElem?_of_lineCount {counts : List Int} {line : Nat} {value : Int} (positive : 0 < line)
    (inside : line ≤ counts.length) (count : lineCount counts line = value) :
    counts[line - 1]? = some value := by
  have bound : line - 1 < counts.length := by omega
  rw [lineCount, getD_eq_getElem _ _ bound] at count
  rw [List.getElem?_eq_getElem bound, count]

theorem eq_of_lineCount {left right : List Int} (length : left.length = right.length)
    (counts : ∀ line, 0 < line → lineCount left line = lineCount right line) : left = right := by
  refine ext_getElem length ?_
  intro position inLeft inRight
  have same := counts (position + 1) (Nat.succ_pos position)
  rwa [lineCount, lineCount, Nat.add_sub_cancel, getD_eq_getElem _ _ inLeft,
    getD_eq_getElem _ _ inRight] at same

/-- The order of the functions does not matter. -/
theorem generate_perm (countable : summary.Countable)
    (reordered : summary.functions.Perm other.functions) (excludePaths : List (List UInt8))
    (dict : CoverageDict) :
    generateLineCoverageVector summary excludePaths dict =
      generateLineCoverageVector other excludePaths dict := by
  funext file
  have same := FileSummary.sameLines_of_perm reordered excludePaths file
  cases reported : summary.reports excludePaths file with
  | false =>
    rw [generate_unreported reported, generate_unreported (same.reports ▸ reported)]
  | true =>
    obtain ⟨left, hasLeft⟩ := isSome_iff_exists.mp (generate_reported reported dict)
    obtain ⟨right, hasRight⟩ := isSome_iff_exists.mp
      (generate_reported (same.reports ▸ reported) dict)
    have leftLength := generate_length summary excludePaths dict file
    have rightLength := generate_length other excludePaths dict file
    rw [CoverageDict.vector, hasLeft, getD_some, same.lastLine] at leftLength
    rw [CoverageDict.vector, hasRight, getD_some] at rightLength
    have vectors : left = right := by
      apply eq_of_lineCount (leftLength.trans rightLength.symm)
      intro line positive
      have leftCount := generate_lineCount summary excludePaths dict file countable positive
      have rightCount := generate_lineCount other excludePaths dict file
        (countable.of_perm reordered) positive
      rw [CoverageDict.lineCount, hasLeft, getD_some, same.lists, same.lineTotal]
        at leftCount
      rw [CoverageDict.lineCount, hasRight, getD_some] at rightCount
      exact leftCount.trans rightCount.symm
    rw [hasLeft, hasRight, vectors]

end

/-- What the coverage dictionary holds afterwards, for the files of the functions, the files that are
skipped, and every other file; the order of the functions does not matter. -/
theorem generate_lineVectors (summary : FileSummary) (excludePaths : List (List UInt8))
    (dict : CoverageDict) (countable : summary.Countable) :
    (∀ entry ∈ summary.functions, skipsFile excludePaths entry.2.srcFileName = false →
      ∃ counts, generateLineCoverageVector summary excludePaths dict entry.2.srcFileName =
          some counts ∧
        counts.length = max (dict.vector entry.2.srcFileName).length
          (summary.lastLine excludePaths entry.2.srcFileName) ∧
        ∀ line, 0 < line → line ≤ counts.length → counts[line - 1]? =
          some (if summary.lists excludePaths entry.2.srcFileName line then
            max (dict.lineCount entry.2.srcFileName line) 0 +
              summary.lineTotal excludePaths entry.2.srcFileName line
            else dict.lineCount entry.2.srcFileName line)) ∧
      (∀ file, skipsFile excludePaths file = true →
        generateLineCoverageVector summary excludePaths dict file = dict file) ∧
      (∀ file, (∀ entry ∈ summary.functions, entry.2.srcFileName ≠ file) →
        generateLineCoverageVector summary excludePaths dict file = dict file) ∧
      ∀ other : FileSummary, summary.functions.Perm other.functions →
        generateLineCoverageVector other excludePaths dict =
          generateLineCoverageVector summary excludePaths dict := by
  refine ⟨?_, ?_, ?_, fun other reordered => (generate_perm countable reordered _ _).symm⟩
  · intro entry listed kept
    have reported : summary.reports excludePaths entry.2.srcFileName = true := by
      refine any_eq_true.mpr ⟨entry, listed, ?_⟩
      simp [FunctionSummary.reportedFor, kept]
    obtain ⟨counts, has⟩ := isSome_iff_exists.mp (generate_reported reported dict)
    have length := generate_length summary excludePaths dict entry.2.srcFileName
    rw [CoverageDict.vector, has, getD_some] at length
    refine ⟨counts, has, length, ?_⟩
    intro line positive inside
    have count := generate_lineCount summary excludePaths dict entry.2.srcFileName countable positive
    rw [CoverageDict.lineCount, has, getD_some] at count
    exact getElem?_of_lineCount positive inside count
  · intro file skipped
    refine generate_unreported (any_eq_false.mpr ?_) dict
    intro entry listed reported
    simp only [FunctionSummary.reportedFor, Bool.and_eq_true, Bool.not_eq_true', beq_iff_eq]
      at reported
    rw [← reported.2, skipped] at reported
    cases reported.1
  · intro file other
    refine generate_unreported (any_eq_false.mpr ?_) dict
    intro entry listed
    have distinct : (file == entry.2.srcFileName) = false :=
      beq_eq_false_iff_ne.mpr (other entry listed).symm
    simp [FunctionSummary.reportedFor, distinct]

/-- A function with one block that was executed three times and lists a line twice. -/
def twiceListed (srcFileName : List UInt8) : FunctionSummary :=
  { FunctionSummary.init 1 [102] srcFileName 1 with
    blocks := [{ BlockSummary.init 0 0 with count := 3, lines := [2, 2] }] }

theorem twiceListed_countable (srcFileName : List UInt8) :
    (FileSummary.mk [(1, twiceListed srcFileName)]).Countable where
  counts entry listed block inside := by
    cases mem_singleton.mp listed
    cases mem_singleton.mp inside
    decide
  lines entry listed block inside line lines := by
    cases mem_singleton.mp listed
    cases mem_singleton.mp inside
    have two : line = 2 := by simpa using lines
    omega

/-- The file `a.c` of the function had been executed before. -/
theorem generate_lineVectors_twice :
    ∃ counts, generateLineCoverageVector ⟨[(1, twiceListed [97, 46, 99])]⟩ []
        (fun file => if file = [97, 46, 99] then some [4] else none) [97, 46, 99] = some counts ∧
      counts.length = 2 ∧ counts[0]? = some 4 ∧ counts[1]? = some 6 := by
  obtain ⟨counts, has, length, lines⟩ := (generate_lineVectors ⟨[(1, twiceListed [97, 46, 99])]⟩ []
    (fun file => if file = [97, 46, 99] then some [4] else none)
    (twiceListed_countable [97, 46, 99])).1 _ mem_cons_self (by decide)
  have two : counts.length = 2 := length
  exact ⟨counts, has, two, lines 1 (by decide) (by omega), lines 2 (by decide) (by omega)⟩

/-- The file `/gen/a.c` gets no vector, whether a path is excluded or not. -/
theorem generate_lineVectors_generated :
    (FileSummary.mk [(1, twiceListed [47, 103, 101, 110, 47, 97, 46, 99])]).Countable ∧
      generateLineCoverageVector ⟨[(1, twiceListed [47, 103, 101, 110, 47, 97, 46, 99])]⟩ []
        (fun _ => none) [47, 103, 101, 110, 47, 97, 46, 99] = none :=
  ⟨twiceListed_countable _, by decide⟩

end Vts.Coverage
