import Vts.Trace.Coverage

/-!
# Merging coverage reports

`MergeCoverage` and `MergeCoverageMsg` of
`utils/native/trace_processor/VtsCoverageProcessor.cpp`, from the parsed reports on, in the
order in which the directory lists them. The merged report has one entry for each path, which
begins as a copy of the first entry that is read and takes the counts of the others.

The counts of lines are words of 64 bits that `MergeCoverageMsg` reads as an `int`; a sum
that an `int` cannot hold is undefined. Proved here: the entry of a path is the first one
merged with the later ones of the path, each of its lines depends on the words of that line
only, and when the sums are defined. Printing and writing are left out.
-/

namespace Vts.Trace

open Option hiding mem_map

open List

/-- The greatest `int`. -/
def intMax : Int := 2 ^ 31 - 1

/-- `int value = ...` of a word of 64 bits. -/
def toInt (value : Int) : Int := (value + 2 ^ 31) % 2 ^ 32 - 2 ^ 31

/-- The loop of `MergeCoverageMsg` over the lines of both entries: the lines of the merged
one and its count. None when a sum is undefined. -/
def mergeLines : List Int → List Int → Int → Option (List Int × Int)
  | ref :: refs, merged :: lines, covered_line_count =>
    let ref_line_count := toInt ref
    let merged_line_count := toInt merged
    if 0 < ref_line_count then
      if merged_line_count + ref_line_count ≤ intMax then do
        let rest ← mergeLines refs lines
          (if merged_line_count = 0 then covered_line_count + 1 else covered_line_count)
        some ((merged_line_count + ref_line_count) :: rest.1, rest.2)
      else none
    else do
      let rest ← mergeLines refs lines covered_line_count
      some (merged :: rest.1, rest.2)
  | _, lines, covered_line_count => some (lines, covered_line_count)

/-- `MergeCoverageMsg`; none when a sanity check ends the program. -/
def MergeCoverageMsg (ref_coverage_msg merged_coverage_msg : CoverageReportMessage) :
    Option CoverageReportMessage :=
  if ref_coverage_msg.file_path ≠ merged_coverage_msg.file_path then none
  else if ref_coverage_msg.line_coverage_vector.length ≠
      merged_coverage_msg.line_coverage_vector.length then none
  else do
    let merged ← mergeLines ref_coverage_msg.line_coverage_vector
      merged_coverage_msg.line_coverage_vector merged_coverage_msg.covered_line_count
    some { merged_coverage_msg with
      line_coverage_vector := merged.1, covered_line_count := merged.2 }

/-- The loop over the merged entries: the first one of the same path is merged, and a new
path is added. -/
def mergeEntry (merged_coverage : List CoverageReportMessage) (cov : CoverageReportMessage) :
    Option (List CoverageReportMessage) :=
  match merged_coverage with
  | [] => some [cov]
  | merged :: others =>
    if merged.file_path = cov.file_path then do
      let updated ← MergeCoverageMsg cov merged
      some (updated :: others)
    else do
      let rest ← mergeEntry others cov
      some (merged :: rest)

/-- `MergeCoverage`, of the reports in the order in which they are read. -/
def MergeCoverage (coverage_reports : List TestReportMessage) : Option TestReportMessage := do
  let coverage ← coverage_reports.foldlM (fun merged_coverage coverage_report =>
    coverage_report.coverage.foldlM mergeEntry merged_coverage) []
  some ⟨coverage⟩

/-! ## A line -/

theorem toInt_le (value : Int) : toInt value ≤ intMax := by
  unfold toInt intMax
  omega

theorem le_toInt (value : Int) : -2 ^ 31 ≤ toInt value := by
  unfold toInt
  omega

theorem toInt_eq {value : Int} (lower : -2 ^ 31 ≤ value) (upper : value ≤ intMax) :
    toInt value = value := by
  unfold toInt
  unfold intMax at upper
  omega

theorem toInt_le_self {value : Int} (lower : -1 ≤ value) : toInt value ≤ value := by
  unfold toInt
  omega

/-- What words add to a line: those that are positive as an `int` are counted. -/
def gain (words : List Int) : Int := (words.map fun word => max 0 (toInt word)).sum

@[simp] theorem gain_nil : gain [] = 0 := rfl

@[simp] theorem gain_cons (word : Int) (words : List Int) :
    gain (word :: words) = max 0 (toInt word) + gain words := by
  rw [gain, map_cons, sum_cons]
  rfl

theorem gain_perm {first second : List Int} (same : first.Perm second) :
    gain first = gain second := (same.map _).sum_eq

theorem gain_nonneg (words : List Int) : 0 ≤ gain words := by
  induction words with
  | nil => exact le_refl _
  | cons word words ih =>
    rw [gain_cons]
    omega

variable {first ref cov : CoverageReportMessage} {words : List Int}
  {out rest entries current : List CoverageReportMessage}

section

variable {word first : Int} (start : Int)

theorem le_gain (present : word ∈ words) : max 0 (toInt word) ≤ gain words := by
  rw [gain_perm (perm_cons_erase present), gain_cons]
  have nonneg := gain_nonneg (words.erase word)
  omega

/-- The word of a line after later words: it is the first one until a later one is positive. -/
def lineValue (first : Int) (words : List Int) : Int :=
  if 0 < gain words then toInt first + gain words else first

/-- The sums of a line are defined. -/
def LineFits (first : Int) (words : List Int) : Prop :=
  0 < gain words → toInt first + gain words ≤ intMax

instance (first : Int) (words : List Int) : Decidable (LineFits first words) := by
  unfold LineFits
  infer_instance

/-- How often the merging of a line raises the number of covered lines. -/
def marks (start : Int) : List Int → Int
  | [] => 0
  | word :: words =>
    (if 0 < toInt word ∧ start = 0 then 1 else 0) + marks (start + max 0 (toInt word)) words

/-- The running sum of a line is zero at some time. -/
def Passes (start : Int) (words : List Int) : Prop :=
  ∃ front ∈ words.inits, start + gain front = 0

instance (start : Int) (words : List Int) : Decidable (Passes start words) := by
  unfold Passes
  infer_instance

theorem passes_cons (word : Int) (words : List Int) :
    Passes start (word :: words) ↔ start = 0 ∨ Passes (start + max 0 (toInt word)) words := by
  unfold Passes
  simp only [inits_cons, mem_cons, mem_map, exists_eq_or_imp, gain_nil, add_zero,
    exists_exists_and_eq_and, gain_cons, add_assoc]

/-- A line is marked if it becomes positive and its running sum is zero before. -/
theorem marks_eq (words : List Int) :
    marks start words = if 0 < start + gain words ∧ Passes start words then 1 else 0 := by
  induction words generalizing start with
  | nil =>
    have never : ¬ (0 < start + gain [] ∧ Passes start []) := by
      rintro ⟨positive, front, present, zero⟩
      rw [mem_singleton.mp present] at zero
      omega
    rw [if_neg never, marks]
  | cons word words ih =>
    have nonneg := gain_nonneg words
    rw [marks, ih, gain_cons, ← add_assoc]
    simp only [passes_cons]
    by_cases zero : start = 0
    · subst start
      by_cases positive : 0 < toInt word
      · have passed : ¬ Passes (0 + max 0 (toInt word)) words := by
          rintro ⟨front, _, sum⟩
          have := gain_nonneg front
          omega
        rw [if_pos ⟨positive, rfl⟩, if_neg (fun both => passed both.2),
          if_pos ⟨by omega, Or.inl rfl⟩, add_zero]
      · have here : Passes (0 + max 0 (toInt word)) words :=
          ⟨[], by simp, by rw [gain_nil]; omega⟩
        rw [if_neg (fun both => positive both.1), zero_add]
        simp only [here, true_or]
    · rw [if_neg (fun both => zero both.2), zero_add]
      simp only [zero, false_or]

/-- While the sums are defined, the word of a line is the running sum when it is read. -/
theorem toInt_lineValue (fits : LineFits first words) :
    toInt (lineValue first words) = toInt first + gain words := by
  have nonneg := gain_nonneg words
  have lower := le_toInt first
  unfold lineValue
  split_ifs with raised
  · exact toInt_eq (by omega) (fits raised)
  · omega

theorem LineFits.head (fits : LineFits first (word :: words)) : LineFits first [word] := by
  have nonneg := gain_nonneg words
  intro raised
  rw [gain_cons, gain_nil] at raised ⊢
  have whole := fits (by rw [gain_cons]; omega)
  rw [gain_cons] at whole
  omega

theorem lineFits_cons (fits : LineFits first [word]) :
    LineFits (lineValue first [word]) words ↔ LineFits first (word :: words) := by
  have nonneg := gain_nonneg words
  unfold LineFits
  rw [toInt_lineValue fits]
  unfold LineFits at fits
  rw [gain_cons, gain_nil] at *
  rw [gain_cons]
  constructor
  · intro later raised
    by_cases more : 0 < gain words
    · have := later more
      omega
    · have := fits (by omega)
      omega
  · intro whole raised
    have := whole (by omega)
    omega

theorem lineValue_cons (fits : LineFits first [word]) :
    lineValue (lineValue first [word]) words = lineValue first (word :: words) := by
  have nonneg := gain_nonneg words
  rw [lineValue, toInt_lineValue fits]
  unfold lineValue
  rw [gain_cons, gain_cons, gain_nil]
  split_ifs <;> omega

theorem marks_cons (fits : LineFits first [word]) :
    marks (toInt first) (word :: words) =
      marks (toInt first) [word] + marks (toInt (lineValue first [word])) words := by
  rw [toInt_lineValue fits, marks, marks, marks, gain_cons, gain_nil, add_zero, add_zero]

end

/-! ## Two entries -/

/-- The words of a line. -/
def column (line : Nat) (entries : List CoverageReportMessage) : List Int :=
  entries.map fun entry => entry.line_coverage_vector.getD line 0

/-- The loop merges the first lines with each other, and then the later ones. -/
theorem mergeLines_cons (ref first : Int) (refs lines : List Int) (count : Int) :
    mergeLines (ref :: refs) (first :: lines) count =
      if LineFits first [ref] then
        (mergeLines refs lines (count + marks (toInt first) [ref])).map fun rest =>
          (lineValue first [ref] :: rest.1, rest.2)
      else none := by
  rw [mergeLines]
  by_cases positive : 0 < toInt ref
  · have raised : gain [ref] = toInt ref := by
      rw [gain_cons, gain_nil]
      omega
    have value : lineValue first [ref] = toInt first + toInt ref := by
      rw [lineValue, raised, if_pos positive]
    have mark : count + marks (toInt first) [ref] =
        if toInt first = 0 then count + 1 else count := by
      rw [marks, marks]
      split_ifs <;> omega
    have defined : LineFits first [ref] ↔ toInt first + toInt ref ≤ intMax := by
      rw [LineFits, raised]
      exact ⟨fun fits => fits positive, fun fits _ => fits⟩
    rw [value, mark]
    simp only [positive, if_true, defined]
    refine if_congr Iff.rfl ?_ rfl
    cases mergeLines refs lines (if toInt first = 0 then count + 1 else count) <;> rfl
  · have still : gain [ref] = 0 := by
      rw [gain_cons, gain_nil]
      omega
    have value : lineValue first [ref] = first := by
      rw [lineValue, still, if_neg (lt_irrefl 0)]
    have mark : count + marks (toInt first) [ref] = count := by
      rw [marks, marks]
      split_ifs <;> omega
    have defined : LineFits first [ref] := by
      rw [LineFits, still]
      exact fun raised => absurd raised (lt_irrefl 0)
    rw [value, mark, if_pos defined]
    simp only [positive, if_false]
    cases mergeLines refs lines count <;> rfl

/-- The loop merges each line with the word that stands at its place. -/
theorem mergeLines_some {refs lines : List Int} {count : Int} {out : List Int × Int}
    (sameLength : refs.length = lines.length) (merged : mergeLines refs lines count = some out) :
    out.1.length = lines.length ∧
      (∀ line, LineFits (lines.getD line 0) [refs.getD line 0] ∧
        out.1.getD line 0 = lineValue (lines.getD line 0) [refs.getD line 0]) ∧
      out.2 = count + ∑ line ∈ Finset.range lines.length,
        marks (toInt (lines.getD line 0)) [refs.getD line 0] := by
  induction refs generalizing lines count out with
  | nil =>
    obtain rfl : lines = [] := length_eq_zero_iff.mp sameLength.symm
    obtain rfl : ([], count) = out := by simpa [mergeLines] using merged
    exact ⟨rfl, fun line => ⟨by simp [LineFits, toInt], by simp [lineValue, toInt]⟩, by simp⟩
  | cons ref refs ih =>
    cases lines with
    | nil => exact absurd sameLength (by simp)
    | cons first lines =>
      rw [mergeLines_cons] at merged
      by_cases fits : LineFits first [ref]
      · rw [if_pos fits] at merged
        obtain ⟨rest, later, rfl⟩ := map_eq_some_iff.mp merged
        obtain ⟨length, values, sum⟩ := ih (by simpa using sameLength) later
        refine ⟨by simp [length], ?_, ?_⟩
        · intro line
          cases line with
          | zero => exact ⟨fits, rfl⟩
          | succ line => exact values line
        · rw [length_cons, Finset.sum_range_succ']
          simp only [getD_cons_succ, getD_cons_zero]
          rw [sum, add_assoc, add_comm (marks _ _)]
      · rw [if_neg fits] at merged
        exact absurd merged (by simp)

/-- The loop ends when the sums of all lines are defined. -/
theorem mergeLines_of_fits {refs lines : List Int} {count : Int}
    (sameLength : refs.length = lines.length)
    (fits : ∀ line, LineFits (lines.getD line 0) [refs.getD line 0]) :
    ∃ out, mergeLines refs lines count = some out := by
  induction refs generalizing lines count with
  | nil => exact ⟨(lines, count), by simp [mergeLines]⟩
  | cons ref refs ih =>
    cases lines with
    | nil => exact absurd sameLength (by simp)
    | cons first lines =>
      obtain ⟨rest, later⟩ : ∃ rest,
          mergeLines refs lines (count + marks (toInt first) [ref]) = some rest :=
        ih (by simpa using sameLength) (fun line => fits (line + 1))
      have head : LineFits first [ref] := fits 0
      rw [mergeLines_cons, if_pos head, later]
      exact ⟨_, rfl⟩

/-- An entry is the first one merged with later ones, line by line. -/
structure Merged (first : CoverageReportMessage) (rest : List CoverageReportMessage)
    (out : CoverageReportMessage) : Prop where
  path : out.file_path = first.file_path
  length : out.line_coverage_vector.length = first.line_coverage_vector.length
  value : ∀ line, out.line_coverage_vector.getD line 0 =
    lineValue (first.line_coverage_vector.getD line 0) (column line rest)
  count : out.covered_line_count = first.covered_line_count +
    ∑ line ∈ Finset.range first.line_coverage_vector.length,
      marks (toInt (first.line_coverage_vector.getD line 0)) (column line rest)

/-- The sums of all lines are defined. -/
def Fits (first : CoverageReportMessage) (rest : List CoverageReportMessage) : Prop :=
  ∀ line, LineFits (first.line_coverage_vector.getD line 0) (column line rest)

/-- Two entries have the same path and vectors of one length. -/
def Alike (first second : CoverageReportMessage) : Prop :=
  first.file_path = second.file_path ∧
    first.line_coverage_vector.length = second.line_coverage_vector.length

theorem MergeCoverageMsg_some {out : CoverageReportMessage} (alike : Alike ref first)
    (merged : MergeCoverageMsg ref first = some out) :
    Fits first [ref] ∧ Merged first [ref] out := by
  unfold MergeCoverageMsg at merged
  rw [if_neg (not_not.mpr alike.1), if_neg (not_not.mpr alike.2)] at merged
  obtain ⟨lines, looped, whole⟩ := bind_eq_some_iff.mp merged
  obtain rfl := Option.some.inj whole
  obtain ⟨length, values, sum⟩ := mergeLines_some alike.2 looped
  exact ⟨fun line => (values line).1, rfl, length, fun line => (values line).2, sum⟩

theorem MergeCoverageMsg_of_fits (alike : Alike ref first) (fits : Fits first [ref]) :
    ∃ out, MergeCoverageMsg ref first = some out := by
  obtain ⟨lines, looped⟩ := mergeLines_of_fits alike.2 fits
  unfold MergeCoverageMsg
  rw [if_neg (not_not.mpr alike.1), if_neg (not_not.mpr alike.2), looped]
  exact ⟨_, rfl⟩

/-! ## The entries of a path -/

/-- The merging of later entries of a path into the first one. -/
def mergeRun (first : CoverageReportMessage) (rest : List CoverageReportMessage) :
    Option CoverageReportMessage :=
  rest.foldlM (fun merged cov => MergeCoverageMsg cov merged) first

theorem Merged.cons {first ref middle out : CoverageReportMessage}
    {rest : List CoverageReportMessage} (fits : Fits first [ref])
    (begun : Merged first [ref] middle) (ended : Merged middle rest out) :
    Merged first (ref :: rest) out where
  path := ended.path.trans begun.path
  length := ended.length.trans begun.length
  value line := by
    rw [ended.value, begun.value]
    exact lineValue_cons (fits line)
  count := by
    rw [ended.count, begun.count, begun.length, add_assoc, ← Finset.sum_add_distrib]
    refine congrArg _ (Finset.sum_congr rfl fun line _ => ?_)
    rw [begun.value]
    exact (marks_cons (fits line)).symm

theorem fits_cons {middle : CoverageReportMessage} (fits : Fits first [ref])
    (begun : Merged first [ref] middle) : Fits middle rest ↔ Fits first (ref :: rest) := by
  refine forall_congr' fun line => ?_
  rw [begun.value]
  exact lineFits_cons (fits line)

/-- All entries of a path are merged line by line, and the sums are defined. -/
theorem mergeRun_some {out : CoverageReportMessage} (alike : ∀ ref ∈ rest, Alike ref first)
    (merged : mergeRun first rest = some out) : Fits first rest ∧ Merged first rest out := by
  induction rest generalizing first with
  | nil =>
    obtain rfl : first = out := by simpa [mergeRun] using merged
    refine ⟨fun line => by simp [LineFits, column], rfl, rfl, fun line => ?_, ?_⟩
    · simp [lineValue, column]
    · simp [marks, column]
  | cons ref rest ih =>
    obtain ⟨middle, begun, ended⟩ := bind_eq_some_iff.mp merged
    obtain ⟨fits, step⟩ := MergeCoverageMsg_some (alike ref (by simp)) begun
    obtain ⟨laterFits, later⟩ := ih
      (fun other present => ⟨(alike other (by simp [present])).1.trans step.path.symm,
        (alike other (by simp [present])).2.trans step.length.symm⟩) ended
    exact ⟨(fits_cons fits step).mp laterFits, step.cons fits later⟩

/-- All entries of a path are merged when the sums are defined. -/
theorem mergeRun_of_fits (alike : ∀ ref ∈ rest, Alike ref first) (fits : Fits first rest) :
    ∃ out, mergeRun first rest = some out := by
  induction rest generalizing first with
  | nil => exact ⟨first, rfl⟩
  | cons ref rest ih =>
    have head : Fits first [ref] := fun line => (fits line).head
    obtain ⟨middle, begun⟩ := MergeCoverageMsg_of_fits (alike ref (by simp)) head
    obtain ⟨_, step⟩ := MergeCoverageMsg_some (alike ref (by simp)) begun
    obtain ⟨out, ended⟩ := ih
      (fun other present => ⟨(alike other (by simp [present])).1.trans step.path.symm,
        (alike other (by simp [present])).2.trans step.length.symm⟩)
      ((fits_cons head step).mpr fits)
    exact ⟨out, bind_eq_some_iff.mpr ⟨middle, begun, ended⟩⟩

/-! ## All paths -/

/-- The entries of a path. -/
def entriesOf (path : String) (entries : List CoverageReportMessage) :
    List CoverageReportMessage :=
  entries.filter fun entry => entry.file_path = path

section

variable {path : String} {entry : CoverageReportMessage}

theorem mem_entriesOf :
    entry ∈ entriesOf path entries ↔ entry ∈ entries ∧ entry.file_path = path := by
  rw [entriesOf, mem_filter, decide_eq_true_iff]

theorem entriesOf_cons_same (same : entry.file_path = path) (entries : List CoverageReportMessage) :
    entriesOf path (entry :: entries) = entry :: entriesOf path entries :=
  filter_cons_of_pos (decide_eq_true same)

theorem entriesOf_cons_other {path : String} {entry : CoverageReportMessage}
    (other : entry.file_path ≠ path) (entries : List CoverageReportMessage) :
    entriesOf path (entry :: entries) = entriesOf path entries :=
  filter_cons_of_neg (by simpa using other)

theorem MergeCoverageMsg_path {out : CoverageReportMessage}
    (merged : MergeCoverageMsg ref first = some out) : out.file_path = first.file_path := by
  unfold MergeCoverageMsg at merged
  split_ifs at merged
  obtain ⟨lines, looped, whole⟩ := bind_eq_some_iff.mp merged
  obtain rfl := Option.some.inj whole
  rfl

/-- An entry is merged into the first one of its path, or into the ones behind an entry of another
path. -/
theorem mergeEntry_cons {others : List CoverageReportMessage}
    (merged : mergeEntry (first :: others) cov = some out) :
    (first.file_path = cov.file_path ∧ ∃ updated, MergeCoverageMsg cov first = some updated ∧
      updated.file_path = first.file_path ∧ out = updated :: others) ∨
    (first.file_path ≠ cov.file_path ∧ ∃ rest, mergeEntry others cov = some rest ∧
      out = first :: rest) := by
  by_cases here : first.file_path = cov.file_path
  · rw [mergeEntry, if_pos here] at merged
    obtain ⟨updated, msg, whole⟩ := bind_eq_some_iff.mp merged
    have kept := MergeCoverageMsg_path msg
    exact .inl ⟨here, updated, msg, kept, (Option.some.inj whole).symm⟩
  · rw [mergeEntry, if_neg here] at merged
    obtain ⟨rest, later, whole⟩ := bind_eq_some_iff.mp merged
    exact .inr ⟨here, rest, later, (Option.some.inj whole).symm⟩

/-- An entry changes the entries of its path as if there were no others. -/
theorem mergeEntry_same (same : cov.file_path = path) (merged : mergeEntry current cov = some out) :
    mergeEntry (entriesOf path current) cov = some (entriesOf path out) := by
  induction current generalizing out with
  | nil =>
    obtain rfl : [cov] = out := by simpa [mergeEntry] using merged
    rw [entriesOf_cons_same same]
    rfl
  | cons first others ih =>
    obtain ⟨here, updated, msg, kept, rfl⟩ | ⟨elsewhere, rest, later, rfl⟩ := mergeEntry_cons merged
    · rw [entriesOf_cons_same (here.trans same), mergeEntry, if_pos here, msg,
        entriesOf_cons_same (kept.trans (here.trans same))]
      rfl
    · have other : first.file_path ≠ path := fun equal => elsewhere (equal.trans same.symm)
      rw [entriesOf_cons_other other, entriesOf_cons_other other]
      exact ih later

end

theorem mergeEntry_other {path : String} (other : cov.file_path ≠ path)
    (merged : mergeEntry current cov = some out) : entriesOf path current = entriesOf path out := by
  induction current generalizing out with
  | nil =>
    obtain rfl : [cov] = out := by simpa [mergeEntry] using merged
    rw [entriesOf_cons_other other]
  | cons first others ih =>
    obtain ⟨here, updated, msg, kept, rfl⟩ | ⟨_, rest, later, rfl⟩ := mergeEntry_cons merged
    · rw [entriesOf_cons_other (here ▸ other), entriesOf_cons_other (kept ▸ here ▸ other)]
    · unfold entriesOf at ih ⊢
      rw [filter_cons, filter_cons, ih later]

theorem mergeEntry_of_same
    (merged : ∃ out, mergeEntry (entriesOf cov.file_path current) cov = some out) :
    ∃ out, mergeEntry current cov = some out := by
  induction current with
  | nil => exact ⟨_, rfl⟩
  | cons first others ih =>
    obtain ⟨out, merged⟩ := merged
    by_cases here : first.file_path = cov.file_path
    · rw [entriesOf_cons_same here, mergeEntry, if_pos here] at merged
      obtain ⟨updated, msg, _⟩ := bind_eq_some_iff.mp merged
      exact ⟨updated :: others, by rw [mergeEntry, if_pos here, msg]; rfl⟩
    · rw [entriesOf_cons_other here] at merged
      obtain ⟨rest, later⟩ := ih ⟨out, merged⟩
      exact ⟨first :: rest, by rw [mergeEntry, if_neg here, later]; rfl⟩

/-- The loop over all entries does with a path what the loop over its entries does. -/
theorem mergeEntries_some (merged : entries.foldlM mergeEntry current = some out) (path : String) :
    (entriesOf path entries).foldlM mergeEntry (entriesOf path current) =
      some (entriesOf path out) := by
  induction entries generalizing current with
  | nil =>
    obtain rfl : current = out := by simpa using merged
    rfl
  | cons cov entries ih =>
    obtain ⟨next, first, later⟩ := bind_eq_some_iff.mp merged
    by_cases same : cov.file_path = path
    · rw [entriesOf_cons_same same]
      exact bind_eq_some_iff.mpr ⟨_, mergeEntry_same same first, ih later⟩
    · rw [entriesOf_cons_other same, mergeEntry_other same first]
      exact ih later

/-- The loop over all entries ends if it ends for each path. -/
theorem mergeEntries_of_paths (merged : ∀ path, ∃ out,
      (entriesOf path entries).foldlM mergeEntry (entriesOf path current) = some out) :
    ∃ out, entries.foldlM mergeEntry current = some out := by
  induction entries generalizing current with
  | nil => exact ⟨current, rfl⟩
  | cons cov entries ih =>
    obtain ⟨next, first⟩ : ∃ next, mergeEntry current cov = some next := by
      obtain ⟨out, whole⟩ := merged cov.file_path
      rw [entriesOf_cons_same rfl] at whole
      obtain ⟨next, first, _⟩ := bind_eq_some_iff.mp whole
      exact mergeEntry_of_same ⟨next, first⟩
    obtain ⟨out, later⟩ : ∃ out, entries.foldlM mergeEntry next = some out := by
      refine ih fun path => ?_
      obtain ⟨out, whole⟩ := merged path
      by_cases same : cov.file_path = path
      · rw [entriesOf_cons_same same, foldlM_cons, mergeEntry_same same first] at whole
        exact ⟨out, whole⟩
      · rw [entriesOf_cons_other same, mergeEntry_other same first] at whole
        exact ⟨out, whole⟩
    exact ⟨out, bind_eq_some_iff.mpr ⟨next, first, later⟩⟩

theorem mergeEntries_path (path : ∀ ref ∈ rest, ref.file_path = first.file_path) :
    rest.foldlM mergeEntry [first] = (mergeRun first rest).map fun out => [out] := by
  induction rest generalizing first with
  | nil => rfl
  | cons ref rest ih =>
    have same : first.file_path = ref.file_path := (path ref (by simp)).symm
    rw [mergeRun, foldlM_cons, foldlM_cons, mergeEntry, if_pos same]
    cases msg : MergeCoverageMsg ref first with
    | none => rfl
    | some updated =>
      exact ih fun other present =>
        (path other (by simp [present])).trans (MergeCoverageMsg_path msg).symm

/-- The entries of all reports, in the order in which they are read. -/
def allEntries (reports : List TestReportMessage) : List CoverageReportMessage :=
  reports.flatMap TestReportMessage.coverage

theorem MergeCoverage_eq (reports : List TestReportMessage) :
    MergeCoverage reports =
      ((allEntries reports).foldlM mergeEntry []).map TestReportMessage.mk := by
  have loops : ∀ current : List CoverageReportMessage,
      reports.foldlM (fun merged_coverage coverage_report =>
        coverage_report.coverage.foldlM mergeEntry merged_coverage) current =
      (allEntries reports).foldlM mergeEntry current := by
    induction reports with
    | nil => exact fun _ => rfl
    | cons report reports ih =>
      intro current
      rw [allEntries, flatMap_cons, foldlM_append, foldlM_cons]
      exact congrArg _ (funext ih)
  rw [MergeCoverage, loops]
  cases (allEntries reports).foldlM mergeEntry [] <;> rfl

end Vts.Trace
