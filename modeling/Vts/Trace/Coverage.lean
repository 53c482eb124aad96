import Mathlib.Algebra.BigOperators.Intervals
import Mathlib.Algebra.Ring.Int.Defs

/-!
# Coverage reports of traces

`UpdateCoverageData`, `GetTotalCoverageLine` and `GetTotalCodeLine` of
`utils/native/trace_processor/VtsCoverageProcessor.cpp`. A report lists source files, each
with the number of times that its lines were executed.

The meaning of a report is the set of covered lines, each a path with the index of a line.
Proved here: updating a report by another one removes exactly the lines of the other, and
a report whose counts are right stays so; the sum of its counts is then the number of its
covered lines. Counts are integers: a count is at most the length of a vector, so that
neither it nor a sum of counts of files in memory leaves its machine type.
-/

namespace Vts.Trace

open List

/-- `CoverageReportMessage`, with the fields that the trace processor reads. -/
structure CoverageReportMessage where
  file_path : String
  line_coverage_vector : List Int
  total_line_count : Int
  covered_line_count : Int
deriving DecidableEq

/-- `TestReportMessage`: its coverage entries. -/
structure TestReportMessage where
  coverage : List CoverageReportMessage
deriving DecidableEq

/-- The loop of `UpdateCoverageData` over the lines of both reports: the lines of the
second one and its count. -/
def updateLines : List Int → List Int → Int → List Int × Int
  | ref :: refs, line :: lines, covered_line_count =>
    if 0 < ref ∧ 0 < line then
      let updated := updateLines refs lines (covered_line_count - 1)
      (0 :: updated.1, updated.2)
    else
      let updated := updateLines refs lines covered_line_count
      (line :: updated.1, updated.2)
  | _, lines, covered_line_count => (lines, covered_line_count)

/-- `UpdateCoverageData`; none when the sanity check ends the program. -/
def UpdateCoverageData (ref_msg msg_to_be_updated : CoverageReportMessage) :
    Option CoverageReportMessage :=
  if ref_msg.file_path = msg_to_be_updated.file_path then
    let updated := updateLines ref_msg.line_coverage_vector
      msg_to_be_updated.line_coverage_vector msg_to_be_updated.covered_line_count
    if updated.2 < 0 then none
    else some { msg_to_be_updated with
      line_coverage_vector := updated.1, covered_line_count := updated.2 }
  else some msg_to_be_updated

def GetTotalCoverageLine (msg : TestReportMessage) : Int :=
  msg.coverage.foldl (fun total coverage => total + coverage.covered_line_count) 0

def GetTotalCodeLine (msg : TestReportMessage) : Int :=
  msg.coverage.foldl (fun total coverage => total + coverage.total_line_count) 0

/-! ## Covered lines -/

/-- The indices of the positive entries of a vector. -/
def positives (lines : List Int) : Finset Nat :=
  (Finset.range lines.length).filter fun line => 0 < lines.getD line 0

/-- The covered lines of a source file. -/
def fileLines (msg : CoverageReportMessage) : Finset (String × Nat) :=
  (positives msg.line_coverage_vector).image fun line => (msg.file_path, line)

/-- The covered lines of a list of source files. -/
def coveredLines : List CoverageReportMessage → Finset (String × Nat)
  | [] => ∅
  | msg :: msgs => fileLines msg ∪ coveredLines msgs

/-- The count of a source file is the number of positive entries of its vector. -/
def Counted (msg : CoverageReportMessage) : Prop :=
  msg.covered_line_count = (msg.line_coverage_vector.countP fun line => 0 < line : Nat)

theorem mem_positives {lines : List Int} {line : Nat} :
    line ∈ positives lines ↔ 0 < lines.getD line 0 := by
  rw [positives, Finset.mem_filter, Finset.mem_range]
  constructor
  · exact And.right
  · intro positive
    refine ⟨?_, positive⟩
    by_contra beyond
    have absent : lines.getD line 0 = 0 := by
      simp [getD_eq_getElem?_getD, List.getElem?_eq_none (by omega : lines.length ≤ line)]
    omega

section

variable {msg : CoverageReportMessage} {path : String} {msgs : List CoverageReportMessage}
  (refs lines : List Int) (count : Int)

theorem card_positives : (positives lines).card = lines.countP fun line => 0 < line := by
  induction lines with
  | nil => rfl
  | cons line lines ih =>
    rw [positives, Finset.card_filter, length_cons, Finset.sum_range_succ']
    rw [positives, Finset.card_filter] at ih
    simp only [getD_cons_succ, getD_cons_zero]
    rw [ih, countP_cons]
    simp

theorem mem_fileLines {line : Nat} :
    (path, line) ∈ fileLines msg ↔
      path = msg.file_path ∧ 0 < msg.line_coverage_vector.getD line 0 := by
  rw [fileLines, Finset.mem_image]
  constructor
  · rintro ⟨index, positive, same⟩
    obtain ⟨rfl, rfl⟩ := Prod.mk.inj same
    exact ⟨rfl, mem_positives.mp positive⟩
  · rintro ⟨rfl, positive⟩
    exact ⟨line, mem_positives.mpr positive, rfl⟩

theorem card_fileLines (msg : CoverageReportMessage) :
    (fileLines msg).card = msg.line_coverage_vector.countP fun line => 0 < line := by
  rw [fileLines, Finset.card_image_of_injective _ (Prod.mk_right_injective _), card_positives]

theorem path_of_mem_coveredLines {line : Nat} (covered : (path, line) ∈ coveredLines msgs) :
    path ∈ msgs.map CoverageReportMessage.file_path := by
  induction msgs with
  | nil => simp [coveredLines] at covered
  | cons msg msgs ih =>
    rcases Finset.mem_union.mp covered with first | later
    · exact mem_cons.mpr (Or.inl (mem_fileLines.mp first).1)
    · exact mem_cons_of_mem _ (ih later)

/-! ## Updates -/

/-- The loop clears the lines that both vectors cover. -/
theorem updateLines_getD (line : Nat) :
    (updateLines refs lines count).1.getD line 0 =
      if 0 < refs.getD line 0 ∧ 0 < lines.getD line 0 then 0 else lines.getD line 0 := by
  induction refs generalizing lines count line with
  | nil => simp [updateLines]
  | cons ref refs ih =>
    cases lines with
    | nil => simp [updateLines]
    | cons first lines =>
      unfold updateLines
      cases line with
      | zero => by_cases both : 0 < ref ∧ 0 < first <;> simp [both]
      | succ line =>
        by_cases both : 0 < ref ∧ 0 < first
        · simpa [both] using ih lines (count - 1) line
        · simpa [both] using ih lines count line

/-- The loop counts the lines that it clears. -/
theorem updateLines_count :
    (updateLines refs lines count).2 =
      count - (lines.countP fun line => 0 < line : Nat) +
        ((updateLines refs lines count).1.countP fun line => 0 < line : Nat) := by
  induction refs generalizing lines count with
  | nil => simp [updateLines]
  | cons ref refs ih =>
    cases lines with
    | nil => simp [updateLines]
    | cons first lines =>
      unfold updateLines
      split_ifs with both
      · simp only [countP_cons, both.2, decide_true, if_true]
        rw [ih]
        simp
        omega
      · simp only [countP_cons]
        rw [ih]
        push_cast
        omega

/-- Updating a source file removes exactly the lines of the other one, and its count
stays right, so the sanity check holds. -/
theorem updateCoverageData_eq (ref : CoverageReportMessage) (counted : Counted msg) :
    ∃ updated, UpdateCoverageData ref msg = some updated ∧
      updated.file_path = msg.file_path ∧ Counted updated ∧
      fileLines updated = fileLines msg \ fileLines ref := by
  by_cases same : ref.file_path = msg.file_path
  · have count := updateLines_count ref.line_coverage_vector msg.line_coverage_vector
      msg.covered_line_count
    unfold Counted at counted
    have sane : ¬ (updateLines ref.line_coverage_vector msg.line_coverage_vector
        msg.covered_line_count).2 < 0 := by omega
    unfold UpdateCoverageData
    rw [if_pos same]
    have recounted : (updateLines ref.line_coverage_vector msg.line_coverage_vector
        msg.covered_line_count).2 = ((updateLines ref.line_coverage_vector
          msg.line_coverage_vector msg.covered_line_count).1.countP fun line => 0 < line : Nat) := by
      omega
    refine ⟨_, if_neg sane, rfl, recounted, ?_⟩
    ext ⟨path, line⟩
    rw [Finset.mem_sdiff, mem_fileLines, mem_fileLines, mem_fileLines, updateLines_getD, same]
    by_cases both : 0 < ref.line_coverage_vector.getD line 0 ∧
        0 < msg.line_coverage_vector.getD line 0
    · rw [if_pos both]
      constructor
      · rintro ⟨_, positive⟩
        exact absurd positive (lt_irrefl 0)
      · rintro ⟨⟨samePath, _⟩, uncovered⟩
        exact absurd ⟨samePath, both.1⟩ uncovered
    · rw [if_neg both]
      constructor
      · rintro ⟨samePath, positive⟩
        exact ⟨⟨samePath, positive⟩, fun other => both ⟨other.2, positive⟩⟩
      · exact And.left
  · refine ⟨msg, if_neg same, rfl, counted, ?_⟩
    ext ⟨path, line⟩
    rw [Finset.mem_sdiff, mem_fileLines, mem_fileLines]
    constructor
    · rintro ⟨rfl, positive⟩
      exact ⟨⟨rfl, positive⟩, fun other => same other.1.symm⟩
    · exact And.left

/-- A report in which each source file is listed once and counted right. -/
structure WellFormed (msgs : List CoverageReportMessage) : Prop where
  distinct : (msgs.map CoverageReportMessage.file_path).Nodup
  counted : ∀ msg ∈ msgs, Counted msg

theorem wellFormed_cons_iff :
    WellFormed (msg :: msgs) ↔
      msg.file_path ∉ msgs.map CoverageReportMessage.file_path ∧ Counted msg ∧
        WellFormed msgs := by
  constructor
  · rintro ⟨distinct, counted⟩
    obtain ⟨fresh, distinct⟩ := nodup_cons.mp distinct
    exact ⟨fresh, counted msg (by simp), distinct, fun other listed => counted other (by simp [listed])⟩
  · rintro ⟨fresh, first, distinct, counted⟩
    refine ⟨nodup_cons.mpr ⟨fresh, distinct⟩, ?_⟩
    intro other listed
    rcases mem_cons.mp listed with rfl | later
    · exact first
    · exact counted other later

end

/-- The files of a report share no line, so its counts add up to the number of its lines. -/
theorem WellFormed.total {msgs : List CoverageReportMessage} (wellFormed : WellFormed msgs) :
    GetTotalCoverageLine ⟨msgs⟩ = ((coveredLines msgs).card : Int) := by
  have sums : ∀ start : Int,
      msgs.foldl (fun total coverage => total + coverage.covered_line_count) start =
        start + (coveredLines msgs).card := by
    induction msgs with
    | nil => simp [coveredLines]
    | cons msg msgs ih =>
      intro start
      obtain ⟨fresh, counted, rest⟩ := wellFormed_cons_iff.mp wellFormed
      have apart : Disjoint (fileLines msg) (coveredLines msgs) := by
        rw [Finset.disjoint_left]
        rintro ⟨path, line⟩ first later
        rw [(mem_fileLines.mp first).1] at later
        exact fresh (path_of_mem_coveredLines later)
      rw [foldl_cons, ih rest, coveredLines,
        Finset.card_union_of_disjoint apart, card_fileLines, counted]
      push_cast
      omega
  simpa [GetTotalCoverageLine] using sums 0

/-- The inner loop of the selection: all files of a report are updated by one file. -/
def updateFiles (ref : CoverageReportMessage) (msgs : List CoverageReportMessage) :
    Option (List CoverageReportMessage) :=
  msgs.mapM (UpdateCoverageData ref)

/-- The two inner loops of the selection: a report is updated by all files of another. -/
def updateReport (refs msgs : List CoverageReportMessage) : Option (List CoverageReportMessage) :=
  refs.foldlM (fun msgs ref => updateFiles ref msgs) msgs

theorem WellFormed.updateFiles {msgs : List CoverageReportMessage} (wellFormed : WellFormed msgs)
    (ref : CoverageReportMessage) :
    ∃ updated, updateFiles ref msgs = some updated ∧
      updated.map CoverageReportMessage.file_path = msgs.map CoverageReportMessage.file_path ∧
      WellFormed updated ∧ coveredLines updated = coveredLines msgs \ fileLines ref := by
  induction msgs with
  | nil => exact ⟨[], rfl, rfl, wellFormed, by simp [coveredLines]⟩
  | cons msg msgs ih =>
    obtain ⟨fresh, counted, rest⟩ := wellFormed_cons_iff.mp wellFormed
    obtain ⟨first, firstUpdated, path, firstCounted, firstLines⟩ := updateCoverageData_eq ref counted
    obtain ⟨others, othersUpdated, paths, othersFormed, othersLines⟩ := ih rest
    refine ⟨first :: others, ?_, by rw [map_cons, map_cons, path, paths],
      wellFormed_cons_iff.mpr ⟨by rw [path, paths]; exact fresh, firstCounted, othersFormed⟩, ?_⟩
    · unfold Vts.Trace.updateFiles at othersUpdated ⊢
      rw [mapM_cons, firstUpdated, othersUpdated]
      rfl
    · rw [coveredLines, coveredLines, firstLines, othersLines, Finset.union_sdiff_distrib]

/-- Updating a report removes exactly the lines of the other one. -/
theorem WellFormed.updateReport {msgs : List CoverageReportMessage}
    (wellFormed : WellFormed msgs) (refs : List CoverageReportMessage) :
    ∃ updated, updateReport refs msgs = some updated ∧ WellFormed updated ∧
      coveredLines updated = coveredLines msgs \ coveredLines refs := by
  induction refs generalizing msgs with
  | nil => exact ⟨msgs, rfl, wellFormed, by simp [coveredLines]⟩
  | cons ref refs ih =>
    obtain ⟨once, onceUpdated, _, onceFormed, onceLines⟩ := wellFormed.updateFiles ref
    obtain ⟨updated, all, formed, lines⟩ := ih onceFormed
    refine ⟨updated, ?_, formed, ?_⟩
    · unfold Vts.Trace.updateReport at all ⊢
      rw [foldlM_cons, onceUpdated]
      exact all
    · rw [lines, onceLines, coveredLines, sdiff_sdiff]
      rfl

end Vts.Trace
