import Mathlib.Data.String.Basic
import Vts.Lib.Rounding
import Vts.Trace.Coverage

/-!
# Trace selection

`VtsTraceProcessor::SelectTraces` of `utils/native/trace_processor/VtsTraceProcessor.cpp`,
from the parsed coverage reports on. In each round every remaining report is updated by
the report that was selected last, which was itself updated in the rounds before; the
report with the greatest metric is selected, and the loop ends when no metric is positive.

Proved here: the loop ends, the selected files cover what all files cover, and the
reported number of covered lines is the number of lines covered, for both metrics. Of the double values only the rounding is modelled: quotients of positive words
stay far from the ends of the range of exponents. The printed coverage rate is left out.
-/

namespace Vts.Trace

open Finset hiding map_cons mem_singleton sum_cons

open Vts.Lib List

/-- `TraceSelectionMetric`: `MAX_COVERAGE` and `MAX_COVERAGE_SIZE_RATIO`. -/
inductive TraceSelectionMetric where
  | maxCoverage
  | maxCoverageSizeRatio
deriving DecidableEq

/-- `CoverageInfo`. -/
structure CoverageInfo where
  coverage_msg : TestReportMessage
  trace_file_name : String
  trace_file_size : Int
deriving DecidableEq

/-- A `map<string, CoverageInfo>`, from the names of coverage files. -/
structure CoverageMap where
  entries : List (String × CoverageInfo)
  ordered : entries.Pairwise fun first second => first.1 < second.1

/-- `map[file]`; an absent entry would be made. -/
def mapGet (entries : List (String × CoverageInfo)) (file : String) : CoverageInfo :=
  ((entries.find? fun entry => entry.1 == file).map Prod.snd).getD ⟨⟨[]⟩, "", 0⟩

/-- `map[file] = info`. -/
def mapSet (file : String) (info : CoverageInfo) :
    List (String × CoverageInfo) → List (String × CoverageInfo)
  | [] => [(file, info)]
  | entry :: entries =>
    if file < entry.1 then (file, info) :: entry :: entries
    else if file = entry.1 then (file, info) :: entries
    else entry :: mapSet file info entries

/-- `map.erase(file)`. -/
def mapErase (entries : List (String × CoverageInfo)) (file : String) :
    List (String × CoverageInfo) :=
  entries.filter fun entry => entry.1 != file

/-- `(double)word`. -/
def toDouble (word : Int) : ℚ := Rounding.roundTo 53 word

/-- The value that a report is judged by. -/
def selectionMetric (metric : TraceSelectionMetric) (total_coverage_line trace_file_size : Int) :
    ℚ :=
  match metric with
  | .maxCoverage =>
    Rounding.roundTo 53 (toDouble total_coverage_line / toDouble trace_file_size)
  | .maxCoverageSizeRatio => toDouble total_coverage_line

/-- The state of the scan over the remaining reports: those already updated, the greatest
metric so far and its file. -/
structure Scan where
  coverages : List (String × CoverageInfo)
  max_selection_metric : ℚ
  selected_coverage_file : String

/-- One round of the scan; none when a sanity check ends the program. -/
def scanStep (metric : TraceSelectionMetric) (selected_coverage_msg : TestReportMessage)
    (scan : Scan) (entry : String × CoverageInfo) : Option Scan := do
  let coverage ← updateReport selected_coverage_msg.coverage entry.2.coverage_msg.coverage
  let info : CoverageInfo := { entry.2 with coverage_msg := ⟨coverage⟩ }
  let value :=
    selectionMetric metric (GetTotalCoverageLine info.coverage_msg) info.trace_file_size
  if scan.max_selection_metric < value then
    some ⟨scan.coverages ++ [(entry.1, info)], value, entry.1⟩
  else
    some ⟨scan.coverages ++ [(entry.1, info)], scan.max_selection_metric,
      scan.selected_coverage_file⟩

/-- What the selection ends with. -/
inductive Outcome (α : Type) where
  /-- A sanity check ended the program. -/
  | exited
  /-- The rounds allowed were not enough. -/
  | unfinished
  | done (value : α)
deriving DecidableEq

/-- The greedy loop, for a number of rounds: the selected reports. -/
def selectLoop (metric : TraceSelectionMetric) : Nat → List (String × CoverageInfo) →
    List (String × CoverageInfo) → TestReportMessage → Outcome (List (String × CoverageInfo))
  | 0, _, _, _ => .unfinished
  | fuel + 1, original_coverages, selected_coverages, selected_coverage_msg =>
    match original_coverages.foldlM (scanStep metric selected_coverage_msg) ⟨[], 0, ""⟩ with
    | none => .exited
    | some scan =>
      if scan.max_selection_metric = 0 then .done selected_coverages
      else
        let selected_coverage := mapGet scan.coverages scan.selected_coverage_file
        selectLoop metric fuel (mapErase scan.coverages scan.selected_coverage_file)
          (mapSet scan.selected_coverage_file selected_coverage selected_coverages)
          selected_coverage.coverage_msg

/-- What `SelectTraces` reports. -/
structure Selection where
  /-- The names of the selected coverage files, with the trace files that are printed. -/
  traces : List (String × String)
  total_lines : Int
  total_lines_covered : Int
deriving DecidableEq

/-- The report on the selected coverages. -/
def report (selected_coverages : List (String × CoverageInfo)) : Selection where
  traces := selected_coverages.map fun entry => (entry.1, entry.2.trace_file_name)
  total_lines := selected_coverages.foldl (fun total_lines entry =>
    if GetTotalCodeLine entry.2.coverage_msg > total_lines then
      GetTotalCodeLine entry.2.coverage_msg else total_lines) 0
  total_lines_covered := selected_coverages.foldl (fun total_lines_covered entry =>
    total_lines_covered + GetTotalCoverageLine entry.2.coverage_msg) 0

/-- `SelectTraces`, for a number of rounds of its loop. -/
def SelectTraces (metric : TraceSelectionMetric) (fuel : Nat) (original_coverages : CoverageMap) :
    Outcome Selection :=
  match selectLoop metric fuel original_coverages.entries [] ⟨[]⟩ with
  | .exited => .exited
  | .unfinished => .unfinished
  | .done selected_coverages => .done (report selected_coverages)

/-! ## The metric and the scan -/

theorem toDouble_pos {word : Int} (positive : 0 < word) : 0 < toDouble word :=
  Rounding.roundTo_pos (by decide) (by exact_mod_cast positive)

/-- Both metrics are positive where lines are left. -/
theorem selectionMetric_pos (metric : TraceSelectionMetric) {lines size : Int}
    (left : 0 < lines) (sized : 0 < size) : 0 < selectionMetric metric lines size := by
  cases metric with
  | maxCoverage =>
    exact Rounding.roundTo_pos (by decide) (div_pos (toDouble_pos left) (toDouble_pos sized))
  | maxCoverageSizeRatio => exact toDouble_pos left

/-- The value of a report in the scan. -/
def entryMetric (metric : TraceSelectionMetric) (entry : String × CoverageInfo) : ℚ :=
  selectionMetric metric (GetTotalCoverageLine entry.2.coverage_msg) entry.2.trace_file_size

/-- The covered lines of a report. -/
def entryLines (entry : String × CoverageInfo) : Finset (String × Nat) :=
  coveredLines entry.2.coverage_msg.coverage

/-- A well-formed report of a trace file that is not empty. -/
def EntryFormed (entry : String × CoverageInfo) : Prop :=
  WellFormed entry.2.coverage_msg.coverage ∧ 0 < entry.2.trace_file_size

/-- A report after its update: the lines of the report selected last are gone. -/
structure Updated (last : TestReportMessage) (entry updated : String × CoverageInfo) : Prop where
  name : updated.1 = entry.1
  formed : EntryFormed updated
  lines : entryLines updated = entryLines entry \ coveredLines last.coverage

/-- The scan has found a report with the greatest metric, unless none is positive. -/
structure ScanInvariant (metric : TraceSelectionMetric) (scan : Scan) : Prop where
  nonneg : 0 ≤ scan.max_selection_metric
  bounded : ∀ entry ∈ scan.coverages, entryMetric metric entry ≤ scan.max_selection_metric
  selected : scan.max_selection_metric ≠ 0 →
    scan.selected_coverage_file ∈ scan.coverages.map Prod.fst

theorem scanStep_spec (metric : TraceSelectionMetric) (last : TestReportMessage) {scan : Scan}
    (invariant : ScanInvariant metric scan) {entry : String × CoverageInfo}
    (formed : EntryFormed entry) :
    ∃ next updated, scanStep metric last scan entry = some next ∧
      next.coverages = scan.coverages ++ [updated] ∧ Updated last entry updated ∧
      ScanInvariant metric next := by
  obtain ⟨coverage, updates, coverageFormed, lines⟩ := formed.1.updateReport last.coverage
  have updated : Updated last entry (entry.1, { entry.2 with coverage_msg := ⟨coverage⟩ }) :=
    ⟨rfl, ⟨coverageFormed, formed.2⟩, lines⟩
  unfold scanStep
  rw [updates]
  by_cases greater : scan.max_selection_metric <
      entryMetric metric (entry.1, { entry.2 with coverage_msg := ⟨coverage⟩ })
  · refine ⟨_, _, if_pos greater, rfl, updated, ?_, ?_, ?_⟩
    · exact le_trans invariant.nonneg greater.le
    · intro listed member
      rcases mem_append.mp member with earlier | latest
      · exact le_trans (invariant.bounded listed earlier) greater.le
      · rw [mem_singleton.mp latest]
        exact le_rfl
    · intro _
      simp
  · refine ⟨_, _, if_neg greater, rfl, updated, invariant.nonneg, ?_, ?_⟩
    · intro listed member
      rcases mem_append.mp member with earlier | latest
      · exact invariant.bounded listed earlier
      · rw [mem_singleton.mp latest]
        exact not_lt.mp greater
    · intro found
      rw [map_append]
      exact mem_append_left _ (invariant.selected found)

variable {entries updated : List (String × CoverageInfo)} {file : String} {last : TestReportMessage}

theorem scan_spec (metric : TraceSelectionMetric) (last : TestReportMessage)
    (formed : ∀ entry ∈ entries, EntryFormed entry) {scan : Scan}
    (invariant : ScanInvariant metric scan) :
    ∃ final updated, entries.foldlM (scanStep metric last) scan = some final ∧
      final.coverages = scan.coverages ++ updated ∧
      List.Forall₂ (Updated last) entries updated ∧ ScanInvariant metric final := by
  induction entries generalizing scan with
  | nil => exact ⟨scan, [], rfl, (append_nil _).symm, List.Forall₂.nil, invariant⟩
  | cons entry entries ih =>
    obtain ⟨next, first, stepped, coverages, firstUpdated, kept⟩ :=
      scanStep_spec metric last invariant (formed entry (by simp))
    obtain ⟨final, rest, scanned, finalCoverages, restUpdated, finalKept⟩ :=
      ih (fun other listed => formed other (by simp [listed])) kept
    refine ⟨final, first :: rest, ?_, ?_, List.Forall₂.cons firstUpdated restUpdated, finalKept⟩
    · rw [foldlM_cons, stepped]
      exact scanned
    · rw [finalCoverages, coverages, append_assoc]
      rfl

/-! ## Maps -/

/-- The names of the files of a map. -/
def names (entries : List (String × CoverageInfo)) : List String := entries.map Prod.fst

theorem mapGet_mem (listed : file ∈ names entries) : (file, mapGet entries file) ∈ entries := by
  obtain ⟨entry, member, rfl⟩ := mem_map.mp listed
  have found : (entries.find? fun other => other.1 == entry.1).isSome = true :=
    List.find?_isSome.mpr ⟨entry, member, by simp⟩
  obtain ⟨first, isFirst⟩ := Option.isSome_iff_exists.mp found
  have same : first.1 = entry.1 := by simpa using List.find?_some isFirst
  have here : (entry.1, mapGet entries entry.1) = first := by
    unfold mapGet
    rw [isFirst, ← same]
    rfl
  rw [here]
  exact mem_of_find?_eq_some isFirst

theorem mapSet_perm (info : CoverageInfo) (fresh : file ∉ names entries) :
    (mapSet file info entries).Perm ((file, info) :: entries) := by
  induction entries with
  | nil => exact List.Perm.refl _
  | cons entry entries ih =>
    obtain ⟨other, later⟩ : file ≠ entry.1 ∧ file ∉ names entries := by
      simpa [names] using fresh
    unfold mapSet
    rw [if_neg other]
    split_ifs
    · exact List.Perm.refl _
    · exact ((ih later).cons entry).trans (List.Perm.swap _ _ _)

theorem names_mapErase (entries : List (String × CoverageInfo)) (file : String) :
    names (mapErase entries file) = (names entries).filter fun name => name != file := by
  rw [names, mapErase, names, filter_map]
  rfl

/-- Without one of its different names, a list of names is one shorter. -/
theorem perm_cons_filter {files : List String} (distinct : files.Nodup) (listed : file ∈ files) :
    files.Perm (file :: files.filter fun name => name != file) := by
  rw [← distinct.erase_eq_filter file]
  exact perm_cons_erase listed

theorem names_of_forall₂ (updates : List.Forall₂ (Updated last) entries updated) :
    names updated = names entries := by
  induction updates with
  | nil => rfl
  | cons first _ ih =>
    simp only [names, map_cons] at ih ⊢
    rw [first.name, ih]

theorem exists_of_forall₂ (updates : List.Forall₂ (Updated last) entries updated)
    {entry : String × CoverageInfo} (listed : entry ∈ updated) :
    ∃ old ∈ entries, Updated last old entry := by
  induction updates with
  | nil => cases listed
  | cons first _ ih =>
    rcases mem_cons.mp listed with rfl | later
    · exact ⟨_, by simp, first⟩
    · obtain ⟨old, member, update⟩ := ih later
      exact ⟨old, by simp [member], update⟩

/-! ## The loop -/

/-- The sum that is reported of the selected reports. -/
def coveredTotal (entries : List (String × CoverageInfo)) : Int :=
  entries.foldl (fun total entry => total + GetTotalCoverageLine entry.2.coverage_msg) 0

theorem coveredTotal_eq_sum (entries : List (String × CoverageInfo)) :
    coveredTotal entries =
      (entries.map fun entry => GetTotalCoverageLine entry.2.coverage_msg).sum := by
  have sums : ∀ start : Int, entries.foldl
      (fun total entry => total + GetTotalCoverageLine entry.2.coverage_msg) start =
        start + (entries.map fun entry => GetTotalCoverageLine entry.2.coverage_msg).sum := by
    induction entries with
    | nil => simp
    | cons entry entries ih =>
      intro start
      rw [foldl_cons, ih, map_cons, sum_cons, add_assoc]
  simpa [coveredTotal] using sums 0

theorem coveredTotal_mapSet (info : CoverageInfo) (fresh : file ∉ names entries) :
    coveredTotal (mapSet file info entries) =
      GetTotalCoverageLine info.coverage_msg + coveredTotal entries := by
  rw [coveredTotal_eq_sum, coveredTotal_eq_sum, ((mapSet_perm info fresh).map _).sum_eq,
    map_cons, sum_cons]

section

variable (lines : String → Finset (String × Nat)) (files : List String)

/-- The lines that the given files cover at first. -/
def linesOf (selected : List String) : Finset (String × Nat) := selected.toFinset.biUnion lines

theorem linesOf_cons (file : String) (selected : List String) :
    linesOf lines (file :: selected) = lines file ∪ linesOf lines selected := by
  rw [linesOf, toFinset_cons, biUnion_insert]
  rfl

theorem linesOf_perm {first second : List String} (same : first.Perm second) :
    linesOf lines first = linesOf lines second := by
  rw [linesOf, toFinset_eq_of_perm _ _ same]
  rfl

/-- Before a round: the files are split into remaining and selected ones. Once updated, a
remaining report has the lines that no selected file covers, and the selected reports
count the lines that the selected files cover. -/
structure Covering (remaining selected : List (String × CoverageInfo))
    (last : TestReportMessage) : Prop where
  split : (names remaining ++ names selected).Perm files
  formed : ∀ entry ∈ remaining, EntryFormed entry
  left : ∀ entry ∈ remaining, entryLines entry \ coveredLines last.coverage =
    lines entry.1 \ linesOf lines (names selected)
  counted : coveredTotal selected = ((linesOf lines (names selected)).card : Int)

variable {lines files}

/-- When nothing is left in any remaining report, the selected files cover everything. -/
theorem Covering.finished {metric : TraceSelectionMetric}
    {remaining selected updated : List (String × CoverageInfo)} {last : TestReportMessage}
    (covering : Covering lines files remaining selected last)
    (updates : List.Forall₂ (Updated last) remaining updated)
    (bounded : ∀ entry ∈ updated, entryMetric metric entry ≤ 0) {file : String}
    (listed : file ∈ files) : lines file ⊆ linesOf lines (names selected) := by
  rcases mem_append.mp (covering.split.mem_iff.mpr listed) with inRemaining | inSelected
  · rw [← names_of_forall₂ updates] at inRemaining
    obtain ⟨entry, member, rfl⟩ := mem_map.mp inRemaining
    obtain ⟨old, oldMember, update⟩ := exists_of_forall₂ updates member
    have rest : entryLines entry = lines entry.1 \ linesOf lines (names selected) := by
      rw [update.lines, covering.left old oldMember, update.name]
    have total : GetTotalCoverageLine entry.2.coverage_msg = ((entryLines entry).card : Int) :=
      update.formed.1.total
    have none_left : (entryLines entry).card = 0 := by
      by_contra some_left
      refine absurd (bounded entry member) (not_le.mpr ?_)
      exact selectionMetric_pos metric (by omega) update.formed.2
    rw [card_eq_zero, rest] at none_left
    exact sdiff_eq_empty_iff_subset.mp none_left
  · exact subset_biUnion_of_mem lines (mem_toFinset.mpr inSelected)

section

variable {remaining selected : List (String × CoverageInfo)}
  (covering : Covering lines files remaining selected last) (distinct : files.Nodup)
  (updates : List.Forall₂ (Updated last) remaining updated) (found : file ∈ names updated)
include covering distinct updates found

/-- Selecting one of the updated reports keeps the invariant. -/
theorem Covering.select :
    Covering lines files (mapErase updated file)
      (mapSet file (mapGet updated file) selected) (mapGet updated file).coverage_msg := by
  have sameNames : names updated = names remaining := names_of_forall₂ updates
  have separate : (names remaining ++ names selected).Nodup :=
    covering.split.nodup_iff.mpr distinct
  obtain ⟨remainingDistinct, _, apart⟩ := nodup_append.mp separate
  have fresh : file ∉ names selected := by
    intro already
    exact apart file (sameNames ▸ found) file already rfl
  have rest : ∀ entry ∈ updated,
      entryLines entry = lines entry.1 \ linesOf lines (names selected) := by
    intro entry member
    obtain ⟨old, oldMember, update⟩ := exists_of_forall₂ updates member
    rw [update.lines, covering.left old oldMember, update.name]
  have chosen := mapGet_mem found
  have chosenLines : coveredLines (mapGet updated file).coverage_msg.coverage =
      lines file \ linesOf lines (names selected) := rest _ chosen
  obtain ⟨_, _, chosenUpdate⟩ := exists_of_forall₂ updates chosen
  have namesSelected : (names (mapSet file (mapGet updated file) selected)).Perm
      (file :: names selected) := (mapSet_perm _ fresh).map Prod.fst
  have covered : linesOf lines (names (mapSet file (mapGet updated file) selected)) =
      lines file ∪ linesOf lines (names selected) := by
    rw [linesOf_perm lines namesSelected, linesOf_cons]
  refine ⟨?_, ?_, ?_, ?_⟩
  · have back : (file :: names (mapErase updated file)).Perm (names remaining) := by
      rw [names_mapErase, sameNames]
      exact (perm_cons_filter remainingDistinct (sameNames ▸ found)).symm
    have moved : (names (mapErase updated file) ++
        names (mapSet file (mapGet updated file) selected)).Perm
        (file :: names (mapErase updated file) ++ names selected) :=
      (namesSelected.append_left _).trans perm_middle
    exact (moved.trans (back.append_right _)).trans covering.split
  · intro entry member
    obtain ⟨_, _, update⟩ := exists_of_forall₂ updates (mem_filter.mp member).1
    exact update.formed
  · intro entry member
    rw [rest entry (mem_filter.mp member).1, chosenLines, covered, sdiff_sdiff,
      sup_eq_union, union_sdiff_self_eq_union, union_comm]
  · have total : GetTotalCoverageLine (mapGet updated file).coverage_msg =
        ((lines file \ linesOf lines (names selected)).card : Int) := by
      rw [← chosenLines]
      exact chosenUpdate.formed.1.total
    rw [coveredTotal_mapSet _ fresh, covered, covering.counted, total]
    exact_mod_cast card_sdiff_add_card _ _

theorem Covering.length_erase : (mapErase updated file).length + 1 = remaining.length := by
  have sameNames : names updated = names remaining := names_of_forall₂ updates
  have separate : (names remaining ++ names selected).Nodup :=
    covering.split.nodup_iff.mpr distinct
  have shorter := (perm_cons_filter (nodup_append.mp separate).1
    (sameNames ▸ found)).length_eq
  rw [← sameNames, ← names_mapErase, sameNames] at shorter
  simpa [names] using shorter.symm

end

/-- The loop ends after at most one round more than there are remaining reports. -/
theorem Covering.selectLoop (metric : TraceSelectionMetric)
    {remaining selected : List (String × CoverageInfo)} {last : TestReportMessage}
    (covering : Covering lines files remaining selected last) (distinct : files.Nodup) :
    ∃ final, (∀ fuel, remaining.length < fuel →
        selectLoop metric fuel remaining selected last = .done final) ∧
      (∀ file ∈ names final, file ∈ files) ∧
      (∀ file ∈ files, lines file ⊆ linesOf lines (names final)) ∧
      coveredTotal final = ((linesOf lines (names final)).card : Int) := by
  induction count : remaining.length using Nat.strong_induction_on
    generalizing remaining selected last with
  | h count ih =>
  subst count
  have initial : ScanInvariant metric ⟨[], 0, ""⟩ :=
    ⟨le_rfl, by simp, fun found => absurd rfl found⟩
  obtain ⟨scan, updated, scanned, coverages, updates, invariant⟩ :=
    scan_spec metric last covering.formed initial
  have scannedCoverages : scan.coverages = updated := coverages
  by_cases nothing : scan.max_selection_metric = 0
  · refine ⟨selected, ?_, ?_, ?_, covering.counted⟩
    · intro fuel enough
      obtain ⟨fuel, rfl⟩ := Nat.exists_eq_succ_of_ne_zero (Nat.ne_of_gt (Nat.zero_lt_of_lt enough))
      simp [Vts.Trace.selectLoop, scanned, nothing]
    · intro file listed
      exact covering.split.mem_iff.mp (mem_append_right _ listed)
    · intro file listed
      refine @Covering.finished lines files metric _ _ _ _ covering updates ?_ _ listed
      intro entry member
      rw [← nothing]
      exact invariant.bounded entry (scannedCoverages ▸ member)
  · have found : scan.selected_coverage_file ∈ names updated := by
      rw [← scannedCoverages]
      exact invariant.selected nothing
    have shorter := covering.length_erase distinct updates found
    obtain ⟨final, ends, known, covers, counted⟩ := ih _ (by omega)
      (covering.select distinct updates found) rfl
    refine ⟨final, ?_, known, covers, counted⟩
    intro fuel enough
    obtain ⟨fuel, rfl⟩ := Nat.exists_eq_succ_of_ne_zero (Nat.ne_of_gt (Nat.zero_lt_of_lt enough))
    rw [← ends fuel (by omega)]
    simp [Vts.Trace.selectLoop, scanned, nothing, scannedCoverages]

end

/-! ## Trace selection is a cover -/

theorem mapGet_eq (distinct : (names entries).Nodup) {entry : String × CoverageInfo}
    (listed : entry ∈ entries) : (entry.1, mapGet entries entry.1) = entry :=
  inj_on_of_nodup_map distinct (mapGet_mem (mem_map_of_mem listed)) listed rfl

/-- The lines that the reports of a family cover: paths with indices of lines. -/
def familyLines (entries : List (String × CoverageInfo)) : Finset (String × Nat) :=
  entries.toFinset.biUnion entryLines

theorem mem_familyLines {line : String × Nat} :
    line ∈ familyLines entries ↔ ∃ entry ∈ entries, line ∈ entryLines entry := by
  simp [familyLines]

/-- For reports that list a path once and count right, of trace files that are not empty,
the loop ends, the selected files are some of the given ones, their reports as parsed
cover what all reports cover, and the reported number is that of the lines covered. -/
theorem SelectTraces_covers (metric : TraceSelectionMetric) (original_coverages : CoverageMap)
    (distinct : ∀ entry ∈ original_coverages.entries,
      (entry.2.coverage_msg.coverage.map CoverageReportMessage.file_path).Nodup)
    (counted : ∀ entry ∈ original_coverages.entries, ∀ msg ∈ entry.2.coverage_msg.coverage,
      msg.covered_line_count = (msg.line_coverage_vector.countP fun line => 0 < line : Nat))
    (sized : ∀ entry ∈ original_coverages.entries, 0 < entry.2.trace_file_size) :
    ∃ selection, (∀ fuel, original_coverages.entries.length < fuel →
        SelectTraces metric fuel original_coverages = .done selection) ∧
      (∀ file ∈ selection.traces.map Prod.fst,
        file ∈ original_coverages.entries.map Prod.fst) ∧
      familyLines (original_coverages.entries.filter fun entry =>
          entry.1 ∈ selection.traces.map Prod.fst) =
        familyLines original_coverages.entries ∧
      selection.total_lines_covered =
        ((familyLines original_coverages.entries).card : Int) := by
  have distinctNames : (names original_coverages.entries).Nodup := by
    rw [names, nodup_iff_pairwise_ne, pairwise_map]
    refine original_coverages.ordered.imp ?_
    intro first second before same
    rw [same] at before
    exact lt_irrefl _ before
  have original : ∀ entry ∈ original_coverages.entries,
      entryLines (entry.1, mapGet original_coverages.entries entry.1) = entryLines entry := by
    intro entry listed
    rw [mapGet_eq distinctNames listed]
  have covering : Covering (fun name => entryLines (name, mapGet original_coverages.entries name))
      (names original_coverages.entries) original_coverages.entries [] ⟨[]⟩ := by
    refine ⟨by simp [names], ?_, ?_, rfl⟩
    · intro entry listed
      exact ⟨⟨distinct entry listed, counted entry listed⟩, sized entry listed⟩
    · intro entry listed
      rw [original entry listed]
      rfl
  obtain ⟨final, ends, known, covers, total⟩ := covering.selectLoop metric distinctNames
  have selectedFiles : (report final).traces.map Prod.fst = names final := by
    simp [report, names]
  have everything : linesOf (fun name => entryLines (name, mapGet original_coverages.entries name))
      (names final) = familyLines original_coverages.entries := by
    apply Finset.Subset.antisymm
    · intro line covered
      obtain ⟨file, listed, inFile⟩ := mem_biUnion.mp covered
      exact mem_familyLines.mpr ⟨_, mapGet_mem (known file (mem_toFinset.mp listed)), inFile⟩
    · intro line covered
      obtain ⟨entry, listed, inEntry⟩ := mem_familyLines.mp covered
      refine covers entry.1 (mem_map_of_mem listed) ?_
      rw [original entry listed]
      exact inEntry
  refine ⟨report final, ?_, ?_, ?_, ?_⟩
  · intro fuel enough
    rw [SelectTraces, ends fuel enough]
  · rw [selectedFiles]
    exact known
  · rw [selectedFiles]
    apply Finset.Subset.antisymm
    · intro line covered
      obtain ⟨entry, listed, inEntry⟩ := mem_familyLines.mp covered
      exact mem_familyLines.mpr ⟨entry, (mem_filter.mp listed).1, inEntry⟩
    · intro line covered
      rw [← everything] at covered
      obtain ⟨file, listed, inFile⟩ := mem_biUnion.mp covered
      have selected := mem_toFinset.mp listed
      refine mem_familyLines.mpr ⟨_, mem_filter.mpr ⟨mapGet_mem (known file selected), ?_⟩,
        inFile⟩
      simpa using selected
  · rw [← everything]
    exact total

/-- Two reports that share a line. -/
theorem SelectTraces_covers_two :
    ∃ selection, (∀ fuel, 2 < fuel → SelectTraces .maxCoverage fuel
        ⟨[("a", ⟨⟨[⟨"f", [1, 1], 2, 2⟩]⟩, "a.vts.trace", 10⟩),
          ("b", ⟨⟨[⟨"f", [0, 3, 1], 3, 2⟩]⟩, "b.vts.trace", 5⟩)], by decide⟩ = .done selection) ∧
      selection.total_lines_covered = 3 := by
  obtain ⟨selection, ends, _, _, total⟩ := SelectTraces_covers .maxCoverage
    ⟨[("a", ⟨⟨[⟨"f", [1, 1], 2, 2⟩]⟩, "a.vts.trace", 10⟩),
      ("b", ⟨⟨[⟨"f", [0, 3, 1], 3, 2⟩]⟩, "b.vts.trace", 5⟩)], by decide⟩
    (by simp) (by simp) (by simp)
  exact ⟨selection, ends, total.trans (by decide)⟩

end Vts.Trace
