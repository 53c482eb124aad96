import Vts.Trace.Selection

/-!
# Which report a round selects

The rounds of the loop of `SelectTraces`, each from the state before it. A round updates
the remaining reports and selects the first of those with the greatest value, in the order
of their files, if that value is positive.

The value of a report is its quotient of lines and size when the lines are asked for, and
its lines when the quotient is asked for. So the report that is selected has the most of
what is asked for only where the two orders have the same top. What the selected reports
cover together is not the subject here.
-/

namespace Vts.Trace

open Vts.Lib Option

/-! ## Rounds -/

/-- The variables of `SelectTraces` before a round. -/
structure SelectState where
  original_coverages : List (String × CoverageInfo)
  selected_coverages : List (String × CoverageInfo)
  selected_coverage_msg : TestReportMessage

namespace SelectState

/-- Before the first round. -/
def start (original : CoverageMap) : SelectState := ⟨original.entries, [], ⟨[]⟩⟩

/-- The scan of a round. -/
def scan (metric : TraceSelectionMetric) (state : SelectState) : Option Scan :=
  state.original_coverages.foldlM (scanStep metric state.selected_coverage_msg) ⟨[], 0, ""⟩

/-- After a round that has selected a report. -/
def after (state : SelectState) (scan : Scan) : SelectState :=
  let selected_coverage := mapGet scan.coverages scan.selected_coverage_file
  { original_coverages := mapErase scan.coverages scan.selected_coverage_file
    selected_coverages :=
      mapSet scan.selected_coverage_file selected_coverage state.selected_coverages
    selected_coverage_msg := selected_coverage.coverage_msg }

/-- The states before the rounds of a run. -/
inductive Reached (metric : TraceSelectionMetric) (original : CoverageMap) : SelectState → Prop
  | start : Reached metric original (start original)
  | round {state : SelectState} {scan : Scan} : Reached metric original state →
      state.scan metric = some scan → scan.max_selection_metric ≠ 0 →
      Reached metric original (state.after scan)

/-- The remaining reports after the update of a round, unless a sanity check ends the
program. -/
def updated (state : SelectState) : Option (List (String × CoverageInfo)) :=
  state.original_coverages.mapM fun entry =>
    (updateReport state.selected_coverage_msg.coverage entry.2.coverage_msg.coverage).map
      fun coverage => (entry.1, { entry.2 with coverage_msg := ⟨coverage⟩ })

end SelectState

/-! ## The scan -/

/-- The comparison of a round. -/
def pick (metric : TraceSelectionMetric) (scan : Scan) (entry : String × CoverageInfo) : Scan :=
  if scan.max_selection_metric < entryMetric metric entry then
    ⟨scan.coverages ++ [entry], entryMetric metric entry, entry.1⟩
  else ⟨scan.coverages ++ [entry], scan.max_selection_metric, scan.selected_coverage_file⟩

theorem foldlM_scanStep (metric : TraceSelectionMetric) (last : TestReportMessage)
    (entries : List (String × CoverageInfo)) (scan : Scan) :
    entries.foldlM (scanStep metric last) scan =
      (entries.mapM fun entry =>
        (updateReport last.coverage entry.2.coverage_msg.coverage).map fun coverage =>
          (entry.1, { entry.2 with coverage_msg := ⟨coverage⟩ })).map
        fun updated => updated.foldl (pick metric) scan := by
  induction entries generalizing scan with
  | nil => rfl
  | cons entry entries ih =>
    rw [List.foldlM_cons, List.mapM_cons]
    cases updates : updateReport last.coverage entry.2.coverage_msg.coverage with
    | none => simp [scanStep, updates]
    | some coverage =>
      have stepped : scanStep metric last scan entry =
          some (pick metric scan (entry.1, { entry.2 with coverage_msg := ⟨coverage⟩ })) := by
        unfold scanStep pick entryMetric
        rw [updates]
        simp only [bind_eq_bind, bind_some]
        split <;> rfl
      rw [stepped]
      simp only [bind_eq_bind, bind_some, map_some, ih]
      cases entries.mapM fun entry =>
        (updateReport last.coverage entry.2.coverage_msg.coverage).map fun coverage =>
          (entry.1, ({ entry.2 with coverage_msg := ⟨coverage⟩ } : CoverageInfo)) <;> rfl

/-- The comparisons have found a report: its value is the greatest metric, and it is
selected if that is positive. -/
structure Found (metric : TraceSelectionMetric) (best : Option (String × CoverageInfo))
    (scan : Scan) : Prop where
  level : scan.max_selection_metric = best.elim 0 fun entry => max 0 (entryMetric metric entry)
  selected : ∀ entry, best = some entry → 0 < entryMetric metric entry →
    scan.selected_coverage_file = entry.1

theorem Found.pick {metric : TraceSelectionMetric} {best : Option (String × CoverageInfo)}
    {scan : Scan} (found : Found metric best scan) (entry : String × CoverageInfo) :
    Found metric
      (best.elim (some entry) fun old =>
        if entryMetric metric old < entryMetric metric entry then some entry else some old)
      (pick metric scan entry) := by
  obtain ⟨level, selected⟩ := found
  unfold Vts.Trace.pick
  cases best with
  | none =>
    rw [elim_none] at level
    rw [level, elim_none]
    by_cases positive : 0 < entryMetric metric entry
    · rw [if_pos positive]
      refine ⟨(max_eq_right positive.le).symm, fun other same _ => ?_⟩
      rw [Option.some.inj same]
    · rw [if_neg positive]
      refine ⟨(max_eq_left (not_lt.mp positive)).symm, fun other same otherPositive => ?_⟩
      exact absurd (Option.some.inj same ▸ otherPositive) positive
  | some old =>
    rw [elim_some] at level
    rw [level, elim_some]
    by_cases better : entryMetric metric old < entryMetric metric entry
    · rw [if_pos better]
      by_cases positive : 0 < entryMetric metric entry
      · rw [if_pos (max_lt positive better)]
        refine ⟨(max_eq_right positive.le).symm, fun other same _ => ?_⟩
        rw [Option.some.inj same]
      · rw [if_neg fun above => positive (lt_of_le_of_lt (le_max_left _ _) above)]
        refine ⟨?_, fun other same otherPositive => ?_⟩
        · rw [elim_some, max_eq_left (not_lt.mp positive),
            max_eq_left (le_trans better.le (not_lt.mp positive))]
        · exact absurd (Option.some.inj same ▸ otherPositive) positive
    · rw [if_neg better,
        if_neg fun above => better (lt_of_le_of_lt (le_max_right _ _) above)]
      exact ⟨rfl, selected⟩

/-- What is found is the first report with the greatest value. -/
theorem foldl_pick (metric : TraceSelectionMetric) (entries : List (String × CoverageInfo)) :
    Found metric (entries.argmax (entryMetric metric))
      (entries.foldl (pick metric) ⟨[], 0, ""⟩) := by
  induction entries using List.reverseRecOn with
  | nil => exact ⟨rfl, nofun⟩
  | append_singleton entries entry ih =>
    have next := ih.pick entry
    rw [List.foldl_append, List.foldl_cons, List.foldl_nil, List.argmax_concat]
    cases best : entries.argmax (entryMetric metric) <;> simpa [best] using next

namespace SelectState

/-- A round selects the first of the updated reports with the greatest value. -/
theorem selects_iff (metric : TraceSelectionMetric) (state : SelectState) (file : String) :
    (∃ scan, state.scan metric = some scan ∧ scan.max_selection_metric ≠ 0 ∧
        scan.selected_coverage_file = file) ↔
      ∃ entries, state.updated = some entries ∧
        ∃ entry, entries.argmax (entryMetric metric) = some entry ∧ 0 < entryMetric metric entry ∧
          entry.1 = file := by
  have scanned : state.scan metric =
      state.updated.map fun entries => entries.foldl (pick metric) ⟨[], 0, ""⟩ :=
    foldlM_scanStep metric state.selected_coverage_msg state.original_coverages ⟨[], 0, ""⟩
  rw [scanned]
  cases state.updated with
  | none => simp
  | some entries =>
    obtain ⟨level, selected⟩ := foldl_pick metric entries
    simp only [map_some, Option.some.injEq, exists_eq_left', ne_eq, level]
    cases best : entries.argmax (entryMetric metric) with
    | none => simp
    | some entry =>
      simp only [elim_some, Option.some.injEq, exists_eq_left']
      have positive_iff : ¬max 0 (entryMetric metric entry) = 0 ↔ 0 < entryMetric metric entry := by
        rw [max_eq_left_iff, not_le]
      rw [positive_iff]
      refine and_congr_right fun positive => ?_
      rw [selected entry best positive]

end SelectState

/-! ## What is asked for -/

section

variable (metric : TraceSelectionMetric) (original : CoverageMap)

/-- The lines that a report covers, as it was parsed, and no selected report does. -/
def notYetCovered (state : SelectState) (file : String) : Finset (String × Nat) :=
  entryLines (file, mapGet original.entries file) \
    linesOf (fun name => entryLines (name, mapGet original.entries name))
      (names state.selected_coverages)

/-- The metric that is asked for, of a report before a round: the number of lines not yet
covered, or its exact quotient by the size of the trace. -/
def requested (state : SelectState) (file : String) : ℚ :=
  match metric with
  | .maxCoverage => (notYetCovered original state file).card
  | .maxCoverageSizeRatio =>
    (notYetCovered original state file).card / (mapGet original.entries file).trace_file_size

/-- No remaining report has more of what is asked for. -/
def Maximises (state : SelectState) (file : String) : Prop :=
  ∀ other ∈ names state.original_coverages,
    requested metric original state other ≤ requested metric original state file

instance (state : SelectState) (file : String) :
    Decidable (Maximises metric original state file) := List.decidableBAll _ _

/-- Every round selects a report with the most of what is asked for. -/
def FollowsMetric : Prop :=
  ∀ state, SelectState.Reached metric original state →
    ∀ scan, state.scan metric = some scan → scan.max_selection_metric ≠ 0 →
      Maximises metric original state scan.selected_coverage_file

/-- Before every round, the first of the updated reports with the greatest value, which is
the rounded quotient for `MAX_COVERAGE` and the lines for `MAX_COVERAGE_SIZE_RATIO`, has the
most of what is asked for, if that value is positive. -/
def TopsAgree : Prop :=
  ∀ state, SelectState.Reached metric original state →
    ∀ entries, state.updated = some entries →
      ∀ entry, entries.argmax (entryMetric metric) = some entry → 0 < entryMetric metric entry →
        Maximises metric original state entry.1

/-- The first report that is selected must have the most of what is asked for. -/
theorem FollowsMetric.first {file : String} (follows : FollowsMetric metric original)
    (chosen : ((SelectState.start original).scan metric).map (fun scan =>
      (decide (scan.max_selection_metric ≠ 0), scan.selected_coverage_file)) = some (true, file)) :
    Maximises metric original (.start original) file := by
  obtain ⟨scan, scanned, same⟩ := map_eq_some_iff.mp chosen
  obtain ⟨some_left, rfl⟩ := Prod.mk.inj same
  exact follows _ .start scan scanned (of_decide_eq_true some_left)

end

/-- A short trace with one line and a longer one with two lines. -/
def shortAndLong : CoverageMap where
  entries :=
    [("long", ⟨⟨[⟨"f", [1, 1], 2, 2⟩]⟩, "long.vts.trace", 10⟩),
      ("short", ⟨⟨[⟨"f", [0, 0, 1], 3, 1⟩]⟩, "short.vts.trace", 1⟩)]
  ordered := by decide

end Vts.Trace
