import Mathlib.Algebra.BigOperators.Ring.Finset
import Vts.Trace.Merge

/-!
# The order of coverage reports

`MergeCoverage` reads the reports of a directory in any order. The entry of a path begins as
the first one that is read, with its words of 64 bits and with `-1` for a line that is not
executable; only the words of later entries are compared with zero before they are added.

Proved here: exactly when the merged report is the same for each order of the reports and
its counts are right.
-/

namespace Vts.Trace

open List Option

/-! ## Families of reports -/

/-- Entries of the same path have vectors of one length. -/
def Uniform (entries : List CoverageReportMessage) : Prop :=
  ∀ first ∈ entries, ∀ second ∈ entries, first.file_path = second.file_path →
    first.line_coverage_vector.length = second.line_coverage_vector.length

/-- Reports whose vectors fit together, with no count below `-1` and right numbers of
covered lines. -/
structure Family (reports : List TestReportMessage) : Prop where
  uniform : Uniform (allEntries reports)
  counts : ∀ entry ∈ allEntries reports, ∀ count ∈ entry.line_coverage_vector, -1 ≤ count
  counted : ∀ entry ∈ allEntries reports, Counted entry

/-- What a report says about a path: the vector and the number of covered lines of each of
its entries. -/
def outcome (path : String) (report : TestReportMessage) : List (List Int × Int) :=
  (entriesOf path report.coverage).map fun entry =>
    (entry.line_coverage_vector, entry.covered_line_count)

/-- In each order the reports are merged, the merged report says the same about each path,
and its numbers of covered lines are right. -/
def OrderFree (reports : List TestReportMessage) : Prop :=
  ∃ result : String → List (List Int × Int), ∀ order, order.Perm reports →
    ∃ merged, MergeCoverage order = some merged ∧
      (∀ path, outcome path merged = result path) ∧ ∀ entry ∈ merged.coverage, Counted entry

/-! ## The condition -/

/-- The word of a line in the first entry that a report has for a path. -/
def lead (path : String) (line : Nat) (report : TestReportMessage) : Option Int :=
  (entriesOf path report.coverage).head?.map fun entry => entry.line_coverage_vector.getD line 0

/-- What all entries of a path add to a line. -/
def total (reports : List TestReportMessage) (path : String) (line : Nat) : Int :=
  gain (column line (entriesOf path (allEntries reports)))

/-- The leads of a line agree: they are equal if nothing is added to the line. Otherwise
they agree below zero, the sum fits in an `int`, and so does a lead that alone makes up the
sum though another report has the path. -/
def LeadsAgree (reports : List TestReportMessage) (path : String) (line : Nat) : Prop :=
  ∀ report ∈ reports, ∀ first ∈ lead path line report,
    ∀ other ∈ reports, ∀ second ∈ lead path line other,
      if total reports path line = 0 then first = second
      else min 0 (toInt first) = min 0 (toInt second) ∧
        total reports path line + min 0 (toInt first) ≤ intMax ∧
        (report ≠ other → toInt first = total reports path line → first ≤ intMax)

/-- The running sum of a line gets positive, and it is never zero. -/
def Skips (start : Int) (words : List Int) : Prop := 0 < start + gain words ∧ ¬ Passes start words

instance (start : Int) (words : List Int) : Decidable (Skips start words) := by
  unfold Skips
  infer_instance

/-- Among the lines that later entries raise, as many begin as positive words as have a
running sum that gets positive without being zero. -/
def Balanced : List CoverageReportMessage → Prop
  | [] => True
  | first :: rest =>
    ((Finset.range first.line_coverage_vector.length).filter fun line =>
      0 < gain (column line rest) ∧ 0 < first.line_coverage_vector.getD line 0).card =
    ((Finset.range first.line_coverage_vector.length).filter fun line =>
      0 < gain (column line rest) ∧
        Skips (toInt (first.line_coverage_vector.getD line 0)) (column line rest)).card

/-- The leads of all lines agree, and the entries of each path are balanced in each order. -/
def MergesWell (reports : List TestReportMessage) : Prop :=
  ∀ path, (∀ line, LeadsAgree reports path line) ∧
    ∀ order, order.Perm reports → Balanced (entriesOf path (allEntries order))

/-! ## The number of covered lines -/

theorem countP_positive (lines : List Int) :
    ((lines.countP fun line => 0 < line : Nat) : Int) =
      ∑ line ∈ Finset.range lines.length, if 0 < lines.getD line 0 then 1 else 0 := by
  rw [← card_positives, positives, Finset.natCast_card_filter]

/-- A line that is raised counts as covered if it passes zero or began so. -/
theorem line_balance (first : Int) (words : List Int) :
    (if 0 < first then 1 else 0 : Int) + marks (toInt first) words +
        (if 0 < gain words ∧ Skips (toInt first) words then 1 else 0) =
      (if 0 < lineValue first words then 1 else 0) +
        (if 0 < gain words ∧ 0 < first then 1 else 0) := by
  have nonneg := gain_nonneg words
  rw [marks_eq]
  unfold Skips lineValue
  by_cases raised : 0 < gain words
  · simp only [raised, true_and, if_true]
    by_cases passed : Passes (toInt first) words
    · simp only [passed, and_true, not_true, and_false, if_false]
      omega
    · simp only [passed, and_false, not_false_eq_true, and_true, if_false]
      omega
  · have unpassed : ¬ (0 < toInt first + gain words ∧ Passes (toInt first) words) := by
      rintro ⟨positive, front, present, zero⟩
      have := gain_nonneg front
      omega
    simp only [raised, unpassed, false_and, if_false, add_zero]

variable {first : CoverageReportMessage} {rest : List CoverageReportMessage}
  {order reports : List TestReportMessage} {path : String} {report merged : TestReportMessage}
  {line : Nat}

section

variable {second sum : Int} {distinct : Prop} {word : Int} {other : TestReportMessage}

/-- The number of covered lines of a merged entry is right exactly when its entries are
balanced. -/
theorem counted_iff_balanced {out : CoverageReportMessage} (counted : Counted first)
    (merged : Merged first rest out) : Counted out ↔ Balanced (first :: rest) := by
  unfold Counted at counted ⊢
  have lines := Finset.sum_congr (rfl : Finset.range first.line_coverage_vector.length = _)
    fun line _ => line_balance (first.line_coverage_vector.getD line 0) (column line rest)
  simp only [Finset.sum_add_distrib] at lines
  rw [countP_positive] at counted ⊢
  rw [merged.count, counted, merged.length, Balanced, ← Int.natCast_inj,
    Finset.natCast_card_filter, Finset.natCast_card_filter]
  simp only [merged.value]
  omega

/-! ## A line in each order -/

/-- The word of a line of which the lead and the sum of all entries are known. -/
def settled (sum first : Int) : Int :=
  if max 0 (toInt first) < sum then sum + min 0 (toInt first) else first

theorem lineValue_eq (first : Int) (words : List Int) :
    lineValue first words = settled (gain (first :: words)) first := by
  unfold lineValue settled
  rw [gain_cons]
  split_ifs <;> omega

theorem lineFits_iff (first : Int) (words : List Int) :
    LineFits first words ↔ (max 0 (toInt first) < gain (first :: words) →
      gain (first :: words) + min 0 (toInt first) ≤ intMax) := by
  unfold LineFits
  rw [gain_cons]
  constructor
  · intro fits raised
    have := fits (by omega)
    omega
  · intro fits raised
    have := fits (by omega)
    omega

/-- If two leads that may come first lead to the same word, they agree. -/
theorem agree_of_settled {first : Int} (lower : -1 ≤ first) (otherLower : -1 ≤ second)
    (bound : max 0 (toInt first) ≤ sum)
    (pair : distinct → max 0 (toInt first) + max 0 (toInt second) ≤ sum)
    (alone : ¬ distinct → first = second)
    (fits : max 0 (toInt first) < sum → sum + min 0 (toInt first) ≤ intMax)
    (same : settled sum first = settled sum second) :
    if sum = 0 then first = second
    else min 0 (toInt first) = min 0 (toInt second) ∧ sum + min 0 (toInt first) ≤ intMax ∧
      (distinct → toInt first = sum → first ≤ intMax) := by
  have small := toInt_le first
  have below := toInt_le_self lower
  have otherBelow := toInt_le_self otherLower
  unfold settled at same
  by_cases apart : distinct
  · have together := pair apart
    simp only [apart, true_implies]
    split_ifs at same ⊢ <;> omega
  · obtain rfl := alone apart
    simp only [apart, false_implies, and_true, true_and]
    split_ifs at same ⊢ <;> omega

/-- Two leads that agree lead to the same word. -/
theorem settled_of_agree {first : Int} (lower : -1 ≤ first) (otherLower : -1 ≤ second)
    (bound : max 0 (toInt first) ≤ sum) (otherBound : max 0 (toInt second) ≤ sum)
    (pair : distinct → max 0 (toInt first) + max 0 (toInt second) ≤ sum)
    (alone : ¬ distinct → first = second) (agree : if sum = 0 then first = second
      else min 0 (toInt first) = min 0 (toInt second) ∧ sum + min 0 (toInt first) ≤ intMax ∧
        (distinct → toInt first = sum → first ≤ intMax))
    (otherAgree : if sum = 0 then second = first
      else min 0 (toInt second) = min 0 (toInt first) ∧ sum + min 0 (toInt second) ≤ intMax ∧
        (distinct → toInt second = sum → second ≤ intMax)) :
    settled sum first = settled sum second := by
  have small := toInt_le first
  have read := @toInt_eq first (by omega)
  have otherRead := @toInt_eq second (by omega)
  unfold settled
  by_cases apart : distinct
  · have together := pair apart
    simp only [apart, true_implies] at agree otherAgree
    split_ifs at agree otherAgree ⊢ <;> omega
  · obtain rfl := alone apart
    rfl

/-! ## A path in each order -/

theorem entriesOf_append (path : String) (front back : List CoverageReportMessage) :
    entriesOf path (front ++ back) = entriesOf path front ++ entriesOf path back :=
  filter_append ..

theorem gain_append (front back : List Int) : gain (front ++ back) = gain front + gain back := by
  rw [gain, map_append, sum_append]
  rfl

theorem column_append (line : Nat) (front back : List CoverageReportMessage) :
    column line (front ++ back) = column line front ++ column line back :=
  map_append ..

theorem entriesOf_perm (same : order.Perm reports) (path : String) :
    (entriesOf path (allEntries order)).Perm (entriesOf path (allEntries reports)) :=
  (same.flatMap_right _).filter _

theorem total_perm (same : order.Perm reports) (path : String) (line : Nat) :
    total order path line = total reports path line :=
  gain_perm ((entriesOf_perm same path).map _)

theorem Family.perm (family : Family reports) (same : order.Perm reports) : Family order := by
  have entries := same.flatMap_right TestReportMessage.coverage
  exact ⟨fun first present second also => family.uniform first (entries.mem_iff.mp present) second
      (entries.mem_iff.mp also),
    fun entry present => family.counts entry (entries.mem_iff.mp present),
    fun entry present => family.counted entry (entries.mem_iff.mp present)⟩

theorem report_of_first (entries : entriesOf path (allEntries reports) = first :: rest) :
    ∃ report ∈ reports, (entriesOf path report.coverage).head? = some first := by
  induction reports with
  | nil => exact absurd entries (by simp [allEntries, entriesOf])
  | cons report reports ih =>
    rw [allEntries, flatMap_cons, entriesOf_append] at entries
    cases own : entriesOf path report.coverage with
    | nil =>
      rw [own, nil_append] at entries
      obtain ⟨later, present, head⟩ := ih entries
      exact ⟨later, mem_cons_of_mem _ present, head⟩
    | cons entry others =>
      rw [own, cons_append] at entries
      refine ⟨report, mem_cons_self, ?_⟩
      rw [own, List.head?_cons, (List.cons.inj entries).1]

theorem first_of_report (head : (entriesOf path report.coverage).head? = some first)
    (later : List TestReportMessage) :
    ∃ rest, entriesOf path (allEntries (report :: later)) = first :: rest := by
  obtain ⟨others, own⟩ := List.head?_eq_some_iff.mp head
  refine ⟨others ++ entriesOf path (allEntries later), ?_⟩
  rw [allEntries, flatMap_cons, entriesOf_append, own, cons_append]
  rfl

theorem mem_lead :
    word ∈ lead path line report ↔ ∃ first, (entriesOf path report.coverage).head? = some first ∧
      first.line_coverage_vector.getD line 0 = word := by
  rw [lead, mem_def, map_eq_some_iff]

/-- A word of a report is not below `-1`. -/
theorem Family.lower (family : Family reports) {entry : CoverageReportMessage}
    (present : entry ∈ allEntries reports) (line : Nat) :
    -1 ≤ entry.line_coverage_vector.getD line 0 := by
  rw [getD_eq_getElem?_getD]
  cases word : entry.line_coverage_vector[line]? with
  | none => simp
  | some count => exact family.counts entry present count (mem_of_getElem? word)

theorem mem_of_head (present : report ∈ reports)
    (head : (entriesOf path report.coverage).head? = some first) :
    first ∈ entriesOf path (allEntries reports) := by
  have own := mem_entriesOf.mp (mem_of_mem_head? head)
  exact mem_entriesOf.mpr ⟨mem_flatMap.mpr ⟨report, present, own.1⟩, own.2⟩

theorem lead_le_total (present : report ∈ reports) (leading : word ∈ lead path line report) :
    max 0 (toInt word) ≤ total reports path line := by
  obtain ⟨first, head, rfl⟩ := mem_lead.mp leading
  exact le_gain (mem_map_of_mem (mem_of_head present head))

theorem Family.lead_lower (family : Family reports) (present : report ∈ reports)
    (leading : word ∈ lead path line report) : -1 ≤ word := by
  obtain ⟨first, head, rfl⟩ := mem_lead.mp leading
  exact family.lower (mem_entriesOf.mp (mem_of_head present head)).1 line

theorem leads_le_total (present : report ∈ reports) (also : other ∈ reports)
    (distinct : report ≠ other) (leading : word ∈ lead path line report)
    (alsoLeading : second ∈ lead path line other) :
    max 0 (toInt word) + max 0 (toInt second) ≤ total reports path line := by
  have later : other ∈ reports.erase report := (mem_erase_of_ne distinct.symm).mpr also
  have own := lead_le_total (mem_singleton_self report) leading
  have others := lead_le_total later alsoLeading
  rw [total_perm (perm_cons_erase present)]
  unfold total allEntries at own others ⊢
  rw [flatMap_cons, entriesOf_append, column_append, gain_append]
  rw [flatMap_singleton] at own
  omega

/-! ## Runs -/

theorem alike_of_path {entries : List CoverageReportMessage} (uniform : Uniform entries)
    (own : entriesOf path entries = first :: rest) : ∀ ref ∈ rest, Alike ref first := by
  intro ref present
  have later := mem_entriesOf.mp (own ▸ mem_cons_of_mem first present)
  have begun := mem_entriesOf.mp (own ▸ mem_cons_self (a := first) (l := rest))
  have same := later.2.trans begun.2.symm
  exact ⟨same, uniform ref later.1 first begun.1 same⟩

theorem unmerged (run : MergeCoverage reports = some merged)
    (none : entriesOf path (allEntries reports) = []) : entriesOf path merged.coverage = [] := by
  rw [MergeCoverage_eq] at run
  obtain ⟨coverage, looped, rfl⟩ := map_eq_some_iff.mp run
  have own := mergeEntries_some looped path
  rw [none] at own
  exact (Option.some.inj own).symm

/-- The merged report has one entry for a path that some report has: the first entry, merged
with the later ones. -/
theorem merged_some (uniform : Uniform (allEntries reports))
    (run : MergeCoverage reports = some merged)
    (entries : entriesOf path (allEntries reports) = first :: rest) :
    Fits first rest ∧ ∃ out, entriesOf path merged.coverage = [out] ∧ Merged first rest out := by
  rw [MergeCoverage_eq] at run
  obtain ⟨coverage, looped, rfl⟩ := map_eq_some_iff.mp run
  have alike := alike_of_path uniform entries
  have own := mergeEntries_some looped path
  rw [entries] at own
  have begun : [first].foldlM mergeEntry (entriesOf path []) = some [first] := rfl
  rw [← singleton_append, foldlM_append, begun, bind_eq_bind, bind_some,
    mergeEntries_path fun ref present => (alike ref present).1] at own
  obtain ⟨out, path, whole⟩ := map_eq_some_iff.mp own
  obtain ⟨fits, line⟩ := mergeRun_some alike path
  exact ⟨fits, out, whole.symm, line⟩

/-- The reports are merged when the sums of all lines are defined. -/
theorem merged_of_fits (uniform : Uniform (allEntries reports))
    (fits : ∀ path first rest, entriesOf path (allEntries reports) = first :: rest →
      Fits first rest) : ∃ merged, MergeCoverage reports = some merged := by
  obtain ⟨coverage, looped⟩ : ∃ coverage,
      (allEntries reports).foldlM mergeEntry [] = some coverage := by
    refine mergeEntries_of_paths fun path => ?_
    cases entries : entriesOf path (allEntries reports) with
    | nil => exact ⟨_, rfl⟩
    | cons first rest =>
      have alike := alike_of_path uniform entries
      obtain ⟨out, run⟩ := mergeRun_of_fits alike (fits path first rest entries)
      have begun : [first].foldlM mergeEntry (entriesOf path []) = some [first] := rfl
      rw [← singleton_append, foldlM_append, begun, bind_eq_bind,
        bind_some, mergeEntries_path fun ref present => (alike ref present).1, run]
      exact ⟨_, rfl⟩
  rw [MergeCoverage_eq, looped]
  exact ⟨_, rfl⟩

/-- In an order of the reports each line of a path is settled by its first word and the sum
of all entries. -/
theorem merged_settled (family : Family reports) (same : order.Perm reports)
    (run : MergeCoverage order = some merged)
    (entries : entriesOf path (allEntries order) = first :: rest) (line : Nat) :
    (max 0 (toInt (first.line_coverage_vector.getD line 0)) < total reports path line →
      total reports path line + min 0 (toInt (first.line_coverage_vector.getD line 0)) ≤ intMax) ∧
    ∃ out, entriesOf path merged.coverage = [out] ∧
      out.line_coverage_vector.getD line 0 =
        settled (total reports path line) (first.line_coverage_vector.getD line 0) := by
  obtain ⟨fits, out, whole, outMerged⟩ := merged_some (family.perm same).uniform run entries
  have sum : gain (column line (first :: rest)) = total reports path line := by
    rw [← entries]
    exact total_perm same path line
  refine ⟨?_, out, whole, ?_⟩
  · rw [← sum]
    exact (lineFits_iff _ _).mp (fits line)
  · rw [outMerged.value, lineValue_eq, ← sum]
    rfl

/-- Reports whose order does not matter have leads that agree. -/
theorem leadsAgree_of_orderFree (family : Family reports) (free : OrderFree reports) (path : String)
    (line : Nat) : LeadsAgree reports path line := by
  obtain ⟨result, free⟩ := free
  have begins : ∀ report ∈ reports, ∀ word ∈ lead path line report,
      (max 0 (toInt word) < total reports path line →
        total reports path line + min 0 (toInt word) ≤ intMax) ∧
      (result path).map (fun out => out.1.getD line 0) =
        [settled (total reports path line) word] := by
    intro report present word leading
    obtain ⟨first, head, rfl⟩ := mem_lead.mp leading
    have same := (perm_cons_erase present).symm
    obtain ⟨rest, entries⟩ := first_of_report head (reports.erase report)
    obtain ⟨merged, run, told, _⟩ := free _ same
    obtain ⟨fits, out, whole, value⟩ := merged_settled family same run entries line
    refine ⟨fits, ?_⟩
    rw [← told path, outcome, whole, ← value]
    rfl
  intro report present first leading other also second alsoLeading
  obtain ⟨fits, value⟩ := begins report present first leading
  obtain ⟨_, otherValue⟩ := begins other also second alsoLeading
  refine agree_of_settled (family.lead_lower present leading)
    (family.lead_lower also alsoLeading) (lead_le_total present leading)
    (fun distinct => leads_le_total present also distinct leading alsoLeading) ?_ fits ?_
  · intro equal
    obtain rfl := not_not.mp equal
    exact mem_unique leading alsoLeading
  · exact (List.cons.inj (value.symm.trans otherValue)).1

/-- In an order of the reports the number of covered lines of a path is right exactly when
its entries are balanced. -/
theorem merged_counted (family : Family reports) (same : order.Perm reports)
    (run : MergeCoverage order = some merged) (path : String) :
    (∀ entry ∈ entriesOf path merged.coverage, Counted entry) ↔
      Balanced (entriesOf path (allEntries order)) := by
  have ordered := family.perm same
  cases entries : entriesOf path (allEntries order) with
  | nil =>
    rw [unmerged run entries]
    exact iff_of_true (by simp) trivial
  | cons first rest =>
    obtain ⟨_, out, whole, outMerged⟩ := merged_some ordered.uniform run entries
    have begun := mem_entriesOf.mp (entries ▸ mem_cons_self (a := first) (l := rest))
    rw [whole, forall_mem_singleton]
    exact counted_iff_balanced (ordered.counted first begun.1) outMerged

theorem balanced_of_orderFree (family : Family reports) (free : OrderFree reports)
    (same : order.Perm reports) (path : String) : Balanced (entriesOf path (allEntries order)) := by
  obtain ⟨result, free⟩ := free
  obtain ⟨merged, run, _, counted⟩ := free order same
  exact (merged_counted family same run path).mp fun entry present =>
    counted entry (mem_entriesOf.mp present).1

/-- When the leads of a line agree, its sums are defined in each order. -/
theorem fits_of_agree (same : order.Perm reports) (agree : ∀ line, LeadsAgree reports path line)
    (entries : entriesOf path (allEntries order) = first :: rest) : Fits first rest := by
  intro line
  have sum : gain (column line (first :: rest)) = total reports path line := by
    rw [← entries]
    exact total_perm same path line
  obtain ⟨report, present, head⟩ := report_of_first entries
  have leading : first.line_coverage_vector.getD line 0 ∈ lead path line report :=
    mem_lead.mpr ⟨first, head, rfl⟩
  have also := same.mem_iff.mp present
  have agrees := agree line report also _ leading report also _ leading
  refine (lineFits_iff _ _).mpr fun raised => ?_
  change _ < gain (column line (first :: rest)) at raised
  change gain (column line (first :: rest)) + _ ≤ _
  rw [sum] at raised ⊢
  rw [if_neg (by omega)] at agrees
  exact agrees.2.1

theorem settled_of_leads (family : Family reports) (agree : LeadsAgree reports path line)
    (present : report ∈ reports) (also : other ∈ reports) (leading : word ∈ lead path line report)
    (alsoLeading : second ∈ lead path line other) :
    settled (total reports path line) word = settled (total reports path line) second := by
  have back := agree other also second alsoLeading report present word leading
  simp only [ne_comm (a := other)] at back
  refine settled_of_agree (family.lead_lower present leading) (family.lead_lower also alsoLeading)
    (lead_le_total present leading) (lead_le_total also alsoLeading)
    (fun distinct : report ≠ other =>
      leads_le_total present also distinct leading alsoLeading) ?_
    (agree report present word leading other also second alsoLeading) back
  intro equal
  obtain rfl := not_not.mp equal
  exact mem_unique leading alsoLeading

end

theorem eq_of_getD {first second : List Int} (length : first.length = second.length)
    (words : ∀ line, first.getD line 0 = second.getD line 0) : first = second := by
  refine ext_getElem length fun line inside also => ?_
  simpa [getD_eq_getElem?_getD, inside, also] using words line

/-- When the leads of all lines of a path agree, two orders merge its entries alike. -/
theorem outcome_of_agree (family : Family reports) (same : order.Perm reports)
    (agree : ∀ line, LeadsAgree reports path line) {reference : TestReportMessage}
    (run : MergeCoverage order = some merged)
    (referenceRun : MergeCoverage reports = some reference)
    (counted : ∀ entry ∈ entriesOf path merged.coverage, Counted entry)
    (referenceCounted : ∀ entry ∈ entriesOf path reference.coverage, Counted entry) :
    outcome path merged = outcome path reference := by
  have entriesPerm := entriesOf_perm same path
  unfold outcome
  cases entries : entriesOf path (allEntries order) with
  | nil =>
    rw [entries] at entriesPerm
    rw [unmerged run entries, unmerged referenceRun entriesPerm.nil_eq.symm]
  | cons first rest =>
    cases others : entriesOf path (allEntries reports) with
    | nil =>
      rw [entries, others] at entriesPerm
      exact absurd entriesPerm.eq_nil (by simp)
    | cons second later =>
      have ordered := family.perm same
      obtain ⟨_, out, whole, outMerged⟩ := merged_some ordered.uniform run entries
      obtain ⟨_, target, targetWhole, targetMerged⟩ :=
        merged_some family.uniform referenceRun others
      have begun := mem_entriesOf.mp (others ▸ mem_cons_self (a := second) (l := later))
      have moved : first ∈ entriesOf path (allEntries reports) :=
        entriesPerm.mem_iff.mp (entries ▸ mem_cons_self)
      have also := mem_entriesOf.mp moved
      have lines : out.line_coverage_vector = target.line_coverage_vector := by
        have length := family.uniform first also.1 second begun.1 (also.2.trans begun.2.symm)
        refine eq_of_getD (by rw [outMerged.length, targetMerged.length, length]) fun line => ?_
        obtain ⟨_, _, whole', value⟩ := merged_settled family same run entries line
        obtain ⟨_, _, targetWhole', targetValue⟩ :=
          merged_settled family (List.Perm.refl _) referenceRun others line
        obtain rfl := (List.cons.inj (whole.symm.trans whole')).1
        obtain rfl := (List.cons.inj (targetWhole.symm.trans targetWhole')).1
        rw [value, targetValue]
        obtain ⟨report, present, head⟩ := report_of_first entries
        obtain ⟨other, otherPresent, otherHead⟩ := report_of_first others
        exact settled_of_leads family (agree line) (same.mem_iff.mp present) otherPresent
          (mem_lead.mpr ⟨first, head, rfl⟩) (mem_lead.mpr ⟨second, otherHead, rfl⟩)
      have right := counted out (by simp [whole])
      have targetRight := referenceCounted target (by simp [targetWhole])
      unfold Counted at right targetRight
      rw [whole, targetWhole, map_singleton, map_singleton, right, targetRight, lines]

/-- Reports whose leads agree and whose entries are balanced are merged alike in each order. -/
theorem orderFree_of_mergesWell (family : Family reports) (well : MergesWell reports) :
    OrderFree reports := by
  have runs : ∀ order, order.Perm reports → ∃ merged, MergeCoverage order = some merged := by
    intro order same
    exact merged_of_fits (family.perm same).uniform fun path _ _ entries =>
      fits_of_agree same (well path).1 entries
  have counted : ∀ order, order.Perm reports → ∀ merged, MergeCoverage order = some merged →
      ∀ path, ∀ entry ∈ entriesOf path merged.coverage, Counted entry :=
    fun order same merged run path =>
      (merged_counted family same run path).mpr ((well path).2 order same)
  obtain ⟨reference, referenceRun⟩ := runs reports (List.Perm.refl _)
  refine ⟨fun path => outcome path reference, fun order same => ?_⟩
  obtain ⟨merged, run⟩ := runs order same
  refine ⟨merged, run, fun path => ?_, fun entry present => ?_⟩
  · exact outcome_of_agree family same (well path).1 run referenceRun
      (counted order same merged run path)
      (counted reports (List.Perm.refl _) reference referenceRun path)
  · exact counted order same merged run entry.file_path entry (mem_entriesOf.mpr ⟨present, rfl⟩)

/-- The merged report depends on no order and its counts are right exactly when the leads of
each line agree and the entries of each path are balanced. -/
theorem MergeCoverage_orderFree_iff (reports : List TestReportMessage) (family : Family reports) :
    OrderFree reports ↔ MergesWell reports := by
  constructor
  · intro free path
    exact ⟨leadsAgree_of_orderFree family free path,
      fun order same => balanced_of_orderFree family free same path⟩
  · exact orderFree_of_mergesWell family

/-! ## Reports with each path once -/

/-- Each report has a path once, and all words are values of an `int`. -/
structure Plain (reports : List TestReportMessage) : Prop where
  once : ∀ report ∈ reports, ∀ path first rest,
    entriesOf path report.coverage = first :: rest → rest = []
  small : ∀ entry ∈ allEntries reports, ∀ count ∈ entry.line_coverage_vector, count ≤ intMax

theorem Plain.lead_of_mem (plain : Plain reports) {entry : CoverageReportMessage}
    (present : entry ∈ entriesOf path (allEntries reports)) (line : Nat) :
    ∃ report ∈ reports, entry.line_coverage_vector.getD line 0 ∈ lead path line report := by
  obtain ⟨inside, same⟩ := mem_entriesOf.mp present
  obtain ⟨report, listed, own⟩ := mem_flatMap.mp inside
  have here : entry ∈ entriesOf path report.coverage := mem_entriesOf.mpr ⟨own, same⟩
  refine ⟨report, listed, mem_lead.mpr ⟨entry, ?_, rfl⟩⟩
  cases entries : entriesOf path report.coverage with
  | nil => exact absurd (entries ▸ here) (by simp)
  | cons first rest =>
    have alone := plain.once report listed path first rest entries
    rw [entries, alone, mem_singleton] at here
    rw [here, List.head?_cons]

/-- A line of which something is counted has a lead that is positive. -/
theorem exists_pos_of_gain {words : List Int} (positive : 0 < gain words) :
    ∃ word ∈ words, 0 < toInt word := by
  induction words with
  | nil => exact absurd positive (lt_irrefl 0)
  | cons word words ih =>
    by_cases here : 0 < toInt word
    · exact ⟨word, mem_cons_self, here⟩
    · rw [gain_cons] at positive
      obtain ⟨later, present, found⟩ := ih (by omega)
      exact ⟨later, mem_cons_of_mem _ present, found⟩

theorem Plain.lead_read (plain : Plain reports) (family : Family reports)
    (present : report ∈ reports) {word : Int} (leading : word ∈ lead path line report) :
    toInt word = word := by
  have lower := family.lead_lower present leading
  obtain ⟨first, head, rfl⟩ := mem_lead.mp leading
  refine toInt_eq (by omega) ?_
  rw [getD_eq_getElem?_getD]
  cases stored : first.line_coverage_vector[line]? with
  | none => decide
  | some count =>
    exact plain.small first (mem_entriesOf.mp (mem_of_head present head)).1 count
      (mem_of_getElem? stored)

/-- A line of which something is counted has a lead that is positive. -/
theorem Plain.lead_pos (plain : Plain reports) (family : Family reports)
    (positive : 0 < total reports path line) :
    ∃ report ∈ reports, ∃ word ∈ lead path line report, 0 < word := by
  obtain ⟨word, present, found⟩ := exists_pos_of_gain positive
  obtain ⟨entry, own, rfl⟩ := mem_map.mp present
  obtain ⟨report, listed, leading⟩ := plain.lead_of_mem own line
  rw [plain.lead_read family listed leading] at found
  exact ⟨report, listed, _, leading, found⟩

/-- A line that begins at zero or above is balanced. -/
theorem skips_iff_pos {start : Int} (nonneg : 0 ≤ start) (words : List Int) :
    Skips start words ↔ 0 < start := by
  constructor
  · rintro ⟨_, unpassed⟩
    by_contra zero
    exact unpassed ⟨[], by simp, by rw [gain_nil]; omega⟩
  · intro positive
    have more := gain_nonneg words
    refine ⟨by omega, ?_⟩
    rintro ⟨front, _, zero⟩
    have := gain_nonneg front
    omega

/-- When each report has a path once, the order is free exactly when the reports agree on
which lines are executable and the sums fit in an `int`. -/
theorem orderFree_iff_of_plain (family : Family reports) (plain : Plain reports) :
    OrderFree reports ↔ ∀ path line, total reports path line ≤ intMax ∧
      ∀ report ∈ reports, ∀ first ∈ lead path line report,
        ∀ other ∈ reports, ∀ second ∈ lead path line other, first = -1 → second = -1 := by
  have sumNonneg : ∀ path line, 0 ≤ total reports path line := fun _ _ => gain_nonneg _
  constructor
  · intro free path line
    have agree := leadsAgree_of_orderFree family free path line
    rcases (sumNonneg path line).eq_or_lt with zero | positive
    · refine ⟨zero ▸ by decide, fun report present first leading other also second follows => ?_⟩
      have same := agree report present first leading other also second follows
      rw [if_pos zero.symm] at same
      exact fun absent => same ▸ absent
    · obtain ⟨report, present, word, leading, found⟩ := plain.lead_pos family positive
      have fits := agree report present word leading report present word leading
      rw [if_neg positive.ne', plain.lead_read family present leading] at fits
      refine ⟨by omega, fun report present first leading other also second follows => ?_⟩
      have same := agree report present first leading other also second follows
      have lower := family.lead_lower also follows
      rw [if_neg positive.ne', plain.lead_read family present leading,
        plain.lead_read family also follows] at same
      omega
  · intro executable
    have nonneg : ∀ path line, 0 < total reports path line →
        ∀ report ∈ reports, ∀ word ∈ lead path line report, 0 ≤ word := by
      intro path line positive report present word leading
      obtain ⟨other, also, second, follows, found⟩ := plain.lead_pos family positive
      have lower := family.lead_lower present leading
      have absent := (executable path line).2 report present word leading other also second follows
      omega
    refine orderFree_of_mergesWell family fun path => ⟨fun line => ?_, fun order same => ?_⟩
    · intro report present first leading other also second follows
      have bound := lead_le_total present leading
      have otherBound := lead_le_total also follows
      have lower := family.lead_lower present leading
      have otherLower := family.lead_lower also follows
      rw [plain.lead_read family present leading] at bound ⊢
      rw [plain.lead_read family also follows] at otherBound ⊢
      have sum := sumNonneg path line
      split_ifs with zero
      · have agree := (executable path line).2
        have there := agree report present first leading other also second follows
        have back := agree other also second follows report present first leading
        omega
      · have above := nonneg path line (by omega) report present first leading
        have otherAbove := nonneg path line (by omega) other also second follows
        have fits := (executable path line).1
        omega
    · cases entries : entriesOf path (allEntries order) with
      | nil => trivial
      | cons first rest =>
        obtain ⟨report, present, head⟩ := report_of_first entries
        refine congrArg Finset.card (Finset.filter_congr fun line _ => ?_)
        refine and_congr_right fun raised => ?_
        have leading : first.line_coverage_vector.getD line 0 ∈ lead path line report :=
          mem_lead.mpr ⟨first, head, rfl⟩
        have listed := same.mem_iff.mp present
        have sum : gain (column line (first :: rest)) = total reports path line := by
          rw [← entries]
          exact total_perm same path line
        have whole : gain (column line (first :: rest)) = _ + gain (column line rest) :=
          gain_cons _ _
        have above := nonneg path line (by omega) report listed _ leading
        rw [plain.lead_read family listed leading]
        exact (skips_iff_pos above _).symm

/-- A file of which one line is not executable in the first report, and a report in which
the line was executed three times. -/
def executableLater : List TestReportMessage :=
  [⟨[⟨"a.cpp", [1, -1], 1, 1⟩]⟩, ⟨[⟨"a.cpp", [2, 3], 2, 2⟩]⟩]

theorem executableLater_family : Family executableLater :=
  ⟨by unfold Uniform; decide, by decide, by unfold Counted; decide⟩

theorem executableLater_orderFree_iff : OrderFree executableLater ↔ MergesWell executableLater :=
  MergeCoverage_orderFree_iff executableLater executableLater_family

theorem executableLater_plain : Plain executableLater where
  once report listed path first rest found := by
    have single : ∀ report ∈ executableLater, report.coverage.length = 1 := by decide
    have fewer : (entriesOf path report.coverage).length ≤ report.coverage.length :=
      length_filter_le _ _
    rw [found, single report listed, length_cons] at fewer
    exact eq_nil_of_length_eq_zero (by omega)
  small := by decide

theorem executableLater_orderFree_plain : OrderFree executableLater ↔
    ∀ path line, total executableLater path line ≤ intMax ∧
      ∀ report ∈ executableLater, ∀ first ∈ lead path line report,
        ∀ other ∈ executableLater, ∀ second ∈ lead path line other, first = -1 → second = -1 :=
  orderFree_iff_of_plain executableLater_family executableLater_plain

/-- Merged in one order the line is counted twice, and in the other one three times; only
then is the number of covered lines right. -/
theorem executableLater_order : Family executableLater ∧ ¬ OrderFree executableLater := by
  refine ⟨executableLater_family, ?_⟩
  rintro ⟨result, free⟩
  obtain ⟨merged, run, told, _⟩ := free _ (List.Perm.refl _)
  obtain ⟨turned, turnedRun, turnedTold, _⟩ := free executableLater.reverse (reverse_perm _)
  have first : MergeCoverage executableLater = some ⟨[⟨"a.cpp", [3, 2], 1, 1⟩]⟩ := by decide
  have second : MergeCoverage executableLater.reverse = some ⟨[⟨"a.cpp", [3, 3], 2, 2⟩]⟩ := by
    decide
  obtain rfl := Option.some.inj (first.symm.trans run)
  obtain rfl := Option.some.inj (second.symm.trans turnedRun)
  exact absurd ((told "a.cpp").trans (turnedTold "a.cpp").symm) (by decide)

end Vts.Trace
