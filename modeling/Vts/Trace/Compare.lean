import Mathlib.Data.String.Basic
import Vts.Lib.OrderedMap
import Vts.Trace.Coverage

/-!
# Comparing coverage reports

`CompareCoverage` of `utils/native/trace_processor/VtsCoverageProcessor.cpp`, from the parsed
reports on, with what it prints: for each file, in the order of the paths, the new lines.

The comparison means the difference of the sets of covered lines. Proved here: exactly when
it lists that difference. A line that is covered in the new report must stand in the vector
of the reference report for the same file, and must not be marked there as not executable:
the reference vector is read at the lines of the new one, and its word is compared with zero.
Reading past the end of a vector is undefined and has no outcome here.
-/

namespace Vts.Trace

open Vts.Lib List Option

/-- `map<string, vector<int>>`. -/
abbrev LineMap := OrderedMap String (List Nat)

/-- The loop over the lines of a file that is in both reports, from a line on. None when the
reference vector is read past its end. -/
def compareLines (file_path : String) (ref : List Int) :
    Nat → List Int → LineMap → Option LineMap
  | _, [], new_coverage_map => some new_coverage_map
  | line, count :: counts, new_coverage_map =>
    if 0 < count then
      match ref[line]? with
      | none => none
      | some ref_count =>
        compareLines file_path ref (line + 1) counts
          (if ref_count = 0 then new_coverage_map.push file_path line else new_coverage_map)
    else compareLines file_path ref (line + 1) counts new_coverage_map

/-- The covered lines of a vector. -/
def coveredIn (lines : List Int) : List Nat :=
  (List.range lines.length).filter fun line => 0 < lines.getD line 0

/-- The loop over the files of the new report. -/
def compareFile (ref_coverage_report : TestReportMessage) (new_coverage_map : LineMap)
    (new_coverage : CoverageReportMessage) : Option LineMap :=
  match ref_coverage_report.coverage.find? (·.file_path = new_coverage.file_path) with
  | some ref_coverage =>
    compareLines new_coverage.file_path ref_coverage.line_coverage_vector 0
      new_coverage.line_coverage_vector new_coverage_map
  | none =>
    some (new_coverage_map.insert new_coverage.file_path
      (coveredIn new_coverage.line_coverage_vector))

/-- `CompareCoverage`: what is printed. -/
def CompareCoverage (ref_coverage_report new_coverage_report : TestReportMessage) :
    Option LineMap :=
  new_coverage_report.coverage.foldlM (compareFile ref_coverage_report) OrderedMap.empty

/-! ## The difference -/

/-- The comparison ends and lists each line once that is covered in the new report and not
in the reference report, and no others. -/
def ListsDifference (ref_coverage_report new_coverage_report : TestReportMessage) : Prop :=
  ∃ new_coverage_map, CompareCoverage ref_coverage_report new_coverage_report =
      some new_coverage_map ∧
    ∀ file_path, (new_coverage_map.listed file_path).Nodup ∧
      ∀ line, line ∈ new_coverage_map.listed file_path ↔ (file_path, line) ∈
        coveredLines new_coverage_report.coverage \ coveredLines ref_coverage_report.coverage

/-- Each covered line of the new file is an executable line of the reference file. -/
def Executable (ref_coverage new_coverage : CoverageReportMessage) : Prop :=
  ∀ (line : Nat) (count : Int),
    new_coverage.line_coverage_vector[line]? = some count → 0 < count →
    ∃ ref_count, ref_coverage.line_coverage_vector[line]? = some ref_count ∧ 0 ≤ ref_count

/-- The reports list each path at most once. -/
def UniquePaths (report : TestReportMessage) : Prop :=
  (report.coverage.map CoverageReportMessage.file_path).Nodup

/-! ## A file -/

/-- The lines that the loop finds, from a line on. None when it reads past the end. -/
def foundLines (ref : List Int) : Nat → List Int → Option (List Nat)
  | _, [] => some []
  | line, count :: counts =>
    if 0 < count then
      match ref[line]? with
      | none => none
      | some ref_count =>
        (foundLines ref (line + 1) counts).map fun found =>
          if ref_count = 0 then line :: found else found
    else foundLines ref (line + 1) counts

section

variable {ref : TestReportMessage} {files : List CoverageReportMessage} (path : String)

theorem compareLines_eq (ref : List Int) (line : Nat) (counts : List Int) (map : LineMap) :
    compareLines path ref line counts map =
      (foundLines ref line counts).map fun found => found.foldl (OrderedMap.push · path ·) map := by
  induction counts generalizing line map with
  | nil => rfl
  | cons count counts ih =>
    rw [compareLines, foundLines]
    split_ifs with positive
    · cases ref[line]? with
      | none => rfl
      | some ref_count =>
        simp only [ih, Option.map_map]
        refine congrArg (Option.map · _) (funext fun found => ?_)
        simp only [Function.comp]
        split_ifs <;> rfl
    · exact ih _ _

theorem listed_pushAll (found : List Nat) (map : LineMap) :
    (found.foldl (OrderedMap.push · path ·) map).listed path = map.listed path ++ found := by
  induction found generalizing map with
  | nil => simp
  | cons line found ih =>
    rw [foldl_cons, ih, OrderedMap.listed_push_self, append_assoc,
      singleton_append]

theorem find_pushAll_other {path other : String} (different : other ≠ path) (found : List Nat)
    (map : LineMap) :
    (found.foldl (OrderedMap.push · path ·) map).find other = map.find other := by
  induction found generalizing map with
  | nil => rfl
  | cons line found ih =>
    rw [foldl_cons, ih, OrderedMap.find_push_other line different]

/-- The loop reads only words that are there when each covered line has one. -/
theorem foundLines_isSome (ref : List Int) (line : Nat) (counts : List Int) :
    (foundLines ref line counts).isSome ↔
      ∀ index count, counts[index]? = some count → 0 < count →
        ∃ ref_count, ref[line + index]? = some ref_count := by
  induction counts generalizing line with
  | nil => simp [foundLines]
  | cons count counts ih =>
    have later : (∀ index value, (count :: counts)[index]? = some value → 0 < value →
          ∃ ref_count, ref[line + index]? = some ref_count) ↔
        (0 < count → ∃ ref_count, ref[line]? = some ref_count) ∧
          ∀ index value, counts[index]? = some value → 0 < value →
            ∃ ref_count, ref[line + 1 + index]? = some ref_count := by
      constructor
      · intro all
        refine ⟨fun positive => all 0 count rfl positive, fun index value stored positive => ?_⟩
        have here := all (index + 1) value stored positive
        rwa [← add_assoc, add_right_comm] at here
      · rintro ⟨first, rest⟩ index value stored positive
        cases index with
        | zero =>
          obtain rfl : count = value := Option.some.inj stored
          exact first positive
        | succ index =>
          rw [← add_assoc, add_right_comm]
          exact rest index value stored positive
    rw [later, foundLines]
    split_ifs with positive
    · cases stored : ref[line]? with
      | none => simp [positive]
      | some ref_count =>
        rw [isSome_map, ih]
        simp
    · rw [ih]
      simp [positive]

section

variable {ref : List Int} {line : Nat} {counts : List Int} {found : List Nat}
  (loop : foundLines ref line counts = some found)
include loop

/-- The loop finds the covered lines whose word in the reference vector is zero. -/
theorem mem_foundLines (target : Nat) :
    target ∈ found ↔
      ∃ index, target = line + index ∧ 0 < counts.getD index 0 ∧ ref[target]? = some 0 := by
  induction counts generalizing line found with
  | nil =>
    obtain rfl := Option.some.inj loop
    simp
  | cons count counts ih =>
    have split : (∃ index, target = line + index ∧ 0 < (count :: counts).getD index 0 ∧
          ref[target]? = some 0) ↔
        (target = line ∧ 0 < count ∧ ref[line]? = some 0) ∨
          ∃ index, target = line + 1 + index ∧ 0 < counts.getD index 0 ∧ ref[target]? = some 0 := by
      constructor
      · rintro ⟨index, rfl, positive, zero⟩
        cases index with
        | zero => exact .inl ⟨rfl, positive, zero⟩
        | succ index => exact .inr ⟨index, by omega, positive, zero⟩
      · rintro (⟨rfl, positive, zero⟩ | ⟨index, rfl, positive, zero⟩)
        · exact ⟨0, rfl, positive, zero⟩
        · exact ⟨index + 1, by omega, positive, zero⟩
    rw [split]
    rw [foundLines] at loop
    split_ifs at loop with positive
    · cases stored : ref[line]? with
      | none => simp [stored] at loop
      | some ref_count =>
        simp only [stored] at loop
        obtain ⟨later, rest, rfl⟩ := map_eq_some_iff.mp loop
        rw [← ih rest]
        split_ifs with zero
        · simp [positive, zero]
        · simp [zero]
    · rw [← ih loop]
      simp [positive]

theorem foundLines_ascending : found.Pairwise (· < ·) := by
  induction counts generalizing line found with
  | nil =>
    obtain rfl := Option.some.inj loop
    exact .nil
  | cons count counts ih =>
    rw [foundLines] at loop
    split_ifs at loop
    · cases stored : ref[line]? with
      | none => simp [stored] at loop
      | some ref_count =>
        simp only [stored] at loop
        obtain ⟨later, rest, rfl⟩ := map_eq_some_iff.mp loop
        have ascending := ih rest
        split_ifs
        · refine pairwise_cons.mpr ⟨fun target present => ?_, ascending⟩
          obtain ⟨index, rfl, _⟩ := (mem_foundLines rest target).mp present
          omega
        · exact ascending
    · exact ih loop

end

/-- What is found for a file of the new report. -/
def fileFound (ref_coverage_report : TestReportMessage) (new_coverage : CoverageReportMessage) :
    Option (List Nat) :=
  match ref_coverage_report.coverage.find? (·.file_path = new_coverage.file_path) with
  | some ref_coverage =>
    foundLines ref_coverage.line_coverage_vector 0 new_coverage.line_coverage_vector
  | none => some (coveredIn new_coverage.line_coverage_vector)

/-- A file that is met for the first time is listed with what is found for it, and no other
file changes. -/
theorem compareFile_some {map next : LineMap} {msg : CoverageReportMessage}
    (absent : map.find msg.file_path = none) (run : compareFile ref map msg = some next) :
    fileFound ref msg = some (next.listed msg.file_path) ∧
      ∀ other, other ≠ msg.file_path → next.find other = map.find other := by
  have before : map.listed msg.file_path = [] := by
    rw [OrderedMap.listed, absent, getD_none]
  unfold compareFile at run
  unfold fileFound
  cases seen : ref.coverage.find? (·.file_path = msg.file_path) with
  | none =>
    rw [seen] at run
    obtain rfl := Option.some.inj run
    refine ⟨?_, fun other different => OrderedMap.find_insert_other different⟩
    rw [OrderedMap.listed, OrderedMap.find_insert_self (OrderedMap.not_mem_keys_of_find absent)]
    rfl
  | some ref_coverage =>
    rw [seen] at run
    simp only [compareLines_eq] at run
    obtain ⟨found, loop, rfl⟩ := map_eq_some_iff.mp run
    refine ⟨?_, fun other different => find_pushAll_other different found map⟩
    rw [listed_pushAll, before, nil_append]
    exact loop

theorem compareFile_isSome (ref : TestReportMessage) (map : LineMap)
    (msg : CoverageReportMessage) :
    (compareFile ref map msg).isSome = (fileFound ref msg).isSome := by
  unfold compareFile fileFound
  cases ref.coverage.find? (·.file_path = msg.file_path) with
  | none => rfl
  | some ref_coverage =>
    simp only [compareLines_eq]
    rw [isSome_map]

/-- The loop over the files lists each of them with what is found for it. -/
theorem compareFiles_some {map out : LineMap}
    (unique : (files.map CoverageReportMessage.file_path).Nodup)
    (absent : ∀ msg ∈ files, map.find msg.file_path = none)
    (run : files.foldlM (compareFile ref) map = some out) :
    (∀ msg ∈ files, fileFound ref msg = some (out.listed msg.file_path)) ∧
      ∀ path, path ∉ files.map CoverageReportMessage.file_path → out.find path = map.find path := by
  induction files generalizing map with
  | nil =>
    obtain rfl : map = out := by simpa using run
    exact ⟨fun _ present => absurd present not_mem_nil, fun _ _ => rfl⟩
  | cons msg files ih =>
    obtain ⟨next, first, later⟩ := bind_eq_some_iff.mp run
    obtain ⟨fresh, restUnique⟩ := nodup_cons.mp unique
    obtain ⟨found, others⟩ := compareFile_some (absent msg mem_cons_self) first
    have restAbsent : ∀ other ∈ files, next.find other.file_path = none := by
      intro other present
      rw [others]
      · exact absent other (mem_cons_of_mem _ present)
      · exact fun same => fresh (same ▸ mem_map_of_mem present)
    obtain ⟨restFound, restOthers⟩ := ih restUnique restAbsent later
    constructor
    · intro other present
      rcases mem_cons.mp present with rfl | inside
      · rw [found, OrderedMap.listed, OrderedMap.listed, restOthers _ fresh]
      · exact restFound other inside
    · intro path outside
      rw [map_cons, mem_cons, not_or] at outside
      rw [restOthers path outside.2, others path outside.1]

theorem compareFiles_of_found {map : LineMap} (found : ∀ msg ∈ files, (fileFound ref msg).isSome) :
    ∃ out, files.foldlM (compareFile ref) map = some out := by
  induction files generalizing map with
  | nil => exact ⟨map, rfl⟩
  | cons msg files ih =>
    have first := found msg mem_cons_self
    rw [← compareFile_isSome ref map] at first
    obtain ⟨next, step⟩ := isSome_iff_exists.mp first
    obtain ⟨out, later⟩ : ∃ out, files.foldlM (compareFile ref) next = some out :=
      ih fun other present => found other (mem_cons_of_mem _ present)
    exact ⟨out, bind_eq_some_iff.mpr ⟨next, step, later⟩⟩

end

/-! ## Two reports -/

theorem mem_coveredLines_unique {msgs : List CoverageReportMessage} {msg : CoverageReportMessage}
    (unique : (msgs.map CoverageReportMessage.file_path).Nodup) (present : msg ∈ msgs)
    (line : Nat) :
    (msg.file_path, line) ∈ coveredLines msgs ↔ 0 < msg.line_coverage_vector.getD line 0 := by
  induction msgs with
  | nil => exact absurd present not_mem_nil
  | cons first msgs ih =>
    obtain ⟨fresh, restUnique⟩ := nodup_cons.mp unique
    rw [coveredLines, Finset.mem_union, mem_fileLines]
    rcases mem_cons.mp present with rfl | inside
    · constructor
      · rintro (here | there)
        · exact here.2
        · exact absurd (path_of_mem_coveredLines there) fresh
      · exact fun positive => .inl ⟨rfl, positive⟩
    · rw [ih restUnique inside]
      refine or_iff_right ?_
      rintro ⟨same, _⟩
      exact fresh (same ▸ mem_map_of_mem inside)

section

variable {lines : List Int} {line : Nat} {ref : TestReportMessage}

theorem mem_coveredIn : line ∈ coveredIn lines ↔ 0 < lines.getD line 0 := by
  have inside := @mem_positives lines line
  rw [positives, Finset.mem_filter, Finset.mem_range] at inside
  rw [coveredIn, mem_filter, mem_range, decide_eq_true_iff]
  exact inside

theorem getElem?_of_pos (positive : 0 < lines.getD line 0) :
    lines[line]? = some (lines.getD line 0) := by
  rw [getD_eq_getElem?_getD] at positive ⊢
  cases stored : lines[line]? with
  | none => simp [stored] at positive
  | some count => rfl

/-- What is found for a file is its part of the difference exactly when each of its covered
lines is an executable line of the reference file. -/
theorem fileFound_iff (unique : UniquePaths ref) (msg : CoverageReportMessage) :
    (∃ found, fileFound ref msg = some found ∧ ∀ line, line ∈ found ↔
      0 < msg.line_coverage_vector.getD line 0 ∧
        (msg.file_path, line) ∉ coveredLines ref.coverage) ↔
    ∀ ref_coverage ∈ ref.coverage, ref_coverage.file_path = msg.file_path →
      Executable ref_coverage msg := by
  unfold fileFound
  cases seen : ref.coverage.find? (·.file_path = msg.file_path) with
  | none =>
    have missing : ∀ ref_coverage ∈ ref.coverage, ref_coverage.file_path ≠ msg.file_path := by
      simpa using seen
    refine iff_of_true ⟨_, rfl, fun line => ?_⟩ ?_
    · rw [mem_coveredIn, iff_self_and]
      intro _ covered
      obtain ⟨ref_coverage, present, same⟩ :=
        mem_map.mp (path_of_mem_coveredLines covered)
      exact missing ref_coverage present same
    · exact fun ref_coverage present same => absurd same (missing ref_coverage present)
  | some ref_coverage =>
    have present := mem_of_find?_eq_some seen
    have same : ref_coverage.file_path = msg.file_path := by
      simpa using List.find?_some seen
    have only : (∀ other ∈ ref.coverage, other.file_path = msg.file_path →
        Executable other msg) ↔ Executable ref_coverage msg := by
      refine ⟨fun all => all ref_coverage present same, fun executable other also path => ?_⟩
      rwa [inj_on_of_nodup_map unique also present (path.trans same.symm)]
    have covered : ∀ line, (msg.file_path, line) ∈ coveredLines ref.coverage ↔
        0 < ref_coverage.line_coverage_vector.getD line 0 := by
      intro line
      rw [← same]
      exact mem_coveredLines_unique unique present line
    rw [only]
    simp only [covered]
    constructor
    · rintro ⟨found, loop, exact_lines⟩ line count stored positive
      have reads := (foundLines_isSome _ _ _).mp (isSome_iff_exists.mpr ⟨found, loop⟩)
      obtain ⟨ref_count, here⟩ := reads line count stored positive
      rw [Nat.zero_add] at here
      refine ⟨ref_count, here, ?_⟩
      by_contra negative
      have word : ref_coverage.line_coverage_vector.getD line 0 = ref_count := by
        rw [getD_eq_getElem?_getD, here, getD_some]
      have new_word : msg.line_coverage_vector.getD line 0 = count := by
        rw [getD_eq_getElem?_getD, stored, getD_some]
      have isNew := (exact_lines line).mpr ⟨by omega, by omega⟩
      obtain ⟨index, at_line, _, zero⟩ := (mem_foundLines loop line).mp isNew
      rw [here] at zero
      have := Option.some.inj zero
      omega
    · intro executable
      have reads : (foundLines ref_coverage.line_coverage_vector 0
          msg.line_coverage_vector).isSome := by
        refine (foundLines_isSome _ _ _).mpr fun line count stored positive => ?_
        obtain ⟨ref_count, here, _⟩ := executable line count stored positive
        exact ⟨ref_count, by rw [Nat.zero_add, here]⟩
      obtain ⟨found, loop⟩ := isSome_iff_exists.mp reads
      refine ⟨found, loop, fun line => ?_⟩
      rw [mem_foundLines loop]
      constructor
      · rintro ⟨index, at_line, positive, zero⟩
        rw [Nat.zero_add] at at_line
        subst at_line
        refine ⟨positive, ?_⟩
        rw [getD_eq_getElem?_getD, zero]
        exact lt_irrefl 0
      · rintro ⟨positive, uncovered⟩
        obtain ⟨ref_count, here, nonneg⟩ := executable line _ (getElem?_of_pos positive) positive
        rw [getD_eq_getElem?_getD, here, getD_some] at uncovered
        refine ⟨line, (Nat.zero_add line).symm, positive, ?_⟩
        rw [here, show ref_count = 0 by omega]

theorem fileFound_nodup {msg : CoverageReportMessage} {found : List Nat}
    (file : fileFound ref msg = some found) : found.Nodup := by
  unfold fileFound at file
  cases seen : ref.coverage.find? (·.file_path = msg.file_path) with
  | none =>
    rw [seen] at file
    obtain rfl := Option.some.inj file
    exact nodup_range.filter _
  | some ref_coverage =>
    rw [seen] at file
    exact (foundLines_ascending file).imp Nat.ne_of_lt

end

/-- What is listed is the difference exactly when each covered line of a file in both reports
is an executable line of the reference report. -/
theorem CompareCoverage_lists_iff (ref_coverage_report new_coverage_report : TestReportMessage)
    (ref_unique : UniquePaths ref_coverage_report) (new_unique : UniquePaths new_coverage_report) :
    ListsDifference ref_coverage_report new_coverage_report ↔
      ∀ new_coverage ∈ new_coverage_report.coverage,
        ∀ ref_coverage ∈ ref_coverage_report.coverage,
          ref_coverage.file_path = new_coverage.file_path →
            Executable ref_coverage new_coverage := by
  have absent : ∀ msg ∈ new_coverage_report.coverage,
      (OrderedMap.empty : LineMap).find msg.file_path = none := fun _ _ => rfl
  constructor
  · rintro ⟨out, run, exactly⟩ msg present
    obtain ⟨found, _⟩ := compareFiles_some new_unique absent run
    refine (fileFound_iff ref_unique msg).mp ⟨_, found msg present, fun line => ?_⟩
    rw [(exactly msg.file_path).2 line, Finset.mem_sdiff,
      mem_coveredLines_unique new_unique present]
  · intro executable
    have files := fun msg present => (fileFound_iff ref_unique msg).mpr (executable msg present)
    obtain ⟨out, run⟩ : ∃ out, CompareCoverage ref_coverage_report new_coverage_report = some out :=
      compareFiles_of_found fun msg present =>
        isSome_iff_exists.mpr ((files msg present).imp fun _ => And.left)
    obtain ⟨found, others⟩ := compareFiles_some new_unique absent run
    refine ⟨out, run, fun path => ?_⟩
    by_cases known : path ∈ new_coverage_report.coverage.map CoverageReportMessage.file_path
    · obtain ⟨msg, present, rfl⟩ := mem_map.mp known
      refine ⟨fileFound_nodup (found msg present), fun line => ?_⟩
      obtain ⟨lines, file, exactly⟩ := files msg present
      obtain rfl := Option.some.inj (file.symm.trans (found msg present))
      rw [exactly line, Finset.mem_sdiff, mem_coveredLines_unique new_unique present]
    · have none_listed : out.listed path = [] := by
        rw [OrderedMap.listed, others path known]
        rfl
      rw [none_listed]
      refine ⟨nodup_nil, fun line => iff_of_false not_mem_nil ?_⟩
      rw [Finset.mem_sdiff]
      exact fun both => known (path_of_mem_coveredLines both.1)

/-- The second line of a file is not executable in the one report, and covered in the other
one. -/
def newlyExecutable : TestReportMessage × TestReportMessage :=
  (⟨[⟨"a.cpp", [1, -1], 1, 1⟩]⟩, ⟨[⟨"a.cpp", [1, 1], 2, 2⟩]⟩)

theorem newlyExecutable_lists_iff :
    ListsDifference newlyExecutable.1 newlyExecutable.2 ↔
      ∀ new_coverage ∈ newlyExecutable.2.coverage, ∀ ref_coverage ∈ newlyExecutable.1.coverage,
        ref_coverage.file_path = new_coverage.file_path → Executable ref_coverage new_coverage :=
  CompareCoverage_lists_iff newlyExecutable.1 newlyExecutable.2
    (by unfold UniquePaths; decide) (by unfold UniquePaths; decide)

/-- The second line is new, and it is not listed. -/
theorem newlyExecutable_unlisted :
    UniquePaths newlyExecutable.1 ∧ UniquePaths newlyExecutable.2 ∧
      ¬ ListsDifference newlyExecutable.1 newlyExecutable.2 := by
  refine ⟨by unfold UniquePaths; decide, by unfold UniquePaths; decide, ?_⟩
  rintro ⟨out, run, exactly⟩
  have listed_none : (CompareCoverage newlyExecutable.1 newlyExecutable.2).map
      (OrderedMap.listed · "a.cpp") = some [] := by decide
  rw [run] at listed_none
  have unlisted : out.listed "a.cpp" = [] := Option.some.inj listed_none
  have isNew := ((exactly "a.cpp").2 1).mpr (by decide)
  rw [unlisted] at isNew
  exact not_mem_nil isNew

end Vts.Trace
