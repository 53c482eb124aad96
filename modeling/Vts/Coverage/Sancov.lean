import Vts.Coverage.LineVectors
import Vts.Python.Exceptions
import Vts.Python.Text

/-!
# Line vectors from sanitizer coverage

`sancov_utils.py`: for each binary, `_InitializeFileVectors` enters the lines that
`readelf` lists as executable into the vectors of the source files, and
`_UpdateLineCounts` counts the lines that `addr2line` prints for the hits. The
outputs of the two tools are given by their words.

The vectors are kept from one binary to the next, and listing a line writes a zero
whatever stood there. `processAll_accumulates_iff` says which sequences of binaries
end with the number of hits of all of them: those where no line is listed, and no
file known for the first time, after it had hits.
-/

namespace Vts.Coverage

open Option hiding or_assoc

open List

open Python (Exception Text firstPiece parseInt rsplitOnce)

namespace Sancov

/-! ## Reading the debug lines -/

/-- The position of `vector[line - 1]`: a negative index counts from the end. -/
def position (length : Nat) (line : Int) : Except Exception Nat :=
  if 1 ≤ line then
    if line ≤ length then .ok (line - 1).toNat else .error .indexError
  else
    if 1 ≤ length + line then .ok (length + line - 1).toNat else .error .indexError

/-- `file_vectors[file] = vector`. -/
def store (vectors : CoverageDict) (file : Text) (vector : List Int) : CoverageDict :=
  fun other => if other = file then some vector else vectors other

/-- A line that is listed as executable. -/
def listLine (vectors : CoverageDict) (file : Text) (line : Int) :
    Except Exception CoverageDict := do
  let vector := (vectors file).getD (List.replicate line.toNat (-1))
  let extended :=
    if line > vector.length then vector ++ List.replicate (line - vector.length).toNat (-2)
    else vector
  let index ← position extended.length line
  return store vectors file (extended.set index 0)

/-- `file = entry_parts[-1].rsplit(':')[0]`, unless the file is below an excluded path. -/
def headerFile (excludePaths : List Text) (last : Text) : Option Text :=
  let file := firstPiece [58] last
  if excludePaths.any fun path => path.isPrefixOf file then none else some file

/-- The words of one line of the output are the header of a file. -/
def isHeader (parts : List Text) : Bool :=
  parts.length < 3 && ([58] : Text).isSuffixOf (parts.getLastD [])

/-- The line number in the words of one line of the output. -/
def lineNumber (parts : List Text) : Option Int :=
  if parts.length = 3 then parseInt (parts.getD 1 []) else none

/-- The body of the loop of `_InitializeFileVectors`, with the current file. -/
def readEntry (excludePaths : List Text) (state : Option Text × CoverageDict)
    (parts : List Text) : Except Exception (Option Text × CoverageDict) :=
  if parts.length = 0 then return state
  else if isHeader parts then return (headerFile excludePaths (parts.getLastD []), state.2)
  else
    match state.1, lineNumber parts with
    | some file, some line => do
      let vectors ← listLine state.2 file line
      return (some file, vectors)
    | _, _ => return state

/-- `_InitializeFileVectors`, on the words of each line that `readelf` prints. -/
def initializeFileVectors (excludePaths : List Text) (vectors : CoverageDict)
    (output : List (List Text)) : Except Exception CoverageDict := do
  let state ← output.foldlM (readEntry excludePaths) (none, vectors)
  return state.2

/-! ## Counting the hits -/

/-- What `addr2line` printed for a hit: nothing if the file or the line is unknown. -/
def symbolised (hit : Text) : Except Exception (Option (Text × Int)) :=
  match rsplitOnce 58 hit with
  | none => .error (.valueError "need more than 1 value to unpack")
  | some (file, number) =>
    if file = [63, 63] then .ok none
    else .ok ((parseInt number).map fun line => (file, line))

/-- A hit of a line, unless the file has no vector. -/
def countLine (vectors : CoverageDict) (file : Text) (line : Int) :
    Except Exception CoverageDict :=
  match vectors file with
  | none => .ok vectors
  | some vector => do
    let extended :=
      if line > vector.length then vector ++ List.replicate (line - vector.length).toNat (-1)
      else vector
    let index ← position extended.length line
    let current := extended.getD index (-1)
    return store vectors file (extended.set index ((if current < 0 then 0 else current) + 1))

/-- The body of the loop of `_UpdateLineCounts`. -/
def countHit (vectors : CoverageDict) (hit : Text) : Except Exception CoverageDict :=
  match symbolised hit with
  | .error failure => .error failure
  | .ok none => .ok vectors
  | .ok (some (file, line)) => countLine vectors file line

/-- `_UpdateLineCounts`. -/
def updateLineCounts (vectors : CoverageDict) (lines : List Text) :
    Except Exception CoverageDict :=
  lines.foldlM countHit vectors

/-- What the tools print for a binary: the words of each line of `readelf`, and the
words of `addr2line`. -/
structure Binary where
  debugLines : List (List Text)
  hits : List Text

/-- One binary of `ProcessDeviceCoverage`. -/
def process (excludePaths : List Text) (vectors : CoverageDict) (binary : Binary) :
    Except Exception CoverageDict := do
  let initialized ← initializeFileVectors excludePaths vectors binary.debugLines
  updateLineCounts initialized binary.hits

/-- All binaries, in the order in which they are found in the symbols. -/
def processAll (excludePaths : List Text) (binaries : List Binary) :
    Except Exception CoverageDict :=
  binaries.foldlM (process excludePaths) fun _ => none

/-! ## What the tools say -/

/-- The lines listed as executable, for files that are not excluded. -/
def listedLines (excludePaths : List Text) : Option Text → List (List Text) → List (Text × Int)
  | _, [] => []
  | file, parts :: rest =>
    if isHeader parts then
      listedLines excludePaths (headerFile excludePaths (parts.getLastD [])) rest
    else
      (file.bind fun name => (lineNumber parts).map fun line => (name, line)).toList ++
        listedLines excludePaths file rest

namespace Binary

def listed (excludePaths : List Text) (binary : Binary) : List (Text × Int) :=
  listedLines excludePaths none binary.debugLines

/-- The file and the line of each hit that has both. -/
def counted (binary : Binary) : List (Text × Int) :=
  binary.hits.filterMap fun hit =>
    match symbolised hit with
    | .ok found => found
    | .error _ => none

/-- Line numbers are positive, and every hit has the form `<file>:<line no>`. -/
structure Valid (excludePaths : List Text) (binary : Binary) : Prop where
  lines : ∀ entry ∈ binary.listed excludePaths, 0 < entry.2
  hits : ∀ hit ∈ binary.hits, 58 ∈ hit
  hitLines : ∀ entry ∈ binary.counted, 0 < entry.2

end Binary

/-- The number of hits of a line over some binaries. -/
def totalHits (binaries : List Binary) (file : Text) (line : Nat) : Nat :=
  (binaries.map fun binary => binary.counted.count (file, (line : Int))).sum

/-- Some binary lists the line. -/
def isListed (excludePaths : List Text) (binaries : List Binary) (file : Text) (line : Nat) :
    Prop :=
  ∃ binary ∈ binaries, (file, (line : Int)) ∈ binary.listed excludePaths

instance (excludePaths : List Text) (binaries : List Binary) (file : Text) (line : Nat) :
    Decidable (isListed excludePaths binaries file line) :=
  inferInstanceAs (Decidable (∃ binary ∈ binaries, _))

/-- Some binary lists a line of the file. -/
def isKnown (excludePaths : List Text) (binaries : List Binary) (file : Text) : Prop :=
  ∃ binary ∈ binaries, file ∈ (binary.listed excludePaths).map Prod.fst

/-- The entry of a line in the vector of a file. -/
def lineCount? (vectors : CoverageDict) (file : Text) (line : Nat) : Option Int :=
  (vectors file).bind fun vector => vector[line - 1]?

/-! ## One line -/

/-- A vector after a line of it has been listed. -/
def listAt (counts : List Int) (line : Nat) : List Int :=
  let extended :=
    if line > counts.length then counts ++ List.replicate (line - counts.length) (-2) else counts
  extended.set (line - 1) 0

theorem position_of_le {length line : Nat} (positive : 0 < line) (inside : line ≤ length) :
    position length line = .ok (line - 1) := by
  rw [position, if_pos (by omega), if_pos (by omega)]
  congr 1
  omega

/-- A vector that was too short reaches to the line after its extension. -/
theorem le_length_extended (vector : List Int) (number : Nat) (filler : Int) :
    number ≤ (if number > vector.length then
      vector ++ List.replicate (number - vector.length) filler else vector).length := by
  split
  · rw [length_append, length_replicate]
    omega
  · omega

/-- The vectors after a line has been listed. -/
def listEntry (vectors : CoverageDict) (entry : Text × Int) : CoverageDict :=
  store vectors entry.1
    (listAt ((vectors entry.1).getD (List.replicate entry.2.toNat (-1))) entry.2.toNat)

section

variable {vectors : CoverageDict} {file : Option Text} {line : Int} {excludePaths parts : List Text}

theorem listLine_ok {file : Text} (positive : 0 < line) :
    listLine vectors file line = .ok (listEntry vectors (file, line)) := by
  obtain ⟨number, rfl⟩ := Int.eq_ofNat_of_zero_le positive.le
  have above : 0 < number := by omega
  obtain ⟨vector, found⟩ :
      ∃ vector, (vectors file).getD (List.replicate number (-1)) = vector := ⟨_, rfl⟩
  have bound := position_of_le above (le_length_extended vector number (-2))
  simp only [listLine, listEntry, listAt, Int.toNat_natCast, found, gt_iff_lt, Nat.cast_lt,
    Int.toNat_sub] at bound ⊢
  rw [bound]
  rfl

/-- The vectors after a hit. -/
def countEntry (vectors : CoverageDict) (entry : Text × Int) : CoverageDict :=
  match vectors entry.1 with
  | none => vectors
  | some vector => store vectors entry.1 (addLine 1 vector entry.2.toNat)

theorem countLine_ok {file : Text} (positive : 0 < line) :
    countLine vectors file line = .ok (countEntry vectors (file, line)) := by
  obtain ⟨number, rfl⟩ := Int.eq_ofNat_of_zero_le positive.le
  have above : 0 < number := by omega
  rw [countLine, countEntry]
  cases vectors file with
  | none => rfl
  | some vector =>
    have bound := position_of_le above (le_length_extended vector number (-1))
    simp only [addLine, Int.toNat_natCast, gt_iff_lt, Nat.cast_lt, Int.toNat_sub] at bound ⊢
    rw [bound]
    rfl

theorem readEntry_header {state : Option Text × CoverageDict} (header : isHeader parts = true) :
    readEntry excludePaths state parts =
      .ok (headerFile excludePaths (parts.getLastD []), state.2) := by
  have filled : parts.length ≠ 0 := by
    intro none
    rw [eq_nil_of_length_eq_zero none] at header
    cases header
  rw [readEntry, if_neg filled, if_pos header]
  rfl

/-- Any other line of the output lists a line, or is passed over. -/
theorem readEntry_ok {listed : List (Text × Int)} (header : isHeader parts ≠ true) (lists : listed =
      (file.bind fun name => (lineNumber parts).map fun line => (name, line)).toList)
    (positive : ∀ entry ∈ listed, 0 < entry.2) :
    readEntry excludePaths (file, vectors) parts = .ok (file, listed.foldl listEntry vectors) := by
  subst lists
  rw [readEntry, if_neg header]
  split
  · next empty =>
    have none : lineNumber parts = none := by
      rw [eq_nil_of_length_eq_zero empty]
      rfl
    cases file <;> rw [none] <;> rfl
  · cases file with
    | none => rfl
    | some name =>
      cases number : lineNumber parts with
      | none => rfl
      | some line =>
        rw [number] at positive
        simp only [listLine_ok (positive (name, line) mem_cons_self)]
        rfl

/-- The debug lines enter the lines they list, one after the other. -/
theorem readEntries_ok {output : List (List Text)} (vectors : CoverageDict)
    (positive : ∀ entry ∈ listedLines excludePaths file output, 0 < entry.2) :
    ∃ last, output.foldlM (readEntry excludePaths) (file, vectors) =
      .ok (last, (listedLines excludePaths file output).foldl listEntry vectors) := by
  induction output generalizing file vectors with
  | nil => exact ⟨file, rfl⟩
  | cons parts rest ih =>
    simp only [listedLines] at positive ⊢
    rw [foldlM_cons]
    by_cases header : isHeader parts = true
    · rw [if_pos header] at positive ⊢
      rw [readEntry_header header]
      exact ih _ positive
    · rw [if_neg header] at positive ⊢
      rw [readEntry_ok header rfl fun entry listed =>
        positive entry (mem_append_left _ listed), foldl_append]
      exact ih _ fun entry listed =>
        positive entry (mem_append_right _ listed)

theorem updateLineCounts_ok {hits : List Text} (formed : ∀ hit ∈ hits, 58 ∈ hit)
    (positive : ∀ entry ∈ (Binary.mk [] hits).counted, 0 < entry.2) :
    updateLineCounts vectors hits =
      .ok ((Binary.mk [] hits).counted.foldl countEntry vectors) := by
  rw [updateLineCounts]
  induction hits generalizing vectors with
  | nil => rfl
  | cons hit rest ih =>
    have restFormed : ∀ other ∈ rest, 58 ∈ other := fun other listed =>
      formed other (mem_cons_of_mem _ listed)
    have whole : ∃ found, symbolised hit = .ok found := by
      have separator := formed hit mem_cons_self
      rw [symbolised, rsplitOnce, if_pos separator]
      dsimp only
      split
      · exact ⟨_, rfl⟩
      · exact ⟨_, rfl⟩
    obtain ⟨found, symbol⟩ := whole
    have counted : (Binary.mk [] (hit :: rest)).counted =
        found.toList ++ (Binary.mk [] rest).counted := by
      cases found with
      | none => simp [Binary.counted, symbol]
      | some entry => simp [Binary.counted, symbol]
    rw [counted] at positive ⊢
    rw [foldlM_cons, countHit, symbol, foldl_append]
    have others : ∀ entry ∈ (Binary.mk [] rest).counted, 0 < entry.2 := fun entry listed =>
      positive entry (mem_append_right _ listed)
    cases found with
    | none => exact ih restFormed others
    | some entry =>
      simp only [countLine_ok (positive entry (mem_append_left _ (by simp)))]
      exact ih restFormed others

/-- The vectors after a binary. -/
def advance (excludePaths : List Text) (vectors : CoverageDict) (binary : Binary) :
    CoverageDict :=
  binary.counted.foldl countEntry ((binary.listed excludePaths).foldl listEntry vectors)

theorem process_ok {binary : Binary} (valid : binary.Valid excludePaths) :
    process excludePaths vectors binary = .ok (advance excludePaths vectors binary) := by
  obtain ⟨last, read⟩ := readEntries_ok vectors valid.lines
  rw [process, initializeFileVectors, read]
  exact updateLineCounts_ok valid.hits valid.hitLines

theorem processAll_ok {binaries : List Binary}
    (valid : ∀ binary ∈ binaries, binary.Valid excludePaths) :
    processAll excludePaths binaries =
      .ok (binaries.foldl (advance excludePaths) fun _ => none) := by
  have each (vectors : CoverageDict) : binaries.foldlM (process excludePaths) vectors =
      .ok (binaries.foldl (advance excludePaths) vectors) := by
    induction binaries generalizing vectors with
    | nil => rfl
    | cons binary rest ih =>
      rw [foldlM_cons, process_ok (valid binary mem_cons_self), foldl_cons]
      exact ih (fun other listed => valid other (mem_cons_of_mem _ listed)) _
  exact each _

end

/-! ## What is seen of a line

The vectors have two values for a line that is not executable, and none for a line beyond
their end. All of these are the same to a reader of the report. -/

/-- The count of a line that is executable. -/
def covered (vectors : CoverageDict) (file : Text) (line : Nat) : Option Int :=
  let value := vectors.lineCount file line
  if 0 ≤ value then some value else none

section

variable {first second : CoverageDict} {file : Text} {line : Nat} {vectors : CoverageDict}
  {value : Int} {other : Nat} {entry : Text × Int} {entries : List (Text × Int)}

theorem covered_congr (same : first.lineCount file line = second.lineCount file line) :
    covered first file line = covered second file line := by
  rw [covered, same]
  rfl

theorem covered_of_entry (found : lineCount? vectors file line = some value) :
    covered vectors file line = if 0 ≤ value then some value else none := by
  obtain ⟨vector, has, inside⟩ := bind_eq_some_iff.mp found
  have count : vectors.lineCount file line = value := by
    rw [CoverageDict.lineCount, has, getD_some, lineCount, getD_eq_getElem?_getD,
      inside, getD_some]
  rw [covered, count]

/-- A count stands in the vector: no default is one. -/
theorem entry_of_covered (seen : covered vectors file line = some value) :
    lineCount? vectors file line = some value := by
  cases found : lineCount? vectors file line with
  | some other =>
    rw [covered_of_entry found] at seen
    split at seen
    · exact seen
    · cases seen
  | none =>
    have count : vectors.lineCount file line = -1 := by
      rw [CoverageDict.lineCount, lineCount, getD_eq_getElem?_getD]
      cases has : vectors file with
      | none => rfl
      | some vector =>
        have outside : vector[line - 1]? = none := by
          rw [lineCount?, has] at found
          exact found
        rw [getD_some, outside]
        rfl
    rw [covered, count] at seen
    cases seen

theorem store_self (vectors : CoverageDict) (file : Text) (vector : List Int) :
    store vectors file vector file = some vector := if_pos rfl

theorem store_other {other : Text} (distinct : other ≠ file) (vector : List Int) :
    store vectors file vector other = vectors other := if_neg distinct

theorem listAt_getElem? {counts : List Int} (positive : 0 < line) (otherPositive : 0 < other)
    (inside : counts[other - 1]? = some value) :
    (listAt counts line)[other - 1]? = some (if other = line then 0 else value) := by
  obtain ⟨short, _⟩ := List.getElem?_eq_some_iff.mp inside
  have extended : (if line > counts.length then
      counts ++ List.replicate (line - counts.length) (-2) else counts)[other - 1]? =
        some value := by
    split
    · rw [List.getElem?_append_left short, inside]
    · exact inside
  obtain ⟨shortExtended, _⟩ := List.getElem?_eq_some_iff.mp extended
  rw [listAt]
  by_cases same : other = line
  · rw [if_pos same, ← same]
    exact List.getElem?_set_self (same ▸ shortExtended)
  · rw [if_neg same, List.getElem?_set_ne (by omega)]
    exact extended

theorem listAt_covers (counts : List Int) (positive : 0 < line) (otherPositive : 0 < other) :
    (other = line ∧ lineCount (listAt counts line) other = 0) ∨
      (other ≠ line ∧ (lineCount (listAt counts line) other = lineCount counts other ∨
        (lineCount (listAt counts line) other < 0 ∧ lineCount counts other < 0))) := by
  by_cases same : other = line
  · refine .inl ⟨same, ?_⟩
    have inside := Nat.lt_of_lt_of_le (Nat.sub_one_lt_of_lt positive)
      (le_length_extended counts line (-2))
    rw [lineCount, listAt, same, getD_eq_getElem?_getD, List.getElem?_set_self inside]
    rfl
  · refine .inr ⟨same, ?_⟩
    rw [lineCount, lineCount, listAt, getD_eq_getElem?_getD,
      List.getElem?_set_ne (by omega : line - 1 ≠ other - 1), ← getD_eq_getElem?_getD]
    split
    · by_cases short : other - 1 < counts.length
      · exact .inl (getD_append _ _ _ _ short)
      · rw [getD_append_right _ _ _ _ (Nat.le_of_not_lt short),
          getD_eq_default _ _ (Nat.le_of_not_lt short), getD_eq_getElem?_getD,
          List.getElem?_replicate]
        split
        · exact .inr ⟨by decide, by decide⟩
        · exact .inl rfl
    · exact .inl rfl

theorem covered_of_lineCount (same : first.lineCount file line = second.lineCount file line ∨
      (first.lineCount file line < 0 ∧ second.lineCount file line < 0)) :
    covered first file line = covered second file line := by
  rcases same with same | ⟨first, second⟩
  · exact covered_congr same
  · rw [covered, covered, if_neg (by omega), if_neg (by omega)]

theorem lineCount_replicate (count line : Nat) : lineCount (List.replicate count (-1)) line = -1 := by
  rw [lineCount, getD_eq_getElem?_getD, List.getElem?_replicate]
  split <;> rfl

/-- A line that is listed has the count 0 from then on, and all others keep theirs. -/
theorem covered_listEntry (positive : 0 < entry.2) (linePositive : 0 < line) :
    covered (listEntry vectors entry) file line =
      if (file, (line : Int)) = entry then some 0 else covered vectors file line := by
  obtain ⟨name, number⟩ := entry
  obtain ⟨number, rfl⟩ := Int.eq_ofNat_of_zero_le positive.le
  have above : 0 < number := by simpa using positive
  by_cases own : file = name
  · subst own
    have vector : (vectors file).getD (List.replicate number (-1)) = (vectors file).getD [] ∨
        vectors file = none := by
      cases vectors file with
      | none => exact .inr rfl
      | some vector => exact .inl rfl
    have start : lineCount ((vectors file).getD (List.replicate number (-1))) line =
        vectors.lineCount file line := by
      rw [CoverageDict.lineCount]
      rcases vector with same | absent
      · rw [same]
      · rw [absent]
        exact lineCount_replicate number line
    have after : (listEntry vectors (file, (number : Int))).lineCount file line =
        lineCount (listAt ((vectors file).getD (List.replicate number (-1))) number) line := by
      rw [CoverageDict.lineCount, listEntry, store_self]
      rfl
    rcases listAt_covers ((vectors file).getD (List.replicate number (-1))) above
      linePositive with ⟨same, zero⟩ | ⟨distinct, kept⟩
    · rw [if_pos (by rw [same]), covered, after, zero]
      rfl
    · rw [if_neg (by simpa using distinct)]
      apply covered_of_lineCount
      rw [after, ← start]
      exact kept
  · rw [if_neg fun same => own (congrArg Prod.fst same)]
    apply covered_congr
    rw [CoverageDict.lineCount, listEntry, store_other own]
    rfl

theorem known_listEntry (vectors : CoverageDict) (entry : Text × Int) (file : Text) :
    (listEntry vectors entry file).isSome ↔ (vectors file).isSome ∨ file = entry.1 := by
  by_cases own : file = entry.1
  · simp [listEntry, store, own]
  · simp [listEntry, store, own]

theorem covered_listed (positive : ∀ entry ∈ entries, 0 < entry.2) (linePositive : 0 < line) :
    covered (entries.foldl listEntry vectors) file line =
      if (file, (line : Int)) ∈ entries then some 0 else covered vectors file line := by
  induction entries generalizing vectors with
  | nil => rfl
  | cons entry rest ih =>
    rw [foldl_cons,
      ih fun other listed => positive other (mem_cons_of_mem _ listed),
      covered_listEntry (positive entry mem_cons_self) linePositive]
    by_cases first : (file, (line : Int)) = entry <;> simp [first]

theorem known_listed (vectors : CoverageDict) (entries : List (Text × Int)) (file : Text) :
    (entries.foldl listEntry vectors file).isSome ↔
      (vectors file).isSome ∨ file ∈ entries.map Prod.fst := by
  induction entries generalizing vectors with
  | nil => simp
  | cons entry rest ih =>
    rw [foldl_cons, ih, known_listEntry, map_cons, mem_cons,
      or_assoc]

/-- Some hits are added to the count of a line. -/
def plus (hits : Nat) (count : Option Int) : Option Int :=
  if hits = 0 then count else some (count.getD 0 + hits)

theorem plus_plus (first second : Nat) (count : Option Int) :
    plus second (plus first count) = plus (first + second) count := by
  by_cases none : first = 0
  · simp [plus, none]
  · by_cases nothing : second = 0
    · simp [plus, nothing]
    · have sum : ¬ first + second = 0 := by omega
      simp [plus, none, nothing, Int.add_assoc]

theorem known_countEntry (vectors : CoverageDict) (entry : Text × Int) (file : Text) :
    (countEntry vectors entry file).isSome = (vectors file).isSome := by
  rw [countEntry]
  cases has : vectors entry.1 with
  | none => rfl
  | some vector =>
    by_cases own : file = entry.1
    · simp [store, own, has]
    · simp [store, own]

theorem covered_countEntry (positive : 0 < entry.2) (linePositive : 0 < line)
    (known : (vectors file).isSome) :
    covered (countEntry vectors entry) file line =
      plus (if (file, (line : Int)) = entry then 1 else 0) (covered vectors file line) := by
  obtain ⟨name, number⟩ := entry
  obtain ⟨number, rfl⟩ := Int.eq_ofNat_of_zero_le positive.le
  have above : 0 < number := by simpa using positive
  by_cases own : file = name
  · subst own
    obtain ⟨vector, has⟩ := isSome_iff_exists.mp known
    have before : vectors.lineCount file line = lineCount vector line := by
      rw [CoverageDict.lineCount, has]
      rfl
    have after : (countEntry vectors (file, (number : Int))).lineCount file line =
        lineCount (addLine 1 vector number) line := by
      simp only [countEntry, has, CoverageDict.lineCount, store_self, Int.toNat_natCast,
        getD_some]
    rw [addLine_lineCount 1 vector above linePositive] at after
    rw [covered, covered, after, before]
    by_cases same : line = number
    · subst same
      have after : ¬ max (lineCount vector line) 0 + 1 < 0 := by omega
      by_cases counted : 0 ≤ lineCount vector line
      · simp [bump, plus, counted]
        omega
      · simp [bump, plus, counted]
        omega
    · simp [same, bump, plus]
  · rw [if_neg fun same => own (congrArg Prod.fst same)]
    rw [plus, if_pos rfl]
    apply covered_congr
    rw [CoverageDict.lineCount, CoverageDict.lineCount, countEntry]
    cases vectors (name, (number : Int)).1 with
    | none => rfl
    | some vector => simp only [store_other own]

theorem covered_counted (positive : ∀ entry ∈ entries, 0 < entry.2) (linePositive : 0 < line)
    (known : (vectors file).isSome) :
    covered (entries.foldl countEntry vectors) file line =
      plus (entries.count (file, (line : Int))) (covered vectors file line) := by
  induction entries generalizing vectors with
  | nil => rfl
  | cons entry rest ih =>
    rw [foldl_cons,
      ih (fun other listed => positive other (mem_cons_of_mem _ listed))
        (by rw [known_countEntry]; exact known),
      covered_countEntry (positive entry mem_cons_self) linePositive known, plus_plus,
      count_cons, Nat.add_comm]
    congr 2
    by_cases first : (file, (line : Int)) = entry
    · simp [first]
    · have other : ¬ entry = (file, (line : Int)) := fun same => first same.symm
      simp [first, other]

end

theorem known_counted (vectors : CoverageDict) (entries : List (Text × Int)) (file : Text) :
    (entries.foldl countEntry vectors file).isSome = (vectors file).isSome := by
  induction entries generalizing vectors with
  | nil => rfl
  | cons entry rest ih =>
    rw [foldl_cons, ih, known_countEntry]

/-! ## Sequences of binaries -/

section Sequences

variable {excludePaths : List Text} {binaries : List Binary} {binary : Binary} {file : Text}
  {line : Nat}

theorem known_advance (vectors : CoverageDict) :
    (advance excludePaths vectors binary file).isSome ↔
      (vectors file).isSome ∨ file ∈ (binary.listed excludePaths).map Prod.fst := by
  rw [advance, known_counted, known_listed]

theorem covered_advance {vectors : CoverageDict} (valid : binary.Valid excludePaths)
    (linePositive : 0 < line) (known : (advance excludePaths vectors binary file).isSome) :
    covered (advance excludePaths vectors binary) file line =
      plus (binary.counted.count (file, (line : Int)))
        (if (file, (line : Int)) ∈ binary.listed excludePaths then some 0
          else covered vectors file line) := by
  rw [advance, known_counted] at known
  rw [advance, covered_counted valid.hitLines linePositive known,
    covered_listed valid.lines linePositive]

theorem covered_unknown {vectors : CoverageDict} (unknown : ¬ (vectors file).isSome) :
    covered vectors file line = none := by
  have none : vectors file = none := by simpa using unknown
  have count : vectors.lineCount file line = -1 := by
    rw [CoverageDict.lineCount, none]
    rfl
  rw [covered, count]
  rfl

/-- The vectors after some binaries. -/
def vectorsAfter (excludePaths : List Text) (binaries : List Binary) : CoverageDict :=
  binaries.foldl (advance excludePaths) fun _ => none

theorem vectorsAfter_concat :
    vectorsAfter excludePaths (binaries ++ [binary]) =
      advance excludePaths (vectorsAfter excludePaths binaries) binary := by
  rw [vectorsAfter, foldl_append]
  rfl

theorem isKnown_concat :
    isKnown excludePaths (binaries ++ [binary]) file ↔
      isKnown excludePaths binaries file ∨ file ∈ (binary.listed excludePaths).map Prod.fst := by
  simp only [isKnown, mem_append, mem_singleton, or_and_right, exists_or, exists_eq_left]

theorem isListed_concat :
    isListed excludePaths (binaries ++ [binary]) file line ↔
      isListed excludePaths binaries file line ∨
        (file, (line : Int)) ∈ binary.listed excludePaths := by
  simp only [isListed, mem_append, mem_singleton, or_and_right, exists_or,
    exists_eq_left]

theorem totalHits_concat :
    totalHits (binaries ++ [binary]) file line =
      totalHits binaries file line + binary.counted.count (file, (line : Int)) := by
  simp [totalHits]

theorem isKnown_of_isListed (listed : isListed excludePaths binaries file line) :
    isKnown excludePaths binaries file := by
  obtain ⟨binary, member, lists⟩ := listed
  exact ⟨binary, member, mem_map_of_mem lists⟩

/-- The files with a vector are those that some binary lists a line of. -/
theorem known_vectorsAfter :
    (vectorsAfter excludePaths binaries file).isSome ↔ isKnown excludePaths binaries file := by
  induction binaries using List.reverseRecOn with
  | nil => simp [vectorsAfter, isKnown]
  | append_singleton before binary ih =>
    rw [vectorsAfter_concat, known_advance, isKnown_concat, ih]

/-- The count that a line should have: 0 if it is listed, and all its hits. -/
def expected (excludePaths : List Text) (binaries : List Binary) (file : Text) (line : Nat) :
    Option Int :=
  plus (totalHits binaries file line)
    (if isListed excludePaths binaries file line then some 0 else none)

theorem expected_concat :
    expected excludePaths (binaries ++ [binary]) file line =
      plus (totalHits binaries file line + binary.counted.count (file, (line : Int)))
        (if isListed excludePaths binaries file line ∨
          (file, (line : Int)) ∈ binary.listed excludePaths then some 0 else none) := by
  rw [expected, totalHits_concat]
  simp only [isListed_concat]

/-- No binary lists the line, or is the first to list a line of its file, after the line
had hits. -/
def NotRelisted (excludePaths : List Text) (binaries : List Binary) (file : Text) (line : Nat) :
    Prop :=
  ∀ before binary, before ++ [binary] <+: binaries →
    ((file, (line : Int)) ∈ binary.listed excludePaths ∨
      (file ∈ (binary.listed excludePaths).map Prod.fst ∧ ¬ isKnown excludePaths before file)) →
    totalHits before file line = 0

theorem NotRelisted.of_prefix {before : List Binary} (isPrefix : before <+: binaries)
    (clear : NotRelisted excludePaths binaries file line) :
    NotRelisted excludePaths before file line :=
  fun earlier binary inside => clear earlier binary (inside.trans isPrefix)

/-- Where no line is listed after it had hits, all hits are counted. -/
theorem covered_of_notRelisted (valid : ∀ binary ∈ binaries, binary.Valid excludePaths)
    (linePositive : 0 < line) (clear : NotRelisted excludePaths binaries file line)
    (known : isKnown excludePaths binaries file) :
    covered (vectorsAfter excludePaths binaries) file line =
      expected excludePaths binaries file line := by
  induction binaries using List.reverseRecOn with
  | nil =>
    obtain ⟨_, none, _⟩ := known
    cases none
  | append_singleton before binary ih =>
    have earlier := ih
      (fun other listed => valid other (mem_append_left _ listed))
      (clear.of_prefix (prefix_append _ _))
    have last := clear before binary prefix_rfl
    have present := known_vectorsAfter.mpr known
    rw [vectorsAfter_concat] at present ⊢
    rw [covered_advance (valid binary (by simp)) linePositive present, expected_concat]
    by_cases lists : (file, (line : Int)) ∈ binary.listed excludePaths
    · rw [if_pos lists, if_pos (.inr lists), last (.inl lists), Nat.zero_add]
    rw [if_neg lists]
    by_cases knownBefore : isKnown excludePaths before file
    · rw [earlier knownBefore, expected, plus_plus]
      simp only [lists, or_false]
    · have new := (isKnown_concat.mp known).resolve_left knownBefore
      have unlisted : ¬ isListed excludePaths before file line := fun listed =>
        knownBefore (isKnown_of_isListed listed)
      rw [covered_unknown (known_vectorsAfter.not.mpr knownBefore), last (.inr ⟨new, knownBefore⟩),
        if_neg (not_or.mpr ⟨unlisted, lists⟩), Nat.zero_add]

theorem plus_getD (hits : Nat) (count : Option Int) :
    (plus hits count).getD 0 = count.getD 0 + hits := by
  rw [plus]
  split
  · next none => simp [none]
  · rfl

/-- What a line lacks of its hits. -/
def gap (excludePaths : List Text) (binaries : List Binary) (file : Text) (line : Nat) : Int :=
  totalHits binaries file line -
    (covered (vectorsAfter excludePaths binaries) file line).getD 0

theorem covered_nonnegative (vectors : CoverageDict) (file : Text) (line : Nat) :
    0 ≤ (covered vectors file line).getD 0 := by
  rw [covered]
  split
  · assumption
  · exact Int.le_refl 0

/-- One binary closes no gap, and opens one if it lists a line that had hits. -/
theorem gap_concat (valid : binary.Valid excludePaths) (linePositive : 0 < line) :
    gap excludePaths binaries file line ≤ gap excludePaths (binaries ++ [binary]) file line ∧
      ((file, (line : Int)) ∈ binary.listed excludePaths →
        totalHits binaries file line ≤ gap excludePaths (binaries ++ [binary]) file line) := by
  have seen := covered_nonnegative (vectorsAfter excludePaths binaries) file line
  by_cases known : (advance excludePaths (vectorsAfter excludePaths binaries) binary file).isSome
  · have count := covered_advance valid linePositive known
    rw [gap, gap, totalHits_concat, vectorsAfter_concat, count, plus_getD]
    by_cases lists : (file, (line : Int)) ∈ binary.listed excludePaths
    · rw [if_pos lists, getD_some]
      constructor
      · omega
      · intro _
        omega
    · rw [if_neg lists]
      exact ⟨by omega, fun listed => absurd listed lists⟩
  · have count : covered (vectorsAfter excludePaths (binaries ++ [binary])) file line = none := by
      rw [vectorsAfter_concat]
      exact covered_unknown known
    have lists : (file, (line : Int)) ∉ binary.listed excludePaths := fun listed =>
      known ((known_advance _).mpr (.inr (mem_map_of_mem listed)))
    rw [gap, gap, totalHits_concat, count, getD_none]
    exact ⟨by omega, fun listed => absurd listed lists⟩

section

variable (valid : ∀ binary ∈ binaries, binary.Valid excludePaths) (linePositive : 0 < line)
include valid linePositive

theorem gap_le_of_prefix {before : List Binary} (isPrefix : before <+: binaries) :
    gap excludePaths before file line ≤ gap excludePaths binaries file line := by
  induction binaries using List.reverseRecOn with
  | nil => rw [prefix_nil.mp isPrefix]
  | append_singleton earlier binary ih =>
    rcases prefix_concat_iff.mp isPrefix with rfl | inside
    · exact Int.le_refl _
    · exact (ih (fun other listed => valid other (mem_append_left _ listed))
        inside).trans (gap_concat (valid binary (by simp)) linePositive).1

/-- A line without a gap was never listed after it had hits. -/
theorem notRelisted_of_gap (noGap : gap excludePaths binaries file line ≤ 0) :
    NotRelisted excludePaths binaries file line := by
  intro before binary isPrefix late
  have last : gap excludePaths (before ++ [binary]) file line ≤
      gap excludePaths binaries file line := gap_le_of_prefix valid linePositive isPrefix
  have binaryValid := valid binary (isPrefix.subset (by simp))
  have grows : gap excludePaths before file line ≤
      gap excludePaths (before ++ [binary]) file line := (gap_concat binaryValid linePositive).1
  rcases late with lists | ⟨_, unknown⟩
  · have all : totalHits before file line ≤ gap excludePaths (before ++ [binary]) file line :=
      (gap_concat binaryValid linePositive).2 lists
    omega
  · have none : gap excludePaths before file line = totalHits before file line := by
      rw [gap, covered_unknown (known_vectorsAfter.not.mpr unknown), getD_none, Int.sub_zero]
    omega

/-- No line has more than its hits. -/
theorem covered_le_totalHits :
    (covered (vectorsAfter excludePaths binaries) file line).getD 0 ≤
      totalHits binaries file line := by
  have start : gap excludePaths [] file line = 0 := rfl
  have grows : gap excludePaths [] file line ≤ gap excludePaths binaries file line :=
    gap_le_of_prefix valid linePositive nil_prefix
  rw [start, gap] at grows
  omega

end

theorem expected_some
    (counts : isListed excludePaths binaries file line ∨ 0 < totalHits binaries file line) :
    expected excludePaths binaries file line = some (totalHits binaries file line : Int) := by
  rw [expected, plus]
  by_cases none : totalHits binaries file line = 0
  · rw [if_pos none, if_pos (counts.resolve_right (by omega)), none]
    rfl
  · rw [if_neg none]
    split <;> simp

/-! ## The entries of the vectors -/

section

variable {vectors : CoverageDict} {entry : Text × Int} {value : Int} {entries : List (Text × Int)}

theorem entry_listEntry (positive : 0 < entry.2) (linePositive : 0 < line)
    (found : lineCount? vectors file line = some value) :
    lineCount? (listEntry vectors entry) file line =
      some (if (file, (line : Int)) = entry then 0 else value) := by
  obtain ⟨name, number⟩ := entry
  obtain ⟨number, rfl⟩ := Int.eq_ofNat_of_zero_le positive.le
  have above : 0 < number := by simpa using positive
  obtain ⟨vector, has, inside⟩ := bind_eq_some_iff.mp found
  by_cases own : file = name
  · subst own
    have after := listAt_getElem? above linePositive inside
    rw [lineCount?, listEntry, store_self, bind_some, has]
    simpa using after
  · rw [lineCount?, listEntry, store_other own, if_neg fun same => own (congrArg Prod.fst same)]
    exact found

theorem entry_listed (positive : ∀ entry ∈ entries, 0 < entry.2) (linePositive : 0 < line)
    (found : lineCount? vectors file line = some value) :
    lineCount? (entries.foldl listEntry vectors) file line =
      some (if (file, (line : Int)) ∈ entries then 0 else value) := by
  induction entries generalizing vectors value with
  | nil => exact found
  | cons entry rest ih =>
    rw [foldl_cons,
      ih (fun other listed => positive other (mem_cons_of_mem _ listed))
        (entry_listEntry (positive entry mem_cons_self) linePositive found)]
    by_cases first : (file, (line : Int)) = entry <;> simp [first]

theorem entry_countEntry (positive : 0 < entry.2) (linePositive : 0 < line)
    (found : lineCount? vectors file line = some value) :
    ∃ next, lineCount? (countEntry vectors entry) file line = some next ∧ value ≤ next := by
  obtain ⟨name, number⟩ := entry
  obtain ⟨number, rfl⟩ := Int.eq_ofNat_of_zero_le positive.le
  have above : 0 < number := by simpa using positive
  obtain ⟨vector, has, inside⟩ := bind_eq_some_iff.mp found
  rw [countEntry]
  cases own : vectors (name, (number : Int)).1 with
  | none => exact ⟨value, found, Int.le_refl _⟩
  | some counts =>
    by_cases same : file = name
    · subst same
      cases has.symm.trans own
      obtain ⟨short, stands⟩ := List.getElem?_eq_some_iff.mp inside
      have long := addLine_length 1 vector number
      have count := addLine_lineCount 1 vector above linePositive
      have before : lineCount vector line = value := by
        rw [lineCount, getD_eq_getElem?_getD, inside, getD_some]
      rw [before] at count
      refine ⟨bump (line == number) (if line == number then 1 else 0) value, ?_, ?_⟩
      · simp only [lineCount?, store_self, bind_some, Int.toNat_natCast]
        exact getElem?_of_lineCount linePositive (by omega) count
      · rw [bump]
        split <;> omega
    · refine ⟨value, ?_, Int.le_refl _⟩
      simp only [lineCount?, store_other same]
      exact found

theorem entry_counted (positive : ∀ entry ∈ entries, 0 < entry.2) (linePositive : 0 < line)
    (found : lineCount? vectors file line = some value) :
    ∃ next, lineCount? (entries.foldl countEntry vectors) file line = some next ∧ value ≤ next := by
  induction entries generalizing vectors value with
  | nil => exact ⟨value, found, Int.le_refl _⟩
  | cons entry rest ih =>
    obtain ⟨middle, between, raised⟩ :=
      entry_countEntry (positive entry mem_cons_self) linePositive found
    obtain ⟨next, stands, more⟩ := ih
      (fun other listed => positive other (mem_cons_of_mem _ listed)) between
    exact ⟨next, stands, raised.trans more⟩

/-- A binary lowers no entry but those of lines it lists. -/
theorem entry_advance (valid : binary.Valid excludePaths) (linePositive : 0 < line)
    (found : lineCount? vectors file line = some value)
    (unlisted : (file, (line : Int)) ∈ binary.listed excludePaths → value ≤ 0) :
    ∃ next, lineCount? (advance excludePaths vectors binary) file line = some next ∧ value ≤ next := by
  obtain ⟨next, stands, more⟩ := entry_counted valid.hitLines linePositive
    (entry_listed valid.lines linePositive found)
  refine ⟨next, stands, le_trans ?_ more⟩
  split
  · next lists => exact unlisted lists
  · exact Int.le_refl _

end

end Sequences

/-- All binaries can be processed, the entry of a line is the number of its hits over all
of them, 0 if it is only listed, and negative otherwise, and no binary lowers an entry. -/
def Accumulates (excludePaths : List Text) (binaries : List Binary) : Prop :=
  ∃ vectors, processAll excludePaths binaries = .ok vectors ∧
    (∀ file, isKnown excludePaths binaries file → ∀ line, 0 < line →
      (isListed excludePaths binaries file line ∨ 0 < totalHits binaries file line →
        lineCount? vectors file line = some (totalHits binaries file line)) ∧
      (¬ isListed excludePaths binaries file line → totalHits binaries file line = 0 →
        ∀ value, lineCount? vectors file line = some value → value < 0)) ∧
    ∀ before binary, before ++ [binary] <+: binaries → ∀ earlier later,
      processAll excludePaths before = .ok earlier →
      process excludePaths earlier binary = .ok later →
      ∀ file line value, 0 < line → lineCount? earlier file line = some value →
        ∃ next, lineCount? later file line = some next ∧ value ≤ next

/-- The counts add up exactly if no binary lists a line, or is the first to list a line
of its file, after the line had hits. -/
theorem processAll_accumulates_iff (excludePaths : List Text) (binaries : List Binary)
    (valid : ∀ binary ∈ binaries, binary.Valid excludePaths) :
    Accumulates excludePaths binaries ↔
      ∀ file line, 0 < line → NotRelisted excludePaths binaries file line := by
  constructor
  · rintro ⟨vectors, ran, right, -⟩ file line linePositive
    cases (processAll_ok valid).symm.trans ran
    by_cases known : isKnown excludePaths binaries file
    · apply notRelisted_of_gap valid linePositive
      rw [gap]
      have seen := covered_nonnegative (vectorsAfter excludePaths binaries) file line
      by_cases none : totalHits binaries file line = 0
      · omega
      · have stands := (right file known line linePositive).1 (.inr (Nat.pos_of_ne_zero none))
        rw [vectorsAfter, covered_of_entry stands, if_pos (Int.natCast_nonneg _), getD_some]
        omega
    · intro before binary isPrefix late
      have lists : file ∈ (binary.listed excludePaths).map Prod.fst := by
        rcases late with line | ⟨file, _⟩
        · exact mem_map_of_mem line
        · exact file
      exact absurd ⟨binary, isPrefix.subset (by simp), lists⟩ known
  · intro clear
    refine ⟨_, processAll_ok valid, ?_, ?_⟩
    · intro file known line linePositive
      have counts := covered_of_notRelisted valid linePositive (clear file line linePositive) known
      constructor
      · intro counted
        rw [expected_some counted] at counts
        exact entry_of_covered counts
      · intro unlisted noHits value stands
        rw [expected, noHits, if_neg unlisted, vectorsAfter, covered_of_entry stands] at counts
        by_contra high
        rw [if_pos (by omega)] at counts
        cases counts
    · intro before binary isPrefix earlier later ranBefore ranBinary file line value linePositive
        stands
      have validBefore : ∀ other ∈ before, other.Valid excludePaths := fun other listed =>
        valid other (isPrefix.subset (mem_append_left _ listed))
      have validBinary := valid binary (isPrefix.subset (by simp))
      cases (processAll_ok validBefore).symm.trans ranBefore
      cases (process_ok validBinary).symm.trans ranBinary
      refine entry_advance validBinary linePositive stands fun lists => ?_
      have noHits := clear file line linePositive before binary isPrefix (.inl lists)
      have low : (covered (vectorsAfter excludePaths before) file line).getD 0 ≤
          totalHits before file line := covered_le_totalHits validBefore linePositive
      rw [vectorsAfter, covered_of_entry stands, noHits] at low
      split at low
      · exact low
      · omega

/-- A binary for which line 1 of one file is listed. -/
def listsFirst (file : Text) (hits : List Text) : Binary where
  debugLines := [[file ++ [58]], [file, [49], [48, 120, 49, 48]]]
  hits := hits

/-- The second binary lists a line of `b.c`, and the hit was in `a.c`. -/
theorem processAll_accumulates_apart :
    Accumulates [] [listsFirst [97, 46, 99] [[97, 46, 99, 58, 49]], listsFirst [98, 46, 99] []] := by
  refine (processAll_accumulates_iff [] _ ?_).mpr ?_
  · intro binary listed
    simp only [mem_cons, not_mem_nil, or_false] at listed
    rcases listed with rfl | rfl
    · exact ⟨by decide, by decide, by decide⟩
    · exact ⟨by decide, by decide, by decide⟩
  · intro file line _ before binary isPrefix late
    rcases prefix_cons_iff.mp isPrefix with none | ⟨rest, same, inside⟩
    · simp at none
    cases before with
    | nil => rfl
    | cons first others =>
      obtain ⟨rfl, rfl⟩ := List.cons.inj same
      rcases prefix_cons_iff.mp inside with none | ⟨rest, same, inside⟩
      · simp at none
      cases others with
      | cons second others =>
        obtain ⟨-, rfl⟩ := List.cons.inj same
        simp at inside
      | nil =>
        obtain ⟨rfl, -⟩ := List.cons.inj same
        have listed : (listsFirst [98, 46, 99] []).listed [] = [([98, 46, 99], 1)] := by decide
        have name : file = [98, 46, 99] := by
          rw [listed] at late
          rcases late with line | ⟨file, _⟩
          · exact congrArg Prod.fst (mem_singleton.mp line)
          · exact mem_singleton.mp file
        have counted : (listsFirst [97, 46, 99] [[97, 46, 99, 58, 49]]).counted =
            [([97, 46, 99], 1)] := by decide
        simp [totalHits, counted, name]

/-- Both binaries list line 1 of `a.h`, and the first has a hit there. -/
theorem processAll_relisted :
    ¬ Accumulates [] [listsFirst [97, 46, 104] [[97, 46, 104, 58, 49]],
      listsFirst [97, 46, 104] []] := by
  rintro ⟨vectors, ran, right, -⟩
  have ranToo : processAll [] [listsFirst [97, 46, 104] [[97, 46, 104, 58, 49]],
      listsFirst [97, 46, 104] []] =
      .ok (vectorsAfter [] [listsFirst [97, 46, 104] [[97, 46, 104, 58, 49]],
        listsFirst [97, 46, 104] []]) := by
    apply processAll_ok
    intro binary listed
    simp only [mem_cons, not_mem_nil, or_false] at listed
    rcases listed with rfl | rfl
    · exact ⟨by decide, by decide, by decide⟩
    · exact ⟨by decide, by decide, by decide⟩
  cases ranToo.symm.trans ran
  have known : isKnown [] [listsFirst [97, 46, 104] [[97, 46, 104, 58, 49]],
      listsFirst [97, 46, 104] []] [97, 46, 104] :=
    ⟨_, mem_cons_self, by decide⟩
  have stands := (right _ known 1 (by decide)).1 (by decide)
  revert stands
  decide

end Sancov

end Vts.Coverage
