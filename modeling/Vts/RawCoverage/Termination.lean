import Vts.RawCoverage.Records

/-!
# When the reading of raw coverage ends

`Parse` ends exactly if the walk over the records of the file never comes to a place again: there are
only so many windows on a file. A length word near `2 ^ 32` leads back.
-/

namespace Vts.RawCoverage

open Lib Option
open Lib.Loop (Ends NeverReturns Visits Iteration)

/-! ## Up to the records -/

/-- The byte order that the magic number shows. -/
def magicEndian (bytes : List UInt8) : Option Bool :=
  let magic := (toWords bytes)[0]?.getD 0
  if magic = GCOV_DATA_MAGIC then some false
  else if swap magic = GCOV_DATA_MAGIC then some true
  else none

/-- The file whose records are read, with its byte order: it can be opened, and has the magic number. -/
def recordsOf (fopen : String → Option (List UInt8)) (self : GcdaRawCoverageParser) :
    Option (Bool × List UInt8) :=
  if self.filename_.length < 1 ∨ self.gcda_file_.file.isSome then none
  else (fopen self.filename_).bind fun bytes => (magicEndian bytes).map (·, bytes)

section

variable {bytes : List UInt8} {self : GcovVar} {window : Window}

theorem Open_shows {fopen : String → Option (List UInt8)} {filename_ : String}
    (named : ¬filename_.length < 1) (free : self.file.isSome = false)
    (found : fopen filename_ = some bytes) :
    ∃ gcda_file_, self.Open fopen filename_ = (true, gcda_file_) ∧
      Shows bytes false gcda_file_ (Window.emptyAt 0) := by
  have start := @shows_seek bytes false { GcovVar.zero with overread := -1 } 0 (.inr rfl) rfl rfl
  refine ⟨_, ?_, start⟩
  rw [GcovVar.Open, if_neg named, free, if_neg Bool.false_ne_true]
  dsimp only
  rw [found]
  rfl

/-- The byte order is turned. -/
theorem Shows.turn {endian : Bool} {reader : GcovVar} (shows : Shows bytes endian reader window) :
    Shows bytes true { reader with endian := true } window :=
  ⟨shows.file, shows.start, shows.offset, shows.length, shows.buffer, shows.alloc, shows.within,
    shows.short, shows.error, rfl⟩

/-- The magic number is read in the order of the machine, and shows the order of the file. -/
theorem magic_cases (shows : Shows bytes false self window) :
    match magicEndian bytes with
    | none => (self.Magic ((toWords bytes)[0]?.getD 0) GCOV_DATA_MAGIC).1 = 0
    | some endian => (self.Magic ((toWords bytes)[0]?.getD 0) GCOV_DATA_MAGIC).1 ≠ 0 ∧
        Shows bytes endian (self.Magic ((toWords bytes)[0]?.getD 0) GCOV_DATA_MAGIC).2 window := by
  unfold magicEndian GcovVar.Magic
  dsimp only
  by_cases same : (toWords bytes)[0]?.getD 0 = GCOV_DATA_MAGIC
  · rw [if_pos same, if_pos same]
    exact ⟨(by decide : (1 : Int) ≠ 0), shows⟩
  · rw [if_neg same, if_neg same]
    by_cases turned : swap ((toWords bytes)[0]?.getD 0) = GCOV_DATA_MAGIC
    · rw [if_pos turned, if_pos turned]
      exact ⟨(by decide : (-1 : Int) ≠ 0), shows.turn⟩
    · rw [if_neg turned, if_neg turned]

end

theorem ParseMagic_cases {bytes : List UInt8} {self : GcdaRawCoverageParser}
    (shows : Shows bytes false self.gcda_file_ (Window.emptyAt 0)) :
    match magicEndian bytes with
    | none => ∃ left, self.ParseMagic = (false, left) ∧ left.result = self.result
    | some endian => ∃ after, self.ParseMagic = (true, after) ∧ after.result = self.result ∧
        Shows bytes endian after.gcda_file_ (nextWord (fileWords endian bytes)
          (nextWord (fileWords endian bytes) (Window.emptyAt 0))) := by
  obtain ⟨first, magicRead, firstShows⟩ := shows.word
  have magic := magic_cases firstShows
  have value : wordAt (fileWords false bytes) (Window.emptyAt 0) = (toWords bytes)[0]?.getD 0 :=
    wordAt_fileWords (Window.emptyAt 0)
  unfold GcdaRawCoverageParser.ParseMagic
  rw [magicRead, value]
  dsimp only
  cases order : magicEndian bytes with
  | none =>
    rw [order] at magic
    rw [if_neg (fun wrong => wrong magic)]
    exact ⟨_, rfl, rfl⟩
  | some endian =>
    rw [order] at magic
    rw [if_pos magic.1]
    obtain ⟨second, versionRead, secondShows⟩ := @Shows.word _ _ _ { self with
      gcda_file_ := (first.Magic ((toWords bytes)[0]?.getD 0) GCOV_DATA_MAGIC).2 } magic.2
    rw [versionRead]
    have turned (window : Window) :
        nextWord (fileWords false bytes) window = nextWord (fileWords endian bytes) window := by
      rw [nextWord_fileWords, nextWord_fileWords]
    rw [turned] at secondShows
    exact ⟨_, rfl, rfl, secondShows⟩

/-- `Parse` comes to the records, or it returns no result. -/
theorem Parse_cases (fopen : String → Option (List UInt8)) (self : GcdaRawCoverageParser) :
    match recordsOf fopen self with
    | none => ∃ left, left.result = [] ∧ ∀ fuel, self.Parse fopen fuel = some (.ok left)
    | some (endian, bytes) => ∃ start : Body, start.self.result = [] ∧
        start.At bytes endian (bodyPlace (fileWords endian bytes)) ∧
        ∀ fuel, self.Parse fopen fuel = (Loop.run Body.iterate fuel start).map fun left =>
          (left.map Body.self).map fun self =>
            { self with gcda_file_ := self.gcda_file_.Close.2 } := by
  unfold recordsOf GcdaRawCoverageParser.Parse
  by_cases refused : self.filename_.length < 1 ∨ self.gcda_file_.file.isSome
  · rw [if_pos refused]
    have closed : self.gcda_file_.Open fopen self.filename_ = (false, self.gcda_file_) := by
      rw [GcovVar.Open]
      by_cases empty : self.filename_.length < 1
      · rw [if_pos empty]
      · rw [if_neg empty, if_pos (refused.resolve_left empty)]
    dsimp only
    rw [closed]
    exact ⟨_, rfl, fun _ => rfl⟩
  · rw [if_neg refused]
    have named : ¬self.filename_.length < 1 := fun empty => refused (.inl empty)
    have free : self.gcda_file_.file.isSome = false :=
      Bool.eq_false_iff.mpr fun opened => refused (.inr opened)
    cases found : fopen self.filename_ with
    | none =>
      have closed : self.gcda_file_.Open fopen self.filename_ =
          (false, { GcovVar.zero with overread := -1 }) := by
        rw [GcovVar.Open, if_neg named, free, if_neg Bool.false_ne_true]
        dsimp only
        rw [found]
      dsimp only [bind_none]
      rw [closed]
      exact ⟨_, rfl, fun _ => rfl⟩
    | some bytes =>
      obtain ⟨gcda_file_, opened, shows⟩ := Open_shows named free found
      have magic := @ParseMagic_cases bytes { self with
        result := []
        gcda_file_ := gcda_file_ } shows
      dsimp only [bind_some]
      rw [opened]
      dsimp only
      cases order : magicEndian bytes with
      | none =>
        rw [order] at magic
        obtain ⟨left, parsed, nothing⟩ := magic
        dsimp only [map_none]
        simp only [parsed, if_true]
        exact ⟨left, nothing, fun _ => rfl⟩
      | some endian =>
        rw [order] at magic
        obtain ⟨after, parsed, nothing, afterShows⟩ := magic
        dsimp only [map_some]
        simp only [parsed, if_true]
        obtain ⟨stamp, stampRead, stampShows⟩ := afterShows.word
        have start : after.bodyStart = ⟨{ after with gcda_file_ := stamp }, List.replicate 4 none, 0⟩ := by
          rw [GcdaRawCoverageParser.bodyStart, stampRead]
        refine ⟨after.bodyStart, ?_, ?_, ?_⟩
        · rw [start]
          exact nothing
        · rw [start]
          exact ⟨stampShows, rfl, .inl rfl⟩
        · intro fuel
          rw [GcdaRawCoverageParser.ParseBody, map_map]
          rfl

/-! ## The loop over the records -/

section

variable {bytes : List UInt8} {endian : Bool} {body : Body} {window : Window}

/-- The loop goes where the walk over the records goes. -/
theorem iterate_simulates (standing : body.At bytes endian window) :
    Option.Rel (Body.At bytes endian) body.iterate.toOption
      (nextPlace (fileWords endian bytes) window) := by
  have iteration := iterate_eq standing
  unfold nextPlace
  cases record : recordAt (fileWords endian bytes) window with
  | none =>
    rw [record] at iteration
    obtain ⟨left, leaves, _⟩ := iteration
    rw [leaves]
    exact .none
  | some next =>
    rw [record] at iteration
    obtain ⟨after, goesOn, afterAt, _⟩ := iteration
    rw [goesOn]
    exact .some afterAt

theorem run_ne_badIndex (standing : body.At bytes endian window) (fuel : Nat) (fault : BadIndex) :
    Loop.run Body.iterate fuel body ≠ some (.error fault) := by
  induction fuel generalizing body window with
  | zero =>
    intro returned
    cases returned
  | succ fuel ih =>
    have iteration := iterate_eq standing
    rw [Loop.run]
    cases record : recordAt (fileWords endian bytes) window with
    | none =>
      rw [record] at iteration
      obtain ⟨left, leaves, _⟩ := iteration
      rw [leaves]
      intro returned
      cases returned
    | some next =>
      rw [record] at iteration
      obtain ⟨after, goesOn, afterAt, _⟩ := iteration
      rw [goesOn]
      exact ih afterAt

end

section

variable {window : Window} {bound : Nat} (fopen : String → Option (List UInt8))
  (self : GcdaRawCoverageParser)

theorem syncTo_last_le {target : Unsigned} (large : 2 ^ 30 ≤ bound) (lastLe : window.last ≤ bound) :
    (syncTo target window).last ≤ bound := by
  unfold syncTo
  split
  · exact lastLe
  · change target.toNat % 2 ^ 30 ≤ bound
    omega

/-- The walk stays below a bound. -/
theorem nextPlace_last_le {words : List Unsigned} {place : Window} (large : 2 ^ 30 ≤ bound)
    (sizeLe : words.length ≤ bound) (lastLe : window.last ≤ bound)
    (next : nextPlace words window = some place) : place.last ≤ bound := by
  have step : ∀ other : Window, other.last ≤ bound → (nextWord words other).last ≤ bound :=
    fun _ otherLe => Window.next_last_le sizeLe otherLe
  unfold nextPlace recordAt at next
  dsimp only at next
  split at next
  · cases next
  · split at next
    · cases next
      exact syncTo_last_le large (step _ (step _ (step _ (step _ (step _ lastLe)))))
    · cases next
      exact syncTo_last_le large (step _ (step _ lastLe))

theorem places_finite (words : List Unsigned) (start : Window) :
    Set.Finite {window | Visits (nextPlace words) start window} := by
  apply (Window.finite_last_le (max start.last (max words.length (2 ^ 30)))).subset
  intro window visited
  change window.last ≤ _
  induction visited with
  | start => exact Nat.le_max_left _ _
  | next _ iteration ih =>
    exact nextPlace_last_le (by omega) (by omega) ih iteration

/-- The walk over the records of a file never comes to a place again. -/
def RecordsNeverReturn (endian : Bool) (bytes : List UInt8) : Prop :=
  NeverReturns (nextPlace (fileWords endian bytes)) (bodyPlace (fileWords endian bytes))

/-- The loop over the records has a result exactly if they never lead back. -/
theorem run_ends_iff {bytes : List UInt8} {endian : Bool} {start : Body}
    (standing : start.At bytes endian (bodyPlace (fileWords endian bytes))) :
    (∃ fuel, Loop.run Body.iterate fuel start ≠ none) ↔ RecordsNeverReturn endian bytes := by
  have finite := places_finite (fileWords endian bytes) (bodyPlace (fileWords endian bytes))
  rw [RecordsNeverReturn, ← Loop.ends_iff_neverReturns finite,
    ← Loop.ends_iff_of_simulates (Body.At bytes endian) (fun _ _ => iterate_simulates) standing]
  apply exists_congr
  intro fuel
  rw [Ne, Loop.run_eq_none_iff, not_isSome_iff_eq_none]

theorem Parse_ne_badIndex (fuel : Nat) (fault : BadIndex) :
    self.Parse fopen fuel ≠ some (.error fault) := by
  have cases := Parse_cases fopen self
  cases found : recordsOf fopen self with
  | none =>
    rw [found] at cases
    obtain ⟨left, _, returns⟩ := cases
    rw [returns]
    exact nofun
  | some file =>
    rw [found] at cases
    obtain ⟨start, _, standing, runs⟩ := cases
    intro faulty
    rw [runs] at faulty
    cases left : Loop.run Body.iterate fuel start with
    | none =>
      rw [left] at faulty
      cases faulty
    | some result =>
      cases result with
      | error other => exact run_ne_badIndex standing fuel other left
      | ok body =>
        rw [left] at faulty
        cases faulty

theorem Parse_returns_iff :
    (∃ fuel, self.Parse fopen fuel ≠ none) ↔
      ∀ endian bytes, recordsOf fopen self = some (endian, bytes) →
        RecordsNeverReturn endian bytes := by
  have cases := Parse_cases fopen self
  cases found : recordsOf fopen self with
  | none =>
    rw [found] at cases
    obtain ⟨left, _, returns⟩ := cases
    refine ⟨fun _ => nofun, fun _ => ⟨0, ?_⟩⟩
    rw [returns]
    exact nofun
  | some file =>
    obtain ⟨endian, bytes⟩ := file
    rw [found] at cases
    obtain ⟨start, _, standing, runs⟩ := cases
    have ends : (∃ fuel, self.Parse fopen fuel ≠ none) ↔ RecordsNeverReturn endian bytes := by
      rw [← run_ends_iff standing]
      apply exists_congr
      intro fuel
      rw [runs, Ne, Ne, map_eq_none_iff]
    rw [ends]
    constructor
    · rintro never _ _ ⟨⟩
      exact never
    · intro never
      exact never endian bytes rfl

end

/-- One record whose length word is `2 ^ 32 - 2`: with it the base comes back to the tag. -/
def loopingFile : List UInt8 :=
  [0x67636461, 0x34303670, 0, 1, 2 ^ 32 - 2].flatMap (WordCodec.toBytes .little 4)

theorem fileWords_length (endian : Bool) (bytes : List UInt8) :
    (fileWords endian bytes).length = bytes.length / 4 := by
  rw [fileWords, List.length_map, toWords_length]

theorem small_emptyAt {words : List Unsigned} (size : words.length < 2 ^ 30) :
    Small words (Window.emptyAt 0) :=
  ⟨size, Window.within_emptyAt _ _, by decide⟩

theorem bodyPlace_here {words : List Unsigned} (size : words.length < 2 ^ 30) :
    (bodyPlace words).here = min 3 words.length := by
  have small := small_emptyAt size
  have start : (Window.emptyAt 0).here = 0 := rfl
  rw [bodyPlace, small.nextWord.nextWord.nextWord_here, small.nextWord.nextWord_here,
    small.nextWord_here, start]
  split
  · split
    · split <;> omega
    · omega
  · omega

end Vts.RawCoverage
