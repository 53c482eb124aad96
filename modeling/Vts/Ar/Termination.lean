import Vts.Ar.Format
import Vts.Lib.Loops

/-!
# Archives that are never read to the end

Both readers of archives move on by the size field of a member, which `int` may find to be
negative. `Archive.ReadBytes` lets the cursor go back, and `_IterateArchive`
(`ar_parser.py`) seeks to the position it computes, unless that is negative.

`readers_advance_iff` says for which files every member that is read takes both readers
forward, and that both come to an end then. A size of -60 leads back to the header it stands
in, and neither reader ends (`never_ends`).
-/

namespace Vts.Ar

open Python Lib

namespace Archive

/-! ## The members that `Parse` reads -/

/-- An iteration of the loop of `Parse` that raises nothing. -/
def step (self : Archive) : Option Archive :=
  if self.cursor < self.content.length then
    match readFile self with
    | .ok ((), next) => some next
    | .error _ => none
  else none

/-- The state in which the loop is entered. -/
def opened (content : Text) : Archive := (init content).advance globalSig.length

/-- The size field of the header at the cursor. -/
def sizeField (self : Archive) : Text :=
  slice self.content (self.cursor + 48) (self.cursor + 58)

section

variable {self next : Archive} {text : Text}

theorem bind_eq_ok {α β : Type} {first : Method α} {next : α → Method β} {result : β × Archive}
    (ran : (first >>= next) self = .ok result) :
    ∃ value middle, first self = .ok (value, middle) ∧ next value middle = .ok result := by
  cases outcome : first self with
  | error failure =>
    rw [bind_error outcome] at ran
    cases ran
  | ok pair => exact ⟨pair.1, pair.2, rfl, by rwa [bind_ok outcome] at ran⟩

theorem readBytes_ok {n : Int} (read : readBytes n self = .ok (text, next)) :
    text = slice self.content self.cursor (self.cursor + n) ∧ next = self.advance n := by
  rw [readBytes] at read
  split at read
  · cases read
  · cases read
    exact ⟨rfl, rfl⟩

theorem toInt_ok {value : Int}
    (converted : (liftM (toInt text) : Method Int) self = .ok (value, next)) :
    parseInt text = some value ∧ next = self := by
  rw [toInt] at converted
  cases number : parseInt text with
  | none =>
    rw [number] at converted
    cases converted
  | some found =>
    rw [number] at converted
    cases converted
    exact ⟨rfl, rfl⟩

/-- Storing a file changes neither the content nor the cursor. -/
theorem storeFile_keeps {stored : Archive} {name content : Text}
    (ran : self.storeFile name content = .ok stored) :
    stored.content = self.content ∧ stored.cursor = self.cursor := by
  rw [storeFile] at ran
  split at ran
  · cases ran
    exact ⟨rfl, rfl⟩
  · split at ran
    · cases ran
      exact ⟨rfl, rfl⟩
    · cases key : self.fileName name with
      | error failure =>
        rw [key] at ran
        cases ran
      | ok file =>
        rw [key] at ran
        cases ran
        exact ⟨rfl, rfl⟩

/-- A member that is read moves the cursor by its header and the size in it. -/
theorem readFile_moves (read : readFile self = .ok ((), next)) :
    next.content = self.content ∧ ∃ size, parseInt self.sizeField = some size ∧
      next.cursor = self.cursor + 60 + size := by
  rw [readFile] at read
  obtain ⟨name, s1, read1, read⟩ := bind_eq_ok read
  obtain ⟨_, s2, read2, read⟩ := bind_eq_ok read
  obtain ⟨_, s3, read3, read⟩ := bind_eq_ok read
  obtain ⟨_, s4, read4, read⟩ := bind_eq_ok read
  obtain ⟨_, s5, read5, read⟩ := bind_eq_ok read
  obtain ⟨field, s6, read6, read⟩ := bind_eq_ok read
  obtain ⟨size, s7, converted, read⟩ := bind_eq_ok read
  obtain ⟨tag, s8, read8, read⟩ := bind_eq_ok read
  obtain ⟨-, rfl⟩ := readBytes_ok read1
  obtain ⟨-, rfl⟩ := readBytes_ok read2
  obtain ⟨-, rfl⟩ := readBytes_ok read3
  obtain ⟨-, rfl⟩ := readBytes_ok read4
  obtain ⟨-, rfl⟩ := readBytes_ok read5
  obtain ⟨rfl, rfl⟩ := readBytes_ok read6
  obtain ⟨number, rfl⟩ := toInt_ok converted
  obtain ⟨-, rfl⟩ := readBytes_ok read8
  split at read
  · obtain ⟨content, s9, read9, read⟩ := bind_eq_ok read
    obtain ⟨-, rfl⟩ := readBytes_ok read9
    simp only [advance_advance] at read number
    cases ran : Archive.storeFile _ (strip name) content with
    | error failure =>
      rw [ran] at read
      cases read
    | ok stored =>
      rw [ran] at read
      cases read
      obtain ⟨sameContent, sameCursor⟩ := storeFile_keeps ran
      refine ⟨sameContent, size, ?_, ?_⟩
      · have field : self.cursor + 58 = self.cursor + 48 + (contentSizeLength : Int) := by
          rw [contentSizeLength]
          omega
        rw [sizeField, field]
        exact number
      · rw [sameCursor, advance]
        simp only [fileIdLength, fileTimestampLength, ownerIdLength, groupIdLength, fileModeLength,
          contentSizeLength, endTag, List.length_cons, List.length_nil]
        omega
  · cases read

/-- An iteration takes the cursor over the header and as far as the size field says. -/
theorem step_moves (iteration : self.step = some next) :
    self.cursor < self.content.length ∧ next.content = self.content ∧
      ∃ size, parseInt self.sizeField = some size ∧ next.cursor = self.cursor + 60 + size := by
  rw [step] at iteration
  split at iteration
  · next inside =>
    split at iteration
    · next read =>
      cases iteration
      exact ⟨inside, readFile_moves read⟩
    · cases iteration
  · cases iteration

theorem step_content (iteration : self.step = some next) :
    next.content = self.content := (step_moves iteration).2.1

end

/-! ## Running out of fuel -/

/-- Failures of the interpreter, and never the end of the fuel. -/
theorem bind_unfinished {α β : Type} {first : Method α} {next : α → Method β} {self : Archive}
    (finishes : ∀ state, first state ≠ .error .unfinished)
    (later : ∀ value state, next value state ≠ .error .unfinished) :
    (first >>= next) self ≠ .error .unfinished := by
  cases outcome : first self with
  | error failure =>
    rw [bind_error outcome]
    intro same
    cases same
    exact finishes self outcome
  | ok pair =>
    rw [bind_ok outcome]
    exact later pair.1 pair.2

theorem readBytes_finishes (n : Int) (self : Archive) : readBytes n self ≠ .error .unfinished := by
  rw [readBytes]
  split <;> rintro ⟨⟩

section

variable (text : Text) (self : Archive) (name : Text)

theorem toInt_finishes : toInt text ≠ .error .unfinished := by
  rw [toInt]
  split <;> rintro ⟨⟩

theorem fileName_finishes : self.fileName name ≠ .error .unfinished := by
  rw [fileName]
  split
  · exact nofun
  · split
    · cases offset : toInt (name.drop fileIdTerminator.length) with
      | error failure =>
        rintro ⟨⟩
        exact toInt_finishes _ offset
      | ok value =>
        simp only [bind, Except.bind]
        split <;> exact nofun
    · exact nofun

theorem storeFile_finishes (content : Text) : self.storeFile name content ≠ .error .unfinished := by
  rw [storeFile]
  split
  · exact nofun
  · split
    · exact nofun
    · cases key : self.fileName name with
      | error failure =>
        rintro ⟨⟩
        exact fileName_finishes self name key
      | ok file => exact nofun

theorem readFile_finishes : readFile self ≠ .error .unfinished := by
  rw [readFile]
  iterate 6
    refine bind_unfinished (readBytes_finishes _) fun _ _ => ?_
  refine bind_unfinished (fun state same => ?_) fun size _ => ?_
  · cases number : toInt _ with
    | error failure =>
      rw [number] at same
      cases same
      exact toInt_finishes _ number
    | ok value =>
      rw [number] at same
      cases same
  refine bind_unfinished (readBytes_finishes _) fun tag state => ?_
  split
  · refine bind_unfinished (readBytes_finishes _) fun content state => ?_
    cases ran : state.storeFile (strip _) content with
    | error failure =>
      rintro ⟨⟩
      exact storeFile_finishes _ _ _ ran
    | ok stored => exact nofun
  · exact nofun

/-- The loop runs out of fuel exactly if it can be iterated that often. -/
theorem readFiles_unfinished_iff (fuel : Nat) (self : Archive) :
    readFiles fuel self = .error .unfinished ↔ (Loop.after step fuel self).isSome := by
  induction fuel generalizing self with
  | zero => exact iff_of_true rfl rfl
  | succ fuel ih =>
    rw [readFiles, Loop.after, step]
    split
    · cases read : readFile self with
      | error failure =>
        refine iff_of_false ?_ (by simp)
        intro same
        cases same
        exact readFile_finishes self read
      | ok pair => exact ih pair.2
    · exact iff_of_false (by simp) (by simp)

/-- A state at the start of an iteration of `Parse` on a file. -/
def Iterates (content : Text) (self : Archive) : Prop :=
  globalSig <+: content ∧ Loop.Visits step (opened content) self

theorem Iterates.content {content : Text} {self : Archive} (visited : Iterates content self) :
    self.content = content := by
  induction visited.2 with
  | start => rfl
  | next before iteration ih =>
    rw [step_content iteration]
    exact ih ⟨visited.1, before⟩

theorem slice_zero (length : Nat) : slice text 0 length = text.take length := by
  have start : sliceBound text.length 0 = 0 := by
    rw [sliceBound, if_neg (by decide)]
    exact Nat.zero_min _
  have stop : sliceBound text.length length = min length text.length := by
    rw [sliceBound, if_neg (by omega), Int.toNat_natCast]
  rw [slice, start, stop, List.drop_zero, Nat.sub_zero, ← List.take_eq_take_min]

end

/-- `Parse` enters the loop on the files that start with the signature. -/
theorem parse_eq (content : Text) (fuel : Nat) (signed : globalSig <+: content) :
    parse fuel (init content) = readFiles fuel (opened content) := by
  obtain ⟨rest, rfl⟩ := signed
  have enough : ¬ (init (globalSig ++ rest)).cursor + (globalSig.length : Int) >
      (init (globalSig ++ rest)).content.length := by
    simp only [init, List.length_append]
    omega
  have signature : slice (init (globalSig ++ rest)).content (init (globalSig ++ rest)).cursor
      ((init (globalSig ++ rest)).cursor + globalSig.length) = globalSig := by
    simp only [init, Int.zero_add]
    rw [slice_zero, List.take_left]
  have read : readBytes globalSig.length (init (globalSig ++ rest)) =
      .ok (globalSig, opened (globalSig ++ rest)) := by
    rw [readBytes, if_neg enough, signature]
    rfl
  simp only [parse, read, bind, Except.bind]
  exact if_pos trivial

theorem parse_unsigned (content : Text) (fuel : Nat) (unsigned : ¬ globalSig <+: content) :
    parse fuel (init content) ≠ .error .unfinished := by
  rw [parse]
  cases read : readBytes globalSig.length (init content) with
  | error failure =>
    rintro ⟨⟩
    exact readBytes_finishes _ _ read
  | ok pair =>
    have other : pair.1 ≠ globalSig := by
      obtain ⟨text, -⟩ := readBytes_ok read
      rw [text]
      simp only [init, Int.zero_add]
      rw [slice_zero]
      intro same
      rw [← same] at unsigned
      exact unsigned (List.take_prefix _ _)
    simp only [bind, Except.bind, if_neg other]
    exact nofun

/-- `Parse` comes to an end, and every iteration of its loop takes the cursor forward. -/
def Advances (content : Text) : Prop :=
  (∃ fuel, parse fuel (init content) ≠ .error .unfinished) ∧
    ∀ self next, Iterates content self → self.step = some next → self.cursor < next.cursor

/-- No member that `Parse` reads has a size of -60 or less. -/
def SizesForward (content : Text) : Prop :=
  ∀ self next, Iterates content self → self.step = some next →
    ∀ size, parseInt self.sizeField = some size → -60 < size

theorem advances_iff (content : Text) : Advances content ↔ SizesForward content := by
  constructor
  · rintro ⟨-, forward⟩ self next visited iteration size number
    obtain ⟨-, -, other, same, moved⟩ := step_moves iteration
    cases same.symm.trans number
    have raised := forward self next visited iteration
    omega
  · intro sizes
    have forward : ∀ self next, Iterates content self → self.step = some next →
        self.cursor < next.cursor := by
      intro self next visited iteration
      obtain ⟨-, -, size, number, moved⟩ := step_moves iteration
      have positive := sizes self next visited iteration size number
      omega
    refine ⟨?_, forward⟩
    by_cases signed : globalSig <+: content
    · have ends : Loop.Ends step (opened content) := by
        refine Loop.ends_of_raises cursor content.length fun self next visited iteration => ?_
        refine ⟨forward self next ⟨signed, visited⟩ iteration, ?_⟩
        have inside := (step_moves iteration).1
        rwa [Iterates.content ⟨signed, visited⟩] at inside
      obtain ⟨count, ended⟩ := ends
      refine ⟨count, ?_⟩
      rw [parse_eq content count signed, ne_eq, readFiles_unfinished_iff, ended]
      exact nofun
    · exact ⟨0, parse_unsigned content 0 signed⟩

end Archive

/-! ## The members that `_IterateArchive` finds -/

namespace ArParser

/-- What `_IterateArchive` raises, or a run that did not end. -/
inductive Failure where
  | arError (message : String)
  | valueError
  | unfinished
deriving DecidableEq

/-- The members that are no objects: `/`, `//` and `/SYM64/`. -/
def tables : List Text := [[slash], [slash, slash], [slash, 83, 89, 77, 54, 52, slash]]

/-- `header[48:58].rstrip(" ")`. -/
def sizeField (header : Text) : Text := ((header.drop 48).take 10).rdropWhile (· == 32)

/-- `ar.read(60)`. -/
def headerAt (content : Text) (position : Nat) : Text := (content.drop position).take 60

/-- The position of the next header: the end of the member, at a 2-byte boundary. -/
def target (position : Nat) (objSize : Int) : Int :=
  let objOffset := position + 60 + objSize
  objOffset + objOffset % 2

/-- An iteration of the loop: the offset that is yielded, if one is, and the position
after the seek. The loop ends at an incomplete header. -/
def iterateStep (content : Text) (position : Nat) :
    Except Failure (Option (Option Nat × Nat)) :=
  let header := headerAt content position
  if header.length ≠ 60 then .ok none
  else
    let objName := (header.take 16).rdropWhile (· == 32)
    match parseInt (sizeField header) with
    | none => .error .valueError
    | some objSize =>
      let yielded := if objName ∈ tables then none else some (position + 60)
      if target position objSize < 0 then .error (.arError "Invalid argument")
      else .ok (some (yielded, (target position objSize).toNat))

/-- The loop of `_IterateArchive`, with the offsets yielded so far. -/
def iterateFrom (content : Text) : Nat → Nat → List Nat → Except Failure (List Nat)
  | 0, _, _ => .error .unfinished
  | fuel + 1, position, offsets =>
    match iterateStep content position with
    | .error failure => .error failure
    | .ok none => .ok offsets
    | .ok (some (yielded, next)) => iterateFrom content fuel next (offsets ++ yielded.toList)

/-- `_IterateArchive`. -/
def iterateArchive (fuel : Nat) (content : Text) : Except Failure (List Nat) :=
  if content.take 8 ≠ Archive.globalSig then .error (.arError "Wrong magic string.")
  else iterateFrom content fuel 8 []

/-- An iteration that raises nothing, as the position after it. -/
def step (content : Text) (position : Nat) : Option Nat :=
  match iterateStep content position with
  | .ok (some (_, next)) => some next
  | .ok none => none
  | .error _ => none

/-- A member is read and the file is set to the position behind it. -/
theorem step_eq_some_iff {content : Text} {position next : Nat} :
    step content position = some next ↔
      (headerAt content position).length = 60 ∧
        ∃ size, parseInt (sizeField (headerAt content position)) = some size ∧
          target position size = next := by
  rw [step, iterateStep]
  by_cases complete : (headerAt content position).length = 60
  · simp only [complete, ne_eq, not_true_eq_false, if_false, true_and]
    cases number : parseInt (sizeField (headerAt content position)) with
    | none => simp
    | some size =>
      simp only [Option.some.injEq, exists_eq_left']
      by_cases negative : target position size < 0
      · rw [if_pos negative]
        refine iff_of_false nofun ?_
        omega
      · rw [if_neg negative]
        simp only [Option.some.injEq]
        omega
  · simp [complete]

theorem iterateStep_finishes (content : Text) (position : Nat) :
    iterateStep content position ≠ .error .unfinished := by
  rw [iterateStep]
  split
  · exact nofun
  · split
    · exact nofun
    · split <;> exact nofun

theorem iterateFrom_unfinished_iff (content : Text) (fuel position : Nat) (offsets : List Nat) :
    iterateFrom content fuel position offsets = .error .unfinished ↔
      (Loop.after (step content) fuel position).isSome := by
  induction fuel generalizing position offsets with
  | zero => exact iff_of_true rfl rfl
  | succ fuel ih =>
    rw [iterateFrom, Loop.after, step]
    cases found : iterateStep content position with
    | error failure =>
      refine iff_of_false ?_ (by simp)
      rintro ⟨⟩
      exact iterateStep_finishes content position found
    | ok member =>
      cases member with
      | none => exact iff_of_false (by simp) (by simp)
      | some pair => exact ih pair.2 _

/-- A position at which `_IterateArchive` reads a header. -/
def Iterates (content : Text) (position : Nat) : Prop :=
  content.take 8 = Archive.globalSig ∧ Loop.Visits (step content) 8 position

/-- All headers are read at even positions. -/
theorem Iterates.even {content : Text} {position : Nat} (visited : Iterates content position) :
    position % 2 = 0 := by
  induction visited.2 with
  | start => rfl
  | next before iteration ih =>
    obtain ⟨-, size, -, same⟩ := step_eq_some_iff.mp iteration
    rw [target] at same
    omega

/-- `_IterateArchive` comes to an end, and every iteration takes the file forward. -/
def Advances (content : Text) : Prop :=
  (∃ fuel, iterateArchive fuel content ≠ .error .unfinished) ∧
    ∀ position next, Iterates content position → step content position = some next →
      position < next

/-- No complete header that is read has a size of -60 or less, unless it leads to a
position before the start of the file. -/
def SizesForward (content : Text) : Prop :=
  ∀ position, Iterates content position → (headerAt content position).length = 60 →
    ∀ size, parseInt (sizeField (headerAt content position)) = some size →
      -60 < size ∨ size ≤ -62 - position

theorem advances_iff (content : Text) : Advances content ↔ SizesForward content := by
  constructor
  · rintro ⟨-, forward⟩ position visited complete size number
    have even := visited.even
    by_cases negative : target position size < 0
    · rw [target] at negative
      omega
    · have next := step_eq_some_iff.mpr ⟨complete, size, number,
        (Int.toNat_of_nonneg (Int.not_lt.mp negative)).symm⟩
      have raised := forward position _ visited next
      rw [target] at raised negative
      omega
  · intro sizes
    have forward : ∀ position next, Iterates content position →
        step content position = some next → position < next := by
      intro position next visited iteration
      obtain ⟨complete, size, number, same⟩ := step_eq_some_iff.mp iteration
      have positive := sizes position visited complete size number
      have even := visited.even
      rw [target] at same
      omega
    refine ⟨?_, forward⟩
    by_cases signed : content.take 8 = Archive.globalSig
    · have ends : Loop.Ends (step content) 8 := by
        refine Loop.ends_of_raises (fun position : Nat => (position : Int)) content.length
          fun position next visited iteration => ?_
        refine ⟨Int.ofNat_lt.mpr (forward position next ⟨signed, visited⟩ iteration), ?_⟩
        have complete := (step_eq_some_iff.mp iteration).1
        rw [headerAt, List.length_take, List.length_drop] at complete
        omega
      obtain ⟨count, ended⟩ := ends
      refine ⟨count, ?_⟩
      rw [iterateArchive, if_neg (not_not.mpr signed), ne_eq, iterateFrom_unfinished_iff, ended]
      exact nofun
    · refine ⟨0, ?_⟩
      rw [iterateArchive, if_pos signed]
      exact nofun

end ArParser

/-- Both readers take every member forward and come to an end exactly on the files in
which no size field that they follow is -60 or less. -/
theorem readers_advance_iff (content : Text) :
    Archive.Advances content ∧ ArParser.Advances content ↔
      Archive.SizesForward content ∧ ArParser.SizesForward content :=
  and_congr (Archive.advances_iff content) (ArParser.advances_iff content)

/-- An archive with one member, `a`, whose size field says -60. -/
def hostile : Text :=
  Archive.globalSig ++ (ljust 16 [97, 47] ++ (List.replicate 32 32 ++
    (ljust 10 [45, 54, 48] ++ Archive.endTag)))

/-- The header of the member is read again, with nothing of the content. -/
theorem hostile_again {self : Archive} (content : self.content = hostile) (cursor : self.cursor = 8) :
    ∃ next, self.step = some next ∧ next.content = hostile ∧ next.cursor = 8 := by
  obtain ⟨files, _, _, table⟩ := self
  subst content cursor
  exact ⟨⟨files.insert [97] [], hostile, 8, table⟩, rfl, rfl, rfl⟩

/-- Neither reader of that archive ever ends. -/
theorem never_ends :
    (∀ fuel, Archive.parse fuel (Archive.init hostile) = .error .unfinished) ∧
      ∀ fuel, ArParser.iterateArchive fuel hostile = .error .unfinished := by
  constructor
  · intro fuel
    rw [Archive.parse_eq hostile fuel ⟨_, rfl⟩, Archive.readFiles_unfinished_iff]
    apply Loop.after_isSome_of_invariant fun self : Archive =>
      self.content = hostile ∧ self.cursor = 8
    · rintro self ⟨content, cursor⟩
      obtain ⟨next, again, kept⟩ := hostile_again content cursor
      exact ⟨next, again, kept⟩
    · exact ⟨rfl, rfl⟩
  · intro fuel
    rw [ArParser.iterateArchive, if_neg (by decide), ArParser.iterateFrom_unfinished_iff]
    apply Loop.after_isSome_of_invariant fun position : Nat => position = 8
    · rintro position rfl
      exact ⟨8, by decide, rfl⟩
    · rfl

end Vts.Ar
