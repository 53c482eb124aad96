import Vts.Elf.Parser

/-!
# What is read from the file

The methods of the parser are meant to raise `ElfError` only. Reads of bytes and of
structures keep to this; a string is read from a position that is not checked
first, and setting the file to it can fail in another way.
-/

namespace Vts.Elf

open Python (Exception Host Text)
open Lib.WordCodec List

/-! ## Outcomes -/

/-- The exception that the parser raises on purpose. -/
def IsElfError (failure : Exception) : Prop := ∃ message shown, failure = .elfError message shown

/-- An outcome that is a value or an `ElfError`. -/
def KeepsContract {α : Type} (outcome : Except Exception α) : Prop :=
  ∀ failure, outcome = .error failure → IsElfError failure

theorem keepsContract_ok {α : Type} (value : α) :
    KeepsContract (.ok value : Except Exception α) := by
  intro failure failed
  cases failed

theorem keepsContract_error_iff {α : Type} (failure : Exception) :
    KeepsContract (.error failure : Except Exception α) ↔ IsElfError failure := by
  refine ⟨fun keeps => keeps failure rfl, ?_⟩
  intro isElfError other failed
  cases failed
  exact isElfError

theorem keepsContract_map_iff {α β : Type} (f : α → β) (outcome : Except Exception α) :
    KeepsContract (outcome.map f) ↔ KeepsContract outcome := by
  cases outcome with
  | error failure => rw [Except.map, keepsContract_error_iff, keepsContract_error_iff]
  | ok value => simp [Except.map, keepsContract_ok]

/-- A computation returns a value when all its parts do. -/
theorem bind_eq_ok_iff {α β : Type} (outcome : Except Exception α) (next : α → Except Exception β)
    (result : β) :
    (outcome >>= next) = .ok result ↔ ∃ value, outcome = .ok value ∧ next value = .ok result := by
  cases outcome with
  | error result | ok result => simp [bind, Except.bind]

/-- A computation keeps the contract when its first part does and what follows it
does. -/
theorem keepsContract_bind_iff {α β : Type} (outcome : Except Exception α)
    (next : α → Except Exception β) :
    KeepsContract (outcome >>= next) ↔
      KeepsContract outcome ∧ ∀ value, outcome = .ok value → KeepsContract (next value) := by
  cases outcome with
  | error failure =>
    have stops : ((.error failure : Except Exception α) >>= next) = .error failure := rfl
    rw [stops, keepsContract_error_iff, keepsContract_error_iff]
    simp
  | ok value =>
    have goesOn : ((.ok value : Except Exception α) >>= next) = next value := rfl
    rw [goesOn]
    simp [keepsContract_ok]

/-! ## Reads -/

namespace Source

variable {self : Source}

theorem length_rest (self : Source) (offset : Nat) :
    (self.rest offset).length = self.fileSize - (self.beginOffset + offset) := length_drop

theorem rest_add (self : Source) (offset more : Nat) :
    self.rest (offset + more) = (self.rest offset).drop more := by
  rw [rest, rest, drop_drop, Nat.add_assoc]

/-- Bytes are read when the check of the size lets them through and the file can be set
to their position; there are fewer of them when the file ends. -/
theorem seekRead_eq_ok_iff (self : Source) (offset readSize : Nat) (raw : Text) :
    self.seekRead offset readSize = .ok raw ↔
      offset + readSize ≤ self.fileSize ∧
        self.beginOffset + offset < self.file.host.seekLimit ∧
        (self.rest offset).take readSize = raw := by
  rw [seekRead]
  by_cases fits : offset + readSize ≤ self.fileSize
  · rw [if_neg (by omega)]
    by_cases reachable : self.beginOffset + offset < self.file.host.seekLimit
    · simp [Host.seek_of_lt reachable, fits, reachable]
    · obtain ⟨failure, failed, kind⟩ := Host.seek_of_le (Nat.le_of_not_lt reachable)
      rcases kind with rfl | rfl <;> simp [failed, reachable]
  · rw [if_pos (by omega)]
    simp [fits]

/-- Bytes that stand in the file are read. -/
theorem seekRead_stored {offset : Nat} {piece after : Text} (some : piece ≠ [])
    (stored : self.rest offset = piece ++ after) :
    self.seekRead offset piece.length = .ok piece := by
  have length := self.length_rest offset
  have positive := length_pos_iff.mpr some
  rw [stored, length_append] at length
  have seekable := self.file.seekable
  have size : self.file.content.length = self.fileSize := rfl
  rw [seekRead_eq_ok_iff, stored]
  exact ⟨by omega, by omega, take_left⟩

/-- A word that stands in the file is read. -/
theorem seekReadInt_stored {offset width value : Nat} {after : Text} (positive : 0 < width)
    (fits : value < 256 ^ width) (stored : self.rest offset = leBytes width value ++ after) :
    self.seekReadInt offset width = .ok value := by
  have length := leBytes_length width value
  have read := seekRead_stored (length_pos_iff.mp (by omega)) stored
  rw [length] at read
  rw [seekReadInt, read]
  simp [bind, Except.bind, leValue_leBytes width value fits]

/-- A position of the ELF object is inside of twice the size of the file, so setting
the file to it fails with an `IOError` at most. -/
theorem keepsContract_seekRead (inside : self.beginOffset ≤ self.fileSize) (offset readSize : Nat) :
    KeepsContract (self.seekRead offset readSize) := by
  have small : self.fileSize < 2 ^ 62 := self.file.small
  rw [seekRead]
  split
  · rw [keepsContract_error_iff]
    exact ⟨_, _, rfl⟩
  next fits =>
    rcases self.file.host.seek_cases (self.beginOffset + offset) with
      reached | failed | ⟨_, large⟩
    · rw [reached]
      exact keepsContract_ok _
    · rw [failed, keepsContract_error_iff]
      exact ⟨_, _, rfl⟩
    · have limit : Python.wordLimit = 2 ^ 63 := rfl
      omega

theorem keepsContract_seekReadStruct {α : Type} (inside : self.beginOffset ≤ self.fileSize)
    (offset : Nat) (structType : StructType α) :
    KeepsContract (self.seekReadStruct offset structType) := by
  rw [seekReadStruct, keepsContract_bind_iff]
  refine ⟨keepsContract_seekRead inside _ _, fun raw _ => ?_⟩
  split
  · rw [keepsContract_error_iff]
    exact ⟨_, _, rfl⟩
  · exact keepsContract_ok _

/-- The bytes before the first zero byte, when it is in the first of two parts. -/
theorem takeWhile_of_findIdx? {chunk : Text} {endIndex : Nat}
    (found : chunk.findIdx? (· == 0) = some endIndex) :
    0 ∈ chunk ∧ ∀ after : Text, (chunk ++ after).takeWhile (· != 0) = chunk.take endIndex := by
  induction chunk generalizing endIndex with
  | nil => simp at found
  | cons byte chunk ih =>
    rw [List.findIdx?_cons] at found
    by_cases zero : byte = 0
    · simp only [zero, beq_self_eq_true, ↓reduceIte, Option.some.injEq] at found
      simp [zero, ← found]
    · simp only [beq_iff_eq, zero, ↓reduceIte, Option.map_eq_some_iff] at found
      obtain ⟨later, foundLater, rfl⟩ := found
      obtain ⟨listed, taken⟩ := ih foundLater
      refine ⟨by simp [listed], fun after => ?_⟩
      rw [cons_append, takeWhile_cons_of_pos (by simpa using zero), taken after,
        take_succ_cons]

/-- The string from the position on, whatever the chunks it is read in. -/
theorem readString_eq (ret stream : Text) :
    readString ret stream =
      if 0 ∈ stream then .ok (ret ++ stream.takeWhile (· != 0))
      else .error (.elfError "Null-terminated string reaches end of file." []) := by
  induction ret, stream using readString.induct with
  | case1 ret stream buf endIndex found =>
    have parts : buf ++ stream.drop bufSize = stream := take_append_drop bufSize stream
    obtain ⟨listed, taken⟩ := takeWhile_of_findIdx? found
    have terminated : 0 ∈ stream := mem_of_mem_take listed
    rw [readString, if_pos terminated]
    simp only [show List.findIdx? (· == 0) (stream.take bufSize) = some endIndex from found]
    rw [← taken (stream.drop bufSize), parts]
  | case2 ret stream buf absent short =>
    have whole : buf = stream := by
      refine take_of_length_le ?_
      simp only [buf, length_take] at short
      omega
    have unterminated : 0 ∉ stream := by
      intro zero
      have solid := List.findIdx?_eq_none_iff.mp absent 0 (whole ▸ zero)
      simp at solid
    rw [readString, if_neg unterminated]
    simp only [show List.findIdx? (· == 0) (stream.take bufSize) = none from absent]
    rw [if_pos short]
  | case3 ret stream buf absent full ih =>
    have parts : buf ++ stream.drop bufSize = stream := take_append_drop bufSize stream
    have solid : ∀ byte ∈ buf, (byte != 0) = true := by
      simpa using List.findIdx?_eq_none_iff.mp absent
    have listed : 0 ∈ stream ↔ 0 ∈ stream.drop bufSize := by
      rw [← parts, mem_append]
      simp only [or_iff_right_iff_imp, parts]
      intro zero
      simpa using solid 0 zero
    have taken : stream.takeWhile (· != 0) = buf ++ (stream.drop bufSize).takeWhile (· != 0) := by
      conv_lhs => rw [← parts]
      exact takeWhile_append_of_pos solid
    rw [readString]
    simp only [show List.findIdx? (· == 0) (stream.take bufSize) = none from absent]
    rw [if_neg full, ih, taken]
    simp only [listed, append_assoc]

/-- A string is read exactly when the file can be set to its position. -/
theorem keepsContract_seekReadString_iff (offset : Nat) :
    KeepsContract (self.seekReadString offset) ↔
      self.beginOffset + offset < self.file.host.seekLimit := by
  rw [seekReadString, keepsContract_bind_iff]
  have read : KeepsContract (readString [] (self.rest offset)) := by
    rw [readString_eq]
    split
    · exact keepsContract_ok _
    · rw [keepsContract_error_iff]
      exact ⟨_, _, rfl⟩
  constructor
  · rintro ⟨reached, _⟩
    by_contra beyond
    obtain ⟨failure, failed, kind⟩ := Host.seek_of_le (Nat.le_of_not_lt beyond)
    rw [failed, keepsContract_error_iff] at reached
    obtain ⟨message, shown, rfl⟩ := reached
    rcases kind with kind | kind <;> cases kind
  · intro reachable
    rw [Host.seek_of_lt reachable]
    exact ⟨keepsContract_ok _, fun _ _ => read⟩

/-- A string that was read stands in the file. -/
theorem seekReadString_eq_ok_iff (offset : Nat) (string : Text) :
    self.seekReadString offset = .ok string ↔
      0 ∈ self.rest offset ∧ (self.rest offset).takeWhile (· != 0) = string := by
  by_cases reachable : self.beginOffset + offset < self.file.host.seekLimit
  · have read : self.seekReadString offset = readString [] (self.rest offset) := by
      rw [seekReadString, Host.seek_of_lt reachable]
      rfl
    rw [read, readString_eq]
    split
    next terminated => simp [terminated]
    next unterminated => simp [unterminated]
  · obtain ⟨failure, failed, _⟩ := Host.seek_of_le (Nat.le_of_not_lt reachable)
    have raised : self.seekReadString offset = .error failure := by
      rw [seekReadString, failed]
      rfl
    have empty : self.rest offset = [] := by
      have seekable := self.file.seekable
      exact drop_eq_nil_of_le (by omega)
    simp [raised, empty]

/-- A string that was read starts inside of the file. -/
theorem lt_fileSize_of_seekReadString {offset : Nat} {string : Text}
    (read : self.seekReadString offset = .ok string) :
    self.beginOffset + offset < self.fileSize := by
  have listed := ((seekReadString_eq_ok_iff offset string).mp read).1
  have positive := length_pos_of_mem listed
  rw [length_rest] at positive
  omega

/-- What stands before the first zero byte. -/
theorem takeWhile_terminated {string : Text} (free : 0 ∉ string) (after : Text) :
    (string ++ 0 :: after).takeWhile (· != 0) = string := by
  have solid : ∀ byte ∈ string, (byte != 0) = true := by
    intro byte listed
    simpa using ne_of_mem_of_not_mem listed free
  rw [takeWhile_append_of_pos solid, takeWhile_cons_of_neg (by simp), append_nil]

/-- Exactly the bytes before the first zero byte from the position on, or an `ElfError` if there
is no such byte. -/
def ReadsString (self : Source) (offset : Nat) : Prop :=
  (∀ string, self.seekReadString offset = .ok string ↔
    0 ∉ string ∧ ∃ after, self.rest offset = string ++ 0 :: after) ∧
  ((∃ failure, self.seekReadString offset = .error failure ∧ IsElfError failure) ↔
    0 ∉ self.rest offset)

theorem seekReadString_split_iff (offset : Nat) (string : Text) :
    self.seekReadString offset = .ok string ↔
      0 ∉ string ∧ ∃ after, self.rest offset = string ++ 0 :: after := by
  rw [seekReadString_eq_ok_iff]
  constructor
  · rintro ⟨terminated, rfl⟩
    obtain ⟨front, after, split, free⟩ := eq_append_cons_of_mem terminated
    rw [split, takeWhile_terminated free]
    exact ⟨free, after, rfl⟩
  · rintro ⟨free, after, split⟩
    rw [split]
    exact ⟨by simp, takeWhile_terminated free after⟩

/-- A string is read rightly exactly if the file can be set to its position, wherever the chunks
end. -/
theorem readsString_iff (self : Source) (offset : Nat) :
    self.ReadsString offset ↔ self.beginOffset + offset < self.file.host.seekLimit := by
  constructor
  · rintro ⟨_, fails⟩
    by_contra beyond
    have seekable := self.file.seekable
    have empty : self.rest offset = [] := drop_eq_nil_of_le (by omega)
    obtain ⟨failure, failed, elfError⟩ := fails.mpr (by simp [empty])
    refine beyond ((keepsContract_seekReadString_iff offset).mp ?_)
    rwa [failed, keepsContract_error_iff]
  · intro reachable
    refine ⟨seekReadString_split_iff offset, ?_⟩
    have keeps := (keepsContract_seekReadString_iff offset).mpr reachable
    have read := @seekReadString_eq_ok_iff self offset
    cases outcome : self.seekReadString offset with
    | ok string =>
      have terminated := ((read string).mp outcome).1
      simp [terminated]
    | error failure =>
      have unterminated : 0 ∉ self.rest offset := by
        intro terminated
        have returned := (read _).mpr ⟨terminated, rfl⟩
        cases outcome.symm.trans returned
      exact iff_of_true ⟨failure, rfl, keeps failure outcome⟩ unterminated

/-- The offset of a section header is 64 bits wide, so a name can stand where no file reaches. -/
theorem not_readsString :
    ¬ ReadsString ⟨⟨Host.ideal, [97, 0], false, by decide, by decide, by decide⟩, 0⟩ (2 ^ 63) := by
  rintro ⟨_, fails⟩
  obtain ⟨failure, failed, _, _, rfl⟩ := fails.mpr (by decide)
  cases failed

/-! ## Reads of exact length

The check of `_SeekRead` compares with the size of the whole file, whatever the position of the
ELF object in it, so the bytes at the end of an object that stands behind others can be fewer. -/

/-- All the bytes that were asked for, or an `ElfError`. -/
def ReadsBytes (self : Source) (offset readSize : Nat) : Except Exception Text → Prop
  | .ok raw => raw.length = readSize ∧ raw = (self.rest offset).take readSize
  | .error failure => IsElfError failure

/-- The little-endian value of the bytes that stand in the file, or an `ElfError`. -/
def ReadsWord (self : Source) (offset width : Nat) : Except Exception Nat → Prop
  | .ok value => width ≤ (self.rest offset).length ∧
      value = leValue ((self.rest offset).take width)
  | .error failure => IsElfError failure

/-- The structure made of the bytes that stand in the file, or an `ElfError`. -/
def ReadsStruct {α : Type} (self : Source) (offset : Nat) (structType : StructType α) :
    Except Exception α → Prop
  | .ok value => structType.sizeof ≤ (self.rest offset).length ∧
      value = structType.build ((self.rest offset).take structType.sizeof)
  | .error failure => IsElfError failure

/-- Setting the file to a position raises no `OverflowError`. -/
def Seekable (self : Source) (offset : Nat) : Prop := self.beginOffset + offset < Python.wordLimit

/-- The bytes are refused by the check, stand in the file, or are none, unless the file cannot
be set to their position. -/
def InFile (self : Source) (offset readSize : Nat) : Prop :=
  self.fileSize < offset + readSize ∨
    (self.Seekable offset ∧
      (self.beginOffset + offset + readSize ≤ self.fileSize ∨ readSize = 0 ∨
        self.file.host.seekLimit ≤ self.beginOffset + offset))

section

variable (self : Source) (offset readSize : Nat)

/-- The four ways in which a read ends. -/
theorem seekRead_cases :
    (self.fileSize < offset + readSize ∧ ∃ failure,
        self.seekRead offset readSize = .error failure ∧ IsElfError failure) ∨
      (offset + readSize ≤ self.fileSize ∧ ¬ self.Seekable offset ∧
        self.seekRead offset readSize = .error .overflowError) ∨
      (offset + readSize ≤ self.fileSize ∧ self.Seekable offset ∧
        self.file.host.seekLimit ≤ self.beginOffset + offset ∧ ∃ failure,
          self.seekRead offset readSize = .error failure ∧ IsElfError failure) ∨
      (offset + readSize ≤ self.fileSize ∧ self.Seekable offset ∧
        self.beginOffset + offset < self.file.host.seekLimit ∧
          self.seekRead offset readSize = .ok ((self.rest offset).take readSize)) := by
  have limit := self.file.host.seekLimit_le
  rw [seekRead, Seekable]
  by_cases fits : offset + readSize ≤ self.fileSize
  · rw [if_neg (by omega), Host.seek]
    by_cases reachable : self.beginOffset + offset < self.file.host.seekLimit
    · rw [if_pos reachable]
      exact .inr (.inr (.inr ⟨fits, by omega, reachable, rfl⟩))
    · rw [if_neg reachable]
      by_cases word : self.beginOffset + offset < Python.wordLimit
      · rw [if_pos word]
        exact .inr (.inr (.inl ⟨fits, word, Nat.le_of_not_lt reachable, _, rfl, _, _, rfl⟩))
      · rw [if_neg word]
        exact .inr (.inl ⟨fits, word, rfl⟩)
  · rw [if_pos (by omega)]
    exact .inl ⟨by omega, _, rfl, _, _, rfl⟩

theorem not_isElfError_overflowError : ¬ IsElfError .overflowError := by
  rintro ⟨_, _, equal⟩
  cases equal

theorem not_isElfError_structError : ¬ IsElfError .structError := by
  rintro ⟨_, _, equal⟩
  cases equal

/-- Bytes that are read are fewer exactly if the file ends before them. -/
theorem length_take_rest_iff :
    ((self.rest offset).take readSize).length = readSize ↔
      self.beginOffset + offset + readSize ≤ self.fileSize ∨ readSize = 0 := by
  rw [length_take, length_rest]
  omega

/-- A reader of the bytes of one `_SeekRead` reads rightly if its errors are `ElfError`s, the
position is one the file can be set to, and it makes the right thing of the bytes. -/
theorem seekRead_bind_iff {α : Type} {next : Text → Except Exception α}
    {Reads : Except Exception α → Prop} {Made : Prop}
    (error_iff : ∀ failure, Reads (.error failure) ↔ IsElfError failure)
    (next_iff : offset + readSize ≤ self.fileSize →
      (Reads (next ((self.rest offset).take readSize)) ↔ Made)) :
    Reads (self.seekRead offset readSize >>= next) ↔
      self.fileSize < offset + readSize ∨
        (self.Seekable offset ∧
          (Made ∨ self.file.host.seekLimit ≤ self.beginOffset + offset)) := by
  rcases self.seekRead_cases offset readSize with
    ⟨beyond, failure, failed, elfError⟩ | ⟨fits, far, failed⟩ |
    ⟨fits, seekable, unreachable, failure, failed, elfError⟩ | ⟨fits, seekable, reachable, read⟩
  · rw [failed]
    exact iff_of_true ((error_iff failure).mpr elfError) (.inl beyond)
  · rw [failed]
    refine iff_of_false (mt (error_iff _).mp not_isElfError_overflowError) ?_
    rintro (beyond | ⟨seekable, _⟩)
    · omega
    · exact far seekable
  · rw [failed]
    exact iff_of_true ((error_iff failure).mpr elfError) (.inr ⟨seekable, .inr unreachable⟩)
  · have inside : ¬ self.fileSize < offset + readSize := Nat.not_lt.mpr fits
    have known : ¬ self.file.host.seekLimit ≤ self.beginOffset + offset := Nat.not_le.mpr reachable
    rw [read, or_iff_right inside, and_iff_right seekable, or_iff_left known]
    exact next_iff fits

theorem readsBytes_iff :
    self.ReadsBytes offset readSize (self.seekRead offset readSize) ↔
      self.InFile offset readSize := by
  rw [InFile, ← or_assoc, ← bind_pure (self.seekRead offset readSize)]
  refine self.seekRead_bind_iff offset readSize (fun _ => Iff.rfl) fun _ => ?_
  rw [← self.length_take_rest_iff offset readSize]
  exact and_iff_left rfl

/-- The words that `struct.unpack` is given too few bytes for raise a `struct.error`. -/
theorem readsWord_iff (width : Nat) :
    self.ReadsWord offset width (self.seekReadInt offset width) ↔ self.InFile offset width := by
  rw [InFile, ← or_assoc, seekReadInt]
  refine self.seekRead_bind_iff offset width (fun _ => Iff.rfl) fun _ => ?_
  rw [← self.length_take_rest_iff offset width]
  by_cases whole : ((self.rest offset).take width).length = width
  · rw [if_pos whole]
    refine iff_of_true ⟨?_, rfl⟩ whole
    rw [length_take] at whole
    omega
  · rw [if_neg whole]
    exact iff_of_false not_isElfError_structError whole

/-- A structure that the bytes are too few for is refused with an `ElfError`. -/
theorem readsStruct_iff {α : Type} (structType : StructType α) :
    self.ReadsStruct offset structType (self.seekReadStruct offset structType) ↔
      self.fileSize < offset + structType.sizeof ∨ self.Seekable offset := by
  have reads : self.ReadsStruct offset structType (self.seekReadStruct offset structType) ↔
      self.fileSize < offset + structType.sizeof ∨
        (self.Seekable offset ∧
          (True ∨ self.file.host.seekLimit ≤ self.beginOffset + offset)) := by
    refine self.seekRead_bind_iff offset structType.sizeof (fun _ => Iff.rfl) fun _ => ?_
    by_cases short : ((self.rest offset).take structType.sizeof).length < structType.sizeof
    · rw [if_pos short]
      exact iff_of_true ⟨_, _, rfl⟩ trivial
    · rw [if_neg short]
      refine iff_of_true ⟨?_, rfl⟩ trivial
      rw [length_take] at short
      omega
  rwa [true_or, and_true] at reads

end

/-- What the reads of an ELF object return, wherever it stands in its file. -/
theorem seekRead_inFile_iff (self : Source) (offset : Nat) :
    (∀ readSize, self.ReadsBytes offset readSize (self.seekRead offset readSize) ↔
        self.InFile offset readSize) ∧
      (self.ReadsWord offset 1 (self.seekRead8 offset) ↔ self.InFile offset 1) ∧
      (self.ReadsWord offset 2 (self.seekRead16 offset) ↔ self.InFile offset 2) ∧
      (self.ReadsWord offset 4 (self.seekRead32 offset) ↔ self.InFile offset 4) ∧
      (self.ReadsWord offset 8 (self.seekRead64 offset) ↔ self.InFile offset 8) ∧
      ∀ (α : Type) (structType : StructType α),
        self.ReadsStruct offset structType (self.seekReadStruct offset structType) ↔
          self.fileSize < offset + structType.sizeof ∨ self.Seekable offset :=
  ⟨self.readsBytes_iff offset, self.readsWord_iff offset 1, self.readsWord_iff offset 2,
    self.readsWord_iff offset 4, self.readsWord_iff offset 8,
    fun _ => self.readsStruct_iff offset⟩

/-- An object that starts two bytes before the end of its file of eight bytes. -/
def nearEnd : Source where
  file := .ideal [1, 2, 3, 4, 5, 6, 7, 8] (by decide)
  beginOffset := 6

/-- Four bytes are asked for, two are returned, and the word of four bytes is a
`struct.error`. -/
theorem nearEnd_short :
    ¬ nearEnd.ReadsBytes 0 4 (nearEnd.seekRead 0 4) ∧
      ¬ nearEnd.ReadsWord 0 4 (nearEnd.seekRead32 0) := by
  have read : nearEnd.seekRead 0 4 = .ok [7, 8] := rfl
  have word : nearEnd.seekRead32 0 = .error .structError := rfl
  rw [read, word]
  exact ⟨fun right => absurd right.1 (by decide), not_isElfError_structError⟩

end Source

end Vts.Elf
