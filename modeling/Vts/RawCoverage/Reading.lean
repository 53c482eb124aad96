import Vts.Lib.Window
import Vts.RawCoverage.GcdaFile

/-!
# The buffer as a window

The buffer of a `GcdaFile` shows a window on the words of the file: reading words one by one and
`Sync` do to the reader what `Window.next` and a move or a seek do to the window.
-/

namespace Vts.RawCoverage

open Lib Lib.WordCodec List

/-! ## Words of a file -/

section

variable (count : Nat) (bytes : List UInt8)

theorem toWords_short {bytes : List UInt8} (short : bytes.length < 4) : toWords bytes = [] := by
  match bytes, short with
  | [], _ | [_], _ | [_, _], _ | [_, _, _], _ => rfl

@[simp] theorem toWords_length : (toWords bytes).length = bytes.length / 4 := by
  induction bytes using toWords.induct with
  | case1 first second third fourth rest ih =>
    simp only [toWords, length_cons, ih]
    omega
  | case2 bytes others =>
    have short : bytes.length < 4 := by
      match bytes, others with
      | [], _ => decide
      | [_], _ | [_, _], _ | [_, _, _], _ => simp
      | first :: second :: third :: fourth :: rest, others =>
        exact (others first second third fourth rest rfl).elim
    rw [toWords_short short, length_nil]
    omega

theorem toWords_drop : toWords (bytes.drop (4 * count)) = (toWords bytes).drop count := by
  induction count generalizing bytes with
  | zero => rfl
  | succ count ih =>
    match bytes with
    | [] | [_] | [_, _] | [_, _, _] =>
      rw [toWords_short (by simp <;> omega), toWords_short (by simp), drop_nil]
    | first :: second :: third :: fourth :: rest =>
      exact ih rest

theorem toWords_take : toWords (bytes.take (4 * count)) = (toWords bytes).take count := by
  induction count generalizing bytes with
  | zero => simp [toWords]
  | succ count ih =>
    match bytes with
    | [] | [_] | [_, _] | [_, _, _] =>
      rw [toWords_short (by simp), toWords_short (by simp), take_nil]
    | first :: second :: third :: fourth :: rest =>
      have head := ih rest
      change _ :: toWords (rest.take (4 * count)) = _
      rw [head]
      rfl

end

/-- The position in the file is that of a word, or the end of the file. -/
def AtWord (bytes : List UInt8) (position place : Nat) : Prop :=
  position / 4 = place ∧ (position % 4 = 0 ∨ position = bytes.length)

section

variable {bytes : List UInt8} {position place : Nat} (atWord : AtWord bytes position place)
  (count : Nat)
include atWord

theorem AtWord.toWords_fread :
    toWords ((bytes.drop position).take (4 * count)) = ((toWords bytes).drop place).take count := by
  obtain ⟨rfl, aligned | atEnd⟩ := atWord
  · have whole : position = 4 * (position / 4) := by omega
    rw [toWords_take]
    conv_lhs => rw [whole]
    rw [toWords_drop]
  · have nothing : (toWords bytes).drop (position / 4) = [] := by
      rw [drop_eq_nil_iff, toWords_length, atEnd]
    rw [nothing, toWords_take, drop_eq_nil_of_le (by omega)]
    rfl

theorem AtWord.after_fread :
    AtWord bytes (position + ((bytes.drop position).take (4 * count)).length)
      (place + min count ((toWords bytes).length - place)) := by
  obtain ⟨rfl, aligned⟩ := atWord
  rw [AtWord, toWords_length, length_take, length_drop]
  omega

end

/-! ## The cases of `ReadWords` -/

section

variable {self : GcovVar} {file : File} {words : Unsigned}

theorem readWords_inside (opened : self.file = some file)
    (enough : ¬self.length - self.offset < words) :
    self.ReadWords words = (some ((self.buffer.drop self.offset.toNat).take words.toNat),
      { self with offset := self.offset + words }) := by
  unfold GcovVar.ReadWords
  rw [opened]
  simp only [enough, decide_false, Bool.false_eq_true, if_false, false_and, opened]

section

variable (opened : self.file = some file) (short : self.length - self.offset < words)
include opened short

theorem readWords_refilled (enough : ¬(self.refill file words).length < words) :
    self.ReadWords words =
      (some (((self.refill file words).buffer.drop (self.refill file words).offset.toNat).take
          words.toNat),
        { self.refill file words with offset := (self.refill file words).offset + words }) := by
  unfold GcovVar.ReadWords
  rw [opened]
  simp only [short, decide_true, if_true, enough, and_false, if_false]

theorem readWords_past (past : (self.refill file words).length < words) :
    self.ReadWords words = (none,
      { self.refill file words with
        overread := (self.refill file words).overread + (words - (self.refill file words).length)
        length := 0
        buffer := [] }) := by
  unfold GcovVar.ReadWords
  rw [opened]
  simp only [short, decide_true, if_true, past, and_true]

end

end

/-! ## The window that a reader shows -/

/-- The words of the buffer. -/
def BLOCK : Nat := 2050

structure Shows (bytes : List UInt8) (endian : Bool) (reader : GcovVar) (window : Window) : Prop where
  file : ∃ position, reader.file = some ⟨bytes, position⟩ ∧ AtWord bytes position window.last
  start : reader.start = BitVec.ofNat 32 window.first
  offset : reader.offset.toNat = window.here - window.first
  length : reader.length.toNat = window.last - window.first
  buffer : reader.buffer = ((toWords bytes).drop window.first).take (window.last - window.first)
  alloc : reader.alloc = BLOCK ∨ reader.alloc = 0 ∧ window.last = window.first
  within : window.Within (toWords bytes).length
  short : window.last - window.first ≤ BLOCK
  error : reader.error = 0
  endian : reader.endian = endian

namespace Shows

variable {bytes : List UInt8} {endian : Bool} {reader : GcovVar} {window : Window}

section

variable (shows : Shows bytes endian reader window)
include shows

theorem position : reader.Position = BitVec.ofNat 32 window.here := by
  have offset := shows.offset
  have ordered := window.firstLe
  rw [GcovVar.Position, shows.start]
  apply BitVec.eq_of_toNat_eq
  rw [BitVec.toNat_add, offset, BitVec.toNat_ofNat, BitVec.toNat_ofNat]
  omega

theorem noError : reader.IsError = 0 := by
  obtain ⟨position, file, _⟩ := shows.file
  rw [GcovVar.IsError, file]
  exact shows.error

/-- The words that are left in the buffer. -/
theorem excess : (reader.length - reader.offset).toNat = window.last - window.here := by
  have offset := shows.offset
  have length := shows.length
  have ordered := window.firstLe
  have bounded := window.hereLe
  bv_omega

end

/-- A word that is in the buffer. -/
theorem take (shows : Shows bytes endian reader window) (inside : window.here < window.last) :
    reader.buffer[reader.offset.toNat]? = (toWords bytes)[window.here]? ∧
      Shows bytes endian { reader with offset := reader.offset + 1 } window.take := by
  have ordered := window.firstLe
  have short : window.last - window.first ≤ 2050 := shows.short
  constructor
  · rw [shows.buffer, shows.offset, List.getElem?_take_of_lt (by omega), List.getElem?_drop]
    congr 1
    omega
  · have offset := shows.offset
    have moved : (reader.offset + 1).toNat = window.here + 1 - window.first := by bv_omega
    rw [Window.take, dif_pos inside]
    exact ⟨shows.file, shows.start, moved, shows.length, shows.buffer, shows.alloc, shows.within,
      shows.short, shows.error, shows.endian⟩

/-- A used up buffer is filled with the next block. -/
theorem refill (shows : Shows bytes endian reader window) (usedUp : window.here = window.last)
    {position : Nat} (atWord : AtWord bytes position window.last) :
    Shows bytes endian (reader.refill ⟨bytes, position⟩ 1)
      (window.refill BLOCK (toWords bytes).length) := by
  have excess : reader.length - reader.offset = 0#32 := by
    have left := shows.excess
    bv_omega
  have alloc : (if (0#32 + 1).toNat > reader.alloc then GcovVar.Allocate reader.alloc (0#32 + 1)
      else reader.alloc) = BLOCK := by
    rcases shows.alloc with full | ⟨fresh, _⟩
    · rw [full]
      rfl
    · rw [fresh]
      rfl
  have start : reader.start + reader.offset = BitVec.ofNat 32 window.here := shows.position
  have room : ((BitVec.ofNat 32 BLOCK - 0#32) <<< 2).toNat = 4 * BLOCK := by decide
  have filled := atWord.toWords_fread BLOCK
  have moved := atWord.after_fread BLOCK
  rw [← usedUp] at filled moved
  have count : ((bytes.drop position).take (4 * BLOCK)).length >>> 2 =
      min BLOCK ((toWords bytes).length - window.here) := by
    rw [Nat.shiftRight_eq_div_pow]
    change _ / 4 = _
    rw [← toWords_length, filled, length_take, length_drop]
  have small : BLOCK = 2050 := rfl
  unfold GcovVar.refill
  dsimp only [File.fread]
  rw [excess, alloc, room, start, count, filled]
  constructor
  · exact ⟨_, rfl, moved⟩
  · rfl
  · change 0 = window.here - window.here
    omega
  · change (0#32 + BitVec.ofNat 32 (min BLOCK ((toWords bytes).length - window.here))).toNat =
      window.here + min BLOCK ((toWords bytes).length - window.here) - window.here
    rw [BitVec.zero_add, BitVec.toNat_ofNat]
    omega
  · change [] ++ _ = ((toWords bytes).drop window.here).take
      (window.here + min BLOCK ((toWords bytes).length - window.here) - window.here)
    rw [nil_append, Nat.add_sub_cancel_left, take_eq_take_iff, length_drop]
    omega
  · exact .inl rfl
  · exact Window.within_refill _ _ _
  · change window.here + min BLOCK ((toWords bytes).length - window.here) - window.here ≤ BLOCK
    omega
  · exact shows.error
  · exact shows.endian

section

variable (shows : Shows bytes endian reader window)
include shows

/-- Taking a word that is in the buffer, as `ReadUnsigned` does behind the checks of `ReadWords`. -/
theorem word_take (inside : window.here < window.last) :
    FromFile reader.endian (((reader.buffer.drop reader.offset.toNat).take 1).headD 0) =
      FromFile endian ((toWords bytes)[window.here]?.getD 0) := by
  have value := (shows.take inside).1
  rw [shows.endian, ← value, headD_eq_head?_getD, List.head?_take, if_neg Nat.one_ne_zero,
    List.head?_drop]

/-- A window behind the end of the file has nothing in it. -/
theorem past (usedUp : window.first = window.last) (atHere : window.here = window.last)
    (overread : Unsigned) :
    Shows bytes endian { reader with overread := overread, length := 0, buffer := [] } window.take := by
  have alone : window.take = window := by
    rw [Window.take, dif_neg (by omega)]
  have empty : window.last - window.first = 0 := by omega
  have buffer : [] = ((toWords bytes).drop window.first).take (window.last - window.first) := by
    rw [empty, take_zero]
  rw [alone]
  exact ⟨shows.file, shows.start, shows.offset, empty.symm, buffer, shows.alloc, shows.within,
    shows.short, shows.error, shows.endian⟩

/-- A word is the one at the place of the window; behind the end of the file it is zero. -/
theorem readUnsigned :
    reader.ReadUnsigned.1 = FromFile endian ((toWords bytes)[window.here]?.getD 0) ∧
      Shows bytes endian reader.ReadUnsigned.2 (window.next BLOCK (toWords bytes).length) := by
  obtain ⟨position, file, atWord⟩ := shows.file
  have left := shows.excess
  have bounded := window.hereLe
  unfold Window.next GcovVar.ReadUnsigned
  by_cases inside : window.here < window.last
  · have enough : ¬reader.length - reader.offset < 1 := by bv_omega
    rw [if_pos inside, readWords_inside file enough]
    exact ⟨shows.word_take inside, (shows.take inside).2⟩
  · have usedUp : window.here = window.last := by omega
    have short : reader.length - reader.offset < 1 := by bv_omega
    have refilled := shows.refill usedUp atWord
    have count : (reader.refill ⟨bytes, position⟩ 1).length.toNat =
        window.here + min 2050 ((toWords bytes).length - window.here) - window.here :=
      refilled.length
    rw [if_neg inside]
    by_cases more : window.here < (toWords bytes).length
    · have filled : (window.refill BLOCK (toWords bytes).length).here <
          (window.refill BLOCK (toWords bytes).length).last := by
        change window.here < window.here + min 2050 ((toWords bytes).length - window.here)
        omega
      have enough : ¬(reader.refill ⟨bytes, position⟩ 1).length < 1 := by bv_omega
      rw [readWords_refilled file short enough]
      exact ⟨refilled.word_take filled, (refilled.take filled).2⟩
    · have past : (reader.refill ⟨bytes, position⟩ 1).length < 1 := by bv_omega
      have none : (toWords bytes)[window.here]? = none := by
        rw [List.getElem?_eq_none_iff]
        omega
      rw [readWords_past file short past, none]
      have zero : FromFile endian 0 = 0 := by cases endian <;> decide
      refine ⟨zero.symm, ?_⟩
      have usedUp : (window.refill BLOCK (toWords bytes).length).here =
          (window.refill BLOCK (toWords bytes).length).last := by
        change window.here = window.here + min 2050 ((toWords bytes).length - window.here)
        omega
      exact refilled.past usedUp usedUp _

end

end Shows

/-! ## `Sync` -/

/-- The window after `Sync` to a place: another place of the same stretch, or none, the offset in bytes
having 32 bits. -/
def syncTo (target : Unsigned) (window : Window) : Window :=
  if inside : (target - BitVec.ofNat 32 window.first).toNat ≤ window.last - window.first then
    window.move (target - BitVec.ofNat 32 window.first).toNat inside
  else Window.emptyAt (target.toNat % 2 ^ 30)

/-- A reader that stands at the place of a word and has nothing in its buffer. -/
theorem shows_seek {bytes : List UInt8} {endian : Bool} {reader : GcovVar} (place : Nat)
    (alloc : reader.alloc = BLOCK ∨ reader.alloc = 0) (error : reader.error = 0)
    (order : reader.endian = endian) :
    Shows bytes endian
      { reader with
        offset := 0
        length := 0
        buffer := []
        file := some ⟨bytes, 4 * place⟩
        start := BitVec.ofNat 32 place }
      (Window.emptyAt place) where
  file := ⟨_, rfl, Nat.mul_div_cancel_left place (by decide), .inl (Nat.mul_mod_right 4 place)⟩
  start := rfl
  offset := (Nat.sub_self place).symm
  length := (Nat.sub_self place).symm
  buffer := by
    change [] = List.take (place - place) _
    rw [Nat.sub_self, take_zero]
  alloc := alloc.imp_right fun fresh => ⟨fresh, rfl⟩
  within := Window.within_emptyAt _ place
  short := (Nat.sub_self place).symm ▸ Nat.zero_le _
  error := error
  endian := order

theorem Shows.sync {bytes : List UInt8} {endian : Bool} {reader : GcovVar} {window : Window}
    (shows : Shows bytes endian reader window) (base length : Unsigned) :
    Shows bytes endian (reader.Sync base length) (syncTo (base + length) window) := by
  obtain ⟨position, file, atWord⟩ := shows.file
  have start := shows.start
  have count := shows.length
  unfold GcovVar.Sync syncTo
  rw [file]
  dsimp only
  rw [← start]
  by_cases inside : base + length - reader.start ≤ reader.length
  · have distance : (base + length - reader.start).toNat ≤ window.last - window.first := by
      rw [← count]
      exact inside
    rw [if_pos inside, dif_pos distance]
    have moved : (base + length - reader.start).toNat =
        window.first + (base + length - reader.start).toNat - window.first := by omega
    exact ⟨⟨position, rfl, atWord⟩, shows.start, moved, shows.length, shows.buffer, shows.alloc,
      shows.within, shows.short, shows.error, shows.endian⟩
  · have distance : ¬(base + length - reader.start).toNat ≤ window.last - window.first := by
      rw [← count]
      exact inside
    have offset : ((base + length) <<< 2).toNat = 4 * ((base + length).toNat % 2 ^ 30) := by
      rw [BitVec.toNat_shiftLeft, Nat.shiftLeft_eq]
      omega
    have words : (4 * ((base + length).toNat % 2 ^ 30)) >>> 2 = (base + length).toNat % 2 ^ 30 := by
      rw [Nat.shiftRight_eq_div_pow]
      omega
    rw [if_neg inside, dif_neg distance]
    dsimp only [File.fseek]
    rw [offset, words]
    exact shows_seek _ (shows.alloc.imp_right And.left) shows.error shows.endian

end Vts.RawCoverage
