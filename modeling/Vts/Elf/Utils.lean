import Mathlib.Data.Nat.Bitwise
import Mathlib.Tactic.LinearCombination
import Mathlib.Tactic.Ring
import Vts.Lib.Sleb128

/-!
# Decoding of SLEB128 words

The function `DecodeSLEB128` of `utils/python/library/elf/utils.py`. It reads one
word and fails with an `IndexError`, here `none`, when the data ends before a byte
without the continuation bit.
-/

namespace Vts.Elf

open Lib.Sleb128

/-- The loop of `DecodeSLEB128` over the bytes from the cursor on: the value, the
shift and the number of bytes so far are its state. -/
def decodeLoop : Nat → Nat → Nat → List UInt8 → Option (Int × Nat)
  | _, _, _, [] => none
  | value, shift, num, byte :: rest =>
    let value := value ||| ((byte.toNat &&& 0x7F) <<< shift)
    let shift := shift + 7
    if byte.toNat &&& 0x80 = 0 then
      -- `value | (-1) << shift`: all bits of the value are below the shift
      if byte.toNat &&& 0x40 ≠ 0 then some ((value : Int) - 2 ^ shift, num + 1)
      else some ((value : Int), num + 1)
    else decodeLoop value shift (num + 1) rest

/-- `DecodeSLEB128`: the value and the number of bytes consumed. -/
def decodeSLEB128 (data : List UInt8) (beginOffset : Nat) : Option (Int × Nat) :=
  decodeLoop 0 0 0 (data.drop beginOffset)

/-! ## Bits of a byte -/

section

variable {value shift : Nat} {bytes : List UInt8} {num : Nat} (n : Nat)

theorem and_0x7F : n &&& 0x7F = n % 128 := Nat.and_two_pow_sub_one_eq_mod n 7

theorem and_two_pow_eq_zero_iff (bit : Nat) : n &&& 2 ^ bit = 0 ↔ n / 2 ^ bit % 2 = 0 := by
  rw [Nat.and_two_pow, Nat.testBit_eq_decide_div_mod_eq]
  have positive : 0 < 2 ^ bit := Nat.two_pow_pos bit
  rcases Nat.mod_two_eq_zero_or_one (n / 2 ^ bit) with even | odd
  · simp [even]
  · simp [odd]

theorem and_0x80_eq_zero_iff {n : Nat} (byte : n < 256) : n &&& 0x80 = 0 ↔ n < 128 := by
  have bit := and_two_pow_eq_zero_iff n 7
  norm_num at bit
  omega

theorem and_0x40_eq_zero_iff : n &&& 0x40 = 0 ↔ n % 128 < 64 := by
  have bit := and_two_pow_eq_zero_iff n 6
  norm_num at bit
  omega

/-- New bits above the old ones are added to them. -/
theorem or_shiftLeft (below : value < 2 ^ shift) (bits : Nat) :
    value ||| (bits <<< shift) = value + bits * 2 ^ shift := by
  rw [Nat.or_comm, ← Nat.shiftLeft_add_eq_or_of_lt below, Nat.shiftLeft_eq, Nat.add_comm]

/-- Seven more bits stay below the next shift. -/
theorem bits_below (below : value < 2 ^ shift) (n : Nat) :
    value + n % 128 * 2 ^ shift < 2 ^ (shift + 7) := by
  have bits : n % 128 ≤ 127 := by omega
  have scaled := Nat.mul_le_mul_right (2 ^ shift) bits
  rw [Nat.pow_add]
  omega

/-- The loop on an encoding: the encoded value is added above the bits read so far. -/
theorem decodeLoop_encodes {word : List UInt8} {encoded : Int} (encodes : Encodes encoded word)
    (below : value < 2 ^ shift) (num : Nat) (rest : List UInt8) :
    decodeLoop value shift num (word ++ rest) =
      some (value + encoded * 2 ^ shift, num + word.length) := by
  induction encodes generalizing value shift num with
  | @last encoded low high =>
    have bits := lowBits_toNat encoded
    have byte : (lowBits encoded).toNat < 256 := (lowBits encoded).toNat_lt
    rw [List.singleton_append, decodeLoop]
    have stops : (lowBits encoded).toNat &&& 0x80 = 0 :=
      (and_0x80_eq_zero_iff byte).mpr (by omega)
    simp only [stops, ↓reduceIte, and_0x7F, or_shiftLeft below]
    by_cases positive : 0 ≤ encoded
    · have clear : (lowBits encoded).toNat &&& 0x40 = 0 :=
        (and_0x40_eq_zero_iff _).mpr (by omega)
      have same : (((lowBits encoded).toNat % 128 : Nat) : Int) = encoded := by omega
      simp only [clear, ne_eq, not_true_eq_false, ↓reduceIte, List.length_singleton,
        Option.some.injEq, Prod.mk.injEq, and_true]
      push_cast at same ⊢
      rw [same]
    · have set : (lowBits encoded).toNat &&& 0x40 ≠ 0 :=
        (and_0x40_eq_zero_iff _).not.mpr (by omega)
      have same : (((lowBits encoded).toNat % 128 : Nat) : Int) = encoded + 128 := by omega
      simp only [set, ne_eq, not_false_eq_true, ↓reduceIte, List.length_singleton,
        Option.some.injEq, Prod.mk.injEq, and_true]
      push_cast at same ⊢
      rw [same, pow_add]
      ring
  | @more encoded word later ih =>
    have bits := continued_toNat encoded
    have byte : (continued encoded).toNat < 256 := (continued encoded).toNat_lt
    rw [List.cons_append, decodeLoop]
    have goesOn : (continued encoded).toNat &&& 0x80 ≠ 0 :=
      (and_0x80_eq_zero_iff byte).not.mpr (by omega)
    simp only [goesOn, ↓reduceIte, and_0x7F, or_shiftLeft below]
    rw [ih (bits_below below _) (num + 1)]
    have same : (((continued encoded).toNat % 128 : Nat) : Int) = encoded % 128 := by omega
    have split : encoded = encoded % 128 + 128 * (encoded / 128) := (Int.emod_add_mul_ediv _ _).symm
    simp only [List.length_cons, Option.some.injEq, Prod.mk.injEq]
    refine ⟨?_, by omega⟩
    push_cast at same ⊢
    rw [same, pow_add]
    linear_combination (-(2 : Int) ^ shift) * split

/-- Every decoded word has at least one byte. -/
theorem decodeLoop_num_lt {last : Nat} {decoded : Int}
    (ran : decodeLoop value shift num bytes = some (decoded, last)) : num < last := by
  induction bytes generalizing value shift num with
  | nil => cases ran
  | cons byte rest ih =>
    simp only [decodeLoop] at ran
    split at ran
    · split at ran <;> cases ran <;> omega
    · have later := ih ran
      omega

/-- The loop runs past the end of the data if every byte is continued. -/
theorem decodeLoop_eq_none_iff :
    decodeLoop value shift num bytes = none ↔ ∀ byte ∈ bytes, byte.toNat &&& 0x80 ≠ 0 := by
  induction bytes generalizing value shift num with
  | nil => simp [decodeLoop]
  | cons byte rest ih =>
    rw [List.forall_mem_cons]
    by_cases last : byte.toNat &&& 0x80 = 0
    · rw [decodeLoop, if_pos last]
      split <;> simp [last]
    · simp only [decodeLoop, last, if_false, ih, ne_eq, not_false_eq_true, true_and]

end

/-- Every encoding is decoded wherever it stands, and decoding fails only where no byte ends a
word. -/
theorem decodeSLEB128_decodes :
    (∀ value word, Encodes value word → ∀ front rest : List UInt8,
      decodeSLEB128 (front ++ word ++ rest) front.length = some (value, word.length)) ∧
    ∀ (data : List UInt8) (beginOffset : Nat),
      decodeSLEB128 data beginOffset = none ↔
        ∀ byte ∈ data.drop beginOffset, byte.toNat &&& 0x80 ≠ 0 := by
  constructor
  · intro value word encodes front rest
    have decoded := decodeLoop_encodes encodes (Nat.two_pow_pos 0) 0 rest
    rw [decodeSLEB128, List.append_assoc, List.drop_left, decoded]
    simp
  · intro data beginOffset
    apply decodeLoop_eq_none_iff

end Vts.Elf
