import Mathlib.Tactic.Ring

/-!
# Fixed-width words in either byte order

Unsigned words as byte strings. A little-endian word has its least significant
byte first and a big-endian word is the same bytes reversed. Encoding a value
that fits and decoding it again is the identity; decoding a word of one order in
the other order is the byte swap.
-/

namespace Vts.Lib.WordCodec

/-- The order of the bytes of a word. -/
inductive ByteOrder where
  | little
  | big
deriving DecidableEq, Inhabited

/-- The `width` low bytes of a number, least significant first. -/
def leBytes : Nat → Nat → List UInt8
  | 0, _ => []
  | width + 1, value => UInt8.ofNat (value % 256) :: leBytes width (value / 256)

/-- The number whose bytes, least significant first, are given. -/
def leValue : List UInt8 → Nat
  | [] => 0
  | byte :: rest => byte.toNat + 256 * leValue rest

/-- A word of the given width in the given byte order. -/
def toBytes (order : ByteOrder) (width value : Nat) : List UInt8 :=
  match order with
  | .little => leBytes width value
  | .big => (leBytes width value).reverse

/-- The value of a word in the given byte order. -/
def ofBytes (order : ByteOrder) (bytes : List UInt8) : Nat :=
  match order with
  | .little => leValue bytes
  | .big => leValue bytes.reverse

section

variable (order : ByteOrder) (width : Nat) (bytes : List UInt8) (value : Nat)

@[simp] theorem leBytes_length : (leBytes width value).length = width := by
  induction width generalizing value with
  | zero => rfl
  | succ width ih => simp [leBytes, ih]

@[simp] theorem toBytes_length : (toBytes order width value).length = width := by
  cases order <;> simp [toBytes]

theorem leValue_lt : leValue bytes < 256 ^ bytes.length := by
  induction bytes with
  | nil => simp [leValue]
  | cons byte rest ih =>
    have bound : byte.toNat < 256 := byte.toNat_lt
    rw [leValue, List.length_cons, pow_succ]
    omega

theorem ofBytes_lt : ofBytes order bytes < 256 ^ bytes.length := by
  cases order with
  | little => exact leValue_lt bytes
  | big => simpa [ofBytes] using leValue_lt bytes.reverse

/-- Decoding undoes encoding on values that fit the width. -/
theorem leValue_leBytes (fits : value < 256 ^ width) : leValue (leBytes width value) = value := by
  induction width generalizing value with
  | zero => simp at fits; simp [leBytes, leValue, fits]
  | succ width ih =>
    have smaller : value / 256 < 256 ^ width := by
      rw [pow_succ] at fits
      exact Nat.div_lt_of_lt_mul (by omega)
    have byte : (UInt8.ofNat (value % 256)).toNat = value % 256 := by simp
    rw [leBytes, leValue, ih _ smaller, byte]
    omega

/-- Encoding undoes decoding on every byte string. -/
theorem leBytes_leValue : leBytes bytes.length (leValue bytes) = bytes := by
  induction bytes with
  | nil => rfl
  | cons byte rest ih =>
    have bound : byte.toNat < 256 := byte.toNat_lt
    have low : (byte.toNat + 256 * leValue rest) % 256 = byte.toNat := by omega
    have high : (byte.toNat + 256 * leValue rest) / 256 = leValue rest := by omega
    rw [List.length_cons, leBytes, leValue, low, high, ih, UInt8.ofNat_toNat]

theorem ofBytes_toBytes (fits : value < 256 ^ width) :
    ofBytes order (toBytes order width value) = value := by
  cases order <;> simp [ofBytes, toBytes, leValue_leBytes width value fits]

theorem toBytes_ofBytes : toBytes order bytes.length (ofBytes order bytes) = bytes := by
  cases order with
  | little => exact leBytes_leValue bytes
  | big =>
    have reversed := leBytes_leValue bytes.reverse
    rw [List.length_reverse] at reversed
    simp [toBytes, ofBytes, reversed]

/-- The value read when a word is decoded in the order it was not written in. -/
def byteSwap (width value : Nat) : Nat := ofBytes .big (toBytes .little width value)

theorem ofBytes_little_toBytes_big :
    ofBytes .little (toBytes .big width value) = byteSwap width value := by
  simp [byteSwap, ofBytes, toBytes]

theorem byteSwap_byteSwap (fits : value < 256 ^ width) :
    byteSwap width (byteSwap width value) = value := by
  have written := toBytes_ofBytes .little (toBytes .big width value)
  rw [toBytes_length, ofBytes_little_toBytes_big] at written
  rw [byteSwap, written, ofBytes_toBytes .big width value fits]

end

end Vts.Lib.WordCodec
