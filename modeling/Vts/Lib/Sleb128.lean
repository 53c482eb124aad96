/-!
# Signed LEB128

Signed integers as groups of seven bits, least significant first. Every byte but
the last has its top bit set, and the last one carries the sign in its next bit.
An integer has one shortest encoding and longer ones that repeat the sign; all of
them satisfy `Encodes`.
-/

namespace Vts.Lib.Sleb128

/-- The byte with the seven low bits of an integer. -/
def lowBits (value : Int) : UInt8 := UInt8.ofNat (value % 128).toNat

/-- The same byte with the continuation bit. -/
def continued (value : Int) : UInt8 := UInt8.ofNat ((value % 128).toNat + 128)

/-- The byte strings that encode an integer: the shortest one and those padded with
sign-extension bytes. -/
inductive Encodes : Int → List UInt8 → Prop where
  | last {value : Int} (low : -64 ≤ value) (high : value < 64) : Encodes value [lowBits value]
  | more {value : Int} {rest : List UInt8} (later : Encodes (value / 128) rest) :
      Encodes value (continued value :: rest)

/-- The shortest encoding. -/
def encode (value : Int) : List UInt8 :=
  if -64 ≤ value ∧ value < 64 then [lowBits value]
  else continued value :: encode (value / 128)
termination_by value.natAbs
decreasing_by omega

theorem encode_encodes (value : Int) : Encodes value (encode value) := by
  induction value using encode.induct with
  | case1 value short =>
    rw [encode, if_pos short]
    exact .last short.1 short.2
  | case2 value long ih =>
    rw [encode, if_neg long]
    exact .more ih

theorem lowBits_toNat (value : Int) : ((lowBits value).toNat : Int) = value % 128 := by
  rw [lowBits, UInt8.toNat_ofNat']
  omega

theorem continued_toNat (value : Int) : ((continued value).toNat : Int) = value % 128 + 128 := by
  rw [continued, UInt8.toNat_ofNat']
  omega

/-- Encodings of a list of integers, one after the other. -/
inductive EncodesAll : List Int → List UInt8 → Prop where
  | nil : EncodesAll [] []
  | cons {value : Int} {values : List Int} {word rest : List UInt8} (first : Encodes value word)
      (others : EncodesAll values rest) : EncodesAll (value :: values) (word ++ rest)

/-- The shortest encoding of a list. -/
def encodeAll (values : List Int) : List UInt8 := values.flatMap encode

theorem encodeAll_encodes (values : List Int) : EncodesAll values (encodeAll values) := by
  induction values with
  | nil => exact .nil
  | cons value values ih =>
    exact .cons (encode_encodes value) ih

end Vts.Lib.Sleb128
