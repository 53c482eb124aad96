import Mathlib.Algebra.Ring.Nat
import Mathlib.Data.List.DropRight

/-!
# Python byte strings

The operations of the Python 2 type `str` that the modelled code uses: slices,
`strip`, the conversion `int`, `split` and the decimal numerals that `str` gives
for a number. A byte string is a list of bytes; white space is that of the C
locale.
-/

namespace Vts.Python

open List

/-- A byte string, the Python 2 type `str`. -/
abbrev Text := List UInt8

instance : LawfulBEq Text := List.instLawfulBEq

/-! ## Slices -/

/-- A slice bound: negative bounds count from the end, and both ends are clamped. -/
def sliceBound (length : Nat) (bound : Int) : Nat :=
  if bound < 0 then (bound + length).toNat else min bound.toNat length

/-- `text[start:stop]`. -/
def slice (text : Text) (start stop : Int) : Text :=
  (text.drop (sliceBound text.length start)).take
    (sliceBound text.length stop - sliceBound text.length start)

variable {text : Text} (front rest : Text)

/-- A slice between two positions of the text. -/
theorem slice_append (piece rest : Text) :
    slice (front ++ (piece ++ rest)) front.length (front.length + piece.length) = piece := by
  have start :
      sliceBound (front ++ (piece ++ rest)).length (front.length : Int) = front.length := by
    rw [sliceBound, if_neg (by omega)]
    simp
  have stop : sliceBound (front ++ (piece ++ rest)).length
      ((front.length : Int) + piece.length) = front.length + piece.length := by
    rw [sliceBound, if_neg (by omega)]
    simp only [length_append]
    omega
  rw [slice, start, stop]
  simp

/-! ## White space -/

/-- The bytes that `isspace` accepts. -/
def isSpace (byte : UInt8) : Bool := byte == 32 || (9 ≤ byte && byte ≤ 13)

/-- `text.lstrip()`. -/
def lstrip (text : Text) : Text := text.dropWhile isSpace

/-- `text.rstrip()`. -/
def rstrip (text : Text) : Text := text.rdropWhile isSpace

/-- `text.strip()`. -/
def strip (text : Text) : Text := rstrip (lstrip text)

/-- `text` padded with spaces on the right to the given width. -/
def ljust (width : Nat) (text : Text) : Text := text ++ List.replicate (width - text.length) 32

theorem ljust_length {width : Nat} (fits : text.length ≤ width) :
    (ljust width text).length = width := by
  rw [ljust, length_append, length_replicate]
  omega

/-- A text whose first byte is no space is kept by `lstrip`. -/
theorem lstrip_eq_self (solid : ∀ byte ∈ text.head?, isSpace byte = false) :
    lstrip text = text := by
  cases text with
  | nil => rfl
  | cons byte rest => simp [lstrip, solid byte (by simp)]

theorem lstrip_length_le (text : Text) : (lstrip text).length ≤ text.length :=
  (dropWhile_sublist isSpace).length_le

/-- `lstrip` keeps the length only of a text it keeps. -/
theorem lstrip_eq_self_of_length (same : (lstrip text).length = text.length) : lstrip text = text :=
  (dropWhile_sublist isSpace).eq_of_length same

/-- A kept text does not begin with white space. -/
theorem lstrip_eq_self_iff (text : Text) :
    lstrip text = text ↔ ∀ byte ∈ text.head?, isSpace byte = false := by
  refine ⟨?_, lstrip_eq_self⟩
  intro kept byte first
  cases text with
  | nil => simp at first
  | cons head rest =>
    obtain rfl : head = byte := by simpa using first
    cases spacious : isSpace head with
    | false => rfl
    | true =>
      have dropped : lstrip (head :: rest) = lstrip rest := by simp [lstrip, spacious]
      have shorter := lstrip_length_le rest
      rw [← dropped, kept, length_cons] at shorter
      omega

section

variable {last byte : UInt8} (width value : Nat)

/-- Spaces after a solid last byte do not stop `lstrip` from seeing that byte. -/
theorem lstrip_append_solid (solid : isSpace last = false) :
    lstrip (front ++ last :: rest) = lstrip (front ++ [last]) ++ rest := by
  induction front with
  | nil => simp [lstrip, solid]
  | cons byte front ih =>
    by_cases spacious : isSpace byte
    · simpa [lstrip, spacious] using ih
    · simp [lstrip, spacious]

theorem lstrip_concat (solid : isSpace last = false) :
    lstrip (front ++ [last]) = lstrip front ++ [last] := by
  induction front with
  | nil => simp [lstrip, solid]
  | cons byte front ih =>
    by_cases spacious : isSpace byte
    · simpa [lstrip, spacious] using ih
    · simp [lstrip, spacious]

/-- Stripping a padded text whose last byte is solid removes the padding and the
leading white space. -/
theorem strip_ljust (front : Text) (solid : isSpace last = false) :
    strip (ljust width (front ++ [last])) = lstrip front ++ [last] := by
  have padding (count : Nat) (kept : Text) :
      rstrip (kept ++ [last] ++ List.replicate count 32) = kept ++ [last] := by
    induction count with
    | zero => simp [rstrip, solid]
    | succ count ih =>
      rw [replicate_succ', ← append_assoc]
      rw [rstrip, rdropWhile_concat_pos _ _ _ (by decide)]
      exact ih
  rw [strip, ljust, append_assoc, singleton_append,
    lstrip_append_solid front _ solid, lstrip_concat front solid]
  exact padding _ _

/-! ## Numerals -/

/-- The bytes `0` to `9`. -/
def isDigit (byte : UInt8) : Bool := 48 ≤ byte && byte ≤ 57

/-- The number that a run of digits stands for. -/
def digitsValue (digits : Text) : Nat :=
  digits.foldl (fun value digit => 10 * value + (digit.toNat - 48)) 0

/-- Digits up to the end of the text, white space after them ignored. -/
def unsignedInt (text : Text) : Option Nat :=
  let digits := text.takeWhile isDigit
  if digits = [] then none
  else if (text.dropWhile isDigit).all isSpace then some (digitsValue digits)
  else none

/-- The value of `int(text)`, if it has one. White space may also stand between the
sign and the digits. -/
def parseInt (text : Text) : Option Int :=
  match lstrip text with
  | 45 :: rest => (unsignedInt (lstrip rest)).map fun value => -(value : Int)
  | 43 :: rest => (unsignedInt (lstrip rest)).map Int.ofNat
  | unsigned => (unsignedInt unsigned).map Int.ofNat

/-- The decimal numeral of a number, `str(value)`. -/
def decimal (value : Nat) : Text := (Nat.toDigits 10 value).map fun digit => UInt8.ofNat digit.toNat

/-- The bytes of a decimal digit. -/
theorem digit_toNat {digit : Char} (isDigit : digit.isDigit) :
    48 ≤ digit.toNat ∧ digit.toNat ≤ 57 ∧ (UInt8.ofNat digit.toNat).toNat = digit.toNat := by
  simp only [Char.isDigit, Bool.and_eq_true, decide_eq_true_eq] at isDigit
  have low : 48 ≤ digit.toNat := by simpa [UInt32.le_iff_toNat_le] using isDigit.1
  have high : digit.toNat ≤ 57 := by simpa [UInt32.le_iff_toNat_le] using isDigit.2
  refine ⟨low, high, ?_⟩
  rw [UInt8.toNat_ofNat']
  omega

theorem isDigit_of_mem_decimal {value : Nat} (listed : byte ∈ decimal value) : isDigit byte := by
  obtain ⟨digit, member, rfl⟩ := mem_map.mp listed
  obtain ⟨low, high, exact⟩ :=
    digit_toNat (Nat.isDigit_of_mem_toDigits (by decide) (by decide) member)
  simp only [isDigit, Bool.and_eq_true, decide_eq_true_eq, UInt8.le_iff_toNat_le, exact]
  exact ⟨low, high⟩

theorem isSpace_of_isDigit (digit : isDigit byte) : isSpace byte = false := by
  simp only [isDigit, Bool.and_eq_true, decide_eq_true_eq, UInt8.le_iff_toNat_le] at digit
  simp only [isSpace, Bool.or_eq_false_iff, Bool.and_eq_false_iff, beq_eq_false_iff_ne,
    decide_eq_false_iff_not, UInt8.le_iff_toNat_le, ne_eq, ← UInt8.toNat_inj]
  have low : (48 : UInt8).toNat = 48 := rfl
  have space : (32 : UInt8).toNat = 32 := rfl
  have last : (13 : UInt8).toNat = 13 := rfl
  omega

theorem decimal_ne_nil : decimal value ≠ [] := by
  simp [decimal, Nat.toDigits_ne_nil]

theorem decimal_length_le {value width : Nat} (positive : 0 < width) (fits : value < 10 ^ width) :
    (decimal value).length ≤ width := by
  rw [decimal, length_map]
  exact (Nat.length_toDigits_le_iff (by decide) positive).mpr fits

/-- The numeral of a number stands for that number. -/
theorem digitsValue_decimal : digitsValue (decimal value) = value := by
  have general (digits : List Char) (all : ∀ digit ∈ digits, digit.isDigit) (initial : Nat) :
      (digits.map fun digit => UInt8.ofNat digit.toNat).foldl
          (fun value digit => 10 * value + (digit.toNat - 48)) initial =
        Nat.ofDigitChars 10 digits initial := by
    induction digits generalizing initial with
    | nil => simp
    | cons digit digits ih =>
      have exact := (digit_toNat (all digit (by simp))).2.2
      rw [map_cons, foldl_cons, exact, Nat.ofDigitChars_cons]
      exact ih (fun other member => all other (by simp [member])) _
  rw [digitsValue, decimal, general _ (fun digit member =>
    Nat.isDigit_of_mem_toDigits (by decide) (by decide) member), Nat.ofDigitChars_ten_toDigits]

theorem decimal_injective : Function.Injective decimal := fun first second same => by
  rw [← digitsValue_decimal first, same, digitsValue_decimal]

/-- `int` undoes `str`, also when spaces follow the numeral. -/
theorem parseInt_decimal_spaces (count : Nat) :
    parseInt (decimal value ++ List.replicate count 32) = some (value : Int) := by
  have digits (byte : UInt8) (listed : byte ∈ decimal value) : isDigit byte :=
    isDigit_of_mem_decimal listed
  have taken : (decimal value ++ List.replicate count 32).takeWhile isDigit = decimal value := by
    rw [takeWhile_append_of_pos digits, takeWhile_replicate]
    simp [isDigit]
  have left : (decimal value ++ List.replicate count 32).dropWhile isDigit =
      List.replicate count 32 := by
    rw [dropWhile_append_of_pos digits, dropWhile_replicate]
    simp [isDigit]
  have read : unsignedInt (decimal value ++ List.replicate count 32) = some value := by
    simp [unsignedInt, taken, left, decimal_ne_nil, digitsValue_decimal, isSpace]
  obtain ⟨first, rest, shape⟩ := exists_cons_of_ne_nil (decimal_ne_nil value)
  have firstDigit : isDigit first := digits first (by simp [shape])
  have kept : lstrip (decimal value ++ List.replicate count 32) =
      decimal value ++ List.replicate count 32 := by
    apply lstrip_eq_self
    intro byte head
    rw [shape] at head
    obtain rfl : first = byte := by simpa using head
    exact isSpace_of_isDigit firstDigit
  have noMinus : first ≠ 45 := by rintro rfl; simp [isDigit] at firstDigit
  have noPlus : first ≠ 43 := by rintro rfl; simp [isDigit] at firstDigit
  rw [parseInt, kept]
  rw [shape] at read ⊢
  simp only [cons_append] at read ⊢
  split
  next rest' equal => exact absurd (List.cons.inj equal).1 noMinus
  next rest' equal => exact absurd (List.cons.inj equal).1 noPlus
  next => simp [read]

theorem parseInt_decimal : parseInt (decimal value) = some (value : Int) := by
  simpa using parseInt_decimal_spaces value 0

theorem parseInt_ljust_decimal : parseInt (ljust width (decimal value)) = some (value : Int) :=
  parseInt_decimal_spaces value _

end

/-! ## Splitting -/

/-- The pieces of a text; `skipped` bytes of a separator are still to be passed and
`current` is the piece read so far. -/
def splitFrom (separator : Text) : Nat → Text → Text → List Text
  | _, current, [] => [current]
  | skipped + 1, current, _ :: rest => splitFrom separator skipped current rest
  | 0, current, byte :: rest =>
    if separator.isPrefixOf (byte :: rest) then
      current :: splitFrom separator (separator.length - 1) [] rest
    else splitFrom separator 0 (current ++ [byte]) rest

/-- `text.split(separator)`. -/
def split (separator text : Text) : List Text := splitFrom separator 0 [] text

/-- `text.rsplit(separator, 1)` for a separator of one byte: what stands before and
after its last occurrence. Without one, the list that Python returns has one item. -/
def rsplitOnce (separator : UInt8) (text : Text) : Option (Text × Text) :=
  if separator ∈ text then
    some (((text.reverse.dropWhile (· != separator)).drop 1).reverse,
      (text.reverse.takeWhile (· != separator)).reverse)
  else none

/-- The length of a list of pieces with a separator after each of them. -/
def span (separator : Text) (pieces : List Text) : Nat :=
  (pieces.map fun piece => piece.length + separator.length).sum

theorem split_ne_nil (separator text : Text) : split separator text ≠ [] := by
  have general (skipped : Nat) (current : Text) :
      splitFrom separator skipped current text ≠ [] := by
    induction text generalizing skipped current with
    | nil => simp [splitFrom]
    | cons byte rest ih =>
      cases skipped with
      | succ skipped => exact ih skipped current
      | zero =>
        rw [splitFrom]
        split
        · simp
        · exact ih 0 _
  exact general 0 []

/-- The first piece, which every split has. -/
def firstPiece (separator text : Text) : Text :=
  (split separator text).head (split_ne_nil separator text)

section OneByte

variable {separator : UInt8}

theorem splitFrom_append_byte (current : Text) :
    splitFrom [separator] 0 current (front ++ separator :: rest) =
      splitFrom [separator] 0 current front ++ split [separator] rest := by
  induction front generalizing current with
  | nil => simp [splitFrom, split]
  | cons byte front ih =>
    have first (tail : Text) : [separator].isPrefixOf (byte :: tail) = (separator == byte) := by
      simp [List.isPrefixOf]
    rw [cons_append, splitFrom, splitFrom, first, first, ih]
    split
    · rw [length_singleton, Nat.sub_self, ih]
      rfl
    · rfl

/-- A text is split at each occurrence of a separator of one byte. -/
theorem split_append_byte :
    split [separator] (front ++ separator :: rest) =
      split [separator] front ++ split [separator] rest :=
  splitFrom_append_byte front rest []

theorem splitFrom_of_not_mem (text current : Text) (absent : separator ∉ text) :
    splitFrom [separator] 0 current text = [current ++ text] := by
  induction text generalizing current with
  | nil => rw [splitFrom, append_nil]
  | cons byte rest ih =>
    obtain ⟨other, restAbsent⟩ := not_or.mp (mem_cons.not.mp absent)
    rw [splitFrom, if_neg (by simpa using other), ih _ restAbsent]
    simp

theorem split_of_not_mem (absent : separator ∉ text) :
    split [separator] text = [text] := splitFrom_of_not_mem text [] absent

end OneByte

section TwoBytes

variable {first second : UInt8}

/-- A separator of two different bytes cannot straddle the border before another
separator, so a separator splits the text into two independent parts. -/
theorem splitFrom_append (differ : first ≠ second) (front rest : Text) {skipped : Nat}
    (inside : skipped ≤ front.length) (current : Text) :
    splitFrom [first, second] skipped current (front ++ first :: second :: rest) =
      splitFrom [first, second] skipped current front ++ split [first, second] rest := by
  induction front generalizing skipped current with
  | nil =>
    obtain rfl : skipped = 0 := by simpa using inside
    simp [splitFrom, split]
  | cons byte front ih =>
    cases skipped with
    | succ skipped =>
      exact ih (by simpa using inside) current
    | zero =>
      have border : [first, second].isPrefixOf (byte :: (front ++ first :: second :: rest)) =
          [first, second].isPrefixOf (byte :: front) := by
        cases front with
        | nil => simp [List.isPrefixOf, Ne.symm differ]
        | cons other front => simp [List.isPrefixOf]
      rw [cons_append, splitFrom, splitFrom, border]
      split
      next found =>
        have longer : 1 ≤ front.length := by
          cases front with
          | nil => simp [List.isPrefixOf] at found
          | cons other front => simp
        simpa using ih longer []
      next => exact ih (Nat.zero_le _) _

theorem split_append (differ : first ≠ second) (front rest : Text) :
    split [first, second] (front ++ first :: second :: rest) =
      split [first, second] front ++ split [first, second] rest :=
  splitFrom_append differ front rest (Nat.zero_le _) []

/-- The pieces and their separators fill the text and one more separator. -/
theorem span_split (first second : UInt8) (text : Text) :
    span [first, second] (split [first, second] text) = text.length + 2 := by
  have general (skipped : Nat) (inside : skipped ≤ text.length) (current : Text) :
      span [first, second] (splitFrom [first, second] skipped current text) + skipped =
        current.length + text.length + 2 := by
    induction text generalizing skipped current with
    | nil =>
      obtain rfl : skipped = 0 := by simpa using inside
      simp [splitFrom, span]
    | cons byte rest ih =>
      cases skipped with
      | succ skipped =>
        have smaller := ih skipped (by simpa using inside) current
        rw [splitFrom, length_cons]
        omega
      | zero =>
        rw [splitFrom]
        split
        next found =>
          have longer : 1 ≤ rest.length := by
            cases rest with
            | nil => simp [List.isPrefixOf] at found
            | cons other rest => simp
          have smaller := ih 1 longer []
          simp only [span, map_cons, sum_cons, length_cons, length_nil,
            Nat.reduceAdd, Nat.add_one_sub_one] at smaller ⊢
          omega
        next =>
          have smaller := ih 0 (Nat.zero_le _) (current ++ [byte])
          simp only [length_append, length_cons, length_nil] at smaller ⊢
          omega
  simpa [split] using general 0 (Nat.zero_le _) []

theorem firstPiece_length_le (first second : UInt8) (text : Text) :
    (firstPiece [first, second] text).length ≤ text.length := by
  have total := span_split first second text
  rw [← cons_head_tail (split_ne_nil [first, second] text)] at total
  simp only [span, map_cons, sum_cons, length_cons, length_nil,
    Nat.reduceAdd] at total
  rw [firstPiece]
  omega

/-- A text without the separator is one piece. -/
theorem firstPiece_of_not_infix (absent : ¬[first, second] <:+: text) :
    firstPiece [first, second] text = text := by
  have general (current : Text) :
      splitFrom [first, second] 0 current text = [current ++ text] := by
    induction text generalizing current with
    | nil => simp [splitFrom]
    | cons byte rest ih =>
      have fresh : ¬[first, second] <+: byte :: rest := fun found => absent found.isInfix
      have later : ¬[first, second] <:+: rest := fun found =>
        absent (found.trans (suffix_cons byte rest).isInfix)
      rw [splitFrom, if_neg (by simpa using fresh), ih later]
      simp
  simp [firstPiece, split, general []]

/-- A text with the separator has a first piece that is shorter. -/
theorem firstPiece_length_lt (differ : first ≠ second) (found : [first, second] <:+: text) :
    (firstPiece [first, second] text).length < text.length := by
  obtain ⟨front, rest, rfl⟩ := found
  have same : firstPiece [first, second] (front ++ [first, second] ++ rest) =
      firstPiece [first, second] front := by
    have parts := split_append differ front rest
    simp only [firstPiece, append_assoc, cons_append, nil_append, parts,
      head_append_of_ne_nil (split_ne_nil [first, second] front)]
  have smaller := firstPiece_length_le first second front
  rw [same]
  simp only [length_append, length_cons]
  omega

end TwoBytes

end Vts.Python
