import Vts.Coverage.Stream

/-!
# The gcov file format

What a writer of gcov files puts into the stream: words in one byte order, strings
as a number of words followed by the characters and one to four NULs, and records
as a tag, the number of payload words and the payload. Each reader of `parser.py`
takes back what was written and leaves the bytes after it.
-/

namespace Vts.Coverage

open Lib Lib.WordCodec List ByteReader
open Python (Exception)

/-- A word of the file. -/
def word (order : ByteOrder) (value : Nat) : List UInt8 := toBytes order 4 value

/-- The number of words of a string, with at least one NUL. -/
def stringWords (text : List UInt8) : Nat := text.length / 4 + 1

/-- A string of the file: its characters stay in byte order. -/
def stringBytes (order : ByteOrder) (text : List UInt8) : List UInt8 :=
  word order (stringWords text) ++ (text ++ List.replicate (4 - text.length % 4) 0)

/-- A record: the length word counts the words of the payload. -/
def record (order : ByteOrder) (tag : Nat) (payload : List UInt8) : List UInt8 :=
  word order tag ++ (word order (payload.length / 4) ++ payload)

/-- The words of a list in order. -/
def words (order : ByteOrder) (values : List Nat) : List UInt8 := values.flatMap (word order)

variable (order : ByteOrder) (known : Nat → Bool) (value : Nat) (rest : List UInt8)

@[simp] theorem word_length : (word order value).length = 4 := by
  simp [word]

@[simp] theorem words_nil : words order [] = [] := rfl

@[simp] theorem words_cons (rest : List Nat) :
    words order (value :: rest) = word order value ++ words order rest := rfl

@[simp] theorem words_append (left right : List Nat) :
    words order (left ++ right) = words order left ++ words order right := by
  simp [words]

@[simp] theorem words_length (values : List Nat) :
    (words order values).length = 4 * values.length := by
  induction values with
  | nil => rfl
  | cons value rest ih =>
    simp only [words_cons, length_append, word_length, length_cons, ih]
    omega

@[simp] theorem stringBytes_length (text : List UInt8) :
    (stringBytes order text).length = 4 * (stringWords text + 1) := by
  simp only [stringBytes, length_append, word_length, length_replicate, stringWords]
  omega

/-- A string that a word can announce: no NUL inside, and not too long. -/
structure GcovString (text : List UInt8) : Prop where
  nulFree : (0 : UInt8) ∉ text
  fits : stringWords text < 2 ^ 32

instance (text : List UInt8) : Decidable (GcovString text) :=
  decidable_of_iff ((0 : UInt8) ∉ text ∧ stringWords text < 2 ^ 32)
    ⟨fun ⟨nulFree, fits⟩ => ⟨nulFree, fits⟩, fun valid => ⟨valid.nulFree, valid.fits⟩⟩

/-- Four bytes in front of the stream are read as one word. -/
theorem readInt_append (bytes rest : List UInt8) (four : bytes.length = 4) :
    readInt order (bytes ++ rest) = .ok (ofBytes order bytes, rest) := by
  match bytes, four with
  | [b0, b1, b2, b3], _ => rfl

theorem readInt_word (fits : value < 2 ^ 32) :
    readInt order (word order value ++ rest) = .ok (value, rest) := by
  rw [readInt_append order _ rest (word_length order value), word,
    ofBytes_toBytes order 4 value (by omega)]

/-- A word read in the other byte order comes out swapped. -/
theorem readInt_little_big :
    readInt .little (word .big value ++ rest) = .ok (byteSwap 4 value, rest) := by
  rw [readInt_append .little _ rest (word_length .big value), word, ofBytes_little_toBytes_big]

theorem readInt64_words (fits : value < 2 ^ 64) :
    readInt64 order (word order (value % 2 ^ 32) ++ (word order (value / 2 ^ 32) ++ rest)) =
      .ok (value, rest) := by
  rw [readInt64, bind_ok (readInt_word order _ _ (Nat.mod_lt _ (by decide))),
    bind_ok (readInt_word order _ _ (by omega)), pure_run]
  have split : (value / 2 ^ 32) <<< 32 ||| value % 2 ^ 32 = value := by
    rw [Nat.shiftLeft_eq, Nat.mul_comm, ← Nat.two_pow_add_eq_or_of_lt (Nat.mod_lt _ (by decide))]
    exact Nat.div_add_mod value (2 ^ 32)
  rw [split]

theorem rstripNul_padded (text : List UInt8) (count : Nat) (nulFree : (0 : UInt8) ∉ text) :
    rstripNul (text ++ List.replicate count 0) = text := by
  have keeps : text.reverse.dropWhile (· == 0) = text.reverse := by
    cases reversed : text.reverse with
    | nil => rfl
    | cons last others =>
      have member : last ∈ text := mem_reverse.mp (by simp [reversed])
      have nonzero : last ≠ 0 := fun zero => nulFree (zero ▸ member)
      simp [List.dropWhile, beq_eq_false_iff_ne.mpr nonzero]
  rw [rstripNul, reverse_append, reverse_replicate,
    dropWhile_append_of_pos (by simp), keeps, reverse_reverse]

theorem readString_stringBytes (text rest : List UInt8) (valid : GcovString text) :
    readString order (stringBytes order text ++ rest) = .ok (text, rest) := by
  have nonempty : 0 < stringWords text <<< 2 := by
    rw [Nat.shiftLeft_eq, stringWords]
    omega
  have length : (text ++ List.replicate (4 - text.length % 4) (0 : UInt8)).length =
      stringWords text <<< 2 := by
    rw [Nat.shiftLeft_eq, length_append, length_replicate, stringWords]
    omega
  rw [readString, stringBytes, append_assoc,
    bind_ok (readInt_word order _ _ valid.fits)]
  simp only [if_pos nonempty]
  have chars : readChars (stringWords text <<< 2) corruptFile
      ((text ++ List.replicate (4 - text.length % 4) 0) ++ rest) =
        .ok (text ++ List.replicate (4 - text.length % 4) 0, rest) := by
    rw [readChars, if_pos (by rw [length_append, length]; omega), take_left' length,
      drop_left' length]
  rw [bind_ok chars, pure_run, rstripNul_padded text _ valid.nulFree]

/-- A string is cut off when the stream is shorter than its announced length. -/
theorem readString_short (count : Nat) (rest : List UInt8) (fits : count < 2 ^ 32)
    (short : rest.length < 4 * count) :
    readString order (word order count ++ rest) = .error corruptFile := by
  have length : count <<< 2 = 4 * count := by
    rw [Nat.shiftLeft_eq]
    omega
  rw [readString, bind_ok (readInt_word order count rest fits)]
  simp only [length, if_pos (show 4 * count > 0 by omega)]
  rw [bind_error (by rw [readChars, if_neg (by omega)])]

theorem readTag_word (fits : value < 2 ^ 32) :
    readTag order known (word order value ++ rest) =
      if known value then .ok (value, rest) else readTag order known rest := by
  rw [readTag_eq, readInt_word order value rest fits]

theorem readHeader_record (tag : Nat) (payload rest : List UInt8) (isKnown : known tag = true)
    (tagFits : tag < 2 ^ 32) (lengthFits : payload.length / 4 < 2 ^ 32) :
    readHeader order known (record order tag payload ++ rest) =
      .ok ((tag, payload.length / 4), payload ++ rest) := by
  rw [readHeader, record, append_assoc, append_assoc]
  rw [bind_ok (by rw [readTag_word order known tag _ tagFits, if_pos isKnown]),
    bind_ok (readInt_word order _ _ lengthFits), pure_run]

/-- A word that is no tag is skipped by the search for a record. -/
theorem readHeader_skip (fits : value < 2 ^ 32) (unknown : known value = false) :
    readHeader order known (word order value ++ rest) = readHeader order known rest := by
  unfold readHeader
  rw [bind_run, bind_run, readTag_word order known value rest fits, unknown]
  rfl

/-- At the end of the stream there is no further record. -/
theorem readHeader_nil :
    readHeader order known [] = .error corruptFile := rfl

/-! ## The file header -/

/-- The version is written as a word, so its characters are reversed in the other
byte order. -/
def versionBytes (order : ByteOrder) (version : List UInt8) : List UInt8 :=
  match order with
  | .little => version
  | .big => version.reverse

/-- A gcov file: magic word, version, checksum and records. -/
def gcovFile (order : ByteOrder) (magic : Nat) (version : List UInt8) (checksum : Nat)
    (body : List UInt8) : List UInt8 :=
  word order magic ++ (versionBytes order version ++ (word order checksum ++ body))

/-- What the constructor keeps of a checksum that was written in the given order. -/
def storedChecksum (order : ByteOrder) (checksum : Nat) : Nat :=
  match order with
  | .little => checksum
  | .big => byteSwap 4 checksum

/-- The constructor finds the byte order, but has read the version and the checksum
little-endian before. -/
theorem GcovStream.init_gcovFile (magic : Nat) (version : List UInt8) (checksum : Nat)
    (body : List UInt8) (magicFits : magic < 2 ^ 32) (oneOrder : byteSwap 4 magic ≠ magic)
    (four : version.length = 4) (checksumFits : checksum < 2 ^ 32) :
    GcovStream.init magic (gcovFile order magic version checksum body) =
      .ok (⟨order, versionBytes order version, storedChecksum order checksum⟩, body) := by
  have chars (tail : List UInt8) : readChars 4 .structError (versionBytes order version ++ tail) =
      .ok (versionBytes order version, tail) := by
    have length : (versionBytes order version).length = 4 := by
      cases order <;> simpa [versionBytes] using four
    rw [readChars, if_pos (by rw [length_append]; omega), take_left' length,
      drop_left' length]
  unfold GcovStream.init gcovFile
  cases order with
  | little =>
    rw [bind_ok (readInt_word .little _ _ magicFits), bind_ok (chars _),
      bind_ok (readInt_word .little _ _ checksumFits)]
    simp [storedChecksum]
  | big =>
    rw [bind_ok (readInt_little_big magic _), bind_ok (chars _),
      bind_ok (readInt_little_big checksum _), if_pos oneOrder,
      if_pos (byteSwap_byteSwap 4 magic (by omega))]
    rfl

/-- The version digit decides whether a function has an extra checksum. -/
theorem GcovStream.versionAbove4_digit (self : GcovStream) (digit : Nat) (isDigit : digit < 10)
    (second : self.version.getD 1 0 = UInt8.ofNat (48 + digit)) :
    self.versionAbove4 = .ok (decide (digit > 4)) := by
  have character : ∀ digit < 10, (48 ≤ UInt8.ofNat (48 + digit) ∧ UInt8.ofNat (48 + digit) ≤ 57) ∧
      (UInt8.ofNat (48 + digit)).toNat - 48 = digit := by decide
  obtain ⟨range, value⟩ := character digit isDigit
  simp only [GcovStream.versionAbove4, second, if_pos range, value]

end Vts.Coverage
