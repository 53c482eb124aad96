import Mathlib.Data.List.TakeWhile
import Vts.Coverage.GcnoCodec
import Vts.Coverage.Report

/-!
# LINES records with several source files

A LINES record of the gcov format switches between source files: a zero word and a
name start the lines of another file. `ReadLines` reads one name and takes every
word after it for a line number, and `GenerateLineCoverageVector` adds the count of
the block to the file of the function.

`readLines_attributes_iff` says for which records the lines still get their counts
under the files they are listed for. Nothing is assumed about the other blocks of
the function, apart from non-negative counts and positive line numbers.
-/

namespace Vts.Coverage

open Lib Lib.WordCodec List ByteReader
open Python (Exception)

/-- An entry of a LINES record: a line of the current source file, or the name of
the file of the lines after it. -/
inductive LinesEntry where
  | line (number : Nat)
  | file (name : List UInt8)
deriving DecidableEq

/-- A LINES record: a zero word and an empty string end its entries. -/
structure LinesRecord where
  block : Nat
  entries : List LinesEntry
deriving DecidableEq

/-- The characters of a string with its padding, as words. -/
def textWords (order : ByteOrder) : List UInt8 → List Nat
  | b0 :: b1 :: b2 :: b3 :: rest => ofBytes order [b0, b1, b2, b3] :: textWords order rest
  | _ => []

namespace LinesEntry

/-- The words of an entry. -/
def values (order : ByteOrder) : LinesEntry → List Nat
  | .line number => [number]
  | .file name => 0 :: stringWords name ::
      textWords order (name ++ List.replicate (4 - name.length % 4) 0)

/-- The entry is a line number. -/
def isLine : LinesEntry → Bool
  | .line _ => true
  | .file _ => false

/-- Line numbers are not zero, and names are strings of the format. -/
def Valid : LinesEntry → Prop
  | .line number => 0 < number ∧ number < 2 ^ 32
  | .file name => GcovString name

instance (entry : LinesEntry) : Decidable entry.Valid :=
  match entry with
  | .line number => inferInstanceAs (Decidable (0 < number ∧ number < 2 ^ 32))
  | .file name => inferInstanceAs (Decidable (GcovString name))

/-- The lines listed for a file by entries that follow the name of the current one. -/
def listedUnder (file : List UInt8) : Option (List UInt8) → List LinesEntry → List Nat
  | _, [] => []
  | current, .line number :: rest =>
    if current = some file then number :: listedUnder file current rest
    else listedUnder file current rest
  | _, .file name :: rest => listedUnder file (some name) rest

/-- The line numbers among some entries. -/
def numbers (entries : List LinesEntry) : List Nat :=
  entries.filterMap fun
    | .line number => some number
    | .file _ => none

/-- Apart from zeros, the words are the line numbers at the end of the entries. -/
def OnlyLines (entries : List LinesEntry) (values : List Nat) : Prop :=
  ∃ later before after, later <:+ entries ∧ (∀ entry ∈ later, entry.isLine = true) ∧
    values = List.replicate before 0 ++ (numbers later ++ List.replicate after 0)

/-- The words of some entries and of the end of the record. -/
def tail (order : ByteOrder) (entries : List LinesEntry) : List Nat :=
  entries.flatMap (values order) ++ [0, 0]

end LinesEntry

namespace LinesRecord

/-- What stands in the file after the header of the record. -/
def payload (order : ByteOrder) (record : LinesRecord) : List UInt8 :=
  words order (record.block :: LinesEntry.tail order record.entries)

/-- The lines that the record lists for a file. -/
def listedUnder (record : LinesRecord) (file : List UInt8) : List Nat :=
  LinesEntry.listedUnder file none record.entries

/-- Every number fits its word. -/
structure Valid (record : LinesRecord) : Prop where
  block : record.block < 2 ^ 32
  entries : ∀ entry ∈ record.entries, entry.Valid

end LinesRecord

/-! ## The words of a record -/

variable {entries : List LinesEntry} (order : ByteOrder)

section

variable (bytes name : List UInt8)

theorem words_textWords (whole : 4 ∣ bytes.length) :
    words order (textWords order bytes) = bytes := by
  induction bytes using textWords.induct with
  | case1 b0 b1 b2 b3 rest ih =>
    have restWhole : 4 ∣ rest.length := by
      simp only [length_cons] at whole
      omega
    have first := toBytes_ofBytes order [b0, b1, b2, b3]
    rw [textWords, words_cons, ih restWhole, word]
    exact congrArg (· ++ rest) first
  | case2 bytes short =>
    rcases bytes with _ | ⟨b0, _ | ⟨b1, _ | ⟨b2, _ | ⟨b3, rest⟩⟩⟩⟩
    · rfl
    all_goals
      simp only [length_cons, length_nil] at whole
      first
      | omega
      | exact absurd rfl (short b0 b1 b2 b3 rest)

theorem textWords_lt : ∀ value ∈ textWords order bytes, value < 2 ^ 32 := by
  induction bytes using textWords.induct with
  | case1 b0 b1 b2 b3 rest ih =>
    intro value listed
    rcases mem_cons.mp listed with rfl | later
    · have bound := ofBytes_lt order [b0, b1, b2, b3]
      simp only [length_cons, length_nil] at bound
      omega
    · exact ih value later
  | case2 bytes short =>
    intro value listed
    rw [textWords] at listed
    · cases listed
    · exact short

theorem stringBytes_eq_words :
    stringBytes order name = words order (stringWords name ::
      textWords order (name ++ List.replicate (4 - name.length % 4) 0)) := by
  rw [words_cons, words_textWords, stringBytes]
  rw [length_append, length_replicate]
  omega

theorem textWords_length :
    (textWords order (name ++ List.replicate (4 - name.length % 4) 0)).length =
      stringWords name := by
  have bytes := congrArg List.length (stringBytes_eq_words order name)
  rw [stringBytes_length, words_length, length_cons] at bytes
  omega

end

namespace LinesEntry

theorem values_lt {order : ByteOrder} {entry : LinesEntry} (valid : entry.Valid) :
    ∀ value ∈ entry.values order, value < 2 ^ 32 := by
  intro value listed
  cases entry with
  | line number =>
    cases mem_singleton.mp listed
    exact valid.2
  | file name =>
    rcases mem_cons.mp listed with rfl | later
    · decide
    rcases mem_cons.mp later with rfl | text
    · exact valid.fits
    · exact textWords_lt order _ value text

section

variable {values : List Nat} {name : List UInt8} {rest : List LinesEntry}

theorem tail_lt {order : ByteOrder} (valid : ∀ entry ∈ entries, entry.Valid) :
    ∀ value ∈ tail order entries, value < 2 ^ 32 := by
  intro value listed
  rcases mem_append.mp listed with inside | zero
  · obtain ⟨entry, member, stands⟩ := mem_flatMap.mp inside
    exact values_lt (valid entry member) value stands
  · have isZero : value = 0 := by simpa using zero
    rw [isZero]
    decide

/-- Every entry has a word that is not zero: a line number, or the length of a name. -/
theorem length_le_nonzero (entries : List LinesEntry) (valid : ∀ entry ∈ entries, entry.Valid) :
    entries.length ≤ ((tail order entries).filter (· ≠ 0)).length := by
  induction entries with
  | nil => exact Nat.zero_le _
  | cons entry rest ih =>
    have others := ih fun other listed =>
      valid other (mem_cons_of_mem _ listed)
    have first : 1 ≤ ((entry.values order).filter (· ≠ 0)).length := by
      have validFirst := valid entry mem_cons_self
      cases entry with
      | line number =>
        have nonzero : number ≠ 0 := Nat.pos_iff_ne_zero.mp validFirst.1
        simp [values, nonzero]
      | file name => simp [values, stringWords]
    have whole : tail order (entry :: rest) = entry.values order ++ tail order rest := by
      simp [tail]
    rw [whole, filter_append, length_append, length_cons]
    omega

theorem numbers_positive (valid : ∀ entry ∈ entries, entry.Valid) :
    ∀ line ∈ numbers entries, 0 < line ∧ line < 2 ^ 32 := by
  intro line listed
  obtain ⟨entry, member, number⟩ := mem_filterMap.mp listed
  cases entry with
  | line value =>
    cases number
    exact valid _ member
  | file name => cases number

theorem filter_numbers (valid : ∀ entry ∈ entries, entry.Valid) :
    (numbers entries).filter (· ≠ 0) = numbers entries := by
  apply filter_eq_self.mpr
  intro line listed
  simpa using Nat.pos_iff_ne_zero.mp (numbers_positive valid line listed).1

theorem numbers_length (lines : ∀ entry ∈ entries, entry.isLine = true) :
    (numbers entries).length = entries.length := by
  induction entries with
  | nil => rfl
  | cons entry rest ih =>
    cases entry with
    | file name => cases lines (.file name) mem_cons_self
    | line number =>
      exact congrArg (· + 1)
        (ih fun other listed => lines other (mem_cons_of_mem _ listed))

theorem tail_lines (lines : ∀ entry ∈ entries, entry.isLine = true) :
    tail order entries = numbers entries ++ [0, 0] := by
  induction entries with
  | nil => rfl
  | cons entry rest ih =>
    cases entry with
    | file name => cases lines (.file name) mem_cons_self
    | line number =>
      exact congrArg (number :: ·)
        (ih fun other listed => lines other (mem_cons_of_mem _ listed))

/-- Line numbers only: all of them are listed for the current file. -/
theorem listedUnder_lines (file : List UInt8) (current : Option (List UInt8))
    (lines : ∀ entry ∈ entries, entry.isLine = true) :
    listedUnder file current entries = if current = some file then numbers entries else [] := by
  induction entries with
  | nil => simp [listedUnder, numbers]
  | cons entry rest ih =>
    cases entry with
    | file name => cases lines (.file name) mem_cons_self
    | line number =>
      rw [listedUnder, ih fun other listed =>
        lines other (mem_cons_of_mem _ listed)]
      split <;> rfl

theorem listedUnder_positive {file : List UInt8} {current : Option (List UInt8)}
    (valid : ∀ entry ∈ entries, entry.Valid) :
    ∀ line ∈ listedUnder file current entries, 0 < line := by
  induction entries generalizing current with
  | nil => exact nofun
  | cons entry rest ih =>
    have others {following : Option (List UInt8)} :
        ∀ line ∈ listedUnder file following rest, 0 < line :=
      ih fun other listed => valid other (mem_cons_of_mem _ listed)
    cases entry with
    | line number =>
      have positive := (valid (.line number) mem_cons_self).1
      rw [listedUnder]
      split
      · exact forall_mem_cons.mpr ⟨positive, others⟩
      · exact others
    | file name => exact others

theorem OnlyLines.nonzero_length (valid : ∀ entry ∈ entries, entry.Valid)
    (only : OnlyLines entries values) :
    ∃ later, later <:+ entries ∧ (∀ entry ∈ later, entry.isLine = true) ∧
      (values.filter (· ≠ 0)).length = later.length := by
  obtain ⟨later, before, after, ends, lines, rfl⟩ := only
  refine ⟨later, ends, lines, ?_⟩
  have kept := filter_numbers fun entry listed => valid entry (ends.subset listed)
  rw [filter_append, filter_append, kept]
  simp [numbers_length lines]

theorem tail_file (name : List UInt8) (rest : List LinesEntry) :
    tail order (.file name :: rest) = 0 :: stringWords name ::
      (textWords order (name ++ List.replicate (4 - name.length % 4) 0) ++ tail order rest) := by
  simp [tail, values]

theorem OnlyLines.fits (only : OnlyLines entries values) (valid : ∀ entry ∈ entries, entry.Valid) :
    ∀ value ∈ values, value < 2 ^ 32 := by
  obtain ⟨later, before, after, ends, _, rfl⟩ := only
  intro value listed
  rcases mem_append.mp listed with zero | later'
  · rw [eq_of_mem_replicate zero]
    decide
  rcases mem_append.mp later' with number | zero
  · exact (numbers_positive (fun entry inside => valid entry (ends.subset inside)) value number).2
  · rw [eq_of_mem_replicate zero]
    decide

/-- All entries have words in the tail, so its words are only lines if all entries are. -/
theorem onlyLines_tail_iff (valid : ∀ entry ∈ LinesEntry.file name :: rest, entry.Valid) :
    OnlyLines (.file name :: rest) (tail order rest) ↔
      ∀ entry ∈ rest, entry.isLine = true := by
  constructor
  · intro only
    obtain ⟨later, ends, lines, length⟩ := only.nonzero_length valid
    have many := length_le_nonzero order rest fun entry listed =>
      valid entry (mem_cons_of_mem _ listed)
    rcases suffix_cons_iff.mp ends with whole | inside
    · rw [whole] at lines
      cases lines (.file name) mem_cons_self
    · have same : later = rest := inside.eq_of_length_le (by omega)
      rwa [same] at lines
  · intro lines
    exact ⟨rest, 0, 2, suffix_cons _ _, lines, tail_lines order lines⟩

theorem not_onlyLines_name {number : Nat}
    (valid : ∀ entry ∈ .line number :: .file name :: rest, entry.Valid) :
    ¬ OnlyLines (.line number :: .file name :: rest) (stringWords name ::
      (textWords order (name ++ List.replicate (4 - name.length % 4) 0) ++ tail order rest)) := by
  intro only
  obtain ⟨later, ends, lines, length⟩ := only.nonzero_length valid
  have many := length_le_nonzero order rest fun entry listed =>
    valid entry (mem_cons_of_mem _ (mem_cons_of_mem _ listed))
  have inRest : later <:+ rest := by
    rcases suffix_cons_iff.mp ends with rfl | inside
    · cases lines (.file name) (by simp)
    rcases suffix_cons_iff.mp inside with rfl | inside
    · cases lines (.file name) mem_cons_self
    · exact inside
  have short := inRest.length_le
  rw [filter_cons_of_pos (by simp [stringWords]), filter_append, length_cons,
    length_append] at length
  omega

end

end LinesEntry

/-! ## The size of a string -/

section

variable (text : List UInt8) (values : List Nat)

theorem rstripNul_append_zeros (count : Nat) :
    rstripNul (text ++ List.replicate count 0) = rstripNul text := by
  rw [rstripNul, rstripNul, reverse_append, reverse_replicate,
    dropWhile_append_of_pos (by simp)]

theorem word_zero : word order 0 = List.replicate 4 0 := by
  cases order <;> decide

/-- A word that is not zero ends a string within its bytes. -/
theorem rstripNul_word {value : Nat} (fits : value < 2 ^ 32) (nonzero : value ≠ 0) :
    text.length < (rstripNul (text ++ word order value)).length := by
  have stays : (word order value).reverse.dropWhile (· == 0) ≠ [] := by
    intro none
    have zeros : word order value = List.replicate 4 0 := by
      apply eq_replicate_iff.mpr
      refine ⟨word_length order value, ?_⟩
      intro byte listed
      simpa using dropWhile_eq_nil_iff.mp none byte (mem_reverse.mpr listed)
    have decoded := ofBytes_toBytes order 4 value (by omega)
    rw [← word, zeros, ← word_zero order, word, ofBytes_toBytes order 4 0 (by decide)] at decoded
    exact nonzero decoded.symm
  rw [rstripNul, length_reverse, reverse_append, dropWhile_append]
  rw [if_neg (by simpa using stays), length_append, length_reverse]
  have some := length_pos_of_ne_nil stays
  omega

theorem rstripNul_length_le : (rstripNul text).length ≤ text.length := by
  have shorter : (text.reverse.dropWhile (· == 0)).length ≤ text.reverse.length :=
    (dropWhile_suffix _).length_le
  rw [length_reverse] at shorter
  rwa [rstripNul, length_reverse]

/-- `src_length` counts all words of the string but trailing zeros. -/
theorem srcLength_words (fits : ∀ value ∈ values, value < 2 ^ 32) :
    values.length ≤ ((rstripNul (words order values)).length + 3) / 4 + 1 ↔
      ¬ [0, 0] <:+ values := by
  rcases eq_nil_or_concat' values with rfl | ⟨before, last, rfl⟩
  · simp
  have bytes (values : List Nat) : (rstripNul (words order values)).length ≤ 4 * values.length := by
    rw [← words_length order values]
    exact rstripNul_length_le _
  rw [words_append, words_cons, words_nil, append_nil, length_append]
  by_cases zero : last = 0
  · subst zero
    rw [word_zero, rstripNul_append_zeros]
    rcases eq_nil_or_concat' before with rfl | ⟨first, middle, rfl⟩
    · exact iff_of_true (Nat.le_add_left _ _) (by decide)
    have suffix : [0, 0] <:+ first ++ [middle] ++ [0] ↔ middle = 0 := by
      rw [show [0, 0] = [0] ++ [0] from rfl, suffix_append_self_iff]
      rw [singleton_suffix_append_singleton_iff]
      exact eq_comm
    rw [suffix]
    by_cases alsoZero : middle = 0
    · subst alsoZero
      have short := bytes first
      rw [words_append, words_cons, words_nil, append_nil, word_zero, rstripNul_append_zeros,
        length_append]
      refine iff_of_false ?_ (fun different => different rfl)
      simp only [length_singleton]
      omega
    · have fitsMiddle := fits middle (by simp)
      have long := rstripNul_word order (words order first) fitsMiddle alsoZero
      rw [words_length] at long
      rw [words_append, words_cons, words_nil, append_nil, length_append]
      refine iff_of_true ?_ alsoZero
      simp only [length_singleton]
      omega
  · have long := rstripNul_word order (words order before) (fits last (by simp)) zero
    rw [words_length] at long
    have suffix : ¬ [0, 0] <:+ before ++ [last] := by
      rw [show [0, 0] = [0] ++ [0] from rfl]
      intro ends
      have same := singleton_suffix_append_singleton_iff.mp ((suffix_append _ _).trans ends)
      exact zero same.symm
    refine iff_of_true ?_ suffix
    rw [length_singleton]
    omega

/-! ## What `ReadLines` takes -/

/-- The words after the one that is taken for the length of the name hold a string of
that length, without two zero words at its end. -/
def HoldsName (size : Nat) (left : List Nat) : Prop :=
  size ≤ left.length ∧ ¬ [0, 0] <:+ left.take size

instance (size : Nat) (left : List Nat) : Decidable (HoldsName size left) :=
  inferInstanceAs (Decidable (size ≤ left.length ∧ ¬ [0, 0] <:+ left.take size))

theorem shiftLeft_two (size : Nat) : size <<< 2 = 4 * size := by
  rw [Nat.shiftLeft_eq]
  omega

theorem readString_words (rest : List UInt8) (fits : values.length < 2 ^ 32) :
    readString order (words order (values.length :: values) ++ rest) =
      .ok (rstripNul (words order values), rest) := by
  rw [words_cons, append_assoc, readString,
    bind_ok (readInt_word order _ _ fits)]
  simp only [shiftLeft_two]
  have length : (words order values).length = 4 * values.length := words_length order values
  split
  · rw [bind_ok (by
      rw [readChars, if_pos (by rw [length_append]; omega), take_left' length,
        drop_left' length]), pure_run]
  · have none : values = [] := eq_nil_of_length_eq_zero (by omega)
    rw [none]
    rfl

end

namespace GcnoParser

theorem readLineNumbers_short (self : GcovStream) {count : Nat} (values lines : List Nat)
    (fits : ∀ value ∈ values, value < 2 ^ 32) (short : values.length < count) :
    readLineNumbers self count lines (words self.format values) = .error corruptFile := by
  induction values generalizing count lines with
  | nil =>
    obtain ⟨before, rfl⟩ := Nat.exists_eq_succ_of_ne_zero (Nat.pos_iff_ne_zero.mp short)
    rfl
  | cons value others ih =>
    obtain ⟨before, rfl⟩ := Nat.exists_eq_succ_of_ne_zero (Nat.ne_zero_of_lt short)
    rw [words_cons, readLineNumbers,
      bind_ok (readInt_word self.format value _ (fits value mem_cons_self))]
    rw [length_cons] at short
    exact ih _ (fun other listed => fits other (mem_cons_of_mem _ listed))
      (by omega)

/-- At most one word from the end, there is nothing but the zero that ends the record. -/
theorem filter_drop_ended {left : List Nat} {count : Nat}
    (ended : left = [] ∨ ∃ before, left = before ++ [0]) (near : left.length ≤ count + 1) :
    (left.drop count).filter (· ≠ 0) = [] := by
  rcases ended with rfl | ⟨before, rfl⟩
  · rw [drop_nil]
    rfl
  · rw [length_append, length_singleton] at near
    have short : before.length ≤ count := by omega
    rw [drop_append, drop_of_length_le short, nil_append]
    apply filter_eq_nil_iff.mpr
    intro value listed
    have zero : value = 0 := by simpa using mem_of_mem_drop listed
    simp [zero]

variable {self : GcovStream} {block dummy size : Nat} {left : List Nat} {func : FunctionSummary}

section

variable (blockFits : block < 2 ^ 32) (dummyFits : dummy < 2 ^ 32) (sizeFits : size < 2 ^ 32)
  (leftFit : ∀ value ∈ left, value < 2 ^ 32)
include blockFits dummyFits sizeFits leftFit

/-- A record whose words hold a name: the words after the name are its lines. -/
theorem readLines_holds (inside : block < func.blocks.length) (holds : HoldsName size left)
    (ended : left = [] ∨ ∃ before, left = before ++ [0]) (rest : List UInt8) :
    ∃ remaining, readLines self (left.length + 3) (some func)
        (words self.format (block :: dummy :: size :: left) ++ rest) =
      .ok (func.setBlock block
        { func.block block with lines := (left.drop size).filter (· ≠ 0) }, remaining) := by
  obtain ⟨enough, noZeros⟩ := holds
  have length : (left.take size).length = size := length_take_of_le enough
  have bytes := rstripNul_length_le (words self.format (left.take size))
  rw [words_length, length] at bytes
  have trailing := (srcLength_words self.format (left.take size) fun value listed =>
    leftFit value (mem_of_mem_take listed)).mpr noZeros
  rw [length] at trailing
  obtain ⟨count, counted⟩ : ∃ count, left.length + 3 -
      (((rstripNul (words self.format (left.take size))).length + (bytesInWord - 1)) /
        bytesInWord + 1) - headerLength = count := ⟨_, rfl⟩
  simp only [bytesInWord, headerLength] at counted
  have inRecord : count ≤ (left.drop size).length := by
    rw [length_drop]
    omega
  have near : left.length ≤ size + count + 1 := by omega
  have lines : (left.drop size).filter (· ≠ 0) =
      ((left.drop size).take count).filter (· ≠ 0) := by
    have last := filter_drop_ended ended near
    rw [← drop_drop] at last
    conv_lhs => rw [← take_append_drop count (left.drop size), filter_append, last,
      append_nil]
  have split : words self.format (block :: dummy :: size :: left) ++ rest =
      word self.format block ++ (word self.format dummy ++
        (words self.format (size :: left.take size) ++
          (words self.format ((left.drop size).take count) ++
            (words self.format ((left.drop size).drop count) ++ rest)))) := by
    conv_lhs => rw [← take_append_drop size left,
      ← take_append_drop count (left.drop size)]
    simp only [words_cons, words_append, append_assoc]
  refine ⟨words self.format ((left.drop size).drop count) ++ rest, ?_⟩
  rw [split, lines]
  have named := readString_words self.format (left.take size)
    (words self.format ((left.drop size).take count) ++
      (words self.format ((left.drop size).drop count) ++ rest)) (by omega)
  rw [length] at named
  apply readLines_string func _ blockFits dummyFits inside named
  · intro value listed
    exact leftFit value (mem_of_mem_drop (mem_of_mem_take listed))
  · rw [length_take_of_le inRecord]
    exact counted

/-- Any other record makes the reader leave the record, and fail at the end of a stream. -/
theorem readLines_fails (lacks : ¬ HoldsName size left) :
    readLines self (left.length + 3) (some func)
      (words self.format (block :: dummy :: size :: left)) = .error corruptFile := by
  rw [words_cons, words_cons, readLines,
    bind_ok (readInt_word self.format block _ blockFits),
    bind_ok (readInt_word self.format dummy _ dummyFits)]
  by_cases enough : size ≤ left.length
  · have length : (left.take size).length = size := length_take_of_le enough
    have zeros : ¬ size ≤ ((rstripNul (words self.format (left.take size))).length + 3) / 4 + 1 := by
      intro fits
      have trailing := srcLength_words self.format (left.take size) fun value listed =>
        leftFit value (mem_of_mem_take listed)
      rw [length] at trailing
      exact lacks ⟨enough, trailing.mp fits⟩
    have named := readString_words self.format (left.take size)
      (words self.format (left.drop size)) (by omega)
    rw [length, words_cons, append_assoc, ← words_append, take_append_drop] at named
    rw [words_cons, bind_ok named]
    apply bind_error
    apply readLineNumbers_short
    · intro value listed
      exact leftFit value (mem_of_mem_drop listed)
    · rw [length_drop]
      simp only [bytesInWord, headerLength]
      omega
  · apply bind_error
    rw [words_cons]
    apply readString_short self.format size _ sizeFits
    rw [words_length]
    omega

end

end GcnoParser

/-! ## What the lines add to the report -/

namespace FunctionSummary

/-- The block lists other lines. -/
def withLines (func : FunctionSummary) (block : Nat) (lines : List Nat) : FunctionSummary :=
  func.setBlock block { func.block block with lines := lines }

/-- The block has been executed some number of times. -/
def withCount (func : FunctionSummary) (block : Nat) (count : Int) : FunctionSummary :=
  func.setBlock block { func.block block with count := count }

section

variable {block : Nat} {func : FunctionSummary} (value bare : BlockSummary)

theorem withLines_withCount (func : FunctionSummary) (lines : List Nat) (count : Int)
    (inside : block < func.blocks.length) :
    (func.withLines block lines).withCount block count =
      func.setBlock block { func.block block with lines := lines, count := count } := by
  rw [withCount, withLines, setBlock_block func block block _ inside, if_pos rfl]
  simp [setBlock]

section

variable (inside : block < func.blocks.length) (noLines : bare.lines = []) (line : Nat)
include inside noLines line

theorem lists_setBlock :
    (func.setBlock block value).lists line =
      ((func.setBlock block bare).lists line || value.lines.contains line) := by
  simp only [lists, setBlock, set_eq_take_append_cons_drop, if_pos inside, any_append,
    any_cons, noLines, contains_nil, Bool.false_or]
  rw [Bool.or_assoc, Bool.or_comm (value.lines.contains line)]

theorem lineTotal_setBlock :
    (func.setBlock block value).lineTotal line =
      (func.setBlock block bare).lineTotal line + value.lineTotal line := by
  have nothing : bare.lineTotal line = 0 := by
    rw [BlockSummary.lineTotal, noLines]
    simp
  simp only [lineTotal, setBlock, set_eq_take_append_cons_drop, if_pos inside,
    map_append, map_cons, sum_append, sum_cons, nothing]
  omega

end

/-- A change of one block keeps all counts non-negative and all lines positive. -/
theorem forall_setBlock {value : BlockSummary} {property : BlockSummary → Prop}
    (each : ∀ other ∈ func.blocks, property other) (new : property value) :
    ∀ other ∈ (func.setBlock block value).blocks, property other := by
  intro other listed
  rcases mem_or_eq_of_mem_set listed with old | rfl
  · exact each other old
  · exact new

theorem lineCount_setBlock {line : Nat} (counts : ∀ other ∈ func.blocks, 0 ≤ other.count)
    (positive : ∀ other ∈ func.blocks, ∀ line ∈ other.lines, 0 < line)
    (inside : block < func.blocks.length) (valueCount : 0 ≤ value.count)
    (valueLines : ∀ line ∈ value.lines, 0 < line) (bareCount : 0 ≤ bare.count)
    (noLines : bare.lines = []) (linePositive : 0 < line) (excludePaths : List (List UInt8))
    (dict : CoverageDict) (file : List UInt8) {added : List Nat}
    (whatIsAdded : added = if func.reportedFor excludePaths file then value.lines else []) :
    (addFunction excludePaths dict (func.setBlock block value)).lineCount file line =
      bump (added.contains line) (added.count line * value.count)
        ((addFunction excludePaths dict (func.setBlock block bare)).lineCount file line) := by
  have bareLines : ∀ line ∈ bare.lines, 0 < line := by
    rw [noLines]
    nofun
  rw [addFunction_lineCount excludePaths _ dict file
    (forall_setBlock counts valueCount) (forall_setBlock positive valueLines) linePositive,
    addFunction_lineCount excludePaths _ dict file
    (forall_setBlock counts bareCount) (forall_setBlock positive bareLines) linePositive,
    lists_setBlock value bare inside noLines, lineTotal_setBlock value bare inside noLines]
  have same (other : BlockSummary) :
      (func.setBlock block other).reportedFor excludePaths file =
        func.reportedFor excludePaths file := rfl
  simp only [same]
  subst whatIsAdded
  cases reported : func.reportedFor excludePaths file with
  | false => simp [bump]
  | true =>
    simp only [Bool.true_and, if_true]
    refine (bump_bump _ ?_ ?_ ?_).symm
    · exact functionTotal_nonnegative _ line (forall_setBlock counts bareCount)
    · exact functionTotal_unlisted _ line
    · exact lineTotal_unlisted value line

end

end FunctionSummary

/-- Bumps by the multiplicities of two lists agree only if the multiplicities do. -/
theorem count_eq_of_bump {left right : List Nat} {line : Nat} {value : Int}
    (same : bump (left.contains line) (left.count line * 1) value =
      bump (right.contains line) (right.count line * 1) value) :
    left.count line = right.count line := by
  have listed (lines : List Nat) : lines.contains line = decide (0 < lines.count line) := by
    rw [Bool.eq_iff_iff, contains_iff_mem, decide_eq_true_iff, count_pos_iff]
  rw [listed, listed, bump, bump] at same
  have above := le_max_left value 0
  split at same <;> split at same <;> simp only [decide_eq_true_iff] at * <;> omega

/-- `ReadLines` up to the loop over the line numbers. -/
def GcnoParser.readLinesHead (self : GcovStream) : Read (List UInt8) := do
  let _blockNumber ← readInt self.format
  let _dummy ← readInt self.format
  readString self.format

namespace LinesRecord

/-- The lines that the report should hold for a file because of the record. -/
def reportedUnder (excludePaths : List (List UInt8)) (record : LinesRecord) (file : List UInt8) :
    List Nat :=
  if skipsFile excludePaths file then [] else record.listedUnder file

/-- Wherever the record stands in a stream, the words in which `ReadLines` looks for
line numbers are no words of a name, and the report gets the count of the block once
for each line listed for a file that is reported, and nothing else. -/
def Attributed (self : GcovStream) (func : FunctionSummary) (excludePaths : List (List UInt8))
    (record : LinesRecord) : Prop :=
  ∀ rest,
    (∃ name values,
      GcnoParser.readLinesHead self (record.payload self.format ++ rest) =
        .ok (name, words self.format values ++ rest) ∧
      LinesEntry.OnlyLines record.entries values) ∧
    ∃ next remaining,
      GcnoParser.readLines self ((record.payload self.format).length / 4) (some func)
        (record.payload self.format ++ rest) = .ok (next, remaining) ∧
      ∀ (count : Int), 0 ≤ count → ∀ dict file line, 0 < line →
        (generateLineCoverageVector ⟨[(func.ident, next.withCount record.block count)]⟩
            excludePaths dict).lineCount file line =
          bump ((record.reportedUnder excludePaths file).contains line)
            ((record.reportedUnder excludePaths file).count line * count)
            ((generateLineCoverageVector ⟨[(func.ident, func.withLines record.block [])]⟩
              excludePaths dict).lineCount file line)

theorem words_injective (order : ByteOrder) {first second : List Nat}
    (firstFits : ∀ value ∈ first, value < 2 ^ 32) (secondFits : ∀ value ∈ second, value < 2 ^ 32)
    (same : words order first = words order second) : first = second := by
  induction first generalizing second with
  | nil =>
    have length := congrArg List.length same
    rw [words_length, words_length, length_nil] at length
    exact (eq_nil_of_length_eq_zero (by omega)).symm
  | cons value rest ih =>
    cases second with
    | nil =>
      have length := congrArg List.length same
      simp at length
    | cons other others =>
      rw [words_cons, words_cons] at same
      obtain ⟨heads, tails⟩ := append_inj same (by rw [word_length, word_length])
      have decoded := congrArg (ofBytes order) heads
      rw [word, word, ofBytes_toBytes order 4 value (firstFits value mem_cons_self),
        ofBytes_toBytes order 4 other (secondFits other mem_cons_self)] at decoded
      rw [decoded, ih
        (fun value listed => firstFits value (mem_cons_of_mem _ listed))
        (fun value listed => secondFits value (mem_cons_of_mem _ listed)) tails]

section

variable {dummy size : Nat} {left : List Nat} {record : LinesRecord} {func : FunctionSummary}
  {lines : List Nat} {name : List UInt8} (excludePaths : List (List UInt8))

theorem readLinesHead_words (self : GcovStream) {block : Nat} (blockFits : block < 2 ^ 32)
    (dummyFits : dummy < 2 ^ 32) (sizeFits : size < 2 ^ 32) (enough : size ≤ left.length)
    (rest : List UInt8) :
    GcnoParser.readLinesHead self (words self.format (block :: dummy :: size :: left) ++ rest) =
      .ok (rstripNul (words self.format (left.take size)),
        words self.format (left.drop size) ++ rest) := by
  have length : (left.take size).length = size := length_take_of_le enough
  have named := readString_words self.format (left.take size)
    (words self.format (left.drop size) ++ rest) (by omega)
  rw [length, words_cons, append_assoc, ← append_assoc (words self.format _),
    ← words_append, take_append_drop] at named
  simp only [words_cons, append_assoc]
  rw [GcnoParser.readLinesHead, bind_ok (readInt_word self.format block _ blockFits),
    bind_ok (readInt_word self.format dummy _ dummyFits)]
  exact named

theorem reportedUnder_positive (valid : record.Valid) (excludePaths : List (List UInt8))
    (file : List UInt8) : ∀ line ∈ record.reportedUnder excludePaths file, 0 < line := by
  rw [reportedUnder]
  split
  · nofun
  · exact LinesEntry.listedUnder_positive valid.entries

/-- The report is right for every count and every dictionary exactly if the lines that
were read are those of the record, with repetitions. -/
theorem report_iff (valid : record.Valid) (inside : record.block < func.blocks.length)
    (counts : ∀ block ∈ func.blocks, 0 ≤ block.count)
    (positive : ∀ block ∈ func.blocks, ∀ line ∈ block.lines, 0 < line)
    (linesPositive : ∀ line ∈ lines, 0 < line) :
    (∀ (count : Int), 0 ≤ count → ∀ dict file line, 0 < line →
      (generateLineCoverageVector ⟨[(func.ident,
          (func.withLines record.block lines).withCount record.block count)]⟩
          excludePaths dict).lineCount file line =
        bump ((record.reportedUnder excludePaths file).contains line)
          ((record.reportedUnder excludePaths file).count line * count)
          ((generateLineCoverageVector ⟨[(func.ident, func.withLines record.block [])]⟩
            excludePaths dict).lineCount file line)) ↔
      ∀ file, (record.reportedUnder excludePaths file).Perm
        (if func.reportedFor excludePaths file then lines else []) := by
  have blockCount := counts _ (FunctionSummary.block_mem inside)
  have added {count : Int} (nonnegative : 0 ≤ count) (dict : CoverageDict) (file : List UInt8)
      {line : Nat} (linePositive : 0 < line) :
      (generateLineCoverageVector ⟨[(func.ident,
          (func.withLines record.block lines).withCount record.block count)]⟩
          excludePaths dict).lineCount file line =
        bump ((if func.reportedFor excludePaths file then lines else []).contains line)
          ((if func.reportedFor excludePaths file then lines else []).count line * count)
          ((generateLineCoverageVector ⟨[(func.ident, func.withLines record.block [])]⟩
            excludePaths dict).lineCount file line) := by
    rw [FunctionSummary.withLines_withCount func lines count inside]
    exact FunctionSummary.lineCount_setBlock
      { func.block record.block with lines := lines, count := count }
      { func.block record.block with lines := [] } counts positive inside nonnegative linesPositive
      blockCount rfl linePositive excludePaths dict file rfl
  have addedPositive (file : List UInt8) :
      ∀ line ∈ (if func.reportedFor excludePaths file then lines else []), 0 < line := by
    split
    · exact linesPositive
    · nofun
  constructor
  · intro right file
    apply perm_iff_count.mpr
    intro line
    rcases Nat.eq_zero_or_pos line with rfl | linePositive
    · rw [count_eq_zero_of_not_mem fun listed =>
          Nat.lt_irrefl 0 (reportedUnder_positive valid excludePaths file 0 listed),
        count_eq_zero_of_not_mem fun listed => Nat.lt_irrefl 0 (addedPositive file 0 listed)]
    · have expected := right 1 (by decide) (fun _ => none) file line linePositive
      rw [added (by decide) _ file linePositive] at expected
      exact (count_eq_of_bump expected).symm
  · intro same count nonnegative dict file line linePositive
    rw [added nonnegative dict file linePositive, (same file).count_eq line]
    have contains := Bool.eq_iff_iff.mpr (contains_iff_mem.trans
      (((same file).mem_iff (a := line)).trans contains_iff_mem.symm))
    rw [contains]

/-- The lines of a file that is reported, by what the reader takes for line numbers. -/
theorem attributed_iff_words {self : GcovStream}
    (shape : LinesEntry.tail self.format record.entries = dummy :: size :: left)
    (ended : left = [] ∨ ∃ before, left = before ++ [0]) (valid : record.Valid)
    (inside : record.block < func.blocks.length) (counts : ∀ block ∈ func.blocks, 0 ≤ block.count)
    (positive : ∀ block ∈ func.blocks, ∀ line ∈ block.lines, 0 < line) :
    record.Attributed self func excludePaths ↔
      HoldsName size left ∧ LinesEntry.OnlyLines record.entries (left.drop size) ∧
        ∀ file, skipsFile excludePaths file = false → (record.listedUnder file).Perm
          (if file = func.srcFileName then (left.drop size).filter (· ≠ 0) else []) := by
  have tailFits : ∀ value ∈ LinesEntry.tail self.format record.entries, value < 2 ^ 32 :=
    LinesEntry.tail_lt valid.entries
  rw [shape] at tailFits
  have dummyFits := tailFits dummy mem_cons_self
  have sizeFits := tailFits size (by simp)
  have leftFit : ∀ value ∈ left, value < 2 ^ 32 := fun value listed =>
    tailFits value (by simp [listed])
  have payload : record.payload self.format =
      words self.format (record.block :: dummy :: size :: left) := by
    rw [LinesRecord.payload, shape]
  have length : (record.payload self.format).length / 4 = left.length + 3 := by
    rw [payload, words_length]
    simp only [length_cons]
    omega
  have reports {lines : List Nat} (linesPositive : ∀ line ∈ lines, 0 < line) :=
    report_iff excludePaths valid inside counts positive linesPositive
  have linesPositive : ∀ line ∈ (left.drop size).filter (· ≠ 0), 0 < line := by
    intro line listed
    have nonzero := (mem_filter.mp listed).2
    exact Nat.pos_of_ne_zero (by simpa using nonzero)
  have perms : (∀ file, (record.reportedUnder excludePaths file).Perm
        (if func.reportedFor excludePaths file then (left.drop size).filter (· ≠ 0) else [])) ↔
      ∀ file, skipsFile excludePaths file = false → (record.listedUnder file).Perm
        (if file = func.srcFileName then (left.drop size).filter (· ≠ 0) else []) := by
    refine forall_congr' fun file => ?_
    rw [reportedUnder, FunctionSummary.reportedFor]
    by_cases own : file = func.srcFileName
    · subst own
      cases skipsFile excludePaths func.srcFileName <;> simp
    · cases skipsFile excludePaths file <;> simp [own]
  rw [Attributed, length, payload, ← perms, ← reports linesPositive]
  constructor
  · intro attributed
    obtain ⟨⟨name, values, head, only⟩, next, remaining, read, right⟩ := attributed []
    rw [append_nil] at read head
    by_cases holds : HoldsName size left
    · obtain ⟨remaining, reads⟩ := GcnoParser.readLines_holds valid.block dummyFits sizeFits
        leftFit inside holds ended []
      rw [append_nil, read] at reads
      cases reads
      have taken := readLinesHead_words self valid.block dummyFits sizeFits holds.1 []
      rw [append_nil, head] at taken
      simp only [append_nil, Except.ok.injEq, Prod.mk.injEq] at taken
      have same := words_injective self.format (only.fits valid.entries)
        (fun value listed => leftFit value (mem_of_mem_drop listed)) taken.2
      rw [same] at only
      exact ⟨holds, only, right⟩
    · rw [GcnoParser.readLines_fails valid.block dummyFits sizeFits leftFit holds] at read
      cases read
  · intro ⟨holds, only, right⟩ rest
    obtain ⟨remaining, reads⟩ := GcnoParser.readLines_holds valid.block dummyFits sizeFits
      leftFit inside holds ended rest
    exact ⟨⟨_, _, readLinesHead_words self valid.block dummyFits sizeFits holds.1 rest, only⟩,
      _, remaining, reads, right⟩

theorem tail_ended (before : List Nat) (entries : List LinesEntry) :
    ∃ values, before ++ LinesEntry.tail order entries = values ++ [0] :=
  ⟨before ++ (entries.flatMap (LinesEntry.values order) ++ [0]), by simp [LinesEntry.tail]⟩

/-- The name at the start of a record is read as it stands. -/
theorem holdsName_text (valid : GcovString name) (following : List Nat) :
    HoldsName (stringWords name)
      (textWords order (name ++ List.replicate (4 - name.length % 4) 0) ++ following) := by
  have length := textWords_length order name
  refine ⟨by rw [length_append]; omega, ?_⟩
  rw [take_left' length, ← srcLength_words order _ (textWords_lt order _), length,
    words_textWords, rstripNul_padded name _ valid.nulFree, stringWords]
  · omega
  · rw [length_append, length_replicate]
    omega

/-- Which records are attributed. A record that starts with a name has no other name,
and its lines are of the file of the function or nobody reports them. A record that
starts with line numbers that are listed for no file has its second word taken for the
length of a name, whatever follows. -/
def Attributable (order : ByteOrder) (excludePaths : List (List UInt8))
    (srcFileName : List UInt8) (record : LinesRecord) : Prop :=
  match record.entries with
  | [] | [.line _] => True
  | .file name :: rest =>
    (∀ entry ∈ rest, entry.isLine = true) ∧
      (rest = [] ∨ name = srcFileName ∨
        (skipsFile excludePaths name = true ∧ skipsFile excludePaths srcFileName = true))
  | .line _ :: .file _ :: _ => False
  | .line _ :: .line size :: rest =>
    HoldsName size (LinesEntry.tail order rest) ∧
      LinesEntry.OnlyLines record.entries ((LinesEntry.tail order rest).drop size) ∧
      ∀ file, skipsFile excludePaths file = false → (record.listedUnder file).Perm
        (if file = srcFileName then ((LinesEntry.tail order rest).drop size).filter (· ≠ 0)
          else [])

/-- Lines of one file are attributed if that file is the one of the function, or if
neither of the two is reported. -/
theorem ownLines_iff {excludePaths : List (List UInt8)} {srcFileName : List UInt8} :
    (∀ file, skipsFile excludePaths file = false →
      (if some name = some file then lines else []).Perm
        (if file = srcFileName then lines else [])) ↔
      lines = [] ∨ name = srcFileName ∨
        (skipsFile excludePaths name = true ∧ skipsFile excludePaths srcFileName = true) := by
  constructor
  · intro same
    by_cases none : lines = []
    · exact .inl none
    by_cases own : name = srcFileName
    · exact .inr (.inl own)
    refine .inr (.inr ⟨?_, ?_⟩)
    · by_contra reported
      have listed := same name (by simpa using reported)
      rw [if_pos rfl, if_neg own] at listed
      exact none listed.eq_nil
    · by_contra reported
      have listed := same srcFileName (by simpa using reported)
      rw [if_pos rfl, if_neg (fun equal => own (Option.some.inj equal))] at listed
      exact none listed.nil_eq.symm
  · intro right file reported
    rcases right with rfl | rfl | ⟨nameSkipped, srcSkipped⟩
    · simp
    · by_cases own : file = name
      · simp [own]
      · have other : ¬ name = file := fun equal => own equal.symm
        simp [own, other]
    · have notName : ¬ name = file := by
        rintro rfl
        rw [reported] at nameSkipped
        cases nameSkipped
      have notSrc : ¬ file = srcFileName := by
        rintro rfl
        rw [reported] at srcSkipped
        cases srcSkipped
      simp [notName, notSrc]

end

/-- When `ReadLines` and the line report attribute the lines of a record to the files
that they are listed for. -/
theorem readLines_attributed_iff (self : GcovStream) (func : FunctionSummary)
    (excludePaths : List (List UInt8)) (record : LinesRecord) (valid : record.Valid)
    (inside : record.block < func.blocks.length)
    (counts : ∀ block ∈ func.blocks, 0 ≤ block.count)
    (positive : ∀ block ∈ func.blocks, ∀ line ∈ block.lines, 0 < line) :
    record.Attributed self func excludePaths ↔
      record.Attributable self.format excludePaths func.srcFileName := by
  have words {dummy size : Nat} {left : List Nat}
      (shape : LinesEntry.tail self.format record.entries = dummy :: size :: left)
      (ended : left = [] ∨ ∃ before, left = before ++ [0]) :=
    attributed_iff_words excludePaths shape ended valid inside counts positive
  obtain ⟨block, entries⟩ := record
  rw [Attributable]
  match entries with
  | [] =>
    have shape : LinesEntry.tail self.format [] = 0 :: 0 :: [] := rfl
    rw [words shape (.inl rfl)]
    refine iff_of_true ⟨by decide, ⟨[], 0, 0, suffix_rfl, nofun, rfl⟩, ?_⟩ trivial
    intro file _
    split <;> exact List.Perm.refl _
  | [.line number] =>
    have shape : LinesEntry.tail self.format [.line number] = number :: 0 :: [0] := rfl
    rw [words shape (.inr ⟨[], rfl⟩)]
    refine iff_of_true ⟨by decide, ⟨[], 1, 0, nil_suffix, nofun, rfl⟩, ?_⟩ trivial
    intro file _
    split <;> exact List.Perm.refl _
  | .file name :: rest =>
    have nameValid : GcovString name := valid.entries (.file name) mem_cons_self
    have restValid : ∀ entry ∈ rest, entry.Valid := fun entry listed =>
      valid.entries entry (mem_cons_of_mem _ listed)
    rw [words (LinesEntry.tail_file self.format name rest)
      (.inr (tail_ended self.format _ rest)),
      drop_left' (textWords_length self.format name),
      LinesEntry.onlyLines_tail_iff self.format valid.entries]
    refine (and_iff_right (holdsName_text self.format nameValid _)).trans
      (and_congr_right fun lines => ?_)
    have numbers : (LinesEntry.tail self.format rest).filter (· ≠ 0) =
        LinesEntry.numbers rest := by
      rw [LinesEntry.tail_lines self.format lines, filter_append,
        LinesEntry.filter_numbers restValid]
      exact append_nil _
    have none : LinesEntry.numbers rest = [] ↔ rest = [] := by
      rw [← length_eq_zero_iff, LinesEntry.numbers_length lines, length_eq_zero_iff]
    have listed (file : List UInt8) : listedUnder ⟨block, .file name :: rest⟩ file =
        if some name = some file then LinesEntry.numbers rest else [] :=
      LinesEntry.listedUnder_lines file (some name) lines
    simp only [numbers, listed]
    rw [ownLines_iff, none]
  | .line number :: .file name :: rest =>
    have shape : LinesEntry.tail self.format (.line number :: .file name :: rest) =
        number :: 0 :: (stringWords name ::
          (textWords self.format (name ++ List.replicate (4 - name.length % 4) 0) ++
            LinesEntry.tail self.format rest)) :=
      congrArg (number :: ·) (LinesEntry.tail_file self.format name rest)
    rw [words shape (.inr (tail_ended self.format (_ :: _) rest))]
    refine iff_of_false (fun right => ?_) id
    exact LinesEntry.not_onlyLines_name self.format valid.entries right.2.1
  | .line number :: .line size :: rest =>
    exact words rfl (.inr (tail_ended self.format [] rest))

/-- A function of `a.c` with one block. -/
def oneBlock : FunctionSummary :=
  { FunctionSummary.init 1 [102] [97, 46, 99] 1 with blocks := [BlockSummary.init 0 0] }

/-- The version of the file has no part in reading lines. -/
def littleEndian : GcovStream := ⟨.little, [42, 50, 48, 52], 0⟩

/-- All lines stand under `a.c`. -/
theorem readLines_attributed_own :
    (LinesRecord.mk 0 [.file [97, 46, 99], .line 5, .line 7]).Attributed littleEndian oneBlock [] :=
  (readLines_attributed_iff littleEndian oneBlock []
    ⟨0, [.file [97, 46, 99], .line 5, .line 7]⟩ ⟨by decide, by decide⟩ (by decide) (by decide)
    (by decide)).mpr ⟨by decide, .inr (.inl rfl)⟩

/-- Line 7 of `b.h` was inlined into the block of `a.c`, and is not reported. -/
theorem readLines_inlined :
    (LinesRecord.mk 0 [.file [97, 46, 99], .line 5, .file [98, 46, 104], .line 7]).Valid ∧
      ¬ (LinesRecord.mk 0 [.file [97, 46, 99], .line 5, .file [98, 46, 104], .line 7]).Attributed
        littleEndian oneBlock [] := by
  refine ⟨⟨by decide, by decide⟩, ?_⟩
  intro attributed
  obtain ⟨_, next, remaining, read, right⟩ := attributed []
  have lines : GcnoParser.readLines littleEndian 11 (some oneBlock)
      ((LinesRecord.mk 0 [.file [97, 46, 99], .line 5, .file [98, 46, 104], .line 7]).payload
        .little ++ []) =
      .ok (oneBlock.withLines 0 [5, 1, 6827618, 7], [0, 0, 0, 0]) := by decide
  cases lines.symm.trans read
  have header := right 1 (by decide) (fun _ => none) [98, 46, 104] 7 (by decide)
  revert header
  decide

end LinesRecord

end Vts.Coverage
