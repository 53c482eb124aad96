import Mathlib.Data.List.Sort
import Vts.Elf.Reads

/-!
# RELR sections

The sections of type `SHT_RELR` and `SHT_ANDROID_RELR`. Their words are addresses,
which are even, and bitmaps, which are odd. A bitmap says which of the word slots
that follow the last address or bitmap are relocated; it covers as many slots as it
has bits besides the lowest. `RelrEncodes` is this meaning of a list of words, and
`relrWords` the encoder that uses bitmaps as long as they have a bit to set.

Decoding a section whose words encode a list of addresses gives that list.
-/

namespace Vts.Elf

open Python (Exception Host Text)
open Lib.WordCodec List Nat

/-! ## Encoding -/

namespace ElfClass

variable (elfClass : ElfClass)

/-- The number of slots that a bitmap covers. -/
def bitmapSlots : Nat := elfClass.bitness - 1

/-- The end of the slots of a bitmap. -/
def bitmapEnd (base : Nat) : Nat := base + elfClass.bitmapSlots * elfClass.addrSize

/-- The addresses of the slots from a base on whose bits are set. -/
def slots (base bits : Nat) : List Nat :=
  ((List.range elfClass.bitmapSlots).filter fun slot => bits.testBit slot).map fun slot =>
    base + slot * elfClass.addrSize

/-- The words encode the addresses, when a bitmap that comes first begins at the
base. -/
inductive RelrEncodes : Nat → List Nat → List Nat → Prop where
  | done (base : Nat) : RelrEncodes base [] []
  | address {base address : Nat} {words addresses : List Nat} (even : address % 2 = 0)
      (fits : address < 2 ^ elfClass.bitness)
      (later : RelrEncodes (address + elfClass.addrSize) words addresses) :
      RelrEncodes base (address :: words) (address :: addresses)
  | bitmap {base bits : Nat} {words addresses : List Nat} (fits : bits < 2 ^ elfClass.bitmapSlots)
      (later : RelrEncodes (elfClass.bitmapEnd base) words addresses) :
      RelrEncodes base ((2 * bits + 1) :: words) (elfClass.slots base bits ++ addresses)

/-- The bits of the addresses in the slots from a base on. -/
def bitmapOf (base : Nat) (addresses : List Nat) : Nat :=
  addresses.foldr (fun address bits => bits ||| 2 ^ ((address - base) / elfClass.addrSize)) 0

/-- The words for the addresses after a base: a bitmap while one of its slots is used,
else a new address. -/
def relrWordsFrom (base : Nat) : List Nat → List Nat
  | [] => []
  | address :: others =>
    if address < elfClass.bitmapEnd base then
      let inside := address :: others.takeWhile (· < elfClass.bitmapEnd base)
      (2 * elfClass.bitmapOf base inside + 1) ::
        relrWordsFrom (elfClass.bitmapEnd base) (others.dropWhile (· < elfClass.bitmapEnd base))
    else address :: relrWordsFrom (address + elfClass.addrSize) others
termination_by addresses => addresses.length
decreasing_by
  · exact Nat.lt_succ_of_le (List.dropWhile_sublist _).length_le
  · simp

/-- The standard encoding of a list of addresses. -/
def relrWords (addresses : List Nat) : List Nat :=
  match addresses with
  | [] => []
  | address :: others => address :: elfClass.relrWordsFrom (address + elfClass.addrSize) others

end ElfClass

/-- Addresses in increasing order, each a multiple of the word size that fits a word. -/
structure Relocatable (elfClass : ElfClass) (addresses : List Nat) : Prop where
  increasing : addresses.Pairwise (· < ·)
  aligned : ∀ address ∈ addresses, elfClass.addrSize ∣ address
  fits : ∀ address ∈ addresses, address < 2 ^ elfClass.bitness

theorem Relocatable.tail {elfClass : ElfClass} {address : Nat} {addresses : List Nat}
    (relocatable : Relocatable elfClass (address :: addresses)) :
    Relocatable elfClass addresses :=
  ⟨relocatable.increasing.tail, fun other listed => relocatable.aligned other (by simp [listed]),
    fun other listed => relocatable.fits other (by simp [listed])⟩

theorem Relocatable.sublist {elfClass : ElfClass} {part addresses : List Nat}
    (relocatable : Relocatable elfClass addresses) (inside : part.Sublist addresses) :
    Relocatable elfClass part :=
  ⟨relocatable.increasing.sublist inside,
    fun other listed => relocatable.aligned other (inside.subset listed),
    fun other listed => relocatable.fits other (inside.subset listed)⟩

namespace ElfClass

variable {elfClass : ElfClass}

theorem addrSize_pos (elfClass : ElfClass) : 0 < elfClass.addrSize := by
  cases elfClass <;> decide

theorem two_dvd_addrSize (elfClass : ElfClass) : 2 ∣ elfClass.addrSize := by
  cases elfClass <;> decide

theorem testBit_bitmapOf (base : Nat) (addresses : List Nat) (slot : Nat) :
    (elfClass.bitmapOf base addresses).testBit slot = true ↔
      ∃ address ∈ addresses, (address - base) / elfClass.addrSize = slot := by
  induction addresses with
  | nil => simp [bitmapOf]
  | cons address addresses ih =>
    have step : elfClass.bitmapOf base (address :: addresses) =
        elfClass.bitmapOf base addresses ||| 2 ^ ((address - base) / elfClass.addrSize) := rfl
    rw [step, testBit_or, Bool.or_eq_true, ih, testBit_two_pow]
    simp [or_comm]

section

variable {base : Nat} {addresses : List Nat}

theorem bitmapOf_lt (inside : ∀ address ∈ addresses, address < elfClass.bitmapEnd base) :
    elfClass.bitmapOf base addresses < 2 ^ elfClass.bitmapSlots := by
  refine lt_pow_two_of_testBit _ fun slot beyond => ?_
  by_contra set
  obtain ⟨address, listed, rfl⟩ :=
    (testBit_bitmapOf base addresses slot).mp (by simpa using set)
  have bound := inside address listed
  have positive : 0 < elfClass.bitmapSlots * elfClass.addrSize := by cases elfClass <;> decide
  have small : (address - base) / elfClass.addrSize < elfClass.bitmapSlots := by
    rw [div_lt_iff_lt_mul elfClass.addrSize_pos]
    rw [bitmapEnd] at bound
    omega
  omega

theorem slots_increasing (elfClass : ElfClass) (base bits : Nat) :
    (elfClass.slots base bits).Pairwise (· < ·) := by
  refine List.Pairwise.map _ ?_ ((pairwise_lt_range).filter _)
  intro first second smaller
  have scaled := mul_lt_mul_of_pos_right smaller elfClass.addrSize_pos
  omega

/-- A bitmap gives its addresses back. -/
theorem slots_bitmapOf (aligned : elfClass.addrSize ∣ base)
    (relocatable : Relocatable elfClass addresses) (after : ∀ address ∈ addresses, base ≤ address)
    (inside : ∀ address ∈ addresses, address < elfClass.bitmapEnd base) :
    elfClass.slots base (elfClass.bitmapOf base addresses) = addresses := by
  have placed (address : Nat) (listed : address ∈ addresses) :
      base + (address - base) / elfClass.addrSize * elfClass.addrSize = address := by
    have multiple : elfClass.addrSize ∣ address - base :=
      dvd_sub (relocatable.aligned address listed) aligned
    have order := after address listed
    rw [Nat.div_mul_cancel multiple]
    omega
  refine (elfClass.slots_increasing base _).eq_of_mem_iff relocatable.increasing fun address => ?_
  simp only [slots, mem_map, mem_filter, mem_range, testBit_bitmapOf]
  constructor
  · rintro ⟨slot, ⟨_, other, listed, rfl⟩, rfl⟩
    rwa [placed other listed]
  · intro listed
    refine ⟨(address - base) / elfClass.addrSize, ⟨?_, address, listed, rfl⟩,
      placed address listed⟩
    have bound := inside address listed
    have order := after address listed
    rw [div_lt_iff_lt_mul elfClass.addrSize_pos]
    rw [bitmapEnd] at bound
    omega

theorem addrSize_dvd_bitmapEnd (aligned : elfClass.addrSize ∣ base) :
    elfClass.addrSize ∣ elfClass.bitmapEnd base :=
  (Nat.dvd_add_right aligned).mpr (Nat.dvd_mul_left _ _)

/-- The addresses after the first are at least a word apart from it. -/
theorem add_addrSize_le {address : Nat} {others : List Nat}
    (relocatable : Relocatable elfClass (address :: others)) :
    ∀ other ∈ others, address + elfClass.addrSize ≤ other := by
  intro other listed
  have order := (pairwise_cons.mp relocatable.increasing).1 other listed
  have multiple := dvd_sub (relocatable.aligned other (by simp [listed]))
    (relocatable.aligned address (by simp))
  have apart := le_of_dvd (by omega) multiple
  omega

/-- What is left of an increasing list starts at the limit. -/
theorem le_of_mem_dropWhile {limit : Nat} (increasing : addresses.Pairwise (· < ·)) :
    ∀ address ∈ addresses.dropWhile (· < limit), limit ≤ address := by
  induction addresses with
  | nil => simp
  | cons first others ih =>
    have order := pairwise_cons.mp increasing
    by_cases below : first < limit
    · rw [dropWhile_cons_of_pos (by simpa using below)]
      exact ih order.2
    · rw [dropWhile_cons_of_neg (by simpa using below)]
      intro address listed
      rcases mem_cons.mp listed with rfl | later
      · omega
      · have larger := order.1 address later
        omega

theorem even_of_aligned {address : Nat} (aligned : elfClass.addrSize ∣ address) :
    address % 2 = 0 :=
  mod_eq_zero_of_dvd (elfClass.two_dvd_addrSize.trans aligned)

theorem relrWordsFrom_encodes (aligned : elfClass.addrSize ∣ base)
    (relocatable : Relocatable elfClass addresses) (after : ∀ address ∈ addresses, base ≤ address) :
    elfClass.RelrEncodes base (elfClass.relrWordsFrom base addresses) addresses := by
  induction base, addresses using relrWordsFrom.induct elfClass with
  | case1 base =>
    rw [relrWordsFrom]
    exact .done base
  | case2 base address others used ih =>
    set limit := elfClass.bitmapEnd base with limitIs
    have parts : (address :: others.takeWhile (· < limit)) ++ others.dropWhile (· < limit) =
        address :: others := by simp
    have firstPart : (address :: others.takeWhile (· < limit)).Sublist (address :: others) :=
      (takeWhile_sublist _).cons_cons address
    have secondPart : (others.dropWhile (· < limit)).Sublist (address :: others) :=
      (dropWhile_sublist _).cons address
    have below : ∀ other ∈ address :: others.takeWhile (· < limit), other < limit := by
      intro other listed
      rcases mem_cons.mp listed with rfl | taken
      · exact used
      · simpa using mem_takeWhile_imp taken
    have bitmap := slots_bitmapOf aligned (relocatable.sublist firstPart)
      (fun other listed => after other (firstPart.subset listed)) below
    have later := ih (addrSize_dvd_bitmapEnd aligned)
      (relocatable.sublist secondPart) (le_of_mem_dropWhile relocatable.tail.increasing)
    have encoded : elfClass.RelrEncodes base _ _ := .bitmap (bitmapOf_lt below) later
    rw [bitmap, parts] at encoded
    rwa [relrWordsFrom, if_pos used]
  | case3 base address others unused ih =>
    have addressAligned := relocatable.aligned address (by simp)
    rw [relrWordsFrom, if_neg unused]
    exact .address (even_of_aligned addressAligned) (relocatable.fits address (by simp))
      (ih (Nat.dvd_add addressAligned (Nat.dvd_refl _)) relocatable.tail
        (add_addrSize_le relocatable))

theorem relrWords_encodes (relocatable : Relocatable elfClass addresses) :
    elfClass.RelrEncodes 0 (elfClass.relrWords addresses) addresses := by
  cases addresses with
  | nil => exact .done 0
  | cons address others =>
    have addressAligned := relocatable.aligned address (by simp)
    exact .address (even_of_aligned addressAligned) (relocatable.fits address (by simp))
      (relrWordsFrom_encodes (Nat.dvd_add addressAligned (Nat.dvd_refl _)) relocatable.tail
        (add_addrSize_le relocatable))

end

end ElfClass

/-! ## Decoding -/

/-- The bits of a bitmap word above its lowest. -/
theorem bitmap_bit (bits slot : Nat) :
    (2 * bits + 1) >>> (slot + 1) &&& 1 = 1 ↔ bits.testBit slot = true := by
  rw [Nat.and_one_is_mod, Nat.shiftRight_eq_div_pow, Nat.testBit_eq_decide_div_mod_eq,
    decide_eq_true_eq, Nat.pow_succ', ← Nat.div_div_eq_div_mul]
  have half : (2 * bits + 1) / 2 = bits := by omega
  rw [half]

namespace ElfParser

/-- The inner loop of the decoder yields the slots whose bits are set. -/
theorem bitmapOffsets_eq (addrSize bits slot count base : Nat) :
    bitmapOffsets addrSize (2 * bits + 1) (slot + 1) count base =
      (((List.range count).filter fun i => bits.testBit (slot + i)).map fun i =>
        base + i * addrSize, base + count * addrSize) := by
  induction count generalizing slot base with
  | zero => simp [bitmapOffsets]
  | succ count ih =>
    have tail : (((List.range count).map Nat.succ).filter fun i => bits.testBit (slot + i)).map
        (fun i => base + i * addrSize) =
        ((List.range count).filter fun i => bits.testBit (slot + 1 + i)).map fun i =>
          base + addrSize + i * addrSize := by
      rw [filter_map, map_map]
      congr 1
      · funext i
        simp only [Function.comp_apply, succ_mul]
        omega
      · congr 1
        funext i
        simp only [Function.comp_apply]
        congr 1
        omega
    have final : base + (count + 1) * addrSize = base + addrSize + count * addrSize := by
      rw [succ_mul]
      omega
    rw [bitmapOffsets, ih (slot + 1), range_succ_eq_map, final]
    dsimp only
    by_cases set : bits.testBit slot = true
    · rw [if_pos ((bitmap_bit bits slot).mpr set), filter_cons_of_pos (by simpa using set),
        map_cons, tail]
      simp
    · rw [if_neg (mt (bitmap_bit bits slot).mp set), filter_cons_of_neg (by simpa using set),
        tail]

end ElfParser

namespace ElfParser

variable {self : ElfParser}

/-- The words of a section as they stand in the file. -/
def relrBytes (elfClass : ElfClass) (words : List Nat) : Text :=
  words.flatMap (leBytes elfClass.addrSize)

section

variable {offset : Nat} {words : List Nat} {after : Text} (elfClass : ElfClass)

theorem relrBytes_length (words : List Nat) :
    (relrBytes elfClass words).length = elfClass.addrSize * words.length := by
  induction words with
  | nil => rfl
  | cons word words ih =>
    have step : relrBytes elfClass (word :: words) =
        leBytes elfClass.addrSize word ++ relrBytes elfClass words := rfl
    rw [step, length_append, leBytes_length, ih, length_cons,
      mul_succ, add_comm]

theorem two_pow_bitness : 2 ^ elfClass.bitness = 256 ^ elfClass.addrSize := by
  cases elfClass <;> decide

/-- The words have the width of an address. -/
theorem seekReadEntry_eq (self : ElfParser) (offset : Nat) :
    self.seekReadEntry offset = self.source.seekReadInt offset self.elfClass.addrSize := by
  unfold seekReadEntry
  cases self.elfClass <;> rfl

/-- One word of the section is read, and the others follow it. -/
theorem seekReadEntry_stored {value : Nat} (fits : value < 2 ^ self.elfClass.bitness)
    (stored : self.source.rest offset = relrBytes self.elfClass (value :: words) ++ after) :
    self.seekReadEntry offset = .ok value ∧
      self.source.rest (offset + self.elfClass.addrSize) =
        relrBytes self.elfClass words ++ after := by
  rw [two_pow_bitness] at fits
  rw [relrBytes, flatMap_cons, append_assoc] at stored
  refine ⟨?_, ?_⟩
  · rw [seekReadEntry_eq]
    exact Source.seekReadInt_stored self.elfClass.addrSize_pos fits stored
  · rw [Source.rest_add, stored, drop_left' (leBytes_length _ _)]
    rfl

theorem rangeStep_bits (host : Host) (elfClass : ElfClass) :
    host.rangeStep 1 (elfClass.addrSize * 8) 1 = .ok elfClass.bitmapSlots := by
  have room := host.rangeLimit_ge
  cases elfClass <;> exact Host.rangeItems_of_lt (lt_of_lt_of_le (by decide) room)

/-- The decoder yields the addresses that the words encode. -/
theorem relrOffsets_encodes {base : Nat} {addresses : List Nat}
    (encodes : self.elfClass.RelrEncodes base words addresses)
    (stored : self.source.rest offset = relrBytes self.elfClass words ++ after) :
    self.relrOffsets self.elfClass.addrSize words.length offset base = .ok addresses := by
  induction encodes generalizing offset with
  | done base => rfl
  | @address base address words addresses even fits later ih =>
    obtain ⟨read, next⟩ := seekReadEntry_stored fits stored
    have lowest : address &&& 1 = 0 := by rwa [Nat.and_one_is_mod]
    rw [length_cons, relrOffsets, read]
    simp only [bind, Except.bind, lowest, ↓reduceIte, ih next]
  | @bitmap base bits words addresses fits later ih =>
    have wordFits : 2 * bits + 1 < 2 ^ self.elfClass.bitness := by
      have split : 2 ^ self.elfClass.bitness = 2 * 2 ^ self.elfClass.bitmapSlots := by
        cases self.elfClass <;> decide
      omega
    obtain ⟨read, next⟩ := seekReadEntry_stored wordFits stored
    have lowest : (2 * bits + 1) &&& 1 ≠ 0 := by
      rw [Nat.and_one_is_mod]
      omega
    have yielded : bitmapOffsets self.elfClass.addrSize (2 * bits + 1) 1
        self.elfClass.bitmapSlots base =
        (self.elfClass.slots base bits, self.elfClass.bitmapEnd base) := by
      simpa [ElfClass.slots, ElfClass.bitmapEnd] using
        bitmapOffsets_eq self.elfClass.addrSize bits 0 self.elfClass.bitmapSlots base
    rw [length_cons, relrOffsets, read]
    simp only [bind, Except.bind, lowest, ↓reduceIte, rangeStep_bits, yielded,
      ih next]

end

/-- An address is kept by a field of its width. -/
theorem wrap_of_lt {elfClass : ElfClass} {address : Nat} (fits : address < 2 ^ elfClass.bitness) :
    elfClass.wrap address = address := by
  have small : (address : Int) < 2 ^ elfClass.bitness := by exact_mod_cast fits
  rw [ElfClass.wrap, Int.emod_eq_of_lt (Int.natCast_nonneg address) small, Int.toNat_natCast]

/-- A section of words as wide as an address, whose words encode a list of addresses,
is decoded into relocations at these addresses; and the words of the standard
encoding of an increasing list of aligned addresses do encode it. -/
theorem decodeAndroidRelr_encoded (self : ElfParser) (rel : Shdr)
    (entsize : rel.shEntsize = self.elfClass.addrSize) {addresses : List Nat}
    (relocatable : Relocatable self.elfClass addresses) :
    self.elfClass.RelrEncodes 0 (self.elfClass.relrWords addresses) addresses ∧
    ∀ words after, self.elfClass.RelrEncodes 0 words addresses →
      rel.shSize = self.elfClass.addrSize * words.length →
      self.source.rest rel.shOffset = relrBytes self.elfClass words ++ after →
      ∃ relocations, self.decodeAndroidRelr rel = .ok relocations ∧
        relocations.map Rel.rOffset = addresses := by
  refine ⟨ElfClass.relrWords_encodes relocatable, ?_⟩
  intro words after encodes size stored
  have counted : self.host.rangeStep rel.shOffset (rel.shOffset + rel.shSize) rel.shEntsize =
      .ok words.length := by
    have length := self.source.length_rest rel.shOffset
    rw [stored, length_append, relrBytes_length] at length
    have listable : self.source.fileSize < self.host.rangeLimit := self.source.file.listable
    have positive := self.elfClass.addrSize_pos
    have few := Nat.le_mul_of_pos_left words.length positive
    have items : (rel.shOffset + rel.shSize - rel.shOffset + rel.shEntsize - 1) / rel.shEntsize =
        words.length := by
      rw [entsize, size, Nat.add_sub_cancel_left]
      refine Nat.div_eq_of_lt_le ?_ ?_
      · rw [Nat.mul_comm]
        omega
      · rw [succ_mul, Nat.mul_comm words.length]
        omega
    rw [Host.rangeStep, if_neg (by omega), items]
    exact Host.rangeItems_of_lt (by omega)
  have decoded := relrOffsets_encodes encodes stored
  refine ⟨addresses.map fun offset : Nat => self.elfClass.createElfRel offset 0, ?_, ?_⟩
  · rw [decodeAndroidRelr, counted, entsize]
    simp only [bind, Except.bind, decoded]
  · rw [map_map]
    refine (map_congr_left fun address listed => ?_).trans (map_id _)
    exact wrap_of_lt (relocatable.fits address listed)

/-- A section of two words, an address and a bitmap with its lowest slot, is decoded
into two addresses. -/
theorem twoWords_decoded :
    ∃ relocations,
      (sectionParser .elfClass32 [16, 0, 0, 0, 3, 0, 0, 0] (by decide)).decodeAndroidRelr
        { shName := 0, shType := shtRelr, shAddr := 0, shOffset := 0, shSize := 8,
          shEntsize := 4 } = .ok relocations ∧
      relocations.map Rel.rOffset = [16, 20] := by
  have relocatable : Relocatable .elfClass32 [16, 20] := ⟨by decide, by decide, by decide⟩
  have bitmap : ElfClass.RelrEncodes .elfClass32 20 [2 * 1 + 1]
      (ElfClass.slots .elfClass32 20 1 ++ []) := .bitmap (by decide) (.done _)
  refine (decodeAndroidRelr_encoded _ _ rfl relocatable).2 [16, 3] [] ?_ rfl rfl
  exact .address (by decide) (by decide) bitmap

end ElfParser

end Vts.Elf
