import Vts.RawCoverage.GcdaParser
import Vts.RawCoverage.Reading

/-!
# From record to record

What the loop of `ParseBody` does to the window of the reader depends on the words of the file only:
`recordAt` reads the record at a place and gives the place where the next one is looked for. The
place is the base of the record plus its length with 32 bits, so it may lie before the record.
-/

namespace Vts.RawCoverage

open Lib
open Lib.Loop (Ends NeverReturns Visits)

/-! ## The walk over the records -/

/-- The words of a file in its byte order. -/
def fileWords (endian : Bool) (bytes : List UInt8) : List Unsigned :=
  (toWords bytes).map (FromFile endian)

/-- The word at a place; behind the end it is zero. -/
def wordAt (words : List Unsigned) (window : Window) : Unsigned := words[window.here]?.getD 0

def nextWord (words : List Unsigned) (window : Window) : Window := window.next BLOCK words.length

/-- What the record at a place adds to the result, and where the next record is looked for. The
records end at a zero tag. -/
def recordAt (words : List Unsigned) (window : Window) : Option (List Unsigned × Window) :=
  let tag := wordAt words window
  let lengthPlace := nextWord words window
  let length := wordAt words lengthPlace
  let base := nextWord words lengthPlace
  let target := BitVec.ofNat 32 base.here + length
  if tag = 0 then none
  else if tag = GCOV_TAG_FUNCTION ∧ length ≠ 0 then
    let checksumPlace := nextWord words base
    some ([wordAt words checksumPlace],
      syncTo target (nextWord words (nextWord words checksumPlace)))
  else some ([], syncTo target base)

/-- The place of the next record. -/
def nextPlace (words : List Unsigned) (window : Window) : Option Window :=
  (recordAt words window).map Prod.snd

/-- The place behind the magic number, the version and the stamp. -/
def bodyPlace (words : List Unsigned) : Window :=
  nextWord words (nextWord words (nextWord words (Window.emptyAt 0)))

/-! ## The tags -/

/-- The shifted mask has no sign bit. -/
theorem mask_lt (tag : Unsigned) : (GCOV_TAG_MASK tag >>> 1).toNat < 2 ^ 31 := by
  have bound := (GCOV_TAG_MASK tag).isLt
  rw [BitVec.toNat_ushiftRight, Nat.shiftRight_eq_div_pow]
  omega

/-- Every byte of the mask takes one from the depth, and the last byte cannot. -/
theorem tagDepthLoop_range (bytes : Nat) (mask tag_depth : Unsigned)
    (small : mask.toNat < 2 ^ (8 * bytes + 7)) (low : bytes + 1 ≤ tag_depth.toNat)
    (high : tag_depth.toNat ≤ 4) :
    1 ≤ (tagDepthLoop (bytes + 1) mask tag_depth).1.toNat ∧
      (tagDepthLoop (bytes + 1) mask tag_depth).1.toNat ≤ 4 := by
  have stays : 1 ≤ tag_depth.toNat ∧ tag_depth.toNat ≤ 4 := by omega
  induction bytes generalizing mask tag_depth with
  | zero =>
    have notFull : mask &&& 0xff ≠ 0xff := by
      intro full
      have number := congrArg BitVec.toNat full
      have byte : mask.toNat &&& 255 = mask.toNat % 2 ^ 8 := Nat.and_two_pow_sub_one_eq_mod _ 8
      rw [BitVec.toNat_and] at number
      change mask.toNat &&& 255 = 255 at number
      omega
    rw [tagDepthLoop]
    by_cases zero : mask = 0
    · rw [if_pos zero]
      exact stays
    · rw [if_neg zero, if_pos notFull]
      exact stays
  | succ bytes ih =>
    rw [tagDepthLoop]
    by_cases zero : mask = 0
    · rw [if_pos zero]
      exact stays
    · rw [if_neg zero]
      by_cases notFull : mask &&& 0xff ≠ 0xff
      · rw [if_pos notFull]
        exact stays
      · rw [if_neg notFull]
        have lower : (tag_depth - 1).toNat = tag_depth.toNat - 1 := by bv_omega
        have shifted : (mask >>> 8).toNat < 2 ^ (8 * bytes + 7) := by
          have power : 2 ^ (8 * (bytes + 1) + 7) = 2 ^ (8 * bytes + 7) * 2 ^ 8 := by
            rw [← Nat.pow_add]
            congr 1
          rw [power] at small
          rw [BitVec.toNat_ushiftRight, Nat.shiftRight_eq_div_pow]
          exact Nat.div_lt_of_lt_mul (by rwa [Nat.mul_comm] at small)
        exact ih _ _ shifted (by omega) (by omega) (by omega)

theorem tagDepth_range (tag : Unsigned) :
    1 ≤ (tagDepth tag).1.toNat ∧ (tagDepth tag).1.toNat ≤ 4 :=
  tagDepthLoop_range 3 _ _ (mask_lt tag) (by decide) (by decide)

/-- The four entries of `tags`, of which the one at the depth has been set. -/
def Body.TagsSet (body : Body) : Prop :=
  body.tags.length = 4 ∧
    (body.depth = 0 ∨ ∃ tag, body.tags[(body.depth - 1).toNat]? = some (some tag))

/-- Only the output is changed by the checks of a tag, besides the tags. -/
structure Body.SameReading (before after : Body) : Prop where
  gcda_file_ : after.self.gcda_file_ = before.self.gcda_file_
  result : after.self.result = before.self.result

theorem Body.SameReading.trans {first second third : Body} (before : first.SameReading second)
    (after : second.SameReading third) : first.SameReading third :=
  ⟨after.gcda_file_.trans before.gcda_file_, after.result.trans before.result⟩

/-- A message leaves the tags and the reading as they are. -/
theorem Body.write_same (condition : Bool) (message : Message) (body : Body) :
    let after := if condition then { body with self := body.self.write message } else body
    after.tags = body.tags ∧ after.depth = body.depth ∧ body.SameReading after := by
  cases condition
  · exact ⟨rfl, rfl, rfl, rfl⟩
  · exact ⟨rfl, rfl, rfl, rfl⟩

theorem Body.isMisplaced_ok {body : Body} (set : body.TagsSet) (tag tag_depth : Unsigned) :
    ∃ misplaced, body.isMisplaced tag tag_depth = .ok misplaced := by
  unfold Body.isMisplaced
  by_cases deeper : body.depth ≠ 0 ∧ body.depth < tag_depth
  · rw [if_pos deeper]
    obtain shallow | ⟨parent, entry⟩ := set.2
    · exact absurd shallow deeper.1
    · have found : body.parentTag = .ok parent := by
        rw [Body.parentTag, entry]
      exact ⟨_, by rw [found]; rfl⟩
  · exact ⟨false, if_neg deeper⟩

theorem Body.setTag_ok {body : Body} (four : body.tags.length = 4) (low : 1 ≤ body.depth.toNat)
    (high : body.depth.toNat ≤ 4) (tag : Unsigned) :
    ∃ after, body.setTag tag = .ok after ∧ after.TagsSet ∧ body.SameReading after := by
  have index : (body.depth - 1).toNat < body.tags.length := by
    rw [four]
    bv_omega
  refine ⟨_, if_pos index, ⟨?_, .inr ⟨tag, ?_⟩⟩, rfl, rfl⟩
  · rw [List.length_set]
    exact four
  · exact List.getElem?_set_self index

/-- The index of a tag is always inside of `tags`. -/
theorem Body.nest_ok {body : Body} (set : body.TagsSet) (tag : Unsigned) :
    ∃ after, body.nest tag = .ok after ∧ after.TagsSet ∧ body.SameReading after := by
  have range := tagDepth_range tag
  unfold Body.nest
  generalize tagDepth tag = depth at range
  obtain ⟨tag_depth, invalid⟩ := depth
  have checked := Body.write_same invalid (.invalidTag tag) body
  dsimp only at range checked ⊢
  generalize (if invalid then _ else body) = first at checked ⊢
  obtain ⟨tags, depth, reading⟩ := checked
  have firstSet : first.TagsSet := by
    rw [Body.TagsSet, tags, depth]
    exact set
  obtain ⟨misplaced, found⟩ := Body.isMisplaced_ok firstSet tag tag_depth
  have warned := Body.write_same misplaced (.incorrectlyNestedTag tag) first
  rw [found]
  dsimp only at warned
  change ∃ after, Body.setTag tag
    { (if misplaced then { first with self := first.self.write (.incorrectlyNestedTag tag) }
      else first) with depth := tag_depth } = _ ∧ _
  generalize (if misplaced then _ else first) = second at warned ⊢
  obtain ⟨secondTags, _, secondReading⟩ := warned
  have four : second.tags.length = 4 := by
    rw [secondTags]
    exact firstSet.1
  obtain ⟨after, same, afterSet, lastReading⟩ :=
    @Body.setTag_ok { second with depth := tag_depth } four range.1 range.2 tag
  exact ⟨after, same, afterSet,
    (reading.trans secondReading).trans ⟨lastReading.gcda_file_, lastReading.result⟩⟩

/-! ## The loop -/

variable {bytes : List UInt8} {endian : Bool} {window : Window}

theorem wordAt_fileWords (window : Window) :
    wordAt (fileWords endian bytes) window =
      FromFile endian ((toWords bytes)[window.here]?.getD 0) := by
  have zero : FromFile endian 0 = 0 := by cases endian <;> decide
  rw [wordAt, fileWords, List.getElem?_map, ← zero, Option.getD_map, zero]

theorem nextWord_fileWords (window : Window) :
    nextWord (fileWords endian bytes) window = window.next BLOCK (toWords bytes).length := by
  rw [nextWord, fileWords, List.length_map]

/-- The parser reads the word at its place, and nothing else changes. -/
theorem Shows.word {self : GcdaRawCoverageParser} (shows : Shows bytes endian self.gcda_file_ window) :
    ∃ gcda_file_, self.ReadUnsigned =
        (wordAt (fileWords endian bytes) window, { self with gcda_file_ := gcda_file_ }) ∧
      Shows bytes endian gcda_file_ (nextWord (fileWords endian bytes) window) := by
  obtain ⟨value, after⟩ := shows.readUnsigned
  refine ⟨_, ?_, nextWord_fileWords window ▸ after⟩
  rw [wordAt_fileWords, ← value]
  rfl

/-- A body whose reader stands at a place. -/
structure Body.At (bytes : List UInt8) (endian : Bool) (body : Body) (window : Window) : Prop where
  shows : Shows bytes endian body.self.gcda_file_ window
  tagsSet : body.TagsSet

/-- The words of a record that are read behind its length, and what they add to the result. -/
theorem dispatch_reads {self : GcdaRawCoverageParser}
    (shows : Shows bytes endian self.gcda_file_ window) (tag length : Unsigned) :
    let words := fileWords endian bytes
    let isFunction := tag = GCOV_TAG_FUNCTION ∧ length ≠ 0
    Shows bytes endian (self.dispatch tag length).gcda_file_
        (if isFunction then nextWord words (nextWord words (nextWord words window)) else window) ∧
      (self.dispatch tag length).result =
        self.result ++ if isFunction then [wordAt words (nextWord words window)] else [] := by
  dsimp only
  unfold GcdaRawCoverageParser.dispatch
  by_cases function : tag = GCOV_TAG_FUNCTION
  · rw [if_pos function, GcdaRawCoverageParser.TagFunction]
    by_cases empty : length = 0
    · have nothing : ¬(tag = GCOV_TAG_FUNCTION ∧ length ≠ 0) := fun both => both.2 empty
      rw [if_pos empty, if_neg nothing, if_neg nothing, List.append_nil]
      exact ⟨shows, rfl⟩
    · rw [if_neg empty, if_pos ⟨function, empty⟩, if_pos ⟨function, empty⟩]
      obtain ⟨first, firstRead, firstShows⟩ := shows.word
      obtain ⟨second, secondRead, secondShows⟩ :=
        @Shows.word _ _ _ { self with gcda_file_ := first } firstShows
      obtain ⟨third, thirdRead, thirdShows⟩ := @Shows.word _ _ _ { self with
        gcda_file_ := second
        result := self.result ++ [wordAt (fileWords endian bytes)
          (nextWord (fileWords endian bytes) window)] } secondShows
      simp only [firstRead, secondRead, thirdRead]
      exact ⟨thirdShows, trivial⟩
  · have unread : ∀ message, Shows bytes endian (self.write message).gcda_file_ window ∧
        (self.write message).result = self.result := fun _ => ⟨shows, rfl⟩
    have other : ¬(tag = GCOV_TAG_FUNCTION ∧ length ≠ 0) := fun both => function both.1
    rw [if_neg function, if_neg other, if_neg other, List.append_nil]
    split
    · exact unread _
    · split
      · exact unread _
      · split
        · exact unread _
        · exact ⟨shows, rfl⟩

/-- An iteration does what `recordAt` says. -/
theorem iterate_eq {body : Body} (standing : body.At bytes endian window) :
    match recordAt (fileWords endian bytes) window with
    | none => ∃ left, body.iterate = .left (.ok left) ∧ left.self.result = body.self.result
    | some (added, place) => ∃ after, body.iterate = .next after ∧ after.At bytes endian place ∧
        after.self.result = body.self.result ++ added := by
  obtain ⟨first, tagRead, firstShows⟩ := standing.shows.word
  unfold Body.iterate recordAt
  rw [tagRead]
  dsimp only
  by_cases zero : wordAt (fileWords endian bytes) window = 0
  · rw [if_pos zero, if_pos zero]
    exact ⟨_, rfl, rfl⟩
  · rw [if_neg zero, if_neg zero]
    obtain ⟨second, lengthRead, secondShows⟩ :=
      @Shows.word _ _ _ { body.self with gcda_file_ := first } firstShows
    rw [lengthRead]
    dsimp only
    rw [secondShows.position]
    have set : Body.TagsSet { body with self := { body.self with gcda_file_ := second } } :=
      standing.tagsSet
    obtain ⟨nested, nestOk, nestedSet, reading⟩ := Body.nest_ok set
      (wordAt (fileWords endian bytes) window)
    rw [nestOk]
    dsimp only
    have nestedShows : Shows bytes endian nested.self.gcda_file_
        (nextWord (fileWords endian bytes) (nextWord (fileWords endian bytes) window)) := by
      rw [reading.gcda_file_]
      exact secondShows
    obtain ⟨dispatched, added⟩ := dispatch_reads nestedShows
      (wordAt (fileWords endian bytes) window)
      (wordAt (fileWords endian bytes) (nextWord (fileWords endian bytes) window))
    have synced := dispatched.sync
      (BitVec.ofNat 32
        (nextWord (fileWords endian bytes) (nextWord (fileWords endian bytes) window)).here)
      (wordAt (fileWords endian bytes) (nextWord (fileWords endian bytes) window))
    have noError := synced.noError
    rw [reading.result] at added
    by_cases isFunction : wordAt (fileWords endian bytes) window = GCOV_TAG_FUNCTION ∧
        wordAt (fileWords endian bytes) (nextWord (fileWords endian bytes) window) ≠ 0
    · rw [if_pos isFunction] at synced added
      rw [if_pos isFunction]
      exact ⟨_, if_neg (fun wrong => wrong noError), ⟨synced, nestedSet⟩, added⟩
    · rw [if_neg isFunction] at synced added
      rw [if_neg isFunction]
      exact ⟨_, if_neg (fun wrong => wrong noError), ⟨synced, nestedSet⟩, added⟩

/-! ## Files of less than `2 ^ 30` words -/

/-- The record at a position of the file: the position alone decides where the next one is looked for. -/
def recordFrom (words : List Unsigned) (position : Nat) : Option (List Unsigned × Nat) :=
  let tag := words[position]?.getD 0
  let length := words[position + 1]?.getD 0
  if tag = 0 then none
  else some
    (if tag = GCOV_TAG_FUNCTION ∧ length ≠ 0 then [words[position + 3]?.getD 0] else [],
      (min (position + 2) words.length + length.toNat) % 2 ^ 30)

/-- A window on a file of less than `2 ^ 30` words. -/
structure Small (words : List Unsigned) (window : Window) : Prop where
  size : words.length < 2 ^ 30
  within : window.Within words.length
  last : window.last < 2 ^ 30

namespace Small

variable {words : List Unsigned} {window : Window}

theorem nextWord (small : Small words window) : Small words (nextWord words window) where
  size := small.size
  within := small.within.next
  last := by
    have sizeLe : words.length ≤ 2 ^ 30 - 1 := by have size := small.size; omega
    have lastLe : window.last ≤ 2 ^ 30 - 1 := by have last := small.last; omega
    have bounded := @Window.next_last_le BLOCK _ _ _ sizeLe lastLe
    change (window.next BLOCK words.length).last < 2 ^ 30
    omega

theorem nextWord_here (small : Small words window) : (RawCoverage.nextWord words window).here =
    if window.here < words.length then window.here + 1 else window.here :=
  Window.next_here small.within (by decide)

/-- The place after `Sync`. -/
theorem syncTo_here (small : Small words window) (target : Unsigned) :
    (syncTo target window).here = target.toNat % 2 ^ 30 := by
  have last := small.last
  have ordered := window.firstLe
  have bounded := window.hereLe
  unfold syncTo
  split
  · next inside =>
    change window.first + (target - BitVec.ofNat 32 window.first).toNat = _
    rw [BitVec.toNat_sub, BitVec.toNat_ofNat] at inside ⊢
    omega
  · rfl

theorem syncTo (small : Small words window) (target : Unsigned) :
    Small words (syncTo target window) := by
  unfold RawCoverage.syncTo
  split
  · exact ⟨small.size, small.within, small.last⟩
  · exact ⟨small.size, Window.within_emptyAt _ _, Nat.mod_lt _ (by decide)⟩

/-- The words behind a place, whether or not the file ends before them. -/
theorem nextWord_word (small : Small words window) (more : Nat) :
    words[(RawCoverage.nextWord words window).here + more]?.getD 0 =
      words[window.here + 1 + more]?.getD 0 := by
  rw [small.nextWord_here]
  split
  · rfl
  · next ended =>
    rw [List.getElem?_eq_none (by omega), List.getElem?_eq_none (by omega)]

/-- What a window and its position say about the record there is the same. -/
theorem recordAt_here (small : Small words window) :
    (recordAt words window).map (fun next => (next.1, next.2.here)) =
      recordFrom words window.here := by
  have length : wordAt words (RawCoverage.nextWord words window) =
      words[window.here + 1]?.getD 0 := small.nextWord_word 0
  have checksum : wordAt words
      (RawCoverage.nextWord words (RawCoverage.nextWord words (RawCoverage.nextWord words window))) =
      words[window.here + 3]?.getD 0 := by
    have third := small.nextWord.nextWord.nextWord_word 0
    have second := small.nextWord.nextWord_word 1
    have first := small.nextWord_word 2
    exact third.trans (second.trans first)
  have tag : wordAt words window = words[window.here]?.getD 0 := rfl
  unfold recordAt recordFrom
  dsimp only
  rw [length, checksum, tag]
  by_cases zero : words[window.here]?.getD 0 = 0
  · rw [if_pos zero, if_pos zero]
    rfl
  · have inside : window.here < words.length := by
      by_contra ended
      exact zero (by rw [List.getElem?_eq_none (by omega)]; rfl)
    have base : (RawCoverage.nextWord words (RawCoverage.nextWord words window)).here =
        min (window.here + 2) words.length := by
      rw [small.nextWord.nextWord_here, small.nextWord_here, if_pos inside]
      split <;> omega
    have target : ∀ length : Unsigned,
        (BitVec.ofNat 32 (min (window.here + 2) words.length) + length).toNat % 2 ^ 30 =
          (min (window.here + 2) words.length + length.toNat) % 2 ^ 30 := by
      intro length
      rw [BitVec.toNat_add, BitVec.toNat_ofNat]
      omega
    rw [if_neg zero, if_neg zero, base]
    by_cases isFunction :
        words[window.here]?.getD 0 = GCOV_TAG_FUNCTION ∧ words[window.here + 1]?.getD 0 ≠ 0
    · rw [if_pos isFunction, if_pos isFunction, Option.map_some,
        small.nextWord.nextWord.nextWord.nextWord.nextWord.syncTo_here, target]
    · rw [if_neg isFunction, if_neg isFunction, Option.map_some,
        small.nextWord.nextWord.syncTo_here, target]

theorem recordAt_small (small : Small words window) {added : List Unsigned} {place : Window}
    (record : recordAt words window = some (added, place)) : Small words place := by
  unfold recordAt at record
  dsimp only at record
  split at record
  · cases record
  · split at record
    · cases record
      exact small.nextWord.nextWord.nextWord.nextWord.nextWord.syncTo _
    · cases record
      exact small.nextWord.nextWord.syncTo _

end Small

end Vts.RawCoverage
