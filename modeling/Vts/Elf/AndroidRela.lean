import Vts.Elf.Reads

/-!
# Packed Android relocations

The sections of type `SHT_ANDROID_REL` and `SHT_ANDROID_RELA`. A packed section is
the text `APS2` and a sequence of SLEB128 words: the number of relocations, the
first offset, and then groups. A group states its size and four flags, the words
that its relocations share, and for each relocation the words that they do not
share. Offsets, and addends where a group has them, are differences to the
relocation before, also across groups.

Decoding gives the encoded relocations back unless a group has more of them than
`range` can list; and such a group, claimed by any bytes whatever, is the only way
to an exception other than `ElfError`.
-/

namespace Vts.Elf

open Python (Exception Host Text)
open Lib Lib.Sleb128 List ByteReader

/-! ## Words -/

variable {values : List Int} {bytes stream rest : List UInt8} {state : PackedState}
  {relocations : List PackedState} (host : Host) (elfClass : ElfClass)

/-- A word that is present is popped. -/
theorem popWord_encodesAll {value : Int} (encoded : EncodesAll (value :: values) bytes) :
    ∃ rest, EncodesAll values rest ∧ popWord bytes = .ok (value, rest) := by
  cases encoded with
  | @cons _ _ word rest first others =>
    refine ⟨rest, others, ?_⟩
    have decoded : decodeSLEB128 (word ++ rest) 0 = some (value, word.length) := by
      simpa [decodeSLEB128] using decodeLoop_encodes first (by simp : 0 < 2 ^ 0) 0 rest
    have positive : 0 < (word ++ rest).length := by
      cases first <;> simp
    rw [popWord, if_pos positive, decoded]
    simp

/-- A word that is there under a condition. -/
def optionalWord (present : Bool) (value : Int) : List Int := if present then [value] else []

/-- A word under a condition is popped, or its default is taken. -/
theorem popWordIf_encodesAll {present : Bool} {value : Int} (absent : Int)
    (encoded : EncodesAll (optionalWord present value ++ values) bytes) :
    ∃ rest, EncodesAll values rest ∧
      popWordIf present absent bytes = .ok (if present then value else absent, rest) := by
  cases present with
  | false => exact ⟨bytes, encoded, rfl⟩
  | true => exact popWord_encodesAll encoded

/-! ## Encoding -/

/-- A group of relocations. The offset delta, the info and the addend are those that
the flags say the relocations share. -/
structure Group where
  flags : Int
  offsetDelta : Int
  info : Int
  addend : Int
  relocations : List PackedState

namespace Group

variable (group : Group)

/-- The relocations share their info. -/
def groupedByInfo : Bool := hasFlag group.flags relocationGroupedByInfoFlag

/-- The offsets have a constant difference. -/
def groupedByOffsetDelta : Bool := hasFlag group.flags relocationGroupedByOffsetDeltaFlag

/-- The relocations share their addend. -/
def groupedByAddend : Bool := hasFlag group.flags relocationGroupedByAddendFlag

/-- The relocations have addends. -/
def groupHasAddend : Bool := hasFlag group.flags relocationGroupHasAddendFlag

/-- The offsets go on from a given one by a constant difference. -/
def Progression (delta : Int) : Int → List PackedState → Prop
  | _, [] => True
  | offset, relocation :: relocations =>
    relocation.offset = offset + delta ∧ Progression delta relocation.offset relocations

/-- The relocations agree with the flags, after the given offset. -/
structure Consistent (offset : Int) : Prop where
  offsets : group.groupedByOffsetDelta = true →
    Progression group.offsetDelta offset group.relocations
  infos : group.groupedByInfo = true →
    ∀ relocation ∈ group.relocations, relocation.info = group.info
  sharedAddends : group.groupHasAddend = true → group.groupedByAddend = true →
    ∀ relocation ∈ group.relocations, relocation.addend = group.addend
  noAddends : group.groupHasAddend = false →
    ∀ relocation ∈ group.relocations, relocation.addend = 0

/-- The words of one relocation after a given one. -/
def entryWords (state relocation : PackedState) : List Int :=
  optionalWord (!group.groupedByOffsetDelta) (relocation.offset - state.offset) ++
    (optionalWord (!group.groupedByInfo) relocation.info ++
      optionalWord (group.groupHasAddend && !group.groupedByAddend)
        (relocation.addend - state.addend))

/-- The words of relocations that follow a given one. -/
def entriesWords : PackedState → List PackedState → List Int
  | _, [] => []
  | state, relocation :: relocations =>
    group.entryWords state relocation ++ entriesWords relocation relocations

/-- The words that the relocations of the group share. -/
def headerWords (state : PackedState) : List Int :=
  optionalWord group.groupedByOffsetDelta group.offsetDelta ++
    (optionalWord group.groupedByInfo group.info ++
      optionalWord (group.groupHasAddend && group.groupedByAddend) (group.addend - state.addend))

/-- The state before the first relocation of the group. -/
def start (state : PackedState) : PackedState where
  offset := state.offset
  info := if group.groupedByInfo then group.info else state.info
  addend :=
    if group.groupHasAddend then
      if group.groupedByAddend then group.addend else state.addend
    else 0

/-- The state after the group. -/
def finish (state : PackedState) : PackedState :=
  group.relocations.getLastD (group.start state)

/-- The words of the group. -/
def words (state : PackedState) : List Int :=
  (group.relocations.length : Int) :: group.flags ::
    (group.headerWords state ++ group.entriesWords (group.start state) group.relocations)

end Group

/-- The words of a list of groups. -/
def groupsWords : PackedState → List Group → List Int
  | _, [] => []
  | state, group :: groups => group.words state ++ groupsWords (group.finish state) groups

/-- Every group agrees with its flags. -/
def ConsistentGroups : PackedState → List Group → Prop
  | _, [] => True
  | state, group :: groups =>
    group.Consistent state.offset ∧ ConsistentGroups (group.finish state) groups

/-- All relocations, in order. -/
def allRelocations (groups : List Group) : List PackedState := groups.flatMap Group.relocations

/-- The state before the first group. -/
def initialState (offset : Int) : PackedState := { offset, info := 0, addend := 0 }

/-- The words of a packed section. -/
def packedWords (offset : Int) (groups : List Group) : List Int :=
  ((allRelocations groups).length : Int) :: offset :: groupsWords (initialState offset) groups

/-- A relocation as the parser returns it. -/
def ElfClass.decoded (elfClass : ElfClass) (relocation : PackedState) : Rela :=
  elfClass.createRela relocation.offset relocation.info relocation.addend

/-! ## Decoding an encoded group -/

namespace Group

variable {group : Group}

/-- Each relocation agrees with what the inner loop carries over from the one
before. -/
def Follows (group : Group) : PackedState → List PackedState → Prop
  | _, [] => True
  | state, relocation :: relocations =>
    ((group.groupedByOffsetDelta = true → relocation.offset = state.offset + group.offsetDelta) ∧
      (group.groupedByInfo = true → relocation.info = state.info) ∧
      ((group.groupHasAddend && !group.groupedByAddend) = false →
        relocation.addend = state.addend)) ∧
      Follows group relocation relocations

theorem follows_of_shared (offsets : group.groupedByOffsetDelta = true →
      Progression group.offsetDelta state.offset relocations) (infos : group.groupedByInfo = true →
      ∀ relocation ∈ relocations, relocation.info = state.info)
    (addends : (group.groupHasAddend && !group.groupedByAddend) = false →
      ∀ relocation ∈ relocations, relocation.addend = state.addend) :
    group.Follows state relocations := by
  induction relocations generalizing state with
  | nil => trivial
  | cons relocation relocations ih =>
    refine ⟨⟨fun grouped => (offsets grouped).1, fun grouped => infos grouped relocation (by simp),
      fun shared => addends shared relocation (by simp)⟩, ih ?_ ?_ ?_⟩
    · exact fun grouped => (offsets grouped).2
    · intro grouped other listed
      rw [infos grouped other (by simp [listed]), infos grouped relocation (by simp)]
    · intro shared other listed
      rw [addends shared other (by simp [listed]), addends shared relocation (by simp)]

/-- A consistent group follows its header. -/
theorem Consistent.follows (consistent : group.Consistent state.offset) :
    group.Follows (group.start state) group.relocations := by
  refine follows_of_shared consistent.offsets ?_ ?_
  · intro grouped
    simpa [start, grouped] using consistent.infos grouped
  · intro shared
    cases hasAddend : group.groupHasAddend with
    | false => simpa [start, hasAddend] using consistent.noAddends hasAddend
    | true =>
      have grouped : group.groupedByAddend = true := by simpa [hasAddend] using shared
      simpa [start, hasAddend, grouped] using consistent.sharedAddends hasAddend grouped

/-- The delta that the decoder uses for the relocations of the group. -/
def decodedDelta (group : Group) : Int :=
  if group.groupedByOffsetDelta then group.offsetDelta else 0

theorem unpackEntry_encodesAll {relocation : PackedState}
    (follows : group.Follows state (relocation :: relocations))
    (encoded : EncodesAll (group.entryWords state relocation ++ values) bytes) :
    ∃ rest, EncodesAll values rest ∧
      unpackEntry elfClass group.flags group.decodedDelta state bytes =
        .ok ((elfClass.decoded relocation, relocation), rest) := by
  rw [entryWords, append_assoc, append_assoc] at encoded
  obtain ⟨offsets, infos, addends⟩ := follows.1
  obtain ⟨rest, encoded, offsetWord⟩ := popWordIf_encodesAll group.decodedDelta encoded
  obtain ⟨rest, encoded, infoWord⟩ := popWordIf_encodesAll state.info encoded
  obtain ⟨rest, encoded, addendWord⟩ := popWordIf_encodesAll 0 encoded
  refine ⟨rest, encoded, ?_⟩
  have offset : state.offset + (if (!group.groupedByOffsetDelta) = true then
      relocation.offset - state.offset else group.decodedDelta) = relocation.offset := by
    cases grouped : group.groupedByOffsetDelta with
    | false => simp
    | true => simp [decodedDelta, grouped, offsets grouped]
  have info : (if (!group.groupedByInfo) = true then relocation.info else state.info) =
      relocation.info := by
    cases grouped : group.groupedByInfo with
    | false => simp
    | true => simp [infos grouped]
  have addend : state.addend + (if (group.groupHasAddend && !group.groupedByAddend) = true then
      relocation.addend - state.addend else 0) = relocation.addend := by
    cases own : group.groupHasAddend && !group.groupedByAddend with
    | false => simp [addends own]
    | true => simp
  refine (bind_ok offsetWord).trans ?_
  refine (bind_ok infoWord).trans ?_
  refine (bind_ok addendWord).trans ?_
  rw [offset, info, addend]
  rfl

theorem unpackEntries_encodesAll (follows : group.Follows state relocations)
    (encoded : EncodesAll (group.entriesWords state relocations ++ values) bytes) :
    ∃ rest, EncodesAll values rest ∧
      unpackEntries elfClass group.flags group.decodedDelta relocations.length state bytes =
        .ok ((relocations.map elfClass.decoded, relocations.getLastD state), rest) := by
  induction relocations generalizing state bytes with
  | nil => exact ⟨bytes, encoded, rfl⟩
  | cons relocation relocations ih =>
    rw [entriesWords, append_assoc] at encoded
    obtain ⟨rest, encoded, entry⟩ := unpackEntry_encodesAll elfClass follows encoded
    obtain ⟨rest, encoded, others⟩ := ih follows.2 encoded
    refine ⟨rest, encoded, ?_⟩
    rw [length_cons, unpackEntries]
    refine (bind_ok entry).trans ?_
    refine (bind_ok others).trans ?_
    cases relocations <;> rfl

theorem unpackShared_encodesAll (group : Group) (state : PackedState)
    (encoded : EncodesAll (group.headerWords state ++ values) bytes) :
    ∃ rest, EncodesAll values rest ∧
      unpackShared group.flags state bytes =
        .ok ((group.decodedDelta, group.start state), rest) := by
  rw [headerWords, append_assoc, append_assoc] at encoded
  obtain ⟨rest, encoded, deltaWord⟩ := popWordIf_encodesAll 0 encoded
  obtain ⟨rest, encoded, infoWord⟩ := popWordIf_encodesAll state.info encoded
  obtain ⟨rest, encoded, addendWord⟩ := popWordIf_encodesAll 0 encoded
  refine ⟨rest, encoded, ?_⟩
  have addend : (if group.groupHasAddend = true then state.addend +
      (if (group.groupHasAddend && group.groupedByAddend) = true then
        group.addend - state.addend else 0) else 0) = (group.start state).addend := by
    cases hasAddend : group.groupHasAddend <;> cases grouped : group.groupedByAddend <;>
      simp [start, hasAddend, grouped]
  refine (bind_ok deltaWord).trans ?_
  refine (bind_ok infoWord).trans ?_
  refine (bind_ok addendWord).trans ?_
  refine congrArg (fun final => Except.ok ((group.decodedDelta, final), rest)) ?_
  exact congrArg (PackedState.mk state.offset _) addend

theorem unpackGroup_encodesAll {host : Host} (room : group.relocations.length < host.rangeLimit)
    (consistent : group.Consistent state.offset)
    (encoded : EncodesAll (group.words state ++ values) bytes) :
    ∃ rest, EncodesAll values rest ∧
      unpackGroup host elfClass state bytes =
        .ok (((group.relocations.length : Int), group.relocations.map elfClass.decoded,
          group.finish state), rest) := by
  rw [words, cons_append, cons_append, append_assoc] at encoded
  obtain ⟨rest, encoded, size⟩ := popWord_encodesAll encoded
  obtain ⟨rest, encoded, flags⟩ := popWord_encodesAll encoded
  obtain ⟨rest, encoded, shared⟩ := group.unpackShared_encodesAll state encoded
  obtain ⟨last, encoded, entries⟩ := unpackEntries_encodesAll elfClass consistent.follows encoded
  have counted : rangeReader host (group.relocations.length : Int) rest =
      .ok (group.relocations.length, rest) := by
    rw [rangeReader, Host.range_of_lt room]
    rfl
  refine ⟨last, encoded, ?_⟩
  refine (bind_ok size).trans ?_
  refine (bind_ok flags).trans ?_
  refine (bind_ok shared).trans ?_
  refine (bind_ok counted).trans ?_
  exact (bind_ok entries).trans rfl

/-- A group that `range` cannot list is not. -/
theorem unpackGroup_oversized {host : Host} (full : host.rangeLimit ≤ group.relocations.length)
    (encoded : EncodesAll (group.words state ++ values) bytes) :
    ∃ failure, unpackGroup host elfClass state bytes = .error failure := by
  rw [words, cons_append, cons_append, append_assoc] at encoded
  obtain ⟨rest, encoded, size⟩ := popWord_encodesAll encoded
  obtain ⟨rest, encoded, flags⟩ := popWord_encodesAll encoded
  obtain ⟨rest, encoded, shared⟩ := group.unpackShared_encodesAll state encoded
  obtain ⟨failure, failed, _⟩ := Host.rangeItems_of_le full
  have counted : rangeReader host (group.relocations.length : Int) rest = .error failure := by
    rw [rangeReader, Host.range, Int.toNat_natCast, failed]
    rfl
  refine ⟨failure, ?_⟩
  refine (bind_ok size).trans ?_
  refine (bind_ok flags).trans ?_
  refine (bind_ok shared).trans ?_
  exact bind_error counted

end Group

/-! ## Decoding encoded groups -/

theorem allRelocations_cons (group : Group) (groups : List Group) :
    allRelocations (group :: groups) = group.relocations ++ allRelocations groups := rfl

/-- The count of relocations that are still to come, before and after a group. -/
theorem count_allRelocations_cons (currentCount : Int) (group : Group) (groups : List Group) :
    currentCount + ((allRelocations (group :: groups)).length : Int) =
      currentCount + group.relocations.length + (allRelocations groups).length := by
  rw [allRelocations_cons, length_append]
  omega

theorem unpackGroups_encodesAll {host : Host} {groups : List Group}
    (room : ∀ group ∈ groups, group.relocations.length < host.rangeLimit)
    (consistent : ConsistentGroups state groups)
    (encoded : EncodesAll (groupsWords state groups) bytes) {fuel : Nat}
    (enough : groups.length < fuel) (currentCount : Int) :
    ∃ rest, unpackGroups host elfClass (currentCount + (allRelocations groups).length) fuel
      currentCount state bytes = .ok ((allRelocations groups).map elfClass.decoded, rest) := by
  induction groups generalizing state bytes fuel currentCount with
  | nil =>
    obtain ⟨fuel, rfl⟩ := Nat.exists_eq_succ_of_ne_zero (by omega : fuel ≠ 0)
    refine ⟨bytes, ?_⟩
    rw [unpackGroups, if_neg (by simp [allRelocations])]
    rfl
  | cons group groups ih =>
    obtain ⟨fuel, rfl⟩ := Nat.exists_eq_succ_of_ne_zero (by omega : fuel ≠ 0)
    rw [unpackGroups]
    by_cases done : currentCount < currentCount + (allRelocations (group :: groups)).length
    · rw [groupsWords] at encoded
      obtain ⟨rest, encoded, first⟩ :=
        Group.unpackGroup_encodesAll elfClass (room group (by simp)) consistent.1 encoded
      obtain ⟨last, others⟩ := ih
        (fun other listed => room other (by simp [listed])) consistent.2 encoded
        (by simpa using enough) (currentCount + group.relocations.length)
      refine ⟨last, ?_⟩
      rw [if_pos done, count_allRelocations_cons]
      refine (bind_ok first).trans ?_
      refine (bind_ok others).trans ?_
      rw [allRelocations_cons, map_append]
      rfl
    · have none : allRelocations (group :: groups) = [] :=
        eq_nil_of_length_eq_zero (by omega)
      refine ⟨bytes, ?_⟩
      rw [if_neg done, none]
      rfl

/-- A group that `range` cannot list is met, and stops the decoder. -/
theorem unpackGroups_oversized {host : Host} {groups : List Group}
    (full : ∃ group ∈ groups, host.rangeLimit ≤ group.relocations.length)
    (consistent : ConsistentGroups state groups)
    (encoded : EncodesAll (groupsWords state groups) bytes) (fuel : Nat) (currentCount : Int) :
    ∃ failure, unpackGroups host elfClass (currentCount + (allRelocations groups).length) fuel
      currentCount state bytes = .error failure := by
  induction groups generalizing state bytes fuel currentCount with
  | nil => simp at full
  | cons group groups ih =>
    cases fuel with
    | zero => exact ⟨_, rfl⟩
    | succ fuel =>
      have positive : 0 < host.rangeLimit := Nat.lt_of_lt_of_le (by decide) host.rangeLimit_ge
      have some : 0 < (allRelocations (group :: groups)).length := by
        obtain ⟨large, listed, size⟩ := full
        have inside : large.relocations ⊆ allRelocations (group :: groups) :=
          fun relocation member => mem_flatMap.mpr ⟨large, listed, member⟩
        obtain ⟨relocation, member⟩ := exists_mem_of_length_pos
          (by omega : 0 < large.relocations.length)
        exact length_pos_of_mem (inside member)
      rw [unpackGroups, if_pos (by omega)]
      rw [groupsWords] at encoded
      by_cases large : host.rangeLimit ≤ group.relocations.length
      · obtain ⟨failure, failed⟩ := Group.unpackGroup_oversized elfClass large encoded
        exact ⟨failure, bind_error failed⟩
      · obtain ⟨rest, encoded, first⟩ :=
          Group.unpackGroup_encodesAll elfClass (Nat.lt_of_not_le large) consistent.1 encoded
        have later : ∃ other ∈ groups, host.rangeLimit ≤ other.relocations.length := by
          obtain ⟨other, listed, size⟩ := full
          rcases mem_cons.mp listed with rfl | listed
          · exact absurd size large
          · exact ⟨other, listed, size⟩
        obtain ⟨failure, failed⟩ := ih later consistent.2 encoded fuel
          (currentCount + group.relocations.length)
        refine ⟨failure, ?_⟩
        rw [count_allRelocations_cons]
        exact (bind_ok first).trans (bind_error failed)

section

variable (flags delta : Int) (state : PackedState)

theorem length_le_of_encodesAll (encoded : EncodesAll values bytes) :
    values.length ≤ bytes.length := by
  induction encoded with
  | nil => simp
  | @cons value values word rest first others ih =>
    have positive : 0 < word.length := by cases first <;> simp
    rw [length_cons, length_append]
    omega

theorem length_le_groupsWords (groups : List Group) :
    groups.length ≤ (groupsWords state groups).length := by
  induction groups generalizing state with
  | nil => simp
  | cons group groups ih =>
    have others := ih (group.finish state)
    rw [groupsWords, length_append, length_cons, Group.words, length_cons]
    omega

/-- A packed section is decoded exactly when `range` can list each of its groups. -/
theorem unpackData_encodesAll_iff {offset : Int} {groups : List Group}
    (consistent : ConsistentGroups (initialState offset) groups)
    (encoded : EncodesAll (packedWords offset groups) bytes) :
    unpackData host elfClass (aps2 ++ bytes) = .ok ((allRelocations groups).map elfClass.decoded) ↔
      ∀ group ∈ groups, group.relocations.length < host.rangeLimit := by
  have long := length_le_of_encodesAll encoded
  have many := length_le_groupsWords (initialState offset) groups
  rw [packedWords, length_cons, length_cons] at long
  obtain ⟨rest, encoded, total⟩ := popWord_encodesAll encoded
  obtain ⟨words, encoded, first⟩ := popWord_encodesAll encoded
  have sized : (aps2 ++ bytes).length = 4 + bytes.length := length_append
  have opened : unpackData host elfClass (aps2 ++ bytes) =
      (unpackGroups host elfClass ((allRelocations groups).length : Int) (4 + bytes.length) 0
        (initialState offset) words).map Prod.fst := by
    have header : ¬((aps2 ++ bytes).length < 4 ∨ (aps2 ++ bytes).take 4 ≠ aps2) := by
      simp [aps2]
    rw [unpackData, if_neg header, sized]
    refine congrArg (Except.map Prod.fst) ?_
    refine (bind_ok (total : popWord ((aps2 ++ bytes).drop 4) = _)).trans ?_
    exact bind_ok first
  rw [opened]
  constructor
  · intro decoded group listed
    by_contra full
    obtain ⟨failure, failed⟩ := unpackGroups_oversized elfClass
      ⟨group, listed, Nat.le_of_not_lt full⟩ consistent encoded (4 + bytes.length) 0
    rw [Int.zero_add] at failed
    rw [failed] at decoded
    cases decoded
  · intro room
    obtain ⟨last, decoded⟩ := unpackGroups_encodesAll elfClass room consistent encoded
      (by omega : groups.length < 4 + bytes.length) 0
    rw [Int.zero_add] at decoded
    rw [decoded]
    rfl

/-! ## Any bytes -/

theorem pastEnd_isElfError : IsElfError pastEnd := ⟨_, _, rfl⟩

/-- The bytes after a number of words. -/
def skipWords : Nat → List UInt8 → Option (List UInt8)
  | 0, stream => some stream
  | count + 1, stream =>
    match popWord stream with
    | .error _ => none
    | .ok (_, rest) => skipWords count rest

theorem skipWords_add (first second : Nat) (stream : List UInt8) :
    skipWords (first + second) stream = (skipWords first stream).bind (skipWords second) := by
  induction first generalizing stream with
  | zero => simp [skipWords]
  | succ first ih =>
    rw [Nat.add_right_comm, skipWords, skipWords]
    split
    · rfl
    · exact ih _

/-- A reader that reads a fixed number of words, and fails only at the end of them. -/
def Pops {α : Type} (count : Nat) (reader : ByteReader Exception α) : Prop :=
  ∀ stream, (skipWords count stream = none ∧ reader stream = .error pastEnd) ∨
    ∃ rest value, skipWords count stream = some rest ∧ reader stream = .ok (value, rest)

theorem pops_pure {α : Type} (value : α) : Pops 0 (pure value : ByteReader Exception α) :=
  fun stream => .inr ⟨stream, value, rfl, rfl⟩

theorem pops_popWord : Pops 1 popWord := by
  intro stream
  rw [skipWords]
  cases popped : popWord stream with
  | error failure =>
    refine .inl ⟨rfl, ?_⟩
    unfold popWord at popped
    split at popped
    · split at popped
      · exact popped.symm
      · cases popped
    · exact popped.symm
  | ok pair => exact .inr ⟨pair.2, pair.1, rfl, rfl⟩

theorem pops_popWordIf (present : Bool) (absent : Int) :
    Pops present.toNat (popWordIf present absent) := by
  cases present with
  | false => exact pops_pure absent
  | true => exact pops_popWord

theorem Pops.bind {α β : Type} {first second : Nat} {reader : ByteReader Exception α}
    {next : α → ByteReader Exception β} (left : Pops first reader)
    (right : ∀ value, Pops second (next value)) : Pops (first + second) (reader >>= next) := by
  intro stream
  rw [skipWords_add]
  rcases left stream with ⟨ended, failed⟩ | ⟨rest, value, skipped, read⟩
  · exact .inl ⟨by rw [ended]; rfl, bind_error failed⟩
  · rw [skipped, Option.bind_some, bind_ok read]
    exact right value rest

/-- The number of words that each relocation of a group has of its own. -/
def entryCount (flags : Int) : Nat :=
  (!hasFlag flags relocationGroupedByOffsetDeltaFlag).toNat +
    ((!hasFlag flags relocationGroupedByInfoFlag).toNat +
      (hasFlag flags relocationGroupHasAddendFlag &&
        !hasFlag flags relocationGroupedByAddendFlag).toNat)

/-- The number of words after the flags that the relocations of a group share. -/
def headerCount (flags : Int) : Nat :=
  (hasFlag flags relocationGroupedByOffsetDeltaFlag).toNat +
    ((hasFlag flags relocationGroupedByInfoFlag).toNat +
      (hasFlag flags relocationGroupHasAddendFlag &&
        hasFlag flags relocationGroupedByAddendFlag).toNat)

theorem pops_unpackEntry : Pops (entryCount flags) (unpackEntry elfClass flags delta state) :=
  (pops_popWordIf _ _).bind fun _ => (pops_popWordIf _ _).bind fun _ =>
    (pops_popWordIf _ _).bind fun _ => pops_pure _

theorem pops_unpackEntries (count : Nat) (state : PackedState) :
    Pops (count * entryCount flags) (unpackEntries elfClass flags delta count state) := by
  induction count generalizing state with
  | zero =>
    rw [Nat.zero_mul]
    exact pops_pure _
  | succ count ih =>
    rw [Nat.succ_mul, Nat.add_comm]
    exact (pops_unpackEntry elfClass flags delta state).bind fun entry =>
      (ih entry.2).bind fun _ => pops_pure _

/-- The size, the flags and the bytes after the header of a group, when the header is
complete. -/
def groupHeader (stream : List UInt8) : Option (Int × Int × List UInt8) :=
  match popWord stream with
  | .error _ => none
  | .ok (size, afterSize) =>
    match popWord afterSize with
    | .error _ => none
    | .ok (flags, afterFlags) =>
      (skipWords (headerCount flags) afterFlags).map fun rest => (size, flags, rest)

theorem pops_unpackShared : Pops (headerCount flags) (unpackShared flags state) :=
  (pops_popWordIf _ _).bind fun _ => (pops_popWordIf _ _).bind fun _ =>
    (pops_popWordIf _ _).bind fun _ => pops_pure _

end

section

variable {size flags : Int} (state : PackedState)

theorem unpackGroup_noHeader (incomplete : groupHeader stream = none) :
    unpackGroup host elfClass state stream = .error pastEnd := by
  unfold groupHeader at incomplete
  rcases pops_popWord stream with ⟨_, failed⟩ | ⟨afterSize, size, _, sizeWord⟩
  · exact bind_error failed
  refine (bind_ok sizeWord).trans ?_
  rcases pops_popWord afterSize with ⟨_, failed⟩ | ⟨afterFlags, flags, _, flagsWord⟩
  · exact bind_error failed
  refine (bind_ok flagsWord).trans ?_
  rcases pops_unpackShared flags state afterFlags with ⟨_, failed⟩ | ⟨rest, _, skipped, _⟩
  · exact bind_error failed
  · simp [sizeWord, flagsWord, skipped] at incomplete

/-- After a complete header the relocations of the group are read. -/
theorem unpackGroup_ofHeader (header : groupHeader stream = some (size, flags, rest)) :
    ∃ delta start, unpackGroup host elfClass state stream =
      (rangeReader host size >>= fun count =>
        unpackEntries elfClass flags delta count start >>= fun read =>
          pure (size, read.1, read.2)) rest := by
  unfold groupHeader at header
  rcases pops_popWord stream with ⟨_, failed⟩ | ⟨afterSize, readSize, _, sizeWord⟩
  · simp [failed] at header
  rcases pops_popWord afterSize with ⟨_, failed⟩ | ⟨afterFlags, readFlags, _, flagsWord⟩
  · simp [sizeWord, failed] at header
  rcases pops_unpackShared readFlags state afterFlags with
    ⟨ended, _⟩ | ⟨afterShared, ⟨delta, start⟩, skipped, sharedWords⟩
  · simp [sizeWord, flagsWord, ended] at header
  · simp only [sizeWord, flagsWord, skipped, Option.map_some, Option.some.injEq,
      Prod.mk.injEq] at header
    obtain ⟨rfl, rfl, rfl⟩ := header
    refine ⟨delta, start, ?_⟩
    refine (bind_ok sizeWord).trans ?_
    refine (bind_ok flagsWord).trans ?_
    exact (bind_ok sharedWords).trans rfl

/-- A stream of packed words has a group that `range` cannot list, and the decoder
comes to it: the groups before it are complete, and their sizes have not yet reached
the number of relocations still to be read. -/
inductive MeetsOversizedGroup (host : Host) : Int → List UInt8 → Prop where
  | here {remaining : Int} {stream rest : List UInt8} {size flags : Int} (more : 0 < remaining)
      (header : groupHeader stream = some (size, flags, rest))
      (oversized : (host.rangeLimit : Int) ≤ size) : MeetsOversizedGroup host remaining stream
  | later {remaining : Int} {stream rest next : List UInt8} {size flags : Int}
      (more : 0 < remaining) (header : groupHeader stream = some (size, flags, rest))
      (listed : size < host.rangeLimit)
      (entries : skipWords (size.toNat * entryCount flags) rest = some next)
      (meets : MeetsOversizedGroup host (remaining - size) next) :
      MeetsOversizedGroup host remaining stream

theorem length_lt_of_popWord {value : Int} (popped : popWord stream = .ok (value, rest)) :
    rest.length < stream.length := by
  unfold popWord at popped
  split at popped
  next positive =>
    split at popped
    · cases popped
    next decoded =>
      have consumed := decodeLoop_num_lt decoded
      cases popped
      rw [length_drop]
      omega
  next => cases popped

theorem length_le_of_skipWords {count : Nat} (skipped : skipWords count stream = some rest) :
    rest.length ≤ stream.length := by
  induction count generalizing stream with
  | zero => simp_all [skipWords]
  | succ count ih =>
    rw [skipWords] at skipped
    split at skipped
    · cases skipped
    next popped =>
      have shorter := length_lt_of_popWord popped
      have tail := ih skipped
      omega

theorem length_lt_of_groupHeader (header : groupHeader stream = some (size, flags, rest)) :
    rest.length < stream.length := by
  unfold groupHeader at header
  split at header
  · cases header
  next sizeWord =>
    split at header
    · cases header
    next flagsWord =>
      obtain ⟨skipped, found, equal⟩ := Option.map_eq_some_iff.mp header
      have first := length_lt_of_popWord sizeWord
      have second := length_lt_of_popWord flagsWord
      have third := length_le_of_skipWords found
      cases equal
      omega

/-- `range` lists the relocations of a group, or raises something that is no
`ElfError`. -/
theorem rangeReader_cases (size : Int) (stream : List UInt8) :
    (size < host.rangeLimit ∧ rangeReader host size stream = .ok (size.toNat, stream)) ∨
    ((host.rangeLimit : Int) ≤ size ∧ ∃ failure, rangeReader host size stream = .error failure ∧
      ¬IsElfError failure) := by
  have positive : 2 ^ 16 ≤ host.rangeLimit := host.rangeLimit_ge
  by_cases room : size < host.rangeLimit
  · refine .inl ⟨room, ?_⟩
    rw [rangeReader, Host.range, Host.rangeItems_of_lt (by omega)]
    rfl
  · refine .inr ⟨by omega, ?_⟩
    obtain ⟨failure, failed, kind⟩ :=
      Host.rangeItems_of_le (by omega : host.rangeLimit ≤ size.toNat)
    refine ⟨failure, ?_, ?_⟩
    · rw [rangeReader, Host.range, failed]
      rfl
    · rintro ⟨message, shown, rfl⟩
      rcases kind with kind | kind <;> cases kind

/-- After a group that can be listed, the next one decides. -/
theorem meetsOversizedGroup_iff_later {host : Host} {remaining : Int} {next : List UInt8}
    (more : 0 < remaining) (header : groupHeader stream = some (size, flags, rest))
    (listed : size < host.rangeLimit)
    (entries : skipWords (size.toNat * entryCount flags) rest = some next) :
    MeetsOversizedGroup host remaining stream ↔
      MeetsOversizedGroup host (remaining - size) next := by
  refine ⟨fun meets => ?_, fun meets => .later more header listed entries meets⟩
  cases meets with
  | here _ other oversized =>
    rw [header] at other
    cases other
    omega
  | later _ other _ otherEntries meets =>
    rw [header] at other
    cases other
    rw [entries] at otherEntries
    cases otherEntries
    exact meets

end

/-- What is done with a value at the end does not change the exceptions. -/
theorem keepsContract_bind_pure_iff {α β : Type} (reader : ByteReader Exception α) (f : α → β)
    (stream : List UInt8) :
    KeepsContract ((reader >>= fun value => pure (f value)) stream) ↔
      KeepsContract (reader stream) := by
  cases read : reader stream with
  | error failure =>
    rw [bind_error read, keepsContract_error_iff, keepsContract_error_iff]
  | ok pair =>
    rw [bind_ok read]
    exact iff_of_true (keepsContract_ok _) (keepsContract_ok _)

/-- The decoder leaves its contract exactly by a group that `range` cannot list. -/
theorem unpackGroups_keepsContract_iff (totalCount : Int) {fuel : Nat}
    (enough : stream.length < fuel) (currentCount : Int) (state : PackedState) :
    KeepsContract (unpackGroups host elfClass totalCount fuel currentCount state stream) ↔
      ¬MeetsOversizedGroup host (totalCount - currentCount) stream := by
  induction fuel generalizing stream currentCount state with
  | zero => omega
  | succ fuel ih =>
    rw [unpackGroups]
    split
    next more =>
      have remains : 0 < totalCount - currentCount := by omega
      cases header : groupHeader stream with
      | none =>
        rw [bind_error (unpackGroup_noHeader host elfClass state header),
          keepsContract_error_iff]
        refine ⟨fun _ meets => ?_, fun _ => pastEnd_isElfError⟩
        cases meets with
        | here _ found | later _ found => simp [header] at found
      | some found =>
        obtain ⟨size, flags, rest⟩ := found
        obtain ⟨delta, start, group⟩ := unpackGroup_ofHeader host elfClass state header
        rcases rangeReader_cases host size rest with
          ⟨room, counted⟩ | ⟨oversized, failure, failed, foreign⟩
        · rw [bind_ok counted] at group
          -- the relocations are read to the end, or the words end among them
          rcases pops_unpackEntries elfClass flags delta size.toNat start rest with
            ⟨ended, failed⟩ | ⟨next, ⟨relocations, last⟩, skipped, read⟩
          · rw [bind_error (group.trans (bind_error failed)),
              keepsContract_error_iff]
            refine ⟨fun _ meets => ?_, fun _ => pastEnd_isElfError⟩
            cases meets with
            | here _ other oversized =>
              rw [header] at other
              cases other
              omega
            | later _ other _ entries _ =>
              rw [header] at other
              cases other
              simp [ended] at entries
          · have shorter := length_lt_of_groupHeader header
            have tail := length_le_of_skipWords skipped
            rw [bind_ok (group.trans (bind_ok read)),
              meetsOversizedGroup_iff_later remains header room skipped, Int.sub_sub]
            refine (keepsContract_bind_pure_iff _ _ _).trans ?_
            exact ih (by omega) (currentCount + size) last
        · rw [bind_error (group.trans (bind_error failed)),
            keepsContract_error_iff]
          refine ⟨fun keeps => absurd keeps foreign, fun met => ?_⟩
          exact absurd (.here remains header oversized) met
    next done =>
      refine ⟨fun _ meets => ?_, fun _ => keepsContract_ok _⟩
      cases meets <;> omega

/-- A packed section claims a group that `range` cannot list. -/
def ClaimsOversizedGroup (host : Host) (data : Text) : Prop :=
  data.take 4 = aps2 ∧ ∃ totalCount offset afterCount stream,
    popWord (data.drop 4) = .ok (totalCount, afterCount) ∧
      popWord afterCount = .ok (offset, stream) ∧ MeetsOversizedGroup host totalCount stream

/-- For any bytes, the decoder ends with a list or with an `ElfError` unless the bytes
claim a group that `range` cannot list. -/
theorem unpackData_keepsContract_iff (data : Text) :
    KeepsContract (unpackData host elfClass data) ↔ ¬ClaimsOversizedGroup host data := by
  rw [unpackData]
  split
  next wrong =>
    rw [keepsContract_error_iff]
    refine ⟨fun _ claims => ?_, fun _ => ⟨_, _, rfl⟩⟩
    rcases wrong with short | differs
    · have length := congrArg List.length claims.1
      simp only [length_take, aps2, length_cons, length_nil] at length
      omega
    · exact differs claims.1
  next right =>
    have long : 4 ≤ data.length := Nat.le_of_not_lt fun short => right (.inl short)
    have header : data.take 4 = aps2 := by
      by_contra differs
      exact right (.inr differs)
    rw [keepsContract_map_iff, unpackWords]
    rcases pops_popWord (data.drop 4) with ⟨_, failed⟩ | ⟨afterCount, totalCount, _, countWord⟩
    · rw [bind_error failed, keepsContract_error_iff]
      refine ⟨fun _ claims => ?_, fun _ => pastEnd_isElfError⟩
      obtain ⟨_, _, _, _, _, counted, _⟩ := claims
      simp [failed] at counted
    rw [bind_ok countWord]
    rcases pops_popWord afterCount with ⟨_, failed⟩ | ⟨stream, offset, _, offsetWord⟩
    · rw [bind_error failed, keepsContract_error_iff]
      refine ⟨fun _ claims => ?_, fun _ => pastEnd_isElfError⟩
      obtain ⟨_, _, _, _, _, counted, offsets, _⟩ := claims
      rw [countWord] at counted
      cases counted
      simp [failed] at offsets
    rw [bind_ok offsetWord]
    have first := length_lt_of_popWord countWord
    have second := length_lt_of_popWord offsetWord
    rw [length_drop] at first
    rw [unpackGroups_keepsContract_iff host elfClass totalCount (by omega) 0, Int.sub_zero]
    refine not_congr ⟨fun meets => ⟨header, _, _, _, _, countWord, offsetWord, meets⟩, ?_⟩
    rintro ⟨_, _, _, _, _, counted, offsets, meets⟩
    rw [countWord] at counted
    cases counted
    rw [offsetWord] at offsets
    cases offsets
    exact meets

/-! ## The method -/

/-- A packed section of the file is decoded into the encoded relocations, with their
fields reduced to the width of the file class, exactly when `range` can list each
group; and for any bytes in the section the method ends with a list or an `ElfError`
exactly when the bytes claim no group that `range` cannot list. -/
theorem ElfParser.unpackAndroidRela_iff (self : ElfParser) (androidRela : Shdr) {data : Text}
    (stored : self.source.seekRead androidRela.shOffset androidRela.shSize = .ok data) :
    (∀ offset groups bytes, ConsistentGroups (initialState offset) groups →
      EncodesAll (packedWords offset groups) bytes → data = aps2 ++ bytes →
      (self.unpackAndroidRela androidRela =
          .ok ((allRelocations groups).map self.elfClass.decoded) ↔
        ∀ group ∈ groups, group.relocations.length < self.host.rangeLimit)) ∧
    (KeepsContract (self.unpackAndroidRela androidRela) ↔
      ¬ClaimsOversizedGroup self.host data) := by
  have read : self.unpackAndroidRela androidRela = unpackData self.host self.elfClass data := by
    rw [unpackAndroidRela, stored]
    rfl
  rw [read]
  refine ⟨?_, unpackData_keepsContract_iff self.host self.elfClass data⟩
  rintro offset groups bytes consistent encoded rfl
  exact unpackData_encodesAll_iff self.host self.elfClass consistent encoded

/-- The header of a packed section that is the whole file. -/
def packedSection (size : Nat) : Shdr :=
  { shName := 0, shType := shtAndroidRela, shAddr := 0, shOffset := 0, shSize := size,
    shEntsize := 1 }

/-- A group of two relocations that share their info. -/
def pairGroup : Group where
  flags := 1
  offsetDelta := 0
  info := 3
  addend := 0
  relocations := [⟨16, 3, 0⟩, ⟨8, 3, 0⟩]

/-- The two relocations are decoded. -/
theorem pairGroup_decoded :
    (sectionParser .elfClass64 [65, 80, 83, 50, 2, 0, 2, 1, 3, 16, 120]
      (by decide)).unpackAndroidRela (packedSection 11) = .ok [⟨16, 3, 0⟩, ⟨8, 3, 0⟩] := by
  have bytes : encodeAll [2, 0, 2, 1, 3, 16, -8] = [2, 0, 2, 1, 3, 16, 120] := by
    simp [encodeAll, encode, lowBits]
  have words : packedWords 0 [pairGroup] = [2, 0, 2, 1, 3, 16, -8] := by decide
  have encoded : EncodesAll (packedWords 0 [pairGroup]) [2, 0, 2, 1, 3, 16, 120] := by
    rw [words, ← bytes]
    exact encodeAll_encodes _
  have consistent : ConsistentGroups (initialState 0) [pairGroup] := by
    refine ⟨⟨fun grouped => absurd grouped (by decide), ?_, ?_, ?_⟩, trivial⟩ <;> decide
  exact ((ElfParser.unpackAndroidRela_iff _ (packedSection 11) rfl).1 0 [pairGroup] _ consistent
    encoded rfl).mpr (by decide)

/-- One group that claims `2 ^ 63` relocations: `range` raises an `OverflowError`. -/
theorem oversizedGroup_overflows :
    (sectionParser .elfClass64
      [65, 80, 83, 50, 1, 0, 128, 128, 128, 128, 128, 128, 128, 128, 128, 1, 0]
      (by decide)).unpackAndroidRela (packedSection 17) = .error .overflowError ∧
    ¬KeepsContract ((sectionParser .elfClass64
      [65, 80, 83, 50, 1, 0, 128, 128, 128, 128, 128, 128, 128, 128, 128, 1, 0]
      (by decide)).unpackAndroidRela (packedSection 17)) := by
  have overflows : (sectionParser .elfClass64
      [65, 80, 83, 50, 1, 0, 128, 128, 128, 128, 128, 128, 128, 128, 128, 1, 0]
      (by decide)).unpackAndroidRela (packedSection 17) = .error .overflowError := rfl
  refine ⟨overflows, ?_⟩
  rw [overflows, keepsContract_error_iff]
  rintro ⟨message, shown, equal⟩
  cases equal

end Vts.Elf
