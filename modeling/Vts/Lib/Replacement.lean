import Mathlib.Data.List.Infix

/-!
# Replacement of the occurrences of a pattern

`replaceAll` replaces the occurrences of a pattern that a reading from left to right comes to.
`Rewrites` is the same done in place by a search that goes on as many characters after the place of
a replacement as the pattern has, whatever the length of the replacement.

Proved here: where no occurrence begins in what the search passes by, or in what it reads again,
both come to the same text (`Rewrites.replaceAll`). They do so for every text exactly if the
replacement is as long as the pattern, or longer without its end running into an occurrence
(`rewrites_replaceAll_iff`).
-/

namespace Vts.Lib.Replacement

open List

universe u
variable {α : Type u} [DecidableEq α] {pattern replacement text : List α}

/-! ## The first occurrence -/

/-- The first place of a text at which a pattern stands. -/
def firstPlace (pattern : List α) : List α → Option Nat
  | [] => if pattern = [] then some 0 else none
  | char :: rest =>
    if pattern <+: char :: rest then some 0 else (firstPlace pattern rest).map (· + 1)

theorem firstPlace_of_isPrefix (here : pattern <+: text) : firstPlace pattern text = some 0 := by
  cases text with
  | nil => rw [firstPlace, if_pos (prefix_nil.mp here)]
  | cons char rest => rw [firstPlace, if_pos here]

theorem firstPlace_cons_of_not (char : α) (rest : List α) (other : ¬ pattern <+: char :: rest) :
    firstPlace pattern (char :: rest) = (firstPlace pattern rest).map (· + 1) := by
  rw [firstPlace, if_neg other]

theorem firstPlace_eq_none_iff :
    firstPlace pattern text = none ↔ ∀ place, ¬ pattern <+: text.drop place := by
  induction text with
  | nil =>
    simp only [firstPlace, drop_nil, prefix_nil, forall_const]
    split <;> simp_all
  | cons char rest ih =>
    by_cases here : pattern <+: char :: rest
    · rw [firstPlace_of_isPrefix here]
      constructor
      · intro absent
        cases absent
      · intro never
        exact absurd here (never 0)
    · rw [firstPlace_cons_of_not char rest here, Option.map_eq_none_iff, ih]
      constructor
      · intro never place
        cases place with
        | zero => exact here
        | succ place => exact never place
      · intro never place
        exact never (place + 1)

variable {place : Nat}

theorem firstPlace_eq_some_iff :
    firstPlace pattern text = some place ↔
      place ≤ text.length ∧ pattern <+: text.drop place ∧
        ∀ earlier < place, ¬ pattern <+: text.drop earlier := by
  induction text generalizing place with
  | nil =>
    simp only [firstPlace, drop_nil, prefix_nil, length_nil, Nat.le_zero]
    split <;> simp_all [eq_comm]
  | cons char rest ih =>
    by_cases here : pattern <+: char :: rest
    · rw [firstPlace_of_isPrefix here]
      constructor
      · intro first
        cases first
        exact ⟨Nat.zero_le _, here, fun _ earlier => absurd earlier (Nat.not_lt_zero _)⟩
      · rintro ⟨-, -, first⟩
        cases place with
        | zero => rfl
        | succ place => exact absurd here (first 0 (Nat.succ_pos _))
    · rw [firstPlace_cons_of_not char rest here]
      cases place with
      | zero => simpa using fun stands => absurd stands here
      | succ place =>
        simp only [Option.map_eq_some_iff, Nat.add_right_cancel_iff, exists_eq_right,
          ih, length_cons, Nat.add_le_add_iff_right, drop_succ_cons]
        constructor
        · rintro ⟨within, stands, first⟩
          refine ⟨within, stands, ?_⟩
          intro earlier before
          cases earlier with
          | zero => exact here
          | succ earlier => exact first earlier (Nat.lt_of_succ_lt_succ before)
        · rintro ⟨within, stands, first⟩
          refine ⟨within, stands, ?_⟩
          intro earlier before
          exact first (earlier + 1) (Nat.succ_lt_succ before)

theorem firstPlace_isSome_of_isPrefix (stands : pattern <+: text.drop place) :
    (firstPlace pattern text).isSome := by
  cases found : firstPlace pattern text with
  | none => exact absurd stands (firstPlace_eq_none_iff.mp found place)
  | some first => rfl

theorem firstPlace_of_length_lt (short : text.length < pattern.length) :
    firstPlace pattern text = none := by
  apply firstPlace_eq_none_iff.mpr
  intro place stands
  have long := stands.length_le
  rw [length_drop] at long
  omega

/-- No occurrence begins in the first characters of a text. -/
abbrev Quiet (pattern : List α) (count : Nat) (text : List α) : Prop :=
  ∀ place < count, ¬ pattern <+: text.drop place

omit [DecidableEq α] in
theorem Quiet.tail {count : Nat} {char : α} {rest : List α}
    (quiet : Quiet pattern (count + 1) (char :: rest)) : Quiet pattern count rest :=
  fun place before => quiet (place + 1) (Nat.succ_lt_succ before)

omit [DecidableEq α] in
theorem Quiet.head {count : Nat} (quiet : Quiet pattern (count + 1) text) : ¬ pattern <+: text :=
  quiet 0 (Nat.succ_pos _)

/-! ## Replacing all occurrences -/

/-- The reading from left to right, which still has to pass the rest of a replaced occurrence. -/
def replaceFrom (pattern replacement : List α) : Nat → List α → List α
  | _, [] => []
  | rest + 1, _ :: text => replaceFrom pattern replacement rest text
  | 0, char :: text =>
    if pattern <+: char :: text then
      replacement ++ replaceFrom pattern replacement (pattern.length - 1) text
    else char :: replaceFrom pattern replacement 0 text

/-- Every occurrence that a reading from left to right comes to is replaced once. -/
def replaceAll (pattern replacement text : List α) : List α :=
  replaceFrom pattern replacement 0 text

/-- What stands behind each of the occurrences that are replaced. -/
def behindFrom (pattern : List α) : Nat → List α → List (List α)
  | _, [] => []
  | rest + 1, _ :: text => behindFrom pattern rest text
  | 0, char :: text =>
    if pattern <+: char :: text then
      (char :: text).drop pattern.length :: behindFrom pattern (pattern.length - 1) text
    else behindFrom pattern 0 text

@[inherit_doc behindFrom]
def behinds (pattern text : List α) : List (List α) := behindFrom pattern 0 text

theorem replaceFrom_eq (count : Nat) :
    replaceFrom pattern replacement count text =
      replaceAll pattern replacement (text.drop count) := by
  induction count generalizing text with
  | zero => rfl
  | succ count ih =>
    cases text with
    | nil => rfl
    | cons char rest => exact ih

theorem behindFrom_eq (count : Nat) :
    behindFrom pattern count text = behinds pattern (text.drop count) := by
  induction count generalizing text with
  | zero => rfl
  | succ count ih =>
    cases text with
    | nil => rfl
    | cons char rest => exact ih

omit [DecidableEq α] in
theorem drop_length_sub_one (nonempty : pattern ≠ []) (char : α) (rest : List α) :
    rest.drop (pattern.length - 1) = (char :: rest).drop pattern.length := by
  obtain ⟨count, length⟩ := Nat.exists_eq_add_one.mpr (length_pos_iff.mpr nonempty)
  rw [length, Nat.add_sub_cancel, drop_succ_cons]

theorem replaceAll_of_isPrefix (nonempty : pattern ≠ []) (here : pattern <+: text) :
    replaceAll pattern replacement text =
      replacement ++ replaceAll pattern replacement (text.drop pattern.length) := by
  cases text with
  | nil => exact absurd (prefix_nil.mp here) nonempty
  | cons char rest =>
    rw [replaceAll, replaceFrom, if_pos here, replaceFrom_eq, drop_length_sub_one nonempty char]

theorem behinds_of_isPrefix (nonempty : pattern ≠ []) (here : pattern <+: text) :
    behinds pattern text =
      text.drop pattern.length :: behinds pattern (text.drop pattern.length) := by
  cases text with
  | nil => exact absurd (prefix_nil.mp here) nonempty
  | cons char rest =>
    rw [behinds, behindFrom, if_pos here, behindFrom_eq, drop_length_sub_one nonempty char]

/-- Characters in which no occurrence begins stay. -/
theorem replaceAll_of_quiet {count : Nat} (quiet : Quiet pattern count text) :
    replaceAll pattern replacement text =
      text.take count ++ replaceAll pattern replacement (text.drop count) := by
  induction count generalizing text with
  | zero => rfl
  | succ count ih =>
    cases text with
    | nil => rfl
    | cons char rest =>
      have kept := ih quiet.tail
      rw [replaceAll, replaceFrom, if_neg quiet.head, take_succ_cons, drop_succ_cons,
        cons_append, ← kept, replaceAll]

theorem behinds_of_quiet {count : Nat} (quiet : Quiet pattern count text) :
    behinds pattern text = behinds pattern (text.drop count) := by
  induction count generalizing text with
  | zero => rfl
  | succ count ih =>
    cases text with
    | nil => rfl
    | cons char rest =>
      have kept := ih quiet.tail
      rw [behinds, behindFrom, if_neg quiet.head, drop_succ_cons, ← kept, behinds]

theorem replaceAll_of_firstPlace_eq_none (never : firstPlace pattern text = none) :
    replaceAll pattern replacement text = text := by
  have quiet : Quiet pattern text.length text :=
    fun place _ => firstPlace_eq_none_iff.mp never place
  rw [replaceAll_of_quiet quiet, take_length, drop_length, replaceAll, replaceFrom,
    append_nil]

theorem replaceAll_of_firstPlace_eq_some (nonempty : pattern ≠ [])
    (first : firstPlace pattern text = some place) :
    replaceAll pattern replacement text = text.take place ++ (replacement ++
      replaceAll pattern replacement (text.drop (place + pattern.length))) := by
  obtain ⟨-, stands, quiet⟩ := firstPlace_eq_some_iff.mp first
  rw [replaceAll_of_quiet quiet, replaceAll_of_isPrefix nonempty stands, drop_drop]

theorem behinds_of_firstPlace_eq_some (nonempty : pattern ≠ [])
    (first : firstPlace pattern text = some place) :
    behinds pattern text = text.drop (place + pattern.length) ::
      behinds pattern (text.drop (place + pattern.length)) := by
  obtain ⟨-, stands, quiet⟩ := firstPlace_eq_some_iff.mp first
  rw [behinds_of_quiet quiet, behinds_of_isPrefix nonempty stands, drop_drop]

/-! ## Replacing in place -/

/-- The search goes on as many characters after the place of a replacement as the pattern has: what
stands before that point stays, and the rest is read on. -/
inductive Rewrites (pattern replacement : List α) : List α → List α → Prop where
  | done {text : List α} (never : firstPlace pattern text = none) :
      Rewrites pattern replacement text text
  | next {text behind rest : List α} {place : Nat} (first : firstPlace pattern text = some place)
      (behind_eq : behind = text.drop (place + pattern.length))
      (following :
        Rewrites pattern replacement ((replacement ++ behind).drop pattern.length) rest) :
      Rewrites pattern replacement text
        (text.take place ++ ((replacement ++ behind).take pattern.length ++ rest))

/-- Characters in which no occurrence begins are passed by. -/
theorem Rewrites.prepend {before rest : List α} (rewrites : Rewrites pattern replacement text rest)
    (quiet : Quiet pattern before.length (before ++ text)) :
    Rewrites pattern replacement (before ++ text) (before ++ rest) := by
  induction before with
  | nil => exact rewrites
  | cons char before ih =>
    rw [length_cons, cons_append] at quiet
    have passed := firstPlace_cons_of_not char (before ++ text) quiet.head
    have shorter := ih quiet.tail
    rw [cons_append, cons_append]
    generalize before ++ text = whole at passed shorter
    generalize before ++ rest = written at shorter
    cases shorter with
    | done never => exact .done (by rw [passed, never, Option.map_none])
    | @next _ behind rest place first behind_eq following =>
      have found : firstPlace pattern (char :: whole) = some (place + 1) := by
        rw [passed, first, Option.map_some]
      have later : behind = (char :: whole).drop (place + 1 + pattern.length) := by
        rw [behind_eq, Nat.add_right_comm, drop_succ_cons]
      exact .next found later following

/-- A step with the two parts into which the search divides the replacement and what is behind. -/
theorem Rewrites.next_of_split {behind kept left rest : List α}
    (first : firstPlace pattern text = some place)
    (behind_eq : text.drop (place + pattern.length) = behind)
    (taken : (replacement ++ behind).take pattern.length = kept)
    (dropped : (replacement ++ behind).drop pattern.length = left)
    (following : Rewrites pattern replacement left rest) :
    Rewrites pattern replacement text (text.take place ++ (kept ++ rest)) := by
  rw [← taken]
  exact .next first behind_eq.symm (dropped ▸ following)

/-- An end of the replacement in which the pattern stands is replaced for ever. -/
theorem not_rewrites_of_mem (stands : pattern <+: replacement.drop place)
    (behindIt : pattern.length ≤ place) (rest : List α) (found : (firstPlace pattern text).isSome) :
    ¬ Rewrites pattern replacement text rest := by
  intro rewrites
  induction rewrites with
  | done never => rw [never] at found; cases found
  | @next text behind rest first _ _ _ ih =>
    apply ih
    have again : pattern <+:
        ((replacement ++ behind).drop pattern.length).drop (place - pattern.length) := by
      rw [drop_drop, Nat.add_sub_cancel' behindIt]
      exact stands.trans (drop_append .. ▸ prefix_append ..)
    exact firstPlace_isSome_of_isPrefix again

/-- A replacement that is not shorter than the pattern never shortens the text, and a longer one
makes it longer where there is an occurrence. -/
theorem Rewrites.length_le {rest : List α} (rewrites : Rewrites pattern replacement text rest)
    (longer : pattern.length ≤ replacement.length) : text.length ≤ rest.length := by
  induction rewrites with
  | done => exact Nat.le_refl _
  | next first behind_eq _ ih =>
    have within := (firstPlace_eq_some_iff.mp first).1
    have stands := (firstPlace_eq_some_iff.mp first).2.1.length_le
    rw [behind_eq] at ih ⊢
    simp only [length_append, length_drop, length_take] at *
    omega

theorem Rewrites.length_lt {rest : List α} (rewrites : Rewrites pattern replacement text rest)
    (longer : pattern.length < replacement.length) (found : (firstPlace pattern text).isSome) :
    text.length < rest.length := by
  cases rewrites with
  | done never => rw [never] at found; cases found
  | next first behind_eq following =>
    have within := (firstPlace_eq_some_iff.mp first).1
    have stands := (firstPlace_eq_some_iff.mp first).2.1.length_le
    have kept := following.length_le (Nat.le_of_lt longer)
    rw [behind_eq] at kept ⊢
    simp only [length_append, length_drop, length_take] at *
    omega

/-! ## Where both come to the same -/

/-- Behind a replaced occurrence, none begins in the characters that the search passes by or reads
again. -/
def Undisturbed (pattern replacement behind : List α) : Prop :=
  Quiet pattern (pattern.length - replacement.length) behind ∧
    Quiet pattern (replacement.length - pattern.length)
      (replacement.drop pattern.length ++ behind)

/-- No replaced occurrence of the text disturbs the search. -/
def InPlace (pattern replacement text : List α) : Prop :=
  ∀ behind ∈ behinds pattern text, Undisturbed pattern replacement behind

/-- Replacing in place is right where nothing disturbs the search. -/
theorem Rewrites.replaceAll (nonempty : pattern ≠ []) (inPlace : InPlace pattern replacement text) :
    Rewrites pattern replacement text (replaceAll pattern replacement text) := by
  induction size : text.length using Nat.strong_induction_on generalizing text with
  | _ _ ih =>
    cases first : firstPlace pattern text with
    | none =>
      rw [replaceAll_of_firstPlace_eq_none first]
      exact .done first
    | some place =>
      have positive := length_pos_iff.mpr nonempty
      have within := (firstPlace_eq_some_iff.mp first).2.1.length_le
      have after := behinds_of_firstPlace_eq_some nonempty first
      rw [replaceAll_of_firstPlace_eq_some nonempty first]
      generalize behind_eq : text.drop (place + pattern.length) = behind at *
      have undisturbed : Undisturbed pattern replacement behind :=
        inPlace _ (after ▸ mem_cons_self)
      have inPlaceBehind : InPlace pattern replacement behind :=
        fun later mem => inPlace later (after ▸ mem_cons_of_mem _ mem)
      have shorter : behind.length < text.length := by
        rw [← behind_eq, length_drop]
        rw [length_drop] at within
        omega
      by_cases long : replacement.length ≤ pattern.length
      -- The search passes by some characters behind the replacement.
      · have quiet := undisturbed.1
        generalize passed : pattern.length - replacement.length = count at quiet
        have inPlaceLater : InPlace pattern replacement (behind.drop count) :=
          fun later mem => inPlaceBehind later (behinds_of_quiet quiet ▸ mem)
        have smaller : (behind.drop count).length < text.length :=
          Nat.lt_of_le_of_lt (length_drop ▸ Nat.sub_le ..) shorter
        have following := ih _ (size ▸ smaller) inPlaceLater rfl
        have taken : (replacement ++ behind).take pattern.length =
            replacement ++ behind.take count := by
          rw [take_append, take_of_length_le long, passed]
        have dropped : (replacement ++ behind).drop pattern.length = behind.drop count := by
          rw [drop_append, drop_eq_nil_of_le long, passed, nil_append]
        have rewrites := Rewrites.next_of_split first behind_eq taken dropped following
        rwa [append_assoc, ← replaceAll_of_quiet quiet] at rewrites
      -- The search reads the end of the replacement again.
      · have cut := take_append_drop pattern.length replacement
        have shortPattern : pattern.length ≤ replacement.length := by omega
        have ended : Quiet pattern (replacement.drop pattern.length).length
            (replacement.drop pattern.length ++ behind) := by
          rw [length_drop]
          exact undisturbed.2
        have following := ih _ (size ▸ shorter) inPlaceBehind rfl
        have rewrites := Rewrites.next_of_split first behind_eq
          (take_append_of_le_length shortPattern) (drop_append_of_le_length shortPattern)
          (following.prepend ended)
        rwa [← append_assoc (replacement.take _), cut] at rewrites

/-! ## Replacements that never disturb the search -/

/-- The replacement is as long as the pattern, or longer and none of the ends that are read again
has the pattern as its beginning, or is itself a beginning of the pattern. -/
def Harmless (pattern replacement : List α) : Prop :=
  replacement.length = pattern.length ∨ pattern.length < replacement.length ∧
    ∀ place < replacement.length, pattern.length ≤ place →
      ¬ pattern <+: replacement.drop place ∧ ¬ replacement.drop place <+: pattern

instance : Decidable (Harmless pattern replacement) :=
  inferInstanceAs (Decidable (_ ∨ _ ∧ _))

theorem Harmless.inPlace (harmless : Harmless pattern replacement) (text : List α) :
    InPlace pattern replacement text := by
  intro behind _
  rcases harmless with same | ⟨longer, ends⟩
  · simp only [Undisturbed, Quiet, same, Nat.sub_self, Nat.not_lt_zero, false_implies, implies_true,
      and_self]
  · constructor
    · intro place before
      omega
    · intro place before stands
      have within : pattern.length + place < replacement.length := by omega
      rw [drop_append_of_le_length (by rw [length_drop]; omega), drop_drop] at stands
      have clear := ends (pattern.length + place) within (Nat.le_add_right _ _)
      rcases prefix_or_prefix_of_prefix stands (prefix_append _ _) with into | whole
      · exact clear.1 into
      · exact clear.2 whole

/-- A text of which less than the pattern is left after the first occurrence. -/
theorem replaceAll_pattern_append {rest : List α} (nonempty : pattern ≠ [])
    (short : rest.length < pattern.length) :
    replaceAll pattern replacement (pattern ++ rest) = replacement ++ rest := by
  rw [replaceAll_of_isPrefix nonempty (prefix_append _ _), drop_left,
    replaceAll_of_firstPlace_eq_none (firstPlace_of_length_lt short)]

/-- The first step on a text that begins with the pattern. -/
theorem Rewrites.of_pattern_append {rest written : List α}
    (rewrites : Rewrites pattern replacement (pattern ++ rest) written) :
    ∃ left, written = (replacement ++ rest).take pattern.length ++ left ∧
      Rewrites pattern replacement ((replacement ++ rest).drop pattern.length) left := by
  have found := firstPlace_of_isPrefix (prefix_append pattern rest)
  generalize whole_eq : pattern ++ rest = whole at rewrites found
  cases rewrites with
  | done never => rw [never] at found; cases found
  | @next _ behind left place first behind_eq following =>
    cases first.symm.trans found
    have same : behind = rest := by rw [behind_eq, Nat.zero_add, ← whole_eq, drop_left]
    rw [same] at following ⊢
    exact ⟨left, rfl, following⟩

/-- A shorter replacement misses the second of two occurrences that follow each other. -/
theorem not_rewrites_of_shorter (nonempty : pattern ≠ [])
    (shorter : replacement.length < pattern.length) :
    ¬ Rewrites pattern replacement (pattern ++ pattern)
      (replaceAll pattern replacement (pattern ++ pattern)) := by
  intro rewrites
  obtain ⟨left, written, following⟩ := rewrites.of_pattern_append
  have short : ((replacement ++ pattern).drop pattern.length).length < pattern.length := by
    rw [length_drop, length_append]
    omega
  rw [replaceAll_of_isPrefix nonempty (prefix_append _ _), drop_left] at written
  have alone := @replaceAll_pattern_append _ _ pattern replacement [] nonempty
    (length_pos_iff.mpr nonempty)
  rw [append_nil, append_nil] at alone
  cases following with
  | done =>
    rw [alone, take_append_drop] at written
    have lengths := congrArg List.length (append_cancel_left written)
    omega
  | next first =>
    rw [firstPlace_of_length_lt short] at first
    cases first

/-- The end of a longer replacement runs into an occurrence. -/
theorem not_rewrites_of_longer (nonempty : pattern ≠ [])
    (longer : pattern.length < replacement.length) (behindIt : pattern.length ≤ place)
    {rest : List α} (short : rest.length < pattern.length)
    (stands : pattern <+: (replacement ++ rest).drop place) :
    ¬ Rewrites pattern replacement (pattern ++ rest)
      (replaceAll pattern replacement (pattern ++ rest)) := by
  intro rewrites
  obtain ⟨left, written, following⟩ := rewrites.of_pattern_append
  have again : pattern <+:
      ((replacement ++ rest).drop pattern.length).drop (place - pattern.length) := by
    rw [drop_drop, Nat.add_sub_cancel' behindIt]
    exact stands
  have grows := following.length_lt longer (firstPlace_isSome_of_isPrefix again)
  rw [replaceAll_pattern_append nonempty short] at written
  have lengths := congrArg List.length written
  simp only [length_append, length_take, length_drop] at lengths grows
  omega

/-- Replacing in place is right for every text exactly if the replacement is harmless. -/
theorem rewrites_replaceAll_iff (nonempty : pattern ≠ []) :
    (∀ text, Rewrites pattern replacement text (replaceAll pattern replacement text)) ↔
      Harmless pattern replacement := by
  constructor
  · intro always
    rcases Nat.lt_trichotomy replacement.length pattern.length with shorter | same | longer
    · exact absurd (always _) (not_rewrites_of_shorter nonempty shorter)
    · exact .inl same
    · refine .inr ⟨longer, ?_⟩
      intro place within behindIt
      have positive : ([] : List α).length < pattern.length := length_pos_iff.mpr nonempty
      constructor
      · intro stands
        have whole : pattern <+: (replacement ++ []).drop place := by rwa [append_nil]
        exact not_rewrites_of_longer nonempty longer behindIt positive whole (always _)
      · rintro ⟨rest, begun⟩
        have lengths := congrArg List.length begun
        rw [length_append, length_drop] at lengths
        have whole : pattern <+: (replacement ++ rest).drop place := by
          rw [drop_append_of_le_length (Nat.le_of_lt within), begun]
        exact not_rewrites_of_longer nonempty longer behindIt (by omega) whole (always _)
  · intro harmless text
    exact .replaceAll nonempty (harmless.inPlace text)

end Vts.Lib.Replacement
