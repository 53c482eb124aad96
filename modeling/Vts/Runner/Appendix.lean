import Mathlib.Data.List.Basic
import Vts.Runner.FilterRule

/-!
# Appendices of filter items

`ExpandAppendix` of `utils/python/common/filter_utils.py` and the method of `Filter` that
expands both lists of a filter with it. It works on the items as they are written, before
the sign, the wrapping and the escape of an item are read.

`entries` is what an item of a list means: the names and expressions it contributes, each
with the sign that sends it to the exclude lists. `refresh_entries` proves that the four
lists of a refreshed filter are the entries of its two lists, item by item. Which items
survive an expansion is settled in `Vts.Runner.AppendixRule`.
-/

namespace Vts.Runner

open List

/-! ## The source -/

/-- The position before which an appendix goes. In `item[pos - 1]` the index of an item
that is no more than the bitness is `-1`, the last character. -/
def appendixPosition (item : String) : Nat :=
  if endswith item SUFFIX_32BIT || endswith item SUFFIX_64BIT then
    let pos := item.toList.length - SUFFIX_32BIT.toList.length
    let before := if pos = 0 then item.toList.getLast? else item.toList[pos - 1]?
    if before = some '_' then pos - 1 else pos
  else item.toList.length

/-- `item[:pos] + appendix + item[pos:]`. -/
def insertAppendix (item appendix : String) : String :=
  String.ofList (item.toList.take (appendixPosition item)) ++ appendix ++
    dropFirst item (appendixPosition item)

/-- One round of the loop of `ExpandAppendix`. The pattern is compiled for every item that
is no regular expression; one that does not compile raises. -/
def expandAppendixItem (engine : RegexEngine) (appendix_list : List String)
    (filter_pattern item : String) : Option (List String) :=
  if IsRegexFilter item then some [item]
  else if !engine.compiles filter_pattern then none
  else if (engine.matchSpan filter_pattern item).isSome then some [item]
  else some (appendix_list.map (insertAppendix item))

/-- The function `ExpandAppendix`, with `none` for an error of the engine. -/
def ExpandAppendix (engine : RegexEngine) (input_list appendix_list : List String)
    (filter_pattern : String) : Option (List String) :=
  input_list.foldlM (fun result item =>
    (expandAppendixItem engine appendix_list filter_pattern item).map (result ++ ·)) []

namespace Filter

/-- The method `ExpandAppendix`. -/
def ExpandAppendix (engine : RegexEngine) (self : Filter) (appendix_list : List String)
    (filter_pattern : String) : Option Filter := do
  let self := self.setIncludeFilter engine
    (← Vts.Runner.ExpandAppendix engine self.include_filter appendix_list filter_pattern)
  return self.setExcludeFilter engine
    (← Vts.Runner.ExpandAppendix engine self.exclude_filter appendix_list filter_pattern)

end Filter

/-! ## The loop, item by item -/

/-- A loop that appends what each item gives, from any list on. -/
theorem foldlM_append {α β : Type} (f : α → Option (List β)) (items : List α)
    (start : List β) :
    items.foldlM (fun result item => (f item).map (result ++ ·)) start =
      (items.foldlM (fun result item => (f item).map (result ++ ·)) []).map (start ++ ·) := by
  induction items generalizing start with
  | nil => simp
  | cons item items ih =>
    rw [foldlM_cons, foldlM_cons]
    cases f item with
    | none => rfl
    | some first =>
      simp only [Option.map_some, Option.bind_eq_bind, Option.bind_some, nil_append]
      rw [ih, ih first, Option.map_map]
      congr 1
      funext rest
      exact append_assoc _ _ _

variable (engine : RegexEngine) (enable_regex negative : Bool) (items : List String)

theorem expandAppendix_cons (item : String) (input_list appendix_list : List String)
    (filter_pattern : String) :
    ExpandAppendix engine (item :: input_list) appendix_list filter_pattern =
      (expandAppendixItem engine appendix_list filter_pattern item).bind fun first =>
        (ExpandAppendix engine input_list appendix_list filter_pattern).map (first ++ ·) := by
  rw [ExpandAppendix, foldlM_cons]
  cases expandAppendixItem engine appendix_list filter_pattern item with
  | none => rfl
  | some first => exact foldlM_append _ input_list first

theorem expandAppendix_singleton (item : String) (appendix_list : List String)
    (filter_pattern : String) :
    ExpandAppendix engine [item] appendix_list filter_pattern =
      expandAppendixItem engine appendix_list filter_pattern item := by
  rw [expandAppendix_cons]
  cases expandAppendixItem engine appendix_list filter_pattern item with
  | none => rfl
  | some expanded => exact congrArg some (append_nil expanded)

/-- What the loop makes of one item, and nothing where it raises. -/
def pieces (engine : RegexEngine) (appendix_list : List String) (filter_pattern item : String) :
    List String :=
  (expandAppendixItem engine appendix_list filter_pattern item).getD []

/-- The expansion of a list is that of its items one after the other. -/
theorem expandAppendix_eq_some_iff {engine : RegexEngine}
    {input_list appendix_list : List String} {filter_pattern : String} {result : List String} :
    ExpandAppendix engine input_list appendix_list filter_pattern = some result ↔
      (∀ item ∈ input_list,
        (expandAppendixItem engine appendix_list filter_pattern item).isSome = true) ∧
      result = input_list.flatMap (pieces engine appendix_list filter_pattern) := by
  induction input_list generalizing result with
  | nil =>
    rw [ExpandAppendix, foldlM_nil]
    constructor
    · intro same
      exact ⟨by simp, (Option.some.inj same).symm⟩
    · rintro ⟨_, rfl⟩
      rfl
  | cons item input_list ih =>
    rw [expandAppendix_cons, flatMap_cons, pieces]
    cases expanded : expandAppendixItem engine appendix_list filter_pattern item with
    | none => simp [expanded]
    | some first =>
      rw [forall_mem_cons, expanded, Option.getD_some]
      cases rest : ExpandAppendix engine input_list appendix_list filter_pattern with
      | none =>
        have raises : ¬ ∀ item ∈ input_list,
            (expandAppendixItem engine appendix_list filter_pattern item).isSome = true := by
          intro returns
          have returned := ih.mpr ⟨returns, rfl⟩
          rw [rest] at returned
          cases returned
        simp [raises]
      | some tail =>
        obtain ⟨returns, tailParts⟩ := ih.mp rest
        rw [tailParts]
        simp only [Option.isSome_some, true_and]
        constructor
        · intro same
          exact ⟨returns, (Option.some.inj same).symm⟩
        · rintro ⟨_, rfl⟩
          rfl

/-! ## What an item means -/

/-- A name or the body of an expression. -/
inductive Pattern where
  | exact (name : String)
  | regex (body : String)
deriving DecidableEq

/-- What an item contributes; a negative entry of the include list excludes. -/
structure Entry where
  negative : Bool
  pattern : Pattern
deriving DecidableEq

/-- The patterns that `SplitFilterList` finds in an item without sign. -/
def patterns (engine : RegexEngine) (enable_regex : Bool) (item : String) : List Pattern :=
  if enable_regex then
    (SplitFilterList engine [item]).1.map Pattern.exact ++
      (SplitFilterList engine [item]).2.map Pattern.regex
  else [Pattern.exact item]

/-- The entries of an item, in a list whose items may have the negative sign or not. -/
def entries (engine : RegexEngine) (enable_regex signs : Bool) (item : String) : List Entry :=
  if signs && startswith item NEGATIVE_PATTERN_PREFIX then
    (patterns engine enable_regex (dropFirst item NEGATIVE_PATTERN_PREFIX.toList.length)).map
      (Entry.mk true)
  else (patterns engine enable_regex item).map (Entry.mk false)

def Pattern.names : Pattern → List String
  | exact name => [name]
  | regex _ => []

def Pattern.bodies : Pattern → List String
  | exact _ => []
  | regex body => [body]

/-- The entries with a sign. -/
def withSign (negative : Bool) (listed : List Entry) : List Entry :=
  listed.filter fun entry => entry.negative == negative

/-- The names among the entries with a sign. -/
def names (negative : Bool) (listed : List Entry) : List String :=
  (withSign negative listed).flatMap fun entry => entry.pattern.names

/-- The expressions among the entries with a sign. -/
def bodies (negative : Bool) (listed : List Entry) : List String :=
  (withSign negative listed).flatMap fun entry => entry.pattern.bodies

/-! ## A refresh reads item by item -/

/-- The entries of items without signs, each given the same sign. -/
def signed (engine : RegexEngine) (enable_regex negative : Bool) (items : List String) :
    List Entry :=
  items.flatMap fun item => (patterns engine enable_regex item).map (Entry.mk negative)

/-- The patterns of a list with a given sign, as `SplitNegativePattern` finds them. -/
def ofSign (negative : Bool) (items : List String) : List String :=
  if negative then (SplitNegativePattern items).2 else (SplitNegativePattern items).1

theorem withSign_map (sign : Bool) (listed : List Pattern) :
    withSign negative (listed.map (Entry.mk sign)) =
      if sign = negative then listed.map (Entry.mk sign) else [] := by
  rw [withSign]
  by_cases same : sign = negative <;> simp [same]

theorem withSign_signed (sign : Bool) (items : List String) :
    withSign negative (signed engine enable_regex sign items) =
      if sign = negative then signed engine enable_regex sign items else [] := by
  have signs : ∀ entry ∈ signed engine enable_regex sign items, entry.negative = sign := by
    intro entry listed
    obtain ⟨item, _, made⟩ := mem_flatMap.mp listed
    obtain ⟨pattern, _, rfl⟩ := mem_map.mp made
    rfl
  split_ifs with same
  · refine filter_eq_self.mpr ?_
    intro entry listed
    rw [signs entry listed, same, beq_self_eq_true]
  · refine filter_eq_nil_iff.mpr ?_
    intro entry listed
    rw [signs entry listed, beq_iff_eq]
    exact same

/-- The entries with one sign are those of the patterns with that sign. -/
theorem withSign_entries :
    withSign negative (items.flatMap (entries engine enable_regex true)) =
      signed engine enable_regex negative (ofSign negative items) := by
  have oneItem : ∀ item, withSign negative (entries engine enable_regex true item) =
      signed engine enable_regex negative (ofSign negative [item]) := by
    intro item
    rw [entries, Bool.true_and, NEGATIVE_PATTERN_PREFIX, ofSign, splitNegativePattern_eq]
    cases sign : startswith item "-" <;> cases negative <;> simp [sign, withSign_map, signed]
  induction items with
  | nil => cases negative <;> rfl
  | cons item items ih =>
    have split : ofSign negative (item :: items) =
        ofSign negative [item] ++ ofSign negative items := by
      cases negative <;> simp [ofSign, splitNegativePattern_eq]
    rw [split, signed, flatMap_append]
    change _ = signed engine enable_regex negative _ ++ signed engine enable_regex negative _
    rw [← oneItem, ← ih]
    simp [withSign, filter_append]

theorem entries_unsigned :
    items.flatMap (entries engine enable_regex false) = signed engine enable_regex false items :=
  rfl

/-- The exact names that a refresh finds in a list without signs. -/
theorem names_signed :
    (signed engine enable_regex negative items).flatMap (fun entry => entry.pattern.names) =
      if enable_regex then (SplitFilterList engine items).1 else items := by
  rw [signed, flatMap_assoc]
  cases enable_regex with
  | false =>
    rw [if_neg Bool.false_ne_true]
    refine Eq.trans ?_ (flatMap_singleton' items)
    refine flatMap_congr ?_
    intro item _
    simp [patterns, Pattern.names]
  | true =>
    rw [if_pos rfl, splitFilterList_eq]
    refine flatMap_congr ?_
    intro item _
    simp [patterns, splitFilterList_eq, flatMap_map, Pattern.names]

/-- The expressions that a refresh finds in a list without signs. -/
theorem bodies_signed :
    (signed engine true negative items).flatMap (fun entry => entry.pattern.bodies) =
      (SplitFilterList engine items).2 := by
  rw [signed, flatMap_assoc, splitFilterList_eq]
  refine flatMap_congr ?_
  intro item _
  simp [patterns, splitFilterList_eq, flatMap_map, Pattern.bodies]

namespace Filter

def includeEntries (engine : RegexEngine) (self : Filter) : List Entry :=
  self.include_filter.flatMap (entries engine self.enable_regex self.enable_negative_pattern)

def excludeEntries (engine : RegexEngine) (self : Filter) : List Entry :=
  self.exclude_filter.flatMap (entries engine self.enable_regex false)

/-- Exact names with their bitness, if that is to be added. -/
def withBitness (self : Filter) (exact : List String) : List String :=
  if self.expand_bitness then Vts.Runner.ExpandBitness exact else exact

/-- The four lists of a filter are the entries of its two lists. -/
structure ReadsEntries (engine : RegexEngine) (read : Filter) : Prop where
  include_exact : read.include_filter_exact =
    read.withBitness (names false (read.includeEntries engine))
  exclude_exact : read.exclude_filter_exact = read.withBitness
    (names false (read.excludeEntries engine) ++ names true (read.includeEntries engine))
  include_regex : read.enable_regex = true →
    read.include_filter_regex = bodies false (read.includeEntries engine)
  exclude_regex : read.enable_regex = true → read.exclude_filter_regex =
    bodies false (read.excludeEntries engine) ++ bodies true (read.includeEntries engine)

/-- A refresh leaves the settings and the two lists alone. -/
theorem refresh_keeps (self : Filter) :
    (self.refresh_filter engine).includeEntries engine = self.includeEntries engine ∧
      (self.refresh_filter engine).excludeEntries engine = self.excludeEntries engine ∧
      (self.refresh_filter engine).withBitness = self.withBitness ∧
      (self.refresh_filter engine).enable_regex = self.enable_regex := by
  unfold includeEntries excludeEntries withBitness refresh_filter
  cases self.enable_regex <;> cases self.expand_bitness <;> simp

/-- After a refresh the four lists are read item by item. -/
theorem refresh_entries (self : Filter) : (self.refresh_filter engine).ReadsEntries engine := by
  have included : ∀ negative, withSign negative (self.includeEntries engine) =
      signed engine self.enable_regex negative
        (if self.enable_negative_pattern then ofSign negative self.include_filter
          else if negative then [] else self.include_filter) := by
    intro negative
    unfold includeEntries
    cases self.enable_negative_pattern with
    | true => exact withSign_entries engine self.enable_regex negative self.include_filter
    | false =>
      rw [entries_unsigned, withSign_signed]
      cases negative <;> simp [signed]
  have excluded : withSign false (self.excludeEntries engine) =
      signed engine self.enable_regex false self.exclude_filter := by
    rw [excludeEntries, entries_unsigned, withSign_signed, if_pos rfl]
  obtain ⟨keepsIncluded, keepsExcluded, keepsBitness, keepsRegex⟩ := refresh_keeps engine self
  constructor
  · rw [keepsIncluded, keepsBitness, names, included, names_signed]
    unfold refresh_filter withBitness ofSign
    cases self.enable_regex <;> cases self.expand_bitness <;>
      cases self.enable_negative_pattern <;> simp
  · rw [keepsIncluded, keepsExcluded, keepsBitness, names, names, included, excluded,
      names_signed, names_signed]
    unfold refresh_filter withBitness ofSign
    cases self.enable_regex <;> cases self.expand_bitness <;>
      cases self.enable_negative_pattern <;> simp [splitFilterList_eq]
  · intro enabled
    rw [keepsRegex] at enabled
    rw [keepsIncluded, bodies, included, enabled, bodies_signed]
    unfold refresh_filter ofSign
    rw [enabled]
    cases self.expand_bitness <;> cases self.enable_negative_pattern <;> simp
  · intro enabled
    rw [keepsRegex] at enabled
    rw [keepsIncluded, keepsExcluded, bodies, bodies, included, excluded, enabled,
      bodies_signed, bodies_signed]
    unfold refresh_filter ofSign
    rw [enabled]
    cases self.expand_bitness <;> cases self.enable_negative_pattern <;>
      simp [splitFilterList_eq]

/-- Of the two refreshes that the setters make, the second one decides. -/
theorem refresh_refresh (self : Filter) (included excluded : List String) :
    (self.setIncludeFilter engine included).setExcludeFilter engine excluded =
      refresh_filter engine
        { self with include_filter := included, exclude_filter := excluded } := by
  unfold setIncludeFilter setExcludeFilter refresh_filter
  cases self.enable_regex <;> cases self.expand_bitness <;> simp

/-- The expansion returns exactly when every item is expanded, and then makes the filter of
the two expanded lists. -/
theorem expandAppendix_eq_some_iff {engine : RegexEngine} {self result : Filter}
    {appendix_list : List String} {filter_pattern : String} :
    self.ExpandAppendix engine appendix_list filter_pattern = some result ↔
      (∀ item ∈ self.include_filter ++ self.exclude_filter,
        (expandAppendixItem engine appendix_list filter_pattern item).isSome = true) ∧
      result = refresh_filter engine { self with
        include_filter := self.include_filter.flatMap (pieces engine appendix_list filter_pattern)
        exclude_filter :=
          self.exclude_filter.flatMap (pieces engine appendix_list filter_pattern) } := by
  have kept : ∀ included, (self.setIncludeFilter engine included).exclude_filter =
      self.exclude_filter := by
    intro included
    unfold setIncludeFilter refresh_filter
    cases self.enable_regex <;> cases self.expand_bitness <;> simp
  simp only [Filter.ExpandAppendix, Option.bind_eq_bind, Option.bind_eq_some_iff,
    Option.pure_def, Option.some.injEq, Vts.Runner.expandAppendix_eq_some_iff,
    forall_mem_append]
  constructor
  · rintro ⟨_, ⟨included, rfl⟩, _, ⟨excluded, rfl⟩, rfl⟩
    rw [kept] at excluded ⊢
    exact ⟨⟨included, excluded⟩, refresh_refresh engine self _ _⟩
  · rintro ⟨⟨included, excluded⟩, rfl⟩
    refine ⟨_, ⟨included, rfl⟩, _, ⟨?_, rfl⟩, ?_⟩
    · rw [kept]
      exact excluded
    · rw [kept]
      exact refresh_refresh engine self _ _

end Filter

end Vts.Runner
