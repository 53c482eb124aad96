import Vts.Runner.Filter

/-!
# Test filters decide as documented

A pattern is taken apart by its sign, its wrapping and its bitness; the lists that
`refresh_filter` makes hold exactly the names and expressions that the patterns stand for.
A refresh reads only the settings and the two lists of patterns, so every sequence of
calls that ends with one makes the filter that is made at once.

Proved here: a filter decides as `Passes` says of the sets of listed patterns, a negative
pattern may as well stand in the other list, and a filter filled by calls decides as one
made at once. Nothing is said of expressions themselves.
-/

namespace Vts.Runner

open List

/-! ## Strings taken apart -/

section

variable {text start ending first second : String}

theorem startswith_iff : startswith text start = true ↔ ∃ rest, text = start ++ rest := by
  rw [startswith, isPrefixOf_iff_prefix]
  constructor
  · rintro ⟨rest, same⟩
    refine ⟨String.ofList rest, String.toList_inj.mp ?_⟩
    rw [String.toList_append, String.toList_ofList, same]
  · rintro ⟨rest, rfl⟩
    exact ⟨rest.toList, by rw [String.toList_append]⟩

theorem endswith_iff : endswith text ending = true ↔ ∃ front, text = front ++ ending := by
  rw [endswith, isSuffixOf_iff_suffix]
  constructor
  · rintro ⟨front, same⟩
    refine ⟨String.ofList front, String.toList_inj.mp ?_⟩
    rw [String.toList_append, String.toList_ofList, same]
  · rintro ⟨front, rfl⟩
    exact ⟨front.toList, by rw [String.toList_append]⟩

/-- A start that does not end with the last character cannot share it with the end. -/
theorem wrapped_iff (text start : String) (last : Char)
    (apart : start.toList.getLast? ≠ some last) :
    (startswith text start && endswith text (String.singleton last)) = true ↔
      ∃ body, text = start ++ body ++ String.singleton last := by
  rw [Bool.and_eq_true, startswith_iff, endswith_iff]
  constructor
  · rintro ⟨⟨rest, begins⟩, ⟨front, ends⟩⟩
    have both : start.toList ++ rest.toList = front.toList ++ [last] := by
      rw [← String.toList_append, ← begins, ends, String.toList_append, String.toList_singleton]
    rcases append_eq_append_iff.mp both with
      ⟨body, _, restEnds⟩ | ⟨shared, startEnds, lastSplit⟩
    · refine ⟨String.ofList body, String.toList_inj.mp ?_⟩
      rw [begins, String.toList_append, restEnds, String.toList_append, String.toList_append,
        String.toList_ofList, String.toList_singleton, append_assoc]
    · cases shared with
      | nil =>
        refine ⟨"", String.toList_inj.mp ?_⟩
        rw [begins]
        simpa using lastSplit.symm
      | cons head tail =>
        obtain ⟨rfl, rfl, -⟩ : last = head ∧ tail = [] ∧ rest = "" := by simpa using lastSplit
        exact absurd (by rw [startEnds]; simp) apart
  · rintro ⟨body, rfl⟩
    exact ⟨⟨body ++ String.singleton last, by rw [String.append_assoc]⟩, ⟨start ++ body, rfl⟩⟩

@[simp] theorem dropFirst_append (start rest : String) :
    dropFirst (start ++ rest) start.toList.length = rest := by
  rw [dropFirst, String.toList_append, drop_left, String.ofList_toList]

@[simp] theorem dropLast_append (front ending : String) :
    dropLast (front ++ ending) ending.toList.length = front := by
  rw [dropLast, String.toList_append, length_append, Nat.add_sub_cancel, take_left,
    String.ofList_toList]

theorem append_left_cancel (same : start ++ first = start ++ second) : first = second := by
  rw [← dropFirst_append start first, same, dropFirst_append]

theorem append_right_cancel (same : first ++ ending = second ++ ending) : first = second := by
  rw [← dropLast_append first ending, same, dropLast_append]

end

variable {item pattern : String} {settings : FilterSettings} {engine : RegexEngine}
  {patterns : List String}

theorem isRegexFilter_iff : IsRegexFilter item = true ↔ ∃ body, item = "r(" ++ body ++ ")" :=
  wrapped_iff item "r(" ')' (by decide)

theorem isEscaped_iff :
    (startswith item REGEX_PREFIX_ESCAPE && endswith item REGEX_SUFFIX) = true ↔
      ∃ body, item = "\\r(" ++ body ++ ")" :=
  wrapped_iff item "\\r(" ')' (by decide)

/-! ## Splitting patterns -/

section

variable {input_list : List String} {body : String}

/-- A loop that appends to two lists. -/
theorem foldl_append_pair {α β : Type} (f g : α → List β) (items : List α) (first second : List β) :
    items.foldl (fun lists item => (lists.1 ++ f item, lists.2 ++ g item)) (first, second) =
      (first ++ items.flatMap f, second ++ items.flatMap g) := by
  induction items generalizing first second with
  | nil => simp
  | cons item items ih =>
    rw [foldl_cons, ih]
    simp

/-- What a pattern adds to the exact names. -/
def exactPart (item : String) : List String :=
  if IsRegexFilter item then []
  else if startswith item REGEX_PREFIX_ESCAPE && endswith item REGEX_SUFFIX then
    [REGEX_PREFIX ++ dropFirst item REGEX_PREFIX_ESCAPE.toList.length]
  else [item]

/-- What a pattern adds to the regular expressions. -/
def regexPart (engine : RegexEngine) (item : String) : List String :=
  if IsRegexFilter item then
    [dropLast (dropFirst item REGEX_PREFIX.toList.length) REGEX_SUFFIX.toList.length].filter
      engine.compiles
  else []

theorem splitFilterList_eq (engine : RegexEngine) (input_list : List String) :
    SplitFilterList engine input_list =
      (input_list.flatMap exactPart, input_list.flatMap (regexPart engine)) := by
  have step : splitFilterItem engine =
      fun lists item => (lists.1 ++ exactPart item, lists.2 ++ regexPart engine item) := by
    funext lists item
    unfold splitFilterItem exactPart regexPart
    cases IsRegexFilter item with
    | true =>
      by_cases compiles : engine.compiles
        (dropLast (dropFirst item REGEX_PREFIX.toList.length) REGEX_SUFFIX.toList.length) = true
      · simp [compiles]
      · simp [compiles]
    | false =>
      simp only [Bool.false_eq_true, if_false, append_nil]
      split_ifs <;> rfl
  rw [SplitFilterList, step, foldl_append_pair]
  simp

theorem escaped_ne_regex (body inner : String) : "\\r(" ++ body ++ ")" ≠ "r(" ++ inner ++ ")" := by
  intro same
  have heads := congrArg (fun text => text.toList.head?) same
  simp [String.toList_append] at heads

theorem mem_exactPart_iff (enabled : settings.enable_regex = true) {name : String} :
    name ∈ exactPart item ↔ ExactName settings item name := by
  unfold exactPart
  constructor
  · intro listed
    split_ifs at listed with isRegex isEscaped
    · cases listed
    · obtain ⟨body, rfl⟩ := isEscaped_iff.mp isEscaped
      have named : name = "r(" ++ body ++ ")" := by
        rw [mem_singleton.mp listed, String.append_assoc, String.append_assoc]
        exact congrArg ("r(" ++ ·) (dropFirst_append "\\r(" (body ++ ")"))
      rw [named]
      exact ExactName.escaped enabled body
    · rw [mem_singleton.mp listed]
      refine ExactName.plain ?_
      intro _
      constructor
      · intro body same
        exact isRegex (isRegexFilter_iff.mpr ⟨body, same⟩)
      · intro body same
        exact isEscaped (isEscaped_iff.mpr ⟨body, same⟩)
  · intro named
    cases named with
    | plain unwrapped =>
      have noRegex : ¬ IsRegexFilter item = true := by
        rw [isRegexFilter_iff]
        rintro ⟨body, same⟩
        exact (unwrapped enabled).1 body same
      have noEscape : ¬ (startswith item REGEX_PREFIX_ESCAPE && endswith item REGEX_SUFFIX) = true := by
        rw [isEscaped_iff]
        rintro ⟨body, same⟩
        exact (unwrapped enabled).2 body same
      rw [if_neg noRegex, if_neg noEscape]
      exact mem_singleton.mpr rfl
    | escaped _ body =>
      have noRegex : ¬ IsRegexFilter ("\\r(" ++ body ++ ")") = true := by
        rw [isRegexFilter_iff]
        rintro ⟨inner, same⟩
        exact escaped_ne_regex body inner same
      rw [if_neg noRegex, if_pos (isEscaped_iff.mpr ⟨body, rfl⟩), mem_singleton,
        String.append_assoc, String.append_assoc]
      exact congrArg ("r(" ++ ·) (dropFirst_append "\\r(" (body ++ ")")).symm

theorem mem_regexPart_iff :
    body ∈ regexPart engine item ↔
      item = "r(" ++ body ++ ")" ∧ engine.compiles body = true := by
  have inner : ∀ body, dropLast (dropFirst ("r(" ++ body ++ ")") REGEX_PREFIX.toList.length)
      REGEX_SUFFIX.toList.length = body := by
    intro body
    have first : dropFirst ("r(" ++ body ++ ")") REGEX_PREFIX.toList.length = body ++ ")" := by
      rw [String.append_assoc]
      exact dropFirst_append "r(" (body ++ ")")
    rw [first]
    exact dropLast_append body ")"
  unfold regexPart
  constructor
  · intro listed
    split_ifs at listed with isRegex
    · obtain ⟨wrapped, rfl⟩ := isRegexFilter_iff.mp isRegex
      rw [inner, mem_filter, mem_singleton] at listed
      obtain ⟨rfl, compiles⟩ := listed
      exact ⟨rfl, compiles⟩
    · cases listed
  · rintro ⟨rfl, compiles⟩
    rw [if_pos (isRegexFilter_iff.mpr ⟨body, rfl⟩), inner, mem_filter]
    exact ⟨mem_singleton.mpr rfl, compiles⟩

/-- What a pattern adds to the positive and to the negative patterns. -/
theorem splitNegativePattern_eq (input_list : List String) :
    SplitNegativePattern input_list =
      (input_list.flatMap (fun item => if startswith item "-" then [] else [item]),
        input_list.flatMap (fun item => if startswith item "-" then [dropFirst item 1] else [])) := by
  have step : (fun (lists : List String × List String) item =>
      if startswith item NEGATIVE_PATTERN_PREFIX then
        (lists.1, lists.2 ++ [dropFirst item NEGATIVE_PATTERN_PREFIX.toList.length])
      else (lists.1 ++ [item], lists.2)) =
      fun lists item => (lists.1 ++ (if startswith item "-" then [] else [item]),
        lists.2 ++ (if startswith item "-" then [dropFirst item 1] else [])) := by
    funext lists item
    unfold NEGATIVE_PATTERN_PREFIX
    cases startswith item "-" <;> simp
  rw [SplitNegativePattern, step, foldl_append_pair]
  simp

theorem mem_positive_iff :
    pattern ∈ (SplitNegativePattern input_list).1 ↔
      pattern ∈ input_list ∧ ∀ rest, pattern ≠ "-" ++ rest := by
  rw [splitNegativePattern_eq]
  simp only [mem_flatMap]
  constructor
  · rintro ⟨item, listed, kept⟩
    split_ifs at kept with negative
    · cases kept
    · rw [mem_singleton.mp kept]
      refine ⟨listed, ?_⟩
      intro rest same
      exact negative (startswith_iff.mpr ⟨rest, same⟩)
  · rintro ⟨listed, positive⟩
    refine ⟨pattern, listed, ?_⟩
    have unsigned : ¬ startswith pattern "-" = true := by
      rw [startswith_iff]
      rintro ⟨rest, same⟩
      exact positive rest same
    rw [if_neg unsigned]
    exact mem_singleton.mpr rfl

theorem mem_negative_iff :
    pattern ∈ (SplitNegativePattern input_list).2 ↔ "-" ++ pattern ∈ input_list := by
  rw [splitNegativePattern_eq]
  simp only [mem_flatMap]
  constructor
  · rintro ⟨item, listed, kept⟩
    split_ifs at kept with negative
    · obtain ⟨rest, rfl⟩ := startswith_iff.mp negative
      have same : pattern = rest := (mem_singleton.mp kept).trans (dropFirst_append "-" rest)
      rw [same]
      exact listed
    · cases kept
  · intro listed
    refine ⟨"-" ++ pattern, listed, ?_⟩
    rw [if_pos (startswith_iff.mpr ⟨pattern, rfl⟩), mem_singleton]
    exact (dropFirst_append "-" pattern).symm

/-! ## Bitness -/

theorem mem_deduplicate_iff {input : List String} :
    item ∈ DeduplicateKeepOrder input ↔ item ∈ input := by
  have kept : ∀ (input seen : List String), item ∈ input.foldl (fun seen item =>
      if item ∈ seen then seen else seen ++ [item]) seen ↔ item ∈ seen ∨ item ∈ input := by
    intro input
    induction input with
    | nil => simp
    | cons first rest ih =>
      intro seen
      rw [foldl_cons, ih, mem_cons]
      by_cases known : first ∈ seen
      · rw [if_pos known]
        constructor
        · rintro (old | later)
          · exact Or.inl old
          · exact Or.inr (Or.inr later)
        · rintro (old | rfl | later)
          · exact Or.inl old
          · exact Or.inl known
          · exact Or.inr later
      · rw [if_neg known, mem_append, mem_singleton, or_assoc]
  rw [DeduplicateKeepOrder, kept]
  simp

/-- An item stands for itself and, without bitness, for what it is extended to. -/
theorem mem_bitnessItems_iff {name : String} :
    item ∈ bitnessItems name ↔ item = name ∨
      (∀ front, name ≠ front ++ "32bit" ∧ name ≠ front ++ "64bit") ∧
        ∃ bits, (bits = "32bit" ∨ bits = "64bit") ∧ item = name ++ "_" ++ bits := by
  have bare_iff : (!endswith name SUFFIX_32BIT && !endswith name SUFFIX_64BIT) = true ↔
      ∀ front, name ≠ front ++ "32bit" ∧ name ≠ front ++ "64bit" := by
    rw [Bool.and_eq_true, Bool.not_eq_true', Bool.not_eq_true', ← Bool.not_eq_true,
      ← Bool.not_eq_true, endswith_iff, endswith_iff, not_exists, not_exists, ← forall_and]
    rfl
  rw [bitnessItems, mem_cons]
  apply or_congr_right
  split_ifs with bare
  · rw [and_iff_right (bare_iff.mp bare), mem_cons, mem_singleton]
    constructor
    · rintro (rfl | rfl)
      · exact ⟨"32bit", Or.inl rfl, rfl⟩
      · exact ⟨"64bit", Or.inr rfl, rfl⟩
    · rintro ⟨bits, rfl | rfl, rfl⟩
      · exact Or.inl rfl
      · exact Or.inr rfl
  · exact iff_of_false not_mem_nil fun suffixed => bare (bare_iff.mpr suffixed.1)

theorem mem_expandBitness_iff :
    item ∈ ExpandBitness input_list ↔ item ∈ input_list ∨
      ∃ name ∈ input_list, (∀ front, name ≠ front ++ "32bit" ∧ name ≠ front ++ "64bit") ∧
        ∃ bits, (bits = "32bit" ∨ bits = "64bit") ∧ item = name ++ "_" ++ bits := by
  rw [ExpandBitness, mem_deduplicate_iff, mem_flatMap]
  simp only [mem_bitnessItems_iff]
  constructor
  · rintro ⟨name, listed, rfl | suffixed⟩
    · exact Or.inl listed
    · exact Or.inr ⟨name, listed, suffixed⟩
  · rintro (listed | ⟨name, listed, suffixed⟩)
    · exact ⟨item, listed, Or.inl rfl⟩
    · exact ⟨name, listed, Or.inr suffixed⟩

/-! ## What a refresh makes of a list -/

/-- The exact names that `refresh_filter` makes of a list of patterns. -/
def exactNames (engine : RegexEngine) (settings : FilterSettings) (patterns : List String) :
    List String :=
  let exact := if settings.enable_regex then (SplitFilterList engine patterns).1 else patterns
  if settings.expand_bitness then ExpandBitness exact else exact

/-- The regular expressions that `refresh_filter` makes of a list of patterns. -/
def regexes (engine : RegexEngine) (settings : FilterSettings) (patterns : List String) :
    List String :=
  if settings.enable_regex then (SplitFilterList engine patterns).2 else []

theorem mem_split_exact_iff {name : String} :
    name ∈ (if settings.enable_regex then (SplitFilterList engine patterns).1 else patterns) ↔
      ∃ pattern ∈ patterns, ExactName settings pattern name := by
  cases enabled : settings.enable_regex with
  | true =>
    rw [if_pos rfl, splitFilterList_eq, mem_flatMap]
    simp only [mem_exactPart_iff enabled]
  | false =>
    rw [if_neg (by simp)]
    constructor
    · intro listed
      refine ⟨name, listed, ExactName.plain ?_⟩
      intro on
      exact absurd (enabled.symm.trans on) (by simp)
    · rintro ⟨pattern, listed, named⟩
      cases named with
      | plain _ => exact listed
      | escaped on _ => exact absurd (enabled.symm.trans on) (by simp)

theorem mem_exactNames_iff :
    item ∈ exactNames engine settings patterns ↔ ∃ pattern ∈ patterns,
      ExactName settings pattern item ∨
      (settings.expand_bitness = true ∧ ∃ name, ExactName settings pattern name ∧
        (∀ front, name ≠ front ++ "32bit" ∧ name ≠ front ++ "64bit") ∧
        ∃ bits, (bits = "32bit" ∨ bits = "64bit") ∧ item = name ++ "_" ++ bits) := by
  unfold exactNames
  cases expanded : settings.expand_bitness with
  | false => simp [mem_split_exact_iff]
  | true =>
    simp only [if_true, mem_expandBitness_iff, mem_split_exact_iff, true_and]
    constructor
    · rintro (⟨pattern, listed, named⟩ | ⟨name, ⟨pattern, listed, named⟩, bare, suffixed⟩)
      · exact ⟨pattern, listed, Or.inl named⟩
      · exact ⟨pattern, listed, Or.inr ⟨name, named, bare, suffixed⟩⟩
    · rintro ⟨pattern, listed, named | ⟨name, named, bare, suffixed⟩⟩
      · exact Or.inl ⟨pattern, listed, named⟩
      · exact Or.inr ⟨name, ⟨pattern, listed, named⟩, bare, suffixed⟩

theorem mem_regexes_iff :
    body ∈ regexes engine settings patterns ↔ settings.enable_regex = true ∧
      "r(" ++ body ++ ")" ∈ patterns ∧ engine.compiles body = true := by
  unfold regexes
  cases enabled : settings.enable_regex with
  | false => simp
  | true =>
    rw [if_pos rfl, splitFilterList_eq, mem_flatMap]
    simp only [mem_regexPart_iff, true_and]
    constructor
    · rintro ⟨pattern, listed, rfl, compiles⟩
      exact ⟨listed, compiles⟩
    · rintro ⟨listed, compiles⟩
      exact ⟨_, listed, rfl, compiles⟩

end

theorem inRegexList_iff {regex_list : List String} :
    InRegexList engine item regex_list = true ↔
      ∃ regex ∈ regex_list, engine.matchSpan regex item = some (0, item.length) := by
  rw [InRegexList, any_eq_true]
  have whole_iff : ∀ span : Option (Nat × Nat),
      (span.any fun m => m.1 == 0 && m.2 == item.toList.length) = true ↔
        span = some (0, item.length) := by
    intro span
    cases span with
    | none => simp
    | some span => simp [Prod.ext_iff, String.length_toList]
  simp only [whole_iff]

/-- The two lists made of some patterns match the names that the patterns stand for. -/
theorem matches_iff :
    ((exactNames engine settings patterns).contains item ||
        InRegexList engine item (regexes engine settings patterns)) = true ↔
      ∃ pattern ∈ patterns, StandsFor engine settings pattern item := by
  rw [Bool.or_eq_true, contains_iff_mem, mem_exactNames_iff, inRegexList_iff]
  constructor
  · rintro (⟨pattern, listed, named | ⟨expanded, name, named, bare, bits, known, rfl⟩⟩ |
      ⟨body, listed, whole⟩)
    · exact ⟨pattern, listed, StandsFor.exact named⟩
    · exact ⟨pattern, listed, StandsFor.bitness named expanded bare known⟩
    · obtain ⟨enabled, listed, compiles⟩ := mem_regexes_iff.mp listed
      exact ⟨_, listed, StandsFor.regex enabled compiles whole⟩
  · rintro ⟨pattern, listed, stands⟩
    cases stands with
    | exact named => exact Or.inl ⟨pattern, listed, Or.inl named⟩
    | bitness named expanded bare known =>
      exact Or.inl ⟨pattern, listed, Or.inr ⟨expanded, _, named, bare, _, known, rfl⟩⟩
    | regex enabled compiles whole =>
      exact Or.inr ⟨_, mem_regexes_iff.mpr ⟨enabled, listed, compiles⟩, whole⟩

/-- A pattern that is no regular expression names something exactly. -/
theorem exactName_or_regex (settings : FilterSettings) (pattern : String) :
    (∃ name, ExactName settings pattern name) ∨
      (settings.enable_regex = true ∧ ∃ body, pattern = "r(" ++ body ++ ")") := by
  by_cases wrapped : settings.enable_regex = true ∧ ∃ body, pattern = "r(" ++ body ++ ")"
  · exact Or.inr wrapped
  · refine Or.inl ?_
    by_cases escaped : settings.enable_regex = true ∧ ∃ body, pattern = "\\r(" ++ body ++ ")"
    · obtain ⟨enabled, body, rfl⟩ := escaped
      exact ⟨_, ExactName.escaped enabled body⟩
    · refine ⟨pattern, ExactName.plain ?_⟩
      intro enabled
      constructor
      · intro body same
        exact wrapped ⟨enabled, body, same⟩
      · intro body same
        exact escaped ⟨enabled, body, same⟩

/-- An expression names nothing exactly. -/
theorem not_exactName_regex (enabled : settings.enable_regex = true) {body name : String}
    (wrapped : pattern = "r(" ++ body ++ ")") : ¬ ExactName settings pattern name := by
  intro named
  cases named with
  | plain unwrapped => exact (unwrapped enabled).1 body wrapped
  | escaped _ inner => exact escaped_ne_regex inner body wrapped

/-- A pattern that is not ignored makes one of the lists not empty. -/
theorem exactNames_regexes_empty_iff :
    ((exactNames engine settings patterns).isEmpty &&
        (regexes engine settings patterns).isEmpty) = true ↔
      ∀ pattern ∈ patterns, Ignored engine settings pattern := by
  rw [Bool.and_eq_true, List.isEmpty_iff, List.isEmpty_iff, List.eq_nil_iff_forall_not_mem,
    List.eq_nil_iff_forall_not_mem]
  constructor
  · rintro ⟨noNames, noRegexes⟩ pattern listed
    rcases exactName_or_regex settings pattern with ⟨name, named⟩ | ⟨enabled, body, rfl⟩
    · exact absurd (mem_exactNames_iff.mpr ⟨pattern, listed, Or.inl named⟩) (noNames name)
    · refine ⟨enabled, body, rfl, ?_⟩
      cases compiles : engine.compiles body with
      | false => rfl
      | true => exact absurd (mem_regexes_iff.mpr ⟨enabled, listed, compiles⟩) (noRegexes body)
  · intro ignored
    constructor
    · intro item made
      obtain ⟨pattern, listed, named⟩ := mem_exactNames_iff.mp made
      obtain ⟨enabled, body, wrapped, _⟩ := ignored pattern listed
      rcases named with named | ⟨_, name, named, _⟩
      · exact not_exactName_regex enabled wrapped named
      · exact not_exactName_regex enabled wrapped named
    · intro body made
      obtain ⟨enabled, listed, compiles⟩ := mem_regexes_iff.mp made
      obtain ⟨_, inner, same, fails⟩ := ignored _ listed
      have inside : body = inner := append_left_cancel (append_right_cancel same)
      rw [inside, fails] at compiles
      exact absurd compiles (by simp)

namespace Filter

/-! ## Every history makes one filter -/

/-- The positive patterns of the include list. -/
def positives (settings : FilterSettings) (included : List String) : List String :=
  if settings.enable_negative_pattern then (SplitNegativePattern included).1 else included

/-- The patterns of the exclude list and the negative ones of the include list. -/
def negatives (settings : FilterSettings) (included excluded : List String) : List String :=
  if settings.enable_negative_pattern then excluded ++ (SplitNegativePattern included).2
  else excluded

/-- The filter with given lists, refreshed. -/
def made (engine : RegexEngine) (settings : FilterSettings) (included excluded : List String) :
    Filter where
  enable_regex := settings.enable_regex
  expand_bitness := settings.expand_bitness
  enable_negative_pattern := settings.enable_negative_pattern
  include_filter := included
  exclude_filter := excluded
  exclude_over_include := settings.exclude_over_include.getD DEFAULT_EXCLUDE_OVER_INCLUDE
  enable_module_name_prefix_matching := settings.enable_module_name_prefix_matching
  module_name := settings.module_name
  include_filter_exact := exactNames engine settings (positives settings included)
  include_filter_regex := regexes engine settings (positives settings included)
  exclude_filter_exact := exactNames engine settings (negatives settings included excluded)
  exclude_filter_regex := regexes engine settings (negatives settings included excluded)

/-- A filter with given settings, refreshed or not. Without regular expressions their
lists are still those of the class. -/
structure Configured (settings : FilterSettings) (self : Filter) : Prop where
  enable_regex : self.enable_regex = settings.enable_regex
  expand_bitness : self.expand_bitness = settings.expand_bitness
  enable_negative_pattern : self.enable_negative_pattern = settings.enable_negative_pattern
  exclude_over_include : self.exclude_over_include =
    settings.exclude_over_include.getD DEFAULT_EXCLUDE_OVER_INCLUDE
  enable_module_name_prefix_matching : self.enable_module_name_prefix_matching =
    settings.enable_module_name_prefix_matching
  module_name : self.module_name = settings.module_name
  no_regexes : settings.enable_regex = false →
    self.include_filter_regex = [] ∧ self.exclude_filter_regex = []

/-- A refresh forgets what the four lists held before. -/
theorem Configured.refresh {self : Filter} (configured : Configured settings self)
    (engine : RegexEngine) :
    self.refresh_filter engine =
      made engine settings self.include_filter self.exclude_filter := by
  obtain ⟨regex, bitness, negative, overrides, matching, name, unset⟩ := configured
  unfold refresh_filter made positives negatives exactNames regexes
  cases enabled : settings.enable_regex with
  | true =>
    simp only [regex, bitness, negative, enabled, if_true]
    rw [← overrides, ← matching, ← name, ← regex.trans enabled, ← bitness, ← negative]
    split_ifs <;> rfl
  | false =>
    obtain ⟨noIncluded, noExcluded⟩ := unset enabled
    simp only [regex, bitness, negative, enabled, Bool.false_eq_true, if_false]
    rw [← overrides, ← matching, ← name, ← regex.trans enabled, ← bitness, ← negative,
      ← noIncluded]
    split_ifs <;> simp [noIncluded, noExcluded]

section

variable (engine : RegexEngine)

theorem configured_made (settings : FilterSettings) (included excluded : List String) :
    Configured settings (made engine settings included excluded) where
  enable_regex := rfl
  expand_bitness := rfl
  enable_negative_pattern := rfl
  exclude_over_include := rfl
  enable_module_name_prefix_matching := rfl
  module_name := rfl
  no_regexes := by
    intro disabled
    simp [made, regexes, disabled]

/-- The settings do not depend on the two lists that the filter was given. -/
theorem Configured.relist {settings : FilterSettings} {self : Filter}
    (configured : Configured settings self) (included excluded : List String) :
    Configured settings
      { self with include_filter := included, exclude_filter := excluded } :=
  { configured with }

theorem Configured.setIncludeFilter {settings : FilterSettings} {self : Filter}
    (configured : Configured settings self) (engine : RegexEngine) (included : List String) :
    self.setIncludeFilter engine included =
      made engine settings included self.exclude_filter :=
  (configured.relist included self.exclude_filter).refresh engine

theorem Configured.setExcludeFilter {settings : FilterSettings} {self : Filter}
    (configured : Configured settings self) (engine : RegexEngine) (excluded : List String) :
    self.setExcludeFilter engine excluded =
      made engine settings self.include_filter excluded :=
  (configured.relist self.include_filter excluded).refresh engine

theorem new_eq_made (included excluded : List String) (settings : FilterSettings) :
    new engine included excluded settings = made engine settings included excluded := by
  have configured : Configured settings (unset settings) :=
    ⟨rfl, rfl, rfl, rfl, rfl, rfl, fun _ => ⟨rfl, rfl⟩⟩
  rw [new, configured.setIncludeFilter engine included]
  exact (configured_made engine settings included []).setExcludeFilter engine excluded

/-- A call of a method that adds patterns. -/
inductive Call where
  | add_to_include_filter (pattern : Patterns) (auto_refresh : Bool)
  | add_to_exclude_filter (pattern : Patterns) (auto_refresh : Bool)

def Call.auto_refresh : Call → Bool
  | .add_to_include_filter _ auto_refresh => auto_refresh
  | .add_to_exclude_filter _ auto_refresh => auto_refresh

def Call.included : Call → List String
  | .add_to_include_filter pattern _ => pattern.toList
  | .add_to_exclude_filter _ _ => []

def Call.excluded : Call → List String
  | .add_to_include_filter _ _ => []
  | .add_to_exclude_filter pattern _ => pattern.toList

def Call.apply (engine : RegexEngine) (self : Filter) : Call → Filter
  | .add_to_include_filter pattern auto_refresh =>
    self.add_to_include_filter engine pattern auto_refresh
  | .add_to_exclude_filter pattern auto_refresh =>
    self.add_to_exclude_filter engine pattern auto_refresh

/-- The filter after a sequence of calls. -/
def run (engine : RegexEngine) (self : Filter) (calls : List Call) : Filter :=
  calls.foldl (Call.apply engine) self

/-- A call appends its patterns; with `auto_refresh` it also refreshes. -/
theorem Configured.apply {settings : FilterSettings} {self : Filter}
    (configured : Configured settings self) (engine : RegexEngine) (call : Call) :
    Configured settings (call.apply engine self) ∧
      (call.apply engine self).include_filter = self.include_filter ++ call.included ∧
      (call.apply engine self).exclude_filter = self.exclude_filter ++ call.excluded ∧
      (call.auto_refresh = true → call.apply engine self =
        made engine settings (self.include_filter ++ call.included)
          (self.exclude_filter ++ call.excluded)) := by
  have added := configured.relist (self.include_filter ++ call.included)
    (self.exclude_filter ++ call.excluded)
  have applied : call.apply engine self =
      if call.auto_refresh then
        made engine settings (self.include_filter ++ call.included)
          (self.exclude_filter ++ call.excluded)
      else
        { self with
          include_filter := self.include_filter ++ call.included
          exclude_filter := self.exclude_filter ++ call.excluded } := by
    rw [← added.refresh engine]
    rcases call with ⟨pattern, _ | _⟩ | ⟨pattern, _ | _⟩ <;>
      simp only [Call.included, Call.excluded, append_nil] <;> rfl
  rw [applied]
  split
  · exact ⟨configured_made _ _ _ _, rfl, rfl, fun _ => rfl⟩
  · next unrefreshed => exact ⟨added, rfl, rfl, fun refreshed => absurd refreshed unrefreshed⟩

theorem Configured.run {settings : FilterSettings} {self : Filter}
    (configured : Configured settings self) (engine : RegexEngine) (calls : List Call) :
    Configured settings (self.run engine calls) ∧
      (self.run engine calls).include_filter =
        self.include_filter ++ calls.flatMap Call.included ∧
      (self.run engine calls).exclude_filter =
        self.exclude_filter ++ calls.flatMap Call.excluded := by
  induction calls generalizing self with
  | nil => exact ⟨configured, by simp [Filter.run], by simp [Filter.run]⟩
  | cons call calls ih =>
    obtain ⟨stays, included, excluded, _⟩ := configured.apply engine call
    obtain ⟨configured, listedIncluded, listedExcluded⟩ := ih stays
    rw [included, append_assoc] at listedIncluded
    rw [excluded, append_assoc] at listedExcluded
    exact ⟨configured, listedIncluded, listedExcluded⟩

theorem run_concat (self : Filter) (calls : List Call) (last : Call) :
    self.run engine (calls ++ [last]) = last.apply engine (self.run engine calls) := by
  rw [Filter.run, foldl_append]
  rfl

/-- Calls of which the last one refreshes make the filter that is made at once. -/
theorem run_new (included excluded : List String) (settings : FilterSettings) (calls : List Call)
    (last : Call) (refreshes : last.auto_refresh = true) :
    (new engine included excluded settings).run engine (calls ++ [last]) =
      new engine (included ++ (calls ++ [last]).flatMap Call.included)
        (excluded ++ (calls ++ [last]).flatMap Call.excluded) settings := by
  rw [new_eq_made, new_eq_made]
  obtain ⟨configured, listedIncluded, listedExcluded⟩ :=
    (configured_made engine settings included excluded).run engine calls
  have lastMade := (configured.apply engine last).2.2.2 refreshes
  rw [listedIncluded, listedExcluded] at lastMade
  rw [run_concat, lastMade, flatMap_append, flatMap_append, flatMap_singleton,
    flatMap_singleton, append_assoc, append_assoc]
  rfl

end

/-! ## Decisions -/

theorem mem_positives_iff {included : List String} :
    pattern ∈ positives settings included ↔
      pattern ∈ Including settings {pattern | pattern ∈ included} := by
  unfold positives Including
  cases settings.enable_negative_pattern with
  | false => simp
  | true => simp [mem_positive_iff]

theorem mem_negatives_iff {included excluded : List String} :
    pattern ∈ negatives settings included excluded ↔
      pattern ∈ Excluding settings {pattern | pattern ∈ included}
        {pattern | pattern ∈ excluded} := by
  unfold negatives Excluding
  cases settings.enable_negative_pattern with
  | false => simp
  | true => simp [mem_negative_iff]

section

variable (engine : RegexEngine) (settings : FilterSettings)
  (before included after excluded : List String)

/-- The check of a name as it is and, when it fails, after the name of the module. -/
theorem moduleNamePrefixMatchingCheck_iff (self : Filter) (item : String)
    (check_function : String → Bool) :
    self.moduleNamePrefixMatchingCheck item check_function = true ↔
      check_function item = true ∨
        (self.enable_module_name_prefix_matching = true ∧
          ∃ module, self.module_name = some module ∧ module ≠ "" ∧
            check_function (module ++ "." ++ item) = true) := by
  unfold moduleNamePrefixMatchingCheck
  cases name : self.module_name with
  | none => simp
  | some module =>
    by_cases unnamed : module = ""
    · simp [unnamed]
    · cases check_function item <;> cases self.enable_module_name_prefix_matching <;>
        simp [unnamed]

theorem moduleCheck_iff (patterns : List String) (set : Set String)
    (listed : ∀ pattern, pattern ∈ patterns ↔ pattern ∈ set) (item : String) :
    (made engine settings included excluded).moduleNamePrefixMatchingCheck item (fun item =>
        (exactNames engine settings patterns).contains item ||
          InRegexList engine item (regexes engine settings patterns)) = true ↔
      Listed engine settings set item := by
  rw [moduleNamePrefixMatchingCheck_iff]
  simp only [matches_iff, listed]
  rfl

theorem filter_made_iff (item : String) :
    (made engine settings included excluded).filter engine item = true ↔
      Passes engine settings {pattern | pattern ∈ included} {pattern | pattern ∈ excluded}
        item := by
  have inInclude : (made engine settings included excluded).IsInIncludeFilter engine item = true ↔
      Listed engine settings (Including settings {pattern | pattern ∈ included}) item :=
    moduleCheck_iff engine settings included excluded (positives settings included) _
      (fun _ => mem_positives_iff) item
  have inExclude : (made engine settings included excluded).IsInExcludeFilter engine item = true ↔
      Listed engine settings (Excluding settings {pattern | pattern ∈ included}
        {pattern | pattern ∈ excluded}) item :=
    moduleCheck_iff engine settings included excluded (negatives settings included excluded) _
      (fun _ => mem_negatives_iff) item
  have empty : (made engine settings included excluded).IsIncludeFilterEmpty = true ↔
      ¬ Restricts engine settings {pattern | pattern ∈ included} := by
    unfold Restricts
    push Not
    simp only [← mem_positives_iff]
    exact exactNames_regexes_empty_iff
  have overrides : (made engine settings included excluded).exclude_over_include = true ↔
      settings.exclude_over_include = some true := by
    cases known : settings.exclude_over_include <;> simp [made, known, DEFAULT_EXCLUDE_OVER_INCLUDE]
  unfold Filter.filter Passes
  rw [← inInclude, ← inExclude, ← @not_not (Restricts _ _ _), ← empty]
  simp only [← overrides]
  cases (made engine settings included excluded).exclude_over_include <;>
    cases (made engine settings included excluded).IsIncludeFilterEmpty <;>
    cases (made engine settings included excluded).IsInExcludeFilter engine item <;> simp

theorem including_move (pattern : String) (enabled : settings.enable_negative_pattern = true) :
    Including settings {listed | listed ∈ before ++ after} =
      Including settings {listed | listed ∈ before ++ ("-" ++ pattern) :: after} := by
  ext listed
  simp only [Including, Set.mem_ofPred_eq, mem_append, mem_cons]
  constructor
  · rintro ⟨inBefore | inAfter, positive⟩
    · exact ⟨Or.inl inBefore, positive⟩
    · exact ⟨Or.inr (Or.inr inAfter), positive⟩
  · rintro ⟨inBefore | rfl | inAfter, positive⟩
    · exact ⟨Or.inl inBefore, positive⟩
    · exact absurd rfl (positive enabled pattern)
    · exact ⟨Or.inr inAfter, positive⟩

theorem excluding_move (excludedBefore excludedAfter : List String) (pattern : String)
    (enabled : settings.enable_negative_pattern = true) :
    Excluding settings {listed | listed ∈ before ++ after}
        {listed | listed ∈ excludedBefore ++ pattern :: excludedAfter} =
      Excluding settings {listed | listed ∈ before ++ ("-" ++ pattern) :: after}
        {listed | listed ∈ excludedBefore ++ excludedAfter} := by
  ext listed
  have signed : "-" ++ listed = "-" ++ pattern ↔ listed = pattern :=
    ⟨append_left_cancel, fun same => by rw [same]⟩
  simp only [Excluding, Set.mem_ofPred_eq, mem_append, mem_cons, signed, enabled,
    true_and]
  constructor
  · rintro ((inBefore | rfl | inAfter) | signedBefore | signedAfter)
    · exact Or.inl (Or.inl inBefore)
    · exact Or.inr (Or.inr (Or.inl rfl))
    · exact Or.inl (Or.inr inAfter)
    · exact Or.inr (Or.inl signedBefore)
    · exact Or.inr (Or.inr (Or.inr signedAfter))
  · rintro ((inBefore | inAfter) | signedBefore | rfl | signedAfter)
    · exact Or.inl (Or.inl inBefore)
    · exact Or.inl (Or.inr (Or.inr inAfter))
    · exact Or.inr (Or.inl signedBefore)
    · exact Or.inl (Or.inr (Or.inl rfl))
    · exact Or.inr (Or.inr signedAfter)

end

/-- A filter decides as the rule says of the sets of listed patterns. So lists with the
same patterns decide alike; with negative patterns, `-p` in the include list decides as
`p` in the exclude list; and a filter filled by calls, of which the last one refreshes,
decides as the filter made at once of all patterns. -/
theorem filter_decides (engine : RegexEngine) (settings : FilterSettings)
    (included excluded : List String) (item : String) :
    ((new engine included excluded settings).filter engine item = true ↔
      Passes engine settings {pattern | pattern ∈ included} {pattern | pattern ∈ excluded}
        item) ∧
    (∀ otherIncluded otherExcluded : List String,
      (∀ pattern, pattern ∈ otherIncluded ↔ pattern ∈ included) →
      (∀ pattern, pattern ∈ otherExcluded ↔ pattern ∈ excluded) →
      (new engine otherIncluded otherExcluded settings).filter engine item =
        (new engine included excluded settings).filter engine item) ∧
    (settings.enable_negative_pattern = true →
      ∀ before after excludedBefore excludedAfter pattern,
        included = before ++ ("-" ++ pattern) :: after →
        excluded = excludedBefore ++ excludedAfter →
        (new engine (before ++ after) (excludedBefore ++ pattern :: excludedAfter)
            settings).filter engine item =
          (new engine included excluded settings).filter engine item) ∧
    (∀ (calls : List Call) (last : Call), last.auto_refresh = true →
      ((new engine included excluded settings).run engine (calls ++ [last])).filter engine item =
        (new engine (included ++ (calls ++ [last]).flatMap Call.included)
          (excluded ++ (calls ++ [last]).flatMap Call.excluded) settings).filter engine item) := by
  have decides : ∀ included excluded : List String,
      (new engine included excluded settings).filter engine item = true ↔
        Passes engine settings {pattern | pattern ∈ included} {pattern | pattern ∈ excluded}
          item := by
    intro included excluded
    rw [new_eq_made]
    exact filter_made_iff engine settings included excluded item
  refine ⟨decides included excluded, ?_, ?_, ?_⟩
  · intro otherIncluded otherExcluded sameIncluded sameExcluded
    rw [Bool.eq_iff_iff, decides, decides]
    simp only [sameIncluded, sameExcluded]
  · rintro enabled before after excludedBefore excludedAfter pattern rfl rfl
    have including := including_move settings before after pattern enabled
    have excluding := excluding_move settings before after excludedBefore excludedAfter pattern
      enabled
    rw [Bool.eq_iff_iff, decides, decides]
    unfold Passes Restricts
    rw [including, excluding]
  · intro calls last refreshes
    rw [run_new engine included excluded settings calls last refreshes]

/-- An engine with one expression, `a.`, for the texts of two characters that begin with
`a`; no other expression compiles. -/
def oneRegex : RegexEngine where
  compiles regex := regex == "a."
  matchSpan regex item :=
    if regex == "a." && item.toList.length ≥ 2 && item.toList.head? == some 'a' then some (0, 2)
    else none

/-- A filter for `a.` but not `ab`, and its exclude list filled later. -/
theorem filter_decides_oneRegex :
    (Filter.new oneRegex ["-ab", "r(a.)", "r(b.)"] []
        ⟨true, some true, true, false, none, false⟩).filter oneRegex "ac" = true ∧
      Passes oneRegex ⟨true, some true, true, false, none, false⟩
        {pattern | pattern ∈ ["-ab", "r(a.)", "r(b.)"]} {pattern | pattern ∈ []} "ac" ∧
      (Filter.new oneRegex ["r(a.)", "r(b.)"] ["ab"]
        ⟨true, some true, true, false, none, false⟩).filter oneRegex "ac" = true := by
  obtain ⟨decides, _, moves, _⟩ := filter_decides oneRegex
    ⟨true, some true, true, false, none, false⟩ ["-ab", "r(a.)", "r(b.)"] [] "ac"
  have passes : (Filter.new oneRegex ["-ab", "r(a.)", "r(b.)"] []
      ⟨true, some true, true, false, none, false⟩).filter oneRegex "ac" = true := by decide
  exact ⟨passes, decides.mp passes,
    (moves rfl [] ["r(a.)", "r(b.)"] [] [] "ab" (by decide) rfl).trans passes⟩

end Filter

end Vts.Runner
