import Vts.Runner.Appendix

/-!
# Which items survive an expansion

Expanding a filter should leave its expressions alone and turn every name into the names
with an appendix before their bitness; an item that the filter pattern describes is kept.
The code inserts into the item as it is written, which is the same as inserting into the
name that it stands for only while the result is written as a name again.

Proved here: exactly which items an expansion treats as it should. Nothing is said of which
names an expression matches, and lists are compared as sets.
-/

namespace Vts.Runner

open String hiding append_assoc length_append

open List

/-! ## The bitness of a name -/

/-- The bitness that a name ends with and the underscore before it. -/
def bitnessOf (name : String) : String :=
  (["_32bit", "_64bit", "32bit", "64bit"].find? fun ending => endswith name ending).getD ""

/-- The name with an appendix before its bitness. -/
def withAppendix (name appendix : String) : String :=
  dropLast name (bitnessOf name).toList.length ++ appendix ++ bitnessOf name

/-- A name is what stands before its bitness and its bitness. -/
theorem bitnessOf_cases (name : String) :
    (∃ front bits, (bits = "32bit" ∨ bits = "64bit") ∧ name = front ++ ("_" ++ bits) ∧
        bitnessOf name = "_" ++ bits) ∨
      (∃ front bits, (bits = "32bit" ∨ bits = "64bit") ∧ name = front ++ bits ∧
        bitnessOf name = bits ∧ endswith front "_" = false) ∨
      (bitnessOf name = "" ∧ endswith name "32bit" = false ∧ endswith name "64bit" = false) := by
  have noUnderscore : ∀ front bits : String, endswith name ("_" ++ bits) = false →
      name = front ++ bits → endswith front "_" = false := by
    rintro front bits without rfl
    rw [← Bool.not_eq_true] at without ⊢
    intro ends
    obtain ⟨start, rfl⟩ := endswith_iff.mp ends
    exact without (endswith_iff.mpr ⟨start, String.append_assoc⟩)
  unfold bitnessOf
  rw [List.find?_cons, List.find?_cons, List.find?_cons, List.find?_cons]
  cases first : endswith name "_32bit" with
  | true =>
    obtain ⟨front, split⟩ := endswith_iff.mp first
    exact Or.inl ⟨front, "32bit", Or.inl rfl, split, rfl⟩
  | false =>
    cases second : endswith name "_64bit" with
    | true =>
      obtain ⟨front, split⟩ := endswith_iff.mp second
      exact Or.inl ⟨front, "64bit", Or.inr rfl, split, rfl⟩
    | false =>
      cases third : endswith name "32bit" with
      | true =>
        obtain ⟨front, split⟩ := endswith_iff.mp third
        exact Or.inr (Or.inl ⟨front, "32bit", Or.inl rfl, split, rfl,
          noUnderscore front "32bit" first split⟩)
      | false =>
        cases fourth : endswith name "64bit" with
        | true =>
          obtain ⟨front, split⟩ := endswith_iff.mp fourth
          exact Or.inr (Or.inl ⟨front, "64bit", Or.inr rfl, split, rfl,
            noUnderscore front "64bit" second split⟩)
        | false => exact Or.inr (Or.inr ⟨rfl, rfl, rfl⟩)

theorem bitnessOf_split (name : String) : ∃ front, name = front ++ bitnessOf name := by
  rcases bitnessOf_cases name with
    ⟨front, bits, _, split, bitness⟩ | ⟨front, bits, _, split, bitness, _⟩ | ⟨bitness, _⟩
  · exact ⟨front, by rw [bitness]; exact split⟩
  · exact ⟨front, by rw [bitness]; exact split⟩
  · exact ⟨name, by rw [bitness, append_empty]⟩

theorem endswith_self (front ending : String) : endswith (front ++ ending) ending = true :=
  endswith_iff.mpr ⟨front, rfl⟩

/-- The position that the code finds in a name with bitness. -/
theorem appendixPosition_bits (front : String) {bits : String}
    (known : bits = "32bit" ∨ bits = "64bit") :
    appendixPosition (front ++ bits) =
      if endswith front "_" then front.toList.length - 1 else front.toList.length := by
  have ends : (endswith (front ++ bits) SUFFIX_32BIT || endswith (front ++ bits) SUFFIX_64BIT) =
      true := by
    rcases known with rfl | rfl
    · rw [SUFFIX_32BIT, endswith_self, Bool.true_or]
    · rw [SUFFIX_64BIT, endswith_self, Bool.or_true]
  have five : bits.toList.length = SUFFIX_32BIT.toList.length := by
    rcases known with rfl | rfl <;> rfl
  have last : (front ++ bits).toList.getLast? = some 't' := by
    rcases known with rfl | rfl <;> simp [String.toList_append]
  have pos : (front ++ bits).toList.length - SUFFIX_32BIT.toList.length = front.toList.length := by
    rw [String.toList_append, length_append, five, Nat.add_sub_cancel]
  rw [appendixPosition, if_pos ends]
  dsimp only
  rw [pos]
  rcases eq_nil_or_concat' front.toList with empty | ⟨start, char, split⟩
  · have bare : endswith front "_" = false := by
      rw [endswith, empty]
      rfl
    rw [bare, empty, last]
    rfl
  · have before : (front ++ bits).toList[front.toList.length - 1]? = some char := by
      rw [String.toList_append, split]
      simp
    have underscore : endswith front "_" = true ↔ some char = some '_' := by
      rw [endswith, split, isSuffixOf_iff_suffix, Option.some.injEq]
      constructor
      · rintro ⟨rest, same⟩
        exact (singleton_inj.mp (append_inj' same rfl).2).symm
      · rintro rfl
        exact ⟨start, rfl⟩
    have inside : front.toList.length ≠ 0 := by
      rw [split, length_append]
      exact Nat.succ_ne_zero _
    rw [if_neg inside, before]
    by_cases underscored : endswith front "_" = true
    · rw [if_pos underscored, if_pos (underscore.mp underscored)]
    · rw [if_neg underscored, if_neg (fun same => underscored (underscore.mpr same))]

variable {item : String} {pattern : Pattern} (engine : RegexEngine) (body : String)
  (enable_regex : Bool) (rest appendix : String) (appendix_list : List String)

section

variable {ending : String} {engine : RegexEngine}

theorem insertAppendix_split {front : String}
    (position : appendixPosition (front ++ ending) = front.toList.length) :
    insertAppendix (front ++ ending) appendix = front ++ appendix ++ ending := by
  rw [insertAppendix, position, dropFirst_append, String.toList_append, take_left,
    ofList_toList]

theorem withAppendix_split {front ending : String} (appendix : String)
    (bitness : bitnessOf (front ++ ending) = ending) :
    withAppendix (front ++ ending) appendix = front ++ appendix ++ ending := by
  rw [withAppendix, bitness, dropLast_append]

/-- The code inserts an appendix before the bitness of the item as it is written. -/
theorem insertAppendix_eq (item appendix : String) :
    insertAppendix item appendix = withAppendix item appendix := by
  rcases bitnessOf_cases item with
    ⟨front, bits, known, rfl, bitness⟩ | ⟨front, bits, known, rfl, bitness, bare⟩ |
    ⟨bitness, no32bit, no64bit⟩
  · have position : appendixPosition (front ++ ("_" ++ bits)) = front.toList.length := by
      rw [← String.append_assoc, appendixPosition_bits (front ++ "_") known,
        if_pos (endswith_self front "_")]
      simp [String.toList_append]
    rw [insertAppendix_split appendix position, withAppendix_split appendix bitness]
  · have position : appendixPosition (front ++ bits) = front.toList.length := by
      rw [appendixPosition_bits front known, bare]
      rfl
    rw [insertAppendix_split appendix position, withAppendix_split appendix bitness]
  · have position : appendixPosition (item ++ "") = item.toList.length := by
      rw [append_empty, appendixPosition, SUFFIX_32BIT, SUFFIX_64BIT, no32bit, no64bit]
      rfl
    have inserted := insertAppendix_split appendix position
    have spec := @withAppendix_split item "" appendix
      ((congrArg bitnessOf append_empty).trans bitness)
    rw [append_empty] at inserted spec
    rw [inserted, spec]

/-! ## Signs and wrappings around a name -/

theorem endswith_sign (unsigned : ending.toList.head? ≠ some '-') :
    endswith ("-" ++ rest) ending = endswith rest ending := by
  rw [Bool.eq_iff_iff, endswith_iff, endswith_iff]
  constructor
  · rintro ⟨front, same⟩
    have chars : '-' :: rest.toList = front.toList ++ ending.toList := by
      rw [← String.toList_append, ← same, String.toList_append]
      rfl
    cases split : front.toList with
    | nil =>
      rw [split, nil_append] at chars
      exact absurd (by rw [← chars]; rfl) unsigned
    | cons head tail =>
      rw [split, cons_append] at chars
      refine ⟨String.ofList tail, String.toList_inj.mp ?_⟩
      rw [String.toList_append, toList_ofList]
      exact (List.cons.inj chars).2
  · rintro ⟨front, rfl⟩
    exact ⟨"-" ++ front, String.append_assoc.symm⟩

theorem bitnessOf_sign : bitnessOf ("-" ++ rest) = bitnessOf rest := by
  unfold bitnessOf
  simp only [List.find?_cons, List.find?_nil]
  rw [endswith_sign rest (by decide), endswith_sign rest (by decide),
    endswith_sign rest (by decide), endswith_sign rest (by decide)]

/-- An appendix goes before the bitness whether or not the item has a sign. -/
theorem withAppendix_sign :
    withAppendix ("-" ++ rest) appendix = "-" ++ withAppendix rest appendix := by
  obtain ⟨front, split⟩ := bitnessOf_split rest
  have signed : bitnessOf (("-" ++ front) ++ bitnessOf rest) = bitnessOf rest := by
    rw [String.append_assoc, ← split, bitnessOf_sign]
  have expanded := withAppendix_split appendix signed
  have plain := withAppendix_split appendix (split ▸ rfl : bitnessOf (front ++ bitnessOf rest) = _)
  rw [String.append_assoc, ← split] at expanded
  rw [← split] at plain
  rw [expanded, plain, String.append_assoc, String.append_assoc, String.append_assoc]

/-- A closing parenthesis is no bitness. -/
theorem withAppendix_wrapped (front appendix : String) :
    withAppendix (front ++ ")") appendix = front ++ ")" ++ appendix := by
  have apart : ∀ start ending : String, ending.toList.getLast? = some 't' →
      front ++ ")" ≠ start ++ ending := by
    intro start ending last same
    have lasts := congrArg (fun text => text.toList.getLast?) same
    simp only [String.toList_append, List.getLast?_append, last] at lasts
    exact absurd lasts (by simp)
  have bitness : bitnessOf (front ++ ")") = "" := by
    rcases bitnessOf_cases (front ++ ")") with
      ⟨start, bits, rfl | rfl, same, _⟩ | ⟨start, bits, rfl | rfl, same, _⟩ | ⟨bitness, _⟩
    · exact absurd same (apart start _ (by decide))
    · exact absurd same (apart start _ (by decide))
    · exact absurd same (apart start _ (by decide))
    · exact absurd same (apart start _ (by decide))
    · exact bitness
  have expanded := @withAppendix_split (front ++ ")") "" appendix
    ((congrArg bitnessOf String.append_empty).trans bitness)
  rwa [String.append_empty, String.append_empty] at expanded

/-! ## The patterns of an item without sign -/

/-- The form of an escaped name. -/
def isEscaped (item : String) : Bool :=
  startswith item REGEX_PREFIX_ESCAPE && endswith item REGEX_SUFFIX

/-- An expression that does not compile. -/
def Uncompiled (engine : RegexEngine) (item : String) : Prop :=
  ∃ body, item = "r(" ++ body ++ ")" ∧ engine.compiles body = false

theorem mem_patterns_iff :
    pattern ∈ patterns engine true item ↔
      (∃ name ∈ exactPart item, pattern = Pattern.exact name) ∨
        ∃ body, item = "r(" ++ body ++ ")" ∧ engine.compiles body = true ∧
          pattern = Pattern.regex body := by
  rw [patterns, if_pos rfl, splitFilterList_eq]
  simp only [flatMap_singleton, mem_append, mem_map, mem_regexPart_iff, and_assoc,
    eq_comm (b := pattern)]

theorem exactPart_regex : exactPart ("r(" ++ body ++ ")") = [] := by
  rw [exactPart, if_pos (isRegexFilter_iff.mpr ⟨body, rfl⟩)]

theorem exactPart_escaped : exactPart ("\\r(" ++ body ++ ")") = ["r(" ++ body ++ ")"] := by
  have noRegex : ¬ IsRegexFilter ("\\r(" ++ body ++ ")") = true := by
    rw [isRegexFilter_iff]
    rintro ⟨inner, same⟩
    exact escaped_ne_regex body inner same
  rw [exactPart, if_neg noRegex, if_pos (isEscaped_iff.mpr ⟨body, rfl⟩)]
  rw [String.append_assoc, String.append_assoc]
  exact congrArg (fun rest => ["r(" ++ rest]) (dropFirst_append "\\r(" (body ++ ")"))

theorem exactPart_plain (noRegex : IsRegexFilter item = false) (noEscape : isEscaped item = false) :
    exactPart item = [item] := by
  unfold isEscaped at noEscape
  rw [exactPart, noRegex, noEscape]
  rfl

/-- A name that an item names exactly is the item or, unwrapped, an expression. -/
theorem mem_exactPart_cases {name : String} (named : name ∈ exactPart item) :
    (name = item ∧ IsRegexFilter item = false ∧ isEscaped item = false) ∨
      ∃ body, item = "\\r(" ++ body ++ ")" ∧ name = "r(" ++ body ++ ")" := by
  cases regex : IsRegexFilter item with
  | true =>
    rw [exactPart, if_pos regex] at named
    cases named
  | false =>
    cases escaped : isEscaped item with
    | true =>
      obtain ⟨body, rfl⟩ := isEscaped_iff.mp escaped
      rw [exactPart_escaped] at named
      exact Or.inr ⟨body, rfl, mem_singleton.mp named⟩
    | false =>
      rw [exactPart_plain regex escaped] at named
      exact Or.inl ⟨mem_singleton.mp named, rfl, rfl⟩

theorem patterns_eq_nil_iff : patterns engine true item = [] ↔ Uncompiled engine item := by
  rw [eq_nil_iff_forall_not_mem]
  constructor
  · intro none
    cases regex : IsRegexFilter item with
    | true =>
      obtain ⟨body, rfl⟩ := isRegexFilter_iff.mp regex
      refine ⟨body, rfl, ?_⟩
      rw [← Bool.not_eq_true]
      intro compiles
      exact none _ (mem_patterns_iff.mpr (Or.inr ⟨body, rfl, compiles, rfl⟩))
    | false =>
      obtain ⟨name, named⟩ : ∃ name, name ∈ exactPart item := by
        cases escaped : isEscaped item with
        | true =>
          obtain ⟨body, rfl⟩ := isEscaped_iff.mp escaped
          exact ⟨_, by rw [exactPart_escaped]; exact mem_singleton_self _⟩
        | false => exact ⟨item, by rw [exactPart_plain regex escaped]; exact mem_singleton_self _⟩
      exact absurd (mem_patterns_iff.mpr (Or.inl ⟨name, named, rfl⟩)) (none _)
  · rintro ⟨body, rfl, fails⟩ pattern listed
    rcases mem_patterns_iff.mp listed with ⟨name, named, _⟩ | ⟨inner, same, compiles, _⟩
    · rw [exactPart_regex] at named
      cases named
    · rw [append_left_cancel (append_right_cancel same), compiles] at fails
      cases fails

/-! ## What an expansion should do -/

/-- What an expansion should make of a pattern: an expression stays, a name becomes the
names with an appendix before their bitness. -/
def expectedPatterns (appendix_list : List String) : Pattern → List Pattern
  | Pattern.exact name => appendix_list.map fun appendix =>
      Pattern.exact (withAppendix name appendix)
  | Pattern.regex body => [Pattern.regex body]

/-- The same with the sign of the item. -/
def expectedEntries (appendix_list : List String) (entry : Entry) : List Entry :=
  (expectedPatterns appendix_list entry.pattern).map (Entry.mk entry.negative)

/-- The filter pattern describes the item, which is then not to be expanded. -/
def exempt (engine : RegexEngine) (filter_pattern item : String) : Bool :=
  engine.compiles filter_pattern && (engine.matchSpan filter_pattern item).isSome

/-- The expansion of an item means what it should. -/
def LeavesAlone (engine : RegexEngine) (enable_regex signs : Bool) (appendix_list : List String)
    (filter_pattern item : String) : Prop :=
  ∃ expanded, ExpandAppendix engine [item] appendix_list filter_pattern = some expanded ∧
    ∀ entry, entry ∈ expanded.flatMap (entries engine enable_regex signs) ↔
      entry ∈ if exempt engine filter_pattern item then entries engine enable_regex signs item
        else (entries engine enable_regex signs item).flatMap (expectedEntries appendix_list)

/-- The appendices that do not spoil an item without sign. An expression, which is expanded
after its sign, survives only the empty appendix; an escaped name needs the closing
parenthesis at its end, and a plain name must not become an expression or escaped. -/
def Preserved (engine : RegexEngine) (enable_regex : Bool) (appendix_list : List String)
    (item : String) : Prop :=
  enable_regex = true →
    if IsRegexFilter item then
      (¬ Uncompiled engine item → "" ∈ appendix_list) ∧
        ∀ appendix ∈ appendix_list, appendix = "" ∨ Uncompiled engine (item ++ appendix)
    else if isEscaped item then
      ∀ appendix ∈ appendix_list, appendix = "" ∨ endswith appendix ")" = true
    else ∀ appendix ∈ appendix_list, IsRegexFilter (withAppendix item appendix) = false ∧
      isEscaped (withAppendix item appendix) = false

/-- The items that an expansion treats as it should. -/
def Survives (engine : RegexEngine) (enable_regex signs : Bool) (appendix_list : List String)
    (filter_pattern item : String) : Prop :=
  exempt engine filter_pattern item = false →
    if IsRegexFilter item then
      enable_regex = false → "" ∈ appendix_list ∧ ∀ appendix ∈ appendix_list, appendix = ""
    else engine.compiles filter_pattern = true ∧
      if signs && startswith item "-" then
        Preserved engine enable_regex appendix_list (dropFirst item 1)
      else Preserved engine enable_regex appendix_list item ∧
        (signs = true → ∀ appendix ∈ appendix_list,
          startswith (withAppendix item appendix) "-" = false)

/-! ## Items without sign -/

/-- The patterns of the expanded item are those that it should have. -/
def Expands (engine : RegexEngine) (enable_regex : Bool) (appendix_list : List String)
    (item : String) : Prop :=
  ∀ pattern, (∃ appendix ∈ appendix_list,
      pattern ∈ patterns engine enable_regex (withAppendix item appendix)) ↔
    ∃ read ∈ patterns engine enable_regex item, pattern ∈ expectedPatterns appendix_list read

theorem mem_expected_exact {appendix_list : List String} {name : String} :
    pattern ∈ expectedPatterns appendix_list (Pattern.exact name) ↔
      ∃ appendix ∈ appendix_list, pattern = Pattern.exact (withAppendix name appendix) := by
  rw [expectedPatterns, mem_map]
  simp only [eq_comm]

/-- An expression is read as that expression only. -/
theorem mem_patterns_regex {body : String}
    (listed : pattern ∈ patterns engine true ("r(" ++ body ++ ")")) :
    pattern = Pattern.regex body := by
  rcases mem_patterns_iff.mp listed with ⟨name, named, _⟩ | ⟨inner, same, _, rfl⟩
  · rw [exactPart_regex] at named
    cases named
  · rw [append_left_cancel (append_right_cancel same)]

end

/-- An expression expanded like a name survives only the empty appendix. -/
theorem expands_regex_iff (body : String) :
    Expands engine true appendix_list ("r(" ++ body ++ ")") ↔
      (¬ Uncompiled engine ("r(" ++ body ++ ")") → "" ∈ appendix_list) ∧
        ∀ appendix ∈ appendix_list,
          appendix = "" ∨ Uncompiled engine ("r(" ++ body ++ ")" ++ appendix) := by
  have longer : ∀ appendix, Pattern.regex body ∈
      patterns engine true ("r(" ++ body ++ ")" ++ appendix) → appendix = "" := by
    intro appendix listed
    rcases mem_patterns_iff.mp listed with ⟨_, _, same⟩ | ⟨inner, same, _, bodies⟩
    · cases same
    · cases bodies
      exact append_left_cancel (same.trans append_empty.symm)
  have reads : ∀ pattern ∈ patterns engine true ("r(" ++ body ++ ")"),
      pattern = Pattern.regex body := fun _ => mem_patterns_regex
  have expected : ∀ pattern, (∃ read ∈ patterns engine true ("r(" ++ body ++ ")"),
      pattern ∈ expectedPatterns appendix_list read) ↔
        pattern ∈ patterns engine true ("r(" ++ body ++ ")") := by
    intro pattern
    constructor
    · rintro ⟨read, listed, made⟩
      rw [reads read listed, expectedPatterns, mem_singleton] at made
      rwa [made, ← reads read listed]
    · intro listed
      refine ⟨pattern, listed, ?_⟩
      rw [reads pattern listed, expectedPatterns]
      exact mem_singleton_self _
  unfold Expands
  simp only [expected, withAppendix_wrapped]
  constructor
  · intro same
    constructor
    · intro compiled
      rw [← patterns_eq_nil_iff, ← ne_eq] at compiled
      obtain ⟨pattern, listed⟩ := exists_mem_of_ne_nil _ compiled
      obtain ⟨appendix, given, found⟩ := (same pattern).mpr listed
      rw [reads pattern listed] at found
      rwa [longer appendix found] at given
    · intro appendix given
      by_cases compiled : Uncompiled engine ("r(" ++ body ++ ")" ++ appendix)
      · exact Or.inr compiled
      · rw [← patterns_eq_nil_iff, ← ne_eq] at compiled
        obtain ⟨pattern, found⟩ := exists_mem_of_ne_nil _ compiled
        have listed := (same pattern).mp ⟨appendix, given, found⟩
        rw [reads pattern listed] at found
        exact Or.inl (longer appendix found)
  · rintro ⟨kept, each⟩ pattern
    constructor
    · rintro ⟨appendix, given, found⟩
      rcases each appendix given with rfl | uncompiled
      · rwa [append_empty] at found
      · rw [patterns_eq_nil_iff.mpr uncompiled] at found
        cases found
    · intro listed
      refine ⟨"", kept ?_, ?_⟩
      · rw [← patterns_eq_nil_iff]
        exact ne_nil_of_mem listed
      · rwa [append_empty]

theorem wrapped_append (start body ending appendix : String) :
    start ++ body ++ ending ++ appendix = start ++ (body ++ ending ++ appendix) := by
  simp only [String.append_assoc]

theorem escaped_head (name : String) : "\\r(" ++ body ++ ")" ++ rest ≠ "r(" ++ name := by
  intro same
  have heads := congrArg (fun text => text.toList.head?) same
  simp [String.toList_append] at heads

theorem mem_patterns_escaped {engine : RegexEngine} {body : String} :
    pattern ∈ patterns engine true ("\\r(" ++ body ++ ")") ↔
      pattern = Pattern.exact ("r(" ++ body ++ ")") := by
  rw [mem_patterns_iff, exactPart_escaped]
  constructor
  · rintro (⟨name, named, rfl⟩ | ⟨inner, same, _⟩)
    · rw [mem_singleton.mp named]
    · exact absurd same (escaped_ne_regex body inner)
  · rintro rfl
    exact Or.inl ⟨_, mem_singleton_self _, rfl⟩

theorem mem_patterns_plain {engine : RegexEngine} (noRegex : IsRegexFilter item = false)
    (noEscape : isEscaped item = false) :
    pattern ∈ patterns engine true item ↔ pattern = Pattern.exact item := by
  rw [mem_patterns_iff, exactPart_plain noRegex noEscape]
  constructor
  · rintro (⟨name, named, rfl⟩ | ⟨body, rfl, _⟩)
    · rw [mem_singleton.mp named]
    · rw [isRegexFilter_iff.mpr ⟨body, rfl⟩] at noRegex
      cases noRegex
  · rintro rfl
    exact Or.inl ⟨item, mem_singleton_self item, rfl⟩

theorem endswith_append {front ending last : String} (single : last.toList.length = 1)
    (filled : ending ≠ "") (ends : endswith (front ++ ending) last = true) :
    endswith ending last = true := by
  rw [endswith, isSuffixOf_iff_suffix] at *
  rw [String.toList_append] at ends
  obtain ⟨start, same⟩ := ends
  rcases eq_nil_or_concat' ending.toList with empty | ⟨init, final, split⟩
  · exact absurd (String.toList_inj.mp empty) filled
  · rw [split, ← append_assoc] at same
    rw [split, (append_inj' same single).2]
    exact ⟨init, rfl⟩

/-- An escaped name keeps its wrapping only before an appendix that ends like it. -/
theorem expands_escaped_iff (body : String) :
    Expands engine true appendix_list ("\\r(" ++ body ++ ")") ↔
      ∀ appendix ∈ appendix_list, appendix = "" ∨ endswith appendix ")" = true := by
  have rewrapped : ∀ appendix, appendix = "" ∨ endswith appendix ")" = true →
      ∃ inner, body ++ ")" ++ appendix = inner ++ ")" := by
    rintro appendix (rfl | closed)
    · exact ⟨body, String.append_empty⟩
    · obtain ⟨front, rfl⟩ := endswith_iff.mp closed
      exact ⟨body ++ ")" ++ front, String.append_assoc.symm⟩
  have reads : ∀ appendix, appendix = "" ∨ endswith appendix ")" = true → ∀ pattern,
      pattern ∈ patterns engine true ("\\r(" ++ body ++ ")" ++ appendix) ↔
        pattern = Pattern.exact ("r(" ++ body ++ ")" ++ appendix) := by
    intro appendix fits pattern
    obtain ⟨inner, same⟩ := rewrapped appendix fits
    rw [wrapped_append, same, ← String.append_assoc, mem_patterns_escaped, wrapped_append, same,
      ← String.append_assoc]
  unfold Expands
  simp only [mem_patterns_escaped, exists_eq_left, mem_expected_exact, withAppendix_wrapped]
  constructor
  · intro same appendix given
    by_cases fits : appendix = "" ∨ endswith appendix ")" = true
    · exact fits
    · -- Without the wrapping the backslash is part of the name.
      rw [not_or] at fits
      have noRegex : IsRegexFilter ("\\r(" ++ body ++ ")" ++ appendix) = false := by
        rw [← Bool.not_eq_true, isRegexFilter_iff]
        rintro ⟨inner, wrapped⟩
        rw [@String.append_assoc "r(" inner ")"] at wrapped
        exact escaped_head body appendix (inner ++ ")") wrapped
      have noEscape : isEscaped ("\\r(" ++ body ++ ")" ++ appendix) = false := by
        rw [← Bool.not_eq_true, isEscaped, Bool.and_eq_true]
        rintro ⟨_, ends⟩
        rw [REGEX_SUFFIX] at ends
        exact fits.2 (endswith_append rfl fits.1 ends)
      obtain ⟨other, _, named⟩ := (same _).mp
        ⟨appendix, given, (mem_patterns_plain noRegex noEscape).mpr rfl⟩
      rw [Pattern.exact.injEq, wrapped_append "r("] at named
      exact absurd named (escaped_head body appendix _)
  · intro fits pattern
    constructor
    · rintro ⟨appendix, given, found⟩
      exact ⟨appendix, given, (reads appendix (fits appendix given) pattern).mp found⟩
    · rintro ⟨appendix, given, named⟩
      exact ⟨appendix, given, (reads appendix (fits appendix given) pattern).mpr named⟩

theorem not_escaped_of_regex (regex : IsRegexFilter item = true) : isEscaped item = false := by
  rw [← Bool.not_eq_true]
  intro escaped
  obtain ⟨body, rfl⟩ := isRegexFilter_iff.mp regex
  obtain ⟨inner, same⟩ := isEscaped_iff.mp escaped
  exact escaped_ne_regex inner body same.symm

/-- A name among the patterns of an item is the item or its unwrapped form. -/
theorem exact_mem_patterns {engine : RegexEngine} {enable_regex : Bool} {name : String}
    (listed : Pattern.exact name ∈ patterns engine enable_regex item) :
    (name = item ∧ (enable_regex = true → IsRegexFilter item = false ∧ isEscaped item = false)) ∨
      (IsRegexFilter name = true ∧ isEscaped item = true) := by
  cases enable_regex with
  | false =>
    refine Or.inl ⟨Pattern.exact.inj (mem_singleton.mp listed), ?_⟩
    intro enabled
    cases enabled
  | true =>
    rcases mem_patterns_iff.mp listed with ⟨found, named, names⟩ | ⟨_, _, _, names⟩
    · rw [← Pattern.exact.inj names] at named
      rcases mem_exactPart_cases named with ⟨isItem, plain⟩ | ⟨body, wraps, unwrapped⟩
      · exact Or.inl ⟨isItem, fun _ => plain⟩
      · exact Or.inr ⟨isRegexFilter_iff.mpr ⟨body, unwrapped⟩,
          isEscaped_iff.mpr ⟨body, wraps⟩⟩
    · exact absurd names (by simp)

/-- A plain name must stay one. -/
theorem expands_plain_iff (engine : RegexEngine) (appendix_list : List String) {item : String}
    (noRegex : IsRegexFilter item = false) (noEscape : isEscaped item = false) :
    Expands engine true appendix_list item ↔ ∀ appendix ∈ appendix_list,
      IsRegexFilter (withAppendix item appendix) = false ∧
        isEscaped (withAppendix item appendix) = false := by
  unfold Expands
  simp only [mem_patterns_plain noRegex noEscape, exists_eq_left, mem_expected_exact]
  constructor
  · intro same
    -- A name of the expanded item is itself, or the unwrapped form of another one.
    have found : ∀ appendix ∈ appendix_list,
        (IsRegexFilter (withAppendix item appendix) = false ∧
          isEscaped (withAppendix item appendix) = false) ∨
        (IsRegexFilter (withAppendix item appendix) = true ∧
          ∃ other ∈ appendix_list, isEscaped (withAppendix item other) = true) := by
      intro appendix given
      obtain ⟨other, otherGiven, listed⟩ := (same _).mpr ⟨appendix, given, rfl⟩
      rcases exact_mem_patterns listed with ⟨isOther, plain⟩ | ⟨regex, escaped⟩
      · rw [isOther]
        exact Or.inl (plain rfl)
      · exact Or.inr ⟨regex, other, otherGiven, escaped⟩
    have noneEscaped : ∀ appendix ∈ appendix_list,
        isEscaped (withAppendix item appendix) = false := by
      intro appendix given
      rcases found appendix given with ⟨_, escaped⟩ | ⟨regex, _⟩
      · exact escaped
      · exact not_escaped_of_regex regex
    intro appendix given
    rcases found appendix given with plain | ⟨_, other, otherGiven, escaped⟩
    · exact plain
    · rw [noneEscaped other otherGiven] at escaped
      cases escaped
  · intro plain pattern
    constructor
    · rintro ⟨appendix, given, listed⟩
      exact ⟨appendix, given,
        (mem_patterns_plain (plain appendix given).1 (plain appendix given).2).mp listed⟩
    · rintro ⟨appendix, given, rfl⟩
      exact ⟨appendix, given,
        (mem_patterns_plain (plain appendix given).1 (plain appendix given).2).mpr rfl⟩

/-- An item without sign is expanded as it should be exactly when the appendices do not
spoil it. -/
theorem expands_iff (item : String) :
    Expands engine enable_regex appendix_list item ↔
      Preserved engine enable_regex appendix_list item := by
  unfold Preserved
  cases enable_regex with
  | false =>
    unfold Expands
    simp [patterns, mem_expected_exact]
  | true =>
    rw [eq_self, true_implies]
    split_ifs with regex escaped
    · obtain ⟨body, rfl⟩ := isRegexFilter_iff.mp regex
      exact expands_regex_iff engine appendix_list body
    · obtain ⟨body, rfl⟩ := isEscaped_iff.mp escaped
      exact expands_escaped_iff engine appendix_list body
    · exact expands_plain_iff engine appendix_list (Bool.not_eq_true _ ▸ regex)
        (Bool.not_eq_true _ ▸ escaped)

/-! ## Items of the two lists -/

theorem entries_negative :
    entries engine enable_regex true ("-" ++ rest) =
      (patterns engine enable_regex rest).map (Entry.mk true) := by
  rw [entries, Bool.true_and, NEGATIVE_PATTERN_PREFIX, if_pos (startswith_iff.mpr ⟨rest, rfl⟩),
    dropFirst_append]

theorem entries_positive {signs : Bool} (positive : (signs && startswith item "-") = false) :
    entries engine enable_regex signs item =
      (patterns engine enable_regex item).map (Entry.mk false) := by
  rw [entries, NEGATIVE_PATTERN_PREFIX, positive]
  rfl

/-- Where all entries have one sign, expanding them is expanding their patterns. -/
theorem expands_signed_iff (negative : Bool) (appendix_list : List String) (item : String) :
    (∀ entry, entry ∈ appendix_list.flatMap (fun appendix =>
        (patterns engine enable_regex (withAppendix item appendix)).map (Entry.mk negative)) ↔
      entry ∈ ((patterns engine enable_regex item).map (Entry.mk negative)).flatMap
        (expectedEntries appendix_list)) ↔
      Expands engine enable_regex appendix_list item := by
  have left : ∀ entry : Entry, entry ∈ appendix_list.flatMap (fun appendix =>
      (patterns engine enable_regex (withAppendix item appendix)).map (Entry.mk negative)) ↔
        entry.negative = negative ∧ ∃ appendix ∈ appendix_list,
          entry.pattern ∈ patterns engine enable_regex (withAppendix item appendix) := by
    rintro ⟨sign, pattern⟩
    simp only [mem_flatMap, mem_map, Entry.mk.injEq]
    constructor
    · rintro ⟨appendix, given, read, listed, rfl, rfl⟩
      exact ⟨rfl, appendix, given, listed⟩
    · rintro ⟨rfl, appendix, given, listed⟩
      exact ⟨appendix, given, pattern, listed, rfl, rfl⟩
  have right : ∀ entry : Entry, entry ∈ ((patterns engine enable_regex item).map
      (Entry.mk negative)).flatMap (expectedEntries appendix_list) ↔
        entry.negative = negative ∧ ∃ read ∈ patterns engine enable_regex item,
          entry.pattern ∈ expectedPatterns appendix_list read := by
    rintro ⟨sign, pattern⟩
    simp only [mem_flatMap, mem_map, expectedEntries]
    constructor
    · rintro ⟨_, ⟨read, listed, rfl⟩, made, expected, same⟩
      cases same
      exact ⟨rfl, read, listed, expected⟩
    · rintro ⟨rfl, read, listed, expected⟩
      exact ⟨_, ⟨read, listed, rfl⟩, pattern, expected, rfl⟩
  simp only [left, right]
  constructor
  · intro same pattern
    have one := same ⟨negative, pattern⟩
    simpa using one
  · rintro same ⟨sign, pattern⟩
    exact and_congr_right fun _ => same pattern

theorem regex_unsigned (regex : IsRegexFilter item = true) : startswith item "-" = false := by
  rw [← Bool.not_eq_true]
  intro signed
  obtain ⟨body, rfl⟩ := isRegexFilter_iff.mp regex
  obtain ⟨rest, same⟩ := startswith_iff.mp signed
  have heads := congrArg (fun text => text.toList.head?) same
  simp [String.toList_append] at heads

/-- The entries of an expanded item are those that they should be. -/
def Means (engine : RegexEngine) (enable_regex signs : Bool) (appendix_list : List String)
    (item : String) : Prop :=
  ∀ entry, entry ∈ appendix_list.flatMap (fun appendix =>
      entries engine enable_regex signs (withAppendix item appendix)) ↔
    entry ∈ (entries engine enable_regex signs item).flatMap (expectedEntries appendix_list)

/-- An expansion that gives an item a sign loses the name it should have made. -/
theorem unsigned_of_expected (signs : Bool) (appendix_list : List String)
    (noRegex : IsRegexFilter item = false) (positive : (signs && startswith item "-") = false)
    (same : Means engine enable_regex signs appendix_list item) {appendix : String}
    (given : appendix ∈ appendix_list) :
    (signs && startswith (withAppendix item appendix) "-") = false := by
  rw [← Bool.not_eq_true, Bool.and_eq_true]
  rintro ⟨rfl, signed⟩
  obtain ⟨rest, split⟩ := startswith_iff.mp signed
  have listed : Pattern.exact item ∈ patterns engine enable_regex item := by
    cases enable_regex with
    | false => exact mem_singleton_self _
    | true =>
      refine (mem_patterns_plain noRegex ?_).mpr rfl
      rw [← Bool.not_eq_true]
      intro escaped
      obtain ⟨body, rfl⟩ := isEscaped_iff.mp escaped
      rw [withAppendix_wrapped] at split
      have heads := congrArg (fun text => text.toList.head?) split
      simp [String.toList_append] at heads
  have expected : (⟨false, Pattern.exact (withAppendix item appendix)⟩ : Entry) ∈
      (entries engine enable_regex true item).flatMap (expectedEntries appendix_list) := by
    rw [entries_positive engine enable_regex positive]
    exact mem_flatMap.mpr ⟨_, mem_map.mpr ⟨_, listed, rfl⟩,
      mem_map.mpr ⟨_, mem_expected_exact.mpr ⟨appendix, given, rfl⟩, rfl⟩⟩
  obtain ⟨other, _, found⟩ := mem_flatMap.mp ((same _).mpr expected)
  cases otherSign : startswith (withAppendix item other) "-" with
  | true =>
    obtain ⟨otherRest, otherSplit⟩ := startswith_iff.mp otherSign
    rw [otherSplit, entries_negative] at found
    obtain ⟨_, _, made⟩ := mem_map.mp found
    exact absurd (congrArg Entry.negative made) (by simp)
  | false =>
    have unsigned : (true && startswith (withAppendix item other) "-") = false := by
      rw [Bool.true_and, otherSign]
    rw [entries_positive engine enable_regex unsigned] at found
    obtain ⟨pattern, otherListed, made⟩ := mem_map.mp found
    have isName : pattern = Pattern.exact (withAppendix item appendix) :=
      congrArg Entry.pattern made
    rw [isName] at otherListed
    rcases exact_mem_patterns otherListed with ⟨isOther, _⟩ | ⟨regex, _⟩
    · rw [isOther, otherSign] at signed
      cases signed
    · rw [regex_unsigned regex] at signed
      cases signed

/-- Without expressions their form is a name like others, but it is never expanded. -/
theorem kept_name_iff (body : String) :
    (∀ entry, entry ∈ (patterns engine false ("r(" ++ body ++ ")")).map (Entry.mk false) ↔
      entry ∈ ((patterns engine false ("r(" ++ body ++ ")")).map (Entry.mk false)).flatMap
        (expectedEntries appendix_list)) ↔
      "" ∈ appendix_list ∧ ∀ appendix ∈ appendix_list, appendix = "" := by
  have kept : ∀ entry,
      entry ∈ (patterns engine false ("r(" ++ body ++ ")")).map (Entry.mk false) ↔
        entry = ⟨false, Pattern.exact ("r(" ++ body ++ ")")⟩ := by
    intro entry
    exact mem_singleton
  have expected : ∀ entry, entry ∈ ((patterns engine false ("r(" ++ body ++ ")")).map
      (Entry.mk false)).flatMap (expectedEntries appendix_list) ↔ ∃ appendix ∈ appendix_list,
        entry = ⟨false, Pattern.exact ("r(" ++ body ++ ")" ++ appendix)⟩ := by
    intro entry
    have one : (patterns engine false ("r(" ++ body ++ ")")).map (Entry.mk false) =
      [⟨false, Pattern.exact ("r(" ++ body ++ ")")⟩] := rfl
    rw [one, flatMap_singleton, expectedEntries, mem_map]
    simp only [mem_expected_exact, withAppendix_wrapped]
    constructor
    · rintro ⟨_, ⟨appendix, given, rfl⟩, rfl⟩
      exact ⟨appendix, given, rfl⟩
    · rintro ⟨appendix, given, rfl⟩
      exact ⟨_, ⟨appendix, given, rfl⟩, rfl⟩
  have empty : ∀ appendix, (⟨false, Pattern.exact ("r(" ++ body ++ ")")⟩ : Entry) =
      ⟨false, Pattern.exact ("r(" ++ body ++ ")" ++ appendix)⟩ → appendix = "" := by
    intro appendix same
    have names := Pattern.exact.inj (congrArg Entry.pattern same)
    exact append_left_cancel (names.symm.trans append_empty.symm)
  simp only [kept, expected]
  constructor
  · intro same
    obtain ⟨appendix, given, made⟩ := (same _).mp rfl
    have first := empty appendix made
    rw [first] at given
    refine ⟨given, ?_⟩
    intro other otherGiven
    exact empty other ((same _).mpr ⟨other, otherGiven, rfl⟩).symm
  · rintro ⟨given, each⟩ entry
    constructor
    · rintro rfl
      exact ⟨"", given, by rw [append_empty]⟩
    · rintro ⟨appendix, appendixGiven, rfl⟩
      rw [each appendix appendixGiven, append_empty]

theorem means_negative_iff (rest : String) :
    Means engine enable_regex true appendix_list ("-" ++ rest) ↔
      Preserved engine enable_regex appendix_list rest := by
  have inserted : ∀ appendix, entries engine enable_regex true
      (withAppendix ("-" ++ rest) appendix) =
        (patterns engine enable_regex (withAppendix rest appendix)).map (Entry.mk true) := by
    intro appendix
    rw [withAppendix_sign, entries_negative]
  unfold Means
  simp only [inserted, entries_negative]
  rw [expands_signed_iff, expands_iff]

theorem means_positive_iff (signs : Bool) (appendix_list : List String)
    (noRegex : IsRegexFilter item = false) (positive : (signs && startswith item "-") = false) :
    Means engine enable_regex signs appendix_list item ↔
      Preserved engine enable_regex appendix_list item ∧
        (signs = true → ∀ appendix ∈ appendix_list,
          startswith (withAppendix item appendix) "-" = false) := by
  have plain : (∀ appendix ∈ appendix_list,
      (signs && startswith (withAppendix item appendix) "-") = false) →
      (Means engine enable_regex signs appendix_list item ↔
        Preserved engine enable_regex appendix_list item) := by
    intro unsigned
    have read : appendix_list.flatMap (fun appendix =>
        entries engine enable_regex signs (withAppendix item appendix)) =
        appendix_list.flatMap (fun appendix =>
          (patterns engine enable_regex (withAppendix item appendix)).map
            (Entry.mk false)) := by
      refine flatMap_congr ?_
      intro appendix given
      exact entries_positive engine enable_regex (unsigned appendix given)
    rw [Means, read, entries_positive engine enable_regex positive, expands_signed_iff,
      expands_iff]
  constructor
  · intro same
    have unsigned : ∀ appendix ∈ appendix_list,
        (signs && startswith (withAppendix item appendix) "-") = false :=
      fun _ given => unsigned_of_expected engine enable_regex signs appendix_list noRegex
        positive same given
    refine ⟨(plain unsigned).mp same, ?_⟩
    rintro rfl appendix given
    have sign := unsigned appendix given
    rwa [Bool.true_and] at sign
  · rintro ⟨preserved, unsigned⟩
    refine (plain ?_).mpr preserved
    intro appendix given
    cases signs with
    | false => rw [Bool.false_and]
    | true => rw [unsigned rfl appendix given, Bool.and_false]

/-- An item in the form of an expression, which is not expanded. -/
theorem kept_regex_iff (signs : Bool) (appendix_list : List String)
    (regex : IsRegexFilter item = true) :
    (∀ entry, entry ∈ entries engine enable_regex signs item ↔
      entry ∈ (entries engine enable_regex signs item).flatMap
        (expectedEntries appendix_list)) ↔
      (enable_regex = false →
        "" ∈ appendix_list ∧ ∀ appendix ∈ appendix_list, appendix = "") := by
  have positive : (signs && startswith item "-") = false := by
    rw [regex_unsigned regex, Bool.and_false]
  rw [entries_positive engine enable_regex positive]
  obtain ⟨body, rfl⟩ := isRegexFilter_iff.mp regex
  cases enable_regex with
  | true =>
    refine iff_of_true ?_ (by simp)
    have stays : ((patterns engine true ("r(" ++ body ++ ")")).map (Entry.mk false)).flatMap
        (expectedEntries appendix_list) =
          (patterns engine true ("r(" ++ body ++ ")")).map (Entry.mk false) := by
      refine Eq.trans (flatMap_congr ?_) (flatMap_singleton' _)
      intro entry listed
      obtain ⟨pattern, read, rfl⟩ := mem_map.mp listed
      rw [mem_patterns_regex read]
      rfl
    intro entry
    rw [stays]
  | false =>
    rw [eq_self, true_implies]
    exact kept_name_iff engine appendix_list body

section

variable {engine : RegexEngine} {appendix_list : List String} {filter_pattern : String}

theorem expandAppendixItem_exempt (kept : exempt engine filter_pattern item = true) :
    expandAppendixItem engine appendix_list filter_pattern item = some [item] := by
  obtain ⟨compiled, described⟩ := Bool.and_eq_true_iff.mp kept
  rw [expandAppendixItem, compiled, described]
  cases IsRegexFilter item <;> rfl

theorem expandAppendixItem_expanded (regex : IsRegexFilter item = false)
    (compiled : engine.compiles filter_pattern = true)
    (expanded : exempt engine filter_pattern item = false) :
    expandAppendixItem engine appendix_list filter_pattern item =
      some (appendix_list.map (withAppendix item)) := by
  have described : (engine.matchSpan filter_pattern item).isSome = false := by
    rwa [exempt, compiled, Bool.true_and] at expanded
  have inserted : insertAppendix item = withAppendix item := funext (insertAppendix_eq item)
  rw [expandAppendixItem, regex, compiled, described, inserted]
  rfl

end

/-- Exactly the items that survive are expanded as they should be. -/
theorem leavesAlone_iff (engine : RegexEngine) (enable_regex signs : Bool)
    (appendix_list : List String) (filter_pattern item : String) :
    LeavesAlone engine enable_regex signs appendix_list filter_pattern item ↔
      Survives engine enable_regex signs appendix_list filter_pattern item := by
  unfold LeavesAlone Survives
  rw [expandAppendix_singleton]
  cases kept : exempt engine filter_pattern item with
  | true =>
    rw [expandAppendixItem_exempt kept]
    simp
  | false =>
    simp only [true_implies, eq_self, Bool.false_eq_true, if_false]
    cases regex : IsRegexFilter item with
    | true =>
      rw [expandAppendixItem, if_pos regex]
      simp only [Option.some.injEq, exists_eq_left', flatMap_singleton, if_true]
      exact kept_regex_iff engine enable_regex signs appendix_list regex
    | false =>
      simp only [Bool.false_eq_true, if_false]
      cases compiled : engine.compiles filter_pattern with
      | false =>
        rw [expandAppendixItem, regex, compiled]
        simp
      | true =>
        rw [expandAppendixItem_expanded regex compiled kept]
        simp only [Option.some.injEq, exists_eq_left', flatMap_map, true_and]
        cases sign : signs && startswith item "-" with
        | true =>
          obtain ⟨rfl, signed⟩ := Bool.and_eq_true_iff.mp sign
          obtain ⟨rest, rfl⟩ := startswith_iff.mp signed
          have dropped : dropFirst ("-" ++ rest) 1 = rest := dropFirst_append "-" rest
          rw [if_pos rfl, dropped]
          exact means_negative_iff engine enable_regex appendix_list rest
        | false =>
          rw [if_neg Bool.false_ne_true]
          exact means_positive_iff engine enable_regex signs appendix_list regex sign

namespace Filter

/-- The expansion of a filter returns a filter that reads the expanded lists, and in each of
the two lists every item is expanded as it should be. -/
structure ExpandsTo (engine : RegexEngine) (before : Filter) (appendix_list : List String)
    (filter_pattern : String) (result : Filter) : Prop where
  returns : before.ExpandAppendix engine appendix_list filter_pattern = some result
  settings : result.enable_regex = before.enable_regex ∧
    result.enable_negative_pattern = before.enable_negative_pattern
  include_filter : result.include_filter =
    before.include_filter.flatMap (pieces engine appendix_list filter_pattern)
  exclude_filter : result.exclude_filter =
    before.exclude_filter.flatMap (pieces engine appendix_list filter_pattern)
  reads : result.ReadsEntries engine
  included : ∀ item ∈ before.include_filter, LeavesAlone engine before.enable_regex
    before.enable_negative_pattern appendix_list filter_pattern item
  excluded : ∀ item ∈ before.exclude_filter, LeavesAlone engine before.enable_regex false
    appendix_list filter_pattern item

theorem refresh_settings (self : Filter) :
    (self.refresh_filter engine).enable_regex = self.enable_regex ∧
      (self.refresh_filter engine).enable_negative_pattern = self.enable_negative_pattern ∧
      (self.refresh_filter engine).include_filter = self.include_filter ∧
      (self.refresh_filter engine).exclude_filter = self.exclude_filter := by
  unfold refresh_filter
  cases self.enable_regex <;> cases self.expand_bitness <;> simp

/-- An expansion leaves the expressions of a filter alone and expands its names exactly
when every item survives: the sign of an expression does not, nor does the wrapping of an
escaped name without the closing parenthesis after it, nor a name that an appendix turns
into something else. -/
theorem ExpandAppendix_expands_iff (engine : RegexEngine) (self : Filter)
    (appendix_list : List String) (filter_pattern : String) :
    (∃ result, self.ExpandsTo engine appendix_list filter_pattern result) ↔
      (∀ item ∈ self.include_filter, Survives engine self.enable_regex
        self.enable_negative_pattern appendix_list filter_pattern item) ∧
      ∀ item ∈ self.exclude_filter, Survives engine self.enable_regex false appendix_list
        filter_pattern item := by
  simp only [← leavesAlone_iff]
  constructor
  · rintro ⟨result, expands⟩
    exact ⟨expands.included, expands.excluded⟩
  · rintro ⟨included, excluded⟩
    have returned : ∀ item ∈ self.include_filter ++ self.exclude_filter,
        (expandAppendixItem engine appendix_list filter_pattern item).isSome = true := by
      rw [forall_mem_append]
      constructor
      · intro item listed
        obtain ⟨expanded, made, _⟩ := included item listed
        rw [← expandAppendix_singleton, made]
        rfl
      · intro item listed
        obtain ⟨expanded, made, _⟩ := excluded item listed
        rw [← expandAppendix_singleton, made]
        rfl
    refine ⟨_, expandAppendix_eq_some_iff.mpr ⟨returned, rfl⟩, ?_, ?_, ?_, ?_, included,
      excluded⟩
    · exact ⟨(refresh_settings engine _).1, (refresh_settings engine _).2.1⟩
    · exact (refresh_settings engine _).2.2.1
    · exact (refresh_settings engine _).2.2.2
    · exact refresh_entries engine _

/-- A filter that excludes the expression `a.` excludes a name made of it instead. -/
theorem ExpandAppendix_oneRegex :
    (Filter.new oneRegex ["-r(a.)"] [] ⟨true, none, true, false, none, false⟩).filter
        oneRegex "ab" = false ∧
      ((Filter.new oneRegex ["-r(a.)"] [] ⟨true, none, true, false, none, false⟩).ExpandAppendix
        oneRegex ["_default"] "a.").map (fun result =>
          (result.filter oneRegex "ab", result.exclude_filter_exact,
            result.exclude_filter_regex)) = some (true, ["r(a.)_default"], []) ∧
      ¬ ∃ result, (Filter.new oneRegex ["-r(a.)"] []
        ⟨true, none, true, false, none, false⟩).ExpandsTo oneRegex ["_default"] "a." result := by
  refine ⟨by decide, by decide, ?_⟩
  rintro ⟨result, expands⟩
  obtain ⟨expanded, made, same⟩ := expands.included "-r(a.)" (by decide)
  have isExpanded : expanded = ["-r(a.)_default"] :=
    Option.some.inj (made.symm.trans (by decide))
  have kept := (same ⟨true, Pattern.regex "a."⟩).mpr (by decide)
  rw [isExpanded] at kept
  exact absurd kept (by decide)

end Filter

end Vts.Runner
