import Mathlib.Data.Set.Basic

/-!
# Test filters

The class `Filter` of `utils/python/common/filter_utils.py`. A filter keeps the two lists
of patterns it was given and four lists that `refresh_filter` makes of them: the exact
names and the regular expressions to include and to exclude. A decision reads only these.

`Passes` says what the documentation of the class says, in terms of the sets of listed
patterns; `Vts.Runner.FilterRule` proves that a filter decides so. The engine for regular
expressions is given: which expressions compile, and the part of a text that an expression
matches. The two lists of a filter are different objects, as they are when both are passed
on construction.
-/

namespace Vts.Runner

/-! ## Strings -/

/-- `text.startswith(start)`. -/
def startswith (text start : String) : Bool := start.toList.isPrefixOf text.toList

/-- `text.endswith(ending)`. -/
def endswith (text ending : String) : Bool := ending.toList.isSuffixOf text.toList

/-- `text[count:]`. -/
def dropFirst (text : String) (count : Nat) : String := String.ofList (text.toList.drop count)

/-- `text[:-count]` for a positive count. -/
def dropLast (text : String) (count : Nat) : String :=
  String.ofList (text.toList.take (text.toList.length - count))

/-! ## The source -/

/-- Python's engine for regular expressions: which expressions compile, and the first and
last position of what an expression matches at the start of a text. -/
structure RegexEngine where
  compiles : String → Bool
  matchSpan : String → String → Option (Nat × Nat)

def REGEX_PREFIX : String := "r("

def REGEX_SUFFIX : String := ")"

def REGEX_PREFIX_ESCAPE : String := "\\r("

def NEGATIVE_PATTERN_PREFIX : String := "-"

def SUFFIX_32BIT : String := "32bit"

def SUFFIX_64BIT : String := "64bit"

def DEFAULT_EXCLUDE_OVER_INCLUDE : Bool := false

/-- `list_utils.DeduplicateKeepOrder`. -/
def DeduplicateKeepOrder (input : List String) : List String :=
  input.foldl (fun seen item => if item ∈ seen then seen else seen ++ [item]) []

/-- The items that the loop of `ExpandBitness` appends for one item. -/
def bitnessItems (item : String) : List String :=
  item :: (if !endswith item SUFFIX_32BIT && !endswith item SUFFIX_64BIT then
    [item ++ "_" ++ SUFFIX_32BIT, item ++ "_" ++ SUFFIX_64BIT] else [])

def ExpandBitness (input_list : List String) : List String :=
  DeduplicateKeepOrder (input_list.flatMap bitnessItems)

def IsRegexFilter (item : String) : Bool :=
  startswith item REGEX_PREFIX && endswith item REGEX_SUFFIX

/-- One round of the loop of `SplitFilterList`. -/
def splitFilterItem (engine : RegexEngine) (lists : List String × List String)
    (item : String) : List String × List String :=
  if IsRegexFilter item then
    let regex_item :=
      dropLast (dropFirst item REGEX_PREFIX.toList.length) REGEX_SUFFIX.toList.length
    if engine.compiles regex_item then (lists.1, lists.2 ++ [regex_item]) else lists
  else if startswith item REGEX_PREFIX_ESCAPE && endswith item REGEX_SUFFIX then
    (lists.1 ++ [REGEX_PREFIX ++ dropFirst item REGEX_PREFIX_ESCAPE.toList.length], lists.2)
  else (lists.1 ++ [item], lists.2)

/-- The exact names and the regular expressions of a list of patterns. -/
def SplitFilterList (engine : RegexEngine) (input_list : List String) :
    List String × List String :=
  input_list.foldl (splitFilterItem engine) ([], [])

/-- The positive patterns of a list and the negative ones without their sign. -/
def SplitNegativePattern (input_list : List String) : List String × List String :=
  input_list.foldl (fun lists item =>
    if startswith item NEGATIVE_PATTERN_PREFIX then
      (lists.1, lists.2 ++ [dropFirst item NEGATIVE_PATTERN_PREFIX.toList.length])
    else (lists.1 ++ [item], lists.2)) ([], [])

def InRegexList (engine : RegexEngine) (item : String) (regex_list : List String) : Bool :=
  regex_list.any fun regex => (engine.matchSpan regex item).any fun m =>
    m.1 == 0 && m.2 == item.toList.length

/-- The arguments of the constructor but for the two lists. -/
structure FilterSettings where
  enable_regex : Bool
  exclude_over_include : Option Bool
  enable_negative_pattern : Bool
  enable_module_name_prefix_matching : Bool
  module_name : Option String
  expand_bitness : Bool

/-- `Filter`: its attributes. -/
structure Filter where
  enable_regex : Bool
  expand_bitness : Bool
  enable_negative_pattern : Bool
  include_filter : List String
  exclude_filter : List String
  exclude_over_include : Bool
  enable_module_name_prefix_matching : Bool
  module_name : Option String
  include_filter_exact : List String
  include_filter_regex : List String
  exclude_filter_exact : List String
  exclude_filter_regex : List String
deriving DecidableEq

namespace Filter

/-- `refresh_filter`. Without regular expressions their two lists are left alone. -/
def refresh_filter (engine : RegexEngine) (self : Filter) : Filter :=
  let split := SplitNegativePattern self.include_filter
  let include_filter :=
    if self.enable_negative_pattern then split.1 else self.include_filter
  let exclude_filter :=
    if self.enable_negative_pattern then self.exclude_filter ++ split.2 else self.exclude_filter
  let self :=
    if self.enable_regex then
      { self with
        include_filter_exact := (SplitFilterList engine include_filter).1
        include_filter_regex := (SplitFilterList engine include_filter).2
        exclude_filter_exact := (SplitFilterList engine exclude_filter).1
        exclude_filter_regex := (SplitFilterList engine exclude_filter).2 }
    else
      { self with include_filter_exact := include_filter, exclude_filter_exact := exclude_filter }
  if self.expand_bitness then
    { self with
      include_filter_exact := Vts.Runner.ExpandBitness self.include_filter_exact
      exclude_filter_exact := Vts.Runner.ExpandBitness self.exclude_filter_exact }
  else self

/-- The setter of `include_filter`. -/
def setIncludeFilter (engine : RegexEngine) (self : Filter) (include_filter : List String) :
    Filter :=
  refresh_filter engine { self with include_filter := include_filter }

/-- The setter of `exclude_filter`. -/
def setExcludeFilter (engine : RegexEngine) (self : Filter) (exclude_filter : List String) :
    Filter :=
  refresh_filter engine { self with exclude_filter := exclude_filter }

/-- The object before its two lists are set. The four other lists are those of the class. -/
def unset (settings : FilterSettings) : Filter where
  enable_regex := settings.enable_regex
  expand_bitness := settings.expand_bitness
  enable_negative_pattern := settings.enable_negative_pattern
  include_filter := []
  exclude_filter := []
  exclude_over_include := settings.exclude_over_include.getD DEFAULT_EXCLUDE_OVER_INCLUDE
  enable_module_name_prefix_matching := settings.enable_module_name_prefix_matching
  module_name := settings.module_name
  include_filter_exact := []
  include_filter_regex := []
  exclude_filter_exact := []
  exclude_filter_regex := []

/-- `Filter(include_filter, exclude_filter, ...)`. -/
def new (engine : RegexEngine) (include_filter exclude_filter : List String)
    (settings : FilterSettings) : Filter :=
  setExcludeFilter engine (setIncludeFilter engine (unset settings) include_filter)
    exclude_filter

def IsIncludeFilterEmpty (self : Filter) : Bool :=
  self.include_filter_exact.isEmpty && self.include_filter_regex.isEmpty

/-- `_IsInIncludeFilter`. -/
def isInIncludeFilter (engine : RegexEngine) (self : Filter) (item : String) : Bool :=
  self.include_filter_exact.contains item || InRegexList engine item self.include_filter_regex

/-- `_IsInExcludeFilter`. -/
def isInExcludeFilter (engine : RegexEngine) (self : Filter) (item : String) : Bool :=
  self.exclude_filter_exact.contains item || InRegexList engine item self.exclude_filter_regex

/-- `_ModuleNamePrefixMatchingCheck`. No name and the empty name count as no module. -/
def moduleNamePrefixMatchingCheck (self : Filter) (item : String)
    (check_function : String → Bool) : Bool :=
  let res := check_function item
  if !res && self.enable_module_name_prefix_matching && self.module_name.getD "" != "" then
    check_function (self.module_name.getD "" ++ "." ++ item)
  else res

def IsInIncludeFilter (engine : RegexEngine) (self : Filter) (item : String) : Bool :=
  self.moduleNamePrefixMatchingCheck item (self.isInIncludeFilter engine)

def IsInExcludeFilter (engine : RegexEngine) (self : Filter) (item : String) : Bool :=
  self.moduleNamePrefixMatchingCheck item (self.isInExcludeFilter engine)

/-- The method `Filter`: whether a name passes. -/
def filter (engine : RegexEngine) (self : Filter) (item : String) : Bool :=
  if self.exclude_over_include then
    if self.IsInExcludeFilter engine item then false
    else if !self.IsIncludeFilterEmpty then self.IsInIncludeFilter engine item
    else true
  else if !self.IsIncludeFilterEmpty then self.IsInIncludeFilter engine item
  else !self.IsInExcludeFilter engine item

/-- The argument of the two methods that add patterns: one pattern or a list of them. -/
inductive Patterns where
  | one (pattern : String)
  | many (patterns : List String)

def Patterns.toList : Patterns → List String
  | .one pattern => [pattern]
  | .many patterns => patterns

def add_to_include_filter (engine : RegexEngine) (self : Filter) (pattern : Patterns)
    (auto_refresh : Bool) : Filter :=
  let self := { self with include_filter := self.include_filter ++ pattern.toList }
  if auto_refresh then self.refresh_filter engine else self

def add_to_exclude_filter (engine : RegexEngine) (self : Filter) (pattern : Patterns)
    (auto_refresh : Bool) : Filter :=
  let self := { self with exclude_filter := self.exclude_filter ++ pattern.toList }
  if auto_refresh then self.refresh_filter engine else self

end Filter

/-! ## The documented rule -/

/-- The name that a pattern names exactly, when it is no regular expression. -/
inductive ExactName (settings : FilterSettings) : String → String → Prop where
  | plain {pattern : String} (unwrapped : settings.enable_regex = true →
      (∀ body, pattern ≠ "r(" ++ body ++ ")") ∧ ∀ body, pattern ≠ "\\r(" ++ body ++ ")") :
      ExactName settings pattern pattern
  | escaped (enabled : settings.enable_regex = true) (body : String) :
      ExactName settings ("\\r(" ++ body ++ ")") ("r(" ++ body ++ ")")

/-- The names that a pattern stands for. -/
inductive StandsFor (engine : RegexEngine) (settings : FilterSettings) :
    String → String → Prop where
  | exact {pattern name : String} (named : ExactName settings pattern name) :
      StandsFor engine settings pattern name
  | bitness {pattern name : String} (named : ExactName settings pattern name)
      (expanded : settings.expand_bitness = true)
      (bare : ∀ front, name ≠ front ++ "32bit" ∧ name ≠ front ++ "64bit")
      {bits : String} (known : bits = "32bit" ∨ bits = "64bit") :
      StandsFor engine settings pattern (name ++ "_" ++ bits)
  | regex (enabled : settings.enable_regex = true) {body name : String}
      (compiles : engine.compiles body = true)
      (whole : engine.matchSpan body name = some (0, name.length)) :
      StandsFor engine settings ("r(" ++ body ++ ")") name

/-- An expression that does not compile is ignored. -/
def Ignored (engine : RegexEngine) (settings : FilterSettings) (pattern : String) : Prop :=
  settings.enable_regex = true ∧
    ∃ body, pattern = "r(" ++ body ++ ")" ∧ engine.compiles body = false

/-- The patterns that include names: with negative patterns, those without the sign. -/
def Including (settings : FilterSettings) (included : Set String) : Set String :=
  {pattern | pattern ∈ included ∧
    (settings.enable_negative_pattern = true → ∀ rest, pattern ≠ "-" ++ rest)}

/-- The patterns that exclude names: with negative patterns, also those that the first set
lists with the sign. -/
def Excluding (settings : FilterSettings) (included excluded : Set String) : Set String :=
  {pattern | pattern ∈ excluded ∨
    (settings.enable_negative_pattern = true ∧ "-" ++ pattern ∈ included)}

/-- A name is listed as it is or, with prefix matching, after the name of the module. -/
def Listed (engine : RegexEngine) (settings : FilterSettings) (patterns : Set String)
    (item : String) : Prop :=
  (∃ pattern ∈ patterns, StandsFor engine settings pattern item) ∨
    (settings.enable_module_name_prefix_matching = true ∧
      ∃ module, settings.module_name = some module ∧ module ≠ "" ∧
        ∃ pattern ∈ patterns, StandsFor engine settings pattern (module ++ "." ++ item))

/-- The include filter is not empty. -/
def Restricts (engine : RegexEngine) (settings : FilterSettings) (included : Set String) :
    Prop :=
  ∃ pattern ∈ Including settings included, ¬ Ignored engine settings pattern

/-- The rule of the class: the include filter overrides the exclude filter, which counts
only when the former is empty, unless the exclude filter is to be checked first. -/
def Passes (engine : RegexEngine) (settings : FilterSettings) (included excluded : Set String)
    (item : String) : Prop :=
  if settings.exclude_over_include = some true then
    ¬ Listed engine settings (Excluding settings included excluded) item ∧
      (Restricts engine settings included →
        Listed engine settings (Including settings included) item)
  else
    (Restricts engine settings included →
        Listed engine settings (Including settings included) item) ∧
      (¬ Restricts engine settings included →
        ¬ Listed engine settings (Excluding settings included excluded) item)

end Vts.Runner
