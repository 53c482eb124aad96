import Mathlib.Data.List.Infix
import Vts.Lib.Dictionary
import Vts.Python.Text

/-!
# Settings of binary tests

`BinaryTest.setUpClass` in `testcases/template/binary_test/binary_test.py`: the environment
variables and the arguments that are configured for the tags of test binaries, and what global
coverage adds to the environment. The other settings, the device and the test cases are left out.

A dictionary is a list of tags and values in which a tag occurs once.
-/

namespace Vts.Runner.BinaryTest

open List

open Vts.Lib (store lookup_store)
open Vts.Python (Text)

/-- The bytes of a literal. -/
def bytes (literal : String) : Text := literal.toList.map fun char => UInt8.ofNat char.toNat

def TAG_DELIMITER : Text := bytes "::"

def DEFAULT_TAG_32 : Text := bytes "_32bit"

def DEFAULT_TAG_64 : Text := bytes "_64bit"

/-- The tags whose environment global coverage changes. -/
def defaultTags : List Text := [DEFAULT_TAG_32, DEFAULT_TAG_64]

/-- `coverage_utils.COVERAGE_TEST_ENV`. -/
def COVERAGE_TEST_ENV : Text := bytes "GCOV_PREFIX_OVERRIDE=true GCOV_PREFIX=/data/misc/trace/self"

/-! ## Strings -/

/-- `text.find(piece)`, with `none` for -1. -/
def find (piece : Text) : Text → Option Nat
  | [] => if piece.isEmpty then some 0 else none
  | byte :: rest =>
    if piece.isPrefixOf (byte :: rest) then some 0 else (find piece rest).map (· + 1)

/-- `template.format(*arguments)` where nothing stands between the braces of a field. A missing
argument and any other field give `none`. -/
def format : Text → List Text → Option Text
  | [], _ => some []
  | 123 :: 123 :: rest, arguments => (format rest arguments).map (123 :: ·)
  | 125 :: 125 :: rest, arguments => (format rest arguments).map (125 :: ·)
  | 123 :: 125 :: rest, argument :: arguments => (format rest arguments).map (argument ++ ·)
  | 123 :: _, _ => none
  | 125 :: _, _ => none
  | byte :: rest, arguments => (format rest arguments).map (byte :: ·)

example : format (bytes "\x7b\x7d:\x7b\x7d") [bytes "a", bytes "b"] = some (bytes "a:b") := by decide

/-! ## The source -/

/-- The tag of a token and the text behind it. -/
def splitToken (token : Text) : Text × Text :=
  match find TAG_DELIMITER token with
  | some split => (token.take split, token.drop (split + TAG_DELIMITER.length))
  | none => ([], token)

/-- One round of the loops over `binary_test_envp` and `binary_test_args`. -/
def addToken (entries : List (Text × Text)) (token : Text) : List (Text × Text) :=
  let (tag, path) := splitToken token
  match entries.lookup tag with
  | some given => store tag (given ++ (32 :: path)) entries
  | none => store tag path entries

/-- The values of all tags; without the attribute there are none. -/
def readTokens (tokens : Option (List Text)) : List (Text × Text) :=
  (tokens.getD []).foldl addToken []

/-- `self.args`. -/
def args (binary_test_args : Option (List Text)) : List (Text × Text) := readTokens binary_test_args

/-- One round of the loop over the default tags. -/
def addCoverage (envp : List (Text × Text)) (tag : Text) : Option (List (Text × Text)) :=
  match envp.lookup tag with
  | some given =>
    (format (bytes "%s %s") [given, COVERAGE_TEST_ENV]).map fun value => store tag value envp
  | none => some (store tag COVERAGE_TEST_ENV envp)

/-- `self.coverage`, as far as it is read. -/
structure CoverageFeature where
  enabled : Bool
  global_coverage : Bool
deriving DecidableEq

/-- `self.envp`. -/
def envp (coverage : CoverageFeature) (binary_test_envp : Option (List Text)) :
    Option (List (Text × Text)) :=
  let envp := readTokens binary_test_envp
  if coverage.enabled && coverage.global_coverage then
    [DEFAULT_TAG_32, DEFAULT_TAG_64].foldlM addCoverage envp
  else some envp

/-! ## Tokens and what they set -/

/-- A token as it is meant: a plain value, or a tag and a value. The first delimiter is the one
behind the tag. -/
inductive Token where
  | plain (value : Text) (clean : ¬ TAG_DELIMITER <:+: value)
  | tagged (tag value : Text) (clean : ¬ TAG_DELIMITER <:+: tag ++ [58])

def Token.text : Token → Text
  | .plain value _ => value
  | .tagged tag value _ => tag ++ TAG_DELIMITER ++ value

/-- The tag of a plain value is empty. -/
def Token.tag : Token → Text
  | .plain _ _ => []
  | .tagged tag _ _ => tag

def Token.value : Token → Text
  | .plain value _ => value
  | .tagged _ value _ => value

/-- The values given for a tag, in order. -/
def valuesFor (tag : Text) (tokens : List Token) : List Text :=
  (tokens.filter fun token => token.tag = tag).map Token.value

/-- The values of a tag with a space between them; without a value the tag is not set. -/
def joined (values : List Text) : Option Text :=
  if values = [] then none else some ([32].intercalate values)

/-- What global coverage puts behind the values of a tag. -/
def withCoverage : Option Text → Text
  | some given => given ++ (32 :: COVERAGE_TEST_ENV)
  | none => COVERAGE_TEST_ENV

/-- Every tag is set to its values, the default tags also to the variables of coverage where this
is global. -/
def Accumulates (coverage : CoverageFeature) (tokens : List Token)
    (envp : Option (List (Text × Text))) : Prop :=
  ∃ entries, envp = some entries ∧ ∀ tag, entries.lookup tag =
    if (coverage.enabled ∧ coverage.global_coverage) ∧ tag ∈ defaultTags then
      some (withCoverage (joined (valuesFor tag tokens)))
    else joined (valuesFor tag tokens)

/-! ## Splitting a token -/

theorem find_eq_none {piece text : Text} (solid : piece ≠ []) (absent : ¬ piece <:+: text) :
    find piece text = none := by
  induction text with
  | nil => simp [find, solid]
  | cons byte rest ih =>
    have fresh : ¬ piece <+: byte :: rest := fun starts => absent starts.isInfix
    have later : ¬ piece <:+: rest := fun inside => absent (inside.trans (suffix_cons _ _).isInfix)
    rw [find, if_neg (by simpa using fresh), ih later, Option.map_none]

/-- The delimiter is found behind the tag. -/
theorem find_append {tag : Text} (value : Text) (clean : ¬ TAG_DELIMITER <:+: tag ++ [58]) :
    find TAG_DELIMITER (tag ++ TAG_DELIMITER ++ value) = some tag.length := by
  have delimiter : TAG_DELIMITER = [58, 58] := by decide
  rw [delimiter] at clean ⊢
  induction tag with
  | nil => rfl
  | cons byte tag ih =>
    have fresh : ¬ [58, 58] <+: byte :: (tag ++ [58, 58] ++ value) := by
      rintro ⟨rest, same⟩
      apply clean
      cases tag with
      | nil =>
        obtain ⟨rfl, -⟩ := List.cons.inj same
        exact ⟨[], [], rfl⟩
      | cons second tag =>
        obtain ⟨rfl, tailSame⟩ := List.cons.inj same
        obtain ⟨rfl, -⟩ := List.cons.inj tailSame
        exact ⟨[], tag ++ [58], rfl⟩
    have later : ¬ [58, 58] <:+: tag ++ [58] := fun inside =>
      clean (inside.trans (suffix_cons byte _).isInfix)
    rw [cons_append, cons_append, find, if_neg (by simpa using fresh),
      ih later]
    rfl

theorem splitToken_text (token : Token) : splitToken token.text = (token.tag, token.value) := by
  cases token with
  | plain value clean =>
    have absent : find TAG_DELIMITER value = none := find_eq_none (by decide) clean
    rw [Token.text, splitToken, absent]
    rfl
  | tagged tag value clean =>
    rw [Token.text, splitToken, find_append value clean]
    simp [Token.tag, Token.value, ← drop_drop]

/-- Every text is a token. -/
theorem exists_token (text : Text) : ∃ token : Token, token.text = text := by
  by_cases present : TAG_DELIMITER <:+: text
  · have delimiter : TAG_DELIMITER = [58, 58] := by decide
    have general : ∃ tag value, ¬ [58, 58] <:+: tag ++ [58] ∧ text = tag ++ [58, 58] ++ value := by
      rw [delimiter] at present
      induction text with
      | nil => simp at present
      | cons byte text ih =>
        by_cases starts : [58, 58] <+: byte :: text
        · obtain ⟨value, same⟩ := starts
          exact ⟨[], value, by decide, same.symm⟩
        · have inside : [58, 58] <:+: text := (infix_cons_iff.mp present).resolve_left starts
          obtain ⟨tag, value, clean, rfl⟩ := ih inside
          refine ⟨byte :: tag, value, ?_, rfl⟩
          intro found
          rcases infix_cons_iff.mp found with ⟨rest, same⟩ | later
          · apply starts
            cases tag with
            | nil =>
              obtain ⟨rfl, -⟩ := List.cons.inj same
              exact ⟨58 :: value, rfl⟩
            | cons second tag =>
              obtain ⟨rfl, tailSame⟩ := List.cons.inj same
              obtain ⟨rfl, -⟩ := List.cons.inj tailSame
              exact ⟨tag ++ [58, 58] ++ value, rfl⟩
          · exact clean later
    obtain ⟨tag, value, clean, rfl⟩ := general
    rw [← delimiter] at clean ⊢
    exact ⟨.tagged tag value clean, rfl⟩
  · exact ⟨.plain text present, rfl⟩

/-! ## Accumulation -/

theorem valuesFor_concat (tag : Text) (tokens : List Token) (token : Token) :
    valuesFor tag (tokens ++ [token]) =
      valuesFor tag tokens ++ if token.tag = tag then [token.value] else [] := by
  rw [valuesFor, valuesFor, filter_append, map_append]
  by_cases same : token.tag = tag <;> simp [same]

/-- One more value stands behind a space. -/
theorem joined_concat (values : List Text) (value : Text) :
    joined (values ++ [value]) = some (match joined values with
      | some given => given ++ (32 :: value)
      | none => value) := by
  have behind : ∀ first : Text, ∀ others : List Text,
      [32].intercalate (first :: (others ++ [value])) =
        [32].intercalate (first :: others) ++ (32 :: value) := by
    intro first others
    induction others generalizing first with
    | nil => simp
    | cons second others ih =>
      rw [cons_append, intercalate_cons_cons, intercalate_cons_cons,
        ih, append_assoc, append_assoc, append_assoc]
  rw [joined, if_neg (by simp)]
  cases values with
  | nil => rw [nil_append, intercalate_singleton, joined, if_pos rfl]
  | cons first others =>
    rw [joined, if_neg (by simp), cons_append, behind]

theorem joined_eq_none_iff {values : List Text} : joined values = none ↔ values = [] := by
  rw [joined]
  split <;> simp [*]

/-- What one token does to the dictionary. -/
theorem lookup_addToken (entries : List (Text × Text)) (token : Token) (tag : Text) :
    (addToken entries token.text).lookup tag =
      if token.tag = tag then
        some (match entries.lookup tag with
          | some given => given ++ (32 :: token.value)
          | none => token.value)
      else entries.lookup tag := by
  rw [addToken, splitToken_text]
  dsimp only
  by_cases same : token.tag = tag
  · subst same
    rw [if_pos rfl]
    cases entries.lookup token.tag <;> simp [lookup_store]
  · have differ : (tag == token.tag) = false := by simpa using Ne.symm same
    rw [if_neg same]
    cases entries.lookup token.tag <;> simp [lookup_store, differ]

/-- The values of every tag come together in order. -/
theorem lookup_readTokens (tokens : List Token) (tag : Text) :
    (readTokens (some (tokens.map Token.text))).lookup tag = joined (valuesFor tag tokens) := by
  rw [readTokens, Option.getD_some]
  induction tokens using List.reverseRecOn with
  | nil => rfl
  | append_singleton tokens token ih =>
    rw [map_append, map_singleton, foldl_concat, lookup_addToken,
      ih, valuesFor_concat]
    by_cases same : token.tag = tag
    · rw [if_pos same, if_pos same, joined_concat]
    · rw [if_neg same, if_neg same, append_nil]

/-! ## Coverage -/

/-- A format with percent signs has no fields. -/
theorem format_percent (given : Text) :
    format (bytes "%s %s") [given, COVERAGE_TEST_ENV] = some (bytes "%s %s") := rfl

/-- What coverage makes of the value of a default tag. -/
def coverageValue : Option Text → Text
  | some _ => bytes "%s %s"
  | none => COVERAGE_TEST_ENV

/-- The entries with a new value for one tag. -/
def covered (entries : List (Text × Text)) (tag : Text) : List (Text × Text) :=
  store tag (coverageValue (entries.lookup tag)) entries

theorem addCoverage_eq (entries : List (Text × Text)) (tag : Text) :
    addCoverage entries tag = some (covered entries tag) := by
  rw [addCoverage, covered]
  cases entries.lookup tag with
  | none => rfl
  | some given =>
    dsimp only
    rw [format_percent]
    rfl

/-- With global coverage the two default tags get new values, and only they. -/
theorem envp_global (tokens : List Token) :
    ∃ entries, envp ⟨true, true⟩ (some (tokens.map Token.text)) = some entries ∧
      ∀ tag, entries.lookup tag = if tag ∈ defaultTags then
        some (coverageValue (joined (valuesFor tag tokens)))
      else joined (valuesFor tag tokens) := by
  refine ⟨covered (covered (readTokens (some (tokens.map Token.text))) DEFAULT_TAG_32)
    DEFAULT_TAG_64, ?_, fun tag => ?_⟩
  · rw [envp, if_pos (by rfl), foldlM_cons, addCoverage_eq, Option.bind_eq_bind, Option.bind_some,
      foldlM_cons, addCoverage_eq, Option.bind_eq_bind, Option.bind_some, foldlM_nil]
    rfl
  · have apart : (DEFAULT_TAG_64 == DEFAULT_TAG_32) = false := by decide
    rw [covered, covered, lookup_store, lookup_store, lookup_store, apart, lookup_readTokens,
      lookup_readTokens, lookup_readTokens]
    by_cases second : tag = DEFAULT_TAG_64
    · simp [second, defaultTags]
    · by_cases first : tag = DEFAULT_TAG_32
      · subst first
        simp [second, defaultTags]
      · simp [first, second, defaultTags]

/-- Without global coverage the dictionary is what the tokens say. -/
theorem envp_local {coverage : CoverageFeature} (tokens : List Token)
    (off : ¬ (coverage.enabled ∧ coverage.global_coverage)) :
    envp coverage (some (tokens.map Token.text)) =
      some (readTokens (some (tokens.map Token.text))) := by
  rw [envp, if_neg (by simpa using off)]

/-- The value that coverage makes is the right one only where there was none. -/
theorem coverageValue_eq_iff (given : Option Text) :
    coverageValue given = withCoverage given ↔ given = none := by
  cases given with
  | none => simp [coverageValue, withCoverage]
  | some given =>
    have longer : (given ++ (32 :: COVERAGE_TEST_ENV)).length ≠ (bytes "%s %s").length := by
      have long : COVERAGE_TEST_ENV.length = 59 := by decide
      have short : (bytes "%s %s").length = 5 := by decide
      rw [length_append, length_cons]
      omega
    have different : bytes "%s %s" ≠ given ++ (32 :: COVERAGE_TEST_ENV) := fun same =>
      longer (congrArg List.length same).symm
    simpa [coverageValue, withCoverage] using different

/-- The settings accumulate unless global coverage meets a token with a default tag. -/
theorem envp_accumulates_iff (coverage : CoverageFeature) (tokens : List Token) :
    Accumulates coverage tokens (envp coverage (some (tokens.map Token.text))) ↔
      ¬ ((coverage.enabled ∧ coverage.global_coverage) ∧
        ∃ token ∈ tokens, token.tag ∈ defaultTags) := by
  by_cases on : coverage.enabled ∧ coverage.global_coverage
  · obtain ⟨enabled, global_coverage⟩ := coverage
    obtain ⟨rfl, rfl⟩ : enabled = true ∧ global_coverage = true := on
    obtain ⟨entries, done, lookups⟩ := envp_global tokens
    have unset (tag : Text) : joined (valuesFor tag tokens) = none ↔
        ∀ token ∈ tokens, token.tag ≠ tag := by
      rw [joined_eq_none_iff, valuesFor, map_eq_nil_iff, filter_eq_nil_iff]
      simp
    have right (tag : Text) : (entries.lookup tag = if tag ∈ defaultTags then
          some (withCoverage (joined (valuesFor tag tokens)))
        else joined (valuesFor tag tokens)) ↔
        (tag ∈ defaultTags → ∀ token ∈ tokens, token.tag ≠ tag) := by
      rw [lookups tag]
      by_cases default : tag ∈ defaultTags
      · rw [if_pos default, if_pos default, Option.some.injEq, coverageValue_eq_iff, unset]
        simp [default]
      · simp [default]
    constructor
    · rintro ⟨_, same, accumulated⟩ ⟨-, token, listed, default⟩
      cases done.symm.trans same
      have here := accumulated token.tag
      simp only [and_self, true_and] at here
      exact (right token.tag).mp here default token listed rfl
    · intro none_default
      refine ⟨entries, done, fun tag => ?_⟩
      simp only [and_self, true_and]
      apply (right tag).mpr
      intro default token listed same
      exact none_default ⟨⟨rfl, rfl⟩, token, listed, same ▸ default⟩
  · rw [envp_local tokens on]
    simp only [on, false_and, not_false_eq_true, iff_true]
    refine ⟨_, rfl, fun tag => ?_⟩
    rw [lookup_readTokens, if_neg (fun both => on both.1)]

/-- With global coverage a value that is given for the 32-bit tag is lost. -/
theorem envp_loses_value :
    ¬ ∀ (coverage : CoverageFeature) (tokens : List Token),
      Accumulates coverage tokens (envp coverage (some (tokens.map Token.text))) := by
  intro always
  obtain ⟨entries, done, lookups⟩ :=
    always ⟨true, true⟩ [.tagged DEFAULT_TAG_32 (bytes "A=1") (by decide)]
  have stored : (envp ⟨true, true⟩ (some [bytes "_32bit::A=1"])).bind
      (·.lookup DEFAULT_TAG_32) = some (bytes "%s %s") := by decide
  have looked : entries.lookup DEFAULT_TAG_32 = some (bytes "%s %s") := by
    apply Eq.trans _ stored
    exact (congrArg (Option.bind · (·.lookup DEFAULT_TAG_32)) done).symm
  have kept := (lookups DEFAULT_TAG_32).symm.trans looked
  revert kept
  decide

end Vts.Runner.BinaryTest
