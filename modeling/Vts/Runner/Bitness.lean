import Vts.Runner.FilterRule

/-!
# Names with and without bitness

`ExpandBitness` of `utils/python/common/filter_utils.py` and the method of that name. A name that
has been extended ends with a bitness, so it is not extended again, and what a list repeats adds
nothing to the result.

Proved here: the expansion is a closure, which lists every item at its first occurrence among the
items and their extensions, and a filter is the same however often its names are expanded. An item
that an earlier one is extended to is listed with that one, before items between them.
-/

namespace Vts.Runner

open List

/-- The method `ExpandBitness`. -/
def Filter.ExpandBitness (self : Filter) : Filter :=
  { self with
    include_filter_exact := Vts.Runner.ExpandBitness self.include_filter_exact
    exclude_filter_exact := Vts.Runner.ExpandBitness self.exclude_filter_exact
    expand_bitness := true }

/-! ## Duplicates -/

/-- One round of `DeduplicateKeepOrder`. -/
def keepNew (seen : List String) (item : String) : List String :=
  if item ∈ seen then seen else seen ++ [item]

/-- Two lists add the same to what has been seen. -/
def SameNew (first second : List String) : Prop :=
  ∀ seen, first.foldl keepNew seen = second.foldl keepNew seen

section

variable {seen items first second third : List String} {item : String}

theorem deduplicate_append :
    DeduplicateKeepOrder (first ++ second) = second.foldl keepNew (DeduplicateKeepOrder first) :=
  foldl_append

theorem prefix_keepNew : seen <+: items.foldl keepNew seen := by
  induction items generalizing seen with
  | nil => exact prefix_rfl
  | cons item items ih =>
    refine IsPrefix.trans ?_ ih
    unfold keepNew
    split
    · exact prefix_rfl
    · exact prefix_append _ _

theorem mem_keepNew_of_mem (listed : item ∈ items) : item ∈ items.foldl keepNew seen := by
  induction items generalizing seen with
  | nil => cases listed
  | cons next items ih =>
    rcases mem_cons.mp listed with rfl | later
    · have kept : item ∈ keepNew seen item := by
        unfold keepNew
        split <;> simp [*]
      have further : keepNew seen item <+: items.foldl keepNew (keepNew seen item) :=
        prefix_keepNew
      exact further.subset kept
    · exact ih later

theorem nodup_keepNew (once : seen.Nodup) : (items.foldl keepNew seen).Nodup := by
  induction items generalizing seen with
  | nil => exact once
  | cons item items ih =>
    apply ih
    unfold keepNew
    split
    · exact once
    · next new =>
      refine nodup_append.mpr ⟨once, pairwise_singleton _ item, ?_⟩
      intro old listed other last
      rw [mem_singleton.mp last]
      exact ne_of_mem_of_not_mem listed new

theorem keepNew_of_subset (old : items ⊆ seen) : items.foldl keepNew seen = seen := by
  induction items with
  | nil => rfl
  | cons item items ih =>
    rw [foldl_cons, keepNew, if_pos (old mem_cons_self)]
    exact ih (subset_of_cons_subset old)

theorem SameNew.append (firsts : SameNew first second) (rests : SameNew items third) :
    SameNew (first ++ items) (second ++ third) := by
  intro seen
  rw [foldl_append, foldl_append, firsts, rests]

/-- What is repeated adds nothing. -/
theorem sameNew_append_of_subset (old : items ⊆ first) : SameNew (first ++ items) first := by
  intro seen
  rw [foldl_append]
  exact keepNew_of_subset fun item listed => mem_keepNew_of_mem (old listed)

theorem SameNew.flatMap {f g : String → List String} (same : ∀ item, SameNew (f item) (g item))
    (items : List String) : SameNew (items.flatMap f) (items.flatMap g) := by
  induction items with
  | nil => exact fun _ => rfl
  | cons item items ih =>
    rw [flatMap_cons, flatMap_cons]
    exact (same item).append ih

/-- Nothing is lost if duplicates are removed before what each item stands for is listed. -/
theorem sameNew_flatMap_deduplicate (f : String → List String) (items : List String) :
    SameNew ((DeduplicateKeepOrder items).flatMap f) (items.flatMap f) := by
  have further : ∀ seen,
      SameNew ((items.foldl keepNew seen).flatMap f) ((seen ++ items).flatMap f) := by
    induction items with
    | nil => exact fun seen _ => by rw [append_nil, foldl_nil]
    | cons item items ih =>
      intro seen
      rw [foldl_cons, keepNew]
      split
      · next known =>
        have repeated : SameNew (seen.flatMap f ++ f item) (seen.flatMap f) :=
          sameNew_append_of_subset fun _ listed => mem_flatMap.mpr ⟨item, known, listed⟩
        intro others
        rw [ih seen others, flatMap_append, flatMap_append, flatMap_cons, ← append_assoc]
        exact ((repeated.append fun _ => rfl) others).symm
      · simpa using ih (seen ++ [item])
  exact further []

/-- The first item is there, and the second is not there before it. -/
def Before (items : List String) (first second : String) : Prop :=
  ∃ front rest, items = front ++ first :: rest ∧ second ∉ front

theorem Before.deduplicate {first second : String} (before : Before items first second)
    (differ : second ≠ first) : Before (DeduplicateKeepOrder items) first second := by
  obtain ⟨front, rest, rfl, absent⟩ := before
  have split : front ++ first :: rest = (front ++ [first]) ++ rest := by simp
  obtain ⟨more, same⟩ : DeduplicateKeepOrder (front ++ [first]) <+:
      rest.foldl keepNew (DeduplicateKeepOrder (front ++ [first])) := prefix_keepNew
  have listed : first ∈ DeduplicateKeepOrder (front ++ [first]) := mem_deduplicate_iff.mpr (by simp)
  have missing : second ∉ DeduplicateKeepOrder (front ++ [first]) := by
    rw [mem_deduplicate_iff]
    simp [absent, differ]
  obtain ⟨start, middle, found⟩ := append_of_mem listed
  rw [split, deduplicate_append, ← same, found]
  rw [found] at missing
  exact ⟨start, middle ++ more, by simp, fun early => missing (mem_append_left _ early)⟩

end

/-! ## Bitness -/

/-- A name without bitness and what it is extended to. -/
def ExtendedTo (name item : String) : Prop :=
  (∀ front, name ≠ front ++ "32bit" ∧ name ≠ front ++ "64bit") ∧
    ∃ bits, (bits = "32bit" ∨ bits = "64bit") ∧ item = name ++ "_" ++ bits

/-- An extended name is not extended again. -/
theorem bitnessItems_bitness (name : String) {bits : String}
    (known : bits = SUFFIX_32BIT ∨ bits = SUFFIX_64BIT) :
    bitnessItems (name ++ "_" ++ bits) = [name ++ "_" ++ bits] := by
  have suffixed : endswith (name ++ "_" ++ bits) bits = true := endswith_iff.mpr ⟨_, rfl⟩
  rcases known with rfl | rfl <;> simp [bitnessItems, suffixed]

theorem sameNew_bitnessItems (item : String) :
    SameNew ((bitnessItems item).flatMap bitnessItems) (bitnessItems item) := by
  by_cases bare : (!endswith item SUFFIX_32BIT && !endswith item SUFFIX_64BIT) = true
  · have expanded : bitnessItems item =
        [item, item ++ "_" ++ SUFFIX_32BIT, item ++ "_" ++ SUFFIX_64BIT] := by
      rw [bitnessItems, if_pos bare]
    have twice : (bitnessItems item).flatMap bitnessItems =
        bitnessItems item ++ [item ++ "_" ++ SUFFIX_32BIT, item ++ "_" ++ SUFFIX_64BIT] := by
      conv_lhs => rw [expanded]
      rw [flatMap_cons, flatMap_cons, flatMap_singleton, bitnessItems_bitness _ (.inl rfl),
        bitnessItems_bitness _ (.inr rfl)]
      rfl
    rw [twice]
    apply sameNew_append_of_subset
    simp [expanded]
  · have kept : bitnessItems item = [item] := by rw [bitnessItems, if_neg bare]
    intro seen
    simp [kept]

theorem expandBitness_expandBitness (input_list : List String) :
    ExpandBitness (ExpandBitness input_list) = ExpandBitness input_list := by
  have first := sameNew_flatMap_deduplicate bitnessItems (input_list.flatMap bitnessItems) []
  have second := SameNew.flatMap sameNew_bitnessItems input_list []
  rw [← flatMap_assoc] at second
  exact first.trans second

/-- What the expansion of a list is. -/
structure BitnessClosure (input output : List String) : Prop where
  again : ExpandBitness output = output
  once : output.Nodup
  mem : ∀ item, item ∈ output ↔ item ∈ input ∨ ∃ name ∈ input, ExtendedTo name item
  order : ∀ first ∈ input, ∀ second ∈ input, second ≠ first →
    (∃ front rest, input = front ++ first :: rest ∧ second ∉ front ∧
      ∀ name ∈ front, ¬ ExtendedTo name second) → Before output first second

theorem bitnessClosure_expandBitness (input : List String) : BitnessClosure input (ExpandBitness input) where
  again := expandBitness_expandBitness input
  once := nodup_keepNew nodup_nil
  mem _ := mem_expandBitness_iff
  order := by
    rintro first - second - differ ⟨front, rest, rfl, absent, apart⟩
    have missing : second ∉ front.flatMap bitnessItems := by
      intro listed
      obtain ⟨name, early, stands⟩ := mem_flatMap.mp listed
      rcases mem_bitnessItems_iff.mp stands with rfl | extended
      · exact absent early
      · exact apart name early extended
    apply Before.deduplicate ⟨_, _, ?_, missing⟩ differ
    · exact (bitnessItems first).tail ++ rest.flatMap bitnessItems
    · rw [flatMap_append, flatMap_cons]
      rfl

theorem Filter.ExpandBitness_ExpandBitness (self : Filter) :
    self.ExpandBitness.ExpandBitness = self.ExpandBitness := by
  simp [Filter.ExpandBitness, expandBitness_expandBitness]

theorem Filter.refresh_ExpandBitness (engine : RegexEngine) (self : Filter) :
    self.ExpandBitness.refresh_filter engine =
      { self with expand_bitness := true }.refresh_filter engine := by
  cases regex : self.enable_regex <;> simp [Filter.ExpandBitness, refresh_filter, regex]

theorem Filter.ExpandBitness_refresh (engine : RegexEngine) (self : Filter) :
    (self.refresh_filter engine).ExpandBitness =
      { self with expand_bitness := true }.refresh_filter engine := by
  cases regex : self.enable_regex <;> cases expanded : self.expand_bitness <;>
    simp [Filter.ExpandBitness, refresh_filter, regex, expanded, expandBitness_expandBitness]

theorem Filter.iterate_ExpandBitness (self : Filter) (calls : Nat) :
    Filter.ExpandBitness^[calls + 1] self = self.ExpandBitness := by
  rw [Function.iterate_succ_apply]
  exact Function.iterate_fixed self.ExpandBitness_ExpandBitness calls

/-- However often the names are expanded, before and after a refresh that expands them, the filter
is the same. -/
theorem expandBitness_closed :
    (∀ input, BitnessClosure input (ExpandBitness input)) ∧
    ∀ (engine : RegexEngine) (self : Filter) (calls more : Nat),
      let refreshed := { self with expand_bitness := true }.refresh_filter engine
      Filter.ExpandBitness^[calls + 1] self = self.ExpandBitness ∧
        Filter.ExpandBitness^[more] ((Filter.ExpandBitness^[calls + 1] self).refresh_filter engine) =
          refreshed ∧
        Filter.ExpandBitness^[more] ((Filter.ExpandBitness^[calls]
          { self with expand_bitness := true }).refresh_filter engine) = refreshed ∧
        Filter.ExpandBitness^[more + 1] (self.refresh_filter engine) = refreshed := by
  refine ⟨bitnessClosure_expandBitness, fun engine self calls more => ?_⟩
  intro refreshed
  have fixed : refreshed.ExpandBitness = refreshed := Filter.ExpandBitness_refresh engine _
  have kept := Function.iterate_fixed fixed more
  refine ⟨self.iterate_ExpandBitness calls, ?_, ?_, ?_⟩
  · rw [self.iterate_ExpandBitness, Filter.refresh_ExpandBitness]
    exact kept
  · cases calls with
    | zero => exact kept
    | succ calls =>
      rw [Filter.iterate_ExpandBitness, Filter.refresh_ExpandBitness]
      exact kept
  · rw [Function.iterate_succ_apply, Filter.ExpandBitness_refresh]
    exact kept

/-- The first name is extended to the third, which is listed before the second. -/
theorem not_before_expandBitness :
    Before ["a", "a_64bit", "a_32bit"] "a_64bit" "a_32bit" ∧
      ¬ Before (ExpandBitness ["a", "a_64bit", "a_32bit"]) "a_64bit" "a_32bit" := by
  refine ⟨⟨["a"], ["a_32bit"], rfl, by decide⟩, ?_⟩
  have expanded : ExpandBitness ["a", "a_64bit", "a_32bit"] = ["a", "a_32bit", "a_64bit"] := by
    decide
  rw [expanded]
  rintro ⟨front, rest, split, absent⟩
  rcases front with _ | ⟨first, _ | ⟨second, front⟩⟩
  · simp at split
  · simp at split
  · simp_all

end Vts.Runner
