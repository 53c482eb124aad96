import Mathlib.Order.Lattice

/-!
# Bisection of a sorted list

The search of the standard library that finds the place after all items that are not
greater than a value. In a sorted list the item before that place is the last one whose
key is at most the value.

The second part is about half-open ranges that are sorted by where they begin. A search
that looks at that one item finds a range around a value if the ranges are disjoint and
none is empty, and for ranges in general exactly if no range reaches beyond the end of a
later one and past it into a gap.
-/

namespace Vts.Lib.Bisect

universe u v

variable {α : Type u} {β : Type v} [LinearOrder β] (key : α → β)

/-- The loop of `bisect.bisect`, with the bounds between which the place is. -/
def search (items : List α) (x : β) (lo hi : Nat) : Nat :=
  if lo < hi then
    match items[(lo + hi) / 2]? with
    | none => lo
    | some item =>
      if x < key item then search items x lo ((lo + hi) / 2)
      else search items x ((lo + hi) / 2 + 1) hi
  else lo
termination_by hi - lo

/-- `bisect.bisect`. -/
def bisect (items : List α) (x : β) : Nat := search key items x 0 items.length

/-- An item, with its position, that is the last one whose key is at most a value. -/
structure LastAtMost (items : List α) (x : β) (index : Nat) (item : α) : Prop where
  listed : items[index]? = some item
  atMost : key item ≤ x
  last : ∀ {later other}, index < later → items[later]? = some other → x < key other

variable {key} {items : List α} {x : β}

theorem le_of_sorted (sorted : items.Pairwise fun first second => key first ≤ key second)
    {i j : Nat} {first second : α} (before : i ≤ j) (left : items[i]? = some first)
    (right : items[j]? = some second) : key first ≤ key second := by
  obtain ⟨bound, rfl⟩ := List.getElem?_eq_some_iff.mp left
  obtain ⟨limit, rfl⟩ := List.getElem?_eq_some_iff.mp right
  rcases Nat.lt_or_eq_of_le before with less | rfl
  · exact List.pairwise_iff_getElem.mp sorted i j bound limit less
  · exact le_refl _

/-- The loop keeps what it knows of the items outside of its bounds. -/
theorem search_spec (sorted : items.Pairwise fun first second => key first ≤ key second)
    {lo hi : Nat} (ordered : lo ≤ hi) (inside : hi ≤ items.length)
    (below : ∀ {index item}, index < lo → items[index]? = some item → key item ≤ x)
    (above : ∀ {index item}, hi ≤ index → items[index]? = some item → x < key item) :
    search key items x lo hi ≤ items.length ∧
      ∀ {index item}, items[index]? = some item →
        (index < search key items x lo hi ↔ key item ≤ x) := by
  induction lo, hi using search.induct key items x with
  | case1 lo hi less missing =>
    have bound := List.getElem?_eq_none_iff.mp missing
    omega
  | case2 lo hi less middle found smaller ih =>
    rw [search, if_pos less]
    simp only [found, if_pos smaller]
    refine ih (by omega) (by omega) below ?_
    intro index item after listed
    exact lt_of_lt_of_le smaller (le_of_sorted sorted after found listed)
  | case3 lo hi less middle found larger ih =>
    rw [search, if_pos less]
    simp only [found, if_neg larger]
    refine ih (by omega) inside ?_ above
    intro index item before listed
    exact le_trans (le_of_sorted sorted (by omega) listed found) (not_lt.mp larger)
  | case4 lo hi met =>
    rw [search, if_neg met]
    refine ⟨by omega, ?_⟩
    intro index item listed
    refine ⟨fun before => below before listed, fun atMost => ?_⟩
    by_contra after
    exact absurd (above (by omega) listed) (not_lt.mpr atMost)

section

variable {others : List α} (same : items.map key = others.map key) (x : β)
include same

/-- The search reads nothing but the keys. -/
theorem search_congr (lo hi : Nat) : search key items x lo hi = search key others x lo hi := by
  have keys (index : Nat) : (items[index]?).map key = (others[index]?).map key := by
    rw [← List.getElem?_map, same, List.getElem?_map]
  induction lo, hi using search.induct key items x with
  | case1 lo hi less missing =>
    have found := keys ((lo + hi) / 2)
    rw [missing] at found
    rw [search.eq_def key items, search.eq_def key others, if_pos less, if_pos less,
      missing, Option.map_eq_none_iff.mp found.symm]
  | case2 lo hi less middle listed smaller ih =>
    have found := keys ((lo + hi) / 2)
    rw [listed] at found
    obtain ⟨other, otherListed, otherKey⟩ := Option.map_eq_some_iff.mp found.symm
    rw [search.eq_def key items, search.eq_def key others, if_pos less, if_pos less,
      listed, otherListed]
    simp only [otherKey, if_pos smaller]
    exact ih
  | case3 lo hi less middle listed larger ih =>
    have found := keys ((lo + hi) / 2)
    rw [listed] at found
    obtain ⟨other, otherListed, otherKey⟩ := Option.map_eq_some_iff.mp found.symm
    rw [search.eq_def key items, search.eq_def key others, if_pos less, if_pos less,
      listed, otherListed]
    simp only [otherKey, if_neg larger]
    exact ih
  | case4 lo hi met =>
    rw [search.eq_def key items, search.eq_def key others, if_neg met, if_neg met]

theorem bisect_congr : bisect key items x = bisect key others x := by
  have lengths : items.length = others.length := by
    rw [← List.length_map key, same, List.length_map]
  rw [bisect, bisect, lengths]
  exact search_congr same x 0 _

end

section

variable (sorted : items.Pairwise fun first second => key first ≤ key second)
include sorted

theorem bisect_spec (x : β) :
    bisect key items x ≤ items.length ∧
      ∀ {index item}, items[index]? = some item →
        (index < bisect key items x ↔ key item ≤ x) := by
  refine search_spec sorted (Nat.zero_le _) (Nat.le_refl _) ?_ ?_
  · intro index item before
    omega
  · intro index item after listed
    obtain ⟨bound, _⟩ := List.getElem?_eq_some_iff.mp listed
    omega

/-- The item before the place that is found is the last one that is not greater. -/
theorem lastAtMost_iff {index : Nat} {item : α} :
    LastAtMost key items x index item ↔
      bisect key items x = index + 1 ∧ items[index]? = some item := by
  obtain ⟨inside, place⟩ := bisect_spec sorted x
  constructor
  · intro found
    have before := (place found.listed).mpr found.atMost
    refine ⟨?_, found.listed⟩
    by_contra further
    have next : index + 1 < items.length := by omega
    have listed := List.getElem?_eq_getElem next
    have after := (place listed).mp (by omega)
    exact absurd (found.last (Nat.lt_succ_self _) listed) (not_lt.mpr after)
  · rintro ⟨found, listed⟩
    refine ⟨listed, (place listed).mp (by omega), ?_⟩
    intro later other after otherListed
    have beyond := (place otherListed).not.mp (by omega)
    exact not_le.mp beyond

/-- There is such an item when any item is not greater, and it does not stand before that
one. -/
theorem exists_lastAtMost {index : Nat} {item : α} (listed : items[index]? = some item)
    (atMost : key item ≤ x) : ∃ last found, index ≤ last ∧ LastAtMost key items x last found := by
  obtain ⟨inside, place⟩ := bisect_spec sorted x
  have before := (place listed).mpr atMost
  have bound : bisect key items x - 1 < items.length := by omega
  refine ⟨_, _, ?_, (lastAtMost_iff sorted).mpr ⟨?_, List.getElem?_eq_getElem bound⟩⟩ <;> omega

end

/-! ## Ranges -/

section Ranges

variable (start stop : α → β)

/-- A value of a half-open range. -/
def Contains (item : α) (x : β) : Prop := start item ≤ x ∧ x < stop item

instance (item : α) (x : β) : Decidable (Contains start stop item x) := instDecidableAnd

/-- No range ends after the end of a later one, unless the one behind that begins before
there is a gap. -/
def NoneHidden (items : List α) : Prop :=
  ∀ {i j first second}, i < j → items[i]? = some first → items[j]? = some second →
    stop first ≤ stop second ∨ ∃ next, items[j + 1]? = some next ∧ start next ≤ stop second

variable {start stop}

section

variable (sorted : items.Pairwise fun first second => start first ≤ start second)
include sorted

/-- Among disjoint ranges that are not empty, the one around a value is the last that does
not begin after it. -/
theorem lastAtMost_of_disjoint (nonempty : ∀ item ∈ items, start item < stop item)
    (disjoint : items.Pairwise fun first second =>
      ∀ x, ¬(Contains start stop first x ∧ Contains start stop second x)) {index : Nat} {item : α}
    (listed : items[index]? = some item) (around : Contains start stop item x) :
    LastAtMost start items x index item := by
  refine ⟨listed, around.1, ?_⟩
  intro later other after otherListed
  by_contra begun
  obtain ⟨bound, rfl⟩ := List.getElem?_eq_some_iff.mp listed
  obtain ⟨limit, rfl⟩ := List.getElem?_eq_some_iff.mp otherListed
  -- the later range would begin inside of the earlier one
  refine List.pairwise_iff_getElem.mp disjoint index later bound limit after (start items[later])
    ⟨⟨?_, ?_⟩, le_refl _, nonempty _ (List.getElem_mem limit)⟩
  · exact List.pairwise_iff_getElem.mp sorted index later bound limit after
  · exact lt_of_le_of_lt (not_lt.mp begun) around.2

/-- Looking at one range is enough exactly if none is hidden. -/
theorem finds_every_iff (forward : ∀ item ∈ items, start item ≤ stop item) :
    (∀ x, (∃ item ∈ items, Contains start stop item x) →
      ∃ index item, LastAtMost start items x index item ∧ Contains start stop item x) ↔
      NoneHidden start stop items := by
  constructor
  · intro finds i j first second before left right
    by_contra hidden
    obtain ⟨reaches, gap⟩ := not_or.mp hidden
    have secondForward := forward second (List.mem_of_getElem? right)
    have around : Contains start stop first (stop second) :=
      ⟨le_trans (le_of_sorted sorted (Nat.le_of_lt before) left right) secondForward,
        not_le.mp reaches⟩
    obtain ⟨index, item, found, inItem⟩ := finds _ ⟨first, List.mem_of_getElem? left, around⟩
    have notBefore : j ≤ index := by
      by_contra earlier
      exact absurd (found.last (by omega) right) (not_lt.mpr secondForward)
    rcases Nat.lt_or_eq_of_le notBefore with later | rfl
    · obtain ⟨bound, _⟩ := List.getElem?_eq_some_iff.mp found.listed
      have next : j + 1 < items.length := by omega
      refine gap ⟨items[j + 1], List.getElem?_eq_getElem next, ?_⟩
      exact le_trans (le_of_sorted sorted later (List.getElem?_eq_getElem next) found.listed)
        found.atMost
    · obtain rfl : second = item := Option.some.inj (right.symm.trans found.listed)
      exact lt_irrefl _ inItem.2
  · rintro none x ⟨item, member, around⟩
    obtain ⟨i, listed⟩ := List.mem_iff_getElem?.mp member
    obtain ⟨j, last, notBefore, found⟩ := exists_lastAtMost sorted listed around.1
    refine ⟨j, last, found, found.atMost, ?_⟩
    rcases Nat.lt_or_eq_of_le notBefore with before | rfl
    · rcases none before listed found.listed with shorter | ⟨next, nextListed, begins⟩
      · exact lt_of_lt_of_le around.2 shorter
      · exact lt_of_lt_of_le (found.last (Nat.lt_succ_self _) nextListed) begins
    · obtain rfl : item = last := Option.some.inj (listed.symm.trans found.listed)
      exact around.2

end

end Ranges

end Vts.Lib.Bisect
