import Vts.Lib.Loops
import Vts.Lib.Replacement

/-!
# Replacing substrings

`ReplaceSubString` of `drivers/hal/common/utils/StringUtil.cpp`. The search goes on as many
characters after the place of a replacement as the pattern has, although the replacement stands
there by then. Lengths are taken to be in the range of an `int`, into which that of the pattern
goes.

Proved here: the loop leaves every string with all occurrences replaced exactly if the replacement
is as long as the pattern, or longer without an end that runs into an occurrence; a string whose
occurrences do not disturb the search is left so in any case.
-/

namespace Vts.Hal

open Lib (Loop.Iteration Loop.run)
open Lib.Replacement List

universe u
variable {α : Type u} [DecidableEq α] {original pattern replacement : List α}

/-- `original.find(from, index)`. -/
def find (original pattern : List α) (index : Nat) : Option Nat :=
  if index ≤ original.length then (firstPlace pattern (original.drop index)).map (index + ·)
  else none

/-- The string and the index at which the search goes on. -/
structure Search (α : Type u) where
  original : List α
  index : Nat
deriving DecidableEq

/-- One iteration of the loop. -/
def Search.iterate (pattern replacement : List α) (search : Search α) :
    Loop.Iteration (Search α) (List α) :=
  match find search.original pattern search.index with
  | none => .left search.original
  | some index =>
    .next
      { original := search.original.take index ++ replacement ++
          search.original.drop (index + pattern.length)
        index := index + pattern.length }

/-- The string that the loop leaves, if it is left within so many iterations. -/
def ReplaceSubString (fuel : Nat) (original pattern replacement : List α) : Option (List α) :=
  Loop.run (Search.iterate pattern replacement) fuel ⟨original, 0⟩

/-! ## The loop rewrites the string in place -/

theorem find_eq_none (nonempty : pattern ≠ []) {index : Nat} :
    find original pattern index = none ↔ firstPlace pattern (original.drop index) = none := by
  unfold find
  split
  · exact Option.map_eq_none_iff
  · rename_i outside
    have past : original.drop index = [] := drop_eq_nil_of_le (by omega)
    rw [past, firstPlace, if_neg nonempty]

theorem find_eq_some {index place : Nat} :
    find original pattern index = some place ↔
      index ≤ original.length ∧
        ∃ further, firstPlace pattern (original.drop index) = some further ∧
          index + further = place := by
  unfold find
  split
  · rename_i within
    simp only [Option.map_eq_some_iff, within, true_and]
  · rename_i outside
    simp only [outside, false_and, reduceCtorEq]

/-- What a step makes of the string: before the new index stands what was written, and behind it
what is read on. -/
theorem split_of_step {index further : Nat} (within : index ≤ original.length)
    (first : firstPlace pattern (original.drop index) = some further) :
    let behind := (original.drop index).drop (further + pattern.length)
    let following := original.take (index + further) ++ replacement ++
      original.drop (index + further + pattern.length)
    following.take (index + further + pattern.length) = original.take index ++
        ((original.drop index).take further ++ (replacement ++ behind).take pattern.length) ∧
      following.drop (index + further + pattern.length) =
        (replacement ++ behind).drop pattern.length := by
  intro behind following
  have inside := (firstPlace_eq_some_iff.mp first).1
  rw [length_drop] at inside
  have behind_eq : original.drop (index + further + pattern.length) = behind := by
    rw [show behind = (original.drop index).drop (further + pattern.length) from rfl,
      drop_drop, Nat.add_assoc]
  have before : original.take (index + further) =
      original.take index ++ (original.drop index).take further := by
    rw [take_add]
  have length : (original.take (index + further)).length = index + further := by
    rw [length_take]
    omega
  have following_eq : following = original.take (index + further) ++ (replacement ++ behind) := by
    rw [show following = original.take (index + further) ++ replacement ++
      original.drop (index + further + pattern.length) from rfl, behind_eq, append_assoc]
  constructor
  · rw [following_eq, take_append, length, Nat.add_sub_cancel_left,
      take_of_length_le (by omega), before, append_assoc]
  · rw [following_eq, drop_append, length, Nat.add_sub_cancel_left,
      drop_eq_nil_of_le (by omega), nil_append]

/-- A run of the loop leaves what stands before the index, and the rest rewritten. -/
theorem exists_run_iff (nonempty : pattern ≠ []) {index : Nat} {left : List α} :
    (∃ fuel, Loop.run (Search.iterate pattern replacement) fuel ⟨original, index⟩ = some left) ↔
      ∃ rest, Rewrites pattern replacement (original.drop index) rest ∧
        left = original.take index ++ rest := by
  constructor
  · rintro ⟨fuel, ran⟩
    induction fuel generalizing original index with
    | zero => cases ran
    | succ fuel ih =>
      rw [Loop.run, Search.iterate] at ran
      cases found : find original pattern index with
      | none =>
        simp only [found] at ran
        cases ran
        exact ⟨_, .done ((find_eq_none nonempty).mp found), (take_append_drop ..).symm⟩
      | some place =>
        simp only [found] at ran
        obtain ⟨within, further, first, rfl⟩ := find_eq_some.mp found
        obtain ⟨rest, rewrites, left_eq⟩ := ih ran
        obtain ⟨written, read⟩ := split_of_step  within first
        rw [read] at rewrites
        refine ⟨_, .next first rfl rewrites, ?_⟩
        rw [left_eq, written, append_assoc, append_assoc]
  · rintro ⟨rest, rewrites, rfl⟩
    generalize text_eq : original.drop index = text at rewrites
    induction rewrites generalizing original index with
    | @done text never =>
      have found := (find_eq_none nonempty).mpr (text_eq ▸ never)
      refine ⟨1, ?_⟩
      rw [Loop.run, Search.iterate, found, ← text_eq, take_append_drop]
    | @next text behind rest further first behind_eq following ih =>
      subst text_eq
      by_cases within : index ≤ original.length
      · have found := find_eq_some.mpr ⟨within, further, first, rfl⟩
        obtain ⟨written, read⟩ := split_of_step  within first
        obtain ⟨fuel, ran⟩ := ih (behind_eq ▸ read)
        refine ⟨fuel + 1, ?_⟩
        rw [Loop.run, Search.iterate]
        simp only [found]
        rw [ran, written, behind_eq, append_assoc, append_assoc]
      · have past : original.drop index = [] := drop_eq_nil_of_le (by omega)
        rw [past, firstPlace, if_neg nonempty] at first
        cases first

/-- Termination with every occurrence of the original string replaced once. -/
def ReplacesAll (original pattern replacement : List α) : Prop :=
  ∃ fuel, ReplaceSubString fuel original pattern replacement =
    some (replaceAll pattern replacement original)

theorem replacesAll_iff (nonempty : pattern ≠ []) :
    ReplacesAll original pattern replacement ↔
      Rewrites pattern replacement original (replaceAll pattern replacement original) := by
  rw [ReplacesAll]
  unfold ReplaceSubString
  rw [exists_run_iff nonempty]
  simp only [drop_zero, take_zero, nil_append, exists_eq_right']

/-- Where the end of the replacement that is read again has the pattern in it, the loop is left only
by strings without an occurrence. -/
theorem ReplaceSubString_endless (nonempty : pattern ≠ []) {place : Nat}
    (behindIt : pattern.length ≤ place) (stands : pattern <+: replacement.drop place)
    (found : (firstPlace pattern original).isSome) (fuel : Nat) :
    ReplaceSubString fuel original pattern replacement = none := by
  cases left : ReplaceSubString fuel original pattern replacement with
  | none => rfl
  | some result =>
    obtain ⟨rest, rewrites, -⟩ := (exists_run_iff nonempty).mp ⟨fuel, left⟩
    exact absurd rewrites (not_rewrites_of_mem stands behindIt rest found)

/-- Every string is left with all its occurrences replaced exactly if the replacement is as long as
the pattern, or longer without an end that runs into an occurrence; a string is so left in any case
where no replaced occurrence disturbs the search. -/
theorem replacesAll_iff_harmless (pattern replacement : List α) (nonempty : pattern ≠ []) :
    ((∀ original, ReplacesAll original pattern replacement) ↔ Harmless pattern replacement) ∧
      ∀ original, InPlace pattern replacement original →
        ReplacesAll original pattern replacement := by
  constructor
  · rw [← rewrites_replaceAll_iff nonempty]
    exact forall_congr' fun original => replacesAll_iff nonempty
  · intro original inPlace
    exact (replacesAll_iff nonempty).mpr (.replaceAll nonempty inPlace)

/-- The dots of a package name for an identifier. -/
theorem replacesAll_dots :
    Harmless ['.'] ['_'] ∧ ∀ original, ReplacesAll original ['.'] ['_'] := by
  have harmless : Harmless ['.'] ['_'] := by decide
  exact ⟨harmless, (replacesAll_iff_harmless ['.'] ['_'] (by decide)).1.mpr harmless⟩

/-- The second of two neighbouring separators is missed, and a replacement with the pattern in it is
found again for ever. -/
theorem not_replacesAll_colons :
    ReplaceSubString 3 "::::".toList "::".toList ['.'] = some ".::".toList ∧
      ¬ ReplacesAll "::::".toList "::".toList ['.'] ∧
      ∀ fuel, ReplaceSubString fuel ['a'] ['a'] "aba".toList = none := by
  refine ⟨by decide, ?_, ?_⟩
  · intro replaces
    have rewrites := (replacesAll_iff (by decide)).mp replaces
    exact not_rewrites_of_shorter (by decide) (by decide) rewrites
  · have behindIt : (['a'] : List Char).length ≤ 2 := by decide
    exact ReplaceSubString_endless (by decide) behindIt (by decide) (by decide)

end Vts.Hal
