import Mathlib.Data.List.Basic

/-!
# The latest event of a key

Events for keys happen one after another, and the later event of a key overwrites the
earlier one. What is left is the latest event of each key. The rules take a list of events
apart at its first or its last event and at the latest event of a key.

A key with events of some kind has as many of them as are left exactly when no event of
that kind is followed by another one of its key: `count_eq_latest_iff`.
-/

namespace Vts.Lib

open Option

universe u v
variable {κ : Type u} {ν : Type v} [DecidableEq κ]

/-- The value of the last event of a key. -/
def latest (events : List (κ × ν)) (key : κ) : Option ν :=
  (events.filter fun event => event.1 = key).getLast?.map Prod.snd

section

variable (event : κ × ν) (events : List (κ × ν)) (key : κ)

/-- A first event counts only if no later one has its key. -/
theorem latest_cons :
    latest (event :: events) key =
      (latest events key).or (if event.1 = key then some event.2 else none) := by
  unfold latest
  by_cases same : event.1 = key
  · rw [List.filter_cons_of_pos (by simpa using same), List.getLast?_cons, if_pos same]
    cases (events.filter fun event => event.1 = key).getLast? <;> rfl
  · rw [List.filter_cons_of_neg (by simpa using same), if_neg same, or_none]

theorem latest_append (first second : List (κ × ν)) (key : κ) :
    latest (first ++ second) key = (latest second key).or (latest first key) := by
  unfold latest
  rw [List.filter_append, List.getLast?_append, map_or]

/-- What is left of a key, when its first state is given and each event makes a new one. -/
theorem latest_cons_elim {α : Type*} (first : α) (make : ν → α) :
    (latest (event :: events) key).elim first make =
      (latest events key).elim (if event.1 = key then make event.2 else first) make := by
  rw [latest_cons]
  cases latest events key with
  | some later => rfl
  | none =>
    rw [none_or]
    split_ifs <;> rfl

end

section

variable {events : List (κ × ν)} {key : κ}

theorem latest_eq_none_iff : latest events key = none ↔ ∀ event ∈ events, event.1 ≠ key := by
  unfold latest
  rw [map_eq_none_iff, List.getLast?_eq_none_iff, List.filter_eq_nil_iff]
  simp

theorem latest_of_split {before after : List (κ × ν)} (value : ν)
    (last : ∀ event ∈ after, event.1 ≠ key) :
    latest (before ++ (key, value) :: after) key = some value := by
  rw [latest_append, latest_cons, latest_eq_none_iff.mpr last, if_pos rfl]
  rfl

theorem exists_split_of_latest {value : ν} (found : latest events key = some value) :
    ∃ before after, events = before ++ (key, value) :: after ∧
      ∀ event ∈ after, event.1 ≠ key := by
  induction events with
  | nil => cases found
  | cons event events ih =>
    rw [latest_cons] at found
    cases later : latest events key with
    | some other =>
      rw [later, some_or] at found
      rw [found] at later
      obtain ⟨before, after, split, last⟩ := ih later
      exact ⟨event :: before, after, by rw [split]; rfl, last⟩
    | none =>
      rw [later, none_or] at found
      split_ifs at found with same
      refine ⟨[], events, ?_, latest_eq_none_iff.mp later⟩
      rw [← same, ← Option.some.inj found]
      rfl

end

section

variable (kept : ν → Bool)

/-- The events of a key that are of the kind. -/
def countKept (events : List (κ × ν)) (key : κ) : Nat :=
  events.countP fun event => decide (event.1 = key) && kept event.2

/-- No event of the kind is followed by another event of its key. -/
def Isolated (events : List (κ × ν)) : Prop :=
  ∀ before key value after, events = before ++ (key, value) :: after → kept value = true →
    ∀ event ∈ after, event.1 ≠ key

variable {kept}

theorem countKept_eq_zero {events : List (κ × ν)} {key : κ}
    (absent : ∀ event ∈ events, event.1 = key → kept event.2 = false) :
    countKept kept events key = 0 := by
  refine List.countP_eq_zero.mpr ?_
  intro event listed both
  obtain ⟨same, kind⟩ := Bool.and_eq_true_iff.mp both
  rw [absent event listed (of_decide_eq_true same)] at kind
  cases kind

theorem countKept_split (before after : List (κ × ν)) (key : κ) {value : ν}
    (kind : kept value = true) :
    countKept kept (before ++ (key, value) :: after) key =
      countKept kept before key + (countKept kept after key + 1) := by
  rw [countKept, List.countP_append, List.countP_cons_of_pos (by simpa using kind)]
  rfl

/-- Each key that has events of the kind has as many of them as its latest event counts,
exactly when every event of the kind is the last one of its key. -/
theorem count_eq_latest_iff {events : List (κ × ν)} :
    (∀ key value, (key, value) ∈ events → kept value = true →
      (if (latest events key).any kept then 1 else 0) = countKept kept events key) ↔
      Isolated kept events := by
  constructor
  · rintro counts before key value after rfl kind event listed same
    have counted := counts key value (by simp) kind
    rw [countKept_split before after key kind] at counted
    -- The latest event of the key comes after this one, so one of the kind is too many.
    have later : latest after key ≠ none := by
      intro none
      exact latest_eq_none_iff.mp none event listed same
    obtain ⟨last, found⟩ := ne_none_iff_exists'.mp later
    rw [latest_append, latest_cons, found] at counted
    simp only [some_or, any_some] at counted
    cases lastKind : kept last with
    | false =>
      rw [lastKind] at counted
      simp at counted
    | true =>
      obtain ⟨inner, rest, split, _⟩ := exists_split_of_latest found
      rw [split, countKept_split inner rest key lastKind, lastKind, if_pos rfl] at counted
      omega
  · intro isolated key value listed kind
    obtain ⟨before, after, rfl⟩ := List.append_of_mem listed
    have last := isolated before key value after rfl kind
    have noneAfter : countKept kept after key = 0 :=
      countKept_eq_zero fun event inAfter same => absurd same (last event inAfter)
    have noneBefore : countKept kept before key = 0 := by
      refine countKept_eq_zero ?_
      rintro ⟨other, otherValue⟩ inBefore rfl
      rw [← Bool.not_eq_true]
      intro otherKind
      obtain ⟨start, middle, rfl⟩ := List.append_of_mem inBefore
      exact isolated start other otherValue (middle ++ (other, value) :: after) (by simp) otherKind
        (other, value) (by simp) rfl
    rw [latest_of_split value last, countKept_split before after key kind, noneAfter, noneBefore]
    simp [kind]

end

end Vts.Lib
