import Mathlib.Data.Finite.Prod
import Mathlib.Order.Interval.Finset.Nat

/-!
# A window on a sequence

A buffered reader sees a stretch of a sequence and a place in it. Only the numbers matter for where
it is: `first` and `last` bound the stretch and `here` is the place of the next item. A window that
has been used up is moved on to the next block.
-/

namespace Vts.Lib

structure Window where
  first : Nat
  here : Nat
  last : Nat
  firstLe : first ≤ here
  hereLe : here ≤ last
deriving DecidableEq

namespace Window

/-- The window at a place with nothing in it. -/
def emptyAt (place : Nat) : Window := ⟨place, place, place, Nat.le_refl _, Nat.le_refl _⟩

/-- The window on the next block, or on what is left of the sequence. -/
def refill (block size : Nat) (window : Window) : Window :=
  ⟨window.here, window.here, window.here + min block (size - window.here), Nat.le_refl _,
    Nat.le_add_right _ _⟩

/-- Behind the next item of the window, if there is one. -/
def take (window : Window) : Window :=
  if inside : window.here < window.last then
    ⟨window.first, window.here + 1, window.last, Nat.le_succ_of_le window.firstLe, inside⟩
  else window

/-- The window after an item of a sequence of this size has been asked for. -/
def next (block size : Nat) (window : Window) : Window :=
  if window.here < window.last then window.take else (window.refill block size).take

/-- Another place of the same stretch. -/
def move (window : Window) (distance : Nat) (inside : distance ≤ window.last - window.first) :
    Window where
  first := window.first
  here := window.first + distance
  last := window.last
  firstLe := Nat.le_add_right _ _
  hereLe := by
    have ordered := Nat.le_trans window.firstLe window.hereLe
    omega

@[simp] theorem take_first (window : Window) : window.take.first = window.first := by
  unfold take
  split <;> rfl

@[simp] theorem take_last (window : Window) : window.take.last = window.last := by
  unfold take
  split <;> rfl

theorem take_here (window : Window) :
    window.take.here = if window.here < window.last then window.here + 1 else window.here := by
  unfold take
  split <;> rfl

/-- What the window shows is there. -/
def Within (size : Nat) (window : Window) : Prop := window.first < window.last → window.last ≤ size

theorem within_emptyAt (size place : Nat) : Within size (emptyAt place) :=
  fun shows => absurd shows (Nat.lt_irrefl place)

theorem within_refill (block size : Nat) (window : Window) :
    Within size (window.refill block size) := by
  intro shows
  change window.here + min block (size - window.here) ≤ size
  change window.here < window.here + min block (size - window.here) at shows
  omega

theorem Within.take {size : Nat} {window : Window} (within : Within size window) :
    Within size window.take := by
  rw [Within, take_first, take_last]
  exact within

theorem Within.next {block size : Nat} {window : Window} (within : Within size window) :
    Within size (window.next block size) := by
  unfold Window.next
  split
  · exact within.take
  · exact (within_refill block size window).take

/-- The place moves on unless the sequence ends there. -/
theorem next_here {block size : Nat} {window : Window} (within : Within size window)
    (room : 0 < block) :
    (window.next block size).here = if window.here < size then window.here + 1 else window.here := by
  have ordered := window.firstLe
  unfold Window.next
  split
  · next inside =>
    have bounded := within (by omega)
    rw [take_here, if_pos inside, if_pos (by omega)]
  · rw [take_here]
    change (if window.here < window.here + min block (size - window.here) then _ else _) = _
    by_cases more : window.here < size
    · rw [if_pos more, if_pos (by omega)]
      rfl
    · rw [if_neg more, if_neg (by omega)]
      rfl

/-- No bound of the sequence and of the places is passed. -/
theorem next_last_le {block size bound : Nat} {window : Window} (sizeLe : size ≤ bound)
    (lastLe : window.last ≤ bound) : (window.next block size).last ≤ bound := by
  have ordered := window.hereLe
  unfold Window.next
  split
  · rw [take_last]
    exact lastLe
  · rw [take_last]
    change window.here + min block (size - window.here) ≤ bound
    omega

/-- There are only so many windows up to a bound. -/
theorem finite_last_le (bound : Nat) : Set.Finite {window : Window | window.last ≤ bound} := by
  have numbers : Set.Finite (Set.Iic bound) := Set.finite_Iic bound
  have coordinates : Set.InjOn (fun window : Window => (window.first, window.here, window.last))
      {window | window.last ≤ bound} := by
    rintro ⟨first, here, last, _, _⟩ _ ⟨first', here', last', _, _⟩ _ same
    cases same
    rfl
  apply Set.Finite.of_injOn _ coordinates (numbers.prod (numbers.prod numbers))
  intro window lastLe
  have ordered := window.firstLe
  have bounded := window.hereLe
  have lastBounded : window.last ≤ bound := lastLe
  exact ⟨ordered.trans (bounded.trans lastBounded), bounded.trans lastBounded, lastBounded⟩

end Window

end Vts.Lib
