import Mathlib.Algebra.Group.Nat.Defs
import Vts.Python.Exceptions

/-!
# The interpreter and the machine it runs on

Two built-in operations end in an exception that depends on the machine. In Python
2 `range` makes a list, so it fails with a `MemoryError` when there is no room for
it and with an `OverflowError` when the number of items is no machine word. A file
cannot be positioned beyond the largest offset that its file system allows, nor at
an offset that is no machine word.
-/

namespace Vts.Python

/-- The number of values of a signed machine word that are not negative. -/
def wordLimit : Nat := 2 ^ 63

/-- The limits of the machine. -/
structure Host where
  /-- The least number of items that `range` cannot list. -/
  rangeLimit : Nat
  /-- The least position that a file cannot be set to. -/
  seekLimit : Nat
  rangeLimit_le : rangeLimit ≤ wordLimit
  seekLimit_le : seekLimit ≤ wordLimit
  /-- There is room for short lists: every 16-bit count can be listed. -/
  rangeLimit_ge : 2 ^ 16 ≤ rangeLimit

namespace Host

variable (host : Host)

/-- The number of items of a `range`, once the list is made. -/
def rangeItems (count : Nat) : Except Exception Nat :=
  if count < host.rangeLimit then .ok count
  else if count < wordLimit then .error .memoryError
  else .error .overflowError

/-- `range(stop)`: the number of its items, which is zero for a negative bound. -/
def range (stop : Int) : Except Exception Nat := host.rangeItems stop.toNat

/-- `range(start, stop, step)` for bounds and a step that are not negative: the
number of its items. -/
def rangeStep (start stop step : Nat) : Except Exception Nat :=
  if step = 0 then .error (.valueError "range() step argument must not be zero")
  else host.rangeItems ((stop - start + step - 1) / step)

/-- `file.seek(position)`. -/
def seek (position : Nat) : Except Exception Unit :=
  if position < host.seekLimit then .ok ()
  else if position < wordLimit then .error .ioError
  else .error .overflowError

variable {host}

theorem rangeItems_of_lt {count : Nat} (room : count < host.rangeLimit) :
    host.rangeItems count = .ok count := if_pos room

theorem range_of_lt {stop : Nat} (room : stop < host.rangeLimit) :
    host.range (stop : Int) = .ok stop := rangeItems_of_lt room

theorem seek_of_lt {position : Nat} (reachable : position < host.seekLimit) :
    host.seek position = .ok () := if_pos reachable

/-- A `range` without room raises something other than the errors of the code. -/
theorem rangeItems_of_le {count : Nat} (full : host.rangeLimit ≤ count) :
    ∃ failure, host.rangeItems count = .error failure ∧
      (failure = .memoryError ∨ failure = .overflowError) := by
  rw [rangeItems, if_neg (by omega)]
  split
  · exact ⟨_, rfl, .inl rfl⟩
  · exact ⟨_, rfl, .inr rfl⟩

/-- Setting a file to a position ends in one of three ways. -/
theorem seek_cases (host : Host) (position : Nat) :
    host.seek position = .ok () ∨ host.seek position = .error .ioError ∨
      (host.seek position = .error .overflowError ∧ wordLimit ≤ position) := by
  rw [seek]
  split
  · exact .inl rfl
  · split
    · exact .inr (.inl rfl)
    next large => exact .inr (.inr ⟨rfl, Nat.le_of_not_lt large⟩)

theorem seek_of_le {position : Nat} (beyond : host.seekLimit ≤ position) :
    ∃ failure, host.seek position = .error failure ∧
      (failure = .ioError ∨ failure = .overflowError) := by
  rw [seek, if_neg (by omega)]
  split
  · exact ⟨_, rfl, .inl rfl⟩
  · exact ⟨_, rfl, .inr rfl⟩

end Host

/-- A machine with room for every list and files of every size. -/
def Host.ideal : Host where
  rangeLimit := wordLimit
  seekLimit := wordLimit
  rangeLimit_le := Nat.le_refl _
  seekLimit_le := Nat.le_refl _
  rangeLimit_ge := by decide

end Vts.Python
