/-!
# Bounded queues

A queue with room for a number of items. The first item is read first, and an item that finds no
room is not written. Reading an item and writing it back turns the queue by one; after as many turns
as there are items the queue is as it was.
-/

namespace Vts.Lib

open List

universe u

@[ext] structure BoundedQueue (α : Type u) where
  capacity : Nat
  items : List α
  fits : items.length ≤ capacity

namespace BoundedQueue

variable {α : Type u}

/-- The first item, and the queue without it. -/
def read (queue : BoundedQueue α) : Option (α × BoundedQueue α) :=
  match queue with
  | ⟨_, [], _⟩ => none
  | ⟨capacity, item :: rest, fits⟩ => some (item, ⟨capacity, rest, Nat.le_of_succ_le fits⟩)

/-- Whether there was room, and the queue with the item if there was. -/
def write (queue : BoundedQueue α) (item : α) : Bool × BoundedQueue α :=
  if room : queue.items.length < queue.capacity then
    (true, ⟨queue.capacity, queue.items ++ [item], by
      rw [List.length_append]
      exact room⟩)
  else (false, queue)

/-- The queue without its first items. -/
def dropped (queue : BoundedQueue α) (count : Nat) : BoundedQueue α :=
  ⟨queue.capacity, queue.items.drop count, by
    rw [List.length_drop]
    exact Nat.le_trans (Nat.sub_le _ _) queue.fits⟩

/-- The queue with its first items at the end. -/
def turned (queue : BoundedQueue α) (count : Nat) : BoundedQueue α :=
  ⟨queue.capacity, queue.items.drop count ++ queue.items.take count, by
    rw [List.length_append, Nat.add_comm, ← List.length_append, List.take_append_drop]
    exact queue.fits⟩

section

variable {item : α} (queue : BoundedQueue α) (count : Nat)

@[simp] theorem dropped_zero : queue.dropped 0 = queue := rfl

theorem turned_zero : queue.turned 0 = queue := by
  simp [turned]

theorem turned_length : queue.turned queue.items.length = queue := by
  simp [turned]

theorem length_turned : (queue.turned count).items.length = queue.items.length := by
  rw [turned, length_append, Nat.add_comm, ← length_append, take_append_drop]

theorem length_dropped : (queue.dropped count).items.length = queue.items.length - count :=
  length_drop

theorem read_of_items {queue rest : BoundedQueue α} (items : queue.items = item :: rest.items)
    (same : queue.capacity = rest.capacity) : queue.read = some (item, rest) := by
  obtain ⟨capacity, list, fits⟩ := queue
  obtain ⟨_, others, _⟩ := rest
  dsimp only at items same
  subst items same
  rfl

theorem length_write {queue : BoundedQueue α} (room : queue.items.length < queue.capacity) :
    (queue.write item).2.items.length = queue.items.length + 1 := by
  rw [write, dif_pos room]
  exact length_append

end

variable {queue : BoundedQueue α} {count : Nat}

theorem read_dropped (more : count < queue.items.length) :
    (queue.dropped count).read = some (queue.items[count], queue.dropped (count + 1)) :=
  read_of_items (drop_eq_getElem_cons more) rfl

/-- A turn: what is read finds room at the end. -/
theorem read_turned (more : count < queue.items.length) :
    ∃ rest, (queue.turned count).read = some (queue.items[count], rest) ∧
      rest.write queue.items[count] = (true, queue.turned (count + 1)) := by
  have short : (queue.items.drop (count + 1) ++ queue.items.take count).length < queue.capacity := by
    have fits := queue.fits
    rw [length_append, length_drop, length_take]
    omega
  refine ⟨⟨queue.capacity, _, Nat.le_of_lt short⟩, read_of_items ?_ rfl, ?_⟩
  · exact congrArg (· ++ queue.items.take count) (drop_eq_getElem_cons more)
  · rw [write, dif_pos short]
    have items : queue.items.drop (count + 1) ++ queue.items.take count ++ [queue.items[count]] =
        queue.items.drop (count + 1) ++ queue.items.take (count + 1) := by
      rw [append_assoc, take_append_getElem more]
    exact congrArg (Prod.mk true) (BoundedQueue.ext rfl items)

end BoundedQueue

end Vts.Lib
