/-!
# Streams with brackets

Some events of a stream open something, by its name, and some close it; nothing is opened
inside another. A stream is bracketed if every opening is followed by exactly one closing
before the next opening, and by that of the same name.

Proved here: which parts of a stream can be put together so that it stays bracketed.
-/

namespace Vts.Lib

universe u v
variable {ε : Type u} {κ : Type v} {opens closes : ε → Option κ}

/-- What is closed before the next opening. -/
def closings (opens closes : ε → Option κ) : List ε → List κ
  | [] => []
  | event :: rest =>
    if (opens event).isSome then [] else (closes event).toList ++ closings opens closes rest

/-- Each opening is followed by one closing before the next opening, that of its name. -/
def Bracketed (opens closes : ε → Option κ) : List ε → Prop
  | [] => True
  | event :: rest =>
    (∀ name, opens event = some name → closings opens closes rest = [name]) ∧
      Bracketed opens closes rest

/-- Neither an opening nor a closing. -/
def Plain (opens closes : ε → Option κ) (events : List ε) : Prop :=
  ∀ event ∈ events, opens event = none ∧ closes event = none

section

variable {events : List ε} (plain : Plain opens closes events)
include plain

theorem Plain.closings_append (rest : List ε) :
    closings opens closes (events ++ rest) = closings opens closes rest := by
  induction events with
  | nil => rfl
  | cons event events ih =>
    have parts := List.forall_mem_cons.mp plain
    simp [closings, parts.1, ih parts.2]

/-- Plain events may stand anywhere. -/
theorem Plain.bracketed_append {rest : List ε} :
    Bracketed opens closes (events ++ rest) ↔ Bracketed opens closes rest := by
  induction events with
  | nil => rfl
  | cons event events ih =>
    have parts := List.forall_mem_cons.mp plain
    simp [Bracketed, parts.1, ih parts.2]

/-- Plain events alone close nothing and leave nothing open. -/
theorem Plain.alone : closings opens closes events = [] ∧ Bracketed opens closes events := by
  have closed := plain.closings_append []
  have bracketed := plain.bracketed_append.mpr (show Bracketed opens closes [] from trivial)
  rw [List.append_nil] at closed bracketed
  exact ⟨closed, bracketed⟩

end

theorem closings_open {event : ε} {name : κ} (isOpening : opens event = some name)
    (rest : List ε) : closings opens closes (event :: rest) = [] := by
  rw [closings, isOpening]
  rfl

theorem closings_close {event : ε} {name : κ} (noOpening : opens event = none)
    (isClosing : closes event = some name) (rest : List ε) :
    closings opens closes (event :: rest) = name :: closings opens closes rest := by
  rw [closings, noOpening, isClosing]
  rfl

/-- An opening, plain events and the closing, in front of a stream that does not begin with
another closing. -/
theorem Bracketed.pair {first last : ε} {name : κ} {inner rest : List ε}
    (isOpening : opens first = some name) (noOpening : opens last = none)
    (isClosing : closes last = some name) (plain : Plain opens closes inner)
    (fresh : closings opens closes rest = []) (bracketed : Bracketed opens closes rest) :
    Bracketed opens closes (first :: inner ++ last :: rest) := by
  constructor
  · intro other same
    cases isOpening.symm.trans same
    rw [List.append_eq, plain.closings_append, closings_close noOpening isClosing, fresh]
  · refine plain.bracketed_append.mpr ⟨?_, bracketed⟩
    intro other same
    rw [noOpening] at same
    cases same

end Vts.Lib
