import Vts.Vtsc.Variables

/-!
# Names and expressions of emitted code

The code generators pass the text of an expression from one part of the code to the next.
These are the expressions for a part of a C++ variable and for a message inside a message.

An index expression `x[i]` is emitted for the loop over `x`, but means the innermost loop with
the index `i`; it is resolved if these are the same. A loop whose index is not in an expression
changes nothing about it.
-/

namespace Vts.Vtsc

open List

/-- `GetVarString(var_name)`. -/
def GetVarString (var_name : String) : String :=
  String.ofList (var_name.toList.map fun c => if c.isDigit || c.isAlpha then c else '_')

/-- An expression for a part of a C++ variable. -/
inductive Place where
  | var (name : String)
  | arrow (name member : String)
  | dot (place : Place) (member : String)
  | index (place : Place) (index_name : String)
deriving DecidableEq

namespace Place

def text : Place → String
  | var name => name
  | arrow name member => name ++ "->" ++ member
  | dot place member => place.text ++ "." ++ member
  | index place index_name => place.text ++ "[" ++ index_name ++ "]"

/-- Every index means the loop over the place that it stands behind. -/
def Resolved (loops : List (String × Place)) : Place → Prop
  | var _ => True
  | arrow _ _ => True
  | dot place _ => place.Resolved loops
  | index place index_name => loops.lookup index_name = some place ∧ place.Resolved loops

/-- The steps to the part, with the indices that the loops have reached. -/
def path (loops : List (String × Nat)) : Place → Option (List Access)
  | var _ => some []
  | arrow _ member => some [.member member]
  | dot place member => (place.path loops).map (· ++ [.member member])
  | index place index_name =>
    match place.path loops, loops.lookup index_name with
    | some steps, some count => some (steps ++ [.element count])
    | _, _ => none

end Place

/-- An expression for a message inside a message. -/
inductive MessageExpr where
  | var (text : String)
  | vector_value (message : MessageExpr) (index_name : String)
  | struct_value (message : MessageExpr) (index : Nat)
  | union_value (message : MessageExpr) (index : Nat)
deriving DecidableEq

namespace MessageExpr

/-- Every index means the loop over the message that it stands behind. -/
def Resolved (loops : List (String × MessageExpr)) : MessageExpr → Prop
  | var _ => True
  | vector_value message index_name =>
    loops.lookup index_name = some message ∧ message.Resolved loops
  | struct_value message _ => message.Resolved loops
  | union_value message _ => message.Resolved loops

def path (loops : List (String × Nat)) : MessageExpr → Option (List (Repeated × Nat))
  | var _ => some []
  | vector_value message index_name =>
    match message.path loops, loops.lookup index_name with
    | some steps, some count => some (steps ++ [(.vector_value, count)])
    | _, _ => none
  | struct_value message index => (message.path loops).map (· ++ [(.struct_value, index)])
  | union_value message index => (message.path loops).map (· ++ [(.union_value, index)])

end MessageExpr

/-! ## Indices of an expression -/

/-- A new loop does not change what another index means. -/
theorem lookup_cons_of_unused {α : Type} {index_name other : String} {rest : List String}
    (unused : index_name ∉ other :: rest) (value : α) (loops : List (String × α)) :
    ((index_name, value) :: loops).lookup other = loops.lookup other := by
  rw [lookup_cons, beq_eq_false_iff_ne.mpr (ne_of_not_mem_cons unused).symm]

namespace Place

/-- The names of the indices in an expression. -/
def indices : Place → List String
  | var _ => []
  | arrow _ _ => []
  | dot place _ => place.indices
  | index place index_name => index_name :: place.indices

section

variable {place : Place} {index_name : String}

theorem length_of_mem_indices (used : index_name ∈ place.indices) :
    index_name.length < place.text.length := by
  induction place with
  | var _ => cases used
  | arrow _ _ => cases used
  | dot place member ih =>
    have shorter := ih used
    simp only [text, String.length_append]
    omega
  | index place other ih =>
    simp only [text, String.length_append]
    rcases mem_cons.mp used with rfl | inside
    · have bracket : "[".length = 1 := rfl
      omega
    · have shorter := ih inside
      omega

/-- A new loop does not change the meaning of an expression without its index. -/
theorem path_cons {place : Place} {index_name : String} (unused : index_name ∉ place.indices)
    (count : Nat) (loops : List (String × Nat)) :
    place.path ((index_name, count) :: loops) = place.path loops := by
  induction place with
  | var _ => rfl
  | arrow _ _ => rfl
  | dot place member ih =>
    rw [path, path, ih unused]
  | index place other ih =>
    rw [path, path, ih (not_mem_of_not_mem_cons unused), lookup_cons_of_unused unused]

theorem path_index (unused : index_name ∉ place.indices) {loops : List (String × Nat)}
    {path : List Access} (there : place.path loops = some path) (count : Nat) :
    (index place index_name).path ((index_name, count) :: loops) =
      some (path ++ [.element count]) := by
  rw [Place.path, path_cons unused, there, lookup_cons_self]

theorem resolved_cons (unused : index_name ∉ place.indices) {loops : List (String × Place)}
    (target : Place) (resolved : place.Resolved loops) :
    place.Resolved ((index_name, target) :: loops) := by
  induction place with
  | var _ => trivial
  | arrow _ _ => trivial
  | dot place member ih => exact ih unused resolved
  | index place other ih =>
    refine ⟨?_, ih (not_mem_of_not_mem_cons unused) resolved.2⟩
    rw [lookup_cons_of_unused unused]
    exact resolved.1

end

end Place

namespace MessageExpr

/-- The names of the indices in an expression. -/
def indices : MessageExpr → List String
  | var _ => []
  | vector_value message index_name => index_name :: message.indices
  | struct_value message _ => message.indices
  | union_value message _ => message.indices

section

variable {message : MessageExpr} {index_name : String}

theorem path_cons (unused : index_name ∉ message.indices) (count : Nat)
    (loops : List (String × Nat)) :
    message.path ((index_name, count) :: loops) = message.path loops := by
  induction message with
  | var _ => rfl
  | struct_value message _ ih | union_value message _ ih =>
    rw [path, path, ih unused]
  | vector_value message other ih =>
    rw [path, path, ih (not_mem_of_not_mem_cons unused), lookup_cons_of_unused unused]

theorem path_vector_value (unused : index_name ∉ message.indices) {loops : List (String × Nat)}
    {path : List (Repeated × Nat)} (there : message.path loops = some path) (count : Nat) :
    (vector_value message index_name).path ((index_name, count) :: loops) =
      some (path ++ [(.vector_value, count)]) := by
  rw [MessageExpr.path, path_cons unused, there, lookup_cons_self]

theorem resolved_cons (unused : index_name ∉ message.indices) {loops : List (String × MessageExpr)}
    (target : MessageExpr) (resolved : message.Resolved loops) :
    message.Resolved ((index_name, target) :: loops) := by
  induction message with
  | var _ => trivial
  | struct_value message _ ih | union_value message _ ih => exact ih unused resolved
  | vector_value message other ih =>
    refine ⟨?_, ih (not_mem_of_not_mem_cons unused) resolved.2⟩
    rw [lookup_cons_of_unused unused]
    exact resolved.1

end

end MessageExpr

theorem length_GetVarString (var_name : String) :
    (GetVarString var_name).length = var_name.length := by
  unfold GetVarString
  rw [String.length_ofList, length_map, String.length_toList]

end Vts.Vtsc
