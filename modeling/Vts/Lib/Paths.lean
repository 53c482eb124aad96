/-!
# Paths into trees

Nodes of a tree are reached by paths of keys. The rules say how reading and replacing a node
work together, and how a path is taken in two parts: what is done at the end of a path is
done inside the node at the end of its first part. They hold for every kind of tree whose
nodes can be read and replaced one key at a time.
-/

namespace Vts.Lib

universe u v

/-- Trees with children under keys. -/
class Children (α : Type u) (κ : outParam (Type v)) where
  child : α → κ → Option α
  /-- Replaces a child that is there. -/
  replace : α → κ → α → α
  child_replace {tree present new : α} {key : κ} (there : child tree key = some present) :
    child (replace tree key new) key = some new
  replace_replace {tree first second : α} {key : κ} :
    replace (replace tree key first) key second = replace tree key second
  replace_child {tree present : α} {key : κ} (there : child tree key = some present) :
    replace tree key present = tree

namespace Children

variable {α : Type u} {κ : Type v} [Children α κ]

/-- The node at the end of a path. -/
def getAt : α → List κ → Option α
  | tree, [] => some tree
  | tree, key :: path =>
    match child tree key with
    | none => none
    | some present => getAt present path

/-- The tree with another node at the end of a path. -/
def putAt : α → List κ → α → α
  | _, [], new => new
  | tree, key :: path, new =>
    match child tree key with
    | none => tree
    | some present => replace tree key (putAt present path new)

@[simp] theorem getAt_nil (tree : α) : getAt tree ([] : List κ) = some tree := rfl

@[simp] theorem putAt_nil (tree new : α) : putAt tree ([] : List κ) new = new := rfl

section

variable {tree present : α} {key : κ} {path : List κ}

/-- A path that leads to a node leads through a child. -/
theorem getAt_cons (there : getAt tree (key :: path) = some present) :
    ∃ below, child tree key = some below ∧ getAt below path = some present := by
  rw [getAt] at there
  cases found : child tree key with
  | none =>
    rw [found] at there
    cases there
  | some below =>
    rw [found] at there
    exact ⟨below, rfl, there⟩

theorem getAt_append (there : getAt tree path = some present) (rest : List κ) :
    getAt tree (path ++ rest) = getAt present rest := by
  induction path generalizing tree with
  | nil =>
    cases there
    rfl
  | cons key path ih =>
    obtain ⟨below, found, further⟩ := getAt_cons there
    rw [List.cons_append, getAt, found]
    exact ih further

/-- The child of the node at the end of a path. -/
theorem getAt_concat (there : getAt tree path = some present) (key : κ) :
    getAt tree (path ++ [key]) = child present key := by
  rw [getAt_append there, getAt]
  cases child present key <;> rfl

/-- A path that leads to a node leads through its parent. -/
theorem getAt_of_concat (there : getAt tree (path ++ [key]) = some present) :
    ∃ above, getAt tree path = some above ∧ child above key = some present := by
  induction path generalizing tree with
  | nil =>
    obtain ⟨below, found, here⟩ := getAt_cons there
    cases here
    exact ⟨tree, rfl, found⟩
  | cons first path ih =>
    obtain ⟨below, found, further⟩ := getAt_cons there
    obtain ⟨above, reached, last⟩ := ih further
    refine ⟨above, ?_, last⟩
    rw [getAt, found]
    exact reached

theorem getAt_putAt {present : α} (there : getAt tree path = some present) (new : α) :
    getAt (putAt tree path new) path = some new := by
  induction path generalizing tree with
  | nil => rfl
  | cons key path ih =>
    obtain ⟨below, found, further⟩ := getAt_cons there
    rw [putAt, getAt, found]
    dsimp only
    rw [child_replace found]
    exact ih further

theorem putAt_putAt {present : α} (there : getAt tree path = some present) (first second : α) :
    putAt (putAt tree path first) path second = putAt tree path second := by
  induction path generalizing tree with
  | nil => rfl
  | cons key path ih =>
    obtain ⟨below, found, further⟩ := getAt_cons there
    rw [putAt, putAt, putAt, found]
    dsimp only
    rw [child_replace found]
    dsimp only
    rw [replace_replace, ih further]

theorem putAt_getAt (there : getAt tree path = some present) : putAt tree path present = tree := by
  induction path generalizing tree with
  | nil =>
    cases there
    rfl
  | cons key path ih =>
    obtain ⟨below, found, further⟩ := getAt_cons there
    rw [putAt, found]
    dsimp only
    rw [ih further, replace_child found]

/-- To replace a child of the node at the end of a path is to replace that node. -/
theorem putAt_concat {below : α} (there : getAt tree path = some present)
    (found : child present key = some below) (new : α) :
    putAt tree (path ++ [key]) new = putAt tree path (replace present key new) := by
  induction path generalizing tree with
  | nil =>
    cases there
    simp only [List.nil_append, putAt, found]
  | cons first path ih =>
    obtain ⟨next, foundFirst, further⟩ := getAt_cons there
    rw [List.cons_append, putAt, putAt, foundFirst]
    dsimp only
    rw [ih further]

end

end Children

end Vts.Lib
