import Vts.Hal.CallArgs
import Vts.Host.InterfaceMirror

/-!
# The walks over arguments and results

`PreprocessHidlHalFunctionCallArgs` and `SetHidlHalFunctionCallResults` of
`drivers/hal/common/driver_manager/VtsHalDriverManager.cpp` walk through a message in the same way
and differ in what they do at a value without children. A vector is looped over as often as its
`vector_size` says, and a union or a struct as often as it has values.

The children that a walk comes to are written down by their paths. Proved here: for which messages a
walk comes to the children that there are, in order and without a gap, until a value ends it.
-/

namespace Vts.Hal.Traversal

open Vts.Resource List

/-! ## Walks -/

/-- A `VariableSpecificationMessage` by its type. A `ref_value` that is not set reads as the default
message. -/
inductive Message (Leaf : Type) where
  | sequence (type : SequenceType) (vector_size : Int) (vector_value : List (Message Leaf))
  | union (union_value : List (Message Leaf))
  | struct (struct_value : List (Message Leaf))
  | ref (ref_value : Message Leaf)
  | leaf (value : Leaf)

/-- Why a walk does not return: an item of a repeated field that is not there, or a call that does
not return. -/
inductive Failure where
  | missing
  | stopped (stop : Stop)
deriving DecidableEq

/-- What is done at a value: whether the walk goes on, the value afterwards and the state. -/
abbrev Visit (Leaf σ : Type) := Leaf → σ → Except Failure (Bool × Leaf × σ)

/-- The paths of the children that a walk came to, and what it returned. -/
structure Walk (Value σ : Type) where
  visited : List (List Nat)
  outcome : Except Failure (Bool × Value × σ)

namespace Walk

variable {Value Other σ : Type}

def map (build : Value → Other) (walk : Walk Value σ) : Walk Other σ where
  visited := walk.visited
  outcome := walk.outcome.map fun (success, value, state) => (success, build value, state)

/-- The walk over a child, with the paths from its parent. -/
def below (index : Nat) (walk : Walk Value σ) : Walk Value σ where
  visited := [index] :: walk.visited.map (index :: ·)
  outcome := walk.outcome

end Walk

section

variable {Leaf σ : Type} (visit : Visit Leaf σ)

mutual

def traverse : Message Leaf → σ → Walk (Message Leaf) σ
  | .sequence type vector_size vector_value, state =>
    (traverseFirst 0 vector_size.toNat vector_value state).map (.sequence type vector_size)
  | .union union_value, state =>
    (traverseFirst 0 union_value.length union_value state).map .union
  | .struct struct_value, state =>
    (traverseFirst 0 struct_value.length struct_value state).map .struct
  | .ref ref_value, state => ((traverse ref_value state).below 0).map .ref
  | .leaf value, state => ⟨[], (visit value state).map fun (success, value, state) =>
      (success, .leaf value, state)⟩

/-- The loops over the items of a repeated field, from an index on. -/
def traverseFirst (index : Nat) : Nat → List (Message Leaf) → σ → Walk (List (Message Leaf)) σ
  | 0, values, state => ⟨[], .ok (true, values, state)⟩
  | _ + 1, [], _ => ⟨[], .error .missing⟩
  | count + 1, value :: rest, state =>
    let first := (traverse value state).below index
    match first.outcome with
    | .error failure => ⟨first.visited, .error failure⟩
    | .ok (false, value, state) => ⟨first.visited, .ok (false, value :: rest, state)⟩
    | .ok (true, value, state) =>
      let others := traverseFirst (index + 1) count rest state
      ⟨first.visited ++ others.visited, (others.map (value :: ·)).outcome⟩

end

end

/-! ## Walks that miss nothing -/

section

variable {Leaf σ Value : Type}

mutual

/-- The paths of the children of a message and of theirs, in order. -/
def Message.children : Message Leaf → List (List Nat)
  | .sequence _ _ values | .union values | .struct values => childrenFrom 0 values
  | .ref value => [0] :: value.children.map (0 :: ·)
  | .leaf _ => []

def childrenFrom (index : Nat) : List (Message Leaf) → List (List Nat)
  | [] => []
  | value :: rest =>
    [index] :: (value.children.map (index :: ·) ++ childrenFrom (index + 1) rest)

end

/-- A walk that goes to its end. -/
def Walk.succeeds (walk : Walk Value σ) : Option σ :=
  match walk.outcome with
  | .ok (true, _, state) => some state
  | _ => none

/-- Only children that there are have been accessed, and each of them has been come to, or each of
those up to the value that ended the walk. -/
def Walk.Inside (walk : Walk Value σ) (children : List (List Nat)) : Prop :=
  walk.outcome ≠ .error .missing ∧
    (walk.visited = children ∨ walk.succeeds = none ∧ walk.visited <+: children)

mutual

/-- The values without children, in order. -/
def Message.leaves : Message Leaf → List Leaf
  | .sequence _ _ values | .union values | .struct values => leavesOf values
  | .ref value => value.leaves
  | .leaf value => [value]

def leavesOf : List (Message Leaf) → List Leaf
  | [] => []
  | value :: rest => value.leaves ++ leavesOf rest

end

variable (visit : Visit Leaf σ)

/-- The state after some values have been visited, none when one of them ends the walk. -/
def visitAll : List Leaf → σ → Option σ
  | [], state => some state
  | value :: rest, state =>
    match visit value state with
    | .ok (true, _, state) => visitAll rest state
    | _ => none

mutual

/-- The sizes of the vectors that a walk comes to are the numbers of their values, or at least reach
the value that ends the walk; and no item is missing at a value. -/
def Message.Fits : Message Leaf → σ → Prop
  | .sequence _ vector_size values, state => fitsFirst vector_size.toNat values state
  | .union values, state | .struct values, state => fitsFirst values.length values state
  | .ref value, state => value.Fits state
  | .leaf value, state => visit value state ≠ .error .missing

def fitsFirst : Nat → List (Message Leaf) → σ → Prop
  | 0, values, _ => values = []
  | _ + 1, [], _ => False
  | count + 1, value :: rest, state =>
    value.Fits state ∧ ∀ after, visitAll visit value.leaves state = some after →
      fitsFirst count rest after

end

end

/-! ## What is made of a walk -/

namespace Walk

variable {Leaf σ Value Other : Type}

section

variable (build : Value → Other) (index : Nat) (walk : Walk Value σ) (children : List (List Nat))

@[simp] theorem succeeds_map : (walk.map build).succeeds = walk.succeeds := by
  obtain ⟨visited, outcome⟩ := walk
  rcases outcome with failure | ⟨_ | _, value, state⟩ <;> rfl

@[simp] theorem succeeds_below :
    (walk.below index).succeeds = walk.succeeds := rfl

@[simp] theorem missing_map :
    (walk.map build).outcome = .error .missing ↔ walk.outcome = .error .missing := by
  obtain ⟨visited, outcome⟩ := walk
  cases outcome with
  | error failure => rw [map, Except.map, Except.error.injEq, Except.error.injEq]
  | ok result => exact iff_of_false nofun nofun

theorem inside_map_iff : (walk.map build).Inside children ↔ walk.Inside children := by
  unfold Inside
  rw [Ne, missing_map, succeeds_map]
  rfl

theorem inside_below_iff :
    (walk.below index).Inside ([index] :: children.map (index :: ·)) ↔ walk.Inside children := by
  unfold Inside
  rw [succeeds_below, below, List.cons.injEq, and_iff_right rfl,
    (map_injective_iff.mpr cons_injective).eq_iff, cons_prefix_cons,
    and_iff_right rfl, prefix_map_iff_of_injective cons_injective]

end

end Walk

/-! ## Paths -/

section

variable {α : Type} {inside : α → Prop}

section

variable {front front' rest rest' : List α} (all : ∀ item ∈ front, inside item)
  (all' : ∀ item ∈ front', inside item) (others : ∀ item ∈ rest, ¬inside item)
  (others' : ∀ item ∈ rest', ¬inside item)
include all all' others others'

/-- Two lists whose first parts have a property that the rest has not agree part by part. -/
theorem append_eq_iff : front ++ rest = front' ++ rest' ↔ front = front' ∧ rest = rest' := by
  classical
  constructor
  · intro same
    have kept : ∀ front rest : List α, (∀ item ∈ front, inside item) →
        (∀ item ∈ rest, ¬inside item) → (front ++ rest).filter (fun item => decide (inside item)) = front := by
      intro front rest all others
      rw [filter_append, filter_eq_self.mpr, filter_eq_nil_iff.mpr, append_nil]
      · simpa using others
      · simpa using all
    have fronts : front = front' := by
      rw [← kept front rest all others, same, kept front' rest' all' others']
    subst fronts
    exact ⟨rfl, append_cancel_left same⟩
  · rintro ⟨rfl, rfl⟩
    rfl

theorem append_prefix_iff :
    front ++ rest <+: front' ++ rest' ↔
      front = front' ∧ rest <+: rest' ∨ rest = [] ∧ front <+: front' := by
  induction front generalizing front' with
  | nil =>
    cases front' with
    | nil =>
      constructor
      · exact fun isPrefix => .inl ⟨rfl, isPrefix⟩
      · rintro (⟨_, isPrefix⟩ | ⟨rfl, _⟩)
        · exact isPrefix
        · exact nil_prefix
    | cons first' front' =>
      constructor
      · intro isPrefix
        cases rest with
        | nil => exact .inr ⟨rfl, nil_prefix⟩
        | cons item rest =>
          obtain ⟨rfl, _⟩ := cons_prefix_cons.mp isPrefix
          exact absurd (all' _ mem_cons_self) (others _ mem_cons_self)
      · rintro (⟨empty, _⟩ | ⟨rfl, _⟩)
        · cases empty
        · exact nil_prefix
  | cons first front ih =>
    have front_all : ∀ item ∈ front, inside item := fun item listed =>
      all item (mem_cons_of_mem _ listed)
    cases front' with
    | nil =>
      constructor
      · intro isPrefix
        cases rest' with
        | nil => cases prefix_nil.mp isPrefix
        | cons item rest' =>
          obtain ⟨rfl, _⟩ := cons_prefix_cons.mp isPrefix
          exact absurd (all _ mem_cons_self) (others' _ mem_cons_self)
      · rintro (⟨full, _⟩ | ⟨_, isPrefix⟩)
        · cases full
        · cases prefix_nil.mp isPrefix
    | cons first' front' =>
      have front_all' : ∀ item ∈ front', inside item := fun item listed =>
        all' item (mem_cons_of_mem _ listed)
      rw [cons_append, cons_append, cons_prefix_cons,
        ih front_all front_all', cons_prefix_cons, List.cons.injEq]
      constructor
      · rintro ⟨rfl, ⟨rfl, isPrefix⟩ | ⟨rfl, isPrefix⟩⟩
        · exact .inl ⟨⟨rfl, rfl⟩, isPrefix⟩
        · exact .inr ⟨rfl, rfl, isPrefix⟩
      · rintro (⟨⟨rfl, rfl⟩, isPrefix⟩ | ⟨rfl, rfl, isPrefix⟩)
        · exact ⟨rfl, .inl ⟨rfl, isPrefix⟩⟩
        · exact ⟨rfl, .inr ⟨rfl, isPrefix⟩⟩

end

end

section

variable {Leaf σ Value Other : Type} (visit : Visit Leaf σ)

/-- Paths that begin with an index. -/
def StartsAt (index : Nat) (path : List Nat) : Prop := path.head? = some index

theorem startsAt_below (index : Nat) (paths : List (List Nat)) :
    ∀ path ∈ [index] :: paths.map (index :: ·), StartsAt index path := by
  intro path listed
  rcases mem_cons.mp listed with rfl | listed
  · rfl
  · obtain ⟨rest, _, rfl⟩ := mem_map.mp listed
    rfl

/-- The items from an index on have paths that begin there or later. -/
theorem childrenFrom_startsAt (index : Nat) (values : List (Message Leaf)) :
    ∀ path ∈ childrenFrom index values, ∃ later, index ≤ later ∧ StartsAt later path := by
  induction values generalizing index with
  | nil => exact forall_mem_nil _
  | cons value rest ih =>
    intro path listed
    rw [childrenFrom, ← cons_append] at listed
    rcases mem_append.mp listed with own | other
    · exact ⟨index, Nat.le_refl _, startsAt_below index _ path own⟩
    · obtain ⟨later, le, starts⟩ := ih (index + 1) path other
      exact ⟨later, by omega, starts⟩

/-! ## A round of a loop -/

section

variable (index count : Nat) (value : Message Leaf) (values rest : List (Message Leaf)) (state : σ)

/-- The walk over the first item ends the loop. -/
theorem traverseFirst_ended (ended : (traverse visit value state).succeeds = none) :
    (traverseFirst visit index (count + 1) (value :: rest) state).visited =
        ((traverse visit value state).below index).visited ∧
      (traverseFirst visit index (count + 1) (value :: rest) state).succeeds = none ∧
      ((traverseFirst visit index (count + 1) (value :: rest) state).outcome = .error .missing ↔
        (traverse visit value state).outcome = .error .missing) := by
  rw [traverseFirst]
  simp only [Walk.below]
  unfold Walk.succeeds at ended
  cases returned : (traverse visit value state).outcome with
  | error failure => simp [Walk.succeeds]
  | ok result =>
    obtain ⟨success, value', state'⟩ := result
    cases success with
    | false => simp [Walk.succeeds]
    | true =>
      rw [returned] at ended
      cases ended

theorem traverseFirst_goesOn {after : σ}
    (succeeds : (traverse visit value state).succeeds = some after) :
    (traverseFirst visit index (count + 1) (value :: rest) state).visited =
        ((traverse visit value state).below index).visited ++
          (traverseFirst visit (index + 1) count rest after).visited ∧
      (traverseFirst visit index (count + 1) (value :: rest) state).succeeds =
        (traverseFirst visit (index + 1) count rest after).succeeds ∧
      ((traverseFirst visit index (count + 1) (value :: rest) state).outcome = .error .missing ↔
        (traverseFirst visit (index + 1) count rest after).outcome = .error .missing) := by
  rw [traverseFirst]
  simp only [Walk.below]
  unfold Walk.succeeds at succeeds
  cases returned : (traverse visit value state).outcome with
  | error failure =>
    rw [returned] at succeeds
    cases succeeds
  | ok result =>
    obtain ⟨success, value', state'⟩ := result
    rw [returned] at succeeds
    cases success with
    | false => cases succeeds
    | true =>
      obtain rfl : state' = after := Option.some.inj succeeds
      refine ⟨rfl, ?_, ?_⟩
      · apply Walk.succeeds_map
      · apply Walk.missing_map

theorem visited_startsAt :
    ∀ path ∈ (traverseFirst visit index count values state).visited,
      ∃ later, index ≤ later ∧ StartsAt later path := by
  induction count generalizing index values state with
  | zero =>
    rw [traverseFirst]
    exact forall_mem_nil _
  | succ count ih =>
    cases values with
    | nil =>
      rw [traverseFirst]
      exact forall_mem_nil _
    | cons value rest =>
      have own : ∀ path ∈ ((traverse visit value state).below index).visited,
          ∃ later, index ≤ later ∧ StartsAt later path := fun path listed =>
        ⟨index, Nat.le_refl _, startsAt_below index _ path listed⟩
      intro path listed
      cases succeeds : (traverse visit value state).succeeds with
      | none =>
        rw [(traverseFirst_ended visit index count value rest state succeeds).1] at listed
        exact own path listed
      | some after =>
        rw [(traverseFirst_goesOn visit index count value rest state succeeds).1] at listed
        rcases mem_append.mp listed with listed | other
        · exact own path listed
        · obtain ⟨later, le, starts⟩ := ih (index + 1) rest after path other
          exact ⟨later, by omega, starts⟩

theorem StartsAt.ne {index later : Nat} {path : List Nat} (starts : StartsAt later path)
    (after : index < later) : ¬StartsAt index path := by
  intro other
  have same := starts.symm.trans other
  injection same with same
  omega

/-- A loop that a value ends has come to a child. -/
theorem visited_ne_nil (ended : (traverseFirst visit index count values state).succeeds = none)
    (there : (traverseFirst visit index count values state).outcome ≠ .error .missing) :
    (traverseFirst visit index count values state).visited ≠ [] := by
  cases count with
  | zero =>
    rw [traverseFirst] at ended
    cases ended
  | succ count =>
    cases values with
    | nil =>
      rw [traverseFirst] at there
      exact absurd rfl there
    | cons value rest =>
      cases succeeds : (traverse visit value state).succeeds with
      | none =>
        rw [(traverseFirst_ended visit index count value rest state succeeds).1]
        apply cons_ne_nil
      | some after =>
        rw [(traverseFirst_goesOn visit index count value rest state succeeds).1]
        apply cons_ne_nil

end

/-! ## The end of a walk -/

theorem visitAll_append (front rest : List Leaf) (state : σ) :
    visitAll visit (front ++ rest) state =
      (visitAll visit front state).bind (visitAll visit rest) := by
  induction front generalizing state with
  | nil => rfl
  | cons value front ih =>
    rw [cons_append, visitAll, visitAll]
    split
    · apply ih
    · rfl

mutual

/-- A walk that misses nothing goes to its end when no value ends it. -/
theorem traverse_succeeds : ∀ (message : Message Leaf) (state : σ), message.Fits visit state →
    (traverse visit message state).succeeds = visitAll visit message.leaves state
  | .sequence _ size values, state, fits => by
    rw [traverse, Walk.succeeds_map, Message.leaves]
    exact traverseFirst_succeeds 0 size.toNat values state fits
  | .union values, state, fits | .struct values, state, fits => by
    rw [traverse, Walk.succeeds_map, Message.leaves]
    exact traverseFirst_succeeds 0 values.length values state fits
  | .ref value, state, fits => by
    rw [traverse, Walk.succeeds_map, Walk.succeeds_below, Message.leaves]
    exact traverse_succeeds value state fits
  | .leaf value, state, _ => by
    rw [traverse, Message.leaves, visitAll]
    rcases visit value state with failure | ⟨_ | _, value', state'⟩ <;> rfl

theorem traverseFirst_succeeds : ∀ (index count : Nat) (values : List (Message Leaf)) (state : σ),
    fitsFirst visit count values state →
    (traverseFirst visit index count values state).succeeds = visitAll visit (leavesOf values) state
  | _, 0, values, state, fits => by
    rw [fitsFirst] at fits
    rw [fits, traverseFirst]
    rfl
  | _, _ + 1, [], _, fits => fits.elim
  | index, count + 1, value :: rest, state, ⟨fits, others⟩ => by
    have first := traverse_succeeds value state fits
    rw [leavesOf, visitAll_append, ← first]
    cases succeeds : (traverse visit value state).succeeds with
    | none => exact (traverseFirst_ended visit index count value rest state succeeds).2.1
    | some after =>
      rw [(traverseFirst_goesOn visit index count value rest state succeeds).2.1]
      exact traverseFirst_succeeds (index + 1) count rest after (others after (first ▸ succeeds))

end

/-! ## When a walk misses nothing -/

section

variable {index : Nat} {first : Walk Value σ} {result : Walk Other σ}
  {children rest : List (List Nat)}

/-- A loop that its first item ends. -/
theorem inside_ended_iff (later : ∀ path ∈ rest, ¬StartsAt index path)
    (ended : first.succeeds = none) (visited : result.visited = (first.below index).visited)
    (ended' : result.succeeds = none)
    (missing : result.outcome = .error .missing ↔ first.outcome = .error .missing) :
    result.Inside ([index] :: children.map (index :: ·) ++ rest) ↔ first.Inside children := by
  have own := startsAt_below index first.visited
  have block := append_prefix_iff own (startsAt_below index children) (forall_mem_nil _) later
  have collapse : ∀ {visited children : List (List Nat)},
      visited = children ∨ visited <+: children ↔ visited <+: children := by
    intro visited children
    constructor
    · rintro (rfl | isPrefix)
      · exact prefix_rfl
      · exact isPrefix
    · exact .inr
  rw [append_nil] at block
  unfold Walk.Inside
  rw [ended, ended', visited, Ne, missing, eq_self_iff_true, true_and, true_and, collapse, collapse]
  apply and_congr_right'
  have inner : (first.below index).visited <+: [index] :: children.map (index :: ·) ↔
      first.visited <+: children := by
    rw [Walk.below, cons_prefix_cons, prefix_map_iff_of_injective (cons_injective)]
    exact and_iff_right rfl
  rw [← inner]
  refine block.trans ⟨?_, fun isPrefix => .inr ⟨rfl, isPrefix⟩⟩
  rintro (⟨same, -⟩ | ⟨-, isPrefix⟩)
  · exact same ▸ prefix_rfl
  · exact isPrefix

theorem inside_goesOn_iff {others : Walk Other σ} {after : σ}
    (later : ∀ path ∈ rest, ¬StartsAt index path)
    (later' : ∀ path ∈ others.visited, ¬StartsAt index path)
    (comes : others.succeeds = none → others.outcome ≠ .error .missing → others.visited ≠ [])
    (succeeds : first.succeeds = some after)
    (visited : result.visited = (first.below index).visited ++ others.visited)
    (succeeds' : result.succeeds = others.succeeds)
    (missing : result.outcome = .error .missing ↔ others.outcome = .error .missing) :
    result.Inside ([index] :: children.map (index :: ·) ++ rest) ↔
      first.Inside children ∧ others.Inside rest := by
  have own : ∀ path ∈ (first.below index).visited, StartsAt index path :=
    startsAt_below index first.visited
  have own' := startsAt_below index children
  have whole : first.Inside children ↔
      (first.below index).visited = [index] :: children.map (index :: ·) := by
    have there : first.outcome ≠ .error .missing := by
      intro missing
      rw [Walk.succeeds, missing] at succeeds
      cases succeeds
    unfold Walk.Inside
    rw [succeeds, and_iff_right there, Walk.below, List.cons.injEq,
      (map_injective_iff.mpr cons_injective).eq_iff]
    simp
  rw [whole]
  unfold Walk.Inside
  rw [visited, succeeds', Ne, missing, append_eq_iff own own' later' later,
    append_prefix_iff own own' later' later]
  constructor
  · rintro ⟨there, ⟨same, same'⟩ | ⟨ended, ⟨same, isPrefix⟩ | ⟨empty, -⟩⟩⟩
    · exact ⟨same, there, .inl same'⟩
    · exact ⟨same, there, .inr ⟨ended, isPrefix⟩⟩
    · exact absurd empty (comes ended there)
  · rintro ⟨same, there, same' | ⟨ended, isPrefix⟩⟩
    · exact ⟨there, .inl ⟨same, same'⟩⟩
    · exact ⟨there, .inr ⟨ended, .inl ⟨same, isPrefix⟩⟩⟩

end

mutual

/-- A walk stays among the children that there are and comes to each of them exactly when the sizes
of the vectors that it comes to are right. -/
theorem traverse_inside_iff : ∀ (message : Message Leaf) (state : σ),
    (traverse visit message state).Inside message.children ↔ message.Fits visit state
  | .sequence type size values, state => by
    rw [traverse, Walk.inside_map_iff, Message.children, Message.Fits]
    exact traverseFirst_inside_iff 0 size.toNat values state
  | .union values, state | .struct values, state => by
    rw [traverse, Walk.inside_map_iff, Message.children, Message.Fits]
    exact traverseFirst_inside_iff 0 values.length values state
  | .ref value, state => by
    rw [traverse, Walk.inside_map_iff, Message.children, Message.Fits, Walk.inside_below_iff]
    exact traverse_inside_iff value state
  | .leaf value, state => by
    rw [traverse, Message.children, Message.Fits]
    unfold Walk.Inside
    cases visit value state with
    | error result | ok result => simp [Except.map]

theorem traverseFirst_inside_iff : ∀ (index count : Nat) (values : List (Message Leaf)) (state : σ),
    (traverseFirst visit index count values state).Inside (childrenFrom index values) ↔
      fitsFirst visit count values state
  | index, 0, values, state => by
    rw [traverseFirst, fitsFirst]
    unfold Walk.Inside
    cases values with
    | nil => simp [childrenFrom]
    | cons value rest => simp [childrenFrom, Walk.succeeds]
  | index, count + 1, [], state => by
    rw [traverseFirst, fitsFirst]
    unfold Walk.Inside
    simp
  | index, count + 1, value :: rest, state => by
    have first := traverse_inside_iff value state
    have later : ∀ path ∈ childrenFrom (index + 1) rest, ¬StartsAt index path := by
      intro path listed
      obtain ⟨later, le, starts⟩ := childrenFrom_startsAt (index + 1) rest path listed
      exact starts.ne le
    rw [childrenFrom, ← cons_append, fitsFirst]
    cases succeeds : (traverse visit value state).succeeds with
    | none =>
      obtain ⟨visited, ended, missing⟩ :=
        traverseFirst_ended visit index count value rest state succeeds
      rw [inside_ended_iff later succeeds visited ended missing, first]
      refine ⟨fun fits => ⟨fits, fun after reached => ?_⟩, And.left⟩
      rw [← traverse_succeeds visit value state fits, succeeds] at reached
      cases reached
    | some after =>
      obtain ⟨visited, succeeds', missing⟩ :=
        traverseFirst_goesOn visit index count value rest state succeeds
      have later' : ∀ path ∈ (traverseFirst visit (index + 1) count rest after).visited,
          ¬StartsAt index path := by
        intro path listed
        obtain ⟨later, le, starts⟩ :=
          visited_startsAt visit (index + 1) count rest after path listed
        exact starts.ne le
      have others := traverseFirst_inside_iff (index + 1) count rest after
      have comes := visited_ne_nil visit (index + 1) count rest after
      rw [inside_goesOn_iff later later' comes succeeds visited succeeds' missing, first, others]
      apply and_congr_right
      intro fits
      rw [← traverse_succeeds visit value state fits, succeeds]
      simp

end

end

/-! ## The two functions -/

/-- A value without children, with the fields that are read or set for its type. -/
inductive Value where
  | hidl_interface (predefined_type : String) (hidl_interface_pointer : Option UInt64)
      (hidl_interface_id : Option Int)
  /-- `TYPE_FMQ_SYNC` or `TYPE_FMQ_UNSYNC`. -/
  | fmq (sync : Bool) (fmq_value : List FmqValue)
  | hidl_memory (mem_id : Int) (hidl_mem_address : Nat)
  | handle (handle_id : Int) (hidl_handle_address : Nat)
  | plain (type : PlainType)

/-- What is read of a value before a call. -/
def Value.toCallArg : Value → CallArg
  | .hidl_interface predefined_type hidl_interface_pointer _ =>
    .hidl_interface predefined_type hidl_interface_pointer
  | .fmq sync fmq_value => .fmq sync fmq_value.head?
  | .hidl_memory mem_id hidl_mem_address => .hidl_memory mem_id hidl_mem_address
  | .handle handle_id hidl_handle_address => .handle handle_id hidl_handle_address
  | .plain type => .plain type

/-- A value with what is set of it before a call. -/
def Value.prepared : Value → CallArg → Value
  | .hidl_interface predefined_type _ hidl_interface_id, .hidl_interface _ hidl_interface_pointer =>
    .hidl_interface predefined_type hidl_interface_pointer hidl_interface_id
  | .fmq sync (_ :: rest), .fmq _ (some value) => .fmq sync (value :: rest)
  | .hidl_memory mem_id _, .hidl_memory _ hidl_mem_address => .hidl_memory mem_id hidl_mem_address
  | .handle handle_id _, .handle _ hidl_handle_address => .handle handle_id hidl_handle_address
  | value, _ => value

section

variable {DriverBase : Type} (manager : VtsHalDriverManager DriverBase) (resources : Lookups)

/-- What `PreprocessHidlHalFunctionCallArgs` does at a value without children. -/
def prepareValue : Visit Value Unit
  | value, state =>
    match manager.PreprocessHidlHalFunctionCallArgs resources value.toCallArg with
    | .error stop => .error (.stopped stop)
    | .ok (success, arg) => .ok (success, value.prepared arg, state)

def PreprocessHidlHalFunctionCallArgs (arg : Message Value) : Walk (Message Value) Unit :=
  traverse (prepareValue manager resources) arg ()

end

section

variable (loader : HalDriverLoader) (device : Device) (numFds : Nat → Option Nat)

/-- What `SetHidlHalFunctionCallResults` does at a value without children. The handle at an address
has a number of descriptors, or none is there. -/
def setValue : Visit Value (VtsHalDriverManager (Option LoadedDriver) × VtsResourceManager)
  | .hidl_interface predefined_type hidl_interface_pointer hidl_interface_id,
      (manager, resource_manager_) =>
    let interface_pt := hidl_interface_pointer.getD 0
    if interface_pt ≠ 0 ∧ readTypeName predefined_type = none then .error (.stopped .crashed)
    else match Host.SetHidlInterfaceResult loader manager predefined_type interface_pt with
      | none => .ok (false,
          .hidl_interface predefined_type hidl_interface_pointer hidl_interface_id,
          (manager, resource_manager_))
      | some (driver_id, manager) => .ok (true,
          .hidl_interface predefined_type hidl_interface_pointer (some driver_id),
          (manager, resource_manager_))
  -- `fmq_value(0)` without a look at the number of values
  | .fmq _ [], _ => .error .missing
  | .fmq sync (value :: rest), (manager, resource_manager_) => do
    let (new_queue_id, resource_manager_) ← (RegisterFmq device resource_manager_ value.scalar_type
      sync value.fmq_desc_address).mapError .stopped
    .ok (true, .fmq sync ({ value with fmq_id := new_queue_id } :: rest),
      (manager, resource_manager_))
  | .hidl_memory _ hidl_mem_address, (manager, resource_manager_) => do
    let (new_mem_id, resource_manager_) ←
      (RegisterHidlMemory device resource_manager_ hidl_mem_address).mapError .stopped
    .ok (true, .hidl_memory new_mem_id hidl_mem_address, (manager, resource_manager_))
  | .handle _ hidl_handle_address, (manager, resource_manager_) => do
    let (new_handle_id, resource_manager_) ← (RegisterHidlHandle resource_manager_
      ⟨hidl_handle_address, numFds hidl_handle_address⟩).mapError .stopped
    .ok (true, .handle new_handle_id hidl_handle_address, (manager, resource_manager_))
  | .plain type, state => .ok (true, .plain type, state)

def SetHidlHalFunctionCallResults (return_val : Message Value)
    (state : VtsHalDriverManager (Option LoadedDriver) × VtsResourceManager) :
    Walk (Message Value) (VtsHalDriverManager (Option LoadedDriver) × VtsResourceManager) :=
  traverse (setValue loader device numFds) return_val state

end

/-! ## The walk over arguments is their preparation -/

mutual

def Message.toCallArg : Message Value → CallArg
  | .sequence type vector_size vector_value =>
    .sequence type vector_size (toCallArgs vector_value)
  | .union union_value => .union (toCallArgs union_value)
  | .struct struct_value => .struct (toCallArgs struct_value)
  | .ref ref_value => .ref ref_value.toCallArg
  | .leaf value => value.toCallArg

def toCallArgs : List (Message Value) → List CallArg
  | [] => []
  | value :: rest => value.toCallArg :: toCallArgs rest

end

/-- What a walk returns, in other terms. An item that is not there ends the process. -/
def Walk.returned {Value Other σ : Type} (erase : Value → Other) (walk : Walk Value σ) :
    Except Stop (Bool × Other) :=
  match walk.outcome with
  | .error .missing => .error .crashed
  | .error (.stopped stop) => .error stop
  | .ok (success, value, _) => .ok (success, erase value)

theorem Walk.returned_map {Value Inner Other Erased σ : Type} {erase : Value → Other}
    {eraseInner : Inner → Erased} (build : Inner → Value) (build' : Erased → Other)
    (walk : Walk Inner σ) (same : ∀ inner, erase (build inner) = build' (eraseInner inner)) :
    (walk.map build).returned erase = (do
      let (success, inner) ← walk.returned eraseInner
      .ok (success, build' inner)) := by
  obtain ⟨visited, outcome⟩ := walk
  rcases outcome with (_ | stop) | ⟨success, value, state⟩
  · rfl
  · rfl
  · exact congrArg (fun value => Except.ok (success, value)) (same value)

theorem length_toCallArgs (values : List (Message Value)) :
    (toCallArgs values).length = values.length := by
  induction values with
  | nil => rfl
  | cons value rest ih =>
    rw [toCallArgs, length_cons, length_cons, ih]

theorem Value.prepared_toCallArg {value : Value} {after : CallArg}
    (kept : value.toCallArg.Same after) : (value.prepared after).toCallArg = after := by
  cases value with
  | hidl_interface predefined_type pointer id =>
    obtain ⟨later, rfl, rfl⟩ := kept
    rfl
  | fmq sync fmq_value =>
    cases fmq_value with
    | nil =>
      obtain rfl : after = .fmq sync none := kept
      rfl
    | cons value rest =>
      obtain ⟨address, rfl⟩ := kept
      rfl
  | hidl_memory id address | handle id address =>
    obtain ⟨later, rfl⟩ := kept
    rfl
  | plain type =>
    obtain rfl : after = .plain type := kept
    rfl

section

variable {DriverBase : Type} (manager : VtsHalDriverManager DriverBase) (resources : Lookups)

theorem preprocess_same {arg after : CallArg} {success : Bool}
    (returned : manager.PreprocessHidlHalFunctionCallArgs resources arg = .ok (success, after)) :
    arg.Same after := by
  have outcome := manager.preprocess_outcome resources arg
  rw [returned] at outcome
  unfold Outcome at outcome
  split at outcome
  · obtain ⟨_, same, kept⟩ := outcome
    cases same
    exact kept
  · obtain ⟨_, same, kept⟩ := outcome
    cases same
    exact kept
  · cases outcome

mutual

/-- The walk over an argument returns what the preparation of the argument returns. -/
theorem preprocess_returned : ∀ arg : Message Value,
    (traverse (prepareValue manager resources) arg ()).returned Message.toCallArg =
      manager.PreprocessHidlHalFunctionCallArgs resources arg.toCallArg
  | .sequence type size values => by
    rw [traverse, Message.toCallArg, VtsHalDriverManager.PreprocessHidlHalFunctionCallArgs,
      ← preprocessFirst_returned 0 size.toNat values]
    exact Walk.returned_map _ _ _ fun _ => rfl
  | .union values | .struct values => by
    rw [traverse, Message.toCallArg, VtsHalDriverManager.PreprocessHidlHalFunctionCallArgs,
      length_toCallArgs, ← preprocessFirst_returned 0 values.length values]
    exact Walk.returned_map _ _ _ fun _ => rfl
  | .ref value => by
    rw [traverse, Message.toCallArg, VtsHalDriverManager.PreprocessHidlHalFunctionCallArgs,
      ← preprocess_returned value]
    exact Walk.returned_map _ _ _ fun _ => rfl
  | .leaf value => by
    rw [traverse, Message.toCallArg]
    cases returned : manager.PreprocessHidlHalFunctionCallArgs resources value.toCallArg with
    | error stop =>
      have visited : prepareValue manager resources value () = .error (.stopped stop) := by
        rw [prepareValue, returned]
      rw [visited]
      rfl
    | ok result =>
      obtain ⟨success, after⟩ := result
      have visited : prepareValue manager resources value () =
          .ok (success, value.prepared after, ()) := by
        rw [prepareValue, returned]
      have kept := preprocess_same manager resources returned
      rw [visited]
      exact congrArg (fun arg => Except.ok (success, arg)) (Value.prepared_toCallArg kept)

theorem preprocessFirst_returned : ∀ (index count : Nat) (values : List (Message Value)),
    (traverseFirst (prepareValue manager resources) index count values ()).returned toCallArgs =
      manager.preprocessFirst resources count (toCallArgs values)
  | _, 0, values => by
    rw [traverseFirst, VtsHalDriverManager.preprocessFirst]
    rfl
  | _, _ + 1, [] => by
    rw [traverseFirst, toCallArgs, VtsHalDriverManager.preprocessFirst]
    rfl
  | index, count + 1, value :: rest => by
    have first := preprocess_returned value
    have others := preprocessFirst_returned (index + 1) count rest
    rw [traverseFirst, toCallArgs, VtsHalDriverManager.preprocessFirst, ← first, ← others]
    simp only [Walk.below]
    unfold Walk.returned
    rcases (traverse (prepareValue manager resources) value ()).outcome with
      (_ | stop) | ⟨_ | _, value', state'⟩
    · rfl
    · rfl
    · rfl
    · exact Walk.returned_map _ _ _ fun _ => rfl

end

end

/-! ## What is missed -/

/-- The two functions access only children that there are, and come to each of them up to a value
that ends the walk, exactly when every vector that they come to has as many values as its
`vector_size` says or ends the walk before, and no queue without a value is among the results. -/
theorem functions_inside_iff {DriverBase : Type} (manager : VtsHalDriverManager DriverBase)
    (resources : Lookups) (loader : HalDriverLoader) (device : Device)
    (numFds : Nat → Option Nat) (message : Message Value)
    (state : VtsHalDriverManager (Option LoadedDriver) × VtsResourceManager) :
    ((PreprocessHidlHalFunctionCallArgs manager resources message).Inside message.children ↔
        message.Fits (prepareValue manager resources) ()) ∧
      ((SetHidlHalFunctionCallResults loader device numFds message state).Inside
          message.children ↔ message.Fits (setValue loader device numFds) state) :=
  ⟨traverse_inside_iff (prepareValue manager resources) message (),
    traverse_inside_iff (setValue loader device numFds) message state⟩

/-- An array of a specification, with one value for all of its elements. -/
def unsetArray : Message Value := .sequence .TYPE_ARRAY 4 [.leaf (.plain .TYPE_SCALAR)]

/-- The second element is accessed, and there is only one. -/
theorem unsetArray_missing :
    ¬(PreprocessHidlHalFunctionCallArgs (VtsHalDriverManager.nfcManager) (lookups .plain .new)
        unsetArray).Inside unsetArray.children ∧
      ¬(SetHidlHalFunctionCallResults nfcLoader .plain (fun _ => none) unsetArray
        (.new, .new)).Inside unsetArray.children := by
  constructor
  · rintro ⟨there, -⟩
    exact there rfl
  · rintro ⟨there, -⟩
    exact there rfl

end Vts.Hal.Traversal
