import Vts.Coverage.Summary

/-!
# Function graphs and one resolution step

A function graph is well formed when the arc lists of its blocks and the two
block references of its arcs describe the same edges, each listed once. Dropping
a fake arc removes it from the exit list of its source only, so an arc that the
resolution would drop may be missing there.

`ArcSummary.resolve_cases` says once what a resolution attempt can do. Everything
later about runs of the worklist loop is derived from it.
-/

namespace Vts.Coverage

open List

namespace FunctionSummary

/-- The references between blocks and arcs agree. Self-loops, parallel arcs and
blocks without entries or exits are all allowed. -/
structure WellFormed (func : FunctionSummary) : Prop where
  exitSound : ∀ block arc, arc ∈ (func.block block).exitArcs →
    arc < func.arcs.length ∧ (func.arc arc).srcBlock = block
  exitComplete : ∀ arc < func.arcs.length, (func.arc arc).dropped = false →
    arc ∈ (func.block (func.arc arc).srcBlock).exitArcs
  exitNodup : ∀ block, (func.block block).exitArcs.Nodup
  entrySound : ∀ block arc, arc ∈ (func.block block).entryArcs →
    arc < func.arcs.length ∧ (func.arc arc).dstBlock = block
  entryComplete : ∀ arc < func.arcs.length,
    arc ∈ (func.block (func.arc arc).dstBlock).entryArcs
  entryNodup : ∀ block, (func.block block).entryArcs.Nodup

section

variable (func : FunctionSummary)

theorem block_of_length_le {reference : Nat} (outside : func.blocks.length ≤ reference) :
    func.block reference = default :=
  getD_eq_default _ _ outside

/-- The block list, position by position. -/
theorem blocks_eq_map : func.blocks = (List.range func.blocks.length).map func.block := by
  apply ext_getElem (by simp)
  intro position inside _
  simp [block, List.getElem?_eq_getElem inside]

/-- Only the stored blocks and arcs need to be inspected, so well-formedness of a
concrete function can be evaluated. -/
theorem wellFormed_iff :
    func.WellFormed ↔
      (∀ block < func.blocks.length,
        ((∀ arc ∈ (func.block block).exitArcs,
            arc < func.arcs.length ∧ (func.arc arc).srcBlock = block) ∧
          (func.block block).exitArcs.Nodup) ∧
        (∀ arc ∈ (func.block block).entryArcs,
            arc < func.arcs.length ∧ (func.arc arc).dstBlock = block) ∧
          (func.block block).entryArcs.Nodup) ∧
      ∀ arc < func.arcs.length,
        ((func.arc arc).dropped = false →
          arc ∈ (func.block (func.arc arc).srcBlock).exitArcs) ∧
        arc ∈ (func.block (func.arc arc).dstBlock).entryArcs := by
  constructor
  · intro graph
    refine ⟨fun block _ => ⟨⟨graph.exitSound block, graph.exitNodup block⟩,
      graph.entrySound block, graph.entryNodup block⟩, fun arc stored =>
      ⟨graph.exitComplete arc stored, graph.entryComplete arc stored⟩⟩
  · rintro ⟨blocks, arcs⟩
    have outside {block : Nat} (beyond : ¬ block < func.blocks.length) :
        func.block block = default := block_of_length_le func (Nat.le_of_not_lt beyond)
    refine ⟨fun block arc member => ?_, fun arc stored => (arcs arc stored).1, fun block => ?_,
      fun block arc member => ?_, fun arc stored => (arcs arc stored).2, fun block => ?_⟩
    all_goals by_cases inside : block < func.blocks.length
    · exact (blocks block inside).1.1 arc member
    · rw [outside inside] at member
      exact absurd member not_mem_nil
    · exact (blocks block inside).1.2
    · rw [outside inside]
      exact nodup_nil
    · exact (blocks block inside).2.1 arc member
    · rw [outside inside] at member
      exact absurd member not_mem_nil
    · exact (blocks block inside).2.2
    · rw [outside inside]
      exact nodup_nil

instance (func : FunctionSummary) : Decidable func.WellFormed :=
  decidable_of_iff' _ (wellFormed_iff func)

/-- No arc of the function carries `GCOV_ARC_FAKE`. -/
def NoFake (func : FunctionSummary) : Prop := ∀ arc ∈ func.arcs, arc.fake = false

instance (func : FunctionSummary) : Decidable func.NoFake :=
  inferInstanceAs (Decidable (∀ arc ∈ func.arcs, arc.fake = false))

/-- All exit arcs in the order in which the source visits them. -/
def exitArcs (func : FunctionSummary) : List Nat := func.blocks.flatMap BlockSummary.exitArcs

/-- Two states of one function: the same blocks, and arcs that differ at most in
their counts and resolution marks. -/
structure SameGraph (before after : FunctionSummary) : Prop where
  blocks : after.blocks = before.blocks
  length : after.arcs.length = before.arcs.length
  srcBlock : ∀ arc, (after.arc arc).srcBlock = (before.arc arc).srcBlock
  dstBlock : ∀ arc, (after.arc arc).dstBlock = (before.arc arc).dstBlock
  fake : ∀ arc, (after.arc arc).fake = (before.arc arc).fake
  fallthrough : ∀ arc, (after.arc arc).fallthrough = (before.arc arc).fallthrough
  onTree : ∀ arc, (after.arc arc).onTree = (before.arc arc).onTree

theorem SameGraph.refl : SameGraph func func :=
  ⟨rfl, rfl, fun _ => rfl, fun _ => rfl, fun _ => rfl, fun _ => rfl, fun _ => rfl⟩

theorem SameGraph.symm {before after : FunctionSummary} (same : SameGraph before after) :
    SameGraph after before :=
  ⟨same.blocks.symm, same.length.symm, fun arc => (same.srcBlock arc).symm,
    fun arc => (same.dstBlock arc).symm, fun arc => (same.fake arc).symm,
    fun arc => (same.fallthrough arc).symm, fun arc => (same.onTree arc).symm⟩

theorem SameGraph.trans {first second third : FunctionSummary}
    (left : SameGraph first second) (right : SameGraph second third) : SameGraph first third where
  blocks := right.blocks.trans left.blocks
  length := right.length.trans left.length
  srcBlock arc := (right.srcBlock arc).trans (left.srcBlock arc)
  dstBlock arc := (right.dstBlock arc).trans (left.dstBlock arc)
  fake arc := (right.fake arc).trans (left.fake arc)
  fallthrough arc := (right.fallthrough arc).trans (left.fallthrough arc)
  onTree arc := (right.onTree arc).trans (left.onTree arc)

theorem SameGraph.block {before after : FunctionSummary} (same : SameGraph before after)
    (reference : Nat) : after.block reference = before.block reference := by
  simp only [FunctionSummary.block, same.blocks]

theorem SameGraph.dropped {before after : FunctionSummary} (same : SameGraph before after)
    (reference : Nat) : (after.arc reference).dropped = (before.arc reference).dropped := by
  simp only [ArcSummary.dropped, same.fake, same.fallthrough]

theorem SameGraph.wellFormed {before after : FunctionSummary} (same : SameGraph before after)
    (graph : before.WellFormed) : after.WellFormed where
  exitSound block arc member := by
    rw [same.block] at member
    rw [same.length, same.srcBlock]
    exact graph.exitSound block arc member
  exitComplete arc stored real := by
    rw [same.length] at stored
    rw [same.dropped] at real
    rw [same.srcBlock, same.block]
    exact graph.exitComplete arc stored real
  exitNodup block := by rw [same.block]; exact graph.exitNodup block
  entrySound block arc member := by
    rw [same.block] at member
    rw [same.length, same.dstBlock]
    exact graph.entrySound block arc member
  entryComplete arc stored := by
    rw [same.length] at stored
    rw [same.dstBlock, same.block]
    exact graph.entryComplete arc stored
  entryNodup block := by rw [same.block]; exact graph.entryNodup block

/-- Giving one arc a count and marking it resolved keeps the graph. -/
theorem setArc_sameGraph (self : Nat) (count : Int) (resolved : Bool) :
    SameGraph func (func.setArc self { func.arc self with count, resolved }) := by
  by_cases stored : self < func.arcs.length
  · refine ⟨rfl, by simp, ?_, ?_, ?_, ?_, ?_⟩
    all_goals
      intro arc
      rw [setArc_arc func self arc _ stored]
      split
      · next same => rw [same]
      · rfl
  · have unchanged : func.setArc self { func.arc self with count, resolved } = func := by
      have outside : func.arcs.length ≤ self := Nat.le_of_not_lt stored
      simp only [setArc, set_eq_of_length_le outside]
    rw [unchanged]
    exact SameGraph.refl func

theorem NoFake.arc {func : FunctionSummary} (noFake : func.NoFake) (reference : Nat) :
    (func.arc reference).fake = false := by
  by_cases stored : reference < func.arcs.length
  · rw [FunctionSummary.arc, getD_eq_getElem _ _ stored]
    exact noFake _ (getElem_mem stored)
  · rw [FunctionSummary.arc, getD_eq_default _ _ (Nat.le_of_not_lt stored)]
    rfl

theorem NoFake.dropped {func : FunctionSummary} (noFake : func.NoFake) (reference : Nat) :
    (func.arc reference).dropped = false := by
  simp only [ArcSummary.dropped, noFake.arc reference, Bool.false_and]

theorem SameGraph.noFake {before after : FunctionSummary} (same : SameGraph before after)
    (noFake : before.NoFake) : after.NoFake := by
  intro arc member
  obtain ⟨position, stored, rfl⟩ := mem_iff_getElem.mp member
  have read : after.arc position = after.arcs[position] := by
    rw [FunctionSummary.arc, getD_eq_getElem _ _ stored]
  rw [← read, same.fake]
  exact noFake.arc position

/-- The worklist is the list of exit arcs without the resolved ones. -/
theorem unresolvedArcs_eq_filter :
    func.unresolvedArcs = func.exitArcs.filter (fun arc => !(func.arc arc).resolved) := by
  simp only [unresolvedArcs, exitArcs, filter_flatMap]

theorem mem_unresolvedArcs (arc : Nat) :
    arc ∈ func.unresolvedArcs ↔ arc ∈ func.exitArcs ∧ (func.arc arc).resolved = false := by
  simp [unresolvedArcs_eq_filter]

theorem mem_exitArcs (arc : Nat) :
    arc ∈ func.exitArcs ↔ ∃ block < func.blocks.length, arc ∈ (func.block block).exitArcs := by
  simp only [exitArcs, mem_flatMap, block]
  constructor
  · rintro ⟨summary, member, listed⟩
    obtain ⟨position, stored, rfl⟩ := mem_iff_getElem.mp member
    exact ⟨position, stored, by rwa [getD_eq_getElem _ _ stored]⟩
  · rintro ⟨position, stored, listed⟩
    rw [getD_eq_getElem _ _ stored] at listed
    exact ⟨_, getElem_mem stored, listed⟩

end

namespace WellFormed

variable {func : FunctionSummary}

section

variable {arc : Nat} (graph : func.WellFormed)
include graph

/-- Well-formedness reads only the arcs and the arc lists of the blocks. -/
theorem of_lists {after : FunctionSummary} (arcs : after.arcs = func.arcs)
    (lists : ∀ block, (after.block block).exitArcs = (func.block block).exitArcs ∧
      (after.block block).entryArcs = (func.block block).entryArcs) : after.WellFormed := by
  have heap (arc : Nat) : after.arc arc = func.arc arc := by simp only [FunctionSummary.arc, arcs]
  refine ⟨fun block arc member => ?_, fun arc stored real => ?_, fun block => ?_,
    fun block arc member => ?_, fun arc stored => ?_, fun block => ?_⟩
  · rw [(lists block).1] at member
    rw [arcs, heap]
    exact graph.exitSound block arc member
  · rw [arcs] at stored
    rw [heap] at real
    rw [(lists _).1, heap]
    exact graph.exitComplete arc stored real
  · rw [(lists block).1]
    exact graph.exitNodup block
  · rw [(lists block).2] at member
    rw [arcs, heap]
    exact graph.entrySound block arc member
  · rw [arcs] at stored
    rw [(lists _).2, heap]
    exact graph.entryComplete arc stored
  · rw [(lists block).2]
    exact graph.entryNodup block

theorem exit_stored (listed : arc ∈ func.exitArcs) : arc < func.arcs.length := by
  obtain ⟨block, _, member⟩ := (mem_exitArcs func arc).mp listed
  exact (graph.exitSound block arc member).1

/-- Every arc that is not dropped is an exit arc of a block of the function. -/
theorem exit_listed (stored : arc < func.arcs.length) (real : (func.arc arc).dropped = false) :
    arc ∈ func.exitArcs := by
  have member := graph.exitComplete arc stored real
  refine (mem_exitArcs func arc).mpr ⟨_, ?_, member⟩
  by_contra outside
  rw [FunctionSummary.block, getD_eq_default _ _ (Nat.le_of_not_lt outside)] at member
  exact not_mem_nil member

/-- An arc stands once among all exit arcs: its source block is unique. -/
theorem exitArcs_nodup : func.exitArcs.Nodup := by
  rw [exitArcs, nodup_flatMap]
  constructor
  · intro summary member
    obtain ⟨position, stored, rfl⟩ := mem_iff_getElem.mp member
    have unique := graph.exitNodup position
    rwa [FunctionSummary.block, getD_eq_getElem _ _ stored] at unique
  · rw [pairwise_iff_getElem]
    intro first second firstStored secondStored before arc left right
    have fromFirst := (graph.exitSound first arc (by
      rwa [FunctionSummary.block, getD_eq_getElem _ _ firstStored])).2
    have fromSecond := (graph.exitSound second arc (by
      rwa [FunctionSummary.block, getD_eq_getElem _ _ secondStored])).2
    omega

theorem unresolvedArcs_nodup : func.unresolvedArcs.Nodup := by
  rw [unresolvedArcs_eq_filter]
  exact graph.exitArcs_nodup.filter _

end

end WellFormed

end FunctionSummary

namespace ArcSummary

open FunctionSummary

section

variable (func : FunctionSummary) (self : Nat)

/-- What one attempt can do: drop a fake arc, resolve at the source, resolve at
the target, or fail without a change. -/
theorem resolve_cases :
    ((func.arc self).dropped = true ∧
      resolve func self = (true, func.setBlock (func.arc self).srcBlock
        { func.block (func.arc self).srcBlock with
          exitArcs := (func.block (func.arc self).srcBlock).exitArcs.erase self })) ∨
    ((func.arc self).dropped = false ∧ resolvesAtSource func self = true ∧
      resolve func self = (true, func.setArc self { func.arc self with
        count := func.sumCounts (func.block (func.arc self).srcBlock).entryArcs -
          func.sumCounts ((func.block (func.arc self).srcBlock).exitArcs.filter (· != self))
        resolved := true })) ∨
    ((func.arc self).dropped = false ∧ resolvesAtTarget func self = true ∧
      resolve func self = (true, func.setArc self { func.arc self with
        count := func.sumCounts (func.block (func.arc self).dstBlock).exitArcs -
          func.sumCounts ((func.block (func.arc self).dstBlock).entryArcs.filter (· != self))
        resolved := true })) ∨
    ((func.arc self).dropped = false ∧ resolvesAtSource func self = false ∧
      resolvesAtTarget func self = false ∧ resolve func self = (false, func)) := by
  cases drops : (func.arc self).dropped with
  | true => exact .inl ⟨rfl, by simp only [resolve, drops, if_true]⟩
  | false =>
    cases source : resolvesAtSource func self with
    | true => exact .inr (.inl ⟨rfl, rfl, by simp [resolve, drops, source]⟩)
    | false =>
      cases target : resolvesAtTarget func self with
      | true => exact .inr (.inr (.inl ⟨rfl, rfl, by simp [resolve, drops, source, target]⟩))
      | false => exact .inr (.inr (.inr ⟨rfl, rfl, rfl, by simp [resolve, drops, source, target]⟩))

/-- Without fake arcs an attempt succeeds exactly when one of the two balance
branches applies. -/
theorem resolve_succeeds_iff (real : (func.arc self).dropped = false) :
    (resolve func self).1 = true ↔
      resolvesAtSource func self = true ∨ resolvesAtTarget func self = true := by
  rcases resolve_cases func self with ⟨drops, _⟩ | ⟨_, source, equal⟩ | ⟨_, target, equal⟩ |
      ⟨_, source, target, equal⟩
  · rw [real] at drops
    cases drops
  · simp [equal, source]
  · simp [equal, target]
  · simp [equal, source, target]

/-- Without fake arcs a successful attempt writes one count and one mark. -/
theorem resolve_success (real : (func.arc self).dropped = false)
    (succeeded : (resolve func self).1 = true) :
    ∃ count, resolve func self =
      (true, func.setArc self { func.arc self with count, resolved := true }) := by
  rcases resolve_cases func self with ⟨drops, _⟩ | ⟨_, _, equal⟩ | ⟨_, _, equal⟩ | ⟨_, _, _, equal⟩
  · rw [real] at drops
    cases drops
  · exact ⟨_, equal⟩
  · exact ⟨_, equal⟩
  · rw [equal] at succeeded
    cases succeeded

/-- A failed attempt changes nothing. -/
theorem resolve_failure (failed : (resolve func self).1 = false) :
    resolve func self = (false, func) := by
  rcases resolve_cases func self with ⟨_, equal⟩ | ⟨_, _, equal⟩ | ⟨_, _, equal⟩ | ⟨_, _, _, equal⟩
  · rw [equal] at failed
    cases failed
  · rw [equal] at failed
    cases failed
  · rw [equal] at failed
    cases failed
  · exact equal

end

end ArcSummary

end Vts.Coverage
