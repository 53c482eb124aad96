import Mathlib.Algebra.BigOperators.Group.List.Lemmas
import Vts.Coverage.Completeness

/-!
# Resolved counts are the counts of the flow

`ArcSummary.Resolve` computes a missing count from the balance of one block. If an
assignment of counts balances every block, and the arcs resolved beforehand carry
its values, then every count the worklist loop writes is the assigned one. The
invariant is stated for graphs with fake arcs too: such an arc leaves the exit
list of its source when it is tried, is never given a count, and blocks the
balance of its destination.
-/

namespace Vts.Coverage

open List

namespace FunctionSummary

/-- A later state of a function: counts, marks and block counts may differ, and
exit lists may have lost arcs that are dropped, but nothing else. -/
structure Evolves (before after : FunctionSummary) : Prop where
  ident : after.ident = before.ident
  name : after.name = before.name
  srcFileName : after.srcFileName = before.srcFileName
  firstLineNumber : after.firstLineNumber = before.firstLineNumber
  blocksLength : after.blocks.length = before.blocks.length
  lines : ∀ block, (after.block block).lines = (before.block block).lines
  entryArcs : ∀ block, (after.block block).entryArcs = (before.block block).entryArcs
  exitSublist : ∀ block, (after.block block).exitArcs.Sublist (before.block block).exitArcs
  exitKept : ∀ block arc, arc ∈ (before.block block).exitArcs →
    (before.arc arc).dropped = false → arc ∈ (after.block block).exitArcs
  length : after.arcs.length = before.arcs.length
  srcBlock : ∀ arc, (after.arc arc).srcBlock = (before.arc arc).srcBlock
  dstBlock : ∀ arc, (after.arc arc).dstBlock = (before.arc arc).dstBlock
  onTree : ∀ arc, (after.arc arc).onTree = (before.arc arc).onTree
  fake : ∀ arc, (after.arc arc).fake = (before.arc arc).fake
  fallthrough : ∀ arc, (after.arc arc).fallthrough = (before.arc arc).fallthrough

namespace Evolves

theorem refl (func : FunctionSummary) : Evolves func func :=
  ⟨rfl, rfl, rfl, rfl, rfl, fun _ => rfl, fun _ => rfl, fun _ => List.Sublist.refl _,
    fun _ _ member _ => member, rfl, fun _ => rfl, fun _ => rfl, fun _ => rfl, fun _ => rfl,
    fun _ => rfl⟩

variable {before middle after : FunctionSummary}

theorem dropped (evolves : Evolves before after) (arc : Nat) :
    (after.arc arc).dropped = (before.arc arc).dropped := by
  simp only [ArcSummary.dropped, evolves.fake, evolves.fallthrough]

theorem trans (left : Evolves before middle) (right : Evolves middle after) :
    Evolves before after where
  ident := right.ident.trans left.ident
  name := right.name.trans left.name
  srcFileName := right.srcFileName.trans left.srcFileName
  firstLineNumber := right.firstLineNumber.trans left.firstLineNumber
  blocksLength := right.blocksLength.trans left.blocksLength
  lines block := (right.lines block).trans (left.lines block)
  entryArcs block := (right.entryArcs block).trans (left.entryArcs block)
  exitSublist block := (right.exitSublist block).trans (left.exitSublist block)
  exitKept block arc member real := right.exitKept block arc
    (left.exitKept block arc member real) (by rwa [left.dropped])
  length := right.length.trans left.length
  srcBlock arc := (right.srcBlock arc).trans (left.srcBlock arc)
  dstBlock arc := (right.dstBlock arc).trans (left.dstBlock arc)
  onTree arc := (right.onTree arc).trans (left.onTree arc)
  fake arc := (right.fake arc).trans (left.fake arc)
  fallthrough arc := (right.fallthrough arc).trans (left.fallthrough arc)

theorem wellFormed (evolves : Evolves before after) (graph : before.WellFormed) :
    after.WellFormed where
  exitSound block arc member := by
    rw [evolves.length, evolves.srcBlock]
    exact graph.exitSound block arc ((evolves.exitSublist block).subset member)
  exitComplete arc stored real := by
    rw [evolves.length] at stored
    rw [evolves.dropped] at real
    rw [evolves.srcBlock]
    exact evolves.exitKept _ arc (graph.exitComplete arc stored real) real
  exitNodup block := (graph.exitNodup block).sublist (evolves.exitSublist block)
  entrySound block arc member := by
    rw [evolves.entryArcs] at member
    rw [evolves.length, evolves.dstBlock]
    exact graph.entrySound block arc member
  entryComplete arc stored := by
    rw [evolves.length] at stored
    rw [evolves.dstBlock, evolves.entryArcs]
    exact graph.entryComplete arc stored
  entryNodup block := by rw [evolves.entryArcs]; exact graph.entryNodup block

end Evolves

section

variable (func : FunctionSummary) (self : Nat)

theorem setArc_evolves (count : Int) (resolved : Bool) :
    Evolves func (func.setArc self { func.arc self with count, resolved }) := by
  have same := setArc_sameGraph func self count resolved
  exact ⟨rfl, rfl, rfl, rfl, rfl, fun _ => rfl, fun _ => rfl, fun _ => List.Sublist.refl _,
    fun _ _ member _ => member, same.length, same.srcBlock, same.dstBlock, same.onTree, same.fake,
    same.fallthrough⟩

theorem dropArc_evolves (drops : (func.arc self).dropped = true) (block : Nat) :
    Evolves func (func.setBlock block
      { func.block block with exitArcs := (func.block block).exitArcs.erase self }) := by
  by_cases stored : block < func.blocks.length
  · refine ⟨rfl, rfl, rfl, rfl, by simp [setBlock], fun other => ?_, fun other => ?_,
      fun other => ?_, fun other arc member real => ?_, rfl, fun _ => rfl, fun _ => rfl,
      fun _ => rfl, fun _ => rfl, fun _ => rfl⟩
    all_goals rw [setBlock_block func block other _ stored]
    all_goals by_cases same : other = block
    all_goals simp only [same, if_true, if_false]
    · exact erase_sublist
    · exact List.Sublist.refl _
    · rw [same] at member
      refine (mem_erase_of_ne ?_).mpr member
      rintro rfl
      rw [real] at drops
      cases drops
    · exact member
  · have unchanged : func.setBlock block
        { func.block block with exitArcs := (func.block block).exitArcs.erase self } = func := by
      simp only [setBlock, set_eq_of_length_le (Nat.le_of_not_lt stored)]
    rw [unchanged]
    exact Evolves.refl func

/-- Every attempt, on any graph, leads to a later state of the function. -/
theorem resolve_evolves (arc : Nat) : Evolves func (ArcSummary.resolve func arc).2 := by
  rcases ArcSummary.resolve_cases func arc with ⟨drops, equal⟩ | ⟨_, _, equal⟩ | ⟨_, _, equal⟩ |
      ⟨_, _, _, equal⟩
  all_goals rw [equal]
  · exact dropArc_evolves func arc drops _
  · exact setArc_evolves func arc _ true
  · exact setArc_evolves func arc _ true
  · exact Evolves.refl func

/-- A property that every attempt at a listed arc preserves holds where the loop
returns. The worklist only ever loses arcs. -/
theorem resolveLoop_preserves (property : FunctionSummary → Prop) (arcs : List Nat)
    (step : ∀ func, ∀ arc ∈ arcs, property func → property (ArcSummary.resolve func arc).2)
    (fuel index prevLength : Nat) (unresolved : List Nat) (func : FunctionSummary)
    (result : Bool × FunctionSummary) (listed : ∀ arc ∈ unresolved, arc ∈ arcs)
    (holds : property func)
    (returned : resolveLoop fuel index prevLength unresolved func = some result) :
    property result.2 := by
  induction fuel generalizing index prevLength unresolved func with
  | zero => simp [resolveLoop] at returned
  | succ fuel ih =>
    unfold resolveLoop at returned
    by_cases empty : unresolved.length = 0
    · rw [if_pos empty] at returned
      exact Option.some.inj returned ▸ holds
    by_cases stop : index % unresolved.length = 0 ∧ unresolved.length = prevLength
    · rw [if_neg empty, if_pos stop] at returned
      exact Option.some.inj returned ▸ holds
    rw [if_neg empty, if_neg stop] at returned
    have position : index % unresolved.length < unresolved.length := Nat.mod_lt _ (by omega)
    have member : unresolved.getD (index % unresolved.length) 0 ∈ unresolved := by
      rw [getD_eq_getElem _ _ position]
      exact getElem_mem position
    have next := step func _ (listed _ member) holds
    simp only at returned
    split at returned
    · exact ih _ _ _ _
        (fun arc remaining => listed arc (mem_of_mem_erase remaining)) next returned
    · exact ih _ _ _ _ listed next returned

/-! ## Returning True -/

/-- After a success the tried arc is no unresolved exit arc any more, and no other
arc has become one. -/
theorem resolve_shrinks (graph : func.WellFormed) (self : Nat)
    (succeeded : (ArcSummary.resolve func self).1 = true) (stored : self < func.arcs.length)
    (arc : Nat) (pending : arc ∈ (ArcSummary.resolve func self).2.unresolvedArcs) :
    arc ≠ self ∧ arc ∈ func.unresolvedArcs := by
  rcases ArcSummary.resolve_cases func self with ⟨drops, equal⟩ | other
  · rw [equal] at pending
    obtain ⟨listed, unmarked⟩ := (mem_unresolvedArcs _ arc).mp pending
    have evolves := dropArc_evolves func self drops (func.arc self).srcBlock
    obtain ⟨block, inside, member⟩ := (mem_exitArcs _ arc).mp listed
    rw [evolves.blocksLength] at inside
    have before := (evolves.exitSublist block).subset member
    refine ⟨?_, (mem_unresolvedArcs func arc).mpr
      ⟨(mem_exitArcs func arc).mpr ⟨block, inside, before⟩, unmarked⟩⟩
    rintro rfl
    have source := (graph.exitSound block arc before).2
    subst source
    rw [setBlock_block func _ _ _ inside, if_pos rfl] at member
    exact (List.Nodup.mem_erase_iff (graph.exitNodup _)).mp member |>.1 rfl
  · have real : (func.arc self).dropped = false := by
      rcases other with ⟨real, _⟩ | ⟨real, _⟩ | ⟨real, _⟩ <;> exact real
    obtain ⟨count, equal⟩ := ArcSummary.resolve_success func self real succeeded
    rw [equal] at pending
    obtain ⟨listed, unmarked⟩ := (mem_unresolvedArcs _ arc).mp pending
    rw [setArc_arc func self arc _ stored] at unmarked
    by_cases same : arc = self
    · simp [same] at unmarked
    · rw [if_neg same] at unmarked
      exact ⟨same, (mem_unresolvedArcs func arc).mpr ⟨listed, unmarked⟩⟩

/-- The loop returns True only when no exit arc is unresolved. -/
theorem resolveLoop_true (fuel index prevLength : Nat) (unresolved : List Nat)
    (func : FunctionSummary) (result : FunctionSummary) (graph : func.WellFormed)
    (stored : ∀ arc ∈ unresolved, arc < func.arcs.length)
    (covered : ∀ arc ∈ func.unresolvedArcs, arc ∈ unresolved)
    (returned : resolveLoop fuel index prevLength unresolved func = some (true, result)) :
    result.unresolvedArcs = [] := by
  induction fuel generalizing index prevLength unresolved func with
  | zero => simp [resolveLoop] at returned
  | succ fuel ih =>
    unfold resolveLoop at returned
    by_cases empty : unresolved.length = 0
    · rw [if_pos empty] at returned
      obtain rfl : func = result := by simpa using returned
      rw [eq_nil_of_length_eq_zero empty] at covered
      exact eq_nil_iff_forall_not_mem.mpr fun arc member =>
        not_mem_nil (covered arc member)
    by_cases stop : index % unresolved.length = 0 ∧ unresolved.length = prevLength
    · rw [if_neg empty, if_pos stop] at returned
      simp at returned
    rw [if_neg empty, if_neg stop] at returned
    have position : index % unresolved.length < unresolved.length := Nat.mod_lt _ (by omega)
    have member : unresolved.getD (index % unresolved.length) 0 ∈ unresolved := by
      rw [getD_eq_getElem _ _ position]
      exact getElem_mem position
    simp only at returned
    generalize unresolved.getD (index % unresolved.length) 0 = self at member returned
    have evolves := resolve_evolves func self
    split at returned
    · next succeeded =>
      refine ih _ _ _ _ (evolves.wellFormed graph) ?_ ?_ returned
      · intro arc remaining
        rw [evolves.length]
        exact stored arc (mem_of_mem_erase remaining)
      · intro arc pending
        obtain ⟨distinct, before⟩ :=
          resolve_shrinks func graph self succeeded (stored self member) arc pending
        exact (mem_erase_of_ne distinct).mpr (covered arc before)
    · next failed =>
      rw [ArcSummary.resolve_failure func self (by simpa using failed)] at returned
      exact ih _ _ _ _ graph stored covered returned

theorem resolveArcs_true (graph : func.WellFormed) (returned : (resolveArcs func).1 = true) :
    (resolveArcs func).2.unresolvedArcs = [] := by
  apply resolveLoop_true _ _ _ _ func _ graph
    (fun arc member => graph.exit_stored ((mem_unresolvedArcs func arc).mp member).1)
    (fun arc member => member)
  rw [resolveArcs_eq func, ← returned]

theorem resolveArcs_evolves : Evolves func (resolveArcs func).2 :=
  resolveLoop_preserves (Evolves func) func.unresolvedArcs
    (fun current arc _ evolves => evolves.trans (resolve_evolves current arc)) _ _ _ _ func _
    (fun _ member => member) (Evolves.refl func) (resolveArcs_eq func)

/-! ## The balance of a flow -/

/-- The exit arcs that take part in the balance of a block. -/
def realExits (func : FunctionSummary) (block : Nat) : List Nat :=
  (func.block block).exitArcs.filter (fun arc => !(func.arc arc).dropped)

/-- A flow balances a block that has entries and exits, none of the entries fake. -/
def BalancedAt (func : FunctionSummary) (flow : Nat → Int) (block : Nat) : Prop :=
  (func.block block).entryArcs ≠ [] → func.realExits block ≠ [] →
    (∀ arc ∈ (func.block block).entryArcs, (func.arc arc).dropped = false) →
    ((func.block block).entryArcs.map flow).sum = ((func.realExits block).map flow).sum

/-- The states of a resolution that follow the flow: resolved arcs carry its
values and arcs that are dropped are as they were. -/
structure Carries (flow : Nat → Int) (origin func : FunctionSummary) : Prop where
  evolves : Evolves origin func
  counts : ∀ arc < origin.arcs.length, (func.arc arc).resolved = true →
    (func.arc arc).count = flow arc
  drops : ∀ arc, (origin.arc arc).dropped = true → func.arc arc = origin.arc arc

/-- Removing one arc from a list without repetitions removes its summand. -/
theorem sum_without (flow : Nat → Int) (arcs : List Nat) (self : Nat) (unique : arcs.Nodup)
    (member : self ∈ arcs) :
    (arcs.map flow).sum - ((arcs.filter (· != self)).map flow).sum = flow self := by
  rw [← unique.erase_eq_filter, ← sum_map_erase flow member]
  ring

end

/-- The only part of a list that keeps all real arcs and nothing else is its
filtered part. -/
theorem sublist_eq_filter {kept arcs : List Nat} {real : Nat → Bool} (part : kept.Sublist arcs)
    (unique : arcs.Nodup) (only : ∀ arc ∈ kept, real arc = true)
    (all : ∀ arc ∈ arcs, real arc = true → arc ∈ kept) : kept = arcs.filter real := by
  have sublist : kept.Sublist (arcs.filter real) := by
    have filtered := part.filter real
    rwa [filter_eq_self.mpr only] at filtered
  apply sublist.eq_of_length_le
  apply (unique.filter real).length_le_of_subset
  intro arc member
  obtain ⟨listed, isReal⟩ := mem_filter.mp member
  exact all arc listed isReal

section Soundness

variable {flow : Nat → Int} {origin func : FunctionSummary}

section

variable (carries : Carries flow origin func)
include carries

/-- Where the loop finds all arcs of a list resolved, the list has only real arcs
and its counts are the flow's. -/
theorem Carries.resolved_list
    (unmarked : ∀ arc, (origin.arc arc).dropped = true → (origin.arc arc).resolved = false)
    {arcs : List Nat} (stored : ∀ arc ∈ arcs, arc < origin.arcs.length)
    (resolved : func.allResolved arcs = true) :
    (∀ arc ∈ arcs, (origin.arc arc).dropped = false) ∧
      func.sumCounts arcs = (arcs.map flow).sum := by
  have each : ∀ arc ∈ arcs, (func.arc arc).resolved = true := by
    simpa only [allResolved, all_eq_true] using resolved
  constructor
  · intro arc member
    by_contra fake
    have drops : (origin.arc arc).dropped = true := by simpa using fake
    have marked := each arc member
    rw [carries.drops arc drops, unmarked arc drops] at marked
    cases marked
  · rw [sumCounts]
    congr 1
    exact map_congr_left fun arc member =>
      carries.counts arc (stored arc member) (each arc member)

/-- A block whose remaining exits are all real has exactly the real exits left. -/
theorem Carries.exits_eq (graph : origin.WellFormed) (block : Nat)
    (only : ∀ arc ∈ (func.block block).exitArcs, (origin.arc arc).dropped = false) :
    (func.block block).exitArcs = origin.realExits block := by
  apply sublist_eq_filter (carries.evolves.exitSublist block) (graph.exitNodup block)
  · intro arc member
    simp [only arc member]
  · intro arc member real
    exact carries.evolves.exitKept block arc member (by simpa using real)

/-- Writing the flow of an arc that takes part in the balance follows the flow. -/
theorem Carries.write {self : Nat} (stored : self < origin.arcs.length)
    (real : (origin.arc self).dropped = false) {count : Int} (value : count = flow self)
    (result : (ArcSummary.resolve func self).2 =
      func.setArc self { func.arc self with count, resolved := true }) :
    Carries flow origin (ArcSummary.resolve func self).2 := by
  have inHeap : self < func.arcs.length := by rwa [carries.evolves.length]
  refine ⟨carries.evolves.trans (resolve_evolves func self), fun arc inside marked => ?_,
    fun arc drops => ?_⟩
  · rw [result, setArc_arc func self arc _ inHeap] at marked ⊢
    by_cases same : arc = self
    · simp only [same, if_true]
      exact value
    · rw [if_neg same] at marked ⊢
      exact carries.counts arc inside marked
  · have distinct : arc ≠ self := by
      rintro rfl
      rw [real] at drops
      cases drops
    rw [result, setArc_arc func self arc _ inHeap, if_neg distinct]
    exact carries.drops arc drops

end

section

variable {self : Nat} (carries : Carries flow origin func) (graph : origin.WellFormed)
  (unmarked : ∀ arc, (origin.arc arc).dropped = true → (origin.arc arc).resolved = false)
  (stored : self < origin.arcs.length)
include carries graph unmarked stored

/-- At the source the entries and the other exits are resolved, hence real, hence
carry the flow; the balance leaves the flow of the tried arc. -/
theorem Carries.source_value (real : (origin.arc self).dropped = false)
    (balanced : origin.BalancedAt flow (origin.arc self).srcBlock)
    (source : ArcSummary.resolvesAtSource func self = true) :
    func.sumCounts (func.block (func.arc self).srcBlock).entryArcs -
      func.sumCounts ((func.block (func.arc self).srcBlock).exitArcs.filter (· != self)) =
        flow self := by
  have current := carries.evolves.wellFormed graph
  have listed : self ∈ (func.block (func.arc self).srcBlock).exitArcs :=
    current.exitComplete self (by rwa [carries.evolves.length])
      (by rwa [carries.evolves.dropped])
  simp only [ArcSummary.resolvesAtSource, Bool.and_eq_true, decide_eq_true_eq] at source
  obtain ⟨⟨entries, entriesResolved⟩, exitsResolved⟩ := source
  obtain ⟨entriesReal, inFlow⟩ := carries.resolved_list unmarked (fun arc member => by
    rw [← carries.evolves.length]
    exact (current.entrySound _ arc member).1) entriesResolved
  obtain ⟨othersReal, outFlow⟩ := carries.resolved_list unmarked (fun arc member => by
    rw [← carries.evolves.length]
    exact (current.exitSound _ arc (mem_filter.mp member).1).1) exitsResolved
  have exits := carries.exits_eq graph (func.arc self).srcBlock (fun arc member => by
    by_cases same : arc = self
    · rwa [same]
    · exact othersReal arc (mem_filter.mpr ⟨member, by simpa using same⟩))
  rw [inFlow, outFlow]
  rw [carries.evolves.srcBlock] at exits listed entries entriesReal ⊢
  rw [carries.evolves.entryArcs] at entries entriesReal ⊢
  rw [balanced (length_pos_iff.mp entries) (ne_nil_of_mem (exits ▸ listed)) entriesReal,
    ← exits]
  exact sum_without flow _ self (current.exitNodup _) listed

/-- The target is the mirror image of the source. -/
theorem Carries.target_value (real : (origin.arc self).dropped = false)
    (balanced : origin.BalancedAt flow (origin.arc self).dstBlock)
    (target : ArcSummary.resolvesAtTarget func self = true) :
    func.sumCounts (func.block (func.arc self).dstBlock).exitArcs -
      func.sumCounts ((func.block (func.arc self).dstBlock).entryArcs.filter (· != self)) =
        flow self := by
  have current := carries.evolves.wellFormed graph
  have listed := current.entryComplete self (by rwa [carries.evolves.length])
  simp only [ArcSummary.resolvesAtTarget, Bool.and_eq_true, decide_eq_true_eq] at target
  obtain ⟨⟨someExit, exitsResolved⟩, entriesResolved⟩ := target
  obtain ⟨exitsReal, outFlow⟩ := carries.resolved_list unmarked (fun arc member => by
    rw [← carries.evolves.length]
    exact (current.exitSound _ arc member).1) exitsResolved
  obtain ⟨othersReal, inFlow⟩ := carries.resolved_list unmarked (fun arc member => by
    rw [← carries.evolves.length]
    exact (current.entrySound _ arc (mem_filter.mp member).1).1) entriesResolved
  have exits := carries.exits_eq graph (func.arc self).dstBlock exitsReal
  rw [inFlow, outFlow, exits]
  rw [exits] at someExit
  rw [carries.evolves.dstBlock] at listed someExit othersReal ⊢
  have entriesReal : ∀ arc ∈ (origin.block (origin.arc self).dstBlock).entryArcs,
      (origin.arc arc).dropped = false := by
    intro arc member
    by_cases same : arc = self
    · rwa [same]
    · rw [← carries.evolves.entryArcs] at member
      exact othersReal arc (mem_filter.mpr ⟨member, by simpa using same⟩)
  have entryUnique := current.entryNodup (origin.arc self).dstBlock
  rw [carries.evolves.entryArcs] at listed entryUnique ⊢
  rw [← balanced (ne_nil_of_mem listed) (length_pos_iff.mp someExit) entriesReal]
  exact sum_without flow _ self entryUnique listed

/-- One attempt at an arc whose two blocks are balanced follows the flow. -/
theorem Carries.attempt (balanced : (origin.arc self).dropped = false →
      origin.BalancedAt flow (origin.arc self).srcBlock ∧
        origin.BalancedAt flow (origin.arc self).dstBlock) :
    Carries flow origin (ArcSummary.resolve func self).2 := by
  rcases ArcSummary.resolve_cases func self with ⟨_, equal⟩ | ⟨real, source, equal⟩ |
      ⟨real, target, equal⟩ | ⟨_, _, _, equal⟩
  · refine ⟨carries.evolves.trans (resolve_evolves func self), ?_, ?_⟩ <;> rw [equal]
    · exact carries.counts
    · exact carries.drops
  · rw [carries.evolves.dropped] at real
    have value := carries.source_value graph unmarked stored real (balanced real).1 source
    exact carries.write stored real value (by rw [equal])
  · rw [carries.evolves.dropped] at real
    have value := carries.target_value graph unmarked stored real (balanced real).2 target
    exact carries.write stored real value (by rw [equal])
  · rw [equal]
    exact carries

end

/-- The whole loop follows a flow that balances the blocks of every arc in its
worklist. -/
theorem resolveArcs_carries (graph : origin.WellFormed)
    (unmarked : ∀ arc, (origin.arc arc).dropped = true → (origin.arc arc).resolved = false)
    (agrees : ∀ arc < origin.arcs.length, (origin.arc arc).resolved = true →
      (origin.arc arc).count = flow arc)
    (balanced : ∀ arc ∈ origin.unresolvedArcs, (origin.arc arc).dropped = false →
      origin.BalancedAt flow (origin.arc arc).srcBlock ∧
        origin.BalancedAt flow (origin.arc arc).dstBlock) :
    Carries flow origin (resolveArcs origin).2 :=
  resolveLoop_preserves (Carries flow origin) origin.unresolvedArcs
    (fun _ arc member carries => carries.attempt graph unmarked
      (graph.exit_stored ((mem_unresolvedArcs origin arc).mp member).1) (balanced arc member))
    _ _ _ _ origin _ (fun _ member => member)
    ⟨Evolves.refl origin, agrees, fun _ _ => rfl⟩ (resolveArcs_eq origin)

/-- A loop that returns True has resolved every arc that is not dropped, with the
count of the flow. -/
theorem resolveArcs_sound (graph : origin.WellFormed)
    (carries : Carries flow origin (resolveArcs origin).2)
    (returned : (resolveArcs origin).1 = true) {arc : Nat} (stored : arc < origin.arcs.length)
    (real : (origin.arc arc).dropped = false) :
    ((resolveArcs origin).2.arc arc).resolved = true ∧
      ((resolveArcs origin).2.arc arc).count = flow arc := by
  have evolves := carries.evolves
  have listed := (evolves.wellFormed graph).exit_listed (by rwa [evolves.length])
    (by rwa [evolves.dropped])
  have marked : ((resolveArcs origin).2.arc arc).resolved = true := by
    by_contra unmarked
    have pending : arc ∈ (resolveArcs origin).2.unresolvedArcs :=
      (mem_unresolvedArcs _ arc).mpr ⟨listed, by simpa using unmarked⟩
    rw [resolveArcs_true origin graph returned] at pending
    exact absurd pending not_mem_nil
  exact ⟨marked, carries.counts arc stored marked⟩

end Soundness

/-- The block counts written after a successful loop. -/
theorem resolveBlocks_block (func : FunctionSummary) {block : Nat}
    (stored : block < func.blocks.length) :
    func.resolveBlocks.block block = { func.block block with
      count := if (func.block block).entryArcs.length ≠ 0
        then func.sumCounts (func.block block).entryArcs
        else func.sumCounts (func.block block).exitArcs } := by
  simp [FunctionSummary.block, resolveBlocks, stored]

theorem resolve_of_true (func : FunctionSummary) (returned : func.resolve.1 = true) :
    func.resolve.2 = (resolveArcs func).2.resolveBlocks := by
  rw [resolve_fst] at returned
  simp [resolve, returned]

/-- `FunctionSummary.Resolve` is sound: on a graph without fake arcs, any flow
that the blocks conserve and the given arcs carry is the flow of all arcs after
a return of True, and each block counts the flow through it. -/
theorem resolve_sound (func : FunctionSummary) (graph : func.WellFormed) (noFake : func.NoFake)
    (flow : Nat → Int)
    (conserved : ∀ block < func.blocks.length, (func.block block).entryArcs ≠ [] →
      (func.block block).exitArcs ≠ [] →
      ((func.block block).entryArcs.map flow).sum = ((func.block block).exitArcs.map flow).sum)
    (agrees : ∀ arc < func.arcs.length, (func.arc arc).resolved = true →
      (func.arc arc).count = flow arc)
    (returned : func.resolve.1 = true) :
    (∀ arc < func.arcs.length, (func.resolve.2.arc arc).resolved = true ∧
      (func.resolve.2.arc arc).count = flow arc) ∧
    ∀ block < func.blocks.length, (func.resolve.2.block block).count =
      if (func.block block).entryArcs ≠ [] then ((func.block block).entryArcs.map flow).sum
      else ((func.block block).exitArcs.map flow).sum := by
  have realExits (block : Nat) : func.realExits block = (func.block block).exitArcs := by
    apply filter_eq_self.mpr
    intro arc _
    simp [noFake.dropped arc]
  have balanced (block : Nat) : func.BalancedAt flow block := by
    intro entries exits _
    rw [realExits] at exits ⊢
    by_cases inside : block < func.blocks.length
    · exact conserved block inside entries exits
    · rw [block_of_length_le func (Nat.le_of_not_lt inside)] at entries
      exact absurd rfl entries
  have carries := resolveArcs_carries graph
    (fun arc drops => absurd drops (by simp [noFake.dropped arc])) agrees
    (fun arc _ _ => ⟨balanced _, balanced _⟩)
  have loopTrue : (resolveArcs func).1 = true := by rwa [← resolve_fst]
  have counts : ∀ arc < func.arcs.length, ((resolveArcs func).2.arc arc).resolved = true ∧
      ((resolveArcs func).2.arc arc).count = flow arc := fun arc stored =>
    resolveArcs_sound graph carries loopTrue stored (noFake.dropped arc)
  have sums (arcs : List Nat) (stored : ∀ arc ∈ arcs, arc < func.arcs.length) :
      (resolveArcs func).2.sumCounts arcs = (arcs.map flow).sum := by
    rw [sumCounts]
    congr 1
    exact map_congr_left fun arc member => (counts arc (stored arc member)).2
  rw [resolve_of_true func returned]
  refine ⟨counts, fun block inside => ?_⟩
  have exits : ((resolveArcs func).2.block block).exitArcs = (func.block block).exitArcs := by
    rw [← realExits block]
    exact carries.exits_eq graph block (fun arc _ => noFake.dropped arc)
  rw [resolveBlocks_block _ (by rwa [carries.evolves.blocksLength]), exits,
    carries.evolves.entryArcs]
  simp only [ne_eq, length_eq_zero_iff]
  rw [sums _ (fun arc member => (graph.entrySound block arc member).1),
    sums _ (fun arc member => (graph.exitSound block arc member).1)]

/-- A loop: the entry arc and the arc back are counted, the arcs into the loop body
and out of it are on the tree. -/
def loopOfBlocks : FunctionSummary where
  blocks := [⟨0, 0, [], [0], 0, []⟩, ⟨1, 0, [0, 2], [1, 3], 0, [7]⟩, ⟨2, 0, [1], [2], 0, [8]⟩,
    ⟨3, 0, [3], [], 0, [9]⟩]
  ident := 1
  name := []
  srcFileName := []
  firstLineNumber := 6
  arcs := [⟨0, 1, false, false, false, true, 1⟩, ⟨1, 2, true, false, false, false, 0⟩,
    ⟨2, 1, false, false, false, true, 4⟩, ⟨1, 3, true, false, false, false, 0⟩]

/-- Four turns of the loop. -/
def loopFlow (arc : Nat) : Int := [1, 4, 4, 1].getD arc 0

/-- The arcs on the tree get the flow of four turns and the head counts five visits. -/
theorem loop_resolves :
    loopOfBlocks.resolve.1 = true ∧
      (∀ arc < 4, (loopOfBlocks.resolve.2.arc arc).count = loopFlow arc) ∧
      (loopOfBlocks.resolve.2.block 1).count = 5 := by
  have sound := resolve_sound loopOfBlocks (by decide) (by decide) loopFlow (by decide) (by decide)
    (by decide)
  exact ⟨by decide, fun arc stored => (sound.1 arc stored).2, sound.2 1 (by decide)⟩

end FunctionSummary

end Vts.Coverage
