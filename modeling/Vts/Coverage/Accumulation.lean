import Vts.Coverage.ByteOrder
import Vts.Coverage.Report

/-!
# Several GCDA files for one summary

`_AutoProcess` parses every GCDA file of a build into the one summary that the GCNO
parser caches, and adds the block counts to one dictionary after each file. Arcs on
the tree are only computed while they are unresolved, and functions without
counters in a file keep their block counts. So the second file finds the counts of
the first.

The counts are right as long as this does no harm. `StepsMeet` states it for each
file and the summary before it: a function without counters in the file has no
counts that would be added again, and a function with counters has either not been
resolved before or its old counts balance the new counters.
-/

namespace Vts.Coverage

open Lib Lib.WordCodec List FunctionSummary FileSummary
open Python (Exception)

namespace FunctionSummary

/-! ## Stored counters -/

theorem setCounts_arc (pairs : List (Nat × Nat)) (func : FunctionSummary) (arc : Nat)
    (unique : (pairs.map Prod.fst).Nodup) (stored : ∀ pair ∈ pairs, pair.1 < func.arcs.length) :
    (pairs.foldl (fun current pair => current.setCount pair.1 pair.2) func).arc arc =
      match pairs.lookup arc with
      | none => func.arc arc
      | some value => { func.arc arc with count := value, resolved := true } := by
  induction pairs generalizing func with
  | nil => rfl
  | cons pair others ih =>
    obtain ⟨first, value⟩ := pair
    obtain ⟨absent, restUnique⟩ := nodup_cons.mp unique
    have inHeap : first < func.arcs.length := stored (first, value) (by simp)
    have written (other : Nat) : (func.setCount first value).arc other =
        if other = first then { func.arc first with count := value, resolved := true }
        else func.arc other := setArc_arc func first other _ inHeap
    rw [foldl_cons, ih _ restUnique (fun pair member => by
      simpa [setCount] using stored pair (by simp [member])), lookup_cons, written]
    by_cases same : arc = first
    · subst same
      have missing : others.lookup arc = none := by
        rw [lookup_eq_none_iff]
        intro pair member
        simp only [ne_eq, bne_iff_ne]
        rintro rfl
        exact absent (mem_map.mpr ⟨pair, member, rfl⟩)
      simp [missing]
    · have differs : (arc == first) = false := by simpa using same
      simp [differs, same]

section Counters

variable {func : FunctionSummary} {values : List Nat}

/-- The counter a record has for an arc. -/
def counterOf (func : FunctionSummary) (values : List Nat) (arc : Nat) : Option Nat :=
  (func.countedArcs.zip values).lookup arc

theorem countedArcs_nodup (graph : func.WellFormed) : func.countedArcs.Nodup :=
  graph.exitArcs_nodup.filter _

theorem storeCounts_arc (graph : func.WellFormed)
    (length : values.length = func.countedArcs.length) (arc : Nat) :
    (func.storeCounts values).arc arc =
      match func.counterOf values arc with
      | none => func.arc arc
      | some value => { func.arc arc with count := value, resolved := true } := by
  have keys : (func.countedArcs.zip values).map Prod.fst = func.countedArcs :=
    map_fst_zip (by omega)
  apply setCounts_arc
  · rw [keys]
    exact countedArcs_nodup graph
  · intro pair member
    have counted : pair.1 ∈ func.countedArcs := keys ▸ mem_map_of_mem member
    exact graph.exit_stored (mem_filter.mp counted).1

theorem counterOf_eq_none (length : values.length = func.countedArcs.length) (arc : Nat) :
    func.counterOf values arc = none ↔ arc ∉ func.countedArcs := by
  have keys : (func.countedArcs.zip values).map Prod.fst = func.countedArcs :=
    map_fst_zip (by omega)
  have member : arc ∈ func.countedArcs ↔ ∃ pair ∈ func.countedArcs.zip values, pair.1 = arc := by
    rw [← mem_map, keys]
  rw [counterOf, lookup_eq_none_iff, member]
  simp only [not_exists, not_and, bne_iff_ne, ne_eq]
  exact ⟨fun absent pair listed equal => absent pair listed equal.symm,
    fun absent pair listed equal => absent pair listed equal.symm⟩

end Counters

/-! ## Functions that have been resolved -/

/-- A later state of a pristine function in which every arc is resolved or dropped.
The objects of dropped arcs have never been written. -/
structure Settled (origin func : FunctionSummary) : Prop where
  evolves : Evolves origin func
  resolved : func.unresolvedArcs = []
  drops : ∀ arc, (origin.arc arc).dropped = true → func.arc arc = origin.arc arc

section

variable (func : FunctionSummary)

/-- Without unresolved arcs the loop returns at once. -/
theorem resolveArcs_of_resolved (resolved : func.unresolvedArcs = []) :
    resolveArcs func = (true, func) := by
  have returned := resolveArcs_eq func
  rw [resolved] at returned
  exact (Option.some.inj returned).symm

/-- No attempt writes the object of an arc that is dropped. -/
theorem resolveArcs_drops (graph : func.WellFormed) (arc : Nat)
    (drops : (func.arc arc).dropped = true) : (resolveArcs func).2.arc arc = func.arc arc := by
  have step (current : FunctionSummary) (tried : Nat) (listed : tried ∈ func.unresolvedArcs)
      (kept : Evolves func current ∧ current.arc arc = func.arc arc) :
      Evolves func (ArcSummary.resolve current tried).2 ∧
        (ArcSummary.resolve current tried).2.arc arc = func.arc arc := by
    obtain ⟨evolves, same⟩ := kept
    refine ⟨evolves.trans (resolve_evolves current tried), ?_⟩
    have stored : tried < current.arcs.length := by
      rw [evolves.length]
      exact graph.exit_stored ((mem_unresolvedArcs func tried).mp listed).1
    have writes (real : (current.arc tried).dropped = false) (value : ArcSummary) :
        (current.setArc tried value).arc arc = func.arc arc := by
      have distinct : arc ≠ tried := by
        rintro rfl
        rw [evolves.dropped, drops] at real
        cases real
      rw [setArc_arc current tried arc value stored, if_neg distinct, same]
    rcases ArcSummary.resolve_cases current tried with ⟨_, equal⟩ | ⟨real, _, equal⟩ |
        ⟨real, _, equal⟩ | ⟨_, _, _, equal⟩
    all_goals rw [equal]
    · exact same
    · exact writes real _
    · exact writes real _
    · exact same
  exact (resolveLoop_preserves (fun current => Evolves func current ∧
      current.arc arc = func.arc arc) func.unresolvedArcs step _ _ _ _ func _
    (fun _ member => member) ⟨Evolves.refl func, rfl⟩ (resolveArcs_eq func)).2

theorem resolveBlocks_unresolvedArcs : func.resolveBlocks.unresolvedArcs = func.unresolvedArcs := by
  simp only [unresolvedArcs, resolveBlocks, flatMap_map]
  rfl

end

section Runs

variable {origin func : FunctionSummary} {values : List Nat}

theorem storeCounts_drops (graph : func.WellFormed)
    (length : values.length = func.countedArcs.length) (arc : Nat)
    (drops : (func.arc arc).dropped = true) : (func.storeCounts values).arc arc = func.arc arc := by
  have uncounted : func.counterOf values arc = none := by
    rw [counterOf_eq_none length]
    intro member
    have counted : (func.arc arc).counted = true := by simpa using (mem_filter.mp member).2
    rw [counted_real counted] at drops
    cases drops
  rw [storeCounts_arc graph length, uncounted]

/-- The first counters of a function settle it. -/
theorem settled_arcs (graph : origin.WellFormed)
    (length : values.length = origin.countedArcs.length)
    (returned : (origin.storeCounts values).resolve.1 = true) :
    Settled origin (resolveArcs (origin.storeCounts values)).2 := by
  have stored := (storeCounts_evolves origin values).wellFormed graph
  have loopTrue : (resolveArcs (origin.storeCounts values)).1 = true := by rwa [← resolve_fst]
  refine ⟨(storeCounts_evolves origin values).trans (resolveArcs_evolves _),
    resolveArcs_true _ stored loopTrue, fun arc drops => ?_⟩
  have before := storeCounts_drops graph length arc drops
  rw [resolveArcs_drops _ stored arc (by rw [before]; exact drops), before]

theorem Settled.resolveBlocks (settled : Settled origin func) :
    Settled origin func.resolveBlocks :=
  ⟨settled.evolves.trans (resolveBlocks_evolves func),
    by rw [resolveBlocks_unresolvedArcs]; exact settled.resolved, settled.drops⟩

theorem settled_first (graph : origin.WellFormed)
    (length : values.length = origin.countedArcs.length)
    (returned : (origin.storeCounts values).resolve.1 = true) :
    Settled origin (origin.storeCounts values).resolve.2 := by
  rw [resolve_of_true _ returned]
  exact (settled_arcs graph length returned).resolveBlocks

/-- The counts that a function holds once the counters of a file are stored balance
the two blocks of every arc that has no counter. -/
def Balances (func : FunctionSummary) (values : List Nat) : Prop :=
  ∀ arc < func.arcs.length, (func.arc arc).counted = false → (func.arc arc).dropped = false →
    func.BalancedAt (fun other => ((func.storeCounts values).arc other).count)
        (func.arc arc).srcBlock ∧
      func.BalancedAt (fun other => ((func.storeCounts values).arc other).count)
        (func.arc arc).dstBlock

instance (func : FunctionSummary) (flow : Nat → Int) (block : Nat) :
    Decidable (func.BalancedAt flow block) :=
  inferInstanceAs (Decidable (_ → _ → _ → _ = _))

instance (func : FunctionSummary) (values : List Nat) : Decidable (func.Balances values) :=
  inferInstanceAs (Decidable (∀ arc < func.arcs.length, _ → _ → _))

section

variable {before after other : FunctionSummary}

theorem Evolves.realExits_eq (evolves : Evolves before after) (graph : before.WellFormed)
    (block : Nat) : after.realExits block = before.realExits block := by
  apply sublist_eq_filter
  · exact filter_sublist.trans (evolves.exitSublist block)
  · exact graph.exitNodup block
  · intro arc member
    rw [← evolves.dropped]
    exact (mem_filter.mp member).2
  · intro arc member real
    have isReal : (before.arc arc).dropped = false := by simpa using real
    refine mem_filter.mpr ⟨evolves.exitKept block arc member isReal, ?_⟩
    simpa [evolves.dropped] using isReal

/-- The balance of a block does not change while the function is updated. -/
theorem Evolves.balancedAt_iff (evolves : Evolves before after) (graph : before.WellFormed)
    (flow : Nat → Int) (block : Nat) :
    after.BalancedAt flow block ↔ before.BalancedAt flow block := by
  simp only [BalancedAt, evolves.realExits_eq graph, evolves.entryArcs, evolves.dropped]

/-- In a settled function only real arcs are left among the exits. -/
theorem Settled.exits_eq (settled : Settled origin func)
    (fresh : ∀ arc, (origin.arc arc).resolved = false) (graph : origin.WellFormed) (block : Nat) :
    (func.block block).exitArcs = origin.realExits block := by
  apply sublist_eq_filter (settled.evolves.exitSublist block) (graph.exitNodup block)
  · intro arc member
    by_contra fake
    have drops : (origin.arc arc).dropped = true := by simpa using fake
    have inside : block < func.blocks.length := by
      by_contra outside
      rw [block_of_length_le func (Nat.le_of_not_lt outside)] at member
      exact not_mem_nil member
    have pending : arc ∈ func.unresolvedArcs := (mem_unresolvedArcs func arc).mpr
      ⟨(mem_exitArcs func arc).mpr ⟨block, inside, member⟩,
        by rw [settled.drops arc drops]; exact fresh arc⟩
    rw [settled.resolved] at pending
    exact not_mem_nil pending
  · intro arc member real
    exact settled.evolves.exitKept block arc member (by simpa using real)

theorem Settled.storeCounts (settled : Settled origin func) (graph : origin.WellFormed)
    (length : values.length = func.countedArcs.length) :
    Settled origin (func.storeCounts values) := by
  have current := settled.evolves.wellFormed graph
  refine ⟨settled.evolves.trans (storeCounts_evolves func values), ?_, fun arc drops => ?_⟩
  · apply eq_nil_iff_forall_not_mem.mpr
    intro arc pending
    obtain ⟨listed, unmarked⟩ := (mem_unresolvedArcs _ arc).mp pending
    have listedBefore : arc ∈ func.exitArcs := by
      rwa [exitArcs, (storeCounts_sameGraph func values).blocks] at listed
    rw [storeCounts_arc current length] at unmarked
    cases counter : func.counterOf values arc with
    | none =>
      rw [counter] at unmarked
      have before := (mem_unresolvedArcs func arc).mpr ⟨listedBefore, unmarked⟩
      rw [settled.resolved] at before
      exact not_mem_nil before
    | some value => simp [counter] at unmarked
  · rw [storeCounts_drops current length arc (by rw [settled.drops arc drops]; exact drops),
      settled.drops arc drops]

theorem Settled.resolve_eq (settled : Settled origin func) :
    func.resolve = (true, func.resolveBlocks) := by
  simp [resolve, resolveArcs_of_resolved func settled.resolved]

/-- Two settled states with the same arc counts get the same block counts. -/
theorem Settled.counts_eq (settled : Settled origin func) (settledOther : Settled origin other)
    (fresh : ∀ arc, (origin.arc arc).resolved = false) (graph : origin.WellFormed)
    (same : ∀ arc < origin.arcs.length, (func.arc arc).count = (other.arc arc).count) {block : Nat}
    (inside : block < origin.blocks.length) :
    (func.resolveBlocks.block block).count = (other.resolveBlocks.block block).count := by
  have sums (arcs : List Nat) (stored : ∀ arc ∈ arcs, arc < origin.arcs.length) :
      func.sumCounts arcs = other.sumCounts arcs := by
    rw [sumCounts, sumCounts]
    congr 1
    exact map_congr_left fun arc member => same arc (stored arc member)
  rw [resolveBlocks_block func (by rwa [settled.evolves.blocksLength]),
    resolveBlocks_block other (by rwa [settledOther.evolves.blocksLength]),
    settled.evolves.entryArcs, settledOther.evolves.entryArcs, settled.exits_eq fresh graph,
    settledOther.exits_eq fresh graph,
    sums _ (fun arc member => (graph.entrySound block arc member).1),
    sums (origin.realExits block)
      (fun arc member => (graph.exitSound block arc (mem_filter.mp member).1).1)]

theorem uncounted_of_unresolved (graph : origin.WellFormed)
    (length : values.length = origin.countedArcs.length) {arc : Nat}
    (listed : arc ∈ origin.exitArcs)
    (unmarked : ((origin.storeCounts values).arc arc).resolved = false) :
    (origin.arc arc).counted = false := by
  by_contra counted
  have member : arc ∈ origin.countedArcs :=
    mem_filter.mpr ⟨listed, by simpa using counted⟩
  rw [storeCounts_arc graph length] at unmarked
  cases counter : origin.counterOf values arc with
  | none => exact (counterOf_eq_none length arc).mp counter member
  | some value => simp [counter] at unmarked

/-- The counts of a settled function, with the counters stored, are a flow. The loop
on the parsed function starts from the counters and follows this flow. -/
theorem Settled.carries_again (settled : Settled origin func) (graph : origin.WellFormed)
    (fresh : ∀ arc, (origin.arc arc).resolved = false)
    (length : values.length = origin.countedArcs.length) (balances : func.Balances values) :
    Carries (fun arc => ((func.storeCounts values).arc arc).count)
      (origin.storeCounts values) (resolveArcs (origin.storeCounts values)).2 := by
  have current := settled.evolves.wellFormed graph
  have sameArcs := settled.evolves.countedArcs_eq graph
  have lengthNow : values.length = func.countedArcs.length := by rw [sameArcs, length]
  have sameCounter (arc : Nat) : func.counterOf values arc = origin.counterOf values arc := by
    rw [counterOf, counterOf, sameArcs]
  have stored := storeCounts_evolves origin values
  apply resolveArcs_carries (stored.wellFormed graph)
  · intro arc drops
    rw [stored.dropped] at drops
    rw [storeCounts_drops graph length arc drops]
    exact fresh arc
  · intro arc _ marked
    rw [storeCounts_arc graph length] at marked ⊢
    rw [storeCounts_arc current lengthNow, sameCounter]
    cases counter : origin.counterOf values arc with
    | none =>
      rw [counter] at marked
      rw [fresh arc] at marked
      cases marked
    | some value => rfl
  · intro arc pending real
    obtain ⟨listed, unmarked⟩ := (mem_unresolvedArcs _ arc).mp pending
    rw [exitArcs, (storeCounts_sameGraph origin values).blocks] at listed
    have uncounted := uncounted_of_unresolved graph length listed unmarked
    rw [stored.dropped] at real
    have inHeap := graph.exit_stored listed
    have balanced := balances arc (by rwa [settled.evolves.length])
      (by rwa [settled.evolves.counted]) (by rwa [settled.evolves.dropped])
    rw [settled.evolves.srcBlock, settled.evolves.dstBlock,
      settled.evolves.balancedAt_iff graph, settled.evolves.balancedAt_iff graph] at balanced
    rwa [stored.srcBlock, stored.dstBlock, stored.balancedAt_iff graph,
      stored.balancedAt_iff graph]

/-- Counters that the old counts balance give a settled function the block counts
that they give to the function as it was parsed. -/
theorem Settled.count_again (settled : Settled origin func) (graph : origin.WellFormed)
    (fresh : ∀ arc, (origin.arc arc).resolved = false)
    (length : values.length = origin.countedArcs.length)
    (returned : (origin.storeCounts values).resolve.1 = true) (balances : func.Balances values)
    {block : Nat} (inside : block < origin.blocks.length) :
    ((func.storeCounts values).resolve.2.block block).count =
      ((origin.storeCounts values).resolve.2.block block).count := by
  have lengthNow : values.length = func.countedArcs.length := by
    rw [settled.evolves.countedArcs_eq graph, length]
  have stored := storeCounts_evolves origin values
  have storedNow := settled.storeCounts graph lengthNow
  have loopTrue : (resolveArcs (origin.storeCounts values)).1 = true := by rwa [← resolve_fst]
  have carries := settled.carries_again graph fresh length balances
  have settledFresh := settled_arcs graph length returned
  rw [storedNow.resolve_eq, resolve_of_true _ returned]
  refine storedNow.counts_eq settledFresh fresh graph (fun arc inHeap => ?_) inside
  by_cases drops : (origin.arc arc).dropped = true
  · rw [storedNow.drops arc drops, settledFresh.drops arc drops]
  · have real : ((origin.storeCounts values).arc arc).dropped = false := by
      rw [stored.dropped]
      simpa using drops
    exact (resolveArcs_sound (stored.wellFormed graph) carries loopTrue
      (by rwa [stored.length]) real).2.symm

/-- A function after a file: the counters the file has for it are stored and the
function is resolved. -/
def countedBy (func : FunctionSummary) : Option (List Nat) → FunctionSummary
  | none => func
  | some values => (func.storeCounts values).resolve.2

/-- The state before a file lets the file count the function correctly. Without
counters there are no block counts to be added once more. With counters, the
function has not been resolved before, or what it holds balances them. -/
def Meets (func : FunctionSummary) : Option (List Nat) → Prop
  | none => ∀ block ∈ func.blocks, block.lines ≠ [] → block.count = 0
  | some values => (∀ arc ∈ func.arcs, arc.resolved = false) ∨ func.Balances values

/-- The counters of a well-formed file: one for each counted arc, and in the parsed
function they can be resolved, to block counts that are not negative. -/
structure WellCounted (origin : FunctionSummary) (values : List Nat) : Prop where
  length : values.length = origin.countedArcs.length
  resolves : (origin.storeCounts values).resolve.1 = true
  nonnegative : ∀ block ∈ (origin.storeCounts values).resolve.2.blocks, 0 ≤ block.count

/-- The states of a function between the files of a run. -/
structure Follows (origin func : FunctionSummary) : Prop where
  state : func = origin ∨ Settled origin func
  nonnegative : ∀ block ∈ func.blocks, 0 ≤ block.count

theorem Follows.evolves (follows : Follows origin func) : Evolves origin func := by
  rcases follows.state with rfl | settled
  · exact Evolves.refl func
  · exact settled.evolves

theorem Pristine.unresolved (pristine : origin.Pristine) (arc : Nat) :
    (origin.arc arc).resolved = false := by
  by_cases stored : arc < origin.arcs.length
  · rw [FunctionSummary.arc, getD_eq_getElem _ _ stored]
    exact (pristine.fresh.arcs _ (getElem_mem stored)).1
  · rw [FunctionSummary.arc, getD_eq_default _ _ (Nat.le_of_not_lt stored)]
    rfl

theorem Pristine.follows (pristine : origin.Pristine) : Follows origin origin :=
  ⟨.inl rfl, fun block member => Int.le_of_eq (pristine.fresh.blocks block member).symm⟩

/-- A parsed function has nothing that could do harm. -/
theorem Pristine.meets (pristine : origin.Pristine) (update : Option (List Nat)) :
    origin.Meets update := by
  cases update with
  | none => exact fun block member _ => pristine.fresh.blocks block member
  | some values => exact .inl fun arc member => (pristine.fresh.arcs arc member).1

/-- A settled function without a resolved arc has no arc that could be wrong. -/
theorem Settled.balances_of_unresolved (settled : Settled origin func) (graph : origin.WellFormed)
    (unresolved : ∀ arc ∈ func.arcs, arc.resolved = false) : func.Balances values := by
  intro arc stored _ real
  have listed := (settled.evolves.wellFormed graph).exit_listed stored real
  have unmarked : (func.arc arc).resolved = false := by
    rw [FunctionSummary.arc, getD_eq_getElem _ _ stored]
    exact unresolved _ (getElem_mem stored)
  have pending := (mem_unresolvedArcs func arc).mpr ⟨listed, unmarked⟩
  rw [settled.resolved] at pending
  exact absurd pending not_mem_nil

/-- Blocks with the same lines and the same counts where there are lines add the
same to every line. -/
theorem lineTotal_congr (length : func.blocks.length = other.blocks.length)
    (lines : ∀ block, (func.block block).lines = (other.block block).lines)
    (counts : ∀ block < func.blocks.length, (func.block block).lines ≠ [] →
      (func.block block).count = (other.block block).count) (line : Nat) :
    func.lineTotal line = other.lineTotal line := by
  have equal : func.blocks.map (fun block => block.lineTotal line) =
      other.blocks.map (fun block => block.lineTotal line) := by
    apply ext_getElem (by simpa using length)
    intro position inLeft inRight
    rw [length_map] at inLeft inRight
    rw [getElem_map, getElem_map]
    have sameLines := lines position
    have sameCount := counts position inLeft
    rw [FunctionSummary.block, FunctionSummary.block, getD_eq_getElem _ _ inLeft,
      getD_eq_getElem _ _ inRight] at sameLines sameCount
    by_cases empty : func.blocks[position].lines = []
    · rw [BlockSummary.lineTotal, BlockSummary.lineTotal, ← sameLines, empty]
      simp
    · rw [BlockSummary.lineTotal, BlockSummary.lineTotal, ← sameLines, sameCount empty]
  rw [FunctionSummary.lineTotal, equal, FunctionSummary.lineTotal]

end

theorem Evolves.lists_eq (evolves : Evolves origin func) (line : Nat) :
    func.lists line = origin.lists line := by
  have blockwise (current : FunctionSummary) : current.lists line =
      (List.range current.blocks.length).any (fun block =>
        (current.block block).lines.contains line) := by
    rw [FunctionSummary.lists]
    conv_lhs => rw [current.blocks_eq_map]
    rw [any_map]
    rfl
  rw [blockwise func, blockwise origin, evolves.blocksLength]
  simp only [evolves.lines]

theorem Evolves.reportedFor_eq (evolves : Evolves origin func)
    (excludePaths : List (List UInt8)) (file : List UInt8) :
    func.reportedFor excludePaths file = origin.reportedFor excludePaths file := by
  rw [reportedFor, reportedFor, evolves.srcFileName]

/-- One file and one function: the counters are resolved, the function stays in a
state of the run, and it adds to every line what it would add if it had just been
parsed. -/
theorem Follows.step (follows : Follows origin func) (pristine : origin.Pristine)
    (update : Option (List Nat)) (counted : ∀ values ∈ update, WellCounted origin values)
    (meets : func.Meets update) :
    (∀ values ∈ update, (func.storeCounts values).resolve.1 = true) ∧
      Follows origin (func.countedBy update) ∧
      ∀ line, (func.countedBy update).lineTotal line =
        (origin.countedBy update).lineTotal line := by
  cases update with
  | none =>
    refine ⟨by simp, follows, fun line => ?_⟩
    apply lineTotal_congr follows.evolves.blocksLength follows.evolves.lines
    intro block inside listed
    have insideOrigin : block < origin.blocks.length := by rwa [← follows.evolves.blocksLength]
    rw [meets _ (block_mem inside) listed,
      pristine.fresh.blocks _ (block_mem insideOrigin)]
  | some values =>
    have well := counted values rfl
    have whenSettled (settled : Settled origin func) (balances : func.Balances values) :
        (func.storeCounts values).resolve.1 = true ∧
          Follows origin (func.storeCounts values).resolve.2 ∧
          ∀ line, (func.storeCounts values).resolve.2.lineTotal line =
            (origin.storeCounts values).resolve.2.lineTotal line := by
      have length : values.length = func.countedArcs.length := by
        rw [settled.evolves.countedArcs_eq pristine.graph, well.length]
      have stored := settled.storeCounts pristine.graph length
      have evolvesFresh := (storeCounts_evolves origin values).trans
        (resolve_snd_evolves (origin.storeCounts values))
      have after : Settled origin (func.storeCounts values).resolve.2 := by
        rw [stored.resolve_eq]
        exact stored.resolveBlocks
      have counts {block : Nat} (inside : block < origin.blocks.length) :=
        settled.count_again pristine.graph pristine.unresolved well.length well.resolves balances
          inside
      refine ⟨by rw [stored.resolve_eq], ⟨.inr after, fun summary member => ?_⟩, fun line => ?_⟩
      · obtain ⟨block, inside, rfl⟩ := mem_blocks member
        rw [after.evolves.blocksLength] at inside
        rw [counts inside]
        exact well.nonnegative _ (block_mem (by rwa [evolvesFresh.blocksLength]))
      · apply lineTotal_congr
        · rw [after.evolves.blocksLength, evolvesFresh.blocksLength]
        · intro block
          rw [after.evolves.lines, evolvesFresh.lines]
        · intro block inside _
          rw [after.evolves.blocksLength] at inside
          exact counts inside
    have result : (func.storeCounts values).resolve.1 = true ∧
        Follows origin (func.storeCounts values).resolve.2 ∧
        ∀ line, (func.storeCounts values).resolve.2.lineTotal line =
          (origin.storeCounts values).resolve.2.lineTotal line := by
      rcases follows.state with rfl | settled
      · exact ⟨well.resolves, ⟨.inr (settled_first pristine.graph well.length well.resolves),
          well.nonnegative⟩, fun _ => rfl⟩
      · rcases meets with unresolved | balances
        · exact whenSettled settled (settled.balances_of_unresolved pristine.graph unresolved)
        · exact whenSettled settled balances
    exact ⟨fun other equal => by cases equal; exact result.1, result.2⟩

end Runs

end FunctionSummary

/-! ## Files -/

/-- The counters of a record, with the function they are for. -/
def GcdaRecord.update (func : Option Nat) : GcdaRecord → Option (Nat × List Nat)
  | .counters values => func.map (fun ident => (ident, values))
  | _ => none

section

variable {ident : Nat} {values : List Nat} (records : List GcdaRecord)

/-- Only a counter record inside a function updates anything. -/
theorem GcdaRecord.eq_counters_of_update {record : GcdaRecord} {func : Option Nat}
    (update : record.update func = some (ident, values)) :
    record = .counters values ∧ func = some ident := by
  cases record with
  | counters others =>
    cases func with
    | none => simp [GcdaRecord.update] at update
    | some key => simpa [GcdaRecord.update, and_comm] using update
  | _ => simp [GcdaRecord.update] at update

theorem GcdaRecord.apply_of_update_none {record : GcdaRecord} {func : Option Nat}
    (update : record.update func = none) (summary : FileSummary) :
    record.apply func summary = (true, summary) := by
  cases record with
  | counters values =>
    cases func with
    | none => rfl
    | some ident => simp [GcdaRecord.update] at update
  | _ => rfl

/-- All counters of a file, each with its function. -/
def counterUpdates : Option Nat → List GcdaRecord → List (Nat × List Nat)
  | _, [] => []
  | func, record :: rest => (record.update func).toList ++ counterUpdates (record.current func) rest

/-- Every function of the summary is counted by the counters it has. -/
def FileSummary.updated (summary : FileSummary) (updates : List (Nat × List Nat)) : FileSummary :=
  ⟨summary.functions.map (fun entry => (entry.1, entry.2.countedBy (updates.lookup entry.1)))⟩

theorem FileSummary.updated_nil (summary : FileSummary) : summary.updated [] = summary := by
  simp [FileSummary.updated, FunctionSummary.countedBy]

/-- Counting one function and then the others is counting all of them. -/
theorem FileSummary.updated_insert {summary : FileSummary} {object : FunctionSummary}
    {rest : List (Nat × List Nat)} (distinct : (summary.functions.map Prod.fst).Nodup)
    (stored : summary.get? ident = some object) (absent : rest.lookup ident = none) :
    (summary.insert ident (object.storeCounts values).resolve.2).updated rest =
      summary.updated ((ident, values) :: rest) := by
  unfold FileSummary.updated
  rw [FileSummary.insert, if_pos (by simp [stored]), map_map]
  congr 1
  apply map_congr_left
  intro entry member
  by_cases same : entry.1 = ident
  · have value : object = entry.2 := by
      have found := FileSummary.get?_of_mem summary distinct member
      rw [same, stored] at found
      exact Option.some.inj found
    simp [same, absent, value, FunctionSummary.countedBy]
  · have differs : (entry.1 == ident) = false := by simpa using same
    simp [same, lookup_cons, differs]

theorem updates_fit {summary : FileSummary} (func : Option Nat)
    (fits : GcdaFits summary func records) :
    ∀ update ∈ counterUpdates func records, ∃ object, summary.get? update.1 = some object ∧
      update.2.length = object.countedArcs.length := by
  induction records generalizing func with
  | nil => simp [counterUpdates]
  | cons record rest ih =>
    obtain ⟨first, others⟩ := fits
    intro update member
    rcases mem_append.mp member with here | later
    · obtain ⟨rfl, rfl⟩ := GcdaRecord.eq_counters_of_update (Option.mem_toList.mp here)
      obtain ⟨ident, object, same, stored, length⟩ := first
      rw [Option.some.inj same]
      exact ⟨object, stored, length⟩
    · exact ih _ others update later

/-- A file with one counter record for a function counts each function on its own. -/
theorem applyRecords_eq (func : Option Nat) (summary : FileSummary)
    (distinct : (summary.functions.map Prod.fst).Nodup)
    (once : ((counterUpdates func records).map Prod.fst).Nodup)
    (resolves : ∀ update ∈ counterUpdates func records, ∃ object,
      summary.get? update.1 = some object ∧ (object.storeCounts update.2).resolve.1 = true) :
    applyRecords func summary records =
      (.ok (), summary.updated (counterUpdates func records)) := by
  induction records generalizing func summary with
  | nil => simp [applyRecords, counterUpdates, updated_nil]
  | cons record rest ih =>
    unfold applyRecords
    rw [counterUpdates] at once resolves ⊢
    cases update : record.update func with
    | none =>
      rw [update] at once resolves
      rw [GcdaRecord.apply_of_update_none update]
      exact ih _ summary distinct once resolves
    | some pair =>
      obtain ⟨ident, values⟩ := pair
      rw [update] at once resolves
      obtain ⟨rfl, rfl⟩ := GcdaRecord.eq_counters_of_update update
      obtain ⟨object, stored, returned⟩ := resolves (ident, values) (by simp)
      simp only [Option.toList_some, cons_append, nil_append, map_cons,
        nodup_cons] at once
      have absent : (counterUpdates ((GcdaRecord.counters values).current (some ident))
          rest).lookup ident = none := by
        rw [lookup_eq_none_iff]
        intro pair member
        simp only [bne_iff_ne, ne_eq]
        rintro rfl
        exact once.1 (mem_map_of_mem member)
      have applied : (GcdaRecord.counters values).apply (some ident) summary =
          (true, summary.insert ident (object.storeCounts values).resolve.2) := by
        simp only [GcdaRecord.apply, stored, Option.getD_some, returned]
      have keys : (summary.insert ident (object.storeCounts values).resolve.2).functions.map
          Prod.fst = summary.functions.map Prod.fst :=
        (insert_evolves distinct stored
          ((storeCounts_evolves object values).trans
            (resolve_snd_evolves _))).keys
      rw [applied]
      simp only [Option.toList_some, cons_append, nil_append]
      rw [ih _ _ (by rw [keys]; exact distinct) once.2 ?_,
        updated_insert distinct stored absent]
      intro other member
      obtain ⟨later, found, otherReturned⟩ := resolves other (by simp [member])
      refine ⟨later, ?_, otherReturned⟩
      have differs : other.1 ≠ ident := by
        rintro rfl
        exact once.1 (mem_map_of_mem member)
      rw [insert_get? _ _ _ _ (by simp [stored]), if_neg differs, found]

end

/-! ## Runs -/

/-- The states of a summary between the files of a run: every function follows the
function that was parsed. -/
def FileSummary.Follows (origin summary : FileSummary) : Prop :=
  List.Forall₂ (fun old new => new.1 = old.1 ∧ old.2.Follows new.2)
    origin.functions summary.functions

namespace FileSummary

variable {origin summary : FileSummary}

theorem Follows.evolves (follows : Follows origin summary) : Evolves origin summary :=
  List.Forall₂.imp (fun _ _ related => ⟨related.1, related.2.evolves⟩) follows

theorem Parsed.follows (parsed : origin.Parsed) : Follows origin origin :=
  forall₂_same.mpr fun entry member => ⟨rfl, (parsed.pristine entry member).follows⟩

/-- Facts about the members of both lists can be added to a relation between them. -/
theorem Follows.pairs (follows : Follows origin summary)
    {relation : Nat × FunctionSummary → Nat × FunctionSummary → Prop}
    (each : ∀ old ∈ origin.functions, ∀ new ∈ summary.functions, new.1 = old.1 →
      old.2.Follows new.2 → relation old new) :
    List.Forall₂ relation origin.functions summary.functions := by
  obtain ⟨length, related⟩ := forall₂_iff_zip.mp follows
  refine forall₂_iff_zip.mpr ⟨length, fun {old new} member => ?_⟩
  obtain ⟨inOrigin, inSummary⟩ := of_mem_zip member
  exact each old inOrigin new inSummary (related member).1 (related member).2

/-- A summary between files can be reported. -/
theorem Follows.countable (follows : Follows origin summary) (parsed : origin.Parsed) :
    summary.Countable := by
  have related : ∀ new ∈ summary.functions, ∃ old ∈ origin.functions, old.2.Follows new.2 := by
    intro new member
    obtain ⟨position, stored, rfl⟩ := mem_iff_getElem.mp member
    have length := List.Forall₂.length_eq follows
    have both := List.Forall₂.get follows (i := position) (by omega) stored
    exact ⟨_, get_mem _ _, both.2⟩
  constructor
  · intro entry member block listed
    obtain ⟨_, _, followed⟩ := related entry member
    exact followed.nonnegative block listed
  · intro entry member block listed line inBlock
    obtain ⟨old, inOrigin, followed⟩ := related entry member
    obtain ⟨position, inside, rfl⟩ := mem_blocks listed
    rw [followed.evolves.lines] at inBlock
    rw [followed.evolves.blocksLength] at inside
    exact (parsed.pristine old inOrigin).fresh.lines _ (block_mem inside) line
      inBlock

/-- Which lines a summary lists does not change in a run. -/
theorem Follows.lists_eq (follows : Follows origin summary) (excludePaths : List (List UInt8))
    (file : List UInt8) (line : Nat) :
    summary.lists excludePaths file line = origin.lists excludePaths file line := by
  have equal : summary.functions.map (fun entry =>
        entry.2.reportedFor excludePaths file && entry.2.lists line) =
      origin.functions.map (fun entry =>
        entry.2.reportedFor excludePaths file && entry.2.lists line) := by
    refine (forall₂_eq_eq_eq ▸ forall₂_map_left_iff.mpr
      (forall₂_map_right_iff.mpr (follows.pairs ?_))).symm
    intro old _ new _ _ followed
    rw [followed.evolves.reportedFor_eq, followed.evolves.lists_eq]
  have asMap (current : FileSummary) : current.lists excludePaths file line =
      (current.functions.map (fun entry =>
        entry.2.reportedFor excludePaths file && entry.2.lists line)).any id := by
    rw [any_map]
    rfl
  rw [asMap summary, equal, ← asMap origin]

/-- The summary before a file lets the file count every function correctly. -/
def Meets (summary : FileSummary) (updates : List (Nat × List Nat)) : Prop :=
  ∀ entry ∈ summary.functions, entry.2.Meets (updates.lookup entry.1)

theorem Parsed.meets (parsed : origin.Parsed) (updates : List (Nat × List Nat)) :
    origin.Meets updates :=
  fun entry member => (parsed.pristine entry member).meets _

/-- One file: every counter is resolved, the summary stays in a state of the run,
and every line gets what the file alone would give it. -/
theorem Follows.step (follows : Follows origin summary) (parsed : origin.Parsed)
    (updates : List (Nat × List Nat))
    (counted : ∀ entry ∈ origin.functions, ∀ values ∈ updates.lookup entry.1,
      entry.2.WellCounted values)
    (meets : summary.Meets updates) :
    (∀ entry ∈ summary.functions, ∀ values ∈ updates.lookup entry.1,
        (entry.2.storeCounts values).resolve.1 = true) ∧
      Follows origin (summary.updated updates) ∧
      ∀ excludePaths file line, (summary.updated updates).lineTotal excludePaths file line =
        (origin.updated updates).lineTotal excludePaths file line := by
  have stepped : List.Forall₂ (fun old new => new.1 = old.1 ∧
      (∀ values ∈ updates.lookup new.1, (new.2.storeCounts values).resolve.1 = true) ∧
      old.2.Follows (new.2.countedBy (updates.lookup new.1)) ∧
      old.2.Follows (old.2.countedBy (updates.lookup old.1)) ∧
      ∀ line, (new.2.countedBy (updates.lookup new.1)).lineTotal line =
        (old.2.countedBy (updates.lookup old.1)).lineTotal line)
      origin.functions summary.functions := by
    apply follows.pairs
    intro old inOrigin new inSummary sameKey followed
    have pristine := parsed.pristine old inOrigin
    have result := followed.step pristine (updates.lookup old.1) (counted old inOrigin)
      (sameKey ▸ meets new inSummary)
    have alone := pristine.follows.step pristine (updates.lookup old.1) (counted old inOrigin)
      (pristine.meets _)
    rw [sameKey]
    exact ⟨rfl, result.1, result.2.1, alone.2.1, result.2.2⟩
  refine ⟨?_, ?_, fun excludePaths file line => ?_⟩
  · intro entry member
    obtain ⟨position, stored, rfl⟩ := mem_iff_getElem.mp member
    have length := List.Forall₂.length_eq stepped
    exact (List.Forall₂.get stepped (i := position) (by omega) stored).2.1
  · exact forall₂_map_right_iff.mpr
      (List.Forall₂.imp (fun _ _ related => ⟨related.1, related.2.2.1⟩) stepped)
  · unfold lineTotal updated
    rw [map_map, map_map]
    congr 1
    refine (forall₂_eq_eq_eq ▸ forall₂_map_left_iff.mpr
      (forall₂_map_right_iff.mpr (List.Forall₂.imp ?_ stepped))).symm
    rintro old new ⟨_, _, later, alone, totals⟩
    simp only [Function.comp_apply]
    rw [later.evolves.reportedFor_eq, alone.evolves.reportedFor_eq, totals line]

end FileSummary

/-- The body of the loop of `_AutoProcess` for a GCDA file that matches the summary.
A `FileFormatError` of `Parse` is logged; the summary keeps what was written. -/
def processGcda (excludePaths : List (List UInt8)) (content : List UInt8)
    (state : FileSummary × CoverageDict) : Except Exception (FileSummary × CoverageDict) :=
  match GcdaParser.init content with
  | .error failure => .error failure
  | .ok parser =>
    match parser.parse state.1 with
    | (.ok _, after) => .ok (after, generateLineCoverageVector after excludePaths state.2)
    | (.error (.fileFormatError _), after) => .ok (after, state.2)
    | (.error failure, _) => .error failure

/-- The loop of `_AutoProcess` over the GCDA files of one summary. -/
def autoProcess (excludePaths : List (List UInt8)) : List (List UInt8) →
    FileSummary × CoverageDict → Except Exception (FileSummary × CoverageDict)
  | [], state => .ok state
  | content :: rest, state =>
    match processGcda excludePaths content state with
    | .error failure => .error failure
    | .ok after => autoProcess excludePaths rest after

/-- `dict()`. -/
def CoverageDict.empty : CoverageDict := fun _ => none

/-- The dictionary that one GCDA file alone gives. -/
def aloneDict (excludePaths : List (List UInt8)) (origin : FileSummary) (content : List UInt8) :
    CoverageDict :=
  match processGcda excludePaths content (origin, CoverageDict.empty) with
  | .error _ => CoverageDict.empty
  | .ok after => after.2

/-- A little-endian GCDA file. -/
structure GcdaFile where
  first : UInt8
  third : UInt8
  fourth : UInt8
  digit : Nat
  checksum : Nat
  records : List GcdaRecord
deriving DecidableEq

namespace GcdaFile

def content (file : GcdaFile) : List UInt8 :=
  encodeGcda .little (versionOf file.first file.third file.fourth file.digit) file.checksum
    (decide (file.digit > 4)) file.records

/-- The counters of the file, each with its function. -/
def updates (file : GcdaFile) : List (Nat × List Nat) := counterUpdates none file.records

/-- A file that was written for the summary: its records fit, a function has one
counter record at most, and in the parsed summary all counters can be resolved, to
counts that are not negative. -/
structure WellFormed (origin : FileSummary) (file : GcdaFile) : Prop where
  isDigit : file.digit < 10
  checksumFits : file.checksum < 2 ^ 32
  valid : ∀ entry ∈ file.records, entry.Valid
  fits : GcdaFits origin none file.records
  once : (file.updates.map Prod.fst).Nodup
  counted : ∀ entry ∈ origin.functions, ∀ values ∈ file.updates.lookup entry.1,
    entry.2.WellCounted values

variable {origin summary : FileSummary} {file : GcdaFile}

/-- The parser that the constructor makes of a well-formed file. -/
theorem WellFormed.opened (wellFormed : file.WellFormed origin) :
    GcdaParser.init file.content = .ok ⟨⟨.little,
      versionOf file.first file.third file.fourth file.digit, file.checksum⟩,
      file.records.flatMap (GcdaRecord.encode .little (decide (file.digit > 4)))⟩ :=
  GcdaParser.init_gcovFile .little _ file.checksum _ rfl wellFormed.checksumFits

/-- A well-formed file in a run is parsed without error, and counts every function. -/
theorem WellFormed.parse (wellFormed : file.WellFormed origin) (parsed : origin.Parsed)
    (follows : origin.Follows summary) (meets : summary.Meets file.updates) {parser : GcdaParser}
    (opened : GcdaParser.init file.content = .ok parser) :
    parser.parse summary = (.ok (), summary.updated file.updates) := by
  rw [wellFormed.opened] at opened
  cases opened
  have distinct : (summary.functions.map Prod.fst).Nodup := by
    rw [follows.evolves.keys]
    exact parsed.distinct
  have resolved := (follows.step parsed file.updates wellFormed.counted meets).1
  refine (GcdaParser.parse_records _ _ file.records origin summary
    (above4_little file.first file.third file.fourth file.digit file.checksum wellFormed.isDigit)
    wellFormed.valid parsed follows.evolves wellFormed.fits).trans ?_
  apply applyRecords_eq file.records none summary distinct wellFormed.once
  intro update member
  obtain ⟨object, stored, _⟩ := updates_fit file.records none wellFormed.fits update member
  rcases follows.evolves.get? update.1 with ⟨absent, _⟩ | ⟨old, new, _, now, _⟩
  · rw [absent] at stored
    cases stored
  · exact ⟨new, now, resolved _ (mem_of_get? now) update.2
      (lookup_of_mem wellFormed.once member)⟩

theorem WellFormed.process (wellFormed : file.WellFormed origin) (parsed : origin.Parsed)
    (follows : origin.Follows summary) (meets : summary.Meets file.updates)
    (excludePaths : List (List UInt8)) (dict : CoverageDict) :
    processGcda excludePaths file.content (summary, dict) =
      .ok (summary.updated file.updates,
        generateLineCoverageVector (summary.updated file.updates) excludePaths dict) := by
  unfold processGcda
  rw [wellFormed.opened]
  simp only [wellFormed.parse parsed follows meets wellFormed.opened]

/-- What a well-formed file alone adds to a line. -/
theorem WellFormed.alone (wellFormed : file.WellFormed origin) (parsed : origin.Parsed) :
    origin.Follows (origin.updated file.updates) :=
  (parsed.follows.step parsed file.updates wellFormed.counted (parsed.meets _)).2.1

end GcdaFile

/-- The summary before each file meets the condition for it. -/
def StepsMeet : FileSummary → List GcdaFile → Prop
  | _, [] => True
  | summary, file :: rest =>
    summary.Meets file.updates ∧ ∀ parser, GcdaParser.init file.content = .ok parser →
      StepsMeet (parser.parse summary).2 rest

/-- A run from any state between files: each line is bumped by what the files alone
would add to it. -/
theorem autoProcess_bumps (excludePaths : List (List UInt8)) (files : List GcdaFile)
    (origin summary : FileSummary) (dict : CoverageDict) (parsed : origin.Parsed)
    (follows : origin.Follows summary) (wellFormed : ∀ file ∈ files, file.WellFormed origin)
    (meets : StepsMeet summary files) :
    ∃ final, autoProcess excludePaths (files.map GcdaFile.content) (summary, dict) = .ok final ∧
      ∀ file line, 0 < line → final.2.lineCount file line =
        bump (!files.isEmpty && origin.lists excludePaths file line)
          ((files.map (fun gcda =>
            (origin.updated gcda.updates).lineTotal excludePaths file line)).sum)
          (dict.lineCount file line) := by
  induction files generalizing summary dict with
  | nil => exact ⟨(summary, dict), rfl, by simp [bump]⟩
  | cons gcda rest ih =>
    obtain ⟨here, later⟩ := meets
    have well := wellFormed gcda (by simp)
    have processed := well.process parsed follows here excludePaths dict
    obtain ⟨_, nextFollows, totals⟩ := follows.step parsed gcda.updates well.counted here
    have nextMeets : StepsMeet (summary.updated gcda.updates) rest := by
      have after := later _ well.opened
      rwa [well.parse parsed follows here well.opened] at after
    obtain ⟨final, ran, counts⟩ := ih (summary.updated gcda.updates)
      (generateLineCoverageVector (summary.updated gcda.updates) excludePaths dict) nextFollows
      (fun file member => wellFormed file (by simp [member])) nextMeets
    refine ⟨final, ?_, fun file line positive => ?_⟩
    · rw [map_cons, autoProcess, processed]
      exact ran
    · have countable := nextFollows.countable parsed
      have sameLists := nextFollows.lists_eq excludePaths file line
      rw [counts file line positive, generate_lineCount _ _ _ _ countable positive, sameLists,
        bump_bump _ (FileSummary.lineTotal_nonnegative _ _ _ _ countable)
          (fun unlisted => FileSummary.lineTotal_unlisted _ _ _ _ (sameLists.trans unlisted)) ?_,
        totals]
      · cases origin.lists excludePaths file line <;> simp
      · intro idle
        apply sum_eq_zero
        intro value member
        obtain ⟨other, inRest, rfl⟩ := mem_map.mp member
        have unlisted : origin.lists excludePaths file line = false := by
          cases rest with
          | nil => exact absurd inRest not_mem_nil
          | cons _ _ => simpa using idle
        apply FileSummary.lineTotal_unlisted
        rwa [((wellFormed other (by simp [inRest])).alone parsed).lists_eq]

/-- The run over the files ends without an exception, and its dictionary gives each
line the sum of the counts that the files alone give it, and -1 exactly when no file
was processed or no block lists the line. -/
def Accumulates (excludePaths : List (List UInt8)) (origin : FileSummary)
    (files : List GcdaFile) : Prop :=
  ∃ final, autoProcess excludePaths (files.map GcdaFile.content)
      (origin, CoverageDict.empty) = .ok final ∧
    ∀ file line, 0 < line →
      final.2.lineCount file line =
          (if files ≠ [] ∧ origin.lists excludePaths file line = true then
            (files.map (fun gcda =>
              (aloneDict excludePaths origin gcda.content).lineCount file line)).sum
          else -1) ∧
        (final.2.lineCount file line = -1 ↔
          ¬(files ≠ [] ∧ origin.lists excludePaths file line = true))

/-- Every run whose steps meet the condition accumulates. An initial part of such a
run is such a run, so this holds in every state that is reached. -/
theorem autoProcess_accumulates (excludePaths : List (List UInt8)) (origin : FileSummary)
    (source : origin.FromGcno) (files : List GcdaFile)
    (wellFormed : ∀ file ∈ files, file.WellFormed origin) (meets : StepsMeet origin files) :
    Accumulates excludePaths origin files := by
  have parsed := source.parsed
  obtain ⟨final, ran, counts⟩ := autoProcess_bumps excludePaths files origin origin
    CoverageDict.empty parsed parsed.follows wellFormed meets
  refine ⟨final, ran, fun file line positive => ?_⟩
  have emptyCount : CoverageDict.empty.lineCount file line = -1 := by
    simp [CoverageDict.empty, CoverageDict.lineCount, lineCount]
  rw [counts file line positive, emptyCount]
  by_cases listed : files ≠ [] ∧ origin.lists excludePaths file line = true
  · have alone : files.map (fun gcda =>
          (aloneDict excludePaths origin gcda.content).lineCount file line) =
        files.map (fun gcda =>
          (origin.updated gcda.updates).lineTotal excludePaths file line) := by
      apply map_congr_left
      intro gcda member
      have well := wellFormed gcda member
      have follows := well.alone parsed
      rw [aloneDict, well.process parsed parsed.follows (parsed.meets _),
        generate_lineCount _ _ _ _ (follows.countable parsed) positive, follows.lists_eq,
        listed.2, emptyCount]
      simp [bump]
    have nonnegative : 0 ≤ (files.map (fun gcda =>
        (origin.updated gcda.updates).lineTotal excludePaths file line)).sum := by
      apply sum_nonneg
      intro value member
      obtain ⟨gcda, inFiles, rfl⟩ := mem_map.mp member
      exact FileSummary.lineTotal_nonnegative _ _ _ _
        (((wellFormed gcda inFiles).alone parsed).countable parsed)
    have nonempty : files.isEmpty = false := by simpa using listed.1
    have total : bump (!files.isEmpty && origin.lists excludePaths file line)
        ((files.map (fun gcda =>
          (origin.updated gcda.updates).lineTotal excludePaths file line)).sum) (-1) =
        (files.map (fun gcda =>
          (origin.updated gcda.updates).lineTotal excludePaths file line)).sum := by
      rw [listed.2, nonempty]
      simp [bump]
    rw [total, if_pos listed, alone]
    exact ⟨rfl, fun negative => by omega, fun unlisted => absurd listed unlisted⟩
  · have idle : (!files.isEmpty && origin.lists excludePaths file line) = false := by
      rcases Classical.not_and_iff_not_or_not.mp listed with empty | unlisted
      · simp at empty
        simp [empty]
      · simp [Bool.eq_false_iff.mpr unlisted]
    rw [if_neg listed, idle]
    exact ⟨rfl, fun _ => listed, fun _ => rfl⟩

/-! ## Two files -/

/-- A chain of three blocks in `a.c`: the first arc is counted, the second is on the
tree, and the last block lists line 7. -/
def chainFunction : GcnoFunction where
  ident := 1
  lineChecksum := 0
  configChecksum := 0
  name := [102]
  srcFileName := [97, 46, 99]
  firstLineNumber := 5
  flags := [0, 0, 0]
  arcs := [(0, [(1, 0)]), (1, [(2, 1)])]
  lines := [⟨2, [97, 46, 99], [7], 1⟩]

theorem chainFunction_valid : chainFunction.Valid := by
  constructor <;> decide

/-- The summary of the chain as it is parsed. -/
def chainSummary : FileSummary := gcnoSummary [chainFunction]

theorem chainSummary_fromGcno : chainSummary.FromGcno := by
  refine ⟨_, _, GcnoParser.init_gcovFile .little (versionOf 42 48 52 8) 0
    ([chainFunction].flatMap (GcnoFunction.encode .little (decide (8 > 4)))) rfl (by decide), ?_⟩
  exact GcnoParser.parse_functions _ _ _ (above4_little 42 48 52 8 0 (by decide)) (by decide)
    (by simpa using chainFunction_valid) (by decide)

/-- A file that counts the chain a number of times. -/
def chainFile (count : Nat) : GcdaFile where
  first := 42
  third := 48
  fourth := 52
  digit := 8
  checksum := 0
  records := [.function 1 0 0 none, .counters [count], .skipped 0]

theorem chainFile_wellFormed (count : Nat) (fits : count < 2 ^ 64)
    (resolves : (chainFunction.summary.storeCounts [count]).resolve.1 = true)
    (nonnegative : ∀ block ∈ (chainFunction.summary.storeCounts [count]).resolve.2.blocks,
      0 ≤ block.count) : (chainFile count).WellFormed chainSummary where
  isDigit := (by decide : 8 < 10)
  checksumFits := (by decide : 0 < 2 ^ 32)
  valid := by
    intro entry member
    simp only [chainFile, mem_cons, not_mem_nil, or_false] at member
    rcases member with rfl | rfl | rfl
    · exact ⟨by decide, by decide, by decide, by simp⟩
    · exact ⟨(by decide : 2 * 1 < 2 ^ 32), by simpa using fits⟩
    · exact ⟨by decide, by decide⟩
  fits := ⟨rfl, ⟨1, chainFunction.summary, rfl, rfl, rfl⟩, trivial, trivial⟩
  once := nodup_singleton 1
  counted := by
    intro entry member values found
    obtain rfl : entry = (1, chainFunction.summary) := mem_singleton.mp member
    obtain rfl : [count] = values := Option.some.inj found
    exact ⟨rfl, resolves, nonnegative⟩

/-- Two files with the same counters: the old count of the tree arc fits. -/
theorem chainFile_twice : Accumulates [] chainSummary [chainFile 2, chainFile 2] := by
  have well := chainFile_wellFormed 2 (by decide) (by decide) (by decide)
  apply autoProcess_accumulates [] chainSummary chainSummary_fromGcno
  · simpa using well
  · have parsed := chainSummary_fromGcno.parsed
    refine ⟨parsed.meets _, fun parser opened => ⟨?_, fun _ _ => trivial⟩⟩
    rw [well.parse parsed parsed.follows (parsed.meets _) opened]
    intro entry member
    obtain rfl : entry = (1, (chainFunction.summary.storeCounts [2]).resolve.2) :=
      mem_singleton.mp member
    exact .inr (by decide)

/-- A second file with another counter finds the tree arc resolved and counts line 7
as the first file did: 1 and 2 add up to 2. -/
theorem chainFile_stale :
    chainSummary.FromGcno ∧ (chainFile 1).WellFormed chainSummary ∧
      (chainFile 2).WellFormed chainSummary ∧
      ¬Accumulates [] chainSummary [chainFile 1, chainFile 2] := by
  refine ⟨chainSummary_fromGcno, chainFile_wellFormed 1 (by decide) (by decide) (by decide),
    chainFile_wellFormed 2 (by decide) (by decide) (by decide), ?_⟩
  rintro ⟨final, ran, counts⟩
  have line := (counts [97, 46, 99] 7 (by decide)).1
  have shared : (autoProcess [] ([chainFile 1, chainFile 2].map GcdaFile.content)
      (chainSummary, CoverageDict.empty)).map (fun state => state.2.lineCount [97, 46, 99] 7) =
        .ok 2 := by decide +kernel
  rw [ran] at shared
  have counted : final.2.lineCount [97, 46, 99] 7 = 2 := Except.ok.inj shared
  rw [counted, if_pos (by decide)] at line
  exact absurd line (by decide +kernel)

end Vts.Coverage
