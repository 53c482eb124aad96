import Vts.Lib.Saturation
import Vts.Coverage.Graph

/-!
# When the worklist loop gives up

`FunctionSummary.Resolve` walks its worklist from front to back and starts over.
At the start of a pass it compares the length of the worklist with `prev_length`,
and `prev_length` is rewritten on every iteration, not once per pass. The loop
therefore stops at the end of the first pass whose last arc could not be
resolved, whatever else that pass resolved before.

`pass` is one such walk, written without the guard. `resolveArcs_decides` proves
that the loop agrees with passes until the last arc of a pass is left over. The
resolution rule itself is monotone, so a stop in a state where nothing can be
resolved is never premature; a stop in any other state may be.
-/

namespace Vts.Coverage

open List ArcSummary

namespace FunctionSummary

/-- One successful attempt at any unresolved exit arc. -/
def ResolveStep (before after : FunctionSummary) : Prop :=
  ∃ arc ∈ before.unresolvedArcs, ArcSummary.resolve before arc = (true, after)

/-- Some sequence of successful attempts leaves no exit arc unresolved. -/
def Resolvable (func : FunctionSummary) : Prop :=
  ∃ final, Relation.ReflTransGen ResolveStep func final ∧ final.unresolvedArcs = []

/-- No unresolved exit arc can be resolved. -/
def Stuck (func : FunctionSummary) : Prop :=
  ∀ arc ∈ func.unresolvedArcs, (ArcSummary.resolve func arc).1 = false

/-- Attempt the listed arcs once each, from left to right. -/
def attempt (func : FunctionSummary) (arcs : List Nat) : FunctionSummary :=
  arcs.foldl (fun current arc => (ArcSummary.resolve current arc).2) func

@[simp] theorem attempt_nil (func : FunctionSummary) : func.attempt [] = func := rfl

@[simp] theorem attempt_cons (func : FunctionSummary) (arc : Nat) (rest : List Nat) :
    func.attempt (arc :: rest) = (ArcSummary.resolve func arc).2.attempt rest := rfl

/-- One unguarded walk over the arcs that are unresolved at its start. -/
def pass (func : FunctionSummary) : FunctionSummary := func.attempt func.unresolvedArcs

/-- Every pass resolves the last arc of its worklist, or else leaves a state in
which no arc can be resolved. -/
def PassesEndResolved (func : FunctionSummary) : Prop :=
  ∀ passes last, (pass^[passes] func).unresolvedArcs.getLast? = some last →
    last ∉ (pass^[passes + 1] func).unresolvedArcs ∨ Stuck (pass^[passes + 1] func)

/-! ## One attempt -/

section Attempts

variable {func : FunctionSummary}

theorem resolve_sameGraph (noFake : func.NoFake) (arc : Nat) :
    SameGraph func (ArcSummary.resolve func arc).2 := by
  cases outcome : (ArcSummary.resolve func arc).1 with
  | false =>
    rw [resolve_failure func arc outcome]
    exact SameGraph.refl func
  | true =>
    obtain ⟨count, equal⟩ := resolve_success func arc (noFake.dropped arc) outcome
    rw [equal]
    exact setArc_sameGraph func arc count true

theorem resolve_marks (noFake : func.NoFake) {arc : Nat} (stored : arc < func.arcs.length)
    (succeeded : (ArcSummary.resolve func arc).1 = true) (other : Nat) :
    ((ArcSummary.resolve func arc).2.arc other).resolved =
      (decide (other = arc) || (func.arc other).resolved) := by
  obtain ⟨count, equal⟩ := resolve_success func arc (noFake.dropped arc) succeeded
  rw [equal]
  simp only [setArc_arc func arc other _ stored]
  by_cases same : other = arc <;> simp [same]

/-- A success takes exactly its arc out of the worklist. -/
theorem resolve_unresolvedArcs (graph : func.WellFormed) (noFake : func.NoFake) {arc : Nat}
    (pending : arc ∈ func.unresolvedArcs) (succeeded : (ArcSummary.resolve func arc).1 = true) :
    (ArcSummary.resolve func arc).2.unresolvedArcs = func.unresolvedArcs.erase arc := by
  have stored := graph.exit_stored ((mem_unresolvedArcs func arc).mp pending).1
  have sameExits : (ArcSummary.resolve func arc).2.exitArcs = func.exitArcs := by
    simp only [exitArcs, (resolve_sameGraph noFake arc).blocks]
  rw [graph.unresolvedArcs_nodup.erase_eq_filter, unresolvedArcs_eq_filter,
    unresolvedArcs_eq_filter, sameExits, filter_filter]
  apply filter_congr
  intro other _
  rw [resolve_marks noFake stored succeeded other]
  by_cases same : other = arc <;> simp [same]

theorem resolve_attempt (graph : func.WellFormed) (noFake : func.NoFake) {arc : Nat}
    (pending : arc ∈ func.unresolvedArcs) :
    ((ArcSummary.resolve func arc).1 = true ∧
      (ArcSummary.resolve func arc).2.unresolvedArcs = func.unresolvedArcs.erase arc) ∨
    ((ArcSummary.resolve func arc).1 = false ∧ (ArcSummary.resolve func arc).2 = func) := by
  cases outcome : (ArcSummary.resolve func arc).1 with
  | true => exact .inl ⟨rfl, resolve_unresolvedArcs graph noFake pending outcome⟩
  | false => exact .inr ⟨rfl, by rw [resolve_failure func arc outcome]⟩

end Attempts

/-! ## The loop runs in passes -/

/-- From the middle of a pass, the loop attempts the rest of the pass in order.
It then returns False exactly when the last arc of the pass is still unresolved;
otherwise it stands at the start of the next pass with a stale `prev_length`.

The walked arcs that failed form the front of the worklist, so the index is their
number. The guard is assumed not to fire at the first step only: later in the
pass either the index is positive or the length has just changed. -/
theorem resolveLoop_pass (todo failed : List Nat) (fuel prevLength : Nat)
    (func : FunctionSummary) (result : Bool × FunctionSummary) (last : Nat)
    (graph : func.WellFormed) (noFake : func.NoFake)
    (worklist : func.unresolvedArcs = failed ++ todo) (final : todo.getLast? = some last)
    (running : ¬ (failed.length = 0 ∧ (failed ++ todo).length = prevLength))
    (returned : resolveLoop fuel failed.length prevLength (failed ++ todo) func = some result) :
    (last ∈ (func.attempt todo).unresolvedArcs ∧ result = (false, func.attempt todo)) ∨
    (last ∉ (func.attempt todo).unresolvedArcs ∧
      ∃ remaining, resolveLoop remaining (func.attempt todo).unresolvedArcs.length
        ((func.attempt todo).unresolvedArcs.length + 1) (func.attempt todo).unresolvedArcs
        (func.attempt todo) = some result) := by
  induction todo generalizing failed fuel prevLength func with
  | nil => simp at final
  | cons arc rest ih =>
    cases fuel with
    | zero => simp [resolveLoop] at returned
    | succ fuel =>
      have pending : arc ∈ func.unresolvedArcs := by simp [worklist]
      have unique : (failed ++ arc :: rest).Nodup := worklist ▸ graph.unresolvedArcs_nodup
      have fresh : arc ∉ failed := fun member =>
        (nodup_append.mp unique).2.2 arc member arc (by simp) rfl
      have position : failed.length % (failed ++ arc :: rest).length = failed.length :=
        Nat.mod_eq_of_lt (by simp)
      have current : (failed ++ arc :: rest).getD failed.length 0 = arc := by
        simp [getD_eq_getElem?_getD]
      have nonempty : (failed ++ arc :: rest).length ≠ 0 := by simp
      unfold resolveLoop at returned
      simp only [if_neg nonempty, position, if_neg running, current] at returned
      rw [attempt_cons]
      rcases resolve_attempt graph noFake pending with ⟨succeeded, shorter⟩ | ⟨failure, unchanged⟩
      · have erased : (failed ++ arc :: rest).erase arc = failed ++ rest := by
          rw [erase_append_right _ fresh, erase_cons_head]
        rw [worklist, erased] at shorter
        rw [if_pos succeeded, erased] at returned
        have same := resolve_sameGraph noFake arc
        cases rest with
        | nil =>
          -- The last arc was resolved: the worklist is one shorter than `prev_length`.
          have isLast : arc = last := by simpa using final
          subst isLast
          rw [append_nil] at shorter returned
          rw [attempt_nil, shorter]
          exact .inr ⟨fresh, fuel, by simpa using returned⟩
        | cons second others =>
          apply ih failed fuel _ _ (same.wellFormed graph) (same.noFake noFake)
            shorter (by simpa using final) _ returned
          rintro ⟨_, equal⟩
          simp at equal
      · rw [if_neg (by simp [failure]), unchanged] at returned
        rw [unchanged]
        cases rest with
        | nil =>
          -- The last arc failed: the index wraps to 0 and the lengths agree.
          have isLast : arc = last := by simpa using final
          subst isLast
          refine .inl ⟨pending, ?_⟩
          cases fuel with
          | zero => simp [resolveLoop] at returned
          | succ fuel =>
            unfold resolveLoop at returned
            have wrapped : (failed.length + 1) % (failed ++ [arc]).length = 0 := by simp
            rw [if_neg nonempty, if_pos ⟨wrapped, rfl⟩] at returned
            exact (Option.some.inj returned).symm
        | cons second others =>
          have regroup : failed ++ arc :: second :: others =
              (failed ++ [arc]) ++ second :: others := by simp
          have index : failed.length + 1 = (failed ++ [arc]).length := by simp
          rw [index, regroup] at returned
          rw [regroup] at worklist
          apply ih (failed ++ [arc]) fuel _ func graph noFake worklist
            (by simpa using final) _ returned
          simp

section

variable (arcs : List Nat) (passes : Nat) (func : FunctionSummary)

theorem attempt_sameGraph (noFake : func.NoFake) : SameGraph func (func.attempt arcs) := by
  induction arcs generalizing func with
  | nil => exact SameGraph.refl func
  | cons arc rest ih =>
    have same := resolve_sameGraph noFake arc
    exact same.trans (ih _ (same.noFake noFake))

theorem pass_sameGraph (noFake : func.NoFake) : SameGraph func (pass^[passes] func) := by
  induction passes generalizing func with
  | zero => exact SameGraph.refl func
  | succ passes ih =>
    have same := attempt_sameGraph func.unresolvedArcs func noFake
    exact same.trans (ih (pass func) (same.noFake noFake))

/-- Attempts never take a mark back. -/
theorem attempt_keeps_resolved (graph : func.WellFormed) (noFake : func.NoFake) (arc : Nat)
    (marked : (func.arc arc).resolved = true) : ((func.attempt arcs).arc arc).resolved = true := by
  induction arcs generalizing func with
  | nil => exact marked
  | cons first rest ih =>
    have same := resolve_sameGraph noFake first
    apply ih _ (same.wellFormed graph) (same.noFake noFake)
    cases outcome : (ArcSummary.resolve func first).1 with
    | false => rwa [resolve_failure func first outcome]
    | true =>
      obtain ⟨count, equal⟩ :=
        resolve_success func first (noFake.dropped first) outcome
      rw [equal]
      by_cases stored : first < func.arcs.length
      · rw [setArc_arc func first arc _ stored]
        split
        · rfl
        · exact marked
      · simpa [setArc, set_eq_of_length_le (Nat.le_of_not_lt stored)] using marked

/-- A pass keeps the order of the arcs it leaves. -/
theorem pass_sublist (graph : func.WellFormed) (noFake : func.NoFake) :
    (pass func).unresolvedArcs.Sublist func.unresolvedArcs := by
  have sameExits : (pass func).exitArcs = func.exitArcs := by
    simp only [exitArcs, pass, (attempt_sameGraph func.unresolvedArcs func noFake).blocks]
  rw [unresolvedArcs_eq_filter, unresolvedArcs_eq_filter func, sameExits]
  apply monotone_filter_right
  intro arc left
  cases marked : (func.arc arc).resolved with
  | false => rfl
  | true =>
    have still : ((pass func).arc arc).resolved = true :=
      attempt_keeps_resolved func.unresolvedArcs func graph noFake arc marked
    simp [still] at left

/-- A pass over a stuck state does nothing. -/
theorem pass_stuck (stuck : func.Stuck) : pass func = func := by
  have attempts (arcs : List Nat)
      (fails : ∀ arc ∈ arcs, (ArcSummary.resolve func arc).1 = false) :
      func.attempt arcs = func := by
    induction arcs with
    | nil => rfl
    | cons arc rest ih =>
      rw [attempt_cons, resolve_failure func arc (fails arc (by simp))]
      exact ih (fun other member => fails other (by simp [member]))
  exact attempts func.unresolvedArcs stuck

theorem passes_stuck (stuck : func.Stuck) : pass^[passes] func = func :=
  Function.iterate_fixed (pass_stuck func stuck) passes

/-- With an empty worklist every later pass is empty too. -/
theorem empty_stuck (empty : func.unresolvedArcs = []) : func.Stuck := by
  intro arc member
  rw [empty] at member
  exact absurd member not_mem_nil

end

/-- An index at the end of the worklist means the first position. -/
theorem resolveLoop_wrap (fuel prevLength : Nat) (unresolved : List Nat) (func : FunctionSummary) :
    resolveLoop fuel unresolved.length prevLength unresolved func =
      resolveLoop fuel 0 prevLength unresolved func := by
  cases fuel with
  | zero => rfl
  | succ fuel => simp [resolveLoop]

/-- What the loop decides, from the start of any pass.

Induct on the length of the worklist. A pass whose last arc is left over ends the
loop with False in the state after the pass, so the promise about that state is
the promise about this pass; later passes of a stuck state repeat it. A pass that
resolves its last arc shortens the worklist and hands over to the next pass. -/
theorem resolveLoop_decides (length fuel index prevLength : Nat) (func : FunctionSummary)
    (result : Bool × FunctionSummary) (graph : func.WellFormed) (noFake : func.NoFake)
    (bound : func.unresolvedArcs.length ≤ length)
    (atStart : index = 0 ∨ index = func.unresolvedArcs.length)
    (changed : func.unresolvedArcs.length ≠ prevLength)
    (returned : resolveLoop fuel index prevLength func.unresolvedArcs func = some result) :
    (∃ passes, result.2 = pass^[passes] func) ∧
      (result.1 = false → result.2.unresolvedArcs ≠ []) ∧
      ((result.1 = false → Stuck result.2) ↔ PassesEndResolved func) := by
  induction length generalizing fuel index prevLength func with
  | zero =>
    have empty : func.unresolvedArcs = [] := eq_nil_of_length_eq_zero (by omega)
    cases fuel with
    | zero => simp [resolveLoop] at returned
    | succ fuel =>
      unfold resolveLoop at returned
      rw [if_pos (by simp [empty])] at returned
      obtain rfl := Option.some.inj returned
      refine ⟨⟨0, rfl⟩, by simp, ?_⟩
      have quiet : PassesEndResolved func := by
        intro passes last final
        rw [passes_stuck passes func (empty_stuck func empty), empty] at final
        cases final
      simp [quiet]
  | succ length ih =>
    cases final : func.unresolvedArcs.getLast? with
    | none =>
      have empty : func.unresolvedArcs = [] := List.getLast?_eq_none_iff.mp final
      exact ih fuel index prevLength func graph noFake (by simp [empty]) atStart
        changed returned
    | some last =>
      have nonempty : func.unresolvedArcs ≠ [] := by
        intro empty
        rw [empty] at final
        cases final
      have positive : 0 < func.unresolvedArcs.length := length_pos_iff.mpr nonempty
      have restarted : resolveLoop fuel 0 prevLength func.unresolvedArcs func = some result := by
        rcases atStart with rfl | rfl
        · exact returned
        · rwa [resolveLoop_wrap] at returned
      rcases resolveLoop_pass func.unresolvedArcs [] fuel prevLength func result last graph noFake
          rfl final (fun both => changed both.2) restarted with
        ⟨left, rfl⟩ | ⟨resolved, remaining, continued⟩
      · refine ⟨⟨1, rfl⟩, fun _ empty => ?_, ?_⟩
        · change (pass func).unresolvedArcs = [] at empty
          change last ∈ (pass func).unresolvedArcs at left
          rw [empty] at left
          exact absurd left not_mem_nil
        · constructor
          · intro stops passes other atEnd
            have stuck : Stuck (pass func) := stops rfl
            refine .inr ?_
            rw [Function.iterate_succ_apply, passes_stuck passes _ stuck]
            exact stuck
          · intro ends _
            exact (ends 0 last final).resolve_left (fun absent => absent left)
      · have same := attempt_sameGraph func.unresolvedArcs func noFake
        have shorter : (pass func).unresolvedArcs.length ≤ length := by
          have kept := pass_sublist func graph noFake
          have strict : (pass func).unresolvedArcs.length ≠ func.unresolvedArcs.length := by
            intro equal
            exact resolved ((kept.eq_of_length equal).symm ▸ mem_of_getLast? final)
          have bounded := kept.length_le
          omega
        obtain ⟨⟨passes, reached⟩, remains, decides⟩ :=
          ih remaining _ _ (pass func) (same.wellFormed graph)
            (same.noFake noFake) shorter (.inr rfl) (Nat.ne_of_lt (Nat.lt_succ_self _)) continued
        refine ⟨⟨passes + 1, reached⟩, remains, decides.trans ?_⟩
        constructor
        · intro ends passes other atEnd
          cases passes with
          | zero =>
            have isLast : last = other := Option.some.inj (final.symm.trans atEnd)
            exact .inl (isLast ▸ resolved)
          | succ passes => exact ends passes other atEnd
        · intro ends passes other atEnd
          exact ends (passes + 1) other atEnd

/-! ## The resolution rule is monotone -/

/-- The arcs with a resolution mark. -/
def marked (func : FunctionSummary) : Set Nat := {arc | (func.arc arc).resolved = true}

/-- `ArcSummary.Resolve` as a rule over sets of marked arcs. -/
def rules (func : FunctionSummary) : Lib.Saturation.Rules Nat where
  enabled known self :=
    (0 < (func.block (func.arc self).srcBlock).entryArcs.length ∧
      (∀ arc ∈ (func.block (func.arc self).srcBlock).entryArcs, arc ∈ known) ∧
      ∀ arc ∈ (func.block (func.arc self).srcBlock).exitArcs, arc ≠ self → arc ∈ known) ∨
    (0 < (func.block (func.arc self).dstBlock).exitArcs.length ∧
      (∀ arc ∈ (func.block (func.arc self).dstBlock).exitArcs, arc ∈ known) ∧
      ∀ arc ∈ (func.block (func.arc self).dstBlock).entryArcs, arc ≠ self → arc ∈ known)
  monotone := by
    rintro known larger self included (⟨some, all, others⟩ | ⟨some, all, others⟩)
    · exact .inl ⟨some, fun arc member => included (all arc member),
        fun arc member distinct => included (others arc member distinct)⟩
    · exact .inr ⟨some, fun arc member => included (all arc member),
        fun arc member distinct => included (others arc member distinct)⟩

/-- The code's test and the rule agree in every state of the function. -/
theorem resolve_iff_enabled {origin func : FunctionSummary} (same : SameGraph origin func)
    (noFake : func.NoFake) (arc : Nat) :
    (ArcSummary.resolve func arc).1 = true ↔ (rules origin).enabled func.marked arc := by
  rw [resolve_succeeds_iff func arc (noFake.dropped arc)]
  simp [ArcSummary.resolvesAtSource, ArcSummary.resolvesAtTarget, rules, marked, allResolved,
    same.block, same.srcBlock, same.dstBlock, and_assoc, or_iff_not_imp_left]

/-- A successful attempt is a derivation step of the rule. -/
theorem ResolveStep.derives {origin before after : FunctionSummary}
    (graph : origin.WellFormed) (noFake : origin.NoFake) (same : SameGraph origin before)
    (step : ResolveStep before after) :
    SameGraph origin after ∧
      Lib.Saturation.Step (rules origin) {arc | arc ∈ origin.exitArcs} before.marked
        after.marked := by
  obtain ⟨arc, pending, equal⟩ := step
  have currentNoFake := same.noFake noFake
  obtain ⟨listed, unmarked⟩ := (mem_unresolvedArcs before arc).mp pending
  have stored := (same.wellFormed graph).exit_stored listed
  have sameAfter := resolve_sameGraph currentNoFake arc
  have marks := resolve_marks currentNoFake stored (by rw [equal])
  rw [equal] at sameAfter marks
  have sameExits : before.exitArcs = origin.exitArcs := by simp only [exitArcs, same.blocks]
  refine ⟨same.trans sameAfter, arc, ?_, ?_, ?_, ?_⟩
  · exact sameExits ▸ listed
  · simp [marked, unmarked]
  · exact (resolve_iff_enabled same currentNoFake arc).mp (by rw [equal])
  · ext other
    simp [marked, marks other]

/-- A run of successful attempts is a derivation. -/
theorem resolveSteps_derive {origin final : FunctionSummary} (graph : origin.WellFormed)
    (noFake : origin.NoFake) (run : Relation.ReflTransGen ResolveStep origin final) :
    SameGraph origin final ∧
      Relation.ReflTransGen
        (Lib.Saturation.Step (rules origin) {arc | arc ∈ origin.exitArcs})
        origin.marked final.marked := by
  induction run with
  | refl => exact ⟨SameGraph.refl origin, .refl⟩
  | tail _ last ih =>
    obtain ⟨same, derivation⟩ := ih
    obtain ⟨sameAfter, step⟩ := last.derives graph noFake same
    exact ⟨sameAfter, derivation.tail step⟩

/-- A stuck state above the start of a complete resolution is complete itself. -/
theorem stuck_of_resolvable {func stopped : FunctionSummary} (graph : func.WellFormed)
    (noFake : func.NoFake) (same : SameGraph func stopped) (grown : func.marked ⊆ stopped.marked)
    (stuck : stopped.Stuck) (resolvable : func.Resolvable) : stopped.unresolvedArcs = [] := by
  obtain ⟨final, run, complete⟩ := resolvable
  obtain ⟨sameFinal, derivation⟩ := resolveSteps_derive graph noFake run
  have saturated : Lib.Saturation.Saturated (rules func) {arc | arc ∈ func.exitArcs}
      stopped.marked := by
    intro arc listed unmarked enabled
    have pending : arc ∈ stopped.unresolvedArcs := by
      refine (mem_unresolvedArcs stopped arc).mpr ⟨?_, by simpa [marked] using unmarked⟩
      simpa only [exitArcs, same.blocks, Set.mem_ofPred_eq] using listed
    have fails := stuck arc pending
    rw [(resolve_iff_enabled same (same.noFake noFake) arc).mpr enabled] at fails
    cases fails
  have included := Lib.Saturation.derived_subset_saturated (rules func) _ _ _ _ derivation grown
    saturated
  apply eq_nil_iff_forall_not_mem.mpr
  intro arc pending
  obtain ⟨listed, unmarked⟩ := (mem_unresolvedArcs stopped arc).mp pending
  have finished : arc ∈ final.marked := by
    by_contra open_
    have stillPending : arc ∈ final.unresolvedArcs := by
      refine (mem_unresolvedArcs final arc).mpr ⟨?_, by simpa [marked] using open_⟩
      simpa only [exitArcs, same.blocks, sameFinal.blocks] using listed
    rw [complete] at stillPending
    exact absurd stillPending not_mem_nil
  have stopMarked : (stopped.arc arc).resolved = true := included finished
  rw [unmarked] at stopMarked
  cases stopMarked

/-- Marks only grow over passes. -/
theorem passes_marked (passes : Nat) (func : FunctionSummary) (graph : func.WellFormed)
    (noFake : func.NoFake) : func.marked ⊆ (pass^[passes] func).marked := by
  induction passes generalizing func with
  | zero => exact fun _ member => member
  | succ passes ih =>
    have same := attempt_sameGraph func.unresolvedArcs func noFake
    exact fun arc member => ih (pass func) (same.wellFormed graph)
      (same.noFake noFake)
      (attempt_keeps_resolved func.unresolvedArcs func graph noFake arc member)

/-! ## The decision -/

section

variable (func : FunctionSummary)

/-- The loop of `FunctionSummary.Resolve`, started as the source starts it. -/
theorem resolveArcs_decides (graph : func.WellFormed) (noFake : func.NoFake) :
    (∃ passes, (resolveArcs func).2 = pass^[passes] func) ∧
      ((resolveArcs func).1 = false → (resolveArcs func).2.unresolvedArcs ≠ []) ∧
      (((resolveArcs func).1 = false → Stuck (resolveArcs func).2) ↔ PassesEndResolved func) :=
  resolveLoop_decides func.unresolvedArcs.length _ 0 _ func _ graph noFake (Nat.le_refl _)
    (.inl rfl) (Nat.ne_of_lt (Nat.lt_succ_self _)) (resolveArcs_eq func)

/-- On failure `FunctionSummary.Resolve` leaves the state in which its loop stopped. -/
theorem resolve_snd_of_false (failed : (resolve func).1 = false) :
    (resolve func).2 = (resolveArcs func).2 := by
  rw [resolve_fst] at failed
  simp [resolve, failed]

end

/-- `FunctionSummary.Resolve` is complete, in both of its readings, exactly when
every pass resolves the last arc of its worklist or leaves nothing resolvable.

A stop in a stuck state contradicts resolvability by saturation, so the reading
about the stopped state implies the reading about resolvable functions. -/
theorem resolve_complete_iff (func : FunctionSummary) (graph : func.WellFormed)
    (noFake : func.NoFake) :
    ((func.Resolvable → func.resolve.1 = true) ∧
      (func.resolve.1 = false → func.resolve.2.Stuck)) ↔ PassesEndResolved func := by
  obtain ⟨⟨passes, reached⟩, remains, decides⟩ := resolveArcs_decides func graph noFake
  have sameReading : (func.resolve.1 = false → func.resolve.2.Stuck) ↔ PassesEndResolved func := by
    rw [← decides, resolve_fst]
    constructor
    · intro stops failed
      rw [← resolve_snd_of_false func (by rwa [resolve_fst])]
      exact stops failed
    · intro stops failed
      rw [resolve_snd_of_false func (by rwa [resolve_fst])]
      exact stops failed
  constructor
  · intro both
    exact sameReading.mp both.2
  · intro ends
    have stops := sameReading.mpr ends
    refine ⟨?_, stops⟩
    intro resolvable
    by_contra notTrue
    have failed : func.resolve.1 = false := by simpa using notTrue
    have stuck := stops failed
    rw [resolve_snd_of_false func failed] at stuck
    rw [resolve_fst] at failed
    apply remains failed
    rw [reached] at stuck ⊢
    exact stuck_of_resolvable graph noFake (pass_sameGraph passes func noFake)
      (passes_marked passes func graph noFake) stuck resolvable

/-- Five blocks in a line, listed as second, third, first, fourth and fifth, with
the count of the last arc known. The other three can be resolved one after the
other against the direction of the flow. -/
def lineOfBlocks : FunctionSummary where
  blocks := [⟨0, 0, [2], [0], 0, []⟩, ⟨1, 0, [0], [1], 0, []⟩, ⟨2, 0, [], [2], 0, []⟩,
    ⟨3, 0, [1], [3], 0, []⟩, ⟨4, 0, [3], [], 0, []⟩]
  ident := 0
  name := []
  srcFileName := []
  firstLineNumber := 0
  arcs := [⟨0, 1, true, false, false, false, 0⟩, ⟨1, 3, true, false, false, false, 0⟩,
    ⟨2, 0, true, false, false, false, 0⟩, ⟨3, 4, false, false, false, true, 5⟩]

theorem resolve_step {func : FunctionSummary} (arc : Nat) (pending : arc ∈ func.unresolvedArcs)
    (succeeded : (ArcSummary.resolve func arc).1 = true) :
    ResolveStep func (ArcSummary.resolve func arc).2 :=
  ⟨arc, pending, by rw [← succeeded]⟩

/-- The same line in order, with the count of the first arc known. -/
def orderedLine : FunctionSummary where
  blocks := [⟨0, 0, [], [0], 0, []⟩, ⟨1, 0, [0], [1], 0, []⟩, ⟨2, 0, [1], [], 0, []⟩]
  ident := 0
  name := []
  srcFileName := []
  firstLineNumber := 0
  arcs := [⟨0, 1, false, false, false, true, 5⟩, ⟨1, 2, true, false, false, false, 0⟩]

/-- One pass resolves everything on the ordered line. -/
theorem orderedLine_complete : orderedLine.unresolvedArcs = [1] ∧ PassesEndResolved orderedLine :=
  ⟨by decide, (resolve_complete_iff orderedLine (by decide) (by decide)).mp
    ⟨fun _ => by decide, fun failed => absurd failed (by decide)⟩⟩

/-- The first pass resolves only its second arc, fails at the third and stops,
although the first and then the third could be resolved next. -/
theorem resolve_stops_early :
    lineOfBlocks.WellFormed ∧ lineOfBlocks.NoFake ∧ lineOfBlocks.Resolvable ∧
      lineOfBlocks.resolve.1 = false ∧ ¬ lineOfBlocks.resolve.2.Stuck := by
  refine ⟨by decide, by decide, ?_, by decide, ?_⟩
  · refine ⟨_, .head (resolve_step 1 (by decide) (by decide))
      (.head (resolve_step 0 (by decide) (by decide))
        (.head (resolve_step 2 (by decide) (by decide)) .refl)), by decide⟩
  · intro stuck
    exact absurd (stuck 0 (by decide)) (by decide)

end FunctionSummary

end Vts.Coverage
