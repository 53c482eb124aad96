import Mathlib.Data.List.GetD
import Mathlib.Algebra.BigOperators.Group.List.Basic
import Mathlib.Tactic.Ring
import Vts.Lib.Dictionary

/-!
# Coverage summaries: arcs, blocks and functions

`arc_summary.py`, `block_summary.py`, `function_summary.py` and
`file_summary.py`. The Python objects refer to each other: a block lists its
entry and exit arcs, an arc names its two blocks, and `a != self` compares
identities. Here a function owns its block list, as in the source, and a heap of
its arc objects in order of creation. A reference to an arc is its heap position
and a reference to a block is its position in the block list.

`ArcSummary.resolve` and `FunctionSummary.resolve` are the two `Resolve` methods.
The worklist loop is run with a fuel that `resolveLoop_completes` proves large
enough for every function graph, well formed or not.
-/

namespace Vts.Coverage

open List

/-- `ArcSummary`. The two blocks are positions in the function's block list. -/
structure ArcSummary where
  srcBlock : Nat
  dstBlock : Nat
  onTree : Bool
  fake : Bool
  fallthrough : Bool
  resolved : Bool
  count : Int
deriving DecidableEq, Inhabited

/-- `ArcSummary.GCOV_ARC_ON_TREE`, `GCOV_ARC_FAKE` and `GCOV_ARC_FALLTHROUGH`. -/
def gcovArcOnTree : Nat := 1
@[inherit_doc gcovArcOnTree] def gcovArcFake : Nat := 1 <<< 1
@[inherit_doc gcovArcOnTree] def gcovArcFallthrough : Nat := 1 <<< 2

/-- `ArcSummary.__init__`: the flag word is split and nothing is resolved yet. -/
def ArcSummary.init (srcBlock dstBlock flag : Nat) : ArcSummary where
  srcBlock := srcBlock
  dstBlock := dstBlock
  onTree := flag &&& gcovArcOnTree != 0
  fake := flag &&& gcovArcFake != 0
  fallthrough := flag &&& gcovArcFallthrough != 0
  resolved := false
  count := 0

/-- `BlockSummary`. The arc lists hold heap positions of the function's arcs. -/
structure BlockSummary where
  index : Nat
  flag : Nat
  entryArcs : List Nat
  exitArcs : List Nat
  count : Int
  lines : List Nat
deriving DecidableEq, Inhabited

/-- `BlockSummary.__init__`. -/
def BlockSummary.init (index flag : Nat) : BlockSummary where
  index := index
  flag := flag
  entryArcs := []
  exitArcs := []
  count := 0
  lines := []

/-- `FunctionSummary`, with the heap of its arcs. Names are byte strings, as
Python 2 reads them from the stream. -/
structure FunctionSummary where
  blocks : List BlockSummary
  ident : Nat
  name : List UInt8
  srcFileName : List UInt8
  firstLineNumber : Nat
  arcs : List ArcSummary
deriving DecidableEq, Inhabited

/-- `FunctionSummary.__init__`. -/
def FunctionSummary.init (ident : Nat) (name srcFileName : List UInt8)
    (firstLineNumber : Nat) : FunctionSummary where
  blocks := []
  ident := ident
  name := name
  srcFileName := srcFileName
  firstLineNumber := firstLineNumber
  arcs := []

variable (func : FunctionSummary) (reference : Nat)

namespace FunctionSummary

/-- Dereference an arc. The default is never read in a well-formed function. -/
def arc (func : FunctionSummary) (reference : Nat) : ArcSummary := func.arcs.getD reference default

/-- Dereference a block. -/
def block (func : FunctionSummary) (reference : Nat) : BlockSummary :=
  func.blocks.getD reference default

/-- Store an arc object back into the heap. -/
def setArc (func : FunctionSummary) (reference : Nat) (value : ArcSummary) : FunctionSummary :=
  { func with arcs := func.arcs.set reference value }

/-- Store a block object back into the block list. -/
def setBlock (func : FunctionSummary) (reference : Nat) (value : BlockSummary) :
    FunctionSummary :=
  { func with blocks := func.blocks.set reference value }

/-- `all(a.resolved for a in arcs)`. -/
def allResolved (func : FunctionSummary) (arcs : List Nat) : Bool :=
  arcs.all (fun reference => (func.arc reference).resolved)

/-- `sum(a.count for a in arcs)`. -/
def sumCounts (func : FunctionSummary) (arcs : List Nat) : Int :=
  (arcs.map (fun reference => (func.arc reference).count)).sum

section

variable (other : Nat) (value : ArcSummary)

@[simp] theorem setArc_length : (func.setArc reference value).arcs.length = func.arcs.length := by
  simp [setArc]

/-- Reading the heap after a write, at a stored position. -/
theorem setArc_arc (stored : reference < func.arcs.length) :
    (func.setArc reference value).arc other =
      if other = reference then value else func.arc other := by
  by_cases same : other = reference
  · subst same
    simp [arc, setArc, stored]
  · have distinct : reference ≠ other := fun equal => same equal.symm
    simp [arc, setArc, getD_eq_getElem?_getD, List.getElem?_set_ne distinct, same]

/-- Reading the block list after a write, at a stored position. -/
theorem setBlock_block (value : BlockSummary) (stored : reference < func.blocks.length) :
    (func.setBlock reference value).block other =
      if other = reference then value else func.block other := by
  by_cases same : other = reference
  · subst same
    simp [block, setBlock, stored]
  · have distinct : reference ≠ other := fun equal => same equal.symm
    simp [block, setBlock, getD_eq_getElem?_getD, List.getElem?_set_ne distinct, same]

end

end FunctionSummary

namespace ArcSummary

/-- The second branch of `ArcSummary.Resolve`: the source block has entry arcs,
all of them are resolved, and so is every other exit arc. -/
def resolvesAtSource (func : FunctionSummary) (self : Nat) : Bool :=
  let src := func.block (func.arc self).srcBlock
  decide (src.entryArcs.length > 0) && func.allResolved src.entryArcs &&
    func.allResolved (src.exitArcs.filter (· != self))

/-- The third branch of `ArcSummary.Resolve`, at the destination block. -/
def resolvesAtTarget (func : FunctionSummary) (self : Nat) : Bool :=
  let dst := func.block (func.arc self).dstBlock
  decide (dst.exitArcs.length > 0) && func.allResolved dst.exitArcs &&
    func.allResolved (dst.entryArcs.filter (· != self))

/-- A fake arc that is not a fallthrough is dropped, never given a count. -/
def dropped (arc : ArcSummary) : Bool := arc.fake && !arc.fallthrough

/-- `ArcSummary.Resolve`, on the heap of the function that owns the arc. -/
def resolve (func : FunctionSummary) (self : Nat) : Bool × FunctionSummary :=
  let arc := func.arc self
  let src := func.block arc.srcBlock
  let dst := func.block arc.dstBlock
  if arc.dropped then
    -- `list.remove` takes the first occurrence; its ValueError is swallowed.
    (true, func.setBlock arc.srcBlock { src with exitArcs := src.exitArcs.erase self })
  else if resolvesAtSource func self then
    let inFlow := func.sumCounts src.entryArcs
    let outFlow := func.sumCounts (src.exitArcs.filter (· != self))
    (true, func.setArc self { arc with count := inFlow - outFlow, resolved := true })
  else if resolvesAtTarget func self then
    let outFlow := func.sumCounts dst.exitArcs
    let inFlow := func.sumCounts (dst.entryArcs.filter (· != self))
    (true, func.setArc self { arc with count := outFlow - inFlow, resolved := true })
  else
    (false, func)

end ArcSummary

namespace FunctionSummary

/-- The list built by the first loop of `FunctionSummary.Resolve`. -/
def unresolvedArcs (func : FunctionSummary) : List Nat :=
  func.blocks.flatMap (fun block =>
    block.exitArcs.filter (fun reference => !(func.arc reference).resolved))

/-- The worklist loop of `FunctionSummary.Resolve`, with its index and
`prev_length` variables. The result is `none` only when the fuel runs out. -/
def resolveLoop : Nat → Nat → Nat → List Nat → FunctionSummary →
    Option (Bool × FunctionSummary)
  | 0, _, _, _, _ => none
  | fuel + 1, index, prevLength, unresolved, func =>
    if unresolved.length = 0 then some (true, func)
    else if index % unresolved.length = 0 ∧ unresolved.length = prevLength then
      some (false, func)
    else
      let position := index % unresolved.length
      let arc := unresolved.getD position 0
      if (ArcSummary.resolve func arc).1 then
        resolveLoop fuel position unresolved.length (unresolved.erase arc)
          (ArcSummary.resolve func arc).2
      else
        resolveLoop fuel (position + 1) unresolved.length unresolved
          (ArcSummary.resolve func arc).2

/-- The last loop of `FunctionSummary.Resolve`. -/
def resolveBlocks (func : FunctionSummary) : FunctionSummary :=
  { func with blocks := func.blocks.map (fun block =>
      { block with count :=
          if block.entryArcs.length ≠ 0 then func.sumCounts block.entryArcs
          else func.sumCounts block.exitArcs }) }

/-- Fuel beyond the measure below lets the loop return, on any worklist and any
heap. A success shortens the worklist. A failure either moves the index toward
the end, or ends the pass in which the worklist was last shortened; a pass that
starts with an unchanged length returns at once. -/
theorem resolveLoop_completes (fuel index prevLength : Nat) (unresolved : List Nat)
    (func : FunctionSummary) (inside : index ≤ unresolved.length)
    (enough : unresolved.length * (unresolved.length + 3) +
      (if prevLength = unresolved.length then unresolved.length - index
        else unresolved.length + 1) < fuel) :
    ∃ result, resolveLoop fuel index prevLength unresolved func = some result := by
  induction fuel generalizing index prevLength unresolved func with
  | zero => omega
  | succ fuel ih =>
    unfold resolveLoop
    by_cases empty : unresolved.length = 0
    · exact ⟨(true, func), by simp only [if_pos empty]⟩
    by_cases stop : index % unresolved.length = 0 ∧ unresolved.length = prevLength
    · exact ⟨(false, func), by simp only [if_neg empty, if_pos stop]⟩
    simp only [if_neg empty, if_neg stop]
    have position : index % unresolved.length < unresolved.length := Nat.mod_lt _ (by omega)
    have member : unresolved.getD (index % unresolved.length) 0 ∈ unresolved := by
      rw [getD_eq_getElem _ _ position]
      exact getElem_mem position
    have shorter := length_erase_of_mem member
    split
    · apply ih
      · omega
      · rw [shorter, if_neg (by omega)]
        obtain ⟨rest, length⟩ : ∃ rest, unresolved.length = rest + 1 :=
          ⟨unresolved.length - 1, by omega⟩
        rw [length] at enough ⊢
        have expanded : (rest + 1) * (rest + 1 + 3) = rest * (rest + 3) + 2 * rest + 4 := by ring
        have reduced : (rest + 1 - 1) * (rest + 1 - 1 + 3) = rest * (rest + 3) := by simp
        rw [expanded] at enough
        rw [reduced]
        omega
    · apply ih
      · omega
      · rw [if_pos rfl]
        by_cases unchanged : prevLength = unresolved.length
        · have moved : index % unresolved.length ≠ 0 := fun zero => stop ⟨zero, unchanged.symm⟩
          have before : index < unresolved.length := by
            rcases Nat.lt_or_eq_of_le inside with before | atEnd
            · exact before
            · exact absurd (by rw [atEnd, Nat.mod_self]) moved
          rw [if_pos unchanged] at enough
          rw [Nat.mod_eq_of_lt before]
          omega
        · rw [if_neg unchanged] at enough
          omega

/-- The fuel given to the loop: one more than its measure at the start. -/
def resolveFuel (unresolved : List Nat) : Nat := (unresolved.length + 1) * (unresolved.length + 3)

theorem resolveLoop_returns :
    ∃ result, resolveLoop (resolveFuel func.unresolvedArcs) 0 (func.unresolvedArcs.length + 1)
      func.unresolvedArcs func = some result := by
  apply resolveLoop_completes
  · omega
  · rw [if_neg (by omega), resolveFuel]
    have expanded (n : Nat) : (n + 1) * (n + 3) = n * (n + 3) + n + 3 := by ring
    rw [expanded]
    omega

/-- The state in which the worklist loop of `FunctionSummary.Resolve` returns,
with the value it decides. The proved bound excludes the unfinished case. -/
def resolveArcs (func : FunctionSummary) : Bool × FunctionSummary :=
  (resolveLoop (resolveFuel func.unresolvedArcs) 0 (func.unresolvedArcs.length + 1)
    func.unresolvedArcs func).get (by
      obtain ⟨result, returned⟩ := resolveLoop_returns func
      simp [returned])

theorem resolveArcs_eq :
    resolveLoop (resolveFuel func.unresolvedArcs) 0 (func.unresolvedArcs.length + 1)
      func.unresolvedArcs func = some (resolveArcs func) :=
  (Option.some_get _).symm

/-- `FunctionSummary.Resolve`: the block counts are only written on success. -/
def resolve (func : FunctionSummary) : Bool × FunctionSummary :=
  if (resolveArcs func).1 then (true, resolveBlocks (resolveArcs func).2)
  else (false, (resolveArcs func).2)

theorem resolve_fst : (resolve func).1 = (resolveArcs func).1 := by
  unfold resolve
  cases (resolveArcs func).1 <;> rfl

end FunctionSummary

/-- `FileSummary`: the dictionary of functions, as key and value pairs in the order
of insertion. -/
structure FileSummary where
  functions : List (Nat × FunctionSummary)
deriving DecidableEq

namespace FileSummary

/-- `FileSummary.__init__`. -/
def init : FileSummary := ⟨[]⟩

/-- `self.functions[ident]`, with `none` for a `KeyError`. -/
def get? (self : FileSummary) (ident : Nat) : Option FunctionSummary := self.functions.lookup ident

/-- `self.functions[ident] = func`: a present key keeps its place. -/
def insert (self : FileSummary) (ident : Nat) (func : FunctionSummary) : FileSummary :=
  if (self.get? ident).isSome then
    ⟨self.functions.map (fun entry => if entry.1 = ident then (ident, func) else entry)⟩
  else ⟨self.functions ++ [(ident, func)]⟩

section

variable (summary : FileSummary) (ident : Nat)

theorem get?_isSome :
    (summary.get? ident).isSome = true ↔ ident ∈ summary.functions.map Prod.fst := by
  unfold get?
  induction summary.functions with
  | nil => simp
  | cons entry rest ih =>
    obtain ⟨key, func⟩ := entry
    rw [lookup_cons]
    by_cases same : ident == key
    · simp [beq_iff_eq.mp same]
    · have distinct : ident ≠ key := by simpa using same
      simp [same, distinct, ih]

/-- With distinct keys every entry is found under its key. -/
theorem get?_of_mem (distinct : (summary.functions.map Prod.fst).Nodup)
    {entry : Nat × FunctionSummary} (member : entry ∈ summary.functions) :
    summary.get? entry.1 = some entry.2 :=
  Lib.lookup_of_mem distinct member

theorem mem_of_get? {summary : FileSummary} {ident : Nat} {func : FunctionSummary}
    (stored : summary.get? ident = some func) : (ident, func) ∈ summary.functions := by
  obtain ⟨before, after, equal, _⟩ := lookup_eq_some_iff.mp stored
  rw [equal]
  simp

/-- Writing a present key changes what is found there and nothing else. -/
theorem insert_get? (other : Nat) (func : FunctionSummary)
    (present : (summary.get? ident).isSome = true) :
    (summary.insert ident func).get? other =
      if other = ident then some func else summary.get? other := by
  have lookup (entries : List (Nat × FunctionSummary)) :
      (entries.map (fun entry => if entry.1 = ident then (ident, func) else entry)).lookup other =
        if other = ident then (entries.lookup ident).map (fun _ => func)
        else entries.lookup other := by
    induction entries with
    | nil => simp
    | cons entry rest ih =>
      obtain ⟨key, old⟩ := entry
      rw [map_cons, lookup_cons]
      by_cases atKey : key = ident
      · by_cases same : other = ident
        · simp [atKey, same]
        · have differs : (other == ident) = false := by simpa using same
          simp [lookup_cons, atKey, differs, same, ih]
      · by_cases same : other = ident
        · have differs : (ident == key) = false := by simpa using Ne.symm atKey
          simp only [if_neg atKey, same, if_true, lookup_cons, differs]
            at ih ⊢
          exact ih
        · simp only [if_neg atKey, if_neg same, lookup_cons] at ih ⊢
          rw [ih]
  obtain ⟨old, stored⟩ := Option.isSome_iff_exists.mp present
  unfold get? at stored
  rw [insert, if_pos present, get?, lookup, stored]
  rfl

end

end FileSummary

end Vts.Coverage
