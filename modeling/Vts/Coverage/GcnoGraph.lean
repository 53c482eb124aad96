import Vts.Coverage.GcnoParser

/-!
# What the GCNO parser builds

Every function in a parsed summary is a well-formed graph in which no arc is
resolved, no block has a count and every line number is positive. Each reader of
a record keeps this, so it holds along the whole parse. The parse also ends on
every stream: a record takes eight bytes at least.
-/

namespace Vts.Coverage

open Lib Lib.WordCodec List ByteReader FunctionSummary
open Python (Exception)

variable (count : Nat) (func : FunctionSummary)

namespace FunctionSummary

/-- A function as the GCNO parser leaves it: no counts, no marks, and only
positive line numbers. -/
structure Fresh (func : FunctionSummary) : Prop where
  arcs : ∀ arc ∈ func.arcs, arc.resolved = false ∧ arc.count = 0
  blocks : ∀ block ∈ func.blocks, block.count = 0
  lines : ∀ block ∈ func.blocks, ∀ line ∈ block.lines, 0 < line

section

variable {block src dst arc : Nat} {arcs : List Nat} {new : Nat} {appended : Prop}
  (reference other : Nat)

theorem addExit_block (stored : block < func.blocks.length) :
    (func.addExit block reference).block other = { func.block other with
      exitArcs := (func.block other).exitArcs ++ if other = block then [reference] else [] } := by
  rw [addExit, setBlock_block func block other _ stored]
  by_cases same : other = block <;> simp [same]

theorem addEntry_block (stored : block < func.blocks.length) :
    (func.addEntry block reference).block other = { func.block other with
      entryArcs := (func.block other).entryArcs ++ if other = block then [reference] else [] } := by
  rw [addEntry, setBlock_block func block other _ stored]
  by_cases same : other = block <;> simp [same]

/-- The blocks after a new arc, at every position. -/
theorem addArc_block (flag : Nat) (source : src < func.blocks.length)
    (target : dst < func.blocks.length) (block : Nat) :
    (func.addArc src dst flag).block block = { func.block block with
      exitArcs := (func.block block).exitArcs ++
        if block = src then [func.arcs.length] else []
      entryArcs := (func.block block).entryArcs ++
        if block = dst then [func.arcs.length] else [] } := by
  have exits := addExit_block { func with arcs := func.arcs ++ [ArcSummary.init src dst flag] }
    func.arcs.length block source
  have entries := addEntry_block ({ func with
    arcs := func.arcs ++ [ArcSummary.init src dst flag] }.addExit src func.arcs.length)
    func.arcs.length block (by simpa [addExit, setBlock] using target)
  exact entries.trans (by rw [exits]; rfl)

@[simp] theorem addArc_arcs (src dst flag : Nat) :
    (func.addArc src dst flag).arcs = func.arcs ++ [ArcSummary.init src dst flag] := rfl

@[simp] theorem addArc_blocks_length (src dst flag : Nat) :
    (func.addArc src dst flag).blocks.length = func.blocks.length := by
  simp [addArc, addExit, addEntry, setBlock]

/-- The heap after a new arc: old references keep their objects. -/
theorem addArc_arc (src dst flag : Nat) (stored : arc < func.arcs.length + 1) :
    (func.addArc src dst flag).arc arc =
      if arc = func.arcs.length then ArcSummary.init src dst flag else func.arc arc := by
  by_cases isNew : arc = func.arcs.length
  · simp [FunctionSummary.arc, isNew, getD_eq_getElem?_getD]
  · have old : arc < func.arcs.length := by omega
    simp [FunctionSummary.arc, isNew, getD_eq_getElem?_getD, List.getElem?_append_left old]

/-- The members of a list to which a new arc may have been appended. -/
theorem mem_extended [Decidable appended] :
    arc ∈ arcs ++ (if appended then [new] else []) ↔ arc ∈ arcs ∨ appended ∧ arc = new := by
  by_cases holds : appended <;> simp [holds]

theorem nodup_extended [Decidable appended] (unique : arcs.Nodup) (absent : new ∉ arcs) :
    (arcs ++ if appended then [new] else []).Nodup := by
  by_cases holds : appended
  · rw [if_pos holds]
    rw [← concat_eq_append]
    exact unique.concat absent
  · rwa [if_neg holds, append_nil]

theorem addArc_wellFormed (graph : func.WellFormed) (flag : Nat) (source : src < func.blocks.length)
    (target : dst < func.blocks.length) : (func.addArc src dst flag).WellFormed := by
  have length : (func.addArc src dst flag).arcs.length = func.arcs.length + 1 := by simp
  refine ⟨fun block arc member => ?_, fun arc stored real => ?_, fun block => ?_,
    fun block arc member => ?_, fun arc stored => ?_, fun block => ?_⟩
  · rw [addArc_block func flag source target, mem_extended] at member
    rcases member with old | ⟨atSource, rfl⟩
    · have before := graph.exitSound block arc old
      rw [addArc_arc func src dst flag (by omega), if_neg (by omega)]
      exact ⟨by omega, before.2⟩
    · rw [addArc_arc func src dst flag (by omega), if_pos rfl]
      exact ⟨by omega, atSource.symm⟩
  · rw [length] at stored
    rw [addArc_arc func src dst flag stored] at real ⊢
    rw [addArc_block func flag source target]
    by_cases isNew : arc = func.arcs.length
    · simp [isNew, ArcSummary.init]
    · rw [if_neg isNew] at real ⊢
      exact mem_append_left _ (graph.exitComplete arc (by omega) real)
  · rw [addArc_block func flag source target]
    apply nodup_extended (graph.exitNodup block)
    exact fun member => absurd (graph.exitSound block _ member).1 (Nat.lt_irrefl _)
  · rw [addArc_block func flag source target, mem_extended] at member
    rcases member with old | ⟨atTarget, rfl⟩
    · have before := graph.entrySound block arc old
      rw [addArc_arc func src dst flag (by omega), if_neg (by omega)]
      exact ⟨by omega, before.2⟩
    · rw [addArc_arc func src dst flag (by omega), if_pos rfl]
      exact ⟨by omega, atTarget.symm⟩
  · rw [length] at stored
    rw [addArc_arc func src dst flag stored, addArc_block func flag source target]
    by_cases isNew : arc = func.arcs.length
    · simp [isNew, ArcSummary.init]
    · rw [if_neg isNew]
      exact mem_append_left _ (graph.entryComplete arc (by omega))
  · rw [addArc_block func flag source target]
    apply nodup_extended (graph.entryNodup block)
    exact fun member => absurd (graph.entrySound block _ member).1 (Nat.lt_irrefl _)

/-- A well-formed graph without counts. -/
structure Pristine (func : FunctionSummary) : Prop where
  graph : func.WellFormed
  fresh : func.Fresh

theorem init_pristine (ident : Nat) (name srcFileName : List UInt8) (firstLineNumber : Nat) :
    (FunctionSummary.init ident name srcFileName firstLineNumber).Pristine := by
  constructor
  · rw [wellFormed_iff]
    simp [FunctionSummary.init]
  · constructor <;> simp [FunctionSummary.init]

theorem mem_blocks {func : FunctionSummary} {summary : BlockSummary}
    (member : summary ∈ func.blocks) :
    ∃ position < func.blocks.length, func.block position = summary := by
  obtain ⟨position, stored, rfl⟩ := mem_iff_getElem.mp member
  exact ⟨position, stored, getD_eq_getElem _ _ stored⟩

theorem block_mem {func : FunctionSummary} {position : Nat}
    (stored : position < func.blocks.length) : func.block position ∈ func.blocks := by
  rw [FunctionSummary.block, getD_eq_getElem _ _ stored]
  exact getElem_mem stored

theorem addArc_pristine {func : FunctionSummary} (pristine : func.Pristine) (flag : Nat)
    (source : src < func.blocks.length) (target : dst < func.blocks.length) :
    (func.addArc src dst flag).Pristine := by
  refine ⟨addArc_wellFormed func pristine.graph flag source target, ?_, ?_, ?_⟩
  · intro arc member
    rw [addArc_arcs, mem_append, mem_singleton] at member
    rcases member with old | rfl
    · exact pristine.fresh.arcs arc old
    · exact ⟨rfl, rfl⟩
  · intro block member
    obtain ⟨position, stored, rfl⟩ := mem_blocks member
    rw [addArc_blocks_length] at stored
    rw [addArc_block func flag source target]
    exact pristine.fresh.blocks (func.block position) (block_mem stored)
  · intro block member
    obtain ⟨position, stored, rfl⟩ := mem_blocks member
    rw [addArc_blocks_length] at stored
    rw [addArc_block func flag source target]
    exact pristine.fresh.lines (func.block position) (block_mem stored)

end

theorem append_pristine {func : FunctionSummary} (pristine : func.Pristine)
    (blocks : List BlockSummary)
    (blank : ∀ block ∈ blocks, ∃ index flag, block = BlockSummary.init index flag) :
    { func with blocks := func.blocks ++ blocks }.Pristine := by
  have lists (block : Nat) :
      ({ func with blocks := func.blocks ++ blocks }.block block).exitArcs =
          (func.block block).exitArcs ∧
        ({ func with blocks := func.blocks ++ blocks }.block block).entryArcs =
          (func.block block).entryArcs := by
    by_cases old : block < func.blocks.length
    · simp [FunctionSummary.block, getD_eq_getElem?_getD, List.getElem?_append_left old]
    · have beyond : func.blocks.length ≤ block := Nat.le_of_not_lt old
      rw [block_of_length_le func beyond]
      by_cases new : block < (func.blocks ++ blocks).length
      · have isNew : ({ func with blocks := func.blocks ++ blocks }.block block) ∈ blocks := by
          rw [FunctionSummary.block, getD_eq_getElem _ _ new,
            getElem_append_right beyond]
          exact getElem_mem _
        obtain ⟨index, flag, equal⟩ := blank _ isNew
        rw [equal]
        exact ⟨rfl, rfl⟩
      · rw [block_of_length_le _ (Nat.le_of_not_lt new)]
        exact ⟨rfl, rfl⟩
  refine ⟨pristine.graph.of_lists rfl lists, ⟨pristine.fresh.arcs, ?_, ?_⟩⟩
  · intro block member
    rcases mem_append.mp member with old | new
    · exact pristine.fresh.blocks block old
    · obtain ⟨index, flag, rfl⟩ := blank block new
      rfl
  · intro block member
    rcases mem_append.mp member with old | new
    · exact pristine.fresh.lines block old
    · obtain ⟨index, flag, rfl⟩ := blank block new
      simp [BlockSummary.init]

theorem setLines_pristine {func : FunctionSummary} (pristine : func.Pristine) (block : Nat)
    (lines : List Nat) (positive : ∀ line ∈ lines, 0 < line) :
    (func.setBlock block { func.block block with lines := lines }).Pristine := by
  by_cases inside : block < func.blocks.length
  · have lookup (other : Nat) := setBlock_block func block other
      { func.block block with lines := lines } inside
    have lists (other : Nat) :
        ((func.setBlock block { func.block block with lines := lines }).block other).exitArcs =
            (func.block other).exitArcs ∧
          ((func.setBlock block { func.block block with lines := lines }).block other).entryArcs =
            (func.block other).entryArcs := by
      rw [lookup other]
      by_cases same : other = block <;> simp [same]
    refine ⟨pristine.graph.of_lists rfl lists, ⟨pristine.fresh.arcs, ?_, ?_⟩⟩
    · intro summary member
      rcases mem_or_eq_of_mem_set member with old | rfl
      · exact pristine.fresh.blocks summary old
      · exact pristine.fresh.blocks (func.block block) (block_mem inside)
    · intro summary member
      rcases mem_or_eq_of_mem_set member with old | rfl
      · exact pristine.fresh.lines summary old
      · exact positive
  · have unchanged : func.setBlock block { func.block block with lines := lines } = func := by
      simp only [setBlock, set_eq_of_length_le (Nat.le_of_not_lt inside)]
    rw [unchanged]
    exact pristine

end FunctionSummary

namespace FileSummary

/-- The keys are distinct, each function is stored under its identifier, and every
function is pristine. -/
structure Parsed (summary : FileSummary) : Prop where
  distinct : (summary.functions.map Prod.fst).Nodup
  keyed : ∀ entry ∈ summary.functions, entry.2.ident = entry.1
  pristine : ∀ entry ∈ summary.functions, entry.2.Pristine

theorem init_parsed : init.Parsed := ⟨by simp [init], by simp [init], by simp [init]⟩

theorem insert_parsed {summary : FileSummary} (parsed : summary.Parsed) {func : FunctionSummary}
    (pristine : func.Pristine) : (summary.insert func.ident func).Parsed := by
  unfold insert
  split
  · refine ⟨?_, ?_, ?_⟩
    · have sameKeys : (summary.functions.map (fun entry =>
          if entry.1 = func.ident then (func.ident, func) else entry)).map Prod.fst =
          summary.functions.map Prod.fst := by
        rw [map_map]
        apply map_congr_left
        intro entry _
        by_cases same : entry.1 = func.ident <;> simp [same]
      rw [sameKeys]
      exact parsed.distinct
    · intro entry member
      obtain ⟨before, listed, rfl⟩ := mem_map.mp member
      by_cases same : before.1 = func.ident
      · simp [same]
      · simpa [same] using parsed.keyed before listed
    · intro entry member
      obtain ⟨before, listed, rfl⟩ := mem_map.mp member
      by_cases same : before.1 = func.ident
      · simpa [same] using pristine
      · simpa [same] using parsed.pristine before listed
  · next absent =>
    rw [get?_isSome] at absent
    refine ⟨?_, ?_, ?_⟩
    · rw [map_append, map_singleton, nodup_append]
      refine ⟨parsed.distinct, nodup_singleton _, ?_⟩
      rintro key old _ (new : _ ∈ [_]) rfl
      have same : key = func.ident := mem_singleton.mp new
      exact absent (same ▸ old)
    · intro entry member
      rcases mem_append.mp member with old | new
      · exact parsed.keyed entry old
      · rw [mem_singleton.mp new]
    · intro entry member
      rcases mem_append.mp member with old | new
      · exact parsed.pristine entry old
      · rw [mem_singleton.mp new]
        exact pristine

end FileSummary

namespace GcnoParser

variable {self : GcovStream}

/-! ## Records keep functions pristine -/

theorem readBlockFlags_blank (blocks result : List BlockSummary) (stream rest : List UInt8)
    (blank : ∀ block ∈ blocks, ∃ index flag, block = BlockSummary.init index flag)
    (read : readBlockFlags self count blocks stream = .ok (result, rest)) :
    ∀ block ∈ result, ∃ index flag, block = BlockSummary.init index flag := by
  induction count generalizing blocks stream with
  | zero =>
    cases read
    exact blank
  | succ count ih =>
    obtain ⟨flag, remaining, _, next⟩ := bind_eq_ok.mp read
    refine ih _ _ ?_ next
    intro block member
    rcases mem_append.mp member with old | new
    · exact blank block old
    · exact ⟨_, _, mem_singleton.mp new⟩

theorem readArcPairs_pristine (src count : Nat) (func result : FunctionSummary)
    (stream rest : List UInt8) (pristine : func.Pristine) (source : src < func.blocks.length)
    (read : readArcPairs self src count func stream = .ok (result, rest)) : result.Pristine := by
  induction count generalizing func stream with
  | zero =>
    cases read
    exact pristine
  | succ count ih =>
    obtain ⟨dst, remaining, _, next⟩ := bind_eq_ok.mp read
    split at next
    · next target =>
      obtain ⟨flag, last, _, recursion⟩ := bind_eq_ok.mp next
      exact ih _ _
        (addArc_pristine pristine flag source target)
        (by simpa using source) recursion
    · cases next

theorem readLineNumbers_positive (lines result : List Nat) (stream rest : List UInt8)
    (positive : ∀ line ∈ lines, 0 < line)
    (read : readLineNumbers self count lines stream = .ok (result, rest)) :
    ∀ line ∈ result, 0 < line := by
  induction count generalizing lines stream with
  | zero =>
    cases read
    exact positive
  | succ count ih =>
    obtain ⟨line, remaining, _, next⟩ := bind_eq_ok.mp read
    refine ih _ _ ?_ next
    split
    · next nonzero =>
      intro other member
      rcases mem_append.mp member with old | new
      · exact positive other old
      · rw [mem_singleton.mp new]
        omega
    · exact positive

theorem readRecord_pristine (tag length : Nat) (func : Option FunctionSummary)
    (result : FunctionSummary) (stream rest : List UInt8)
    (pristine : ∀ current, func = some current → current.Pristine)
    (read : readRecord self tag length func stream = .ok (result, rest)) : result.Pristine := by
  unfold readRecord at read
  split at read
  · obtain ⟨ident, _, _, read⟩ := bind_eq_ok.mp read
    obtain ⟨_, _, _, read⟩ := bind_eq_ok.mp read
    obtain ⟨_, _, _, read⟩ := bind_eq_ok.mp read
    obtain ⟨name, _, _, read⟩ := bind_eq_ok.mp read
    obtain ⟨source, _, _, read⟩ := bind_eq_ok.mp read
    obtain ⟨line, _, _, read⟩ := bind_eq_ok.mp read
    cases read
    exact init_pristine ident name source line
  split at read
  · obtain ⟨blocks, remaining, flags, read⟩ := bind_eq_ok.mp read
    cases func with
    | none => cases read
    | some current =>
      cases read
      exact append_pristine (pristine current rfl) blocks
        (readBlockFlags_blank length [] blocks stream rest (by simp) flags)
  split at read
  · obtain ⟨src, remaining, _, read⟩ := bind_eq_ok.mp read
    cases func with
    | none => cases read
    | some current =>
      dsimp only at read
      split at read
      · next inside =>
        exact readArcPairs_pristine src _ current result remaining rest (pristine current rfl)
          inside read
      · cases read
  · obtain ⟨number, _, _, read⟩ := bind_eq_ok.mp read
    obtain ⟨_, _, _, read⟩ := bind_eq_ok.mp read
    obtain ⟨src, _, _, read⟩ := bind_eq_ok.mp read
    obtain ⟨lines, remaining, lineWords, read⟩ := bind_eq_ok.mp read
    cases func with
    | none => cases read
    | some current =>
      dsimp only at read
      split at read
      · cases read
        exact setLines_pristine (pristine current rfl) number lines
          (readLineNumbers_positive _ [] lines _ rest (by simp) lineWords)
      · cases read

theorem store_parsed {summary : FileSummary} (parsed : summary.Parsed)
    (func : Option FunctionSummary) (pristine : ∀ current, func = some current → current.Pristine) :
    (store summary func).Parsed := by
  cases func with
  | none => exact parsed
  | some current => exact FileSummary.insert_parsed parsed (pristine current rfl)

theorem parseLoop_parsed (fuel : Nat) (func : Option FunctionSummary)
    (summary result : FileSummary) (stream rest : List UInt8) (parsed : summary.Parsed)
    (pristine : ∀ current, func = some current → current.Pristine)
    (read : parseLoop self fuel func summary stream = .ok (result, rest)) : result.Parsed := by
  induction fuel generalizing func summary stream with
  | zero => cases read
  | succ fuel ih =>
    unfold parseLoop at read
    split at read
    · cases func with
      | none => cases read
      | some current =>
        cases read
        exact store_parsed parsed (some current) pristine
    · next tag length remaining _ =>
      split at read
      · cases read
      · next next last recordRead =>
        refine ih _ _ _ ?_ ?_ read
        · split
          · exact store_parsed parsed func pristine
          · exact parsed
        · rintro current equal
          cases equal
          exact readRecord_pristine tag length func next remaining last pristine recordRead

/-- Every summary that `GCNOParser.Parse` returns is parsed in this sense. -/
theorem parse_parsed (parser : GcnoParser) (summary : FileSummary)
    (returned : parser.parse = .ok summary) : summary.Parsed := by
  unfold parse at returned
  split at returned
  · cases returned
  · next result rest read =>
    cases returned
    exact parseLoop_parsed _ none _ _ _ _ FileSummary.init_parsed (by simp) read

/-! ## The parse ends -/

theorem readExtraChecksum_consumes : ByteReader.Consumes (readExtraChecksum self) := by
  unfold readExtraChecksum
  split
  · exact consumes_fail _
  · exact (readInt_consumes _).bind fun _ => consumes_pure _
  · exact consumes_pure _

theorem readFunction_consumes : ByteReader.Consumes (readFunction self) :=
  (readInt_consumes _).bind fun _ => (readInt_consumes _).bind fun _ =>
    readExtraChecksum_consumes.bind fun _ => (readString_consumes _).bind fun _ =>
      (readString_consumes _).bind fun _ => (readInt_consumes _).bind fun _ =>
        consumes_pure _

section

variable (blocks : List BlockSummary) (src : Nat) (lines : List Nat) (tag fuel length : Nat)
  (func : Option FunctionSummary)

theorem readBlockFlags_consumes : ByteReader.Consumes (readBlockFlags self count blocks) := by
  induction count generalizing blocks with
  | zero => exact consumes_pure _
  | succ count ih =>
    exact (readInt_consumes _).bind fun flag => ih _

theorem readArcPairs_consumes (count : Nat) (func : FunctionSummary) :
    ByteReader.Consumes (readArcPairs self src count func) := by
  induction count generalizing func with
  | zero => exact consumes_pure _
  | succ count ih =>
    refine (readInt_consumes _).bind fun dst => ?_
    split
    · exact (readInt_consumes _).bind fun flag => ih _
    · exact consumes_fail _

theorem readLineNumbers_consumes : ByteReader.Consumes (readLineNumbers self count lines) := by
  induction count generalizing lines with
  | zero => exact consumes_pure _
  | succ count ih =>
    exact (readInt_consumes _).bind fun line => ih _

theorem readRecord_consumes : ByteReader.Consumes (readRecord self tag length func) := by
  unfold readRecord
  split
  · exact readFunction_consumes
  split
  · refine (readBlockFlags_consumes _ _).bind fun blocks => ?_
    cases func with
    | none => exact consumes_fail _
    | some current => exact consumes_pure _
  split
  · refine (readInt_consumes _).bind fun src => ?_
    cases func with
    | none => exact consumes_fail _
    | some current =>
      dsimp only
      split
      · exact readArcPairs_consumes _ _ _
      · exact consumes_fail _
  · refine (readInt_consumes _).bind fun number => (readInt_consumes _).bind fun _ =>
      (readString_consumes _).bind fun src => (readLineNumbers_consumes _ _).bind fun lines => ?_
    cases func with
    | none => exact consumes_fail _
    | some current =>
      dsimp only
      split
      · exact consumes_pure _
      · exact consumes_fail _

/-- Fuel above the number of bytes is enough: more of it changes nothing. -/
theorem parseLoop_stable (more : Nat) (func : Option FunctionSummary) (summary : FileSummary)
    (stream : List UInt8) (enough : stream.length < fuel) :
    parseLoop self (fuel + more) func summary stream = parseLoop self fuel func summary stream := by
  induction fuel generalizing func summary stream with
  | zero => omega
  | succ fuel ih =>
    rw [Nat.succ_add]
    unfold parseLoop
    split
    · rfl
    · next tag length remaining header =>
      have shorter := (readHeader_ok _ _ _ _ _ _ header).2
      split
      · rfl
      · next next last record =>
        have consumed := readRecord_consumes tag length func remaining next last record
        exact ih _ _ _ (by omega)

/-- The main loop with as much fuel as it can use. -/
def run (self : GcovStream) (func : Option FunctionSummary) (summary : FileSummary)
    (stream : List UInt8) : Except Exception (FileSummary × List UInt8) :=
  parseLoop self (stream.length + 1) func summary stream

/-- The main loop unfolded once, without fuel. -/
theorem run_eq (func : Option FunctionSummary) (summary : FileSummary) (stream : List UInt8) :
    run self func summary stream =
      match readHeader self.format isTag stream with
      | .error _ =>
        match func with
        | none => .error (.fileFormatError "Invalid file.")
        | some _ => .ok (store summary func, [])
      | .ok ((tag, length), rest) =>
        match readRecord self tag length func rest with
        | .error failure => .error failure
        | .ok (next, remaining) =>
          run self (some next) (if tag = tagFunction then store summary func else summary)
            remaining := by
  change parseLoop self (stream.length + 1) func summary stream = _
  unfold parseLoop
  cases header : readHeader self.format isTag stream with
  | error failure => rfl
  | ok found =>
    obtain ⟨⟨tag, length⟩, rest⟩ := found
    have shorter := (readHeader_ok _ _ _ _ _ _ header).2
    cases record : readRecord self tag length func rest with
    | error failure => simp only [record]
    | ok result =>
      obtain ⟨next, remaining⟩ := result
      have consumed := readRecord_consumes tag length func rest next remaining record
      obtain ⟨more, fuel⟩ : ∃ more, stream.length = remaining.length + 1 + more :=
        ⟨stream.length - (remaining.length + 1), by omega⟩
      simp only [record, run]
      rw [fuel, parseLoop_stable _ more _ _ _ (Nat.lt_succ_self _)]

theorem parse_eq_run (parser : GcnoParser) :
    parser.parse = (run parser.header none FileSummary.init parser.stream).map Prod.fst := by
  unfold parse run
  split <;> simp [*, Except.map]

end

end GcnoParser

end Vts.Coverage
