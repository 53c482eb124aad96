import Mathlib.Data.List.Induction
import Vts.Coverage.GcovFormat
import Vts.Coverage.GcnoGraph

/-!
# GCNO files and their summaries

A GCNO file is described by its functions: identifier, checksums, names, first
line, block flags, arcs grouped by source block and one list of lines for a block.
`encodeGcno` writes the file in either byte order, and `GcnoFunction.summary` says
which summary the function denotes, without reference to the parser.

`parse_encodeGcno` proves that the parser returns exactly the denoted summaries.
The induction runs over the records. All readers consume their payload, except
that `ReadLines` may leave one terminating zero word, which the search for the
next tag skips.
-/

namespace Vts.Coverage

open Lib Lib.WordCodec List ByteReader
open Python (Exception)

/-- The lines of one block, and the number of zero words that end the record. -/
structure GcnoLines where
  block : Nat
  fileName : List UInt8
  lines : List Nat
  terminators : Nat
deriving DecidableEq

/-- A function as the compiler describes it. An entry of `arcs` is a source block
with the destinations and flags of its arcs. -/
structure GcnoFunction where
  ident : Nat
  lineChecksum : Nat
  configChecksum : Nat
  name : List UInt8
  srcFileName : List UInt8
  firstLineNumber : Nat
  flags : List Nat
  arcs : List (Nat × List (Nat × Nat))
  lines : List GcnoLines
deriving DecidableEq

namespace GcnoFunction

/-! ## The denoted summary -/

/-- All arcs in file order: source, destination and flag. -/
def edges (source : GcnoFunction) : List (Nat × Nat × Nat) :=
  source.arcs.flatMap (fun group => group.2.map (fun arc => (group.1, arc.1, arc.2)))

/-- The positions of the edges with a property, in file order. -/
def positions (edges : List (Nat × Nat × Nat)) (property : Nat × Nat × Nat → Bool) : List Nat :=
  (List.range edges.length).filter (fun position => property (edges.getD position default))

/-- The lines listed for a block. -/
def linesOf (source : GcnoFunction) (block : Nat) : List Nat :=
  ((source.lines.find? (fun entry => entry.block == block)).map GcnoLines.lines).getD []

/-- The block at a position, with the given flag. -/
def blockSummary (source : GcnoFunction) (block flag : Nat) : BlockSummary where
  index := block
  flag := flag
  entryArcs := positions source.edges (fun edge => edge.2.1 == block)
  exitArcs := positions source.edges (fun edge => edge.1 == block)
  count := 0
  lines := source.linesOf block

/-- The function summary that the description denotes. -/
def summary (source : GcnoFunction) : FunctionSummary where
  blocks := source.flags.mapIdx source.blockSummary
  ident := source.ident
  name := source.name
  srcFileName := source.srcFileName
  firstLineNumber := source.firstLineNumber
  arcs := source.edges.map (fun edge => ArcSummary.init edge.1 edge.2.1 edge.2.2)

/-! ## The encoding -/

section Encoding

variable (order : ByteOrder)

def functionPayload (extra : Bool) (source : GcnoFunction) : List UInt8 :=
  word order source.ident ++ (word order source.lineChecksum ++
    ((if extra then word order source.configChecksum else []) ++
      (stringBytes order source.name ++ (stringBytes order source.srcFileName ++
        word order source.firstLineNumber))))

def arcsPayload (group : Nat × List (Nat × Nat)) : List UInt8 :=
  word order group.1 ++ words order (group.2.flatMap (fun arc => [arc.1, arc.2]))

def linesPayload (entry : GcnoLines) : List UInt8 :=
  word order entry.block ++ (word order 0 ++ (stringBytes order entry.fileName ++
    words order (entry.lines ++ List.replicate entry.terminators 0)))

/-- The records of a function: FUNCTION, BLOCKS, then ARCS and LINES. The extra
checksum word is written for versions above 4. -/
def encode (extra : Bool) (source : GcnoFunction) : List UInt8 :=
  record order GcnoParser.tagFunction (source.functionPayload order extra) ++
    (record order GcnoParser.tagBlocks (words order source.flags) ++
      (source.arcs.flatMap (fun group =>
          record order GcnoParser.tagArcs (arcsPayload order group)) ++
        source.lines.flatMap (fun entry =>
          record order GcnoParser.tagLines (linesPayload order entry))))

end Encoding

/-- Every number fits its word, the arcs join existing blocks, a block has at most
one list of lines, and line numbers are not zero. -/
structure Valid (source : GcnoFunction) : Prop where
  ident : source.ident < 2 ^ 32
  lineChecksum : source.lineChecksum < 2 ^ 32
  configChecksum : source.configChecksum < 2 ^ 32
  name : GcovString source.name
  srcFileName : GcovString source.srcFileName
  functionLength : stringWords source.name + stringWords source.srcFileName + 6 < 2 ^ 32
  firstLineNumber : source.firstLineNumber < 2 ^ 32
  flags : ∀ flag ∈ source.flags, flag < 2 ^ 32
  blocks : source.flags.length < 2 ^ 32
  arcs : ∀ group ∈ source.arcs, group.1 < source.flags.length ∧
    2 * group.2.length + 1 < 2 ^ 32 ∧
    ∀ arc ∈ group.2, arc.1 < source.flags.length ∧ arc.2 < 2 ^ 32
  lines : ∀ entry ∈ source.lines, entry.block < source.flags.length ∧
    GcovString entry.fileName ∧ (∀ line ∈ entry.lines, 0 < line ∧ line < 2 ^ 32) ∧
    1 ≤ entry.terminators ∧
    stringWords entry.fileName + entry.lines.length + entry.terminators + 3 < 2 ^ 32
  distinct : (source.lines.map GcnoLines.block).Nodup

end GcnoFunction

/-- A whole GCNO file. -/
def encodeGcno (order : ByteOrder) (version : List UInt8) (checksum : Nat) (extra : Bool)
    (functions : List GcnoFunction) : List UInt8 :=
  gcovFile order GcnoParser.magic version checksum
    (functions.flatMap (GcnoFunction.encode order extra))

/-- The summary of a whole file. -/
def gcnoSummary (functions : List GcnoFunction) : FileSummary :=
  ⟨functions.map (fun source => (source.ident, source.summary))⟩

/-! ## Reading one record back -/

namespace GcnoParser

variable {self : GcovStream} {order : ByteOrder}

theorem readBlockFlags_words (flags : List Nat) (blocks : List BlockSummary) (rest : List UInt8)
    (fits : ∀ flag ∈ flags, flag < 2 ^ 32) :
    readBlockFlags self flags.length blocks (words self.format flags ++ rest) =
      .ok (blocks ++ flags.mapIdx (fun position flag =>
        BlockSummary.init (blocks.length + position) flag), rest) := by
  induction flags generalizing blocks with
  | nil => simp [readBlockFlags, words]
  | cons flag others ih =>
    rw [words_cons, append_assoc, length_cons, readBlockFlags,
      bind_ok (readInt_word self.format flag _ (fits flag (by simp))),
      ih _ (fun other member => fits other (by simp [member]))]
    simp [mapIdx_cons, Nat.add_assoc, Nat.add_comm 1]

theorem readArcPairs_words (src : Nat) (arcs : List (Nat × Nat)) (func : FunctionSummary)
    (rest : List UInt8)
    (valid : ∀ arc ∈ arcs, arc.1 < func.blocks.length ∧ arc.2 < 2 ^ 32)
    (small : func.blocks.length < 2 ^ 32) :
    readArcPairs self src arcs.length func
        (words self.format (arcs.flatMap (fun arc => [arc.1, arc.2])) ++ rest) =
      .ok (arcs.foldl (fun current arc => current.addArc src arc.1 arc.2) func, rest) := by
  induction arcs generalizing func with
  | nil => simp [readArcPairs, words]
  | cons arc others ih =>
    obtain ⟨inside, flagFits⟩ := valid arc (by simp)
    have split : words self.format ((arc :: others).flatMap (fun arc => [arc.1, arc.2])) ++ rest =
        word self.format arc.1 ++ (word self.format arc.2 ++
          (words self.format (others.flatMap (fun arc => [arc.1, arc.2])) ++ rest)) := by
      simp
    rw [split, length_cons, readArcPairs,
      bind_ok (readInt_word self.format arc.1 _ (by omega))]
    simp only [if_pos inside]
    rw [bind_ok (readInt_word self.format arc.2 _ flagFits)]
    exact ih _ (by
      intro other member
      simpa using valid other (by simp [member])) (by simpa using small)

theorem readLineNumbers_words (values lines : List Nat) (rest : List UInt8)
    (fits : ∀ value ∈ values, value < 2 ^ 32) :
    readLineNumbers self values.length lines (words self.format values ++ rest) =
      .ok (lines ++ values.filter (· ≠ 0), rest) := by
  induction values generalizing lines with
  | nil => simp [readLineNumbers, words]
  | cons value others ih =>
    rw [words_cons, append_assoc, length_cons, readLineNumbers,
      bind_ok (readInt_word self.format value _ (fits value (by simp))),
      ih _ (fun other member => fits other (by simp [member]))]
    by_cases zero : value = 0 <;> simp [zero]

theorem readFunction_payload (extra : Bool) (source : GcnoFunction) (rest : List UInt8)
    (version : self.versionAbove4 = .ok extra) (valid : source.Valid) :
    readFunction self (source.functionPayload self.format extra ++ rest) =
      .ok (FunctionSummary.init source.ident source.name source.srcFileName
        source.firstLineNumber, rest) := by
  have checksum (tail : List UInt8) : readExtraChecksum self
      ((if extra then word self.format source.configChecksum else []) ++ tail) =
        .ok ((), tail) := by
    rw [readExtraChecksum, version]
    cases extra with
    | true =>
      exact bind_ok (readInt_word self.format _ tail valid.configChecksum)
    | false => rfl
  simp only [GcnoFunction.functionPayload, append_assoc]
  rw [readFunction, bind_ok (readInt_word self.format _ _ valid.ident),
    bind_ok (readInt_word self.format _ _ valid.lineChecksum),
    bind_ok (checksum _),
    bind_ok (readString_stringBytes self.format _ _ valid.name),
    bind_ok (readString_stringBytes self.format _ _ valid.srcFileName),
    bind_ok (readInt_word self.format _ _ valid.firstLineNumber)]
  rfl

/-- `ReadLines` after its string: as many words as the length leaves are its lines. -/
theorem readLines_string {block dummy length : Nat} {string text : List UInt8}
    {following : List Nat} (func : FunctionSummary) (rest : List UInt8)
    (blockFits : block < 2 ^ 32) (dummyFits : dummy < 2 ^ 32)
    (inside : block < func.blocks.length)
    (name : readString self.format (string ++ (words self.format following ++ rest)) =
      .ok (text, words self.format following ++ rest))
    (fits : ∀ value ∈ following, value < 2 ^ 32)
    (count : length - ((text.length + (bytesInWord - 1)) / bytesInWord + 1) - headerLength =
      following.length) :
    readLines self length (some func) (word self.format block ++ (word self.format dummy ++
        (string ++ (words self.format following ++ rest)))) =
      .ok (func.setBlock block { func.block block with lines := following.filter (· ≠ 0) },
        rest) := by
  rw [readLines, bind_ok (readInt_word self.format block _ blockFits),
    bind_ok (readInt_word self.format dummy _ dummyFits), bind_ok name]
  simp only [count]
  rw [bind_ok (readLineNumbers_words following [] rest fits)]
  simp only [if_pos inside, nil_append, pure_run]

/-- `ReadLines` takes all line numbers. Of the terminating words it leaves one when
the recomputed string length counts the padding word, and none otherwise. -/
theorem readLines_payload (entry : GcnoLines) (func : FunctionSummary) (rest : List UInt8)
    (inside : entry.block < func.blocks.length) (small : func.blocks.length < 2 ^ 32)
    (name : GcovString entry.fileName) (numbers : ∀ line ∈ entry.lines, 0 < line ∧ line < 2 ^ 32)
    (terminated : 1 ≤ entry.terminators) :
    ∃ left ≤ 1, readLines self ((GcnoFunction.linesPayload self.format entry).length / 4)
        (some func) (GcnoFunction.linesPayload self.format entry ++ rest) =
      .ok (func.setBlock entry.block { func.block entry.block with lines := entry.lines },
        words self.format (List.replicate left 0) ++ rest) := by
  obtain ⟨left, taken, terminators, bound, count⟩ :
      ∃ left taken, entry.terminators = taken + left ∧ left ≤ 1 ∧
        (GcnoFunction.linesPayload self.format entry).length / 4 -
          ((entry.fileName.length + (bytesInWord - 1)) / bytesInWord + 1) - headerLength =
            (entry.lines ++ List.replicate taken 0).length := by
    have length : (GcnoFunction.linesPayload self.format entry).length / 4 =
        entry.fileName.length / 4 + 1 + entry.lines.length + entry.terminators + 3 := by
      simp only [GcnoFunction.linesPayload, length_append, word_length, stringBytes_length,
        words_length, length_replicate, stringWords]
      omega
    rw [length]
    simp only [bytesInWord, headerLength, length_append, length_replicate]
    by_cases whole : entry.fileName.length % 4 = 0
    · exact ⟨0, entry.terminators, by omega, by omega, by omega⟩
    · exact ⟨1, entry.terminators - 1, by omega, by omega, by omega⟩
  refine ⟨left, bound, ?_⟩
  have split : words self.format (entry.lines ++ List.replicate entry.terminators 0) =
      words self.format (entry.lines ++ List.replicate taken 0) ++
        words self.format (List.replicate left 0) := by
    rw [terminators, ← replicate_append_replicate, ← append_assoc, words_append]
  have fits : ∀ value ∈ entry.lines ++ List.replicate taken 0, value < 2 ^ 32 := by
    intro value member
    rcases mem_append.mp member with line | zero
    · exact (numbers value line).2
    · rw [eq_of_mem_replicate zero]
      decide
  have kept : (entry.lines ++ List.replicate taken 0).filter (· ≠ 0) = entry.lines := by
    rw [filter_append]
    have lines : entry.lines.filter (· ≠ 0) = entry.lines := by
      apply filter_eq_self.mpr
      intro line member
      have positive := (numbers line member).1
      simp
      omega
    rw [lines]
    simp
  have payload : GcnoFunction.linesPayload self.format entry ++ rest =
      word self.format entry.block ++ (word self.format 0 ++
        (stringBytes self.format entry.fileName ++
          (words self.format (entry.lines ++ List.replicate taken 0) ++
            (words self.format (List.replicate left 0) ++ rest)))) := by
    simp only [GcnoFunction.linesPayload, split, append_assoc]
  rw [payload, readLines_string func _ (by omega) (by decide) inside
    (readString_stringBytes self.format _ _ name) fits count, kept]

end GcnoParser

/-! ## What the records build -/

namespace FunctionSummary

/-- All edges are added in order. -/
def addEdges (func : FunctionSummary) (edges : List (Nat × Nat × Nat)) : FunctionSummary :=
  edges.foldl (fun current edge => current.addArc edge.1 edge.2.1 edge.2.2) func

/-- The lines of a record replace those of its block. -/
def setLines (func : FunctionSummary) (entry : GcnoLines) : FunctionSummary :=
  func.setBlock entry.block { func.block entry.block with lines := entry.lines }

@[simp] theorem addEdges_blocks_length (func : FunctionSummary)
    (edges : List (Nat × Nat × Nat)) :
    (func.addEdges edges).blocks.length = func.blocks.length := by
  induction edges generalizing func with
  | nil => rfl
  | cons edge others ih =>
    exact (ih _).trans (addArc_blocks_length func _ _ _)

@[simp] theorem setLines_blocks_length (func : FunctionSummary) (entry : GcnoLines) :
    (func.setLines entry).blocks.length = func.blocks.length := by
  simp [setLines, setBlock]

/-- Functions are equal when their blocks are equal position by position. -/
theorem ext_blocks {left right : FunctionSummary} (ident : left.ident = right.ident)
    (name : left.name = right.name) (srcFileName : left.srcFileName = right.srcFileName)
    (firstLineNumber : left.firstLineNumber = right.firstLineNumber)
    (arcs : left.arcs = right.arcs) (length : left.blocks.length = right.blocks.length)
    (blocks : ∀ block < left.blocks.length, left.block block = right.block block) :
    left = right := by
  have sameBlocks : left.blocks = right.blocks := by
    apply ext_getElem length
    intro position inLeft inRight
    have equal := blocks position inLeft
    rwa [FunctionSummary.block, FunctionSummary.block, getD_eq_getElem _ _ inLeft,
      getD_eq_getElem _ _ inRight] at equal
  cases left
  cases right
  simp only at *
  simp [*]

end FunctionSummary

namespace GcnoFunction

open FunctionSummary

theorem positions_append (edges : List (Nat × Nat × Nat)) (edge : Nat × Nat × Nat)
    (property : Nat × Nat × Nat → Bool) :
    positions (edges ++ [edge]) property =
      positions edges property ++ if property edge then [edges.length] else [] := by
  have old : (List.range edges.length).filter (fun position =>
      property ((edges ++ [edge]).getD position default)) = positions edges property := by
    apply filter_congr
    intro position member
    have inside : position < edges.length := mem_range.mp member
    rw [getD_append _ _ _ _ inside]
  rw [positions, length_append, length_singleton, range_succ, filter_append,
    old]
  congr 1
  by_cases selected : property edge <;>
    simp [getD_eq_getElem?_getD, selected]

/-- Adding edges to blocks without arcs enters each edge at its positions. -/
theorem addEdges_graph (edges : List (Nat × Nat × Nat)) (base : FunctionSummary)
    (noArcs : base.arcs = [])
    (inside : ∀ edge ∈ edges, edge.1 < base.blocks.length ∧ edge.2.1 < base.blocks.length) :
    (base.addEdges edges).arcs =
        edges.map (fun edge => ArcSummary.init edge.1 edge.2.1 edge.2.2) ∧
      (base.addEdges edges).blocks.length = base.blocks.length ∧
      (base.addEdges edges).ident = base.ident ∧ (base.addEdges edges).name = base.name ∧
      (base.addEdges edges).srcFileName = base.srcFileName ∧
      (base.addEdges edges).firstLineNumber = base.firstLineNumber ∧
      ∀ block, (base.addEdges edges).block block = { base.block block with
        exitArcs := (base.block block).exitArcs ++ positions edges (fun edge => edge.1 == block)
        entryArcs := (base.block block).entryArcs ++
          positions edges (fun edge => edge.2.1 == block) } := by
  induction edges using List.reverseRecOn with
  | nil => simp [addEdges, noArcs, positions]
  | append_singleton edges edge ih =>
    obtain ⟨arcs, length, ident, name, srcFileName, firstLineNumber, blocks⟩ :=
      ih (fun other member => inside other (by simp [member]))
    obtain ⟨source, target⟩ := inside edge (by simp)
    have step : base.addEdges (edges ++ [edge]) =
        (base.addEdges edges).addArc edge.1 edge.2.1 edge.2.2 := by
      simp [addEdges, foldl_append]
    rw [step]
    refine ⟨by simp [arcs], by simp [length], ident, name, srcFileName, firstLineNumber, ?_⟩
    intro block
    have heap : (base.addEdges edges).arcs.length = edges.length := by simp [arcs]
    rw [addArc_block _ _ (by omega) (by omega), blocks block, positions_append, positions_append,
      heap]
    simp [eq_comm (a := block)]

/-- Setting the lines of distinct blocks gives each block its own list. -/
theorem setLines_lines (entries : List GcnoLines) (func : FunctionSummary)
    (inside : ∀ entry ∈ entries, entry.block < func.blocks.length)
    (distinct : (entries.map GcnoLines.block).Nodup) :
    (entries.foldl setLines func).arcs = func.arcs ∧
      (entries.foldl setLines func).blocks.length = func.blocks.length ∧
      (entries.foldl setLines func).ident = func.ident ∧
      (entries.foldl setLines func).name = func.name ∧
      (entries.foldl setLines func).srcFileName = func.srcFileName ∧
      (entries.foldl setLines func).firstLineNumber = func.firstLineNumber ∧
      ∀ block, (entries.foldl setLines func).block block = { func.block block with
        lines := ((entries.find? (fun entry => entry.block == block)).map GcnoLines.lines).getD
          (func.block block).lines } := by
  induction entries generalizing func with
  | nil => simp
  | cons entry others ih =>
    have stored := inside entry (by simp)
    have parts := nodup_cons.mp distinct
    have sameLength : (func.setLines entry).blocks.length = func.blocks.length := by
      simp [setLines, setBlock]
    obtain ⟨arcs, length, ident, name, srcFileName, firstLineNumber, blocks⟩ :=
      ih (func.setLines entry)
        (fun other member => sameLength ▸ inside other (by simp [member])) parts.2
    refine ⟨arcs, length.trans sameLength, ident, name, srcFileName, firstLineNumber, ?_⟩
    intro block
    rw [foldl_cons, blocks block, setLines,
      setBlock_block func entry.block block _ stored, List.find?_cons]
    by_cases same : block = entry.block
    · subst same
      have absent : others.find? (fun other => other.block == entry.block) = none := by
        apply List.find?_eq_none.mpr
        intro other member equal
        exact parts.1 (mem_map.mpr ⟨other, member, beq_iff_eq.mp equal⟩)
      simp [absent]
    · have differs : (entry.block == block) = false := by
        simpa using fun equal : entry.block = block => same equal.symm
      simp [same, differs]

/-- The blocks as the BLOCKS record adds them to a new function. -/
def withBlocks (source : GcnoFunction) : FunctionSummary :=
  { FunctionSummary.init source.ident source.name source.srcFileName source.firstLineNumber with
    blocks := source.flags.mapIdx BlockSummary.init }

/-- The records of a function, taken together, build the denoted summary. -/
theorem records_build (source : GcnoFunction) (valid : source.Valid) :
    source.lines.foldl setLines (source.withBlocks.addEdges source.edges) = source.summary := by
  have blockCount : source.withBlocks.blocks.length = source.flags.length := by
    simp [withBlocks]
  have edgesInside : ∀ edge ∈ source.edges, edge.1 < source.withBlocks.blocks.length ∧
      edge.2.1 < source.withBlocks.blocks.length := by
    intro edge member
    obtain ⟨group, listed, arc, arcListed, rfl⟩ : ∃ group ∈ source.arcs, ∃ arc ∈ group.2,
        (group.1, arc.1, arc.2) = edge := by
      simpa [edges] using member
    obtain ⟨source, _, arcs⟩ := valid.arcs group listed
    exact ⟨blockCount ▸ source, blockCount ▸ (arcs arc arcListed).1⟩
  obtain ⟨arcs, length, ident, name, srcFileName, firstLineNumber, blocks⟩ :=
    addEdges_graph source.edges source.withBlocks rfl edgesInside
  obtain ⟨lineArcs, lineLength, lineIdent, lineName, lineSrc, lineFirst, lineBlocks⟩ :=
    setLines_lines source.lines (source.withBlocks.addEdges source.edges)
      (fun entry member => by rw [length, blockCount]; exact (valid.lines entry member).1)
      valid.distinct
  refine ext_blocks (lineIdent.trans ident) (lineName.trans name) (lineSrc.trans srcFileName)
    (lineFirst.trans firstLineNumber) (lineArcs.trans arcs) ?_ ?_
  · rw [lineLength, length, blockCount]
    simp [summary]
  · intro block inside
    have listed : block < source.flags.length := by
      rw [← blockCount, ← length, ← lineLength]
      exact inside
    rw [lineBlocks block, blocks block]
    simp [FunctionSummary.block, withBlocks, summary, blockSummary, linesOf, BlockSummary.init,
      getD_eq_getElem?_getD, List.getElem?_mapIdx, List.getElem?_eq_getElem listed]

end GcnoFunction

/-! ## Reading a whole file back -/

namespace GcnoParser

open FunctionSummary

variable {self : GcovStream}

theorem isTag_lt {tag : Nat} (known : isTag tag = true) : tag < 2 ^ 32 := by
  simp only [isTag, Bool.or_eq_true, beq_iff_eq] at known
  rcases known with ((rfl | rfl) | rfl) | rfl <;> decide

theorem run_record {tag : Nat} {payload rest remaining : List UInt8}
    {func : Option FunctionSummary} {next : FunctionSummary} (summary : FileSummary)
    (known : isTag tag = true) (lengthFits : payload.length / 4 < 2 ^ 32)
    (read : readRecord self tag (payload.length / 4) func (payload ++ rest) =
      .ok (next, remaining)) :
    run self func summary (record self.format tag payload ++ rest) =
      run self (some next) (if tag = tagFunction then store summary func else summary)
        remaining := by
  rw [run_eq, readHeader_record self.format isTag tag payload rest known (isTag_lt known)
    lengthFits]
  simp only [read]

/-- Zero words between records are skipped. -/
theorem run_zeros (count : Nat) (func : Option FunctionSummary) (summary : FileSummary)
    (rest : List UInt8) :
    run self func summary (words self.format (List.replicate count 0) ++ rest) =
      run self func summary rest := by
  have header : readHeader self.format isTag (words self.format (List.replicate count 0) ++ rest) =
      readHeader self.format isTag rest := by
    induction count with
    | zero => rfl
    | succ count ih =>
      rw [replicate_succ, words_cons, append_assoc,
        readHeader_skip self.format isTag 0 _ (by decide) (by decide), ih]
  rw [run_eq, header, ← run_eq]

theorem run_arcs (groups : List (Nat × List (Nat × Nat))) (func : FunctionSummary)
    (summary : FileSummary) (rest : List UInt8) (small : func.blocks.length < 2 ^ 32)
    (valid : ∀ group ∈ groups, group.1 < func.blocks.length ∧
      2 * group.2.length + 1 < 2 ^ 32 ∧
      ∀ arc ∈ group.2, arc.1 < func.blocks.length ∧ arc.2 < 2 ^ 32) :
    run self (some func) summary (groups.flatMap (fun group =>
        record self.format tagArcs (GcnoFunction.arcsPayload self.format group)) ++ rest) =
      run self (some (func.addEdges (groups.flatMap (fun group =>
        group.2.map (fun arc => (group.1, arc.1, arc.2)))))) summary rest := by
  induction groups generalizing func with
  | nil => rfl
  | cons group others ih =>
    obtain ⟨source, lengthFits, arcs⟩ := valid group (by simp)
    have pairs : (group.2.flatMap (fun arc => [arc.1, arc.2])).length = 2 * group.2.length := by
      induction group.2 with
      | nil => rfl
      | cons arc rest pairCount =>
        simp only [flatMap_cons, length_append, length_cons, length_nil,
          pairCount]
        omega
    have length : (GcnoFunction.arcsPayload self.format group).length / 4 =
        2 * group.2.length + 1 := by
      simp only [GcnoFunction.arcsPayload, length_append, word_length, words_length, pairs]
      omega
    have read (tail : List UInt8) : readRecord self tagArcs
        ((GcnoFunction.arcsPayload self.format group).length / 4) (some func)
          (GcnoFunction.arcsPayload self.format group ++ tail) =
        .ok (func.addEdges (group.2.map (fun arc => (group.1, arc.1, arc.2))), tail) := by
      have count : (2 * group.2.length + 1 - 1) / 2 = group.2.length := by omega
      rw [readRecord, if_neg (by decide), if_neg (by decide), if_pos rfl, length, readArcs,
        GcnoFunction.arcsPayload, append_assoc,
        bind_ok (readInt_word self.format group.1 _ (by omega))]
      simp only [if_pos source, count]
      rw [readArcPairs_words group.1 group.2 func tail arcs small, addEdges, foldl_map]
    rw [flatMap_cons, append_assoc, run_record summary (by decide) (by omega) (read _),
      if_neg (by decide), ih _ (by simpa using small) (by
        intro other member
        simpa using valid other (by simp [member]))]
    simp only [flatMap_cons, addEdges, foldl_append]

theorem run_lines (entries : List GcnoLines) (func : FunctionSummary)
    (summary : FileSummary) (rest : List UInt8) (small : func.blocks.length < 2 ^ 32)
    (valid : ∀ entry ∈ entries, entry.block < func.blocks.length ∧
      GcovString entry.fileName ∧ (∀ line ∈ entry.lines, 0 < line ∧ line < 2 ^ 32) ∧
      1 ≤ entry.terminators ∧
      stringWords entry.fileName + entry.lines.length + entry.terminators + 3 < 2 ^ 32) :
    run self (some func) summary (entries.flatMap (fun entry =>
        record self.format tagLines (GcnoFunction.linesPayload self.format entry)) ++ rest) =
      run self (some (entries.foldl setLines func)) summary rest := by
  induction entries generalizing func with
  | nil => rfl
  | cons entry others ih =>
    obtain ⟨inside, name, numbers, terminated, lengthFits⟩ := valid entry (by simp)
    have length : (GcnoFunction.linesPayload self.format entry).length / 4 =
        stringWords entry.fileName + entry.lines.length + entry.terminators + 3 := by
      simp only [GcnoFunction.linesPayload, length_append, word_length, stringBytes_length,
        words_length, length_replicate]
      omega
    obtain ⟨left, _, read⟩ := @readLines_payload self entry func
      (others.flatMap (fun entry =>
        record self.format tagLines (GcnoFunction.linesPayload self.format entry)) ++ rest)
      inside small name numbers terminated
    have readAsRecord : readRecord self tagLines
        ((GcnoFunction.linesPayload self.format entry).length / 4) (some func) = readLines self
          ((GcnoFunction.linesPayload self.format entry).length / 4) (some func) := by
      rw [readRecord, if_neg (by decide), if_neg (by decide), if_neg (by decide)]
    rw [flatMap_cons, append_assoc,
      run_record summary (by decide) (by omega) (by rw [readAsRecord]; exact read),
      if_neg (by decide), run_zeros]
    exact ih (func.setLines entry) (by simpa using small) (by
      intro other member
      simpa using valid other (by simp [member]))

/-- All records of a function: the function read before is stored, and the denoted
summary is the one being read. -/
theorem run_function (extra : Bool) (source : GcnoFunction) (func : Option FunctionSummary)
    (summary : FileSummary) (rest : List UInt8) (version : self.versionAbove4 = .ok extra)
    (valid : source.Valid) :
    run self func summary (source.encode self.format extra ++ rest) =
      run self (some source.summary) (store summary func) rest := by
  have functionLength : (source.functionPayload self.format extra).length / 4 < 2 ^ 32 := by
    have := valid.functionLength
    cases extra <;>
      simp only [GcnoFunction.functionPayload, length_append, word_length,
        stringBytes_length, if_true, Bool.false_eq_true, if_false, length_nil] <;> omega
  have readFirst (tail : List UInt8) : readRecord self tagFunction
      ((source.functionPayload self.format extra).length / 4) func
        (source.functionPayload self.format extra ++ tail) =
      .ok (FunctionSummary.init source.ident source.name source.srcFileName
        source.firstLineNumber, tail) := by
    rw [readRecord, if_pos rfl, readFunction_payload extra source tail version valid]
  have blocksLength : (words self.format source.flags).length / 4 = source.flags.length := by
    rw [words_length]
    omega
  have readSecond (tail : List UInt8) : readRecord self tagBlocks
      ((words self.format source.flags).length / 4)
        (some (FunctionSummary.init source.ident source.name source.srcFileName
          source.firstLineNumber)) (words self.format source.flags ++ tail) =
      .ok (source.withBlocks, tail) := by
    rw [readRecord, if_neg (by decide), if_pos rfl, blocksLength, readBlocks,
      bind_ok (readBlockFlags_words source.flags [] tail valid.flags)]
    simp [GcnoFunction.withBlocks, FunctionSummary.init]
  have blockCount : source.withBlocks.blocks.length = source.flags.length := by
    simp [GcnoFunction.withBlocks]
  simp only [GcnoFunction.encode, append_assoc]
  rw [run_record summary (by decide) functionLength (readFirst _), if_pos rfl,
    run_record _ (by decide) (by rw [blocksLength]; exact valid.blocks) (readSecond _),
    if_neg (by decide), run_arcs source.arcs source.withBlocks _ _ (blockCount ▸ valid.blocks)
      (blockCount ▸ valid.arcs),
    run_lines source.lines _ _ _ (by simpa [blockCount] using valid.blocks)
      (by simpa [blockCount] using valid.lines)]
  rw [← GcnoFunction.records_build source valid]
  rfl

/-- The functions of a file, one after the other. -/
theorem run_functions (extra : Bool) (functions : List GcnoFunction) (current : FunctionSummary)
    (summary : FileSummary) (version : self.versionAbove4 = .ok extra)
    (valid : ∀ source ∈ functions, source.Valid) :
    run self (some current) summary
        (functions.flatMap (GcnoFunction.encode self.format extra)) =
      .ok (functions.foldl (fun stored source => stored.insert source.ident source.summary)
        (summary.insert current.ident current), []) := by
  induction functions generalizing current summary with
  | nil =>
    rw [run_eq, flatMap_nil, readHeader_nil]
    rfl
  | cons source others ih =>
    rw [flatMap_cons, run_function extra source (some current) summary _ version
        (valid source (by simp)),
      ih source.summary _ (fun other member => valid other (by simp [member]))]
    rfl


/-- Functions with new identifiers are appended to the dictionary in order. -/
theorem insert_functions (functions : List GcnoFunction) (stored : FileSummary)
    (distinct : (stored.functions.map Prod.fst ++ functions.map GcnoFunction.ident).Nodup) :
    functions.foldl (fun summary source => summary.insert source.ident source.summary) stored =
      ⟨stored.functions ++ functions.map (fun source => (source.ident, source.summary))⟩ := by
  induction functions generalizing stored with
  | nil => simp
  | cons source others ih =>
    have absent : ¬(stored.get? source.ident).isSome = true := by
      rw [FileSummary.get?_isSome]
      intro member
      exact (nodup_append.mp distinct).2.2 _ member _ (by simp) rfl
    have inserted : stored.insert source.ident source.summary =
        ⟨stored.functions ++ [(source.ident, source.summary)]⟩ := by
      rw [FileSummary.insert, if_neg absent]
    rw [foldl_cons, inserted, ih]
    · simp
    · simpa using distinct

/-- The functions after the header, in the byte order the constructor found. -/
theorem parse_functions (header : GcovStream) (extra : Bool) (functions : List GcnoFunction)
    (version : header.versionAbove4 = .ok extra) (nonempty : functions ≠ [])
    (valid : ∀ source ∈ functions, source.Valid)
    (distinct : (functions.map GcnoFunction.ident).Nodup) :
    (GcnoParser.mk header (functions.flatMap (GcnoFunction.encode header.format extra))).parse =
      .ok (gcnoSummary functions) := by
  obtain ⟨source, others, rfl⟩ := exists_cons_of_ne_nil nonempty
  have result : run header none FileSummary.init
      ((source :: others).flatMap (GcnoFunction.encode header.format extra)) =
        .ok (gcnoSummary (source :: others), []) := by
    rw [flatMap_cons, run_function extra source none _ _ version (valid source (by simp)),
      run_functions extra others source.summary _ version
        (fun other member => valid other (by simp [member]))]
    have all := insert_functions (source :: others) FileSummary.init
      (by simpa [FileSummary.init] using distinct)
    rw [foldl_cons] at all
    exact congrArg (fun summary => Except.ok (summary, [])) all
  rw [parse_eq_run, result]
  rfl

theorem init_gcovFile (order : ByteOrder) (version : List UInt8) (checksum : Nat)
    (body : List UInt8) (four : version.length = 4) (checksumFits : checksum < 2 ^ 32) :
    GcnoParser.init (gcovFile order magic version checksum body) =
      .ok ⟨⟨order, versionBytes order version, storedChecksum order checksum⟩, body⟩ := by
  rw [GcnoParser.init, GcovStream.init_gcovFile order magic version checksum body (by decide)
    (by decide) four checksumFits]

end GcnoParser

/-- Decoding undoes encoding: a little-endian GCNO file gives exactly its functions. -/
theorem parse_encodeGcno (first third fourth : UInt8) (digit checksum : Nat)
    (functions : List GcnoFunction) (isDigit : digit < 10) (checksumFits : checksum < 2 ^ 32)
    (nonempty : functions ≠ []) (valid : ∀ source ∈ functions, source.Valid)
    (distinct : (functions.map GcnoFunction.ident).Nodup) :
    ∃ parser, GcnoParser.init (encodeGcno .little [first, UInt8.ofNat (48 + digit), third, fourth]
        checksum (decide (digit > 4)) functions) = .ok parser ∧
      parser.header.checksum = checksum ∧ parser.parse = .ok (gcnoSummary functions) := by
  have opened := GcnoParser.init_gcovFile .little
    [first, UInt8.ofNat (48 + digit), third, fourth] checksum
    (functions.flatMap (GcnoFunction.encode .little (decide (digit > 4)))) rfl checksumFits
  refine ⟨_, opened, rfl, GcnoParser.parse_functions _ _ _ ?_ nonempty valid distinct⟩
  exact GcovStream.versionAbove4_digit _ digit isDigit rfl

/-- A function `f` of `a.c` with a loop: three blocks, four arcs and two records of
lines, one of them with two terminating words. -/
def loopFunction : GcnoFunction where
  ident := 5
  lineChecksum := 7
  configChecksum := 11
  name := [102]
  srcFileName := [97, 46, 99]
  firstLineNumber := 12
  flags := [0, 0, 0]
  arcs := [(0, [(1, 5)]), (1, [(1, 0), (2, 4), (0, 2)])]
  lines := [⟨1, [97, 46, 99], [13, 14], 2⟩, ⟨2, [], [15], 1⟩]

theorem loopFunction_valid : loopFunction.Valid := by
  constructor <;> decide

theorem loopFunction_decoded :
    ∃ parser, GcnoParser.init (encodeGcno .little [42, UInt8.ofNat (48 + 8), 48, 52] 9
        (decide (8 > 4)) [loopFunction]) = .ok parser ∧
      parser.header.checksum = 9 ∧ parser.parse = .ok (gcnoSummary [loopFunction]) :=
  parse_encodeGcno 42 48 52 8 9 [loopFunction] (by decide) (by decide) (by decide)
    (by simpa using loopFunction_valid) (by decide)

end Vts.Coverage
