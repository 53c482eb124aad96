import Vts.Coverage.Graph
import Vts.Coverage.Stream

/-!
# The GCNO parser

`gcno_parser.py`. `GCNOParser.Parse` reads tagged records until the stream ends
and collects the functions in a `FileSummary`. The record length is used
differently by each reader: `ReadFunction` ignores it, `ReadBlocks` trusts it,
`ReadArcs` halves it and `ReadLines` subtracts a recomputed string length. Words
left over are skipped by the search for the next tag.

The main loop runs with a fuel of one more than the number of bytes, which
`parseLoop_finishes` proves to be enough for every stream.
-/

namespace Vts.Coverage

open Lib Lib.WordCodec
open Python (Exception)

namespace GcnoParser

/-- `GCNOParser.MAGIC` and the four record tags. -/
def magic : Nat := 0x67636e6f
@[inherit_doc magic] def tagFunction : Nat := 0x01000000
@[inherit_doc magic] def tagBlocks : Nat := 0x01410000
@[inherit_doc magic] def tagArcs : Nat := 0x01430000
@[inherit_doc magic] def tagLines : Nat := 0x01450000

/-- `GCNOParser.BYTES_IN_WORD` and `HEADER_LENGTH`. -/
def bytesInWord : Nat := 4
@[inherit_doc bytesInWord] def headerLength : Nat := 3

/-- The tags that end the search for a record. -/
def isTag (tag : Nat) : Bool :=
  tag == tagFunction || tag == tagBlocks || tag == tagArcs || tag == tagLines

end GcnoParser

/-- The object parser: what the constructor read, and the rest of the stream. -/
structure GcnoParser where
  header : GcovStream
  stream : List UInt8
deriving DecidableEq

namespace FunctionSummary

/-- `block.exit_arcs.append(arc)`. -/
def addExit (func : FunctionSummary) (block reference : Nat) : FunctionSummary :=
  func.setBlock block { func.block block with
    exitArcs := (func.block block).exitArcs ++ [reference] }

/-- `block.entry_arcs.append(arc)`. -/
def addEntry (func : FunctionSummary) (block reference : Nat) : FunctionSummary :=
  func.setBlock block { func.block block with
    entryArcs := (func.block block).entryArcs ++ [reference] }

/-- A new arc object is entered in the exit list of its source and in the entry
list of its destination. -/
def addArc (func : FunctionSummary) (src dst flag : Nat) : FunctionSummary :=
  let reference := func.arcs.length
  let created := { func with arcs := func.arcs ++ [ArcSummary.init src dst flag] }
  (created.addExit src reference).addEntry dst reference

end FunctionSummary

namespace GcnoParser

/-- `GCNOParser.__init__`. -/
def init (content : List UInt8) : Except Exception GcnoParser :=
  match GcovStream.init magic content with
  | .error failure => .error failure
  | .ok (header, stream) => .ok ⟨header, stream⟩

variable (self : GcovStream)

/-- `if int(self.version[1]) > 4: self.ReadInt()`. -/
def readExtraChecksum : Read Unit :=
  match self.versionAbove4 with
  | .error failure => ByteReader.fail failure
  | .ok true => do
    let _ ← readInt self.format
    return ()
  | .ok false => pure ()

/-- `GCNOParser.ReadFunction`. -/
def readFunction : Read FunctionSummary := do
  let ident ← readInt self.format
  let _lineNumberChecksum ← readInt self.format
  readExtraChecksum self
  let name ← readString self.format
  let sourceFileName ← readString self.format
  let firstLineNumber ← readInt self.format
  return FunctionSummary.init ident name sourceFileName firstLineNumber

/-- The loop of `GCNOParser.ReadBlocks`. -/
def readBlockFlags : Nat → List BlockSummary → Read (List BlockSummary)
  | 0, blocks => pure blocks
  | count + 1, blocks => do
    let flag ← readInt self.format
    readBlockFlags count (blocks ++ [BlockSummary.init blocks.length flag])

/-- `GCNOParser.ReadBlocks`. Without a function the blocks are read before
`func.blocks` fails. -/
def readBlocks (length : Nat) (func : Option FunctionSummary) : Read FunctionSummary := do
  let blocks ← readBlockFlags self length []
  match func with
  | none => ByteReader.fail .attributeError
  | some func => return { func with blocks := func.blocks ++ blocks }

/-- The loop of `GCNOParser.ReadArcs`. -/
def readArcPairs (src : Nat) : Nat → FunctionSummary → Read FunctionSummary
  | 0, func => pure func
  | count + 1, func => do
    let dst ← readInt self.format
    if dst < func.blocks.length then
      let flag ← readInt self.format
      readArcPairs src count (func.addArc src dst flag)
    else
      ByteReader.fail .indexError

/-- `GCNOParser.ReadArcs`. -/
def readArcs (length : Nat) (func : Option FunctionSummary) : Read FunctionSummary := do
  let src ← readInt self.format
  match func with
  | none => ByteReader.fail .attributeError
  | some func =>
    if src < func.blocks.length then
      -- Python 2 floors the quotient; a length of 0 gives an empty range.
      readArcPairs self src ((length - 1) / 2) func
    else
      ByteReader.fail .indexError

/-- The loop of `GCNOParser.ReadLines`: zero words are no line numbers. -/
def readLineNumbers : Nat → List Nat → Read (List Nat)
  | 0, lines => pure lines
  | count + 1, lines => do
    let line ← readInt self.format
    readLineNumbers count (if line ≠ 0 then lines ++ [line] else lines)

/-- `GCNOParser.ReadLines`. The lines replace those of an earlier record, and the
block is looked up only after everything has been read. -/
def readLines (length : Nat) (func : Option FunctionSummary) : Read FunctionSummary := do
  let blockNumber ← readInt self.format
  let _dummy ← readInt self.format
  let src ← readString self.format
  -- `int(math.ceil(len(src) * 1.0 / self.BYTES_IN_WORD)) + 1`
  let srcLength := (src.length + (bytesInWord - 1)) / bytesInWord + 1
  let lines ← readLineNumbers self (length - srcLength - headerLength) []
  match func with
  | none => ByteReader.fail .attributeError
  | some func =>
    if blockNumber < func.blocks.length then
      return func.setBlock blockNumber { func.block blockNumber with lines := lines }
    else
      ByteReader.fail .indexError

/-- One record after its header, as the function being read afterwards. -/
def readRecord (tag length : Nat) (func : Option FunctionSummary) : Read FunctionSummary :=
  if tag = tagFunction then readFunction self
  else if tag = tagBlocks then readBlocks self length func
  else if tag = tagArcs then readArcs self length func
  else readLines self length func

/-- The functions finished so far: a function is stored when the next one starts. -/
def store (summary : FileSummary) (func : Option FunctionSummary) : FileSummary :=
  match func with
  | none => summary
  | some func => summary.insert func.ident func

/-- The main loop of `GCNOParser.Parse`. -/
def parseLoop : Nat → Option FunctionSummary → FileSummary → Read FileSummary
  | 0, _, _ => ByteReader.fail .unfinished
  | fuel + 1, func, summary => fun stream =>
    match readHeader self.format isTag stream with
    | .error _ =>
      -- `except parser.FileFormatError`: the end of the file.
      match func with
      | none => .error (.fileFormatError "Invalid file.")
      | some _ => .ok (store summary func, [])
    | .ok ((tag, length), rest) =>
      match readRecord self tag length func rest with
      | .error failure => .error failure
      | .ok (next, remaining) =>
        parseLoop fuel (some next) (if tag = tagFunction then store summary func else summary)
          remaining

end GcnoParser

/-- `GCNOParser.Parse`, on its first call. -/
def GcnoParser.parse (parser : GcnoParser) : Except Exception FileSummary :=
  match GcnoParser.parseLoop parser.header (parser.stream.length + 1) none FileSummary.init
      parser.stream with
  | .error failure => .error failure
  | .ok (summary, _) => .ok summary

end Vts.Coverage
