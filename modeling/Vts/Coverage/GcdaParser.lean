import Vts.Coverage.GcnoParser

/-!
# The GCDA parser

`gcda_parser.py`. `GCDAParser.Parse` stores the counters of a GCDA file into the
functions of a `FileSummary` that a GCNO parser built, and resolves each of these
functions. The functions are objects of the summary, so everything written before
an exception stays written: `parse` returns the summary beside the outcome, also
when the outcome is an exception.

A reference to a function object is its key in the dictionary, which the parser
never changes.
-/

namespace Vts.Coverage

open Lib Lib.WordCodec
open Python (Exception)

namespace GcdaParser

/-- `GCDAParser.MAGIC` and the four record tags. -/
def magic : Nat := 0x67636461
@[inherit_doc magic] def tagFunction : Nat := 0x01000000
@[inherit_doc magic] def tagCounter : Nat := 0x01a10000
@[inherit_doc magic] def tagObject : Nat := 0xa1000000
@[inherit_doc magic] def tagProgram : Nat := 0xa3000000

/-- The tags that end the search for a record. -/
def isTag (tag : Nat) : Bool :=
  tag == tagFunction || tag == tagCounter || tag == tagObject || tag == tagProgram

end GcdaParser

/-- The object parser: what the constructor read, and the rest of the stream. -/
structure GcdaParser where
  header : GcovStream
  stream : List UInt8
deriving DecidableEq

/-- `not arc.fake and not arc.on_tree`: the file has a counter for the arc. -/
def ArcSummary.counted (arc : ArcSummary) : Bool := !arc.fake && !arc.onTree

namespace FunctionSummary

/-- `arc.count = count` and `arc.resolved = True`. -/
def setCount (func : FunctionSummary) (arc : Nat) (count : Int) : FunctionSummary :=
  func.setArc arc { func.arc arc with count := count, resolved := true }

end FunctionSummary

namespace GcdaParser

/-- `GCDAParser.__init__`. -/
def init (content : List UInt8) : Except Exception GcdaParser :=
  match GcovStream.init magic content with
  | .error failure => .error failure
  | .ok (header, stream) => .ok ⟨header, stream⟩

variable (self : GcovStream)

/-- The checksums of a function, as the value of `words_read` after them. -/
def readChecksums : Read Nat := do
  let _checksum ← readInt self.format
  match self.versionAbove4 with
  | .error failure => ByteReader.fail failure
  | .ok true => do
    let _ ← readInt self.format
    return 4
  | .ok false => return 3

/-- `GCDAParser.ReadFunction`. The function is looked up before its checksums are
read. -/
def readFunction (length : Nat) (summary : FileSummary) : Read Nat := do
  let ident ← readInt self.format
  if (summary.get? ident).isSome then
    let wordsRead ← readChecksums self
    if wordsRead < length then
      let _gcdaName ← readString self.format
      return ident
    else
      return ident
  else
    ByteReader.fail .keyError

/-- The loops of `GCDAParser.ReadCounts` over the exit arcs of all blocks. -/
def readCounts (format : ByteOrder) : List Nat → FunctionSummary → List UInt8 →
    Except Exception (List UInt8) × FunctionSummary
  | [], func, stream => (.ok stream, func)
  | arc :: arcs, func, stream =>
    if (func.arc arc).counted then
      match readInt64 format stream with
      | .error failure => (.error failure, func)
      | .ok (count, rest) => readCounts format arcs (func.setCount arc count) rest
    else readCounts format arcs func stream

/-- `count` words, none of them used. -/
def skipWords (format : ByteOrder) : Nat → Read Unit
  | 0 => pure ()
  | count + 1 => do
    let _ ← readInt format
    skipWords format count

/-- `parser.FileFormatError` after a `Resolve` that returned False. -/
def unresolvedCounts : Exception :=
  .fileFormatError "Corrupt file: Counts could not be resolved."

/-- A counter record: the counts are stored and the function is resolved. -/
def readCounters (func : Option Nat) (summary : FileSummary) (stream : List UInt8) :
    Except Exception (List UInt8) × FileSummary :=
  match func with
  | none => (.error .attributeError, summary)
  | some ident =>
    let object := (summary.get? ident).getD default
    match readCounts self.format object.exitArcs object stream with
    | (.error failure, counted) => (.error failure, summary.insert ident counted)
    | (.ok rest, counted) =>
      let resolved := counted.resolve
      (if resolved.1 then .ok rest else .error unresolvedCounts,
        summary.insert ident resolved.2)

/-- One record after its header: the current function and the rest of the stream,
or an exception, and the summary as it is then. -/
def readRecord (tag length : Nat) (func : Option Nat) (summary : FileSummary)
    (stream : List UInt8) : Except Exception (Option Nat × List UInt8) × FileSummary :=
  if tag = tagFunction then
    match readFunction self length summary stream with
    | .error failure => (.error failure, summary)
    | .ok (ident, rest) => (.ok (some ident, rest), summary)
  else if tag = tagCounter then
    match readCounters self func summary stream with
    | (.error failure, after) => (.error failure, after)
    | (.ok rest, after) => (.ok (func, rest), after)
  else if tag = tagObject then
    (.ok (func, stream), summary)
  else
    -- One checksum word, then `range(length - 1)` further words.
    match skipWords self.format (1 + (length - 1)) stream with
    | .error failure => (.error failure, summary)
    | .ok (_, rest) => (.ok (func, rest), summary)

/-- The main loop of `GCDAParser.Parse`. -/
def parseLoop : Nat → Option Nat → FileSummary → List UInt8 → Except Exception Unit × FileSummary
  | 0, _, summary, _ => (.error .unfinished, summary)
  | fuel + 1, func, summary, stream =>
    match readHeader self.format isTag stream with
    | .error _ => (.ok (), summary)
    | .ok ((tag, length), rest) =>
      match readRecord self tag length func summary rest with
      | (.error failure, after) => (.error failure, after)
      | (.ok (next, remaining), after) => parseLoop fuel next after remaining

end GcdaParser

/-- `GCDAParser.Parse`: the outcome, and the summary object afterwards. -/
def GcdaParser.parse (parser : GcdaParser) (summary : FileSummary) :
    Except Exception Unit × FileSummary :=
  GcdaParser.parseLoop parser.header (parser.stream.length + 1) none summary parser.stream

namespace GcdaParser

variable {self : GcovStream}

/-! ## The parse ends -/

theorem readChecksums_consumes : ByteReader.Consumes (readChecksums self) := by
  refine (readInt_consumes _).bind fun _ => ?_
  split
  · exact ByteReader.consumes_fail _
  · exact (readInt_consumes _).bind fun _ => ByteReader.consumes_pure _
  · exact ByteReader.consumes_pure _

theorem readFunction_consumes (length : Nat) (summary : FileSummary) :
    ByteReader.Consumes (readFunction self length summary) := by
  refine (readInt_consumes _).bind fun ident => ?_
  split
  · refine readChecksums_consumes.bind fun wordsRead => ?_
    split
    · exact (readString_consumes _).bind fun _ => ByteReader.consumes_pure _
    · exact ByteReader.consumes_pure _
  · exact ByteReader.consumes_fail _

theorem skipWords_consumes (format : ByteOrder) (count : Nat) :
    ByteReader.Consumes (skipWords format count) := by
  induction count with
  | zero => exact ByteReader.consumes_pure _
  | succ count ih => exact (readInt_consumes _).bind fun _ => ih

theorem readInt64_consumes (format : ByteOrder) : ByteReader.Consumes (readInt64 format) :=
  (readInt_consumes _).bind fun _ => (readInt_consumes _).bind fun _ => ByteReader.consumes_pure _

theorem readCounts_consumes (format : ByteOrder) (arcs : List Nat) (func after : FunctionSummary)
    (stream rest : List UInt8) (read : readCounts format arcs func stream = (.ok rest, after)) :
    rest.length ≤ stream.length := by
  induction arcs generalizing func stream with
  | nil =>
    cases read
    exact Nat.le_refl _
  | cons arc arcs ih =>
    unfold readCounts at read
    split at read
    · split at read
      · cases read
      · next count remaining wordRead =>
        exact Nat.le_trans (ih _ _ read)
          (readInt64_consumes format stream count remaining wordRead)
    · exact ih _ _ read

theorem readCounters_consumes (func : Option Nat) (summary after : FileSummary)
    (stream rest : List UInt8) (read : readCounters self func summary stream = (.ok rest, after)) :
    rest.length ≤ stream.length := by
  unfold readCounters at read
  split at read
  · cases read
  · next ident =>
    simp only at read
    split at read
    · cases read
    · next remaining counted counts =>
      have consumed := readCounts_consumes _ _ _ _ _ _ counts
      simp only [Prod.mk.injEq] at read
      split at read
      · cases read.1
        exact consumed
      · cases read.1

theorem readRecord_consumes (tag length : Nat) (func next : Option Nat)
    (summary after : FileSummary) (stream rest : List UInt8)
    (read : readRecord self tag length func summary stream = (.ok (next, rest), after)) :
    rest.length ≤ stream.length := by
  unfold readRecord at read
  split at read
  · split at read
    · cases read
    · next ident remaining functionRead =>
      cases read
      exact readFunction_consumes length summary stream ident rest functionRead
  split at read
  · split at read
    · cases read
    · next remaining changed counters =>
      cases read
      exact readCounters_consumes func summary after stream rest counters
  split at read
  · cases read
    exact Nat.le_refl _
  · split at read
    · cases read
    · next remaining words =>
      cases read
      exact skipWords_consumes _ _ stream _ rest words

/-- Fuel above the number of bytes is enough: more of it changes nothing. -/
theorem parseLoop_stable (fuel more : Nat) (func : Option Nat) (summary : FileSummary)
    (stream : List UInt8) (enough : stream.length < fuel) :
    parseLoop self (fuel + more) func summary stream = parseLoop self fuel func summary stream := by
  induction fuel generalizing func summary stream with
  | zero => omega
  | succ fuel ih =>
    rw [Nat.succ_add]
    unfold parseLoop
    split
    · rfl
    · next tag length remaining header =>
      have shorter := (readHeader_ok _ _ _ _ _ _ header).2
      split
      · rfl
      · next next last after record =>
        have consumed :=
          readRecord_consumes tag length func next summary after remaining last record
        exact ih _ _ _ (by omega)

/-- The main loop with as much fuel as it can use. -/
def run (self : GcovStream) (func : Option Nat) (summary : FileSummary)
    (stream : List UInt8) : Except Exception Unit × FileSummary :=
  parseLoop self (stream.length + 1) func summary stream

theorem parse_eq_run (parser : GcdaParser) (summary : FileSummary) :
    parser.parse summary = run parser.header none summary parser.stream := rfl

/-- The main loop unfolded once, without fuel. -/
theorem run_eq (func : Option Nat) (summary : FileSummary) (stream : List UInt8) :
    run self func summary stream =
      match readHeader self.format isTag stream with
      | .error _ => (.ok (), summary)
      | .ok ((tag, length), rest) =>
        match readRecord self tag length func summary rest with
        | (.error failure, after) => (.error failure, after)
        | (.ok (next, remaining), after) => run self next after remaining := by
  change parseLoop self (stream.length + 1) func summary stream = _
  unfold parseLoop
  cases header : readHeader self.format isTag stream with
  | error failure => rfl
  | ok found =>
    obtain ⟨⟨tag, length⟩, rest⟩ := found
    have shorter := (readHeader_ok _ _ _ _ _ _ header).2
    rcases record : readRecord self tag length func summary rest with ⟨outcome, after⟩
    cases outcome with
    | error failure => simp only [record]
    | ok result =>
      obtain ⟨next, remaining⟩ := result
      have consumed := readRecord_consumes tag length func next summary after rest remaining record
      obtain ⟨more, fuel⟩ : ∃ more, stream.length = remaining.length + 1 + more :=
        ⟨stream.length - (remaining.length + 1), by omega⟩
      simp only [record, run]
      rw [fuel, parseLoop_stable _ more _ _ _ (Nat.lt_succ_self _)]

end GcdaParser

end Vts.Coverage
