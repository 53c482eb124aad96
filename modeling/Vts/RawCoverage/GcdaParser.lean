import Vts.Lib.Loops
import Vts.RawCoverage.GcdaFile

/-!
# The parser of raw coverage

`GcdaRawCoverageParser` of `drivers/hal/libcodecoverage`: after the magic number, the version and the
stamp come records of a tag, a length and as many words. Only the second word of a function record
goes to the result.

The loop over the records runs for as many iterations as it is given. An access to `tags` outside of
the array, or to an entry that has not been set, is a fault.
-/

namespace Vts.RawCoverage

open Lib (Loop.Iteration Loop.run)

def GCOV_DATA_MAGIC : Unsigned := 0x67636461

def GCOV_TAG_FUNCTION : Unsigned := 0x01000000

def GCOV_TAG_BLOCKS : Unsigned := 0x01410000

def GCOV_TAG_ARCS : Unsigned := 0x01430000

def GCOV_TAG_LINES : Unsigned := 0x01450000

def GCOV_TAG_MASK (tag : Unsigned) : Unsigned := (tag - 1) ^^^ tag

/-- `SUB` is an immediate subtag of `TAG`. -/
def GCOV_TAG_IS_SUBTAG (TAG SUB : Unsigned) : Bool :=
  GCOV_TAG_MASK TAG >>> 8 = GCOV_TAG_MASK SUB ∧ (SUB ^^^ TAG) &&& ~~~(GCOV_TAG_MASK TAG) = 0

/-- What is written to `cout` and `cerr`. -/
inductive Message where
  | notAGcovFile (filename : String)
  | cannotOpen (filename : String)
  | invalidTag (tag : Unsigned)
  | incorrectlyNestedTag (tag : Unsigned)
  | blocks (count : Unsigned)
  | arcs (count : Unsigned)
  | lines
  | ioError (position : Unsigned)
deriving DecidableEq

structure GcdaRawCoverageParser where
  filename_ : String
  gcda_file_ : GcovVar
  result : List Unsigned
  output : List Message

namespace GcdaRawCoverageParser

def write (message : Message) (self : GcdaRawCoverageParser) : GcdaRawCoverageParser :=
  { self with output := self.output ++ [message] }

/-- A word of the file. -/
def ReadUnsigned (self : GcdaRawCoverageParser) : Unsigned × GcdaRawCoverageParser :=
  let (value, gcda_file_) := self.gcda_file_.ReadUnsigned
  (value, { self with gcda_file_ := gcda_file_ })

/-- The version is read, and nothing comes of it. -/
def ParseMagic (self : GcdaRawCoverageParser) : Bool × GcdaRawCoverageParser :=
  let (magic, self) := self.ReadUnsigned
  let (endianness, gcda_file_) := self.gcda_file_.Magic magic GCOV_DATA_MAGIC
  let self := { self with gcda_file_ := gcda_file_ }
  if endianness ≠ 0 then (true, self.ReadUnsigned.2)
  else
    let self := self.write (.notAGcovFile self.filename_)
    (false, { self with gcda_file_ := self.gcda_file_.Close.2 })

def TagFunction (length : Unsigned) (self : GcdaRawCoverageParser) : GcdaRawCoverageParser :=
  if length = 0 then self
  else
    let (_, self) := self.ReadUnsigned
    let (lineno_checksum, self) := self.ReadUnsigned
    let self := { self with result := self.result ++ [lineno_checksum] }
    self.ReadUnsigned.2

def TagBlocks (length : Unsigned) (self : GcdaRawCoverageParser) : GcdaRawCoverageParser :=
  self.write (.blocks length)

def TagArcs (length : Unsigned) (self : GcdaRawCoverageParser) : GcdaRawCoverageParser :=
  self.write (.arcs ((length - 1) / 2))

def TagLines (_length : Unsigned) (self : GcdaRawCoverageParser) : GcdaRawCoverageParser :=
  self.write .lines

def dispatch (tag length : Unsigned) (self : GcdaRawCoverageParser) : GcdaRawCoverageParser :=
  if tag = GCOV_TAG_FUNCTION then self.TagFunction length
  else if tag = GCOV_TAG_BLOCKS then self.TagBlocks length
  else if tag = GCOV_TAG_ARCS then self.TagArcs length
  else if tag = GCOV_TAG_LINES then self.TagLines length
  else self

end GcdaRawCoverageParser

/-! ## The body -/

/-- The loop over the bytes of the mask: the depth, and whether it broke off. A mask has four bytes. -/
def tagDepthLoop : Nat → Unsigned → Unsigned → Unsigned × Bool
  | 0, _, tag_depth => (tag_depth, false)
  | bytes + 1, mask, tag_depth =>
    if mask = 0 then (tag_depth, false)
    else if mask &&& 0xff ≠ 0xff then (tag_depth, true)
    else tagDepthLoop bytes (mask >>> 8) (tag_depth - 1)

def tagDepth (tag : Unsigned) : Unsigned × Bool := tagDepthLoop 4 (GCOV_TAG_MASK tag >>> 1) 4

/-- The parser with the variables of `ParseBody` that live through the loop. -/
structure Body where
  self : GcdaRawCoverageParser
  tags : List (Option Unsigned)
  depth : Unsigned

/-- An index outside of `tags`, or an entry that is read before it is set. -/
structure BadIndex where
deriving DecidableEq

namespace Body

/-- `tags[depth - 1]`. -/
def parentTag (body : Body) : Except BadIndex Unsigned :=
  match body.tags[(body.depth - 1).toNat]? with
  | some (some tag) => .ok tag
  | _ => .error ⟨⟩

/-- `tags[depth - 1] = tag`. -/
def setTag (tag : Unsigned) (body : Body) : Except BadIndex Body :=
  if (body.depth - 1).toNat < body.tags.length then
    .ok { body with tags := body.tags.set (body.depth - 1).toNat (some tag) }
  else .error ⟨⟩

/-- A deeper tag that is not a subtag of the one before it. -/
def isMisplaced (tag tag_depth : Unsigned) (body : Body) : Except BadIndex Bool :=
  if body.depth ≠ 0 ∧ body.depth < tag_depth then
    body.parentTag.map fun parent => !GCOV_TAG_IS_SUBTAG parent tag
  else .ok false

/-- The checks of the tag, which then is the one at its depth. -/
def nest (tag : Unsigned) (body : Body) : Except BadIndex Body := do
  let (tag_depth, invalid) := tagDepth tag
  let body := if invalid then { body with self := body.self.write (.invalidTag tag) } else body
  let misplaced ← body.isMisplaced tag tag_depth
  let body :=
    if misplaced then { body with self := body.self.write (.incorrectlyNestedTag tag) } else body
  setTag tag { body with depth := tag_depth }

/-- An iteration of the loop of `ParseBody`. -/
def iterate (body : Body) : Loop.Iteration Body (Except BadIndex Body) :=
  let (tag, self) := body.self.ReadUnsigned
  if tag = 0 then .left (.ok { body with self := self })
  else
    let (length, self) := self.ReadUnsigned
    let base := self.gcda_file_.Position
    match nest tag { body with self := self } with
    | .error fault => .left (.error fault)
    | .ok body =>
      let self := body.self.dispatch tag length
      let self := { self with gcda_file_ := self.gcda_file_.Sync base length }
      if self.gcda_file_.IsError ≠ 0 then
        .left (.ok { body with self := self.write (.ioError self.gcda_file_.Position) })
      else .next { body with self := self }

end Body

namespace GcdaRawCoverageParser

/-- `ParseBody` before its loop. -/
def bodyStart (self : GcdaRawCoverageParser) : Body where
  self := self.ReadUnsigned.2
  tags := List.replicate 4 none
  depth := 0

def ParseBody (fuel : Nat) (self : GcdaRawCoverageParser) :
    Option (Except BadIndex GcdaRawCoverageParser) :=
  (Loop.run Body.iterate fuel self.bodyStart).map fun left => left.map Body.self

/-- The parser after `Parse`; its `result` is returned. -/
def Parse (fopen : String → Option (List UInt8)) (fuel : Nat) (self : GcdaRawCoverageParser) :
    Option (Except BadIndex GcdaRawCoverageParser) :=
  let self := { self with result := [] }
  let (opened, gcda_file_) := self.gcda_file_.Open fopen self.filename_
  let self := { self with gcda_file_ := gcda_file_ }
  if opened then
    let (isGcda, self) := self.ParseMagic
    if isGcda then
      (self.ParseBody fuel).map fun left =>
        left.map fun self => { self with gcda_file_ := self.gcda_file_.Close.2 }
    else some (.ok self)
  else some (.ok (self.write (.cannotOpen self.filename_)))

end GcdaRawCoverageParser

end Vts.RawCoverage
