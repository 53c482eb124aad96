import Mathlib.Data.List.AList
import Vts.Python.Exceptions
import Vts.Python.Text

/-!
# The archive parser

The class `Archive` of `utils/python/archive/archive_parser.py`. The cursor is an
integer, since a negative content size moves it backwards; the dictionaries are
association lists with distinct keys. The loop over the members runs on fuel,
because a negative size can also make it run for ever.
-/

namespace Vts.Ar

open Python

/-- The bytes `/` and line feed. -/
def slash : UInt8 := 47

/-- The line feed. -/
def newline : UInt8 := 10

/-- The state of an `Archive` object. -/
structure Archive where
  files : AList fun _ : Text => Text
  content : Text
  cursor : Int
  stringTable : AList fun _ : Int => Text

namespace Archive

/-- `GLOBAL_SIG`, the text `!<arch>` and a line feed. -/
def globalSig : Text := [33, 60, 97, 114, 99, 104, 62, 10]

/-- `STRING_TABLE_ID`. -/
def stringTableId : Text := [slash, slash]

/-- `STRING_TABLE_TERMINATOR`. -/
def stringTableTerminator : Text := [slash, newline]

/-- `SYM_TABLE_ID`, the text `__.SYMDEF`. -/
def symTableId : Text := [95, 95, 46, 83, 89, 77, 68, 69, 70]

/-- `FILE_ID_TERMINATOR`. -/
def fileIdTerminator : Text := [slash]

/-- `END_TAG`, a back quote and a line feed. -/
def endTag : Text := [96, newline]

/-- `FILE_ID_LENGTH`. -/
def fileIdLength : Nat := 16

/-- `FILE_TIMESTAMP_LENGTH`. -/
def fileTimestampLength : Nat := 12

/-- `OWNER_ID_LENGTH`. -/
def ownerIdLength : Nat := 6

/-- `GROUP_ID_LENGTH`. -/
def groupIdLength : Nat := 6

/-- `FILE_MODE_LENGTH`. -/
def fileModeLength : Nat := 8

/-- `CONTENT_SIZE_LENGTH`. -/
def contentSizeLength : Nat := 10

/-- The constructor. -/
def init (fileContent : Text) : Archive where
  files := ∅
  content := fileContent
  cursor := 0
  stringTable := ∅

/-- A method of the object: it changes the state, or raises. -/
abbrev Method (α : Type) : Type := StateT Archive (Except Exception) α

/-- The state after the cursor has moved. -/
def advance (self : Archive) (n : Int) : Archive := { self with cursor := self.cursor + n }

/-- `ReadBytes`. -/
def readBytes (n : Int) : Method Text := fun self =>
  if self.cursor + n > self.content.length then
    .error (.valueError "Invalid file. EOF reached unexpectedly.")
  else .ok (slice self.content self.cursor (self.cursor + n), self.advance n)

/-- `int(text)`. -/
def toInt (text : Text) : Except Exception Int :=
  match parseInt text with
  | some value => .ok value
  | none => .error (.valueError "invalid literal for int() with base 10")

/-- The loop that fills the string table: each piece is stored under the offset it
starts at. -/
def loadNames : Int → List Text → (AList fun _ : Int => Text) → AList fun _ : Int => Text
  | _, [], table => table
  | acc, string :: names, table =>
    loadNames (acc + (string.length + stringTableTerminator.length)) names
      (table.insert acc string)

/-- The name that the file is stored under: an identifier with a final slash, an
offset into the string table, or the identifier itself. -/
def fileName (self : Archive) (name : Text) : Except Exception Text :=
  if fileIdTerminator.isSuffixOf name then .ok (name.take (name.length - fileIdTerminator.length))
  else if fileIdTerminator.isPrefixOf name then do
    let offset ← toInt (name.drop fileIdTerminator.length)
    match self.stringTable.lookup offset with
    | some stored => .ok stored
    | none => .error (.valueError "Offset %s not in string table.")
  else .ok name

/-- The end of `ReadFile`: what is done with the content of a member. -/
def storeFile (self : Archive) (name content : Text) : Except Exception Archive :=
  if name = stringTableId then
    .ok { self with
      stringTable := loadNames 0 (split stringTableTerminator content) self.stringTable }
  else if name = symTableId then .ok self
  else do
    let key ← self.fileName name
    .ok { self with files := self.files.insert key content }

/-- `ReadFile`. -/
def readFile : Method Unit := do
  let name ← readBytes fileIdLength
  let _ ← readBytes fileTimestampLength
  let _ ← readBytes ownerIdLength
  let _ ← readBytes groupIdLength
  let _ ← readBytes fileModeLength
  let size ← readBytes contentSizeLength
  let contentSize ← toInt size
  let tag ← readBytes endTag.length
  if tag = endTag then do
    let content ← readBytes contentSize
    fun self => (self.storeFile (strip name) content).map fun stored => ((), stored)
  else throw (.valueError "File is not a valid Unix archive. Missing end tag.")

/-- The loop of `Parse`. -/
def readFiles : Nat → Archive → Except Exception Archive
  | 0, _ => .error .unfinished
  | fuel + 1, self =>
    if self.cursor < self.content.length then do
      let ((), next) ← readFile self
      readFiles fuel next
    else .ok self

/-- `Parse`. -/
def parse (fuel : Nat) (self : Archive) : Except Exception Archive := do
  let (sig, opened) ← readBytes globalSig.length self
  if sig = globalSig then readFiles fuel opened
  else .error (.valueError "File is not a valid Unix archive.")

/-! ## Reading at the cursor -/

section

variable (self : Archive) (n : Int)

@[simp] theorem advance_files :
    (self.advance n).files = self.files := rfl

@[simp] theorem advance_stringTable :
    (self.advance n).stringTable = self.stringTable := rfl

@[simp] theorem advance_content :
    (self.advance n).content = self.content := rfl

theorem advance_advance (m n : Int) : (self.advance m).advance n = self.advance (m + n) := by
  simp [advance, Int.add_assoc]

end

/-- The cursor stands before the given rest of the content. -/
def At (self : Archive) (stream : Text) : Prop :=
  ∃ front : Text, self.content = front ++ stream ∧ self.cursor = front.length

theorem at_init (fileContent : Text) : (init fileContent).At fileContent := ⟨[], rfl, rfl⟩

section

variable {self : Archive} {stream : Text}

/-- Only the content and the cursor matter. -/
theorem At.congr {other : Archive} (position : self.At stream)
    (content : other.content = self.content) (cursor : other.cursor = self.cursor) :
    other.At stream := by
  obtain ⟨front, whole, place⟩ := position
  exact ⟨front, content.trans whole, cursor.trans place⟩

theorem At.advance {self : Archive} {piece rest : Text} (position : self.At (piece ++ rest))
    {n : Nat} (length : piece.length = n) : (self.advance n).At rest := by
  subst length
  obtain ⟨front, whole, place⟩ := position
  refine ⟨front ++ piece, ?_, ?_⟩
  · rw [advance_content, whole, List.append_assoc]
  · simp [Archive.advance, place]

/-- The loop ends exactly when nothing is left. -/
theorem At.cursor_lt_iff (position : self.At stream) :
    self.cursor < self.content.length ↔ stream ≠ [] := by
  obtain ⟨front, whole, place⟩ := position
  rw [whole, place, ← List.length_pos_iff]
  simp only [List.length_append]
  omega

theorem readBytes_at {piece rest : Text} (position : self.At (piece ++ rest)) {n : Nat}
    (length : piece.length = n) : readBytes n self = .ok (piece, self.advance n) := by
  subst length
  obtain ⟨front, whole, place⟩ := position
  have available : ¬self.cursor + (piece.length : Int) > self.content.length := by
    rw [whole, place]
    simp only [List.length_append]
    omega
  rw [readBytes, if_neg available, whole, place, slice_append]

/-- Bytes that are missing raise. -/
theorem readBytes_short (position : self.At stream) {n : Nat} (short : stream.length < n) :
    readBytes n self = .error (.valueError "Invalid file. EOF reached unexpectedly.") := by
  obtain ⟨front, whole, place⟩ := position
  have missing : self.cursor + (n : Int) > self.content.length := by
    rw [whole, place]
    simp only [List.length_append]
    omega
  rw [readBytes, if_pos missing]

/-- Run past a method that succeeds. -/
theorem bind_ok {α β : Type} {first : Method α} {next : α → Method β} {after : Archive} {value : α}
    (ran : first self = .ok (value, after)) : (first >>= next) self = next value after := by
  show (first self >>= fun pair => next pair.1 pair.2) = _
  rw [ran]
  rfl

theorem bind_error {α β : Type} {first : Method α} {next : α → Method β} {failure : Exception}
    (failed : first self = .error failure) : (first >>= next) self = .error failure := by
  show (first self >>= fun pair => next pair.1 pair.2) = _
  rw [failed]
  rfl

end

end Archive

end Vts.Ar
