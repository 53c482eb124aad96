import Vts.Ar.Archive

/-!
# The ar format

The standard encoding of an archive: the signature, then one record for each
member. A record is a header of fields of fixed width, the content, and one byte
of padding after a content of odd length, so that every header starts on a 2-byte
boundary. Names of at most 15 bytes stand in the header, longer ones in a string
table that is the first record.

What the parser does with a sequence of records is settled here: when all contents
have even length it stores them one after the other, and when one of them has odd
length it raises.
-/

namespace Vts.Ar

open Python List

/-- The header fields that the parser passes over, at their widths. -/
structure Metadata where
  timestamp : Text
  ownerId : Text
  groupId : Text
  fileMode : Text
  timestamp_length : timestamp.length = Archive.fileTimestampLength
  ownerId_length : ownerId.length = Archive.ownerIdLength
  groupId_length : groupId.length = Archive.groupIdLength
  fileMode_length : fileMode.length = Archive.fileModeLength

/-- A header and a content. -/
structure Record where
  identifier : Text
  metadata : Metadata
  content : Text

namespace Record

/-- The identifier and the decimal size fit their fields. -/
structure Fits (record : Record) : Prop where
  identifier : record.identifier.length ≤ Archive.fileIdLength
  size : record.content.length < 10 ^ Archive.contentSizeLength

/-- The size field. -/
def sizeField (record : Record) : Text :=
  ljust Archive.contentSizeLength (decimal record.content.length)

/-- The bytes after the content that put the next header on a 2-byte boundary. -/
def padding (content : Text) : Text := if content.length % 2 = 0 then [] else [newline]

/-- The bytes of a record. -/
def bytes (record : Record) : Text :=
  ljust Archive.fileIdLength record.identifier ++
    (record.metadata.timestamp ++ (record.metadata.ownerId ++ (record.metadata.groupId ++
      (record.metadata.fileMode ++ (record.sizeField ++ (Archive.endTag ++
        (record.content ++ padding record.content)))))))

/-- What the parser takes for the name. -/
def name (record : Record) : Text := strip (ljust Archive.fileIdLength record.identifier)

/-- The length of a header. -/
def headerLength : Nat := 60

variable {record : Record}

theorem Fits.sizeField_length (fits : record.Fits) :
    record.sizeField.length = Archive.contentSizeLength :=
  ljust_length (decimal_length_le (by decide) fits.size)

/-- The size field holds digits and spaces. -/
theorem ne_backquote_of_mem_sizeField {byte : UInt8} (listed : byte ∈ record.sizeField) :
    byte ≠ 96 := by
  rcases mem_append.mp listed with numeral | space
  · rintro rfl
    exact absurd (isDigit_of_mem_decimal numeral) (by decide)
  · rw [(mem_replicate.mp space).2]
    decide

/-- One byte off, the last byte of the size field stands where the end tag should. -/
theorem Fits.tag_misread (fits : record.Fits) (rest : Text) :
    (newline :: (record.bytes ++ rest))[58]? ≠ some 96 := by
  set front := ljust Archive.fileIdLength record.identifier ++ record.metadata.timestamp ++
    record.metadata.ownerId ++ record.metadata.groupId ++ record.metadata.fileMode with frontIs
  have frontLength : front.length = 48 := by
    simp only [frontIs, length_append, ljust_length fits.identifier,
      record.metadata.timestamp_length, record.metadata.ownerId_length,
      record.metadata.groupId_length, record.metadata.fileMode_length]
    rfl
  have sizeLength : record.sizeField.length = 10 := fits.sizeField_length
  have shape : record.bytes ++ rest = front ++ (record.sizeField ++
      (Archive.endTag ++ (record.content ++ padding record.content) ++ rest)) := by
    simp [bytes, frontIs]
  rw [shape, List.getElem?_cons_succ, List.getElem?_append_right (by omega), frontLength,
    List.getElem?_append_left (by omega)]
  intro found
  exact ne_backquote_of_mem_sizeField (mem_of_getElem? found) rfl

end Record

namespace Archive

/-! ## One header -/

/-- A method raises a `ValueError`. -/
def Fails {α : Type} (method : Method α) (self : Archive) : Prop :=
  ∃ message, method self = .error (.valueError message)

section

variable {self : Archive} {stream rest : Text} {records : List Record}

/-- Reading fails, or goes on with the bytes that follow. -/
theorem fails_read {α : Type} (position : self.At stream) (n : Nat) {next : Text → Method α}
    (later : (self.advance n).At (stream.drop n) →
      Fails (next (stream.take n)) (self.advance n)) : Fails (readBytes n >>= next) self := by
  by_cases enough : n ≤ stream.length
  · have split : self.At (stream.take n ++ stream.drop n) := by
      rwa [take_append_drop]
    have taken : (stream.take n).length = n := length_take_of_le enough
    obtain ⟨message, failed⟩ := later (split.advance taken)
    exact ⟨message, (bind_ok (readBytes_at split taken)).trans failed⟩
  · exact ⟨_, bind_error (readBytes_short position (by omega))⟩

/-- The conversion of the size fails, or goes on with some size. -/
theorem fails_toInt {α : Type} (size : Text) {next : Int → Method α}
    (later : ∀ value, Fails (next value) self) :
    Fails ((liftM (toInt size) : Method Int) >>= next) self := by
  unfold toInt
  cases parseInt size with
  | none => exact ⟨_, rfl⟩
  | some value => exact later value

/-- `ReadFile` raises when the header has no end tag in its place, or is cut off. -/
theorem readFile_fails (position : self.At stream) (misread : stream[58]? ≠ some 96) :
    Fails readFile self := by
  unfold readFile
  refine fails_read position _ fun position => ?_
  refine fails_read position _ fun position => ?_
  refine fails_read position _ fun position => ?_
  refine fails_read position _ fun position => ?_
  refine fails_read position _ fun position => ?_
  refine fails_read position _ fun position => ?_
  refine fails_toInt _ fun size => ?_
  refine fails_read position _ fun _ => ?_
  rw [if_neg]
  · exact ⟨_, rfl⟩
  · intro tag
    have first : (stream.drop 58).head? = some 96 := by
      simpa [fileIdLength, fileTimestampLength, ownerIdLength, groupIdLength, fileModeLength,
        contentSizeLength, endTag, List.head?_take] using congrArg List.head? tag
    exact misread (by rwa [List.head?_drop] at first)

theorem readFile_record {record : Record} (fits : record.Fits)
    (position : self.At (record.bytes ++ rest)) :
    readFile self =
      ((self.advance (Record.headerLength + record.content.length)).storeFile record.name
        record.content).map fun stored => ((), stored) := by
  unfold readFile
  simp only [Record.bytes, append_assoc] at position
  have identifierLength := ljust_length fits.identifier
  rw [bind_ok (readBytes_at position identifierLength)]
  replace position := position.advance identifierLength
  rw [bind_ok (readBytes_at position record.metadata.timestamp_length)]
  replace position := position.advance record.metadata.timestamp_length
  rw [bind_ok (readBytes_at position record.metadata.ownerId_length)]
  replace position := position.advance record.metadata.ownerId_length
  rw [bind_ok (readBytes_at position record.metadata.groupId_length)]
  replace position := position.advance record.metadata.groupId_length
  rw [bind_ok (readBytes_at position record.metadata.fileMode_length)]
  replace position := position.advance record.metadata.fileMode_length
  rw [bind_ok (readBytes_at position fits.sizeField_length)]
  replace position := position.advance fits.sizeField_length
  have size : toInt record.sizeField = .ok (record.content.length : Int) := by
    rw [toInt, Record.sizeField, parseInt_ljust_decimal]
  rw [size, bind_ok rfl, bind_ok (readBytes_at position rfl), if_pos rfl]
  replace position := position.advance rfl
  rw [bind_ok (readBytes_at position rfl)]
  simp only [advance_advance]
  rfl

/-! ## A sequence of records -/

/-- Storing a file does not move the cursor. -/
theorem At.storeFile {self stored : Archive} {name content stream : Text}
    (position : self.At stream) (ran : self.storeFile name content = .ok stored) :
    stored.At stream := by
  unfold Archive.storeFile at ran
  split at ran
  · cases ran
    exact position.congr rfl rfl
  · split at ran
    · cases ran
      exact position
    · cases key : self.fileName name with
      | error failure =>
        rw [key] at ran
        cases ran
      | ok file =>
        rw [key] at ran
        cases ran
        exact position.congr rfl rfl

/-- The members stored one after the other. -/
def storeAll : List Record → Archive → Except Exception Archive
  | [], self => .ok self
  | record :: records, self => do
    let stored ← (self.advance (Record.headerLength + record.content.length)).storeFile
      record.name record.content
    storeAll records stored

/-- The state and the cursor after one record of the sequence. -/
theorem readFiles_record {record : Record} (fits : record.Fits)
    (position : self.At (record.bytes ++ rest)) (fuel : Nat) :
    readFiles (fuel + 1) self =
      ((self.advance (Record.headerLength + record.content.length)).storeFile record.name
        record.content >>= readFiles fuel) := by
  have more : record.bytes ++ rest ≠ [] := by
    have header : (ljust fileIdLength record.identifier).length = 16 :=
      ljust_length fits.identifier
    intro empty
    have short := congrArg List.length empty
    simp only [Record.bytes, length_append, header, length_nil] at short
    omega
  rw [readFiles, if_pos (position.cursor_lt_iff.mpr more), readFile_record fits position]
  cases (self.advance (Record.headerLength + record.content.length)).storeFile record.name
    record.content <;> rfl

/-- The cursor after a record stands before the padding. -/
theorem At.record {self : Archive} {record : Record} (fits : record.Fits) {rest : Text}
    (position : self.At (record.bytes ++ rest)) :
    (self.advance (Record.headerLength + record.content.length)).At
      (Record.padding record.content ++ rest) := by
  have header : (ljust fileIdLength record.identifier ++ (record.metadata.timestamp ++
      (record.metadata.ownerId ++ (record.metadata.groupId ++ (record.metadata.fileMode ++
        (record.sizeField ++ (endTag ++ record.content))))))).length =
      Record.headerLength + record.content.length := by
    simp only [length_append, ljust_length fits.identifier,
      record.metadata.timestamp_length, record.metadata.ownerId_length,
      record.metadata.groupId_length, record.metadata.fileMode_length, fits.sizeField_length]
    simp only [fileIdLength, fileTimestampLength, ownerIdLength, groupIdLength, fileModeLength,
      contentSizeLength, endTag, Record.headerLength, length_cons, length_nil]
    omega
  have regrouped := position
  simp only [Record.bytes, append_assoc] at regrouped
  have advanced : (self.advance ((Record.headerLength + record.content.length : Nat) : Int)).At
      (Record.padding record.content ++ rest) := At.advance (by simpa using regrouped) header
  exact_mod_cast advanced

/-- Records of even length are stored one after the other, and nothing else happens. -/
theorem readFiles_even (fits : ∀ record ∈ records, record.Fits)
    (even : ∀ record ∈ records, record.content.length % 2 = 0)
    (position : self.At (records.flatMap Record.bytes)) (fuel : Nat) (out : Archive) :
    readFiles fuel self = .ok out ↔ records.length < fuel ∧ storeAll records self = .ok out := by
  induction records generalizing self fuel with
  | nil =>
    cases fuel with
    | zero => simp [readFiles]
    | succ fuel =>
      have done : ¬self.cursor < self.content.length := by
        simpa using position.cursor_lt_iff.not
      simp [readFiles, done, storeAll]
  | cons record records ih =>
    cases fuel with
    | zero => simp [readFiles]
    | succ fuel =>
      rw [flatMap_cons] at position
      have recordFits := fits record (by simp)
      have unpadded : Record.padding record.content = [] := by
        rw [Record.padding, if_pos (even record (by simp))]
      have after := position.record recordFits
      rw [unpadded, nil_append] at after
      rw [readFiles_record recordFits position, storeAll]
      cases stored : (self.advance (Record.headerLength + record.content.length)).storeFile
        record.name record.content with
      | error failure => simp [bind, Except.bind]
      | ok next =>
        have tail := ih (fun other member => fits other (by simp [member]))
          (fun other member => even other (by simp [member])) (after.storeFile stored) fuel
        simpa [bind, Except.bind] using tail

/-- A record of odd length: the next header is read one byte early, and rejected. -/
theorem readFiles_odd (fits : ∀ record ∈ records, record.Fits)
    (odd : ∃ record ∈ records, record.content.length % 2 = 1)
    (position : self.At (records.flatMap Record.bytes)) (fuel : Nat) (out : Archive) :
    readFiles fuel self ≠ .ok out := by
  induction records generalizing self fuel with
  | nil => simp at odd
  | cons record records ih =>
    cases fuel with
    | zero => simp [readFiles]
    | succ fuel =>
      rw [flatMap_cons] at position
      have recordFits := fits record (by simp)
      have after := position.record recordFits
      rw [readFiles_record recordFits position]
      cases stored : (self.advance (Record.headerLength + record.content.length)).storeFile
        record.name record.content with
      | error failure => simp [bind, Except.bind]
      | ok next =>
        show readFiles fuel next ≠ .ok out
        by_cases parity : record.content.length % 2 = 0
        · have unpadded : Record.padding record.content = [] := by
            rw [Record.padding, if_pos parity]
          rw [unpadded, nil_append] at after
          refine ih (fun other member => fits other (by simp [member])) ?_
            (after.storeFile stored) fuel
          obtain ⟨other, member, otherOdd⟩ := odd
          rcases mem_cons.mp member with rfl | later
          · omega
          · exact ⟨other, later, otherOdd⟩
        · have padded : Record.padding record.content = [newline] := by
            rw [Record.padding, if_neg parity]
          rw [padded, singleton_append] at after
          cases fuel with
          | zero => simp [readFiles]
          | succ fuel =>
            have position := after.storeFile stored
            have misread : (newline :: records.flatMap Record.bytes)[58]? ≠ some 96 := by
              cases records with
              | nil => simp
              | cons next records =>
                exact (fits next (by simp)).tag_misread (records.flatMap Record.bytes)
            obtain ⟨message, failed⟩ := readFile_fails position misread
            rw [readFiles, if_pos (position.cursor_lt_iff.mpr (by simp)), failed]
            simp [bind, Except.bind]

end

end Archive

end Vts.Ar
