import Mathlib.Algebra.Order.BigOperators.Group.List
import Mathlib.Algebra.Order.Group.Nat
import Vts.Ar.Format

/-!
# Reading back an encoded archive

Encoding a list of members and parsing the bytes gives the members back exactly
when every stored content has even length and no name is one that the parser
takes for something else. Contents of odd length are never read back: the parser
does not skip the byte of padding after them.
-/

namespace Vts.Ar

open List hiding span

open Python

/-- A member of an archive. Its size must have a decimal numeral of ten digits. -/
structure Member where
  name : Text
  content : Text
  metadata : Metadata
  fits : content.length < 10 ^ Archive.contentSizeLength

namespace Member

/-- The name stands in the header and not in the string table. -/
def Short (member : Member) : Prop := member.name.length ≤ 15

instance (member : Member) : Decidable member.Short :=
  inferInstanceAs (Decidable (member.name.length ≤ 15))

/-- The part of the string table that belongs to a member. -/
def tableEntry (member : Member) : Text :=
  if member.Short then [] else member.name ++ Archive.stringTableTerminator

/-- The record of a member whose name, if it is long, stands at the given offset of
the string table. -/
def record (member : Member) (offset : Nat) : Record where
  identifier :=
    if member.Short then member.name ++ Archive.fileIdTerminator
    else Archive.fileIdTerminator ++ decimal offset
  metadata := member.metadata
  content := member.content

/-- The name under which the parser stores the member. -/
def decodedName (member : Member) : Text :=
  if member.Short then lstrip member.name
  else firstPiece Archive.stringTableTerminator member.name

/-- The parser takes the member for a string table. -/
def TakenForTable (member : Member) : Prop := member.Short ∧ lstrip member.name = [slash]

instance (member : Member) : Decidable member.TakenForTable :=
  inferInstanceAs (Decidable (_ ∧ _))

end Member

/-- The string table of a list of members. -/
def tableText (members : List Member) : Text := members.flatMap Member.tableEntry

/-- The records of the members, the first of which has its name at the offset. -/
def memberRecords : Nat → List Member → List Record
  | _, [] => []
  | offset, member :: members =>
    member.record offset :: memberRecords (offset + member.tableEntry.length) members

/-- The input of the encoding: members with distinct names, and how the string table
is written. Where `countsPad` holds, the table is made even by a line feed that its
size counts; otherwise it is padded like any other content. -/
structure Image where
  members : List Member
  distinct : (members.map Member.name).Nodup
  tableMetadata : Metadata
  countsPad : Bool
  tableFits : (tableText members).length + 1 < 10 ^ Archive.contentSizeLength

namespace Image

/-- The content of the string table record. -/
def storedTable (image : Image) : Text :=
  tableText image.members ++
    if image.countsPad then Record.padding (tableText image.members) else []

/-- The record of the string table. -/
def tableRecord (image : Image) : Record where
  identifier := Archive.stringTableId
  metadata := image.tableMetadata
  content := image.storedTable

/-- All records; there is no string table when no name is long. -/
def records (image : Image) : List Record :=
  if tableText image.members = [] then memberRecords 0 image.members
  else image.tableRecord :: memberRecords 0 image.members

/-- The bytes of the archive. -/
def encode (image : Image) : Text :=
  Archive.globalSig ++ image.records.flatMap Record.bytes

/-- The dictionary holds the members and nothing else. -/
def Holds (image : Image) (files : AList fun _ : Text => Text) : Prop :=
  ∀ name content, files.lookup name = some content ↔
    ∃ member ∈ image.members, member.name = name ∧ member.content = content

/-- Parsing the encoded archive ends without an error and gives the members back. -/
def RoundTrips (image : Image) : Prop :=
  ∃ fuel out, (Archive.init image.encode).parse fuel = .ok out ∧ image.Holds out.files

/-- All stored contents have even length and every name can be read back. -/
structure Readable (image : Image) : Prop where
  evenContents : ∀ member ∈ image.members, member.content.length % 2 = 0
  evenTable : image.storedTable.length % 2 = 0
  shortNames : ∀ member ∈ image.members, member.Short →
    (∀ byte ∈ member.name.head?, isSpace byte = false) ∧ member.name ≠ [slash]
  longNames : ∀ member ∈ image.members, ¬member.Short →
    ¬Archive.stringTableTerminator <:+: member.name

end Image

/-! ## Names -/

namespace Member

variable (member : Member)

theorem decodedName_length_le : member.decodedName.length ≤ member.name.length := by
  rw [decodedName]
  split
  · exact lstrip_length_le member.name
  · exact firstPiece_length_le slash newline member.name

/-- A name is read back exactly when it is a short one that does not begin with white
space, or a long one without a terminator inside. -/
theorem decodedName_eq_iff :
    member.decodedName = member.name ↔
      (member.Short → ∀ byte ∈ member.name.head?, isSpace byte = false) ∧
        (¬member.Short → ¬Archive.stringTableTerminator <:+: member.name) := by
  rw [decodedName]
  split
  next short => simp [short, lstrip_eq_self_iff]
  next long =>
    simp only [long, not_false_eq_true, forall_const, false_implies, true_and]
    refine ⟨fun whole found => ?_, fun absent => firstPiece_of_not_infix absent⟩
    have shorter := firstPiece_length_lt (by decide : slash ≠ newline) found
    exact absurd (congrArg List.length whole) (Nat.ne_of_lt shorter)

theorem decodedName_eq_of_length (same : member.decodedName.length = member.name.length) :
    member.decodedName = member.name := by
  by_cases short : member.Short
  · rw [decodedName, if_pos short] at same ⊢
    exact lstrip_eq_self_of_length same
  · rw [decodedName, if_neg short] at same ⊢
    refine firstPiece_of_not_infix fun found => ?_
    exact absurd same (Nat.ne_of_lt (firstPiece_length_lt (by decide : slash ≠ newline) found))

end Member

/-! ## What one member does to the state -/

variable {members : List Member}

namespace Archive

variable {self : Archive} {member : Member}

theorem isSpace_slash : isSpace slash = false := by decide

/-- The record of a short name is taken for a file, or for a string table. -/
theorem record_name_short (short : member.Short) (offset : Nat) :
    (member.record offset).name = lstrip member.name ++ [slash] := by
  rw [Record.name, Member.record, if_pos short]
  exact strip_ljust fileIdLength member.name isSpace_slash

theorem record_name_long (long : ¬member.Short) (offset : Nat) :
    (member.record offset).name = slash :: decimal offset := by
  rw [Record.name, Member.record, if_neg long]
  obtain ⟨front, last, shape⟩ := eq_nil_or_concat (decimal offset) |>.resolve_left
    (decimal_ne_nil offset)
  have digit : isDigit last := isDigit_of_mem_decimal (show last ∈ decimal offset by simp [shape])
  show strip (ljust fileIdLength (slash :: decimal offset)) = _
  rw [shape, concat_eq_append, ← cons_append,
    strip_ljust fileIdLength (slash :: front) (isSpace_of_isDigit digit)]
  simp [lstrip, isSpace_slash]

/-- A short name is stored without its leading white space. -/
theorem storeFile_short (short : member.Short) (plain : ¬member.TakenForTable) (offset : Nat)
    (content : Text) :
    self.storeFile (member.record offset).name content =
      .ok { self with files := self.files.insert member.decodedName content } := by
  have notTable : lstrip member.name ++ [slash] ≠ stringTableId := by
    intro same
    exact plain ⟨short, append_cancel_right (same : _ = [slash] ++ [slash])⟩
  have notSymbols : lstrip member.name ++ [slash] ≠ symTableId := by
    intro same
    have last := congrArg List.getLast? same
    rw [List.getLast?_append] at last
    exact absurd (Option.some.inj last) (by decide)
  have suffixed : fileIdTerminator.isSuffixOf (lstrip member.name ++ [slash]) = true := by
    rw [isSuffixOf_iff_suffix]
    exact suffix_append _ _
  rw [record_name_short short, storeFile, if_neg notTable, if_neg notSymbols, fileName,
    if_pos suffixed, Member.decodedName, if_pos short]
  simp [fileIdTerminator, bind, Except.bind]

/-- A short name that comes out as the string table identifier stores no file. -/
theorem storeFile_table (taken : member.TakenForTable) (offset : Nat) (content : Text) :
    ∃ table, self.storeFile (member.record offset).name content =
      .ok { self with stringTable := table } := by
  rw [record_name_short taken.1, taken.2]
  exact ⟨_, rfl⟩

theorem storeFile_long (long : ¬member.Short) (offset : Nat) (content : Text) :
    self.storeFile (member.record offset).name content =
      match self.stringTable.lookup (offset : Int) with
      | some name => .ok { self with files := self.files.insert name content }
      | none => .error (.valueError "Offset %s not in string table.") := by
  have digits (byte : UInt8) (listed : byte ∈ decimal offset) : byte ≠ slash := by
    rintro rfl
    exact absurd (isDigit_of_mem_decimal listed) (by decide)
  have notTable : slash :: decimal offset ≠ stringTableId := by
    intro same
    exact digits slash (by rw [(List.cons.inj same).2]; simp) rfl
  have notSymbols : slash :: decimal offset ≠ symTableId := by
    intro same
    exact absurd (List.cons.inj same).1 (by decide)
  have notSuffixed : ¬fileIdTerminator.isSuffixOf (slash :: decimal offset) = true := by
    rw [isSuffixOf_iff_suffix]
    rintro ⟨front, same⟩
    have last := congrArg List.getLast? same
    rw [List.getLast?_append, List.getLast?_cons_of_ne_nil (decimal_ne_nil offset)] at last
    exact digits slash (mem_of_getLast? last.symm) rfl
  have prefixed : fileIdTerminator.isPrefixOf (slash :: decimal offset) = true := rfl
  rw [record_name_long long, storeFile, if_neg notTable, if_neg notSymbols, fileName,
    if_neg notSuffixed, if_pos prefixed]
  have offsetIs : toInt (List.drop fileIdTerminator.length (slash :: decimal offset)) =
      .ok (offset : Int) := by
    simp [fileIdTerminator, toInt, parseInt_decimal]
  rw [offsetIs]
  cases found : self.stringTable.lookup (offset : Int) <;> simp [bind, Except.bind, found]

/-! ## The string table -/

theorem loadNames_append (acc : Int) (first second : List Text)
    (table : AList fun _ : Int => Text) :
    loadNames acc (first ++ second) table =
      loadNames (acc + span stringTableTerminator first) second (loadNames acc first table) := by
  induction first generalizing acc table with
  | nil => simp [loadNames, span]
  | cons string first ih =>
    rw [cons_append, loadNames, ih, loadNames]
    simp [span, Int.add_assoc]

/-- Names that start later do not change what is stored at an offset. -/
theorem lookup_loadNames_of_lt {offset acc : Int} (before : offset < acc) (names : List Text)
    (table : AList fun _ : Int => Text) :
    (loadNames acc names table).lookup offset = table.lookup offset := by
  induction names generalizing acc table with
  | nil => rfl
  | cons string names ih =>
    rw [loadNames, ih (by omega), AList.lookup_insert_ne (by omega)]

/-- The first of the names is stored at the first offset. -/
theorem lookup_loadNames_self (acc : Int) {names : List Text} (some : names ≠ [])
    (table : AList fun _ : Int => Text) :
    (loadNames acc names table).lookup acc = .some (names.head some) := by
  cases names with
  | nil => exact absurd rfl some
  | cons string names =>
    rw [loadNames, lookup_loadNames_of_lt (by simp [stringTableTerminator]; omega),
      AList.lookup_insert]
    rfl

/-- Every long name of the members is found at its offset, up to its first
terminator. -/
def Resolves (table : AList fun _ : Int => Text) : Nat → List Member → Prop
  | _, [] => True
  | offset, member :: members =>
    (¬member.Short → table.lookup (offset : Int) = some member.decodedName) ∧
      Resolves table (offset + member.tableEntry.length) members

/-- The table that the parser builds from the string table resolves all names. -/
theorem resolves_loadNames (members : List Member) (extra : Text) (offset : Nat)
    (table : AList fun _ : Int => Text) :
    Resolves (loadNames offset (split stringTableTerminator (tableText members ++ extra)) table)
      offset members := by
  induction members generalizing offset table with
  | nil => trivial
  | cons member members ih =>
    by_cases short : member.Short
    · have entry : member.tableEntry = [] := if_pos short
      refine ⟨fun long => absurd short long, ?_⟩
      simpa [tableText, entry] using ih offset table
    · have entry : member.tableEntry = member.name ++ stringTableTerminator := if_neg short
      have parts : split stringTableTerminator (tableText (member :: members) ++ extra) =
          split stringTableTerminator member.name ++
            split stringTableTerminator (tableText members ++ extra) := by
        have border := split_append (by decide : slash ≠ newline) member.name
          (tableText members ++ extra)
        rw [tableText, flatMap_cons, entry]
        simpa [stringTableTerminator, tableText] using border
      have length := span_split slash newline member.name
      rw [parts, loadNames_append]
      refine ⟨fun _ => ?_, ?_⟩
      · rw [lookup_loadNames_of_lt, lookup_loadNames_self _ (split_ne_nil _ _),
          Member.decodedName, if_neg short]
        · rfl
        · rw [stringTableTerminator, length]
          omega
      · have next : offset + member.tableEntry.length = offset + (member.name.length + 2) := by
          simp [entry, stringTableTerminator]
        rw [next, stringTableTerminator, length]
        exact_mod_cast ih (offset + (member.name.length + 2)) _

/-! ## All members -/

/-- The files of the members entered under the names that the parser sees. -/
def insertAll (members : List Member) (files : AList fun _ : Text => Text) :
    AList fun _ : Text => Text :=
  members.foldl (fun files member => files.insert member.decodedName member.content) files

theorem keys_insert_length (files : AList fun _ : Text => Text) (name content : Text) :
    (files.insert name content).keys.length ≤ files.keys.length + 1 := by
  rw [AList.keys_insert, length_cons]
  exact Nat.succ_le_succ (@List.length_erase_le _ instBEqOfDecidableEq name files.keys)

/-- Each member enters at most one file, and one that is taken for a string table
enters none. -/
theorem storeAll_keys_length {offset : Nat} {out : Archive}
    (ran : storeAll (memberRecords offset members) self = .ok out) :
    out.files.keys.length + members.countP (fun member => member.TakenForTable) ≤
      self.files.keys.length + members.length := by
  induction members generalizing offset self with
  | nil =>
    cases ran
    simp
  | cons member members ih =>
    rw [memberRecords, storeAll] at ran
    set placed := self.advance (Record.headerLength + (member.record offset).content.length)
    have enters (name : Text) (remaining : storeAll (memberRecords (offset +
        member.tableEntry.length) members) { placed with
          files := placed.files.insert name member.content } = .ok out) :
        out.files.keys.length + members.countP (fun member => member.TakenForTable) ≤
          self.files.keys.length + 1 + members.length := by
      have grown := keys_insert_length self.files name member.content
      have later := ih remaining
      exact later.trans (Nat.add_le_add_right grown _)
    by_cases taken : member.TakenForTable
    · obtain ⟨table, stored⟩ : ∃ table, placed.storeFile (member.record offset).name
          (member.record offset).content = .ok { placed with stringTable := table } :=
        storeFile_table taken offset _
      rw [stored] at ran
      have later := ih ran
      rw [countP_cons_of_pos (by simpa using taken), length_cons]
      simp only [placed, advance_files] at later
      omega
    · rw [countP_cons_of_neg (by simpa using taken), length_cons]
      by_cases short : member.Short
      · rw [storeFile_short short taken] at ran
        have later := enters _ ran
        omega
      · rw [storeFile_long short] at ran
        cases found : placed.stringTable.lookup (offset : Int) with
        | none =>
          rw [found] at ran
          cases ran
        | some name =>
          rw [found] at ran
          have later := enters _ ran
          omega

/-- When no member is taken for a string table and all names resolve, every member
is entered. -/
theorem storeAll_resolved {offset : Nat} (plain : ∀ member ∈ members, ¬member.TakenForTable)
    (resolves : Resolves self.stringTable offset members) :
    ∃ out, storeAll (memberRecords offset members) self = .ok out ∧
      out.files = insertAll members self.files := by
  induction members generalizing offset self with
  | nil => exact ⟨self, rfl, rfl⟩
  | cons member members ih =>
    set placed := self.advance (Record.headerLength + (member.record offset).content.length)
      with placedIs
    have stored : placed.storeFile (member.record offset).name member.content =
        .ok { placed with files := placed.files.insert member.decodedName member.content } := by
      by_cases short : member.Short
      · exact storeFile_short short (plain member (by simp)) offset member.content
      · rw [storeFile_long short, placedIs, advance_stringTable, resolves.1 short]
    obtain ⟨out, ran, files⟩ : ∃ out, storeAll (memberRecords (offset +
        member.tableEntry.length) members) { placed with
          files := placed.files.insert member.decodedName member.content } = .ok out ∧
        out.files = insertAll members (placed.files.insert member.decodedName member.content) :=
      ih (fun other listed => plain other (by simp [listed])) resolves.2
    refine ⟨out, ?_, ?_⟩
    · rw [memberRecords, storeAll]
      show (placed.storeFile (member.record offset).name member.content >>= _) = _
      rw [stored]
      exact ran
    · rw [files]
      rfl

/-- Only the names that the parser sees become keys. -/
theorem mem_keys_insertAll {files : AList fun _ : Text => Text} {name : Text}
    (key : name ∈ (insertAll members files).keys) :
    name ∈ files.keys ∨ name ∈ members.map Member.decodedName := by
  induction members generalizing files with
  | nil => exact .inl key
  | cons member members ih =>
    rcases ih key with entered | later
    · rcases AList.mem_insert files |>.mp (AList.mem_keys.mpr entered) with same | older
      · exact .inr (by simp [same])
      · exact .inl (AList.mem_keys.mp older)
    · exact .inr (by simp only [map_cons, mem_cons, later, or_true])

/-- With distinct names that are all read back, each key has the content of its
member. -/
theorem lookup_insertAll (exact : ∀ member ∈ members, member.decodedName = member.name)
    (distinct : (members.map Member.name).Nodup) (files : AList fun _ : Text => Text)
    (fresh : ∀ member ∈ members, files.lookup member.name = none) (name content : Text) :
    (insertAll members files).lookup name = some content ↔
      files.lookup name = some content ∨
        ∃ member ∈ members, member.name = name ∧ member.content = content := by
  induction members generalizing files with
  | nil => simp [insertAll]
  | cons member members ih =>
    rw [map_cons, nodup_cons] at distinct
    have other (later : Member) (listed : later ∈ members) : later.name ≠ member.name := by
      intro same
      exact distinct.1 (same ▸ mem_map_of_mem listed)
    have entered := ih (fun later listed => exact later (by simp [listed]))
      distinct.2 (files.insert member.name member.content) (by
        intro later listed
        rw [AList.lookup_insert_ne (other later listed)]
        exact fresh later (by simp [listed]))
    have step : insertAll (member :: members) files =
        insertAll members (files.insert member.name member.content) := by
      rw [insertAll, foldl_cons, exact member (by simp)]
      rfl
    rw [step, entered]
    by_cases same : name = member.name
    · subst same
      have unlisted : ¬∃ later ∈ members, later.name = member.name ∧ later.content = content := by
        rintro ⟨later, listed, equal, _⟩
        exact other later listed equal
      simp [fresh member (by simp), unlisted]
    · rw [AList.lookup_insert_ne same]
      simp [Ne.symm same]

end Archive

/-! ## The whole archive -/

namespace Image

variable (image : Image)

/-- Offsets stay below the length of the string table. -/
theorem fits_memberRecords {offset : Nat} (bound : offset + (tableText members).length < 10 ^ 15) :
    ∀ record ∈ memberRecords offset members, record.Fits := by
  induction members generalizing offset with
  | nil => simp [memberRecords]
  | cons member members ih =>
    rw [tableText, flatMap_cons, length_append] at bound
    intro record listed
    rcases mem_cons.mp listed with rfl | later
    · refine ⟨?_, member.fits⟩
      rw [Member.record]
      split
      next short =>
        have length : member.name.length ≤ 15 := short
        simp only [length_append, Archive.fileIdTerminator, Archive.fileIdLength,
          length_cons, length_nil]
        omega
      next long =>
        have length : (decimal offset).length ≤ 15 := decimal_length_le (by decide) (by omega)
        simp only [length_append, Archive.fileIdTerminator, Archive.fileIdLength,
          length_cons, length_nil]
        omega
    · exact ih (by rw [tableText]; omega) record later

theorem storedTable_length_le :
    image.storedTable.length ≤ (tableText image.members).length + 1 := by
  rw [storedTable, length_append, Record.padding]
  split <;> [split; skip] <;> simp

theorem fits_records : ∀ record ∈ image.records, record.Fits := by
  have bound := image.tableFits
  have members : ∀ record ∈ memberRecords 0 image.members, record.Fits := by
    apply fits_memberRecords
    have powers : 10 ^ Archive.contentSizeLength ≤ 10 ^ 15 := by decide
    omega
  have table : image.tableRecord.Fits :=
    ⟨(by decide : Archive.stringTableId.length ≤ Archive.fileIdLength),
      Nat.lt_of_le_of_lt image.storedTable_length_le bound⟩
  intro record listed
  rw [records] at listed
  split at listed
  · exact members record listed
  · rcases mem_cons.mp listed with rfl | later
    · exact table
    · exact members record later

/-- The contents of the records are those of the members and the string table. -/
theorem content_memberRecords (members : List Member) (offset : Nat) :
    (memberRecords offset members).map Record.content = members.map Member.content := by
  induction members generalizing offset with
  | nil => rfl
  | cons member members ih =>
    rw [memberRecords, map_cons, map_cons, ih]
    rfl

/-- The parser after the signature. -/
def opened : Archive := (Archive.init image.encode).advance Archive.globalSig.length

theorem opened_at : image.opened.At (image.records.flatMap Record.bytes) :=
  (Archive.at_init image.encode).advance rfl

/-- After the signature the records follow. -/
theorem parse_encode (fuel : Nat) :
    (Archive.init image.encode).parse fuel = image.opened.readFiles fuel := by
  have signature := Archive.readBytes_at (Archive.at_init image.encode) rfl
  rw [Archive.parse, signature]
  rfl

theorem parse_odd (odd : ∃ record ∈ image.records, record.content.length % 2 = 1) (fuel : Nat)
    (out : Archive) : (Archive.init image.encode).parse fuel ≠ .ok out := by
  rw [parse_encode]
  exact Archive.readFiles_odd image.fits_records odd image.opened_at fuel out

theorem parse_even (even : ∀ record ∈ image.records, record.content.length % 2 = 0) (fuel : Nat)
    (out : Archive) :
    (Archive.init image.encode).parse fuel = .ok out ↔
      image.records.length < fuel ∧ Archive.storeAll image.records image.opened = .ok out := by
  rw [parse_encode]
  exact Archive.readFiles_even image.fits_records even image.opened_at fuel out

/-- Without a string table there is nothing to resolve. -/
theorem resolves_of_tableText_nil (empty : tableText members = [])
    (table : AList fun _ : Int => Text) (offset : Nat) : Archive.Resolves table offset members := by
  induction members generalizing offset with
  | nil => trivial
  | cons member members ih =>
    rw [tableText, flatMap_cons, append_eq_nil_iff] at empty
    refine ⟨fun long => ?_, ih empty.2 _⟩
    rw [Member.tableEntry, if_neg long] at empty
    exact absurd empty.1 (by simp [Archive.stringTableTerminator])

/-- The parser when it comes to the first member: the string table is loaded. -/
theorem storeAll_records :
    ∃ loaded : Archive, loaded.files = ∅ ∧
      Archive.Resolves loaded.stringTable 0 image.members ∧
      Archive.storeAll image.records image.opened =
        Archive.storeAll (memberRecords 0 image.members) loaded := by
  by_cases empty : tableText image.members = []
  · refine ⟨image.opened, rfl, resolves_of_tableText_nil empty _ _, ?_⟩
    rw [records, if_pos empty]
  · have tableName : image.tableRecord.name = Archive.stringTableId :=
      strip_ljust Archive.fileIdLength [slash] Archive.isSpace_slash
    refine ⟨{ image.opened.advance (Record.headerLength + image.tableRecord.content.length) with
      stringTable := Archive.loadNames 0
        (split Archive.stringTableTerminator image.storedTable) ∅ }, rfl,
      Archive.resolves_loadNames image.members _ 0 ∅, ?_⟩
    rw [records, if_neg empty, Archive.storeAll, Archive.storeFile, if_pos tableName]
    rfl

/-- Every record has a content of even length when the members and the string table
have. -/
theorem even_records_iff :
    (∀ record ∈ image.records, record.content.length % 2 = 0) ↔
      (∀ member ∈ image.members, member.content.length % 2 = 0) ∧
        image.storedTable.length % 2 = 0 := by
  have members : (∀ record ∈ memberRecords 0 image.members, record.content.length % 2 = 0) ↔
      ∀ member ∈ image.members, member.content.length % 2 = 0 := by
    have contents := content_memberRecords image.members 0
    have viaContents (p : Text → Prop) :
        (∀ record ∈ memberRecords 0 image.members, p record.content) ↔
          ∀ member ∈ image.members, p member.content := by
      rw [← forall_mem_map (P := p), contents, forall_mem_map]
    exact viaContents fun content => content.length % 2 = 0
  rw [records]
  split
  next empty =>
    have even : image.storedTable.length % 2 = 0 := by
      simp [storedTable, empty, Record.padding]
    simp [members, even]
  next =>
    rw [forall_mem_cons, members, and_comm]
    rfl

/-- The parsed dictionary, when no member is taken for a string table. -/
theorem parse_plain (even : ∀ record ∈ image.records, record.content.length % 2 = 0)
    (plain : ∀ member ∈ image.members, ¬member.TakenForTable) {fuel : Nat}
    (enough : image.records.length < fuel) :
    ∃ out, (Archive.init image.encode).parse fuel = .ok out ∧
      out.files = Archive.insertAll image.members ∅ := by
  obtain ⟨loaded, files, resolves, same⟩ := image.storeAll_records
  obtain ⟨out, ran, stored⟩ := Archive.storeAll_resolved plain resolves
  refine ⟨out, (image.parse_even even fuel out).mpr ⟨enough, same.trans ran⟩, ?_⟩
  rw [stored, files]

theorem Holds.names_subset {image : Image} {files : AList fun _ : Text => Text}
    (holds : image.Holds files) : image.members.map Member.name ⊆ files.keys := by
  intro name listed
  obtain ⟨member, inside, rfl⟩ := mem_map.mp listed
  have found := (holds member.name member.content).mpr ⟨member, inside, rfl, rfl⟩
  exact AList.mem_keys.mp (AList.lookup_isSome.mp (by rw [found]; rfl))

/-- A member taken for a string table leaves fewer keys than members. -/
theorem plain_of_roundTrips (even : ∀ record ∈ image.records, record.content.length % 2 = 0)
    (trips : image.RoundTrips) : ∀ member ∈ image.members, ¬member.TakenForTable := by
  intro member listed taken
  obtain ⟨fuel, out, ran, holds⟩ := trips
  obtain ⟨loaded, files, _, same⟩ := image.storeAll_records
  have stored := ((image.parse_even even fuel out).mp ran).2
  rw [same] at stored
  have few := Archive.storeAll_keys_length stored
  have some : 0 < image.members.countP fun member => member.TakenForTable :=
    countP_pos_iff.mpr ⟨member, listed, by simpa using taken⟩
  have many := (subperm_of_subset image.distinct holds.names_subset).length_le
  rw [length_map] at many
  rw [files] at few
  simp only [AList.keys_empty, length_nil] at few
  omega

/-- When the members are held, no name has lost a byte: the keys are as many and as
long as the names. -/
theorem decodedName_eq_of_holds
    (holds : image.Holds (Archive.insertAll image.members ∅)) :
    ∀ member ∈ image.members, member.decodedName = member.name := by
  have listed : image.members.map Member.name ⊆ image.members.map Member.decodedName := by
    intro name known
    exact (Archive.mem_keys_insertAll (holds.names_subset known)).resolve_left (by simp)
  have permuted : (image.members.map Member.name).Perm (image.members.map Member.decodedName) :=
    (subperm_of_subset image.distinct listed).perm_of_length_le (by simp)
  have total : (image.members.map fun member => member.decodedName.length).sum =
      (image.members.map fun member => member.name.length).sum := by
    simpa [map_map, Function.comp_def] using ((permuted.map List.length).sum_eq).symm
  intro member inside
  refine member.decodedName_eq_of_length ?_
  by_contra differ
  have smaller := sum_lt_sum (fun member : Member => member.decodedName.length)
    (fun member => member.name.length) (fun other _ => other.decodedName_length_le)
    ⟨member, inside, Nat.lt_of_le_of_ne member.decodedName_length_le differ⟩
  omega

/-- Members and table of even length, names that are read back and not taken for a
string table: this is what `Readable` says. -/
theorem readable_iff :
    image.Readable ↔
      (∀ record ∈ image.records, record.content.length % 2 = 0) ∧
        (∀ member ∈ image.members, ¬member.TakenForTable) ∧
        ∀ member ∈ image.members, member.decodedName = member.name := by
  rw [even_records_iff]
  constructor
  · rintro ⟨evenContents, evenTable, shortNames, longNames⟩
    have kept : ∀ member ∈ image.members, member.decodedName = member.name := by
      intro member inside
      exact member.decodedName_eq_iff.mpr
        ⟨fun short => (shortNames member inside short).1, longNames member inside⟩
    refine ⟨⟨evenContents, evenTable⟩, ?_, kept⟩
    rintro member inside ⟨short, stripped⟩
    have same := kept member inside
    rw [Member.decodedName, if_pos short] at same
    exact (shortNames member inside short).2 (same.symm.trans stripped)
  · rintro ⟨⟨evenContents, evenTable⟩, plain, kept⟩
    refine ⟨evenContents, evenTable, ?_, ?_⟩
    · intro member inside short
      refine ⟨(member.decodedName_eq_iff.mp (kept member inside)).1 short, ?_⟩
      intro isSlash
      refine plain member inside ⟨short, ?_⟩
      rw [isSlash]
      decide
    · intro member inside
      exact (member.decodedName_eq_iff.mp (kept member inside)).2

/-- The parser gives the members back exactly when all stored contents have even
length, no short name begins with white space or is a single slash, and no long name
has a terminator inside. -/
theorem roundTrips_iff : image.RoundTrips ↔ image.Readable := by
  rw [readable_iff]
  constructor
  · intro trips
    have even : ∀ record ∈ image.records, record.content.length % 2 = 0 := by
      intro record listed
      by_contra odd
      obtain ⟨fuel, out, ran, _⟩ := trips
      exact image.parse_odd ⟨record, listed, by omega⟩ fuel out ran
    have plain := image.plain_of_roundTrips even trips
    refine ⟨even, plain, image.decodedName_eq_of_holds ?_⟩
    obtain ⟨fuel, out, ran, holds⟩ := trips
    have enough := ((image.parse_even even fuel out).mp ran).1
    obtain ⟨other, again, files⟩ := image.parse_plain even plain enough
    obtain rfl : out = other := by simpa [ran] using again
    rwa [files] at holds
  · rintro ⟨even, plain, kept⟩
    obtain ⟨out, ran, files⟩ := image.parse_plain even plain (Nat.lt_succ_self _)
    refine ⟨_, out, ran, ?_⟩
    intro name content
    rw [files, Archive.lookup_insertAll kept image.distinct ∅ (by simp)]
    simp

/-- Header fields of zeros. -/
def plainMetadata : Metadata where
  timestamp := List.replicate Archive.fileTimestampLength 48
  ownerId := List.replicate Archive.ownerIdLength 48
  groupId := List.replicate Archive.groupIdLength 48
  fileMode := List.replicate Archive.fileModeLength 48
  timestamp_length := by decide
  ownerId_length := by decide
  groupId_length := by decide
  fileMode_length := by decide

/-- An archive with one member named `a` whose content is one byte. -/
def oneByte : Image where
  members := [⟨[97], [1], plainMetadata, by decide⟩]
  distinct := by decide
  tableMetadata := plainMetadata
  countsPad := true
  tableFits := by decide

/-- The one byte is followed by a padding byte, which the parser takes for the
beginning of another header. -/
theorem oneByte_not_roundTrips : ¬oneByte.RoundTrips := by
  rintro ⟨fuel, out, ran, _⟩
  exact oneByte.parse_odd ⟨_, mem_singleton.mpr rfl, rfl⟩ fuel out ran

end Image

end Vts.Ar
