import Vts.Elf.AndroidRela
import Vts.Elf.Relr
import Vts.Lib.InOrder

/-!
# Which exceptions the ELF parser raises

The callers of the parser catch `ElfError` only. Everything that the parser reads is
taken from the file, and some of it goes unchecked into an operation that raises
something else: the identification is indexed though it may be cut off, the index
of the section names indexes the list of sections, entry sizes divide and serve as
steps of a `range`, counts are listed by `range`, strings are read from any position,
and the words of a RELR section are unpacked though an archive may end among them.

For the constructor and for each method the condition under which the contract is
kept is stated over the file, and proved to be exact.
-/

namespace Vts.Elf

open Python (Exception Host Text)
open Lib Lib.WordCodec

/-! ## The constructor -/

namespace Source

variable (self : Source)

/-- The file ends inside of the identification of the ELF object, right before the
class byte or, after a valid class byte, before the data byte. -/
def CutIdent : Prop :=
  16 ≤ self.fileSize ∧ (self.rest 0).take 4 = elfMagicNumber ∧
    ((self.rest 0).length = 4 ∨
      (self.rest 0).length = 5 ∧ ∃ classByte ∈ (self.rest 0)[4]?, (elfClassOf classByte).isSome)

variable {self}

/-- An identification that is not beyond the end of the file is read as far as it
goes. -/
theorem seekRead_ident (inside : self.beginOffset ≤ self.fileSize) (long : 16 ≤ self.fileSize) :
    self.seekRead 0 16 = .ok ((self.rest 0).take 16) := by
  have seekable := self.file.seekable
  have size : self.file.content.length = self.fileSize := rfl
  rw [seekRead_eq_ok_iff]
  exact ⟨by omega, by omega, rfl⟩

theorem keepsContract_elfError {α : Type} (message : String) (shown : Text) :
    KeepsContract (.error (.elfError message shown) : Except Exception α) :=
  (keepsContract_error_iff _).mpr ⟨message, shown, rfl⟩

theorem not_keepsContract_indexError {α : Type} :
    ¬KeepsContract (.error .indexError : Except Exception α) := by
  rw [keepsContract_error_iff]
  rintro ⟨message, shown, equal⟩
  cases equal

theorem checkIdent_keepsContract_iff (inside : self.beginOffset ≤ self.fileSize) :
    KeepsContract self.checkIdent ↔ ¬self.CutIdent := by
  by_cases long : 16 ≤ self.fileSize
  · have start : ((self.rest 0).take 16).take 4 = (self.rest 0).take 4 := by simp [List.take_take]
    have classAt : ((self.rest 0).take 16)[4]? = (self.rest 0)[4]? :=
      List.getElem?_take_of_lt (by decide)
    have dataAt : ((self.rest 0).take 16)[5]? = (self.rest 0)[5]? :=
      List.getElem?_take_of_lt (by decide)
    rw [checkIdent, seekRead_ident inside long]
    simp only [bind, Except.bind, start, classAt, dataAt]
    by_cases magic : (self.rest 0).take 4 = elfMagicNumber
    · have four : 4 ≤ (self.rest 0).length := by
        have length := congrArg List.length magic
        simp only [List.length_take, elfMagicNumber, List.length_cons, List.length_nil] at length
        omega
      rw [if_neg (by simpa using magic)]
      cases classByte : (self.rest 0)[4]? with
      | none =>
        have exactly := List.getElem?_eq_none_iff.mp classByte
        refine iff_of_false not_keepsContract_indexError (not_not.mpr ?_)
        exact ⟨long, magic, .inl (by omega)⟩
      | some byte =>
        have five := (List.getElem?_eq_some_iff.mp classByte).1
        dsimp only
        cases elfClass : elfClassOf byte with
        | none =>
          refine iff_of_true (keepsContract_elfError _ _) ?_
          rintro ⟨_, _, four | ⟨_, other, listed, valid⟩⟩
          · omega
          · rw [classByte, Option.mem_some_iff] at listed
            simp [← listed, elfClass] at valid
        | some found =>
          dsimp only
          cases dataByte : (self.rest 0)[5]? with
          | none =>
            have exactly := List.getElem?_eq_none_iff.mp dataByte
            refine iff_of_false not_keepsContract_indexError (not_not.mpr ?_)
            exact ⟨long, magic, .inr ⟨by omega, byte, classByte, by simp [elfClass]⟩⟩
          | some data =>
            have six := (List.getElem?_eq_some_iff.mp dataByte).1
            refine iff_of_true ?_ ?_
            · dsimp only
              split
              · exact keepsContract_elfError _ _
              · exact keepsContract_ok _
            · rintro ⟨_, _, four | ⟨five, _⟩⟩ <;> omega
    · rw [if_pos (by simpa using magic)]
      exact iff_of_true (keepsContract_elfError _ _) fun cut => magic cut.2.1
  · refine iff_of_true ?_ fun cut => long cut.1
    have short : self.seekRead 0 16 = .error (.elfError "Read beyond end of file." []) := by
      rw [seekRead, if_pos (by omega)]
    rw [checkIdent, short]
    exact keepsContract_elfError _ _

end Source

/-- A field is smaller than its width allows. -/
theorem field_lt (widths : List Nat) (index : Nat) (raw : Text) :
    field widths index raw < 256 ^ widths.getD index 0 := by
  refine Nat.lt_of_lt_of_le (leValue_lt _) (Nat.pow_le_pow_right (by decide) ?_)
  exact List.length_take_le _ _

section

variable (elfClass : ElfClass) (raw : Text)

theorem eShnum_lt : (elfClass.elfEhdr.build raw).eShnum < 2 ^ 16 := by
  cases elfClass <;> exact field_lt _ 12 raw

theorem ePhnum_lt : (elfClass.elfEhdr.build raw).ePhnum < 2 ^ 16 := by
  cases elfClass <;> exact field_lt _ 10 raw

theorem shName_lt : (elfClass.elfShdr.build raw).shName < 2 ^ 32 := by
  cases elfClass <;> exact field_lt _ 0 raw

theorem stName_lt : (elfClass.elfSym.build raw).stName < 2 ^ 32 := by
  cases elfClass <;> exact field_lt _ 0 raw

end

namespace Source

variable {self : Source}

/-- A structure that was read was built from bytes of the file. -/
theorem seekReadStruct_eq_ok {α : Type} {offset : Nat} {structType : StructType α} {value : α}
    (read : self.seekReadStruct offset structType = .ok value) :
    ∃ raw, structType.build raw = value := by
  rw [seekReadStruct, bind_eq_ok_iff] at read
  obtain ⟨raw, _, built⟩ := read
  split at built
  · cases built
  · exact ⟨raw, Except.ok.inj built⟩

theorem readShdr_keepsContract (inside : self.beginOffset ≤ self.fileSize) (elfClass : ElfClass)
    (shoff shentsize index count : Nat) :
    KeepsContract (self.readShdr elfClass shoff shentsize index count) := by
  induction count generalizing index with
  | zero => exact keepsContract_ok _
  | succ count ih =>
    rw [readShdr, keepsContract_bind_iff]
    refine ⟨keepsContract_seekReadStruct inside _ _, fun sh _ => ?_⟩
    rw [keepsContract_bind_iff]
    exact ⟨ih (index + 1), fun _ _ => keepsContract_ok _⟩

/-- The names of the sections are 32-bit offsets. -/
theorem shName_lt_of_readShdr {elfClass : ElfClass} {shoff shentsize index count : Nat}
    {shdr : List Shdr} (read : self.readShdr elfClass shoff shentsize index count = .ok shdr) :
    ∀ sh ∈ shdr, sh.shName < 2 ^ 32 := by
  induction count generalizing index shdr with
  | zero =>
    cases read
    simp
  | succ count ih =>
    simp only [readShdr, bind_eq_ok_iff, Except.ok.injEq] at read
    obtain ⟨sh, first, others, rest, rfl⟩ := read
    obtain ⟨raw, built⟩ := seekReadStruct_eq_ok first
    intro other listed
    rcases List.mem_cons.mp listed with rfl | later
    · exact built ▸ shName_lt elfClass raw
    · exact ih rest other later

theorem readHeaders_keepsContract (inside : self.beginOffset ≤ self.fileSize)
    (elfClass : ElfClass) : KeepsContract (self.readHeaders elfClass) := by
  rw [readHeaders, keepsContract_bind_iff]
  refine ⟨keepsContract_seekReadStruct inside _ _, fun ehdr read => ?_⟩
  obtain ⟨raw, built⟩ := seekReadStruct_eq_ok read
  have few : ehdr.eShnum < self.file.host.rangeLimit :=
    Nat.lt_of_lt_of_le (built ▸ eShnum_lt elfClass raw) self.file.host.rangeLimit_ge
  rw [Host.range_of_lt few, keepsContract_bind_iff]
  refine ⟨keepsContract_ok _, fun count _ => ?_⟩
  rw [keepsContract_bind_iff]
  exact ⟨readShdr_keepsContract inside _ _ _ _ _, fun _ _ => keepsContract_ok _⟩

end Source

/-- What holds of a parser that the constructor returned. -/
structure ElfParser.Constructed (parser : ElfParser) (source : Source) : Prop where
  source : parser.source = source
  shName_lt : ∀ sh ∈ parser.shdr, sh.shName < 2 ^ 32
  ePhnum_lt : parser.ehdr.ePhnum < 2 ^ 16

/-- The constructor keeps the contract, and closes the file when it raises, unless the
identification is cut. -/
theorem init_keepsContract_iff {source : Source} (inside : source.beginOffset ≤ source.fileSize) :
    (KeepsContract (ElfParser.init source).1 ∧
      ∀ failure, (ElfParser.init source).1 = .error failure →
        (ElfParser.init source).2.file.closed = true) ↔
      ¬source.CutIdent := by
  rw [← Source.checkIdent_keepsContract_iff inside]
  have closes {α : Type} {failure : Exception} (isElfError : IsElfError failure) :
      (source.closing (.error failure : Except Exception α)).file.closed = true := by
    obtain ⟨message, shown, rfl⟩ := isElfError
    rfl
  unfold ElfParser.init
  cases checked : source.checkIdent with
  | error failure =>
    rw [keepsContract_error_iff]
    dsimp only
    rw [keepsContract_error_iff]
    refine ⟨fun kept => kept.1, fun isElfError => ⟨isElfError, fun _ _ => closes isElfError⟩⟩
  | ok elfClass =>
    refine iff_of_true ⟨Source.readHeaders_keepsContract inside elfClass, ?_⟩ (keepsContract_ok _)
    intro failure failed
    have isElfError := Source.readHeaders_keepsContract inside elfClass failure failed
    dsimp only at failed ⊢
    rw [failed]
    exact closes isElfError

theorem constructed_of_init {source : Source} {parser : ElfParser}
    (returned : (ElfParser.init source).1 = .ok parser) : parser.Constructed source := by
  unfold ElfParser.init at returned
  split at returned
  · cases returned
  next elfClass _ =>
    simp only [Source.readHeaders, bind_eq_ok_iff, Except.ok.injEq] at returned
    obtain ⟨ehdr, read, count, _, shdr, sections, rfl⟩ := returned
    obtain ⟨raw, built⟩ := Source.seekReadStruct_eq_ok read
    exact ⟨rfl, Source.shName_lt_of_readShdr sections, built ▸ ePhnum_lt elfClass raw⟩

/-! ## Names of sections -/

namespace ElfParser

variable {self : ElfParser}

/-- The position of a string in a string table. -/
def stringPosition (self : ElfParser) (strtab : Shdr) (offset : Nat) : Nat :=
  self.source.beginOffset + (strtab.shOffset + offset)

theorem getString_keepsContract_iff (strtab : Shdr) (offset : Nat) :
    KeepsContract (self.getString strtab offset) ↔
      self.stringPosition strtab offset < self.host.seekLimit :=
  Source.keepsContract_seekReadString_iff _

/-- After one string of a table was read, every 32-bit offset into it is reachable. -/
theorem stringPosition_lt_of_read {strtab : Shdr} {offset : Nat} {string : Text}
    (read : self.getString strtab offset = .ok string) {other : Nat} (small : other < 2 ^ 32) :
    self.stringPosition strtab other < self.host.seekLimit := by
  have inside := Source.lt_fileSize_of_seekReadString read
  have seekable : self.source.fileSize + 2 ^ 33 ≤ self.host.seekLimit := self.source.file.seekable
  rw [stringPosition]
  omega

/-- There is a table of section names, and the file can be set to the name of the
section. -/
def NameReachable (self : ElfParser) (sh : Shdr) : Prop :=
  ∃ strtab, self.shdr[self.ehdr.eShstrndx]? = some strtab ∧
    self.stringPosition strtab sh.shName < self.host.seekLimit

theorem getSectionName_keepsContract_iff (sh : Shdr) :
    KeepsContract (self.getSectionName sh) ↔ self.NameReachable sh := by
  unfold getSectionName NameReachable
  cases self.shdr[self.ehdr.eShstrndx]? with
  | none => simpa using Source.not_keepsContract_indexError
  | some strtab => simpa using getString_keepsContract_iff strtab sh.shName

/-- After one section name was read, every other can be asked for. -/
theorem nameReachable_of_read {sh other : Shdr} {name : Text}
    (read : self.getSectionName sh = .ok name) (small : other.shName < 2 ^ 32) :
    self.NameReachable other := by
  unfold getSectionName at read
  split at read
  · cases read
  next strtab found => exact ⟨strtab, found, stringPosition_lt_of_read read small⟩

/-- The name of the first section decides whether names can be asked for. -/
def NamesUsable (self : ElfParser) (sections : List Shdr) : Prop :=
  ∀ sh ∈ sections.head?, self.NameReachable sh

section

variable {sections : List Shdr}

theorem namesUsable_of_read {sh : Shdr} {name : Text} (read : self.getSectionName sh = .ok name)
    (small : ∀ other ∈ sections, other.shName < 2 ^ 32) : self.NamesUsable sections :=
  fun other first => nameReachable_of_read read (small other (List.mem_of_mem_head? first))

theorem firstByName_keepsContract_iff (name : Text) (small : ∀ sh ∈ sections, sh.shName < 2 ^ 32) :
    KeepsContract (self.firstByName name sections) ↔ self.NamesUsable sections := by
  induction sections with
  | nil => exact iff_of_true (keepsContract_ok _) (by simp [NamesUsable])
  | cons sh others ih =>
    have rest : ∀ other ∈ others, other.shName < 2 ^ 32 := fun other listed =>
      small other (by simp [listed])
    rw [firstByName, keepsContract_bind_iff, getSectionName_keepsContract_iff]
    simp only [NamesUsable, List.head?_cons, Option.mem_some_iff, forall_eq',
      and_iff_left_iff_imp]
    intro _ sectionName read
    split
    · exact keepsContract_ok _
    · exact (ih rest).mpr (namesUsable_of_read read rest)

theorem androidIdentIn_keepsContract_iff (inside : self.source.beginOffset ≤ self.source.fileSize)
    (small : ∀ sh ∈ sections, sh.shName < 2 ^ 32) :
    KeepsContract (self.androidIdentIn sections) ↔ self.NamesUsable sections := by
  induction sections with
  | nil => exact iff_of_true (keepsContract_ok _) (by simp [NamesUsable])
  | cons sh others ih =>
    have rest : ∀ other ∈ others, other.shName < 2 ^ 32 := fun other listed =>
      small other (by simp [listed])
    rw [androidIdentIn, keepsContract_bind_iff, getSectionName_keepsContract_iff]
    simp only [NamesUsable, List.head?_cons, Option.mem_some_iff, forall_eq',
      and_iff_left_iff_imp]
    intro _ sectionName read
    have later := (ih rest).mpr (namesUsable_of_read read rest)
    split
    · rw [keepsContract_bind_iff]
      refine ⟨Source.keepsContract_seekReadStruct inside _ _, fun nh _ => ?_⟩
      rw [keepsContract_bind_iff]
      refine ⟨Source.keepsContract_seekRead inside _ _, fun name _ => ?_⟩
      split
      · exact keepsContract_ok _
      · exact later
    · exact later

end

/-! ## Counts -/

/-- A failure of `range` is no `ElfError`. -/
theorem range_keepsContract_iff (host : Host) (stop : Nat) :
    KeepsContract (host.range stop) ↔ stop < host.rangeLimit := by
  constructor
  · intro keeps
    by_contra full
    obtain ⟨failure, failed, kind⟩ := Host.rangeItems_of_le (Nat.le_of_not_lt full)
    have raised : host.range (stop : Int) = .error failure := failed
    rw [raised, keepsContract_error_iff] at keeps
    obtain ⟨message, shown, rfl⟩ := keeps
    rcases kind with kind | kind <;> cases kind
  · intro room
    rw [Host.range_of_lt room]
    exact keepsContract_ok _

/-- The entries of a table can be counted and listed. -/
def Countable (self : ElfParser) (table : Shdr) : Prop :=
  table.shEntsize ≠ 0 ∧ table.shSize / table.shEntsize < self.host.rangeLimit

/-- A loop over the entries of a table. -/
theorem counted_keepsContract_iff {α : Type} (table : Shdr) (loop : Nat → Except Exception α) :
    KeepsContract (do
      let num ← floorDiv table.shSize table.shEntsize
      let count ← self.host.range num
      loop count) ↔
      self.Countable table ∧ KeepsContract (loop (table.shSize / table.shEntsize)) := by
  rw [keepsContract_bind_iff, floorDiv, Countable]
  by_cases zero : table.shEntsize = 0
  · rw [if_pos zero, keepsContract_error_iff]
    refine iff_of_false ?_ (by simp [zero])
    rintro ⟨⟨message, shown, equal⟩, _⟩
    cases equal
  · rw [if_neg zero]
    simp only [keepsContract_ok, Except.ok.injEq, forall_eq', true_and, keepsContract_bind_iff,
      range_keepsContract_iff, ne_eq, zero, not_false_eq_true, and_congr_right_iff]
    intro room
    rw [Host.range_of_lt room]
    simp

/-- One step of a loop that reads an item: where the item cannot be read the loop ends
with an `ElfError`, and where it can the item decides. -/
theorem step_keepsContract_iff {α β : Type} {read : Except Exception α}
    {body : α → Except Exception β} {passed usable rest : Prop} (reads : KeepsContract read)
    (unread : (∀ value, read ≠ .ok value) → usable ∧ ¬passed)
    (onValue : ∀ value, read = .ok value →
      (KeepsContract (body value) ↔ usable ∧ (passed → rest))) :
    KeepsContract (read >>= body) ↔ usable ∧ (passed → rest) := by
  rw [keepsContract_bind_iff]
  cases outcome : read with
  | error failure =>
    obtain ⟨isUsable, notPassed⟩ := unread (by simp [outcome])
    rw [outcome] at reads
    exact iff_of_true ⟨reads, by simp⟩ ⟨isUsable, fun isPassed => absurd isPassed notPassed⟩
  | ok value => simpa [keepsContract_ok] using onValue value outcome

/-! ## Symbols -/

/-- The symbol is read and passed over. -/
def SymbolPassed (self : ElfParser) (includeWeak : Bool) (symtab : Shdr) (idx : Nat) : Prop :=
  ∃ sym, self.getSymbol symtab idx = .ok sym ∧ selected includeWeak sym = false

/-- If the symbol is read and selected, the file can be set to its name. -/
def SymbolUsable (self : ElfParser) (includeWeak : Bool) (symtab strtab : Shdr) (idx : Nat) :
    Prop :=
  ∀ sym, self.getSymbol symtab idx = .ok sym → selected includeWeak sym = true →
    self.stringPosition strtab sym.stName < self.host.seekLimit

theorem symbolNames_keepsContract_iff (inside : self.source.beginOffset ≤ self.source.fileSize)
    (includeWeak : Bool) (symtab strtab : Shdr) (idx count : Nat) :
    KeepsContract (self.symbolNames includeWeak symtab strtab idx count) ↔
      InOrder (self.SymbolPassed includeWeak symtab) (self.SymbolUsable includeWeak symtab strtab)
        (List.range' idx count) := by
  induction count generalizing idx with
  | zero => exact iff_of_true (keepsContract_ok _) (inOrder_nil _ _)
  | succ count ih =>
    rw [symbolNames, List.range'_succ, inOrder_cons_iff, ← ih]
    refine step_keepsContract_iff (Source.keepsContract_seekReadStruct inside _ _) ?_ ?_
    · intro unread
      exact ⟨fun sym read => absurd read (unread sym), fun ⟨sym, read, _⟩ => unread sym read⟩
    · intro sym read
      have usable : self.SymbolUsable includeWeak symtab strtab idx ↔
          (selected includeWeak sym = true →
            self.stringPosition strtab sym.stName < self.host.seekLimit) := by
        simp [SymbolUsable, read]
      have passed : self.SymbolPassed includeWeak symtab idx ↔
          selected includeWeak sym = false := by
        simp [SymbolPassed, read]
      rw [usable, passed]
      cases chosen : selected includeWeak sym with
      | false => simp
      | true =>
        simp only [↓reduceIte, forall_const, Bool.true_eq_false, false_implies, and_true,
          keepsContract_bind_iff, getString_keepsContract_iff, and_iff_left_iff_imp]
        intro _ name found
        refine ⟨(ih (idx + 1)).mpr (inOrder_of_forall ?_), fun _ _ =>
          keepsContract_ok _⟩
        intro other _ next readNext _
        obtain ⟨raw, built⟩ := Source.seekReadStruct_eq_ok readNext
        exact stringPosition_lt_of_read found (built ▸ stName_lt self.elfClass raw)

/-- The symbols of the table can be counted, and the name of the first one that is
selected can be asked for. -/
def SymbolsUsable (self : ElfParser) (includeWeak : Bool) (symtab strtab : Shdr) : Prop :=
  self.Countable symtab ∧
    InOrder (self.SymbolPassed includeWeak symtab) (self.SymbolUsable includeWeak symtab strtab)
      (List.range' 0 (symtab.shSize / symtab.shEntsize))

theorem listGlobalSymbols_keepsContract_iff
    (inside : self.source.beginOffset ≤ self.source.fileSize)
    (small : ∀ sh ∈ self.shdr, sh.shName < 2 ^ 32) (includeWeak : Bool)
    (symtabName strtabName : Text) :
    KeepsContract (self.listGlobalSymbols includeWeak symtabName strtabName) ↔
      self.NamesUsable self.shdr ∧
        ∀ symtab strtab, self.getSectionByName symtabName = .ok (some symtab) →
          self.getSectionByName strtabName = .ok (some strtab) → symtab.shSize ≠ 0 →
          self.SymbolsUsable includeWeak symtab strtab := by
  have named (name : Text) : KeepsContract (self.getSectionByName name) ↔
      self.NamesUsable self.shdr := firstByName_keepsContract_iff name small
  rw [listGlobalSymbols, keepsContract_bind_iff, named]
  refine and_congr_right fun usable => ?_
  constructor
  · intro keeps symtab strtab foundSymtab foundStrtab nonempty
    have later := keeps (some symtab) foundSymtab
    rw [keepsContract_bind_iff] at later
    have body := later.2 (some strtab) foundStrtab
    dsimp only at body
    rw [if_neg nonempty, counted_keepsContract_iff,
      symbolNames_keepsContract_iff inside] at body
    exact body
  · intro condition symtab foundSymtab
    rw [keepsContract_bind_iff]
    refine ⟨(named strtabName).mpr usable, fun strtab foundStrtab => ?_⟩
    cases symtab with
    | none => exact Source.keepsContract_elfError _ _
    | some symtab =>
      cases strtab with
      | none => exact Source.keepsContract_elfError _ _
      | some strtab =>
        dsimp only
        split
        · exact Source.keepsContract_elfError _ _
        next nonempty =>
          rw [counted_keepsContract_iff, symbolNames_keepsContract_iff inside]
          exact condition symtab strtab foundSymtab foundStrtab nonempty

/-! ## The program interpreter -/

/-- The program header is read and passed over. -/
def PhdrPassed (self : ElfParser) (index : Nat) : Prop :=
  ∃ ph, self.readPhdr index = .ok ph ∧ ph.pType ≠ ptInterp

/-- If the program header is read and names the interpreter, the file can be set to its
path. -/
def PhdrUsable (self : ElfParser) (index : Nat) : Prop :=
  ∀ ph, self.readPhdr index = .ok ph → ph.pType = ptInterp →
    self.source.beginOffset + ph.pOffset < self.host.seekLimit

theorem interpreterFrom_keepsContract_iff
    (inside : self.source.beginOffset ≤ self.source.fileSize) (index count : Nat) :
    KeepsContract (self.interpreterFrom index count) ↔
      InOrder self.PhdrPassed self.PhdrUsable (List.range' index count) := by
  induction count generalizing index with
  | zero => exact iff_of_true (keepsContract_ok _) (inOrder_nil _ _)
  | succ count ih =>
    rw [interpreterFrom, List.range'_succ, inOrder_cons_iff, ← ih]
    refine step_keepsContract_iff (Source.keepsContract_seekReadStruct inside _ _) ?_ ?_
    · intro unread
      exact ⟨fun ph read => absurd read (unread ph), fun ⟨ph, read, _⟩ => unread ph read⟩
    · intro ph read
      have usable : self.PhdrUsable index ↔ (ph.pType = ptInterp →
          self.source.beginOffset + ph.pOffset < self.host.seekLimit) := by
        simp [PhdrUsable, read]
      have passed : self.PhdrPassed index ↔ ph.pType ≠ ptInterp := by
        simp [PhdrPassed, read]
      rw [usable, passed]
      by_cases interpreter : ph.pType = ptInterp
      · simp only [interpreter, ↓reduceIte, forall_const, ne_eq, not_true_eq_false,
          false_implies, and_true, keepsContract_bind_iff, Source.keepsContract_seekReadString_iff,
          keepsContract_ok, implies_true]
        rfl
      · simp [interpreter]

theorem getProgramInterpreter_keepsContract_iff
    (inside : self.source.beginOffset ≤ self.source.fileSize)
    (small : self.ehdr.ePhnum < 2 ^ 16) :
    KeepsContract self.getProgramInterpreter ↔
      InOrder self.PhdrPassed self.PhdrUsable (List.range' 0 self.ehdr.ePhnum) := by
  have few : self.ehdr.ePhnum < self.host.rangeLimit :=
    Nat.lt_of_lt_of_le small self.host.rangeLimit_ge
  rw [getProgramInterpreter, Host.range_of_lt few, ← interpreterFrom_keepsContract_iff inside]
  rfl

/-! ## Dependencies -/

/-- The string at an offset of the table ends inside of the file. -/
def Terminated (self : ElfParser) (strtab : Shdr) (offset : Nat) : Prop :=
  0 ∈ self.source.rest (strtab.shOffset + offset)

/-- The names that the loop comes to can be asked for. -/
def StringsUsable (self : ElfParser) (strtab : Shdr) (offsets : List Nat) : Prop :=
  InOrder (self.Terminated strtab)
    (fun offset => self.stringPosition strtab offset < self.host.seekLimit) offsets

theorem getStrings_keepsContract_iff (strtab : Shdr) (offsets : List Nat) :
    KeepsContract (self.getStrings strtab offsets) ↔ self.StringsUsable strtab offsets := by
  induction offsets with
  | nil => exact iff_of_true (keepsContract_ok _) (inOrder_nil _ _)
  | cons offset offsets ih =>
    have terminated : self.Terminated strtab offset ↔
        ∃ name, self.getString strtab offset = .ok name := by
      simp [Terminated, getString, Source.seekReadString_eq_ok_iff]
    rw [getStrings, StringsUsable, inOrder_cons_iff, ← StringsUsable, ← ih,
      keepsContract_bind_iff, getString_keepsContract_iff, terminated]
    refine and_congr_right fun _ => ?_
    simp [keepsContract_bind_iff, keepsContract_ok]

theorem dynEntries_keepsContract (inside : self.source.beginOffset ≤ self.source.fileSize)
    (entsize count off : Nat) : KeepsContract (self.dynEntries entsize count off) := by
  induction count generalizing off with
  | zero => exact keepsContract_ok _
  | succ count ih =>
    rw [dynEntries, keepsContract_bind_iff]
    refine ⟨Source.keepsContract_seekReadStruct inside _ _, fun dyn _ => ?_⟩
    split
    · exact keepsContract_ok _
    · rw [keepsContract_bind_iff]
      exact ⟨ih _, fun _ _ => keepsContract_ok _⟩

/-- The entries of the dynamic section can be counted, and the names that its entries
need can be asked for in the string table that its entries tell. -/
def DynamicUsable (self : ElfParser) (dynamic : Shdr) : Prop :=
  self.Countable dynamic ∧
    ∀ entries addr strtab, self.getDynamic dynamic = .ok entries →
      strtabAddr entries = some addr →
      (self.shdr.find? fun sh => sh.shAddr = addr) = some strtab →
      self.StringsUsable strtab (nameOffsets entries)

theorem loadDtNeeded_keepsContract_iff (inside : self.source.beginOffset ≤ self.source.fileSize)
    (dynamic : Shdr) :
    KeepsContract (self.loadDtNeeded dynamic) ↔ self.DynamicUsable dynamic := by
  have counted : KeepsContract (self.getDynamic dynamic) ↔ self.Countable dynamic := by
    rw [getDynamic, counted_keepsContract_iff]
    exact and_iff_left (dynEntries_keepsContract inside _ _ _)
  rw [loadDtNeeded, keepsContract_bind_iff, counted, DynamicUsable]
  refine and_congr_right fun _ => ?_
  constructor
  · intro keeps entries addr strtab read told found
    have body := keeps entries read
    simp only [told, found] at body
    exact (getStrings_keepsContract_iff strtab _).mp body
  · intro condition entries read
    split
    · exact Source.keepsContract_elfError _ _
    next addr told =>
      split
      · exact Source.keepsContract_elfError _ _
      next strtab found =>
        exact (getStrings_keepsContract_iff strtab _).mpr
          (condition entries addr strtab read told found)

/-- The section is passed: it is no dynamic section, or its needed names are loaded. -/
def DependenciesPassed (self : ElfParser) (sh : Shdr) : Prop :=
  sh.shType = shtDynamic → ∃ names, self.loadDtNeeded sh = .ok names

theorem dependencies_keepsContract_iff (inside : self.source.beginOffset ≤ self.source.fileSize)
    (sections : List Shdr) :
    KeepsContract (self.dependencies sections) ↔
      InOrder self.DependenciesPassed
        (fun sh => sh.shType = shtDynamic → self.DynamicUsable sh) sections := by
  induction sections with
  | nil => exact iff_of_true (keepsContract_ok _) (inOrder_nil _ _)
  | cons sh others ih =>
    rw [dependencies, inOrder_cons_iff, ← ih]
    by_cases dynamic : sh.shType = shtDynamic
    · have passed : self.DependenciesPassed sh ↔ ∃ names, self.loadDtNeeded sh = .ok names := by
        simp [DependenciesPassed, dynamic]
      rw [if_pos dynamic, keepsContract_bind_iff, loadDtNeeded_keepsContract_iff inside, passed]
      simp [dynamic, keepsContract_bind_iff, keepsContract_ok]
    · simp [dynamic, DependenciesPassed]

/-! ## Relocations -/

theorem relocationsFrom_keepsContract (inside : self.source.beginOffset ≤ self.source.fileSize)
    (rel : Shdr) (idx count : Nat) : KeepsContract (self.relocationsFrom rel idx count) := by
  induction count generalizing idx with
  | zero => exact keepsContract_ok _
  | succ count ih =>
    rw [relocationsFrom, keepsContract_bind_iff]
    refine ⟨?_, fun relocation _ => ?_⟩
    · rw [getRelocation]
      split <;>
        exact (keepsContract_bind_iff _ _).mpr
          ⟨Source.keepsContract_seekReadStruct inside _ _, fun _ _ => keepsContract_ok _⟩
    · rw [keepsContract_bind_iff]
      exact ⟨ih _, fun _ _ => keepsContract_ok _⟩

/-- The check of the size lets a word through that ends after the file: it forgets that
the ELF object starts inside of the file. -/
def CutEntry (self : ElfParser) (entOffset : Nat) : Prop :=
  entOffset + self.elfClass.addrSize ≤ self.source.fileSize ∧
    self.source.fileSize < self.source.beginOffset + entOffset + self.elfClass.addrSize ∧
    self.source.beginOffset + entOffset < self.host.seekLimit

theorem seekReadEntry_keepsContract_iff
    (inside : self.source.beginOffset ≤ self.source.fileSize) (entOffset : Nat) :
    KeepsContract (self.seekReadEntry entOffset) ↔ ¬self.CutEntry entOffset := by
  rw [seekReadEntry_eq, Source.seekReadInt, keepsContract_bind_iff, CutEntry]
  have reads := Source.keepsContract_seekRead inside entOffset self.elfClass.addrSize
  have positive := self.elfClass.addrSize_pos
  have length := self.source.length_rest entOffset
  simp only [reads, true_and, Source.seekRead_eq_ok_iff]
  constructor
  · rintro keeps ⟨fits, cut, reachable⟩
    have unpacked := keeps _ ⟨fits, reachable, rfl⟩
    rw [if_neg (by rw [List.length_take]; omega), keepsContract_error_iff] at unpacked
    obtain ⟨message, shown, equal⟩ := unpacked
    cases equal
  · rintro whole raw ⟨fits, reachable, rfl⟩
    have complete : self.source.beginOffset + entOffset + self.elfClass.addrSize ≤
        self.source.fileSize := Nat.le_of_not_lt fun cut => whole ⟨fits, cut, reachable⟩
    rw [if_pos (by rw [List.length_take]; omega)]
    exact keepsContract_ok _

/-- The word is not cut; and if it is a bitmap, `range` can list its bits. -/
def EntryUsable (self : ElfParser) (entsize entOffset : Nat) : Prop :=
  ¬self.CutEntry entOffset ∧
    ∀ relrEntry, self.seekReadEntry entOffset = .ok relrEntry → relrEntry &&& 1 ≠ 0 →
      entsize * 8 - 1 < self.host.rangeLimit

/-- The word is read. -/
def EntryPassed (self : ElfParser) (entOffset : Nat) : Prop :=
  ∃ relrEntry, self.seekReadEntry entOffset = .ok relrEntry

theorem rangeStep_one (host : Host) (stop : Nat) :
    host.rangeStep 1 stop 1 = host.range ((stop - 1 : Nat) : Int) := by
  rw [Host.rangeStep, if_neg (by decide), Nat.div_one, Nat.add_sub_cancel]
  rfl

theorem relrOffsets_keepsContract_iff (inside : self.source.beginOffset ≤ self.source.fileSize)
    (entsize count entOffset relOffset : Nat) :
    KeepsContract (self.relrOffsets entsize count entOffset relOffset) ↔
      InOrder self.EntryPassed (self.EntryUsable entsize)
        (List.range' entOffset count entsize) := by
  induction count generalizing entOffset relOffset with
  | zero => exact iff_of_true (keepsContract_ok _) (inOrder_nil _ _)
  | succ count ih =>
    rw [relrOffsets, List.range'_succ, inOrder_cons_iff, keepsContract_bind_iff,
      seekReadEntry_keepsContract_iff inside]
    set later := InOrder self.EntryPassed (self.EntryUsable entsize)
      (List.range' (entOffset + entsize) count entsize)
    have body (relrEntry : Nat) : KeepsContract
        (if relrEntry &&& 1 = 0 then do
          let others ← self.relrOffsets entsize count (entOffset + entsize)
            (relrEntry + self.elfClass.addrSize)
          .ok (relrEntry :: others)
        else do
          let bits ← self.host.rangeStep 1 (entsize * 8) 1
          let found := bitmapOffsets self.elfClass.addrSize relrEntry 1 bits relOffset
          let others ← self.relrOffsets entsize count (entOffset + entsize) found.2
          .ok (found.1 ++ others)) ↔
        (relrEntry &&& 1 ≠ 0 → entsize * 8 - 1 < self.host.rangeLimit) ∧ later := by
      by_cases address : relrEntry &&& 1 = 0
      · simp [address, keepsContract_bind_iff, keepsContract_ok, ih, later]
      · rw [if_neg address, keepsContract_bind_iff, rangeStep_one, range_keepsContract_iff]
        simp only [ne_eq, address, not_false_eq_true, forall_const, and_congr_right_iff]
        intro room
        rw [Host.range_of_lt room]
        simp [keepsContract_bind_iff, keepsContract_ok, ih, later]
    rw [EntryUsable, EntryPassed, and_assoc]
    refine and_congr_right fun _ => ?_
    constructor
    · intro keeps
      refine ⟨fun relrEntry read => ((body relrEntry).mp (keeps relrEntry read)).1, ?_⟩
      rintro ⟨relrEntry, read⟩
      exact ((body relrEntry).mp (keeps relrEntry read)).2
    · rintro ⟨listed, rest⟩ relrEntry read
      exact (body relrEntry).mpr ⟨listed relrEntry read, rest ⟨relrEntry, read⟩⟩

/-- The number of words that `range` gives for a RELR section. -/
def relrCount (rel : Shdr) : Nat := (rel.shSize + rel.shEntsize - 1) / rel.shEntsize

/-- The words of a RELR section can be listed, and each one that the loop comes to is
usable. -/
def RelrUsable (self : ElfParser) (rel : Shdr) : Prop :=
  rel.shEntsize ≠ 0 ∧ relrCount rel < self.host.rangeLimit ∧
    InOrder self.EntryPassed (self.EntryUsable rel.shEntsize)
      (List.range' rel.shOffset (relrCount rel) rel.shEntsize)

theorem decodeAndroidRelr_keepsContract_iff
    (inside : self.source.beginOffset ≤ self.source.fileSize) (rel : Shdr) :
    KeepsContract (self.decodeAndroidRelr rel) ↔ self.RelrUsable rel := by
  rw [decodeAndroidRelr, RelrUsable, keepsContract_bind_iff, Host.rangeStep]
  by_cases zero : rel.shEntsize = 0
  · rw [if_pos zero, keepsContract_error_iff]
    refine iff_of_false ?_ (by simp [zero])
    rintro ⟨⟨message, shown, equal⟩, _⟩
    cases equal
  · have counted : self.host.rangeItems ((rel.shOffset + rel.shSize - rel.shOffset +
        rel.shEntsize - 1) / rel.shEntsize) = self.host.range (relrCount rel : Int) := by
      rw [Nat.add_sub_cancel_left]
      rfl
    rw [if_neg zero, counted, range_keepsContract_iff]
    simp only [ne_eq, zero, not_false_eq_true, true_and, and_congr_right_iff]
    intro room
    rw [Host.range_of_lt room]
    simp [keepsContract_bind_iff, keepsContract_ok, relrOffsets_keepsContract_iff inside]

/-- What a section must be like for its relocations to be read. -/
def RelocationsUsable (self : ElfParser) (rel : Shdr) : Prop :=
  if rel.shType = shtAndroidRel ∨ rel.shType = shtAndroidRela then
    ∀ data, self.source.seekRead rel.shOffset rel.shSize = .ok data →
      ¬ClaimsOversizedGroup self.host data
  else if rel.shType = shtRelr ∨ rel.shType = shtAndroidRelr then self.RelrUsable rel
  else self.Countable rel

theorem getRelocations_keepsContract_iff (inside : self.source.beginOffset ≤ self.source.fileSize)
    (rel : Shdr) : KeepsContract (self.getRelocations rel) ↔ self.RelocationsUsable rel := by
  rw [getRelocations, RelocationsUsable]
  split
  · have unpacked : KeepsContract (self.unpackAndroidRela rel) ↔
        ∀ data, self.source.seekRead rel.shOffset rel.shSize = .ok data →
          ¬ClaimsOversizedGroup self.host data := by
      rw [unpackAndroidRela, keepsContract_bind_iff]
      simp [Source.keepsContract_seekRead inside, unpackData_keepsContract_iff]
    rw [keepsContract_bind_iff, unpacked]
    refine and_iff_left fun relocations _ => ?_
    split <;> exact keepsContract_ok _
  · split
    · rw [keepsContract_bind_iff, decodeAndroidRelr_keepsContract_iff inside]
      exact and_iff_left fun relocations _ => keepsContract_ok _
    · rw [counted_keepsContract_iff]
      exact and_iff_left (relocationsFrom_keepsContract inside rel _ _)

end ElfParser

/-! ## The contract -/

/-- The error contract: the constructor returns, or closes the file and raises
`ElfError`; and each method of a constructed parser returns or raises `ElfError`. -/
structure ContractKept (source : Source) : Prop where
  constructor : KeepsContract (ElfParser.init source).1
  closed : ∀ failure, (ElfParser.init source).1 = .error failure →
    (ElfParser.init source).2.file.closed = true
  listDependencies : ∀ parser, (ElfParser.init source).1 = .ok parser →
    KeepsContract parser.listDependencies
  listGlobalSymbols : ∀ parser, (ElfParser.init source).1 = .ok parser →
    ∀ includeWeak symtabName strtabName,
      KeepsContract (parser.listGlobalSymbols includeWeak symtabName strtabName)
  listGlobalDynamicSymbols : ∀ parser, (ElfParser.init source).1 = .ok parser →
    ∀ includeWeak, KeepsContract (parser.listGlobalDynamicSymbols includeWeak)
  getProgramInterpreter : ∀ parser, (ElfParser.init source).1 = .ok parser →
    KeepsContract parser.getProgramInterpreter
  hasAndroidIdent : ∀ parser, (ElfParser.init source).1 = .ok parser →
    KeepsContract parser.hasAndroidIdent
  getRelocations : ∀ parser, (ElfParser.init source).1 = .ok parser →
    ∀ rel ∈ parser.shdr, KeepsContract (parser.getRelocations rel)

/-- What a parsed file must be like for the methods to keep the contract. -/
structure ElfParser.Usable (parser : ElfParser) : Prop where
  /-- There is a table of section names, in which the first name can be reached. -/
  names : parser.NamesUsable parser.shdr
  /-- The dynamic sections that are loaded can be counted and have reachable names. -/
  dependencies : InOrder parser.DependenciesPassed
    (fun sh => sh.shType = shtDynamic → parser.DynamicUsable sh) parser.shdr
  /-- Symbol tables can be counted, and their first selected name can be reached. -/
  symbols : ∀ includeWeak symtabName strtabName symtab strtab,
    parser.getSectionByName symtabName = .ok (some symtab) →
    parser.getSectionByName strtabName = .ok (some strtab) → symtab.shSize ≠ 0 →
    parser.SymbolsUsable includeWeak symtab strtab
  /-- The path of the interpreter can be reached. -/
  interpreter : InOrder parser.PhdrPassed parser.PhdrUsable (List.range' 0 parser.ehdr.ePhnum)
  /-- Relocation sections can be counted, and packed ones claim no group that cannot. -/
  relocations : ∀ rel ∈ parser.shdr, parser.RelocationsUsable rel

/-- The parser keeps its contract exactly on the files whose identification is not cut
and whose sections, once parsed, are usable. -/
theorem contractKept_iff (source : Source) (inside : source.beginOffset ≤ source.fileSize) :
    ContractKept source ↔
      ¬source.CutIdent ∧
        ∀ parser, (ElfParser.init source).1 = .ok parser → parser.Usable := by
  have opened := init_keepsContract_iff inside
  constructor
  · intro kept
    refine ⟨opened.mp ⟨kept.constructor, kept.closed⟩, fun parser returned => ?_⟩
    obtain ⟨rfl, small, few⟩ := constructed_of_init returned
    have symbols (includeWeak : Bool) (symtabName strtabName : Text) :=
      (ElfParser.listGlobalSymbols_keepsContract_iff inside small includeWeak symtabName
        strtabName).mp (kept.listGlobalSymbols parser returned includeWeak symtabName strtabName)
    exact
      { names := (symbols false [] []).1
        dependencies := (ElfParser.dependencies_keepsContract_iff inside _).mp
          (kept.listDependencies parser returned)
        symbols := fun includeWeak symtabName strtabName =>
          (symbols includeWeak symtabName strtabName).2
        interpreter := (ElfParser.getProgramInterpreter_keepsContract_iff inside few).mp
          (kept.getProgramInterpreter parser returned)
        relocations := fun rel listed => (ElfParser.getRelocations_keepsContract_iff inside rel).mp
          (kept.getRelocations parser returned rel listed) }
  · rintro ⟨whole, usable⟩
    obtain ⟨constructor, closed⟩ := opened.mpr whole
    have symbols (parser : ElfParser) (returned : (ElfParser.init source).1 = .ok parser)
        (includeWeak : Bool) (symtabName strtabName : Text) :
        KeepsContract (parser.listGlobalSymbols includeWeak symtabName strtabName) := by
      have condition := usable parser returned
      obtain ⟨rfl, small, _⟩ := constructed_of_init returned
      exact (ElfParser.listGlobalSymbols_keepsContract_iff inside small _ _ _).mpr
        ⟨condition.names, condition.symbols includeWeak symtabName strtabName⟩
    refine ⟨constructor, closed, ?_, symbols, ?_, ?_, ?_, ?_⟩
    · intro parser returned
      have condition := usable parser returned
      obtain ⟨rfl, _, _⟩ := constructed_of_init returned
      exact (ElfParser.dependencies_keepsContract_iff inside _).mpr condition.dependencies
    · intro parser returned includeWeak
      exact symbols parser returned includeWeak dynsymName dynstrName
    · intro parser returned
      have condition := usable parser returned
      obtain ⟨rfl, _, few⟩ := constructed_of_init returned
      exact (ElfParser.getProgramInterpreter_keepsContract_iff inside few).mpr
        condition.interpreter
    · intro parser returned
      have condition := usable parser returned
      obtain ⟨rfl, small, _⟩ := constructed_of_init returned
      exact (ElfParser.androidIdentIn_keepsContract_iff inside small).mpr condition.names
    · intro parser returned rel listed
      have condition := usable parser returned
      obtain ⟨rfl, _, _⟩ := constructed_of_init returned
      exact (ElfParser.getRelocations_keepsContract_iff inside rel).mpr
        (condition.relocations rel listed)

/-- A file that is nothing but a 32-bit ELF header without sections and segments. -/
def headerOnly : Source where
  file := .ideal ([0x7f, 69, 76, 70, 1, 1] ++ List.replicate 46 0) (by decide)
  beginOffset := 0

/-- The contract is kept on it. -/
theorem headerOnly_contractKept :
    headerOnly.beginOffset ≤ headerOnly.fileSize ∧ ContractKept headerOnly := by
  have inside : headerOnly.beginOffset ≤ headerOnly.fileSize := by decide
  refine ⟨inside, (contractKept_iff headerOnly inside).mpr ⟨?_, ?_⟩⟩
  · rintro ⟨_, _, four | ⟨five, _⟩⟩
    · exact absurd four (by decide)
    · exact absurd five (by decide)
  · intro parser returned
    have constructed : (ElfParser.init headerOnly).1 =
        .ok { sectionParser .elfClass32 headerOnly.file.content (by decide) with
          source := headerOnly } := rfl
    rw [constructed] at returned
    cases returned
    refine ⟨by simp [ElfParser.NamesUsable, sectionParser], inOrder_nil _ _, ?_,
      inOrder_nil _ _, by simp [sectionParser]⟩
    intro includeWeak symtabName strtabName symtab strtab found
    cases found

/-- An ELF object of four bytes at the end of a larger file. -/
def cutObject : Source where
  file := .ideal (List.replicate 12 0 ++ elfMagicNumber) (by decide)
  beginOffset := 12

/-- Its class byte is asked for, and an `IndexError` escapes. -/
theorem cutObject_not_contractKept :
    cutObject.beginOffset ≤ cutObject.fileSize ∧ ¬ContractKept cutObject := by
  refine ⟨by decide, fun kept => ?_⟩
  have escapes : (ElfParser.init cutObject).1 = .error .indexError := rfl
  obtain ⟨message, shown, equal⟩ := kept.constructor .indexError escapes
  cases equal

end Vts.Elf
