import Mathlib.Data.List.Find
import Vts.Corpus.Manager
import Vts.Lib.Runs

/-!
# Sessions of a fuzz test

A run uploads the corpus of one test and classifies it with `_ClassifyPriority3`. The number of the
run in its session is not stored: it is taken from the numbered directories that exist. Proved
here, for one host, any number of runs and files with base names of their own: after every run
each file lies in the directory that the number of its run and the number of runs so far call for.
So no file is lost, and a session that is over leaves nothing but completed files.
-/

namespace Vts.Corpus

open Vts.Lib List

/-- The directories that files are moved to. -/
def sessionDirs : List DirType :=
  [.corpus_seed, .corpus_seed_numbered 1, .corpus_seed_numbered 2, .corpus_seed_numbered 3,
    .corpus_seed_numbered 4, .corpus_complete]

theorem text_injective :
    ∀ first ∈ sessionDirs, ∀ second ∈ sessionDirs, first.text = second.text → first = second := by
  decide

variable {dir : DirType} {index : Nat}

theorem stored_of_mem (listed : dir ∈ sessionDirs) : dir.stored = true := by
  have all : ∀ dir ∈ sessionDirs, dir.stored = true := by decide
  exact all dir listed

/-- A part up to a slash begins only what has the same part up to its first slash. -/
theorem slash_prefix_iff {first second rest : Name} (plain : '/' ∉ first) (plainToo : '/' ∉ second) :
    first ++ ['/'] <+: second ++ '/' :: rest ↔ first = second := by
  have parts := @prefix_split_first_iff _ _ _ _ [] rest plain plainToo
  exact parts.trans (and_iff_left nil_prefix)

/-- A file of the corpus: the type of its directory, its name in there, and what is in it. -/
structure Entry (Content : Type) where
  dir : DirType
  name : Name
  content : Content

section

variable {Content : Type} (manager : CorpusManager) (test_name : TestName) (local_temp_dir : Name)

/-- The name in the bucket. -/
def Entry.path (entry : Entry Content) : Name :=
  manager.GetDirPaths entry.dir test_name local_temp_dir ++ '/' :: entry.name

/-- The file in the bucket. -/
def Entry.file (entry : Entry Content) : Name × Content :=
  (entry.path manager test_name local_temp_dir, entry.content)

/-- A name under the directories of a session. -/
def Relevant (name : Name) : Prop :=
  manager.area test_name ++ (test_name.name ++ "_corpus_seed".toList) <+: name ∨
    manager.area test_name ++ (test_name.name ++ "_corpus_complete/".toList) <+: name ∨
    manager.area test_name ++ "incoming/".toList <+: name

/-- The files of the bucket under the directories of a session are those of the entries. -/
structure Shows (bucket : Bucket Content) (entries : List (Entry Content)) : Prop where
  there : ∀ entry ∈ entries, entry.file manager test_name local_temp_dir ∈ bucket.files
  only : ∀ file ∈ bucket.files, Relevant manager test_name file.1 →
    ∃ entry ∈ entries, file = entry.file manager test_name local_temp_dir

end

/-- Entries that wait to be classified, or are in a directory of a session under a base name. -/
def Entry.Tidy {Content : Type} (entry : Entry Content) : Prop :=
  entry.dir = .incoming_child ∨ entry.dir ∈ sessionDirs ∧ '/' ∉ entry.name

/-- The base name of an entry. -/
def Entry.base {Content : Type} (entry : Entry Content) : Name := basename entry.name

/-- Tidy entries with base names of their own. -/
structure Orderly {Content : Type} (entries : List (Entry Content)) : Prop where
  tidy : ∀ entry ∈ entries, entry.Tidy
  bases : (entries.map Entry.base).Nodup

section

variable {Content : Type} {manager : CorpusManager} {test_name : TestName} {local_temp_dir : Name}

theorem dirText_plain (test_name : TestName) (dir : DirType) :
    '/' ∉ test_name.name ++ '_' :: dir.text := by
  rw [mem_append, mem_cons, not_or, not_or]
  exact ⟨test_name.plain, by decide, dir.text_plain⟩

theorem dirText_long (test_name : TestName) (listed : dir ∈ sessionDirs) :
    10 ≤ (test_name.name ++ '_' :: dir.text).length := by
  have all : ∀ dir ∈ sessionDirs, 10 ≤ ('_' :: dir.text).length := by decide
  rw [length_append]
  exact Nat.le_trans (all dir listed) (Nat.le_add_left _ _)

theorem path_of_session {entry : Entry Content} (session : entry.dir ∈ sessionDirs) :
    entry.path manager test_name local_temp_dir =
      manager.area test_name ++ ((test_name.name ++ '_' :: entry.dir.text) ++ '/' :: entry.name) := by
  rw [Entry.path, CorpusManager.getDirPaths_eq (stored_of_mem session), append_assoc]

theorem path_of_incoming {entry : Entry Content} (incoming : entry.dir = .incoming_child) :
    ∃ rest, entry.path manager test_name local_temp_dir =
      manager.area test_name ++ ("incoming/".toList ++ rest) := by
  obtain ⟨rest, shape⟩ := @CorpusManager.incoming_child_eq manager test_name local_temp_dir
  refine ⟨rest ++ '/' :: entry.name, ?_⟩
  rw [Entry.path, incoming, shape, append_assoc, append_assoc]

theorem dir_prefix_iff {entry : Entry Content} (tidy : entry.Tidy) {dir : DirType}
    (listed : dir ∈ sessionDirs) :
    manager.GetDirPaths dir test_name local_temp_dir ++ ['/'] <+:
      entry.path manager test_name local_temp_dir ↔ entry.dir = dir := by
  have stored := stored_of_mem listed
  rw [CorpusManager.getDirPaths_eq stored, append_assoc]
  rcases tidy with incoming | ⟨session, -⟩
  · obtain ⟨rest, shape⟩ := @path_of_incoming _ manager test_name local_temp_dir _ incoming
    rw [shape, prefix_append_right_inj]
    constructor
    · intro under
      have text := (slash_prefix_iff (dirText_plain test_name dir)
        (show '/' ∉ "incoming".toList by decide)).mp under
      have long := dirText_long test_name listed
      rw [text] at long
      exact absurd long (by decide)
    · intro same
      rw [← same, incoming] at stored
      cases stored
  · rw [path_of_session session, prefix_append_right_inj,
      slash_prefix_iff (dirText_plain test_name dir) (dirText_plain test_name entry.dir),
      append_cancel_left_eq, List.cons.injEq]
    constructor
    · exact fun same => (text_injective dir listed entry.dir session same.2).symm
    · rintro rfl
      exact ⟨rfl, rfl⟩

/-- Which entries the directory for incoming files has. -/
theorem incoming_prefix_iff {entry : Entry Content} (tidy : entry.Tidy) :
    manager.GetDirPaths .incoming_child test_name local_temp_dir ++ ['/'] <+:
      entry.path manager test_name local_temp_dir ↔ entry.dir = .incoming_child := by
  constructor
  · intro under
    refine tidy.resolve_right fun session => ?_
    obtain ⟨rest, shape⟩ := @CorpusManager.incoming_child_eq manager test_name local_temp_dir
    rw [path_of_session session.1, shape, append_assoc, prefix_append_right_inj,
      append_assoc] at under
    exact not_incoming (dirText_plain test_name entry.dir)
      (Nat.le_of_succ_le (dirText_long test_name session.1)) _
      ((prefix_append _ _).trans under)
  · intro incoming
    rw [Entry.path, incoming]
    refine ⟨entry.name, ?_⟩
    rw [append_assoc]
    rfl

/-- Which entries the directories have that begin as the one for seeds. -/
theorem seed_prefix_iff {entry : Entry Content} (tidy : entry.Tidy) :
    manager.GetDirPaths .corpus_seed test_name local_temp_dir <+:
      entry.path manager test_name local_temp_dir ↔
        entry.dir ≠ .incoming_child ∧ entry.dir ≠ .corpus_complete := by
  have seed : DirType.corpus_seed ∈ sessionDirs := by decide
  rw [CorpusManager.getDirPaths_eq (stored_of_mem seed)]
  rcases tidy with incoming | ⟨session, -⟩
  · obtain ⟨rest, shape⟩ := @path_of_incoming _ manager test_name local_temp_dir _ incoming
    rw [shape, prefix_append_right_inj]
    refine ⟨fun under => ?_, fun others => absurd incoming others.1⟩
    have shorter : "incoming/".toList <+: test_name.name ++ '_' :: DirType.corpus_seed.text :=
      prefix_of_prefix_length_le (prefix_append _ _) under
        (Nat.le_of_succ_le (dirText_long test_name seed))
    exact absurd (shorter.subset (by decide)) (dirText_plain test_name .corpus_seed)
  · have begins : ∀ dir ∈ sessionDirs, DirType.corpus_seed.text <+: dir.text ↔
        dir ≠ .incoming_child ∧ dir ≠ .corpus_complete := by
      decide
    have longer : ∀ dir ∈ sessionDirs, DirType.corpus_seed.text.length ≤ dir.text.length := by
      decide
    rw [path_of_session session, prefix_append_right_inj, append_assoc,
      prefix_append_right_inj, cons_append, cons_prefix_cons, ← begins _ session]
    constructor
    · exact fun under => prefix_of_prefix_length_le under.2 (prefix_append _ _)
        (longer _ session)
    · exact fun under => ⟨rfl, under.trans (prefix_append _ _)⟩

/-- Every entry lies under the directories of a session. -/
theorem Entry.Tidy.relevant {entry : Entry Content} (tidy : entry.Tidy) :
    Relevant manager test_name (entry.path manager test_name local_temp_dir) := by
  by_cases incoming : entry.dir = .incoming_child
  · obtain ⟨rest, shape⟩ := @path_of_incoming _ manager test_name local_temp_dir _ incoming
    refine .inr (.inr ?_)
    rw [shape, ← append_assoc]
    exact prefix_append _ _
  · by_cases complete : entry.dir = .corpus_complete
    · refine .inr (.inl ⟨entry.name, ?_⟩)
      rw [path_of_session (by rw [complete]; decide), complete, append_assoc,
        append_assoc, append_assoc]
      rfl
    · have under := (@seed_prefix_iff _ manager test_name local_temp_dir _ tidy).mpr
        ⟨incoming, complete⟩
      rw [CorpusManager.getDirPaths_eq rfl] at under
      exact .inl under

theorem basename_path (entry : Entry Content) :
    basename (entry.path manager test_name local_temp_dir) = entry.base :=
  basename_append _ _

theorem base_moved (dest : DirType) (entry : Entry Content) :
    Entry.base (⟨dest, entry.base, entry.content⟩ : Entry Content) = entry.base :=
  basename_eq_self (not_mem_basename _)

/-- An entry after the directories of some types were moved to another one. -/
def Entry.relocate (moved : DirType → Bool) (dest : DirType) (entry : Entry Content) :
    Entry Content :=
  if moved entry.dir then ⟨dest, entry.base, entry.content⟩ else entry

section

variable {dest : DirType} {first second : Entry Content}

@[simp] theorem base_relocate (moved : DirType → Bool) (dest : DirType) (entry : Entry Content) :
    (entry.relocate moved dest).base = entry.base := by
  rw [Entry.relocate]
  split
  · exact base_moved dest entry
  · rfl

theorem Entry.Tidy.relocate {entry : Entry Content} (tidy : entry.Tidy) {moved : DirType → Bool}
    {dest : DirType} (listed : dest ∈ sessionDirs) : (entry.relocate moved dest).Tidy := by
  rw [Entry.relocate]
  split
  · exact .inr ⟨listed, not_mem_basename _⟩
  · exact tidy

theorem Orderly.relocate {entries : List (Entry Content)} (orderly : Orderly entries)
    (moved : DirType → Bool) {dest : DirType} (listed : dest ∈ sessionDirs) :
    Orderly (entries.map (Entry.relocate moved dest)) where
  tidy entry member := by
    obtain ⟨old, oldMember, rfl⟩ := mem_map.mp member
    exact (orderly.tidy old oldMember).relocate listed
  bases := by
    have same : (entries.map (Entry.relocate moved dest)).map Entry.base =
        entries.map Entry.base := by
      rw [map_map]
      exact map_congr_left fun entry _ => base_relocate moved dest entry
    rw [same]
    exact orderly.bases

/-- Where a file goes to is where the entry goes to. -/
theorem getFilePaths_path (listed : dest ∈ sessionDirs) (entry : Entry Content) :
    manager.GetFilePaths dest test_name (entry.path manager test_name local_temp_dir) =
      Entry.path manager test_name local_temp_dir ⟨dest, entry.base, entry.content⟩ := by
  have seeds : ∀ dir ∈ sessionDirs, dir ≠ .corpus_lock ∧ dir ≠ .corpus_measure := by decide
  rw [CorpusManager.getFilePaths_eq (stored_of_mem listed) (seeds dest listed), basename_path,
    Entry.path, CorpusManager.getDirPaths_eq (stored_of_mem listed),
    CorpusManager.getDirPaths_eq (stored_of_mem listed)]

/-- The name of an entry in a directory of a session tells the directory. -/
theorem dir_eq_of_path_eq (tidy : first.Tidy) (tidyToo : second.Tidy)
    (session : second.dir ∈ sessionDirs) (same : first.path manager test_name local_temp_dir =
      second.path manager test_name local_temp_dir) : first.dir = second.dir := by
  have own := (@dir_prefix_iff _ manager test_name local_temp_dir _ tidyToo _ session).mpr rfl
  rw [← same] at own
  exact (dir_prefix_iff tidy session).mp own

theorem base_eq_of_path_eq (same : first.path manager test_name local_temp_dir =
      second.path manager test_name local_temp_dir) : first.base = second.base :=
  (basename_path first).symm.trans ((congrArg basename same).trans (basename_path second))

/-- Moving the directories of some types to another one. -/
theorem Shows.move {bucket : Bucket Content} {entries : List (Entry Content)}
    (shows : Shows manager test_name local_temp_dir bucket entries) (orderly : Orderly entries)
    {begin : Name} {list : List Name} (different : list.Nodup)
    (listing : ∀ name, name ∈ list ↔ name ∈ bucket.names ∧ begin <+: name)
    (relevant : ∀ name, begin <+: name → Relevant manager test_name name) {moved : DirType → Bool}
    (which : ∀ entry ∈ entries, begin <+: entry.path manager test_name local_temp_dir ↔
      moved entry.dir = true) (listed : dest ∈ sessionDirs) (stays : moved dest = false) :
    Shows manager test_name local_temp_dir
      (list.foldl (fun bucket src =>
        (bucket.MoveFile src (manager.GetFilePaths dest test_name src)).2) bucket)
      (entries.map (Entry.relocate moved dest)) := by
  -- a name in the list is that of one entry
  have source : ∀ src ∈ list, ∃ entry ∈ entries,
      src = entry.path manager test_name local_temp_dir ∧ moved entry.dir = true := by
    intro src inside
    obtain ⟨there, under⟩ := (listing src).mp inside
    obtain ⟨file, stored, rfl⟩ := mem_map.mp there
    obtain ⟨entry, member, same⟩ := shows.only file stored (relevant _ under)
    rw [same] at under ⊢
    exact ⟨entry, member, rfl, (which entry member).mp under⟩
  have unique : ∀ first ∈ entries, ∀ second ∈ entries, first.base = second.base →
      first = second := fun first here second there same =>
    inj_on_of_nodup_map orderly.bases here there same
  have free : ∀ src ∈ list, manager.GetFilePaths dest test_name src ∉ bucket.names := by
    intro src inside taken
    obtain ⟨entry, member, rfl, leaves⟩ := source src inside
    rw [getFilePaths_path listed] at taken
    obtain ⟨file, stored, named⟩ := mem_map.mp taken
    have target : Entry.Tidy (⟨dest, entry.base, entry.content⟩ : Entry Content) :=
      .inr ⟨listed, not_mem_basename _⟩
    obtain ⟨other, there, same⟩ := shows.only file stored (named ▸ target.relevant)
    have path : other.path manager test_name local_temp_dir =
        Entry.path manager test_name local_temp_dir ⟨dest, entry.base, entry.content⟩ := by
      rw [← named, same]
      rfl
    have arrived : other.dir = dest := dir_eq_of_path_eq (orderly.tidy other there) target listed path
    have sameBase : other.base = entry.base :=
      (base_eq_of_path_eq path).trans (base_moved dest entry)
    rw [unique other there entry member sameBase] at arrived
    rw [arrived, stays] at leaves
    cases leaves
  have apart : ∀ first ∈ list, ∀ second ∈ list, manager.GetFilePaths dest test_name first =
      manager.GetFilePaths dest test_name second → first = second := by
    intro first here second there same
    obtain ⟨entry, member, rfl, -⟩ := source first here
    obtain ⟨other, memberToo, rfl, -⟩ := source second there
    rw [getFilePaths_path listed, getFilePaths_path listed] at same
    have bases : entry.base = other.base :=
      (base_moved dest entry).symm.trans ((base_eq_of_path_eq same).trans (base_moved dest other))
    rw [unique entry member other memberToo bases]
  have outside : ∀ first ∈ list, ∀ second ∈ list,
      second ≠ manager.GetFilePaths dest test_name first := fun first here second there same =>
    free first here (same ▸ ((listing second).mp there).1)
  refine ⟨fun entry member => ?_, fun file stored under => ?_⟩
  · obtain ⟨old, oldMember, rfl⟩ := mem_map.mp member
    have before := shows.there old oldMember
    rw [Bucket.mem_files_moveAll different apart outside free, Entry.relocate]
    split
    · rename_i leaves
      refine .inr ⟨old.path manager test_name local_temp_dir, (listing _).mpr
        ⟨mem_map_of_mem before, (which old oldMember).mpr leaves⟩, before, ?_⟩
      exact (getFilePaths_path listed old).symm
    · rename_i keeps
      refine .inl ⟨before, fun inside => keeps ?_⟩
      exact (which old oldMember).mp ((listing _).mp inside).2
  · rw [Bucket.mem_files_moveAll different apart outside free] at stored
    rcases stored with ⟨before, notListed⟩ | ⟨src, inside, before, named⟩
    · obtain ⟨entry, member, rfl⟩ := shows.only file before under
      refine ⟨entry.relocate moved dest, mem_map_of_mem member, ?_⟩
      rw [Entry.relocate, if_neg]
      intro leaves
      exact notListed ((listing _).mpr
        ⟨mem_map_of_mem before, (which entry member).mpr leaves⟩)
    · obtain ⟨entry, member, rfl, leaves⟩ := source src inside
      obtain ⟨found, foundMember, same⟩ := shows.only _ before
        (orderly.tidy entry member).relevant
      obtain rfl : found = entry := unique found foundMember entry member
        (base_eq_of_path_eq (Prod.mk.inj same).1).symm
      refine ⟨found.relocate moved dest, mem_map_of_mem member, ?_⟩
      rw [Entry.relocate, if_pos leaves]
      refine Prod.ext ?_ (Prod.mk.inj same).2
      exact named.trans (getFilePaths_path listed found)

end

theorem relevant_of_seed {name : Name}
    (under : manager.GetDirPaths .corpus_seed test_name local_temp_dir <+: name) :
    Relevant manager test_name name := by
  rw [CorpusManager.getDirPaths_eq rfl] at under
  exact .inl under

theorem relevant_of_incoming {name : Name}
    (under : manager.GetDirPaths .incoming_child test_name local_temp_dir <+: name) :
    Relevant manager test_name name := by
  obtain ⟨rest, shape⟩ := @CorpusManager.incoming_child_eq manager test_name local_temp_dir
  rw [shape, ← append_assoc] at under
  exact .inr (.inr ((prefix_append _ _).trans under))

section

variable {bucket : Bucket Content} {entries : List (Entry Content)}
  (shows : Shows manager test_name local_temp_dir bucket entries)
  (orderly : Orderly entries) {dest : DirType} (listed : dest ∈ sessionDirs)

include shows orderly listed

/-- Moving the seeds of the last run. -/
theorem Shows.move_seed (other : dest ≠ .corpus_seed) :
    Shows manager test_name local_temp_dir
      (manager.MoveCorpusDirectory bucket test_name local_temp_dir .corpus_seed dest true).2
      (entries.map (Entry.relocate (fun dir => dir = .corpus_seed) dest)) := by
  have seed : DirType.corpus_seed ∈ sessionDirs := by decide
  refine shows.move orderly (bucket.distinct.filter _)
    (fun name => Bucket.mem_list_strict (CorpusManager.getDirPaths_open rfl).2)
    (fun name under => relevant_of_seed ((prefix_append _ _).trans under))
    (fun entry member => ?_) listed (decide_eq_false other)
  rw [dir_prefix_iff (orderly.tidy entry member) seed, decide_eq_true_eq]

/-- Moving all seeds of the session. -/
theorem Shows.move_seeds (stays : dest = .corpus_complete) :
    Shows manager test_name local_temp_dir
      (manager.MoveCorpusDirectory bucket test_name local_temp_dir .corpus_seed dest false).2
      (entries.map (Entry.relocate
        (fun dir => decide (dir ≠ .incoming_child ∧ dir ≠ .corpus_complete)) dest)) := by
  refine shows.move orderly (bucket.distinct.filter _) (fun name => Bucket.mem_list_loose)
    (fun name under => relevant_of_seed under) (fun entry member => ?_) listed ?_
  · rw [seed_prefix_iff (orderly.tidy entry member), decide_eq_true_eq]
  · rw [stays]
    rfl

/-- Moving the files of the new run. -/
theorem Shows.move_incoming (other : dest ≠ .incoming_child) :
    Shows manager test_name local_temp_dir
      (manager.MoveCorpusDirectory bucket test_name local_temp_dir .incoming_child dest true).2
      (entries.map (Entry.relocate (fun dir => dir = .incoming_child) dest)) := by
  refine shows.move orderly (bucket.distinct.filter _)
    (fun name => Bucket.mem_list_strict (CorpusManager.incoming_child_open local_temp_dir))
    (fun name under => relevant_of_incoming ((prefix_append _ _).trans under))
    (fun entry member => ?_) listed (decide_eq_false other)
  rw [incoming_prefix_iff (orderly.tidy entry member), decide_eq_true_eq]

end

/-- Where the two moves of `_ClassifyPriority3` bring an entry. -/
def Entry.classified (i : Nat) (entry : Entry Content) : Entry Content :=
  if i < CorpusManager.REPEAT_TIMES - 1 then
    (entry.relocate (fun dir => dir = .corpus_seed) (.corpus_seed_numbered i)).relocate
      (fun dir => dir = .incoming_child) .corpus_seed
  else
    (entry.relocate (fun dir => decide (dir ≠ .incoming_child ∧ dir ≠ .corpus_complete))
      .corpus_complete).relocate (fun dir => dir = .incoming_child) .corpus_complete

section

variable {bucket : Bucket Content} {entries : List (Entry Content)}

/-- The report of a crash lies under no directory of a session. -/
theorem not_relevant_trigger (seed uuid : Name) :
    ¬ Relevant manager test_name (manager.GetFilePaths .corpus_trigger test_name seed ++ uuid) := by
  have stored : DirType.stored .corpus_trigger = true := rfl
  have path : manager.GetFilePaths .corpus_trigger test_name seed ++ uuid =
      manager.area test_name ++ ((test_name.name ++ '_' :: DirType.corpus_trigger.text) ++
        ('/' :: (basename seed ++ uuid))) := by
    rw [CorpusManager.getFilePaths_eq stored (by decide), CorpusManager.getDirPaths_eq stored,
      append_assoc, append_assoc, cons_append]
  rw [path]
  rintro (seeds | complete | incoming)
  · rw [prefix_append_right_inj, append_assoc, prefix_append_right_inj] at seeds
    exact @not_prefix_of_take _ _ 9 (by decide) (by decide) (by decide) _ seeds
  · rw [prefix_append_right_inj, append_assoc, prefix_append_right_inj] at complete
    exact @not_prefix_of_take _ _ 9 (by decide) (by decide) (by decide) _ complete
  · rw [prefix_append_right_inj] at incoming
    refine not_incoming (dirText_plain test_name _) ?_ _ incoming
    rw [length_append]
    exact Nat.le_trans (by decide) (Nat.le_add_left _ _)

theorem Shows.trigger (shows : Shows manager test_name local_temp_dir bucket entries)
    (orderly : Orderly entries) (crash_report : Option (Name × Content)) :
    Shows manager test_name local_temp_dir
      (manager.UploadTriggeredCorpus bucket test_name local_temp_dir crash_report) entries := by
  cases crash_report with
  | none => exact shows
  | some report =>
    refine ⟨fun entry member => ?_, fun file stored under => ?_⟩
    · refine Bucket.mem_files_upload.mpr (.inl ⟨shows.there entry member, fun same => ?_⟩)
      have under : Relevant manager test_name
          (entry.file manager test_name local_temp_dir).1 := (orderly.tidy entry member).relevant
      exact not_relevant_trigger _ _ (same ▸ under)
    · rcases Bucket.mem_files_upload.mp stored with ⟨old, -⟩ | rfl
      · exact shows.only file old under
      · exact absurd under (not_relevant_trigger _ _)

theorem Shows.prefixExists_iff {bucket : Bucket Content} {entries : List (Entry Content)}
    (shows : Shows manager test_name local_temp_dir bucket entries)
    (orderly : Orderly entries) {i : Nat}
    (listed : DirType.corpus_seed_numbered i ∈ sessionDirs) :
    bucket.PrefixExists (manager.GetDirPaths .corpus_seed test_name [] ++ '_' :: twoDigits i) = true ↔
      ∃ entry ∈ entries, entry.dir = .corpus_seed_numbered i := by
  have stored := stored_of_mem listed
  have dir : manager.GetDirPaths .corpus_seed test_name [] ++ '_' :: twoDigits i =
      manager.GetDirPaths (.corpus_seed_numbered i) test_name local_temp_dir := by
    rw [CorpusManager.getDirPaths_eq rfl, CorpusManager.getDirPaths_eq stored, append_assoc,
      append_assoc]
    rfl
  rw [dir, Bucket.prefixExists_iff (CorpusManager.getDirPaths_open stored).2]
  constructor
  · rintro ⟨name, inside, under⟩
    obtain ⟨file, there, rfl⟩ := mem_map.mp inside
    have seeds : manager.GetDirPaths .corpus_seed test_name [] <+: file.1 := by
      rw [← dir, append_assoc] at under
      exact (prefix_append _ _).trans under
    obtain ⟨entry, member, rfl⟩ := shows.only file there (relevant_of_seed seeds)
    exact ⟨entry, member, (dir_prefix_iff (orderly.tidy entry member) listed).mp under⟩
  · rintro ⟨entry, member, inDir⟩
    exact ⟨_, mem_map_of_mem (shows.there entry member),
      (dir_prefix_iff (orderly.tidy entry member) listed).mpr inDir⟩

/-- `_ClassifyPriority3` brings every entry where the number that it finds calls for. -/
theorem Shows.classify (shows : Shows manager test_name local_temp_dir bucket entries)
    (orderly : Orderly entries)
    (listed : DirType.corpus_seed_numbered (manager.lastIndex bucket test_name) ∈ sessionDirs)
    (crash_report : Option (Name × Content)) :
    Shows manager test_name local_temp_dir
      (manager.ClassifyPriority3 bucket test_name local_temp_dir crash_report).2
      (entries.map (Entry.classified (manager.lastIndex bucket test_name))) := by
  have seed : DirType.corpus_seed ∈ sessionDirs := by decide
  have complete : DirType.corpus_complete ∈ sessionDirs := by decide
  rw [CorpusManager.ClassifyPriority3]
  by_cases early : manager.lastIndex bucket test_name < CorpusManager.REPEAT_TIMES - 1
  · have rule : (Entry.classified (manager.lastIndex bucket test_name) :
        Entry Content → Entry Content) =
        Entry.relocate (fun dir => dir = .incoming_child) .corpus_seed ∘
          Entry.relocate (fun dir => dir = .corpus_seed)
            (.corpus_seed_numbered (manager.lastIndex bucket test_name)) :=
      funext fun entry => if_pos early
    have first := orderly.relocate (fun dir => dir = .corpus_seed) listed
    have second := first.relocate (fun dir => dir = .incoming_child) seed
    have moved := (shows.move_seed orderly listed nofun).move_incoming first seed nofun
    rw [if_pos early, rule, ← map_map]
    exact moved.trigger second crash_report
  · have rule : (Entry.classified (manager.lastIndex bucket test_name) :
        Entry Content → Entry Content) =
        Entry.relocate (fun dir => dir = .incoming_child) .corpus_complete ∘
          Entry.relocate (fun dir => decide (dir ≠ .incoming_child ∧ dir ≠ .corpus_complete))
            .corpus_complete :=
      funext fun entry => if_neg early
    have first := orderly.relocate
      (fun dir => decide (dir ≠ .incoming_child ∧ dir ≠ .corpus_complete)) complete
    have second := first.relocate (fun dir => dir = .incoming_child) complete
    have moved := (shows.move_seeds orderly complete rfl).move_incoming first complete nofun
    rw [if_neg early, rule, ← map_map]
    exact moved.trigger second crash_report

end

end

/-- A run of the test: the directory on the host, the files with their paths in the output
directory, and the report if the run led to a crash. -/
structure Run (Content : Type) where
  local_temp_dir : Name
  files : List (Name × Content)
  crash_report : Option (Name × Content)

section

variable {Content : Type} (manager : CorpusManager) (test_name : TestName)

/-- The bucket after a run. -/
def afterRun (bucket : Bucket Content) (run : Run Content) : Bucket Content :=
  (manager.ClassifyPriority3 (manager.uploadCorpus bucket test_name run.local_temp_dir run.files)
    test_name run.local_temp_dir run.crash_report).2

end

/-- The entries of a run before they are classified. -/
def Run.incoming {Content : Type} (run : Run Content) : List (Entry Content) :=
  run.files.map fun file => ⟨.incoming_child, file.1, file.2⟩

section

variable {Content : Type} {manager : CorpusManager} {test_name : TestName}

section

variable {bucket : Bucket Content} {entries : List (Entry Content)}

/-- The directory on the host does not matter for classified entries. -/
theorem path_eq_of_session {entry : Entry Content} (session : entry.dir ∈ sessionDirs)
    (first second : Name) :
    entry.path manager test_name first = entry.path manager test_name second := by
  rw [path_of_session session, path_of_session session]

theorem Shows.rebase {first : Name} (shows : Shows manager test_name first bucket entries)
    (session : ∀ entry ∈ entries, entry.dir ∈ sessionDirs) (second : Name) :
    Shows manager test_name second bucket entries := by
  have same : ∀ entry ∈ entries, entry.file manager test_name first =
      entry.file manager test_name second := fun entry member =>
    Prod.ext (path_eq_of_session (session entry member) first second) rfl
  refine ⟨fun entry member => same entry member ▸ shows.there entry member,
    fun file stored under => ?_⟩
  obtain ⟨entry, member, equal⟩ := shows.only file stored under
  exact ⟨entry, member, equal.trans (same entry member)⟩

/-- Uploading the files of a run adds its entries. -/
theorem Shows.upload {run : Run Content}
    (shows : Shows manager test_name run.local_temp_dir bucket entries)
    (session : ∀ entry ∈ entries, entry.dir ∈ sessionDirs)
    (orderly : Orderly (entries ++ run.incoming)) :
    Shows manager test_name run.local_temp_dir
      (manager.uploadCorpus bucket test_name run.local_temp_dir run.files)
      (entries ++ run.incoming) := by
  have uploads : manager.uploadCorpus bucket test_name run.local_temp_dir run.files =
      (run.incoming.map (Entry.file manager test_name run.local_temp_dir)).foldl
        (fun bucket file => bucket.UploadFile file.1 file.2) bucket := by
    rw [Run.incoming, map_map, foldl_map]
    refine foldl_ext _ _ _ fun bucket file _ => ?_
    rw [CorpusManager.upload_name]
    rfl
  have waiting : ∀ entry ∈ run.incoming, entry.dir = .incoming_child := by
    intro entry member
    obtain ⟨file, -, rfl⟩ := mem_map.mp member
    rfl
  have different : ((run.incoming.map (Entry.file manager test_name run.local_temp_dir)).map
      Prod.fst).Nodup := by
    refine List.Nodup.of_map basename ?_
    have bases : ((run.incoming.map (Entry.file manager test_name run.local_temp_dir)).map
        Prod.fst).map basename = run.incoming.map Entry.base := by
      rw [map_map, map_map]
      exact map_congr_left fun entry _ => basename_path entry
    rw [bases]
    have all := orderly.bases
    rw [map_append] at all
    exact all.of_append_right
  have fresh : ∀ file ∈ run.incoming.map (Entry.file manager test_name run.local_temp_dir),
      file.1 ∉ bucket.names := by
    intro file member taken
    obtain ⟨entry, inside, rfl⟩ := mem_map.mp member
    obtain ⟨old, stored, named⟩ := mem_map.mp taken
    have under : Relevant manager test_name old.1 :=
      named ▸ (Entry.Tidy.relevant (.inl (waiting entry inside)))
    obtain ⟨other, there, rfl⟩ := shows.only old stored under
    have arrived : other.dir = .incoming_child := by
      refine (@incoming_prefix_iff _ manager test_name run.local_temp_dir other
        (orderly.tidy other (mem_append_left _ there))).mp ?_
      have paths : other.path manager test_name run.local_temp_dir =
          entry.path manager test_name run.local_temp_dir := named
      rw [paths]
      exact (incoming_prefix_iff (.inl (waiting entry inside))).mpr (waiting entry inside)
    have nowhere : DirType.incoming_child ∉ sessionDirs := by decide
    exact nowhere (arrived ▸ session other there)
  rw [uploads]
  refine ⟨fun entry member => ?_, fun file stored under => ?_⟩
  · rw [Bucket.mem_files_uploadAll different fresh]
    rcases mem_append.mp member with old | new
    · exact .inl (shows.there entry old)
    · exact .inr (mem_map_of_mem new)
  · rw [Bucket.mem_files_uploadAll different fresh] at stored
    rcases stored with old | new
    · obtain ⟨entry, member, equal⟩ := shows.only file old under
      exact ⟨entry, mem_append_left _ member, equal⟩
    · obtain ⟨entry, member, rfl⟩ := mem_map.mp new
      exact ⟨entry, mem_append_right _ member, rfl⟩

end

end

/-- The directory of the files of a run, by its index among all runs so far. -/
def place (total index : Nat) : DirType :=
  if index < total / CorpusManager.REPEAT_TIMES * CorpusManager.REPEAT_TIMES then .corpus_complete
  else if index + 1 = total then .corpus_seed
  else .corpus_seed_numbered (index % CorpusManager.REPEAT_TIMES + 1)

/-- The number that the loop over the numbered directories finds after some runs. -/
def foundIndex (total : Nat) : Nat :=
  if total % CorpusManager.REPEAT_TIMES = 0 then 1 else total % CorpusManager.REPEAT_TIMES

section

variable {total : Nat}

theorem place_mem (inside : index < total) : place total index ∈ sessionDirs := by
  have numbers : ∀ number < 5, 1 ≤ number → DirType.corpus_seed_numbered number ∈ sessionDirs := by
    decide
  rw [place]
  split
  · decide
  · split
    · decide
    · simp only [CorpusManager.REPEAT_TIMES] at *
      exact numbers _ (by omega) (by omega)

theorem place_eq_complete (old : index < total / 5 * 5) : place total index = .corpus_complete :=
  if_pos old

theorem place_eq_seed (new : ¬ index < total / 5 * 5) (last : index + 1 = total) :
    place total index = .corpus_seed :=
  (if_neg new).trans (if_pos last)

theorem place_eq_numbered (new : ¬ index < total / 5 * 5) (earlier : ¬ index + 1 = total) :
    place total index = .corpus_seed_numbered (index % 5 + 1) :=
  (if_neg new).trans (if_neg earlier)

theorem place_eq_numbered_iff {number : Nat} (inside : index < total) :
    place total index = .corpus_seed_numbered number ↔
      total / 5 * 5 + number = index + 1 ∧ 1 ≤ number ∧ number < total % 5 := by
  by_cases old : index < total / 5 * 5
  · rw [place_eq_complete old]
    simp only [reduceCtorEq, false_iff]
    omega
  · by_cases last : index + 1 = total
    · rw [place_eq_seed old last]
      simp only [reduceCtorEq, false_iff]
      omega
    · rw [place_eq_numbered old last, DirType.corpus_seed_numbered.injEq]
      omega

theorem place_eq_seed_iff :
    place total index = .corpus_seed ↔ index + 1 = total ∧ total % 5 ≠ 0 := by
  by_cases old : index < total / 5 * 5
  · rw [place_eq_complete old]
    simp only [reduceCtorEq, false_iff]
    omega
  · by_cases last : index + 1 = total
    · rw [place_eq_seed old last]
      simp only [true_iff]
      omega
    · rw [place_eq_numbered old last]
      simp only [reduceCtorEq, false_iff]
      omega

theorem foundIndex_first (ended : total % 5 = 0) : foundIndex total = 1 := if_pos ended

theorem foundIndex_later (begun : total % 5 ≠ 0) : foundIndex total = total % 5 :=
  if_neg begun

theorem foundIndex_early (more : total % 5 ≠ 4) :
    foundIndex total < CorpusManager.REPEAT_TIMES - 1 := by
  rw [CorpusManager.REPEAT_TIMES]
  by_cases ended : total % 5 = 0
  · rw [foundIndex_first ended]
    omega
  · rw [foundIndex_later ended]
    omega

theorem foundIndex_late (full : total % 5 = 4) :
    ¬ foundIndex total < CorpusManager.REPEAT_TIMES - 1 := by
  rw [CorpusManager.REPEAT_TIMES, foundIndex_later (by omega)]
  omega

end

section

variable {Content : Type} {total : Nat}

theorem relocate_of_moved {moved : DirType → Bool} {dest : DirType} {base : Name}
    (moves : moved dir = true) (plain : '/' ∉ base) (content : Content) :
    Entry.relocate moved dest ⟨dir, base, content⟩ = ⟨dest, base, content⟩ := by
  rw [Entry.relocate, if_pos moves, Entry.base, basename_eq_self plain]

/-- A classified entry of an earlier run. -/
theorem classified_place (inside : index < total) {base : Name} (plain : '/' ∉ base)
    (content : Content) :
    Entry.classified (foundIndex total) ⟨place total index, base, content⟩ =
      ⟨place (total + 1) index, base, content⟩ := by
  by_cases full : total % 5 = 4
  · rw [Entry.classified, if_neg (foundIndex_late full),
      place_eq_complete (show index < (total + 1) / 5 * 5 by omega)]
    by_cases old : index < total / 5 * 5
    · rw [place_eq_complete old]
      rfl
    · by_cases last : index + 1 = total
      · rw [place_eq_seed old last, relocate_of_moved rfl plain]
        rfl
      · rw [place_eq_numbered old last, relocate_of_moved rfl plain]
        rfl
  · rw [Entry.classified, if_pos (foundIndex_early full)]
    by_cases old : index < total / 5 * 5
    · rw [place_eq_complete old, place_eq_complete (show index < (total + 1) / 5 * 5 by omega)]
      rfl
    · have new : ¬ index < (total + 1) / 5 * 5 := by omega
      have earlier : ¬ index + 1 = total + 1 := by omega
      rw [place_eq_numbered new earlier]
      by_cases last : index + 1 = total
      · have found : foundIndex total = index % 5 + 1 := by
          rw [foundIndex_later (by omega)]
          omega
        rw [place_eq_seed old last, relocate_of_moved rfl plain, found]
        rfl
      · rw [place_eq_numbered old last]
        rfl

/-- A classified entry of the last run. -/
theorem classified_incoming (total : Nat) (path : Name) (content : Content) :
    Entry.classified (foundIndex total) ⟨.incoming_child, path, content⟩ =
      ⟨place (total + 1) total, basename path, content⟩ := by
  by_cases full : total % 5 = 4
  · rw [Entry.classified, if_neg (foundIndex_late full),
      place_eq_complete (show total < (total + 1) / 5 * 5 by omega)]
    rfl
  · rw [Entry.classified, if_pos (foundIndex_early full),
      place_eq_seed (show ¬ total < (total + 1) / 5 * 5 by omega) rfl]
    rfl

end

/-- The entries after some runs. -/
def placed {Content : Type} (total : Nat) (runs : List (Run Content)) : List (Entry Content) :=
  runs.zipIdx.flatMap fun run => run.1.files.map fun file =>
    ⟨place total run.2, basename file.1, file.2⟩

/-- The base names of the files of some runs. -/
def baseNames {Content : Type} (runs : List (Run Content)) : List Name :=
  runs.flatMap fun run => run.files.map fun file => basename file.1

section

variable {Content : Type} {runs : List (Run Content)}

theorem mem_placed {total : Nat} {entry : Entry Content} :
    entry ∈ placed total runs ↔ ∃ (index : Nat) (run : Run Content), runs[index]? = some run ∧
      ∃ file ∈ run.files, entry = ⟨place total index, basename file.1, file.2⟩ := by
  rw [placed, mem_flatMap]
  constructor
  · rintro ⟨⟨run, index⟩, listed, member⟩
    obtain ⟨file, inside, rfl⟩ := mem_map.mp member
    exact ⟨index, run, mk_mem_zipIdx_iff_getElem?.mp listed, file, inside, rfl⟩
  · rintro ⟨index, run, listed, file, inside, rfl⟩
    exact ⟨(run, index), mk_mem_zipIdx_iff_getElem?.mpr listed,
      mem_map.mpr ⟨file, inside, rfl⟩⟩

/-- One more run brings every entry to its new place. -/
theorem placed_snoc (runs : List (Run Content)) (last : Run Content) :
    placed (runs.length + 1) (runs ++ [last]) =
      (placed runs.length runs ++ last.incoming).map (Entry.classified (foundIndex runs.length)) := by
  rw [placed, zipIdx_append, flatMap_append, map_append]
  refine congrArg₂ (· ++ ·) ?_ ?_
  · rw [placed, map_flatMap]
    refine flatMap_congr fun run listed => ?_
    rw [map_map]
    refine map_congr_left fun file _ => ?_
    have inside : run.2 < runs.length := snd_lt_of_mem_zipIdx listed
    exact (classified_place inside (not_mem_basename file.1) file.2).symm
  · rw [Run.incoming, map_map, zipIdx_singleton, flatMap_singleton]
    refine map_congr_left fun file _ => ?_
    rw [Nat.zero_add]
    exact (classified_incoming runs.length file.1 file.2).symm

theorem placed_session {entry : Entry Content} (member : entry ∈ placed runs.length runs) :
    entry.dir ∈ sessionDirs := by
  obtain ⟨index, run, listed, file, -, rfl⟩ := mem_placed.mp member
  exact place_mem (List.getElem?_eq_some_iff.mp listed).1

theorem baseNames_placed (total : Nat) : (placed total runs).map Entry.base = baseNames runs := by
  have same : ∀ run : Run Content × Nat,
      ((run.1.files.map fun file =>
        (⟨place total run.2, basename file.1, file.2⟩ : Entry Content)).map Entry.base) =
        run.1.files.map fun file => basename file.1 := by
    intro run
    rw [map_map]
    exact map_congr_left fun file _ => basename_eq_self (not_mem_basename file.1)
  rw [placed, map_flatMap, flatMap_congr fun run _ => same run, baseNames]
  conv_rhs => rw [← zipIdx_map_fst 0 runs, flatMap_map]

/-- The entries are orderly while the files of the next run wait. -/
theorem Orderly.placed_incoming {last : Run Content} (unique : (baseNames (runs ++ [last])).Nodup) :
    Orderly (placed runs.length runs ++ last.incoming) where
  tidy entry member := by
    rcases mem_append.mp member with old | new
    · obtain ⟨index, run, -, file, -, rfl⟩ := mem_placed.mp old
      exact .inr ⟨placed_session old, not_mem_basename file.1⟩
    · obtain ⟨file, -, rfl⟩ := mem_map.mp new
      exact .inl rfl
  bases := by
    have waiting : last.incoming.map Entry.base = last.files.map fun file => basename file.1 := by
      rw [Run.incoming, map_map]
      rfl
    rw [baseNames, flatMap_append, flatMap_singleton] at unique
    rw [map_append, baseNames_placed, waiting]
    exact unique

theorem exists_numbered_iff (nonempty : ∀ run ∈ runs, run.files ≠ []) (last : Run Content)
    {number : Nat} : (∃ entry ∈ placed runs.length runs ++ last.incoming,
      entry.dir = .corpus_seed_numbered number) ↔ 1 ≤ number ∧ number < runs.length % 5 := by
  constructor
  · rintro ⟨entry, member, inDir⟩
    rcases mem_append.mp member with old | new
    · obtain ⟨index, run, listed, file, -, rfl⟩ := mem_placed.mp old
      exact ((place_eq_numbered_iff (List.getElem?_eq_some_iff.mp listed).1).mp inDir).2
    · obtain ⟨file, -, rfl⟩ := mem_map.mp new
      cases inDir
  · intro between
    have inside : runs.length / 5 * 5 + number - 1 < runs.length := by omega
    obtain ⟨file, listed⟩ := exists_mem_of_ne_nil _ (nonempty _ (getElem_mem inside))
    refine ⟨_, mem_append_left _ (mem_placed.mpr
      ⟨_, _, List.getElem?_eq_getElem inside, file, listed, rfl⟩), ?_⟩
    exact (place_eq_numbered_iff inside).mpr ⟨by omega, between⟩

variable {manager : CorpusManager} {test_name : TestName} {local_temp_dir : Name}

/-- The number of a run in its session is found from the directories that exist. -/
theorem Shows.lastIndex {bucket : Bucket Content} {last : Run Content}
    (shows : Shows manager test_name local_temp_dir bucket
      (placed runs.length runs ++ last.incoming))
    (nonempty : ∀ run ∈ runs, run.files ≠ []) (unique : (baseNames (runs ++ [last])).Nodup) :
    manager.lastIndex bucket test_name = foundIndex runs.length := by
  have exist : ∀ i ∈ [1, 2, 3, 4], (!bucket.PrefixExists
      (manager.GetDirPaths .corpus_seed test_name [] ++ '_' :: twoDigits i)) =
        decide (runs.length % 5 ≤ i) := by
    intro i listed
    have session : ∀ i ∈ [1, 2, 3, 4], DirType.corpus_seed_numbered i ∈ sessionDirs := by decide
    have positive : ∀ i ∈ [1, 2, 3, 4], 1 ≤ i := by decide
    have found := (shows.prefixExists_iff (.placed_incoming unique) (session i listed)).trans
      (exists_numbered_iff nonempty last)
    rw [Bool.eq_iff_iff, Bool.not_eq_true', ← Bool.not_eq_true, found, decide_eq_true_eq, not_and]
    exact ⟨fun none => Nat.le_of_not_lt (none (positive i listed)),
      fun late _ => Nat.not_lt.mpr late⟩
  have search : ∀ rest < 5, ([1, 2, 3, 4].find? fun i => decide (rest ≤ i)).getD 4 =
      if rest = 0 then 1 else rest := by
    decide
  have loop : manager.lastIndex bucket test_name =
      ([1, 2, 3, 4].find? fun i => decide (runs.length % 5 ≤ i)).getD 4 := by
    refine congrArg (Option.getD · 4) ?_
    exact List.find?_congr exist
  exact loop.trans (search _ (Nat.mod_lt _ (by decide)))

theorem foundIndex_mem (total : Nat) :
    DirType.corpus_seed_numbered (foundIndex total) ∈ sessionDirs := by
  have session : ∀ i < 5, 1 ≤ i → DirType.corpus_seed_numbered i ∈ sessionDirs := by decide
  by_cases ended : total % 5 = 0
  · rw [foundIndex_first ended]
    decide
  · rw [foundIndex_later ended]
    exact session _ (Nat.mod_lt _ (by decide)) (Nat.pos_of_ne_zero ended)

/-- A run brings its files in and keeps all others, each at its place. -/
theorem Shows.afterRun {bucket : Bucket Content} {last : Run Content}
    (shows : Shows manager test_name last.local_temp_dir bucket (placed runs.length runs))
    (nonempty : ∀ run ∈ runs, run.files ≠ []) (unique : (baseNames (runs ++ [last])).Nodup) :
    Shows manager test_name last.local_temp_dir (afterRun manager test_name bucket last)
      (placed (runs.length + 1) (runs ++ [last])) := by
  have orderly : Orderly (placed runs.length runs ++ last.incoming) := .placed_incoming unique
  have uploaded := shows.upload (fun _ => placed_session) orderly
  have index := uploaded.lastIndex nonempty unique
  have listed := foundIndex_mem runs.length
  rw [← index] at listed
  rw [placed_snoc, ← index]
  exact uploaded.classify orderly listed last.crash_report

/-- After any number of runs every file is at its place. -/
theorem Shows.after {bucket : Bucket Content}
    (fresh : ∀ name ∈ bucket.names, ¬ Relevant manager test_name name)
    (nonempty : ∀ run ∈ runs, run.files ≠ []) (unique : (baseNames runs).Nodup)
    (local_temp_dir : Name) :
    Shows manager test_name local_temp_dir (run (Corpus.afterRun manager test_name) bucket runs)
      (placed runs.length runs) := by
  induction runs using List.reverseRecOn generalizing local_temp_dir with
  | nil =>
    refine ⟨fun entry member => absurd member not_mem_nil, fun file stored under => ?_⟩
    exact absurd under (fresh file.1 (mem_map_of_mem stored))
  | append_singleton runs last ih =>
    have earlier : ∀ run ∈ runs, run.files ≠ [] := fun run listed =>
      nonempty run (mem_append_left _ listed)
    have apart : (baseNames runs).Nodup := by
      rw [baseNames, flatMap_append] at unique
      exact unique.of_append_left
    have before := ih earlier apart last.local_temp_dir
    have after := before.afterRun earlier unique
    rw [run_append, length_append]
    have session : ∀ entry ∈ placed (runs ++ [last]).length (runs ++ [last]),
        entry.dir ∈ sessionDirs := fun _ => placed_session
    rw [length_append] at session
    exact after.rebase session local_temp_dir

end

section

variable {Content : Type} (manager : CorpusManager) (test_name : TestName)

/-- The files in a directory of the bucket are those of a run, under their base names. -/
def Holds (bucket : Bucket Content) (dir : DirType) (run : Run Content) : Prop :=
  ∀ name content, ((name, content) ∈ bucket.files ∧
      manager.GetDirPaths dir test_name [] ++ ['/'] <+: name) ↔
    ∃ file ∈ run.files,
      name = manager.GetDirPaths dir test_name [] ++ '/' :: basename file.1 ∧ content = file.2

/-- No file is in a directory of the bucket. -/
def Vacant (bucket : Bucket Content) (dir : DirType) : Prop :=
  ∀ name ∈ bucket.names, ¬ manager.GetDirPaths dir test_name [] ++ ['/'] <+: name

/-- A file of a run is in a directory of the bucket, under its base name. -/
def Keeps (bucket : Bucket Content) (dir : DirType) (file : Name × Content) : Prop :=
  (manager.GetDirPaths dir test_name [] ++ '/' :: basename file.1, file.2) ∈ bucket.files

end

section

variable {Content : Type} {manager : CorpusManager} {test_name : TestName} {bucket : Bucket Content}
  {runs : List (Run Content)}

theorem placed_tidy {entry : Entry Content} (member : entry ∈ placed runs.length runs) :
    entry.Tidy := by
  have session := placed_session member
  obtain ⟨index, run, -, file, -, rfl⟩ := mem_placed.mp member
  exact .inr ⟨session, not_mem_basename file.1⟩

/-- The names under a directory of a session are all looked at. -/
theorem relevant_of_dir (session : dir ∈ sessionDirs) {name : Name}
    (under : manager.GetDirPaths dir test_name [] ++ ['/'] <+: name) :
    Relevant manager test_name name := by
  have tidy : Entry.Tidy (⟨dir, [], ()⟩ : Entry Unit) := .inr ⟨session, not_mem_nil⟩
  have begins := @Entry.Tidy.relevant _ manager test_name [] _ tidy
  exact begins.imp (List.IsPrefix.trans · under)
    (Or.imp (List.IsPrefix.trans · under) (List.IsPrefix.trans · under))

section

variable {file : Name × Content}
  (shows : Shows manager test_name [] bucket (placed runs.length runs))
include shows

/-- A file in a directory of a session is one of a run that has its place there. -/
theorem Shows.owner (session : dir ∈ sessionDirs) (stored : file ∈ bucket.files)
    (under : manager.GetDirPaths dir test_name [] ++ ['/'] <+: file.1) :
    ∃ (index : Nat) (run : Run Content), runs[index]? = some run ∧ place runs.length index = dir ∧
      ∃ source ∈ run.files,
        file = (manager.GetDirPaths dir test_name [] ++ '/' :: basename source.1, source.2) := by
  obtain ⟨entry, member, rfl⟩ := shows.only _ stored (relevant_of_dir session under)
  have inDir := (dir_prefix_iff (placed_tidy member) session).mp under
  obtain ⟨index, run, listed, source, inside, rfl⟩ := mem_placed.mp member
  refine ⟨index, run, listed, inDir, source, inside, ?_⟩
  rw [← inDir]
  rfl

/-- The place of a run has its files. -/
theorem Shows.keeps {run : Run Content} (listed : runs[index]? = some run)
    (inside : file ∈ run.files) : Keeps manager test_name bucket (place runs.length index) file :=
  shows.there _ (mem_placed.mpr ⟨index, run, listed, file, inside, rfl⟩)

/-- A directory that is the place of one run has the files of this run. -/
theorem Shows.holds (session : dir ∈ sessionDirs)
    (only : ∀ other < runs.length, place runs.length other = dir ↔ other = index)
    {run : Run Content} (listed : runs[index]? = some run) :
    Holds manager test_name bucket dir run := by
  have here : place runs.length index = dir :=
    (only index (List.getElem?_eq_some_iff.mp listed).1).mpr rfl
  intro name content
  constructor
  · rintro ⟨stored, under⟩
    obtain ⟨other, owner, found, inDir, source, inside, same⟩ := shows.owner session stored under
    obtain rfl := (only other (List.getElem?_eq_some_iff.mp found).1).mp inDir
    obtain rfl : owner = run := Option.some.inj (found.symm.trans listed)
    exact ⟨source, inside, Prod.mk.inj same⟩
  · rintro ⟨file, inside, rfl, rfl⟩
    refine ⟨here ▸ shows.keeps listed inside, basename file.1, ?_⟩
    rw [append_assoc]
    rfl

/-- A directory that is the place of no run has no files. -/
theorem Shows.vacant (session : dir ∈ sessionDirs)
    (none : ∀ other < runs.length, place runs.length other ≠ dir) :
    Vacant manager test_name bucket dir := by
  intro name stored under
  obtain ⟨file, inside, rfl⟩ := mem_map.mp stored
  obtain ⟨index, run, listed, inDir, -⟩ := shows.owner session inside under
  exact none index (List.getElem?_eq_some_iff.mp listed).1 inDir

end

/-- After every run the directories hold what the number of the run in its session calls for, and
no file is lost. -/
theorem session_directories (manager : CorpusManager) (test_name : TestName)
    {bucket : Bucket Content} (fresh : ∀ name ∈ bucket.names, ¬ Relevant manager test_name name)
    {runs : List (Run Content)} (nonempty : ∀ run ∈ runs, run.files ≠ [])
    (unique : (baseNames runs).Nodup) :
    let final := run (afterRun manager test_name) bucket runs
    (∀ session n, 1 ≤ n → n < CorpusManager.REPEAT_TIMES →
      runs.length = session * CorpusManager.REPEAT_TIMES + n →
      (∀ last, runs[session * CorpusManager.REPEAT_TIMES + n - 1]? = some last →
        Holds manager test_name final .corpus_seed last) ∧
      ∀ j, 1 ≤ j → j < n →
        ∀ run, runs[session * CorpusManager.REPEAT_TIMES + j - 1]? = some run →
          Holds manager test_name final (.corpus_seed_numbered j) run) ∧
    (∀ session, runs.length = (session + 1) * CorpusManager.REPEAT_TIMES →
      (∀ dir ∈ sessionDirs, dir ≠ .corpus_complete → Vacant manager test_name final dir) ∧
      ∀ run ∈ runs, ∀ file ∈ run.files, Keeps manager test_name final .corpus_complete file) ∧
    ∀ run ∈ runs, ∀ file ∈ run.files, ∃ dir ∈ sessionDirs, Keeps manager test_name final dir file := by
  intro final
  have shows : Shows manager test_name [] final (placed runs.length runs) :=
    .after fresh nonempty unique []
  refine ⟨fun session n first before count => ⟨fun last listed => ?_, ?_⟩, ?_, ?_⟩
  · refine shows.holds (by decide) (fun other inside => ?_) listed
    rw [place_eq_seed_iff]
    rw [CorpusManager.REPEAT_TIMES] at *
    omega
  · intro j positive earlier run listed
    have session : ∀ j < 5, 1 ≤ j → DirType.corpus_seed_numbered j ∈ sessionDirs := by decide
    refine shows.holds (session j (earlier.trans before) positive) (fun other inside => ?_) listed
    rw [place_eq_numbered_iff inside]
    rw [CorpusManager.REPEAT_TIMES] at *
    omega
  · intro session count
    have complete : ∀ index < runs.length, place runs.length index = .corpus_complete := by
      intro index inside
      refine place_eq_complete ?_
      rw [CorpusManager.REPEAT_TIMES] at count
      omega
    refine ⟨fun dir listed other => shows.vacant listed fun index inside same => ?_, ?_⟩
    · exact other (same.symm.trans (complete index inside))
    · intro run member file inside
      obtain ⟨index, listed⟩ := List.getElem?_of_mem member
      rw [← complete index (List.getElem?_eq_some_iff.mp listed).1]
      exact shows.keeps listed inside
  · intro run member file inside
    obtain ⟨index, listed⟩ := List.getElem?_of_mem member
    exact ⟨_, place_mem (List.getElem?_eq_some_iff.mp listed).1, shows.keeps listed inside⟩

end

/-- A run of a test on a device, with one file. -/
def oneFile (local_temp_dir file : String) (content : Nat) : Run Nat :=
  ⟨local_temp_dir.toList, [(file.toList, content)], none⟩

/-- After the second run of a session its file is in the directory for seeds, and the one of the
first run in the first numbered directory. -/
theorem session_directories_second :
    let manager : CorpusManager := ⟨"corpus/PPR1/walleye".toList, "HT7BF1A01613".toList⟩
    let test_name : TestName := ⟨"ILight".toList, by decide, by decide⟩
    let first := oneFile "/tmp/a" "132" 1
    let second := oneFile "/tmp/b" "sub/133" 2
    let final := run (afterRun manager test_name) .empty [first, second]
    (∀ run ∈ [first, second], run.files ≠ []) ∧ (baseNames [first, second]).Nodup ∧
      Holds manager test_name final .corpus_seed second ∧
      Holds manager test_name final (.corpus_seed_numbered 1) first := by
  intro manager test_name first second final
  have nonempty : ∀ run ∈ [first, second], run.files ≠ [] := by decide
  have unique : (baseNames [first, second]).Nodup := by decide
  have fresh : ∀ name ∈ (Bucket.empty : Bucket Nat).names, ¬ Relevant manager test_name name :=
    nofun
  have directories := session_directories manager test_name fresh nonempty unique
  have two := directories.1 0 2 (by decide) (by decide) rfl
  exact ⟨nonempty, unique, two.1 second rfl, two.2 1 (by decide) (by decide) first rfl⟩

end Vts.Corpus
