import Vts.Corpus.Storage
import Vts.Lib.Separators

/-!
# The corpus manager

The paths and the stage 3 algorithm of `utils/python/fuzzer/corpus_manager.py`. The manager is taken
to be enabled. A test name is not empty and has no slash in it.

The paths of a test all begin with one area of the bucket. What is proved here about them is where
they lie in it.
-/

namespace Vts.Corpus

open Vts.Lib List

/-- The types of directories. -/
inductive DirType where
  | corpus_seed_high | corpus_seed | corpus_seed_low | corpus_inuse | corpus_complete
  | corpus_crash | corpus_error | corpus_trigger
  | corpus_seed_numbered (number : Nat)
  | corpus_measure | corpus_lock
  | incoming_parent | incoming_child | local_corpus_out | local_corpus_trigger
deriving DecidableEq

/-- `'%02d'` of a number. -/
def twoDigits (number : Nat) : Name :=
  (if number < 10 then ['0'] else []) ++ Nat.toDigits 10 number

/-- The type as a string. -/
def DirType.text : DirType → Name
  | corpus_seed_high => "corpus_seed_high".toList
  | corpus_seed => "corpus_seed".toList
  | corpus_seed_low => "corpus_seed_low".toList
  | corpus_inuse => "corpus_inuse".toList
  | corpus_complete => "corpus_complete".toList
  | corpus_crash => "corpus_crash".toList
  | corpus_error => "corpus_error".toList
  | corpus_trigger => "corpus_trigger".toList
  | corpus_seed_numbered number => "corpus_seed_".toList ++ twoDigits number
  | corpus_measure => "corpus_measure".toList
  | corpus_lock => "corpus_lock".toList
  | incoming_parent => "incoming_parent".toList
  | incoming_child => "incoming_child".toList
  | local_corpus_out => "local_corpus_out".toList
  | local_corpus_trigger => "local_corpus_trigger".toList

/-- The name of a test. -/
structure TestName where
  name : Name
  nonempty : name ≠ []
  plain : '/' ∉ name

/-- The manager for a device. -/
structure CorpusManager where
  gcs_path : Name
  device_serial : Name

namespace CorpusManager

variable (manager : CorpusManager)

/-- The directory of a type, where the directory on the host is given. -/
def GetDirPaths (dir_type : DirType) (test_name : TestName) (local_temp_dir : Name) : Name :=
  match dir_type with
  | .corpus_seed_numbered number =>
    if number < 100 then
      join manager.gcs_path [test_name.name, test_name.name ++ '_' :: dir_type.text]
    else []
  | .incoming_parent =>
    join manager.gcs_path [test_name.name, "incoming".toList, basename local_temp_dir]
  | .incoming_child =>
    join manager.gcs_path [test_name.name, "incoming".toList, basename local_temp_dir,
      test_name.name ++ "_corpus_out".toList]
  | .local_corpus_out => join local_temp_dir [test_name.name ++ "_corpus_out".toList]
  | .local_corpus_trigger => join local_temp_dir [test_name.name ++ "_corpus_trigger".toList]
  | _ => join manager.gcs_path [test_name.name, test_name.name ++ '_' :: dir_type.text]

/-- The file of a type for a seed. -/
def GetFilePaths (file_type : DirType) (test_name : TestName) (seed : Name) : Name :=
  match file_type with
  | .corpus_lock => join (manager.GetDirPaths .corpus_lock test_name []) [manager.device_serial]
  | .corpus_measure | .incoming_parent | .incoming_child | .local_corpus_out
  | .local_corpus_trigger => []
  | _ => join (manager.GetDirPaths file_type test_name []) [basename seed]

variable {Content : Type}

/-- `UploadDir` of the directory with the output, with the files in it by their paths there. -/
def uploadCorpus (bucket : Bucket Content) (test_name : TestName) (local_temp_dir : Name)
    (files : List (Name × Content)) : Bucket Content :=
  let src_basedir := basename (manager.GetDirPaths .local_corpus_out test_name local_temp_dir)
  let dest_dir := manager.GetDirPaths .incoming_parent test_name local_temp_dir
  files.foldl (fun bucket file =>
    bucket.UploadFile (join dest_dir [src_basedir ++ '/' :: file.1]) file.2) bucket

/-- The number of files that are moved, and the bucket afterwards. -/
def MoveCorpusDirectory (bucket : Bucket Content) (test_name : TestName) (local_temp_dir : Name)
    (src_dir dest_dir : DirType) (strict : Bool) : Nat × Bucket Content :=
  let src_corpus_dir := manager.GetDirPaths src_dir test_name local_temp_dir
  let src_corpuses := bucket.ListFilesWithPrefix src_corpus_dir strict
  (src_corpuses.length, src_corpuses.foldl (fun bucket src_corpus =>
    (bucket.MoveFile src_corpus (manager.GetFilePaths dest_dir test_name src_corpus)).2) bucket)

def REPEAT_TIMES : Nat := 5

/-- The `i` of the loop over the numbered directories when it ends. -/
def lastIndex (bucket : Bucket Content) (test_name : TestName) : Nat :=
  ((List.range' 1 (REPEAT_TIMES - 1)).find? fun i =>
    !bucket.PrefixExists (manager.GetDirPaths .corpus_seed test_name [] ++ '_' :: twoDigits i)).getD
      (REPEAT_TIMES - 1)

/-- `UploadFile` of the report of a crash, with the name that it is given. -/
def UploadTriggeredCorpus (bucket : Bucket Content) (test_name : TestName) (local_temp_dir : Name)
    (crash_report : Option (Name × Content)) : Bucket Content :=
  match crash_report with
  | none => bucket
  | some (uuid, content) =>
    let triggered_corpus :=
      join (manager.GetDirPaths .local_corpus_trigger test_name local_temp_dir)
        ["crash_report".toList]
    bucket.UploadFile (manager.GetFilePaths .corpus_trigger test_name triggered_corpus ++ uuid)
      content

/-- The number of files of this run, and the bucket afterwards. -/
def ClassifyPriority3 (bucket : Bucket Content) (test_name : TestName) (local_temp_dir : Name)
    (crash_report : Option (Name × Content)) : Nat × Bucket Content :=
  let i := manager.lastIndex bucket test_name
  let (num_unique_corpus, bucket) :=
    if i < REPEAT_TIMES - 1 then
      let (_, bucket) := manager.MoveCorpusDirectory bucket test_name local_temp_dir .corpus_seed
        (.corpus_seed_numbered i) true
      manager.MoveCorpusDirectory bucket test_name local_temp_dir .incoming_child .corpus_seed true
    else
      let (_, bucket) := manager.MoveCorpusDirectory bucket test_name local_temp_dir .corpus_seed
        .corpus_complete false
      manager.MoveCorpusDirectory bucket test_name local_temp_dir .incoming_child .corpus_complete
        true
  (num_unique_corpus, manager.UploadTriggeredCorpus bucket test_name local_temp_dir crash_report)

/-- The part of the bucket that belongs to a test. -/
def area (test_name : TestName) : Name := joinOne manager.gcs_path test_name.name ++ ['/']

end CorpusManager

/-- The directories of a type are in the area of a test, under the name of the test and the type. -/
def DirType.stored : DirType → Bool
  | corpus_seed_numbered number => decide (number < 100)
  | incoming_parent | incoming_child | local_corpus_out | local_corpus_trigger => false
  | _ => true

theorem twoDigits_plain (number : Nat) : '/' ∉ twoDigits number := by
  have digits : '/' ∉ Nat.toDigits 10 number := not_mem_digits (by decide)
  have zero : '/' ∉ if number < 10 then ['0'] else [] := by
    split <;> decide
  rw [twoDigits, mem_append, not_or]
  exact ⟨zero, digits⟩

theorem DirType.text_plain (dir_type : DirType) : '/' ∉ dir_type.text := by
  cases dir_type with
  | corpus_seed_numbered number =>
    change '/' ∉ "corpus_seed_".toList ++ twoDigits number
    rw [mem_append, not_or]
    exact ⟨by decide, twoDigits_plain number⟩
  | _ => decide

theorem TestName.head_ne (test_name : TestName) (rest : Name) :
    (test_name.name ++ rest).head? ≠ some '/' := by
  rw [List.head?_append_of_ne_nil _ test_name.nonempty]
  exact fun slash => test_name.plain (mem_of_head? slash)

/-- A long enough part without a slash is not in the directory for incoming files. -/
theorem not_incoming {part : Name} (plain : '/' ∉ part) (long : 9 ≤ part.length) (rest : Name) :
    ¬ "incoming/".toList <+: part ++ rest := by
  intro under
  have inside : "incoming/".toList <+: part :=
    prefix_of_prefix_length_le under (prefix_append _ _) long
  exact plain (inside.subset (by decide))

namespace CorpusManager

variable {manager : CorpusManager} {test_name : TestName}

theorem joinOne_area {next : Name} (relative : next.head? ≠ some '/') :
    joinOne (joinOne manager.gcs_path test_name.name) next = manager.area test_name ++ next := by
  rw [joinOne_of_open (joinOne_open test_name.nonempty test_name.plain) relative, area,
    append_assoc]
  rfl

theorem getDirPaths_eq {dir_type : DirType} (stored : dir_type.stored = true)
    (local_temp_dir : Name) :
    manager.GetDirPaths dir_type test_name local_temp_dir =
      manager.area test_name ++ (test_name.name ++ '_' :: dir_type.text) := by
  cases dir_type with
  | corpus_seed_numbered number =>
    rw [GetDirPaths, if_pos (of_decide_eq_true stored)]
    exact joinOne_area (test_name.head_ne _)
  | incoming_parent | incoming_child | local_corpus_out | local_corpus_trigger => cases stored
  | _ => exact joinOne_area (test_name.head_ne _)

/-- A stored directory does not end with a slash. -/
theorem getDirPaths_open {dir_type : DirType} (stored : dir_type.stored = true)
    {local_temp_dir : Name} :
    manager.GetDirPaths dir_type test_name local_temp_dir ≠ [] ∧
      (manager.GetDirPaths dir_type test_name local_temp_dir).getLast? ≠ some '/' := by
  have plain : '/' ∉ test_name.name ++ '_' :: dir_type.text := by
    rw [mem_append, mem_cons, not_or, not_or]
    exact ⟨test_name.plain, by decide, dir_type.text_plain⟩
  have nonempty : test_name.name ++ '_' :: dir_type.text ≠ [] :=
    append_ne_nil_of_left_ne_nil test_name.nonempty _
  rw [getDirPaths_eq stored]
  refine ⟨append_ne_nil_of_right_ne_nil _ nonempty, ?_⟩
  rw [List.getLast?_append_of_ne_nil _ nonempty]
  exact fun slash => plain (mem_of_getLast? slash)

theorem corpusOut_plain (test_name : TestName) :
    '/' ∉ test_name.name ++ "_corpus_out".toList := by
  rw [mem_append, not_or]
  exact ⟨test_name.plain, by decide⟩

theorem corpusOut_ne_nil (test_name : TestName) :
    test_name.name ++ "_corpus_out".toList ≠ [] :=
  append_ne_nil_of_left_ne_nil test_name.nonempty _

theorem incoming_parent_eq (local_temp_dir : Name) :
    manager.GetDirPaths .incoming_parent test_name local_temp_dir =
      manager.area test_name ++ ("incoming/".toList ++ basename local_temp_dir) := by
  have outer : joinOne (joinOne manager.gcs_path test_name.name) "incoming".toList =
      manager.area test_name ++ "incoming".toList := joinOne_area (by decide)
  have opens := @joinOne_open (joinOne manager.gcs_path test_name.name) "incoming".toList
    (by decide) (by decide)
  have inner := joinOne_of_open opens (head_ne_of_plain (not_mem_basename local_temp_dir))
  rw [outer, append_assoc] at inner
  exact (congrArg (joinOne · (basename local_temp_dir)) outer).trans inner

/-- The directory for the files of a run is in the area of the test, and no stored one. -/
theorem incoming_child_eq (local_temp_dir : Name) :
    ∃ rest, manager.GetDirPaths .incoming_child test_name local_temp_dir =
      manager.area test_name ++ ("incoming/".toList ++ rest) := by
  have whole : manager.GetDirPaths .incoming_child test_name local_temp_dir =
      joinOne (manager.GetDirPaths .incoming_parent test_name local_temp_dir)
        (test_name.name ++ "_corpus_out".toList) := rfl
  obtain ⟨rest, shape⟩ := joinOne_relative (test_name.head_ne "_corpus_out".toList)
    (manager.GetDirPaths .incoming_parent test_name local_temp_dir)
  refine ⟨basename local_temp_dir ++ rest, ?_⟩
  rw [whole, shape, incoming_parent_eq, append_assoc, append_assoc]

theorem incoming_child_open (local_temp_dir : Name) :
    (manager.GetDirPaths .incoming_child test_name local_temp_dir).getLast? ≠ some '/' :=
  (joinOne_open (corpusOut_ne_nil test_name) (corpusOut_plain test_name)).2

/-- Where a file of a run is uploaded to. -/
theorem upload_name (local_temp_dir path : Name) :
    join (manager.GetDirPaths .incoming_parent test_name local_temp_dir)
      [basename (manager.GetDirPaths .local_corpus_out test_name local_temp_dir) ++ '/' :: path] =
    manager.GetDirPaths .incoming_child test_name local_temp_dir ++ '/' :: path := by
  have base : basename (manager.GetDirPaths .local_corpus_out test_name local_temp_dir) =
      test_name.name ++ "_corpus_out".toList :=
    basename_joinOne (corpusOut_plain test_name) local_temp_dir
  rw [base]
  exact joinOne_append (corpusOut_ne_nil test_name) _ _

theorem getFilePaths_eq {file_type : DirType} (stored : file_type.stored = true)
    (seeds : file_type ≠ .corpus_lock ∧ file_type ≠ .corpus_measure) (seed : Name) :
    manager.GetFilePaths file_type test_name seed =
      manager.GetDirPaths file_type test_name [] ++ '/' :: basename seed := by
  have joined : manager.GetFilePaths file_type test_name seed =
      joinOne (manager.GetDirPaths file_type test_name []) (basename seed) := by
    cases file_type with
    | corpus_lock => exact absurd rfl seeds.1
    | corpus_measure => exact absurd rfl seeds.2
    | incoming_parent | incoming_child | local_corpus_out | local_corpus_trigger => cases stored
    | _ => rfl
  rw [joined]
  exact joinOne_of_open (getDirPaths_open stored) (head_ne_of_plain (not_mem_basename seed))

end CorpusManager

end Vts.Corpus
