import Mathlib.Data.List.DropRight
import Mathlib.Data.List.Nodup

/-!
# Files in a bucket

The operations of `utils/python/gcs/gcs_api_utils.py` that the corpus manager uses, on a bucket that
is a list of named files, and `join` and `basename` of `os.path`. A bucket has no directories: the
files of one are those whose names have its path as a prefix. Access to the bucket is taken to be
enabled, and every operation is one step of the service. A list of files is given in the order of
the bucket; the service sorts it.
-/

namespace Vts.Corpus

open List

/-- The name of a file, with the path. -/
abbrev Name := List Char

/-- A step of `os.path.join`. -/
def joinOne (path next : Name) : Name :=
  if next.head? = some '/' then next
  else if path = [] ∨ path.getLast? = some '/' then path ++ next
  else path ++ '/' :: next

/-- `os.path.join`. -/
def join (path : Name) (parts : List Name) : Name := parts.foldl joinOne path

/-- `os.path.basename`. -/
def basename (path : Name) : Name := path.rtakeWhile (· ≠ '/')

section

variable {next base : Name} (path : Name)

theorem joinOne_of_open {path : Name} (opens : path ≠ [] ∧ path.getLast? ≠ some '/')
    (relative : next.head? ≠ some '/') : joinOne path next = path ++ '/' :: next := by
  rw [joinOne, if_neg relative, if_neg (not_or.mpr opens)]

/-- Texts that differ at the start begin different names. -/
theorem not_prefix_of_take {begin text : Name} {count : Nat} (long : count ≤ begin.length)
    (longToo : count ≤ text.length) (apart : begin.take count ≠ text.take count) (rest : Name) :
    ¬ begin <+: text ++ rest := by
  rintro ⟨more, same⟩
  have starts := congrArg (List.take count) same
  rw [take_append_of_le_length long, take_append_of_le_length longToo] at starts
  exact apart starts

/-- What stops a search stops it also with more text behind. -/
theorem takeWhile_append_stop {α : Type} {p : α → Bool} {stop : α} (stops : p stop = false)
    (list rest : List α) : (list ++ stop :: rest).takeWhile p = list.takeWhile p := by
  induction list with
  | nil => simp [stops]
  | cons head list ih =>
    rw [cons_append, takeWhile_cons, takeWhile_cons, ih]

/-- The base name does not depend on what stands before a slash. -/
theorem basename_append (base : Name) : basename (path ++ '/' :: base) = basename base := by
  rw [basename, basename, List.rtakeWhile, List.rtakeWhile, reverse_append, reverse_cons,
    append_assoc, singleton_append, takeWhile_append_stop (by decide)]

theorem not_mem_basename : '/' ∉ basename path := by
  intro listed
  have kept := mem_rtakeWhile_imp (p := fun c => decide (c ≠ '/')) listed
  exact of_decide_eq_true kept rfl

theorem basename_eq_self (plain : '/' ∉ base) : basename base = base := by
  rw [basename, rtakeWhile_eq_self_iff]
  exact fun c listed => decide_eq_true fun same => plain (same ▸ listed)

theorem head_ne_of_plain (plain : '/' ∉ base) : base.head? ≠ some '/' :=
  fun slash => plain (mem_of_head? slash)

theorem basename_joinOne (plain : '/' ∉ base) (path : Name) :
    basename (joinOne path base) = base := by
  rw [joinOne, if_neg (head_ne_of_plain plain)]
  split
  · rename_i ends
    rcases ends with rfl | slash
    · exact basename_eq_self plain
    · obtain ⟨front, rfl⟩ := List.getLast?_eq_some_iff.mp slash
      rw [append_assoc]
      exact (basename_append front base).trans (basename_eq_self plain)
  · exact (basename_append path base).trans (basename_eq_self plain)

/-- More text after a part that is joined stays after it. -/
theorem joinOne_append (nonempty : next ≠ []) (path more : Name) :
    joinOne path (next ++ more) = joinOne path next ++ more := by
  rw [joinOne, joinOne, List.head?_append_of_ne_nil _ nonempty]
  split
  · rfl
  · split
    · rw [append_assoc]
    · rw [append_assoc]
      rfl

/-- A relative part is put behind the path. -/
theorem joinOne_relative (relative : next.head? ≠ some '/') (path : Name) :
    ∃ rest, joinOne path next = path ++ rest := by
  rw [joinOne, if_neg relative]
  split
  · exact ⟨next, rfl⟩
  · exact ⟨'/' :: next, rfl⟩

end

theorem joinOne_open {path next : Name} (nonempty : next ≠ []) (plain : '/' ∉ next) :
    joinOne path next ≠ [] ∧ (joinOne path next).getLast? ≠ some '/' := by
  obtain ⟨front, shape⟩ : ∃ front, joinOne path next = front ++ next := by
    rw [joinOne]
    split
    · exact ⟨[], rfl⟩
    · split
      · exact ⟨path, rfl⟩
      · exact ⟨path ++ ['/'], by rw [append_assoc]; rfl⟩
  rw [shape]
  refine ⟨append_ne_nil_of_right_ne_nil _ nonempty, ?_⟩
  rw [List.getLast?_append_of_ne_nil _ nonempty]
  exact fun slash => plain (mem_of_getLast? slash)

variable {Content : Type}

/-- The files of a bucket, each name once. -/
structure Bucket (Content : Type) where
  files : List (Name × Content)
  distinct : (files.map Prod.fst).Nodup

namespace Bucket

variable (bucket : Bucket Content)

def names : List Name := bucket.files.map Prod.fst

def empty : Bucket Content := ⟨[], .nil⟩

/-- The files but one. -/
def without (name : Name) : List (Name × Content) :=
  bucket.files.filter fun file => decide (file.1 ≠ name)

theorem mem_without {name : Name} {file : Name × Content} :
    file ∈ bucket.without name ↔ file ∈ bucket.files ∧ file.1 ≠ name := by
  rw [without, mem_filter, decide_eq_true_eq]

theorem nodup_without (name : Name) : ((bucket.without name).map Prod.fst).Nodup :=
  bucket.distinct.sublist (filter_sublist.map _)

theorem not_mem_without (name : Name) : name ∉ (bucket.without name).map Prod.fst := by
  intro listed
  obtain ⟨file, inside, same⟩ := mem_map.mp listed
  exact (bucket.mem_without.mp inside).2 same

/-- `UploadFile`: a file of this name is replaced. -/
def UploadFile (name : Name) (content : Content) : Bucket Content where
  files := bucket.without name ++ [(name, content)]
  distinct := by
    rw [List.map_append, List.map_singleton, ← List.concat_eq_append]
    exact List.Nodup.concat (bucket.not_mem_without name) (bucket.nodup_without name)

/-- `DeleteFile`: whether there was such a file, and the bucket afterwards. -/
def DeleteFile (name : Name) : Bool × Bucket Content :=
  (decide (name ∈ bucket.names), ⟨bucket.without name, bucket.nodup_without name⟩)

/-- One file gets another name. -/
def renamed (src dest : Name) (file : Name × Content) : Name × Content :=
  if file.1 = src then (dest, file.2) else file

theorem nodup_renamed {src dest : Name} :
    (((bucket.without dest).map (renamed src dest)).map Prod.fst).Nodup := by
  rw [map_map]
  have unique : ((bucket.without dest).map Prod.fst).Nodup := bucket.nodup_without dest
  rw [List.Nodup, pairwise_map] at unique ⊢
  refine unique.imp_of_mem fun here there apart => ?_
  have first := (bucket.mem_without.mp here).2
  have second := (bucket.mem_without.mp there).2
  simp only [Function.comp_apply, renamed]
  split <;> split
  · rename_i same sameToo
    exact absurd (same.trans sameToo.symm) apart
  · exact second.symm
  · exact first
  · exact apart

/-- `MoveFile`: whether there was a file to move, and the bucket afterwards. -/
def MoveFile (src dest : Name) : Bool × Bucket Content :=
  if src ∉ bucket.names then (false, bucket)
  else if src = dest then (true, bucket)
  else (true, ⟨(bucket.without dest).map (renamed src dest), bucket.nodup_renamed⟩)

/-- `ListFilesWithPrefix`. -/
def ListFilesWithPrefix (dir_path : Name) (strict : Bool) : List Name :=
  bucket.names.filter (List.isPrefixOf
    (if strict ∧ dir_path.getLast? ≠ some '/' then dir_path ++ ['/'] else dir_path))

def CountFiles (dir_path : Name) : Nat := (bucket.ListFilesWithPrefix dir_path true).length

def PrefixExists (dir_path : Name) : Bool := decide (bucket.CountFiles dir_path ≠ 0)

variable {bucket}

section

variable {dir_path name other : Name} {content : Content} {src dest : Name} {file : Name × Content}

theorem mem_list_strict (opens : dir_path.getLast? ≠ some '/') :
    name ∈ bucket.ListFilesWithPrefix dir_path true ↔
      name ∈ bucket.names ∧ dir_path ++ ['/'] <+: name := by
  rw [ListFilesWithPrefix, if_pos ⟨rfl, opens⟩, mem_filter, isPrefixOf_iff_prefix]

theorem mem_list_loose :
    name ∈ bucket.ListFilesWithPrefix dir_path false ↔
      name ∈ bucket.names ∧ dir_path <+: name := by
  rw [ListFilesWithPrefix, if_neg (fun both => nomatch both.1), mem_filter,
    isPrefixOf_iff_prefix]

/-- A prefix exists when a name begins with it and a slash. -/
theorem prefixExists_iff (opens : dir_path.getLast? ≠ some '/') :
    bucket.PrefixExists dir_path = true ↔ ∃ name ∈ bucket.names, dir_path ++ ['/'] <+: name := by
  rw [PrefixExists, decide_eq_true_eq, CountFiles, ← Nat.pos_iff_ne_zero,
    length_pos_iff_exists_mem]
  exact exists_congr fun name => mem_list_strict opens

theorem mem_names_upload :
    other ∈ (bucket.UploadFile name content).names ↔ other ∈ bucket.names ∨ other = name := by
  simp only [names, UploadFile, map_append, mem_append, map_singleton,
    mem_singleton, mem_map, mem_without]
  constructor
  · rintro (⟨file, ⟨inside, -⟩, rfl⟩ | rfl)
    · exact .inl ⟨file, inside, rfl⟩
    · exact .inr rfl
  · rintro (⟨file, inside, rfl⟩ | rfl)
    · by_cases same : file.1 = name
      · exact .inr same
      · exact .inl ⟨file, ⟨inside, same⟩, rfl⟩
    · exact .inr rfl

theorem mem_names_delete :
    other ∈ (bucket.DeleteFile name).2.names ↔ other ∈ bucket.names ∧ other ≠ name := by
  simp only [names, DeleteFile, mem_map, mem_without]
  constructor
  · rintro ⟨file, ⟨inside, other⟩, rfl⟩
    exact ⟨⟨file, inside, rfl⟩, other⟩
  · rintro ⟨⟨file, inside, rfl⟩, other⟩
    exact ⟨file, ⟨inside, other⟩, rfl⟩

/-- A move touches no other name than the two that it is given. -/
theorem mem_names_move (apart : other ≠ src) (apartToo : other ≠ dest) :
    other ∈ (bucket.MoveFile src dest).2.names ↔ other ∈ bucket.names := by
  rw [MoveFile]
  split
  · rfl
  · split
    · rfl
    · simp only [names, mem_map, mem_without, renamed]
      constructor
      · rintro ⟨_, ⟨file, ⟨inside, -⟩, rfl⟩, same⟩
        split at same
        · exact absurd same.symm apartToo
        · exact ⟨file, inside, same⟩
      · rintro ⟨file, inside, rfl⟩
        exact ⟨file, ⟨file, ⟨inside, apartToo⟩, if_neg apart⟩, rfl⟩

theorem not_mem_names_move {src dest : Name} (apart : src ≠ dest) :
    src ∉ (bucket.MoveFile src dest).2.names := by
  rw [MoveFile, if_neg apart]
  split
  · assumption
  · intro listed
    obtain ⟨_, inside, named⟩ := mem_map.mp listed
    obtain ⟨file, -, rfl⟩ := mem_map.mp inside
    rw [renamed] at named
    split at named
    · exact apart named.symm
    · contradiction

theorem mem_files_upload :
    file ∈ (bucket.UploadFile name content).files ↔
      (file ∈ bucket.files ∧ file.1 ≠ name) ∨ file = (name, content) := by
  rw [UploadFile, mem_append, mem_without, mem_singleton]

/-- Files with new and different names are added to those that are there. -/
theorem mem_files_uploadAll {list : List (Name × Content)} (different : (list.map Prod.fst).Nodup)
    (fresh : ∀ file ∈ list, file.1 ∉ bucket.names) :
    file ∈ (list.foldl (fun bucket file => bucket.UploadFile file.1 file.2) bucket).files ↔
      file ∈ bucket.files ∨ file ∈ list := by
  induction list generalizing bucket with
  | nil => simp
  | cons head list ih =>
    rw [map_cons, nodup_cons] at different
    have later : ∀ file ∈ list, file.1 ∉ (bucket.UploadFile head.1 head.2).names := by
      intro file listed
      rw [mem_names_upload, not_or]
      refine ⟨fresh file (mem_cons_of_mem _ listed), fun same => different.1 ?_⟩
      exact same ▸ mem_map_of_mem listed
    rw [foldl_cons, ih different.2 later, mem_files_upload, mem_cons,
      or_assoc]
    refine or_congr_left ⟨And.left, fun inside => ⟨inside, fun same => ?_⟩⟩
    exact fresh head mem_cons_self (same ▸ mem_map_of_mem inside)

theorem mem_files_move (free : dest ∉ bucket.names) :
    file ∈ (bucket.MoveFile src dest).2.files ↔
      (file ∈ bucket.files ∧ file.1 ≠ src) ∨ ((src, file.2) ∈ bucket.files ∧ file.1 = dest) := by
  have named : ∀ {other : Name × Content}, other ∈ bucket.files → other.1 ∈ bucket.names :=
    fun inside => mem_map_of_mem inside
  rw [MoveFile]
  split
  · rename_i absent
    constructor
    · exact fun inside => .inl ⟨inside, fun same => absent (same ▸ named inside)⟩
    · rintro (⟨inside, -⟩ | ⟨inside, -⟩)
      · exact inside
      · exact absurd (named inside) absent
  · rename_i present
    have differs : src ≠ dest := fun same => present fun inside => free (same ▸ inside)
    rw [if_neg differs]
    simp only [mem_map, mem_without, renamed]
    constructor
    · rintro ⟨old, ⟨inside, -⟩, rfl⟩
      split
      · rename_i same
        exact .inr ⟨same ▸ inside, rfl⟩
      · rename_i other
        exact .inl ⟨inside, other⟩
    · rintro (⟨inside, other⟩ | ⟨inside, same⟩)
      · exact ⟨file, ⟨inside, fun same => free (same ▸ named inside)⟩, if_neg other⟩
      · refine ⟨_, ⟨inside, fun taken : src = dest => free (taken ▸ named inside)⟩, ?_⟩
        rw [if_pos rfl, ← same]

theorem mem_files_moveAll {dest : Name → Name} {list : List Name} (different : list.Nodup)
    (apart : ∀ first ∈ list, ∀ second ∈ list, dest first = dest second → first = second)
    (outside : ∀ first ∈ list, ∀ second ∈ list, second ≠ dest first)
    (free : ∀ src ∈ list, dest src ∉ bucket.names) :
    file ∈ (list.foldl (fun bucket src => (bucket.MoveFile src (dest src)).2) bucket).files ↔
      (file ∈ bucket.files ∧ file.1 ∉ list) ∨
        ∃ src ∈ list, (src, file.2) ∈ bucket.files ∧ file.1 = dest src := by
  induction list generalizing bucket with
  | nil => simp
  | cons head list ih =>
    rw [nodup_cons] at different
    have headFree := free head mem_cons_self
    have tail : ∀ {src}, src ∈ list → src ∈ head :: list := mem_cons_of_mem _
    have later : ∀ src ∈ list, dest src ∉ (bucket.MoveFile head (dest head)).2.names := by
      intro src listed there
      obtain ⟨file, inside, named⟩ := mem_map.mp there
      rcases (mem_files_move headFree).mp inside with ⟨old, -⟩ | ⟨-, new⟩
      · exact free src (tail listed) (named ▸ mem_map_of_mem old)
      · have same := apart src (tail listed) head mem_cons_self (named.symm.trans new)
        exact different.1 (same ▸ listed)
    have others : ∀ src ∈ list, ∀ content, (src, content) ∈
        (bucket.MoveFile head (dest head)).2.files ↔ (src, content) ∈ bucket.files := by
      intro src listed content
      rw [mem_files_move headFree]
      constructor
      · rintro (⟨inside, -⟩ | ⟨-, taken⟩)
        · exact inside
        · exact absurd taken (outside head mem_cons_self src (tail listed))
      · exact fun inside => .inl ⟨inside, fun same => different.1 (same ▸ listed)⟩
    rw [foldl_cons, ih different.2
      (fun first here second there => apart first (tail here) second (tail there))
      (fun first here second there => outside first (tail here) second (tail there)) later,
      mem_files_move headFree]
    constructor
    · rintro (⟨⟨inside, notHead⟩ | ⟨moved, named⟩, notLater⟩ | ⟨src, listed, inside, named⟩)
      · exact .inl ⟨inside, fun listed => (mem_cons.mp listed).elim notHead notLater⟩
      · exact .inr ⟨head, mem_cons_self, moved, named⟩
      · exact .inr ⟨src, tail listed, (others src listed _).mp inside, named⟩
    · rintro (⟨inside, notListed⟩ | ⟨src, listed, inside, named⟩)
      · rw [mem_cons, not_or] at notListed
        exact .inl ⟨.inl ⟨inside, notListed.1⟩, notListed.2⟩
      · rcases mem_cons.mp listed with rfl | there
        · refine .inl ⟨.inr ⟨inside, named⟩, fun again => ?_⟩
          exact outside src mem_cons_self file.1 (tail again) named
        · exact .inr ⟨src, there, (others src there _).mpr inside, named⟩

end

end Bucket

end Vts.Corpus
