import Mathlib.Data.List.Perm.Subperm
import Mathlib.Data.Nat.Find
import Vts.Corpus.Session

/-!
# Fetching a seed

`_FetchCorpusSeedFromPriority` of `utils/python/fuzzer/corpus_manager.py`. A seed of a directory is
moved to the directory for seeds in use, and then downloaded; when one of both fails, another seed
is tried. A move fails when the service says that the file is not there, and then changes nothing.

Only failed moves are counted. A seed whose download fails stays in use, and is in no other
directory then. Proved here: the loop ends for all failures; and what it does to the bucket is all
or nothing exactly when the first move that succeeds is followed by a download that succeeds.
-/

namespace Vts.Corpus

open List

/-- `CORPUS_PRIORITIES`. -/
inductive Priority where
  | corpus_seed_high | corpus_seed | corpus_seed_low
deriving DecidableEq

def Priority.dir : Priority → DirType
  | .corpus_seed_high => .corpus_seed_high
  | .corpus_seed => .corpus_seed
  | .corpus_seed_low => .corpus_seed_low

/-- What the service and `random` answer in every attempt. -/
structure Service where
  moves : Nat → Bool
  downloads : Nat → Bool
  random : Nat → Nat

/-- What a fetch returns, the bucket afterwards, and the files that were downloaded with the paths on
the host. -/
structure Fetched (Content : Type) where
  inuse_seed : Option Name
  bucket : Bucket Content
  downloaded : List (Name × Name)

section

variable {Content : Type} (manager : CorpusManager) (service : Service) (test_name : TestName)
  (local_temp_dir : Name) (priority : Priority)

/-- The seeds of a priority. -/
def seeds (bucket : Bucket Content) : List Name :=
  bucket.ListFilesWithPrefix (manager.GetDirPaths priority.dir test_name []) true

/-- The path on the host for a seed. -/
def destFilePath (target_seed : Name) : Name :=
  let local_dest_folder :=
    join local_temp_dir [basename (manager.GetDirPaths priority.dir test_name [])]
  join local_dest_folder [basename target_seed]

/-- The seed that an attempt is made for. -/
def target (attempt : Nat) (seed_list : List Name) : Name :=
  seed_list.getD (service.random attempt % seed_list.length) []

/-- The loop, none when it has not ended after some number of rounds. -/
def fetchLoop : Nat → Nat → Nat → Bucket Content → Option (Fetched Content)
  | 0, _, _, _ => none
  | fuel + 1, attempt, num_try, bucket =>
    if num_try < 10 then
      let seed_list := seeds manager test_name priority bucket
      if seed_list.length = 0 then some ⟨none, bucket, []⟩
      else
        let target_seed := target service attempt seed_list
        let inuse_seed := manager.GetFilePaths .corpus_inuse test_name target_seed
        let (move_successful, moved) :=
          if service.moves attempt then bucket.MoveFile target_seed inuse_seed else (false, bucket)
        if move_successful then
          if service.downloads attempt then
            some ⟨some inuse_seed, moved, [(inuse_seed,
              destFilePath manager test_name local_temp_dir priority target_seed)]⟩
          else fetchLoop fuel (attempt + 1) num_try moved
        else fetchLoop fuel (attempt + 1) (num_try + 1) moved
    else some ⟨none, bucket, []⟩

/-- What a fetch gives. -/
def Fetches (bucket : Bucket Content) (fetched : Fetched Content) : Prop :=
  ∃ fuel, fetchLoop manager service test_name local_temp_dir priority fuel 0 0 bucket = some fetched

/-- Nothing is changed, or exactly one seed is moved and downloaded. -/
def AllOrNothing (before : Bucket Content) (fetched : Fetched Content) : Prop :=
  match fetched.inuse_seed with
  | none => fetched.bucket = before ∧ fetched.downloaded = []
  | some inuse_seed => ∃ target_seed ∈ seeds manager test_name priority before,
      inuse_seed = manager.GetFilePaths .corpus_inuse test_name target_seed ∧
      fetched.bucket = (before.MoveFile target_seed inuse_seed).2 ∧
      fetched.downloaded = [(inuse_seed,
        destFilePath manager test_name local_temp_dir priority target_seed)]

end

/-! ## Seeds and seeds in use -/

section

variable {Content : Type} {manager : CorpusManager} {test_name : TestName} {priority : Priority}
  {bucket : Bucket Content}

theorem Priority.stored (priority : Priority) : priority.dir.stored = true := by
  cases priority <;> rfl

theorem mem_seeds {name : Name} : name ∈ seeds manager test_name priority bucket ↔
    name ∈ bucket.names ∧ manager.GetDirPaths priority.dir test_name [] ++ ['/'] <+: name :=
  Bucket.mem_list_strict (CorpusManager.getDirPaths_open priority.stored).2

theorem inuse_not_under (seed : Name) :
    ¬ manager.GetDirPaths priority.dir test_name [] ++ ['/'] <+:
      manager.GetFilePaths .corpus_inuse test_name seed := by
  have inuse : DirType.stored .corpus_inuse = true := rfl
  have plain : ∀ dir : DirType, '/' ∉ test_name.name ++ '_' :: dir.text := fun dir =>
    dirText_plain test_name dir
  rw [CorpusManager.getFilePaths_eq inuse ⟨by decide, by decide⟩,
    CorpusManager.getDirPaths_eq priority.stored, CorpusManager.getDirPaths_eq inuse,
    append_assoc (manager.area test_name), append_assoc (manager.area test_name),
    prefix_append_right_inj, slash_prefix_iff (plain _) (plain _), append_cancel_left_eq]
  cases priority <;> decide

theorem nodup_seeds : (seeds manager test_name priority bucket).Nodup :=
  bucket.distinct.sublist filter_sublist

/-- What the move of a seed does. -/
structure SeedMoved (manager : CorpusManager) (test_name : TestName) (priority : Priority)
    (bucket : Bucket Content) (seed : Name) (moved : Bucket Content) : Prop where
  gone : seed ∉ moved.names
  kept : ∀ name ∈ seeds manager test_name priority bucket, name ≠ seed →
    name ∈ seeds manager test_name priority moved
  old : ∀ name ∈ seeds manager test_name priority moved,
    name ∈ seeds manager test_name priority bucket
  fewer : (seeds manager test_name priority moved).length <
    (seeds manager test_name priority bucket).length

theorem moveFile_seed {seed : Name} (listed : seed ∈ seeds manager test_name priority bucket) :
    (bucket.MoveFile seed (manager.GetFilePaths .corpus_inuse test_name seed)).1 = true ∧
      SeedMoved manager test_name priority bucket seed
        (bucket.MoveFile seed (manager.GetFilePaths .corpus_inuse test_name seed)).2 := by
  obtain ⟨present, under⟩ := mem_seeds.mp listed
  have apart : seed ≠ manager.GetFilePaths .corpus_inuse test_name seed := fun same =>
    inuse_not_under seed (same ▸ under)
  have gone := @Bucket.not_mem_names_move _ bucket _ _ apart
  have others : ∀ {name : Name}, name ≠ seed →
      manager.GetDirPaths priority.dir test_name [] ++ ['/'] <+: name →
      (name ∈ (bucket.MoveFile seed (manager.GetFilePaths .corpus_inuse test_name seed)).2.names ↔
        name ∈ bucket.names) := by
    intro name different below
    exact Bucket.mem_names_move different fun same => inuse_not_under seed (same ▸ below)
  have old : ∀ name ∈ seeds manager test_name priority
      (bucket.MoveFile seed (manager.GetFilePaths .corpus_inuse test_name seed)).2,
      name ∈ seeds manager test_name priority bucket ∧ name ≠ seed := by
    intro name there
    obtain ⟨inside, below⟩ := mem_seeds.mp there
    have different : name ≠ seed := fun same => gone (same ▸ inside)
    exact ⟨mem_seeds.mpr ⟨(others different below).mp inside, below⟩, different⟩
  refine ⟨?_, gone, fun name there different => ?_, fun name there => (old name there).1, ?_⟩
  · rw [Bucket.MoveFile, if_neg (not_not.mpr present), if_neg apart]
  · obtain ⟨inside, below⟩ := mem_seeds.mp there
    exact mem_seeds.mpr ⟨(others different below).mpr inside, below⟩
  · have within : seeds manager test_name priority
        (bucket.MoveFile seed (manager.GetFilePaths .corpus_inuse test_name seed)).2 ⊆
          (seeds manager test_name priority bucket).erase seed := by
      intro name there
      obtain ⟨here, different⟩ := old name there
      exact (nodup_seeds.mem_erase_iff).mpr ⟨different, here⟩
    have shorter := (subperm_of_subset nodup_seeds within).length_le
    have one := length_erase_of_mem listed
    have some := length_pos_of_mem listed
    omega

end

/-! ## Rounds of the loop -/

section

variable {Content : Type} {manager : CorpusManager} {service : Service} {test_name : TestName}
  {local_temp_dir : Name} {priority : Priority} {bucket : Bucket Content}
  {fuel attempt num_try : Nat}

theorem target_mem {seed_list : List Name} (nonempty : seed_list ≠ []) (attempt : Nat) :
    target service attempt seed_list ∈ seed_list := by
  have inside := Nat.mod_lt (service.random attempt) (length_pos_of_ne_nil nonempty)
  rw [target, getD_eq_getElem?_getD, List.getElem?_eq_getElem inside]
  exact getElem_mem inside

theorem fetchLoop_empty (empty : seeds manager test_name priority bucket = []) :
    fetchLoop manager service test_name local_temp_dir priority (fuel + 1) attempt num_try bucket =
      some ⟨none, bucket, []⟩ := by
  rw [fetchLoop]
  simp [empty]

theorem fetchLoop_tried (many : 10 ≤ num_try) :
    fetchLoop manager service test_name local_temp_dir priority (fuel + 1) attempt num_try bucket =
      some ⟨none, bucket, []⟩ := by
  rw [fetchLoop, if_neg (Nat.not_lt.mpr many)]

section

variable (few : num_try < 10) (nonempty : seeds manager test_name priority bucket ≠ [])
include few nonempty

theorem fetchLoop_unmoved (fails : service.moves attempt = false) :
    fetchLoop manager service test_name local_temp_dir priority (fuel + 1) attempt num_try bucket =
      fetchLoop manager service test_name local_temp_dir priority fuel (attempt + 1) (num_try + 1)
        bucket := by
  have counted : (seeds manager test_name priority bucket).length ≠ 0 := fun no =>
    nonempty (eq_nil_of_length_eq_zero no)
  rw [fetchLoop, if_pos few]
  simp only [if_neg counted, fails, Bool.false_eq_true, ↓reduceIte]

theorem fetchLoop_moved (succeeds : service.moves attempt = true) :
    ∃ seed ∈ seeds manager test_name priority bucket, ∃ moved,
      moved = (bucket.MoveFile seed (manager.GetFilePaths .corpus_inuse test_name seed)).2 ∧
      SeedMoved manager test_name priority bucket seed moved ∧
      fetchLoop manager service test_name local_temp_dir priority (fuel + 1) attempt num_try
          bucket =
        if service.downloads attempt then
          some ⟨manager.GetFilePaths .corpus_inuse test_name seed, moved,
            [(manager.GetFilePaths .corpus_inuse test_name seed,
              destFilePath manager test_name local_temp_dir priority seed)]⟩
        else fetchLoop manager service test_name local_temp_dir priority fuel (attempt + 1) num_try
          moved := by
  have counted : (seeds manager test_name priority bucket).length ≠ 0 := fun no =>
    nonempty (eq_nil_of_length_eq_zero no)
  obtain ⟨returned, seedMoved⟩ := moveFile_seed (@target_mem service _ nonempty attempt)
  refine ⟨_, @target_mem service _ nonempty attempt, _, rfl, seedMoved, ?_⟩
  rw [fetchLoop, if_pos few]
  simp only [if_neg counted, succeeds, ↓reduceIte, returned]

end

/-- The loop ends: every round counts a failed move or takes a seed away. -/
theorem fetchLoop_returns (enough : 10 - num_try + (seeds manager test_name priority bucket).length <
    fuel) : ∃ fetched, fetchLoop manager service test_name local_temp_dir priority fuel attempt
      num_try bucket = some fetched := by
  induction fuel generalizing attempt num_try bucket with
  | zero => exact absurd enough (Nat.not_lt_zero _)
  | succ fuel ih =>
    by_cases empty : seeds manager test_name priority bucket = []
    · exact ⟨_, fetchLoop_empty empty⟩
    · by_cases few : num_try < 10
      · cases succeeds : service.moves attempt with
        | false =>
          rw [fetchLoop_unmoved few empty succeeds]
          exact ih (by omega)
        | true =>
          obtain ⟨seed, -, moved, -, seedMoved, round⟩ := @fetchLoop_moved _ _ _ _
            local_temp_dir _ _ fuel _ _ few empty succeeds
          have fewer := seedMoved.fewer
          rw [round]
          split
          · exact ⟨_, rfl⟩
          · exact ih (by omega)
      · exact ⟨_, fetchLoop_tried (Nat.le_of_not_lt few)⟩

/-- What holds whatever fails: no seed is added, and a seed that is returned is gone. -/
theorem fetchLoop_seeds {fetched : Fetched Content}
    (returned : fetchLoop manager service test_name local_temp_dir priority fuel attempt num_try
      bucket = some fetched) :
    (∀ name ∈ seeds manager test_name priority fetched.bucket,
      name ∈ seeds manager test_name priority bucket) ∧
    (fetched.inuse_seed ≠ none → ∃ seed ∈ seeds manager test_name priority bucket,
      seed ∉ fetched.bucket.names) := by
  induction fuel generalizing attempt num_try bucket with
  | zero => cases returned
  | succ fuel ih =>
    by_cases empty : seeds manager test_name priority bucket = []
    · rw [fetchLoop_empty empty] at returned
      cases returned
      exact ⟨fun _ there => there, fun no => absurd rfl no⟩
    · by_cases few : num_try < 10
      · cases succeeds : service.moves attempt with
        | false =>
          rw [fetchLoop_unmoved few empty succeeds] at returned
          exact ih returned
        | true =>
          obtain ⟨seed, listed, moved, -, seedMoved, round⟩ := @fetchLoop_moved _ _ _ _
            local_temp_dir _ _ fuel _ _ few empty succeeds
          rw [round] at returned
          split at returned
          · cases returned
            exact ⟨seedMoved.old, fun _ => ⟨seed, listed, seedMoved.gone⟩⟩
          · obtain ⟨old, gone⟩ := ih returned
            refine ⟨fun name there => seedMoved.old name (old name there), fun found => ?_⟩
            obtain ⟨other, there, notNow⟩ := gone found
            exact ⟨other, seedMoved.old other there, notNow⟩
      · rw [fetchLoop_tried (Nat.le_of_not_lt few)] at returned
        cases returned
        exact ⟨fun _ there => there, fun no => absurd rfl no⟩

/-- While the moves fail, only the attempts are counted. -/
theorem fetchLoop_unmoved_rounds (nonempty : seeds manager test_name priority bucket ≠ [])
    {fetched : Fetched Content}
    (returned : fetchLoop manager service test_name local_temp_dir priority fuel 0 0 bucket =
      some fetched) {count : Nat} (within : count ≤ 10)
    (fail : ∀ earlier < count, service.moves earlier = false) :
    ∃ fuel, fetchLoop manager service test_name local_temp_dir priority fuel count count bucket =
      some fetched := by
  induction count with
  | zero => exact ⟨fuel, returned⟩
  | succ count ih =>
    obtain ⟨fuel, reached⟩ := ih (Nat.le_of_succ_le within)
      fun earlier before => fail earlier (Nat.lt_succ_of_lt before)
    cases fuel with
    | zero => cases reached
    | succ fuel =>
      rw [fetchLoop_unmoved within nonempty (fail count (Nat.lt_succ_self count))] at reached
      exact ⟨fuel, reached⟩

/-- After a move whose download fails it is no more all or nothing. -/
theorem not_allOrNothing {fetched : Fetched Content} {seed : Name}
    (listed : seed ∈ seeds manager test_name priority bucket) {moved : Bucket Content}
    (seedMoved : SeedMoved manager test_name priority bucket seed moved)
    (returned : fetchLoop manager service test_name local_temp_dir priority fuel attempt num_try
      moved = some fetched) :
    ¬ AllOrNothing manager test_name local_temp_dir priority bucket fetched := by
  obtain ⟨old, taken⟩ := fetchLoop_seeds returned
  have gone : seed ∉ seeds manager test_name priority fetched.bucket := fun there =>
    seedMoved.gone (mem_seeds.mp (old seed there)).1
  unfold AllOrNothing
  cases found : fetched.inuse_seed with
  | none =>
    rintro ⟨same, -⟩
    exact gone (same ▸ listed)
  | some inuse_seed =>
    rintro ⟨other, there, rfl, same, -⟩
    obtain ⟨-, otherMoved⟩ := moveFile_seed there
    rw [← same] at otherMoved
    -- the first seed and the one that is returned are gone, and only one seed can be
    obtain rfl : seed = other := by
      by_contra different
      exact gone (otherMoved.kept seed listed different)
    obtain ⟨last, lastListed, notNow⟩ := taken (by rw [found]; exact Option.some_ne_none _)
    have different : last ≠ seed := fun equal =>
      seedMoved.gone (equal ▸ (mem_seeds.mp lastListed).1)
    have kept := otherMoved.kept last (seedMoved.old last lastListed) different
    exact notNow (mem_seeds.mp kept).1

end

/-- A fetch ends for all failures. It is all or nothing exactly when there are no seeds, or the first
move that succeeds, if it is one of the first ten, is followed by a download that succeeds. -/
theorem fetch_allOrNothing_iff {Content : Type} (manager : CorpusManager) (service : Service)
    (test_name : TestName) (local_temp_dir : Name) (priority : Priority)
    (bucket : Bucket Content) :
    ∃ fetched, Fetches manager service test_name local_temp_dir priority bucket fetched ∧
      (AllOrNothing manager test_name local_temp_dir priority bucket fetched ↔
        seeds manager test_name priority bucket = [] ∨
        ∀ attempt < 10, (∀ earlier < attempt, service.moves earlier = false) →
          service.moves attempt = true → service.downloads attempt = true) := by
  obtain ⟨fetched, returned⟩ := @fetchLoop_returns _ manager service test_name local_temp_dir
    priority bucket _ 0 0 (Nat.lt_succ_self _)
  refine ⟨fetched, ⟨_, returned⟩, ?_⟩
  by_cases empty : seeds manager test_name priority bucket = []
  · rw [fetchLoop_empty empty] at returned
    cases returned
    exact iff_of_true ⟨rfl, rfl⟩ (.inl empty)
  · rw [or_iff_right empty]
    constructor
    · intro whole attempt within fail succeeds
      obtain ⟨fuel, reached⟩ :=
        fetchLoop_unmoved_rounds empty returned (Nat.le_of_lt within) fail
      cases fuel with
      | zero => cases reached
      | succ fuel =>
        obtain ⟨seed, listed, moved, -, seedMoved, round⟩ :=
          @fetchLoop_moved _ _ _ _ local_temp_dir _ _ fuel _ _ within empty succeeds
        rw [round] at reached
        by_contra notDownloaded
        rw [if_neg notDownloaded] at reached
        exact not_allOrNothing listed seedMoved reached whole
    · intro downloads
      by_cases some : ∃ attempt, attempt < 10 ∧ service.moves attempt = true
      · have first := Nat.find_spec some
        have fail : ∀ earlier < Nat.find some, service.moves earlier = false := by
          intro earlier before
          have notYet := Nat.find_min some before
          rw [not_and] at notYet
          exact Bool.eq_false_iff.mpr (notYet (Nat.lt_trans before first.1))
        obtain ⟨fuel, reached⟩ :=
          fetchLoop_unmoved_rounds empty returned (Nat.le_of_lt first.1) fail
        cases fuel with
        | zero => cases reached
        | succ fuel =>
          obtain ⟨seed, listed, moved, rfl, -, round⟩ :=
            @fetchLoop_moved _ _ _ _ local_temp_dir _ _ fuel _ _ first.1 empty first.2
          rw [round, if_pos (downloads _ first.1 fail first.2)] at reached
          cases reached
          exact ⟨seed, listed, rfl, rfl, rfl⟩
      · have fail : ∀ earlier < 10, service.moves earlier = false := fun earlier before =>
          Bool.eq_false_iff.mpr fun succeeds => some ⟨earlier, before, succeeds⟩
        obtain ⟨fuel, reached⟩ := fetchLoop_unmoved_rounds empty returned (Nat.le_refl 10) fail
        cases fuel with
        | zero => cases reached
        | succ fuel =>
          rw [fetchLoop_tried (Nat.le_refl 10)] at reached
          cases reached
          exact ⟨rfl, rfl⟩

/-- A bucket with one seed. -/
def oneSeed : Bucket Nat :=
  Bucket.empty.UploadFile "corpus/PPR1/walleye/ILight/ILight_corpus_seed/132".toList 1

/-- The download fails: nothing is returned, and the seed has gone to those in use. -/
theorem fetch_allOrNothing_stranded :
    let manager : CorpusManager := ⟨"corpus/PPR1/walleye".toList, "HT7BF1A01613".toList⟩
    let light : TestName := ⟨"ILight".toList, by decide, by decide⟩
    let service : Service := ⟨fun _ => true, fun _ => false, fun _ => 0⟩
    ∃ fetched, Fetches manager service light "/tmp".toList .corpus_seed oneSeed fetched ∧
      fetched.inuse_seed = none ∧
      fetched.bucket.names = ["corpus/PPR1/walleye/ILight/ILight_corpus_inuse/132".toList] ∧
      ¬ AllOrNothing manager light "/tmp".toList .corpus_seed oneSeed fetched := by
  intro manager light service
  obtain ⟨fetched, returned⟩ := @fetchLoop_returns _ manager service light "/tmp".toList
    .corpus_seed oneSeed 12 0 0 (by decide +kernel)
  have names : (fetchLoop manager service light "/tmp".toList .corpus_seed 12 0 0 oneSeed).map
      (fun fetched => (fetched.inuse_seed, fetched.bucket.names)) =
        some (none, ["corpus/PPR1/walleye/ILight/ILight_corpus_inuse/132".toList]) := by
    decide +kernel
  rw [returned, Option.map_some, Option.some.injEq, Prod.mk.injEq] at names
  refine ⟨fetched, ⟨12, returned⟩, names.1, names.2, ?_⟩
  unfold AllOrNothing
  rw [names.1]
  rintro ⟨same, -⟩
  have before : fetched.bucket.names = oneSeed.names := congrArg Bucket.names same
  rw [names.2] at before
  exact absurd before (by decide +kernel)

end Vts.Corpus
