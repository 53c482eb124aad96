import Vts.Corpus.Manager
import Vts.Lib.Runs

/-!
# The lock of a corpus

Any number of hosts use the corpus of one test in one bucket. `FetchCorpusSeed` looks for lock files
and then uploads one, in two operations on the bucket; `UploadCorpusOutDir` deletes it in the end.
A step is one operation of one host, and the steps of the hosts come in any order. Operations that
only read are left out, but for the one that looks for locks. A host may run `UploadCorpusOutDir`
also when it was told that the test is locked, and `FetchCorpusSeed` again while it has the lock.

Proved here: in every run in which no host looks for locks while another one has looked and not yet
uploaded its lock, at most one host is between the end of a fetch and the removal of its lock.
-/

namespace Vts.Corpus

open Vts.Lib List

/-- Where a host is: it does not have the lock, it has seen no lock, it has uploaded its lock, or
`FetchCorpusSeed` has returned and the lock is not removed. -/
inductive Phase where
  | idle
  | checked
  | fetching
  | holding
deriving DecidableEq

/-- The hosts: they agree on the path in the bucket, and have devices of their own. -/
structure Hosts (Host : Type) where
  gcs_path : Name
  serial : Host → Name
  distinct : serial.Injective
  plain : ∀ host, '/' ∉ serial host

def Hosts.manager {Host : Type} (hosts : Hosts Host) (host : Host) : CorpusManager :=
  ⟨hosts.gcs_path, hosts.serial host⟩

/-- The operations of `UploadCorpusOutDir` that change the bucket, the removal of the lock apart: a
file of `UploadDir`, a move of `_ClassifyPriority3`, the report of a crash, and the measure. -/
inductive Work (Content : Type) where
  | upload (local_temp_dir path : Name) (content : Content)
  | move (local_temp_dir : Name) (src_dir dest_dir : DirType) (src_corpus : Name)
  | trigger (local_temp_dir uuid : Name) (content : Content)
  | measure (local_measure_file : Name) (content : Content)

/-- The operations of a host, and the return of `FetchCorpusSeed`. -/
inductive Event (Host Content : Type) where
  | check (host : Host)
  | add_lock (host : Host) (content : Content)
  | fetched (host : Host)
  | work (host : Host) (work : Work Content)
  | remove_lock (host : Host)

/-- The bucket, and where the hosts are. -/
structure Shared (Host Content : Type) where
  bucket : Bucket Content
  phase : Host → Phase

/-- Where `_ClassifyPriority3` moves files from. -/
def DirType.movedFrom : DirType → Bool
  | corpus_seed | incoming_child => true
  | _ => false

/-- Where `_ClassifyPriority3` moves files to. -/
def DirType.movedTo : DirType → Bool
  | corpus_seed | corpus_complete => true
  | corpus_seed_numbered number => decide (number < 100)
  | _ => false

/-- The bucket after an operation of `UploadCorpusOutDir`. -/
def Work.apply {Content : Type} (manager : CorpusManager) (test_name : TestName)
    (bucket : Bucket Content) : Work Content → Bucket Content
  | upload local_temp_dir path content =>
    manager.uploadCorpus bucket test_name local_temp_dir [(path, content)]
  | move local_temp_dir src_dir dest_dir src_corpus =>
    if src_dir.movedFrom && dest_dir.movedTo &&
        (manager.GetDirPaths src_dir test_name local_temp_dir).isPrefixOf src_corpus then
      (bucket.MoveFile src_corpus (manager.GetFilePaths dest_dir test_name src_corpus)).2
    else bucket
  | trigger local_temp_dir uuid content =>
    manager.UploadTriggeredCorpus bucket test_name local_temp_dir (some (uuid, content))
  | measure local_measure_file content =>
    bucket.UploadFile (join (manager.GetDirPaths .corpus_measure test_name [])
      [basename local_measure_file]) content

namespace Shared

variable {Host Content : Type} [DecidableEq Host]

def start (bucket : Bucket Content) : Shared Host Content := ⟨bucket, fun _ => .idle⟩

def enter (state : Shared Host Content) (host : Host) (phase : Phase) : Shared Host Content :=
  { state with phase := Function.update state.phase host phase }

/-- A host is not within `FetchCorpusSeed`. -/
def outside (state : Shared Host Content) (host : Host) : Bool :=
  state.phase host = .idle || state.phase host = .holding

/-- One operation of one host. What a host cannot do where it is changes nothing. -/
def step (hosts : Hosts Host) (test_name : TestName) (state : Shared Host Content) :
    Event Host Content → Shared Host Content
  | .check host =>
    if state.outside host &&
        !state.bucket.PrefixExists ((hosts.manager host).GetDirPaths .corpus_lock test_name []) then
      state.enter host .checked
    else state
  | .add_lock host content =>
    if state.phase host = .checked then
      { state.enter host .fetching with
        bucket := state.bucket.UploadFile
          ((hosts.manager host).GetFilePaths .corpus_lock test_name []) content }
    else state
  | .fetched host => if state.phase host = .fetching then state.enter host .holding else state
  | .work host work =>
    if state.outside host then
      { state with bucket := work.apply (hosts.manager host) test_name state.bucket }
    else state
  | .remove_lock host =>
    if state.outside host then
      { state.enter host .idle with
        bucket := (state.bucket.DeleteFile
          ((hosts.manager host).GetFilePaths .corpus_lock test_name [])).2 }
    else state

/-- No host looks for locks while another one has looked and not yet uploaded its lock. -/
def Apart (state : Shared Host Content) : Event Host Content → Prop
  | .check host => ∀ other, other ≠ host → state.phase other ≠ .checked
  | _ => True

end Shared

namespace CorpusManager

variable {manager : CorpusManager} {test_name : TestName}

theorem lock_eq (plain : '/' ∉ manager.device_serial) (seed : Name) :
    manager.GetFilePaths .corpus_lock test_name seed =
      manager.area test_name ++ (test_name.name ++
        ("_corpus_lock/".toList ++ manager.device_serial)) := by
  have joined : manager.GetFilePaths .corpus_lock test_name seed =
      joinOne (manager.GetDirPaths .corpus_lock test_name []) manager.device_serial := rfl
  have stored : DirType.stored .corpus_lock = true := rfl
  rw [joined, joinOne_of_open (getDirPaths_open stored) (head_ne_of_plain plain),
    getDirPaths_eq stored, append_assoc, append_assoc]
  rfl

/-- What begins with another type than that of locks is no lock file. -/
theorem ne_lock_of_prefix {begin name serial : Name} (long : 9 ≤ begin.length)
    (other : begin.take 9 ≠ "_corpus_lock/".toList.take 9)
    (under : manager.area test_name ++ (test_name.name ++ begin) <+: name) :
    manager.area test_name ++ (test_name.name ++ ("_corpus_lock/".toList ++ serial)) ≠ name := by
  rintro rfl
  rw [prefix_append_right_inj, prefix_append_right_inj] at under
  exact not_prefix_of_take long (by decide) other serial under

/-- What is in the directory for incoming files is no lock file. -/
theorem ne_lock_of_incoming {name serial : Name}
    (under : manager.area test_name ++ "incoming/".toList <+: name) :
    manager.area test_name ++ (test_name.name ++ ("_corpus_lock/".toList ++ serial)) ≠ name := by
  rintro rfl
  have plain : '/' ∉ test_name.name ++ "_corpus_lock".toList := by
    rw [mem_append, not_or]
    exact ⟨test_name.plain, by decide⟩
  have long : 9 ≤ (test_name.name ++ "_corpus_lock".toList).length := by
    rw [length_append]
    exact Nat.le_trans (by decide) (Nat.le_add_left _ _)
  rw [prefix_append_right_inj] at under
  refine not_incoming plain long ('/' :: serial) ?_
  rw [append_assoc]
  exact under

theorem ne_lock_of_source {src_dir : DirType} (source : src_dir.movedFrom = true)
    {local_temp_dir src_corpus serial : Name}
    (under : manager.GetDirPaths src_dir test_name local_temp_dir <+: src_corpus) :
    manager.area test_name ++ (test_name.name ++ ("_corpus_lock/".toList ++ serial)) ≠
      src_corpus := by
  cases src_dir with
  | corpus_seed =>
    rw [getDirPaths_eq rfl] at under
    exact ne_lock_of_prefix (by decide) (by decide) under
  | incoming_child =>
    obtain ⟨rest, shape⟩ := @incoming_child_eq manager test_name local_temp_dir
    rw [shape, ← append_assoc] at under
    exact ne_lock_of_incoming ((prefix_append _ _).trans under)
  | _ => cases source

theorem ne_lock_of_target {dest_dir : DirType} (target : dest_dir.movedTo = true)
    (src_corpus : Name) {serial : Name} :
    manager.area test_name ++ (test_name.name ++ ("_corpus_lock/".toList ++ serial)) ≠
      manager.GetFilePaths dest_dir test_name src_corpus := by
  have stored : dest_dir.stored = true := by
    cases dest_dir with
    | corpus_seed_numbered number => exact target
    | corpus_seed => rfl
    | corpus_complete => rfl
    | _ => cases target
  have seeds : dest_dir ≠ .corpus_lock ∧ dest_dir ≠ .corpus_measure := by
    constructor <;> rintro rfl <;> cases target
  have long : 9 ≤ ('_' :: dest_dir.text).length ∧
      ('_' :: dest_dir.text).take 9 ≠ "_corpus_lock/".toList.take 9 := by
    cases dest_dir with
    | corpus_seed_numbered number =>
      have begins : ('_' :: DirType.text (.corpus_seed_numbered number)).take 9 =
          "_corpus_s".toList := rfl
      rw [begins]
      exact ⟨Nat.le_add_left 9 _, by decide⟩
    | corpus_seed => decide
    | corpus_complete => decide
    | _ => cases target
  rw [getFilePaths_eq stored seeds, getDirPaths_eq stored]
  exact ne_lock_of_prefix long.1 long.2 (prefix_append _ _)

theorem measure_eq (base : Name) :
    join (manager.GetDirPaths .corpus_measure test_name []) [basename base] =
      manager.area test_name ++ (test_name.name ++ ("_corpus_measure/".toList ++ basename base)) := by
  have stored : DirType.stored .corpus_measure = true := rfl
  have joined := joinOne_of_open (@getDirPaths_open manager test_name _ stored [])
    (head_ne_of_plain (not_mem_basename base))
  rw [getDirPaths_eq stored, append_assoc, append_assoc] at joined
  rw [getDirPaths_eq stored]
  exact joined

theorem ne_lock_measure (base serial : Name) :
    manager.area test_name ++ (test_name.name ++ ("_corpus_lock/".toList ++ serial)) ≠
      join (manager.GetDirPaths .corpus_measure test_name []) [basename base] := by
  have kept : manager.area test_name ++ (test_name.name ++ "_corpus_measure/".toList) <+:
      join (manager.GetDirPaths .corpus_measure test_name []) [basename base] := by
    rw [measure_eq]
    exact ⟨basename base, by simp only [append_assoc]⟩
  exact ne_lock_of_prefix (by decide) (by decide) kept

/-- The report of a crash is no lock. -/
theorem ne_lock_trigger (seed uuid serial : Name) :
    manager.area test_name ++ (test_name.name ++ ("_corpus_lock/".toList ++ serial)) ≠
      manager.GetFilePaths .corpus_trigger test_name seed ++ uuid := by
  have stored : DirType.stored .corpus_trigger = true := rfl
  have kept : manager.area test_name ++ (test_name.name ++ '_' :: DirType.text .corpus_trigger) <+:
      manager.GetFilePaths .corpus_trigger test_name seed ++ uuid := by
    rw [getFilePaths_eq stored ⟨by decide, by decide⟩, getDirPaths_eq stored]
    exact (prefix_append _ _).trans (prefix_append _ _)
  exact ne_lock_of_prefix (by decide) (by decide) kept

/-- An uploaded file of a run is no lock. -/
theorem ne_lock_upload (local_temp_dir path serial : Name) :
    manager.area test_name ++ (test_name.name ++ ("_corpus_lock/".toList ++ serial)) ≠
      join (manager.GetDirPaths .incoming_parent test_name local_temp_dir)
        [basename (manager.GetDirPaths .local_corpus_out test_name local_temp_dir) ++ '/' ::
          path] := by
  obtain ⟨rest, shape⟩ := @incoming_child_eq manager test_name local_temp_dir
  refine ne_lock_of_incoming ?_
  rw [upload_name, shape, ← append_assoc, append_assoc]
  exact prefix_append _ _

/-- An operation of `UploadCorpusOutDir` adds and removes no lock. -/
theorem lock_mem_apply_iff {Content : Type} {bucket : Bucket Content} {serial : Name}
    (work : Work Content) :
    manager.area test_name ++ (test_name.name ++ ("_corpus_lock/".toList ++ serial)) ∈
        (work.apply manager test_name bucket).names ↔
      manager.area test_name ++ (test_name.name ++ ("_corpus_lock/".toList ++ serial)) ∈
        bucket.names := by
  cases work with
  | upload local_temp_dir path content =>
    exact Bucket.mem_names_upload.trans (or_iff_left (ne_lock_upload local_temp_dir path serial))
  | trigger local_temp_dir uuid content =>
    exact Bucket.mem_names_upload.trans (or_iff_left (ne_lock_trigger _ uuid serial))
  | measure local_measure_file content =>
    exact Bucket.mem_names_upload.trans (or_iff_left (ne_lock_measure local_measure_file serial))
  | move local_temp_dir src_dir dest_dir src_corpus =>
    rw [Work.apply]
    split
    · rename_i allowed
      rw [Bool.and_eq_true, Bool.and_eq_true, isPrefixOf_iff_prefix] at allowed
      obtain ⟨⟨source, target⟩, under⟩ := allowed
      exact Bucket.mem_names_move (ne_lock_of_source source under)
        (ne_lock_of_target target src_corpus)
    · exact Iff.rfl

end CorpusManager

namespace Shared

variable {Host Content : Type} {hosts : Hosts Host} {test_name : TestName}
  {state : Shared Host Content}

/-- The name of the lock file of a host. -/
def lockName (hosts : Hosts Host) (test_name : TestName) (host : Host) : Name :=
  (hosts.manager host).GetFilePaths .corpus_lock test_name []

theorem lockName_eq (hosts : Hosts Host) (test_name : TestName) (host other : Host) :
    lockName hosts test_name host = (hosts.manager other).area test_name ++
      (test_name.name ++ ("_corpus_lock/".toList ++ hosts.serial host)) :=
  CorpusManager.lock_eq (hosts.plain host) []

theorem lockName_injective {first second : Host}
    (same : lockName hosts test_name first = lockName hosts test_name second) : first = second := by
  rw [lockName_eq hosts test_name first first, lockName_eq hosts test_name second first] at same
  exact hosts.distinct (append_cancel_left
    (append_cancel_left (append_cancel_left same)))

/-- A host that has uploaded its lock has a lock file. -/
def Locked (hosts : Hosts Host) (test_name : TestName) (state : Shared Host Content) : Prop :=
  ∀ host, state.phase host = .fetching ∨ state.phase host = .holding →
    lockName hosts test_name host ∈ state.bucket.names

/-- A host that has uploaded its lock has a lock file, and no two hosts are on the way from the
look for locks to the removal of the lock. -/
structure Exclusive (hosts : Hosts Host) (test_name : TestName) (state : Shared Host Content) :
    Prop where
  locked : ∀ host, state.phase host = .fetching ∨ state.phase host = .holding →
    lockName hosts test_name host ∈ state.bucket.names
  alone : ∀ first second, state.phase first ≠ .idle → state.phase second ≠ .idle → first = second

theorem exclusive_start (bucket : Bucket Content) :
    (start bucket : Shared Host Content).Exclusive hosts test_name where
  locked host engaged := by rcases engaged with no | no <;> cases no
  alone _ _ engaged := absurd rfl engaged

theorem Exclusive.unlocked (exclusive : state.Exclusive hosts test_name) {host : Host}
    (none : state.bucket.PrefixExists ((hosts.manager host).GetDirPaths .corpus_lock test_name []) =
      false) (other : Host) : state.phase other ≠ .fetching ∧ state.phase other ≠ .holding := by
  rw [← not_or]
  intro engaged
  have stored : DirType.stored .corpus_lock = true := rfl
  have found : state.bucket.PrefixExists
      ((hosts.manager host).GetDirPaths .corpus_lock test_name []) = true := by
    refine (Bucket.prefixExists_iff (CorpusManager.getDirPaths_open stored).2).mpr
      ⟨_, exclusive.locked other engaged, ?_⟩
    rw [lockName_eq hosts test_name other host, CorpusManager.getDirPaths_eq stored]
    refine ⟨hosts.serial other, ?_⟩
    rw [append_assoc, append_assoc, append_assoc]
    rfl
  rw [none] at found
  cases found

variable [DecidableEq Host]

@[simp] theorem enter_self (host : Host) (phase : Phase) :
    (state.enter host phase).phase host = phase :=
  Function.update_self _ _ _

theorem enter_other {host other : Host} (apart : other ≠ host) (phase : Phase) :
    (state.enter host phase).phase other = state.phase other :=
  Function.update_of_ne apart _ _

/-- A host that was on the way, or leaves it, is no new one on it. -/
theorem Exclusive.alone_enter (exclusive : state.Exclusive hosts test_name) {host : Host}
    {phase : Phase} (old : state.phase host ≠ .idle ∨ phase = .idle) (first second : Host)
    (engaged : (state.enter host phase).phase first ≠ .idle)
    (engagedToo : (state.enter host phase).phase second ≠ .idle) : first = second := by
  have before : ∀ other, (state.enter host phase).phase other ≠ .idle →
      state.phase other ≠ .idle := by
    intro other now
    by_cases same : other = host
    · rw [same, enter_self] at now
      rw [same]
      exact old.resolve_right now
    · rwa [enter_other same] at now
  exact exclusive.alone first second (before first engaged) (before second engagedToo)

/-- A host that looks for locks, and sees none, is alone on the way. -/
theorem Exclusive.alone_check (exclusive : state.Exclusive hosts test_name) {host : Host}
    (apart : ∀ other, other ≠ host → state.phase other ≠ .checked)
    (none : state.bucket.PrefixExists ((hosts.manager host).GetDirPaths .corpus_lock test_name []) =
      false) (first second : Host) (engaged : (state.enter host .checked).phase first ≠ .idle)
    (engagedToo : (state.enter host .checked).phase second ≠ .idle) : first = second := by
  have idle : ∀ other, other ≠ host → state.phase other = .idle := by
    intro other different
    obtain ⟨notFetching, notHolding⟩ := exclusive.unlocked none other
    have notChecked := apart other different
    cases phase : state.phase other with
    | idle => rfl
    | checked => exact absurd phase notChecked
    | fetching => exact absurd phase notFetching
    | holding => exact absurd phase notHolding
  have only : ∀ other, (state.enter host .checked).phase other ≠ .idle → other = host := by
    intro other engaged
    by_contra different
    rw [enter_other different] at engaged
    exact engaged (idle other different)
  exact (only first engaged).trans (only second engagedToo).symm

theorem Locked.enter (locked : state.Locked hosts test_name) {host : Host} {phase : Phase}
    (known : phase = .fetching ∨ phase = .holding →
      lockName hosts test_name host ∈ state.bucket.names) :
    (state.enter host phase).Locked hosts test_name := by
  intro other engaged
  by_cases same : other = host
  · rw [same, enter_self] at engaged
    exact same ▸ known engaged
  · rw [enter_other same] at engaged
    exact locked other engaged

/-- A step takes no lock file from a host that needs it. -/
theorem Locked.step (locked : state.Locked hosts test_name) (event : Event Host Content) :
    (state.step hosts test_name event).Locked hosts test_name := by
  cases event with
  | check host =>
    rw [Shared.step]
    split
    · exact locked.enter (by rintro (no | no) <;> cases no)
    · exact locked
  | add_lock host content =>
    rw [Shared.step]
    split
    · intro other engaged
      refine Bucket.mem_names_upload.mpr ?_
      by_cases same : other = host
      · exact .inr (congrArg (lockName hosts test_name) same)
      · refine .inl (locked other ?_)
        change (state.enter host .fetching).phase other = _ ∨
          (state.enter host .fetching).phase other = _ at engaged
        rwa [enter_other same] at engaged
    · exact locked
  | fetched host =>
    rw [Shared.step]
    split
    · rename_i fetching
      exact locked.enter fun _ => locked host (.inl fetching)
    · exact locked
  | work host work =>
    rw [Shared.step]
    split
    · intro other engaged
      have before := locked other engaged
      rw [lockName_eq hosts test_name other host] at before ⊢
      exact (CorpusManager.lock_mem_apply_iff work).mpr before
    · exact locked
  | remove_lock host =>
    rw [Shared.step]
    split
    · intro other engaged
      change (state.enter host .idle).phase other = _ ∨
        (state.enter host .idle).phase other = _ at engaged
      have different : other ≠ host := by
        rintro rfl
        rw [enter_self] at engaged
        rcases engaged with no | no <;> cases no
      rw [enter_other different] at engaged
      exact Bucket.mem_names_delete.mpr
        ⟨locked other engaged, fun same => different (lockName_injective same)⟩
    · exact locked

/-- A step that meets the condition keeps the hosts apart. -/
theorem Exclusive.step (exclusive : state.Exclusive hosts test_name) {event : Event Host Content}
    (apart : state.Apart event) : (state.step hosts test_name event).Exclusive hosts test_name := by
  refine ⟨Locked.step exclusive.locked event, ?_⟩
  cases event with
  | check host =>
    rw [Shared.step]
    split
    · rename_i free
      rw [Bool.and_eq_true, Bool.not_eq_true'] at free
      exact exclusive.alone_check apart free.2
    · exact exclusive.alone
  | add_lock host content =>
    rw [Shared.step]
    split
    · rename_i checked
      exact exclusive.alone_enter (.inl (by rw [checked]; decide))
    · exact exclusive.alone
  | fetched host =>
    rw [Shared.step]
    split
    · rename_i fetching
      exact exclusive.alone_enter (.inl (by rw [fetching]; decide))
    · exact exclusive.alone
  | work host work =>
    rw [Shared.step]
    split <;> exact exclusive.alone
  | remove_lock host =>
    rw [Shared.step]
    split
    · exact exclusive.alone_enter (.inr rfl)
    · exact exclusive.alone

/-- In every run, whatever the order of the steps, a host that has uploaded its lock has its lock file
until it removes it itself. -/
theorem lock_kept (bucket : Bucket Content) (events : List (Event Host Content)) :
    (run (Shared.step hosts test_name) (start bucket) events).Locked hosts test_name := by
  have begins : (start bucket : Shared Host Content).Locked hosts test_name :=
    (exclusive_start bucket).locked
  induction events using List.reverseRecOn with
  | nil => exact begins
  | append_singleton events event ih =>
    rw [run_append]
    exact ih.step event

/-- In every run in which no host looks for locks while another one has looked and not yet uploaded
its lock, at most one host is between a fetch that returned and the removal of its lock. -/
theorem corpus_lock_excludes {bucket : Bucket Content} {events : List (Event Host Content)}
    (apart : AllMeet (Shared.step hosts test_name) Apart (start bucket) events)
    {first second : Host}
    (holding : (run (Shared.step hosts test_name) (start bucket) events).phase first = .holding)
    (holdingToo : (run (Shared.step hosts test_name) (start bucket) events).phase second =
      .holding) : first = second := by
  have exclusive := apart.invariant
    (fun _ _ (kept : Exclusive hosts test_name _) meets => kept.step meets)
    (exclusive_start bucket)
  exact exclusive.alone first second (by rw [holding]; decide) (by rw [holdingToo]; decide)

/-- Two hosts. -/
def twoHosts : Hosts Bool where
  gcs_path := "corpus/PPR1/walleye".toList
  serial host := if host then "HT7BF1A01613".toList else "HT7BF1A01614".toList
  distinct := by
    unfold Function.Injective
    decide
  plain := by decide

def light : TestName := ⟨"ILight".toList, by decide, by decide⟩

/-- One host fetches, and then the other one finds the test locked. -/
def oneAfterTheOther : List (Event Bool Unit) :=
  [.check true, .add_lock true (), .fetched true, .check false]

theorem corpus_lock_excludes_other :
    AllMeet (step twoHosts light) Apart (start .empty) oneAfterTheOther ∧
      (run (step twoHosts light) (start .empty) oneAfterTheOther).phase true = .holding ∧
      ∀ host, (run (step twoHosts light) (start .empty) oneAfterTheOther).phase host = .holding →
        host = true := by
  have apart : AllMeet (step twoHosts light) Apart (start .empty) oneAfterTheOther := by
    unfold oneAfterTheOther AllMeet Apart
    refine ⟨?_, trivial, trivial, ?_, trivial⟩
    · decide
    · decide +kernel
  have holding : (run (step twoHosts light) (start .empty) oneAfterTheOther).phase true =
      .holding := by
    decide +kernel
  exact ⟨apart, holding, fun _ also => corpus_lock_excludes apart also holding⟩

/-- Both hosts look for locks before either uploads its own. -/
theorem corpus_lock_excludes_both :
    ∃ events : List (Event Bool Unit),
      (run (step twoHosts light) (start .empty) events).phase true = .holding ∧
        (run (step twoHosts light) (start .empty) events).phase false = .holding := by
  refine ⟨[.check true, .check false, .add_lock true (), .add_lock false (), .fetched true,
    .fetched false], ?_⟩
  decide +kernel

end Shared

end Vts.Corpus
