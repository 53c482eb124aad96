import Vts.Corpus.Lock

/-!
# The release of the lock

`UploadCorpusOutDir` of `utils/python/fuzzer/corpus_manager.py` with `_ClassifyPriority`,
`remove_lock` and `_UploadCorpusMeasure`, for the scheduling algorithm that is set, the third one,
which is also the only one that uses locks. The host removes its lock where the files of its run are
classified, and files are classified only when the directory with them exists.

Proved here: the lock of a host is gone when `UploadCorpusOutDir` returns exactly when this directory
exists. What the other hosts do does not matter: none of their operations adds or removes the lock.
-/

namespace Vts.Corpus

open Vts.Lib

/-! ## The upload -/

namespace CorpusManager

variable {Content : Type} (manager : CorpusManager)

def remove_lock (bucket : Bucket Content) (test_name : TestName) : Bucket Content :=
  (bucket.DeleteFile (manager.GetFilePaths .corpus_lock test_name [])).2

def _ClassifyPriority (bucket : Bucket Content) (test_name : TestName) (local_temp_dir : Name)
    (crash_report : Option (Name × Content)) : Nat × Bucket Content :=
  let (num_unique_corpus, bucket) :=
    manager.ClassifyPriority3 bucket test_name local_temp_dir crash_report
  (num_unique_corpus, manager.remove_lock bucket test_name)

/-- The name of the measure is made of the test and the time. -/
def _UploadCorpusMeasure (bucket : Bucket Content) (test_name : TestName)
    (local_temp_dir time : Name) (measure : Content) : Bucket Content :=
  let local_measure_file :=
    join local_temp_dir [test_name.name ++ '_' :: time ++ ".txt".toList]
  bucket.UploadFile (join (manager.GetDirPaths .corpus_measure test_name [])
    [basename local_measure_file]) measure

end CorpusManager

/-- What a run of a test leaves on the host: the files in the directory with the output by their
paths there, if the directory exists, the report of a crash with the name that it is given, and the
time of the measure. -/
structure Output (Content : Type) where
  local_temp_dir : Name
  corpus_out : Option (List (Name × Content))
  crash_report : Option (Name × Content)
  time : Name
  measure : Nat → Content

namespace CorpusManager

variable {Content : Type}

/-- Whether the upload was successful, and the bucket afterwards. -/
def UploadCorpusOutDir (manager : CorpusManager) (bucket : Bucket Content) (test_name : TestName)
    (output : Output Content) : Bool × Bucket Content :=
  match output.corpus_out with
  | some files =>
    let bucket := manager.uploadCorpus bucket test_name output.local_temp_dir files
    let (num_unique_corpus, bucket) :=
      manager._ClassifyPriority bucket test_name output.local_temp_dir output.crash_report
    (true, manager._UploadCorpusMeasure bucket test_name output.local_temp_dir output.time
      (output.measure num_unique_corpus))
  | none => (false, bucket)

end CorpusManager

/-! ## The other hosts -/

namespace Shared

variable {Host Content : Type} {hosts : Hosts Host} {test_name : TestName}

end Shared

/-! ## When the lock is released -/

namespace Shared

variable {Host Content : Type}

/-- When `UploadCorpusOutDir` of a host that has the lock returns, the lock is gone exactly when the
directory with the output exists. -/
theorem lock_released_iff (hosts : Hosts Host) (test_name : TestName) (host : Host)
    {bucket : Bucket Content} (locked : lockName hosts test_name host ∈ bucket.names)
    (output : Output Content) :
    lockName hosts test_name host ∉
        ((hosts.manager host).UploadCorpusOutDir bucket test_name output).2.names ↔
      output.corpus_out.isSome = true := by
  unfold CorpusManager.UploadCorpusOutDir
  cases output.corpus_out with
  | none => exact ⟨fun gone => absurd locked gone, fun no => nomatch no⟩
  | some files =>
    refine ⟨fun _ => rfl, fun _ listed => ?_⟩
    -- the measure is uploaded after the lock is removed
    have before := (Bucket.mem_names_upload.mp listed).resolve_right (by
      rw [lockName_eq hosts test_name host host]
      exact CorpusManager.ne_lock_measure _ (hosts.serial host))
    exact (Bucket.mem_names_delete.mp before).2 rfl

/-- A run on a host without a crash. -/
def quietRun (corpus_out : Option (List (Name × Nat))) : Output Nat :=
  ⟨"/tmp/tmpV1oPTp".toList, corpus_out, none, "2018-06-01-1200".toList, id⟩

/-- The bucket with the lock of a host. -/
def lockedBucket : Bucket Nat := Bucket.empty.UploadFile (lockName twoHosts light true) 0

theorem lock_released_empty :
    lockName twoHosts light true ∈ lockedBucket.names ∧
      lockName twoHosts light true ∉ ((twoHosts.manager true).UploadCorpusOutDir lockedBucket light
        (quietRun (some []))).2.names := by
  have locked : lockName twoHosts light true ∈ lockedBucket.names :=
    Bucket.mem_names_upload.mpr (.inr rfl)
  exact ⟨locked, (lock_released_iff twoHosts light true locked _).mpr rfl⟩

/-- Without the directory the lock stays, and the other host is refused. -/
theorem lock_released_missing :
    lockName twoHosts light true ∈ lockedBucket.names ∧
      (twoHosts.manager true).UploadCorpusOutDir lockedBucket light (quietRun none) =
        (false, lockedBucket) ∧
      ((twoHosts.manager true).UploadCorpusOutDir lockedBucket light
        (quietRun none)).2.PrefixExists
          ((twoHosts.manager false).GetDirPaths .corpus_lock light []) = true :=
  ⟨Bucket.mem_names_upload.mpr (.inr rfl), rfl, by decide +kernel⟩

end Shared

end Vts.Corpus
