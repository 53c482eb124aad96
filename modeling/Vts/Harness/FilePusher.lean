import Vts.Harness.PushGroups

/-!
# Pushing files and removing them

`pushFileGroups` and `tearDown` of
`harnesses/tradefed/src/com/android/compatibility/common/tradefed/targetprep/VtsFilePusher.java`,
for the specifications that `loadFilePushGroups` gives. What there is under a path of the host and
what the device answers to a push are parameters. A directory that was pushed is pushed once more as
a file, and after a failure nothing is known of what was pushed before.

Proved here: the calls, the failure and the removals are right exactly when no specification that
cannot be parsed is reached, no directory is pushed successfully, nothing was pushed before a push
fails, and the device is there when something is to be removed.
-/

namespace Vts.Harness.FilePusher

open List

open Vts.Harness.PushGroups (JavaString normalize File)

/-! ## The host and the device -/

/-- A directory or a plain file. -/
inductive Kind where
  | directory
  | file
deriving DecidableEq

/-- The directory of the tests, the bitness that is appended to names, and what there is under a
path. -/
structure Host where
  testsDir : JavaString
  bitness : JavaString
  kind : JavaString → Option Kind

/-- A call of `pushDir` or `pushFile`. -/
structure Transfer where
  kind : Kind
  src : JavaString
  target : JavaString
deriving DecidableEq

/-- The calls that were made, each with what the device has answered. -/
abbrev Log := List (Transfer × Bool)

/-- What the device answers to a call, which may depend on the calls before it. -/
abbrev Device := Log → Transfer → Bool

/-- A call. -/
def Device.push (device : Device) (log : Log) (transfer : Transfer) : Log :=
  log ++ [(transfer, device log transfer)]

/-! ## Specifications -/

/-- The pieces of a text between arrows. -/
def pieces : JavaString → List JavaString
  | [] => [[]]
  | '-' :: '>' :: rest => [] :: pieces rest
  | char :: rest =>
    match pieces rest with
    | [] => [[char]]
    | piece :: others => (char :: piece) :: others

/-- `pushspec.split("->")`: empty pieces at the end are left out. -/
def split (pushspec : JavaString) : List JavaString :=
  match pieces pushspec with
  | [whole] => [whole]
  | many => many.rdropWhile (· = [])

example : split "data/lib->/data/local/tmp".toList =
    ["data/lib".toList, "/data/local/tmp".toList] := by decide

example : split "data/lib->".toList = ["data/lib".toList] := by decide

variable (host : Host)

/-- The file that is pushed. -/
def source (name : JavaString) : JavaString :=
  if name.head? = some '/' then normalize name else File host.testsDir (name ++ host.bitness)

/-- What a specification comes to. -/
inductive Spec where
  | malformed
  | missing
  | found (kind : Kind) (src target : JavaString)

def readSpec (pushspec : JavaString) : Spec :=
  match split pushspec with
  | [name, target] =>
    match host.kind (source host name) with
    | none => .missing
    | some kind => .found kind (source host name) target
  | _ => .malformed

/-! ## The methods -/

inductive TargetSetupError where
  | parse (pushspec : JavaString)
  | push (pushspec : JavaString)
deriving DecidableEq

/-- What is left of a set-up: the calls, `mFilesPushed`, and the error that was thrown. -/
structure Outcome where
  log : Log
  mFilesPushed : Option (Finset JavaString)
  error : Option TargetSetupError
deriving DecidableEq

/-- The loop over the specifications. -/
def pushLoop (device : Device) : List JavaString → Log → Finset JavaString → Outcome
  | [], log, mFilesPushed => ⟨log, some mFilesPushed, none⟩
  | pushspec :: pushspecs, log, mFilesPushed =>
    match readSpec host pushspec with
    | .malformed => ⟨log, some mFilesPushed, some (.parse pushspec)⟩
    | .missing => pushLoop device pushspecs log mFilesPushed
    | .found kind src target =>
      let directory : Transfer := ⟨.directory, src, target⟩
      let file : Transfer := ⟨.file, src, target⟩
      -- A call that follows `||`: it is made for directories too, once they are pushed.
      let afterDir := if kind = .directory then device.push log directory else log
      if kind = .directory ∧ device log directory = false then
        ⟨afterDir, none, some (.push pushspec)⟩
      else
        let afterFile := device.push afterDir file
        if device afterDir file = false then ⟨afterFile, none, some (.push pushspec)⟩
        else pushLoop device pushspecs afterFile (insert target mFilesPushed)

def pushFileGroups (device : Device) (pushspecs : List JavaString) : Outcome :=
  pushLoop host device pushspecs [] ∅

/-- The device paths for which `rm -r` is executed. -/
def tearDown (outcome : Outcome) (deviceNotAvailable mPushGroupCleanup : Bool) :
    Finset JavaString :=
  match outcome.mFilesPushed with
  | some mFilesPushed => if !deviceNotAvailable && mPushGroupCleanup then mFilesPushed else ∅
  | none => ∅

/-! ## What should be done -/

/-- The transfers that the specifications call for: each existing source once, by its kind. -/
def transfers (pushspecs : List JavaString) : List Transfer :=
  pushspecs.filterMap fun pushspec =>
    match readSpec host pushspec with
    | .found kind src target => some ⟨kind, src, target⟩
    | _ => none

/-- The sources are transferred as they should until one transfer fails, the set-up fails exactly if
one does, and what was transferred is removed in a following tear-down with clean-up. -/
structure Right (device : Device) (pushspecs : List JavaString) (deviceNotAvailable : Bool) :
    Prop where
  called : (pushFileGroups host device pushspecs).log.map Prod.fst <+: transfers host pushspecs
  complete : (pushFileGroups host device pushspecs).error = none →
    (pushFileGroups host device pushspecs).log.map Prod.fst = transfers host pushspecs
  failed : (pushFileGroups host device pushspecs).error ≠ none ↔
    ∃ entry ∈ (pushFileGroups host device pushspecs).log, entry.2 = false
  removed : ∀ entry ∈ (pushFileGroups host device pushspecs).log, entry.2 = true →
    entry.1.target ∈ tearDown (pushFileGroups host device pushspecs) deviceNotAvailable true

/-- How transfers that are made one after the other, each by its kind, come to an end. -/
inductive End where
  | complete
  | malformed
  | failed
deriving DecidableEq

/-- The transfers that follow those in the log, until one fails or a specification cannot be
parsed. -/
def transferAll (device : Device) : List JavaString → Log → Log × End
  | [], _ => ([], .complete)
  | pushspec :: pushspecs, log =>
    match readSpec host pushspec with
    | .malformed => ([], .malformed)
    | .missing => transferAll device pushspecs log
    | .found kind src target =>
      let transfer : Transfer := ⟨kind, src, target⟩
      if device log transfer = false then ([(transfer, false)], .failed)
      else
        let (later, ending) := transferAll device pushspecs (device.push log transfer)
        ((transfer, true) :: later, ending)

/-- All specifications that are reached can be parsed, no directory is pushed successfully, and
nothing is pushed successfully where a transfer fails or the device is not there for a tear-down. -/
structure Meets (device : Device) (pushspecs : List JavaString) (deviceNotAvailable : Bool) :
    Prop where
  parsed : (transferAll host device pushspecs []).2 ≠ .malformed
  files : ∀ entry ∈ (transferAll host device pushspecs []).1, entry.2 = true →
    entry.1.kind = .file
  first : (transferAll host device pushspecs []).2 = .failed ∨ deviceNotAvailable = true →
    ∀ entry ∈ (transferAll host device pushspecs []).1, entry.2 = false

/-! ## The transfers one after the other -/

section

variable {host} {device : Device} {pushspec : JavaString} {pushspecs : List JavaString} {log : Log}
  {mFilesPushed : Finset JavaString} {kind : Kind} {src target : JavaString}

theorem transferAll_malformed (read : readSpec host pushspec = .malformed) :
    transferAll host device (pushspec :: pushspecs) log = ([], .malformed) := by
  simp only [transferAll, read]

theorem transferAll_missing (read : readSpec host pushspec = .missing) :
    transferAll host device (pushspec :: pushspecs) log =
      transferAll host device pushspecs log := by
  simp only [transferAll, read]

section

variable (read : readSpec host pushspec = .found kind src target)
include read

theorem transferAll_failed (refused : device log ⟨kind, src, target⟩ = false) :
    transferAll host device (pushspec :: pushspecs) log =
      ([(⟨kind, src, target⟩, false)], .failed) := by
  simp only [transferAll, read, refused, if_true]

theorem transferAll_pushed (pushed : device log ⟨kind, src, target⟩ = true) :
    transferAll host device (pushspec :: pushspecs) log =
      ((⟨kind, src, target⟩, true) ::
          (transferAll host device pushspecs (log ++ [(⟨kind, src, target⟩, true)])).1,
        (transferAll host device pushspecs (log ++ [(⟨kind, src, target⟩, true)])).2) := by
  simp only [transferAll, read, Device.push, pushed, Bool.true_eq_false, if_false]

/-- The kind of a source is what there is under its path. -/
theorem kind_of_found : host.kind src = some kind := by
  unfold readSpec at read
  split at read
  · split at read
    · cases read
    · next found =>
      cases read
      exact found
  · cases read

end

theorem kind_of_mem_transfers {transfer : Transfer} (listed : transfer ∈ transfers host pushspecs) :
    host.kind transfer.src = some transfer.kind := by
  obtain ⟨pushspec, -, wanted⟩ := mem_filterMap.mp listed
  split at wanted
  · next read =>
    cases wanted
    exact kind_of_found read
  · cases wanted

theorem transfers_found (read : readSpec host pushspec = .found kind src target) :
    transfers host (pushspec :: pushspecs) = ⟨kind, src, target⟩ :: transfers host pushspecs := by
  simp only [transfers, filterMap_cons, read]

theorem transfers_missing (read : readSpec host pushspec = .missing) :
    transfers host (pushspec :: pushspecs) = transfers host pushspecs := by
  simp only [transfers, filterMap_cons, read]

/-- Each existing source is transferred once by its kind, until one transfer fails. -/
theorem transferAll_spec (pushspecs : List JavaString) (log : Log) :
    (transferAll host device pushspecs log).1.map Prod.fst <+: transfers host pushspecs ∧
      ((transferAll host device pushspecs log).2 = .complete →
        (transferAll host device pushspecs log).1.map Prod.fst = transfers host pushspecs) ∧
      ((transferAll host device pushspecs log).2 = .failed ↔
        ∃ entry ∈ (transferAll host device pushspecs log).1, entry.2 = false) := by
  induction pushspecs generalizing log with
  | nil => simp [transferAll, transfers]
  | cons pushspec pushspecs ih =>
    cases read : readSpec host pushspec with
    | malformed =>
      rw [transferAll_malformed read]
      simp
    | missing =>
      rw [transferAll_missing read, transfers_missing read]
      exact ih log
    | found kind src target =>
      rw [transfers_found read]
      cases answer : device log ⟨kind, src, target⟩ with
      | false =>
        rw [transferAll_failed read answer]
        simp
      | true =>
        rw [transferAll_pushed read answer]
        obtain ⟨called, complete, failed⟩ :=
          ih (log ++ [(⟨kind, src, target⟩, true)])
        refine ⟨cons_prefix_cons.mpr ⟨rfl, called⟩, ?_, ?_⟩
        · intro ended
          exact congrArg _ (complete ended)
        · simpa using failed

/-! ## The loop -/

theorem pushLoop_malformed (read : readSpec host pushspec = .malformed) :
    pushLoop host device (pushspec :: pushspecs) log mFilesPushed =
      ⟨log, some mFilesPushed, some (.parse pushspec)⟩ := by
  simp only [pushLoop, read]

theorem pushLoop_missing (read : readSpec host pushspec = .missing) :
    pushLoop host device (pushspec :: pushspecs) log mFilesPushed =
      pushLoop host device pushspecs log mFilesPushed := by
  simp only [pushLoop, read]

/-- A transfer that fails by the kind of its source. -/
theorem pushLoop_failed (read : readSpec host pushspec = .found kind src target)
    (refused : device log ⟨kind, src, target⟩ = false) :
    pushLoop host device (pushspec :: pushspecs) log mFilesPushed =
      ⟨log ++ [(⟨kind, src, target⟩, false)], none, some (.push pushspec)⟩ := by
  cases kind with
  | directory | file => simp [pushLoop, read, refused, Device.push]

theorem pushLoop_file (read : readSpec host pushspec = .found .file src target)
    (pushed : device log ⟨.file, src, target⟩ = true) :
    pushLoop host device (pushspec :: pushspecs) log mFilesPushed =
      pushLoop host device pushspecs (log ++ [(⟨.file, src, target⟩, true)])
        (insert target mFilesPushed) := by
  simp [pushLoop, read, pushed, Device.push]

/-- The log only grows. -/
theorem log_prefix_pushLoop (pushspecs : List JavaString) (log : Log)
    (mFilesPushed : Finset JavaString) :
    log <+: (pushLoop host device pushspecs log mFilesPushed).log := by
  induction pushspecs generalizing log mFilesPushed with
  | nil => exact prefix_rfl
  | cons pushspec pushspecs ih =>
    cases read : readSpec host pushspec with
    | malformed => simp only [pushLoop, read, prefix_rfl]
    | missing =>
      rw [pushLoop_missing read]
      exact ih log mFilesPushed
    | found kind src target =>
      simp only [pushLoop, read, Device.push]
      have grown := fun entries files =>
        (prefix_append log entries).trans (ih (log ++ entries) files)
      split_ifs <;> simp only [append_assoc, prefix_append, grown, prefix_rfl]

theorem pushLoop_directory (read : readSpec host pushspec = .found .directory src target)
    (pushed : device log ⟨.directory, src, target⟩ = true) :
    ∃ answer later, (pushLoop host device (pushspec :: pushspecs) log mFilesPushed).log =
      log ++ (⟨.directory, src, target⟩, true) :: (⟨.file, src, target⟩, answer) :: later := by
  cases answer : device (log ++ [(⟨.directory, src, target⟩, true)]) ⟨.file, src, target⟩ with
  | false =>
    refine ⟨false, [], ?_⟩
    simp [pushLoop, read, pushed, answer, Device.push]
  | true =>
    have grown := @log_prefix_pushLoop host device pushspecs
      (log ++ [(⟨.directory, src, target⟩, true)] ++ [(⟨.file, src, target⟩, true)])
      (insert target mFilesPushed)
    obtain ⟨later, whole⟩ := grown
    refine ⟨true, later, ?_⟩
    simp only [append_assoc, cons_append, nil_append] at whole
    simp [pushLoop, read, pushed, answer, Device.push, ← whole]

/-- Where only files are pushed successfully, the loop makes the transfers that it should. It knows
what was pushed unless one of them fails. -/
theorem pushLoop_agrees (pushspecs : List JavaString) (log : Log) (mFilesPushed : Finset JavaString)
    (files : ∀ entry ∈ (transferAll host device pushspecs log).1, entry.2 = true →
      entry.1.kind = .file) :
    let wanted := transferAll host device pushspecs log
    let outcome := pushLoop host device pushspecs log mFilesPushed
    outcome.log = log ++ wanted.1 ∧ (outcome.error = none ↔ wanted.2 = .complete) ∧
      (wanted.2 = .failed → outcome.mFilesPushed = none) ∧
      (wanted.2 ≠ .failed → ∃ pushed, outcome.mFilesPushed = some pushed ∧ mFilesPushed ⊆ pushed ∧
        ∀ entry ∈ wanted.1, entry.2 = true → entry.1.target ∈ pushed) := by
  induction pushspecs generalizing log mFilesPushed with
  | nil => simp [transferAll, pushLoop]
  | cons pushspec pushspecs ih =>
    cases read : readSpec host pushspec with
    | malformed =>
      rw [transferAll_malformed read, pushLoop_malformed read]
      simp
    | missing =>
      rw [transferAll_missing read] at files ⊢
      rw [pushLoop_missing read]
      exact ih log mFilesPushed files
    | found kind src target =>
      cases answer : device log ⟨kind, src, target⟩ with
      | false =>
        rw [transferAll_failed read answer, pushLoop_failed read answer]
        simp
      | true =>
        rw [transferAll_pushed read answer] at files ⊢
        have isFile : kind = .file := files _ mem_cons_self rfl
        subst isFile
        have later := ih (log ++ [(⟨.file, src, target⟩, true)])
          (insert target mFilesPushed) fun entry listed =>
            files entry (mem_cons_of_mem _ listed)
        rw [pushLoop_file read answer]
        obtain ⟨logged, error, dropped, kept⟩ := later
        refine ⟨?_, error, dropped, ?_⟩
        · rw [logged, append_assoc, singleton_append]
        · intro unfailed
          obtain ⟨pushed, known, grown, each⟩ := kept unfailed
          obtain ⟨listed, before⟩ := Finset.insert_subset_iff.mp grown
          refine ⟨pushed, known, before, ?_⟩
          intro entry member succeeded
          rcases mem_cons.mp member with rfl | inside
          · exact listed
          · exact each entry inside succeeded

/-- Where a directory is pushed successfully, the loop makes a call that it should not. -/
theorem pushLoop_disagrees (pushspecs : List JavaString) (log : Log)
    (mFilesPushed : Finset JavaString)
    (directory : ∃ entry ∈ (transferAll host device pushspecs log).1,
      entry.2 = true ∧ entry.1.kind = .directory) :
    ¬ (pushLoop host device pushspecs log mFilesPushed).log.map Prod.fst <+:
      log.map Prod.fst ++ transfers host pushspecs := by
  induction pushspecs generalizing log mFilesPushed with
  | nil => simp [transferAll] at directory
  | cons pushspec pushspecs ih =>
    cases read : readSpec host pushspec with
    | malformed =>
      rw [transferAll_malformed read] at directory
      simp at directory
    | missing =>
      rw [transferAll_missing read] at directory
      rw [pushLoop_missing read, transfers_missing read]
      exact ih log mFilesPushed directory
    | found kind src target =>
      rw [transfers_found read]
      cases answer : device log ⟨kind, src, target⟩ with
      | false =>
        rw [transferAll_failed read answer] at directory
        simp at directory
      | true =>
        rw [transferAll_pushed read answer] at directory
        cases kind with
        | file =>
          obtain ⟨entry, listed, succeeded, isDirectory⟩ := directory
          have later := (mem_cons.mp listed).resolve_left fun own => by
            rw [own] at isDirectory
            cases isDirectory
          have goesOn := ih (log ++ [(⟨.file, src, target⟩, true)])
            (insert target mFilesPushed) ⟨entry, later, succeeded, isDirectory⟩
          rw [pushLoop_file read answer]
          simpa only [map_append, map_cons, map_nil, append_assoc,
            singleton_append] using goesOn
        | directory =>
          obtain ⟨again, later, logged⟩ := @pushLoop_directory host device pushspec pushspecs log
            mFilesPushed src target read answer
          rw [logged, map_append, prefix_append_right_inj]
          intro isPrefix
          obtain ⟨-, rest⟩ := cons_prefix_cons.mp isPrefix
          -- The second call is for a file, and there is a directory under its path.
          have wanted : (⟨.file, src, target⟩ : Transfer) ∈ transfers host pushspecs :=
            rest.mem mem_cons_self
          have kinds := (kind_of_mem_transfers wanted).symm.trans (kind_of_found read)
          cases kinds

theorem Right.meets {deviceNotAvailable : Bool}
    (right : Right host device pushspecs deviceNotAvailable) :
    Meets host device pushspecs deviceNotAvailable := by
  have files : ∀ entry ∈ (transferAll host device pushspecs []).1, entry.2 = true →
      entry.1.kind = .file := by
    intro entry listed succeeded
    by_contra other
    have isDirectory : entry.1.kind = .directory := by
      cases kind : entry.1.kind with
      | directory => rfl
      | file => exact absurd kind other
    exact pushLoop_disagrees pushspecs [] ∅ ⟨entry, listed, succeeded, isDirectory⟩ right.called
  obtain ⟨logged, error, dropped, -⟩ := pushLoop_agrees pushspecs [] ∅ files
  rw [nil_append] at logged
  obtain ⟨-, -, failed⟩ := @transferAll_spec host device pushspecs []
  have fails := right.failed
  have removes := right.removed
  unfold pushFileGroups at fails removes
  rw [logged] at fails removes
  refine ⟨?_, files, ?_⟩
  · intro malformed
    have thrown : (pushLoop host device pushspecs [] ∅).error ≠ none := by
      intro silent
      have complete := error.mp silent
      rw [malformed] at complete
      cases complete
    have failing := failed.mpr (fails.mp thrown)
    rw [malformed] at failing
    cases failing
  · intro without entry listed
    have nothing : tearDown (pushLoop host device pushspecs [] ∅) deviceNotAvailable true = ∅ := by
      unfold tearDown
      rcases without with failing | gone
      · rw [dropped failing]
      · rw [gone]
        split <;> rfl
    cases succeeded : entry.2 with
    | false => rfl
    | true =>
      have present := removes entry listed succeeded
      rw [nothing] at present
      exact absurd present (Finset.notMem_empty _)

theorem Meets.right {deviceNotAvailable : Bool}
    (meets : Meets host device pushspecs deviceNotAvailable) :
    Right host device pushspecs deviceNotAvailable := by
  obtain ⟨logged, error, -, kept⟩ := pushLoop_agrees pushspecs [] ∅ meets.files
  rw [nil_append] at logged
  obtain ⟨called, complete, failed⟩ := @transferAll_spec host device pushspecs []
  constructor
  · rw [pushFileGroups, logged]
    exact called
  · intro none
    rw [pushFileGroups, logged]
    exact complete (error.mp none)
  · rw [pushFileGroups, logged, ← failed]
    refine (not_congr error).trans ?_
    cases ending : (transferAll host device pushspecs []).2 with
    | complete => simp
    | malformed => exact absurd ending meets.parsed
    | failed => simp
  · rw [pushFileGroups, logged]
    intro entry listed succeeded
    have neither : ¬ ((transferAll host device pushspecs []).2 = .failed ∨
        deviceNotAvailable = true) := by
      intro without
      rw [meets.first without entry listed] at succeeded
      cases succeeded
    obtain ⟨unfailed, available⟩ := not_or.mp neither
    obtain ⟨pushed, known, -, each⟩ := kept unfailed
    rw [tearDown, known, Bool.not_eq_true _ |>.mp available]
    exact each entry listed succeeded

end

/-- What is transferred, what fails and what is removed is right exactly if the condition is met. -/
theorem right_iff_meets (host : Host) (device : Device) (pushspecs : List JavaString)
    (deviceNotAvailable : Bool) :
    Right host device pushspecs deviceNotAvailable ↔
      Meets host device pushspecs deviceNotAvailable :=
  ⟨Right.meets, Meets.right⟩

/-- A host with the file `/f` and the directory `/d`. -/
def exampleHost : Host where
  testsDir := "/t".toList
  bitness := []
  kind := fun path =>
    if path = "/f".toList then some .file else if path = "/d".toList then some .directory else none

/-- A device that refuses one path. -/
def exampleDevice (refused : JavaString) : Device := fun _ transfer => transfer.target ≠ refused

/-- A directory is pushed once more as a file. -/
theorem not_right_directory :
    ((pushFileGroups exampleHost (exampleDevice []) ["/d->/x".toList]).log.map Prod.fst =
        [⟨.directory, "/d".toList, "/x".toList⟩, ⟨.file, "/d".toList, "/x".toList⟩]) ∧
      ¬ Right exampleHost (exampleDevice []) ["/d->/x".toList] false := by
  have called : (pushFileGroups exampleHost (exampleDevice []) ["/d->/x".toList]).log.map Prod.fst =
      [⟨.directory, "/d".toList, "/x".toList⟩, ⟨.file, "/d".toList, "/x".toList⟩] := by
    decide +kernel
  refine ⟨called, ?_⟩
  intro right
  have wanted := right.called
  rw [called] at wanted
  exact absurd wanted.length_le (by decide +kernel)

end Vts.Harness.FilePusher
