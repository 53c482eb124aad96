import Mathlib.Data.Finset.Lattice.Lemmas

/-!
# Uploading the latencies of traces

`ProcessAndUploadTraceData` of `utils/python/profiling/profiling_utils.py`. A list of latencies is
an object that is known by its API and by the trace that recorded it. The merged dictionary takes
over the object of the first trace that has latencies for an API, and the lists of later traces are
appended to that object. The coverage of APIs, which is reported at the end, is left out.

Proved here: the first report of a feature has for each API the latencies of all traces, in order.
The recorded lists stay as they are, and a second report is the same, exactly when there is no API
of which two traces have latencies.
-/

namespace Vts.Trace

open List

/-- The data of one trace: the keys of its dictionary, in some order, and a set of options. -/
structure VTSProfilingData where
  apis : List String
  distinct : apis.Nodup
  options : Finset String

/-- What there is of one API: the list of each trace, and the trace whose list the merged
dictionary has. -/
structure Latencies where
  lists : Nat → List Int
  owner : Option Nat

/-- A list that the merged data has and that is not empty is extended. Otherwise the merged data
gets the list of the trace. -/
def Latencies.add (latencies : Latencies) (trace : Nat) : Latencies :=
  match latencies.owner.filter fun owner => latencies.lists owner ≠ [] with
  | some owner =>
    { latencies with
      lists := Function.update latencies.lists owner
        (latencies.lists owner ++ latencies.lists trace) }
  | none => { latencies with owner := some trace }

structure Merging where
  values : String → Latencies
  options : Finset String

namespace Merging

def addItem (trace : Nat) (merging : Merging) (api : String) : Merging :=
  { merging with values := Function.update merging.values api ((merging.values api).add trace) }

/-- The options and the items of one trace. -/
def addTrace (merging : Merging) (trace : VTSProfilingData × Nat) : Merging :=
  trace.1.apis.foldl (addItem trace.2)
    { merging with options := merging.options ∪ trace.1.options }

end Merging

/-- Whether profiling is enabled, the web feature and whether it is enabled, and the data that was
recorded, with the list of each API and trace. -/
structure ProfilingFeature where
  enabled : Bool
  web : Option Bool
  profiling_data : List VTSProfilingData
  latencies : String → Nat → List Int

/-- What is given to `AddProfilingDataUnlabeledVector`, at most one vector for each API. -/
structure Upload where
  feature : ProfilingFeature
  vectors : String → Option (List Int)
  options : Finset String

namespace ProfilingFeature

variable (feature : ProfilingFeature)

def merge : Merging :=
  feature.profiling_data.zipIdx.foldl Merging.addTrace
    ⟨fun api => ⟨feature.latencies api, none⟩, ∅⟩

def ProcessAndUploadTraceData : Upload :=
  if feature.enabled then
    let merged := feature.merge
    { feature := { feature with latencies := fun api => (merged.values api).lists }
      vectors := fun api =>
        if feature.web = some true then (merged.values api).owner.map (merged.values api).lists
        else none
      options := merged.options }
  else ⟨feature, fun _ => none, ∅⟩

/-! ## What the calls should report -/

/-- The traces in which an API occurs. -/
def users (api : String) : List Nat :=
  (feature.profiling_data.zipIdx.filter fun trace => api ∈ trace.1.apis).map Prod.snd

/-- The latencies of an API over all traces, in order. -/
def allLatencies (api : String) : List Int :=
  (feature.users api).flatMap (feature.latencies api)

/-- The vectors are right, the recorded lists stay as they are, and the next call reports the
same. -/
structure Pure : Prop where
  reported : ∀ api, feature.ProcessAndUploadTraceData.vectors api =
    if feature.users api = [] then none else some (feature.allLatencies api)
  kept : ∀ api, ∀ trace ∈ feature.users api,
    feature.ProcessAndUploadTraceData.feature.latencies api trace = feature.latencies api trace
  again : feature.ProcessAndUploadTraceData.feature.ProcessAndUploadTraceData.vectors =
    feature.ProcessAndUploadTraceData.vectors

/-- No two traces have latencies of one API. -/
def Apart : Prop :=
  ∀ api, ∀ first ∈ feature.users api, ∀ second ∈ feature.users api, first ≠ second →
    feature.latencies api first = [] ∨ feature.latencies api second = []

end ProfilingFeature

/-! ## One API -/

namespace Latencies

variable {lists : Nat → List Int} {users : List Nat} {latencies : Latencies}

/-- Traces have been added one after another: there was none, or one of them owns the list with the
latencies of all, and the other lists are as before. -/
structure Merged (lists : Nat → List Int) (users : List Nat) (latencies : Latencies) : Prop where
  unowned : latencies.owner = none → users = []
  user : ∀ owner ∈ latencies.owner, owner ∈ users
  whole : ∀ owner ∈ latencies.owner, latencies.lists owner = users.flatMap lists
  empty : ∀ owner ∈ latencies.owner, lists owner = [] → users.flatMap lists = []
  others : ∀ place, latencies.owner ≠ some place → latencies.lists place = lists place

/-- The trace becomes the owner. -/
theorem merged_take {trace : Nat} (nothing : users.flatMap lists = []) :
    Merged lists (users ++ [trace]) ⟨lists, some trace⟩ := by
  have whole : (users ++ [trace]).flatMap lists = lists trace := by
    rw [flatMap_append, nothing, flatMap_singleton, nil_append]
  refine ⟨nofun, ?_, ?_, ?_, fun _ _ => rfl⟩
  all_goals rintro _ ⟨⟩
  · exact mem_append_right _ mem_cons_self
  · exact whole.symm
  · exact whole.trans

theorem merged_foldl (lists : Nat → List Int) (users : List Nat) (distinct : users.Nodup) :
    Merged lists users (users.foldl add ⟨lists, none⟩) := by
  induction users using reverseRecOn with
  | nil => exact ⟨fun _ => rfl, nofun, nofun, nofun, fun _ _ => rfl⟩
  | append_singleton users trace ih =>
    obtain ⟨first, -, apart⟩ := nodup_append.mp distinct
    have before := ih first
    rw [foldl_append, foldl_cons, foldl_nil]
    revert before
    rcases users.foldl add ⟨lists, none⟩ with ⟨now, _ | owner⟩
    · intro before
      obtain rfl : now = lists := funext fun place => before.others place nofun
      rw [before.unowned rfl]
      exact merged_take flatMap_nil
    · intro before
      have listed : owner ∈ users := before.user owner rfl
      have all : now owner = users.flatMap lists := before.whole owner rfl
      have other {place : Nat} (different : owner ≠ place) : now place = lists place :=
        before.others place fun same => different (Option.some.inj same)
      unfold add
      by_cases filled : now owner = []
      · -- The owner has no latencies, nor has any trace before.
        rw [filled] at all
        have same : now = lists := by
          funext place
          by_cases own : owner = place
          · rw [← own, filled, flatMap_eq_nil_iff.mp all.symm owner listed]
          · exact other own
        rw [same] at filled ⊢
        simp only [Option.filter_some, filled, ne_eq, not_true_eq_false, decide_false, if_false,
          Bool.false_eq_true]
        exact merged_take all.symm
      · simp only [Option.filter_some, filled, ne_eq, not_false_eq_true, decide_true, if_true]
        have later : owner ≠ trace := apart owner listed trace mem_cons_self
        rw [other later, all]
        refine ⟨nofun, ?_, ?_, ?_, ?_⟩
        · rintro _ ⟨⟩
          exact mem_append_left _ listed
        · rintro _ ⟨⟩
          simp
        · rintro _ ⟨⟩ none
          exact absurd (all.trans (before.empty owner rfl none)) filled
        · intro place different
          have apartOwner : place ≠ owner := fun same => different (congrArg some same.symm)
          exact (Function.update_of_ne apartOwner _ _).trans (other apartOwner.symm)

/-- The latencies of a trace are all that there are exactly if no other trace has any. -/
theorem flatMap_eq_iff {owner : Nat} (distinct : users.Nodup) (listed : owner ∈ users) :
    users.flatMap lists = lists owner ↔ ∀ other ∈ users, other ≠ owner → lists other = [] := by
  obtain ⟨front, back, rfl⟩ := append_of_mem listed
  rw [flatMap_append, flatMap_cons]
  constructor
  · intro same other user different
    have lengths := congrArg length same
    rw [length_append, length_append] at lengths
    have noFront : front.flatMap lists = [] := eq_nil_of_length_eq_zero (by omega)
    have noBack : back.flatMap lists = [] := eq_nil_of_length_eq_zero (by omega)
    rcases mem_append.mp user with before | after
    · exact flatMap_eq_nil_iff.mp noFront other before
    · exact flatMap_eq_nil_iff.mp noBack other (mem_of_ne_of_mem different after)
  · intro others
    obtain ⟨fresh, -⟩ := nodup_cons.mp (nodup_middle.mp distinct)
    rw [mem_append, not_or] at fresh
    have noFront : front.flatMap lists = [] := flatMap_eq_nil_iff.mpr fun other before =>
      others other (mem_append_left _ before) fun same => fresh.1 (same ▸ before)
    have noBack : back.flatMap lists = [] := flatMap_eq_nil_iff.mpr fun other after =>
      others other (mem_append_right _ (mem_cons_of_mem _ after))
        fun same => fresh.2 (same ▸ after)
    rw [noFront, noBack, nil_append, append_nil]

/-- The lists stay as they are exactly if no two traces have latencies. -/
theorem Merged.kept_iff (merged : Merged lists users latencies) (distinct : users.Nodup) :
    (∀ trace ∈ users, latencies.lists trace = lists trace) ↔
      ∀ first ∈ users, ∀ second ∈ users, first ≠ second → lists first = [] ∨ lists second = [] := by
  cases owned : latencies.owner with
  | none =>
    rw [merged.unowned owned]
    exact iff_of_true nofun nofun
  | some owner =>
    have listed := merged.user owner owned
    have alone : _ ↔ ∀ other ∈ users, other ≠ owner → lists other = [] :=
      flatMap_eq_iff distinct listed
    rw [← merged.whole owner owned] at alone
    constructor
    · intro kept first firstUser second secondUser different
      have others := alone.mp (kept owner listed)
      by_cases own : first = owner
      · exact .inr (others second secondUser fun same => different (own.trans same.symm))
      · exact .inl (others first firstUser own)
    · intro apart trace user
      by_cases own : trace = owner
      · rw [own]
        by_cases none : lists owner = []
        · rw [merged.whole owner owned, merged.empty owner owned none, none]
        · exact alone.mpr fun other otherUser different =>
            (apart other otherUser owner listed different).resolve_right none
      · exact merged.others trace (by simpa [owned, eq_comm] using own)

theorem Merged.lists_eq (merged : Merged lists users latencies)
    (kept : ∀ trace ∈ users, latencies.lists trace = lists trace) : latencies.lists = lists := by
  funext place
  by_cases own : latencies.owner = some place
  · exact kept place (merged.user place own)
  · exact merged.others place own

theorem Merged.vector (merged : Merged lists users latencies) :
    latencies.owner.map latencies.lists =
      if users = [] then none else some (users.flatMap lists) := by
  cases owned : latencies.owner with
  | none => rw [if_pos (merged.unowned owned), Option.map_none]
  | some owner =>
    rw [if_neg (ne_nil_of_mem (merged.user owner owned)), Option.map_some,
      merged.whole owner owned]

end Latencies

/-! ## All APIs -/

namespace Merging

variable {merging : Merging}

theorem values_addTrace (trace : VTSProfilingData × Nat) (api : String) :
    (merging.addTrace trace).values api =
      if api ∈ trace.1.apis then (merging.values api).add trace.2 else merging.values api := by
  have items (apis : List String) (distinct : apis.Nodup) (merging : Merging) :
      (apis.foldl (addItem trace.2) merging).values api =
        if api ∈ apis then (merging.values api).add trace.2 else merging.values api := by
    induction apis generalizing merging with
    | nil => rfl
    | cons first apis ih =>
      obtain ⟨fresh, rest⟩ := nodup_cons.mp distinct
      rw [foldl_cons, ih rest, addItem]
      by_cases same : api = first
      · subst same
        simp [fresh]
      · simp [same]
  exact items trace.1.apis trace.1.distinct _

theorem values_foldl (traces : List (VTSProfilingData × Nat)) (api : String) :
    (traces.foldl addTrace merging).values api =
      ((traces.filter fun trace => api ∈ trace.1.apis).map Prod.snd).foldl Latencies.add
        (merging.values api) := by
  induction traces generalizing merging with
  | nil => rfl
  | cons trace traces ih =>
    rw [foldl_cons, ih, values_addTrace, filter_cons]
    split <;> simp_all

end Merging

namespace ProfilingFeature

variable (feature : ProfilingFeature)

theorem users_nodup (api : String) : (feature.users api).Nodup := by
  have numbered : (feature.profiling_data.zipIdx.map Prod.snd).Nodup := by
    rw [zipIdx_map_snd]
    exact nodup_range'
  exact numbered.sublist (filter_sublist.map Prod.snd)

theorem merged (api : String) :
    Latencies.Merged (feature.latencies api) (feature.users api) (feature.merge.values api) := by
  rw [merge, Merging.values_foldl]
  exact Latencies.merged_foldl _ _ (feature.users_nodup api)

theorem nothing_iff :
    (∀ api, feature.users api = []) ↔ ∀ data ∈ feature.profiling_data, data.apis = [] := by
  simp only [users, map_eq_nil_iff, filter_eq_nil_iff, decide_eq_true_eq]
  simp only [eq_nil_iff_forall_not_mem]
  constructor
  · intro absent data recorded api
    rw [← zipIdx_map_fst 0 feature.profiling_data] at recorded
    obtain ⟨trace, listed, rfl⟩ := mem_map.mp recorded
    exact absent api trace listed
  · intro absent api trace listed
    exact absent _ (fst_mem_of_mem_zipIdx listed) api

theorem reported_iff :
    (∀ api, feature.ProcessAndUploadTraceData.vectors api =
        if feature.users api = [] then none else some (feature.allLatencies api)) ↔
      (feature.enabled = true ∧ feature.web = some true ∨
        ∀ data ∈ feature.profiling_data, data.apis = []) := by
  unfold ProcessAndUploadTraceData
  by_cases reporting : feature.enabled = true ∧ feature.web = some true
  · refine iff_of_true (fun api => ?_) (.inl reporting)
    simpa [reporting, allLatencies] using (feature.merged api).vector
  · have silent (api : String) : feature.ProcessAndUploadTraceData.vectors api = none := by
      unfold ProcessAndUploadTraceData
      split
      · next enabled => exact if_neg fun web => reporting ⟨enabled, web⟩
      · rfl
    rw [or_iff_right reporting, ← feature.nothing_iff]
    refine forall_congr' fun api => ?_
    rw [← ProcessAndUploadTraceData, silent]
    split <;> simp [*]

/-- The recorded lists stay as they are exactly if no two traces have latencies of one API. -/
theorem kept_iff (enabled : feature.enabled = true) :
    (∀ api, ∀ trace ∈ feature.users api, feature.ProcessAndUploadTraceData.feature.latencies api
      trace = feature.latencies api trace) ↔ feature.Apart := by
  unfold ProcessAndUploadTraceData
  rw [if_pos enabled]
  exact forall_congr' fun api => (feature.merged api).kept_iff (feature.users_nodup api)

/-- The lists that are kept are all that the next call depends on. -/
theorem feature_eq_of_apart (apart : feature.Apart) :
    feature.ProcessAndUploadTraceData.feature = feature := by
  by_cases enabled : feature.enabled = true
  · have kept := (feature.kept_iff enabled).mpr apart
    unfold ProcessAndUploadTraceData at kept ⊢
    rw [if_pos enabled] at kept ⊢
    have same : (fun api => (feature.merge.values api).lists) = feature.latencies :=
      funext fun api => (feature.merged api).lists_eq (kept api)
    simp only [same]
  · unfold ProcessAndUploadTraceData
    rw [if_neg enabled]

/-- Merging is pure exactly if no two traces have latencies of one API, and the vectors can be
reported if there are any. -/
theorem processAndUpload_pure_iff :
    feature.Pure ↔
      (feature.enabled = true ∧ feature.web = some true ∨
          ∀ data ∈ feature.profiling_data, data.apis = []) ∧ feature.Apart := by
  rw [← reported_iff]
  constructor
  · intro pure
    refine ⟨pure.reported, ?_⟩
    by_cases enabled : feature.enabled = true
    · exact (feature.kept_iff enabled).mp pure.kept
    · have empty := (feature.reported_iff.mp pure.reported).resolve_left fun both =>
        enabled both.1
      intro api first user
      rw [feature.nothing_iff.mpr empty api] at user
      cases user
  · rintro ⟨reported, apart⟩
    have same := feature.feature_eq_of_apart apart
    refine ⟨reported, ?_, by rw [same]⟩
    intro api trace user
    rw [same]

end ProfilingFeature

/-- Two traces of one API: the list of the first has the latencies of both afterwards, and the
second call reports those of the second trace twice. -/
theorem not_processAndUpload_pure :
    let trace : VTSProfilingData := ⟨["open"], by decide, ∅⟩
    let feature : ProfilingFeature :=
      ⟨true, some true, [trace, trace], fun _ trace => [[3], [5]].getD trace []⟩
    let upload := feature.ProcessAndUploadTraceData
    upload.vectors "open" = some [3, 5] ∧
      upload.feature.ProcessAndUploadTraceData.vectors "open" = some [3, 5, 5] ∧
      ¬ feature.Pure := by
  intro trace feature upload
  have reported : upload.vectors "open" = some [3, 5] := by decide
  have again : upload.feature.ProcessAndUploadTraceData.vectors "open" = some [3, 5, 5] := by decide
  refine ⟨reported, again, ?_⟩
  intro pure
  have same := congrFun pure.again "open"
  rw [show feature.ProcessAndUploadTraceData = upload from rfl, again, reported] at same
  exact absurd same (by decide)

end Vts.Trace
