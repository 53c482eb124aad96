import Vts.Lib.Dictionary
import Vts.Lib.Runs

/-!
# Profiling points on the host

`StartHostProfiling` and `StopHostProfiling` of `utils/python/profiling/profiling_utils.py`, with
`AddProfilingDataTimestamp` of `utils/python/web/web_utils.py`, to which a finished interval is
reported. The feature for profiling is enabled. A point is entered into a dictionary when it is
started, and never taken out.

Proved here: along every sequence of calls a point can be started exactly when it is not active and
stopped exactly when it is, with its interval reported, exactly when no call is for a point that was
stopped before and no active point is stopped while reports are disabled.
-/

namespace Vts.Trace

open Vts.Lib

namespace HostProfiling

/-- An interval that is reported. -/
structure Interval where
  name : String
  start_timestamp : Int
  end_timestamp : Int
deriving DecidableEq

/-- The web feature: the names of the points that it has, and the report message. -/
structure WebFeature where
  enabled : Bool
  profiling_points : List String
  profiling : List Interval
deriving DecidableEq

def WebFeature.AddProfilingDataTimestamp (web : WebFeature) (name : String)
    (start_timestamp end_timestamp : Int) : WebFeature :=
  if !web.enabled then web
  else if name ∈ web.profiling_points then web
  else { web with
    profiling_points := web.profiling_points ++ [name]
    profiling := web.profiling ++ [⟨name, start_timestamp, end_timestamp⟩] }

/-- The feature: the attribute with the host's points, which is set by the first call, and the web
feature. -/
structure ProfilingFeature where
  host_profiling_data : Option (List (String × Int))
  web : Option WebFeature
deriving DecidableEq

namespace ProfilingFeature

variable (feature : ProfilingFeature)

/-- The dictionary once the attribute is set. -/
def points : List (String × Int) := feature.host_profiling_data.getD []

def StartHostProfiling (name : String) (timestamp : Int) : ProfilingFeature × Bool :=
  if (feature.points.lookup name).isSome then
    ({ feature with host_profiling_data := some feature.points }, false)
  else
    ({ feature with host_profiling_data := some (store name timestamp feature.points) }, true)

def StopHostProfiling (name : String) (timestamp : Int) : ProfilingFeature × Bool :=
  match feature.points.lookup name with
  | none => ({ feature with host_profiling_data := some feature.points }, false)
  | some start_timestamp =>
    ({ host_profiling_data := some feature.points
       web := feature.web.map fun web =>
         if web.enabled then web.AddProfilingDataTimestamp name start_timestamp timestamp
         else web },
      true)

/-- The intervals that were reported. -/
def reported : List Interval := (feature.web.map (·.profiling)).getD []

end ProfilingFeature

/-- A call, with the time at which it is made. -/
inductive Call where
  | Start (name : String) (timestamp : Int)
  | Stop (name : String) (timestamp : Int)
deriving DecidableEq

def Call.perform (feature : ProfilingFeature) : Call → ProfilingFeature × Bool
  | .Start name timestamp => feature.StartHostProfiling name timestamp
  | .Stop name timestamp => feature.StopHostProfiling name timestamp

/-- A run of calls: the feature, the points that are active, each with the time of its last
successful start, and the points that were stopped. -/
structure Run where
  feature : ProfilingFeature
  active : String → Option Int
  stopped : List String

namespace Run

/-- A feature with nothing in its dictionary and nothing reported. -/
def start (web_enabled : Option Bool) : Run where
  feature := ⟨none, web_enabled.map fun enabled => ⟨enabled, [], []⟩⟩
  active := fun _ => none
  stopped := []

/-- A point is active after a successful start until the next successful stop. -/
def step (run : Run) (call : Call) : Run :=
  let (feature, succeeded) := call.perform run.feature
  match call with
  | .Start name timestamp =>
    { run with
      feature
      active := if succeeded then Function.update run.active name (some timestamp)
        else run.active }
  | .Stop name _ =>
    { feature
      active := if succeeded then Function.update run.active name none else run.active
      stopped := if succeeded then run.stopped ++ [name] else run.stopped }

/-- A start succeeds exactly if the point is not active, a stop exactly if it is, and then the
interval since the last successful start is reported. -/
def Right (run : Run) : Call → Prop
  | .Start name timestamp =>
    (run.feature.StartHostProfiling name timestamp).2 = (run.active name).isNone
  | .Stop name timestamp =>
    (run.feature.StopHostProfiling name timestamp).2 = (run.active name).isSome ∧
      ∀ since, run.active name = some since →
        (run.feature.StopHostProfiling name timestamp).1.reported =
          run.feature.reported ++ [⟨name, since, timestamp⟩]

/-- Reports are possible. -/
def webEnabled (run : Run) : Prop := ∃ web, run.feature.web = some web ∧ web.enabled = true

/-- A call is for a point that was not stopped before, and an active point is stopped only while
reports are enabled. -/
def Meets (run : Run) : Call → Prop
  | .Start name _ => name ∉ run.stopped
  | .Stop name _ => name ∉ run.stopped ∧ ((run.active name).isSome → run.webEnabled)

/-- The dictionary has the points that are active and those that were stopped, and only stopped
points were reported. -/
structure Consistent (run : Run) : Prop where
  active : ∀ name since, run.active name = some since → run.feature.points.lookup name = some since
  stopped : ∀ name ∈ run.stopped,
    run.active name = none ∧ (run.feature.points.lookup name).isSome
  only : ∀ name, (run.feature.points.lookup name).isSome →
    (run.active name).isSome ∨ name ∈ run.stopped
  reported : ∀ web, run.feature.web = some web → ∀ name ∈ web.profiling_points, name ∈ run.stopped

theorem start_consistent (web_enabled : Option Bool) : (start web_enabled).Consistent := by
  constructor
  · rintro name since no
    cases no
  · intro name no
    exact absurd no List.not_mem_nil
  · intro name no
    cases no
  · intro web here name no
    obtain ⟨enabled, -, rfl⟩ := Option.map_eq_some_iff.mp here
    exact absurd no List.not_mem_nil

variable {run : Run} {name : String} {timestamp : Int}

/-! ## What the calls do -/

theorem StartHostProfiling_present (present : (run.feature.points.lookup name).isSome) :
    run.feature.StartHostProfiling name timestamp =
      ({ run.feature with host_profiling_data := some run.feature.points }, false) :=
  if_pos present

theorem StartHostProfiling_absent (absent : run.feature.points.lookup name = none) :
    run.feature.StartHostProfiling name timestamp =
      ({ run.feature with
        host_profiling_data := some (store name timestamp run.feature.points) }, true) :=
  if_neg (by simp [absent])

theorem StopHostProfiling_absent (absent : run.feature.points.lookup name = none) :
    run.feature.StopHostProfiling name timestamp =
      ({ run.feature with host_profiling_data := some run.feature.points }, false) := by
  simp only [ProfilingFeature.StopHostProfiling, absent]

theorem StopHostProfiling_present {since : Int}
    (present : run.feature.points.lookup name = some since) :
    run.feature.StopHostProfiling name timestamp =
      ({ host_profiling_data := some run.feature.points
         web := run.feature.web.map fun web =>
          web.AddProfilingDataTimestamp name since timestamp }, true) := by
  have same : (fun web : WebFeature =>
      if web.enabled then web.AddProfilingDataTimestamp name since timestamp else web) =
        fun web => web.AddProfilingDataTimestamp name since timestamp := by
    funext web
    cases enabled : web.enabled with
    | true => rfl
    | false => simp [WebFeature.AddProfilingDataTimestamp, enabled]
  simp only [ProfilingFeature.StopHostProfiling, present, same]

theorem mem_points_AddProfilingDataTimestamp {web : WebFeature} {since : Int} {other : String}
    (listed : other ∈ (web.AddProfilingDataTimestamp name since timestamp).profiling_points) :
    other ∈ web.profiling_points ∨ other = name := by
  unfold WebFeature.AddProfilingDataTimestamp at listed
  split at listed
  · exact .inl listed
  · split at listed
    · exact .inl listed
    · exact List.mem_append.mp listed |>.imp_right List.mem_singleton.mp

/-! ## What they keep -/

section

variable (consistent : run.Consistent)
include consistent

theorem Consistent.inactive (absent : run.feature.points.lookup name = none) :
    run.active name = none := by
  cases isActive : run.active name with
  | none => rfl
  | some since =>
    rw [consistent.active name since isActive] at absent
    cases absent

theorem Consistent.fresh (absent : run.feature.points.lookup name = none) : name ∉ run.stopped := by
  intro wasStopped
  have present := (consistent.stopped name wasStopped).2
  rw [absent] at present
  cases present

/-- A call that fails creates the dictionary at most. -/
theorem Consistent.failed :
    ({ run with feature.host_profiling_data := some run.feature.points } : Run).Consistent :=
  ⟨consistent.active, consistent.stopped, consistent.only, consistent.reported⟩

theorem step_Start_consistent (name : String) (timestamp : Int) :
    (run.step (.Start name timestamp)).Consistent := by
  cases found : run.feature.points.lookup name with
  | some since =>
    have failed := @StartHostProfiling_present run name timestamp (by rw [found]; rfl)
    have same : run.step (.Start name timestamp) =
        { run with feature.host_profiling_data := some run.feature.points } := by
      simp only [step, Call.perform, failed, Bool.false_eq_true, if_false]
    exact same ▸ consistent.failed
  | none =>
    have started := @StartHostProfiling_absent run name timestamp found
    have lookup : ∀ other, (run.step (.Start name timestamp)).feature.points.lookup other =
        if other = name then some timestamp else run.feature.points.lookup other := by
      intro other
      rw [step, Call.perform, started]
      exact (lookup_store name other timestamp run.feature.points).trans (by simp only [beq_iff_eq])
    have active : ∀ other, (run.step (.Start name timestamp)).active other =
        if other = name then some timestamp else run.active other := by
      intro other
      rw [step, Call.perform, started]
      exact Function.update_apply run.active name (some timestamp) other
    have web : (run.step (.Start name timestamp)).feature.web = run.feature.web := by
      rw [step, Call.perform, started]
    have stopped : (run.step (.Start name timestamp)).stopped = run.stopped := rfl
    constructor
    · intro other since isActive
      rw [active] at isActive
      rw [lookup]
      split at isActive
      · next own => rw [if_pos own, isActive]
      · next own =>
        rw [if_neg own]
        exact consistent.active other since isActive
    · intro other wasStopped
      obtain ⟨inactive, present⟩ := consistent.stopped other (stopped ▸ wasStopped)
      have own : other ≠ name := by
        rintro rfl
        exact consistent.fresh found (stopped ▸ wasStopped)
      rw [active, lookup, if_neg own, if_neg own]
      exact ⟨inactive, present⟩
    · intro other present
      rw [lookup] at present
      rw [active, stopped]
      split at present
      · next own => exact .inl (by rw [if_pos own]; rfl)
      · next own =>
        rw [if_neg own]
        exact consistent.only other present
    · rw [web, stopped]
      exact consistent.reported

theorem step_Stop_consistent (name : String) (timestamp : Int) :
    (run.step (.Stop name timestamp)).Consistent := by
  cases found : run.feature.points.lookup name with
  | none =>
    have failed := @StopHostProfiling_absent run name timestamp found
    have same : run.step (.Stop name timestamp) =
        { run with feature.host_profiling_data := some run.feature.points } := by
      simp only [step, Call.perform, failed, Bool.false_eq_true, if_false]
    exact same ▸ consistent.failed
  | some since =>
    have stopped := @StopHostProfiling_present run name timestamp since found
    have lookup : (run.step (.Stop name timestamp)).feature.points = run.feature.points := by
      rw [step, Call.perform, stopped]
      rfl
    have active : ∀ other, (run.step (.Stop name timestamp)).active other =
        if other = name then none else run.active other := by
      intro other
      rw [step, Call.perform, stopped]
      exact Function.update_apply run.active name none other
    have web : (run.step (.Stop name timestamp)).feature.web =
        run.feature.web.map fun web => web.AddProfilingDataTimestamp name since timestamp := by
      rw [step, Call.perform, stopped]
    have stoppedNow : (run.step (.Stop name timestamp)).stopped = run.stopped ++ [name] := by
      rw [step, Call.perform, stopped]
      rfl
    constructor
    · intro other earlier isActive
      rw [active] at isActive
      rw [lookup]
      split at isActive
      · cases isActive
      · exact consistent.active other earlier isActive
    · intro other wasStopped
      rw [stoppedNow, List.mem_append, List.mem_singleton] at wasStopped
      rw [active, lookup]
      by_cases own : other = name
      · rw [if_pos own, own, found]
        exact ⟨rfl, rfl⟩
      · rw [if_neg own]
        exact consistent.stopped other (wasStopped.resolve_right own)
    · intro other present
      rw [lookup] at present
      rw [active, stoppedNow, List.mem_append, List.mem_singleton]
      by_cases own : other = name
      · exact .inr (.inr own)
      · rw [if_neg own]
        exact (consistent.only other present).imp_right .inl
    · intro after here other listed
      rw [web] at here
      obtain ⟨before, there, rfl⟩ := Option.map_eq_some_iff.mp here
      rw [stoppedNow, List.mem_append, List.mem_singleton]
      exact (mem_points_AddProfilingDataTimestamp listed).imp_left
        (consistent.reported before there other)

theorem step_consistent (call : Call) : (run.step call).Consistent := by
  cases call with
  | Start name timestamp => exact step_Start_consistent consistent name timestamp
  | Stop name timestamp => exact step_Stop_consistent consistent name timestamp

/-! ## When they are right -/

theorem right_Start_iff : run.Right (.Start name timestamp) ↔ name ∉ run.stopped := by
  unfold Right
  dsimp only
  cases found : run.feature.points.lookup name with
  | some since =>
    rw [StartHostProfiling_present (by rw [found]; rfl)]
    constructor
    · intro right wasStopped
      rw [(consistent.stopped name wasStopped).1] at right
      cases right
    · intro fresh
      have isActive := (consistent.only name (by rw [found]; rfl)).resolve_right fresh
      rw [Option.isNone_eq_false_iff.mpr isActive]
  | none =>
    rw [StartHostProfiling_absent found, consistent.inactive found]
    exact iff_of_true rfl (consistent.fresh found)

end

/-- A point that was not reported before is reported exactly if reports are enabled. -/
theorem reported_iff {feature : ProfilingFeature} {since : Int}
    (fresh : ∀ web, feature.web = some web → name ∉ web.profiling_points) :
    let after : ProfilingFeature :=
      { feature with web := feature.web.map fun web =>
          web.AddProfilingDataTimestamp name since timestamp }
    after.reported = feature.reported ++ [⟨name, since, timestamp⟩] ↔
      ∃ web, feature.web = some web ∧ web.enabled = true := by
  intro after
  unfold ProfilingFeature.reported
  cases here : feature.web with
  | none => simp [after, here]
  | some web =>
    cases enabled : web.enabled with
    | false => simp [after, here, WebFeature.AddProfilingDataTimestamp, enabled]
    | true => simp [after, here, WebFeature.AddProfilingDataTimestamp, enabled, fresh web here]

theorem right_Stop_iff (consistent : run.Consistent) :
    run.Right (.Stop name timestamp) ↔
      name ∉ run.stopped ∧ ((run.active name).isSome → run.webEnabled) := by
  unfold Right
  dsimp only
  cases found : run.feature.points.lookup name with
  | none =>
    rw [StopHostProfiling_absent found, consistent.inactive found]
    simp [consistent.fresh found]
  | some since =>
    rw [StopHostProfiling_present found]
    by_cases wasStopped : name ∈ run.stopped
    · refine iff_of_false ?_ fun meets => meets.1 wasStopped
      rintro ⟨succeeded, -⟩
      rw [(consistent.stopped name wasStopped).1] at succeeded
      cases succeeded
    · have isActive := (consistent.only name (by rw [found]; rfl)).resolve_right wasStopped
      obtain ⟨earlier, started⟩ := Option.isSome_iff_exists.mp isActive
      cases found.symm.trans (consistent.active name earlier started)
      have unreported : ∀ web, run.feature.web = some web → name ∉ web.profiling_points :=
        fun web here listed => wasStopped (consistent.reported web here name listed)
      have reported := @reported_iff name timestamp run.feature since unreported
      rw [started]
      simp only [Option.isSome_some, Option.some_inj, forall_eq', true_and, forall_const]
      rw [and_iff_right wasStopped]
      exact reported

theorem right_call_iff (consistent : run.Consistent) (call : Call) :
    run.Right call ↔ run.Meets call := by
  cases call with
  | Start name timestamp => exact right_Start_iff consistent
  | Stop name timestamp => exact right_Stop_iff consistent

end Run

/-- Along a run of calls profiling points are reusable exactly if no point is reused after a stop,
and an active point is stopped only while reports are enabled. -/
theorem reusable_iff (web_enabled : Option Bool) (calls : List Call) :
    (∀ before call after, calls = before ++ call :: after →
        (run Run.step (Run.start web_enabled) before).Right call) ↔
      AllMeet Run.step Run.Meets (Run.start web_enabled) calls := by
  have kept : ∀ (run : Run) call, run.Consistent → (run.step call).Consistent :=
    fun _ call consistent => Run.step_consistent consistent call
  have same : ∀ (run : Run) call, run.Consistent → (run.Right call ↔ run.Meets call) :=
    fun _ call consistent => Run.right_call_iff consistent call
  rw [← allMeet_congr kept same (Run.start_consistent web_enabled), allMeet_iff_steps]

/-- A point that was started and stopped is still in the dictionary: it is not started again, and it
can be stopped again. -/
theorem not_reusable :
    let stopped := run Run.step (Run.start (some true)) [.Start "boot" 1, .Stop "boot" 4]
    (stopped.active "boot" = none ∧ (stopped.feature.StartHostProfiling "boot" 6).2 = false ∧
        (stopped.feature.StopHostProfiling "boot" 9).2 = true) ∧
      ¬ ∀ calls before call after, calls = before ++ call :: after →
        (run Run.step (Run.start (some true)) before).Right call := by
  intro stopped
  have refused : (stopped.feature.StartHostProfiling "boot" 6).2 = false := by decide
  refine ⟨⟨by decide, refused, by decide⟩, ?_⟩
  intro always
  have right : (stopped.feature.StartHostProfiling "boot" 6).2 = (stopped.active "boot").isNone :=
    always _ [.Start "boot" 1, .Stop "boot" 4] (.Start "boot" 6) [] rfl
  exact absurd right (by decide)

end HostProfiling

end Vts.Trace
