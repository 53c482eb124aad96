import Vts.Resource.Steps

/-!
# Ids of resources

Every driver gives out ids, and finds the objects by them. Proved here: in every run of commands
with at most `2 ^ 32` new objects in a driver, the ids of this driver are all different, and each of
them leads to its own object until that is deleted, and to none afterwards. The ids are of the C++
type `int`, so with more objects they cannot stay different, and they do not.

What the drivers write down is compared with their maps: the map is what the changes make of an
empty one, and the ids are those that the changes give out.
-/

namespace Vts.Resource

open Vts.Lib

section

variable {Object : Type}

/-- The map and the ids of a driver are those of its changes. -/
def Driver.Recorded (driver : Driver Object) : Prop :=
  driver.map = IdTable.changes [] driver.log ∧ driver.ids = IdTable.issued [] driver.log

/-- The ids are different, and each leads to the object it was returned for until it is released,
and to none afterwards. -/
def Driver.Stable (driver : Driver Object) : Prop :=
  driver.ids.Nodup ∧ ∀ before object after, driver.log = before ++ .insert object :: after →
    ∃ id, driver.ids[IdTable.inserts before]? = some id ∧
      (.release id ∈ after → driver.map.get id = none) ∧
      (.release id ∉ after → driver.map.get id = some object)

theorem Driver.Step.recorded {driver after : Driver Object} (step : driver.Step after)
    (recorded : driver.Recorded) : after.Recorded := by
  obtain ⟨map, ids⟩ := recorded
  cases step with
  | use object => exact ⟨map, ids⟩
  | insert object =>
    refine ⟨?_, ?_⟩
    · rw [IdTable.changes_append, ← map]
      rfl
    · rw [IdTable.issued_append, ← map, ← ids]
      rfl
  | release id =>
    refine ⟨?_, ?_⟩
    · rw [IdTable.changes_append, ← map]
      rfl
    · rw [IdTable.issued_append, ← map, ← ids]
      exact (List.append_nil _).symm

theorem Driver.Steps.recorded {driver after : Driver Object} (steps : driver.Steps after)
    (recorded : driver.Recorded) : after.Recorded := by
  induction steps with
  | refl => exact recorded
  | tail _ last ih => exact last.recorded ih

theorem Driver.Recorded.stable {driver : Driver Object} (recorded : driver.Recorded)
    (room : IdTable.inserts driver.log ≤ 2 ^ 32) : driver.Stable := by
  obtain ⟨map, ids⟩ := recorded
  refine ⟨?_, fun before object after split => ?_⟩
  · rw [ids]
    exact IdTable.issued_nodup room
  · rw [map, ids, split]
    exact IdTable.get_of_insert (split ▸ room)

end

/-- All drivers are recorded. -/
structure VtsResourceManager.Recorded (manager : VtsResourceManager) : Prop where
  handles : manager.hidl_handle_driver_.Recorded
  memories : manager.hidl_memory_driver_.Recorded
  queues : manager.fmq_driver_.Recorded

theorem VtsResourceManager.Steps.recorded {manager after : VtsResourceManager}
    (steps : manager.Steps after) (recorded : manager.Recorded) : after.Recorded := by
  refine ⟨steps.handles.recorded recorded.handles, steps.memories.recorded recorded.memories, ?_⟩
  rcases steps.queues with done | locked
  · exact done.recorded recorded.queues
  · rw [locked]
    exact recorded.queues

theorem VtsResourceManager.processAll_recorded {manager after : VtsResourceManager}
    {commands : List (Device × Command)} (recorded : manager.Recorded)
    (reached : manager.processAll commands = .ok after) : after.Recorded := by
  induction commands generalizing manager with
  | nil =>
    cases reached
    exact recorded
  | cons head commands ih =>
    obtain ⟨device, command⟩ := head
    rw [processAll] at reached
    cases done : manager.process device command with
    | error stop =>
      rw [done] at reached
      cases reached
    | ok result =>
      rw [done] at reached
      exact ih ((process_steps command _ done).recorded recorded) reached

/-- In every run, the ids of a driver that was given at most `2 ^ 32` objects are stable. -/
theorem resource_ids_stable {commands : List (Device × Command)} {manager : VtsResourceManager}
    (reached : VtsResourceManager.new.processAll commands = .ok manager) :
    (IdTable.inserts manager.hidl_handle_driver_.log ≤ 2 ^ 32 →
        manager.hidl_handle_driver_.Stable) ∧
      (IdTable.inserts manager.hidl_memory_driver_.log ≤ 2 ^ 32 →
        manager.hidl_memory_driver_.Stable) ∧
      (IdTable.inserts manager.fmq_driver_.log ≤ 2 ^ 32 → manager.fmq_driver_.Stable) := by
  have recorded := VtsResourceManager.processAll_recorded ⟨⟨rfl, rfl⟩, ⟨rfl, rfl⟩, ⟨rfl, rfl⟩⟩
    reached
  exact ⟨recorded.handles.stable, recorded.memories.stable, recorded.queues.stable⟩

/-- Two handles are registered, and the first one is deleted before. -/
theorem resource_ids_stable_deleted :
    ∃ manager, VtsResourceManager.new.processAll
        [(.plain, .registerHandle ⟨1, some 1⟩),
          (.plain, .handle ⟨.HANDLE_PROTO_DELETE, 0, [], [], 0, []⟩),
          (.plain, .registerHandle ⟨2, some 1⟩)] = .ok manager ∧
      manager.hidl_handle_driver_.Stable ∧ manager.hidl_handle_driver_.ids = [0, 1] ∧
      manager.hidl_handle_driver_.map.get 0 = none ∧
      manager.hidl_handle_driver_.map.get 1 = some ⟨2, some 1⟩ := by
  have reached : VtsResourceManager.new.processAll
      [(.plain, .registerHandle ⟨1, some 1⟩),
        (.plain, .handle ⟨.HANDLE_PROTO_DELETE, 0, [], [], 0, []⟩),
        (.plain, .registerHandle ⟨2, some 1⟩)] =
      .ok ⟨⟨[(0, none), (1, some ⟨2, some 1⟩)], false,
        [.insert ⟨1, some 1⟩, .release 0, .insert ⟨2, some 1⟩], [0, 1], []⟩, .new, .new⟩ := rfl
  exact ⟨_, reached, (resource_ids_stable reached).1 (by decide), rfl, rfl, rfl⟩

/-- A handle is registered again and again. -/
theorem processAll_registerHandle (handle : Handle) (valid : handle.address ≠ 0) (count : Nat)
    {manager : VtsResourceManager} (free : manager.hidl_handle_driver_.map_mutex_ = false) :
    ∃ after, manager.processAll (List.replicate count (.plain, .registerHandle handle)) =
        .ok after ∧
      after.hidl_handle_driver_.log =
        manager.hidl_handle_driver_.log ++ List.replicate count (.insert handle) := by
  induction count generalizing manager with
  | zero => exact ⟨manager, rfl, (List.append_nil _).symm⟩
  | succ count ih =>
    obtain ⟨success, between, done, freeThen, log⟩ :
        ∃ success between, manager.process .plain (.registerHandle handle) =
          .ok (success, between) ∧ between.hidl_handle_driver_.map_mutex_ = false ∧
          between.hidl_handle_driver_.log =
            manager.hidl_handle_driver_.log ++ [.insert handle] := by
      unfold VtsResourceManager.process RegisterHidlHandle VtsHidlHandleDriver.RegisterHidlHandle
        Driver.insert Driver.lock
      dsimp only
      rw [if_neg valid, free]
      exact ⟨_, _, rfl, rfl, rfl⟩
    obtain ⟨after, reached, logThen⟩ := ih freeThen
    refine ⟨after, ?_, ?_⟩
    · rw [List.replicate_succ, VtsResourceManager.processAll, done]
      exact reached
    · rw [logThen, log, List.append_assoc, List.replicate_succ]
      rfl

/-- With `2 ^ 32 + 1` handles the first id is returned twice. -/
theorem resource_ids_stable_overflow :
    ∃ manager, VtsResourceManager.new.processAll
        (List.replicate (2 ^ 32 + 1) (.plain, .registerHandle ⟨1, some 1⟩)) = .ok manager ∧
      ¬ manager.hidl_handle_driver_.Stable := by
  obtain ⟨manager, reached, log⟩ := @processAll_registerHandle ⟨1, some 1⟩ (by decide)
    (2 ^ 32 + 1) VtsResourceManager.new rfl
  refine ⟨manager, reached, fun stable => ?_⟩
  have recorded := VtsResourceManager.processAll_recorded ⟨⟨rfl, rfl⟩, ⟨rfl, rfl⟩, ⟨rfl, rfl⟩⟩
    reached
  have count : ∀ size, IdTable.inserts
      (List.replicate size (TableChange.insert (⟨1, some 1⟩ : Handle))) = size := by
    intro size
    simp [IdTable.inserts, List.countP_replicate]
  have unique := stable.1
  rw [recorded.handles.2, log, List.replicate_succ'] at unique
  exact IdTable.not_issued_nodup (count _) _ unique

end Vts.Resource
