import Mathlib.Algebra.Order.Ring.Int
import Mathlib.Data.List.Basic

/-!
# Deadlines of waits for any callback

`GetWaitAnyTimeout` of `runners/target/vts_hal_hidl_target/VtsHalHidlTargetCallbackBase.h`: when
`WaitForCallbackAny` gives up. The deadline is computed again on every wake-up, with the locks and
timeouts of that moment.

A count of a duration or a time is a signed integer of 64 bits, and an operation whose result does
not fit has no result. The clock is given by the number of its ticks in a millisecond, which is
1000 where it counts microseconds.
-/

namespace Vts.Callback

open Option hiding map_map

open List

/-- The value fits into 64 bits with a sign. -/
def Fits (value : Int) : Prop := -2 ^ 63 ≤ value ∧ value ≤ 2 ^ 63 - 1

instance (value : Int) : Decidable (Fits value) := inferInstanceAs (Decidable (_ ∧ _))

/-- A count: of milliseconds in a timeout, of ticks in a duration or a time of the clock. -/
structure Count where
  value : Int
  fits : Fits value
deriving DecidableEq

namespace Count

/-- The result of an operation on counts. -/
def checked (value : Int) : Option Count :=
  if fits : Fits value then some ⟨value, fits⟩ else none

/-- `duration::max()`. -/
def max : Count := ⟨2 ^ 63 - 1, by decide⟩

/-- `milliseconds(-1)`. -/
def unset : Count := ⟨-1, by decide⟩

def add (first second : Count) : Option Count := checked (first.value + second.value)

theorem checked_of_fits {value : Int} (fits : Fits value) : checked value = some ⟨value, fits⟩ :=
  dif_pos fits

theorem checked_of_not_fits {value : Int} (overflows : ¬ Fits value) : checked value = none :=
  dif_neg overflows

end Count

structure Clock where
  ticks : Int
  positive : 0 < ticks

/-- A timeout as a duration of the clock. -/
def Clock.duration (clock : Clock) (timeout : Count) : Option Count :=
  Count.checked (timeout.value * clock.ticks)

/-- The timeouts of a `VtsHalHidlTargetCallbackBase`: those of the locks in its map, in the order of
the map, and the one for locks without a timeout. -/
structure CallbackTimeouts where
  cb_lock_map_ : List (String × Count)
  cb_default_wait_timeout_ : Count

variable {clock : Clock} {start_time timeout_any : Count} (self : CallbackTimeouts)

namespace CallbackTimeouts

/-- `GetCallbackLock`: a new lock has no timeout. -/
def GetCallbackLock (self : CallbackTimeouts) (name : String) : Count × CallbackTimeouts :=
  match self.cb_lock_map_.lookup name with
  | some timeout_ => (timeout_, self)
  | none => (.unset, { self with cb_lock_map_ := self.cb_lock_map_ ++ [(name, .unset)] })

/-- `GetWaitTimeout` of a lock with this timeout. -/
def GetWaitTimeout (self : CallbackTimeouts) (timeout_ : Count) : Count :=
  if timeout_.value < 0 then self.cb_default_wait_timeout_ else timeout_

/-- The loop over the names, with the timeouts of the locks so far. -/
def lockLoop (self : CallbackTimeouts) (res : List Count) : List String →
    List Count × CallbackTimeouts
  | [] => (res, self)
  | name :: names =>
    let (timeout_, self) := self.GetCallbackLock name
    self.lockLoop (res ++ [timeout_]) names

/-- The timeouts of the locks that are waited for. -/
def GetWaitAnyCallbackLocks (self : CallbackTimeouts) (callback_function_names : List String) :
    List Count × CallbackTimeouts :=
  if callback_function_names.isEmpty then (self.cb_lock_map_.map Prod.snd, self)
  else self.lockLoop [] callback_function_names

/-- One round of the loop for the shortest timeout. Both the comparison and the assignment turn
milliseconds into ticks. -/
def shorter (clock : Clock) (timeout_min timeout : Count) : Option Count := do
  let compared ← clock.duration timeout
  if compared.value < timeout_min.value then clock.duration timeout else some timeout_min

def GetWaitAnyTimeout (clock : Clock) (self : CallbackTimeouts)
    (callback_function_names : List String) (start_time timeout_any : Count) :
    Option (Count × CallbackTimeouts) :=
  if 0 ≤ timeout_any.value then do
    let timeout ← clock.duration timeout_any
    return (← start_time.add timeout, self)
  else do
    let (locks, self) := self.GetWaitAnyCallbackLocks callback_function_names
    let timeout_min ← (locks.map self.GetWaitTimeout).foldlM (shorter clock) .max
    return (← start_time.add timeout_min, self)

/-! ## What the deadline should be -/

/-- The timeout of a callback, whether its lock is there or not. -/
def timeoutOf (self : CallbackTimeouts) (name : String) : Count :=
  self.GetWaitTimeout ((self.cb_lock_map_.lookup name).getD .unset)

/-- The timeouts of the callbacks waited for; no names stand for all known callbacks. -/
def waitedFor (self : CallbackTimeouts) (names : List String) : List Count :=
  if names = [] then self.cb_lock_map_.map fun entry => self.GetWaitTimeout entry.2
  else names.map self.timeoutOf

/-- The smallest of some timeouts in ticks; of no timeouts it is the longest duration. -/
def IsShortest (clock : Clock) (timeouts : List Count) (duration : Int) : Prop :=
  (timeouts = [] ∧ duration = Count.max.value) ∨
    ∃ shortest ∈ timeouts, (∀ timeout ∈ timeouts, shortest.value ≤ timeout.value) ∧
      duration = shortest.value * clock.ticks

/-- A deadline is computed without an overflow; it is the start and the timeout given or else the
shortest timeout; and it is not before the start. -/
def Right (clock : Clock) (names : List String) (start_time timeout_any : Count)
    (self : CallbackTimeouts) : Prop :=
  ∃ deadline after duration,
    GetWaitAnyTimeout clock self names start_time timeout_any = some (deadline, after) ∧
    (if 0 ≤ timeout_any.value then duration = timeout_any.value * clock.ticks
      else IsShortest clock (self.waitedFor names) duration) ∧
    deadline.value = start_time.value + duration ∧ start_time.value ≤ deadline.value

/-- The timeout given fits behind the start. Without one, no timeout waited for is negative or too
long for the clock and some of them fits behind the start; with nothing to wait for, the start is not
after the epoch. -/
def Representable (clock : Clock) (names : List String) (start_time timeout_any : Count)
    (self : CallbackTimeouts) : Prop :=
  if 0 ≤ timeout_any.value then
    timeout_any.value * clock.ticks ≤ 2 ^ 63 - 1 ∧
      start_time.value + timeout_any.value * clock.ticks ≤ 2 ^ 63 - 1
  else
    (∀ timeout ∈ self.waitedFor names,
      0 ≤ timeout.value ∧ timeout.value * clock.ticks ≤ 2 ^ 63 - 1) ∧
    if self.waitedFor names = [] then start_time.value ≤ 0
    else ∃ timeout ∈ self.waitedFor names,
      start_time.value + timeout.value * clock.ticks ≤ 2 ^ 63 - 1

/-! ## The timeouts waited for -/

theorem timeoutOf_getCallbackLock (name other : String) :
    (self.GetCallbackLock name).2.timeoutOf other = self.timeoutOf other := by
  rw [GetCallbackLock]
  cases found : self.cb_lock_map_.lookup name with
  | some timeout_ => rfl
  | none =>
    have unset : (([(name, Count.unset)].lookup other).getD .unset) = .unset := by
      rw [lookup_cons]
      cases other == name <;> rfl
    dsimp only [timeoutOf, GetWaitTimeout]
    rw [lookup_append]
    cases self.cb_lock_map_.lookup other with
    | none => rw [none_or, unset, getD_none]
    | some timeout_ => rfl

theorem getWaitTimeout_getCallbackLock (name : String) :
    (self.GetCallbackLock name).2.GetWaitTimeout = self.GetWaitTimeout := by
  rw [GetCallbackLock]
  cases self.cb_lock_map_.lookup name <;> rfl

/-- The timeout of a lock that is found or made. -/
theorem getCallbackLock_timeoutOf (name : String) :
    self.GetWaitTimeout (self.GetCallbackLock name).1 = self.timeoutOf name := by
  rw [GetCallbackLock, timeoutOf]
  cases self.cb_lock_map_.lookup name <;> rfl

/-- The loop over the names makes locks, which does not change any timeout. -/
theorem lockLoop_timeouts (res : List Count) (names : List String) :
    (self.lockLoop res names).1.map (self.lockLoop res names).2.GetWaitTimeout =
      res.map self.GetWaitTimeout ++ names.map self.timeoutOf := by
  induction names generalizing self res with
  | nil => simp [lockLoop]
  | cons name names ih =>
    have later : names.map (self.GetCallbackLock name).2.timeoutOf = names.map self.timeoutOf := by
      apply map_congr_left
      intro other _
      exact self.timeoutOf_getCallbackLock name other
    rw [lockLoop]
    dsimp only
    rw [ih, getWaitTimeout_getCallbackLock, later, map_append,
      map_singleton, getCallbackLock_timeoutOf, append_assoc]
    rfl

theorem locks_timeouts (names : List String) :
    (self.GetWaitAnyCallbackLocks names).1.map
      (self.GetWaitAnyCallbackLocks names).2.GetWaitTimeout = self.waitedFor names := by
  rw [GetWaitAnyCallbackLocks, waitedFor]
  by_cases none_given : names = []
  · rw [if_pos none_given, none_given, if_pos (by rfl), map_map]
    rfl
  · rw [if_neg none_given, if_neg (by simpa using none_given), lockLoop_timeouts]
    rfl

/-! ## The shortest timeout -/

/-- The timeouts in ticks. -/
def inTicks (clock : Clock) (timeouts : List Count) : List Int :=
  timeouts.map fun timeout => timeout.value * clock.ticks

section

variable {timeouts : List Count} (timeout_min : Count)

theorem shorter_of_fits {timeout : Count} (fits : Fits (timeout.value * clock.ticks)) :
    ∃ next, shorter clock timeout_min timeout = some next ∧
      next.value = min timeout_min.value (timeout.value * clock.ticks) := by
  have converted : clock.duration timeout = some ⟨_, fits⟩ := Count.checked_of_fits fits
  rw [shorter, converted]
  by_cases less : timeout.value * clock.ticks < timeout_min.value
  · exact ⟨_, if_pos less, (min_eq_right less.le).symm⟩
  · exact ⟨_, if_neg less, (min_eq_left (not_lt.mp less)).symm⟩

/-- The loop gives the minimum, if all timeouts fit in ticks, and nothing otherwise. -/
theorem foldlM_shorter (fits : ∀ timeout ∈ timeouts, Fits (timeout.value * clock.ticks)) :
    ∃ final, timeouts.foldlM (shorter clock) timeout_min = some final ∧
      final.value = (inTicks clock timeouts).foldl min timeout_min.value := by
  induction timeouts generalizing timeout_min with
  | nil => exact ⟨timeout_min, rfl, rfl⟩
  | cons first rest ih =>
    obtain ⟨here, later⟩ := forall_mem_cons.mp fits
    obtain ⟨next, round, value⟩ := shorter_of_fits timeout_min here
    obtain ⟨final, loop, result⟩ := ih next later
    refine ⟨final, ?_, ?_⟩
    · rw [foldlM_cons, round]
      exact loop
    · rw [result, value]
      rfl

theorem fits_of_foldlM_shorter {timeout_min final : Count}
    (loop : timeouts.foldlM (shorter clock) timeout_min = some final) :
    ∀ timeout ∈ timeouts, Fits (timeout.value * clock.ticks) := by
  induction timeouts generalizing timeout_min with
  | nil => simp
  | cons first rest ih =>
    rw [foldlM_cons] at loop
    have here : Fits (first.value * clock.ticks) := by
      by_contra overflows
      have converted : clock.duration first = none := Count.checked_of_not_fits overflows
      rw [shorter, converted] at loop
      cases loop
    obtain ⟨next, round, -⟩ := shorter_of_fits timeout_min here
    rw [round] at loop
    exact forall_mem_cons.mpr ⟨here, ih loop⟩

end

end CallbackTimeouts

/-- A minimum is below all values and one of them. -/
theorem foldl_min_spec (values : List Int) (start : Int) :
    (values.foldl min start = start ∨ values.foldl min start ∈ values) ∧
      values.foldl min start ≤ start ∧ ∀ value ∈ values, values.foldl min start ≤ value := by
  induction values generalizing start with
  | nil => simp
  | cons first rest ih =>
    obtain ⟨attained, below, belowRest⟩ := ih (min start first)
    rw [foldl_cons]
    refine ⟨?_, below.trans (min_le_left _ _), ?_⟩
    · rcases attained with isMin | listed
      · rcases min_choice start first with isStart | isFirst
        · exact .inl (isMin.trans isStart)
        · exact .inr (mem_cons.mpr (.inl (isMin.trans isFirst)))
      · exact .inr (mem_cons_of_mem _ listed)
    · exact forall_mem_cons.mpr ⟨below.trans (min_le_right _ _), belowRest⟩

namespace CallbackTimeouts

/-- The minimum of the loop is the shortest timeout. -/
theorem isShortest_iff {timeouts : List Count}
    (fits : ∀ timeout ∈ timeouts, Fits (timeout.value * clock.ticks)) (duration : Int) :
    IsShortest clock timeouts duration ↔
      duration = (inTicks clock timeouts).foldl min Count.max.value := by
  obtain ⟨attained, belowMax, below⟩ := foldl_min_spec (inTicks clock timeouts) Count.max.value
  have scale {first second : Count} :
      first.value * clock.ticks ≤ second.value * clock.ticks ↔ first.value ≤ second.value :=
    Int.mul_le_mul_right clock.positive
  have listed {timeout : Count} (inTimeouts : timeout ∈ timeouts) :
      timeout.value * clock.ticks ∈ inTicks clock timeouts :=
    mem_map.mpr ⟨timeout, inTimeouts, rfl⟩
  constructor
  · rintro (⟨rfl, same⟩ | ⟨shortest, inTimeouts, least, same⟩)
    · exact same
    · have above : shortest.value * clock.ticks ≤
          (inTicks clock timeouts).foldl min Count.max.value := by
        rcases attained with isMax | isTimeout
        · rw [isMax]
          exact (fits shortest inTimeouts).2
        · obtain ⟨timeout, there, value⟩ := mem_map.mp isTimeout
          rw [← value]
          exact scale.mpr (least timeout there)
      rw [same]
      exact le_antisymm above (below _ (listed inTimeouts))
  · rintro rfl
    rcases timeouts with _ | ⟨first, rest⟩
    · exact .inl ⟨rfl, rfl⟩
    · have isTimeout : (inTicks clock (first :: rest)).foldl min Count.max.value ∈
          inTicks clock (first :: rest) := by
        rcases attained with isMax | isTimeout
        · -- Every timeout fits, so one that is not below the maximum is the maximum.
          have here := below _ (listed mem_cons_self)
          rw [isMax] at here ⊢
          have same : first.value * clock.ticks = Count.max.value :=
            le_antisymm (fits first mem_cons_self).2 here
          rw [← same]
          exact listed mem_cons_self
        · exact isTimeout
      obtain ⟨shortest, inTimeouts, value⟩ := mem_map.mp isTimeout
      refine .inr ⟨shortest, inTimeouts, ?_, value.symm⟩
      intro timeout there
      rw [← scale, value]
      exact below _ (listed there)

/-! ## The deadline -/

section

variable {self : CallbackTimeouts} {names : List String}

theorem GetWaitAnyTimeout_explicit (given : 0 ≤ timeout_any.value) :
    GetWaitAnyTimeout clock self names start_time timeout_any =
      (clock.duration timeout_any).bind fun timeout =>
        (start_time.add timeout).map fun deadline => (deadline, self) := by
  rw [GetWaitAnyTimeout, if_pos given]
  cases clock.duration timeout_any with
  | none => rfl
  | some timeout =>
    dsimp only [bind_eq_bind, bind_some]
    cases start_time.add timeout <;> rfl

theorem GetWaitAnyTimeout_shortest (unset : ¬ 0 ≤ timeout_any.value) :
    GetWaitAnyTimeout clock self names start_time timeout_any =
      ((self.waitedFor names).foldlM (shorter clock) .max).bind fun timeout_min =>
        (start_time.add timeout_min).map fun deadline =>
          (deadline, (self.GetWaitAnyCallbackLocks names).2) := by
  rw [GetWaitAnyTimeout, if_neg unset]
  dsimp only
  rw [locks_timeouts]
  cases (self.waitedFor names).foldlM (shorter clock) .max with
  | none => rfl
  | some timeout_min =>
    dsimp only [bind_eq_bind, bind_some]
    cases start_time.add timeout_min <;> rfl

theorem right_iff_explicit (given : 0 ≤ timeout_any.value) :
    Right clock names start_time timeout_any self ↔
      timeout_any.value * clock.ticks ≤ 2 ^ 63 - 1 ∧
        start_time.value + timeout_any.value * clock.ticks ≤ 2 ^ 63 - 1 := by
  have positive : 0 ≤ timeout_any.value * clock.ticks :=
    mul_nonneg given clock.positive.le
  have started := start_time.fits.1
  rw [Right, GetWaitAnyTimeout_explicit given]
  simp only [if_pos given]
  constructor
  · rintro ⟨deadline, after, _, computed, rfl, value, -⟩
    have fits : Fits (timeout_any.value * clock.ticks) := by
      by_contra overflows
      rw [Clock.duration, Count.checked_of_not_fits overflows] at computed
      cases computed
    have deadlineFits := deadline.fits.2
    rw [value] at deadlineFits
    exact ⟨fits.2, deadlineFits⟩
  · rintro ⟨fits, deadlineFits⟩
    have converted : Fits (timeout_any.value * clock.ticks) := ⟨by omega, fits⟩
    have added : Fits (start_time.value + timeout_any.value * clock.ticks) := ⟨by omega, deadlineFits⟩
    refine ⟨⟨_, added⟩, self, _, ?_, rfl, rfl, by dsimp only; omega⟩
    rw [Clock.duration, Count.checked_of_fits converted, bind_some, Count.add,
      Count.checked_of_fits added]
    rfl

theorem right_iff_shortest (unset : ¬ 0 ≤ timeout_any.value) :
    Right clock names start_time timeout_any self ↔
      (∀ timeout ∈ self.waitedFor names,
        0 ≤ timeout.value ∧ timeout.value * clock.ticks ≤ 2 ^ 63 - 1) ∧
      if self.waitedFor names = [] then start_time.value ≤ 0
      else ∃ timeout ∈ self.waitedFor names,
        start_time.value + timeout.value * clock.ticks ≤ 2 ^ 63 - 1 := by
  have started := start_time.fits.1
  rw [Right, GetWaitAnyTimeout_shortest unset]
  simp only [if_neg unset]
  constructor
  · rintro ⟨deadline, after, duration, computed, shortest, value, later⟩
    cases loop : (self.waitedFor names).foldlM (shorter clock) .max with
    | none =>
      rw [loop] at computed
      cases computed
    | some timeout_min =>
      have fits := fits_of_foldlM_shorter loop
      have deadlineFits := deadline.fits.2
      rw [value] at deadlineFits
      rcases shortest with ⟨none_waited, isMax⟩ | ⟨least, listed, below, isLeast⟩
      · rw [if_pos none_waited, none_waited]
        refine ⟨by simp, ?_⟩
        rw [isMax] at deadlineFits
        dsimp only [Count.max] at deadlineFits
        omega
      · have positive : 0 ≤ least.value := by
          by_contra negative
          have below := mul_neg_of_neg_of_pos (not_le.mp negative) clock.positive
          omega
        rw [if_neg (ne_nil_of_mem listed)]
        refine ⟨fun timeout there => ⟨positive.trans (below timeout there), (fits timeout there).2⟩,
          least, listed, ?_⟩
        rw [← isLeast]
        exact deadlineFits
  · rintro ⟨usable, reached⟩
    have fits : ∀ timeout ∈ self.waitedFor names, Fits (timeout.value * clock.ticks) := by
      intro timeout there
      have positive := mul_nonneg (usable timeout there).1 clock.positive.le
      exact ⟨by omega, (usable timeout there).2⟩
    obtain ⟨timeout_min, loop, value⟩ := foldlM_shorter .max fits
    have shortest := (isShortest_iff fits _).mpr value
    have bounds : 0 ≤ timeout_min.value ∧ start_time.value + timeout_min.value ≤ 2 ^ 63 - 1 := by
      rcases shortest with ⟨none_waited, isMax⟩ | ⟨least, listed, below, isLeast⟩
      · rw [if_pos none_waited] at reached
        rw [isMax]
        dsimp only [Count.max]
        omega
      · rw [if_neg (ne_nil_of_mem listed)] at reached
        obtain ⟨timeout, there, fitsBehind⟩ := reached
        have positive := mul_nonneg (usable least listed).1 clock.positive.le
        have least_le := (Int.mul_le_mul_right clock.positive).mpr (below timeout there)
        omega
    have added : Fits (start_time.value + timeout_min.value) := ⟨by omega, bounds.2⟩
    refine ⟨⟨_, added⟩, (self.GetWaitAnyCallbackLocks names).2, _, ?_, shortest, rfl,
      by dsimp only; omega⟩
    rw [loop, bind_some, Count.add, Count.checked_of_fits added]
    rfl

end

/-- Whatever the locks and timeouts are on the wake-ups, all deadlines are right exactly if on each
of them the timeouts lead to a time of the clock that is not before the start. -/
theorem deadlines_right_iff (clock : Clock) (names : List String) (start_time timeout_any : Count)
    (wakeUps : List CallbackTimeouts) :
    (∀ self ∈ wakeUps, Right clock names start_time timeout_any self) ↔
      ∀ self ∈ wakeUps, Representable clock names start_time timeout_any self := by
  apply forall₂_congr
  intro self _
  by_cases given : 0 ≤ timeout_any.value
  · rw [right_iff_explicit given, Representable, if_pos given]
  · rw [right_iff_shortest given, Representable, if_neg given]

/-- With no callback known, waiting for all of them overflows for every start after the epoch. -/
theorem no_callbacks_overflow :
    ¬ ∀ (clock : Clock) (names : List String) (start_time timeout_any : Count)
      (wakeUps : List CallbackTimeouts), ∀ self ∈ wakeUps,
        Right clock names start_time timeout_any self := by
  intro always
  have overflows : GetWaitAnyTimeout ⟨1000, by decide⟩ ⟨[], ⟨60000, by decide⟩⟩ [] ⟨1, by decide⟩
      .unset = none := rfl
  obtain ⟨deadline, after, duration, computed, -⟩ := always ⟨1000, by decide⟩ []
    ⟨1, by decide⟩ .unset [⟨[], ⟨60000, by decide⟩⟩] _ mem_cons_self
  cases overflows.symm.trans computed

end CallbackTimeouts

end Vts.Callback
