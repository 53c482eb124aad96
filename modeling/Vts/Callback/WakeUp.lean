import Mathlib.Algebra.Order.BigOperators.Group.Finset
import Vts.Callback.Delivery

/-!
# Waits that sleep on

`NotifyFromCallback` wakes one thread at each of two condition variables. At the one of a name every
sleeper can use the notification. At the one for any callback the sleepers may wait for different
names, and the one that is woken may not be one that the notification is for.

Proved here, over every order of the steps of any number of threads, without timeouts and spurious
wake-ups: when all threads that sleep in `WaitForCallbackAny` at one time wait for the same names,
and fewer than `2 ^ 32` notifications of a name wait to be taken, no wait sleeps on in front of a
notification that it could take. The threads that are awake are counted against the notifications:
a thread sleeps only while there are at least as many threads on their way to the lock.
-/

namespace Vts.Callback

open Finset hiding mem_singleton

open Vts.Lib List Nat

variable {Thread Args : Type}

/-- The names that a thread waits for in the call in which it is. -/
def Phase.WaitsFor : Phase Args → String → Prop
  | waiting called, name | asleep called, name => name = called
  | entering names, name | peeking names _, name | asleepAny names, name => Wanted names name
  | _, _ => False

/-- The mutex for any callback is held there. -/
def Phase.holds : Phase Args → Bool
  | peeking _ _ | telling _ _ | signalling => true
  | _ => false

/-- A thread that is in no call, or sleeps. -/
def Phase.still : Phase Args → Bool
  | idle | asleep _ | asleepAny _ => true
  | _ => false

/-- A thread that looks, or is about to look, whether there is a notification for these names. -/
def Phase.LooksFor (names : List String) : Phase Args → Prop
  | entering others | peeking others _ => ∀ name, Wanted others name ↔ Wanted names name
  | _ => False

/-- The count is the number of notifications that are not taken. -/
def Ledger.Exact (ledger : Ledger Args) : Prop :=
  ledger.returned.length + ledger.lock.wait_count_ = ledger.notified.length

theorem Ledger.Exact.pending_length {ledger : Ledger Args} (exact_ : ledger.Exact) :
    ledger.pending.length = ledger.lock.wait_count_ := by
  rw [Ledger.Exact] at exact_
  rw [pending, length_drop]
  omega

/-- Sums of two functions that differ at one name. -/
theorem sum_add_one {first second : String → Nat} {name : String} (more : first name + 1 = second name)
    (same : ∀ other, other ≠ name → first other = second other) {names : Finset String}
    (listed : name ∈ names) : (∑ other ∈ names, first other) + 1 = ∑ other ∈ names, second other := by
  have rest : ∑ other ∈ names.erase name, first other = ∑ other ∈ names.erase name, second other :=
    sum_congr rfl fun other inside => same other (ne_of_mem_erase inside)
  rw [← add_sum_erase names first listed, ← add_sum_erase names second listed, rest,
    ← more, add_right_comm]

namespace State

def count (state : State Thread Args) (name : String) : Nat := (state.lock name).wait_count_

theorem count_eq_ledger (state : State Thread Args) (name : String) :
    state.count name = (state.ledger name).lock.wait_count_ := rfl

section

variable (state : State Thread Args)

@[simp] theorem phase_getCallbackLock (name : String) :
    (state.GetCallbackLock name).phase = state.phase := by
  rw [GetCallbackLock]
  split <;> rfl

@[simp] theorem mutex_getCallbackLock (name : String) :
    (state.GetCallbackLock name).cb_wait_any_mtx_ = state.cb_wait_any_mtx_ := by
  rw [GetCallbackLock]
  split <;> rfl

theorem mem_names_getCallbackLock {name added : String} :
    name ∈ (state.GetCallbackLock added).names ↔ name ∈ state.names ∨ name = added := by
  rw [GetCallbackLock]
  split
  · rename_i there
    exact ⟨.inl, fun either => either.elim id fun same => same ▸ there⟩
  · rw [mem_append, mem_singleton]

@[simp] theorem phase_getCallbackLocks (added : List String) :
    (added.foldl GetCallbackLock state).phase = state.phase := by
  induction added generalizing state with
  | nil => rfl
  | cons first added ih =>
    rw [foldl_cons, ih, phase_getCallbackLock]

theorem mem_names_getCallbackLocks {name : String} {added : List String}
    (there : name ∈ state.names) : name ∈ (added.foldl GetCallbackLock state).names := by
  induction added generalizing state with
  | nil => exact there
  | cons first added ih =>
    exact ih _ (state.mem_names_getCallbackLock.mpr (.inl there))

variable [DecidableEq Thread]

@[simp] theorem phase_enter_self (thread : Thread) (phase : Phase Args) :
    (state.enter thread phase).phase thread = phase :=
  Function.update_self ..

theorem phase_enter_other {state : State Thread Args} {thread other : Thread}
    (different : other ≠ thread) (phase : Phase Args) :
    (state.enter thread phase).phase other = state.phase other :=
  Function.update_of_ne different ..

end

/-- Nothing is left to do in a call, but for threads that sleep. -/
def Quiet [DecidableEq Thread] (state : State Thread Args) : Prop :=
  ∀ thread next, ¬ Step state (thread, .advance) next

/-- The steps that are looked at: no timeout and no spurious wake-up, no thread goes to sleep
beside one that waits for other names, and the count stays in its range. -/
structure Steady (state : State Thread Args) (event : Thread × Kind) : Prop where
  untimed : event.2 = .call ∨ event.2 = .advance
  sameNames : ∀ names, state.phase event.1 = .peeking names [] → ∀ other others,
    state.phase other = .asleepAny others → ∀ name, Wanted names name ↔ Wanted others name
  inRange : ∀ name data, state.phase event.1 = .telling name data →
    (state.ledger name).pending.length + 1 < 2 ^ 32

theorem Effect.exact {state : State Thread Args} {event : Thread × Kind} {name : String}
    {after : Ledger Args} (effect : Effect state event.1 name after) (steady : state.Steady event)
    (exact_ : (state.ledger name).Exact) : after.Exact := by
  cases effect with
  | same => exact exact_
  | consumed waited =>
    obtain ⟨left, -, rfl⟩ := CallbackLock.wait_eq_some waited
    rw [Ledger.Exact] at exact_ ⊢
    simp only [ledger, Ledger.consume, length_append, length_singleton] at exact_ ⊢
    omega
  | notified there =>
    have range := steady.inRange name _ there
    rw [exact_.pending_length] at range
    rw [Ledger.Exact] at exact_ ⊢
    simp only [ledger, Ledger.notify, CallbackLock.NotifyFromCallback, length_append,
      length_singleton] at exact_ range ⊢
    rw [mod_eq_of_lt range]
    omega

/-- Enough threads are about to take the notifications of a name. -/
def Roused (state : State Thread Args) (name : String) : Prop :=
  ∃ woken : Finset Thread, (∀ thread ∈ woken, state.phase thread = .waiting name) ∧
    state.count name ≤ woken.card

/-- Enough threads are about to take the notifications of some names, where a thread that has
notified a name and not yet woken another one stands for the one that it will wake. -/
def RousedAny (state : State Thread Args) (names : List String) : Prop :=
  ∃ (woken : Finset Thread) (spare : Nat),
    (∀ thread ∈ woken, (state.phase thread).LooksFor names) ∧
    (spare = 0 ∨ spare = 1 ∧ ∃ thread, state.phase thread = .signalling) ∧
    ∀ some_names : Finset String, (∀ name ∈ some_names, Wanted names name) →
      ∑ name ∈ some_names, state.count name ≤ woken.card + spare

section

variable {state next : State Thread Args} {name : String} {names : List String}

theorem Roused.mono (roused : state.Roused name)
    (stay : ∀ thread, state.phase thread = .waiting name → next.phase thread = .waiting name)
    (fewer : next.count name ≤ state.count name) : next.Roused name := by
  obtain ⟨woken, ready, enough⟩ := roused
  exact ⟨woken, fun thread inside => stay thread (ready thread inside), fewer.trans enough⟩

theorem RousedAny.mono (roused : state.RousedAny names)
    (stay : ∀ thread, (state.phase thread).LooksFor names → (next.phase thread).LooksFor names)
    (signals : ∀ thread, state.phase thread = .signalling → next.phase thread = .signalling)
    (fewer : ∀ name, next.count name ≤ state.count name) : next.RousedAny names := by
  obtain ⟨woken, spare, ready, spared, enough⟩ := roused
  refine ⟨woken, spare, fun thread inside => stay thread (ready thread inside), ?_, ?_⟩
  · exact spared.imp_right fun ⟨one, thread, there⟩ => ⟨one, thread, signals thread there⟩
  · intro some_names wanted
    exact (Finset.sum_le_sum fun name _ => fewer name).trans (enough some_names wanted)

/-- Nothing to take. -/
theorem roused_of_none (none_ : state.count name = 0) : state.Roused name :=
  ⟨∅, nofun, by rw [none_]; exact zero_le _⟩

theorem rousedAny_of_none (none_ : ∀ name, Wanted names name → state.count name = 0) :
    state.RousedAny names := by
  refine ⟨∅, 0, nofun, .inl rfl, fun some_names wanted => ?_⟩
  rw [sum_eq_zero fun name inside => none_ name (wanted name inside)]
  exact zero_le _

end

/-- What holds in every state of a run. -/
structure Sound (state : State Thread Args) : Prop where
  counted : ∀ name, (state.ledger name).Exact
  unknown : ∀ name, name ∉ state.names → state.count name = 0
  holder : ∀ thread, state.cb_wait_any_mtx_ = some thread ↔ (state.phase thread).holds = true
  listed : ∀ thread names rest, state.phase thread = .peeking names rest →
    ∀ name ∈ rest, Wanted names name
  peeked : ∀ thread names rest, state.phase thread = .peeking names rest →
    ∀ name, Wanted names name → name ∉ rest → state.count name = 0
  sameNames : ∀ first second names others, state.phase first = .asleepAny names →
    state.phase second = .asleepAny others → ∀ name, Wanted names name ↔ Wanted others name
  roused : ∀ thread name, state.phase thread = .asleep name → state.Roused name
  rousedAny : ∀ thread names, state.phase thread = .asleepAny names → state.RousedAny names

section

variable {state : State Thread Args} {first second : Thread} {phase other : Phase Args}

/-- The mutex is held by at most one thread. -/
theorem Sound.alone (sound : state.Sound) (holds : (state.phase first).holds = true)
    (holdsToo : (state.phase second).holds = true) : first = second :=
  Option.some.inj (((sound.holder first).mpr holds).symm.trans ((sound.holder second).mpr holdsToo))

/-- There is one phase in which the mutex is held. -/
theorem Sound.phase_alone (sound : state.Sound) {first : Thread} (there : state.phase first = phase)
    (holds : phase.holds = true) (otherThere : state.phase second = other)
    (holdsToo : other.holds = true) : other = phase := by
  subst there otherThere
  rw [sound.alone holdsToo holds]

theorem ne_of_phase {state : State Thread Args} (there : state.phase first = phase)
    (otherThere : state.phase second = other) (differ : phase ≠ other) : first ≠ second := by
  rintro rfl
  exact differ (there.symm.trans otherThere)

theorem ne_of_looksFor {names : List String} (looks : (state.phase first).LooksFor names)
    (otherThere : state.phase second = other) (blind : ¬ other.LooksFor names) :
    first ≠ second := by
  rintro rfl
  exact blind (otherThere ▸ looks)

end

/-- Who has the mutex. -/
def Held (state : State Thread Args) : Prop :=
  ∀ thread, state.cb_wait_any_mtx_ = some thread ↔ (state.phase thread).holds = true

section

variable [DecidableEq Thread] {state next : State Thread Args} {thread : Thread} {new : Phase Args}

theorem Held.take (held : state.Held) (phases : next.phase = Function.update state.phase thread new)
    (free : state.cb_wait_any_mtx_ = none) (mutex : next.cb_wait_any_mtx_ = some thread)
    (holds : new.holds = true) : next.Held := by
  intro other
  rw [mutex, phases, Option.some.injEq]
  by_cases moved : other = thread
  · rw [moved, Function.update_self]
    exact ⟨fun _ => holds, fun _ => rfl⟩
  · have before := held other
    rw [free] at before
    rw [Function.update_of_ne moved, ← before]
    exact ⟨fun same => absurd same.symm moved, nofun⟩

/-- A thread that waits for a name takes a notification. -/
theorem Roused.taken {name : String} (roused : state.Roused name)
    (phases : next.phase = Function.update state.phase thread new)
    (fewer : next.count name + 1 = state.count name) : next.Roused name := by
  obtain ⟨woken, ready, enough⟩ := roused
  refine ⟨woken.erase thread, fun other inside => ?_, ?_⟩
  · rw [phases, Function.update_of_ne (ne_of_mem_erase inside)]
    exact ready other (mem_of_mem_erase inside)
  · have size := pred_card_le_card_erase (s := woken) (a := thread)
    omega

variable {old : Phase Args} (there : state.phase thread = old)
  (phases : next.phase = Function.update state.phase thread new)
include there phases

theorem Held.keep (held : state.Held)
    (mutex : next.cb_wait_any_mtx_ = state.cb_wait_any_mtx_) (same : new.holds = old.holds) :
    next.Held := by
  intro other
  rw [mutex, phases, held other]
  by_cases moved : other = thread
  · rw [moved, Function.update_self, same, there]
  · rw [Function.update_of_ne moved]

theorem Held.release (held : state.Held)
    (holds : old.holds = true) (mutex : next.cb_wait_any_mtx_ = none) (gone : new.holds = false) :
    next.Held := by
  intro other
  rw [mutex, phases]
  by_cases moved : other = thread
  · rw [moved, Function.update_self, gone]
    exact ⟨nofun, nofun⟩
  · have before := held other
    rw [(held thread).mpr (there ▸ holds), Option.some.injEq] at before
    rw [Function.update_of_ne moved, ← before]
    exact ⟨nofun, fun same => absurd same.symm moved⟩

/-- A step of one thread that wakes no other and adds no notification. -/
theorem Sound.move (sound : state.Sound)
    (counted : ∀ name, (next.ledger name).Exact)
    (fewer : ∀ name, next.count name ≤ state.count name)
    (known : ∀ name ∈ state.names, name ∈ next.names) (held : next.Held)
    (listed : ∀ names rest, new = .peeking names rest → ∀ name ∈ rest, Wanted names name)
    (peeked : ∀ names rest, new = .peeking names rest →
      ∀ name, Wanted names name → name ∉ rest → next.count name = 0)
    (sleeps : ∀ name, new = .asleep name → next.count name = 0)
    (sleepsAny : ∀ names, new = .asleepAny names →
      (∀ name, Wanted names name → next.count name = 0) ∧
      ∀ other others, state.phase other = .asleepAny others →
        ∀ name, Wanted names name ↔ Wanted others name)
    (leaves : ∀ name, old = .waiting name → state.Roused name → next.Roused name)
    (leavesAny : ∀ names, old.LooksFor names → state.RousedAny names → next.RousedAny names)
    (notSignalling : old ≠ .signalling) : next.Sound := by
  have others : ∀ other, other ≠ thread → next.phase other = state.phase other :=
    fun other moved => by rw [phases, Function.update_of_ne moved]
  have self : next.phase thread = new := by rw [phases, Function.update_self]
  refine ⟨counted, ?_, held, ?_, ?_, ?_, ?_, ?_⟩
  · intro name unknown
    have before := sound.unknown name fun there => unknown (known name there)
    exact le_zero.mp (before ▸ fewer name)
  · intro other names rest there
    by_cases moved : other = thread
    · exact listed names rest (self.symm.trans (moved ▸ there))
    · exact sound.listed other names rest ((others other moved).symm.trans there)
  · intro other names rest there name wanted done
    by_cases moved : other = thread
    · exact peeked names rest (self.symm.trans (moved ▸ there)) name wanted done
    · have before := sound.peeked other names rest ((others other moved).symm.trans there) name
        wanted done
      exact le_zero.mp (before ▸ fewer name)
  · intro first second names rest there thereToo name
    by_cases moved : first = thread
    · have sleeping := (sleepsAny names (self.symm.trans (moved ▸ there))).2
      by_cases movedToo : second = thread
      · have same := there.symm.trans (moved.trans movedToo.symm ▸ thereToo)
        cases same
        rfl
      · exact sleeping second rest ((others second movedToo).symm.trans thereToo) name
    · by_cases movedToo : second = thread
      · have sleeping := (sleepsAny rest (self.symm.trans (movedToo ▸ thereToo))).2
        exact (sleeping first names ((others first moved).symm.trans there) name).symm
      · exact sound.sameNames first second names rest ((others first moved).symm.trans there)
          ((others second movedToo).symm.trans thereToo) name
  · intro other name sleeping
    by_cases moved : other = thread
    · exact roused_of_none (sleeps name (self.symm.trans (moved ▸ sleeping)))
    · have before := sound.roused other name ((others other moved).symm.trans sleeping)
      by_cases waits : old = .waiting name
      · exact leaves name waits before
      · refine before.mono (fun woken ready => ?_) (fewer name)
        rw [others woken (ne_of_phase ready there (Ne.symm waits))]
        exact ready
  · intro other names sleeping
    by_cases moved : other = thread
    · exact rousedAny_of_none (sleepsAny names (self.symm.trans (moved ▸ sleeping))).1
    · have before := sound.rousedAny other names ((others other moved).symm.trans sleeping)
      by_cases looks : old.LooksFor names
      · exact leavesAny names looks before
      · refine before.mono (fun woken ready => ?_) (fun signaller ready => ?_) fewer
        · rw [others woken (ne_of_looksFor ready there looks)]
          exact ready
        · rw [others signaller (ne_of_phase ready there (Ne.symm notSignalling))]
          exact ready

/-- A thread goes on to look for the same names. -/
theorem RousedAny.keep {names : List String} (roused : state.RousedAny names)
    (looks : new.LooksFor names)
    (notSignalling : .signalling ≠ old) (fewer : ∀ name, next.count name ≤ state.count name) :
    next.RousedAny names := by
  refine roused.mono (fun woken ready => ?_) (fun signaller ready => ?_) fewer
  · by_cases moved : woken = thread
    · rw [phases, moved, Function.update_self]
      exact looks
    · rw [phases, Function.update_of_ne moved]
      exact ready
  · rw [phases, Function.update_of_ne (ne_of_phase ready there notSignalling)]
    exact ready

/-- A thread that looks for some names takes a notification of one of them. -/
theorem RousedAny.taken {names : List String} {name : String} (roused : state.RousedAny names)
    (notSignalling : .signalling ≠ old) (wanted : Wanted names name) (fewer : next.count name + 1 = state.count name)
    (same : ∀ other, other ≠ name → next.count other = state.count other) :
    next.RousedAny names := by
  obtain ⟨woken, spare, ready, spared, enough⟩ := roused
  refine ⟨woken.erase thread, spare, fun other inside => ?_, ?_, fun some_names listed => ?_⟩
  · rw [phases, Function.update_of_ne (ne_of_mem_erase inside)]
    exact ready other (mem_of_mem_erase inside)
  · refine spared.imp_right fun ⟨one, signaller, signals⟩ => ⟨one, signaller, ?_⟩
    rw [phases, Function.update_of_ne (ne_of_phase signals there notSignalling)]
    exact signals
  · have all : ∀ other ∈ insert name some_names, Wanted names other := by
      intro other inside
      rcases mem_insert.mp inside with rfl | old
      · exact wanted
      · exact listed other old
    have more := sum_add_one fewer same (mem_insert_self name some_names)
    have part : ∑ other ∈ some_names, next.count other ≤
        ∑ other ∈ insert name some_names, next.count other :=
      sum_le_sum_of_subset (subset_insert name some_names)
    have before := enough _ all
    have size := pred_card_le_card_erase (s := woken) (a := thread)
    omega

end

theorem count_getCallbackLocks (state : State Thread Args) (added : List String) (name : String) :
    (added.foldl GetCallbackLock state).count name = state.count name := by
  rw [count_eq_ledger, ledger_getCallbackLocks, count_eq_ledger]

section

variable {state : State Thread Args} {name : String} {args : Option Args} {lock : CallbackLock Args}

theorem count_consume (waited : (state.lock name).Wait = some (args, lock)) :
    (state.consume name args lock).count name + 1 = state.count name := by
  obtain ⟨left, -, rfl⟩ := CallbackLock.wait_eq_some waited
  simp only [count, State.consume, Function.update_self]
  exact Nat.sub_add_cancel (Nat.pos_of_ne_zero left)

theorem count_consume_other {state : State Thread Args} {name other : String} {args : Option Args}
    {lock : CallbackLock Args} (different : other ≠ name) :
    (state.consume name args lock).count other = state.count other := by
  simp only [count, State.consume, Function.update_of_ne different]

theorem count_consume_le (waited : (state.lock name).Wait = some (args, lock)) (other : String) :
    (state.consume name args lock).count other ≤ state.count other := by
  by_cases same : other = name
  · have fewer := count_consume waited
    rw [same]
    omega
  · exact (count_consume_other same).le

theorem sound_start : (start : State Thread Args).Sound where
  counted _ := rfl
  unknown _ _ := rfl
  holder _ := ⟨nofun, nofun⟩
  listed := nofun
  peeked := nofun
  sameNames := nofun
  roused := nofun
  rousedAny := nofun

theorem locks_of_ne_nil {names : List String} (given : names ≠ []) : state.Locks names names := by
  rw [Locks, if_neg given]

end

/-- The names that are listed are those that are waited for, and the others have no
notifications. -/
theorem Locks.wanted {state : State Thread Args} (sound : state.Sound) {names order : List String}
    (locks : (names.foldl GetCallbackLock state).Locks names order) :
    (∀ name ∈ order, Wanted names name) ∧
      ∀ name, Wanted names name → name ∉ order → state.count name = 0 := by
  rw [Locks] at locks
  split at locks
  · rename_i all
    subst all
    refine ⟨fun _ _ => .inl rfl, fun name _ unlisted => ?_⟩
    exact sound.unknown name fun known => unlisted (locks.mem_iff.mpr known)
  · rename_i some_names
    subst locks
    refine ⟨fun _ listed => .inr listed, fun name wanted unlisted => ?_⟩
    exact absurd (wanted.resolve_left some_names) unlisted

section

variable [DecidableEq Thread] {state next : State Thread Args} {thread : Thread}

theorem Sound.begin (sound : state.Sound) (there : state.phase thread = .idle) (call : Call Args) :
    (state.begin thread call).Sound := by
  have counted : ∀ name, ((state.begin thread call).ledger name).Exact := by
    intro name
    rw [ledger_begin]
    exact sound.counted name
  have fewer : ∀ name, (state.begin thread call).count name ≤ state.count name := by
    intro name
    rw [count_eq_ledger, ledger_begin, count_eq_ledger]
  have blind : ∀ names, (.idle : Phase Args).LooksFor names → state.RousedAny names →
      (state.begin thread call).RousedAny names := fun _ no => no.elim
  cases call with
  | WaitForCallback name =>
    have phases : (state.begin thread (.WaitForCallback name)).phase =
        Function.update state.phase thread (.waiting name) := by
      rw [State.begin, enter, phase_getCallbackLock]
    have held := Held.keep there phases sound.holder (state.mutex_getCallbackLock name) rfl
    refine sound.move there phases counted fewer (fun other known => ?_) held nofun nofun nofun nofun
      nofun blind nofun
    exact state.mem_names_getCallbackLock.mpr (.inl known)
  | WaitForCallbackAny names =>
    exact sound.move there rfl counted fewer (fun _ => id) (Held.keep there rfl sound.holder rfl rfl)
      nofun nofun nofun nofun nofun blind
      nofun
  | NotifyFromCallback name data =>
    exact sound.move there rfl counted fewer (fun _ => id) (Held.keep there rfl sound.holder rfl rfl)
      nofun nofun nofun nofun nofun blind
      nofun

section

variable {name : String} {args : Option Args} {names rest : List String} {data : Option Args}
  {woken : State Thread Args}

section

variable (sound : state.Sound)
include sound

theorem Sound.found {lock : CallbackLock Args} (there : state.phase thread = .waiting name)
    (waited : (state.lock name).Wait = some (args, lock)) (counted : ∀ other,
      (((state.consume name args lock).enter thread .idle).ledger other).Exact) :
    ((state.consume name args lock).enter thread .idle).Sound := by
  refine sound.move there rfl counted (count_consume_le waited) (fun _ => id)
    (Held.keep there rfl sound.holder rfl rfl) nofun nofun nofun nofun
    (fun other waits roused => ?_) (fun _ no => no.elim) nofun
  obtain rfl := Phase.waiting.inj waits
  exact roused.taken rfl (count_consume waited)

theorem Sound.sleep (there : state.phase thread = .waiting name)
    (waited : (state.lock name).Wait = none) : (state.enter thread (.asleep name)).Sound := by
  have none_ : state.count name = 0 := CallbackLock.wait_eq_none.mp waited
  refine sound.move there rfl sound.counted (fun _ => le_refl _) (fun _ => id)
    (Held.keep there rfl sound.holder rfl rfl) nofun nofun ?_ nofun (fun other waits _ => ?_)
    (fun _ no => no.elim) nofun
  · intro other same
    obtain rfl := Phase.asleep.inj same
    exact none_
  · obtain rfl := Phase.waiting.inj waits
    exact roused_of_none none_

theorem Sound.lockAny {order : List String} (there : state.phase thread = .entering names)
    (free : state.cb_wait_any_mtx_ = none)
    (locks : (names.foldl GetCallbackLock state).Locks names order)
    (counted : ∀ name, ((((names.foldl GetCallbackLock state).setMutex (some thread)).enter thread
      (.peeking names order)).ledger name).Exact) :
    (((names.foldl GetCallbackLock state).setMutex (some thread)).enter thread
      (.peeking names order)).Sound := by
  obtain ⟨listed, unlisted⟩ := Locks.wanted sound locks
  have phases : (((names.foldl GetCallbackLock state).setMutex (some thread)).enter thread
      (.peeking names order)).phase = Function.update state.phase thread (.peeking names order) := by
    rw [enter, setMutex, phase_getCallbackLocks]
  have same : ∀ name, (((names.foldl GetCallbackLock state).setMutex (some thread)).enter thread
      (.peeking names order)).count name = state.count name := count_getCallbackLocks state names
  refine sound.move there phases counted (fun name => (same name).le)
    (fun _ => state.mem_names_getCallbackLocks) (Held.take sound.holder phases free rfl rfl) ?_ ?_
    nofun nofun nofun (fun others looks roused => ?_) nofun
  · intro names' rest equal
    obtain ⟨rfl, rfl⟩ := Phase.peeking.inj equal
    exact listed
  · intro names' rest equal name wanted done
    obtain ⟨rfl, rfl⟩ := Phase.peeking.inj equal
    rw [same]
    exact unlisted name wanted done
  · exact roused.keep there phases looks nofun fun name => (same name).le

theorem Sound.foundAny {lock : CallbackLock Args}
    (there : state.phase thread = .peeking names (name :: rest))
    (waited : (state.lock name).Wait = some (args, lock))
    (counted : ∀ other, ((((state.consume name args lock).setMutex none).enter thread
      .idle).ledger other).Exact) :
    (((state.consume name args lock).setMutex none).enter thread .idle).Sound := by
  refine sound.move there rfl counted (count_consume_le waited) (fun _ => id)
    (Held.release there rfl sound.holder rfl rfl rfl) nofun nofun nofun nofun nofun
    (fun others looks roused => ?_) nofun
  have wanted := sound.listed thread names _ there name mem_cons_self
  exact roused.taken there rfl nofun ((looks name).mp wanted) (count_consume waited)
    fun other different => @count_consume_other _ _ state name other args lock different

theorem Sound.peek (there : state.phase thread = .peeking names (name :: rest))
    (waited : (state.lock name).Wait = none) :
    (state.enter thread (.peeking names rest)).Sound := by
  have none_ : state.count name = 0 := CallbackLock.wait_eq_none.mp waited
  refine sound.move there rfl sound.counted (fun _ => le_refl _) (fun _ => id)
    (Held.keep there rfl sound.holder rfl rfl) ?_ ?_ nofun nofun nofun
    (fun others looks roused => ?_) nofun
  · intro names' rest' equal other listed
    obtain ⟨rfl, rfl⟩ := Phase.peeking.inj equal
    exact sound.listed thread names _ there other (mem_cons_of_mem _ listed)
  · intro names' rest' equal other wanted done
    obtain ⟨rfl, rfl⟩ := Phase.peeking.inj equal
    by_cases last : other = name
    · exact last ▸ none_
    · refine sound.peeked thread names _ there other wanted fun listed => ?_
      exact done ((mem_cons.mp listed).resolve_left last)
  · have looksOn : (.peeking names rest : Phase Args).LooksFor others := looks
    exact roused.keep there rfl looksOn nofun fun _ => le_refl _

theorem Sound.sleepAny (there : state.phase thread = .peeking names [])
    (sameNames : ∀ other others, state.phase other = .asleepAny others →
      ∀ name, Wanted names name ↔ Wanted others name) :
    ((state.setMutex none).enter thread (.asleepAny names)).Sound := by
  have none_ : ∀ name, Wanted names name → state.count name = 0 := fun name wanted =>
    sound.peeked thread names [] there name wanted not_mem_nil
  refine sound.move there rfl sound.counted (fun _ => le_refl _) (fun _ => id)
    (Held.release there rfl sound.holder rfl rfl rfl) nofun nofun nofun ?_ nofun
    (fun others looks _ => ?_) nofun
  · intro names' equal
    obtain rfl := Phase.asleepAny.inj equal
    exact ⟨none_, sameNames⟩
  · exact rousedAny_of_none fun name wanted => none_ name ((looks name).mpr wanted)

theorem Sound.lock (there : state.phase thread = .notifying name data)
    (free : state.cb_wait_any_mtx_ = none) :
    ((state.setMutex (some thread)).enter thread (.telling name data)).Sound :=
  sound.move there rfl sound.counted (fun _ => le_refl _) (fun _ => id)
    (Held.take sound.holder rfl free rfl rfl) nofun nofun nofun nofun nofun (fun _ no => no.elim)
    nofun

end

/-- A thread was where it is, unless it is the one that took the step or one that was woken. -/
theorem phase_back {next : State Thread Args} {last phase : Phase Args}
    (Woken : Phase Args → Prop) (self : next.phase thread = last)
    (rest : ∀ other, other ≠ thread → next.phase other = state.phase other ∨
      Woken (next.phase other))
    {other : Thread} (now : next.phase other = phase) (notLast : phase ≠ last)
    (asleep : ¬ Woken phase) : state.phase other = phase := by
  by_cases moved : other = thread
  · subst moved
    exact absurd (now.symm.trans self) notLast
  · rcases rest other moved with kept | woken
    · exact kept.symm.trans now
    · exact absurd (now ▸ woken) asleep

/-- A thread notifies a name and wakes a thread that sleeps there, if there is one. -/
theorem Sound.tell (sound : state.Sound) (there : state.phase thread = .telling name data)
    (counted : ∀ other, (next.ledger other).Exact) (more : next.count name = state.count name + 1)
    (same : ∀ other, other ≠ name → next.count other = state.count other)
    (known : ∀ other, other ∈ state.names ∨ other = name → other ∈ next.names)
    (mutex : next.cb_wait_any_mtx_ = state.cb_wait_any_mtx_)
    (self : next.phase thread = .signalling)
    (rest : ∀ other, other ≠ thread → next.phase other = state.phase other ∨
      state.phase other = .asleep name ∧ next.phase other = .waiting name)
    (wakes : (∀ other, state.phase other ≠ .asleep name) ∨
      ∃ woken, state.phase woken = .asleep name ∧ next.phase woken = .waiting name) :
    next.Sound := by
  have holds : (state.phase thread).holds = true := by
    rw [there]
    rfl
  have back : ∀ {other : Thread} {phase : Phase Args}, next.phase other = phase →
      phase ≠ .signalling → phase ≠ .waiting name → state.phase other = phase :=
    phase_back (· = .waiting name) self fun other moved => (rest other moved).imp_right And.right
  -- nobody else has the mutex
  have noPeek : ∀ other names names', next.phase other ≠ .peeking names names' := by
    intro other names names' now
    cases sound.phase_alone there rfl (back now nofun nofun) rfl
  have noSignal : ∀ other, state.phase other ≠ .signalling := by
    intro other signals
    cases sound.phase_alone there rfl signals rfl
  have stay : ∀ other called, state.phase other = .waiting called →
      next.phase other = .waiting called := by
    intro other called waits
    have kept := (rest other (ne_of_phase waits there nofun)).resolve_right fun ⟨sleeps, _⟩ =>
      nomatch waits.symm.trans sleeps
    exact kept.trans waits
  have stayAny : ∀ other names, (state.phase other).LooksFor names →
      (next.phase other).LooksFor names := by
    intro other names looks
    rcases rest other (ne_of_looksFor looks there id) with kept | ⟨sleeps, -⟩
    · exact kept ▸ looks
    · exact absurd rfl (ne_of_looksFor looks sleeps id)
  refine ⟨counted, ?_, ?_, ?_, ?_, ?_, ?_, ?_⟩
  · intro other unknown
    have different : other ≠ name := fun equal => unknown (known other (.inr equal))
    rw [same other different]
    exact sound.unknown other fun before => unknown (known other (.inl before))
  · intro other
    rw [mutex, sound.holder]
    by_cases moved : other = thread
    · rw [moved, self, holds]
      rfl
    · rcases rest other moved with kept | ⟨sleeps, waits⟩
      · rw [kept]
      · rw [sleeps, waits]
        rfl
  · exact fun other names names' peeking => absurd peeking (noPeek other names names')
  · exact fun other names names' peeking => absurd peeking (noPeek other names names')
  · intro first second names others sleeps sleepsToo
    exact sound.sameNames first second names others (back sleeps nofun nofun)
      (back sleepsToo nofun nofun)
  · intro other called sleeps
    have slept := back sleeps nofun nofun
    have before := sound.roused other called slept
    by_cases equal : called = name
    · subst equal
      obtain nobody | ⟨woken, slept, waits⟩ := wakes
      · exact absurd slept (nobody other)
      · obtain ⟨ready, waiting, enough⟩ := before
        have new : woken ∉ ready := fun inside =>
          ne_of_phase slept (waiting woken inside) nofun rfl
        refine ⟨insert woken ready, fun thread inside => ?_, ?_⟩
        · rcases mem_insert.mp inside with rfl | old
          · exact waits
          · exact stay thread called (waiting thread old)
        · rw [card_insert_of_notMem new, more]
          exact succ_le_succ enough
    · exact before.mono (fun thread => stay thread called) (same called equal).le
  · intro other names sleeps
    obtain ⟨woken, spare, ready, spared, enough⟩ := sound.rousedAny other names
      (back sleeps nofun nofun)
    have noSpare : spare = 0 := spared.resolve_right fun ⟨_, signaller, signals⟩ =>
      noSignal signaller signals
    refine ⟨woken, 1, fun thread inside => stayAny thread names (ready thread inside),
      .inr ⟨rfl, thread, self⟩, fun some_names wanted => ?_⟩
    have before := enough some_names wanted
    by_cases listed : name ∈ some_names
    · have sum := sum_add_one more.symm (fun other different => (same other different).symm) listed
      omega
    · have sum : ∑ other ∈ some_names, next.count other = ∑ other ∈ some_names, state.count other :=
        sum_congr rfl fun other inside => same other fun equal => listed (equal ▸ inside)
      omega

/-- A thread wakes one of those that wait for any callback, if there is one. -/
theorem Sound.signal (sound : state.Sound) (there : state.phase thread = .signalling)
    (counted : ∀ other, (next.ledger other).Exact)
    (same : ∀ other, next.count other = state.count other) (known : next.names = state.names)
    (mutex : next.cb_wait_any_mtx_ = none) (self : next.phase thread = .idle)
    (rest : ∀ other, other ≠ thread → next.phase other = state.phase other ∨
      ∃ names, state.phase other = .asleepAny names ∧ next.phase other = .entering names)
    (wakes : (∀ other names, state.phase other ≠ .asleepAny names) ∨
      ∃ woken names, state.phase woken = .asleepAny names ∧ next.phase woken = .entering names) :
    next.Sound := by
  have holds : (state.phase thread).holds = true := by
    rw [there]
    rfl
  have back : ∀ {other : Thread} {phase : Phase Args}, next.phase other = phase → phase ≠ .idle →
      (¬ ∃ names, phase = .entering names) → state.phase other = phase :=
    phase_back (fun phase => ∃ names, phase = .entering names) self fun other moved =>
      (rest other moved).imp_right fun ⟨names, _, enters⟩ => ⟨names, enters⟩
  have stay : ∀ other, (∀ names, state.phase other ≠ .asleepAny names) → other ≠ thread →
      next.phase other = state.phase other := by
    intro other awake moved
    exact (rest other moved).resolve_right fun ⟨names, sleeps, _⟩ => awake names sleeps
  have noPeek : ∀ other names names', next.phase other ≠ .peeking names names' := by
    intro other names names' now
    cases sound.phase_alone there rfl (back now nofun (fun ⟨_, enters⟩ => nomatch enters)) rfl
  refine ⟨counted, ?_, ?_, ?_, ?_, ?_, ?_, ?_⟩
  · intro other unknown
    rw [same]
    exact sound.unknown other (known ▸ unknown)
  · intro other
    rw [mutex]
    by_cases moved : other = thread
    · rw [moved, self]
      exact ⟨nofun, nofun⟩
    · refine ⟨nofun, fun held => absurd ?_ moved⟩
      rcases rest other moved with kept | ⟨names, -, enters⟩
      · rw [kept] at held
        exact sound.alone held holds
      · rw [enters] at held
        cases held
  · exact fun other names names' peeking => absurd peeking (noPeek other names names')
  · exact fun other names names' peeking => absurd peeking (noPeek other names names')
  · intro first second names others sleeps sleepsToo
    exact sound.sameNames first second names others (back sleeps nofun nofun)
      (back sleepsToo nofun nofun)
  · intro other called sleeps
    have before := sound.roused other called (back sleeps nofun nofun)
    refine before.mono (fun ready waits => ?_) (same called).le
    rw [stay ready (by rw [waits]; nofun) (ne_of_phase waits there nofun)]
    exact waits
  · intro other names sleeps
    have slept := back sleeps nofun nofun
    obtain nobody | ⟨woken, wokenNames, wokenSlept, enters⟩ := wakes
    · exact absurd slept (nobody other names)
    · obtain ⟨ready, spare, looking, spared, enough⟩ := sound.rousedAny other names slept
      have new : woken ∉ ready := fun inside =>
        ne_of_looksFor (looking woken inside) wokenSlept id rfl
      refine ⟨insert woken ready, 0, fun looker inside => ?_, .inl rfl, fun some_names wanted => ?_⟩
      · rcases mem_insert.mp inside with rfl | old
        · rw [enters]
          exact sound.sameNames looker other wokenNames names wokenSlept slept
        · have looks := looking looker old
          rw [stay looker (fun others sleeping => ?_) (ne_of_looksFor looks there id)]
          · exact looks
          · exact ne_of_looksFor looks sleeping id rfl
      · have sum : ∑ name ∈ some_names, next.count name = ∑ name ∈ some_names, state.count name :=
          sum_congr rfl fun name _ => same name
        rw [card_insert_of_notMem new, sum]
        have before := enough some_names wanted
        have small : spare ≤ 1 := spared.elim (fun zero => zero ▸ zero_le 1) fun one => one.1.le
        omega

theorem Sound.told (sound : state.Sound) (steady : state.Steady (thread, .advance))
    (there : state.phase thread = .telling name data)
    (counted : ∀ other, ((woken.enter thread .signalling).ledger other).Exact)
    (wakes : ((state.GetCallbackLock name).notify name data).WakeOne name woken) :
    (woken.enter thread .signalling).Sound := by
  have range := steady.inRange name data there
  rw [(sound.counted name).pending_length, ← count_eq_ledger] at range
  have base : ∀ other, (woken.enter thread .signalling).count other =
      ((state.notify name data).ledger other).lock.wait_count_ := by
    intro other
    rw [count_eq_ledger, ledger_enter, wakes.ledger_eq, ledger_notify, ledger_getCallbackLock,
      ← ledger_notify]
  have more : (woken.enter thread .signalling).count name = state.count name + 1 := by
    rw [base, ledger_notify, if_pos rfl]
    exact mod_eq_of_lt range
  have same : ∀ other, other ≠ name →
      (woken.enter thread .signalling).count other = state.count other := by
    intro other different
    rw [base, ledger_notify, if_neg different, count_eq_ledger]
  have phases : ((state.GetCallbackLock name).notify name data).phase = state.phase :=
    state.phase_getCallbackLock name
  cases wakes with
  | none nobody =>
    refine sound.tell there counted more same (fun other => ?_) ?_ (phase_enter_self ..)
      (fun other moved => .inl ?_) (.inl fun other => ?_)
    · exact state.mem_names_getCallbackLock.mpr
    · exact state.mutex_getCallbackLock name
    · rw [phase_enter_other moved]
      exact congrFun phases other
    · exact phases ▸ nobody other
  | one sleeper sleeps =>
    have slept : state.phase sleeper = .asleep name := phases ▸ sleeps
    have apart : sleeper ≠ thread := ne_of_phase slept there nofun
    refine sound.tell there counted more same (fun other => ?_) ?_ (phase_enter_self ..)
      (fun other moved => ?_) (.inr ⟨sleeper, slept, ?_⟩)
    · exact state.mem_names_getCallbackLock.mpr
    · exact state.mutex_getCallbackLock name
    · rw [phase_enter_other moved]
      by_cases woken : other = sleeper
      · rw [woken, phase_enter_self]
        exact .inr ⟨slept, rfl⟩
      · rw [phase_enter_other woken]
        exact .inl (congrFun phases other)
    · rw [phase_enter_other apart, phase_enter_self]

theorem Sound.signalled (sound : state.Sound) (there : state.phase thread = .signalling)
    (counted : ∀ other, (((woken.setMutex none).enter thread .idle).ledger other).Exact)
    (wakes : state.WakeOneAny woken) : ((woken.setMutex none).enter thread .idle).Sound := by
  cases wakes with
  | none nobody =>
    refine sound.signal there counted (fun _ => rfl) rfl rfl (phase_enter_self ..)
      (fun other moved => .inl ?_) (.inl nobody)
    exact phase_enter_other moved _
  | one sleeper names slept =>
    have apart : sleeper ≠ thread := ne_of_phase slept there nofun
    refine sound.signal there counted (fun _ => rfl) rfl rfl (phase_enter_self ..)
      (fun other moved => ?_) (.inr ⟨sleeper, names, slept, ?_⟩)
    · rw [phase_enter_other moved]
      by_cases woken : other = sleeper
      · subst woken
        exact .inr ⟨names, slept, phase_enter_self ..⟩
      · exact .inl (phase_enter_other woken _)
    · rw [phase_enter_other apart]
      exact phase_enter_self ..

theorem Sound.step {event : Thread × Kind} (sound : state.Sound) (steady : state.Steady event)
    (step : Step state event next) : next.Sound := by
  have counted : ∀ name, (next.ledger name).Exact := fun name =>
    (step.effect name).exact steady (sound.counted name)
  cases step with
  | call call there => exact sound.begin there call
  | found there waited => exact sound.found there waited counted
  | sleep there waited => exact sound.sleep there waited
  | lockAny there free locks => exact sound.lockAny there free locks counted
  | foundAny there waited => exact sound.foundAny there waited counted
  | peek there waited => exact sound.peek there waited
  | sleepAny there => exact sound.sleepAny there (steady.sameNames _ there)
  | lock there free => exact sound.lock there free
  | tell there wakes => exact sound.told steady there counted wakes
  | signal there wakes => exact sound.signalled there counted wakes
  | timeout there => rcases steady.untimed with no | no <;> cases no
  | timeoutAny there => rcases steady.untimed with no | no <;> cases no
  | spurious there => rcases steady.untimed with no | no <;> cases no
  | spuriousAny there => rcases steady.untimed with no | no <;> cases no

theorem exists_wakeOne (state : State Thread Args) (name : String) :
    ∃ next, state.WakeOne name next := by
  by_cases sleeps : ∃ thread, state.phase thread = .asleep name
  · obtain ⟨thread, slept⟩ := sleeps
    exact ⟨_, .one thread slept⟩
  · exact ⟨state, .none fun thread slept => sleeps ⟨thread, slept⟩⟩

theorem exists_wakeOneAny (state : State Thread Args) : ∃ next, state.WakeOneAny next := by
  by_cases sleeps : ∃ thread names, state.phase thread = .asleepAny names
  · obtain ⟨thread, names, slept⟩ := sleeps
    exact ⟨_, .one thread names slept⟩
  · exact ⟨state, .none fun thread names slept => sleeps ⟨thread, names, slept⟩⟩

/-- A thread that has the mutex can go on. -/
theorem advances_of_holds (holds : (state.phase thread).holds = true) :
    ∃ next, Step state (thread, .advance) next := by
  cases there : state.phase thread with
  | peeking names rest =>
    cases rest with
    | nil => exact ⟨_, .sleepAny there⟩
    | cons name rest =>
      cases waited : (state.lock name).Wait with
      | none => exact ⟨_, .peek there waited⟩
      | some found => exact ⟨_, .foundAny there waited⟩
  | telling name data =>
    obtain ⟨woken, wakes⟩ := exists_wakeOne ((state.GetCallbackLock name).notify name data) name
    exact ⟨_, .tell there wakes⟩
  | signalling =>
    obtain ⟨woken, wakes⟩ := exists_wakeOneAny state
    exact ⟨_, .signal there wakes⟩
  | _ =>
    rw [there] at holds
    cases holds

/-- A thread that is about to look for a notification of a name can go on. -/
theorem advances_of_waiting {name : String} (there : state.phase thread = .waiting name) :
    ∃ next, Step state (thread, .advance) next := by
  cases waited : (state.lock name).Wait with
  | none => exact ⟨_, .sleep there waited⟩
  | some found => exact ⟨_, .found there waited⟩

theorem advances_of_entering (there : state.phase thread = .entering names)
    (free : state.cb_wait_any_mtx_ = none) : ∃ next, Step state (thread, .advance) next := by
  by_cases all : names = []
  · have locks : (names.foldl GetCallbackLock state).Locks names
        (names.foldl GetCallbackLock state).names := by
      rw [Locks, if_pos all]
    exact ⟨_, .lockAny there free locks⟩
  · exact ⟨_, .lockAny there free (locks_of_ne_nil all)⟩

section

variable (sound : state.Sound) (quiet : state.Quiet)
include sound quiet

/-- When nothing can be done the mutex is free. -/
theorem Sound.free : state.cb_wait_any_mtx_ = none := by
  cases holder : state.cb_wait_any_mtx_ with
  | none => rfl
  | some thread =>
    obtain ⟨next, step⟩ := advances_of_holds ((sound.holder thread).mp holder)
    exact absurd step (quiet thread next)

/-- When nothing can be done no thread looks for a notification. -/
theorem Sound.not_looksFor (names : List String) : ¬ (state.phase thread).LooksFor names := by
  intro looks
  cases there : state.phase thread with
  | entering others =>
    obtain ⟨next, step⟩ := advances_of_entering there (sound.free quiet)
    exact quiet thread next step
  | peeking others rest =>
    obtain ⟨next, step⟩ := advances_of_holds (show (state.phase thread).holds = true by
      rw [there]
      rfl)
    exact quiet thread next step
  | _ =>
    rw [there] at looks
    exact looks

theorem Sound.count_of_asleep (sleeps : state.phase thread = .asleep name) :
    state.count name = 0 := by
  obtain ⟨woken, ready, enough⟩ := sound.roused thread name sleeps
  have nobody : woken = ∅ := by
    refine eq_empty_of_forall_notMem fun other inside => ?_
    obtain ⟨next, step⟩ := advances_of_waiting (ready other inside)
    exact quiet other next step
  rw [nobody, Finset.card_empty] at enough
  exact le_zero.mp enough

theorem Sound.count_of_asleepAny (sleeps : state.phase thread = .asleepAny names)
    (wanted : Wanted names name) : state.count name = 0 := by
  obtain ⟨woken, spare, ready, spared, enough⟩ := sound.rousedAny thread names sleeps
  have nobody : woken = ∅ :=
    eq_empty_of_forall_notMem fun other inside =>
      sound.not_looksFor quiet names (ready other inside)
  have noSpare : spare = 0 := by
    refine spared.resolve_right fun ⟨_, signaller, signals⟩ => ?_
    obtain ⟨next, step⟩ := advances_of_holds (show (state.phase signaller).holds = true by
      rw [signals]
      rfl)
    exact quiet signaller next step
  have one := enough {name} fun other inside => Finset.mem_singleton.mp inside ▸ wanted
  rw [nobody, noSpare, Finset.card_empty, Finset.sum_singleton] at one
  exact le_zero.mp one

end

end

theorem Step.not_still (step : Step state (thread, .advance) next) :
    (state.phase thread).still = false := by
  cases step with
  | found there | sleep there | lockAny there | foundAny there | peek there | sleepAny there
  | lock there | tell there | signal there => exact congrArg Phase.still there

theorem quiet_of_still (still : ∀ thread, (state.phase thread).still = true) : state.Quiet := by
  intro thread next step
  have moves := step.not_still
  rw [still thread] at moves
  cases moves

end

end State

end Vts.Callback
