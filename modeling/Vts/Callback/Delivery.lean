import Mathlib.Data.List.ReduceOption
import Vts.Callback.Base

/-!
# Which notification a wait gets

A lock counts the notifications that no wait has taken, and keeps the data of those that carry
some in a queue of its own. Proved here, over every order of the steps of any number of threads:
no more waits succeed than there are notifications, and when a notification with data comes only
while all notifications of its name that are not yet taken carry data, the waits for a name return
the arguments of its notifications in their order. A notification without data that waits for its
turn is otherwise overtaken by later data.
-/

namespace Vts.Callback

open Vts.Lib List

variable {Thread Args : Type}

theorem CallbackLock.wait_eq_some {lock next : CallbackLock Args} {args : Option Args}
    (waited : lock.Wait = some (args, next)) :
    lock.wait_count_ ≠ 0 ∧ args = lock.arg_data_.head? ∧
      next = ⟨lock.wait_count_ - 1, lock.arg_data_.tail⟩ := by
  rw [Wait] at waited
  split at waited
  · cases waited
  · rename_i left
    obtain ⟨rfl, rfl⟩ := Prod.mk.inj (Option.some.inj waited)
    exact ⟨left, rfl, rfl⟩

theorem CallbackLock.wait_eq_none {lock : CallbackLock Args} :
    lock.Wait = none ↔ lock.wait_count_ = 0 := by
  rw [Wait]
  split <;> simp_all

/-- What there is to know about a name: its lock, its notifications, and what waits returned. -/
structure Ledger (Args : Type) where
  lock : CallbackLock Args
  notified : List (Option Args)
  returned : List (Option Args)

namespace Ledger

/-- The notifications that no wait has taken. -/
def pending (ledger : Ledger Args) : List (Option Args) :=
  ledger.notified.drop ledger.returned.length

/-- After a successful wait. -/
def consume (ledger : Ledger Args) (args : Option Args) (lock : CallbackLock Args) : Ledger Args :=
  ⟨lock, ledger.notified, ledger.returned ++ [args]⟩

/-- After a notification. -/
def notify (ledger : Ledger Args) (data : Option Args) : Ledger Args :=
  ⟨ledger.lock.NotifyFromCallback data, ledger.notified ++ [data], ledger.returned⟩

/-- The count is the number of notifications that are not taken, up to the range of the count. -/
def Counted (ledger : Ledger Args) : Prop :=
  ∃ wraps, ledger.returned.length + ledger.lock.wait_count_ + wraps * 2 ^ 32 =
    ledger.notified.length

/-- The notifications are those that waits have returned, then those with data in the queue, then
some without data. -/
def Ordered (ledger : Ledger Args) : Prop :=
  ∃ plain, ledger.notified =
      ledger.returned ++ (ledger.lock.arg_data_.map some ++ List.replicate plain none) ∧
    ledger.lock.wait_count_ = (ledger.lock.arg_data_.length + plain) % 2 ^ 32

/-- The data that was notified is what waits have returned, then what is in the queue. -/
def Conserved (ledger : Ledger Args) : Prop :=
  ledger.notified.reduceOption = ledger.returned.reduceOption ++ ledger.lock.arg_data_

variable {ledger : Ledger Args}

theorem Counted.consume (counted : ledger.Counted) {args : Option Args} {lock : CallbackLock Args}
    (waited : ledger.lock.Wait = some (args, lock)) : (ledger.consume args lock).Counted := by
  obtain ⟨wraps, count⟩ := counted
  obtain ⟨left, -, rfl⟩ := CallbackLock.wait_eq_some waited
  refine ⟨wraps, ?_⟩
  simp only [Ledger.consume, length_append, length_singleton]
  omega

theorem Counted.notify (counted : ledger.Counted) (data : Option Args) :
    (ledger.notify data).Counted := by
  obtain ⟨wraps, count⟩ := counted
  refine ⟨wraps + (ledger.lock.wait_count_ + 1) / 2 ^ 32, ?_⟩
  simp only [Ledger.notify, CallbackLock.NotifyFromCallback, length_append,
    length_singleton]
  omega

/-- A wait returns the arguments of the notification whose turn it is. -/
theorem Ordered.consume (ordered : ledger.Ordered) {args : Option Args} {lock : CallbackLock Args}
    (waited : ledger.lock.Wait = some (args, lock)) : (ledger.consume args lock).Ordered := by
  obtain ⟨plain, notified, count⟩ := ordered
  obtain ⟨left, rfl, rfl⟩ := CallbackLock.wait_eq_some waited
  simp only [Ordered, Ledger.consume]
  cases queue : ledger.lock.arg_data_ with
  | nil =>
    rw [queue, length_nil, Nat.zero_add] at count
    obtain ⟨fewer, rfl⟩ : ∃ fewer, plain = fewer + 1 := Nat.exists_eq_add_one_of_ne_zero (by
      rintro rfl
      exact left count)
    refine ⟨fewer, ?_, ?_⟩
    · rw [notified, queue, replicate_succ, append_assoc]
      rfl
    · rw [tail_nil, length_nil]
      omega
  | cons data later =>
    rw [queue, length_cons] at count
    refine ⟨plain, ?_, ?_⟩
    · rw [notified, queue, map_cons, append_assoc]
      rfl
    · rw [tail_cons]
      omega

theorem Ordered.notify_none (ordered : ledger.Ordered) : (ledger.notify none).Ordered := by
  obtain ⟨plain, notified, count⟩ := ordered
  refine ⟨plain + 1, ?_, ?_⟩
  · simp only [Ledger.notify, CallbackLock.NotifyFromCallback]
    rw [notified, Option.toList_none, append_nil, replicate_succ', append_assoc,
      append_assoc]
  · simp only [Ledger.notify, CallbackLock.NotifyFromCallback]
    rw [Option.toList_none, append_nil, count]
    omega

/-- Data keeps the order when everything before it in the queue is data. -/
theorem Ordered.notify_some (ordered : ledger.Ordered) (turn : none ∉ ledger.pending)
    (args : Args) : (ledger.notify (some args)).Ordered := by
  obtain ⟨plain, notified, count⟩ := ordered
  have noPlain : plain = 0 := by
    refine Nat.eq_zero_of_not_pos fun positive => turn ?_
    rw [pending, notified, drop_left]
    exact mem_append_right _ (mem_replicate.mpr ⟨by omega, rfl⟩)
  subst noPlain
  refine ⟨0, ?_, ?_⟩
  · simp only [Ledger.notify, CallbackLock.NotifyFromCallback]
    rw [notified, Option.toList_some, map_append, append_assoc, replicate_zero,
      append_nil, append_nil]
    rfl
  · simp only [Ledger.notify, CallbackLock.NotifyFromCallback]
    rw [count, Option.toList_some, length_append, length_singleton]
    omega

end Ledger

variable (state : State Thread Args)

namespace State

def ledger (state : State Thread Args) (name : String) : Ledger Args :=
  ⟨state.lock name, state.notified name, state.returned name⟩

@[simp] theorem ledger_setMutex (holder : Option Thread) (name : String) :
    (state.setMutex holder).ledger name = state.ledger name := rfl

@[simp] theorem ledger_getCallbackLock (added name : String) :
    (state.GetCallbackLock added).ledger name = state.ledger name := by
  rw [GetCallbackLock]
  split <;> rfl

@[simp] theorem ledger_getCallbackLocks (added : List String) (name : String) :
    (added.foldl GetCallbackLock state).ledger name = state.ledger name := by
  induction added generalizing state with
  | nil => rfl
  | cons first added ih =>
    rw [foldl_cons, ih, ledger_getCallbackLock]

theorem ledger_consume (taken name : String) (args : Option Args) (lock : CallbackLock Args) :
    (state.consume taken args lock).ledger name =
      if name = taken then (state.ledger name).consume args lock else state.ledger name := by
  by_cases same : name = taken
  · subst same
    rw [if_pos rfl]
    simp [ledger, State.consume, Ledger.consume]
  · rw [if_neg same]
    simp [ledger, State.consume, Function.update_of_ne same]

theorem ledger_notify (told name : String) (data : Option Args) :
    (state.notify told data).ledger name =
      if name = told then (state.ledger name).notify data else state.ledger name := by
  by_cases same : name = told
  · subst same
    rw [if_pos rfl]
    simp [ledger, State.notify, Ledger.notify]
  · rw [if_neg same]
    simp [ledger, State.notify, Function.update_of_ne same]

variable [DecidableEq Thread]

@[simp] theorem ledger_enter (thread : Thread) (phase : Phase Args) (name : String) :
    (state.enter thread phase).ledger name = state.ledger name := rfl

@[simp] theorem ledger_begin (thread : Thread) (call : Call Args) (name : String) :
    (state.begin thread call).ledger name = state.ledger name := by
  cases call with
  | WaitForCallback called => exact ledger_getCallbackLock state called name
  | WaitForCallbackAny names => rfl
  | NotifyFromCallback called data => rfl

theorem WakeOne.ledger_eq {state next : State Thread Args} {called : String}
    (wakes : state.WakeOne called next) (name : String) : next.ledger name = state.ledger name := by
  cases wakes with
  | none nobody => rfl
  | one thread sleeps => rfl

theorem WakeOneAny.ledger_eq {state next : State Thread Args} (wakes : state.WakeOneAny next)
    (name : String) : next.ledger name = state.ledger name := by
  cases wakes with
  | none nobody => rfl
  | one thread names sleeps => rfl

/-- What a step may do to a name: nothing, or a wait takes a notification, or a thread adds one. -/
inductive Effect (state : State Thread Args) (thread : Thread) (name : String) :
    Ledger Args → Prop where
  | same : Effect state thread name (state.ledger name)
  | consumed {args : Option Args} {lock : CallbackLock Args}
    (waited : (state.lock name).Wait = some (args, lock)) :
    Effect state thread name ((state.ledger name).consume args lock)
  | notified {data : Option Args} (there : state.phase thread = .telling name data) :
    Effect state thread name ((state.ledger name).notify data)

omit [DecidableEq Thread] in
theorem Effect.of_consume {state : State Thread Args} {thread : Thread} {taken : String}
    {args : Option Args} {lock : CallbackLock Args}
    (waited : (state.lock taken).Wait = some (args, lock)) (name : String) :
    Effect state thread name ((state.consume taken args lock).ledger name) := by
  rw [ledger_consume]
  split
  · rename_i this
    subst this
    exact .consumed waited
  · exact .same

omit [DecidableEq Thread] in
theorem Effect.of_notify {state : State Thread Args} {thread : Thread} {told : String}
    {data : Option Args} (there : state.phase thread = .telling told data) (name : String) :
    Effect state thread name ((state.notify told data).ledger name) := by
  rw [ledger_notify]
  split
  · rename_i this
    subst this
    exact .notified there
  · exact .same

theorem Step.effect {state next : State Thread Args} {event : Thread × Kind}
    (step : Step state event next) (name : String) :
    Effect state event.1 name (next.ledger name) := by
  cases step with
  | call call there =>
    rw [ledger_begin]
    exact .same
  | found there waited | foundAny there waited => exact .of_consume waited name
  | sleep there waited | peek there waited | lock there waited => exact .same
  | lockAny there free locks =>
    rw [ledger_enter, ledger_setMutex, ledger_getCallbackLocks]
    exact .same
  | sleepAny there => exact .same
  | tell there wakes =>
    rw [ledger_enter, wakes.ledger_eq, ledger_notify, ledger_getCallbackLock, ← ledger_notify]
    exact .of_notify there name
  | signal there wakes =>
    rw [ledger_enter, ledger_setMutex, wakes.ledger_eq]
    exact .same
  | timeout there => exact .same
  | timeoutAny there => exact .same
  | spurious there => exact .same
  | spuriousAny there => exact .same

omit [DecidableEq Thread] in
theorem Effect.counted {state : State Thread Args} {thread : Thread} {name : String}
    {after : Ledger Args} (effect : Effect state thread name after)
    (counted : (state.ledger name).Counted) : after.Counted := by
  cases effect with
  | same => exact counted
  | consumed waited => exact counted.consume waited
  | notified there => exact counted.notify _

/-- In every run, no more waits for a name have succeeded than it has notifications. -/
theorem returned_length_le {state : State Thread Args} {condition : State Thread Args →
    Thread × Kind → Prop} (leads : Leads Step condition start state) (name : String) :
    (state.returned name).length ≤ (state.notified name).length := by
  have begins : ∀ name, ((start : State Thread Args).ledger name).Counted := fun _ => ⟨0, rfl⟩
  have counted := leads.invariant
    (fun _ _ _ kept _ step name => (step.effect name).counted (kept name)) begins
  obtain ⟨wraps, count⟩ := counted name
  simp only [ledger] at count
  omega

/-- A thread adds data only while all notifications of the name that are not taken carry data. -/
def InTurn (state : State Thread Args) (event : Thread × Kind) : Prop :=
  ∀ name data, state.phase event.1 = .telling name (some data) →
    none ∉ (state.ledger name).pending

omit [DecidableEq Thread] in
theorem Effect.ordered {state : State Thread Args} {event : Thread × Kind} {name : String}
    {after : Ledger Args} (effect : Effect state event.1 name after) (inTurn : state.InTurn event)
    (ordered : (state.ledger name).Ordered) : after.Ordered := by
  cases effect with
  | same => exact ordered
  | consumed waited => exact ordered.consume waited
  | @notified data there =>
    cases data with
    | none => exact ordered.notify_none
    | some args => exact ordered.notify_some (inTurn name args there) args

omit [DecidableEq Thread] in
theorem Effect.conserved {state : State Thread Args} {thread : Thread} {name : String}
    {after : Ledger Args} (effect : Effect state thread name after)
    (conserved : (state.ledger name).Conserved) : after.Conserved := by
  unfold Ledger.Conserved at *
  cases effect with
  | same => exact conserved
  | consumed waited =>
    obtain ⟨-, rfl, rfl⟩ := CallbackLock.wait_eq_some waited
    simp only [Ledger.consume, reduceOption_append, reduceOption_singleton, append_assoc]
    rw [conserved, ledger]
    cases (state.lock name).arg_data_ <;> rfl
  | notified there =>
    simp only [Ledger.notify, CallbackLock.NotifyFromCallback, reduceOption_append,
      reduceOption_singleton, conserved, append_assoc]

end State

end Vts.Callback
