import Mathlib.Algebra.Group.Nat.Defs
import Mathlib.Logic.Function.Basic
import Vts.Lib.Interleaving

/-!
# Waiting for callbacks

`runners/target/vts_hal_hidl_target/VtsHalHidlTargetCallbackBase.h`: threads that wait for callbacks
and threads that notify them, on one object. A step is what a thread does under one lock: the
lock of a callback name is free again after a step, while `cb_wait_any_mtx_` is held over several
steps. The steps of the threads come in any order.

A thread that sleeps at a condition variable is woken by `notify_one`, which chooses one of those
that sleep there. The walk over all locks that `WaitForCallbackAny` makes when it is given no names
holds no lock of the map; it is taken to see the names of one moment, in any order. What was
notified and what waits have returned is kept in the state, so that it can be spoken about.
`ClearForCallback` and the lengths of timeouts are left out.
-/

namespace Vts.Callback

variable {Args : Type}

/-- The semaphore and the data for a callback name. -/
structure CallbackLock (Args : Type) where
  wait_count_ : Nat
  arg_data_ : List Args

namespace CallbackLock

def new : CallbackLock Args := ⟨0, []⟩

/-- `NotifyFromCallback`, with data or without. The count is an `unsigned int`. -/
def NotifyFromCallback (lock : CallbackLock Args) (data : Option Args) : CallbackLock Args :=
  ⟨(lock.wait_count_ + 1) % 2 ^ 32, lock.arg_data_ ++ data.toList⟩

/-- What `Wait` does once it need not sleep: the arguments that it returns and the lock afterwards,
or nothing when there is no notification. -/
def Wait (lock : CallbackLock Args) : Option (Option Args × CallbackLock Args) :=
  if lock.wait_count_ = 0 then none
  else some (lock.arg_data_.head?, ⟨lock.wait_count_ - 1, lock.arg_data_.tail⟩)

end CallbackLock

/-- The calls on the object. -/
inductive Call (Args : Type) where
  | WaitForCallback (name : String)
  | WaitForCallbackAny (names : List String)
  | NotifyFromCallback (name : String) (data : Option Args)

/-- Where a thread is. -/
inductive Phase (Args : Type) where
  /-- In no call. -/
  | idle
  /-- In `WaitForCallback`, before it looks at the count. -/
  | waiting (name : String)
  /-- At the condition variable of a name. -/
  | asleep (name : String)
  /-- In `WaitForCallbackAny`, before it has the mutex. -/
  | entering (names : List String)
  /-- It has the mutex, and some locks are still to be looked at. -/
  | peeking (names rest : List String)
  /-- At the condition variable for any callback. -/
  | asleepAny (names : List String)
  /-- In `NotifyFromCallback`, before it has the mutex. -/
  | notifying (name : String) (data : Option Args)
  /-- It has the mutex. -/
  | telling (name : String) (data : Option Args)
  /-- The lock of the name is notified, those that wait for any callback are not. -/
  | signalling
deriving DecidableEq

/-- What makes a thread move: a new call, the next part of a call, a timeout, or a condition
variable that wakes without being notified. -/
inductive Kind where
  | call
  | advance
  | timeout
  | spurious
deriving DecidableEq

/-- The object and the threads. -/
structure State (Thread Args : Type) where
  /-- The names in `cb_lock_map_`. -/
  names : List String
  /-- The lock of each name, a new one unless the name is in the map. -/
  lock : String → CallbackLock Args
  /-- The thread that has `cb_wait_any_mtx_`. -/
  cb_wait_any_mtx_ : Option Thread
  phase : Thread → Phase Args
  /-- The notifications so far of each name. -/
  notified : String → List (Option Args)
  /-- The arguments that successful waits have returned so far for each name. -/
  returned : String → List (Option Args)

/-- The names that `WaitForCallbackAny` waits for; no names means all. -/
def Wanted (names : List String) (name : String) : Prop := names = [] ∨ name ∈ names

namespace State

variable {Thread : Type}

/-- A new object, and threads that have called nothing. -/
def start : State Thread Args where
  names := []
  lock _ := .new
  cb_wait_any_mtx_ := none
  phase _ := .idle
  notified _ := []
  returned _ := []

/-- A name is put into the map unless it is there. -/
def GetCallbackLock (state : State Thread Args) (name : String) : State Thread Args :=
  if name ∈ state.names then state else { state with names := state.names ++ [name] }

/-- The locks that `PeekCallbackLocks` looks at, in this order. -/
def Locks (state : State Thread Args) (names order : List String) : Prop :=
  if names = [] then order.Perm state.names else order = names

/-- A notification for a name. -/
def notify (state : State Thread Args) (name : String) (data : Option Args) : State Thread Args :=
  { state with
    lock := Function.update state.lock name ((state.lock name).NotifyFromCallback data)
    notified := Function.update state.notified name (state.notified name ++ [data]) }

/-- A successful wait for a name. -/
def consume (state : State Thread Args) (name : String) (args : Option Args)
    (lock : CallbackLock Args) : State Thread Args :=
  { state with
    lock := Function.update state.lock name lock
    returned := Function.update state.returned name (state.returned name ++ [args]) }

def setMutex (state : State Thread Args) (holder : Option Thread) : State Thread Args :=
  { state with cb_wait_any_mtx_ := holder }

variable [DecidableEq Thread]

/-- A thread comes to another place. -/
def enter (state : State Thread Args) (thread : Thread) (phase : Phase Args) : State Thread Args :=
  { state with phase := Function.update state.phase thread phase }

/-- A call begins. `WaitForCallback` gets the lock of the name first. -/
def begin (state : State Thread Args) (thread : Thread) : Call Args → State Thread Args
  | .WaitForCallback name => (state.GetCallbackLock name).enter thread (.waiting name)
  | .WaitForCallbackAny names => state.enter thread (.entering names)
  | .NotifyFromCallback name data => state.enter thread (.notifying name data)

/-- `notify_one` of the condition variable of a name. -/
inductive WakeOne (state : State Thread Args) (name : String) : State Thread Args → Prop where
  | none (nobody : ∀ thread, state.phase thread ≠ .asleep name) : WakeOne state name state
  | one (thread : Thread) (sleeps : state.phase thread = .asleep name) :
    WakeOne state name (state.enter thread (.waiting name))

/-- `notify_one` of `cb_wait_any_cv_`. -/
inductive WakeOneAny (state : State Thread Args) : State Thread Args → Prop where
  | none (nobody : ∀ thread names, state.phase thread ≠ .asleepAny names) : WakeOneAny state state
  | one (thread : Thread) (names : List String) (sleeps : state.phase thread = .asleepAny names) :
    WakeOneAny state (state.enter thread (.entering names))

/-- The steps of the threads. -/
inductive Step : State Thread Args → Thread × Kind → State Thread Args → Prop where
  | call {state : State Thread Args} {thread : Thread} (call : Call Args)
    (there : state.phase thread = .idle) : Step state (thread, .call) (state.begin thread call)
  /-- `WaitForCallback` finds a notification. -/
  | found {state : State Thread Args} {thread : Thread} {name : String} {args : Option Args}
    {lock : CallbackLock Args} (there : state.phase thread = .waiting name)
    (waited : (state.lock name).Wait = some (args, lock)) :
    Step state (thread, .advance) ((state.consume name args lock).enter thread .idle)
  /-- `WaitForCallback` finds none and sleeps. -/
  | sleep {state : State Thread Args} {thread : Thread} {name : String}
    (there : state.phase thread = .waiting name) (waited : (state.lock name).Wait = none) :
    Step state (thread, .advance) (state.enter thread (.asleep name))
  /-- `WaitForCallbackAny` gets the mutex and lists the locks. -/
  | lockAny {state : State Thread Args} {thread : Thread} {names order : List String}
    (there : state.phase thread = .entering names) (free : state.cb_wait_any_mtx_ = none)
    (locks : (names.foldl GetCallbackLock state).Locks names order) :
    Step state (thread, .advance)
      (((names.foldl GetCallbackLock state).setMutex (some thread)).enter thread
        (.peeking names order))
  /-- `PeekCallbackLocks` finds a notification. -/
  | foundAny {state : State Thread Args} {thread : Thread} {names rest : List String}
    {name : String} {args : Option Args} {lock : CallbackLock Args}
    (there : state.phase thread = .peeking names (name :: rest))
    (waited : (state.lock name).Wait = some (args, lock)) :
    Step state (thread, .advance)
      (((state.consume name args lock).setMutex none).enter thread .idle)
  /-- `PeekCallbackLocks` goes on to the next lock. -/
  | peek {state : State Thread Args} {thread : Thread} {names rest : List String} {name : String}
    (there : state.phase thread = .peeking names (name :: rest))
    (waited : (state.lock name).Wait = none) :
    Step state (thread, .advance) (state.enter thread (.peeking names rest))
  /-- `WaitForCallbackAny` has found none and sleeps. -/
  | sleepAny {state : State Thread Args} {thread : Thread} {names : List String}
    (there : state.phase thread = .peeking names []) :
    Step state (thread, .advance) ((state.setMutex none).enter thread (.asleepAny names))
  /-- `NotifyFromCallback` gets the mutex. -/
  | lock {state : State Thread Args} {thread : Thread} {name : String} {data : Option Args}
    (there : state.phase thread = .notifying name data) (free : state.cb_wait_any_mtx_ = none) :
    Step state (thread, .advance)
      ((state.setMutex (some thread)).enter thread (.telling name data))
  /-- The lock of the name is found and notified. -/
  | tell {state woken : State Thread Args} {thread : Thread} {name : String} {data : Option Args}
    (there : state.phase thread = .telling name data)
    (wakes : ((state.GetCallbackLock name).notify name data).WakeOne name woken) :
    Step state (thread, .advance) (woken.enter thread .signalling)
  /-- Those that wait for any callback are notified. -/
  | signal {state woken : State Thread Args} {thread : Thread}
    (there : state.phase thread = .signalling) (wakes : state.WakeOneAny woken) :
    Step state (thread, .advance) ((woken.setMutex none).enter thread .idle)
  /-- A wait gives up, also one that is woken at that moment. -/
  | timeout {state : State Thread Args} {thread : Thread} {name : String}
    (there : state.phase thread = .asleep name ∨ state.phase thread = .waiting name) :
    Step state (thread, .timeout) (state.enter thread .idle)
  | timeoutAny {state : State Thread Args} {thread : Thread} {names : List String}
    (there : state.phase thread = .asleepAny names ∨ state.phase thread = .entering names) :
    Step state (thread, .timeout) (state.enter thread .idle)
  | spurious {state : State Thread Args} {thread : Thread} {name : String}
    (there : state.phase thread = .asleep name) :
    Step state (thread, .spurious) (state.enter thread (.waiting name))
  | spuriousAny {state : State Thread Args} {thread : Thread} {names : List String}
    (there : state.phase thread = .asleepAny names) :
    Step state (thread, .spurious) (state.enter thread (.entering names))

end State

end Vts.Callback
