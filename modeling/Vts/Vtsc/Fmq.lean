import Vts.Lib.BoundedQueue
import Vts.Vtsc.Replay

/-!
# Recorded message queues

`GenerateProfilerForFMQSyncVariable` and `GenerateProfilerForFMQUnsyncVariable` of
`compilation_tools/vtsc/code_gen/profiler/HalHidlProfilerCodeGen.cpp`, which emit the code that
records what is in a queue. The queue is the object that the emitted declaration constructs, a
bounded one that nobody else uses meanwhile. The code reads the items one by one; that of the
synchronized kind writes each back. The bound of the loop is the number of items that can be read at
that moment, converted to `int`.

Proved here: a synchronized queue with less than `2 ^ 31` items is recorded as a whole and left as
it was. Of an unsynchronized queue every item that is recorded is gone, so the loop stops half way.
-/

namespace Vts.Vtsc

open Vts.Lib Children

/-! ## The emitted code -/

inductive FmqFlavor where
  | kSynchronizedReadWrite
  | kUnsynchronizedWrite
deriving DecidableEq

/-- The types of queues. -/
inductive FmqType where
  | TYPE_FMQ_SYNC
  | TYPE_FMQ_UNSYNC
deriving DecidableEq

/-- The message of a queue. -/
structure FmqMessage where
  type : FmqType
  fmq_value : List Message

/-- `MessageQueue<element_type, flavor> queue_name(...)`, a loop over what is available, if the queue
is valid, and in it the reading of an item, the writing back, if any, and the code for the item. -/
structure FmqCode where
  type : FmqType
  flavor : FmqFlavor
  queue_name : String
  element_type : Spec
  fmq_item_name : String
  temp_result_name : String
  writes_back : Bool
  body : WriteCode

def GenerateProfilerForFMQSyncVariable (fmq_value : Spec) (arg_name : String) : FmqCode where
  type := .TYPE_FMQ_SYNC
  flavor := .kSynchronizedReadWrite
  queue_name := arg_name ++ "_q"
  element_type := fmq_value
  fmq_item_name := arg_name ++ "_item_i"
  temp_result_name := arg_name ++ "_result"
  writes_back := true
  body := GenerateProfilerForTypedVariable fmq_value (arg_name ++ "_item_i")
    (.var (arg_name ++ "_result"))

def GenerateProfilerForFMQUnsyncVariable (fmq_value : Spec) (arg_name : String) : FmqCode where
  type := .TYPE_FMQ_UNSYNC
  flavor := .kUnsynchronizedWrite
  queue_name := arg_name ++ "_q"
  element_type := fmq_value
  fmq_item_name := arg_name ++ "_item_i"
  temp_result_name := arg_name ++ "_result"
  writes_back := false
  body := GenerateProfilerForTypedVariable fmq_value (arg_name ++ "_item_i")
    (.var (arg_name ++ "_result"))

/-- The code for a queue of either kind. -/
def GenerateProfilerForFMQ : FmqFlavor → Spec → String → FmqCode
  | .kSynchronizedReadWrite => GenerateProfilerForFMQSyncVariable
  | .kUnsynchronizedWrite => GenerateProfilerForFMQUnsyncVariable

namespace FmqCode

/-- The queue, and the items that are recorded. -/
structure State where
  queue : BoundedQueue Value
  fmq_value : List Message

/-- `(int)queue_name.availableToRead()` -/
def availableToRead (state : State) : Int :=
  ScalarType.int32_t.convert state.queue.items.length

/-- A round of the loop. An item that cannot be read leaves the variable as it was declared. -/
def round (device : Device) (code : FmqCode) (i : Nat) (state : State) : Except Fault State :=
  let (temp_result, queue) :=
    (state.queue.read).getD (device.fresh code.element_type, state.queue)
  let queue := if code.writes_back then (queue.write temp_result).2 else queue
  match code.body.run device [("i", i)] temp_result ⟨[(code.fmq_item_name, [])], .empty⟩ with
  | .error fault => .error fault
  | .ok done => .ok ⟨queue, state.fmq_value ++ [done.root]⟩

/-- What is recorded of a queue, unless it is not valid, and the queue afterwards. -/
def run (device : Device) (code : FmqCode) : Option (BoundedQueue Value) →
    Except Fault (FmqMessage × Option (BoundedQueue Value))
  | none => .ok (⟨code.type, []⟩, none)
  | some queue =>
    (countWhile .indexOverflow availableToRead (code.round device) indices 0 ⟨queue, []⟩).map
      fun state => (⟨code.type, state.fmq_value⟩, some state.queue)

section

variable {device : Device} {code : FmqCode}

@[simp] theorem availableToRead_of_short {state : State} (short : state.queue.items.length < 2 ^ 31) :
    availableToRead state = state.queue.items.length := by
  refine ScalarType.convert_of_inRange ⟨?_, ?_⟩
  · simp only [ScalarType.least]
    omega
  · simp only [ScalarType.least, ScalarType.size]
    omega

/-- No bound is more than the number of items, or more than an `int`. -/
theorem availableToRead_le (state : State) :
    availableToRead state ≤ state.queue.items.length ∧ availableToRead state < 2 ^ 31 := by
  simp only [availableToRead, ScalarType.convert, ScalarType.least, ScalarType.size]
  omega

/-- Every round takes the first item of the queue, and one of a synchronized queue writes it back. -/
theorem round_consumes {i : Nat} {state next : State} (more : (i : Int) < availableToRead state)
    (done : code.round device i state = .ok next) :
    next.fmq_value.length = state.fmq_value.length + 1 ∧
      next.queue.items.length + (if code.writes_back then 0 else 1) = state.queue.items.length := by
  have some_left : 0 < state.queue.items.length := by
    have below := (availableToRead_le state).1
    omega
  have read := BoundedQueue.read_dropped some_left
  rw [BoundedQueue.dropped_zero, Nat.zero_add] at read
  have length := BoundedQueue.length_dropped state.queue 1
  have room : (state.queue.dropped 1).items.length < (state.queue.dropped 1).capacity := by
    have fits : state.queue.items.length ≤ (state.queue.dropped 1).capacity := state.queue.fits
    omega
  rw [round, read] at done
  simp only [Option.getD_some] at done
  split at done
  · cases done
  · cases done
    refine ⟨by simp, ?_⟩
    dsimp only
    split
    · rw [BoundedQueue.length_write room]
      omega
    · omega

end

section

variable {device : Device} {fmq_value : Spec} {arg_name : String} {queue : BoundedQueue Value}

theorem map_take_succ {α β : Type} (f : α → β) {items : List α} {count : Nat}
    (more : count < items.length) :
    (items.take count).map f ++ [f items[count]] = (items.take (count + 1)).map f := by
  rw [← List.take_append_getElem more, List.map_append, List.map_singleton]

theorem round_records (flavor : FmqFlavor) {i : Nat} {state : State} {item : Value}
    {rest : BoundedQueue Value} (described : fmq_value.Described) (formed : fmq_value.WellFormed)
    (holds : fmq_value.Holds item) (read : state.queue.read = some (item, rest)) :
    (GenerateProfilerForFMQ flavor fmq_value arg_name).round device i state =
      .ok ⟨if flavor = .kSynchronizedReadWrite then (rest.write item).2 else rest,
        state.fmq_value ++ [profile device fmq_value item .empty]⟩ := by
  have does := GenerateProfilerForTypedVariable_does device fmq_value (arg_name ++ "_item_i")
    (.var (arg_name ++ "_result")) [("i", i)] item item described formed (.var _ _) holds rfl
  obtain ⟨pointers, done, -⟩ := does ⟨[(arg_name ++ "_item_i", [])], .empty⟩ [] .empty
    List.lookup_cons_self rfl
  rw [putAt_nil] at done
  cases flavor with
  | kSynchronizedReadWrite =>
    simp [round, read, GenerateProfilerForFMQ, GenerateProfilerForFMQSyncVariable, done]
  | kUnsynchronizedWrite =>
    simp [round, read, GenerateProfilerForFMQ, GenerateProfilerForFMQUnsyncVariable, done]

/-- The loop over a synchronized queue turns it once. -/
theorem run_sync (described : fmq_value.Described) (formed : fmq_value.WellFormed)
    (holds : ∀ item ∈ queue.items, fmq_value.Holds item) (short : queue.items.length < 2 ^ 31) :
    (GenerateProfilerForFMQ .kSynchronizedReadWrite fmq_value arg_name).run device (some queue) =
      .ok (⟨.TYPE_FMQ_SYNC, queue.items.map (profile device fmq_value · .empty)⟩, some queue) := by
  let states (count : Nat) : State :=
    ⟨queue.turned count, (queue.items.take count).map (profile device fmq_value · .empty)⟩
  have available : ∀ count, availableToRead (states count) = queue.items.length := by
    intro count
    have same : (states count).queue.items.length = queue.items.length := queue.length_turned count
    rw [availableToRead_of_short (same ▸ short), same]
  have round : ∀ count, count < queue.items.length →
      (GenerateProfilerForFMQ .kSynchronizedReadWrite fmq_value arg_name).round device count
        (states count) = .ok (states (count + 1)) := by
    intro count more
    obtain ⟨rest, read, written⟩ := BoundedQueue.read_turned more
    rw [round_records .kSynchronizedReadWrite described formed
      (holds _ (List.getElem_mem more)) read, if_pos rfl, written]
    exact congrArg (fun messages => Except.ok (State.mk (queue.turned (count + 1)) messages))
      (map_take_succ (profile device fmq_value · .empty) more)
  have started : (⟨queue, []⟩ : State) = states 0 := by
    simp [states, BoundedQueue.turned_zero]
  have loop : countWhile .indexOverflow availableToRead
      ((GenerateProfilerForFMQ .kSynchronizedReadWrite fmq_value arg_name).round device) indices 0
        ⟨queue, []⟩ = .ok (states queue.items.length) := by
    rw [started]
    refine countWhile_run states ?_ ?_ round (Nat.zero_le _) ?_
    · intro count more
      rw [available]
      exact_mod_cast more
    · exact Int.le_of_eq (available _)
    · rw [indices, Nat.zero_add]
      exact short
  rw [run, loop]
  simp [Except.map, states, BoundedQueue.turned_length, GenerateProfilerForFMQ,
    GenerateProfilerForFMQSyncVariable]

/-- Every item that is read from an unsynchronized queue is gone, and the loop ends half way. -/
theorem run_unsync (described : fmq_value.Described) (formed : fmq_value.WellFormed)
    (holds : ∀ item ∈ queue.items, fmq_value.Holds item) (short : queue.items.length < 2 ^ 31) :
    (GenerateProfilerForFMQ .kUnsynchronizedWrite fmq_value arg_name).run device (some queue) =
      .ok (⟨.TYPE_FMQ_UNSYNC, (queue.items.take ((queue.items.length + 1) / 2)).map
        (profile device fmq_value · .empty)⟩,
        some (queue.dropped ((queue.items.length + 1) / 2))) := by
  let states (count : Nat) : State :=
    ⟨queue.dropped count, (queue.items.take count).map (profile device fmq_value · .empty)⟩
  have available : ∀ count, availableToRead (states count) = (queue.items.length - count : Nat) := by
    intro count
    have same : (states count).queue.items.length = queue.items.length - count :=
      queue.length_dropped count
    rw [availableToRead_of_short (by omega), same]
  have round : ∀ count, count < (queue.items.length + 1) / 2 →
      (GenerateProfilerForFMQ .kUnsynchronizedWrite fmq_value arg_name).round device count
        (states count) = .ok (states (count + 1)) := by
    intro count more
    have inside : count < queue.items.length := by omega
    rw [round_records .kUnsynchronizedWrite described formed
      (holds _ (List.getElem_mem inside)) (BoundedQueue.read_dropped inside), if_neg nofun]
    exact congrArg (fun messages => Except.ok (State.mk (queue.dropped (count + 1)) messages))
      (map_take_succ (profile device fmq_value · .empty) inside)
  have loop : countWhile .indexOverflow availableToRead
      ((GenerateProfilerForFMQ .kUnsynchronizedWrite fmq_value arg_name).round device) indices 0
        (states 0) = .ok (states ((queue.items.length + 1) / 2)) := by
    refine countWhile_run states ?_ ?_ round (Nat.zero_le _) ?_
    · intro count more
      rw [available]
      omega
    · rw [available]
      omega
    · rw [indices]
      omega
  have started : (⟨queue, []⟩ : State) = states 0 := rfl
  rw [run, started, loop]
  rfl

end

end FmqCode

/-! ## What is recorded -/

/-- The type of the message for a queue. -/
def FmqFlavor.type : FmqFlavor → FmqType
  | kSynchronizedReadWrite => .TYPE_FMQ_SYNC
  | kUnsynchronizedWrite => .TYPE_FMQ_UNSYNC

/-- The number of items of which the loop reaches each. -/
def FmqFlavor.Reaches : FmqFlavor → Nat → Prop
  | kSynchronizedReadWrite, count => count < 2 ^ 31
  | kUnsynchronizedWrite, count => count ≤ 1

instance : (flavor : FmqFlavor) → (count : Nat) → Decidable (flavor.Reaches count)
  | .kSynchronizedReadWrite, count => inferInstanceAs (Decidable (count < 2 ^ 31))
  | .kUnsynchronizedWrite, count => inferInstanceAs (Decidable (count ≤ 1))

section

variable {device : Device} {fmq_value : Spec} {arg_name : String} {queue left : BoundedQueue Value}

/-- After as many rounds of a loop over `count` items: every round records a message, and one over
an unsynchronized queue takes an item as well, so it goes on while more are left than were taken. -/
def FmqFlavor.Rounds (flavor : FmqFlavor) (count rounds : Nat) (state : FmqCode.State) : Prop :=
  state.fmq_value.length = rounds ∧
    match flavor with
    | kSynchronizedReadWrite => rounds < 2 ^ 31
    | kUnsynchronizedWrite => state.queue.items.length + rounds = count ∧ 2 * rounds ≤ count + 1

theorem FmqFlavor.Rounds.next {flavor : FmqFlavor} {count rounds : Nat} {state next : FmqCode.State}
    (more : (rounds : Int) < FmqCode.availableToRead state)
    (held : flavor.Rounds count rounds state)
    (done : (GenerateProfilerForFMQ flavor fmq_value arg_name).round device rounds state =
      .ok next) : flavor.Rounds count (rounds + 1) next := by
  have available := FmqCode.availableToRead_le state
  obtain ⟨recorded, taken⟩ := FmqCode.round_consumes more done
  obtain ⟨messages, kept⟩ := held
  cases flavor with
  | kSynchronizedReadWrite =>
    refine ⟨by omega, ?_⟩
    dsimp only at kept ⊢
    omega
  | kUnsynchronizedWrite =>
    simp only [GenerateProfilerForFMQ, GenerateProfilerForFMQUnsyncVariable] at taken
    refine ⟨by omega, ?_⟩
    dsimp only at kept ⊢
    simp only [Bool.false_eq_true, if_false] at taken
    omega

/-- A loop that has recorded as many messages as there were items has reached each. -/
theorem reaches_of_records {flavor : FmqFlavor} {message : FmqMessage}
    (recorded : (GenerateProfilerForFMQ flavor fmq_value arg_name).run device (some queue) =
      .ok (message, some left)) (all : message.fmq_value.length = queue.items.length) :
    flavor.Reaches queue.items.length := by
  rw [FmqCode.run] at recorded
  cases loop : countWhile .indexOverflow FmqCode.availableToRead
      ((GenerateProfilerForFMQ flavor fmq_value arg_name).round device) indices 0 ⟨queue, []⟩ with
  | error fault =>
    rw [loop] at recorded
    cases recorded
  | ok state =>
    rw [loop] at recorded
    cases recorded
    have start : flavor.Rounds queue.items.length 0 ⟨queue, []⟩ := by
      cases flavor <;> simp [FmqFlavor.Rounds]
    obtain ⟨rounds, ⟨messages, kept⟩, -⟩ :=
      countWhile_preserves (fun _ _ _ more held done => held.next more done) start loop
    have last : rounds = queue.items.length := messages.symm.trans all
    cases flavor with
    | kSynchronizedReadWrite => exact last ▸ kept
    | kUnsynchronizedWrite =>
      dsimp only [FmqFlavor.Reaches] at kept ⊢
      omega

end

/-- A queue with room for four numbers that holds two. -/
def twoOfFour : BoundedQueue Value := ⟨4, [.scalar 7, .scalar 9], by decide⟩

theorem twoOfFour_holds : ∀ item ∈ twoOfFour.items, (Spec.scalar .int32_t).Holds item := by
  simp [twoOfFour, Spec.Holds, ScalarType.InRange, ScalarType.least, ScalarType.size]

end Vts.Vtsc
