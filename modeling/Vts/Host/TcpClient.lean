import Vts.Lib.Runs
import Vts.Python.Text

/-!
# The host's side of a connection to the agent

`SendCommand` and `RecvResponse` of `runners/host/tcp_client/vts_tcp_client.py`, over the file
object that `socket.makefile` of Python 2 gives. The client runs from one `recv` to the next, so
a step is a command that is sent, some bytes that a `recv` gets, or a `recv` that times out. The
agent answers every command once and in order: what it will send is known when the command is
sent, and the delays say when it comes.

`readline` and `read` of the file object move what is buffered into a local variable before they
wait. A timeout therefore loses all that this call of them has read.

Parsing a response is a parameter; that the commands reach the agent is not modelled. Proved here:
as long as no command is sent while an earlier answer is outstanding, and no attempt but the last
one of a call times out inside an answer, every response that is used is the answer to its own
command.
-/

namespace Vts.Host

open Vts.Python Vts.Lib List

/-- A call: what the agent will answer to its command, and how often `RecvResponse` tries again. -/
structure Call where
  answer : Text
  retries : Nat
deriving DecidableEq

/-- What `RecvResponse` returns or raises. -/
inductive Received (Response : Type) where
  | response (response_msg : Response)
  | none
  | ValueError
  | DecodeError
deriving DecidableEq

/-- What the file object waits for: a line, some bytes, or the end of the stream (for a negative
size). -/
inductive Wanted where
  | line
  | bytes (size : Nat)
  | all
deriving DecidableEq

/-- A call that waits in `recv`, with the retries that are left and what is read by now. -/
structure Waiting where
  call : Call
  retries : Nat
  wanted : Wanted
  buf : Text
deriving DecidableEq

/-- The client: the bytes that are answered and not received, the buffer of the file object, the
call that waits and the calls that are over. -/
structure Client (Response : Type) where
  incoming : Text
  rbuf : Text
  waiting : Option Waiting
  finished : List (Call × Received Response)
deriving DecidableEq

inductive Event where
  | send (call : Call)
  | arrive (count : Nat)
  | timeout
deriving DecidableEq

/-- A message of the agent: its length in a line of its own, and its bytes. -/
def frame (answer : Text) : Text := decimal answer.length ++ 10 :: answer

/-- The first line of a text, with its line break, and what follows it. -/
def firstLine (text : Text) : Text := text.takeWhile (· ≠ 10) ++ [10]

def afterLine (text : Text) : Text := (text.dropWhile (· ≠ 10)).drop 1

/-- `text.strip("\n")`. -/
def stripNewlines (text : Text) : Text := (text.dropWhile (· = 10)).rdropWhile (· = 10)

/-- `_rbufsize`. -/
def rbufsize : Nat := 8192

section

variable {Response : Type} (ParseFromString : Text → Option Response)

def Client.finish (client : Client Response) (call : Call) (received : Received Response) :
    Client Response :=
  { client with waiting := none, finished := client.finished ++ [(call, received)] }

/-- What follows `self.channel.read(length)`. -/
def Client.parse (client : Client Response) (call : Call) (data : Text) : Client Response :=
  match ParseFromString data with
  | some response_msg => client.finish call (.response response_msg)
  | none => client.finish call .DecodeError

/-- `self.channel.read(length)`, up to the first `recv`. -/
def Client.read (client : Client Response) (call : Call) (retries : Nat) (length : Int) :
    Client Response :=
  if length < 0 then
    { client with rbuf := [], waiting := some ⟨call, retries, .all, client.rbuf⟩ }
  else if length.toNat ≤ client.rbuf.length then
    { client with rbuf := client.rbuf.drop length.toNat }.parse ParseFromString call
      (client.rbuf.take length.toNat)
  else { client with rbuf := [], waiting := some ⟨call, retries, .bytes length.toNat, client.rbuf⟩ }

/-- What follows `self.channel.readline()`. -/
def Client.readHeader (client : Client Response) (call : Call) (retries : Nat) (line : Text) :
    Client Response :=
  let header := stripNewlines line
  if header = [] then client.read ParseFromString call retries 0
  else
    match parseInt header with
    | some length => client.read ParseFromString call retries length
    | none => client.finish call .ValueError

/-- One attempt of `RecvResponse`, up to the first `recv`. -/
def Client.attempt (client : Client Response) (call : Call) (retries : Nat) : Client Response :=
  if 10 ∈ client.rbuf then
    { client with rbuf := afterLine client.rbuf }.readHeader ParseFromString call retries
      (firstLine client.rbuf)
  else { client with rbuf := [], waiting := some ⟨call, retries, .line, client.rbuf⟩ }

/-- How many bytes are asked for. -/
def Waiting.asked (waiting : Waiting) : Nat :=
  match waiting.wanted with
  | .line => rbufsize
  | .bytes size => size - waiting.buf.length
  | .all => rbufsize

/-- The loops of `readline` and `read`, when `recv` has got `data`. -/
def Client.recv (client : Client Response) (waiting : Waiting) (data : Text) : Client Response :=
  match waiting.wanted with
  | .line =>
    if 10 ∈ data then
      { client with rbuf := afterLine data }.readHeader ParseFromString waiting.call
        waiting.retries (waiting.buf ++ firstLine data)
    else { client with waiting := some { waiting with buf := waiting.buf ++ data } }
  | .bytes _ =>
    if data.length = waiting.asked then
      client.parse ParseFromString waiting.call (waiting.buf ++ data)
    else { client with waiting := some { waiting with buf := waiting.buf ++ data } }
  | .all => { client with waiting := some { waiting with buf := waiting.buf ++ data } }

/-- A step of the client. A `recv` gets at least one byte, and none while nothing is there. -/
def Client.step (client : Client Response) : Event → Client Response
  | .send call =>
    match client.waiting with
    | some _ => client
    | none =>
      { client with incoming := client.incoming ++ frame call.answer }.attempt ParseFromString call
        call.retries
  | .arrive count =>
    match client.waiting with
    | none => client
    | some waiting =>
      if client.incoming = [] then client
      else
        let size := min (max 1 count) waiting.asked
        { client with incoming := client.incoming.drop size }.recv ParseFromString waiting
          (client.incoming.take size)
  | .timeout =>
    match client.waiting with
    | none => client
    | some waiting =>
      match waiting.retries with
      | 0 => client.finish waiting.call .none
      | retries + 1 => client.attempt ParseFromString waiting.call retries

/-- The client of a new connection. -/
def Client.connected : Client Response := ⟨[], [], none, []⟩

/-- Every response that was used is the answer to its own command. -/
def Client.Paired (client : Client Response) : Prop :=
  ∀ call response_msg, (call, .response response_msg) ∈ client.finished →
    ParseFromString call.answer = some response_msg

/-- A command is sent when no answer is outstanding, and a timeout comes before the first byte of
an answer or in the last attempt. -/
def Client.InTime (client : Client Response) : Event → Prop
  | .send _ => client.waiting = none → client.incoming = []
  | .arrive _ => True
  | .timeout => ∀ waiting, client.waiting = some waiting →
      waiting.wanted = .line ∧ waiting.buf = [] ∨ waiting.retries = 0

end

/-! ## Lines -/

section

variable {front : Text} (inside : 10 ∉ front)

include inside in
theorem firstLine_append (back : Text) : firstLine (front ++ 10 :: back) = front ++ [10] := by
  have all : ∀ byte ∈ front, (decide (byte ≠ 10)) = true := by
    intro byte listed
    exact decide_eq_true fun equal => inside (equal ▸ listed)
  rw [firstLine, takeWhile_append_of_pos all, takeWhile_cons_of_neg (by simp),
    append_nil]

include inside in
theorem afterLine_append (back : Text) : afterLine (front ++ 10 :: back) = back := by
  have all : ∀ byte ∈ front, (decide (byte ≠ 10)) = true := by
    intro byte listed
    exact decide_eq_true fun equal => inside (equal ▸ listed)
  rw [afterLine, dropWhile_append_of_pos all, dropWhile_cons_of_neg (by simp)]
  rfl

end

theorem newline_not_mem_decimal (value : Nat) : 10 ∉ decimal value := by
  intro listed
  have digit := isDigit_of_mem_decimal listed
  revert digit
  decide

theorem stripNewlines_header (value : Nat) :
    stripNewlines (decimal value ++ [10]) = decimal value := by
  have free := newline_not_mem_decimal value
  obtain ⟨first, rest, equal⟩ := exists_cons_of_ne_nil (decimal_ne_nil value)
  have kept : (decimal value ++ [10]).dropWhile (· = 10) = decimal value ++ [10] := by
    rw [equal, cons_append, dropWhile_cons_of_neg]
    rintro same
    exact free (by rw [equal, of_decide_eq_true same]; exact mem_cons_self)
  rw [stripNewlines, kept, rdropWhile_concat_pos _ _ _ (by simp),
    rdropWhile_eq_self_iff]
  intro nonempty same
  exact free (of_decide_eq_true same ▸ getLast_mem nonempty)

/-- The header of an answer is complete when the line break has come. -/
theorem frame_split {answer buf data rest : Text} (whole : buf ++ (data ++ rest) = frame answer)
    (unbroken : 10 ∉ buf) (broken : 10 ∈ data) :
    buf ++ firstLine data = decimal answer.length ++ [10] ∧ afterLine data ++ rest = answer := by
  obtain ⟨line, more, rfl, free⟩ := eq_append_cons_of_mem broken
  have both : 10 ∉ buf ++ line := by
    rw [mem_append]
    exact not_or.mpr ⟨unbroken, free⟩
  have joined : (buf ++ line) ++ 10 :: (more ++ rest) = frame answer := by
    rw [← whole]
    simp
  rw [firstLine_append free, afterLine_append free]
  constructor
  · have header := congrArg firstLine joined
    rwa [firstLine_append both, frame, firstLine_append (newline_not_mem_decimal _),
      append_assoc] at header
  · have body := congrArg afterLine joined
    rwa [afterLine_append both, frame, afterLine_append (newline_not_mem_decimal _)] at body

/-! ## Answers and commands -/

section

variable {Response : Type} {ParseFromString : Text → Option Response}

/-- What a waiting call has read of its own answer, with the bytes that have not come. -/
def Waiting.Reads (waiting : Waiting) (incoming : Text) : Prop :=
  match waiting.wanted with
  | .line => waiting.buf ++ incoming = frame waiting.call.answer ∧ 10 ∉ waiting.buf
  | .bytes size => size = waiting.call.answer.length ∧
      waiting.buf ++ incoming = waiting.call.answer ∧ waiting.buf.length < size
  | .all => False

/-- The responses are paired, and a call that waits reads its own answer. -/
def Client.Synchronous (ParseFromString : Text → Option Response) (client : Client Response) :
    Prop :=
  client.Paired ParseFromString ∧ client.rbuf = [] ∧
    ∀ waiting, client.waiting = some waiting → waiting.Reads client.incoming

variable {client : Client Response} {call : Call}

theorem Client.Paired.finish (paired : client.Paired ParseFromString)
    {received : Received Response} (own : ∀ response_msg, received = .response response_msg →
      ParseFromString call.answer = some response_msg) :
    (client.finish call received).Paired ParseFromString := by
  intro other response_msg listed
  rcases mem_append.mp listed with earlier | last
  · exact paired other response_msg earlier
  · cases mem_singleton.mp last
    exact own response_msg rfl

/-- A call that has read its whole answer uses it. -/
theorem Client.parse_synchronous (paired : client.Paired ParseFromString)
    (empty : client.rbuf = []) :
    (client.parse ParseFromString call call.answer).Synchronous ParseFromString := by
  unfold Client.parse
  split
  · rename_i response_msg parsed
    refine ⟨paired.finish fun _ same => ?_, empty, fun _ none => nomatch none⟩
    cases same
    exact parsed
  · exact ⟨paired.finish (fun _ same => nomatch same), empty, fun _ none => nomatch none⟩

theorem Client.readHeader_synchronous (paired : client.Paired ParseFromString)
    (rest : client.rbuf ++ client.incoming = call.answer) (retries : Nat) :
    (client.readHeader ParseFromString call retries
      (decimal call.answer.length ++ [10])).Synchronous ParseFromString := by
  have length : (client.rbuf ++ client.incoming).length = call.answer.length :=
    congrArg List.length rest
  rw [length_append] at length
  unfold Client.readHeader
  dsimp only
  rw [stripNewlines_header, if_neg (decimal_ne_nil _), parseInt_decimal]
  dsimp only
  unfold Client.read
  rw [if_neg (by omega), Int.toNat_natCast]
  split
  · rename_i enough
    have vacant : client.incoming = [] := eq_nil_of_length_eq_zero (by omega)
    rw [vacant, append_nil] at rest
    rw [rest, take_length]
    refine Client.parse_synchronous paired ?_
    simp
  · rename_i more
    refine ⟨paired, rfl, ?_⟩
    rintro _ ⟨⟩
    exact ⟨rfl, rest, Nat.lt_of_not_le more⟩

/-- An attempt that starts with nothing in the buffer waits for the header. -/
theorem Client.attempt_synchronous (paired : client.Paired ParseFromString)
    (empty : client.rbuf = []) (whole : client.incoming = frame call.answer) (retries : Nat) :
    (client.attempt ParseFromString call retries).Synchronous ParseFromString := by
  unfold Client.attempt
  rw [empty, if_neg (by simp)]
  refine ⟨paired, rfl, ?_⟩
  rintro _ ⟨⟩
  exact ⟨whole, by simp⟩

theorem Client.Synchronous.recv {waiting : Waiting} {data : Text}
    (paired : client.Paired ParseFromString) (empty : client.rbuf = [])
    (reads : waiting.Reads (data ++ client.incoming)) (asked : data.length ≤ waiting.asked) :
    (client.recv ParseFromString waiting data).Synchronous ParseFromString := by
  obtain ⟨call, retries, wanted, buf⟩ := waiting
  unfold Client.recv
  cases wanted with
  | line =>
    dsimp only
    split
    · rename_i broken
      obtain ⟨header, body⟩ := frame_split reads.1 reads.2 broken
      rw [header]
      refine Client.readHeader_synchronous ?_ body _
      exact paired
    · rename_i unbroken
      refine ⟨paired, empty, ?_⟩
      rintro _ ⟨⟩
      refine ⟨by rw [append_assoc]; exact reads.1, ?_⟩
      rw [mem_append]
      exact not_or.mpr ⟨reads.2, unbroken⟩
  | bytes size =>
    obtain ⟨same, whole, short⟩ := reads
    have length : (buf ++ (data ++ client.incoming)).length = size := by
      rw [whole, same]
    rw [length_append, length_append] at length
    unfold Waiting.asked at asked ⊢
    dsimp only at asked short ⊢
    split
    · rename_i last
      have vacant : client.incoming = [] := eq_nil_of_length_eq_zero (by omega)
      rw [vacant, append_nil] at whole
      rw [whole]
      exact Client.parse_synchronous paired empty
    · rename_i more
      refine ⟨paired, empty, ?_⟩
      rintro _ ⟨⟩
      refine ⟨same, by rw [append_assoc]; exact whole, ?_⟩
      dsimp only
      rw [length_append]
      omega
  | all => exact reads.elim

/-- Steps in time keep calls and answers together. -/
theorem Client.Synchronous.step (synchronous : client.Synchronous ParseFromString) {event : Event}
    (inTime : client.InTime event) :
    (client.step ParseFromString event).Synchronous ParseFromString := by
  obtain ⟨paired, empty, reads⟩ := synchronous
  cases event with
  | send call =>
    unfold Client.step
    cases state : client.waiting with
    | some waiting => exact ⟨paired, empty, reads⟩
    | none =>
      dsimp only
      refine Client.attempt_synchronous ?_ ?_ ?_ _
      · exact paired
      · exact empty
      · dsimp only
        rw [inTime state, nil_append]
  | arrive count =>
    unfold Client.step
    cases state : client.waiting with
    | none => exact ⟨paired, empty, reads⟩
    | some waiting =>
      dsimp only
      split
      · exact ⟨paired, empty, reads⟩
      · refine Client.Synchronous.recv ?_ ?_ ?_ ?_
        · exact paired
        · exact empty
        · dsimp only
          rw [take_append_drop]
          exact reads waiting state
        · rw [length_take]
          omega
  | timeout =>
    unfold Client.step
    cases state : client.waiting with
    | none => exact ⟨paired, empty, reads⟩
    | some waiting =>
      dsimp only
      split
      · exact ⟨paired.finish (fun _ same => nomatch same), empty, fun _ none => nomatch none⟩
      · rename_i retries more
        rcases inTime waiting state with ⟨line, unread⟩ | last
        · have own := reads waiting state
          simp only [Waiting.Reads, line, unread, nil_append] at own
          exact Client.attempt_synchronous paired empty own.1 _
        · omega

/-- In every run in which each command is sent when no earlier answer is outstanding, and attempts
time out before their answers begin or at the end of their calls, every response that a call uses
is the answer to its own command. -/
theorem responses_paired {events : List Event}
    (inTime : AllMeet (Client.step ParseFromString) Client.InTime Client.connected events) :
    (run (Client.step ParseFromString) Client.connected events).Paired ParseFromString := by
  have start : (Client.connected : Client Response).Synchronous ParseFromString :=
    ⟨fun _ _ listed => (not_mem_nil listed).elim, rfl, fun _ none => nomatch none⟩
  exact (inTime.invariant (fun _ _ held met => held.step met) start).1

end

/-- The `response_code` of a response that has no other field. -/
def parseCode : Text → Option UInt8
  | [8, response_code] => some response_code
  | _ => none

/-- Two calls, of which the first one is tried again after a timeout. -/
theorem responses_paired_retried :
    (run (Client.step parseCode) Client.connected
      [.send ⟨[8, 1], 2⟩, .timeout, .arrive 3, .arrive 100, .send ⟨[8, 2], 0⟩,
        .arrive 1, .arrive 100]).Paired parseCode ∧
    (run (Client.step parseCode) Client.connected
      [.send ⟨[8, 1], 2⟩, .timeout, .arrive 3, .arrive 100, .send ⟨[8, 2], 0⟩,
        .arrive 1, .arrive 100]).finished =
      [(⟨[8, 1], 2⟩, .response 1), (⟨[8, 2], 0⟩, .response 2)] := by
  refine ⟨responses_paired ?_, by decide +kernel⟩
  simp only [AllMeet, Client.InTime]
  decide +kernel

/-- After a call that gave up, the next one uses its answer. -/
theorem responses_paired_late :
    (run (Client.step parseCode) Client.connected
      [.send ⟨[8, 1], 0⟩, .timeout, .send ⟨[8, 2], 0⟩, .arrive 100]).finished =
        [(⟨[8, 1], 0⟩, .none), (⟨[8, 2], 0⟩, .response 1)] ∧
      ¬ (run (Client.step parseCode) Client.connected
        [.send ⟨[8, 1], 0⟩, .timeout, .send ⟨[8, 2], 0⟩, .arrive 100]).Paired parseCode := by
  have finished : (run (Client.step parseCode) Client.connected
      [.send ⟨[8, 1], 0⟩, .timeout, .send ⟨[8, 2], 0⟩, .arrive 100]).finished =
        [(⟨[8, 1], 0⟩, .none), (⟨[8, 2], 0⟩, .response 1)] := by
    decide +kernel
  refine ⟨finished, fun paired => ?_⟩
  have wrong := paired ⟨[8, 2], 0⟩ 1 (by rw [finished]; simp)
  exact absurd wrong (by decide)

end Vts.Host
