import Vts.Comm.Socket

/-!
# Framing on a driver socket

Messages are sent on one end of a socket and received on the other one. Every call of `write` and
`read` moves at least one byte. Proved here: if all sends return true, then the messages arrive one
by one, and `VtsSocketRecvMessage` accepts those that are valid, exactly when every header was
written whole, no message has the length `2 ^ 31 - 1`, and no valid message is empty.

A header that was cut off is never made good. The reader takes a break in the message, or in a
later header, for the end of the line, and is at least two bytes ahead of the frames from then on.
So it waits for bytes in the end.
-/

namespace Vts.Comm

open Vts.Lib Vts.Python List

/-- A call of `VtsSocketSendBytes`, with the results of its calls of `write`. -/
structure Send where
  message : Text
  results : List Int
deriving DecidableEq

namespace Send

/-- The number of bytes that the call of `write` for the header may take. -/
def headerWrite (send : Send) : Int := send.results.headD 0

/-- The bytes that a send writes which returns true. -/
def frame (send : Send) : Text :=
  (header send.message).take send.headerWrite.toNat ++ send.message

/-- The header is written whole. -/
def Whole (send : Send) : Prop := ((header send.message).length : Int) ≤ send.headerWrite

end Send

def frames (sends : List Send) : Text := sends.flatMap Send.frame

/-- All sends return true, and write the stream. -/
def SentAll (sockfd_ : Int) : List Send → Text → Prop
  | [], stream => stream = []
  | send :: sends, stream => ∃ written rest,
    VtsSocketSendBytes sockfd_ send.message send.results = .ok (true, written) ∧
      SentAll sockfd_ sends rest ∧ stream = written ++ rest

/-- The calls of `VtsSocketRecvBytes` return the messages one by one, and `VtsSocketRecvMessage`
in the place of a call returns true if its message is valid. -/
def Receives (sockfd_ : Int) (ParseFromString : Text → Bool) :
    List Text → Text → (Nat → List Int) → Prop
  | [], _, _ => True
  | message :: messages, incoming, reads => ∃ rest,
    VtsSocketRecvBytes sockfd_ incoming (reads 0) = .ok (message, rest) ∧
      (ParseFromString message = true →
        VtsSocketRecvMessage sockfd_ ParseFromString incoming (reads 0) = .ok (true, rest)) ∧
      Receives sockfd_ ParseFromString messages rest fun call => reads (call + 1)

/-- Every call of `read` gets at least one byte, and there are enough of them for the stream. -/
def Enough (length : Nat) (reads : Nat → List Int) : Prop :=
  ∀ call, (∀ result ∈ reads call, 1 ≤ result) ∧ length ≤ (reads call).length

section

variable {sends : List Send} {stream : Text}

/-- What is enough for all the messages is enough for those after the first. -/
theorem enough_later {send : Send} {reads : Nat → List Int}
    (enough : Enough (frames (send :: sends)).length reads) :
    Enough (frames sends).length fun call => reads (call + 1) := by
  have shorter : (frames sends).length ≤ (frames (send :: sends)).length := by
    rw [frames, frames, flatMap_cons, length_append]
    exact Nat.le_add_left _ _
  exact fun call => ⟨(enough (call + 1)).1, Nat.le_trans shorter (enough (call + 1)).2⟩

theorem SentAll.stream_eq {sockfd_ : Int} (short : ∀ send ∈ sends, send.message.length < 2 ^ 31)
    (sent : SentAll sockfd_ sends stream) : stream = frames sends := by
  induction sends generalizing stream with
  | nil => exact sent
  | cons send sends ih =>
    obtain ⟨written, rest, returned, others, rfl⟩ := sent
    obtain ⟨result, results, shape, bytes⟩ :=
      ensures_sendBytes sockfd_ (short send mem_cons_self) send.results _ returned rfl
    have frame : written = send.frame := by
      rw [Send.frame, Send.headerWrite, shape]
      exact bytes
    rw [ih (fun other listed => short other (mem_cons_of_mem _ listed)) others,
      frame]
    rfl

/-- A send that returned true has begun its header. -/
theorem SentAll.begun {sockfd_ : Int} (short : ∀ send ∈ sends, send.message.length < 2 ^ 31)
    (positive : ∀ send ∈ sends, ∀ result ∈ send.results, 1 ≤ result)
    (sent : SentAll sockfd_ sends stream) : ∀ send ∈ sends, 1 ≤ send.headerWrite := by
  induction sends generalizing stream with
  | nil => exact fun _ listed => nomatch listed
  | cons send sends ih =>
    obtain ⟨written, rest, returned, others, -⟩ := sent
    obtain ⟨result, results, shape, -⟩ :=
      ensures_sendBytes sockfd_ (short send mem_cons_self) send.results _ returned rfl
    intro other listed
    rcases mem_cons.mp listed with rfl | inside
    · rw [Send.headerWrite, shape]
      exact positive other listed result (by rw [shape]; exact mem_cons_self)
    · exact ih (fun other listed => short other (mem_cons_of_mem _ listed))
        (fun other listed => positive other (mem_cons_of_mem _ listed)) others other inside

end

section

variable {sends : List Send} (begun : ∀ send ∈ sends, 1 ≤ send.headerWrite)

theorem frame_head {send : Send} (begun : 1 ≤ send.headerWrite) :
    ∃ digit rest, isDigit digit ∧ send.frame = digit :: rest := by
  obtain ⟨digit, digits, shape⟩ :=
    exists_cons_of_ne_nil (decimal_ne_nil send.message.length)
  obtain ⟨count, taken⟩ : ∃ count, send.headerWrite.toNat = count + 1 :=
    ⟨send.headerWrite.toNat - 1, by omega⟩
  refine ⟨digit, (digits ++ [10]).take count ++ send.message, ?_, ?_⟩
  · exact isDigit_of_mem_decimal (by rw [shape]; exact mem_cons_self)
  · rw [Send.frame, header, shape, taken]
    rfl

theorem not_break_of_isDigit {byte : UInt8} (digit : isDigit byte) :
    ¬ (byte = 10 ∨ byte = 13) := by
  rintro (rfl | rfl) <;> cases digit

include begun in
theorem frames_ne_break {last : UInt8} (ends : last = 10 ∨ last = 13) (rest : Text) :
    frames sends ≠ last :: rest := by
  intro same
  cases sends with
  | nil => cases same
  | cons send sends =>
    obtain ⟨digit, others, isDigit, shape⟩ := frame_head (begun send mem_cons_self)
    rw [frames, flatMap_cons, shape] at same
    cases same
    exact not_break_of_isDigit isDigit ends

end

/-- A list that is the same one place further on has its first element at the end. -/
theorem eq_of_cons_eq_concat {α : Type} {first last : α} {list : List α}
    (same : first :: list = list ++ [last]) : first = last := by
  induction list generalizing first with
  | nil => exact (List.cons.inj same).1
  | cons next list ih =>
    obtain ⟨rfl, rest⟩ := List.cons.inj same
    exact ih rest

/-- A reader that takes no fewer bytes before its break than there are before the message ends two
bytes or more behind the message, unless the break is the next byte there. -/
theorem ahead_of_break {front back message rest others : Text} {last : UInt8}
    (same : front ++ last :: (message ++ rest) = back ++ (message ++ others))
    (behind : back.length ≤ front.length) (next : ∀ rest, others ≠ last :: rest) :
    ∃ skipped, others = skipped ++ rest ∧ 2 ≤ skipped.length := by
  have suffix : others = (front ++ last :: message).drop (back ++ message).length ++ rest := by
    have dropped := congrArg (List.drop (back ++ message).length) same
    rw [← append_assoc back, drop_left] at dropped
    rw [← dropped, ← drop_append_of_le_length]
    · rw [append_assoc]
      rfl
    · simp only [length_append, length_cons]
      omega
  refine ⟨_, suffix, ?_⟩
  rcases Nat.lt_or_eq_of_le behind with less | equal
  · simp only [length_drop, length_append, length_cons]
    omega
  · obtain ⟨rfl, tails⟩ := append_inj same equal.symm
    have one : ((front ++ last :: message).drop (front ++ message).length).length = 1 := by
      simp only [length_drop, length_append, length_cons]
      omega
    obtain ⟨byte, single⟩ := length_eq_one_iff.mp one
    rw [single] at suffix
    rw [suffix, ← append_assoc] at tails
    have shifted : last :: message = message ++ [byte] := append_cancel_right tails
    rw [eq_of_cons_eq_concat shifted] at next
    exact absurd suffix (next rest)

/-- The reader has skipped at least two bytes of the frames that are to come. -/
def Ahead (sends : List Send) (incoming : Text) : Prop :=
  ∃ skipped, frames sends = skipped ++ incoming ∧ 2 ≤ skipped.length

/-- A line that stands for the length of a message has room for its header. -/
theorem header_length_le {text message : Text}
    (length : message ≠ [] → atoi text = some (message.length : Int)) (full : message ≠ []) :
    (header message).length ≤ text.length + 1 := by
  rw [header_length]
  exact Nat.succ_le_succ
    (decimal_length_le_of_atoi (length_pos_of_ne_nil full) (length full))

section

variable {send : Send} {sends : List Send}
  (begun : ∀ other ∈ send :: sends, 1 ≤ other.headerWrite)
  {text rest : Text} {last : UInt8} (ends : last = 10 ∨ last = 13)
  (length : send.message ≠ [] → atoi text = some (send.message.length : Int))

include begun ends length

/-- A reader that is ahead stays ahead. -/
theorem Ahead.step (ahead : Ahead (send :: sends) (text ++ last :: (send.message ++ rest))) :
    Ahead sends rest := by
  obtain ⟨skipped, same, two⟩ := ahead
  rw [frames, flatMap_cons, Send.frame, append_assoc, ← append_assoc skipped] at same
  refine ahead_of_break same.symm ?_ fun others => frames_ne_break
    (fun other listed => begun other (mem_cons_of_mem _ listed)) ends others
  rw [length_take, length_append]
  by_cases empty : send.message = []
  · have short : (header send.message).length = 2 := by
      rw [empty]
      rfl
    omega
  · have room := header_length_le length empty
    omega

/-- A reader that meets a header which was cut off gets ahead. -/
theorem ahead_of_cut (cut : ¬ send.Whole)
    (same : frames (send :: sends) = text ++ last :: (send.message ++ rest)) :
    Ahead sends rest := by
  have one := begun send mem_cons_self
  rw [Send.Whole] at cut
  obtain ⟨digit, others, isDigit, shape⟩ := frame_head one
  have started : text ≠ [] := by
    rintro rfl
    rw [frames, flatMap_cons, shape] at same
    obtain ⟨rfl, -⟩ := List.cons.inj same
    exact not_break_of_isDigit isDigit ends
  rw [frames, flatMap_cons, Send.frame, append_assoc] at same
  refine ahead_of_break same.symm ?_ fun others => frames_ne_break
    (fun other listed => begun other (mem_cons_of_mem _ listed)) ends others
  rw [length_take]
  by_cases empty : send.message = []
  · have short : (header send.message).length = 2 := by
      rw [empty]
      rfl
    have long := length_pos_of_ne_nil started
    omega
  · have room := header_length_le length empty
    omega

end

section

variable {sockfd_ : Int} (connected : sockfd_ ≠ -1) {ParseFromString : Text → Bool}

include connected

section

variable {sends : List Send} {incoming : Text} {reads : Nat → List Int} {results : List Int}

theorem Ahead.not_receives (begun : ∀ send ∈ sends, 1 ≤ send.headerWrite)
    (positive : ∀ call, ∀ result ∈ reads call, 1 ≤ result) (ahead : Ahead sends incoming) :
    ¬ Receives sockfd_ ParseFromString (sends.map Send.message) incoming reads := by
  induction sends generalizing incoming reads with
  | nil =>
    obtain ⟨skipped, same, two⟩ := ahead
    have none := append_eq_nil_iff.mp same.symm
    rw [none.1] at two
    exact absurd two (by decide)
  | cons send sends ih =>
    rintro ⟨rest, received, -, others⟩
    obtain ⟨text, last, rfl, ends, length⟩ :=
      ensures_recvBytes connected incoming (positive 0) _ received
    refine ih (fun other listed => begun other (mem_cons_of_mem _ listed))
      (fun call => positive (call + 1)) ?_ others
    exact ahead.step begun ends fun full => (length full).1

/-- A frame that was written whole is received, and the next ones are left. -/
theorem received_of_whole {send : Send} (whole : send.Whole)
    (small : send.message.length + 1 < 2 ^ 31) (positive : ∀ result ∈ results, 1 ≤ result)
    (enough : (frames (send :: sends)).length ≤ results.length) :
    VtsSocketRecvBytes sockfd_ (frames (send :: sends)) results =
      .ok (send.message, frames sends) := by
  have all : (header send.message).take send.headerWrite.toNat = header send.message := by
    rw [Send.Whole] at whole
    exact take_of_length_le (by omega)
  have stream : frames (send :: sends) =
      header send.message ++ (send.message ++ frames sends) := by
    rw [frames, flatMap_cons, Send.frame, all, append_assoc]
    rfl
  rw [stream] at enough ⊢
  refine recvBytes_frame connected small positive (Nat.le_trans ?_ enough)
  simp only [length_append]
  omega

theorem recvMessage_eq {message rest : Text}
    (received : VtsSocketRecvBytes sockfd_ incoming results = .ok (message, rest)) :
    VtsSocketRecvMessage sockfd_ ParseFromString incoming results =
      .ok (if message.length = 0 then (false, rest) else (ParseFromString message, rest)) := by
  rw [VtsSocketRecvMessage, if_neg connected, received]
  rfl

theorem whole_of_receives (begun : ∀ send ∈ sends, 1 ≤ send.headerWrite)
    (enough : Enough (frames sends).length reads)
    (received : Receives sockfd_ ParseFromString (sends.map Send.message) (frames sends) reads) :
    ∀ send ∈ sends, send.Whole ∧ send.message.length ≠ 2 ^ 31 - 1 ∧
      (ParseFromString send.message = true → send.message ≠ []) := by
  induction sends generalizing reads with
  | nil => exact fun _ listed => nomatch listed
  | cons send sends ih =>
    obtain ⟨rest, first, valid, others⟩ := received
    have later : ∀ other ∈ sends, 1 ≤ other.headerWrite := fun other listed =>
      begun other (mem_cons_of_mem _ listed)
    obtain ⟨text, last, split, ends, length⟩ :=
      ensures_recvBytes connected _ (enough 0).1 _ first
    have whole : send.Whole := by
      by_contra cut
      have ahead := ahead_of_cut begun ends (fun full => (length full).1) cut split
      exact ahead.not_receives connected later (fun call => (enough (call + 1)).1) others
    have small : send.message.length + 1 < 2 ^ 31 := by
      by_cases empty : send.message = []
      · rw [empty]
        decide
      · exact (length empty).2
    obtain rfl : frames sends = rest := by
      rw [received_of_whole connected whole small (enough 0).1 (enough 0).2] at first
      exact (Prod.mk.inj (Except.ok.inj first)).2
    intro other listed
    rcases mem_cons.mp listed with rfl | inside
    · refine ⟨whole, by omega, fun parsed empty => ?_⟩
      have accepted := valid parsed
      rw [recvMessage_eq connected first, if_pos (by rw [empty]; rfl)] at accepted
      cases accepted
    · exact ih later (enough_later enough) others other inside

/-- What was written whole is received one by one. -/
theorem receives_of_whole (whole : ∀ send ∈ sends, send.Whole ∧ send.message.length + 1 < 2 ^ 31 ∧
      (ParseFromString send.message = true → send.message ≠ []))
    (enough : Enough (frames sends).length reads) :
    Receives sockfd_ ParseFromString (sends.map Send.message) (frames sends) reads := by
  induction sends generalizing reads with
  | nil => trivial
  | cons send sends ih =>
    obtain ⟨all, small, full⟩ := whole send mem_cons_self
    have first := received_of_whole connected all small (enough 0).1 (enough 0).2
    refine ⟨_, first, fun parsed => ?_, ih
      (fun other listed => whole other (mem_cons_of_mem _ listed)) (enough_later enough)⟩
    have some := length_pos_of_ne_nil (full parsed)
    rw [recvMessage_eq connected first, if_neg (by omega), parsed]

end

end

/-- Messages shorter than `2 ^ 31` that are all sent with success arrive one by one, and the valid
ones are accepted, however the reads are split, exactly when every header was written whole, no
message has the length `2 ^ 31 - 1` and no valid one is empty. -/
theorem messages_arrive_iff {sender receiver : Int} (connected : receiver ≠ -1)
    {ParseFromString : Text → Bool} {sends : List Send} {stream : Text}
    (short : ∀ send ∈ sends, send.message.length < 2 ^ 31)
    (positive : ∀ send ∈ sends, ∀ result ∈ send.results, 1 ≤ result)
    (sent : SentAll sender sends stream) :
    (∀ reads, Enough stream.length reads →
      Receives receiver ParseFromString (sends.map Send.message) stream reads) ↔
    ∀ send ∈ sends, send.Whole ∧ send.message.length ≠ 2 ^ 31 - 1 ∧
      (ParseFromString send.message = true → send.message ≠ []) := by
  have begun := sent.begun short positive
  obtain rfl := sent.stream_eq short
  constructor
  · intro received
    have enough : Enough (frames sends).length fun _ =>
        List.replicate (frames sends).length 1 := by
      refine fun _ => ⟨fun result listed => ?_, Nat.le_of_eq length_replicate.symm⟩
      exact Int.le_of_eq (eq_of_mem_replicate listed).symm
    exact whole_of_receives connected begun enough (received _ enough)
  · intro whole reads enough
    refine receives_of_whole connected (fun send listed => ?_) enough
    obtain ⟨all, length, full⟩ := whole send listed
    have bound := short send listed
    exact ⟨all, by omega, full⟩

/-- A message in two pieces and an empty one, which no parser accepts. -/
def twoSends : List Send := [⟨[97, 98], [2, 1, 1]⟩, ⟨[], [2]⟩]

/-- Results of reads, one byte at first and three later. -/
def someReads (_ : Nat) : List Int := [1, 1, 1, 3, 3, 3]

theorem someReads_enough (call : Nat) :
    (∀ result ∈ someReads call, 1 ≤ result) ∧ 6 ≤ (someReads call).length := by
  unfold someReads
  decide

theorem messages_arrive_pieces :
    Receives 3 (fun text => text != []) (twoSends.map Send.message) [50, 10, 97, 98, 48, 10]
      someReads := by
  have sent : SentAll 4 twoSends [50, 10, 97, 98, 48, 10] :=
    ⟨[50, 10, 97, 98], [48, 10], by decide +kernel, ⟨[48, 10], [], by decide +kernel, rfl, rfl⟩, rfl⟩
  refine (messages_arrive_iff (by decide) (by decide) (by decide) sent).mpr ?_ someReads
    someReads_enough
  unfold Send.Whole
  decide +kernel

/-- The header `1` without its line break, and then the message: the reader waits. -/
theorem messages_arrive_cut :
    SentAll 4 [⟨[97], [1, 1]⟩] [49, 97] ∧ Enough 2 someReads ∧
      ¬ Receives 3 (fun text => text != []) [[97]] [49, 97] someReads := by
  refine ⟨⟨[49, 97], [], by decide +kernel, rfl, rfl⟩, fun call => ?_, ?_⟩
  · obtain ⟨positive, many⟩ := someReads_enough call
    exact ⟨positive, Nat.le_trans (by decide) many⟩
  rintro ⟨rest, received, -⟩
  have waits : VtsSocketRecvBytes 3 [49, 97] (someReads 0) = .error .waiting := by decide +kernel
  rw [waits] at received
  cases received

end Vts.Comm
