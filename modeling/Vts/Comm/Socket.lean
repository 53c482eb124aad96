import Vts.Lib.Ensures
import Vts.Lib.IdTable
import Vts.Python.Text

/-!
# Messages over a driver socket

`VtsSocketSendBytes`, `VtsSocketRecvBytes` and `VtsSocketRecvMessage` of
`drivers/libdrivercomm/VtsDriverCommUtil.cpp`. What the kernel makes of the calls of `write` and
`read` is given by a list of their results: a positive result is the number of bytes that are
taken if there are so many, any other one is an error. A call that has used up its list, or that
wants to read where no byte is left, waits.

`malloc` gets its size as an `int` and fails when that is negative. `atoi` of a number that is no
`int`, a header that fills its buffer, and a message of length -1 are undefined in C++.
-/

namespace Vts.Comm

open Vts.Lib Vts.Python List

/-- Why a call does not return. -/
inductive Stop where
  | waiting
  | undefined
deriving DecidableEq

/-- The length of a message, in a line of its own. -/
def header (message : Text) : Text := decimal message.length ++ [10]

/-- The loop that writes a message: whether it succeeds, and the bytes that are written. -/
def writeRest : List Int → Text → Except Stop (Bool × Text)
  | _, [] => .ok (true, [])
  | [], _ :: _ => .error .waiting
  | result :: results, byte :: rest =>
    if result ≤ 0 then .ok (false, [])
    else
      (writeRest results ((byte :: rest).drop result.toNat)).map fun sent =>
        (sent.1, (byte :: rest).take result.toNat ++ sent.2)

/-- The returned value, and the bytes that are written. The header is written by one call. -/
def VtsSocketSendBytes (sockfd_ : Int) (message : Text) : List Int → Except Stop (Bool × Text)
  | [] => if sockfd_ = -1 then .ok (false, []) else .error .waiting
  | result :: results =>
    if sockfd_ = -1 then .ok (false, [])
    else if result < 0 then .ok (false, [])
    else
      (writeRest results (message.take (toInt32 message.length).toNat)).map fun sent =>
        (sent.1, (header message).take result.toNat ++ sent.2)

def MAX_HEADER_BUFFER_SIZE : Nat := 128

/-- The loop that reads a header: the header unless a call failed, the bytes that are left and the
results that are left. -/
def readHeader : Nat → Text → Text → List Int →
    Except Stop (Option Text × Text × List Int)
  | 0, _, _, _ => .error .undefined
  | _ + 1, _, _, [] => .error .waiting
  | _ + 1, _, [], result :: results =>
    if result ≤ 0 then .ok (none, [], results) else .error .waiting
  | slots + 1, header_buffer, byte :: incoming, result :: results =>
    if result ≤ 0 then .ok (none, byte :: incoming, results)
    else if byte = 10 ∨ byte = 13 then .ok (some header_buffer, incoming, results)
    else readHeader slots (header_buffer ++ [byte]) incoming results

/-- The number at the start of a text. -/
def numberAt (text : Text) : Int :=
  match lstrip text with
  | 45 :: rest => -(digitsValue (rest.takeWhile isDigit) : Int)
  | 43 :: rest => digitsValue (rest.takeWhile isDigit)
  | rest => digitsValue (rest.takeWhile isDigit)

/-- `atoi`, for texts that stand for an `int`. -/
def atoi (text : Text) : Option Int :=
  if -(2 ^ 31) ≤ numberAt text ∧ numberAt text < 2 ^ 31 then some (numberAt text) else none

/-- The loop that reads a message of a known length: the message unless a call failed, and the
bytes that are left. -/
def readRest : List Int → Nat → Text → Except Stop (Option Text × Text)
  | _, 0, incoming => .ok (some [], incoming)
  | [], _ + 1, _ => .error .waiting
  | result :: _, _ + 1, [] => if result ≤ 0 then .ok (none, []) else .error .waiting
  | result :: results, missing + 1, byte :: incoming =>
    if result ≤ 0 then .ok (none, byte :: incoming)
    else
      let got := (byte :: incoming).take (min result.toNat (missing + 1))
      (readRest results (missing + 1 - got.length) ((byte :: incoming).drop got.length)).map
        fun found => (found.1.map (got ++ ·), found.2)

/-- What follows the header: the message, and the bytes that are left. -/
def recvBody (msg_len : Int) (incoming : Text) (results : List Int) : Except Stop (Text × Text) :=
  if msg_len + 1 < 0 ∨ 2 ^ 31 ≤ msg_len + 1 then .ok ([], incoming)
  else if msg_len < 0 then .error .undefined
  else (readRest results msg_len.toNat incoming).map fun found => (found.1.getD [], found.2)

/-- The returned string, and the bytes that are left. -/
def VtsSocketRecvBytes (sockfd_ : Int) (incoming : Text) (results : List Int) :
    Except Stop (Text × Text) :=
  if sockfd_ = -1 then .ok ([], incoming)
  else match readHeader MAX_HEADER_BUFFER_SIZE [] incoming results with
    | .error stop => .error stop
    | .ok (none, left, _) => .ok ([], left)
    | .ok (some header_buffer, left, results) =>
      match atoi header_buffer with
      | none => .error .undefined
      | some msg_len => recvBody msg_len left results

/-- The returned value, and the bytes that are left. -/
def VtsSocketRecvMessage (sockfd_ : Int) (ParseFromString : Text → Bool) (incoming : Text)
    (results : List Int) : Except Stop (Bool × Text) :=
  if sockfd_ = -1 then .ok (false, incoming)
  else (VtsSocketRecvBytes sockfd_ incoming results).map fun found =>
    if found.1.length = 0 then (false, found.2) else (ParseFromString found.1, found.2)

/-! ## What the calls do when every result is positive -/

section

variable {results : List Int} {sockfd_ : Int} {value : Nat}

/-- A loop that has succeeded has written the message. -/
theorem ensures_writeRest (results : List Int) (rest : Text) :
    Ensures (writeRest results rest) fun sent => sent.1 = true → sent.2 = rest := by
  induction results generalizing rest with
  | nil =>
    cases rest with
    | nil => exact .ok fun _ => rfl
    | cons byte rest => exact .error _
  | cons result results ih =>
    cases rest with
    | nil => exact .ok fun _ => rfl
    | cons byte rest =>
      rw [writeRest]
      refine .ite (fun _ => .ok nofun) fun _ => .map ?_
      refine (ih _).mono fun sent whole succeeded => ?_
      rw [whole succeeded]
      exact take_append_drop _ _

/-- What a call of `VtsSocketSendBytes` that returns true has written. -/
theorem ensures_sendBytes (sockfd_ : Int) {message : Text} (short : message.length < 2 ^ 31)
    (results : List Int) :
    Ensures (VtsSocketSendBytes sockfd_ message results) fun sent => sent.1 = true →
      ∃ result others, results = result :: others ∧
        sent.2 = (header message).take result.toNat ++ message := by
  cases results with
  | nil => exact .ite (fun _ => .ok nofun) fun _ => .error _
  | cons result results =>
    have whole : message.take (toInt32 message.length).toNat = message := by
      have same : toInt32 message.length = message.length := by
        rw [toInt32, Nat.mod_eq_of_lt (by omega), if_pos short]
      rw [same, Int.toNat_natCast, take_length]
    rw [VtsSocketSendBytes, whole]
    refine .ite (fun _ => .ok nofun) fun _ => .ite (fun _ => .ok nofun) fun _ => .map ?_
    refine (ensures_writeRest results message).mono fun sent written succeeded => ?_
    refine ⟨result, results, rfl, ?_⟩
    rw [written succeeded]

/-- A header that was read ends with the first line break. -/
theorem ensures_readHeader (slots : Nat) (header_buffer incoming : Text)
    (positive : ∀ result ∈ results, 1 ≤ result) :
    Ensures (readHeader slots header_buffer incoming results) fun found =>
      ∃ text last, found.1 = some (header_buffer ++ text) ∧ (last = 10 ∨ last = 13) ∧
        incoming = text ++ last :: found.2.1 ∧ ∀ result ∈ found.2.2, 1 ≤ result := by
  induction slots generalizing header_buffer incoming results with
  | zero => exact .error _
  | succ slots ih =>
    cases results with
    | nil => exact .error _
    | cons result results =>
      have one := positive result mem_cons_self
      have others : ∀ other ∈ results, 1 ≤ other := fun other listed =>
        positive other (mem_cons_of_mem _ listed)
      cases incoming with
      | nil =>
        rw [readHeader]
        exact .ite (fun failed => absurd failed (by omega)) fun _ => .error _
      | cons byte incoming =>
        rw [readHeader]
        refine .ite (fun failed => absurd failed (by omega)) fun _ => ?_
        refine .ite (fun ends => .ok ⟨[], byte, ?_, ends, rfl, others⟩) fun _ => ?_
        · rw [append_nil]
        · refine (ih (header_buffer ++ [byte]) incoming others).mono ?_
          rintro ⟨found, left, _⟩ ⟨text, last, equal, ends, split, rest⟩
          refine ⟨byte :: text, last, ?_, ends, ?_, rest⟩
          · rw [equal, append_assoc]
            rfl
          · rw [split]
            rfl

/-- A message that was read is the next bytes. -/
theorem ensures_readRest (positive : ∀ result ∈ results, 1 ≤ result) (missing : Nat)
    (incoming : Text) :
    Ensures (readRest results missing incoming) fun found =>
      ∃ message, found.1 = some message ∧ message.length = missing ∧
        incoming = message ++ found.2 := by
  induction results generalizing missing incoming with
  | nil =>
    cases missing with
    | zero => exact .ok ⟨[], rfl, rfl, rfl⟩
    | succ missing => exact .error _
  | cons result results ih =>
    cases missing with
    | zero => exact .ok ⟨[], rfl, rfl, rfl⟩
    | succ missing =>
      have one := positive result mem_cons_self
      cases incoming with
      | nil =>
        rw [readRest]
        exact .ite (fun failed => absurd failed (by omega)) fun _ => .error _
      | cons byte incoming =>
        rw [readRest]
        refine .ite (fun failed => absurd failed (by omega)) fun _ => .map ?_
        refine (ih (fun other listed =>
          positive other (mem_cons_of_mem _ listed)) _ _).mono ?_
        rintro ⟨found, left⟩ ⟨message, rfl, length, split⟩
        refine ⟨_, rfl, ?_, ?_⟩
        · rw [length_append, length, length_take]
          omega
        · rw [append_assoc, ← split]
          exact (prefix_iff_eq_append.mp ( take_prefix _ _)).symm

/-- What a call of `VtsSocketRecvBytes` has read: a line, and the message that it returns. The line
gives the length of a message that is not empty. -/
theorem ensures_recvBytes (connected : sockfd_ ≠ -1) (incoming : Text)
    (positive : ∀ result ∈ results, 1 ≤ result) :
    Ensures (VtsSocketRecvBytes sockfd_ incoming results) fun received =>
      ∃ text last, incoming = text ++ last :: (received.1 ++ received.2) ∧
        (last = 10 ∨ last = 13) ∧
        (received.1 ≠ [] → atoi text = some (received.1.length : Int) ∧
          received.1.length + 1 < 2 ^ 31) := by
  rw [VtsSocketRecvBytes, if_neg connected]
  have headers := ensures_readHeader MAX_HEADER_BUFFER_SIZE [] incoming positive
  cases found : readHeader MAX_HEADER_BUFFER_SIZE [] incoming results with
  | error stop => exact .error _
  | ok triple =>
    obtain ⟨line, left, others⟩ := triple
    obtain ⟨text, last, rfl, ends, rfl, rest⟩ := headers _ found
    rw [nil_append]
    dsimp only
    cases length : atoi text with
    | none => exact .error _
    | some msg_len =>
      dsimp only [recvBody]
      refine .ite (fun _ => .ok ⟨text, last, rfl, ends, fun full => absurd rfl full⟩)
        fun sizes => ?_
      refine .ite (fun _ => .error _) fun natural => .map ?_
      refine (ensures_readRest rest _ _).mono ?_
      rintro ⟨_, others⟩ ⟨message, rfl, same, rfl⟩
      refine ⟨text, last, rfl, ends, fun _ => ?_⟩
      rw [Option.getD_some, same, length, Int.toNat_of_nonneg (Int.not_lt.mp natural)]
      exact ⟨rfl, by omega⟩

/-! ## Numbers in headers -/

theorem digitsValue_lt {digits : Text} (all : ∀ digit ∈ digits, isDigit digit) :
    digitsValue digits < 10 ^ digits.length := by
  have general (start : Nat) : digits.foldl (fun value digit => 10 * value + (digit.toNat - 48)) start
      < (start + 1) * 10 ^ digits.length := by
    induction digits generalizing start with
    | nil => simp
    | cons digit digits ih =>
      have one := all digit mem_cons_self
      simp only [isDigit, Bool.and_eq_true, decide_eq_true_eq, UInt8.le_iff_toNat_le] at one
      have high : digit.toNat ≤ 57 := one.2
      have next := ih (fun other listed => all other (mem_cons_of_mem _ listed))
        (10 * start + (digit.toNat - 48))
      rw [foldl_cons, length_cons, Nat.pow_succ]
      refine Nat.lt_of_lt_of_le next ?_
      calc (10 * start + (digit.toNat - 48) + 1) * 10 ^ digits.length
          ≤ (10 * (start + 1)) * 10 ^ digits.length := Nat.mul_le_mul_right _ (by omega)
        _ = (start + 1) * (10 ^ digits.length * 10) := by
          rw [Nat.mul_comm 10, Nat.mul_assoc, Nat.mul_comm 10]
  simpa [digitsValue] using general 0

/-- A positive number at the start of a text is that of some digits in the text. -/
theorem numberAt_digits {text : Text} (positive : 0 < value) (read : numberAt text = value) :
    ∃ digits : Text, (∀ digit ∈ digits, isDigit digit) ∧ digits.length ≤ text.length ∧
      digitsValue digits = value := by
  have shorter := lstrip_length_le text
  have taken (rest : Text) (inside : rest.length ≤ text.length)
      (same : digitsValue (rest.takeWhile isDigit) = value) :
      ∃ digits : Text, (∀ digit ∈ digits, isDigit digit) ∧ digits.length ≤ text.length ∧
        digitsValue digits = value :=
    ⟨rest.takeWhile isDigit, fun _ listed => mem_takeWhile_imp listed,
      Nat.le_trans (takeWhile_sublist isDigit).length_le inside, same⟩
  rw [numberAt] at read
  split at read
  · omega
  · rename_i rest found
    rw [found, length_cons] at shorter
    exact taken rest (by omega) (by omega)
  · exact taken _ shorter (by omega)

/-- A text that stands for a positive number is at least as long as the numeral. -/
theorem decimal_length_le_of_atoi {text : Text} (positive : 0 < value)
    (read : atoi text = some (value : Int)) : (decimal value).length ≤ text.length := by
  have number : numberAt text = value := by
    rw [atoi] at read
    split at read
    · exact Option.some.inj read
    · cases read
  obtain ⟨digits, all, inside, rfl⟩ := numberAt_digits positive number
  refine Nat.le_trans (decimal_length_le ?_ (digitsValue_lt all)) inside
  cases digits with
  | nil => exact absurd positive (by decide)
  | cons digit digits => exact Nat.succ_pos _

theorem numberAt_decimal (value : Nat) : numberAt (decimal value) = value := by
  obtain ⟨first, rest, shape⟩ := exists_cons_of_ne_nil (decimal_ne_nil value)
  have firstDigit : isDigit first := isDigit_of_mem_decimal (by rw [shape]; exact mem_cons_self)
  have kept : lstrip (decimal value) = decimal value := by
    refine lstrip_eq_self fun byte head => ?_
    rw [shape] at head
    obtain rfl : first = byte := by simpa using head
    exact isSpace_of_isDigit firstDigit
  have taken : (decimal value).takeWhile isDigit = decimal value :=
    takeWhile_eq_self_iff.mpr fun byte listed => isDigit_of_mem_decimal listed
  rw [numberAt, kept]
  split
  · rename_i others equal
    rw [equal] at shape
    cases shape
    simp [isDigit] at firstDigit
  · rename_i others equal
    rw [equal] at shape
    cases shape
    simp [isDigit] at firstDigit
  · rw [taken, digitsValue_decimal]

theorem atoi_decimal (small : value < 2 ^ 31) : atoi (decimal value) = some (value : Int) := by
  rw [atoi, numberAt_decimal, if_pos (by omega)]

theorem atoi_decimal_large (large : 2 ^ 31 ≤ value) : atoi (decimal value) = none := by
  rw [atoi, numberAt_decimal, if_neg (by omega)]

/-! ## Receiving a whole frame -/

theorem readHeader_line {slots : Nat} {header_buffer text rest : Text} {results : List Int}
    (fits : text.length < slots) (plain : ∀ byte ∈ text, ¬ (byte = 10 ∨ byte = 13))
    (positive : ∀ result ∈ results, 1 ≤ result) (enough : text.length < results.length) :
    readHeader slots header_buffer (text ++ 10 :: rest) results =
      .ok (some (header_buffer ++ text), rest, results.drop (text.length + 1)) := by
  induction text generalizing slots header_buffer results with
  | nil =>
    obtain ⟨slots, rfl⟩ := Nat.exists_eq_add_one_of_ne_zero (Nat.ne_zero_of_lt fits)
    obtain ⟨result, results, rfl⟩ := exists_cons_of_length_pos enough
    have one := positive result mem_cons_self
    rw [nil_append, readHeader, if_neg (by omega), if_pos (.inl rfl), append_nil]
    rfl
  | cons byte text ih =>
    obtain ⟨slots, rfl⟩ := Nat.exists_eq_add_one_of_ne_zero (Nat.ne_zero_of_lt fits)
    obtain ⟨result, results, rfl⟩ :=
      exists_cons_of_length_pos (Nat.lt_of_le_of_lt (Nat.zero_le _) enough)
    have one := positive result mem_cons_self
    rw [length_cons] at fits enough
    rw [length_cons] at enough
    rw [cons_append, readHeader, if_neg (by omega), if_neg (plain byte mem_cons_self),
      ih (by omega) (fun other listed => plain other (mem_cons_of_mem _ listed))
        (fun other listed => positive other (mem_cons_of_mem _ listed)) (by omega),
      append_assoc]
    rfl

theorem readRest_enough {message left : Text} (positive : ∀ result ∈ results, 1 ≤ result)
    (enough : message.length ≤ results.length) :
    readRest results message.length (message ++ left) = .ok (some message, left) := by
  induction results generalizing message with
  | nil =>
    obtain rfl := eq_nil_of_length_eq_zero (Nat.le_zero.mp enough)
    rfl
  | cons result results ih =>
    cases message with
    | nil => rfl
    | cons byte message =>
      have one := positive result mem_cons_self
      have inside : min result.toNat (message.length + 1) ≤ (byte :: message).length :=
        Nat.min_le_right _ _
      have got : (byte :: (message ++ left)).take (min result.toNat (message.length + 1)) =
          (byte :: message).take (min result.toNat (message.length + 1)) :=
        take_append_of_le_length inside
      have count : ((byte :: message).take (min result.toNat (message.length + 1))).length =
          min result.toNat (message.length + 1) := by
        rw [length_take]
        exact Nat.min_eq_left inside
      have others : (byte :: (message ++ left)).drop (min result.toNat (message.length + 1)) =
          (byte :: message).drop (min result.toNat (message.length + 1)) ++ left :=
        drop_append_of_le_length inside
      have missing : message.length + 1 - min result.toNat (message.length + 1) =
          ((byte :: message).drop (min result.toNat (message.length + 1))).length := by
        rw [length_drop]
        rfl
      rw [length_cons] at enough
      rw [cons_append, length_cons, readRest, if_neg (by omega)]
      dsimp only
      rw [got, count, others, missing, ih
        (fun other listed => positive other (mem_cons_of_mem _ listed)) ?_]
      · exact congrArg (fun whole => Except.ok (some whole, left)) (take_append_drop _ _)
      · rw [← missing]
        simp only [length_cons] at enough
        omega

theorem header_length (message : Text) :
    (header message).length = (decimal message.length).length + 1 := by
  rw [header, length_append, length_singleton]

/-- A frame gives its message, however the reads are split. -/
theorem recvBytes_frame (connected : sockfd_ ≠ -1) {message rest : Text}
    (small : message.length + 1 < 2 ^ 31) (positive : ∀ result ∈ results, 1 ≤ result)
    (enough : (header message ++ message).length ≤ results.length) :
    VtsSocketRecvBytes sockfd_ (header message ++ (message ++ rest)) results =
      .ok (message, rest) := by
  have short : (decimal message.length).length ≤ 10 :=
    decimal_length_le (by decide) (by omega)
  rw [length_append, header_length] at enough
  have line := @readHeader_line MAX_HEADER_BUFFER_SIZE [] (decimal message.length)
    (message ++ rest) results (Nat.lt_of_le_of_lt short (by decide))
    (fun byte listed ends => by
      have digit := isDigit_of_mem_decimal listed
      rcases ends with rfl | rfl <;> cases digit) positive (by omega)
  have body : recvBody (message.length : Int) (message ++ rest)
      (results.drop ((decimal message.length).length + 1)) = .ok (message, rest) := by
    rw [recvBody, if_neg (by omega), if_neg (by omega), Int.toNat_natCast,
      readRest_enough (fun result listed => positive result (mem_of_mem_drop listed))
        (by rw [length_drop]; omega)]
    rfl
  rw [VtsSocketRecvBytes, if_neg connected, header, append_assoc, singleton_append, line]
  dsimp only [nil_append]
  rw [atoi_decimal (by omega)]
  exact body

end

end Vts.Comm
