import Vts.Coverage.GcovFormat

/-!
# Streams of records

Both gcov parsers look for a known tag word by word, read the word after it as a
length, and hand both to the reader of the record. `RecordScan` is such a parser,
whatever its records do to its state. A stream of records is well formed when
every record is read from its own payload and leaves no word that is a tag.

A scan reads well-formed records one after the other (`run_records`), and skips
words that are no tags (`run_skip`).
-/

namespace Vts.Coverage

open Lib Lib.WordCodec

/-! ## Readers of words -/

/-- A reader that succeeds on some words takes the first of them, whatever comes after them. -/
def TakesWords {α : Type} (order : ByteOrder) (reader : Read α) : Prop :=
  ∀ values value rest, reader (words order values) = .ok (value, rest) →
    ∃ left, left <:+ values ∧ rest = words order left ∧
      ∀ more, reader (words order values ++ more) = .ok (value, words order left ++ more)

section

variable {α β : Type} {order : ByteOrder}

theorem takesWords_pure (value : α) : TakesWords order (pure value) := by
  intro values other rest read
  cases read
  exact ⟨values, List.suffix_rfl, rfl, fun _ => rfl⟩

theorem takesWords_fail (failure : Python.Exception) :
    TakesWords order (ByteReader.fail failure : Read α) := by
  intro values value rest read
  cases read

theorem TakesWords.bind {first : Read α} {next : α → Read β} (left : TakesWords order first)
    (right : ∀ value, TakesWords order (next value)) : TakesWords order (first >>= next) := by
  intro values value rest read
  obtain ⟨middle, remaining, firstRead, nextRead⟩ := ByteReader.bind_eq_ok.mp read
  obtain ⟨between, inside, rfl, firstMore⟩ := left values middle remaining firstRead
  obtain ⟨last, further, rfl, nextMore⟩ := right middle between value rest nextRead
  refine ⟨last, further.trans inside, rfl, ?_⟩
  intro more
  rw [ByteReader.bind_ok (firstMore more)]
  exact nextMore more

theorem readInt_takesWords : TakesWords order (readInt order) := by
  intro values value rest read
  cases values with
  | nil => cases read
  | cons first others =>
    rw [words_cons, readInt_append order _ _ (word_length order first)] at read
    cases read
    refine ⟨others, List.suffix_cons _ _, rfl, ?_⟩
    intro more
    rw [words_cons, List.append_assoc, readInt_append order _ _ (word_length order first)]

theorem readInt64_takesWords : TakesWords order (readInt64 order) :=
  readInt_takesWords.bind fun _ => readInt_takesWords.bind fun _ => takesWords_pure _

/-- What the search for a tag finds in some words stands in them. -/
theorem readHeader_words {known : Nat → Bool} {values : List Nat} {tag length : Nat}
    {rest : List UInt8} (fits : ∀ value ∈ values, value < 2 ^ 32)
    (read : readHeader order known (words order values) = .ok ((tag, length), rest)) :
    known tag = true ∧ ∃ left, tag :: length :: left <:+ values ∧ rest = words order left := by
  induction values with
  | nil =>
    rw [words_nil, readHeader_nil] at read
    cases read
  | cons value others ih =>
    have othersFit : ∀ other ∈ others, other < 2 ^ 32 := fun other listed =>
      fits other (List.mem_cons_of_mem _ listed)
    rw [words_cons] at read
    cases isKnown : known value with
    | false =>
      rw [readHeader_skip order known value _ (fits value List.mem_cons_self) isKnown] at read
      obtain ⟨known, left, inside, same⟩ := ih othersFit read
      exact ⟨known, left, inside.trans (List.suffix_cons _ _), same⟩
    | true =>
      rw [readHeader, ByteReader.bind_ok (by
        rw [readTag_word order known value _ (fits value List.mem_cons_self), if_pos isKnown])]
        at read
      cases others with
      | nil => cases read
      | cons second others =>
        rw [words_cons, ByteReader.bind_ok (readInt_word order second _
          (othersFit second List.mem_cons_self)), ByteReader.pure_run] at read
        cases read
        exact ⟨isKnown, others, List.suffix_rfl, rfl⟩

theorem words_drop (count : Nat) (values : List Nat) :
    (words order values).drop (4 * count) = words order (values.drop count) := by
  induction count generalizing values with
  | zero => rfl
  | succ count ih =>
    cases values with
    | nil => simp
    | cons value others =>
      have next : 4 * (count + 1) = (word order value).length + 4 * count := by
        rw [word_length]
        omega
      rw [words_cons, next, List.drop_length_add_append, List.drop_succ_cons]
      exact ih others

theorem readChars_takesWords (count : Nat) (short : Python.Exception) :
    TakesWords order (readChars (count <<< 2) short) := by
  intro values value rest read
  have bytes : count <<< 2 = 4 * count := by
    rw [Nat.shiftLeft_eq]
    omega
  rw [readChars] at read
  by_cases inside : count <<< 2 ≤ (words order values).length
  · rw [if_pos inside] at read
    cases read
    have dropped : (words order values).drop (count <<< 2) = words order (values.drop count) := by
      rw [bytes, words_drop]
    refine ⟨values.drop count, List.drop_suffix _ _, dropped, ?_⟩
    intro more
    rw [readChars, if_pos (by rw [List.length_append]; omega), List.take_append_of_le_length inside,
      List.drop_append_of_le_length inside, dropped]
  · rw [if_neg inside] at read
    cases read

theorem readString_takesWords : TakesWords order (readString order) := by
  refine readInt_takesWords.bind fun count => ?_
  dsimp only
  split
  · exact (readChars_takesWords _ _).bind fun _ => takesWords_pure _
  · exact takesWords_pure _

end

/-! ## Records -/

/-- A record of a file: every number fits its word. -/
structure GcovRecord where
  tag : Nat
  payload : List Nat
  tagFits : tag < 2 ^ 32
  lengthFits : payload.length < 2 ^ 32
  payloadFits : ∀ value ∈ payload, value < 2 ^ 32

namespace GcovRecord

section

variable (order : ByteOrder) (entry : GcovRecord)

theorem empty_lengthFits : ([] : List Nat).length < 2 ^ 32 := by decide

theorem empty_payloadFits : ∀ value ∈ ([] : List Nat), value < 2 ^ 32 := List.forall_mem_nil _

/-- The words after the tag. -/
def body (entry : GcovRecord) : List Nat := entry.payload.length :: entry.payload

theorem body_fits : ∀ value ∈ entry.body, value < 2 ^ 32 := by
  intro value listed
  rcases List.mem_cons.mp listed with rfl | inside
  · exact entry.lengthFits
  · exact entry.payloadFits value inside

/-- The bytes of some records. -/
def encode (order : ByteOrder) (entries : List GcovRecord) : List UInt8 :=
  entries.flatMap fun entry => record order entry.tag (words order entry.payload)

@[simp] theorem encode_nil : encode order [] = [] := rfl

@[simp] theorem encode_cons (entries : List GcovRecord) :
    encode order (entry :: entries) =
      record order entry.tag (words order entry.payload) ++ encode order entries := rfl

@[simp] theorem encode_append (left right : List GcovRecord) :
    encode order (left ++ right) = encode order left ++ encode order right :=
  List.flatMap_append

theorem record_words :
    record order entry.tag (words order entry.payload) =
      word order entry.tag ++ words order entry.body := by
  have length : (words order entry.payload).length / 4 = entry.payload.length := by
    rw [words_length]
    omega
  rw [record, length, body, words_cons]

end

end GcovRecord

/-- A parser that looks for tags. `step` is what a record does to the state, and
`finish` what is made of the state at the end; `run` is the main loop. -/
structure RecordScan (State Outcome : Type) where
  order : ByteOrder
  known : Nat → Bool
  step : (tag length : Nat) → State → List UInt8 → Except Outcome (State × List UInt8)
  finish : State → Outcome
  run : State → List UInt8 → Outcome
  run_eq : ∀ state stream, run state stream =
    match readHeader order known stream with
    | .error _ => finish state
    | .ok ((tag, length), rest) =>
      match step tag length state rest with
      | .error outcome => outcome
      | .ok (next, remaining) => run next remaining
  step_takesWords : ∀ {tag length state values next rest},
    step tag length state (words order values) = .ok (next, rest) →
      ∃ left, left <:+ values ∧ rest = words order left ∧
        ∀ more, step tag length state (words order values ++ more) =
          .ok (next, words order left ++ more)

namespace RecordScan

variable {State Outcome : Type}

/-- Every record has a known tag and is read from its payload, and no word that is
left of the payload is a tag. -/
def WellFormed (scan : RecordScan State Outcome) : State → List GcovRecord → Prop
  | _, [] => True
  | state, entry :: entries =>
    scan.known entry.tag = true ∧
      ∃ next left, left <:+ entry.payload ∧ (∀ value ∈ left, scan.known value = false) ∧
        scan.step entry.tag entry.payload.length state (words scan.order entry.payload) =
          .ok (next, words scan.order left) ∧
        WellFormed scan next entries

variable {scan : RecordScan State Outcome}

/-- A word that is no tag is skipped. -/
theorem run_word {value : Nat} (fits : value < 2 ^ 32) (unknown : scan.known value = false)
    (state : State) (rest : List UInt8) :
    scan.run state (word scan.order value ++ rest) = scan.run state rest := by
  have header := readHeader_skip scan.order scan.known value rest fits unknown
  rw [scan.run_eq, header, ← scan.run_eq]

theorem run_skip {values : List Nat} (fits : ∀ value ∈ values, value < 2 ^ 32)
    (unknown : ∀ value ∈ values, scan.known value = false) (state : State) (rest : List UInt8) :
    scan.run state (words scan.order values ++ rest) = scan.run state rest := by
  induction values with
  | nil => rfl
  | cons value values ih =>
    rw [words_cons, List.append_assoc,
      run_word (fits value List.mem_cons_self) (unknown value List.mem_cons_self)]
    exact ih (fun other listed => fits other (List.mem_cons_of_mem _ listed))
      (fun other listed => unknown other (List.mem_cons_of_mem _ listed))

theorem run_header {tag length : Nat} (known : scan.known tag = true) (tagFits : tag < 2 ^ 32)
    (lengthFits : length < 2 ^ 32) (state : State) (rest : List UInt8) :
    scan.run state (word scan.order tag ++ (word scan.order length ++ rest)) =
      match scan.step tag length state rest with
      | .error outcome => outcome
      | .ok (next, remaining) => scan.run next remaining := by
  have header : readHeader scan.order scan.known
      (word scan.order tag ++ (word scan.order length ++ rest)) = .ok ((tag, length), rest) := by
    rw [readHeader, ByteReader.bind_ok (by rw [readTag_word _ _ tag _ tagFits, if_pos known]),
      ByteReader.bind_ok (readInt_word _ _ _ lengthFits), ByteReader.pure_run]
  rw [scan.run_eq, header]

/-- Well-formed records are read one after the other, whatever comes next. What holds after every
record holds after them. -/
theorem run_records {holds : State → Prop}
    (steps : ∀ {tag length state stream next rest},
      scan.step tag length state stream = .ok (next, rest) → holds next)
    {state : State} {before after : List GcovRecord}
    (wellFormed : scan.WellFormed state (before ++ after)) :
    ∃ next, (holds state ∨ before ≠ [] → holds next) ∧ scan.WellFormed next after ∧
      ∀ rest, scan.run state (GcovRecord.encode scan.order before ++ rest) = scan.run next rest := by
  induction before generalizing state with
  | nil =>
    refine ⟨state, ?_, wellFormed, fun _ => rfl⟩
    rintro (held | none)
    · exact held
    · exact absurd rfl none
  | cons entry entries ih =>
    obtain ⟨known, next, left, inside, unknown, read, further⟩ := wellFormed
    obtain ⟨last, held, wellFormedAfter, runs⟩ := ih further
    obtain ⟨_, _, same, readMore⟩ := scan.step_takesWords read
    refine ⟨last, fun _ => held (.inl (steps read)), wellFormedAfter, ?_⟩
    intro rest
    have leftFits : ∀ value ∈ left, value < 2 ^ 32 := fun value listed =>
      entry.payloadFits value (inside.subset listed)
    rw [GcovRecord.encode_cons, GcovRecord.record_words, GcovRecord.body, words_cons]
    simp only [List.append_assoc]
    rw [run_header known entry.tagFits entry.lengthFits, readMore, ← same]
    simp only
    rw [run_skip leftFits unknown, runs]

end RecordScan

end Vts.Coverage
