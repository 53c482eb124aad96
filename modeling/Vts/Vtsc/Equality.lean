import Vts.Vtsc.Verify

/-!
# Verification as equality

A message that is laid out for a type holds a value of the type. Proved here: the emitted code finds
out whether two messages hold the same value if no vector or array is inside another one in the same
function and the type has no floating scalars, and for every other type it does not. All loops have
the index `i`, so the bound of an inner loop reads past the end of the outer vector; and a floating
value that is not a number differs from itself.

The message that the code for results writes is laid out for its type (`laidOut_setResult`).
-/

namespace Vts.Vtsc

open Vts.Lib Children List

/-! ## Messages that hold a value -/

mutual

/-- The message is laid out for the type, in the fields that carry a value. For types with handles
nothing is said here. -/
def Spec.LaidOut : Spec → Message → Prop
  | .scalar scalar_type, message =>
    message.type = some .TYPE_SCALAR ∧ message.scalar_type = some scalar_type ∧
      ∃ number, message.scalar_value scalar_type = some number ∧ scalar_type.InRange number
  | .string, message =>
    message.type = some .TYPE_STRING ∧
      ∃ bytes, message.string_message = some bytes ∧ (0 : UInt8) ∉ bytes
  | .mask scalar_type, message =>
    message.type = some .TYPE_MASK ∧ message.scalar_type = some scalar_type ∧
      ∃ number, message.scalar_value scalar_type = some number ∧ scalar_type.InRange number
  | .enum _ scalar_type, message =>
    message.type = some .TYPE_ENUM ∧ message.scalar_type = some scalar_type ∧
      ∃ number, message.scalar_value scalar_type = some number ∧ scalar_type.InRange number
  | .vector vector_value, message =>
    message.type = some .TYPE_VECTOR ∧ message.vector_value.length < indices ∧
      ∀ element ∈ message.vector_value, vector_value.LaidOut element
  | .array _ vector_value, message =>
    message.type = some .TYPE_ARRAY ∧ message.vector_value.length < indices ∧
      ∀ element ∈ message.vector_value, vector_value.LaidOut element
  | .struct _ struct_value, message =>
    message.type = some .TYPE_STRUCT ∧ struct_value.LaidOut message.struct_value
  | .union _ union_value, message =>
    message.type = some .TYPE_UNION ∧ union_value.LaidOut message.union_value
  | .handle, _ => False

/-- The messages are those of the fields, in order. -/
def Fields.LaidOut : Fields → List Message → Prop
  | .nil, messages => messages = []
  | .cons name field rest, messages =>
    ∃ message others, messages = message :: others ∧ message.name = some name ∧
      field.LaidOut message ∧ rest.LaidOut others

end

mutual

/-- The value that a message holds. -/
def Spec.value : Spec → Message → Value
  | .scalar scalar_type, message | .mask scalar_type, message | .enum _ scalar_type, message =>
    .scalar ((message.scalar_value scalar_type).getD 0)
  | .string, message => .string (message.string_message.getD [])
  | .vector vector_value, message | .array _ vector_value, message =>
    .list (message.vector_value.map vector_value.value)
  | .struct _ struct_value, message => .record (struct_value.values message.struct_value)
  | .union _ union_value, message => .record (union_value.values message.union_value)
  | .handle, _ => .handle none

def Fields.values : Fields → List Message → List (String × Value)
  | .cons name field rest, message :: messages => (name, field.value message) :: rest.values messages
  | _, _ => []

end

/-! ## Which types are compared -/

mutual

/-- The type has no handle. -/
def Spec.HandleFree : Spec → Prop
  | .vector vector_value | .array _ vector_value => vector_value.HandleFree
  | .struct _ struct_value => struct_value.HandleFree
  | .union _ union_value => union_value.HandleFree
  | .handle => False
  | _ => True

def Fields.HandleFree : Fields → Prop
  | .nil => True
  | .cons _ field rest => field.HandleFree ∧ rest.HandleFree

end

def ScalarType.Floating (scalar_type : ScalarType) : Prop :=
  scalar_type = float_t ∨ scalar_type = double_t

mutual

/-- The type has no floating scalars. -/
def Spec.Integral : Spec → Prop
  | .scalar scalar_type | .mask scalar_type | .enum _ scalar_type => ¬ scalar_type.Floating
  | .vector vector_value | .array _ vector_value => vector_value.Integral
  | .struct _ struct_value => struct_value.Integral
  | .union _ union_value => union_value.Integral
  | _ => True

def Fields.Integral : Fields → Prop
  | .nil => True
  | .cons _ field rest => field.Integral ∧ rest.Integral

end

mutual

/-- No vector or array is inside another one, but for those behind the name of a predefined type,
which are compared in a function of their own. -/
def Spec.Unnested : Spec → (inLoop : Prop) → Prop
  | .vector vector_value, inLoop | .array _ vector_value, inLoop =>
    ¬ inLoop ∧ vector_value.Unnested True
  | .struct (some _) struct_value, _ => struct_value.Unnested False
  | .struct none struct_value, inLoop => struct_value.Unnested inLoop
  | .union (some _) union_value, _ => union_value.Unnested False
  | .union none union_value, inLoop => union_value.Unnested inLoop
  | _, _ => True

def Fields.Unnested : Fields → (inLoop : Prop) → Prop
  | .nil, _ => True
  | .cons _ field rest, inLoop => field.Unnested inLoop ∧ rest.Unnested inLoop

end

/-! ## What the code compares -/

/-- Two lists of messages agree as far as both go. -/
def agreeAll (agree : Message → Message → Bool) : List Message → List Message → Bool
  | expected :: expecteds, actual :: actuals =>
    agree expected actual && agreeAll agree expecteds actuals
  | _, _ => true

mutual

/-- The comparison of two messages. -/
def Spec.agree : Spec → Message → Message → Bool
  | .scalar scalar_type, expected, actual | .mask scalar_type, expected, actual
  | .enum _ scalar_type, expected, actual =>
    scalar_type.equal ((actual.scalar_value scalar_type).getD 0)
      ((expected.scalar_value scalar_type).getD 0)
  | .string, expected, actual =>
    c_str (actual.string_message.getD []) = c_str (expected.string_message.getD [])
  | .vector vector_value, expected, actual | .array _ vector_value, expected, actual =>
    actual.vector_value.length = expected.vector_value.length &&
      agreeAll vector_value.agree expected.vector_value actual.vector_value
  | .struct _ struct_value, expected, actual =>
    struct_value.agree expected.struct_value actual.struct_value
  | .union _ union_value, expected, actual =>
    union_value.agree expected.union_value actual.union_value
  | .handle, _, _ => true

def Fields.agree : Fields → List Message → List Message → Bool
  | .cons _ field rest, expected :: expecteds, actual :: actuals =>
    field.agree expected actual && rest.agree expecteds actuals
  | _, _, _ => true

end

/-- How code ends that goes on if the messages agree. -/
def verdict (agree : Bool) : Except Leaves Unit := if agree then .ok () else .error .returnsFalse

theorem verdict_and (first second : Bool) :
    (match verdict first with
      | .error leaves => .error leaves
      | .ok _ => verdict second) = verdict (first && second) := by
  cases first <;> rfl

variable {agree : Message → Message → Bool} {root message : Message} {expression : MessageExpr}
  {scalar_type : ScalarType}

/-- The loop over two lists of the same size compares their messages one by one. -/
theorem countUp_verdict {bound : Nat → Except Leaves Int} {body : Nat → Unit → Except Leaves Unit}
    (expecteds actuals : List Message) (same : actuals.length = expecteds.length)
    (bounded : ∀ index, bound index = .ok (expecteds.length : Int))
    (round : ∀ index expected actual, expecteds[index]? = some expected →
      actuals[index]? = some actual → body index () = verdict (agree expected actual))
    {rounds index : Nat} (inside : index ≤ expecteds.length)
    (enough : expecteds.length < index + rounds) :
    countUp (.faults .indexOverflow) bound body rounds index () =
      verdict (agreeAll agree (expecteds.drop index) (actuals.drop index)) := by
  induction rounds generalizing index with
  | zero => exact absurd enough (Nat.not_lt.mpr inside)
  | succ rounds ih =>
    rw [countUp, bounded index]
    dsimp only
    by_cases more : index < expecteds.length
    · have moreToo : index < actuals.length := same ▸ more
      rw [if_pos (Int.ofNat_lt.mpr more), drop_eq_getElem_cons more,
        drop_eq_getElem_cons moreToo, agreeAll,
        round index _ _ (List.getElem?_eq_getElem more) (List.getElem?_eq_getElem moreToo)]
      cases agree expecteds[index] actuals[index] with
      | false => rfl
      | true => exact ih more (by omega)
    · obtain rfl : index = expecteds.length := Nat.le_antisymm inside (Nat.le_of_not_lt more)
      rw [if_neg (by omega), drop_length, agreeAll]
      · rfl
      · intro _ _ _ _ nothing
        cases nothing

/-! ## Reading messages in a loop -/

section

variable {loops : List (String × Nat)}

theorem readMessage_eq_ok :
    readMessage loops root expression = .ok message ↔
      ∃ steps, expression.path loops = some steps ∧ getAt root steps = some message := by
  constructor
  · intro reads
    rw [readMessage] at reads
    split at reads
    · cases reads
    · rename_i steps there
      split at reads
      · cases reads
      · rename_i found at_steps
        cases reads
        exact ⟨steps, there, at_steps⟩
  · rintro ⟨steps, there, found⟩
    exact readMessage_some there found

theorem readMessage_part {loops : List (String × Nat)} {found : Message}
    (reads : readMessage loops root expression = .ok message) (compound : Compound) {index : Nat}
    (there : (message.get compound.field)[index]? = some found) :
    readMessage loops root (expression.part compound index) = .ok found := by
  obtain ⟨steps, path, present⟩ := readMessage_eq_ok.mp reads
  refine readMessage_eq_ok.mpr ⟨steps ++ [(compound.field, index)], ?_, ?_⟩
  · cases compound <;> simp only [MessageExpr.part, MessageExpr.path, path] <;> rfl
  · rw [getAt_concat present]
    exact there

/-- A loop does not change what an expression without indices means. -/
theorem readMessage_cons (unused : expression.indices = [])
    (reads : readMessage loops root expression = .ok message) (index_name : String) (count : Nat) :
    readMessage ((index_name, count) :: loops) root expression = .ok message := by
  rw [readMessage, MessageExpr.path_cons (by rw [unused]; exact not_mem_nil)]
  exact reads

theorem readMessage_vector_value {found : Message} {count : Nat}
    (held : loops.lookup "i" = some count) (reads : readMessage loops root expression = .ok message)
    (there : message.vector_value[count]? = some found) :
    readMessage loops root (.vector_value expression "i") = .ok found := by
  obtain ⟨steps, path, present⟩ := readMessage_eq_ok.mp reads
  refine readMessage_eq_ok.mpr ⟨steps ++ [(.vector_value, count)], ?_, ?_⟩
  · simp only [MessageExpr.path, path, held]
  · rw [getAt_concat present]
    exact there

end

/-! ## The code for unnested types -/

theorem indices_part (expression : MessageExpr) (compound : Compound) (index : Nat) :
    (expression.part compound index).indices = expression.indices := by
  cases compound <;> rfl

/-- Two expressions for the same place in two messages, and the messages that they mean. -/
structure Compares (loops : List (String × Nat)) (expectedRoot actualRoot : Message)
    (expected_result actual_result : MessageExpr) (expected actual : Message) : Prop where
  sameIndices : actual_result.indices = expected_result.indices
  readsExpected : readMessage loops expectedRoot expected_result = .ok expected
  readsActual : readMessage loops actualRoot actual_result = .ok actual

theorem Compares.start (expected actual : Message) :
    Compares [] expected actual (.var "expected_result") (.var "actual_result") expected actual :=
  ⟨rfl, rfl, rfl⟩

section

variable {loops : List (String × Nat)} {expectedRoot actualRoot expected actual : Message}
  {expected_result actual_result : MessageExpr}
  (compares : Compares loops expectedRoot actualRoot expected_result actual_result expected actual)

include compares

theorem Compares.part (compound : Compound) {index : Nat} {first second : Message}
    (one : (expected.get compound.field)[index]? = some first)
    (two : (actual.get compound.field)[index]? = some second) :
    Compares loops expectedRoot actualRoot (expected_result.part compound index)
      (actual_result.part compound index) first second := by
  refine ⟨?_, readMessage_part compares.readsExpected compound one,
    readMessage_part compares.readsActual compound two⟩
  rw [indices_part, indices_part, compares.sameIndices]

theorem Compares.element (unused : expected_result.indices = []) {index : Nat}
    {first second : Message} (one : expected.vector_value[index]? = some first)
    (two : actual.vector_value[index]? = some second) :
    Compares (("i", index) :: loops) expectedRoot actualRoot (.vector_value expected_result "i")
      (.vector_value actual_result "i") first second := by
  have unusedToo : actual_result.indices = [] := compares.sameIndices.trans unused
  refine ⟨congrArg ("i" :: ·) compares.sameIndices, ?_, ?_⟩
  · exact readMessage_vector_value lookup_cons_self
      (readMessage_cons unused compares.readsExpected _ _) one
  · exact readMessage_vector_value lookup_cons_self
      (readMessage_cons unusedToo compares.readsActual _ _) two

theorem Compares.check (agree : Message → Message → Bool) :
    VerifyCode.check loops expectedRoot actualRoot expected_result actual_result agree =
      verdict (agree expected actual) := by
  rw [VerifyCode.check, compares.readsExpected, compares.readsActual]
  rfl

omit compares in
theorem limit_eq (reads : readMessage loops root expression = .ok message) :
    VerifyCode.limit loops root expression = .ok (message.vector_value.length : Int) := by
  rw [VerifyCode.limit, reads]

/-- The loop over the elements of a vector or array, outside of any loop. -/
theorem Compares.elements (unused : expected_result.indices = [])
    (fits : expected.vector_value.length < indices) {body : VerifyCode}
    (round : ∀ index first second, expected.vector_value[index]? = some first →
      actual.vector_value[index]? = some second →
      body.run (("i", index) :: loops) expectedRoot actualRoot = verdict (agree first second)) :
    (VerifyCode.seq (.check_size expected_result actual_result)
        (.loop "i" expected_result body)).run loops expectedRoot actualRoot =
      verdict (actual.vector_value.length = expected.vector_value.length &&
        agreeAll agree expected.vector_value actual.vector_value) := by
  rw [VerifyCode.run, VerifyCode.run, compares.check]
  by_cases same : actual.vector_value.length = expected.vector_value.length
  · rw [decide_eq_true same, VerifyCode.run]
    have bounded : ∀ count, VerifyCode.limit (("i", count) :: loops) expectedRoot expected_result =
        .ok (expected.vector_value.length : Int) :=
      fun count => limit_eq (readMessage_cons unused compares.readsExpected "i" count)
    exact countUp_verdict _ _ same bounded round (Nat.zero_le _) (by omega)
  · rw [decide_eq_false same]
    rfl

theorem Compares.call (func_name : String) (body : VerifyCode) :
    (VerifyCode.call func_name expected_result actual_result body).run loops expectedRoot
      actualRoot = body.run [] expected actual := by
  rw [VerifyCode.run, compares.readsExpected, compares.readsActual]

end

theorem unnested_at_root {fields : Fields} (unnested : fields.Unnested False) {text : String} :
    fields.Unnested ((MessageExpr.var text).indices ≠ []) := by
  simpa [MessageExpr.indices] using unnested

theorem of_drop_eq_cons {α : Type} {list rest : List α} {index : Nat} {first : α}
    (dropped : list.drop index = first :: rest) :
    list[index]? = some first ∧ list.drop (index + 1) = rest := by
  constructor
  · rw [← List.head?_drop, dropped, List.head?_cons]
  · rw [← tail_drop, dropped, tail_cons]

mutual

theorem run_eq_verdict : ∀ (spec : Spec) {loops : List (String × Nat)}
    {expectedRoot actualRoot expected actual : Message}
    {expected_result actual_result : MessageExpr},
    Compares loops expectedRoot actualRoot expected_result actual_result expected actual →
    spec.Unnested (expected_result.indices ≠ []) →
    spec.LaidOut expected → spec.LaidOut actual →
    (GenerateVerificationCodeForTypedVariable spec expected_result actual_result).run loops
      expectedRoot actualRoot = verdict (spec.agree expected actual)
  | .scalar _, _, _, _, _, _, _, _, compares, _, _, _
  | .mask _, _, _, _, _, _, _, _, compares, _, _, _
  | .string, _, _, _, _, _, _, _, compares, _, _, _ => compares.check _
  | .enum _ _, _, _, _, _, _, _, _, compares, _, _, _ =>
    (compares.call _ _).trans ((Compares.start _ _).check _)
  | .handle, _, _, _, _, _, _, _, _, _, _, _ => rfl
  | .vector vector_value, _, _, _, _, _, _, _, compares, unnested, laidOut, laidOutToo
  | .array _ vector_value, _, _, _, _, _, _, _, compares, unnested, laidOut, laidOutToo => by
    have unused := not_not.mp unnested.1
    refine compares.elements unused laidOut.2.1 fun index first second one two => ?_
    refine run_eq_verdict vector_value (compares.element unused one two) ?_
      (laidOut.2.2 _ (mem_of_getElem? one)) (laidOutToo.2.2 _ (mem_of_getElem? two))
    simpa [MessageExpr.indices] using unnested.2
  | .struct none fields, _, _, _, _, _, _, _, compares, unnested, laidOut, laidOutToo
  | .union none fields, _, _, _, _, _, _, _, compares, unnested, laidOut, laidOutToo =>
    run_fields_eq_verdict fields _ 0 compares unnested rfl rfl laidOut.2 laidOutToo.2
  | .struct (some _) fields, _, _, _, _, _, _, _, compares, unnested, laidOut, laidOutToo
  | .union (some _) fields, _, _, _, _, _, _, _, compares, unnested, laidOut, laidOutToo =>
    (compares.call _ _).trans
      (run_fields_eq_verdict fields _ 0 (Compares.start _ _)
        (unnested_at_root unnested) rfl rfl laidOut.2 laidOutToo.2)

/-- The code for the fields of an unnested type, from one of them on. -/
theorem run_fields_eq_verdict : ∀ (fields : Fields) (compound : Compound) (index : Nat)
    {loops : List (String × Nat)} {expectedRoot actualRoot expected actual : Message}
    {expected_result actual_result : MessageExpr} {expecteds actuals : List Message},
    Compares loops expectedRoot actualRoot expected_result actual_result expected actual →
    fields.Unnested (expected_result.indices ≠ []) →
    (expected.get compound.field).drop index = expecteds →
    (actual.get compound.field).drop index = actuals →
    fields.LaidOut expecteds → fields.LaidOut actuals →
    (GenerateVerificationCodeForFields fields compound index expected_result actual_result).run
      loops expectedRoot actualRoot = verdict (fields.agree expecteds actuals)
  | .nil, _, _, _, _, _, _, _, _, _, _, _, _, _, _, _, _, _ => rfl
  | .cons name field rest, compound, index, _, _, _, _, _, _, _, _, _, compares, unnested,
      fromIndex, fromIndexToo, laidOut, laidOutToo => by
    obtain ⟨first, expecteds, rfl, -, one, others⟩ := laidOut
    obtain ⟨second, actuals, rfl, -, two, othersToo⟩ := laidOutToo
    obtain ⟨atIndex, beyond⟩ := of_drop_eq_cons fromIndex
    obtain ⟨atIndexToo, beyondToo⟩ := of_drop_eq_cons fromIndexToo
    have here := run_eq_verdict field (compares.part compound atIndex atIndexToo)
      (by rw [indices_part]; exact unnested.1) one two
    have later := run_fields_eq_verdict rest compound (index + 1) compares unnested.2 beyond
      beyondToo others othersToo
    rw [GenerateVerificationCodeForFields, VerifyCode.run, here, later]
    exact verdict_and _ _

end

/-! ## The values of messages that agree -/

theorem equal_of_not_floating (integral : ¬ scalar_type.Floating) (first second : Int) :
    scalar_type.equal first second = decide (first = second) := by
  cases scalar_type with
  | float_t => exact absurd (.inl rfl) integral
  | double_t => exact absurd (.inr rfl) integral
  | _ => rfl

theorem scalar_agree_iff (integral : ¬ scalar_type.Floating) (first second : Int) :
    scalar_type.equal second first = true ↔ Value.scalar first = Value.scalar second := by
  rw [equal_of_not_floating integral, decide_eq_true_iff, Value.scalar.injEq, eq_comm]

theorem list_agree_iff {value : Message → Value} {expecteds actuals : List Message}
    (each : ∀ expected ∈ expecteds, ∀ actual ∈ actuals,
      agree expected actual = true ↔ value expected = value actual) :
    (decide (actuals.length = expecteds.length) && agreeAll agree expecteds actuals) = true ↔
      Value.list (expecteds.map value) = Value.list (actuals.map value) := by
  rw [Value.list.injEq]
  induction expecteds generalizing actuals with
  | nil =>
    cases actuals with
    | nil => exact iff_of_true rfl rfl
    | cons actual actuals => exact iff_of_false Bool.false_ne_true nofun
  | cons expected expecteds ih =>
    cases actuals with
    | nil => exact iff_of_false Bool.false_ne_true nofun
    | cons actual actuals =>
      have rest := ih fun one listed other listedToo =>
        each one (mem_cons_of_mem _ listed) other (mem_cons_of_mem _ listedToo)
      have first := each expected mem_cons_self actual mem_cons_self
      rw [map_cons, map_cons, List.cons.injEq, ← first, ← rest, agreeAll]
      simp only [length_cons, Nat.add_right_cancel_iff, Bool.and_eq_true]
      exact ⟨fun ⟨same, here, later⟩ => ⟨here, same, later⟩,
        fun ⟨here, same, later⟩ => ⟨same, here, later⟩⟩

mutual

/-- Messages of a type without floating scalars agree if and only if they hold the same value. -/
theorem agree_iff_value : ∀ (spec : Spec) {expected actual : Message}, spec.Integral →
    spec.LaidOut expected → spec.LaidOut actual →
    (spec.agree expected actual = true ↔ spec.value expected = spec.value actual)
  | .scalar _, _, _, integral, _, _ | .mask _, _, _, integral, _, _
  | .enum _ _, _, _, integral, _, _ => scalar_agree_iff integral _ _
  | .string, expected, actual, _, laidOut, laidOutToo => by
    obtain ⟨-, bytes, held, nulFree⟩ := laidOut
    obtain ⟨-, others, heldToo, nulFreeToo⟩ := laidOutToo
    simp only [Spec.agree, Spec.value, held, heldToo, Option.getD_some, c_str_of_not_mem nulFree,
      c_str_of_not_mem nulFreeToo, decide_eq_true_iff, Value.string.injEq]
    exact eq_comm
  | .vector vector_value, _, _, integral, laidOut, laidOutToo
  | .array _ vector_value, _, _, integral, laidOut, laidOutToo =>
    list_agree_iff fun one listed other listedToo =>
      agree_iff_value vector_value integral (laidOut.2.2 one listed) (laidOutToo.2.2 other listedToo)
  | .struct _ fields, _, _, integral, laidOut, laidOutToo
  | .union _ fields, _, _, integral, laidOut, laidOutToo => by
    rw [Spec.agree, Spec.value, Spec.value, Value.record.injEq]
    exact agree_iff_values fields integral laidOut.2 laidOutToo.2

theorem agree_iff_values : ∀ (fields : Fields) {expecteds actuals : List Message},
    fields.Integral → fields.LaidOut expecteds → fields.LaidOut actuals →
    (fields.agree expecteds actuals = true ↔ fields.values expecteds = fields.values actuals)
  | .nil, _, _, _, _, _ => iff_of_true rfl rfl
  | .cons name field rest, _, _, integral, laidOut, laidOutToo => by
    obtain ⟨first, expecteds, rfl, -, one, others⟩ := laidOut
    obtain ⟨second, actuals, rfl, -, two, othersToo⟩ := laidOutToo
    rw [Fields.agree, Bool.and_eq_true, agree_iff_value field integral.1 one two,
      agree_iff_values rest integral.2 others othersToo, Fields.values, Fields.values,
      List.cons.injEq, Prod.mk.injEq, and_iff_right rfl]

end

theorem Verify_eq_ok {spec : Spec} (unnested : spec.Unnested False) {expected actual : Message}
    (laidOut : spec.LaidOut expected) (laidOutToo : spec.LaidOut actual) :
    Verify spec expected actual = .ok (spec.agree expected actual) := by
  have runs := run_eq_verdict spec (Compares.start expected actual)
    (by simpa [MessageExpr.indices] using unnested) laidOut laidOutToo
  rw [Verify, runs]
  cases spec.agree expected actual <;> rfl

/-! ## Messages that the other types fail on -/

/-- Not a number if the type is floating, and zero otherwise. -/
def ScalarType.sample : ScalarType → Int
  | float_t => 255 * 2 ^ 23 + 1
  | double_t => 2047 * 2 ^ 52 + 1
  | _ => 0

theorem inRange_sample (scalar_type : ScalarType) : scalar_type.InRange scalar_type.sample := by
  cases scalar_type <;> decide

theorem not_floating_of_equal_sample
    (equal : scalar_type.equal scalar_type.sample scalar_type.sample = true) :
    ¬ scalar_type.Floating := by
  rintro (rfl | rfl)
  · exact absurd equal (by decide)
  · exact absurd equal (by decide)

/-- The message with another name. -/
def Message.rename (message : Message) (name : Option String) : Message :=
  { message with name := name }

theorem Message.rename_self (message : Message) : message.rename message.name = message := by
  cases message
  rfl

mutual

/-- A message in which every vector and array has one element and every floating scalar is not a
number. -/
def Spec.sample : Spec → Message
  | .scalar scalar_type => Message.empty.setScalar .TYPE_SCALAR scalar_type scalar_type.sample
  | .string => { Message.empty with type := some .TYPE_STRING, string_message := some [] }
  | .mask scalar_type => Message.empty.setScalar .TYPE_MASK scalar_type scalar_type.sample
  | .enum _ scalar_type => Message.empty.setScalar .TYPE_ENUM scalar_type scalar_type.sample
  | .vector vector_value =>
    { Message.empty with type := some .TYPE_VECTOR, vector_value := [vector_value.sample] }
  | .array _ vector_value =>
    { Message.empty with type := some .TYPE_ARRAY, vector_value := [vector_value.sample] }
  | .struct _ struct_value =>
    { Message.empty with type := some .TYPE_STRUCT, struct_value := struct_value.samples }
  | .union _ union_value =>
    { Message.empty with type := some .TYPE_UNION, union_value := union_value.samples }
  | .handle => .empty

def Fields.samples : Fields → List Message
  | .nil => []
  | .cons name field rest => field.sample.rename (some name) :: rest.samples

end

theorem setScalar_sample (message : Message) (type : VariableType) (scalar_type : ScalarType) :
    (message.setScalar type scalar_type scalar_type.sample).scalar_value scalar_type =
      some scalar_type.sample := by
  simp [Message.setScalar, ScalarType.convert_of_inRange (inRange_sample scalar_type)]

theorem LaidOut_rename {spec : Spec} (laidOut : spec.LaidOut message) (name : Option String) :
    spec.LaidOut (message.rename name) := by
  cases spec <;> exact laidOut

mutual

theorem laidOut_sample : ∀ (spec : Spec), spec.HandleFree → spec.LaidOut spec.sample
  | .scalar scalar_type, _ | .mask scalar_type, _ | .enum _ scalar_type, _ =>
    ⟨rfl, rfl, scalar_type.sample, setScalar_sample _ _ _, inRange_sample _⟩
  | .string, _ => ⟨rfl, [], rfl, List.not_mem_nil⟩
  | .vector vector_value, handleFree | .array _ vector_value, handleFree => by
    refine ⟨rfl, (by decide : 1 < indices), fun element listed => ?_⟩
    rw [List.mem_singleton.mp listed]
    exact laidOut_sample vector_value handleFree
  | .struct _ struct_value, handleFree => ⟨rfl, laidOut_samples struct_value handleFree⟩
  | .union _ union_value, handleFree => ⟨rfl, laidOut_samples union_value handleFree⟩

theorem laidOut_samples : ∀ (fields : Fields), fields.HandleFree → fields.LaidOut fields.samples
  | .nil, _ => rfl
  | .cons _ field rest, handleFree =>
    ⟨_, _, rfl, rfl, LaidOut_rename (laidOut_sample field handleFree.1) _,
      laidOut_samples rest handleFree.2⟩

end

/-- In the second round of a loop the expression means nothing in the message. -/
def Beyond (root : Message) (expression : MessageExpr) : Prop :=
  ∀ (loops : List (String × Nat)) (message : Message), loops.lookup "i" = some 1 →
    readMessage loops root expression ≠ .ok message

theorem Beyond.part {root : Message} {expression : MessageExpr} (beyond : Beyond root expression)
    (compound : Compound) (index : Nat) : Beyond root (expression.part compound index) := by
  intro loops message second reads
  obtain ⟨steps, path, found⟩ := readMessage_eq_ok.mp reads
  have whole : (expression.part compound index).path loops =
      (expression.path loops).map (· ++ [(compound.field, index)]) := by
    cases compound <;> rfl
  rw [whole] at path
  obtain ⟨before, pathBefore, rfl⟩ := Option.map_eq_some_iff.mp path
  obtain ⟨above, reached, -⟩ := getAt_of_concat found
  exact beyond loops above second (readMessage_eq_ok.mpr ⟨before, pathBefore, reached⟩)

/-- An expression without indices means the same in all loops. -/
theorem path_eq_of_unused (unused : expression.indices = []) (loops : List (String × Nat)) :
    expression.path loops = expression.path [] := by
  induction loops with
  | nil => rfl
  | cons loop loops ih =>
    rw [← ih]
    exact MessageExpr.path_cons (by rw [unused]; exact not_mem_nil) _ _

section

variable {loops : List (String × Nat)} {expectedRoot actualRoot expected actual : Message}
  {expected_result actual_result : MessageExpr}

theorem beyond_element (unused : expression.indices = [])
    (reads : readMessage loops root expression = .ok message)
    (single : message.vector_value.length = 1) : Beyond root (.vector_value expression "i") := by
  intro others found second readsElement
  obtain ⟨steps, path, present⟩ := readMessage_eq_ok.mp reads
  obtain ⟨stepsToo, pathToo, presentToo⟩ := readMessage_eq_ok.mp readsElement
  have same : expression.path others = some steps := by
    rw [path_eq_of_unused unused, ← path_eq_of_unused unused loops, path]
  simp only [MessageExpr.path, same, second, Option.some.injEq] at pathToo
  rw [← pathToo, getAt_concat present] at presentToo
  have there : message.vector_value[1]? = some found := presentToo
  rw [List.getElem?_eq_none (by omega)] at there
  cases there

/-- An index of a loop that already has this value changes nothing. -/
theorem readMessage_same {index_name : String} {count : Nat}
    (held : loops.lookup index_name = some count) (root : Message) (expression : MessageExpr) :
    readMessage ((index_name, count) :: loops) root expression =
      readMessage loops root expression := by
  have names : ∀ name, ((index_name, count) :: loops).lookup name = loops.lookup name := by
    intro name
    by_cases same : name = index_name
    · rw [same, lookup_cons_self, held]
    · rw [lookup_cons, beq_eq_false_iff_ne.mpr same]
  have path : expression.path ((index_name, count) :: loops) = expression.path loops := by
    induction expression with
    | var _ => rfl
    | struct_value message _ ih | union_value message _ ih =>
      rw [MessageExpr.path, MessageExpr.path, ih]
    | vector_value message other ih =>
      rw [MessageExpr.path, MessageExpr.path, ih, names]
  rw [readMessage, readMessage, path]

/-- A loop that ends has passed its first round. -/
theorem countUp_one {bound : Nat → Except Leaves Int} {body : Nat → Unit → Except Leaves Unit}
    {rounds : Nat} (once : bound 0 = .ok 1)
    (ends : countUp (.faults .indexOverflow) bound body (rounds + 1 + 1) 0 () = .ok ()) :
    body 0 () = .ok () ∧ ∃ limit, bound 1 = .ok limit := by
  rw [countUp, once] at ends
  dsimp only at ends
  rw [if_pos (by decide)] at ends
  cases first : body 0 () with
  | error leaves =>
    rw [first] at ends
    cases ends
  | ok passed =>
    rw [first] at ends
    dsimp only at ends
    rw [countUp] at ends
    refine ⟨rfl, ?_⟩
    cases second : bound 1 with
    | error leaves =>
      rw [second] at ends
      cases ends
    | ok limit => exact ⟨limit, rfl⟩

theorem of_verdict_ok {agree : Bool} (passes : verdict agree = .ok ()) : agree = true := by
  cases agree with
  | false => cases passes
  | true => rfl

/-- Code in a sequence that goes on. -/
theorem of_run_seq {first second : VerifyCode}
    (ran : (VerifyCode.seq first second).run loops expectedRoot actualRoot = .ok ()) :
    first.run loops expectedRoot actualRoot = .ok () ∧
      second.run loops expectedRoot actualRoot = .ok () := by
  rw [VerifyCode.run] at ran
  cases one : first.run loops expectedRoot actualRoot with
  | error leaves =>
    rw [one] at ran
    cases ran
  | ok passed =>
    rw [one] at ran
    exact ⟨rfl, ran⟩

section

variable
  (compares : Compares loops expectedRoot actualRoot expected_result actual_result expected actual)
include compares

/-- The comparison of a scalar of a sample with itself. -/
theorem not_floating_of_run (held : expected.scalar_value scalar_type = some scalar_type.sample)
    (heldToo : actual.scalar_value scalar_type = some scalar_type.sample)
    (ran : (VerifyCode.check_scalar expected_result actual_result scalar_type).run loops
      expectedRoot actualRoot = .ok ()) : ¬ scalar_type.Floating := by
  have agrees := of_verdict_ok ((compares.check _).symm.trans ran)
  rw [held, heldToo] at agrees
  exact not_floating_of_equal_sample agrees

/-- A loop over the only element of a vector or array that goes on is outside of any loop. -/
theorem of_run_element {first second : Message} (inside : expected_result.indices ≠ [] →
      loops.lookup "i" = some 0 ∧ Beyond expectedRoot expected_result)
    (single : expected.vector_value = [first]) (singleToo : actual.vector_value = [second])
    {body : VerifyCode} (ran : (VerifyCode.seq (.check_size expected_result actual_result)
      (.loop "i" expected_result body)).run loops expectedRoot actualRoot = .ok ()) :
    expected_result.indices = [] ∧
      Compares (("i", 0) :: loops) expectedRoot actualRoot (.vector_value expected_result "i")
        (.vector_value actual_result "i") first second ∧
      Beyond expectedRoot (.vector_value expected_result "i") ∧
      body.run (("i", 0) :: loops) expectedRoot actualRoot = .ok () := by
  have looped := (of_run_seq ran).2
  rw [VerifyCode.run] at looped
  by_cases unused : expected_result.indices = []
  · have once : VerifyCode.limit (("i", 0) :: loops) expectedRoot expected_result = .ok 1 := by
      rw [limit_eq (readMessage_cons unused compares.readsExpected "i" 0), single]
      rfl
    refine ⟨unused, compares.element unused (by rw [single]; rfl) (by rw [singleToo]; rfl),
      beyond_element unused compares.readsExpected (by rw [single]; rfl), ?_⟩
    exact (countUp_one once looped).1
  · -- the second round reads past the end of the outer vector
    obtain ⟨zero, beyond⟩ := inside unused
    have once : VerifyCode.limit (("i", 0) :: loops) expectedRoot expected_result = .ok 1 := by
      rw [limit_eq ((readMessage_same zero _ _).trans compares.readsExpected), single]
      rfl
    obtain ⟨limit, reads⟩ := (countUp_one once looped).2
    rw [VerifyCode.limit] at reads
    cases second : readMessage (("i", 1) :: loops) expectedRoot expected_result with
    | error fault =>
      rw [second] at reads
      cases reads
    | ok message => exact absurd second (beyond _ message lookup_cons_self)

end

end

mutual

/-- If the comparison of a sample with itself goes on, the type is unnested and integral. -/
theorem of_run_sample : ∀ (spec : Spec) {loops : List (String × Nat)}
    {expectedRoot actualRoot : Message} {expected_result actual_result : MessageExpr}
    {name name' : Option String},
    Compares loops expectedRoot actualRoot expected_result actual_result
      (spec.sample.rename name) (spec.sample.rename name') →
    (expected_result.indices ≠ [] → loops.lookup "i" = some 0 ∧ Beyond expectedRoot expected_result) →
    (GenerateVerificationCodeForTypedVariable spec expected_result actual_result).run loops
      expectedRoot actualRoot = .ok () →
    spec.Unnested (expected_result.indices ≠ []) ∧ spec.Integral
  | .scalar _, _, _, _, _, _, _, _, compares, _, ran =>
    ⟨trivial, not_floating_of_run compares (setScalar_sample .empty .TYPE_SCALAR _)
      (setScalar_sample .empty .TYPE_SCALAR _) ran⟩
  | .mask _, _, _, _, _, _, _, _, compares, _, ran =>
    ⟨trivial, not_floating_of_run compares (setScalar_sample .empty .TYPE_MASK _)
      (setScalar_sample .empty .TYPE_MASK _) ran⟩
  | .string, _, _, _, _, _, _, _, _, _, _ => ⟨trivial, trivial⟩
  | .enum _ _, _, _, _, _, _, _, _, compares, _, ran =>
    ⟨trivial, not_floating_of_run (Compares.start _ _) (setScalar_sample .empty .TYPE_ENUM _)
      (setScalar_sample .empty .TYPE_ENUM _) ((compares.call _ _).symm.trans ran)⟩
  | .handle, _, _, _, _, _, _, _, _, _, _ => ⟨trivial, trivial⟩
  | .vector vector_value, _, _, _, _, _, _, _, compares, inside, ran
  | .array _ vector_value, _, _, _, _, _, _, _, compares, inside, ran => by
    obtain ⟨unused, element, beyond, body⟩ := of_run_element compares inside rfl rfl ran
    rw [← vector_value.sample.rename_self] at element
    obtain ⟨unnested, integral⟩ := of_run_sample vector_value element (fun _ => ⟨lookup_cons_self, beyond⟩) body
    exact ⟨⟨not_not.mpr unused, by simpa [MessageExpr.indices] using unnested⟩, integral⟩
  | .struct none fields, _, _, _, _, _, _, _, compares, inside, ran
  | .union none fields, _, _, _, _, _, _, _, compares, inside, ran =>
    of_run_samples fields _ 0 compares inside rfl rfl ran
  | .struct (some _) fields, _, _, _, _, _, _, _, compares, _, ran
  | .union (some _) fields, _, _, _, _, _, _, _, compares, _, ran => by
    have samples := of_run_samples fields _ 0 (Compares.start _ _)
      (fun used => absurd rfl used) rfl rfl ((compares.call _ _).symm.trans ran)
    have unnested : fields.Unnested False := by
      simpa [MessageExpr.indices] using samples.1
    exact ⟨unnested, samples.2⟩

theorem of_run_samples : ∀ (fields : Fields) (compound : Compound) (index : Nat)
    {loops : List (String × Nat)} {expectedRoot actualRoot expected actual : Message}
    {expected_result actual_result : MessageExpr},
    Compares loops expectedRoot actualRoot expected_result actual_result expected actual →
    (expected_result.indices ≠ [] → loops.lookup "i" = some 0 ∧ Beyond expectedRoot expected_result) →
    (expected.get compound.field).drop index = fields.samples →
    (actual.get compound.field).drop index = fields.samples →
    (GenerateVerificationCodeForFields fields compound index expected_result actual_result).run
      loops expectedRoot actualRoot = .ok () →
    fields.Unnested (expected_result.indices ≠ []) ∧ fields.Integral
  | .nil, _, _, _, _, _, _, _, _, _, _, _, _, _, _ => ⟨trivial, trivial⟩
  | .cons name field rest, compound, index, _, _, _, _, _, _, _, compares, inside, fromIndex,
      fromIndexToo, ran => by
    obtain ⟨atIndex, later⟩ := of_drop_eq_cons fromIndex
    obtain ⟨atIndexToo, laterToo⟩ := of_drop_eq_cons fromIndexToo
    obtain ⟨here, beyond⟩ := of_run_seq ran
    have one := of_run_sample field (compares.part compound atIndex atIndexToo)
      (fun used => (inside (by rwa [indices_part] at used)).imp_right fun past =>
        past.part compound index) here
    have others := of_run_samples rest compound (index + 1) compares inside later laterToo beyond
    rw [indices_part] at one
    exact ⟨⟨one.1, others.1⟩, one.2, others.2⟩

end

theorem of_Verify_sample {spec : Spec} (returns : Verify spec spec.sample spec.sample = .ok true) :
    spec.Unnested False ∧ spec.Integral := by
  have ran : (GenerateVerificationCodeForTypedVariable spec (.var "expected_result")
      (.var "actual_result")).run [] spec.sample spec.sample = .ok () := by
    rw [Verify] at returns
    split at returns
    · assumption
    · cases returns
    · cases returns
  have start := Compares.start spec.sample spec.sample
  rw [← spec.sample.rename_self] at start ran
  obtain ⟨unnested, integral⟩ := of_run_sample spec start (fun used => absurd rfl used) ran
  exact ⟨by simpa [MessageExpr.indices] using unnested, integral⟩

/-! ## Equality -/

/-- For a type without handles the emitted code returns true for two messages exactly if they hold
the same value, and reads no element that is not there, whatever the messages, if and only if no
vector or array is inside another one in the same function and no scalar is floating. -/
theorem Verify_is_equality_iff {spec : Spec} (handleFree : spec.HandleFree) :
    (∀ expected actual : Message, spec.LaidOut expected → spec.LaidOut actual →
      ∃ result, Verify spec expected actual = .ok result ∧
        (result = true ↔ spec.value expected = spec.value actual)) ↔
      spec.Unnested False ∧ spec.Integral := by
  constructor
  · intro equality
    have laidOut := laidOut_sample spec handleFree
    obtain ⟨result, returns, same⟩ := equality spec.sample spec.sample laidOut laidOut
    rw [same.mpr rfl] at returns
    exact of_Verify_sample returns
  · rintro ⟨unnested, integral⟩ expected actual laidOut laidOutToo
    exact ⟨_, Verify_eq_ok unnested laidOut laidOutToo,
      agree_iff_value spec integral laidOut laidOutToo⟩

/-- A vector of a predefined struct with a vector in it. -/
def vectorOfStruct : Spec :=
  .vector (.struct (some "S") (.cons "v" (.vector (.scalar .int32_t)) .nil))

theorem Verify_is_equality_iff_predefined :
    vectorOfStruct.LaidOut vectorOfStruct.sample ∧
      ∃ result, Verify vectorOfStruct vectorOfStruct.sample vectorOfStruct.sample = .ok result ∧
        (result = true ↔
          vectorOfStruct.value vectorOfStruct.sample = vectorOfStruct.value vectorOfStruct.sample) := by
  have laidOut := laidOut_sample vectorOfStruct
    (by simp [vectorOfStruct, Spec.HandleFree, Fields.HandleFree])
  exact ⟨laidOut, (Verify_is_equality_iff
    (by simp [vectorOfStruct, Spec.HandleFree, Fields.HandleFree])).mpr
      ⟨by simp [vectorOfStruct, Spec.Unnested, Fields.Unnested],
        by simp [vectorOfStruct, Spec.Integral, Fields.Integral, ScalarType.Floating]⟩
      _ _ laidOut laidOut⟩

/-- A vector of vectors: for two messages with one element each the code reads past the end of the
outer vector. -/
theorem Verify_nested_vectors :
    ¬ ∀ (spec : Spec) (expected actual : Message), spec.HandleFree →
      spec.LaidOut expected → spec.LaidOut actual →
      ∃ result, Verify spec expected actual = .ok result ∧
        (result = true ↔ spec.value expected = spec.value actual) := by
  intro always
  let spec : Spec := .vector (.vector (.scalar .int32_t))
  have laidOut := laidOut_sample spec trivial
  obtain ⟨result, returns, same⟩ := always spec spec.sample spec.sample trivial laidOut laidOut
  rw [same.mpr rfl] at returns
  exact (of_Verify_sample returns).1.2.1 trivial

/-! ## The messages of results -/

theorem not_mem_c_str (bytes : List UInt8) : (0 : UInt8) ∉ c_str bytes := by
  intro listed
  have notZero := mem_takeWhile_imp listed
  exact absurd notZero (by decide)

theorem setScalar_held (message : Message) (type : VariableType) {number : Int}
    (held : scalar_type.InRange number) :
    ∃ value, (message.setScalar type scalar_type number).scalar_value scalar_type = some value ∧
      scalar_type.InRange value :=
  ⟨number, by simp [Message.setScalar, ScalarType.convert_of_inRange held], held⟩

theorem length_vector_lt (elements : List Value) :
    (if elements.length < indices then elements else []).length < indices := by
  split
  · assumption
  · decide

mutual

/-- What the code for results writes is laid out for the type. -/
theorem laidOut_setResult : ∀ (spec : Spec) {value : Value} {message : Message},
    message.vector_value = [] → message.struct_value = [] → spec.Basic → spec.Holds value →
    spec.LaidOut (setResult spec value message)
  | .scalar _, .scalar _, _, _, _, _, held | .mask _, .scalar _, _, _, _, _, held
  | .enum _ _, .scalar _, _, _, _, _, held => ⟨rfl, rfl, setScalar_held _ _ held⟩
  | .string, .string bytes, _, _, _, _, _ => ⟨rfl, c_str bytes, rfl, not_mem_c_str bytes⟩
  | .vector vector_value, .list elements, _, noElements, _, basic, held => by
    rw [setResult, noElements, List.nil_append]
    refine ⟨rfl, ?_, fun element listed => ?_⟩
    · rw [List.length_map]
      exact length_vector_lt elements
    · obtain ⟨part, inside, rfl⟩ := mem_map.mp listed
      have mem : part ∈ elements := by
        split at inside
        · exact inside
        · cases inside
      exact laidOut_setResult vector_value rfl rfl basic (held.2 part mem)
  | .array _ vector_value, .list elements, _, noElements, _, basic, held => by
    rw [setResult, noElements, nil_append]
    refine ⟨rfl, ?_, fun element listed => ?_⟩
    · rw [length_map]
      exact Nat.lt_of_le_of_lt (length_take_le 1 elements) (by decide)
    · obtain ⟨part, inside, rfl⟩ := mem_map.mp listed
      exact laidOut_setResult vector_value rfl rfl basic.2 (held.2 part (mem_of_mem_take inside))
  | .struct _ struct_value, .record members, _, _, noFields, basic, held => by
    rw [setResult, noFields, nil_append]
    exact ⟨rfl, laidOut_setResults struct_value basic held⟩

theorem laidOut_setResults : ∀ (fields : Fields) {members : List (String × Value)}, fields.Basic →
    fields.Hold members → fields.LaidOut (setResults fields members)
  | .nil, _, _, held => by
    rw [held]
    rfl
  | .cons name field rest, _, basic, held => by
    obtain ⟨value, others, rfl, one, further⟩ := held
    exact ⟨_, _, rfl, rfl, LaidOut_rename (laidOut_setResult field rfl rfl basic.1 one) _,
      laidOut_setResults rest basic.2 further⟩

end

/-! ## Whole results -/

/-- The values of a result. -/
def returnValues (specs : List Spec) (messages : List Message) : List Value :=
  List.zipWith Spec.value specs messages

theorem VerifyReturns_iff {specs : List Spec} {expecteds actuals : List Message}
    (compared : ∀ spec ∈ specs, spec.Unnested False ∧ spec.Integral)
    (laidOut : List.Forall₂ Spec.LaidOut specs expecteds)
    (laidOutToo : List.Forall₂ Spec.LaidOut specs actuals) :
    ∃ result, VerifyReturns specs expecteds actuals = .ok result ∧
      (result = true ↔ returnValues specs expecteds = returnValues specs actuals) := by
  induction laidOut generalizing actuals with
  | nil => exact ⟨true, rfl, iff_of_true rfl rfl⟩
  | @cons spec expected specs expecteds one rest ih =>
    cases laidOutToo with
    | @cons _ actual _ actuals two restToo =>
      obtain ⟨unnested, integral⟩ := compared spec mem_cons_self
      obtain ⟨result, returns, same⟩ := ih
        (fun other listed => compared other (mem_cons_of_mem _ listed)) restToo
      have first := agree_iff_value spec integral one two
      rw [VerifyReturns, Verify_eq_ok unnested one two, returnValues, returnValues,
        zipWith_cons_cons, zipWith_cons_cons, List.cons.injEq, ← first]
      cases spec.agree expected actual with
      | false => exact ⟨false, rfl, by simp⟩
      | true => exact ⟨result, returns, same.trans (and_iff_right rfl).symm⟩

end Vts.Vtsc
