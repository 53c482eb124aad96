import Vts.Vtsc.Results

/-!
# Verification: messages compared

`GenerateVerificationCodeForTypedVariable`, `GenerateVerificationImplForAttribute` and
`GenerateVerificationFunctionImpl` of `compilation_tools/vtsc/code_gen/driver/HalHidlCodeGen.cpp`,
which emit the code that compares a result with the expected one, message by message.

The code returns false at the first difference and true at the end. Nothing is proved here; what the
code finds out is the subject of the next module.
-/

namespace Vts.Vtsc

open Vts.Lib Children

/-! ## The emitted code -/

/-- Code that compares an expected message with an actual one, and returns false where they
differ. -/
inductive VerifyCode where
  | skip
  | seq (first second : VerifyCode)
  /-- `if (actual_result.scalar_value().scalar_type() != ...) { return false; }` -/
  | check_scalar (expected_result actual_result : MessageExpr) (scalar_type : ScalarType)
  /-- `if (strcmp(actual_result.string_value().message().c_str(), ...) != 0) { return false; }` -/
  | check_string (expected_result actual_result : MessageExpr)
  /-- `if (actual_result.vector_value_size() != ...) { return false; }` -/
  | check_size (expected_result actual_result : MessageExpr)
  /-- `for (int index_name = 0; index_name < expected_result.vector_value_size(); index_name++)` -/
  | loop (index_name : String) (expected_result : MessageExpr) (body : VerifyCode)
  /-- `if (!func_name(expected_result, actual_result)) { return false; }`, with the body of the
  function. -/
  | call (func_name : String) (expected_result actual_result : MessageExpr) (body : VerifyCode)

/-- The types whose messages have one message for each field. -/
inductive Compound where
  | struct
  | union
deriving DecidableEq

/-- Where the messages of the fields are. -/
def Compound.field : Compound → Repeated
  | struct => .struct_value
  | union => .union_value

def MessageExpr.part (message : MessageExpr) : Compound → Nat → MessageExpr
  | .struct, index => .struct_value message index
  | .union, index => .union_value message index

mutual

/-- `GenerateVerificationCodeForTypedVariable(val, expected_result, actual_result)`. The functions
that are called are those of `GenerateVerificationImplForAttribute`. For a handle nothing is
compared. -/
def GenerateVerificationCodeForTypedVariable : Spec → MessageExpr → MessageExpr → VerifyCode
  | .scalar scalar_type, expected_result, actual_result =>
    .check_scalar expected_result actual_result scalar_type
  | .string, expected_result, actual_result => .check_string expected_result actual_result
  | .enum predefined_type scalar_type, expected_result, actual_result =>
    .call ("Verify" ++ ClearStringWithNameSpaceAccess predefined_type) expected_result actual_result
      (.check_scalar (.var "expected_result") (.var "actual_result") scalar_type)
  | .mask scalar_type, expected_result, actual_result =>
    .check_scalar expected_result actual_result scalar_type
  | .vector vector_value, expected_result, actual_result =>
    .seq (.check_size expected_result actual_result)
      (.loop "i" expected_result (GenerateVerificationCodeForTypedVariable vector_value
        (.vector_value expected_result "i") (.vector_value actual_result "i")))
  | .array _ vector_value, expected_result, actual_result =>
    .seq (.check_size expected_result actual_result)
      (.loop "i" expected_result (GenerateVerificationCodeForTypedVariable vector_value
        (.vector_value expected_result "i") (.vector_value actual_result "i")))
  | .struct (some predefined_type) struct_value, expected_result, actual_result =>
    .call ("Verify" ++ ClearStringWithNameSpaceAccess predefined_type) expected_result actual_result
      (GenerateVerificationCodeForFields struct_value .struct 0 (.var "expected_result")
        (.var "actual_result"))
  | .struct none struct_value, expected_result, actual_result =>
    GenerateVerificationCodeForFields struct_value .struct 0 expected_result actual_result
  | .union (some predefined_type) union_value, expected_result, actual_result =>
    .call ("Verify" ++ ClearStringWithNameSpaceAccess predefined_type) expected_result actual_result
      (GenerateVerificationCodeForFields union_value .union 0 (.var "expected_result")
        (.var "actual_result"))
  | .union none union_value, expected_result, actual_result =>
    GenerateVerificationCodeForFields union_value .union 0 expected_result actual_result
  | .handle, _, _ => .skip

/-- The loops over the fields, from a position on. -/
def GenerateVerificationCodeForFields : Fields → Compound → Nat → MessageExpr → MessageExpr →
    VerifyCode
  | .nil, _, _, _, _ => .skip
  | .cons _ field rest, compound, index, expected_result, actual_result =>
    .seq (GenerateVerificationCodeForTypedVariable field (expected_result.part compound index)
        (actual_result.part compound index))
      (GenerateVerificationCodeForFields rest compound (index + 1) expected_result actual_result)

end

/-! ## Running -/

/-- Floating values are equal if neither is not a number, and both are the same or zero. They are
given by their bits, with the weight of the sign and the bits of infinity. -/
def floatingEqual (sign infinity first second : Int) : Bool :=
  first % sign ≤ infinity && second % sign ≤ infinity &&
    (first = second || first % sign = 0 && second % sign = 0)

/-- `==`, for values of a scalar type. -/
def ScalarType.equal : ScalarType → Int → Int → Bool
  | float_t, first, second => floatingEqual (2 ^ 31) (255 * 2 ^ 23) first second
  | double_t, first, second => floatingEqual (2 ^ 63) (2047 * 2 ^ 52) first second
  | _, first, second => first = second

/-- How a function is left before its end. -/
inductive Leaves where
  | returnsFalse
  | faults (fault : Fault)
deriving DecidableEq

namespace VerifyCode

/-- Reads two messages and goes on if they agree. -/
def check (loops : List (String × Nat)) (expectedRoot actualRoot : Message)
    (expected_result actual_result : MessageExpr) (agree : Message → Message → Bool) :
    Except Leaves Unit :=
  match readMessage loops expectedRoot expected_result, readMessage loops actualRoot actual_result with
  | .ok expected, .ok actual => if agree expected actual then .ok () else .error .returnsFalse
  | .error fault, _ => .error (.faults fault)
  | .ok _, .error fault => .error (.faults fault)

/-- The number of messages in `vector_value`. -/
def limit (loops : List (String × Nat)) (root : Message) (expected_result : MessageExpr) :
    Except Leaves Int :=
  match readMessage loops root expected_result with
  | .ok message => .ok message.vector_value.length
  | .error fault => .error (.faults fault)

/-- The function goes on after the code, or is left. -/
def run : VerifyCode → List (String × Nat) → Message → Message → Except Leaves Unit
  | skip, _, _, _ => .ok ()
  | seq first second, loops, expectedRoot, actualRoot =>
    match first.run loops expectedRoot actualRoot with
    | .error leaves => .error leaves
    | .ok _ => second.run loops expectedRoot actualRoot
  | check_scalar expected_result actual_result scalar_type, loops, expectedRoot, actualRoot =>
    check loops expectedRoot actualRoot expected_result actual_result fun expected actual =>
      scalar_type.equal ((actual.scalar_value scalar_type).getD 0)
        ((expected.scalar_value scalar_type).getD 0)
  | check_string expected_result actual_result, loops, expectedRoot, actualRoot =>
    check loops expectedRoot actualRoot expected_result actual_result fun expected actual =>
      c_str (actual.string_message.getD []) = c_str (expected.string_message.getD [])
  | check_size expected_result actual_result, loops, expectedRoot, actualRoot =>
    check loops expectedRoot actualRoot expected_result actual_result fun expected actual =>
      actual.vector_value.length = expected.vector_value.length
  | loop index_name expected_result body, loops, expectedRoot, actualRoot =>
    countUp (.faults .indexOverflow)
      (fun count => limit ((index_name, count) :: loops) expectedRoot expected_result)
      (fun count _ => body.run ((index_name, count) :: loops) expectedRoot actualRoot) indices 0 ()
  | call _ expected_result actual_result body, loops, expectedRoot, actualRoot =>
    match readMessage loops expectedRoot expected_result,
        readMessage loops actualRoot actual_result with
    | .ok expected, .ok actual => body.run [] expected actual
    | .error fault, _ => .error (.faults fault)
    | .ok _, .error fault => .error (.faults fault)

end VerifyCode

/-- What the comparison of one result comes to, where the function returns true at its end. -/
def Verify (spec : Spec) (expected_result actual_result : Message) : Except Fault Bool :=
  match (GenerateVerificationCodeForTypedVariable spec (.var "expected_result")
      (.var "actual_result")).run [] expected_result actual_result with
  | .ok _ => .ok true
  | .error .returnsFalse => .ok false
  | .error (.faults fault) => .error fault

/-- The result of a function, of a `FunctionSpecificationMessage`. -/
structure FunctionResult where
  name : String
  return_type_hidl : List Message

/-- The comparisons of the returned values one after another. -/
def VerifyReturns : List Spec → List Message → List Message → Except Fault Bool
  | [], _, _ => .ok true
  | spec :: specs, expected :: expecteds, actual :: actuals =>
    match Verify spec expected actual with
    | .ok true => VerifyReturns specs expecteds actuals
    | other => other
  | _ :: _, _, _ => .error .outOfRange

/-- The function that `GenerateVerificationFunctionImpl` emits for the functions of an interface. -/
def VerifyResults : List (String × List Spec) → FunctionResult → FunctionResult → Except Fault Bool
  | [], _, _ => .ok false
  | (name, return_type_hidl) :: api, expected_result, actual_result =>
    if actual_result.name = name then
      if actual_result.return_type_hidl.length ≠ expected_result.return_type_hidl.length then
        .ok false
      else
        VerifyReturns return_type_hidl expected_result.return_type_hidl
          actual_result.return_type_hidl
    else VerifyResults api expected_result actual_result

end Vts.Vtsc
