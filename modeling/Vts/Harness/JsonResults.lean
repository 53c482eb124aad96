/-!
# Test results from JSON

`VtsMultiDeviceTestResultParser.processJsonFile` and `printJsonTable` in
`harnesses/tradefed/src/com/android/tradefed/testtype/VtsMultiDeviceTestResultParser.java`: what
the harness tells its listeners of the results that a run of the tests wrote as JSON.

The JSON library is not part of the source. Its objects are lists of members here, in the
order in which their keys are read. An integer that fits into 32 bits is an `Integer` and not
a `Long`, so that a cast to `long` fails for it. Which other values `getString` turns into a
string differs from one library to another and is left to a `JsonLibrary`.
-/

namespace Vts.Harness.Json

/-! ## JSON -/

/-- The Java values of a parsed text. A `Double` is known by its text. -/
inductive JsonValue where
  | null
  | boolean (value : Bool)
  | integer (value : Int32)
  | long (value : Int64)
  | double (text : String)
  | string (text : String)
  | array (elements : List JsonValue)
  | object (members : List (String × JsonValue))

/-- A `JSONObject`. -/
abbrev JSONObject := List (String × JsonValue)

/-- The exceptions that can be thrown on the way. -/
inductive Thrown where
  | JSONException
  | ClassCastException
  | IndexOutOfBoundsException
deriving DecidableEq

/-- The string that `getString` gives for a value, if it does not throw. -/
structure JsonLibrary where
  coerce : JsonValue → Option String
  coerce_string : ∀ text, coerce (.string text) = some text

def JsonLibrary.getString (lib : JsonLibrary) (value : JsonValue) : Except Thrown String :=
  match lib.coerce value with
  | none => .error .JSONException
  | some text => .ok text

namespace JsonValue

/-- `getJSONArray` of the value that is found. -/
def getJSONArray : JsonValue → Except Thrown (List JsonValue)
  | .array elements => .ok elements
  | _ => .error .JSONException

/-- `getJSONObject` of the value that is found. -/
def getJSONObject : JsonValue → Except Thrown JSONObject
  | .object members => .ok members
  | _ => .error .JSONException

/-- `(String) value`. -/
def toText : JsonValue → Except Thrown String
  | .string text => .ok text
  | _ => .error .ClassCastException

/-- `(long) value`. -/
def toLong : JsonValue → Except Thrown Int64
  | .long value => .ok value
  | _ => .error .ClassCastException

def isNull : JsonValue → Bool
  | .null => true
  | _ => false

end JsonValue

namespace JSONObject

def get (object : JSONObject) (key : String) : Except Thrown JsonValue :=
  match object.lookup key with
  | none => .error .JSONException
  | some value => .ok value

/-- The member is missing or null. -/
def isNull (object : JSONObject) (key : String) : Bool :=
  (object.lookup key).all JsonValue.isNull

end JSONObject

/-! ## Events -/

structure TestDescription where
  className : String
  testName : String
deriving DecidableEq

/-- What a listener is told. -/
inductive Event where
  | testRunStarted (runName : Option String) (testCount : Nat)
  | testStarted (test : TestDescription) (startTime : Int64)
  | testFailed (test : TestDescription) (trace : String)
  | testEnded (test : TestDescription) (endTime : Int64)
  | testRunFailed (errorMessage : String)
  | testRunEnded (elapsedTimeMillis : Int64)
deriving DecidableEq

/-! ## Constants -/

def PASS : String := "PASS"

def FAIL : String := "FAIL"

def TIMEOUT : String := "TIMEOUT"

def SKIP : String := "SKIP"

def ERROR : String := "ERROR"

def RESULTS : String := "Results"

def BEGIN_TIME : String := "Begin Time"

def DETAILS : String := "Details"

def TABLES : String := "Tables"

def END_TIME : String := "End Time"

def TEST_CLASS : String := "Test Class"

def TEST_NAME : String := "Test Name"

def RESULT : String := "Result"

def CLASS_ERRORS : String := "Class Errors"

def UNKNOWN_FAILURE : String := "Unknown failure."

/-! ## Tables -/

/-- `text.length()`, in units of UTF-16. -/
def javaLength (text : String) : Nat :=
  text.toList.foldl (fun units char => units + if char.toNat < 0x10000 then 1 else 2) 0

/-- A column that is new has the width 1. -/
def addColumn (columnLength : List Nat) (colIndex : Nat) : List Nat :=
  if columnLength.length = colIndex then columnLength ++ [1] else columnLength

/-- One round of the first loop over the cells of a row. -/
def measureCell (lib : JsonLibrary) (colIndex : Nat) (columnLength : List Nat)
    (cell : JsonValue) : Except Thrown (List Nat) :=
  if cell.isNull then .ok (addColumn columnLength colIndex)
  else do
    let len := javaLength (← lib.getString cell)
    match (addColumn columnLength colIndex)[colIndex]? with
    | none => .error .IndexOutOfBoundsException
    | some width =>
      .ok (if width < len then (addColumn columnLength colIndex).set colIndex len
        else addColumn columnLength colIndex)

/-- The cells of a row, from a column on, against the widths of the columns so far. -/
def measureRow (lib : JsonLibrary) (colIndex : Nat) (columnLength : List Nat) :
    List JsonValue → Except Thrown (List Nat)
  | [] => .ok columnLength
  | cell :: cells => do
    let columnLength ← measureCell lib colIndex columnLength cell
    measureRow lib (colIndex + 1) columnLength cells

/-- The first loop of `printJsonTable`. -/
def measureTable (lib : JsonLibrary) (columnLength : List Nat) :
    List JsonValue → Except Thrown (List Nat)
  | [] => .ok columnLength
  | row :: rows => do
    let columnLength ← measureRow lib 0 columnLength (← row.getJSONArray)
    measureTable lib columnLength rows

/-- One round of the second loop over the cells of a row. -/
def writeCell (lib : JsonLibrary) (colIndex : Nat) (columnLength : List Nat)
    (cell : JsonValue) : Except Thrown String := do
  let cellText ← if cell.isNull then .ok "" else lib.getString cell
  match columnLength[colIndex]? with
  | none => .error .IndexOutOfBoundsException
  | some width =>
    let padding := String.ofList (List.replicate (width - javaLength cellText) ' ')
    .ok ((if colIndex > 0 then "  " else "") ++ padding ++ cellText)

/-- The text of the cells of a row, from a column on. -/
def writeRow (lib : JsonLibrary) (colIndex : Nat) (columnLength : List Nat) :
    List JsonValue → Except Thrown String
  | [] => .ok "\n"
  | cell :: cells => do
    let text ← writeCell lib colIndex columnLength cell
    let rest ← writeRow lib (colIndex + 1) columnLength cells
    .ok (text ++ rest)

/-- The second loop of `printJsonTable`. -/
def writeTable (lib : JsonLibrary) (columnLength : List Nat) :
    List JsonValue → Except Thrown String
  | [] => .ok ""
  | row :: rows => do
    let text ← writeRow lib 0 columnLength (← row.getJSONArray)
    let rest ← writeTable lib columnLength rows
    .ok (text ++ rest)

/-- The text that is logged. -/
def printJsonTable (lib : JsonLibrary) (name : String) (table : List JsonValue) :
    Except Thrown String := do
  let columnLength ← measureTable lib [] table
  let text ← writeTable lib columnLength table
  .ok (name ++ "\n" ++ text)

/-- The loop over the keys of the tables. -/
def printTables (lib : JsonLibrary) (tables : JSONObject) : List String → Except Thrown Unit
  | [] => .ok ()
  | key :: keys => do
    let table ← tables.get key
    let _ ← printJsonTable lib key (← table.getJSONArray)
    printTables lib tables keys

/-- The tables of a result. -/
def printResultTables (lib : JsonLibrary) (resultObject : JSONObject) : Except Thrown Unit :=
  if resultObject.isNull TABLES then .ok ()
  else do
    let tables ← (← resultObject.get TABLES).getJSONObject
    printTables lib tables (tables.map (·.1))

/-! ## Results -/

/-- The fields of a result, as they are read. -/
structure ResultRecord where
  result : String
  test : TestDescription
  beginTime : Int64
  endTime : Int64
  details : String

/-- A member that may be missing. -/
def optText (lib : JsonLibrary) (object : JSONObject) (key : String) : Except Thrown String :=
  if object.isNull key then .ok ""
  else do lib.getString (← object.get key)

def readResult (lib : JsonLibrary) (resultObject : JSONObject) : Except Thrown ResultRecord := do
  let result ← (← resultObject.get RESULT).toText
  let testClass ← (← resultObject.get TEST_CLASS).toText
  let testName ← (← resultObject.get TEST_NAME).toText
  let beginTime ← (← resultObject.get BEGIN_TIME).toLong
  let endTime ← (← resultObject.get END_TIME).toLong
  let details ← optText lib resultObject DETAILS
  .ok ⟨result, ⟨testClass, testName⟩, beginTime, endTime, details⟩

/-- The cases of the switch. -/
def failure (record : ResultRecord) : List Event :=
  if record.result = PASS then []
  else if record.result = ERROR ∨ record.result = TIMEOUT ∨ record.result = FAIL then
    [.testFailed record.test (if record.details.isEmpty then UNKNOWN_FAILURE else record.details)]
  else
    [.testFailed record.test
      ("Internal error: Cannot recognize test result type. Details: " ++ record.details)]

/-- The events of one result. SKIP is not reported. -/
def report (record : ResultRecord) : List Event :=
  if record.result = SKIP then []
  else .testStarted record.test record.beginTime :: failure record ++
    [.testEnded record.test record.endTime]

/-- One round of the loop over the results: its events, and what it throws after them. -/
def sendResult (lib : JsonLibrary) (value : JsonValue) : List Event × Except Thrown Unit :=
  match value.getJSONObject with
  | .error thrown => ([], .error thrown)
  | .ok resultObject =>
    match readResult lib resultObject with
    | .error thrown => ([], .error thrown)
    | .ok record => (report record, printResultTables lib resultObject)

def sendResults (lib : JsonLibrary) : List JsonValue → List Event × Except Thrown Unit
  | [] => ([], .ok ())
  | value :: results =>
    match sendResult lib value with
    | (events, .error thrown) => (events, .error thrown)
    | (events, .ok ()) => (events ++ (sendResults lib results).1, (sendResults lib results).2)

/-- `getJSONObject(index).get(key)` as a time. -/
def timeOf (value : JsonValue) (key : String) : Except Thrown Int64 := do
  (← (← value.getJSONObject).get key).toLong

def elapsedTime : List JsonValue → Except Thrown Int64
  | [] => .ok 0
  | first :: rest => do
    let firstBeginTime ← timeOf first BEGIN_TIME
    let lastEndTime ← timeOf ((first :: rest).getLast (by simp)) END_TIME
    .ok (lastEndTime - firstBeginTime)

/-- `nNonSkippedTests`. -/
def countNonSkipped : List JsonValue → Except Thrown Nat
  | [] => .ok 0
  | value :: results => do
    let result ← (← (← value.getJSONObject).get RESULT).toText
    let count ← countNonSkipped results
    .ok (if result = SKIP then count else count + 1)

/-- The end of a run. -/
def finish (lib : JsonLibrary) (object : JSONObject) (elapsed : Int64) :
    List Event × Except Thrown Unit :=
  if object.isNull CLASS_ERRORS then ([.testRunEnded elapsed], .ok ())
  else
    match object.get CLASS_ERRORS >>= lib.getString with
    | .error thrown => ([], .error thrown)
    | .ok message => ([.testRunFailed message, .testRunEnded elapsed], .ok ())

/-- What one listener is told. -/
def tellListener (lib : JsonLibrary) (mRunName : Option String) (object : JSONObject)
    (results : List JsonValue) : List Event × Except Thrown Unit :=
  match elapsedTime results with
  | .error thrown => ([], .error thrown)
  | .ok elapsed =>
    match countNonSkipped results with
    | .error thrown => ([], .error thrown)
    | .ok nNonSkippedTests =>
      match sendResults lib results with
      | (events, .error thrown) =>
        (.testRunStarted mRunName nNonSkippedTests :: events, .error thrown)
      | (events, .ok ()) =>
        (.testRunStarted mRunName nNonSkippedTests :: events ++ (finish lib object elapsed).1,
          (finish lib object elapsed).2)

/-- The loop over the listeners: the events of each. -/
def tellListeners (lib : JsonLibrary) (mRunName : Option String) (object : JSONObject)
    (results : List JsonValue) : Nat → List (List Event) × Except Thrown Unit
  | 0 => ([], .ok ())
  | mListeners + 1 =>
    match tellListener lib mRunName object results with
    | (events, .error thrown) => (events :: List.replicate mListeners [], .error thrown)
    | (events, .ok ()) =>
      let others := tellListeners lib mRunName object results mListeners
      (events :: others.1, others.2)

/-- A `JSONException` is logged. -/
def caught : Except Thrown Unit → Except Thrown Unit
  | .error .JSONException => .ok ()
  | outcome => outcome

/-- The events of each listener, and what is thrown in the end. -/
def processJsonFile (lib : JsonLibrary) (mRunName : Option String) (mListeners : Nat)
    (object : JSONObject) : List (List Event) × Except Thrown Unit :=
  match object.get RESULTS >>= JsonValue.getJSONArray with
  | .error thrown => (List.replicate mListeners [], caught (.error thrown))
  | .ok results =>
    let told := tellListeners lib mRunName object results mListeners
    (told.1, caught told.2)

end Vts.Harness.Json
