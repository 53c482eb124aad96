import Vts.Harness.JsonResults
import Vts.Lib.Brackets
import Vts.Lib.Ensures

/-!
# Balanced runs

The events of `processJsonFile` for one listener are balanced if the run and each test in it
are ended once, the announced count is right, and the failures are those of the results. A
`JSONException` is caught outside of the loop over the listeners, whatever it leaves open.

Proved here: for every JSON object and every number of listeners, the events are balanced
exactly if there is no listener, the run is never announced, or nothing that is read after the
announcement is missing or of a wrong kind. Each test is ended in any case; it is the end of
the run that is left out.
-/

namespace Vts.Harness.Json

open Vts.Lib List

/-! ## Balance -/

namespace Event

/-- The event starts a run. -/
def startsRun : Event → Option Unit
  | .testRunStarted _ _ => some ()
  | _ => none

def endsRun : Event → Option Unit
  | .testRunEnded _ => some ()
  | _ => none

/-- The test that the event starts. -/
def startsTest : Event → Option TestDescription
  | .testStarted test _ => some test
  | _ => none

def endsTest : Event → Option TestDescription
  | .testEnded test _ => some test
  | _ => none

def failsTest : Event → Option TestDescription
  | .testFailed test _ => some test
  | _ => none

end Event

/-- A member of a result. -/
def field (value : JsonValue) (key : String) : Option JsonValue :=
  match value with
  | .object members => members.lookup key
  | _ => none

/-- The test of a result that is neither passed nor skipped. -/
def failing (value : JsonValue) : Option TestDescription :=
  match field value RESULT, field value TEST_CLASS, field value TEST_NAME with
  | some (.string result), some (.string testClass), some (.string testName) =>
    if result = PASS ∨ result = SKIP then none else some ⟨testClass, testName⟩
  | _, _, _ => none

/-- The events of a listener, for a list of results. -/
structure Balanced (results : List JsonValue) (events : List Event) : Prop where
  run : Bracketed Event.startsRun Event.endsRun events
  tests : Bracketed Event.startsTest Event.endsTest events
  count : ∀ runName testCount, .testRunStarted runName testCount ∈ events →
    testCount = (events.filterMap Event.startsTest).length
  failed : events ≠ [] → events.filterMap Event.failsTest = results.filterMap failing

/-! ## What has to be there -/

def IsText (value : JsonValue) (key : String) : Prop :=
  ∃ text, field value key = some (.string text)

def IsTime (value : JsonValue) (key : String) : Prop :=
  ∃ time, field value key = some (.long time)

/-- The value can be given as a string. -/
def Coerces (lib : JsonLibrary) (value : JsonValue) : Prop := ∃ text, lib.coerce value = some text

/-- A member that may be missing or null, and is a string otherwise. -/
def OptText (lib : JsonLibrary) (value : JsonValue) (key : String) : Prop :=
  ∀ member, field value key = some member → member.isNull = true ∨ Coerces lib member

/-- A cell is empty or a string. -/
def CellText (lib : JsonLibrary) (cell : JsonValue) : Prop :=
  cell.isNull = true ∨ Coerces lib cell

/-- A row is a list of cells. -/
def RowText (lib : JsonLibrary) (row : JsonValue) : Prop :=
  ∃ cells, row = .array cells ∧ ∀ cell ∈ cells, CellText lib cell

/-- A table is a list of rows. -/
def Printable (lib : JsonLibrary) (table : JsonValue) : Prop :=
  ∃ rows, table = .array rows ∧ ∀ row ∈ rows, RowText lib row

/-- A result that can be reported, its tables included. -/
structure Readable (lib : JsonLibrary) (value : JsonValue) : Prop where
  result : IsText value RESULT
  testClass : IsText value TEST_CLASS
  testName : IsText value TEST_NAME
  beginTime : IsTime value BEGIN_TIME
  endTime : IsTime value END_TIME
  details : OptText lib value DETAILS
  tables : ∀ member, field value TABLES = some member → member.isNull = true ∨
    ∃ tables, member = .object tables ∧
      ∀ key table, tables.lookup key = some table → Printable lib table

/-- What is read before the run is announced. -/
structure Announced (results : List JsonValue) : Prop where
  result : ∀ value ∈ results, IsText value RESULT
  beginTime : ∀ value, results.head? = some value → IsTime value BEGIN_TIME
  endTime : ∀ value, results.getLast? = some value → IsTime value END_TIME

/-- Nothing is missing after the announcement. -/
structure Completes (lib : JsonLibrary) (object : JSONObject) (results : List JsonValue) :
    Prop where
  results : ∀ value ∈ results, Readable lib value
  classErrors : OptText lib (.object object) CLASS_ERRORS

/-! ## Reading members -/

variable {value : JsonValue} (record : ResultRecord) (results : List JsonValue)

theorem get_ok_iff {object : JSONObject} {key : String} :
    object.get key = .ok value ↔ field (.object object) key = some value := by
  rw [JSONObject.get, field]
  cases object.lookup key <;> simp

theorem toText_ok_iff {text : String} : value.toText = .ok text ↔ value = .string text := by
  cases value <;> simp [JsonValue.toText]

theorem toLong_ok_iff {time : Int64} : value.toLong = .ok time ↔ value = .long time := by
  cases value <;> simp [JsonValue.toLong]

theorem getJSONArray_ok_iff {elements : List JsonValue} :
    value.getJSONArray = .ok elements ↔ value = .array elements := by
  cases value <;> simp [JsonValue.getJSONArray]

theorem getJSONObject_ok_iff {members : JSONObject} :
    value.getJSONObject = .ok members ↔ value = .object members := by
  cases value <;> simp [JsonValue.getJSONObject]

theorem getString_ok_iff {lib : JsonLibrary} {text : String} :
    lib.getString value = .ok text ↔ lib.coerce value = some text := by
  rw [JsonLibrary.getString]
  cases lib.coerce value <;> simp

/-! ## Printing tables -/

theorem addColumn_length {columnLength : List Nat} {colIndex : Nat}
    (within : colIndex ≤ columnLength.length) :
    columnLength.length ≤ (addColumn columnLength colIndex).length ∧
      colIndex < (addColumn columnLength colIndex).length := by
  rw [addColumn]
  split
  · rw [length_append, length_singleton]
    omega
  · omega

section Cells

variable (lib : JsonLibrary) {colIndex : Nat} {columnLength : List Nat}

/-- A cell is measured if it is empty or a string, and its column has a width then. -/
theorem measureCell_ok (within : colIndex ≤ columnLength.length) (cell : JsonValue) :
    ((∃ widths, measureCell lib colIndex columnLength cell = .ok widths) ↔ CellText lib cell) ∧
      ∀ widths, measureCell lib colIndex columnLength cell = .ok widths →
        columnLength.length ≤ widths.length ∧ colIndex < widths.length := by
  have longer := addColumn_length within
  rw [measureCell, CellText, Coerces]
  split
  case isTrue empty =>
    refine ⟨⟨fun _ => Or.inl empty, fun _ => ⟨_, rfl⟩⟩, ?_⟩
    rintro _ ⟨⟩
    exact longer
  case isFalse filled =>
    rw [JsonLibrary.getString]
    cases lib.coerce cell with
    | none => simp [filled, bind, Except.bind]
    | some text =>
      simp only [bind, Except.bind, List.getElem?_eq_getElem longer.2]
      refine ⟨⟨fun _ => Or.inr ⟨text, rfl⟩, fun _ => ⟨_, rfl⟩⟩, ?_⟩
      rintro _ ⟨⟩
      split
      · rw [length_set]
        exact longer
      · exact longer

/-- A row is measured if all of its cells are, and its columns have widths then. -/
theorem measureRow_ok (cells : List JsonValue) (within : colIndex ≤ columnLength.length) :
    ((∃ widths, measureRow lib colIndex columnLength cells = .ok widths) ↔
      ∀ cell ∈ cells, CellText lib cell) ∧
      ∀ widths, measureRow lib colIndex columnLength cells = .ok widths →
        columnLength.length ≤ widths.length ∧ colIndex + cells.length ≤ widths.length := by
  induction cells generalizing colIndex columnLength with
  | nil =>
    refine ⟨⟨fun _ _ none => absurd none (by simp), fun _ => ⟨_, rfl⟩⟩, ?_⟩
    rintro _ ⟨⟩
    exact ⟨Nat.le_refl _, within⟩
  | cons cell cells ih =>
    obtain ⟨measured_iff, widened⟩ := measureCell_ok lib within cell
    rw [measureRow]
    simp only [bind_eq_ok_iff, forall_mem_cons, length_cons]
    constructor
    · rw [← measured_iff]
      constructor
      · rintro ⟨widths, middle, measured, rest⟩
        have next := (ih (widened middle measured).2).1
        exact ⟨⟨middle, measured⟩, next.mp ⟨widths, rest⟩⟩
      · rintro ⟨⟨middle, measured⟩, others⟩
        have next := (ih (widened middle measured).2).1
        obtain ⟨widths, rest⟩ := next.mpr others
        exact ⟨widths, middle, measured, rest⟩
    · rintro widths ⟨middle, measured, rest⟩
      have first := widened middle measured
      have others := (ih first.2).2 widths rest
      omega

/-- A row whose columns have widths is written if all of its cells are strings or empty. -/
theorem writeRow_ok (cells : List JsonValue)
    (within : colIndex + cells.length ≤ columnLength.length)
    (texts : ∀ cell ∈ cells, CellText lib cell) :
    ∃ text, writeRow lib colIndex columnLength cells = .ok text := by
  induction cells generalizing colIndex with
  | nil => exact ⟨_, rfl⟩
  | cons cell cells ih =>
    rw [length_cons] at within
    have parts := forall_mem_cons.mp texts
    have next : colIndex + 1 + cells.length ≤ columnLength.length := by omega
    obtain ⟨rest, restWritten⟩ := ih next parts.2
    have written : ∃ text, writeCell lib colIndex columnLength cell = .ok text := by
      have inside : colIndex < columnLength.length := by omega
      rw [writeCell, List.getElem?_eq_getElem inside]
      split
      · exact ⟨_, rfl⟩
      case isFalse filled =>
        obtain ⟨text, coerced⟩ := parts.1.resolve_left filled
        rw [getString_ok_iff.mpr coerced]
        exact ⟨_, rfl⟩
    obtain ⟨text, cellWritten⟩ := written
    rw [writeRow, cellWritten, restWritten]
    exact ⟨_, rfl⟩

end Cells

section

variable {object : JSONObject} {key : String} (lib : JsonLibrary) (rows : List JsonValue)
  (columnLength : List Nat)

/-- The widths of all rows are known after the first loop. -/
theorem measureTable_ok :
    ((∃ widths, measureTable lib columnLength rows = .ok widths) ↔
      ∀ row ∈ rows, RowText lib row) ∧
      ∀ widths, measureTable lib columnLength rows = .ok widths →
        columnLength.length ≤ widths.length ∧
          ∀ cells, .array cells ∈ rows → cells.length ≤ widths.length := by
  induction rows generalizing columnLength with
  | nil =>
    refine ⟨⟨fun _ _ none => absurd none (by simp), fun _ => ⟨_, rfl⟩⟩, ?_⟩
    rintro _ ⟨⟩
    exact ⟨Nat.le_refl _, fun _ none => absurd none (by simp)⟩
  | cons row rows ih =>
    rw [measureTable]
    simp only [bind_eq_ok_iff, getJSONArray_ok_iff, forall_mem_cons, RowText]
    have rowOk := fun cells =>
      measureRow_ok lib cells (Nat.zero_le columnLength.length)
    constructor
    · constructor
      · rintro ⟨widths, cells, isArray, middle, measured, rest⟩
        exact ⟨⟨cells, isArray, (rowOk cells).1.mp ⟨middle, measured⟩⟩,
          (ih middle).1.mp ⟨widths, rest⟩⟩
      · rintro ⟨⟨cells, isArray, texts⟩, others⟩
        obtain ⟨middle, measured⟩ := (rowOk cells).1.mpr texts
        obtain ⟨widths, rest⟩ := (ih middle).1.mpr others
        exact ⟨widths, cells, isArray, middle, measured, rest⟩
    · rintro widths ⟨cells, isArray, middle, measured, rest⟩
      have first := (rowOk cells).2 middle measured
      have others := (ih middle).2 widths rest
      refine ⟨by omega, fun other listed => ?_⟩
      rcases mem_cons.mp listed with same | later
      · cases isArray.symm.trans same.symm
        omega
      · exact others.2 other later

theorem writeTable_ok (within : ∀ cells, .array cells ∈ rows → cells.length ≤ columnLength.length)
    (texts : ∀ row ∈ rows, RowText lib row) :
    ∃ text, writeTable lib columnLength rows = .ok text := by
  induction rows with
  | nil => exact ⟨_, rfl⟩
  | cons row rows ih =>
    obtain ⟨⟨cells, isArray, cellTexts⟩, otherTexts⟩ := forall_mem_cons.mp texts
    subst isArray
    have fits : 0 + cells.length ≤ columnLength.length := by
      rw [Nat.zero_add]
      exact within cells (by simp)
    obtain ⟨text, written⟩ := writeRow_ok lib cells fits cellTexts
    obtain ⟨rest, restWritten⟩ :=
      ih (fun other listed => within other (by simp [listed])) otherTexts
    refine ⟨text ++ rest, ?_⟩
    simp [writeTable, JsonValue.getJSONArray, written, restWritten, bind, Except.bind]

/-- A table is printed exactly if all of its cells are strings or empty. -/
theorem printJsonTable_ok_iff (name : String) (rows : List JsonValue) :
    (∃ text, printJsonTable lib name rows = .ok text) ↔ ∀ row ∈ rows, RowText lib row := by
  obtain ⟨measured_iff, widened⟩ := measureTable_ok lib rows []
  rw [← measured_iff]
  constructor
  · rintro ⟨text, printed⟩
    obtain ⟨widths, measured, _⟩ := bind_eq_ok_iff.mp printed
    exact ⟨widths, measured⟩
  · rintro ⟨widths, measured⟩
    have texts := measured_iff.mp ⟨widths, measured⟩
    obtain ⟨text, written⟩ := writeTable_ok lib rows widths (widened widths measured).2 texts
    refine ⟨name ++ "\n" ++ text, ?_⟩
    simp [printJsonTable, measured, written, bind, Except.bind]

theorem printTables_ok_iff (tables : JSONObject) (keys : List String) :
    printTables lib tables keys = .ok () ↔
      ∀ key ∈ keys, ∃ table, tables.lookup key = some table ∧ Printable lib table := by
  induction keys with
  | nil => simp [printTables]
  | cons key keys ih =>
    rw [printTables]
    simp only [bind_eq_ok_iff, getJSONArray_ok_iff, get_ok_iff, ih, field,
      forall_mem_cons]
    constructor
    · rintro ⟨table, found, rows, isArray, text, printed, rest⟩
      have texts := (printJsonTable_ok_iff lib key rows).mp ⟨text, printed⟩
      exact ⟨⟨table, found, rows, isArray, texts⟩, rest⟩
    · rintro ⟨⟨table, found, rows, isArray, texts⟩, rest⟩
      obtain ⟨text, printed⟩ := (printJsonTable_ok_iff lib key rows).mpr texts
      exact ⟨table, found, rows, isArray, text, printed, rest⟩

theorem lookup_of_mem_keys (listed : key ∈ object.map (·.1)) :
    ∃ value, object.lookup key = some value := by
  rcases found : object.lookup key with _ | value
  · obtain ⟨⟨_, value⟩, isMember, rfl⟩ := mem_map.mp listed
    exact absurd rfl (bne_iff_ne.mp (lookup_eq_none_iff.mp found _ isMember))
  · exact ⟨value, rfl⟩

theorem mem_keys_of_lookup (found : object.lookup key = some value) : key ∈ object.map (·.1) := by
  obtain ⟨front, rest, split, _⟩ := lookup_eq_some_iff.mp found
  rw [split]
  simp

theorem printResultTables_ok_iff (resultObject : JSONObject) :
    printResultTables lib resultObject = .ok () ↔
      ∀ member, field (.object resultObject) TABLES = some member → member.isNull = true ∨
        ∃ tables, member = .object tables ∧
          ∀ key table, tables.lookup key = some table → Printable lib table := by
  rw [printResultTables, JSONObject.isNull, JSONObject.get, field]
  cases resultObject.lookup TABLES with
  | none => simp
  | some member =>
    simp only [Option.all_some, Option.some.injEq, forall_eq']
    split
    case isTrue isNull => simp [isNull]
    case isFalse notNull =>
      simp only [bind_eq_ok_iff, Except.ok.injEq, exists_eq_left', getJSONObject_ok_iff,
        printTables_ok_iff]
      constructor
      · rintro ⟨tables, isObject, printed⟩
        refine Or.inr ⟨tables, isObject, fun key table found => ?_⟩
        obtain ⟨other, otherFound, texts⟩ := printed key (mem_keys_of_lookup found)
        cases found.symm.trans otherFound
        exact texts
      · intro readable
        obtain ⟨tables, isObject, texts⟩ := readable.resolve_left notNull
        refine ⟨tables, isObject, fun key listed => ?_⟩
        obtain ⟨table, found⟩ := lookup_of_mem_keys listed
        exact ⟨table, found, texts key table found⟩

end

/-! ## Reading results -/

theorem optText_ok_iff (lib : JsonLibrary) (object : JSONObject) (key : String) :
    (∃ text, optText lib object key = .ok text) ↔ OptText lib (.object object) key := by
  rw [optText, JSONObject.isNull, JSONObject.get, OptText, field]
  cases object.lookup key with
  | none => simp
  | some member =>
    simp only [Option.all_some, Option.some.injEq, forall_eq']
    split
    case isTrue isNull => simp [isNull]
    case isFalse notNull =>
      simp [bind_eq_ok_iff, getString_ok_iff, notNull, Coerces]

theorem readResult_ok_iff (lib : JsonLibrary) (resultObject : JSONObject)
    (record : ResultRecord) :
    readResult lib resultObject = .ok record ↔
      field (.object resultObject) RESULT = some (.string record.result) ∧
      field (.object resultObject) TEST_CLASS = some (.string record.test.className) ∧
      field (.object resultObject) TEST_NAME = some (.string record.test.testName) ∧
      field (.object resultObject) BEGIN_TIME = some (.long record.beginTime) ∧
      field (.object resultObject) END_TIME = some (.long record.endTime) ∧
      optText lib resultObject DETAILS = .ok record.details := by
  rw [readResult]
  simp only [bind_eq_ok_iff, get_ok_iff, toText_ok_iff, toLong_ok_iff, Except.ok.injEq]
  constructor
  · rintro ⟨_, result, text, rfl, _, testClass, _, rfl, _, testName, _, rfl, _, beginTime, _,
      rfl, _, endTime, _, rfl, details, detailsRead, rfl⟩
    exact ⟨result, testClass, testName, beginTime, endTime, detailsRead⟩
  · rintro ⟨result, testClass, testName, beginTime, endTime, detailsRead⟩
    exact ⟨_, result, _, rfl, _, testClass, _, rfl, _, testName, _, rfl, _, beginTime, _, rfl,
      _, endTime, _, rfl, _, detailsRead, rfl⟩

/-- What a round of the loop sends and whether it goes on, by whether the fields can be
read. -/
theorem sendResult_cases (lib : JsonLibrary) (value : JsonValue) :
    (∃ thrown, sendResult lib value = ([], .error thrown) ∧ ¬ Readable lib value) ∨
    ∃ record, field value RESULT = some (.string record.result) ∧
      field value TEST_CLASS = some (.string record.test.className) ∧
      field value TEST_NAME = some (.string record.test.testName) ∧
      (sendResult lib value).1 = report record ∧
      ((sendResult lib value).2 = .ok () ↔ Readable lib value) := by
  rw [sendResult]
  cases isObject : value.getJSONObject with
  | error thrown =>
    refine Or.inl ⟨thrown, rfl, fun readable => ?_⟩
    obtain ⟨text, found⟩ := readable.result
    cases value with
    | object => cases isObject
    | _ => cases found
  | ok resultObject =>
    rw [getJSONObject_ok_iff] at isObject
    subst isObject
    cases fields : readResult lib resultObject with
    | error thrown =>
      refine Or.inl ⟨thrown, by simp [fields], fun readable => ?_⟩
      obtain ⟨result, isResult⟩ := readable.result
      obtain ⟨testClass, isClass⟩ := readable.testClass
      obtain ⟨testName, isName⟩ := readable.testName
      obtain ⟨beginTime, isBegin⟩ := readable.beginTime
      obtain ⟨endTime, isEnd⟩ := readable.endTime
      obtain ⟨details, isDetails⟩ := (optText_ok_iff lib resultObject DETAILS).mpr readable.details
      have read := (readResult_ok_iff lib resultObject
        ⟨result, ⟨testClass, testName⟩, beginTime, endTime, details⟩).mpr
        ⟨isResult, isClass, isName, isBegin, isEnd, isDetails⟩
      rw [fields] at read
      cases read
    | ok record =>
      obtain ⟨isResult, isClass, isName, isBegin, isEnd, isDetails⟩ :=
        (readResult_ok_iff lib resultObject record).mp fields
      refine Or.inr ⟨record, isResult, isClass, isName, by simp [fields], ?_⟩
      simp only [fields, printResultTables_ok_iff]
      constructor
      · intro tables
        exact ⟨⟨_, isResult⟩, ⟨_, isClass⟩, ⟨_, isName⟩, ⟨_, isBegin⟩, ⟨_, isEnd⟩,
          (optText_ok_iff lib resultObject DETAILS).mp ⟨_, isDetails⟩, tables⟩
      · exact Readable.tables

/-! ## Before the run -/

/-- A time of a result that is read is its member. -/
theorem timeOf_ok_iff {key : String} :
    (∃ time, timeOf value key = .ok time) ↔ IsTime value key := by
  rw [IsTime]
  simp only [timeOf, bind_eq_ok_iff, get_ok_iff, toLong_ok_iff, getJSONObject_ok_iff]
  constructor
  · rintro ⟨time, members, rfl, _, found, rfl⟩
    exact ⟨time, found⟩
  · rintro ⟨time, found⟩
    cases value with
    | object members => exact ⟨time, members, rfl, _, found, rfl⟩
    | _ => cases found

theorem elapsedTime_ok_iff :
    (∃ elapsed, elapsedTime results = .ok elapsed) ↔
      (∀ value, results.head? = some value → IsTime value BEGIN_TIME) ∧
        ∀ value, results.getLast? = some value → IsTime value END_TIME := by
  cases results with
  | nil => simp [elapsedTime]
  | cons first rest =>
    rw [elapsedTime, List.head?_cons, List.getLast?_eq_some_getLast (by simp)]
    simp only [bind_eq_ok_iff, Option.some.injEq, forall_eq', Except.ok.injEq, ← timeOf_ok_iff]
    constructor
    · rintro ⟨_, beginTime, beginRead, endTime, endRead, rfl⟩
      exact ⟨⟨beginTime, beginRead⟩, ⟨endTime, endRead⟩⟩
    · rintro ⟨⟨beginTime, beginRead⟩, ⟨endTime, endRead⟩⟩
      exact ⟨_, beginTime, beginRead, endTime, endRead, rfl⟩

/-- One round of the count. -/
theorem countNonSkipped_cons {results : List JsonValue} {count : Nat} :
    countNonSkipped (value :: results) = .ok count ↔
      ∃ result others, field value RESULT = some (.string result) ∧
        countNonSkipped results = .ok others ∧
        count = if result = SKIP then others else others + 1 := by
  rw [countNonSkipped]
  simp only [bind_eq_ok_iff, get_ok_iff, toText_ok_iff, getJSONObject_ok_iff, Except.ok.injEq]
  constructor
  · rintro ⟨members, rfl, _, found, result, rfl, others, counted, rfl⟩
    exact ⟨result, others, found, counted, rfl⟩
  · rintro ⟨result, others, found, counted, rfl⟩
    cases value with
    | object members => exact ⟨members, rfl, _, found, result, rfl, others, counted, rfl⟩
    | _ => cases found

theorem countNonSkipped_ok_iff :
    (∃ count, countNonSkipped results = .ok count) ↔
      ∀ value ∈ results, IsText value RESULT := by
  induction results with
  | nil => simp [countNonSkipped]
  | cons value results ih =>
    rw [forall_mem_cons, ← ih]
    simp only [countNonSkipped_cons, IsText]
    constructor
    · rintro ⟨_, result, others, found, counted, _⟩
      exact ⟨⟨result, found⟩, ⟨others, counted⟩⟩
    · rintro ⟨⟨result, found⟩, ⟨others, counted⟩⟩
      exact ⟨_, result, others, found, counted, rfl⟩

/-- The run is announced exactly if the first loop reads what it needs. -/
theorem announced_iff :
    Announced results ↔ (∃ elapsed, elapsedTime results = .ok elapsed) ∧
      ∃ count, countNonSkipped results = .ok count := by
  rw [elapsedTime_ok_iff, countNonSkipped_ok_iff]
  exact ⟨fun announced => ⟨⟨announced.beginTime, announced.endTime⟩, announced.result⟩,
    fun parts => ⟨parts.2, parts.1.1, parts.1.2⟩⟩

/-! ## The events of the results -/

theorem failure_eq :
    (record.result = PASS ∧ failure record = []) ∨
      (record.result ≠ PASS ∧ ∃ trace, failure record = [.testFailed record.test trace]) := by
  rw [failure]
  split
  case isTrue passed => exact Or.inl ⟨passed, rfl⟩
  case isFalse notPassed =>
    refine Or.inr ⟨notPassed, ?_⟩
    split
    · exact ⟨_, rfl⟩
    · exact ⟨_, rfl⟩

/-- A result says nothing of the run. -/
theorem report_run : Plain Event.startsRun Event.endsRun (report record) := by
  intro event sent
  rw [report] at sent
  rcases failure_eq record with ⟨_, none⟩ | ⟨_, trace, one⟩
  · split at sent <;> simp_all
    rcases sent with rfl | rfl <;> exact ⟨rfl, rfl⟩
  · split at sent <;> simp_all
    rcases sent with rfl | rfl | rfl <;> exact ⟨rfl, rfl⟩

section

variable {rest : List Event} (lib : JsonLibrary) (results : List JsonValue)

/-- In front of a balanced stream a result keeps it balanced. -/
theorem report_tests (fresh : closings Event.startsTest Event.endsTest rest = [])
    (bracketed : Bracketed Event.startsTest Event.endsTest rest) :
    closings Event.startsTest Event.endsTest (report record ++ rest) = [] ∧
      Bracketed Event.startsTest Event.endsTest (report record ++ rest) := by
  rw [report]
  split
  · exact ⟨fresh, bracketed⟩
  · have plain : Plain Event.startsTest Event.endsTest (failure record) := by
      intro event sent
      rcases failure_eq record with ⟨_, none⟩ | ⟨_, trace, one⟩
      · rw [none] at sent
        cases sent
      · rw [one] at sent
        cases mem_singleton.mp sent
        exact ⟨rfl, rfl⟩
    have opening : Event.startsTest (.testStarted record.test record.beginTime) =
        some record.test := rfl
    have closing : Event.endsTest (.testEnded record.test record.endTime) =
        some record.test := rfl
    rw [append_assoc]
    exact ⟨closings_open opening _, .pair opening rfl closing plain fresh bracketed⟩

theorem report_starts :
    ((report record).filterMap Event.startsTest).length =
      if record.result = SKIP then 0 else 1 := by
  rw [report]
  split
  · rfl
  · rcases failure_eq record with ⟨_, none⟩ | ⟨_, trace, one⟩
    · simp [none, Event.startsTest]
    · simp [one, Event.startsTest]

/-- The tests that a result fails: its own, if it is neither passed nor skipped. -/
theorem report_fails :
    (report record).filterMap Event.failsTest =
      if record.result = PASS ∨ record.result = SKIP then [] else [record.test] := by
  rw [report]
  by_cases skipped : record.result = SKIP
  · simp [skipped]
  · rw [if_neg skipped]
    rcases failure_eq record with ⟨passed, none⟩ | ⟨notPassed, trace, one⟩
    · rw [none, if_pos (Or.inl passed)]
      rfl
    · rw [one, if_neg (not_or.mpr ⟨notPassed, skipped⟩)]
      rfl

/-- The record has the result and the test of a value. -/
structure Reads (value : JsonValue) (record : ResultRecord) : Prop where
  result : field value RESULT = some (.string record.result)
  testClass : field value TEST_CLASS = some (.string record.test.className)
  testName : field value TEST_NAME = some (.string record.test.testName)

/-- The loop ends at a result that is not readable, after at most its report, and goes on
after a readable one. -/
theorem sendResults_cons (value : JsonValue) (results : List JsonValue) :
    (¬ Readable lib value ∧ (∃ thrown, (sendResults lib (value :: results)).2 = .error thrown) ∧
      ((sendResults lib (value :: results)).1 = [] ∨
        ∃ record, (sendResults lib (value :: results)).1 = report record)) ∨
    (Readable lib value ∧ ∃ record, Reads value record ∧
      (sendResults lib (value :: results)).1 = report record ++ (sendResults lib results).1 ∧
      (sendResults lib (value :: results)).2 = (sendResults lib results).2) := by
  rw [sendResults]
  rcases sendResult_cases lib value with
    ⟨thrown, stopped, notReadable⟩ | ⟨record, isResult, isClass, isName, sent, ok_iff⟩
  · rw [stopped]
    exact Or.inl ⟨notReadable, ⟨thrown, rfl⟩, Or.inl rfl⟩
  · rcases round : sendResult lib value with ⟨events, thrown | done⟩
    · rw [round] at sent ok_iff
      refine Or.inl ⟨fun readable => ?_, ⟨thrown, rfl⟩, Or.inr ⟨record, sent⟩⟩
      cases ok_iff.mpr readable
    · rw [round] at sent ok_iff
      exact Or.inr ⟨ok_iff.mp rfl, record, ⟨isResult, isClass, isName⟩, by rw [← sent], rfl⟩

/-- The loop comes to its end exactly if all results are readable. -/
theorem sendResults_ok_iff :
    (sendResults lib results).2 = .ok () ↔ ∀ value ∈ results, Readable lib value := by
  induction results with
  | nil => simp [sendResults]
  | cons value results ih =>
    rw [forall_mem_cons]
    rcases sendResults_cons lib value results with
      ⟨notReadable, ⟨thrown, stopped⟩, _⟩ | ⟨readable, _, _, _, same⟩
    · simp [stopped, notReadable]
    · simp [same, readable, ih]

/-- The results say nothing of the run. -/
theorem sendResults_run : Plain Event.startsRun Event.endsRun (sendResults lib results).1 := by
  induction results with
  | nil =>
    intro _ sent
    cases sent
  | cons value results ih =>
    rcases sendResults_cons lib value results with
      ⟨_, _, none | ⟨record, one⟩⟩ | ⟨_, record, _, sent, _⟩
    · rw [none]
      intro _ listed
      cases listed
    · rw [one]
      exact report_run record
    · rw [sent]
      intro event listed
      rcases mem_append.mp listed with first | later
      · exact report_run record event first
      · exact ih event later

/-- Wherever the loop ends, each test that was started is ended. -/
theorem sendResults_tests (fresh : closings Event.startsTest Event.endsTest rest = [])
    (bracketed : Bracketed Event.startsTest Event.endsTest rest) :
    closings Event.startsTest Event.endsTest ((sendResults lib results).1 ++ rest) = [] ∧
      Bracketed Event.startsTest Event.endsTest ((sendResults lib results).1 ++ rest) := by
  induction results with
  | nil => exact ⟨fresh, bracketed⟩
  | cons value results ih =>
    rcases sendResults_cons lib value results with
      ⟨_, _, none | ⟨record, one⟩⟩ | ⟨_, record, _, sent, _⟩
    · rw [none]
      exact ⟨fresh, bracketed⟩
    · rw [one]
      exact report_tests record fresh bracketed
    · rw [sent, append_assoc]
      exact report_tests record ih.1 ih.2

/-- A loop that comes to its end starts as many tests as were counted. -/
theorem sendResults_starts {results : List JsonValue} {count : Nat}
    (readable : ∀ value ∈ results, Readable lib value)
    (counted : countNonSkipped results = .ok count) :
    ((sendResults lib results).1.filterMap Event.startsTest).length = count := by
  induction results generalizing count with
  | nil =>
    cases counted
    rfl
  | cons value results ih =>
    have parts := forall_mem_cons.mp readable
    obtain ⟨result, others, found, othersCounted, rfl⟩ := countNonSkipped_cons.mp counted
    rcases sendResults_cons lib value results with
      ⟨notReadable, _⟩ | ⟨_, record, reads, sent, _⟩
    · exact absurd parts.1 notReadable
    · cases found.symm.trans reads.result
      rw [sent, filterMap_append, length_append, report_starts,
        ih parts.2 othersCounted]
      split <;> omega

/-- A loop that comes to its end fails the tests of the failing results. -/
theorem sendResults_fails {results : List JsonValue}
    (readable : ∀ value ∈ results, Readable lib value) :
    (sendResults lib results).1.filterMap Event.failsTest = results.filterMap failing := by
  induction results with
  | nil => rfl
  | cons value results ih =>
    have parts := forall_mem_cons.mp readable
    rcases sendResults_cons lib value results with
      ⟨notReadable, _⟩ | ⟨_, record, reads, sent, _⟩
    · exact absurd parts.1 notReadable
    · have failed : failing value =
          if record.result = PASS ∨ record.result = SKIP then none else some record.test := by
        simp only [failing, reads.result, reads.testClass, reads.testName]
      rw [sent, filterMap_append, report_fails, ih parts.2,
        filterMap_cons, failed]
      split <;> rfl

end

/-! ## The whole run -/

section

variable (lib : JsonLibrary) (mRunName : Option String) (object : JSONObject)
  (results : List JsonValue)

/-- The run is ended exactly if the errors of the class are a string or missing. -/
theorem finish_cases (elapsed : Int64) :
    ((∃ thrown, finish lib object elapsed = ([], .error thrown)) ∧
      ¬ OptText lib (.object object) CLASS_ERRORS) ∨
    (OptText lib (.object object) CLASS_ERRORS ∧ ∃ messages,
      finish lib object elapsed = (messages ++ [.testRunEnded elapsed], .ok ()) ∧
      ∀ event ∈ messages, ∃ message, event = .testRunFailed message) := by
  rw [finish, JSONObject.isNull, JSONObject.get, OptText, field]
  cases object.lookup CLASS_ERRORS with
  | none => exact Or.inr ⟨by simp, [], rfl, by simp⟩
  | some member =>
    simp only [Option.all_some, Option.some.injEq, forall_eq']
    split
    case isTrue isNull => exact Or.inr ⟨Or.inl isNull, [], rfl, by simp⟩
    case isFalse notNull =>
      simp only [bind, Except.bind, JsonLibrary.getString, Coerces]
      cases lib.coerce member with
      | none => exact Or.inl ⟨⟨_, rfl⟩, by simp [notNull]⟩
      | some message => exact Or.inr ⟨by simp, [.testRunFailed message], rfl, by simp⟩

/-- A listener that is told nothing. -/
theorem balanced_nil : Balanced results [] where
  run := trivial
  tests := trivial
  count := fun _ _ listed => absurd listed (by simp)
  failed := fun some => absurd rfl some

/-- A run that was announced and is not ended. -/
theorem not_balanced_open (runName : Option String) (count : Nat) :
    ¬ Balanced results (.testRunStarted runName count :: (sendResults lib results).1) := by
  intro balanced
  have ended := balanced.run.1 () rfl
  rw [(sendResults_run lib results).alone.1] at ended
  cases ended

theorem balanced_complete (lib : JsonLibrary) {results : List JsonValue} {count : Nat}
    (runName : Option String) (messages : List Event) (elapsed : Int64)
    (readable : ∀ value ∈ results, Readable lib value)
    (counted : countNonSkipped results = .ok count)
    (failures : ∀ event ∈ messages, ∃ message, event = .testRunFailed message) :
    Balanced results (.testRunStarted runName count :: (sendResults lib results).1 ++
      (messages ++ [.testRunEnded elapsed])) := by
  have plainRun : Plain Event.startsRun Event.endsRun messages := by
    intro event listed
    obtain ⟨_, rfl⟩ := failures event listed
    exact ⟨rfl, rfl⟩
  have plainTests : Plain Event.startsTest Event.endsTest (messages ++ [.testRunEnded elapsed]) := by
    intro event listed
    rcases mem_append.mp listed with message | last
    · obtain ⟨_, rfl⟩ := failures event message
      exact ⟨rfl, rfl⟩
    · cases mem_singleton.mp last
      exact ⟨rfl, rfl⟩
  have noFailure : messages.filterMap Event.failsTest = [] := by
    rw [filterMap_eq_nil_iff]
    intro event listed
    obtain ⟨_, rfl⟩ := failures event listed
    rfl
  have noTest : (messages ++ [Event.testRunEnded elapsed]).filterMap Event.startsTest = [] :=
    filterMap_eq_nil_iff.mpr fun event listed => (plainTests event listed).1
  have runPlain := sendResults_run lib results
  have tests := sendResults_tests lib results plainTests.alone.1 plainTests.alone.2
  constructor
  · refine ⟨fun name _ => ?_, runPlain.bracketed_append.mpr (plainRun.bracketed_append.mpr ?_)⟩
    · rw [append_eq, runPlain.closings_append, plainRun.closings_append]
      rfl
    · exact ⟨fun name opens => absurd opens (by simp [Event.startsRun]), trivial⟩
  · exact ⟨fun name opens => absurd opens (by simp [Event.startsTest]), tests.2⟩
  · intro name announced listed
    have started := sendResults_starts lib readable counted
    have only : announced = count := by
      rcases mem_cons.mp listed with first | later
      · cases first
        rfl
      · rcases mem_append.mp later with sent | last
        · cases (runPlain _ sent).1
        · rcases mem_append.mp last with message | ended
          · cases (plainRun _ message).1
          · cases mem_singleton.mp ended
    rw [only, cons_append, filterMap_cons, filterMap_append, noTest,
      append_nil]
    exact started.symm
  · intro _
    rw [cons_append, filterMap_cons, filterMap_append, filterMap_append,
      noFailure, sendResults_fails lib readable]
    simp [Event.failsTest]

/-- The events of the first listener that is told anything. -/
theorem tellListener_balanced_iff :
    Balanced results (tellListener lib mRunName object results).1 ↔
      (Announced results → Completes lib object results) := by
  rw [tellListener]
  rcases timed : elapsedTime results with thrown | elapsed
  · refine ⟨fun _ announced => ?_, fun _ => balanced_nil results⟩
    obtain ⟨⟨elapsed, read⟩, _⟩ := (announced_iff results).mp announced
    cases timed.symm.trans read
  rcases counted : countNonSkipped results with thrown | count
  · refine ⟨fun _ announced => ?_, fun _ => balanced_nil results⟩
    obtain ⟨_, count, read⟩ := (announced_iff results).mp announced
    cases counted.symm.trans read
  have announced : Announced results := (announced_iff results).mpr ⟨⟨_, timed⟩, ⟨_, counted⟩⟩
  have opened := not_balanced_open lib results mRunName count
  have ok_iff := sendResults_ok_iff lib results
  have complete := fun messages => @balanced_complete lib results count mRunName messages elapsed
  rcases sent : sendResults lib results with ⟨events, thrown | done⟩
  · rw [sent] at opened ok_iff
    refine ⟨fun balanced => absurd balanced opened, fun completes => ?_⟩
    cases ok_iff.mpr (completes announced).results
  · rw [sent] at opened ok_iff complete
    have readable := ok_iff.mp rfl
    change Balanced results (.testRunStarted mRunName count :: events ++
      (finish lib object elapsed).1) ↔ _
    rcases finish_cases lib object elapsed with
      ⟨⟨thrown, stopped⟩, notText⟩ | ⟨isText, messages, ended, failures⟩
    · rw [stopped, append_nil]
      refine ⟨fun balanced => absurd balanced opened, fun completes => ?_⟩
      exact absurd (completes announced).classErrors notText
    · rw [ended]
      exact ⟨fun _ _ => ⟨readable, isText⟩, fun _ => complete messages readable counted failures⟩

/-- All listeners are told the same, until one of the runs breaks off. -/
theorem tellListeners_balanced_iff (mListeners : Nat) :
    (∀ events ∈ (tellListeners lib mRunName object results mListeners).1,
      Balanced results events) ↔
      mListeners = 0 ∨ (Announced results → Completes lib object results) := by
  have first := tellListener_balanced_iff lib mRunName object results
  induction mListeners with
  | zero => simp [tellListeners]
  | succ mListeners ih =>
    rw [tellListeners]
    rcases told : tellListener lib mRunName object results with ⟨events, thrown | done⟩ <;>
      rw [told] at first
    · rw [forall_mem_cons, first]
      constructor
      · exact fun parts => Or.inr parts.1
      · intro condition
        refine ⟨condition.resolve_left (by simp), fun others listed => ?_⟩
        rw [eq_of_mem_replicate listed]
        exact balanced_nil results
    · rw [forall_mem_cons]
      refine (and_congr first ih).trans ?_
      constructor
      · exact fun parts => Or.inr parts.1
      · intro condition
        have completes := condition.resolve_left (by simp)
        exact ⟨completes, Or.inr completes⟩

end

/-- The list of the results, if there is one. -/
def resultsOf (object : JSONObject) : List JsonValue :=
  match field (.object object) RESULTS with
  | some (.array results) => results
  | _ => []

/-- The events of every listener are balanced exactly if there is no listener, or a run that is
announced completes. -/
theorem processJsonFile_balanced_iff (lib : JsonLibrary) (mRunName : Option String)
    (mListeners : Nat) (object : JSONObject) :
    (∀ events ∈ (processJsonFile lib mRunName mListeners object).1,
      Balanced (resultsOf object) events) ↔
      mListeners = 0 ∨ ∀ results, field (.object object) RESULTS = some (.array results) →
        Announced results → Completes lib object results := by
  rw [processJsonFile]
  rcases read : object.get RESULTS >>= JsonValue.getJSONArray with thrown | results
  · have missing : ∀ results, field (.object object) RESULTS ≠ some (.array results) := by
      intro results found
      have given : (object.get RESULTS >>= JsonValue.getJSONArray) = .ok results :=
        bind_eq_ok_iff.mpr ⟨_, get_ok_iff.mpr found, rfl⟩
      cases read.symm.trans given
    constructor
    · exact fun _ => Or.inr fun results found => absurd found (missing results)
    · intro _ events listed
      rw [eq_of_mem_replicate listed]
      exact balanced_nil _
  · obtain ⟨value, found, isArray⟩ := bind_eq_ok_iff.mp read
    rw [get_ok_iff, getJSONArray_ok_iff.mp isArray] at found
    have same : resultsOf object = results := by
      rw [resultsOf, found]
    rw [same]
    refine (tellListeners_balanced_iff lib mRunName object results mListeners).trans ?_
    simp [found]

/-- A library that takes only strings for strings. -/
def strictLibrary : JsonLibrary where
  coerce := fun value =>
    match value with
    | .string text => some text
    | _ => none
  coerce_string := fun _ => rfl

/-- A passed test without the name of its class. -/
def withoutClass : JSONObject :=
  [(RESULTS, .array [.object
    [(RESULT, .string PASS), (TEST_NAME, .string "testGet"),
      (BEGIN_TIME, .long 1525425749536), (END_TIME, .long 1525425749537)]])]

/-- The run of it is announced with one test, and nothing follows. -/
theorem processJsonFile_withoutClass :
    ¬ ∀ events ∈ (processJsonFile strictLibrary (some "run") 1 withoutClass).1,
      Balanced (resultsOf withoutClass) events := by
  intro balanced
  have told : (processJsonFile strictLibrary (some "run") 1 withoutClass).1 =
      [[.testRunStarted (some "run") 1]] := rfl
  rw [told] at balanced
  have ended := (balanced _ (mem_singleton.mpr rfl)).run.1 () rfl
  cases ended

end Vts.Harness.Json
