import Vts.Agent.Messages
import Vts.Comm.Socket
import Vts.Lib.Dictionary
import Vts.Lib.Runs

/-!
# The host's callback server

The registry of `runners/host/tcp_server/callback_server.py`, a dictionary of the module that all
`CallbackServer` objects and their request handlers share, and the conversion of the arguments of a
callback by `utils/python/mirror/pb2py.py`. A function of the registry is a value of any type, and
whether it returns is open. Registering, unregistering and requests come in any order, one after
another.

The id of a new function is one more than the largest id in the registry. Proved here: a request
leads to the function that its id was given out for, or to none when that is no longer registered,
as long as no id is given out again for another function and the arguments of the requests can be
converted. A registered function always has one id, and a call that raises changes nothing.
-/

namespace Vts.Host

open Vts.Python Vts.Lib List
open Vts.Agent (ResponseCode)

/-! ## The arguments of a callback -/

inductive VariableType where
  | UNKNOWN_VARIABLE_TYPE | TYPE_PREDEFINED | TYPE_SCALAR | TYPE_STRING | TYPE_ENUM | TYPE_ARRAY
  | TYPE_VECTOR | TYPE_STRUCT | TYPE_FUNCTION_POINTER | TYPE_VOID | TYPE_HIDL_CALLBACK
  | TYPE_SUBMODULE | TYPE_UNION | TYPE_HIDL_INTERFACE | TYPE_HANDLE | TYPE_MASK | TYPE_HIDL_MEMORY
  | TYPE_POINTER | TYPE_FMQ_SYNC | TYPE_FMQ_UNSYNC | TYPE_REF | TYPE_SAFE_UNION
deriving DecidableEq

/-- A message for a variable. Its scalar value is given by what its attributes are; the fields that
are not set are read as their defaults. -/
inductive VariableSpecificationMessage (Scalar : Type) where
  | mk (name : Text) (type : VariableType) (scalar_type : Text)
    (scalar_value : Text → Option Scalar) (string_message : Text)
    (vector_value struct_value : List (VariableSpecificationMessage Scalar))
    (predefined_type : Text)

/-- A value that a message is converted to. -/
inductive PyData (Scalar : Type) where
  | none
  | scalar (value : Scalar)
  | str (text : Text)
  | list (elements : List (PyData Scalar))
  | dict (entries : List (Text × PyData Scalar))

/-- The exceptions of this module. -/
inductive Raised where
  | AttributeError
  | ValueError
  | DecodeError
  | CallbackServerError
deriving DecidableEq

section

variable {Scalar : Type}

/-- `getattr(var.scalar_value, var.scalar_type)` -/
def getScalar (scalar_value : Text → Option Scalar) (scalar_type : Text) :
    Except Raised (PyData Scalar) :=
  match scalar_value scalar_type with
  | some value => .ok (.scalar value)
  | none => .error .AttributeError

/-- `result[name] = value` -/
def setItem {α : Type} (name : Text) (value : α) : List (Text × α) → List (Text × α)
  | [] => [(name, value)]
  | (other, present) :: entries =>
    if other = name then (name, value) :: entries else (other, present) :: setItem name value entries

mutual

/-- `PbVector2PyList`, and `PbArray2PyList`, which is the same. -/
def PbVector2PyList : VariableSpecificationMessage Scalar → Except Raised (PyData Scalar)
  | ⟨_, _, _, _, _, vector_value, _, _⟩ => elementsFrom vector_value []

/-- The loop of `PbVector2PyList`, with the elements so far. -/
def elementsFrom : List (VariableSpecificationMessage Scalar) → List (PyData Scalar) →
    Except Raised (PyData Scalar)
  | [], result => .ok (.list result)
  | ⟨name, type, scalar_type, scalar_value, string_message, vector_value, struct_value,
      predefined_type⟩ :: rest, result =>
    match type with
    | .TYPE_SCALAR =>
      match getScalar scalar_value scalar_type with
      | .ok value => elementsFrom rest (result ++ [value])
      | .error raised => .error raised
    | .TYPE_STRUCT =>
      match PbStruct2PyDict ⟨name, type, scalar_type, scalar_value, string_message, vector_value,
        struct_value, predefined_type⟩ with
      | .ok value => elementsFrom rest (result ++ [value])
      | .error raised => .error raised
    | _ => .ok .none

def PbStruct2PyDict : VariableSpecificationMessage Scalar → Except Raised (PyData Scalar)
  | ⟨_, _, _, _, _, _, struct_value, _⟩ => attributesFrom struct_value []

/-- The loop of `PbStruct2PyDict`, with the entries so far. The types after a struct are compared
with `CompSpecMsg.TYPE_Array`, which does not exist. -/
def attributesFrom : List (VariableSpecificationMessage Scalar) →
    List (Text × PyData Scalar) → Except Raised (PyData Scalar)
  | [], result => .ok (.dict result)
  | ⟨name, type, scalar_type, scalar_value, string_message, vector_value, struct_value,
      predefined_type⟩ :: rest, result =>
    match type with
    | .TYPE_ENUM | .TYPE_SCALAR =>
      match getScalar scalar_value scalar_type with
      | .ok value => attributesFrom rest (setItem name value result)
      | .error raised => .error raised
    | .TYPE_STRING => attributesFrom rest (setItem name (.str string_message) result)
    | .TYPE_VECTOR =>
      match PbVector2PyList ⟨name, type, scalar_type, scalar_value, string_message, vector_value,
        struct_value, predefined_type⟩ with
      | .ok value => attributesFrom rest (setItem name value result)
      | .error raised => .error raised
    | .TYPE_STRUCT =>
      match PbStruct2PyDict ⟨name, type, scalar_type, scalar_value, string_message, vector_value,
        struct_value, predefined_type⟩ with
      | .ok value => attributesFrom rest (setItem name value result)
      | .error raised => .error raised
    | _ => .error .AttributeError

end

/-- `pb2py.Convert` -/
def Convert : VariableSpecificationMessage Scalar → Except Raised (PyData Scalar)
  | ⟨name, type, scalar_type, scalar_value, string_message, vector_value, struct_value,
      predefined_type⟩ =>
    match type with
    | .TYPE_PREDEFINED => .ok (.str predefined_type)
    | .TYPE_SCALAR | .TYPE_ENUM | .TYPE_MASK => getScalar scalar_value scalar_type
    | .TYPE_VECTOR => PbVector2PyList ⟨name, type, scalar_type, scalar_value, string_message,
        vector_value, struct_value, predefined_type⟩
    | .TYPE_STRUCT => PbStruct2PyDict ⟨name, type, scalar_type, scalar_value, string_message,
        vector_value, struct_value, predefined_type⟩
    | .TYPE_STRING => .ok (.str string_message)
    | _ => .ok .none

end

/-- `AndroidSystemCallbackRequestMessage` -/
structure CallbackRequest (Scalar : Type) where
  id : Text
  arg : List (VariableSpecificationMessage Scalar)

/-! ## The registry -/

/-- `_functions` -/
abbrev Functions (F : Type) := List (Text × F)

/-- `str(id)` -/
def str (id : Int) : Text := if id < 0 then 45 :: decimal id.natAbs else decimal id.toNat

/-- What a request leads to: the call, if one is made, and the response, if one is sent. -/
structure Answer (F Scalar : Type) where
  called : Option (F × List (PyData Scalar))
  response_code : Option ResponseCode

section

variable {F Scalar : Type} [DecidableEq F]

/-- The first id of the function. -/
def GetCallbackId (functions : Functions F) (callback_func : F) : Option Text :=
  (functions.find? fun entry => entry.2 = callback_func).map Prod.fst

/-- The number of the id for a new function. -/
def newNumber (functions : Functions F) : Except Raised Int :=
  if functions = [] then .ok 0
  else
    match (functions.map Prod.fst).mapM parseInt with
    | none => .error .ValueError
    | some numbers => .ok (numbers.max?.getD 0 + 1)

/-- What is returned or raised, and the registry afterwards. -/
def RegisterCallback (functions : Functions F) (callback_func : F) :
    Except Raised Text × Functions F :=
  if (GetCallbackId functions callback_func).any (· ≠ []) then
    (.error .CallbackServerError, functions)
  else
    match newNumber functions with
    | .error raised => (.error raised, functions)
    | .ok id => (.ok (str id), setItem (str id) callback_func functions)

def UnregisterCallback (functions : Functions F) (func_id : Text) :
    Except Raised Unit × Functions F :=
  if (functions.lookup func_id).isSome then
    (.ok (), functions.filter fun entry => entry.1 ≠ func_id)
  else (.error .CallbackServerError, functions)

variable (returns : F → List (PyData Scalar) → Bool)

/-- What `CallbackRequestHandler.handle` does with a request. An exception of the function or of the
conversion leaves the request without a response. -/
def handleRequest (functions : Functions F) (request_message : CallbackRequest Scalar) :
    Answer F Scalar :=
  match functions.lookup request_message.id with
  | some callback_func =>
    match request_message.arg.mapM Convert with
    | .error _ => { called := none, response_code := none }
    | .ok args =>
      { called := some (callback_func, args)
        response_code := if returns callback_func args then some .SUCCESS else none }
  | none => { called := none, response_code := some .FAIL }

/-- `CallbackRequestHandler.handle`, from the bytes that the target sends. -/
def handle (ParseFromString : Text → Option (CallbackRequest Scalar)) (functions : Functions F)
    (rfile : Text) : Except Raised (Answer F Scalar) :=
  let line := rfile.takeWhile (· ≠ 10)
  let rest := rfile.drop (line.length + 1)
  let header := strip line
  match parseInt header with
  | none =>
    if header = [] then .ok { called := none, response_code := none } else .error .ValueError
  | some len =>
    match ParseFromString (if len < 0 then rest else rest.take len.toNat) with
    | none => .error .DecodeError
    | some request_message => .ok (handleRequest returns functions request_message)

/-! ## Any order of calls and requests -/

/-- A call on a server, or a request that comes in. -/
inductive ServerEvent (Server F Scalar : Type) where
  | register (server : Server) (callback_func : F)
  | unregister (server : Server) (func_id : Text)
  | getId (server : Server) (callback_func : F)
  | request (message : CallbackRequest Scalar)

inductive Outcome (F Scalar : Type) where
  | id (returned : Option Text)
  | raised (raised : Raised)
  | done
  | answered (answer : Answer F Scalar)

variable {Server : Type}

/-- What comes of an event, and the registry afterwards. -/
def perform (functions : Functions F) :
    ServerEvent Server F Scalar → Outcome F Scalar × Functions F
  | .register _ callback_func =>
    match RegisterCallback functions callback_func with
    | (.ok id, functions) => (.id (some id), functions)
    | (.error raised, functions) => (.raised raised, functions)
  | .unregister _ func_id =>
    match UnregisterCallback functions func_id with
    | (.ok _, functions) => (.done, functions)
    | (.error raised, functions) => (.raised raised, functions)
  | .getId _ callback_func => (.id (GetCallbackId functions callback_func), functions)
  | .request message => (.answered (handleRequest returns functions message), functions)

/-- The registry, and the ids that were given out with their functions. -/
structure History (F : Type) where
  functions : Functions F
  issued : List (Text × F)

/-- The ids that an event gives out. -/
def issuedBy (functions : Functions F) : ServerEvent Server F Scalar → List (Text × F)
  | .register _ callback_func =>
    match RegisterCallback functions callback_func with
    | (.ok id, _) => [(id, callback_func)]
    | (.error _, _) => []
  | _ => []

def History.next (history : History F) (event : ServerEvent Server F Scalar) : History F where
  functions := (perform returns history.functions event).2
  issued := history.issued ++ issuedBy history.functions event

/-- A request leads to the function that its id was given out for, or to none, every function has
one id, and what raises changes nothing. -/
structure Identifies (history : History F) (event : ServerEvent Server F Scalar) : Prop where
  request : ∀ message callback_func, event = .request message →
    (message.id, callback_func) ∈ history.issued →
    ∃ answer, (perform returns history.functions event).1 = .answered answer ∧
      if history.functions.lookup message.id = some callback_func then
        answer.called.map Prod.fst = some callback_func
      else answer.called = none ∧ answer.response_code = some .FAIL
  oneId : ∀ callback_func ∈ (perform returns history.functions event).2.map Prod.snd,
    ∃! id, (perform returns history.functions event).2.lookup id = some callback_func
  unchanged : ∀ raised, (perform returns history.functions event).1 = .raised raised →
    (perform returns history.functions event).2 = history.functions

/-- The number is one more than the largest id of the registry, or zero when that is empty. -/
def Follows (functions : Functions F) (number : Nat) : Prop :=
  (∀ other, decimal other ∈ functions.map Prod.fst → other < number) ∧
    (number = 0 ∨ ∃ other, decimal other ∈ functions.map Prod.fst ∧ other + 1 = number)

/-- A function that is not registered comes when no other function had the next id before, and a
request for a registered function has arguments that can be converted. -/
def Orderly (history : History F) : ServerEvent Server F Scalar → Prop
  | .register _ callback_func => callback_func ∉ history.functions.map Prod.snd →
    ∀ number other, Follows history.functions number → (decimal number, other) ∈ history.issued →
      other = callback_func
  | .request message => (history.functions.lookup message.id).isSome →
    ∃ args, message.arg.mapM Convert = .ok args
  | _ => True

/-! ## The registry as a numbering -/

/-- The entries, with the numerals of their numbers. -/
def encode (entries : List (Nat × F)) : List (Text × F) :=
  entries.map fun entry => (decimal entry.1, entry.2)

omit [DecidableEq F] in
theorem mem_encode {entries : List (Nat × F)} {number : Nat} {callback_func : F} :
    (decimal number, callback_func) ∈ encode entries ↔ (number, callback_func) ∈ entries := by
  rw [encode, mem_map]
  constructor
  · rintro ⟨⟨other, func⟩, listed, same⟩
    cases decimal_injective (congrArg Prod.fst same)
    cases same
    exact listed
  · exact fun listed => ⟨_, listed, rfl⟩

omit [DecidableEq F] in
theorem decimal_mem_keys {entries : List (Nat × F)} {number : Nat} :
    decimal number ∈ (encode entries).map Prod.fst ↔ number ∈ entries.map Prod.fst := by
  simp only [mem_map, Prod.exists, exists_and_right, exists_eq_right, mem_encode]

omit [DecidableEq F] in
theorem map_snd_encode (entries : List (Nat × F)) :
    (encode entries).map Prod.snd = entries.map Prod.snd := by
  rw [encode, map_map]
  rfl

omit [DecidableEq F] in
theorem encode_distinct (numbering : Numbering F) :
    ((encode numbering.entries).map Prod.fst).Nodup := by
  have keys : (encode numbering.entries).map Prod.fst =
      (numbering.entries.map Prod.fst).map decimal := by
    rw [encode, map_map, map_map]
    rfl
  rw [keys]
  exact numbering.distinct.map decimal_injective

theorem setItem_of_not_mem {α : Type} {name : Text} {entries : List (Text × α)}
    (absent : name ∉ entries.map Prod.fst) (value : α) :
    setItem name value entries = entries ++ [(name, value)] := by
  induction entries with
  | nil => rfl
  | cons entry entries ih =>
    rw [map_cons, mem_cons, not_or] at absent
    rw [setItem, if_neg (Ne.symm absent.1), ih absent.2]
    rfl

theorem str_natCast (number : Nat) : str number = decimal number := by
  rw [str, if_neg (by omega), Int.toNat_natCast]

theorem mapM_parseInt (numbers : List Nat) :
    (numbers.map decimal).mapM parseInt = some (numbers.map Int.ofNat) := by
  induction numbers with
  | nil => rfl
  | cons number numbers ih =>
    rw [map_cons, mapM_cons, parseInt_decimal, ih]
    rfl

theorem max?_ofNat (numbers : List Nat) :
    (numbers.map Int.ofNat).max? = numbers.max?.map Int.ofNat := by
  cases found : numbers.max? with
  | none =>
    rw [List.max?_eq_none_iff] at found
    rw [found]
    rfl
  | some largest =>
    obtain ⟨listed, bound⟩ := List.max?_eq_some_iff.mp found
    refine List.max?_eq_some_iff.mpr ⟨mem_map_of_mem listed, fun other used => ?_⟩
    obtain ⟨number, member, rfl⟩ := mem_map.mp used
    exact Int.ofNat_le.mpr (bound number member)

omit [DecidableEq F] in
theorem newNumber_encode (numbering : Numbering F) :
    newNumber (encode numbering.entries) = .ok (numbering.next : Int) := by
  have keys : (encode numbering.entries).map Prod.fst =
      (numbering.entries.map Prod.fst).map decimal := by
    rw [encode, map_map, map_map]
    rfl
  rw [newNumber, keys, mapM_parseInt, Numbering.next]
  cases found : (numbering.entries.map Prod.fst).max? with
  | none =>
    rw [List.max?_eq_none_iff, map_eq_nil_iff] at found
    rw [found]
    rfl
  | some largest =>
    have used : encode numbering.entries ≠ [] := by
      intro nothing
      rw [encode, map_eq_nil_iff] at nothing
      rw [nothing] at found
      cases found
    rw [if_neg used]
    dsimp only
    rw [max?_ofNat, found]
    rfl

/-- A function has an id if and only if it is in the registry. -/
theorem getCallbackId_encode (entries : List (Nat × F)) (callback_func : F) :
    ((GetCallbackId (encode entries) callback_func).any (· ≠ []) : Bool) =
      decide (callback_func ∈ entries.map Prod.snd) := by
  rw [GetCallbackId]
  cases found : (encode entries).find? fun entry => entry.2 = callback_func with
  | none =>
    rw [List.find?_eq_none] at found
    refine (decide_eq_false fun listed => ?_).symm
    rw [← map_snd_encode] at listed
    obtain ⟨entry, member, same⟩ := mem_map.mp listed
    exact found entry member (decide_eq_true same)
  | some entry =>
    obtain ⟨⟨number, func⟩, listed, rfl⟩ := mem_map.mp (mem_of_find?_eq_some found)
    have same : func = callback_func := by simpa using List.find?_some found
    rw [decide_eq_true (mem_map.mpr ⟨(number, func), listed, same⟩)]
    exact decide_eq_true (decimal_ne_nil number)

theorem registerCallback_encode_present {numbering : Numbering F} {callback_func : F}
    (present : callback_func ∈ numbering.entries.map Prod.snd) :
    RegisterCallback (encode numbering.entries) callback_func =
      (.error .CallbackServerError, encode numbering.entries) := by
  rw [RegisterCallback, getCallbackId_encode, if_pos (decide_eq_true present)]

theorem registerCallback_encode {numbering : Numbering F} {callback_func : F}
    (absent : callback_func ∉ numbering.entries.map Prod.snd) :
    RegisterCallback (encode numbering.entries) callback_func =
      (.ok (decimal numbering.next), encode (numbering.insert callback_func absent).entries) := by
  have new : decimal numbering.next ∉ (encode numbering.entries).map Prod.fst := by
    rw [decimal_mem_keys]
    exact numbering.next_not_mem
  rw [RegisterCallback, getCallbackId_encode, if_neg (by simpa using absent), newNumber_encode]
  dsimp only
  rw [str_natCast, setItem_of_not_mem new, Numbering.insert, encode, encode, map_append]
  rfl

omit [DecidableEq F] in
theorem filter_encode (numbering : Numbering F) (func_id : Text) :
    ((encode numbering.entries).filter fun entry => entry.1 ≠ func_id) =
      encode (numbering.keep fun entry => decimal entry.1 ≠ func_id).entries := by
  rw [encode, filter_map]
  rfl

omit [DecidableEq F] in
/-- The number that a new function gets is the one that follows the largest id. -/
theorem follows_next (numbering : Numbering F) :
    Follows (encode numbering.entries) numbering.next := by
  constructor
  · intro other used
    obtain ⟨entry, listed, rfl⟩ := mem_map.mp (decimal_mem_keys.mp used)
    exact numbering.lt_next listed
  · refine numbering.next_follows.imp_right ?_
    rintro ⟨entry, listed, same⟩
    exact ⟨entry.1, decimal_mem_keys.mpr (mem_map_of_mem listed), same⟩

/-! ## Every run -/

/-- The registry is a numbering, and its numbers were given to no other functions. -/
def History.Numbered (history : History F) : Prop :=
  ∃ (numbering : Numbering F) (given : List (Nat × F)),
    history.functions = encode numbering.entries ∧ history.issued = encode given ∧
      numbering.Given given

variable {returns}

theorem History.Numbered.next {history : History F} {event : ServerEvent Server F Scalar}
    (numbered : history.Numbered) (orderly : Orderly history event) :
    (history.next returns event).Numbered := by
  obtain ⟨numbering, given, functions, issued, held⟩ := numbered
  cases event with
  | register server callback_func =>
    by_cases present : callback_func ∈ numbering.entries.map Prod.snd
    · have refused := registerCallback_encode_present present
      refine ⟨numbering, given, ?_, ?_, held⟩
      · simp only [History.next, perform, functions, refused]
      · simp only [History.next, issuedBy, functions, refused, append_nil, issued]
    · have accepted := registerCallback_encode present
      have fresh : ∀ other, (numbering.next, other) ∈ given → other = callback_func := by
        intro other was
        refine orderly ?_ numbering.next other ?_ ?_
        · rw [functions, map_snd_encode]
          exact present
        · rw [functions]
          exact follows_next numbering
        · rw [issued]
          exact mem_encode.mpr was
      refine ⟨_, _, ?_, ?_, held.insert present fresh⟩
      · simp only [History.next, perform, functions, accepted]
      · simp only [History.next, issuedBy, functions, accepted, issued]
        rw [encode, encode, map_append]
        rfl
  | unregister server func_id =>
    by_cases present : (history.functions.lookup func_id).isSome
    · refine ⟨numbering.keep fun entry => decimal entry.1 ≠ func_id, given, ?_, ?_, held.keep _⟩
      · simp only [History.next, perform, UnregisterCallback, present, if_true]
        rw [functions, filter_encode]
      · simp only [History.next, issuedBy, append_nil, issued]
    · refine ⟨numbering, given, ?_, ?_, held⟩
      · simp only [History.next, perform, UnregisterCallback, present]
        exact functions
      · simp only [History.next, issuedBy, append_nil, issued]
  | getId server callback_func =>
    exact ⟨numbering, given, functions, (append_nil _).trans issued, held⟩
  | request message =>
    exact ⟨numbering, given, functions, (append_nil _).trans issued, held⟩

omit [DecidableEq F] in
theorem History.Numbered.oneId {history : History F} (numbered : history.Numbered) :
    ∀ callback_func ∈ history.functions.map Prod.snd,
      ∃! id, history.functions.lookup id = some callback_func := by
  obtain ⟨numbering, given, functions, -, -⟩ := numbered
  rw [functions]
  intro callback_func registered
  obtain ⟨entry, listed, rfl⟩ := mem_map.mp registered
  refine ⟨entry.1, lookup_of_mem (encode_distinct numbering) listed, fun id found => ?_⟩
  have same : (id, entry.2) = entry :=
    inj_on_of_nodup_map (by rw [map_snd_encode]; exact numbering.single)
      (mem_of_lookup found) listed rfl
  exact congrArg Prod.fst same

theorem registerCallback_unchanged {functions next : Functions F} {callback_func : F}
    {raised : Raised} (raises : RegisterCallback functions callback_func = (.error raised, next)) :
    next = functions := by
  rw [RegisterCallback] at raises
  split at raises
  · exact (congrArg Prod.snd raises).symm
  · split at raises
    · exact (congrArg Prod.snd raises).symm
    · cases raises

omit [DecidableEq F] in
theorem unregisterCallback_unchanged {functions next : Functions F} {func_id : Text}
    {raised : Raised} (raises : UnregisterCallback functions func_id = (.error raised, next)) :
    next = functions := by
  rw [UnregisterCallback] at raises
  split at raises
  · cases raises
  · exact (congrArg Prod.snd raises).symm

theorem perform_unchanged {functions : Functions F} {event : ServerEvent Server F Scalar}
    {raised : Raised} (raises : (perform returns functions event).1 = .raised raised) :
    (perform returns functions event).2 = functions := by
  cases event with
  | register server callback_func =>
    rw [perform] at raises ⊢
    cases done : RegisterCallback functions callback_func with
    | mk result next =>
      cases result with
      | ok id =>
        rw [done] at raises
        cases raises
      | error error => exact registerCallback_unchanged done
  | unregister server func_id =>
    rw [perform] at raises ⊢
    cases ended : UnregisterCallback functions func_id with
    | mk result next =>
      cases result with
      | ok done =>
        rw [ended] at raises
        cases raises
      | error error => exact unregisterCallback_unchanged ended
  | getId server callback_func => rfl
  | request message => rfl

/-- A request with an id that was given out for a function. -/
theorem History.Numbered.dispatch {history : History F} (numbered : history.Numbered)
    {message : CallbackRequest Scalar}
    (converts : (history.functions.lookup message.id).isSome →
      ∃ args, message.arg.mapM Convert = .ok args)
    {callback_func : F} (was : (message.id, callback_func) ∈ history.issued) :
    if history.functions.lookup message.id = some callback_func then
      (handleRequest returns history.functions message).called.map Prod.fst = some callback_func
    else
      (handleRequest returns history.functions message).called = none ∧
        (handleRequest returns history.functions message).response_code = some .FAIL := by
  obtain ⟨numbering, given, functions, issued, held⟩ := numbered
  cases found : history.functions.lookup message.id with
  | none =>
    rw [if_neg nofun, handleRequest, found]
    exact ⟨rfl, rfl⟩
  | some func =>
    have registered := mem_of_lookup found
    rw [issued] at was
    rw [functions] at registered
    obtain ⟨⟨number, given_func⟩, given_listed, same⟩ := mem_map.mp was
    have id : message.id = decimal number := (congrArg Prod.fst same).symm
    rw [id] at was registered
    have only : callback_func = func :=
      held.only number _ _ (mem_encode.mp was) (mem_encode.mp registered)
    obtain ⟨args, converted⟩ := converts (by rw [found]; rfl)
    rw [if_pos (congrArg some only.symm), handleRequest, found]
    dsimp only
    rw [converted]
    exact congrArg some only.symm

/-- In a run of orderly events every event leaves ids that identify one function. -/
theorem callback_ids (events : List (ServerEvent Server F Scalar))
    (event : ServerEvent Server F Scalar) (later : List (ServerEvent Server F Scalar))
    (orderly : AllMeet (History.next returns) Orderly ⟨[], []⟩ (events ++ event :: later)) :
    Identifies returns (run (History.next returns) ⟨[], []⟩ events) event := by
  obtain ⟨before, now, -⟩ := allMeet_append.mp orderly
  have numbered : (run (History.next returns) (⟨[], []⟩ : History F) events).Numbered :=
    before.invariant (fun _ _ numbered orderly => numbered.next orderly)
      ⟨.empty, [], rfl, rfl, Numbering.given_empty⟩
  constructor
  · rintro message callback_func rfl was
    exact ⟨_, rfl, numbered.dispatch now was⟩
  · exact (numbered.next now).oneId
  · exact fun raised raises => perform_unchanged raises

/-! ## Requests from the target -/

omit [DecidableEq F] in
theorem strip_decimal (value : Nat) : strip (decimal value) = decimal value := by
  have solid : ∀ byte ∈ decimal value, isSpace byte = false :=
    fun byte listed => isSpace_of_isDigit (isDigit_of_mem_decimal listed)
  rw [strip, lstrip_eq_self fun byte first => solid byte (mem_of_mem_head? first), rstrip,
    rdropWhile_eq_self_iff]
  intro present last
  rw [solid _ (getLast_mem present)] at last
  cases last

section

variable {ParseFromString : Text → Option (CallbackRequest Scalar)} {bytes written : Text}
  {sockfd_ : Int} {results : List Int} {message : CallbackRequest Scalar}
  (parses : ParseFromString bytes = some message) (short : bytes.length < 2 ^ 31)
  (whole : ((Comm.header bytes).length : Int) ≤ results.headD 0)
  (sent : Comm.VtsSocketSendBytes sockfd_ bytes results = .ok (true, written)) (rest : Text)
include parses short whole sent

omit [DecidableEq F] in
/-- The handler reads the request that the agent sends. -/
theorem handle_sent (functions : Functions F) :
    handle returns ParseFromString functions (written ++ rest) =
      .ok (handleRequest returns functions message) := by
  obtain ⟨result, others, rfl, framed⟩ := Comm.ensures_sendBytes sockfd_ short results _ sent rfl
  rw [headD_cons] at whole
  have line : written ++ rest = decimal bytes.length ++ 10 :: (bytes ++ rest) := by
    dsimp only at framed
    rw [framed, take_of_length_le (by omega), Comm.header]
    simp
  have digits : ∀ byte ∈ decimal bytes.length, decide (byte ≠ 10) = true := by
    rintro byte listed
    have digit := isDigit_of_mem_decimal listed
    rw [decide_eq_true_eq]
    rintro rfl
    cases digit
  have first : (written ++ rest).takeWhile (· ≠ 10) = decimal bytes.length := by
    rw [line, takeWhile_append_of_pos digits]
    simp
  have behind : (written ++ rest).drop ((decimal bytes.length).length + 1) = bytes ++ rest := by
    rw [line, drop_append]
    simp
  rw [handle, first, strip_decimal, parseInt_decimal, behind]
  dsimp only
  rw [if_neg (by omega), Int.toNat_natCast, take_left, parses]

end

end

private def twoFunctions : List (ServerEvent Unit Bool Unit) :=
  [.register () false, .register () true]

/-- Two functions are registered, and a request comes for the first one. -/
theorem callback_ids_two :
    Identifies (fun _ _ => true) (run (History.next fun _ _ => true) ⟨[], []⟩ twoFunctions)
      (.request ⟨[48], []⟩ : ServerEvent Unit Bool Unit) := by
  refine callback_ids twoFunctions (.request ⟨[48], []⟩) [] ⟨?_, ?_, ?_, trivial⟩
  · rintro - number other - was
    cases was
  · rintro - number other follows was
    have zero : decimal number = decimal 0 := congrArg Prod.fst (mem_singleton.mp was)
    have positive : 0 < number := follows.1 0 (by decide)
    exact absurd (decimal_injective zero) (by omega)
  · exact fun _ => ⟨[], rfl⟩

/-- A function is unregistered, another one gets its id, and a late request for the first one comes:
it is dispatched to the other. -/
theorem callback_ids_reused :
    ¬ ∀ (events : List (ServerEvent Unit Bool Unit)) (event : ServerEvent Unit Bool Unit),
      Identifies (fun _ _ => true) (run (History.next fun _ _ => true) ⟨[], []⟩ events) event := by
  intro always
  have late := (always [.register () false, .unregister () [48], .register () true]
    (.request ⟨[48], []⟩)).request ⟨[48], []⟩ false rfl (by decide)
  obtain ⟨answer, answered, misled⟩ := late
  cases answered
  exact absurd misled (by decide)

end Vts.Host
