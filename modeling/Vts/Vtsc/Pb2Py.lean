import Vts.Lib.Dictionary
import Vts.Vtsc.Py2Pb

/-!
# Messages to Python values

`VtsTcpClient.GetPythonDataOfVariableSpecMsg` in `runners/host/tcp_client/vts_tcp_client.py`: how
the host turns the message of a result back into a Python value, for the types of messages that
are modelled here. A scalar field that is not set reads as 0, and a string as the empty one.
-/

namespace Vts.Vtsc

inductive DataError where
  | VtsUnsupportedTypeError
deriving DecidableEq

/-- `result[key] = value`. -/
def dictSet (key : String) (value : PyValue) :
    List (String × PyValue) → List (String × PyValue)
  | [] => [(key, value)]
  | (other, present) :: entries =>
    if other = key then (other, value) :: entries else (other, present) :: dictSet key value entries

theorem dictSet_eq_store (key : String) (value : PyValue) (entries : List (String × PyValue)) :
    dictSet key value entries = Lib.store key value entries := by
  induction entries with
  | nil => rfl
  | cons entry entries ih =>
    rw [dictSet, Lib.store, ih]
    simp

theorem lookup_dictSet (key other : String) (value : PyValue)
    (entries : List (String × PyValue)) :
    (dictSet key value entries).lookup other =
      if other = key then some value else entries.lookup other := by
  rw [dictSet_eq_store, Lib.lookup_store]
  simp

/-- The key for a part of a struct or union: its name, or one made of its position. -/
def partKey (name : String) (index : Nat) : String :=
  if 0 < name.length then name else "attribute" ++ toString index

mutual

def GetPythonDataOfVariableSpecMsg : Message → Except DataError PyValue
  | ⟨name, type, scalar_value, scalar_type, string_message, string_length, vector_value,
      vector_size, struct_value, union_value, handle_value⟩ =>
    match type with
    | some .TYPE_SCALAR =>
      match scalar_type with
      | some scalar_type => .ok (.int ((scalar_value scalar_type).getD 0))
      | none => .error .VtsUnsupportedTypeError
    | some .TYPE_ENUM =>
      match scalar_type with
      | some scalar_type => .ok (.int ((scalar_value scalar_type).getD 0))
      | none => .ok (.int ((scalar_value .int32_t).getD 0))
    | some .TYPE_STRING => .ok (.str (string_message.getD []))
    | some .TYPE_STRUCT => (dataOfParts struct_value 1 []).map .dict
    | some .TYPE_UNION => (dataOfParts union_value 1 []).map .dict
    | some .TYPE_VECTOR => (dataOfElements vector_value).map .list
    | some .TYPE_ARRAY => (dataOfElements vector_value).map .list
    | some .TYPE_HANDLE =>
      .ok (.message ⟨name, type, scalar_value, scalar_type, string_message, string_length,
        vector_value, vector_size, struct_value, union_value, handle_value⟩)
    | some .TYPE_MASK => .error .VtsUnsupportedTypeError
    | none => .error .VtsUnsupportedTypeError

/-- The loop over the parts of a struct or union. -/
def dataOfParts : List Message → Nat → List (String × PyValue) →
    Except DataError (List (String × PyValue))
  | [], _, result => .ok result
  | part :: parts, index, result =>
    match GetPythonDataOfVariableSpecMsg part with
    | .error error => .error error
    | .ok value =>
      dataOfParts parts (index + 1) (dictSet (partKey (part.name.getD "") index) value result)

/-- The loop over the elements of a vector or array. -/
def dataOfElements : List Message → Except DataError (List PyValue)
  | [] => .ok []
  | part :: parts =>
    match GetPythonDataOfVariableSpecMsg part with
    | .error error => .error error
    | .ok value => (dataOfElements parts).map (value :: ·)

end

/-! ## Equal values -/

/-- Python values are equal: dictionaries if they have the same keys with equal values. -/
inductive PyValue.Same : PyValue → PyValue → Prop
  | int (value : Int) : Same (.int value) (.int value)
  | str (bytes : List UInt8) : Same (.str bytes) (.str bytes)
  | message (value : Message) : Same (.message value) (.message value)
  | list {items others : List PyValue} (length : items.length = others.length)
      (each : ∀ (index : Nat) (item other : PyValue), items[index]? = some item →
        others[index]? = some other → Same item other) :
      Same (.list items) (.list others)
  | dict {entries others : List (String × PyValue)}
      (keys : ∀ key, entries.lookup key = none ↔ others.lookup key = none)
      (each : ∀ (key : String) (value other : PyValue), entries.lookup key = some value →
        others.lookup key = some other → Same value other) :
      Same (.dict entries) (.dict others)

namespace PyValue.Same

theorem symm {first second : PyValue} (same : first.Same second) : second.Same first := by
  induction same with
  | int value => exact .int value
  | str bytes => exact .str bytes
  | message value => exact .message value
  | list length _ ih =>
    exact .list length.symm fun index item other here there =>
      ih index other item there here
  | dict keys _ ih =>
    exact .dict (fun key => (keys key).symm) fun key value other here there =>
      ih key other value there here

theorem trans {first second third : PyValue} (same : first.Same second)
    (further : second.Same third) : first.Same third := by
  induction same generalizing third with
  | int _ => exact further
  | str _ => exact further
  | message _ => exact further
  | @list items others length _ ih =>
    cases further with
    | list lengthNext next =>
      refine .list (length.trans lengthNext) fun index item last here there => ?_
      have inside : index < others.length := by
        obtain ⟨bound, _⟩ := List.getElem?_eq_some_iff.mp here
        omega
      exact ih index item others[index] here (List.getElem?_eq_getElem inside)
        (next index _ last (List.getElem?_eq_getElem inside) there)
  | @dict entries others keys _ ih =>
    cases further with
    | dict keysNext next =>
      refine .dict (fun key => (keys key).trans (keysNext key)) fun key value last here there => ?_
      cases between : others.lookup key with
      | none =>
        rw [(keys key).mpr between] at here
        cases here
      | some other =>
        exact ih key value other here between (next key other last between there)

end PyValue.Same

end Vts.Vtsc
