import Vts.Vtsc.Blocks
import Vts.Vtsc.Driver

/-!
# The profiler: from arguments to recorded messages

The generators of `compilation_tools/vtsc/code_gen/profiler/HalHidlProfilerCodeGen.cpp`, which
emit the code that records an argument in a message. The code for a predefined type is in a
function of its own, `profile__`, with the parameters `arg_name` and `arg_val_name`.

Proved here is what is decided before the code runs. It declares a message variable for each
field of a struct or union without a predefined type and a variable for each handle, in one
block for all of them, and compiles if these are different. The index of a loop is made from
the name of the message variable, which grows from loop to loop, so that every index means the
loop it was emitted for.
-/

namespace Vts.Vtsc

open Vts.Lib Children

/-- `ReplaceSubString(original, from, to)`. -/
def ReplaceSubString (original old new : String) : String := original.replace old new

/-- The name of the index of the loop over a vector or an array. -/
def profilerIndex (arg_name : String) : String := GetVarString arg_name ++ "_index"

/-- The name of the message variable for an element. -/
def profilerElement (arg_name kind : String) : String :=
  GetVarString arg_name ++ kind ++ profilerIndex arg_name

mutual

/-- `GenerateProfilerForTypedVariable(val, arg_name, arg_value)`, with one case for each of the
functions `GenerateProfilerForScalarVariable` to `GenerateProfilerForHandleVariable`. The
functions that are called are those of `GenerateProfilerMethodImplForAttribute`. -/
def GenerateProfilerForTypedVariable : Spec → String → Place → WriteCode
  | .scalar scalar_type, arg_name, arg_value => .block [
      .set_type arg_name .TYPE_SCALAR,
      .set_scalar_value arg_name scalar_type arg_value]
  | .string, arg_name, arg_value => .block [
      .set_type arg_name .TYPE_STRING,
      .set_string_value arg_name arg_value]
  | .enum predefined_type scalar_type, arg_name, arg_value => .block [
      .set_type arg_name .TYPE_ENUM,
      .call ("profile__" ++ ReplaceSubString predefined_type "::" "__") arg_name arg_value
        "arg_name" (.block [
          .set_type "arg_name" .TYPE_ENUM,
          .set_scalar_value "arg_name" scalar_type (.var "arg_val_name"),
          .set_scalar_type "arg_name" scalar_type])]
  | .mask scalar_type, arg_name, arg_value => .block [
      .set_type arg_name .TYPE_MASK,
      .set_scalar_type arg_name scalar_type,
      .set_scalar_value arg_name scalar_type arg_value]
  | .vector vector_value, arg_name, arg_value => .block [
      .set_type arg_name .TYPE_VECTOR,
      .set_vector_size arg_name (.size arg_value),
      .loop (profilerIndex arg_name) arg_value (.size arg_value) (.block [
        .add (profilerElement arg_name "_vector_") arg_name .vector_value,
        GenerateProfilerForTypedVariable vector_value (profilerElement arg_name "_vector_")
          (.index arg_value (profilerIndex arg_name))])]
  | .array vector_size vector_value, arg_name, arg_value => .block [
      .set_type arg_name .TYPE_ARRAY,
      .set_vector_size arg_name (.constant vector_size),
      .loop (profilerIndex arg_name) arg_value (.constant vector_size) (.block [
        .add (profilerElement arg_name "_array_") arg_name .vector_value,
        GenerateProfilerForTypedVariable vector_value (profilerElement arg_name "_array_")
          (.index arg_value (profilerIndex arg_name))])]
  | .struct (some predefined_type) struct_value, arg_name, arg_value => .block [
      .set_type arg_name .TYPE_STRUCT,
      .call ("profile__" ++ ReplaceSubString predefined_type "::" "__") arg_name arg_value
        "arg_name" (.block [
          .set_type "arg_name" .TYPE_STRUCT,
          GenerateProfilerForFields struct_value .struct_value "arg_name"
            (.var "arg_val_name")])]
  | .struct none struct_value, arg_name, arg_value => .block [
      .set_type arg_name .TYPE_STRUCT,
      GenerateProfilerForFields struct_value .struct_value arg_name arg_value]
  | .union (some predefined_type) union_value, arg_name, arg_value => .block [
      .set_type arg_name .TYPE_UNION,
      .call ("profile__" ++ ReplaceSubString predefined_type "::" "__") arg_name arg_value
        "arg_name" (.block [
          .set_type "arg_name" .TYPE_UNION,
          GenerateProfilerForFields union_value .union_value "arg_name"
            (.var "arg_val_name")])]
  | .union none union_value, arg_name, arg_value => .block [
      .set_type arg_name .TYPE_UNION,
      GenerateProfilerForFields union_value .union_value arg_name arg_value]
  | .handle, arg_name, arg_value => .block [
      .set_type arg_name .TYPE_HANDLE,
      .set_handle_value arg_name (arg_name ++ "_h") arg_value]

/-- The loops over the fields. -/
def GenerateProfilerForFields : Fields → Repeated → String → Place → WriteCode
  | .nil, _, _, _ => .skip
  | .cons name field rest, kind, arg_name, arg_value =>
    .seq
      (.block [
        .add (arg_name ++ "_" ++ name) arg_name kind,
        GenerateProfilerForTypedVariable field (arg_name ++ "_" ++ name) (.dot arg_value name)])
      (GenerateProfilerForFields rest kind arg_name arg_value)

end

/-! ## Names in a block -/

mutual

/-- The variables that the code for a type declares in its own block. -/
def Spec.variables : Spec → String → List String
  | .struct none struct_value, arg_name => struct_value.variables arg_name
  | .union none union_value, arg_name => union_value.variables arg_name
  | .handle, arg_name => [arg_name ++ "_h"]
  | _, _ => []

def Fields.variables : Fields → String → List String
  | .nil, _ => []
  | .cons name field rest, arg_name =>
    (arg_name ++ "_" ++ name) :: field.variables (arg_name ++ "_" ++ name) ++
      rest.variables arg_name

end

mutual

/-- No block inside the code for a type declares a variable twice. -/
def Spec.VariablesDifferInside : Spec → String → Prop
  | .vector vector_value, arg_name =>
    (vector_value.variables (profilerElement arg_name "_vector_")).Nodup ∧
      vector_value.VariablesDifferInside (profilerElement arg_name "_vector_")
  | .array _ vector_value, arg_name =>
    (vector_value.variables (profilerElement arg_name "_array_")).Nodup ∧
      vector_value.VariablesDifferInside (profilerElement arg_name "_array_")
  | .struct (some _) struct_value, _ =>
    (struct_value.variables "arg_name").Nodup ∧ struct_value.VariablesDifferInside "arg_name"
  | .struct none struct_value, arg_name => struct_value.VariablesDifferInside arg_name
  | .union (some _) union_value, _ =>
    (union_value.variables "arg_name").Nodup ∧ union_value.VariablesDifferInside "arg_name"
  | .union none union_value, arg_name => union_value.VariablesDifferInside arg_name
  | _, _ => True

def Fields.VariablesDifferInside : Fields → String → Prop
  | .nil, _ => True
  | .cons name field rest, arg_name =>
    field.VariablesDifferInside (arg_name ++ "_" ++ name) ∧ rest.VariablesDifferInside arg_name

end

/-- No block of the code for a type declares a variable twice. -/
def Spec.VariablesDiffer (spec : Spec) (arg_name : String) : Prop :=
  (spec.variables arg_name).Nodup ∧ spec.VariablesDifferInside arg_name

mutual

/-- The names of a block are longer than the one they are made from. -/
theorem Spec.length_of_mem_variables : ∀ (spec : Spec) (arg_name : String),
    ∀ name ∈ spec.variables arg_name, arg_name.length < name.length
  | .struct none struct_value, arg_name => struct_value.length_of_mem_variables arg_name
  | .union none union_value, arg_name => union_value.length_of_mem_variables arg_name
  | .handle, arg_name => by
    intro name listed
    rw [List.mem_singleton.mp listed]
    exact length_lt_append arg_name (by decide)
  | .struct (some _) _, _ | .union (some _) _, _ | .scalar _, _ | .string, _ | .mask _, _
  | .enum _ _, _ | .vector _, _ | .array _ _, _ => by
    intro name listed
    cases listed

theorem Fields.length_of_mem_variables : ∀ (fields : Fields) (arg_name : String),
    ∀ name ∈ fields.variables arg_name, arg_name.length < name.length
  | .nil, _ => by
    intro name listed
    cases listed
  | .cons field_name field rest, arg_name => by
    intro name listed
    have longer := length_lt_member arg_name field_name
    rcases List.mem_append.mp listed with first | later
    · rcases List.mem_cons.mp first with rfl | inside
      · exact longer
      · exact Nat.lt_trans longer (field.length_of_mem_variables _ name inside)
    · exact rest.length_of_mem_variables arg_name name later

end

theorem length_profilerIndex (arg_name : String) :
    (profilerIndex arg_name).length = arg_name.length + 6 := by
  have suffix : "_index".length = 6 := rfl
  rw [profilerIndex, String.length_append, length_GetVarString, suffix]

theorem length_lt_profilerElement (arg_name : String) {kind : String} (long : 0 < kind.length) :
    arg_name.length < (profilerElement arg_name kind).length := by
  rw [profilerElement, String.length_append, String.length_append, length_GetVarString]
  omega

theorem length_profilerElement (arg_name : String) {kind : String} (long : 0 < kind.length) :
    (profilerIndex arg_name).length < (profilerElement arg_name kind).length := by
  rw [profilerElement, String.length_append, String.length_append]
  omega

mutual

/-- The names that the emitted code declares, and when it compiles. -/
theorem GenerateProfilerForTypedVariable_declares : ∀ (spec : Spec) (arg_name : String)
    (arg_value : Place),
    (GenerateProfilerForTypedVariable spec arg_name arg_value).Declares
      (spec.variables arg_name) (spec.VariablesDifferInside arg_name)
  | .scalar _, _, _ | .string, _, _ | .enum _ _, _, _ =>
    .after (fun _ => rfl) (.after (fun _ => rfl) .skip)
  | .mask _, _, _ => .after (fun _ => rfl) (.after (fun _ => rfl) (.after (fun _ => rfl) .skip))
  | .handle, _, _ => .after (fun _ => rfl) (.last (.single fun _ => rfl))
  | .vector vector_value, arg_name, _ | .array _ vector_value, arg_name, _ =>
    .after (fun _ => rfl) (.after (fun _ => rfl) (.last (.loop
      (length_profilerElement arg_name (by decide)) (vector_value.length_of_mem_variables _)
      (GenerateProfilerForTypedVariable_declares vector_value _ _) _ _)))
  | .struct none fields, _, _ | .union none fields, _, _ =>
    .after (fun _ => rfl) (.last (GenerateProfilerForFields_declares fields _ _ _))
  | .struct (some _) fields, _, _ | .union (some _) fields, _, _ => by
    refine .after (fun _ => rfl) (.last (.inner (.after (fun _ => rfl) (.last
      (GenerateProfilerForFields_declares fields _ _ _))) ["arg_name"] (fun _ => rfl) ?_))
    intro name listed same
    have longer := fields.length_of_mem_variables _ name listed
    rw [List.mem_singleton.mp same] at longer
    exact Nat.lt_irrefl _ longer

theorem GenerateProfilerForFields_declares : ∀ (fields : Fields) (kind : Repeated)
    (arg_name : String) (arg_value : Place),
    (GenerateProfilerForFields fields kind arg_name arg_value).Declares
      (fields.variables arg_name) (fields.VariablesDifferInside arg_name)
  | .nil, _, _, _ => .skip
  | .cons name field rest, kind, arg_name, arg_value => by
    have one := GenerateProfilerForTypedVariable_declares field (arg_name ++ "_" ++ name)
      (.dot arg_value name)
    have others := GenerateProfilerForFields_declares rest kind arg_name arg_value
    have added : (WriteCode.add (arg_name ++ "_" ++ name) arg_name kind).Declares
        [arg_name ++ "_" ++ name] True := .single fun _ => rfl
    refine ((added.seq one.last).seq others).congr ?_ ?_
    · simp [Fields.variables]
    · simp [Fields.VariablesDifferInside]

end

/-! ## Indices -/

/-- No index of an expression is longer than the message variable that it is recorded in. -/
def Place.Within (place : Place) (arg_name : String) : Prop :=
  ∀ index_name ∈ place.indices, index_name.length ≤ arg_name.length

/-- The index of a new loop is not in the expression. -/
theorem Place.Within.unused {place : Place} {arg_name : String} (within : place.Within arg_name) :
    profilerIndex arg_name ∉ place.indices := by
  intro used
  have short := within _ used
  rw [length_profilerIndex] at short
  omega

theorem Place.Within.index {place : Place} {arg_name kind : String}
    (within : place.Within arg_name) (long : 0 < kind.length) :
    (Place.index place (profilerIndex arg_name)).Within (profilerElement arg_name kind) := by
  have longer := length_profilerElement arg_name long
  intro index_name used
  rcases List.mem_cons.mp used with rfl | inside
  · exact Nat.le_of_lt longer
  · have short := within index_name inside
    rw [length_profilerIndex] at longer
    omega

theorem Place.Within.dot {place : Place} {arg_name : String} (within : place.Within arg_name)
    (name : String) : (Place.dot place name).Within (arg_name ++ "_" ++ name) := by
  intro index_name used
  exact Nat.le_trans (within index_name used) (Nat.le_of_lt (length_lt_member arg_name name))

theorem Place.Within.var (name arg_name : String) : (Place.var name).Within arg_name := by
  intro index_name used
  cases used

mutual

/-- Every index of the emitted code means the loop it was emitted for. -/
theorem GenerateProfilerForTypedVariable_resolved : ∀ (spec : Spec) (arg_name : String)
    (arg_value : Place) (loops : List (String × Place)), arg_value.Within arg_name →
    arg_value.Resolved loops →
    (GenerateProfilerForTypedVariable spec arg_name arg_value).Resolved loops
  | .scalar _, _, _, _, _, value | .string, _, _, _, _, value | .handle, _, _, _, _, value =>
    ⟨trivial, value, trivial⟩
  | .mask _, _, _, _, _, value => ⟨trivial, trivial, value, trivial⟩
  | .enum _ _, _, _, _, _, value => ⟨trivial, ⟨value, trivial, trivial, trivial, trivial⟩, trivial⟩
  | .vector vector_value, arg_name, arg_value, loops, within, value => by
    have bound := Place.resolved_cons within.unused arg_value value
    exact ⟨trivial, value, ⟨bound, trivial, GenerateProfilerForTypedVariable_resolved vector_value
      _ _ _ (within.index (by decide)) ⟨List.lookup_cons_self, bound⟩, trivial⟩, trivial⟩
  | .array _ vector_value, arg_name, arg_value, loops, within, value => by
    have bound := Place.resolved_cons within.unused arg_value value
    exact ⟨trivial, trivial, ⟨trivial, GenerateProfilerForTypedVariable_resolved vector_value
      _ _ _ (within.index (by decide)) ⟨List.lookup_cons_self, bound⟩, trivial⟩, trivial⟩
  | .struct none fields, _, _, loops, within, value
  | .union none fields, _, _, loops, within, value =>
    ⟨trivial, GenerateProfilerForFields_resolved fields _ _ _ loops within value, trivial⟩
  | .struct (some _) fields, _, _, _, _, value | .union (some _) fields, _, _, _, _, value =>
    ⟨trivial, ⟨value, trivial, GenerateProfilerForFields_resolved fields _
      "arg_name" (.var "arg_val_name") [] (.var _ _) trivial, trivial⟩, trivial⟩

theorem GenerateProfilerForFields_resolved : ∀ (fields : Fields) (kind : Repeated)
    (arg_name : String) (arg_value : Place) (loops : List (String × Place)),
    arg_value.Within arg_name → arg_value.Resolved loops →
    (GenerateProfilerForFields fields kind arg_name arg_value).Resolved loops
  | .nil, _, _, _, _, _, _ => trivial
  | .cons name field rest, kind, arg_name, arg_value, loops, within, value =>
    ⟨⟨trivial, GenerateProfilerForTypedVariable_resolved field _ _ loops (within.dot name) value,
      trivial⟩, GenerateProfilerForFields_resolved rest kind arg_name arg_value loops within value⟩

end

end Vts.Vtsc
