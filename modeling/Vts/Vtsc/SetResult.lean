import Vts.Vtsc.Blocks
import Vts.Vtsc.Driver

/-!
# Results: from variables to messages

`GenerateSetResultCodeForTypedVariable` and `GenerateSetResultImplForAttribute` of
`compilation_tools/vtsc/code_gen/driver/HalHidlCodeGen.cpp`, which emit the code that writes a
result into a message.

Proved here is what is decided before the code runs. The code declares a message variable for
each field of a struct without a predefined type, in one block for all of them, and compiles if
these are different (`GenerateSetResultCodeForTypedVariable_declares`). All its loops have the
index `i`, so a loop inside a loop hides the index of the outer one
(`resolved_iff_uncaptured`).
-/

namespace Vts.Vtsc

open Vts.Lib Children List

mutual

/-- `GenerateSetResultCodeForTypedVariable(val, result_msg, result_value)`. The functions that
are called are those of `GenerateSetResultImplForAttribute`. The specification of an array has
one `vector_value`, that of its elements. -/
def GenerateSetResultCodeForTypedVariable : Spec → String → Place → WriteCode
  | .scalar scalar_type, result_msg, result_value => .block [
      .set_type result_msg .TYPE_SCALAR,
      .set_scalar_type result_msg scalar_type,
      .set_scalar_value result_msg scalar_type result_value]
  | .string, result_msg, result_value => .block [
      .set_type result_msg .TYPE_STRING,
      .set_string_value result_msg result_value]
  | .enum predefined_type scalar_type, result_msg, result_value => .block [
      .set_type result_msg .TYPE_ENUM,
      .call ("SetResult" ++ ClearStringWithNameSpaceAccess predefined_type) result_msg result_value
        "result_msg" (.block [
          .set_type "result_msg" .TYPE_ENUM,
          .set_scalar_type "result_msg" scalar_type,
          .set_scalar_value "result_msg" scalar_type (.var "result_value")])]
  | .mask scalar_type, result_msg, result_value => .block [
      .set_type result_msg .TYPE_MASK,
      .set_scalar_type result_msg scalar_type,
      .set_scalar_value result_msg scalar_type result_value]
  | .vector vector_value, result_msg, result_value => .block [
      .set_type result_msg .TYPE_VECTOR,
      .set_vector_size result_msg (.size result_value),
      .loop "i" result_value (.size result_value) (.block [
        .add (result_msg ++ "_vector_i") result_msg .vector_value,
        GenerateSetResultCodeForTypedVariable vector_value (result_msg ++ "_vector_i")
          (.index result_value "i")])]
  | .array _ vector_value, result_msg, result_value => .block [
      .set_type result_msg .TYPE_ARRAY,
      .set_vector_size result_msg (.constant 1),
      .loop "i" result_value (.constant 1) (.block [
        .add (result_msg ++ "_array_i") result_msg .vector_value,
        GenerateSetResultCodeForTypedVariable vector_value (result_msg ++ "_array_i")
          (.index result_value "i")])]
  | .struct (some predefined_type) struct_value, result_msg, result_value => .block [
      .set_type result_msg .TYPE_STRUCT,
      .call ("SetResult" ++ ClearStringWithNameSpaceAccess predefined_type) result_msg result_value
        "result_msg" (.block [
          .set_type "result_msg" .TYPE_STRUCT,
          GenerateSetResultCodeForFields struct_value .struct_value "result_msg"
            (.var "result_value")])]
  | .struct none struct_value, result_msg, result_value => .block [
      .set_type result_msg .TYPE_STRUCT,
      GenerateSetResultCodeForFields struct_value .struct_value result_msg result_value]
  | .union (some predefined_type) union_value, result_msg, result_value => .block [
      .set_type result_msg .TYPE_UNION,
      .call ("SetResult" ++ ClearStringWithNameSpaceAccess predefined_type) result_msg result_value
        "result_msg" (.block [
          .set_type "result_msg" .TYPE_UNION,
          GenerateSetResultCodeForFields union_value .union_value "result_msg"
            (.var "result_value")])]
  | .union none union_value, result_msg, result_value => .block [
      .set_type result_msg .TYPE_UNION,
      GenerateSetResultCodeForFields union_value .union_value result_msg result_value]
  | .handle, result_msg, result_value => .block [
      .set_type result_msg .TYPE_HANDLE,
      .set_hidl_handle_address result_msg result_value]

/-- The loops over the fields. -/
def GenerateSetResultCodeForFields : Fields → Repeated → String → Place → WriteCode
  | .nil, _, _, _ => .skip
  | .cons name field rest, kind, result_msg, result_value =>
    .seq
      (.block [
        .add (result_msg ++ "_" ++ name) result_msg kind,
        GenerateSetResultCodeForTypedVariable field (result_msg ++ "_" ++ name)
          (.dot result_value name),
        .set_name (result_msg ++ "_" ++ name) name])
      (GenerateSetResultCodeForFields rest kind result_msg result_value)

end

/-! ## Names in a block -/

mutual

/-- The message variables that the code for a type declares in its own block. -/
def Spec.declares : Spec → String → List String
  | .struct none struct_value, result_msg => struct_value.declare result_msg
  | .union none union_value, result_msg => union_value.declare result_msg
  | _, _ => []

def Fields.declare : Fields → String → List String
  | .nil, _ => []
  | .cons name field rest, result_msg =>
    (result_msg ++ "_" ++ name) :: field.declares (result_msg ++ "_" ++ name) ++
      rest.declare result_msg

end

mutual

/-- No block inside the code for a type declares a message variable twice. -/
def Spec.DistinctInside : Spec → String → Prop
  | .vector vector_value, result_msg =>
    (vector_value.declares (result_msg ++ "_vector_i")).Nodup ∧
      vector_value.DistinctInside (result_msg ++ "_vector_i")
  | .array _ vector_value, result_msg =>
    (vector_value.declares (result_msg ++ "_array_i")).Nodup ∧
      vector_value.DistinctInside (result_msg ++ "_array_i")
  | .struct (some _) struct_value, _ =>
    (struct_value.declare "result_msg").Nodup ∧ struct_value.DistinctInside "result_msg"
  | .struct none struct_value, result_msg => struct_value.DistinctInside result_msg
  | .union (some _) union_value, _ =>
    (union_value.declare "result_msg").Nodup ∧ union_value.DistinctInside "result_msg"
  | .union none union_value, result_msg => union_value.DistinctInside result_msg
  | _, _ => True

def Fields.DistinctInside : Fields → String → Prop
  | .nil, _ => True
  | .cons name field rest, result_msg =>
    field.DistinctInside (result_msg ++ "_" ++ name) ∧ rest.DistinctInside result_msg

end

/-- No block of the code for a type declares a message variable twice. -/
def Spec.DistinctNames (spec : Spec) (result_msg : String) : Prop :=
  (spec.declares result_msg).Nodup ∧ spec.DistinctInside result_msg

mutual

/-- The names of a block are longer than the one they are made from. -/
theorem Spec.length_of_mem_declares : ∀ (spec : Spec) (result_msg : String),
    ∀ name ∈ spec.declares result_msg, result_msg.length < name.length
  | .struct none struct_value, result_msg => struct_value.length_of_mem_declare result_msg
  | .union none union_value, result_msg => union_value.length_of_mem_declare result_msg
  | .struct (some _) _, _ | .union (some _) _, _ | .scalar _, _ | .string, _ | .mask _, _
  | .enum _ _, _ | .vector _, _ | .array _ _, _ | .handle, _ => by
    intro name listed
    cases listed

theorem Fields.length_of_mem_declare : ∀ (fields : Fields) (result_msg : String),
    ∀ name ∈ fields.declare result_msg, result_msg.length < name.length
  | .nil, _ => by
    intro name listed
    cases listed
  | .cons field_name field rest, result_msg => by
    intro name listed
    have longer := length_lt_member result_msg field_name
    rcases mem_append.mp listed with first | later
    · rcases mem_cons.mp first with rfl | inside
      · exact longer
      · exact Nat.lt_trans longer (field.length_of_mem_declares _ name inside)
    · exact rest.length_of_mem_declare result_msg name later

end

mutual

/-- The names that the emitted code declares, and when it compiles. -/
theorem GenerateSetResultCodeForTypedVariable_declares : ∀ (spec : Spec) (result_msg : String)
    (result_value : Place),
    (GenerateSetResultCodeForTypedVariable spec result_msg result_value).Declares
      (spec.declares result_msg) (spec.DistinctInside result_msg)
  | .scalar _, _, _ => .after (fun _ => rfl) (.after (fun _ => rfl) (.after (fun _ => rfl) .skip))
  | .string, _, _ => .after (fun _ => rfl) (.after (fun _ => rfl) .skip)
  | .mask _, _, _ => .after (fun _ => rfl) (.after (fun _ => rfl) (.after (fun _ => rfl) .skip))
  | .enum _ _, _, _ => .after (fun _ => rfl) (.after (fun _ => rfl) .skip)
  | .handle, _, _ => .after (fun _ => rfl) (.after (fun _ => rfl) .skip)
  | .vector vector_value, result_msg, result_value
  | .array _ vector_value, result_msg, result_value =>
    .after (fun _ => rfl) (.after (fun _ => rfl) (.last (.loop
      (length_lt_append_right _ (by decide)) (vector_value.length_of_mem_declares _)
      (GenerateSetResultCodeForTypedVariable_declares vector_value _ _) _ _)))
  | .struct none fields, _, _ | .union none fields, _, _ =>
    .after (fun _ => rfl) (.last (GenerateSetResultCodeForFields_declares fields _ _ _))
  | .struct (some _) fields, _, _ | .union (some _) fields, _, _ => by
    refine .after (fun _ => rfl) (.last (.inner (.after (fun _ => rfl) (.last
      (GenerateSetResultCodeForFields_declares fields _ _ _))) ["result_msg"] (fun _ => rfl) ?_))
    intro name listed same
    have longer := fields.length_of_mem_declare _ name listed
    rw [mem_singleton.mp same] at longer
    exact Nat.lt_irrefl _ longer

theorem GenerateSetResultCodeForFields_declares : ∀ (fields : Fields) (kind : Repeated)
    (result_msg : String) (result_value : Place),
    (GenerateSetResultCodeForFields fields kind result_msg result_value).Declares
      (fields.declare result_msg) (fields.DistinctInside result_msg)
  | .nil, _, _, _ => .skip
  | .cons name field rest, kind, result_msg, result_value => by
    have one := GenerateSetResultCodeForTypedVariable_declares field
      (result_msg ++ "_" ++ name) (.dot result_value name)
    have others := GenerateSetResultCodeForFields_declares rest kind result_msg result_value
    have added : (WriteCode.add (result_msg ++ "_" ++ name) result_msg kind).Declares
        [result_msg ++ "_" ++ name] True := .single fun _ => rfl
    have named : (WriteCode.set_name (result_msg ++ "_" ++ name) name).Declares [] True :=
      .nothing fun _ => rfl
    refine ((added.seq (one.seq named.last)).seq others).congr ?_ ?_
    · simp [Fields.declare]
    · simp [Fields.DistinctInside]

end

/-! ## Indices -/

mutual

/-- The code for a type reads the value. -/
def Spec.Reads : Spec → Prop
  | .array _ vector_value => vector_value.Reads
  | .struct none struct_value => struct_value.Read
  | .union none union_value => union_value.Read
  | _ => True

def Fields.Read : Fields → Prop
  | .nil => False
  | .cons _ field rest => field.Reads ∨ rest.Read

end

mutual

/-- No loop hides the index of a loop around it in the same function. All loops have the index
`i`, so this is about loops inside loops whose code reads the value. -/
def Spec.Uncaptured : Spec → (inLoop : Prop) → Prop
  | .vector vector_value, inLoop => ¬ inLoop ∧ vector_value.Uncaptured True
  | .array _ vector_value, inLoop =>
    (inLoop → ¬ vector_value.Reads) ∧ vector_value.Uncaptured True
  | .struct (some _) struct_value, _ => struct_value.Uncaptured False
  | .struct none struct_value, inLoop => struct_value.Uncaptured inLoop
  | .union (some _) union_value, _ => union_value.Uncaptured False
  | .union none union_value, inLoop => union_value.Uncaptured inLoop
  | _, _ => True

def Fields.Uncaptured : Fields → (inLoop : Prop) → Prop
  | .nil, _ => True
  | .cons _ field rest, inLoop => field.Uncaptured inLoop ∧ rest.Uncaptured inLoop

end

/-- The number of steps in an expression. -/
def Place.depth : Place → Nat
  | var _ => 0
  | arrow _ _ => 0
  | dot place _ => place.depth + 1
  | index place _ => place.depth + 1

/-- An index that means a loop over a place stands behind that place. -/
theorem Place.Resolved.depth {place target : Place} {index_name : String}
    {loops : List (String × Place)} (resolved : place.Resolved ((index_name, target) :: loops))
    (used : index_name ∈ place.indices) : target.depth < place.depth := by
  induction place with
  | var _ => cases used
  | arrow _ _ => cases used
  | dot place member ih =>
    exact Nat.lt_succ_of_lt (ih resolved used)
  | index place other ih =>
    rcases mem_cons.mp used with rfl | inside
    · have same := resolved.1
      rw [lookup_cons_self] at same
      cases same
      exact Nat.lt_succ_self _
    · exact Nat.lt_succ_of_lt (ih resolved.2 inside)

theorem Place.resolved_of_indices_nil {place : Place} (none_used : place.indices = [])
    (loops : List (String × Place)) : place.Resolved loops := by
  induction place with
  | var _ => trivial
  | arrow _ _ => trivial
  | dot place member ih => exact ih none_used
  | index place other _ => cases none_used

/-- All indices of an expression have the name `i`. -/
def Place.OnlyI (place : Place) : Prop := ∀ name ∈ place.indices, name = "i"

/-- Inside the loop over a place, the place means the same only if it has no index. -/
theorem Place.OnlyI.resolved_iff {place : Place} (onlyI : place.OnlyI)
    (loops : List (String × Place)) :
    place.Resolved (("i", place) :: loops) ↔ place.indices = [] := by
  constructor
  · intro resolved
    by_contra used
    obtain ⟨name, listed⟩ := exists_mem_of_ne_nil _ used
    obtain rfl := onlyI name listed
    exact Nat.lt_irrefl _ (resolved.depth listed)
  · intro none_used
    exact Place.resolved_of_indices_nil none_used _

theorem Place.OnlyI.index {place : Place} (onlyI : place.OnlyI) :
    (Place.index place "i").OnlyI := by
  intro name listed
  rcases mem_cons.mp listed with rfl | inside
  · rfl
  · exact onlyI name inside

mutual

theorem resolved_of_reads : ∀ (spec : Spec) (result_msg : String) (result_value : Place)
    (loops : List (String × Place)), spec.Reads →
    (GenerateSetResultCodeForTypedVariable spec result_msg result_value).Resolved loops →
    result_value.OnlyI → result_value.Resolved loops
  | .scalar _, _, _, _, _, resolved, _ | .mask _, _, _, _, _, resolved, _ => resolved.2.2.1
  | .string, _, _, _, _, resolved, _ | .handle, _, _, _, _, resolved, _
  | .vector _, _, _, _, _, resolved, _ => resolved.2.1
  | .enum _ _, _, _, _, _, resolved, _ => resolved.2.1.1
  | .struct (some _) _, _, _, _, _, resolved, _ => resolved.2.1.1
  | .union (some _) _, _, _, _, _, resolved, _ => resolved.2.1.1
  | .array _ vector_value, _, result_value, loops, reads, resolved, onlyI => by
    have inside := (resolved_of_reads vector_value _ _ _ reads resolved.2.2.1.2.1 onlyI.index).2
    exact Place.resolved_of_indices_nil ((onlyI.resolved_iff loops).mp inside) loops
  | .struct none fields, _, _, loops, reads, resolved, onlyI
  | .union none fields, _, _, loops, reads, resolved, onlyI =>
    resolved_of_read fields _ _ _ loops reads resolved.2.1 onlyI

theorem resolved_of_read : ∀ (fields : Fields) (kind : Repeated) (result_msg : String)
    (result_value : Place) (loops : List (String × Place)), fields.Read →
    (GenerateSetResultCodeForFields fields kind result_msg result_value).Resolved loops →
    result_value.OnlyI → result_value.Resolved loops
  | .nil, _, _, _, _, read, _, _ => read.elim
  | .cons _ field rest, _, _, _, loops, read, resolved, onlyI => by
    rcases read with first | later
    · exact resolved_of_reads field _ (.dot _ _) loops first resolved.1.2.1 onlyI
    · exact resolved_of_read rest _ _ _ loops later resolved.2 onlyI

end

mutual

theorem resolved_of_not_reads : ∀ (spec : Spec) (result_msg : String) (result_value : Place)
    (loops : List (String × Place)) (inLoop : Prop), ¬ spec.Reads →
    (GenerateSetResultCodeForTypedVariable spec result_msg result_value).Resolved loops ∧
      spec.Uncaptured inLoop
  | .scalar _, _, _, _, _, idle | .string, _, _, _, _, idle | .mask _, _, _, _, _, idle
  | .enum _ _, _, _, _, _, idle | .handle, _, _, _, _, idle | .vector _, _, _, _, _, idle
  | .struct (some _) _, _, _, _, _, idle | .union (some _) _, _, _, _, _, idle =>
    absurd trivial idle
  | .array _ vector_value, _, _, _, _, idle => by
    obtain ⟨resolved, uncaptured⟩ := resolved_of_not_reads vector_value _ _ _ True idle
    exact ⟨⟨trivial, trivial, ⟨trivial, resolved, trivial⟩, trivial⟩, fun _ => idle, uncaptured⟩
  | .struct none fields, result_msg, result_value, loops, inLoop, idle
  | .union none fields, result_msg, result_value, loops, inLoop, idle => by
    have inside (kind : Repeated) :=
      resolved_of_not_read fields kind result_msg result_value loops inLoop idle
    exact ⟨⟨trivial, (inside _).1, trivial⟩, (inside .struct_value).2⟩

theorem resolved_of_not_read : ∀ (fields : Fields) (kind : Repeated) (result_msg : String)
    (result_value : Place) (loops : List (String × Place)) (inLoop : Prop), ¬ fields.Read →
    (GenerateSetResultCodeForFields fields kind result_msg result_value).Resolved loops ∧
      fields.Uncaptured inLoop
  | .nil, _, _, _, _, _, _ => ⟨trivial, trivial⟩
  | .cons name field rest, kind, result_msg, result_value, loops, inLoop, idle => by
    obtain ⟨idleField, idleRest⟩ := not_or.mp idle
    obtain ⟨resolved, uncaptured⟩ := resolved_of_not_reads field (result_msg ++ "_" ++ name)
      (.dot result_value name) loops inLoop idleField
    obtain ⟨resolvedRest, uncapturedRest⟩ := resolved_of_not_read rest kind result_msg
      result_value loops inLoop idleRest
    exact ⟨⟨⟨trivial, resolved, trivial, trivial⟩, resolvedRest⟩, uncaptured, uncapturedRest⟩

end

mutual

/-- Every index of the emitted code means the loop it was emitted for exactly if no loop hides
the index of a loop around it. -/
theorem resolved_iff_uncaptured : ∀ (spec : Spec) (result_msg : String) (result_value : Place)
    (loops : List (String × Place)), result_value.OnlyI → result_value.Resolved loops →
    ((GenerateSetResultCodeForTypedVariable spec result_msg result_value).Resolved loops ↔
      spec.Uncaptured (result_value.indices ≠ []))
  | .scalar _, _, _, _, _, value | .mask _, _, _, _, _, value =>
    ⟨fun _ => trivial, fun _ => ⟨trivial, trivial, value, trivial⟩⟩
  | .string, _, _, _, _, value => ⟨fun _ => trivial, fun _ => ⟨trivial, value, trivial⟩⟩
  | .enum _ _, _, _, _, _, value =>
    ⟨fun _ => trivial, fun _ => ⟨trivial, ⟨value, trivial, trivial, trivial, trivial⟩, trivial⟩⟩
  | .handle, _, _, _, _, value => ⟨fun _ => trivial, fun _ => ⟨trivial, value, trivial⟩⟩
  | .vector vector_value, result_msg, result_value, loops, onlyI, value => by
    have outside := onlyI.resolved_iff loops
    have inner (bound : result_value.Resolved (("i", result_value) :: loops)) :=
      resolved_iff_uncaptured vector_value (result_msg ++ "_vector_i") (.index result_value "i")
        (("i", result_value) :: loops) onlyI.index ⟨lookup_cons_self, bound⟩
    constructor
    · rintro ⟨_, _, ⟨bound, _, body, _⟩, _⟩
      have none_used := outside.mp bound
      refine ⟨fun used => used none_used, ?_⟩
      simpa [Place.indices] using (inner bound).mp body
    · rintro ⟨notInLoop, uncaptured⟩
      have bound := outside.mpr (not_not.mp notInLoop)
      refine ⟨trivial, value, ⟨bound, trivial, ?_, trivial⟩, trivial⟩
      exact (inner bound).mpr (by simpa [Place.indices] using uncaptured)
  | .array _ vector_value, result_msg, result_value, loops, onlyI, value => by
    have outside := onlyI.resolved_iff loops
    have inner (bound : result_value.Resolved (("i", result_value) :: loops)) :=
      resolved_iff_uncaptured vector_value (result_msg ++ "_array_i") (.index result_value "i")
        (("i", result_value) :: loops) onlyI.index ⟨lookup_cons_self, bound⟩
    by_cases reads : vector_value.Reads
    · constructor
      · rintro ⟨_, _, ⟨_, body, _⟩, _⟩
        have bound := (resolved_of_reads vector_value _ _ _ reads body onlyI.index).2
        refine ⟨fun used => absurd (outside.mp bound) used, ?_⟩
        simpa [Place.indices] using (inner bound).mp body
      · rintro ⟨notInLoop, uncaptured⟩
        have bound := outside.mpr (by_contra fun used => notInLoop used reads)
        refine ⟨trivial, trivial, ⟨trivial, ?_, trivial⟩, trivial⟩
        exact (inner bound).mpr (by simpa [Place.indices] using uncaptured)
    · have idle := resolved_of_not_reads vector_value (result_msg ++ "_array_i")
        (.index result_value "i") (("i", result_value) :: loops) True reads
      exact ⟨fun _ => ⟨fun _ => reads, idle.2⟩,
        fun _ => ⟨trivial, trivial, ⟨trivial, idle.1, trivial⟩, trivial⟩⟩
  | .struct none fields, result_msg, result_value, loops, onlyI, value
  | .union none fields, result_msg, result_value, loops, onlyI, value => by
    have inside (kind : Repeated) :=
      resolved_iff_uncaptured_fields fields kind result_msg result_value loops onlyI value
    exact ⟨fun resolved => (inside _).mp resolved.2.1,
      fun uncaptured => ⟨trivial, (inside _).mpr uncaptured, trivial⟩⟩
  | .struct (some _) fields, _, _, _, _, value | .union (some _) fields, _, _, _, _, value => by
    have inside (kind : Repeated) := resolved_iff_uncaptured_fields fields kind "result_msg"
      (.var "result_value") [] (fun _ listed => by cases listed) trivial
    simp only [Place.indices, ne_eq, not_true_eq_false] at inside
    exact ⟨fun resolved => (inside _).mp resolved.2.1.2.2.1,
      fun uncaptured => ⟨trivial, ⟨value, trivial, (inside _).mpr uncaptured, trivial⟩, trivial⟩⟩

theorem resolved_iff_uncaptured_fields : ∀ (fields : Fields) (kind : Repeated)
    (result_msg : String) (result_value : Place) (loops : List (String × Place)),
    result_value.OnlyI → result_value.Resolved loops →
    ((GenerateSetResultCodeForFields fields kind result_msg result_value).Resolved loops ↔
      fields.Uncaptured (result_value.indices ≠ []))
  | .nil, _, _, _, _, _, _ => ⟨fun _ => trivial, fun _ => trivial⟩
  | .cons name field rest, kind, result_msg, result_value, loops, onlyI, value => by
    have one := resolved_iff_uncaptured field (result_msg ++ "_" ++ name) (.dot result_value name)
      loops onlyI value
    have others := resolved_iff_uncaptured_fields rest kind result_msg result_value loops onlyI
      value
    constructor
    · rintro ⟨⟨_, first, _⟩, later⟩
      exact ⟨one.mp first, others.mp later⟩
    · rintro ⟨first, later⟩
      exact ⟨⟨trivial, one.mpr first, trivial, trivial⟩, others.mpr later⟩

end

end Vts.Vtsc
