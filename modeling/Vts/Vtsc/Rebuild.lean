import Vts.Vtsc.Driver

/-!
# What the driver rebuilds

When the emitted code gives a variable a certain value, whatever the variable held before.
Values are the same here up to what a message can carry of a handle: the number of its file
descriptors and its integers.

`rebuilds_vector`, `rebuilds_array`, `rebuilds_struct` and `rebuilds_union` reduce the question
for a type to the types it is made from. A part of the variable that no message is read for
keeps what it held; that is right only for a type with a single value.
-/

namespace Vts.Vtsc

open Vts.Lib List

/-! ## Elements and fields -/

/-- One element after another is decoded from its message, and the others are kept. -/
def ElementsDecode (decodeOne : Option Message → Value → Except Fault Value) :
    List Message → List Value → List Value → Prop
  | [], old, new => new = old
  | part :: parts, old, new => ∃ first rest result others, old = first :: rest ∧
      new = result :: others ∧ decodeOne (some part) first = .ok result ∧
      ElementsDecode decodeOne parts rest others

theorem ElementsDecode.length {decodeOne : Option Message → Value → Except Fault Value}
    {parts : List Message} {old new : List Value} (decoded : ElementsDecode decodeOne parts old new) :
    new.length = old.length ∧ parts.length ≤ old.length := by
  induction parts generalizing old new with
  | nil =>
    cases decoded
    exact ⟨rfl, Nat.zero_le _⟩
  | cons part parts ih =>
    obtain ⟨first, rest, result, others, rfl, rfl, _, further⟩ := decoded
    have lengths := ih further
    simp only [length_cons]
    omega

/-- The loop over the elements from one of them on. -/
theorem countUp_decodeAt {decodeOne : Option Message → Value → Except Fault Value}
    (before rest : List Message) (done old : List Value) {object : Value} (rounds : Nat)
    (reached : done.length = before.length) :
    countUp .indexOverflow (fun _ => .ok (((before ++ rest).length : Nat) : Int))
        (fun count => decodeAt decodeOne (.element count) (before ++ rest)[count]?)
        rounds before.length (.list (done ++ old)) = .ok object ↔
      rest.length < rounds ∧
        ∃ new, object = .list (done ++ new) ∧ ElementsDecode decodeOne rest old new := by
  induction rest generalizing before done old rounds with
  | nil =>
    cases rounds with
    | zero => simp [countUp]
    | succ rounds => simp [countUp, ElementsDecode, eq_comm]
  | cons part rest ih =>
    cases rounds with
    | zero => simp [countUp]
    | succ rounds =>
      have more : (before.length : Int) < (((before ++ part :: rest).length : Nat) : Int) := by
        rw [length_append, length_cons]
        omega
      have message : (before ++ part :: rest)[before.length]? = some part := by simp
      rw [countUp]
      simp only [more, if_true, message]
      cases old with
      | nil =>
        have missing : decodeAt decodeOne (.element before.length) (some part)
            (.list (done ++ [])) = .error .outOfRange := by
          simp [decodeAt, Value.access, reached]
        rw [missing]
        simp [ElementsDecode]
      | cons first old =>
        have there : (Value.list (done ++ first :: old)).access (.element before.length) =
            some first := by
          simp [Value.access, ← reached]
        cases decoded : decodeOne (some part) first with
        | error fault =>
          have failed : decodeAt decodeOne (.element before.length) (some part)
              (.list (done ++ first :: old)) = .error fault := by
            simp only [decodeAt, there, decoded]
          simp [failed, ElementsDecode, decoded]
        | ok result =>
          have next : decodeAt decodeOne (.element before.length) (some part)
              (.list (done ++ first :: old)) = .ok (.list ((done ++ [result]) ++ old)) := by
            simp only [decodeAt, there, decoded]
            simp [Value.assign, ← reached]
          have onward := ih (before ++ [part]) (done ++ [result]) old rounds
            (by simp [reached])
          simp only [append_assoc, singleton_append, length_append,
            length_singleton] at onward
          rw [next]
          dsimp only
          simp only [append_assoc, singleton_append, length_append]
          rw [onward]
          simp only [length_cons, Nat.succ_lt_succ_iff, ElementsDecode]
          constructor
          · rintro ⟨enough, new, rfl, further⟩
            exact ⟨enough, result :: new, rfl, first, old, result, new, rfl, rfl, decoded, further⟩
          · rintro ⟨enough, new, rfl, _, _, _, others, same, rfl, equal, further⟩
            cases same
            rw [decoded] at equal
            cases equal
            exact ⟨enough, others, rfl, further⟩

variable {message : Message} {members : List (String × Value)} {device : Device} {element : Spec}

section

variable {object : Value} {done : List (String × Value)} {name : String} {fields : Fields}

/-- What the loop over the elements does. -/
theorem decodeElements_eq_ok {decodeOne : Option Message → Value → Except Fault Value}
    {old : List Value} :
    decodeElements decodeOne message (.list old) = .ok object ↔
      message.vector_value.length < indices ∧
        ∃ new, object = .list new ∧ ElementsDecode decodeOne message.vector_value old new :=
  countUp_decodeAt [] message.vector_value [] old indices rfl

/-- One field after another is decoded from its message, or passed over. -/
def FieldsDecode (device : Device) : Fields → Bool → Repeated → Nat → Option Message →
    List (String × Value) → List (String × Value) → Prop
  | .nil, _, _, _, _, old, new => new = old
  | .cons name field rest, named, kind, index, message, old, new =>
    let part := message.bind fun message => (message.get kind)[index]?
    ∃ first others result news, old = (name, first) :: others ∧ new = (name, result) :: news ∧
      (passesOver named name part = .ok true ∧ result = first ∨
        passesOver named name part = .ok false ∧ decode device field part first = .ok result) ∧
      FieldsDecode device rest named kind (index + 1) message others news

theorem lookup_append_cons (new : ∀ member ∈ done, member.1 ≠ name) (value : Value)
    (others : List (String × Value)) :
    (done ++ (name, value) :: others).lookup name = some value := by
  induction done with
  | nil => exact lookup_cons_self
  | cons member done ih =>
    have different : (name == member.1) = false :=
      beq_eq_false_iff_ne.mpr (new member mem_cons_self).symm
    rw [cons_append, lookup_cons, different]
    exact ih fun member listed => new member (mem_cons_of_mem _ listed)

theorem setMember_append_cons (new : ∀ member ∈ done, member.1 ≠ name) (value result : Value)
    (others : List (String × Value)) :
    Value.setMember name result (done ++ (name, value) :: others) =
      done ++ (name, result) :: others := by
  induction done with
  | nil => simp [Value.setMember]
  | cons member done ih =>
    have different : name ≠ member.1 := (new member mem_cons_self).symm
    have further := ih fun member listed =>
      new member (mem_cons_of_mem _ listed)
    simp only [cons_append, Value.setMember, different, if_false, further]

theorem Fields.Hold.names : ∀ {fields : Fields} {members : List (String × Value)},
    fields.Hold members → fields.names = members.map (·.1)
  | .nil, _, hold => by
    rw [show _ = [] from hold]
    rfl
  | .cons _ _ _, _, ⟨_, _, equal, _, further⟩ => by
    rw [equal, Fields.names, further.names]
    rfl

/-- The members of a value can be found by their names. -/
theorem Fields.Hold.lookup_of_mem (hold : fields.Hold members) (distinct : fields.names.Nodup)
    {value : Value} (listed : (name, value) ∈ members) : members.lookup name = some value := by
  have names : fields.names = members.map (·.1) := hold.names
  have found := mem_iff_append.mp listed
  obtain ⟨before, after, rfl⟩ := found
  refine lookup_append_cons ?_ value after
  rintro ⟨other, _⟩ earlier rfl
  rw [names, map_append, map_cons, nodup_append] at distinct
  exact distinct.2.2 other (mem_map_of_mem earlier) other mem_cons_self rfl

/-- What the code for the fields does, from one of them on. -/
theorem decodeFields_append {device : Device} {named : Bool} {kind : Repeated}
    {message : Option Message} (fields : Fields) (distinct : fields.names.Nodup) (index : Nat)
    (done : List (String × Value)) {old : List (String × Value)} {object : Value}
    (new : ∀ member ∈ done, member.1 ∉ fields.names) (held : fields.Hold old) :
    decodeFields device fields named kind index message (.record (done ++ old)) = .ok object ↔
      ∃ result, object = .record (done ++ result) ∧
        FieldsDecode device fields named kind index message old result := by
  match fields with
  | .nil => simp [decodeFields, FieldsDecode, eq_comm]
  | .cons name field rest =>
    obtain ⟨first, others, rfl, _, further⟩ := held
    obtain ⟨fresh, distinctRest⟩ := nodup_cons.mp distinct
    have elsewhere : ∀ member ∈ done, member.1 ≠ name := by
      intro member listed
      exact ne_of_not_mem_cons (new member listed)
    have onward : ∀ value : Value,
        decodeFields device rest named kind (index + 1) message
            (.record (done ++ (name, value) :: others)) = .ok object ↔
          ∃ result, object = .record (done ++ (name, value) :: result) ∧
            FieldsDecode device rest named kind (index + 1) message others result := by
      intro value
      have newRest : ∀ member ∈ done ++ [(name, value)], member.1 ∉ rest.names := by
        intro member listed
        rcases mem_append.mp listed with old | last
        · exact not_mem_of_not_mem_cons (new member old)
        · rw [mem_singleton.mp last]
          exact fresh
      have appended := @decodeFields_append device named kind message rest distinctRest
        (index + 1) (done ++ [(name, value)]) others object newRest further
      simpa only [append_assoc, singleton_append] using appended
    generalize found : (message.bind fun message => (message.get kind)[index]?) = part
    simp only [decodeFields, FieldsDecode, found]
    cases passed : passesOver named name part with
    | error fault => simp
    | ok skipped =>
      cases skipped with
      | true =>
        dsimp only
        rw [onward first]
        constructor
        · rintro ⟨result, rfl, decoded⟩
          exact ⟨_, rfl, first, others, first, result, rfl, rfl, Or.inl ⟨rfl, rfl⟩, decoded⟩
        · rintro ⟨_, rfl, _, _, _, news, same, rfl, one, decoded⟩
          cases same
          rcases one with ⟨_, rfl⟩ | ⟨impossible, _⟩
          · exact ⟨news, rfl, decoded⟩
          · cases impossible
      | false =>
        have there := lookup_append_cons elsewhere first others
        dsimp only
        cases decoded : decode device field part first with
        | error fault =>
          simp [decodeAt, Value.access, there, decoded, Except.bind]
        | ok result =>
          simp only [decodeAt, Value.access, there, decoded, Except.bind, Value.assign,
            setMember_append_cons elsewhere]
          rw [onward result]
          constructor
          · rintro ⟨news, rfl, further⟩
            exact ⟨_, rfl, first, others, result, news, rfl, rfl, Or.inr ⟨trivial, decoded⟩, further⟩
          · rintro ⟨_, rfl, _, _, _, news, same, rfl, one, further⟩
            cases same
            rcases one with ⟨impossible, _⟩ | ⟨_, equal⟩
            · cases impossible
            · rw [decoded] at equal
              cases equal
              exact ⟨news, rfl, further⟩

/-- What the code for the fields of a struct or union does. -/
theorem decodeFields_eq_ok {named : Bool} {kind : Repeated} {message : Option Message}
    (distinct : fields.names.Nodup) {old : List (String × Value)} (held : fields.Hold old) :
    decodeFields device fields named kind 0 message (.record old) = .ok object ↔
      ∃ result, object = .record result ∧
        FieldsDecode device fields named kind 0 message old result :=
  decodeFields_append fields distinct 0 [] (fun _ listed => by cases listed) held

end

/-! ## Equal values -/

/-- Two handles are the same up to the file descriptors, which a process has of its own. -/
def sameHandle : Option NativeHandle → Option NativeHandle → Prop
  | none, none => True
  | some first, some second =>
    first.fds.length = second.fds.length ∧ first.ints = second.ints
  | _, _ => False

mutual

/-- Two values of a type are the same, up to the file descriptors of handles. -/
def Spec.Same : Spec → Value → Value → Prop
  | .vector vector_value, .list first, .list second =>
    List.Forall₂ (fun one other => vector_value.Same one other) first second
  | .array _ vector_value, .list first, .list second =>
    List.Forall₂ (fun one other => vector_value.Same one other) first second
  | .struct _ struct_value, .record first, .record second => struct_value.Same first second
  | .union _ union_value, .record first, .record second => union_value.Same first second
  | .handle, .handle first, .handle second => sameHandle first second
  | _, first, second => first = second

def Fields.Same : Fields → List (String × Value) → List (String × Value) → Prop
  | .nil, first, second => first = second
  | .cons _ field rest, first, second => ∃ name one others another news,
      first = (name, one) :: others ∧ second = (name, another) :: news ∧ field.Same one another ∧
        rest.Same others news

end

mutual

theorem Spec.Holds.same : ∀ {spec : Spec} {value : Value}, spec.Holds value → spec.Same value value
  | .scalar _, .scalar _, _ | .string, .string _, _ | .mask _, .scalar _, _
  | .enum _ _, .scalar _, _ => rfl
  | .vector _, .list _, held | .array _ _, .list _, held =>
    List.forall₂_same.mpr fun element listed => (held.2 element listed).same
  | .struct _ _, .record _, held | .union _ _, .record _, held => Fields.Hold.same held
  | .handle, .handle none, _ => trivial
  | .handle, .handle (some _), _ => ⟨rfl, rfl⟩

theorem Fields.Hold.same : ∀ {fields : Fields} {members : List (String × Value)},
    fields.Hold members → fields.Same members members
  | .nil, _, _ => rfl
  | .cons name _ _, _, ⟨value, others, equal, holds, further⟩ =>
    ⟨name, value, others, value, others, equal, equal, holds.same, further.same⟩

end

/-- The driver gives a variable of a type this value from the message, whatever it held. -/
def Rebuilds (device : Device) (spec : Spec) (message : Option Message) (value : Value) : Prop :=
  ∀ before, spec.Holds before →
    ∃ after, decode device spec message before = .ok after ∧ spec.Same value after

/-- A variable of a type that is not assigned has this value, whatever it held. -/
def Spec.Keeps (spec : Spec) (value : Value) : Prop :=
  ∀ before, spec.Holds before → spec.Same value before

/-! ## Types made from others -/

/-- Elements are rebuilt from their messages, as far as there are any. -/
def ElementsRebuilt (device : Device) (element : Spec) : List Message → List Value → Prop
  | [], values => ∀ value ∈ values, element.Keeps value
  | _ :: _, [] => False
  | part :: parts, value :: values =>
    Rebuilds device element (some part) value ∧ ElementsRebuilt device element parts values

section

variable {values : List Value} {kind : Repeated} {value : Value} {spec : Spec}
  (write : Value → Message)

theorem elementsRebuilt_iff (parts : List Message) (held : ∀ value ∈ values, element.Holds value) :
    ElementsRebuilt device element parts values ↔
      ∀ old : List Value, old.length = values.length → (∀ value ∈ old, element.Holds value) →
        ∃ new, ElementsDecode (decode device element) parts old new ∧
          List.Forall₂ (fun one other => element.Same one other) values new := by
  induction parts generalizing values with
  | nil =>
    constructor
    · intro keeps old length holdsOld
      refine ⟨old, rfl, forall₂_iff_get.mpr ⟨length.symm, ?_⟩⟩
      intro index inside insideOld
      exact keeps _ (get_mem _ _) _ (holdsOld _ (get_mem _ _))
    · intro decodes value listed before holdsBefore
      obtain ⟨_, rfl, same⟩ := decodes (List.replicate values.length before) (by simp) (by
        intro other other_listed
        rw [eq_of_mem_replicate other_listed]
        exact holdsBefore)
      obtain ⟨index, inside, rfl⟩ := getElem_of_mem listed
      have at_index := (forall₂_iff_get.mp same).2 index inside (by simpa using inside)
      simpa using at_index
  | cons part parts ih =>
    cases values with
    | nil =>
      constructor
      · exact False.elim
      · intro decodes
        obtain ⟨_, ⟨_, _, _, _, impossible, _⟩, _⟩ := decodes [] rfl (by simp)
        cases impossible
    | cons value values =>
      obtain ⟨holdsValue, holdsRest⟩ := forall_mem_cons.mp held
      rw [ElementsRebuilt, ih holdsRest]
      constructor
      · rintro ⟨rebuilds, rest⟩ old length holdsOld
        obtain ⟨first, others, rfl⟩ := exists_cons_of_length_eq_add_one length
        obtain ⟨holdsFirst, holdsOthers⟩ := forall_mem_cons.mp holdsOld
        obtain ⟨result, decoded, same⟩ := rebuilds first holdsFirst
        obtain ⟨news, decodedRest, sameRest⟩ := rest others (by simpa using length) holdsOthers
        exact ⟨result :: news, ⟨first, others, result, news, rfl, rfl, decoded, decodedRest⟩,
          .cons same sameRest⟩
      · intro decodes
        constructor
        · intro before holdsBefore
          obtain ⟨_, ⟨_, _, result, news, equal, rfl, decoded, _⟩, same⟩ :=
            decodes (before :: values) rfl (forall_mem_cons.mpr ⟨holdsBefore, holdsRest⟩)
          cases equal
          exact ⟨result, decoded, (forall₂_cons.mp same).1⟩
        · intro old length holdsOld
          obtain ⟨_, ⟨_, _, _, news, equal, rfl, _, decoded⟩, same⟩ :=
            decodes (value :: old) (by simp [length])
              (forall_mem_cons.mpr ⟨holdsValue, holdsOld⟩)
          cases equal
          exact ⟨news, decoded, (forall₂_cons.mp same).2⟩

theorem elementsRebuilt_map (values : List Value) :
    ElementsRebuilt device element (values.map write) values ↔
      ∀ value ∈ values, Rebuilds device element (some (write value)) value := by
  induction values with
  | nil => simp [ElementsRebuilt]
  | cons value values ih =>
    rw [map_cons, ElementsRebuilt, ih, forall_mem_cons]

/-- Messages for all elements of a vector, if there are not more than indices. -/
theorem elementsRebuilt_vector (values : List Value) :
    (((if values.length < indices then values else []).map write).length < indices ∧
        ((if values.length < indices then values else []).map write).length = values.length ∧
        ElementsRebuilt device element
          ((if values.length < indices then values else []).map write) values) ↔
      values.length < indices ∧ ∀ value ∈ values, Rebuilds device element (some (write value)) value := by
  by_cases small : values.length < indices
  · rw [if_pos small, elementsRebuilt_map, length_map]
    exact ⟨fun rebuilt => ⟨small, rebuilt.2.2⟩, fun rebuilt => ⟨small, rfl, rebuilt.2⟩⟩
  · rw [if_neg small]
    constructor
    · rintro ⟨_, length, _⟩
      exact absurd (length ▸ indices_pos) small
    · rintro ⟨few, _⟩
      exact absurd few small

theorem length_resized (device : Device) (element : Spec) (size : Nat) (elements : List Value) :
    (resized device element size elements).length = size := by
  rw [resized, length_append, length_take, length_replicate]
  omega

theorem resized_self (device : Device) (element : Spec) (elements : List Value) :
    resized device element elements.length elements = elements := by
  simp [resized]

theorem rebuilds_vector (typed : device.Typed) (held : (Spec.vector element).Holds (.list values)) :
    Rebuilds device (.vector element) (some message) (.list values) ↔
      message.vector_value.length < indices ∧ message.vector_value.length = values.length ∧
        ElementsRebuilt device element message.vector_value values := by
  obtain ⟨small, holds⟩ := held
  rw [elementsRebuilt_iff _ holds]
  constructor
  · intro rebuilds
    obtain ⟨_, decoded, same⟩ := rebuilds (.list values) ⟨small, holds⟩
    obtain ⟨few, new, rfl, elements⟩ := decodeElements_eq_ok.mp decoded
    have length : message.vector_value.length = values.length := by
      have lengths := elements.length
      rw [length_resized] at lengths
      have equal : values.length = new.length := List.Forall₂.length_eq same
      omega
    refine ⟨few, length, ?_⟩
    intro old oldLength holdsOld
    obtain ⟨_, decodedOld, sameOld⟩ := rebuilds (.list old) ⟨by omega, holdsOld⟩
    obtain ⟨_, news, rfl, elementsOld⟩ := decodeElements_eq_ok.mp decodedOld
    rw [length, ← oldLength, resized_self] at elementsOld
    exact ⟨news, elementsOld, sameOld⟩
  · rintro ⟨few, length, elements⟩ before holdsBefore
    cases before with
    | list old =>
      obtain ⟨_, equal, sizeNew, holdsNew⟩ := resized_elementsHold typed holdsBefore.2
        message.vector_value.length
      cases equal
      obtain ⟨new, decoded, same⟩ := elements _ (sizeNew.trans length) holdsNew
      exact ⟨.list new, decodeElements_eq_ok.mpr ⟨few, new, rfl, decoded⟩, same⟩
    | scalar _ | string _ | record _ | handle _ => exact holdsBefore.elim

theorem rebuilds_array {size : Nat} (held : (Spec.array size element).Holds (.list values)) :
    Rebuilds device (.array size element) (some message) (.list values) ↔
      message.vector_value.length < indices ∧
        ElementsRebuilt device element message.vector_value values := by
  obtain ⟨length, holds⟩ := held
  rw [elementsRebuilt_iff _ holds]
  constructor
  · intro rebuilds
    obtain ⟨_, decoded, _⟩ := rebuilds (.list values) ⟨length, holds⟩
    refine ⟨(decodeElements_eq_ok.mp decoded).1, ?_⟩
    intro old oldLength holdsOld
    obtain ⟨_, decodedOld, sameOld⟩ := rebuilds (.list old) ⟨oldLength.trans length, holdsOld⟩
    obtain ⟨_, news, rfl, elementsOld⟩ := decodeElements_eq_ok.mp decodedOld
    exact ⟨news, elementsOld, sameOld⟩
  · rintro ⟨few, elements⟩ before holdsBefore
    cases before with
    | list old =>
      obtain ⟨new, decoded, same⟩ := elements old (holdsBefore.1.trans length.symm) holdsBefore.2
      exact ⟨.list new, decodeElements_eq_ok.mpr ⟨few, new, rfl, decoded⟩, same⟩
    | scalar _ | string _ | record _ | handle _ => exact holdsBefore.elim

/-- Members are rebuilt from their messages, or keep what they held. -/
def FieldsRebuilt (device : Device) : Fields → Bool → Repeated → Nat → Option Message →
    List (String × Value) → Prop
  | .nil, _, _, _, _, _ => True
  | .cons name field rest, named, kind, index, message, members =>
    let part := message.bind fun message => (message.get kind)[index]?
    ∃ value others, members = (name, value) :: others ∧
      (passesOver named name part = .ok true ∧ field.Keeps value ∨
        passesOver named name part = .ok false ∧ Rebuilds device field part value) ∧
      FieldsRebuilt device rest named kind (index + 1) message others

/-- Members whose messages are not asked for their names are rebuilt one by one. -/
theorem fieldsRebuilt_cons {name : String} {field : Spec} {rest : Fields} {index : Nat}
    {part : Message} {others : List (String × Value)}
    (found : (message.get kind)[index]? = some part) :
    FieldsRebuilt device (.cons name field rest) false kind index (some message)
        ((name, value) :: others) ↔
      Rebuilds device field (some part) value ∧
        FieldsRebuilt device rest false kind (index + 1) (some message) others := by
  simp only [FieldsRebuilt, Option.bind_some, found]
  constructor
  · rintro ⟨_, _, equal, ⟨impossible, _⟩ | ⟨_, rebuilds⟩, others_rebuilt⟩
    · cases impossible
    · cases equal
      exact ⟨rebuilds, others_rebuilt⟩
  · rintro ⟨rebuilds, others_rebuilt⟩
    exact ⟨value, others, rfl, Or.inr ⟨rfl, rebuilds⟩, others_rebuilt⟩

theorem fieldsRebuilt_iff {device : Device} {named : Bool} {kind : Repeated}
    {message : Option Message} (fields : Fields) (index : Nat) {members : List (String × Value)}
    (held : fields.Hold members) :
    FieldsRebuilt device fields named kind index message members ↔
      ∀ old, fields.Hold old → ∃ new,
        FieldsDecode device fields named kind index message old new ∧ fields.Same members new := by
  match fields with
  | .nil =>
    cases held
    refine ⟨fun _ old holdsOld => ⟨old, rfl, holdsOld.symm⟩, fun _ => trivial⟩
  | .cons name field rest =>
    obtain ⟨value, others, rfl, holdsValue, holdsOthers⟩ := held
    have onward := @fieldsRebuilt_iff device named kind message rest (index + 1) others holdsOthers
    simp only [FieldsRebuilt, FieldsDecode]
    generalize (message.bind fun message => (message.get kind)[index]?) = part
    constructor
    · rintro ⟨_, _, equal, one, later⟩ old ⟨first, rest_old, rfl, holdsFirst, holdsRest⟩
      cases equal
      obtain ⟨news, decodedRest, sameRest⟩ := onward.mp later rest_old holdsRest
      rcases one with ⟨passed, keeps⟩ | ⟨taken, rebuilds⟩
      · exact ⟨(name, first) :: news,
          ⟨first, rest_old, first, news, rfl, rfl, Or.inl ⟨passed, rfl⟩, decodedRest⟩,
          name, value, others, first, news, rfl, rfl, keeps first holdsFirst, sameRest⟩
      · obtain ⟨result, decoded, same⟩ := rebuilds first holdsFirst
        exact ⟨(name, result) :: news,
          ⟨first, rest_old, result, news, rfl, rfl, Or.inr ⟨taken, decoded⟩, decodedRest⟩,
          name, value, others, result, news, rfl, rfl, same, sameRest⟩
    · intro decodes
      refine ⟨value, others, rfl, ?_, onward.mpr ?_⟩
      · have one : ∀ first, field.Holds first → ∃ result,
            (passesOver named name part = .ok true ∧ result = first ∨
              passesOver named name part = .ok false ∧
                decode device field part first = .ok result) ∧ field.Same value result := by
          intro first holdsFirst
          obtain ⟨_, ⟨_, _, result, _, equal, rfl, done, _⟩, _, _, _, _, _, same, sameNew, agrees, _⟩ :=
            decodes ((name, first) :: others) ⟨first, others, rfl, holdsFirst, holdsOthers⟩
          cases equal
          cases same
          cases sameNew
          exact ⟨result, done, agrees⟩
        obtain ⟨_, passed | taken, _⟩ := one value holdsValue
        · refine Or.inl ⟨passed.1, fun before holdsBefore => ?_⟩
          obtain ⟨_, ⟨_, rfl⟩ | ⟨other, _⟩, same⟩ := one before holdsBefore
          · exact same
          · rw [passed.1] at other
            cases other
        · refine Or.inr ⟨taken.1, fun before holdsBefore => ?_⟩
          obtain ⟨result, ⟨other, _⟩ | ⟨_, decoded⟩, same⟩ := one before holdsBefore
          · rw [taken.1] at other
            cases other
          · exact ⟨result, decoded, same⟩
      · intro old holdsOld
        obtain ⟨_, ⟨_, _, _, news, equal, rfl, _, decoded⟩, _, _, _, _, _, same, sameNew, _, agree⟩ :=
          decodes ((name, value) :: old) ⟨value, old, rfl, holdsValue, holdsOld⟩
        cases equal
        cases same
        cases sameNew
        exact ⟨news, decoded, agree⟩

theorem rebuilds_fields {fields : Fields} {named : Bool} {message : Option Message}
    (distinct : fields.names.Nodup) (held : fields.Hold members)
    (holds : ∀ value, spec.Holds value ↔ ∃ old, value = .record old ∧ fields.Hold old)
    (same : ∀ first second, spec.Same (.record first) (.record second) ↔ fields.Same first second)
    (decodes : ∀ old, decode device spec message (.record old) =
      decodeFields device fields named kind 0 message (.record old)) :
    Rebuilds device spec message (.record members) ↔
      FieldsRebuilt device fields named kind 0 message members := by
  rw [fieldsRebuilt_iff fields 0 held]
  constructor
  · intro rebuilds old holdsOld
    obtain ⟨_, decoded, agrees⟩ := rebuilds (.record old) ((holds _).mpr ⟨old, rfl, holdsOld⟩)
    rw [decodes, decodeFields_eq_ok distinct holdsOld] at decoded
    obtain ⟨result, rfl, further⟩ := decoded
    exact ⟨result, further, (same _ _).mp agrees⟩
  · intro fieldwise before holdsBefore
    obtain ⟨old, rfl, holdsOld⟩ := (holds before).mp holdsBefore
    obtain ⟨new, decoded, agrees⟩ := fieldwise old holdsOld
    refine ⟨.record new, ?_, (same _ _).mpr agrees⟩
    rw [decodes, decodeFields_eq_ok distinct holdsOld]
    exact ⟨new, rfl, decoded⟩

theorem Spec.holds_struct (predefined_type : Option String) (struct_value : Fields)
    (value : Value) : (Spec.struct predefined_type struct_value).Holds value ↔
      ∃ members, value = .record members ∧ struct_value.Hold members := by
  cases value <;> simp [Spec.Holds]

theorem Spec.holds_union (predefined_type : Option String) (union_value : Fields)
    (value : Value) : (Spec.union predefined_type union_value).Holds value ↔
      ∃ members, value = .record members ∧ union_value.Hold members := by
  cases value <;> simp [Spec.Holds]

theorem rebuilds_struct {predefined_type : Option String} {struct_value : Fields}
    (distinct : struct_value.names.Nodup) (held : struct_value.Hold members) :
    Rebuilds device (.struct predefined_type struct_value) (some message) (.record members) ↔
      FieldsRebuilt device struct_value false .struct_value 0 (some message) members := by
  refine rebuilds_fields distinct held (Spec.holds_struct _ _) (fun _ _ => by rw [Spec.Same]) ?_
  intro old
  cases predefined_type <;> rw [decode]

/-- The messages of the members of a predefined union are asked for their names. -/
theorem rebuilds_union {predefined_type : Option String} {union_value : Fields}
    (distinct : union_value.names.Nodup) (held : union_value.Hold members) :
    Rebuilds device (.union predefined_type union_value) (some message) (.record members) ↔
      FieldsRebuilt device union_value predefined_type.isSome .union_value 0 (some message)
        members := by
  refine rebuilds_fields distinct held (Spec.holds_union _ _) (fun _ _ => by rw [Spec.Same]) ?_
  intro old
  cases predefined_type <;> rw [decode] <;> rfl

/-- A variable that is assigned whole, whatever it held. -/
theorem rebuilds_of_decode {message : Option Message} {result : Value} (held : spec.Holds value)
    (decodes : ∀ before, decode device spec message before = .ok result) :
    Rebuilds device spec message value ↔ spec.Same value result := by
  constructor
  · intro rebuilds
    obtain ⟨_, decoded, same⟩ := rebuilds value held
    rw [decodes] at decoded
    cases decoded
    exact same
  · intro same before _
    exact ⟨result, decodes before, same⟩

theorem rebuilds_scalar {scalar_type : ScalarType} {number : Int}
    (held : spec.Holds (.scalar number)) (inRange : scalar_type.InRange number)
    (decodes : ∀ message before, decode device spec (some message) before =
      .ok (.scalar (scalar_type.convert ((message.scalar_value scalar_type).getD 0))))
    (same : spec.Same (.scalar number) (.scalar number))
    (stored : message.scalar_value scalar_type = some (scalar_type.convert number)) :
    Rebuilds device spec (some message) (.scalar number) := by
  refine (rebuilds_of_decode held (decodes message)).mpr ?_
  rw [stored, Option.getD_some, ScalarType.convert_of_inRange inRange,
    ScalarType.convert_of_inRange inRange]
  exact same

end

/-! ## Types with a single value -/

mutual

/-- A value of a type, the one without contents. -/
def Spec.default : Spec → Value
  | .scalar _ => .scalar 0
  | .string => .string []
  | .mask _ => .scalar 0
  | .enum _ _ => .scalar 0
  | .vector _ => .list []
  | .array vector_size vector_value => .list (List.replicate vector_size vector_value.default)
  | .struct _ struct_value => .record struct_value.default
  | .union _ union_value => .record union_value.default
  | .handle => .handle none

def Fields.default : Fields → List (String × Value)
  | .nil => []
  | .cons name field rest => (name, field.default) :: rest.default

end

theorem ScalarType.inRange_zero (scalar_type : ScalarType) : scalar_type.InRange 0 := by
  cases scalar_type <;> decide

mutual

theorem Spec.holds_default : ∀ spec : Spec, spec.Holds spec.default
  | .scalar scalar_type | .mask scalar_type | .enum _ scalar_type => scalar_type.inRange_zero
  | .string => trivial
  | .vector _ => ⟨by decide, by simp⟩
  | .array vector_size vector_value => by
    refine ⟨List.length_replicate, ?_⟩
    intro element listed
    rw [List.eq_of_mem_replicate listed]
    exact vector_value.holds_default
  | .struct _ fields | .union _ fields => fields.hold_default
  | .handle => trivial

theorem Fields.hold_default : ∀ fields : Fields, fields.Hold fields.default
  | .nil => rfl
  | .cons _ field rest => ⟨_, _, rfl, field.holds_default, rest.hold_default⟩

end

mutual

/-- A type has a single value. -/
def Spec.Single : Spec → Prop
  | .array vector_size vector_value => vector_size = 0 ∨ vector_value.Single
  | .struct _ struct_value => struct_value.Single
  | .union _ union_value => union_value.Single
  | _ => False

def Fields.Single : Fields → Prop
  | .nil => True
  | .cons _ field rest => field.Single ∧ rest.Single

end

mutual

theorem Spec.Single.same : ∀ {spec : Spec}, spec.Single → ∀ {first second : Value},
    spec.Holds first → spec.Holds second → spec.Same first second
  | .scalar _, single, _, _, _, _ | .string, single, _, _, _, _ | .mask _, single, _, _, _, _
  | .enum _ _, single, _, _, _, _ | .vector _, single, _, _, _, _
  | .handle, single, _, _, _, _ => single.elim
  | .array vector_size vector_value, single, .list first, .list second, holdsFirst,
      holdsSecond => by
    refine List.forall₂_iff_get.mpr ⟨holdsFirst.1.trans holdsSecond.1.symm, ?_⟩
    intro index inside insideSecond
    rcases single with empty | single
    · have none_inside : index < 0 := by
        rw [← empty, ← holdsFirst.1]
        exact inside
      cases none_inside
    · exact single.same (holdsFirst.2 _ (get_mem _ _)) (holdsSecond.2 _ (get_mem _ _))
  | .struct _ fields, single, .record first, .record second, holdsFirst, holdsSecond
  | .union _ fields, single, .record first, .record second, holdsFirst, holdsSecond =>
    Fields.Single.same single holdsFirst holdsSecond

theorem Fields.Single.same : ∀ {fields : Fields}, fields.Single →
    ∀ {first second : List (String × Value)}, fields.Hold first → fields.Hold second →
      fields.Same first second
  | .nil, _, _, _, holdsFirst, holdsSecond => holdsFirst.trans holdsSecond.symm
  | .cons name _ _, single, _, _, ⟨one, others, equal, holdsOne, holdsOthers⟩,
      ⟨another, news, equalNew, holdsAnother, holdsNews⟩ =>
    ⟨name, one, others, another, news, equal, equalNew, single.1.same holdsOne holdsAnother,
      single.2.same holdsOthers holdsNews⟩

end

theorem ScalarType.exists_other (scalar_type : ScalarType) (spec : Spec)
    (holds : ∀ number, scalar_type.InRange number → spec.Holds (.scalar number))
    (same : ∀ first second, spec.Same (.scalar first) (.scalar second) →
      Value.scalar first = .scalar second) (number : Int) :
    ∃ other, spec.Holds other ∧ ¬ spec.Same (.scalar number) other := by
  obtain ⟨another, inRange, different⟩ := scalar_type.exists_inRange_ne number
  refine ⟨.scalar another, holds another inRange, fun equal => different ?_⟩
  cases same _ _ equal
  rfl

mutual

/-- A type without a single value has another value beside each of its values. -/
theorem Spec.exists_other : ∀ {spec : Spec}, ¬ spec.Single → ∀ {value : Value},
    spec.Holds value → ∃ other, spec.Holds other ∧ ¬ spec.Same value other
  | .scalar scalar_type, _, .scalar number, _ =>
    scalar_type.exists_other (.scalar scalar_type) (fun _ inRange => inRange) (fun _ _ equal => equal) number
  | .mask scalar_type, _, .scalar number, _ =>
    scalar_type.exists_other (.mask scalar_type) (fun _ inRange => inRange) (fun _ _ equal => equal) number
  | .enum name scalar_type, _, .scalar number, _ =>
    scalar_type.exists_other (.enum name scalar_type) (fun _ inRange => inRange)
      (fun _ _ equal => equal) number
  | .string, _, .string bytes, _ => by
    refine ⟨.string (0 :: bytes), trivial, fun equal => ?_⟩
    have same : Value.string bytes = .string (0 :: bytes) := equal
    simp at same
  | .vector vector_value, _, .list elements, _ => by
    cases elements with
    | nil =>
      refine ⟨.list [vector_value.default], ⟨by simp, ?_⟩, fun same => nomatch same⟩
      intro element listed
      rw [mem_singleton.mp listed]
      exact vector_value.holds_default
    | cons first rest => exact ⟨.list [], ⟨by decide, by simp⟩, fun same => nomatch same⟩
  | .array vector_size vector_value, several, .list elements, holds => by
    obtain ⟨length, held⟩ := holds
    obtain ⟨some_element, severalElements⟩ := not_or.mp several
    obtain ⟨first, rest, rfl⟩ := exists_cons_of_ne_nil
      (ne_nil_of_length_pos (by omega : 0 < elements.length))
    obtain ⟨holdsFirst, holdsRest⟩ := forall_mem_cons.mp held
    obtain ⟨other, holdsOther, different⟩ := Spec.exists_other severalElements holdsFirst
    refine ⟨.list (other :: rest), ⟨length, forall_mem_cons.mpr ⟨holdsOther, holdsRest⟩⟩, ?_⟩
    intro same
    exact different (forall₂_cons.mp same).1
  | .struct _ fields, several, .record members, holds
  | .union _ fields, several, .record members, holds => by
    obtain ⟨other, holdsOther, different⟩ := Fields.exists_other several holds
    exact ⟨.record other, holdsOther, different⟩
  | .handle, _, .handle none, _ => ⟨.handle (some ⟨[], []⟩), trivial, id⟩
  | .handle, _, .handle (some _), _ => ⟨.handle none, trivial, id⟩

theorem Fields.exists_other : ∀ {fields : Fields}, ¬ fields.Single →
    ∀ {members : List (String × Value)}, fields.Hold members →
      ∃ other, fields.Hold other ∧ ¬ fields.Same members other
  | .nil, several, _, _ => absurd trivial several
  | .cons name field rest, several, _, ⟨value, others, rfl, holdsValue, holdsOthers⟩ => by
    by_cases single : field.Single
    · obtain ⟨other, holdsOther, different⟩ :=
        Fields.exists_other (fun singleRest => several ⟨single, singleRest⟩) holdsOthers
      refine ⟨(name, value) :: other, ⟨value, other, rfl, holdsValue, holdsOther⟩, ?_⟩
      rintro ⟨_, _, _, _, _, equal, equalNew, _, same⟩
      cases equal
      cases equalNew
      exact different same
    · obtain ⟨other, holdsOther, different⟩ := Spec.exists_other single holdsValue
      refine ⟨(name, other) :: others, ⟨other, others, rfl, holdsOther, holdsOthers⟩, ?_⟩
      rintro ⟨_, _, _, _, _, equal, equalNew, same, _⟩
      cases equal
      cases equalNew
      exact different same

end

/-- What a variable held is right only if its type has a single value. -/
theorem Spec.keeps_iff_single {spec : Spec} {value : Value} (held : spec.Holds value) :
    spec.Keeps value ↔ spec.Single := by
  constructor
  · intro keeps
    by_contra several
    obtain ⟨other, holdsOther, different⟩ := Spec.exists_other several held
    exact different (keeps other holdsOther)
  · intro single before holdsBefore
    exact single.same held holdsBefore

/-! ## Strings and new elements -/

mutual

/-- The strings of a value have no NUL in them. -/
def Spec.NulFree : Spec → Value → Prop
  | .string, .string bytes => 0 ∉ bytes
  | .vector vector_value, .list elements => ∀ element ∈ elements, vector_value.NulFree element
  | .array _ vector_value, .list elements => ∀ element ∈ elements, vector_value.NulFree element
  | .struct _ struct_value, .record members => struct_value.NulFree members
  | .union _ union_value, .record members => union_value.NulFree members
  | _, _ => True

def Fields.NulFree : Fields → List (String × Value) → Prop
  | .cons _ field rest, (_, value) :: members => field.NulFree value ∧ rest.NulFree members
  | _, _ => True

end

/-- A device on which no file has a name. -/
def Device.bare : Device where
  fresh := Spec.default
  native_handle_create := fun _ _ => true
  uninitialized := fun _ => 0
  new_hidl_handle := fun _ => 1
  hidl_handle := fun _ => none
  openFile := fun _ _ _ => -1
  openDirectory := fun _ _ => -1
  ashmem_create_region := fun _ => -1
  readlink := fun _ => none
  fstat := fun _ => (.other, 0)
  fcntl := fun _ => 0
  ashmem_get_size_region := fun _ => 0

theorem Device.bare_typed : Device.bare.Typed := Spec.holds_default

end Vts.Vtsc
