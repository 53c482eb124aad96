import Mathlib.Data.List.Nodup
import Mathlib.Data.List.TakeWhile
import Vts.Vtsc.Emitted

/-!
# Blocks of code that writes a message

Rules for `WriteCode`. `Declares` says which names a piece of code declares in its block and
when it compiles there. `Does` says what a piece of code does to the message that a variable
points to: it changes that message by a function, and leaves all variables with names that are
not longer. Code for a part of a message works on a variable whose name is made longer, so the
rules for a new part, a loop and a call follow the way in which messages are built.
-/

namespace Vts.Vtsc

open List hiding replace

open Vts.Lib Children

/-! ## Reading parts of a value -/

variable {index_name : String} {code : WriteCode} {new : List String}

section

variable {loops : List (String × Nat)} {object : Value} {place : Place}

theorem readPlace_eq_ok {value : Value} (read : readPlace loops object place = .ok value) :
    ∃ path, place.path loops = some path ∧ getAt object path = some value := by
  unfold readPlace at read
  cases there : place.path loops with
  | none =>
    rw [there] at read
    cases read
  | some path =>
    rw [there] at read
    cases found : getAt object path with
    | none =>
      simp only [found] at read
      cases read
    | some present =>
      simp only [found] at read
      cases read
      exact ⟨path, rfl, found⟩

theorem readPlace_index {elements : List Value} {element : Value} {count : Nat}
    (unused : index_name ∉ place.indices)
    (read : readPlace loops object place = .ok (.list elements))
    (reached : elements[count]? = some element) :
    readPlace ((index_name, count) :: loops) object (.index place index_name) = .ok element := by
  obtain ⟨path, there, found⟩ := readPlace_eq_ok read
  have child_eq : getAt object (path ++ [.element count]) = some element :=
    (getAt_concat found _).trans reached
  simp only [readPlace, Place.path_index unused there, child_eq]

theorem readPlace_cons (unused : index_name ∉ place.indices) (count : Nat) :
    readPlace ((index_name, count) :: loops) object place = readPlace loops object place := by
  unfold readPlace
  rw [Place.path_cons unused]

theorem readPlace_dot {members : List (String × Value)} {name : String} {value : Value}
    (read : readPlace loops object place = .ok (.record members))
    (member : members.lookup name = some value) :
    readPlace loops object (.dot place name) = .ok value := by
  obtain ⟨path, there, found⟩ := readPlace_eq_ok read
  have child_eq : getAt object (path ++ [.member name]) = some value :=
    (getAt_concat found _).trans member
  simp only [readPlace, Place.path, there, Option.map_some, child_eq]

end

theorem c_str_of_not_mem {bytes : List UInt8} (nulFree : 0 ∉ bytes) : c_str bytes = bytes := by
  refine takeWhile_eq_self_iff.mpr ?_
  intro byte listed
  refine decide_eq_true ?_
  rintro rfl
  exact nulFree listed

/-! ## Lengths of names -/

theorem length_lt_append (first : String) {second : String} (long : 0 < second.length) :
    first.length < (first ++ second).length := by
  rw [String.length_append]
  omega

theorem length_lt_append_right {short second : String} (first : String)
    (long : short.length < second.length) : short.length < (first ++ second).length := by
  rw [String.length_append]
  omega

/-- The name of the variable for a member is longer than that of the whole. -/
theorem length_lt_member (first second : String) :
    first.length < (first ++ "_" ++ second).length := by
  have underscore : "_".length = 1 := rfl
  rw [String.length_append, String.length_append]
  omega

/-- The message with a scalar in it. -/
def Message.setScalar (message : Message) (type : VariableType) (scalar_type : ScalarType)
    (number : Int) : Message :=
  { message with
    type := some type
    scalar_type := some scalar_type
    scalar_value := fun other =>
      if other = scalar_type then some (scalar_type.convert number)
      else message.scalar_value other }

namespace WriteCode

/-- Statements one after another. -/
def block : List WriteCode → WriteCode
  | [] => skip
  | first :: rest => seq first (block rest)

/-! ## Declarations -/

/-- The code declares these names in a block, and compiles there if they are new and a
condition on the blocks inside holds. -/
def Declares (code : WriteCode) (new : List String) (inside : Prop) : Prop :=
  ∀ names result, code.scope names = some result ↔
    (inside ∧ new.Nodup ∧ ∀ name ∈ new, name ∉ names) ∧ result = new.reverse ++ names

theorem Declares.nothing (same : ∀ names, code.scope names = some names) :
    code.Declares [] True := by
  intro names result
  rw [same]
  constructor
  · rintro ⟨⟩
    exact ⟨⟨trivial, nodup_nil, by simp⟩, rfl⟩
  · rintro ⟨_, rfl⟩
    rfl

theorem Declares.single {name : String}
    (declares : ∀ names, code.scope names = if name ∈ names then none else some (name :: names)) :
    code.Declares [name] True := by
  intro names result
  rw [declares]
  by_cases old : name ∈ names
  · simp [old]
  · simp [old, eq_comm]

theorem Declares.seq {first second : WriteCode} {firstNew secondNew : List String}
    {firstInside secondInside : Prop} (declaresFirst : first.Declares firstNew firstInside)
    (declaresSecond : second.Declares secondNew secondInside) :
    (seq first second).Declares (firstNew ++ secondNew) (firstInside ∧ secondInside) := by
  intro names result
  have split : (WriteCode.seq first second).scope names = some result ↔
      ∃ middle, first.scope names = some middle ∧ second.scope middle = some result := by
    rw [scope]
    cases first.scope names with
    | none => simp
    | some middle => simp
  rw [split]
  constructor
  · rintro ⟨middle, one, two⟩
    obtain ⟨⟨insideFirst, nodupFirst, newFirst⟩, rfl⟩ := (declaresFirst names middle).mp one
    obtain ⟨⟨insideSecond, nodupSecond, newSecond⟩, rfl⟩ := (declaresSecond _ result).mp two
    refine ⟨⟨⟨insideFirst, insideSecond⟩, ?_, ?_⟩, by simp⟩
    · refine nodup_append.mpr ⟨nodupFirst, nodupSecond, ?_⟩
      rintro name inFirst other inSecond rfl
      exact newSecond name inSecond (by simp [inFirst])
    · intro name listed
      rcases mem_append.mp listed with inFirst | inSecond
      · exact newFirst name inFirst
      · exact fun old => newSecond name inSecond (by simp [old])
  · rintro ⟨⟨⟨insideFirst, insideSecond⟩, nodup, new⟩, rfl⟩
    obtain ⟨nodupFirst, nodupSecond, apart⟩ := nodup_append.mp nodup
    refine ⟨firstNew.reverse ++ names, (declaresFirst names _).mpr ⟨⟨insideFirst, nodupFirst, ?_⟩,
      rfl⟩, (declaresSecond _ _).mpr ⟨⟨insideSecond, nodupSecond, ?_⟩, by simp⟩⟩
    · intro name inFirst
      exact new name (mem_append_left _ inFirst)
    · intro name inSecond old
      rcases mem_append.mp old with inFirst | before
      · exact apart name (mem_reverse.mp inFirst) name inSecond rfl
      · exact new name (mem_append_right _ inSecond) before

theorem Declares.skip : WriteCode.skip.Declares [] True := Declares.nothing fun _ => rfl

/-- A statement that declares nothing. -/
theorem Declares.after {first second : WriteCode} {inside : Prop}
    (same : ∀ names, first.scope names = some names) (declares : second.Declares new inside) :
    (WriteCode.seq first second).Declares new inside := by
  have both := (Declares.nothing same).seq declares
  rwa [nil_append, true_and] at both

/-- The last statement of a block. -/
theorem Declares.last {code : WriteCode} {new : List String} {inside : Prop}
    (declares : code.Declares new inside) :
    (WriteCode.seq code WriteCode.skip).Declares new inside := by
  have both := declares.seq Declares.skip
  rwa [append_nil, and_true] at both

/-- The code compiles in a block that has none of its names. -/
theorem Declares.isSome_scope_iff {outer : List String} {inside : Prop}
    (declares : code.Declares new inside) (apart : ∀ name ∈ new, name ∉ outer) :
    (code.scope outer).isSome = true ↔ new.Nodup ∧ inside := by
  rw [Option.isSome_iff_exists]
  constructor
  · rintro ⟨result, some_result⟩
    obtain ⟨⟨holds, nodup, _⟩, _⟩ := (declares outer result).mp some_result
    exact ⟨nodup, holds⟩
  · rintro ⟨nodup, holds⟩
    exact ⟨_, (declares outer _).mpr ⟨⟨holds, nodup, apart⟩, rfl⟩⟩

/-- Names that are longer than the only one of a block are new in it. -/
theorem not_mem_singleton_of_longer {new : List String} {old : String}
    (longer : ∀ name ∈ new, old.length < name.length) : ∀ name ∈ new, name ∉ [old] := by
  intro name listed same
  have shorter := longer name listed
  rw [mem_singleton.mp same] at shorter
  exact Nat.lt_irrefl _ shorter

/-- A block of its own, in a loop or a function. -/
theorem Declares.inner {body : WriteCode} {inside : Prop} (declares : body.Declares new inside)
    (outer : List String)
    (checked : ∀ names, code.scope names = if (body.scope outer).isSome then some names else none)
    (apart : ∀ name ∈ new, name ∉ outer) : code.Declares [] (new.Nodup ∧ inside) := by
  have compiles := declares.isSome_scope_iff apart
  intro names result
  rw [checked]
  by_cases good : (body.scope outer).isSome = true
  · simp [good, compiles.mp good, eq_comm]
  · have bad : ¬ (new.Nodup ∧ inside) := fun holds => good (compiles.mpr holds)
    simp [good, bad]

theorem Declares.congr {other : List String} {inside condition : Prop}
    (declares : code.Declares new inside) (same : new = other) (equal : inside ↔ condition) :
    code.Declares other condition := by
  subst same
  intro names result
  rw [declares names result, equal]

/-- The block of a loop: the message variable of the element, and the code for it. -/
theorem Declares.loop {body : WriteCode} {index_name element msg : String} {new : List String}
    {inside : Prop} (short : index_name.length < element.length)
    (longer : ∀ name ∈ new, element.length < name.length)
    (declares : body.Declares new inside) (place : Place) (bound : Bound) :
    (WriteCode.loop index_name place bound (.block [.add element msg .vector_value, body])).Declares
      [] (new.Nodup ∧ inside) := by
  have added : (WriteCode.add element msg .vector_value).Declares [element] True :=
    Declares.single fun _ => rfl
  refine ((added.seq declares.last).inner [index_name] (fun _ => rfl) ?_).congr rfl ?_
  · intro name listed same
    obtain rfl := mem_singleton.mp same
    rcases mem_cons.mp listed with rfl | later
    · exact Nat.lt_irrefl _ short
    · exact Nat.lt_irrefl _ (Nat.lt_trans short (longer _ later))
  · have apart : element ∉ new := fun listed => Nat.lt_irrefl _ (longer element listed)
    rw [singleton_append, nodup_cons, true_and]
    exact ⟨fun both => ⟨both.1.2, both.2⟩, fun both => ⟨⟨apart, both.1⟩, both.2⟩⟩

/-! ## Changes of a message -/

/-- The code changes the message that a variable points to by a function, and no variable with
a name that is not longer. -/
def Does (device : Device) (loops : List (String × Nat)) (object : Value) (code : WriteCode)
    (msg : String) (f : Message → Message) : Prop :=
  ∀ (state : State) (path : List (Repeated × Nat)) (message : Message),
    state.pointers.lookup msg = some path → getAt state.root path = some message →
    ∃ pointers, code.run device loops object state = .ok ⟨pointers, putAt state.root path (f message)⟩ ∧
      ∀ name : String, name.length ≤ msg.length →
        pointers.lookup name = state.pointers.lookup name

section

variable {device : Device} {loops : List (String × Nat)} {object : Value} {msg : String}

theorem Does.skip : Does device loops object skip msg id := by
  intro state path message pointer there
  refine ⟨state.pointers, ?_, fun _ _ => rfl⟩
  rw [run, id, putAt_getAt there]

theorem Does.seq {first second : WriteCode} {f g : Message → Message}
    (doesFirst : Does device loops object first msg f)
    (doesSecond : Does device loops object second msg g) :
    Does device loops object (seq first second) msg (g ∘ f) := by
  intro state path message pointer there
  obtain ⟨between, ranFirst, keptFirst⟩ := doesFirst state path message pointer there
  obtain ⟨pointers, ranSecond, keptSecond⟩ := doesSecond ⟨between, putAt state.root path (f message)⟩
    path (f message) ((keptFirst msg (Nat.le_refl _)).trans pointer) (getAt_putAt there _)
  refine ⟨pointers, ?_, ?_⟩
  · rw [run_seq ranFirst, ranSecond, putAt_putAt there]
    rfl
  · intro name short
    exact (keptSecond name short).trans (keptFirst name short)

theorem Does.of_change {f : Message → Message}
    (changes : ∀ state, code.run device loops object state = change msg f state) :
    Does device loops object code msg f := by
  intro state path message pointer there
  refine ⟨state.pointers, ?_, fun _ _ => rfl⟩
  rw [changes]
  simp only [change, pointer, there]

/-- A new part of the message, and code for it. -/
theorem Does.part {name : String} {kind : Repeated} {f : Message → Message}
    (longer : msg.length < name.length) (does : Does device loops object code name f) :
    Does device loops object (.seq (.add name msg kind) code) msg
      (fun message => message.add kind (f .empty)) := by
  intro state path message pointer there
  have new : getAt (putAt state.root path (message.add kind .empty))
      (path ++ [(kind, (message.get kind).length)]) = some Message.empty := by
    rw [getAt_concat (getAt_putAt there _)]
    simp [child, Message.add]
  obtain ⟨pointers, ran, kept⟩ := does
    ⟨(name, path ++ [(kind, (message.get kind).length)]) :: state.pointers,
      putAt state.root path (message.add kind .empty)⟩ _ _ lookup_cons_self new
  refine ⟨pointers, ?_, ?_⟩
  · have found : child (message.add kind .empty) (kind, (message.get kind).length) =
        some Message.empty := by simp [child, Message.add]
    rw [run, run, pointer]
    simp only [there]
    rw [ran, putAt_concat (getAt_putAt there _) found, putAt_putAt there]
    simp [replace, Message.add]
  · intro other short
    have different : (other == name) = false := by
      refine beq_eq_false_iff_ne.mpr ?_
      rintro rfl
      omega
    rw [kept other (by omega), lookup_cons, different]

/-- A message after some rounds of a loop. -/
def rounds (f : Nat → Message → Message) : Nat → Message → Message
  | 0, message => message
  | count + 1, message => f count (rounds f count message)

theorem Does.loop {body : WriteCode} {index_name : String} {place : Place} {bound : Bound}
    {f : Nat → Message → Message} {number : Nat}
    (bounded : ∀ count, count ≤ number →
      limit ((index_name, count) :: loops) object bound = .ok (number : Int))
    (small : number < indices)
    (round : ∀ count, count < number → Does device ((index_name, count) :: loops) object body msg (f count)) :
    Does device loops object (.loop index_name place bound body) msg (rounds f number) := by
  intro state path message pointer there
  refine ⟨state.pointers, ?_, fun _ _ => rfl⟩
  have started : state = ⟨state.pointers, putAt state.root path (rounds f 0 message)⟩ := by
    rw [rounds, putAt_getAt there]
  rw [run]
  conv_lhs => rw [started]
  refine countUp_run (fun count => (⟨state.pointers, putAt state.root path (rounds f count message)⟩ : State))
    bounded ?_ (Nat.zero_le _) (by omega)
  intro count inside
  obtain ⟨pointers, ran, _⟩ := round count inside
    ⟨state.pointers, putAt state.root path (rounds f count message)⟩ path _ pointer
    (getAt_putAt there _)
  rw [ran, putAt_putAt there]
  rfl

/-- A call of a function whose body changes its message. -/
theorem Does.call {body : WriteCode} {func_name parameter : String} {value : Place}
    {argument : Value} {f : Message → Message}
    (read : readPlace loops object value = .ok argument)
    (does : Does device [] argument body parameter f) :
    Does device loops object (.call func_name msg value parameter body) msg f := by
  intro state path message pointer there
  refine ⟨state.pointers, ?_, fun _ _ => rfl⟩
  obtain ⟨pointers, ran, _⟩ := does ⟨[(parameter, [])], message⟩ [] message
    lookup_cons_self rfl
  simp only [run, read, pointer, there, ran, putAt_nil]

/-- A loop whose bound is not positive. -/
theorem Does.loop_none {body : WriteCode} {place : Place} {bound : Bound} {number : Int}
    (bounded : limit ((index_name, 0) :: loops) object bound = .ok number) (empty : number ≤ 0) :
    Does device loops object (.loop index_name place bound body) msg id := by
  intro state path message pointer there
  refine ⟨state.pointers, ?_, fun _ _ => rfl⟩
  rw [run, id, putAt_getAt there]
  exact countUp_none bounded empty _ _

theorem Does.congr {f g : Message → Message} (does : Does device loops object code msg f)
    (same : ∀ message, f message = g message) : Does device loops object code msg g :=
  (funext same : f = g) ▸ does

theorem Does.set_type (type : VariableType) :
    Does device loops object (.set_type msg type) msg
      (fun message => { message with type := some type }) :=
  .of_change fun _ => rfl

theorem Does.set_scalar_type (scalar_type : ScalarType) :
    Does device loops object (.set_scalar_type msg scalar_type) msg
      (fun message => { message with scalar_type := some scalar_type }) :=
  .of_change fun _ => rfl

theorem Does.set_scalar_value {place : Place} {number : Int}
    (read : readPlace loops object place = .ok (.scalar number)) (scalar_type : ScalarType) :
    Does device loops object (.set_scalar_value msg scalar_type place) msg
      (fun message => { message with
        scalar_value := fun other =>
          if other = scalar_type then some (scalar_type.convert number)
          else message.scalar_value other }) :=
  .of_change fun _ => by simp only [run, read]

theorem Does.set_string_value {place : Place} {bytes : List UInt8}
    (read : readPlace loops object place = .ok (.string bytes)) :
    Does device loops object (.set_string_value msg place) msg
      (fun message => { message with
        string_message := some (c_str bytes), string_length := some bytes.length }) :=
  .of_change fun _ => by simp only [run, read]

theorem Does.set_vector_size {place : Place} {elements : List Value}
    (read : readPlace loops object place = .ok (.list elements)) :
    Does device loops object (.set_vector_size msg (.size place)) msg
      (fun message => { message with vector_size := some elements.length }) :=
  .of_change fun _ => by simp only [run, read]

theorem Does.set_handle_value {place : Place} {native : Option NativeHandle}
    (read : readPlace loops object place = .ok (.handle native)) (handle_name : String) :
    Does device loops object (.set_handle_value msg handle_name place) msg
      (fun message => { message with handle_value := some (recordHandle device native) }) :=
  .of_change fun _ => by simp only [run, read]

theorem Does.set_constant_size (number : Nat) :
    Does device loops object (.set_vector_size msg (.constant number)) msg
      (fun message => { message with vector_size := some number }) :=
  .of_change fun _ => rfl

theorem Does.set_scalar {place : Place} {number : Int}
    (read : readPlace loops object place = .ok (.scalar number)) (type : VariableType)
    (scalar_type : ScalarType) :
    Does device loops object (.block [.set_type msg type, .set_scalar_type msg scalar_type,
      .set_scalar_value msg scalar_type place]) msg
      (fun message => message.setScalar type scalar_type number) :=
  ((set_type type).seq ((set_scalar_type scalar_type).seq
    ((set_scalar_value read scalar_type).seq .skip))).congr fun _ => rfl

end

/-! ## Elements of vectors and arrays -/

/-- A loop that adds a message for each of the first elements. -/
theorem rounds_add (kind : Repeated) (write : Value → Message) (elements : List Value)
    (message : Message) {number : Nat} (inside : number ≤ elements.length) :
    rounds (fun count message =>
        message.add kind ((elements[count]?.map write).getD .empty)) number message =
      message.set kind (message.get kind ++ (elements.take number).map write) := by
  induction number with
  | zero => simp [rounds]
  | succ number ih =>
    have reached : elements[number]? = some elements[number] := List.getElem?_eq_getElem inside
    rw [rounds, ih (Nat.le_of_succ_le inside), take_add_one,
      reached, Message.add, Message.get_set, Message.set_set, Option.map_some, Option.getD_some,
      Option.toList_some, map_append, append_assoc]
    rfl

theorem convert_length {length : Nat} (small : length < 2 ^ 32) :
    ScalarType.int32_t.convert length = if length < indices then (length : Int)
      else (length : Int) - 2 ^ 32 := by
  have least : ScalarType.int32_t.least = -2 ^ 31 := rfl
  have size : ScalarType.int32_t.size = 2 ^ 32 := rfl
  unfold ScalarType.convert indices
  rw [least, size]
  split <;> omega

section

variable {device : Device} {loops : List (String × Nat)} {object : Value} {msg : String}

/-- A loop that adds a message for each of the first elements. -/
theorem Does.elements {body : WriteCode} {name index_name : String} {place : Place}
    {bound : Bound} {elements : List Value} {f : Value → Message → Message} {number : Nat}
    (longer : msg.length < name.length)
    (bounded : ∀ count, limit ((index_name, count) :: loops) object bound = .ok (number : Int))
    (small : number < indices) (inside : number ≤ elements.length)
    (round : ∀ count element, elements[count]? = some element →
      Does device ((index_name, count) :: loops) object body name (f element)) :
    Does device loops object
      (.loop index_name place bound (.block [.add name msg .vector_value, body])) msg
      (fun message => { message with
        vector_value := message.vector_value ++
          (elements.take number).map fun element => f element .empty }) := by
  have looped : Does device loops object
      (.loop index_name place bound (.block [.add name msg .vector_value, body])) msg
      (rounds (fun count message => message.add .vector_value
        ((elements[count]?.map fun element => f element .empty).getD .empty)) number) := by
    refine .loop (fun count _ => bounded count) small ?_
    intro count few
    have reached : elements[count]? = some elements[count] :=
      List.getElem?_eq_getElem (by omega)
    refine ((round count _ reached).seq .skip |>.part longer).congr ?_
    intro message
    rw [reached]
    rfl
  exact looped.congr fun message => rounds_add .vector_value _ elements message inside

/-- The loop over all elements of a vector. The bound is converted to `int`: it is not positive
for a vector with more elements than there are indices. -/
theorem Does.vector_elements {body : WriteCode} {name : String} {place : Place}
    {elements : List Value} {f : Value → Message → Message} (longer : msg.length < name.length)
    (unused : index_name ∉ place.indices)
    (read : readPlace loops object place = .ok (.list elements)) (few : elements.length < 2 ^ 32)
    (round : ∀ count element, elements[count]? = some element →
      Does device ((index_name, count) :: loops) object body name (f element)) :
    Does device loops object
      (.loop index_name place (.size place) (.block [.add name msg .vector_value, body])) msg
      (fun message => { message with
        vector_value := message.vector_value ++
          (if elements.length < indices then elements else []).map fun element =>
            f element .empty }) := by
  have bound : ∀ count, limit ((index_name, count) :: loops) object (.size place) =
      .ok (ScalarType.int32_t.convert elements.length) := by
    intro count
    simp only [limit, readPlace_cons unused, read]
  have converted := convert_length few
  by_cases small : elements.length < indices
  · rw [if_pos small] at converted
    refine (Does.elements longer (fun count => (bound count).trans (by rw [converted])) small
      (Nat.le_refl _) round).congr ?_
    intro message
    rw [if_pos small, take_length]
  · rw [if_neg small] at converted
    refine (Does.loop_none (bound 0) (by omega)).congr ?_
    intro message
    cases message
    simp [small]

end

end WriteCode

end Vts.Vtsc
