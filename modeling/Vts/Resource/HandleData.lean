import Vts.Resource.Manager

/-!
# The integers of a file handle

The operation `HANDLE_PROTO_CREATE_FILE` of `VtsResourceManager::ProcessHidlHandleCommand` with
`VtsHidlHandleDriver::CreateFileHandle`, down to what is written into the vector for the integers
and into the data of the native handle.

The vector has as many elements as `write_data` has bytes, and is filled from `int_val`. Proved
here: for which requests no write goes beyond the vector and the handle has the integers of
`int_val`; and that `createFile` does what is done here.
-/

namespace Vts.Resource

open List

/-- A `vector<int>`: its elements, and what was written after its end, with the positions. -/
structure IntVector where
  elements : List Int
  beyond : List (Nat × Int)
deriving DecidableEq

namespace IntVector

def write (vector : IntVector) (position : Nat) (item : Int) : IntVector :=
  if position < vector.elements.length then
    { vector with elements := vector.elements.set position item }
  else { vector with beyond := vector.beyond ++ [(position, item)] }

/-- `transform` with the function that returns its argument, from a position on. The end of the
vector is not checked. -/
def transform (vector : IntVector) : Nat → List Int → IntVector
  | _, [] => vector
  | position, item :: rest => (vector.write position item).transform (position + 1) rest

theorem beyond_ne_nil_transform {vector : IntVector} (written : vector.beyond ≠ [])
    (position : Nat) (source : List Int) : (vector.transform position source).beyond ≠ [] := by
  induction source generalizing vector position with
  | nil => exact written
  | cons item rest ih =>
    refine ih ?_ (position + 1)
    unfold write
    split
    · exact written
    · exact append_ne_nil_of_right_ne_nil _ (cons_ne_nil _ _)

/-- Items that fit replace the elements at their positions. -/
theorem transform_of_fits (front old rest source : List Int) (fits : old.length = source.length) :
    (IntVector.mk (front ++ (old ++ rest)) []).transform front.length source =
      ⟨front ++ (source ++ rest), []⟩ := by
  induction source generalizing front old with
  | nil =>
    obtain rfl := eq_nil_of_length_eq_zero fits
    rfl
  | cons item items ih =>
    obtain _ | ⟨first, others⟩ := old
    · cases fits
    · have inside : front.length < (front ++ (first :: others ++ rest)).length := by
        simp
      have written : (IntVector.mk (front ++ (first :: others ++ rest)) []).write front.length item =
          ⟨(front ++ [item]) ++ (others ++ rest), []⟩ := by
        rw [write, if_pos inside]
        simp
      have later := ih (front ++ [item]) others (Nat.succ.inj fits)
      rw [length_append, length_singleton] at later
      rw [transform, written, later]
      simp

/-- Items that do not fit are written beyond the vector. -/
theorem transform_of_longer (vector : IntVector) (position : Nat) (source : List Int)
    (inside : position ≤ vector.elements.length)
    (longer : vector.elements.length < position + source.length) :
    (vector.transform position source).beyond ≠ [] := by
  induction source generalizing vector position with
  | nil => exact absurd longer (Nat.not_lt.mpr inside)
  | cons item rest ih =>
    rw [length_cons] at longer
    by_cases room : position < vector.elements.length
    · have written : vector.write position item =
          { vector with elements := vector.elements.set position item } := if_pos room
      refine ih _ _ ?_ ?_
      · rw [written, length_set]
        exact room
      · rw [written, length_set]
        omega
    · have written : vector.write position item =
          { vector with beyond := vector.beyond ++ [(position, item)] } := if_neg room
      refine beyond_ne_nil_transform ?_ _ rest
      rw [written]
      exact append_ne_nil_of_right_ne_nil _ (cons_ne_nil _ _)

end IntVector

/-! ## The native handle -/

/-- `native_handle_t`. The data are the file descriptors and then the integers. -/
structure NativeHandle where
  numFds : Nat
  numInts : Nat
  data : List Int
deriving DecidableEq

namespace VtsHidlHandleDriver

/-- The loop of `CreateFileHandle` over the positions of the data, with the data that are filled. -/
def fillData (curr_fd : Int) (num_fds : Nat) (ints : List Int) :
    List Nat → List Int → Option (List Int)
  | [], data => some data
  | i :: rest, data =>
    if i < num_fds then
      if curr_fd = -1 then none else fillData curr_fd num_fds ints rest (data ++ [curr_fd])
    else fillData curr_fd num_fds ints rest (data ++ [ints.getD (i - num_fds) 0])

/-- The native handle that `CreateFileHandle` makes. -/
def nativeHandle (device : Device) (filepath : String) (flag : List OpenFlag) (mode : Nat)
    (data : List Int) : Option NativeHandle :=
  let num_fds := 1
  let num_ints := data.length
  if !device.native_handle_create num_fds num_ints then none
  else
    (fillData (device.openFile filepath flag mode) num_fds data (List.range (num_fds + num_ints))
      []).map fun filled => ⟨num_fds, num_ints, filled⟩

/-- The rounds for integers append them. -/
theorem fillData_ints (curr_fd : Int) (front ints filled : List Int) :
    fillData curr_fd 1 (front ++ ints) (List.range' (1 + front.length) ints.length) filled =
      some (filled ++ ints) := by
  induction ints generalizing front filled with
  | nil => simp [fillData]
  | cons item rest ih =>
    have later := ih (front ++ [item]) (filled ++ [item])
    have notFd : ¬ 1 + front.length < 1 := by omega
    have next : (front ++ item :: rest).getD (1 + front.length - 1) 0 = item := by
      simp
    rw [append_assoc, singleton_append, append_assoc, singleton_append,
      length_append, length_singleton, ← Nat.add_assoc] at later
    rw [length_cons, List.range'_succ, fillData, if_neg notFd, next]
    exact later

/-- A handle that is made has the descriptor of the file, and then the integers. -/
theorem nativeHandle_eq (device : Device) (filepath : String) (flag : List OpenFlag) (mode : Nat)
    (data : List Int) : nativeHandle device filepath flag mode data =
      if device.native_handle_create 1 data.length = false ∨
        device.openFile filepath flag mode = -1 then none
      else some ⟨1, data.length, device.openFile filepath flag mode :: data⟩ := by
  have positions : List.range (1 + data.length) = 0 :: List.range' 1 data.length := by
    rw [range_eq_range', Nat.add_comm, List.range'_succ]
  have ints := fillData_ints (device.openFile filepath flag mode) [] data
    [device.openFile filepath flag mode]
  unfold nativeHandle
  simp only [positions]
  cases made : device.native_handle_create 1 data.length with
  | false => simp
  | true =>
    by_cases failed : device.openFile filepath flag mode = -1
    · simp [fillData, failed]
    · simpa [fillData, failed] using ints

end VtsHidlHandleDriver

/-! ## The request -/

/-- The file, flags and mode of a request that is not refused before the vector is made. -/
def HidlHandleRequestMessage.opening (request : HidlHandleRequestMessage) (device : Device) :
    Option (String × List OpenFlag × Nat) :=
  match request.fd_val with
  | [] => none
  | file_desc_info :: _ =>
    if !file_desc_info.isFile then none
    else
      (openFlags device file_desc_info.file_name file_desc_info.file_mode_str).map
        fun (flag, mode) => (file_desc_info.file_name, flag, mode)

/-- The vector that is filled from the integers of a request. -/
def HidlHandleRequestMessage.int_data (request : HidlHandleRequestMessage) : IntVector :=
  (IntVector.mk (List.replicate request.write_data.length 0) []).transform 0 request.int_val

/-- The vector and the native handle that are made for a request. -/
def handleData (device : Device) (request : HidlHandleRequestMessage) :
    Option (IntVector × Option NativeHandle) :=
  match request.opening device with
  | none => none
  | some (filepath, flag, mode) =>
    some (request.int_data, VtsHidlHandleDriver.nativeHandle device filepath flag mode
      request.int_data.elements)

section

variable (request : HidlHandleRequestMessage)
  (fits : request.int_val.length ≤ request.write_data.length)
include fits

/-- The vector of a request with enough room. -/
theorem int_data_of_fits :
    request.int_data = ⟨request.int_val ++
      List.replicate (request.write_data.length - request.int_val.length) 0, []⟩ := by
  have split : List.replicate request.write_data.length (0 : Int) =
      List.replicate request.int_val.length 0 ++
        List.replicate (request.write_data.length - request.int_val.length) 0 := by
    rw [replicate_append_replicate, Nat.add_sub_cancel' fits]
  rw [HidlHandleRequestMessage.int_data, split]
  exact IntVector.transform_of_fits [] _ _ _ length_replicate

theorem length_padded :
    (request.int_val ++ List.replicate (request.write_data.length - request.int_val.length)
      (0 : Int)).length = request.write_data.length := by
  rw [length_append, length_replicate, Nat.add_sub_cancel' fits]

end

theorem int_data_beyond_iff (request : HidlHandleRequestMessage) :
    request.int_data.beyond = [] ↔ request.int_val.length ≤ request.write_data.length := by
  constructor
  · intro inside
    by_contra longer
    refine IntVector.transform_of_longer _ 0 request.int_val (Nat.zero_le _) ?_ inside
    rw [length_replicate, Nat.zero_add]
    exact Nat.lt_of_not_le longer
  · intro fits
    rw [int_data_of_fits request fits]

/-! ## When the integers are passed through -/

/-- No write goes beyond the vector, and a handle that is made has one file descriptor and then the
integers of the request. -/
def PassesIntegers (device : Device) (request : HidlHandleRequestMessage) : Prop :=
  ∀ int_data native_handle, handleData device request = some (int_data, native_handle) →
    int_data.beyond = [] ∧ ∀ native, native_handle = some native →
      native.numFds = 1 ∧ native.numInts = request.int_val.length ∧
        ∃ fd, native.data = fd :: request.int_val

/-- The integers are passed through exactly when the request is refused before, when it has as many
bytes to write as integers, or when it has more of them and no handle can be made. -/
theorem handleData_passes_iff (device : Device) (request : HidlHandleRequestMessage) :
    PassesIntegers device request ↔
      ∀ filepath flag mode, request.opening device = some (filepath, flag, mode) →
        request.int_val.length = request.write_data.length ∨
        (request.int_val.length < request.write_data.length ∧
          (device.native_handle_create 1 request.write_data.length = false ∨
            device.openFile filepath flag mode = -1)) := by
  unfold PassesIntegers handleData
  cases request.opening device with
  | none => simp
  | some opening =>
    obtain ⟨filepath, flag, mode⟩ := opening
    simp only [Option.some.injEq, Prod.mk.injEq, and_imp, forall_apply_eq_imp_iff, forall_eq',
      int_data_beyond_iff, VtsHidlHandleDriver.nativeHandle_eq]
    constructor
    · rintro ⟨fits, passed⟩ _ _ _ rfl rfl rfl
      simp only [int_data_of_fits request fits, length_padded request fits] at passed
      by_cases failed : device.native_handle_create 1 request.write_data.length = false ∨
          device.openFile filepath flag mode = -1
      · exact (Nat.eq_or_lt_of_le fits).imp_right fun fewer => ⟨fewer, failed⟩
      · rw [if_neg failed] at passed
        obtain ⟨-, numInts, -⟩ := passed _ rfl
        exact .inl numInts.symm
    · intro allowed
      have here := allowed filepath flag mode rfl rfl rfl
      have fits : request.int_val.length ≤ request.write_data.length := by omega
      refine ⟨fits, fun native made => ?_⟩
      simp only [int_data_of_fits request fits, length_padded request fits] at made
      by_cases failed : device.native_handle_create 1 request.write_data.length = false ∨
          device.openFile filepath flag mode = -1
      · rw [if_pos failed] at made
        cases made
      · rw [if_neg failed] at made
        obtain rfl := Option.some.inj made
        have same : request.int_val.length = request.write_data.length :=
          here.resolve_right fun other => failed other.2
        refine ⟨rfl, same.symm, device.openFile filepath flag mode, ?_⟩
        simp [same]

/-- A request for a handle with one integer, as the host makes it. -/
def oneInteger : HidlHandleRequestMessage :=
  ⟨.HANDLE_PROTO_CREATE_FILE, -1, [⟨true, "/data/local/tmp/test.txt", "w+"⟩], [7], 0, []⟩

/-- The integer is written beyond the vector. -/
theorem handleData_passes_oneInteger :
    oneInteger.int_data.beyond = [(0, 7)] ∧ ¬ PassesIntegers .plain oneInteger := by
  refine ⟨by decide, fun passes => ?_⟩
  have inside := (passes oneInteger.int_data _ rfl).1
  exact absurd inside (by decide)

end Vts.Resource
