import Mathlib.Data.Bool.AllAny
import Mathlib.Data.List.Range
import Vts.Python.Text

/-!
# Governors of CPUs

`CpuFrequencyScalingController` in `utils/python/cpu/cpu_frequency_scaling.py`: the governors of all
CPUs are changed to `performance` while tests run and changed back afterwards.

The device has the text of its file of present CPUs and a governor for each of them. A command may
fail: then it has no effect, and its output is empty. A governor is a plain word, for which the
shell writes what `echo` is given. The reading of frequencies is left out.
-/

namespace Vts.Runner.CpuFrequency

open List Nat

open Vts.Python (Text isSpace rstrip split parseInt decimal)

/-- The exceptions of the calls. -/
inductive PyError where
  | TestFailure
  | IndexError
  | ValueError
deriving DecidableEq

structure Device where
  present : Text
  governor : Nat → Text

/-- Which commands fail during one call: the reading of the present CPUs, and for each CPU the
reading and the writing of its governor. -/
structure Faults where
  present : Bool
  reads : Nat → Bool
  writes : Nat → Bool

structure CpuFrequencyScalingController where
  init : Bool
  min_cpu_number : Nat
  max_cpu_number : Nat
  perf_override : Bool
  saved_governors : Option (List Text)
deriving DecidableEq

/-- The controller and the device. -/
structure World where
  self : CpuFrequencyScalingController
  device : Device

/-- What the shell answers. -/
structure CommandResults where
  EXIT_CODE : List Nat
  STDOUT : List Text

/-! ## The shell -/

def Device.readPresent (device : Device) (faults : Faults) : CommandResults :=
  if faults.present then ⟨[1], [[]]⟩ else ⟨[0], [device.present]⟩

/-- `cat /sys/devices/system/cpu/cpuX/cpufreq/scaling_governor` for all CPUs. -/
def Device.readGovernors (device : Device) (faults : Faults) (cpus : List Nat) : CommandResults where
  EXIT_CODE := cpus.map fun cpu_no => if faults.reads cpu_no then 1 else 0
  STDOUT := cpus.map fun cpu_no => if faults.reads cpu_no then [] else device.governor cpu_no ++ [10]

/-- The device after `echo mode > .../scaling_governor` for each of the modes and CPUs. -/
def Device.writeGovernors (device : Device) (faults : Faults) : List (Text × Nat) → Device
  | [] => device
  | (mode, cpu_no) :: commands =>
    let device :=
      if faults.writes cpu_no then device
      else { device with governor := fun other => if other = cpu_no then mode else device.governor other }
    device.writeGovernors faults commands

/-- The answer to these commands. -/
def writeResults (faults : Faults) (commands : List (Text × Nat)) : CommandResults where
  EXIT_CODE := commands.map fun command => if faults.writes command.2 then 1 else 0
  STDOUT := commands.map fun _ => []

/-! ## The controller -/

/-- A piece between minus signs has no sign. -/
def int (piece : Text) : Except PyError Nat :=
  match parseInt piece with
  | some value => .ok value.toNat
  | none => .error .ValueError

/-- `_LoadMinAndMaxCpuNo`. -/
def LoadMinAndMaxCpuNo (results : CommandResults) : Except PyError (Nat × Nat) :=
  match results.STDOUT with
  | [output] =>
    match split [45] ((split [10] output).headD []) with
    | [low] => do return (← int low, (← int low) + 1)
    | [low, high] => do return (← int low, (← int high) + 1)
    | _ => .error .TestFailure
  | _ => .error .TestFailure

def Init (faults : Faults) (world : World) : Except PyError World :=
  if world.self.init then .ok world
  else do
    let (low, high) ← LoadMinAndMaxCpuNo (world.device.readPresent faults)
    return { world with self := ⟨true, low, high, false, none⟩ }

/-- `range(self._min_cpu_number, self._max_cpu_number)`. -/
def CpuFrequencyScalingController.cpus (self : CpuFrequencyScalingController) : List Nat :=
  List.range' self.min_cpu_number (self.max_cpu_number - self.min_cpu_number)

/-- The items of a list at the numbers of the CPUs, a number out of range being an `IndexError`. -/
def itemsAt (items : List Text) (cpus : List Nat) : Except PyError (List Text) :=
  cpus.mapM fun cpu_no =>
    match items[cpu_no]? with
    | some item => .ok item
    | none => .error .IndexError

/-- `ChangeCpuGovernor` behind its call of `Init`. -/
def changeGovernors (faults : Faults) (modes : List Text) (world : World) :
    Except PyError (Option (List Text)) × World :=
  let self := world.self
  let count := self.max_cpu_number - self.min_cpu_number
  if count ≠ modes.length then (.error .TestFailure, world)
  else
    let results := world.device.readGovernors faults self.cpus
    if count ≠ results.STDOUT.length then (.error .TestFailure, world)
    else if results.EXIT_CODE.any (· ≠ 0) then (.ok none, world)
    else match itemsAt results.STDOUT self.cpus with
      | .error error => (.error error, world)
      | .ok outputs =>
        let prev_govs := outputs.map rstrip
        match itemsAt modes self.cpus with
        | .error error => (.error error, world)
        | .ok modes =>
          let commands := modes.zip self.cpus
          let world := { world with device := world.device.writeGovernors faults commands }
          let results := writeResults faults commands
          if count ≠ results.STDOUT.length then (.error .TestFailure, world)
          else if results.EXIT_CODE.any (· ≠ 0) then (.ok none, world)
          else (.ok (some prev_govs), world)

def ChangeCpuGovernor (faults : Faults) (modes : List Text) (world : World) :
    Except PyError (Option (List Text)) × World :=
  match Init faults world with
  | .error error => (.error error, world)
  | .ok world => changeGovernors faults modes world

def performance : Text := [112, 101, 114, 102, 111, 114, 109, 97, 110, 99, 101]

def DisableCpuScaling (faults : Faults) (world : World) : Except PyError Unit × World :=
  match Init faults world with
  | .error error => (.error error, world)
  | .ok world =>
    if world.self.perf_override then (.ok (), world)
    else
      let new_govs := world.self.cpus.map fun _ => performance
      match ChangeCpuGovernor faults new_govs world with
      | (.error error, world) => (.error error, world)
      | (.ok none, world) => (.ok (), world)
      | (.ok (some prev_govs), world) =>
        (.ok (), { world with
          self := { world.self with saved_governors := some prev_govs, perf_override := true } })

def EnableCpuScaling (faults : Faults) (world : World) : Except PyError Unit × World :=
  match Init faults world with
  | .error error => (.error error, world)
  | .ok world =>
    if !world.self.perf_override then (.ok (), world)
    else match world.self.saved_governors with
      | none => (.ok (), world)
      | some saved_governors =>
        match ChangeCpuGovernor faults saved_governors world with
        | (.error error, world) => (.error error, world)
        | (.ok _, world) =>
          (.ok (), { world with self := { world.self with perf_override := false } })

/-- `CpuFrequencyScalingController(dut)` for a device. -/
def World.new (device : Device) : World := ⟨⟨false, 0, 0, false, none⟩, device⟩

/-! ## Runs -/

/-- The file of present CPUs of a device with the CPUs from `low` to `high`. -/
def presentText (low high : Nat) : Text :=
  if low = high then decimal low ++ [10] else decimal low ++ 45 :: decimal high ++ [10]

/-- The world after some calls of `EnableCpuScaling`. -/
def afterEnables (world : World) (calls : List Faults) : World :=
  calls.foldl (fun world faults => (EnableCpuScaling faults world).2) world

/-- The saved governors are there for an attempt to restore them. -/
def World.Available (world : World) (governors : List Text) : Prop :=
  world.self.perf_override = true ∧ world.self.saved_governors = some governors

/-- A governor cannot be read or written during a call. -/
def Faults.Fails (faults : Faults) (low high : Nat) : Prop :=
  ∃ cpu_no, low ≤ cpu_no ∧ cpu_no ≤ high ∧ (faults.reads cpu_no ∨ faults.writes cpu_no)

/-- No command of a call fails. -/
def Faults.Succeeds (faults : Faults) (low high : Nat) : Prop :=
  faults.present = false ∧ ¬ faults.Fails low high

def Faults.none : Faults := ⟨false, fun _ => false, fun _ => false⟩

section

variable {items : List Text} {start left : Nat} (low high : Nat)

theorem Faults.none_succeeds : Faults.none.Succeeds low high := by
  refine ⟨rfl, ?_⟩
  rintro ⟨cpu_no, -, -, fails | fails⟩
  · cases fails
  · cases fails

/-- The governors that the CPUs had before `DisableCpuScaling` are back after the calls of
`EnableCpuScaling`; a call that fails keeps the saved governors; and no index is out of range. -/
structure Restores (device : Device) (low high : Nat) (disable : Faults) (calls : List Faults) :
    Prop where
  restored : ∀ cpu_no, low ≤ cpu_no → cpu_no ≤ high →
    (afterEnables (DisableCpuScaling disable (.new device)).2 calls).device.governor cpu_no =
      device.governor cpu_no
  kept : ∀ before faults after, calls = before ++ faults :: after → ∀ governors,
    (afterEnables (DisableCpuScaling disable (.new device)).2 before).Available governors →
      faults.Fails low high →
        (EnableCpuScaling faults
          (afterEnables (DisableCpuScaling disable (.new device)).2 before)).2.Available governors
  disableInRange : (DisableCpuScaling disable (.new device)).1 ≠ .error .IndexError
  enableInRange : ∀ before faults after, calls = before ++ faults :: after →
    (EnableCpuScaling faults
      (afterEnables (DisableCpuScaling disable (.new device)).2 before)).1 ≠ .error .IndexError

/-! ## Reading the range -/

theorem int_decimal (value : Nat) : int (decimal value) = .ok value := by
  rw [int, Python.parseInt_decimal]
  rfl

theorem not_mem_decimal {byte : UInt8} (noDigit : Python.isDigit byte = false) (value : Nat) :
    byte ∉ decimal value := by
  intro listed
  have digit := Python.isDigit_of_mem_decimal listed
  rw [noDigit] at digit
  cases digit

theorem LoadMinAndMaxCpuNo_present :
    LoadMinAndMaxCpuNo ⟨[0], [presentText low high]⟩ = .ok (low, high + 1) := by
  have lowLine : 10 ∉ decimal low := not_mem_decimal (by decide) low
  have highLine : 10 ∉ decimal high := not_mem_decimal (by decide) high
  have lowPiece : 45 ∉ decimal low := not_mem_decimal (by decide) low
  have highPiece : 45 ∉ decimal high := not_mem_decimal (by decide) high
  rw [LoadMinAndMaxCpuNo, presentText]
  dsimp only
  by_cases single : low = high
  · subst single
    rw [if_pos rfl, Python.split_append_byte, Python.split_of_not_mem lowLine,
      singleton_append, headD_cons, Python.split_of_not_mem lowPiece]
    dsimp only
    rw [int_decimal]
    rfl
  · have oneLine : 10 ∉ decimal low ++ 45 :: decimal high := by
      simp [lowLine, highLine]
    rw [if_neg single, Python.split_append_byte, Python.split_of_not_mem oneLine,
      singleton_append, headD_cons, Python.split_append_byte,
      Python.split_of_not_mem lowPiece, Python.split_of_not_mem highPiece]
    dsimp only [singleton_append]
    rw [int_decimal, int_decimal]
    rfl

/-- The controller once it knows the CPUs, before a governor is changed. -/
def configured (low high : Nat) : CpuFrequencyScalingController := ⟨true, low, high + 1, false, none⟩

theorem Init_new {device : Device} {low high : Nat} (present : device.present = presentText low high)
    (faults : Faults) :
    Init faults (.new device) =
      if faults.present then .error .ValueError else .ok ⟨configured low high, device⟩ := by
  rw [Init, World.new, Device.readPresent, present]
  by_cases fails : faults.present
  · rw [if_pos fails, if_pos fails]
    rfl
  · rw [if_neg fails, if_neg fails]
    dsimp only
    rw [LoadMinAndMaxCpuNo_present]
    rfl

/-- A controller that is initialised stays as it is. -/
theorem Init_of_init {world : World} (done : world.self.init = true) (faults : Faults) :
    Init faults world = .ok world := by
  rw [Init, if_pos done]

/-! ## Changing all governors -/

theorem itemsAt_inside (inside : start + left = items.length) :
    itemsAt items (List.range' start left) = .ok (items.drop start) := by
  induction left generalizing start with
  | zero =>
    rw [drop_eq_nil_of_le (by omega)]
    rfl
  | succ left ih =>
    have present : start < items.length := by omega
    have rest := @ih (start + 1) (by omega)
    rw [itemsAt] at rest
    rw [itemsAt, List.range'_succ, mapM_cons, List.getElem?_eq_getElem present, rest,
      drop_eq_getElem_cons present]
    rfl

theorem itemsAt_beyond (some_item : 0 < left) (beyond : items.length < start + left) :
    itemsAt items (List.range' start left) = .error .IndexError := by
  induction left generalizing start with
  | zero => exact absurd some_item (lt_irrefl 0)
  | succ left ih =>
    rw [itemsAt, List.range'_succ, mapM_cons]
    by_cases present : start < items.length
    · have rest := @ih (start + 1) (by omega) (by omega)
      rw [itemsAt] at rest
      rw [List.getElem?_eq_getElem present, rest]
      rfl
    · rw [List.getElem?_eq_none (by omega)]
      rfl

end

/-- The device with modes of a table for the CPUs whose governor can be written. -/
def Device.written (device : Device) (faults : Faults) (cpus : List Nat) (mode : Nat → Text) :
    Device where
  present := device.present
  governor := fun cpu_no =>
    if cpu_no ∈ cpus ∧ faults.writes cpu_no = false then mode cpu_no else device.governor cpu_no

theorem writeGovernors_map (faults : Faults) (mode : Nat → Text) (cpus : List Nat)
    (device : Device) :
    device.writeGovernors faults (cpus.map fun cpu_no => (mode cpu_no, cpu_no)) =
      device.written faults cpus mode := by
  induction cpus generalizing device with
  | nil => simp [Device.writeGovernors, Device.written]
  | cons first cpus ih =>
    rw [map_cons, Device.writeGovernors, ih, Device.written, Device.written]
    obtain ⟨present, governor⟩ := device
    cases fails : faults.writes first with
    | true =>
      rw [if_pos rfl]
      congr 1
      funext cpu_no
      by_cases same : cpu_no = first
      · subst same
        simp [fails]
      · simp [same]
    | false =>
      rw [if_neg (by simp)]
      congr 1
      funext cpu_no
      by_cases same : cpu_no = first
      · subst same
        simp [fails]
      · simp [same]

theorem zip_map_self (mode : Nat → Text) (cpus : List Nat) :
    (cpus.map mode).zip cpus = cpus.map fun cpu_no => (mode cpu_no, cpu_no) := by
  induction cpus with
  | nil => rfl
  | cons first cpus ih =>
    rw [map_cons, zip_cons_cons, ih, map_cons]

/-- The codes of commands are zero exactly if none fails. -/
theorem exitCodes_any (fails : Nat → Bool) (cpus : List Nat) :
    ((cpus.map fun cpu_no => if fails cpu_no then 1 else 0).any fun code => decide (code ≠ 0)) =
      cpus.any fails := by
  rw [any_map]
  congr 1
  funext cpu_no
  rw [Function.comp_apply]
  cases fails cpu_no <;> rfl

/-- What a change to the modes of a table does, on a device with the CPUs from `low` to `high`. -/
theorem changeGovernors_spec {self : CpuFrequencyScalingController} {device : Device}
    {low high : Nat} (ordered : low ≤ high) (fromLow : self.min_cpu_number = low)
    (toHigh : self.max_cpu_number = high + 1) (faults : Faults) (mode : Nat → Text) :
    changeGovernors faults (self.cpus.map mode) ⟨self, device⟩ =
      if self.cpus.any faults.reads then (.ok none, ⟨self, device⟩)
      else if 0 < low then (.error .IndexError, ⟨self, device⟩)
      else if self.cpus.any faults.writes then
        (.ok none, ⟨self, device.written faults self.cpus mode⟩)
      else (.ok (some (self.cpus.map fun cpu_no => rstrip (device.governor cpu_no ++ [10]))),
        ⟨self, device.written faults self.cpus mode⟩) := by
  have cpus : self.cpus = List.range' low (high + 1 - low) := by
    rw [CpuFrequencyScalingController.cpus, fromLow, toHigh]
  have count : self.max_cpu_number - self.min_cpu_number = self.cpus.length := by
    rw [CpuFrequencyScalingController.cpus, length_range']
  have modes : ¬ self.max_cpu_number - self.min_cpu_number ≠ (self.cpus.map mode).length := by
    rw [count, length_map]
    exact not_not_intro rfl
  have answers : ¬ self.max_cpu_number - self.min_cpu_number ≠
      (device.readGovernors faults self.cpus).STDOUT.length := by
    rw [count, Device.readGovernors, length_map]
    exact not_not_intro rfl
  have readCodes : ((device.readGovernors faults self.cpus).EXIT_CODE.any
      fun code => decide (code ≠ 0)) = self.cpus.any faults.reads :=
    exitCodes_any faults.reads self.cpus
  rw [changeGovernors]
  dsimp only
  rw [if_neg modes, if_neg answers, readCodes]
  by_cases readFails : self.cpus.any faults.reads
  · rw [if_pos readFails, if_pos readFails]
  · rw [if_neg readFails, if_neg readFails]
    by_cases positive : 0 < low
    · have beyond : itemsAt (device.readGovernors faults self.cpus).STDOUT self.cpus =
          .error .IndexError := by
        rw [Device.readGovernors, cpus]
        exact itemsAt_beyond (by omega) (by simp; omega)
      rw [beyond, if_pos positive]
    · obtain rfl : low = 0 := by omega
      have start (items : List Text) (counted : items.length = self.cpus.length) :
          itemsAt items self.cpus = .ok items := by
        rw [cpus, itemsAt_inside (by rw [counted, cpus]; simp), drop_zero]
      have outputs : (device.readGovernors faults self.cpus).STDOUT.map rstrip =
          self.cpus.map fun cpu_no => rstrip (device.governor cpu_no ++ [10]) := by
        rw [Device.readGovernors, map_map]
        apply map_congr_left
        intro cpu_no listed
        have works : ¬ faults.reads cpu_no := fun fails =>
          readFails (any_eq_true.mpr ⟨cpu_no, listed, fails⟩)
        rw [Function.comp_apply, if_neg works]
      have echoes : ¬ self.max_cpu_number - self.min_cpu_number ≠
          (writeResults faults (self.cpus.map fun cpu_no => (mode cpu_no, cpu_no))).STDOUT.length := by
        rw [count, writeResults, length_map, length_map]
        exact not_not_intro rfl
      have writeCodes : ((writeResults faults
          (self.cpus.map fun cpu_no => (mode cpu_no, cpu_no))).EXIT_CODE.any
            fun code => decide (code ≠ 0)) = self.cpus.any faults.writes := by
        rw [writeResults, map_map]
        exact exitCodes_any faults.writes self.cpus
      have answered : (device.readGovernors faults self.cpus).STDOUT.length = self.cpus.length :=
        length_map _
      rw [start _ answered, start _ (length_map _), if_neg positive]
      dsimp only
      rw [zip_map_self, if_neg echoes, writeCodes, writeGovernors_map, outputs]

/-! ## The calls -/

/-- A governor is a plain word. -/
def Word (governor : Text) : Prop := governor ≠ [] ∧ ∀ byte ∈ governor, isSpace byte = false

theorem Word.rstrip_line {governor : Text} (word : Word governor) :
    rstrip (governor ++ [10]) = governor := by
  rw [rstrip, rdropWhile_concat_pos _ _ _ (by decide), rdropWhile_eq_self_iff]
  intro present last
  rw [word.2 _ (getLast_mem present)] at last
  cases last

theorem mem_cpus {low high cpu_no : Nat} (ordered : low ≤ high) :
    cpu_no ∈ (configured low high).cpus ↔ low ≤ cpu_no ∧ cpu_no ≤ high := by
  rw [CpuFrequencyScalingController.cpus, mem_range'_1]
  dsimp only [configured]
  omega

section Calls

variable {device : Device} {low high : Nat} {faults : Faults}

/-- Without the numbers of the CPUs nothing is done. -/
theorem DisableCpuScaling_present (present : device.present = presentText low high)
    (fails : faults.present) :
    DisableCpuScaling faults (.new device) = (.error .ValueError, .new device) := by
  rw [DisableCpuScaling, Init_new present, if_pos fails]

theorem DisableCpuScaling_present_works (present : device.present = presentText low high)
    (works : ¬ faults.present) :
    DisableCpuScaling faults (.new device) =
      (match changeGovernors faults ((configured low high).cpus.map fun _ => performance)
        ⟨configured low high, device⟩ with
      | (.error error, world) => (.error error, world)
      | (.ok none, world) => (.ok (), world)
      | (.ok (some prev_govs), world) =>
        (.ok (), { world with
          self := { world.self with saved_governors := some prev_govs, perf_override := true } })) := by
  rw [DisableCpuScaling, Init_new present, if_neg works]
  dsimp only
  rw [ChangeCpuGovernor, Init_of_init rfl]
  rfl

section

variable (ordered : low ≤ high) (present : device.present = presentText low high)
  (works : ¬ faults.present)
include ordered present works

/-- A governor that cannot be read leaves all of them. -/
theorem DisableCpuScaling_read_fails (fails : (configured low high).cpus.any faults.reads) :
    DisableCpuScaling faults (.new device) = (.ok (), ⟨configured low high, device⟩) := by
  rw [DisableCpuScaling_present_works present works, changeGovernors_spec ordered rfl rfl,
    if_pos fails]

/-- CPUs that are not numbered from 0 are out of the range of the lists. -/
theorem DisableCpuScaling_shifted (reads : ¬ (configured low high).cpus.any faults.reads)
    (shifted : 0 < low) :
    DisableCpuScaling faults (.new device) =
      (.error .IndexError, ⟨configured low high, device⟩) := by
  rw [DisableCpuScaling_present_works present works, changeGovernors_spec ordered rfl rfl,
    if_neg reads, if_pos shifted]

end

/-- A governor that cannot be written leaves the others changed and nothing saved. -/
theorem DisableCpuScaling_write_fails (present : device.present = presentText 0 high)
    (works : ¬ faults.present)
    (reads : ¬ (configured 0 high).cpus.any faults.reads)
    (fails : (configured 0 high).cpus.any faults.writes) :
    DisableCpuScaling faults (.new device) = (.ok (), ⟨configured 0 high,
      device.written faults (configured 0 high).cpus fun _ => performance⟩) := by
  rw [DisableCpuScaling_present_works present works,
    changeGovernors_spec (zero_le high) rfl rfl, if_neg reads, if_neg (lt_irrefl 0),
    if_pos fails]

/-- The controller while the governors are changed. -/
def overriding (high : Nat) (device : Device) : CpuFrequencyScalingController :=
  ⟨true, 0, high + 1, true, some ((configured 0 high).cpus.map device.governor)⟩

/-- The device with `performance` for all CPUs. -/
def Device.overridden (device : Device) (high : Nat) : Device :=
  ⟨device.present, fun cpu_no => if cpu_no ≤ high then performance else device.governor cpu_no⟩

theorem DisableCpuScaling_succeeds (present : device.present = presentText 0 high)
    (words : ∀ cpu_no ≤ high, Word (device.governor cpu_no)) (works : ¬ faults.present)
    (reads : ¬ (configured 0 high).cpus.any faults.reads)
    (writes : ¬ (configured 0 high).cpus.any faults.writes) :
    DisableCpuScaling faults (.new device) =
      (.ok (), ⟨overriding high device, device.overridden high⟩) := by
  have saved : ((configured 0 high).cpus.map fun cpu_no =>
      rstrip (device.governor cpu_no ++ [10])) = (configured 0 high).cpus.map device.governor := by
    apply map_congr_left
    intro cpu_no listed
    exact (words cpu_no ((mem_cpus (zero_le high)).mp listed).2).rstrip_line
  have written : device.written faults (configured 0 high).cpus (fun _ => performance) =
      device.overridden high := by
    rw [Device.written, Device.overridden]
    congr 1
    funext cpu_no
    by_cases inRange : cpu_no ≤ high
    · have listed : cpu_no ∈ (configured 0 high).cpus :=
        (mem_cpus (zero_le high)).mpr ⟨zero_le _, inRange⟩
      have works : faults.writes cpu_no = false :=
        Bool.eq_false_iff.mpr fun fails => writes (any_eq_true.mpr ⟨cpu_no, listed, fails⟩)
      rw [if_pos ⟨listed, works⟩, if_pos inRange]
    · have unlisted : cpu_no ∉ (configured 0 high).cpus := fun listed =>
        inRange ((mem_cpus (zero_le high)).mp listed).2
      rw [if_neg (fun both => unlisted both.1), if_neg inRange]
  rw [DisableCpuScaling_present_works present works,
    changeGovernors_spec (zero_le high) rfl rfl, if_neg reads, if_neg (lt_irrefl 0),
    if_neg writes, saved, written]
  rfl

/-! ## Enabling -/

/-- Nothing is saved for an attempt, whether the controller is initialised or not. -/
def World.Idle (world : World) : Prop := world.self.perf_override = false

theorem int_ne_indexError (piece : Text) : int piece ≠ .error .IndexError := by
  rw [int]
  cases parseInt piece <;> simp

theorem LoadMinAndMaxCpuNo_ne_indexError (results : CommandResults) :
    LoadMinAndMaxCpuNo results ≠ .error .IndexError := by
  have twice (first second : Text) : (do return ((← int first), (← int second) + 1) :
      Except PyError (Nat × Nat)) ≠ .error .IndexError := by
    have firstRead := int_ne_indexError first
    have secondRead := int_ne_indexError second
    cases low : int first with
    | error error => simpa [low, bind, Except.bind] using firstRead
    | ok value =>
      cases high : int second with
      | error error => simpa [high, bind, Except.bind] using secondRead
      | ok value => simp [bind, Except.bind, pure, Except.pure]
  rw [LoadMinAndMaxCpuNo]
  split
  · split
    · exact twice _ _
    · exact twice _ _
    · simp
  · simp

/-- A controller that has nothing to restore leaves the device alone. -/
theorem EnableCpuScaling_idle {world : World} (idle : world.Idle) (faults : Faults) :
    (EnableCpuScaling faults world).2.device = world.device ∧
      (EnableCpuScaling faults world).2.Idle ∧
        (EnableCpuScaling faults world).1 ≠ .error .IndexError := by
  obtain ⟨⟨init, min_cpu_number, max_cpu_number, perf_override, saved_governors⟩, device⟩ := world
  obtain rfl : perf_override = false := idle
  rw [EnableCpuScaling, Init]
  cases init with
  | true => exact ⟨rfl, rfl, by simp⟩
  | false =>
    rw [if_neg (by simp)]
    have loaded := LoadMinAndMaxCpuNo_ne_indexError (device.readPresent faults)
    cases numbers : LoadMinAndMaxCpuNo (device.readPresent faults) with
    | error error =>
      rw [numbers] at loaded
      exact ⟨rfl, rfl, fun same => loaded (by cases same; rfl)⟩
    | ok numbers => exact ⟨rfl, rfl, by simp [bind, Except.bind, pure, Except.pure]⟩

/-- So do many calls. -/
theorem afterEnables_idle {world : World} (idle : world.Idle) (calls : List Faults) :
    (afterEnables world calls).device = world.device ∧ (afterEnables world calls).Idle := by
  induction calls generalizing world with
  | nil => exact ⟨rfl, idle⟩
  | cons first calls ih =>
    obtain ⟨unchanged, stays, -⟩ := EnableCpuScaling_idle idle first
    obtain ⟨later, last⟩ := ih stays
    exact ⟨later.trans unchanged, last⟩

/-- The modes of the saved governors are those of the device before. -/
theorem EnableCpuScaling_overriding (faults : Faults) :
    EnableCpuScaling faults ⟨overriding high device, device.overridden high⟩ =
      (match changeGovernors faults ((configured 0 high).cpus.map device.governor)
        ⟨overriding high device, device.overridden high⟩ with
      | (.error error, world) => (.error error, world)
      | (.ok _, world) => (.ok (), { world with self := { world.self with perf_override := false } })) := by
  rw [EnableCpuScaling, Init_of_init rfl]
  rfl

/-- The first call ends the override, whether it succeeds or not. -/
theorem EnableCpuScaling_first (faults : Faults) :
    (EnableCpuScaling faults ⟨overriding high device, device.overridden high⟩).1 = .ok () ∧
      (EnableCpuScaling faults ⟨overriding high device, device.overridden high⟩).2.Idle := by
  rw [EnableCpuScaling_overriding]
  have spec := @changeGovernors_spec (overriding high device) (device.overridden high) 0 high
    (zero_le high) rfl rfl faults device.governor
  rw [show (overriding high device).cpus = (configured 0 high).cpus from rfl,
    if_neg (lt_irrefl 0)] at spec
  rw [spec]
  split_ifs <;> exact ⟨rfl, rfl⟩

/-- If it succeeds, the governors are back. -/
theorem EnableCpuScaling_restores {cpu_no : Nat} (inRange : cpu_no ≤ high)
    (works : ¬ faults.Fails 0 high) :
    (EnableCpuScaling faults ⟨overriding high device, device.overridden high⟩).2.device.governor
      cpu_no = device.governor cpu_no := by
  have noFault (other : Nat) (listed : other ∈ (configured 0 high).cpus) :
      ¬ faults.reads other ∧ ¬ faults.writes other := by
    obtain ⟨fromLow, toHigh⟩ := (mem_cpus (zero_le high)).mp listed
    exact ⟨fun fails => works ⟨other, fromLow, toHigh, .inl fails⟩,
      fun fails => works ⟨other, fromLow, toHigh, .inr fails⟩⟩
  have reads : ¬ (configured 0 high).cpus.any faults.reads := by
    rw [any_eq_true]
    rintro ⟨other, listed, fails⟩
    exact (noFault other listed).1 fails
  have writes : ¬ (configured 0 high).cpus.any faults.writes := by
    rw [any_eq_true]
    rintro ⟨other, listed, fails⟩
    exact (noFault other listed).2 fails
  have spec := @changeGovernors_spec (overriding high device) (device.overridden high) 0 high
    (zero_le high) rfl rfl faults device.governor
  rw [show (overriding high device).cpus = (configured 0 high).cpus from rfl,
    if_neg reads, if_neg (lt_irrefl 0), if_neg writes] at spec
  have listed : cpu_no ∈ (configured 0 high).cpus :=
    (mem_cpus (zero_le high)).mpr ⟨zero_le _, inRange⟩
  have written : faults.writes cpu_no = false := Bool.eq_false_iff.mpr (noFault cpu_no listed).2
  rw [EnableCpuScaling_overriding, spec]
  dsimp only [Device.written]
  rw [if_pos ⟨listed, written⟩]

end Calls

/-! ## Whole runs -/

/-- When the governors come back: `DisableCpuScaling` did not get to change one; or the CPUs are
numbered from 0, where it changed only some of the governors these were `performance` before, and
where it changed all of them the first call of `EnableCpuScaling` succeeds. -/
def Restorable (device : Device) (low high : Nat) (disable first : Faults) : Prop :=
  disable.present = true ∨ (∃ cpu_no, low ≤ cpu_no ∧ cpu_no ≤ high ∧ disable.reads cpu_no) ∨
    (low = 0 ∧
      ((∃ cpu_no ≤ high, disable.writes cpu_no) →
        ∀ cpu_no ≤ high, disable.writes cpu_no ∨ device.governor cpu_no = performance) ∧
      ((¬ ∃ cpu_no ≤ high, disable.writes cpu_no) → ¬ first.Fails low high))

section Runs

variable {device : Device} {low high : Nat} {disable : Faults}

/-- Where `DisableCpuScaling` saves nothing, the governors stay as it left them. -/
theorem restores_iff_of_idle {outcome : Except PyError Unit} {world : World} {calls : List Faults}
    (disabled : DisableCpuScaling disable (.new device) = (outcome, world)) (idle : world.Idle) :
    Restores device low high disable calls ↔ outcome ≠ .error .IndexError ∧
      ∀ cpu_no, low ≤ cpu_no → cpu_no ≤ high →
        world.device.governor cpu_no = device.governor cpu_no := by
  constructor
  · intro restores
    have restored := restores.restored
    have inRange := restores.disableInRange
    rw [disabled] at restored inRange
    rw [(afterEnables_idle idle calls).1] at restored
    exact ⟨inRange, restored⟩
  · rintro ⟨inRange, restored⟩
    constructor
    · rw [disabled, (afterEnables_idle idle calls).1]
      exact restored
    · intro before faults after _ governors available
      rw [disabled] at available
      have off : (afterEnables world before).self.perf_override = false :=
        (afterEnables_idle idle before).2
      rw [World.Available, off] at available
      cases available.1
    · rw [disabled]
      exact inRange
    · intro before faults after _
      rw [disabled]
      exact (EnableCpuScaling_idle (afterEnables_idle idle before).2 faults).2.2

/-- Where `DisableCpuScaling` changes all governors, the first call decides. -/
theorem restores_iff_of_overriding {first : Faults} {rest : List Faults}
    (disabled : DisableCpuScaling disable (.new device) =
      (.ok (), ⟨overriding high device, device.overridden high⟩)) :
    Restores device 0 high disable (first :: rest) ↔ ¬ first.Fails 0 high := by
  obtain ⟨ends, idle⟩ := @EnableCpuScaling_first device high first
  have later (before : List Faults) :
      afterEnables (EnableCpuScaling first
        ⟨overriding high device, device.overridden high⟩).2 before =
        afterEnables ⟨overriding high device, device.overridden high⟩ (first :: before) := rfl
  constructor
  · intro restores fails
    have kept := restores.kept [] first rest rfl _ (by rw [disabled]; exact ⟨rfl, rfl⟩) fails
    rw [disabled] at kept
    have on : (EnableCpuScaling first
      ⟨overriding high device, device.overridden high⟩).2.self.perf_override = true := kept.1
    rw [World.Idle, on] at idle
    cases idle
  · intro works
    constructor
    · intro cpu_no _ inRange
      rw [disabled, ← later, (afterEnables_idle idle rest).1]
      exact EnableCpuScaling_restores inRange works
    · intro before faults after split governors available fails
      rw [disabled] at available
      rcases before with _ | ⟨other, before⟩
      · cases split
        exact absurd fails works
      · cases split
        have off : (afterEnables ⟨overriding high device, device.overridden high⟩
            (first :: before)).self.perf_override = false := by
          rw [← later]
          exact (afterEnables_idle idle before).2
        rw [World.Available, off] at available
        cases available.1
    · rw [disabled]
      simp
    · intro before faults after split
      rw [disabled]
      rcases before with _ | ⟨other, before⟩
      · cases split
        rw [afterEnables, foldl_nil, ends]
        simp
      · cases split
        rw [← later]
        exact (EnableCpuScaling_idle (afterEnables_idle idle before).2 faults).2.2

/-- The governors come back exactly in the runs described, after at least one call of
`EnableCpuScaling`. -/
theorem restores_iff_restorable (device : Device) (low high : Nat) (ordered : low ≤ high)
    (present : device.present = presentText low high)
    (words : ∀ cpu_no, low ≤ cpu_no → cpu_no ≤ high → Word (device.governor cpu_no))
    (disable first : Faults) (rest : List Faults) :
    Restores device low high disable (first :: rest) ↔
      Restorable device low high disable first := by
  by_cases unread : disable.present = true
  · rw [restores_iff_of_idle (DisableCpuScaling_present present unread) rfl]
    simp [Restorable, unread, World.new]
  have listed (fails : Nat → Bool) : (configured low high).cpus.any fails ↔
      ∃ cpu_no, low ≤ cpu_no ∧ cpu_no ≤ high ∧ fails cpu_no := by
    simp only [any_eq_true, mem_cpus ordered, and_assoc]
  by_cases reads : (configured low high).cpus.any disable.reads
  · rw [restores_iff_of_idle (DisableCpuScaling_read_fails ordered present unread reads) rfl]
    have unchanged : Restorable device low high disable first :=
      .inr (.inl ((listed _).mp reads))
    simp [unchanged]
  have noReads : ¬ ∃ cpu_no, low ≤ cpu_no ∧ cpu_no ≤ high ∧ disable.reads cpu_no :=
    fun fails => reads ((listed _).mpr fails)
  rcases Nat.eq_zero_or_pos low with rfl | shifted
  swap
  · rw [restores_iff_of_idle (DisableCpuScaling_shifted ordered present unread reads shifted) rfl]
    have notZero : low ≠ 0 := shifted.ne'
    simp only [ne_eq, not_true_eq_false, false_and, false_iff]
    rintro (fails | fails | ⟨zero, -⟩)
    · exact unread fails
    · exact noReads fails
    · exact notZero zero
  have condition : Restorable device 0 high disable first ↔
      ((∃ cpu_no ≤ high, disable.writes cpu_no) →
        ∀ cpu_no ≤ high, disable.writes cpu_no ∨ device.governor cpu_no = performance) ∧
      ((¬ ∃ cpu_no ≤ high, disable.writes cpu_no) → ¬ first.Fails 0 high) := by
    rw [Restorable]
    simp only [unread, noReads, Bool.false_eq_true, false_or, true_and]
  have writesListed : (configured 0 high).cpus.any disable.writes ↔
      ∃ cpu_no ≤ high, disable.writes cpu_no := by
    rw [listed]
    simp
  rw [condition]
  by_cases writes : (configured 0 high).cpus.any disable.writes
  · rw [restores_iff_of_idle (DisableCpuScaling_write_fails present unread reads writes) rfl]
    have fails := writesListed.mp writes
    simp only [fails, true_implies, not_true_eq_false, false_implies, and_true, ne_eq,
      reduceCtorEq, not_false_eq_true, true_and]
    apply forall_congr'
    intro cpu_no
    by_cases inRange : cpu_no ≤ high
    · have member : cpu_no ∈ (configured 0 high).cpus :=
        (mem_cpus ordered).mpr ⟨zero_le _, inRange⟩
      dsimp only [Device.written]
      cases fails : disable.writes cpu_no with
      | true => simp
      | false =>
        rw [if_pos ⟨member, rfl⟩, Bool.false_eq_true, false_or]
        constructor
        · exact fun kept _ => (kept (zero_le _) inRange).symm
        · exact fun same _ _ => (same inRange).symm
    · simp [inRange]
  · have noWrites := writesListed.not.mp writes
    have plain : ∀ cpu_no ≤ high, Word (device.governor cpu_no) := fun cpu_no =>
      words cpu_no (zero_le _)
    rw [restores_iff_of_overriding
      (DisableCpuScaling_succeeds present plain unread reads writes)]
    simp [noWrites]

end Runs

/-- A device with one governor for all CPUs. -/
def uniform (low high : Nat) : Device := ⟨presentText low high, fun _ => [112, 111, 119, 101, 114]⟩

theorem uniform_word (low high cpu_no : Nat) : Word ((uniform low high).governor cpu_no) := by
  have word : Word [112, 111, 119, 101, 114] :=
    ⟨cons_ne_nil _ _, all_iff_forall_prop.mp (by decide)⟩
  exact word

theorem uniform_restores : Restores (uniform 0 1) 0 1 .none [.none] := by
  have words : ∀ cpu_no, 0 ≤ cpu_no → cpu_no ≤ 1 → Word ((uniform 0 1).governor cpu_no) :=
    fun cpu_no _ _ => uniform_word 0 1 cpu_no
  apply (restores_iff_restorable (uniform 0 1) 0 1 (zero_le 1) rfl words .none .none []).mpr
  refine .inr (.inr ⟨rfl, ?_, fun _ => (Faults.none_succeeds 0 1).2⟩)
  rintro ⟨cpu_no, -, fails⟩
  cases fails

/-- CPUs that are numbered from 1 are out of range although nothing fails. -/
theorem shifted_out_of_range :
    ¬ ∀ (device : Device) (low high : Nat) (disable : Faults) (earlier : List Faults)
      (last : Faults), low ≤ high → device.present = presentText low high →
      (∀ cpu_no, low ≤ cpu_no → cpu_no ≤ high → Word (device.governor cpu_no)) →
      last.Succeeds low high → Restores device low high disable (earlier ++ [last]) := by
  intro always
  have words : ∀ cpu_no, 1 ≤ cpu_no → cpu_no ≤ 1 → Word ((uniform 1 1).governor cpu_no) :=
    fun cpu_no _ _ => uniform_word 1 1 cpu_no
  have restores := always (uniform 1 1) 1 1 .none [] .none le_rfl rfl words
    (Faults.none_succeeds 1 1)
  have beyond : (DisableCpuScaling .none (.new (uniform 1 1))).1 = .error .IndexError := by decide
  exact restores.disableInRange beyond

end Vts.Runner.CpuFrequency
