import Mathlib.Data.List.TakeWhile
import Vts.Lib.ShellReading

/-!
# Commands of the shell driver

`VtsShellDriver::ExecShellCommandNohup` and `ExecShellCommand` in `drivers/shell/ShellDriver.cpp`: a
command is put into a line for `system`, and its output and exit code are reported.

What happens outside of the driver is given by a `Host`. The names of the two temporary files have
no character with a meaning for the shell: they are in the directory of the socket.
-/

namespace Vts.Shell

open Vts.Lib.Shell List

/-- How `system` ends: it fails itself, or the shell exits or is ended by a signal. -/
inductive Outcome where
  | failed
  | exited (status : Fin 256)
  | signaled (number : Nat) (valid : 0 < number ∧ number < 127) (core : Bool)

/-- What `system` returns: -1, or the wait status with the exit status in its second byte and the
signal in its first. -/
def Outcome.returned : Outcome → Int
  | .failed => -1
  | .exited status => status.val * 256
  | .signaled number _ core => number + if core then 128 else 0

/-- The system during one command. -/
structure Host where
  /-- What `mkstemp` makes of the two patterns. -/
  stdout_file_name : PlainName
  stderr_file_name : PlainName
  system : List Char → Outcome
  GetFileSize : List Char → Int
  ReadFile : List Char → List Char

structure CommandResult where
  stdout : List Char
  stderr : List Char
  exit_code : Int

/-- `VtsDriverControlResponseMessage`, as far as it is filled here. -/
structure Response where
  stdout : List (List Char)
  stderr : List (List Char)
  exit_code : List Int

def kProtoSizeThreshold : Int := 1024 * 1024

/-- A C string ends at the first NUL. -/
def c_str (text : List Char) : List Char := text.takeWhile (· ≠ nul)

/-- The line for `system`. -/
def Host.line (host : Host) (command : List Char) : List Char :=
  "nohup sh -c '".toList ++ command ++ "' >".toList ++ host.stdout_file_name.text ++ " 2>".toList ++
    host.stderr_file_name.text

/-- A large output stays in its file, whose name is sent instead. -/
def Host.output (host : Host) (file_name : PlainName) : List Char :=
  if host.GetFileSize file_name.text > kProtoSizeThreshold then file_name.text
  else host.ReadFile file_name.text

def ExecShellCommandNohup (host : Host) (command : List Char) : CommandResult where
  exit_code := (host.system (c_str (host.line command))).returned.tdiv 256
  stdout := host.output host.stdout_file_name
  stderr := host.output host.stderr_file_name

def ExecShellCommand (host : Host) (command : List Char) (responseMessage : Response) :
    Int × Response :=
  let result := ExecShellCommandNohup host command
  (result.exit_code,
    { stdout := responseMessage.stdout ++ [result.stdout]
      stderr := responseMessage.stderr ++ [result.stderr]
      exit_code := responseMessage.exit_code ++ [result.exit_code] })

/-! ## What a line runs and what a code reports -/

/-- The shell reads the line as a call of `sh -c` with the command as its argument and the outputs
redirected to the two files, and the exit code 0 is reported only if the shell exits with 0. -/
def RunsAsGiven (host : Host) (command : List Char) : Prop :=
  readCommand (c_str (host.line command)) =
      some ⟨["nohup".toList, "sh".toList, "-c".toList, command],
        [(1, host.stdout_file_name.text), (2, host.stderr_file_name.text)]⟩ ∧
    ∀ responseMessage : Response,
      (ExecShellCommand host command responseMessage).2.exit_code =
        responseMessage.exit_code ++ [0] →
      host.system (c_str (host.line command)) = .exited 0

/-- The division keeps an exit status and makes 0 of everything else. -/
theorem Outcome.exit_code_eq (outcome : Outcome) : outcome.returned.tdiv 256 =
    match outcome with
    | .exited status => (status.val : Int)
    | _ => 0 := by
  cases outcome with
  | failed => rfl
  | exited status =>
    dsimp only [Outcome.returned]
    exact Int.mul_tdiv_cancel _ (by decide)
  | signaled number valid core =>
    obtain ⟨_, small⟩ := valid
    dsimp only [Outcome.returned]
    apply Int.tdiv_eq_zero_of_lt
    · split_ifs <;> omega
    · split_ifs <;> omega

/-- Only an exit with 0 gives 0, unless there is no exit at all. -/
theorem Outcome.zero_means_success_iff (outcome : Outcome) :
    (outcome.returned.tdiv 256 = 0 → outcome = .exited 0) ↔ ∃ status, outcome = .exited status := by
  rw [Outcome.exit_code_eq]
  cases outcome with
  | failed => simp
  | exited status =>
    constructor
    · exact fun _ => ⟨status, rfl⟩
    · intro _ zero
      have value : (status.val : Int) = 0 := zero
      have same : status = 0 := Fin.ext (Int.natCast_eq_zero.mp value)
      rw [same]
  | signaled number valid core => simp

/-- The code of a command is put behind those before. -/
theorem reported_iff (host : Host) (command : List Char) (responseMessage : Response) :
    (ExecShellCommand host command responseMessage).2.exit_code =
      responseMessage.exit_code ++ [0] ↔
        (host.system (c_str (host.line command))).returned.tdiv 256 = 0 := by
  rw [ExecShellCommand, ExecShellCommandNohup]
  dsimp only
  rw [append_cancel_left_eq, singleton_inj]

theorem c_str_eq_self {text : List Char} (clean : nul ∉ text) : c_str text = text := by
  apply takeWhile_eq_self_iff.mpr
  intro char listed
  have other : char ≠ nul := fun same => clean (same ▸ listed)
  simpa using other

/-- The line in the parts that the shell reads. -/
theorem Host.line_eq (host : Host) (command : List Char) :
    host.line command = "nohup sh -c ".toList ++ (singleQuote :: (command ++
      singleQuote :: redirections host.stdout_file_name host.stderr_file_name)) := by
  have front : "nohup sh -c '".toList = "nohup sh -c ".toList ++ [singleQuote] := by decide
  have middle : "' >".toList = singleQuote :: [' ', '>'] := by decide
  have last : " 2>".toList = [' ', '2', '>'] := by decide
  change "nohup sh -c '".toList ++ command ++ "' >".toList ++ host.stdout_file_name.text ++
    " 2>".toList ++ host.stderr_file_name.text = _
  rw [redirections, front, middle, last]
  simp only [append_assoc, cons_append, nil_append]

theorem Host.nul_not_mem_line (host : Host) {command : List Char} (clean : nul ∉ command) :
    nul ∉ host.line command := by
  have front : nul ∉ "nohup sh -c ".toList := by decide
  have quote : nul ≠ singleQuote := by decide
  have plain (name : PlainName) : nul ∉ name.text := fun listed =>
    name.plain nul listed (by decide)
  have files : nul ∉ redirections host.stdout_file_name host.stderr_file_name := by
    simp only [redirections, mem_append, not_or]
    exact ⟨⟨⟨by decide, plain _⟩, by decide⟩, plain _⟩
  rw [Host.line_eq, mem_append, mem_cons, mem_append, mem_cons]
  rintro (listed | same | listed | same | listed)
  · exact front listed
  · exact quote same
  · exact clean listed
  · exact quote same
  · exact files listed

/-- The shell has read the words before the quote. -/
theorem Host.readCommand_line (host : Host) (command : List Char) :
    readCommand (host.line command) =
      ((singleQuote :: (command ++ singleQuote :: redirections host.stdout_file_name
        host.stderr_file_name)).foldlM Reader.step
          (Reader.behind ["nohup".toList, "sh".toList, "-c".toList])).bind Reader.finish := by
  have opened : "nohup sh -c ".toList.foldlM Reader.step Reader.start =
      some (Reader.behind ["nohup".toList, "sh".toList, "-c".toList]) := by decide
  rw [readCommand, Host.line_eq, foldlM_append, opened, Option.bind_eq_bind, Option.bind_some]

/-- A command without NUL runs as given exactly if it has no single quote and the shell exits. -/
theorem runsAsGiven_iff (host : Host) (command : List Char) (clean : nul ∉ command) :
    RunsAsGiven host command ↔
      singleQuote ∉ command ∧ ∃ status, host.system (host.line command) = .exited status := by
  have whole : c_str (host.line command) = host.line command :=
    c_str_eq_self (host.nul_not_mem_line clean)
  have succeeds : (∀ responseMessage : Response,
      (ExecShellCommand host command responseMessage).2.exit_code =
        responseMessage.exit_code ++ [0] → host.system (host.line command) = .exited 0) ↔
      ∃ status, host.system (host.line command) = .exited status := by
    rw [← Outcome.zero_means_success_iff]
    simp only [reported_iff, whole]
    exact ⟨fun success => success ⟨[], [], []⟩, fun success _ => success⟩
  rw [RunsAsGiven, whole, host.readCommand_line, succeeds]
  apply and_congr_left
  intro _
  exact readQuoted_iff ["nohup".toList, "sh".toList, "-c".toList] command _ _

/-- A host whose commands all end in the same way. -/
def uniformHost (outcome : Outcome) : Host where
  stdout_file_name := ⟨"/tmp/a".toList, by decide, List.all_iff_forall_prop.mp (by decide)⟩
  stderr_file_name := ⟨"/tmp/b".toList, by decide, List.all_iff_forall_prop.mp (by decide)⟩
  system _ := outcome
  GetFileSize _ := 0
  ReadFile _ := []

theorem ls_runsAsGiven : RunsAsGiven (uniformHost (.exited 0)) "ls -l".toList :=
  (runsAsGiven_iff (uniformHost (.exited 0)) "ls -l".toList (by decide)).mpr ⟨by decide, 0, rfl⟩

/-- A quoted argument loses its quotes. -/
theorem quotes_lost : ¬ ∀ (host : Host) (command : List Char), nul ∉ command →
    RunsAsGiven host command := by
  intro always
  obtain ⟨read, -⟩ := always (uniformHost (.exited 0)) "echo 'a'".toList (by decide)
  revert read
  decide

end Vts.Shell
