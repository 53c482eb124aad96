import Vts.Agent.Messages
import Vts.Lib.Sends

/-!
# The agent's request handler

`AgentRequestHandler` of `agents/hal/AgentRequestHandler.cpp` and the `VtsDriverSocketClient` of
`agents/hal/SocketClientToDriver.cpp` through which it asks a driver, built for sockets. Sends to
the runner succeed; whether a driver gets a command and answers it is open, and so is what the
system says of files, processes and connections. The process that is forked to become the driver
sends nothing to the runner and is left out.

Proved here: the handler sends one response to every command or sends none and returns false,
except that it sends none and returns true for a shell command when no driver is connected.
-/

namespace Vts.Agent

open Vts.Python Vts.Lib

/-- What the outside says while a command is processed. -/
structure World (Client Request Response : Type) where
  /-- The names in a directory that can be opened. -/
  readdir : Text → Option (List Text)
  /-- There is a file of this name. -/
  stat : Text → Bool
  /-- The file can be removed. -/
  remove : Text → Bool
  /-- The process can be forked. -/
  fork : Bool
  /-- `IsDriverRunning`, at each attempt. -/
  IsDriverRunning : Text → Nat → Bool
  GetDriverSocketClient : Text → Option Client
  /-- What the driver answers, if the command arrives and an answer comes back. -/
  answer : Client → VtsDriverControlCommandMessage Request →
    Option (VtsDriverControlResponseMessage Response)

/-- The handler of a session, what it has asked drivers and what it has sent to the runner. -/
structure AgentRequestHandler (Client Request Response : Type) where
  service_name_ : Text
  callback_port_ : Int
  driver_client_ : Option Client
  asked : List (Client × VtsDriverControlCommandMessage Request)
  sent : List (AndroidSystemControlResponseMessage Response)

section

variable {Client Request Response : Type}

/-- What the handler does. -/
abbrev Action (Client Request Response : Type) :=
  StateM (AgentRequestHandler Client Request Response)

def VtsSocketSendMessage (response_msg : AndroidSystemControlResponseMessage Response) :
    Action Client Request Response Bool := do
  modify fun handler => { handler with sent := handler.sent ++ [response_msg] }
  return true

/-- A command to a driver and its answer. -/
def ask (world : World Client Request Response) (client : Client)
    (command_message : VtsDriverControlCommandMessage Request) :
    Action Client Request Response (Option (VtsDriverControlResponseMessage Response)) := do
  modify fun handler => { handler with asked := handler.asked ++ [(client, command_message)] }
  return world.answer client command_message

/-! ## The client of a driver -/

namespace VtsDriverSocketClient

variable (world : World Client Request Response) (client : Client)

/-- A command whose answer is a text, which is empty when there is no answer. -/
def askMessage (command_message : VtsDriverControlCommandMessage Request) :
    Action Client Request Response Text := do
  return ((← ask world client command_message).bind (·.return_message)).getD []

def GetFunctions : Action Client Request Response Text :=
  askMessage world client { command_type := some .LIST_FUNCTIONS }

def ReadSpecification (component_name : Text)
    (target_class target_type target_version_major target_version_minor : Int)
    (target_package : Text) : Action Client Request Response Text :=
  askMessage world client
    { command_type := some .VTS_DRIVER_COMMAND_READ_SPECIFICATION
      module_name := some component_name
      target_class := some target_class
      target_type := some target_type
      target_version_major := some target_version_major
      target_version_minor := some target_version_minor
      target_package := some target_package }

def Call (arg uid : Text) : Action Client Request Response Text :=
  askMessage world client
    { command_type := some .CALL_FUNCTION, arg := some arg, driver_caller_uid := some uid }

def GetAttribute (arg : Text) : Action Client Request Response Text :=
  askMessage world client { command_type := some .GET_ATTRIBUTE, arg := some arg }

def LoadHal (file_path : Text)
    (target_class target_type target_version_major target_version_minor : Int)
    (target_package target_component_name hw_binder_service_name module_name : Text) :
    Action Client Request Response Int := do
  let response_message ← ask world client
    { command_type := some .LOAD_HAL
      file_path := some file_path
      target_class := some target_class
      target_type := some target_type
      target_version_major := some target_version_major
      target_version_minor := some target_version_minor
      target_package := some target_package
      target_component_name := some target_component_name
      module_name := some module_name
      hw_binder_service_name := some hw_binder_service_name }
  match response_message with
  | none => return -1
  | some response_message =>
    if response_message.response_code ≠ some .VTS_DRIVER_RESPONSE_SUCCESS then return -1
    else return response_message.return_value.getD 0

def ExecuteShellCommand (shell_command : List Text) :
    Action Client Request Response (Option (VtsDriverControlResponseMessage Response)) :=
  ask world client { command_type := some .EXECUTE_COMMAND, shell_command := shell_command }

variable [Inhabited Response]

/-- A request for a resource: what the driver answers to it, where no answer is a failure. -/
def askResource (command_message : VtsDriverControlCommandMessage Request)
    (response : VtsDriverControlResponseMessage Response → Option Response) :
    Action Client Request Response (Option Response) := do
  return (← ask world client command_message).map fun response_message =>
    (response response_message).getD default

def ProcessFmqCommand (fmq_request : Request) : Action Client Request Response (Option Response) :=
  askResource world client { command_type := some .FMQ_OPERATION, fmq_request := some fmq_request }
    (·.fmq_response)

def ProcessHidlMemoryCommand (hidl_memory_request : Request) :
    Action Client Request Response (Option Response) :=
  askResource world client
    { command_type := some .HIDL_MEMORY_OPERATION, hidl_memory_request := some hidl_memory_request }
    (·.hidl_memory_response)

def ProcessHidlHandleCommand (hidl_handle_request : Request) :
    Action Client Request Response (Option Response) :=
  askResource world client
    { command_type := some .HIDL_HANDLE_OPERATION, hidl_handle_request := some hidl_handle_request }
    (·.hidl_handle_response)

end VtsDriverSocketClient

/-! ## The commands -/

namespace AgentRequestHandler

variable (world : World Client Request Response)

def ListHals (base_paths : List Text) : Action Client Request Response Bool :=
  let file_names := base_paths.flatMap fun path =>
    ((world.readdir path).getD []).filterMap fun name =>
      if 3 < name.length ∧ name.drop (name.length - 3) = bytes ".so" then
        some (path ++ bytes "/" ++ name)
      else none
  VtsSocketSendMessage
    { response_code := some (if file_names = [] then .FAIL else .SUCCESS), file_names := file_names }

def SetHostInfo (callback_port : Int) : Action Client Request Response Bool := do
  modify fun handler => { handler with callback_port_ := callback_port }
  VtsSocketSendMessage { response_code := some .SUCCESS }

def CheckDriverService (service_name : Text) : Action Client Request Response Bool := do
  if world.IsDriverRunning service_name 0 then
    modify fun handler => { handler with service_name_ := service_name }
    VtsSocketSendMessage
      { response_code := some .SUCCESS, reason := some (bytes "found the service") }
  else
    VtsSocketSendMessage
      { response_code := some .FAIL, reason := some (bytes "service not found") }

def GetSocketPortFilePath (service_name : Text) : Text := bytes "/data/local/tmp/" ++ service_name

/-- The driver is a HAL driver. -/
def isHalDriver (driver_type : VtsDriverType) : Bool :=
  driver_type = .VTS_DRIVER_TYPE_HAL_CONVENTIONAL || driver_type = .VTS_DRIVER_TYPE_HAL_LEGACY ||
    driver_type = .VTS_DRIVER_TYPE_HAL_HIDL

/-- The response of `LaunchDriverService` once a driver is connected. -/
def loadDriver (command_msg : AndroidSystemControlCommandMessage Request) (client : Client) :
    Action Client Request Response (AndroidSystemControlResponseMessage Response) := do
  let driver_type := command_msg.driver_type.getD .UKNOWN_VTS_DRIVER_TYPE
  let service_name := command_msg.service_name.getD []
  if isHalDriver driver_type then
    let driver_id ← VtsDriverSocketClient.LoadHal world client (command_msg.file_path.getD [])
      (command_msg.target_class.getD 0) (command_msg.target_type.getD 0)
      (command_msg.target_version_major.getD (-1)) (command_msg.target_version_minor.getD (-1))
      (command_msg.target_package.getD []) (command_msg.target_component_name.getD [])
      (command_msg.hw_binder_service_name.getD []) (command_msg.module_name.getD [])
    if driver_id = -1 then
      return { response_code := some .FAIL
               reason := some (bytes "Failed to load the selected HAL.") }
    else
      modify fun handler => { handler with service_name_ := service_name }
      return { response_code := some .SUCCESS
               result := some (bytes (toString driver_id))
               reason := some (bytes "Loaded the selected HAL.") }
  else if driver_type = .VTS_DRIVER_TYPE_SHELL then
    modify fun handler => { handler with service_name_ := service_name }
    return { response_code := some .SUCCESS, reason := some (bytes "Loaded the shell driver.") }
  else
    return {}

/-- The attempts end with `result` set to one of two codes, and neither of them is zero. -/
def LaunchDriverService (command_msg : AndroidSystemControlCommandMessage Request) :
    Action Client Request Response Bool := do
  let service_name := command_msg.service_name.getD []
  let socket_port_flie_path := GetSocketPortFilePath service_name
  let forkFailed : AndroidSystemControlResponseMessage Response :=
    { response_code := some .FAIL
      reason := some (bytes "Failed to fork a child process to start a driver.") }
  if world.stat socket_port_flie_path && !world.remove socket_port_flie_path then
    VtsSocketSendMessage
      { response_code := some .FAIL, reason := some (bytes "service file already exists.") }
  else if world.fork then
    let result : ResponseCode :=
      if (List.range 10).any (world.IsDriverRunning service_name) then .SUCCESS else .FAIL
    if result.number ≠ 0 then
      match world.GetDriverSocketClient service_name with
      | none =>
        VtsSocketSendMessage
          { response_code := some .FAIL, reason := some (bytes "Failed to start a driver.") }
      | some client =>
        let response_msg ← loadDriver world command_msg client
        modify fun handler => { handler with driver_client_ := some client }
        VtsSocketSendMessage response_msg
    else VtsSocketSendMessage forkFailed
  else VtsSocketSendMessage forkFailed

def SendApiResult (func_name : String) (result spec : Text) :
    Action Client Request Response Bool :=
  VtsSocketSendMessage (
    if 0 < result.length ∨ 0 < spec.length then
      { response_code := some .SUCCESS
        result := if 0 < result.length then some result else none
        spec := if 0 < spec.length then some spec else none }
    else
      { response_code := some .FAIL
        reason := some (bytes "Failed to call api function: " ++ bytes func_name) })

/-- The commands that need a driver: without one nothing is sent. -/
def withClient (action : Client → Action Client Request Response Bool) :
    Action Client Request Response Bool := do
  match (← get).driver_client_ with
  | none => return false
  | some client => action client

def ReadSpecification (command_message : AndroidSystemControlCommandMessage Request) :
    Action Client Request Response Bool :=
  withClient fun client => do
    let result ← VtsDriverSocketClient.ReadSpecification world client
      (command_message.service_name.getD []) (command_message.target_class.getD 0)
      (command_message.target_type.getD 0) (command_message.target_version_major.getD (-1))
      (command_message.target_version_minor.getD (-1)) (command_message.target_package.getD [])
    SendApiResult "ReadSpecification" result []

def ListApis : Action Client Request Response Bool :=
  withClient fun client => do
    let spec ← VtsDriverSocketClient.GetFunctions world client
    SendApiResult "GetAttribute" [] spec

def CallApi (call_payload uid : Text) : Action Client Request Response Bool :=
  withClient fun client => do
    let result ← VtsDriverSocketClient.Call world client call_payload uid
    SendApiResult "Call" result []

def GetAttribute (payload : Text) : Action Client Request Response Bool :=
  withClient fun client => do
    let result ← VtsDriverSocketClient.GetAttribute world client payload
    SendApiResult "GetAttribute" result []

/-- The response for a shell command. -/
def CreateSystemControlResponseFromDriverControlResponse
    (driver_control_response_message : VtsDriverControlResponseMessage Response) :
    AndroidSystemControlResponseMessage Response where
  response_code :=
    match driver_control_response_message.response_code.getD .UNKNOWN_VTS_DRIVER_RESPONSE_CODE with
    | .VTS_DRIVER_RESPONSE_SUCCESS => some .SUCCESS
    | .VTS_DRIVER_RESPONSE_FAIL => some .FAIL
    | .UNKNOWN_VTS_DRIVER_RESPONSE_CODE => some .UNKNOWN_RESPONSE_CODE
  stdout := driver_control_response_message.stdout
  stderr := driver_control_response_message.stderr
  exit_code := driver_control_response_message.exit_code

def ExecuteShellCommand (command_message : AndroidSystemControlCommandMessage Request) :
    Action Client Request Response Bool :=
  withClient fun client => do
    let result_message ←
      VtsDriverSocketClient.ExecuteShellCommand world client command_message.shell_command
    match result_message with
    | some result_message =>
      VtsSocketSendMessage (CreateSystemControlResponseFromDriverControlResponse result_message)
    | none =>
      VtsSocketSendMessage
        { response_code := some .FAIL, reason := some (bytes "Failed to call the api.") }

def DefaultResponse : Action Client Request Response Bool :=
  VtsSocketSendMessage
    { response_code := some .SUCCESS, reason := some (bytes "an example reason here") }

section

variable [Inhabited Request] [Inhabited Response]

/-- The code and the reason of the response for a resource, where the driver may have failed. -/
def resourceResponse (response : Option Response) (reason : String) :
    AndroidSystemControlResponseMessage Response :=
  match response with
  | some _ => { response_code := some .SUCCESS }
  | none => { response_code := some .FAIL, reason := some (bytes reason) }

def ProcessFmqCommand (command_msg : AndroidSystemControlCommandMessage Request) :
    Action Client Request Response Bool :=
  withClient fun client => do
    let fmq_response ← VtsDriverSocketClient.ProcessFmqCommand world client
      (command_msg.fmq_request.getD default)
    VtsSocketSendMessage
      { resourceResponse fmq_response "Failed to call api to process FMQ command." with
        fmq_response := some (fmq_response.getD default) }

def ProcessHidlMemoryCommand (command_msg : AndroidSystemControlCommandMessage Request) :
    Action Client Request Response Bool :=
  withClient fun client => do
    let hidl_memory_response ← VtsDriverSocketClient.ProcessHidlMemoryCommand world client
      (command_msg.hidl_memory_request.getD default)
    VtsSocketSendMessage
      { resourceResponse hidl_memory_response "Failed to call api to process hidl_memory command."
        with hidl_memory_response := some (hidl_memory_response.getD default) }

def ProcessHidlHandleCommand (command_msg : AndroidSystemControlCommandMessage Request) :
    Action Client Request Response Bool :=
  withClient fun client => do
    let hidl_handle_response ← VtsDriverSocketClient.ProcessHidlHandleCommand world client
      (command_msg.hidl_handle_request.getD default)
    VtsSocketSendMessage
      { resourceResponse hidl_handle_response "Failed to call api to process hidl_handle command."
        with hidl_handle_response := some (hidl_handle_response.getD default) }

/-- One command, unless none can be received. -/
def ProcessOneCommand (received : Option (AndroidSystemControlCommandMessage Request)) :
    Action Client Request Response Bool := do
  match received with
  | none => return false
  | some command_msg =>
    match command_msg.command_type.getD .UNKNOWN_COMMAND_TYPE with
    | .LIST_HALS => ListHals world command_msg.paths
    | .SET_HOST_INFO => SetHostInfo (command_msg.callback_port.getD 0)
    | .CHECK_DRIVER_SERVICE => CheckDriverService world (command_msg.service_name.getD [])
    | .LAUNCH_DRIVER_SERVICE => LaunchDriverService world command_msg
    | .VTS_AGENT_COMMAND_READ_SPECIFICATION => ReadSpecification world command_msg
    | .LIST_APIS => ListApis world
    | .CALL_API =>
      CallApi world (command_msg.arg.getD []) (command_msg.driver_caller_uid.getD [])
    | .VTS_AGENT_COMMAND_GET_ATTRIBUTE => GetAttribute world (command_msg.arg.getD [])
    | .VTS_AGENT_COMMAND_EXECUTE_SHELL_COMMAND =>
      let _ ← ExecuteShellCommand world command_msg
      return true
    | .VTS_FMQ_COMMAND => ProcessFmqCommand world command_msg
    | .VTS_HIDL_MEMORY_COMMAND => ProcessHidlMemoryCommand world command_msg
    | .VTS_HIDL_HANDLE_COMMAND => ProcessHidlHandleCommand world command_msg
    | .UNKNOWN_COMMAND_TYPE | .PING => DefaultResponse

end

/-! ## What is sent -/

/-- One response is sent, or none and the session ends. -/
def Answers (handler : AgentRequestHandler Client Request Response)
    (outcome : Bool × AgentRequestHandler Client Request Response) : Prop :=
  (∃ response, outcome.2.sent = handler.sent ++ [response]) ∨
    outcome.1 = false ∧ outcome.2.sent = handler.sent

variable {world}

theorem silent_modify {change : AgentRequestHandler Client Request Response →
    AgentRequestHandler Client Request Response}
    (same : ∀ handler, (change handler).sent = handler.sent) :
    Silent sent (modify change : Action Client Request Response PUnit) := same

theorem sendsOne_send (response_msg : AndroidSystemControlResponseMessage Response) :
    SendsOne sent (VtsSocketSendMessage response_msg : Action Client Request Response Bool) :=
  fun _ => ⟨rfl, response_msg, rfl⟩

section

variable {action : Client → Action Client Request Response Bool}
  {handler : AgentRequestHandler Client Request Response}
  (command_msg : AndroidSystemControlCommandMessage Request) (client : Client)
  (command : VtsDriverControlCommandMessage Request)

theorem silent_ask :
    Silent sent (ask world client command) := fun _ => rfl

theorem silent_askMessage : Silent sent (VtsDriverSocketClient.askMessage world client command) :=
  (silent_ask client command).bind fun _ => .pure _

theorem silent_loadHal (file_path : Text)
    (target_class target_type target_version_major target_version_minor : Int)
    (target_package target_component_name hw_binder_service_name module_name : Text) :
    Silent sent (VtsDriverSocketClient.LoadHal world client file_path target_class target_type
      target_version_major target_version_minor target_package target_component_name
      hw_binder_service_name module_name) := by
  refine (silent_ask client _).bind fun answer => ?_
  cases answer with
  | none => exact .pure _
  | some response_message =>
    dsimp only
    split <;> exact .pure _

theorem silent_loadDriver : Silent sent (loadDriver world command_msg client) := by
  simp only [loadDriver]
  split
  · refine Silent.bind (silent_loadHal client _ _ _ _ _ _ _ _ _) fun driver_id => ?_
    split
    · exact .pure _
    · exact Silent.bind (silent_modify fun _ => rfl) fun _ => Silent.pure _
  · split
    · exact Silent.bind (silent_modify fun _ => rfl) fun _ => Silent.pure _
    · exact .pure _

/-- The code that the attempts end with always counts as true. -/
theorem number_of_attempts (running : Bool) :
    (if running then ResponseCode.SUCCESS else ResponseCode.FAIL).number ≠ 0 := by
  cases running <;> decide

theorem sendsOne_launchDriverService : SendsOne sent (LaunchDriverService world command_msg) := by
  simp only [LaunchDriverService, if_pos (number_of_attempts _)]
  split
  · exact sendsOne_send _
  · split
    · cases world.GetDriverSocketClient (command_msg.service_name.getD []) with
      | none => exact sendsOne_send _
      | some client =>
        refine SendsOne.bind (silent_loadDriver command_msg client) fun response_msg => ?_
        exact SendsOne.bind (silent_modify fun _ => rfl) fun _ => sendsOne_send _
    · exact sendsOne_send _

theorem sendsOne_checkDriverService (service_name : Text) :
    SendsOne sent (CheckDriverService world service_name) := by
  rw [CheckDriverService]
  split
  · exact SendsOne.bind (silent_modify fun _ => rfl) fun _ => sendsOne_send _
  · exact sendsOne_send _

theorem sendsOne_executeShellCommand (shell_command : List Text) :
    SendsOne sent (do
      let result_message ←
        VtsDriverSocketClient.ExecuteShellCommand world client shell_command
      match result_message with
      | some result_message =>
        VtsSocketSendMessage (CreateSystemControlResponseFromDriverControlResponse result_message)
      | none =>
        VtsSocketSendMessage
          { response_code := some .FAIL, reason := some (bytes "Failed to call the api.") } :
      Action Client Request Response Bool) := by
  refine SendsOne.bind (silent_ask client _) fun answer => ?_
  cases answer with
  | none => exact sendsOne_send _
  | some result_message => exact sendsOne_send _

/-- Without a driver a command that needs one is refused. -/
theorem withClient_none (absent : handler.driver_client_ = none) :
    (withClient action).run handler = (false, handler) := by
  simp [withClient, absent]
  rfl

theorem withClient_some {client : Client} (connected : handler.driver_client_ = some client) :
    (withClient action).run handler = (action client).run handler := by
  simp [withClient, connected]

theorem answers_of_sendsOne {action : Action Client Request Response Bool}
    (sends : SendsOne sent action) (handler : AgentRequestHandler Client Request Response) :
    Answers handler (action.run handler) :=
  .inl (sends handler).2

/-- Without a driver the session ends; with one, one response is sent. -/
theorem answers_withClient (sends : ∀ client, SendsOne sent (action client))
    (handler : AgentRequestHandler Client Request Response) :
    Answers handler ((withClient action).run handler) := by
  cases connected : handler.driver_client_ with
  | none =>
    rw [withClient_none connected]
    exact .inr ⟨rfl, rfl⟩
  | some client =>
    rw [withClient_some connected]
    exact .inl (sends client handler).2

theorem answers_resource [Inhabited Response]
    (select : VtsDriverControlResponseMessage Response → Option Response)
    (message : Option Response → AndroidSystemControlResponseMessage Response) :
    SendsOne sent (do
      let response ← VtsDriverSocketClient.askResource world client command select
      VtsSocketSendMessage (message response) : Action Client Request Response Bool) :=
  SendsOne.bind ((silent_ask client command).bind fun _ => .pure _) fun _ => sendsOne_send _

end

variable [Inhabited Request] [Inhabited Response]

omit [Inhabited Request] [Inhabited Response] in
/-- A shell command is reported as done in any case. -/
theorem executeShell_answers_iff (command_msg : AndroidSystemControlCommandMessage Request)
    (handler : AgentRequestHandler Client Request Response) :
    Answers handler (true, ((ExecuteShellCommand world command_msg).run handler).2) ↔
      handler.driver_client_ ≠ none := by
  cases connected : handler.driver_client_ with
  | none =>
    rw [ExecuteShellCommand, withClient_none connected]
    refine ⟨fun answers => ?_, fun present => absurd rfl present⟩
    rcases answers with ⟨response, sent⟩ | ⟨no, -⟩
    · exact absurd (List.self_eq_append_right.mp sent) nofun
    · cases no
  | some client =>
    rw [ExecuteShellCommand, withClient_some connected]
    exact ⟨fun _ => nofun, fun _ => .inl (sendsOne_executeShellCommand client _ handler).2⟩

omit [Inhabited Request] [Inhabited Response] in
/-- A type that is not the default was set. -/
theorem commandType_of_getD {command_msg : AndroidSystemControlCommandMessage Request}
    {kind : CommandType} (read : command_msg.command_type.getD .UNKNOWN_COMMAND_TYPE = kind)
    (known : kind ≠ .UNKNOWN_COMMAND_TYPE) : command_msg.command_type = some kind := by
  cases held : command_msg.command_type with
  | none =>
    rw [held] at read
    exact absurd read.symm known
  | some type =>
    rw [held] at read
    exact congrArg some read

theorem answers_of_not_shell {command_msg : AndroidSystemControlCommandMessage Request}
    (other : command_msg.command_type ≠ some .VTS_AGENT_COMMAND_EXECUTE_SHELL_COMMAND)
    (handler : AgentRequestHandler Client Request Response) :
    Answers handler ((ProcessOneCommand world (some command_msg)).run handler) := by
  have text : ∀ {client : Client} {command : VtsDriverControlCommandMessage Request} {func_name},
      SendsOne sent (do
        let result ← VtsDriverSocketClient.askMessage world client command
        SendApiResult func_name result [] : Action Client Request Response Bool) :=
    SendsOne.bind (silent_askMessage _ _) fun _ => sendsOne_send _
  cases kind : command_msg.command_type.getD .UNKNOWN_COMMAND_TYPE with
  | LIST_HALS | UNKNOWN_COMMAND_TYPE | PING =>
    simp only [ProcessOneCommand, kind]
    exact answers_of_sendsOne (sendsOne_send _) handler
  | SET_HOST_INFO =>
    simp only [ProcessOneCommand, kind]
    exact answers_of_sendsOne
      (SendsOne.bind (silent_modify fun _ => rfl) fun _ => sendsOne_send _) handler
  | CHECK_DRIVER_SERVICE =>
    simp only [ProcessOneCommand, kind]
    exact answers_of_sendsOne (sendsOne_checkDriverService _) handler
  | LAUNCH_DRIVER_SERVICE =>
    simp only [ProcessOneCommand, kind]
    exact answers_of_sendsOne (sendsOne_launchDriverService command_msg) handler
  | VTS_AGENT_COMMAND_READ_SPECIFICATION | CALL_API | VTS_AGENT_COMMAND_GET_ATTRIBUTE =>
    simp only [ProcessOneCommand, kind]
    exact answers_withClient (fun _ => text) handler
  | LIST_APIS =>
    simp only [ProcessOneCommand, kind]
    refine answers_withClient (fun client => ?_) handler
    exact SendsOne.bind (silent_askMessage client _) fun _ => sendsOne_send _
  | VTS_AGENT_COMMAND_EXECUTE_SHELL_COMMAND => exact absurd (commandType_of_getD kind nofun) other
  | VTS_FMQ_COMMAND | VTS_HIDL_MEMORY_COMMAND | VTS_HIDL_HANDLE_COMMAND =>
    simp only [ProcessOneCommand, kind]
    exact answers_withClient (fun client => answers_resource client _ _ _) handler

theorem run_shell {command_msg : AndroidSystemControlCommandMessage Request}
    (shell : command_msg.command_type = some .VTS_AGENT_COMMAND_EXECUTE_SHELL_COMMAND)
    (handler : AgentRequestHandler Client Request Response) :
    (ProcessOneCommand world (some command_msg)).run handler =
      (true, ((ExecuteShellCommand world command_msg).run handler).2) := by
  simp only [ProcessOneCommand, shell, Option.getD_some]
  rfl

/-- With a driver connected before any shell command a command is answered, or ends the session. -/
theorem answers_of_connected {command_msg : AndroidSystemControlCommandMessage Request}
    {handler : AgentRequestHandler Client Request Response}
    (connected : command_msg.command_type = some .VTS_AGENT_COMMAND_EXECUTE_SHELL_COMMAND →
      handler.driver_client_ ≠ none) :
    Answers handler ((ProcessOneCommand world (some command_msg)).run handler) := by
  by_cases shell : command_msg.command_type = some .VTS_AGENT_COMMAND_EXECUTE_SHELL_COMMAND
  · rw [run_shell shell]
    exact (executeShell_answers_iff command_msg handler).mpr (connected shell)
  · exact answers_of_not_shell shell handler

/-- Every command is answered, or the session ends, if and only if it is not a shell command without
a driver. -/
theorem processOneCommand_answers_iff
    (received : Option (AndroidSystemControlCommandMessage Request))
    (handler : AgentRequestHandler Client Request Response) :
    Answers handler ((ProcessOneCommand world received).run handler) ↔
      ¬ ((∃ command_msg, received = some command_msg ∧
          command_msg.command_type = some .VTS_AGENT_COMMAND_EXECUTE_SHELL_COMMAND) ∧
        handler.driver_client_ = none) := by
  cases received with
  | none =>
    refine iff_of_true (.inr ⟨rfl, rfl⟩) ?_
    rintro ⟨⟨command_msg, no, -⟩, -⟩
    cases no
  | some command_msg =>
    constructor
    · rintro answers ⟨⟨_, same, shell⟩, absent⟩
      cases same
      rw [run_shell shell] at answers
      exact (executeShell_answers_iff command_msg handler).mp answers absent
    · intro connected
      apply answers_of_connected
      intro shell absent
      exact connected ⟨⟨command_msg, rfl, shell⟩, absent⟩

/-- A shell command before any driver is connected: the session goes on and nothing is sent. -/
theorem processOneCommand_shell_unconnected :
    ¬ ∀ (world : World Unit Unit Unit) (received : Option (AndroidSystemControlCommandMessage Unit))
      (handler : AgentRequestHandler Unit Unit Unit),
      Answers handler ((ProcessOneCommand world received).run handler) := by
  intro always
  let world : World Unit Unit Unit :=
    { readdir := fun _ => none, stat := fun _ => false, remove := fun _ => false, fork := true
      IsDriverRunning := fun _ _ => false, GetDriverSocketClient := fun _ => none
      answer := fun _ _ => none }
  let command_msg : AndroidSystemControlCommandMessage Unit :=
    { command_type := some .VTS_AGENT_COMMAND_EXECUTE_SHELL_COMMAND
      shell_command := [bytes "ls"] }
  rcases always world (some command_msg) ⟨[], 0, none, [], []⟩ with ⟨response, sent⟩ | ⟨no, -⟩
  · exact absurd sent nofun
  · exact absurd no nofun

end AgentRequestHandler

end

end Vts.Agent
