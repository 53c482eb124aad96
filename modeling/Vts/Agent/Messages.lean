import Vts.Python.Text

/-!
# The messages of the agent

What `agents/hal` reads and writes of the messages in `proto/AndroidSystemControlMessage.proto`,
between the runner and the agent, and in `proto/VtsDriverControlMessage.proto`, between the agent and a
driver. An optional field that is not set is read as its default. The requests for queues, memory
and handles and their responses are passed on as they are.
-/

namespace Vts.Agent

open Vts.Python

/-- The bytes of a string of the source. -/
def bytes (text : String) : Text := text.toUTF8.toList

inductive CommandType where
  | UNKNOWN_COMMAND_TYPE | LIST_HALS | SET_HOST_INFO | PING
  | CHECK_DRIVER_SERVICE | LAUNCH_DRIVER_SERVICE | VTS_AGENT_COMMAND_READ_SPECIFICATION
  | LIST_APIS | CALL_API | VTS_AGENT_COMMAND_GET_ATTRIBUTE
  | VTS_AGENT_COMMAND_EXECUTE_SHELL_COMMAND
  | VTS_FMQ_COMMAND | VTS_HIDL_MEMORY_COMMAND | VTS_HIDL_HANDLE_COMMAND
deriving DecidableEq

inductive ResponseCode where
  | UNKNOWN_RESPONSE_CODE | SUCCESS | FAIL
deriving DecidableEq

/-- The number of a code, for where it is used as a condition. -/
def ResponseCode.number : ResponseCode → Nat
  | UNKNOWN_RESPONSE_CODE => 0
  | SUCCESS => 1
  | FAIL => 2

inductive VtsDriverType where
  | UKNOWN_VTS_DRIVER_TYPE
  | VTS_DRIVER_TYPE_HAL_CONVENTIONAL | VTS_DRIVER_TYPE_HAL_LEGACY | VTS_DRIVER_TYPE_HAL_HIDL
  | VTS_DRIVER_TYPE_HAL_HIDL_WRAPPED_CONVENTIONAL | VTS_DRIVER_TYPE_LIB_SHARED
  | VTS_DRIVER_TYPE_SHELL
deriving DecidableEq

/-- A command of the runner. -/
structure AndroidSystemControlCommandMessage (Request : Type) where
  command_type : Option CommandType := none
  paths : List Text := []
  callback_port : Option Int := none
  service_name : Option Text := none
  driver_type : Option VtsDriverType := none
  file_path : Option Text := none
  target_class : Option Int := none
  target_type : Option Int := none
  target_version_major : Option Int := none
  target_version_minor : Option Int := none
  target_package : Option Text := none
  target_component_name : Option Text := none
  module_name : Option Text := none
  hw_binder_service_name : Option Text := none
  arg : Option Text := none
  driver_caller_uid : Option Text := none
  shell_command : List Text := []
  fmq_request : Option Request := none
  hidl_memory_request : Option Request := none
  hidl_handle_request : Option Request := none

/-- A response to the runner. -/
structure AndroidSystemControlResponseMessage (Response : Type) where
  response_code : Option ResponseCode := none
  reason : Option Text := none
  file_names : List Text := []
  spec : Option Text := none
  result : Option Text := none
  stdout : List Text := []
  stderr : List Text := []
  exit_code : List Int := []
  fmq_response : Option Response := none
  hidl_memory_response : Option Response := none
  hidl_handle_response : Option Response := none

inductive VtsDriverCommandType where
  | UNKNOWN_VTS_DRIVER_COMMAND_TYPE | EXIT | GET_STATUS
  | LOAD_HAL | LIST_FUNCTIONS | CALL_FUNCTION | GET_ATTRIBUTE
  | VTS_DRIVER_COMMAND_READ_SPECIFICATION | EXECUTE_COMMAND | INVOKE_SYSCALL
  | FMQ_OPERATION | HIDL_MEMORY_OPERATION | HIDL_HANDLE_OPERATION
deriving DecidableEq

inductive VtsDriverResponseCode where
  | UNKNOWN_VTS_DRIVER_RESPONSE_CODE | VTS_DRIVER_RESPONSE_SUCCESS | VTS_DRIVER_RESPONSE_FAIL
deriving DecidableEq

/-- A command of the agent to a driver. -/
structure VtsDriverControlCommandMessage (Request : Type) where
  command_type : Option VtsDriverCommandType := none
  status_type : Option Int := none
  file_path : Option Text := none
  target_class : Option Int := none
  target_type : Option Int := none
  target_version_major : Option Int := none
  target_version_minor : Option Int := none
  target_package : Option Text := none
  target_component_name : Option Text := none
  module_name : Option Text := none
  hw_binder_service_name : Option Text := none
  arg : Option Text := none
  driver_caller_uid : Option Text := none
  shell_command : List Text := []
  fmq_request : Option Request := none
  hidl_memory_request : Option Request := none
  hidl_handle_request : Option Request := none

/-- A response of a driver. -/
structure VtsDriverControlResponseMessage (Response : Type) where
  response_code : Option VtsDriverResponseCode := none
  return_value : Option Int := none
  return_message : Option Text := none
  stdout : List Text := []
  stderr : List Text := []
  exit_code : List Int := []
  fmq_response : Option Response := none
  hidl_memory_response : Option Response := none
  hidl_handle_response : Option Response := none

end Vts.Agent
