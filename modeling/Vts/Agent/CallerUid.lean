import Vts.Agent.RequestHandler
import Vts.Comm.Socket

/-!
# The user a call runs as

A call of the runner passes through three processes: `VtsTcpClient.CallApi` puts the caller's uid
into the command, `AgentRequestHandler` passes it on, and `VtsDriverHalSocketServer` of
`drivers/hal/server/SocketServer.cpp` changes its own uid before it makes the call. Sends between
the agent and the driver succeed, and what the driver's managers do is open.

Proved here: the calls of a session that starts as root run as their callers if and only if no call
asks for another user than an earlier call that asked for one other than root. A call for which no
uid is given asks for root, since the agent sends an empty text for it and the driver reads the
empty text as zero.
-/

namespace Vts.Agent

open Vts.Python Vts.Lib Vts.Comm List

/-- The user ids of a process. -/
structure Credentials where
  real : Nat
  effective : Nat
  saved : Nat
deriving DecidableEq

namespace Credentials

/-- All three ids are the same. -/
def all (uid : Nat) : Credentials := ⟨uid, uid, uid⟩

end Credentials

/-- A privileged process sets all three ids, another only its effective one and only to one of the
others. The last number of `uid_t` is not an id. -/
def setuid (uid : Nat) (ids : Credentials) : Credentials :=
  if uid = 2 ^ 32 - 1 then ids
  else if ids.effective = 0 then .all uid
  else if uid = ids.real ∨ uid = ids.saved then { ids with effective := uid }
  else ids

/-- An `int` that is passed as a `uid_t`. -/
def toUid (value : Int) : Nat := (value % 2 ^ 32).toNat

/-- What the driver asks its managers for. -/
structure Managers (Manager Request Response : Type) where
  LoadTargetComponent (file_path : Text)
    (target_class target_type target_version_major target_version_minor : Int)
    (target_package target_component_name hw_binder_service_name : Text) : StateM Manager Int
  ReadSpecification (name : Text)
    (target_class target_type target_version_major target_version_minor : Int)
    (target_package : Text) : StateM Manager Text
  /-- A call runs as a user. -/
  CallFunction (uid : Nat) (arg : Text) : StateM Manager Text
  GetAttribute (arg : Text) : StateM Manager Text
  ListFunctions : StateM Manager Text
  ProcessFmqCommand (fmq_request : Request) : StateM Manager Response
  ProcessHidlMemoryCommand (hidl_memory_request : Request) : StateM Manager Response
  ProcessHidlHandleCommand (hidl_handle_request : Request) : StateM Manager Response

/-- The process of a driver for one session, with the calls it has made and the users they ran as. -/
structure VtsDriverHalSocketServer (Manager : Type) where
  ids : Credentials
  manager : Manager
  called : List (Text × Nat)

namespace VtsDriverHalSocketServer

variable {Manager Request Response : Type} (managers : Managers Manager Request Response)

/-- What a session does, unless its behaviour is undefined. -/
abbrev Process (Manager : Type) := StateT (VtsDriverHalSocketServer Manager) Option

def manage {α : Type} (action : StateM Manager α) : Process Manager α := fun server =>
  let done := action.run server.manager
  some (done.1, { server with manager := done.2 })

def Call (arg : Text) : Process Manager Text := do
  let uid := (← get).ids.effective
  modify fun server => { server with called := server.called ++ [(arg, uid)] }
  manage (managers.CallFunction uid arg)

variable [Inhabited Request]

/-- Whether the session goes on, and what is sent. -/
def ProcessOneCommand (command_message : VtsDriverControlCommandMessage Request) :
    Process Manager (Bool × Option (VtsDriverControlResponseMessage Response)) := do
  match command_message.command_type.getD .UNKNOWN_VTS_DRIVER_COMMAND_TYPE with
  | .EXIT => return (false, some { response_code := some .VTS_DRIVER_RESPONSE_SUCCESS })
  | .LOAD_HAL =>
    let driver_id ← manage (managers.LoadTargetComponent (command_message.file_path.getD [])
      (command_message.target_class.getD 0) (command_message.target_type.getD 0)
      (command_message.target_version_major.getD (-1))
      (command_message.target_version_minor.getD (-1))
      (command_message.target_package.getD []) (command_message.target_component_name.getD [])
      (command_message.hw_binder_service_name.getD []))
    return (true, some
      { response_code := some (if driver_id = -1 then .VTS_DRIVER_RESPONSE_FAIL
          else .VTS_DRIVER_RESPONSE_SUCCESS)
        return_value := some driver_id })
  | .GET_STATUS =>
    return (true, some
      { response_code := some .VTS_DRIVER_RESPONSE_SUCCESS
        return_value := some (command_message.status_type.getD 0) })
  | .CALL_FUNCTION =>
    match command_message.driver_caller_uid with
    | none => pure ()
    | some driver_caller_uid =>
      let value ← StateT.lift (atoi driver_caller_uid)
      modify fun server => { server with ids := setuid (toUid value) server.ids }
    let result ← Call managers (command_message.arg.getD [])
    return (true, some
      { response_code := some .VTS_DRIVER_RESPONSE_SUCCESS, return_message := some result })
  | .VTS_DRIVER_COMMAND_READ_SPECIFICATION =>
    let result ← manage (managers.ReadSpecification (command_message.module_name.getD [])
      (command_message.target_class.getD 0) (command_message.target_type.getD 0)
      (command_message.target_version_major.getD (-1))
      (command_message.target_version_minor.getD (-1)) (command_message.target_package.getD []))
    return (true, some
      { response_code := some .VTS_DRIVER_RESPONSE_SUCCESS, return_message := some result })
  | .GET_ATTRIBUTE =>
    let result ← manage (managers.GetAttribute (command_message.arg.getD []))
    return (true, some
      { response_code := some .VTS_DRIVER_RESPONSE_SUCCESS, return_message := some result })
  | .LIST_FUNCTIONS =>
    let result ← manage managers.ListFunctions
    return (true, some
      (if 0 < result.length then
        { response_code := some .VTS_DRIVER_RESPONSE_SUCCESS, return_message := some result }
      else { response_code := some .VTS_DRIVER_RESPONSE_FAIL }))
  | .FMQ_OPERATION =>
    let fmq_response ← manage (managers.ProcessFmqCommand
      (command_message.fmq_request.getD default))
    return (true, some
      { response_code := some .VTS_DRIVER_RESPONSE_SUCCESS, fmq_response := some fmq_response })
  | .HIDL_MEMORY_OPERATION =>
    let hidl_memory_response ← manage (managers.ProcessHidlMemoryCommand
      (command_message.hidl_memory_request.getD default))
    return (true, some
      { response_code := some .VTS_DRIVER_RESPONSE_SUCCESS
        hidl_memory_response := some hidl_memory_response })
  | .HIDL_HANDLE_OPERATION =>
    let hidl_handle_response ← manage (managers.ProcessHidlHandleCommand
      (command_message.hidl_handle_request.getD default))
    return (true, some
      { response_code := some .VTS_DRIVER_RESPONSE_SUCCESS
        hidl_handle_response := some hidl_handle_response })
  | .UNKNOWN_VTS_DRIVER_COMMAND_TYPE | .EXECUTE_COMMAND | .INVOKE_SYSCALL => return (false, none)

/-- The state after one command. -/
def after (command_message : VtsDriverControlCommandMessage Request)
    (server : VtsDriverHalSocketServer Manager) : Option (VtsDriverHalSocketServer Manager) :=
  ((ProcessOneCommand managers command_message).run server).map Prod.snd

end VtsDriverHalSocketServer

/-! ## A session of calls -/

/-- The command that `VtsTcpClient.CallApi` sends. -/
def CallApi {Request : Type} (arg : Text) (caller_uid : Option Text) :
    AndroidSystemControlCommandMessage Request :=
  { command_type := some .CALL_API, arg := some arg, driver_caller_uid := caller_uid }

/-- A call of the runner: what the outside says meanwhile, and the user, if one is given. -/
structure ApiCall (Client Request Response : Type) where
  outside : World Client Request Response
  arg : Text
  caller_uid : Option Nat

section

variable {Client Manager Request Response : Type} [Inhabited Request] [Inhabited Response]
  (managers : Managers Manager Request Response)

/-- The agent and a driver with which it is connected. -/
abbrev Connected (Client Manager Request Response : Type) :=
  AgentRequestHandler Client Request Response × VtsDriverHalSocketServer Manager

/-- The outside, where the answers are those of the driver. -/
def World.answeredBy (outside : World Client Request Response)
    (server : VtsDriverHalSocketServer Manager) : World Client Request Response :=
  { outside with
    answer := fun _ message =>
      ((VtsDriverHalSocketServer.ProcessOneCommand managers message).run server).bind (·.1.2) }

/-- One call: the agent processes the command and the driver processes what the agent asks. -/
def passCall (system : Connected Client Manager Request Response)
    (call : ApiCall Client Request Response) :
    Option (Connected Client Manager Request Response) :=
  let handler := ((AgentRequestHandler.ProcessOneCommand
    (call.outside.answeredBy managers system.2)
    (some (CallApi call.arg (call.caller_uid.map decimal)))).run system.1).2
  let messages := (handler.asked.drop system.1.asked.length).map Prod.snd
  (messages.foldlM (fun server message => VtsDriverHalSocketServer.after managers message server)
    system.2).map fun server => (handler, server)

/-- The users of the calls, from the user the session runs as. -/
def usersFrom : Nat → List Nat → List Nat
  | _, [] => []
  | current, uid :: uids =>
    let next := if current = 0 then uid else current
    next :: usersFrom next uids

/-- The users are those asked for if and only if none is asked for after another than root. -/
theorem usersFrom_eq_iff (current : Nat) (uids : List Nat) :
    usersFrom current uids = uids ↔
      (current = 0 ∨ ∀ uid ∈ uids, uid = current) ∧
        uids.Pairwise fun first later => first = 0 ∨ later = first := by
  induction uids generalizing current with
  | nil => simp [usersFrom]
  | cons uid uids ih =>
    rw [usersFrom, List.cons.injEq, ih, pairwise_cons]
    by_cases root : current = 0
    · simp only [root, ↓reduceIte, true_and, true_or, and_congr_left_iff]
      intro _
      exact ⟨fun same later listed => same.imp_right fun all => all later listed,
        fun same => or_iff_not_imp_left.mpr fun other later listed =>
          (same later listed).resolve_left other⟩
    · simp only [root, ↓reduceIte, false_or, forall_mem_cons]
      constructor
      · rintro ⟨same, all, pairwise⟩
        exact ⟨⟨same.symm, all⟩, fun later listed => .inr ((all later listed).trans same), pairwise⟩
      · rintro ⟨⟨same, all⟩, -, pairwise⟩
        exact ⟨same.symm, all, pairwise⟩

theorem usersFrom_length (current : Nat) (uids : List Nat) :
    (usersFrom current uids).length = uids.length := by
  induction uids generalizing current with
  | nil => rfl
  | cons uid uids ih => exact congrArg (· + 1) (ih _)

theorem setuid_all {current uid : Nat} (known : uid ≠ 2 ^ 32 - 1) :
    setuid uid (.all current) = .all (if current = 0 then uid else current) := by
  rw [setuid, if_neg known]
  by_cases root : current = 0
  · rw [if_pos root, if_pos (show (Credentials.all current).effective = 0 from root)]
  · rw [if_neg root, if_neg (show (Credentials.all current).effective ≠ 0 from root)]
    split
    · rename_i own
      have same : uid = current := own.elim id id
      rw [same]
      rfl
    · rfl

theorem toUid_natCast {uid : Nat} (small : uid < 2 ^ 31) : toUid uid = uid := by
  rw [toUid]
  omega

/-- The agent asks the driver once for a call, always with a text for the uid. -/
theorem processOneCommand_callApi {world : World Client Request Response}
    {handler : AgentRequestHandler Client Request Response} {client : Client}
    (connected : handler.driver_client_ = some client) (arg : Text) (caller_uid : Option Text) :
    ((AgentRequestHandler.ProcessOneCommand world (some (CallApi arg caller_uid))).run
        handler).2.asked =
      handler.asked ++ [(client,
        { command_type := some .CALL_FUNCTION, arg := some arg
          driver_caller_uid := some (caller_uid.getD []) })] ∧
    ((AgentRequestHandler.ProcessOneCommand world (some (CallApi arg caller_uid))).run
        handler).2.driver_client_ = some client := by
  have runs : (AgentRequestHandler.ProcessOneCommand world (some (CallApi arg caller_uid))).run
      handler = (AgentRequestHandler.CallApi world arg (caller_uid.getD [])).run handler := rfl
  rw [runs, AgentRequestHandler.CallApi, AgentRequestHandler.withClient_some connected]
  exact ⟨rfl, connected⟩

omit [Inhabited Response] in
/-- The driver changes its ids and makes the call as the user that it then is. -/
theorem after_callFunction {text : Text} {value : Int} (read : atoi text = some value)
    (server : VtsDriverHalSocketServer Manager) (arg : Text) :
    let ids := setuid (toUid value) server.ids
    server.after managers
        { command_type := some .CALL_FUNCTION, arg := some arg, driver_caller_uid := some text } =
      some ⟨ids, ((managers.CallFunction ids.effective arg).run server.manager).2,
        server.called ++ [(arg, ids.effective)]⟩ := by
  simp only [VtsDriverHalSocketServer.after, VtsDriverHalSocketServer.ProcessOneCommand,
    Option.getD_some, read]
  rfl

omit [Inhabited Response] in
theorem after_callFunction_undefined {text : Text} (read : atoi text = none)
    (server : VtsDriverHalSocketServer Manager) (arg : Text) :
    server.after managers
        { command_type := some .CALL_FUNCTION, arg := some arg, driver_caller_uid := some text } =
      none := by
  simp only [VtsDriverHalSocketServer.after, VtsDriverHalSocketServer.ProcessOneCommand,
    Option.getD_some, read]
  rfl

/-- A missing uid is read as root. -/
theorem atoi_callerUid (caller_uid : Option Nat) :
    atoi ((caller_uid.map decimal).getD []) =
      if caller_uid.getD 0 < 2 ^ 31 then some (caller_uid.getD 0 : Int) else none := by
  cases caller_uid with
  | none => rfl
  | some uid =>
    simp only [Option.map_some, Option.getD_some]
    by_cases small : uid < 2 ^ 31
    · rw [if_pos small]
      exact atoi_decimal small
    · rw [if_neg small]
      exact atoi_decimal_large (Nat.le_of_not_lt small)

variable {system : Connected Client Manager Request Response} {client : Client}

section

variable {call : ApiCall Client Request Response}
  (connected : system.1.driver_client_ = some client)
include connected

theorem passCall_eq (call : ApiCall Client Request Response) :
    ∃ handler : AgentRequestHandler Client Request Response,
      handler.driver_client_ = some client ∧
      passCall managers system call =
        (system.2.after managers
          { command_type := some .CALL_FUNCTION, arg := some call.arg
            driver_caller_uid := some ((call.caller_uid.map decimal).getD []) }).map
          fun server => (handler, server) := by
  obtain ⟨asked, kept⟩ := @processOneCommand_callApi _ _ _ _ _
    (call.outside.answeredBy managers system.2) _ _ connected call.arg
    (call.caller_uid.map decimal)
  refine ⟨_, kept, ?_⟩
  rw [passCall, asked, drop_left]
  simp

/-- A call of a session whose ids are all the same: the ids stay all the same, and the call runs as
the user asked for only if the session runs as root. -/
theorem passCall_runs {current : Nat} (same : system.2.ids = .all current)
    (small : call.caller_uid.getD 0 < 2 ^ 31) :
    ∃ next, passCall managers system call = some next ∧
      next.1.driver_client_ = some client ∧
      next.2.ids = .all (if current = 0 then call.caller_uid.getD 0 else current) ∧
      next.2.called = system.2.called ++
        [(call.arg, if current = 0 then call.caller_uid.getD 0 else current)] := by
  obtain ⟨handler, kept, passes⟩ := passCall_eq managers connected call
  have read := atoi_callerUid call.caller_uid
  rw [if_pos small] at read
  have runs := after_callFunction managers read system.2 call.arg
  have changed : setuid (toUid (call.caller_uid.getD 0)) system.2.ids =
      .all (if current = 0 then call.caller_uid.getD 0 else current) := by
    rw [same, toUid_natCast small, setuid_all (by omega)]
  rw [changed] at runs
  rw [runs] at passes
  exact ⟨_, passes, kept, rfl, rfl⟩

theorem passCall_undefined (large : ¬ call.caller_uid.getD 0 < 2 ^ 31) :
    passCall managers system call = none := by
  obtain ⟨handler, -, passes⟩ := passCall_eq managers connected call
  have read := atoi_callerUid call.caller_uid
  rw [if_neg large] at read
  rw [passes, after_callFunction_undefined managers read]
  rfl

end

theorem session_called {current : Nat} (connected : system.1.driver_client_ = some client)
    (same : system.2.ids = .all current) (calls : List (ApiCall Client Request Response)) :
    (calls.foldlM (passCall managers) system).map (fun done => done.2.called) =
      if ∀ call ∈ calls, call.caller_uid.getD 0 < 2 ^ 31 then
        some (system.2.called ++ (calls.map ApiCall.arg).zip
          (usersFrom current (calls.map fun call => call.caller_uid.getD 0)))
      else none := by
  induction calls generalizing system current with
  | nil => simp
  | cons call calls ih =>
    rw [foldlM_cons]
    by_cases small : call.caller_uid.getD 0 < 2 ^ 31
    · obtain ⟨next, passes, stays, ids, called⟩ :=
        passCall_runs managers connected same small
      have rest := ih stays ids
      rw [passes]
      simp only [forall_mem_cons, small, true_and, map_cons, usersFrom,
        zip_cons_cons]
      rw [called, append_assoc, singleton_append] at rest
      exact rest
    · rw [passCall_undefined managers connected small, if_neg]
      · rfl
      · intro all
        exact small (all call mem_cons_self)

/-- The calls of a session that starts as root run as the users given for them, and as root where
none is given, if and only if each uid is an `int` and none is asked for after another than root. -/
theorem session_runs_as_given
    (connected : system.1.driver_client_ = some client)
    (start : system.2.ids = .all 0 ∧ system.2.called = [])
    (calls : List (ApiCall Client Request Response)) :
    (calls.foldlM (passCall managers) system).map (fun done => done.2.called) =
        some (calls.map fun call => (call.arg, call.caller_uid.getD 0)) ↔
      (∀ call ∈ calls, call.caller_uid.getD 0 < 2 ^ 31) ∧
        (calls.map fun call => call.caller_uid.getD 0).Pairwise
          fun first later => first = 0 ∨ later = first := by
  rw [session_called managers connected start.1, start.2, nil_append]
  by_cases small : ∀ call ∈ calls, call.caller_uid.getD 0 < 2 ^ 31
  · rw [if_pos small, Option.some_inj, and_iff_right small]
    have users := usersFrom_eq_iff 0 (calls.map fun call => call.caller_uid.getD 0)
    rw [and_iff_right (.inl rfl)] at users
    rw [← users, ← zip_map']
    refine ⟨fun zipped => ?_, fun same => congrArg _ same⟩
    have second := congrArg (List.map Prod.snd) zipped
    rwa [map_snd_zip (by simp [usersFrom_length]), map_snd_zip (by simp)] at second
  · rw [if_neg small]
    exact iff_of_false nofun fun both => small both.1

/-! ## Any commands -/

theorem setuid_other {current : Nat} (other : current ≠ 0) (uid : Nat) :
    setuid uid (.all current) = .all current := by
  by_cases known : uid = 2 ^ 32 - 1
  · rw [setuid, if_pos known]
  · rw [setuid_all known, if_neg other]

section

variable {current : Nat} (other : current ≠ 0)
  {server next : VtsDriverHalSocketServer Manager} (same : server.ids = .all current)
include other same

omit [Inhabited Response] in
/-- No command changes the user of a driver that is not root. -/
theorem after_keeps_user {message : VtsDriverControlCommandMessage Request}
    (done : server.after managers message = some next) :
    next.ids = .all current ∧
      ∃ args : List Text, next.called = server.called ++ args.map (·, current) := by
  unfold VtsDriverHalSocketServer.after VtsDriverHalSocketServer.ProcessOneCommand at done
  split at done
  case h_4 =>
    have called {ids : Credentials} (stays : ids = .all current) : ∃ args : List Text,
        server.called ++ [(message.arg.getD [], ids.effective)] =
          server.called ++ args.map (·, current) := ⟨[message.arg.getD []], by rw [stays]; rfl⟩
    split at done
    · obtain rfl := Option.some.inj done
      exact ⟨same, called same⟩
    · rename_i text given
      cases read : atoi text with
      | none =>
        rw [read] at done
        cases done
      | some value =>
        rw [read] at done
        obtain rfl := Option.some.inj done
        have stays : setuid (toUid value) server.ids = .all current := by
          rw [same, setuid_other other]
        exact ⟨stays, called stays⟩
  all_goals
    obtain rfl := Option.some.inj done
    exact ⟨same, [], (append_nil _).symm⟩

omit [Inhabited Response] in
/-- A driver that is not root stays the user that it is, whatever commands come, and makes all calls
as that user. -/
theorem user_stays {messages : List (VtsDriverControlCommandMessage Request)}
    (ran : messages.foldlM (fun server message => server.after managers message) server =
      some next) :
    next.ids = .all current ∧
      ∃ args : List Text, next.called = server.called ++ args.map (·, current) := by
  induction messages generalizing server with
  | nil =>
    cases ran
    exact ⟨same, [], (append_nil _).symm⟩
  | cons message messages ih =>
    obtain ⟨between, done, rest⟩ := Option.bind_eq_some_iff.mp ran
    obtain ⟨kept, args, called⟩ := after_keeps_user managers other same done
    obtain ⟨ids, more, calledThen⟩ := ih kept rest
    refine ⟨ids, args ++ more, ?_⟩
    rw [calledThen, called, map_append, append_assoc]

end

end

section

/-- An agent, connected with a driver that runs as root and has made no calls. -/
private def fresh : Connected Unit Unit Unit Unit := (⟨[], 0, some (), [], []⟩, ⟨.all 0, (), []⟩)

private def idle : Managers Unit Unit Unit where
  LoadTargetComponent _ _ _ _ _ _ _ _ := pure 0
  ReadSpecification _ _ _ _ _ _ := pure []
  CallFunction _ _ := pure []
  GetAttribute _ := pure []
  ListFunctions := pure []
  ProcessFmqCommand _ := pure ()
  ProcessHidlMemoryCommand _ := pure ()
  ProcessHidlHandleCommand _ := pure ()

private def callAs (caller_uid : Option Nat) : ApiCall Unit Unit Unit where
  outside :=
    { readdir := fun _ => none, stat := fun _ => false, remove := fun _ => false, fork := true
      IsDriverRunning := fun _ _ => false, GetDriverSocketClient := fun _ => none
      answer := fun _ _ => none }
  arg := []
  caller_uid := caller_uid

/-- A call without a uid, then calls as one user. -/
theorem session_runs_as_given_once :
    (([none, some 1000, some 1000].map callAs).foldlM (passCall idle) fresh).map
        (fun done => done.2.called) = some [([], 0), ([], 1000), ([], 1000)] :=
  (@session_runs_as_given Unit Unit Unit Unit _ _ idle fresh () rfl ⟨rfl, rfl⟩
    ([none, some 1000, some 1000].map callAs)).mpr (by decide)

/-- A call as one user, then a call without a uid: it runs as that user. -/
theorem session_keeps_user :
    ¬ ∀ calls : List (ApiCall Unit Unit Unit),
      (calls.foldlM (passCall idle) fresh).map (fun done => done.2.called) =
        some (calls.map fun call => (call.arg, call.caller_uid.getD 0)) := by
  intro always
  exact absurd (always ([some 1000, none].map callAs)) (by decide)

/-- A driver that is asked for a call as root and makes it as another user. -/
theorem user_stays_call : ∃ next : VtsDriverHalSocketServer Unit,
    next.ids = .all 2000 ∧
      ∃ args : List Text, next.called = [] ++ args.map (·, 2000) :=
  ⟨⟨.all 2000, (), [([], 2000)]⟩, @user_stays Unit Unit Unit _ idle 2000 (by decide)
    ⟨.all 2000, (), []⟩ _ rfl [{ command_type := some .CALL_FUNCTION, driver_caller_uid := some [48] }]
    rfl⟩

end

end Vts.Agent
