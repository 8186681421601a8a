import Lspee.Core.Connection
import Lspee.Core.Encoding

/-!
# A Command and the Daemon

The commands that ask the daemon something and exit: `status`, `stop`,
`capabilities`, `call` and `do`, and the tools of the MCP server that do the same.
A command connects, writes a frame, reads until there is a response with the id of
the frame, and goes on according to the response. A command that is granted a lease
releases it before it ends.

The other end is `Core.Connection`. What the command writes is what the daemon's
side has yet to read; what the daemon writes is what the command has yet to read.
Either side reads when there is a whole line, or when the other side is closed.
Writing fails when the other side is closed, and only then. A command may be killed
at any time.

`raw_call` of the MCP server says that it releases regardless of the outcome, and
returns before that when there is no response; the others release.

What the file system has is part of the action, as it is in `Core.Documents`, and
so is the time. Two lists are kept beside the code, and nothing reads them: the
frames written, and the responses the command has taken, each with its frame.

## Main definitions

* `ClientError`: Why a command fails.
* `readResponse`: Reading a line for `read_response_for_id`.
* `Command`, `CommandPc`: What is run, and how far it has come.
* `Conversation`: The command, the daemon's connection, and what is between them.
* `ConversationAction`, `Conversation.step`: One step.
-/

namespace Lspee

open Utf8

/-! ### Responses -/

/-- Why a command fails once it is connected. What `serde_json` and the operating
    system say of it is left out. -/
inductive ClientError where
  | io
  | invalidResponse
  | closed (id : String)
  | daemon (code message : String)
  | unexpectedType (request messageType : String)
  | missingLeaseId
  | invalidPayload (type : String)
deriving DecidableEq, Repr

/-- `render_error_payload`. -/
def renderErrorPayload (payload : Json) : ClientError :=
  .daemon (((payload.get "code").bind Json.asStr).getD "E_UNKNOWN")
    (((payload.get "message").bind Json.asStr).getD "Unknown daemon error")

def ensureNotError (response : ControlEnvelope) : Except ClientError Unit :=
  if response.messageType = "Error" then .error (renderErrorPayload response.payload) else .ok ()

/-- The payload of a response that is no error and of the type expected. -/
def expectType (request messageType : String) (response : ControlEnvelope) :
    Except ClientError Json := do
  ensureNotError response
  if response.messageType = messageType then .ok response.payload
  else .error (.unexpectedType request response.messageType)

/-- A payload decoded, or the error of `from_value`. -/
def decodeAs {α : Type} (type : String) (fromValue : Json → Option α) (payload : Json) :
    Except ClientError α :=
  match fromValue payload with
  | some x => .ok x
  | none => .error (.invalidPayload type)

/-- What reading a line does for `read_response_for_id`: the line is for another
    request, or the wait is over. -/
inductive Heard where
  | skipped (rest : List UInt8)
  | over (response : Except ClientError ControlEnvelope) (rest : List UInt8)

def readResponse (fromStr : List Char → Option Json) (expectedId : String) (bytes : List UInt8) :
    Heard :=
  match nextLine bytes .eof with
  | .line text rest =>
    match (fromStr text).bind ControlEnvelope.fromValue with
    | some response =>
      if response.id = some expectedId then .over (.ok response) rest else .skipped rest
    | none => .over (.error .invalidResponse) rest
  | .eof => .over (.error (.closed expectedId)) []
  | .failed => .over (.error .io) []

/-! ### Commands -/

/-- The front end that runs a command. -/
inductive FrontEnd where
  | cli
  | mcp
deriving DecidableEq, Repr

/-- What a command tells the daemon about itself. -/
structure Caller where
  frontEnd : FrontEnd
  key : SessionKeyWire
  clientVersion : String
  clientKind : ClientKind
  pid : Nat
  cwd : Option String

/-- What is run, with the request it has built. -/
inductive Command where
  | status
  | stop
  | capabilities
  | call (request : Json)
  | rawCall (request : Json)
  | doMethod (method : DoMethod) (request : Json)

def Command.request : Command → Json
  | .call request | .rawCall request | .doMethod _ request => request
  | _ => .null

/-- What a command reports. -/
inductive Report where
  | stats (statsOk : StatsOk)
  | stopped
  | capabilities (initializeResult : Option Json)
  | response (response : Json)

/-- How far a command has come: the response it waits for, with what it keeps for
    later. -/
inductive CommandPc where
  | connected
  | asking (id : String)
  | attaching (id : String)
  | opening (id leaseId uri : String)
  | calling (id leaseId : String) (didOpenUri : Option String)
  | closing (id leaseId : String) (result : Except ClientError Report)
  | releasing (id leaseId : String) (result : Except ClientError Report)
  | ended (result : Except ClientError Report)
  | killed

/-- The id that is waited for. -/
def CommandPc.expectedId : CommandPc → Option String
  | .asking id => some id
  | .attaching id => some id
  | .opening id _ _ => some id
  | .calling id _ _ => some id
  | .closing id _ _ => some id
  | .releasing id _ _ => some id
  | _ => none

/-- The process is gone. -/
def CommandPc.gone : CommandPc → Bool
  | .ended _ => true
  | .killed => true
  | _ => false

namespace FrontEnd

def requestId (frontEnd : FrontEnd) (name : String) (nanos : Nat) : String :=
  match frontEnd with
  | cli => newRequestId name nanos
  | mcp => newRequestId ("mcp-" ++ name) nanos

def clientName : FrontEnd → String
  | cli => "lspee_cli"
  | mcp => "lspee_mcp"

end FrontEnd

namespace Caller

/-- The payload of the `Attach`, as `to_value` sorts its fields. -/
def attachPayload (caller : Caller) : Json :=
  .obj [
    ("capabilities", .obj [("stream_mode", .arr [StreamMode.muxControl.toValue])]),
    ("client_meta", .obj ([
      ("client_kind", caller.clientKind.toValue),
      ("client_name", .str caller.frontEnd.clientName),
      ("client_version", .str caller.clientVersion)] ++
      caller.cwd.toList.map (fun path => ("cwd", .str path)) ++ [
      ("pid", .num caller.pid)])),
    ("session_key", .obj [
      ("config_hash", .str caller.key.configHash),
      ("lsp_id", .str caller.key.lspId),
      ("project_root", .str caller.key.projectRoot)])]

/-- The envelope around a payload. -/
def envelope (caller : Caller) (name messageType : String) (payload : Json) (nanos : Nat) :
    ControlEnvelope :=
  ⟨protocolVersion, some (caller.frontEnd.requestId name nanos), messageType, payload⟩

end Caller

/-- The result of a `Call`, once its response is there. -/
def callReport (response : Except ClientError ControlEnvelope) : Except ClientError Report := do
  let payload ← expectType "Call" "CallOk" (← response)
  let callOk ← decodeAs "CallOk" CallOk.fromValue payload
  return .response callOk.response

def statsReport (response : Except ClientError ControlEnvelope) : Except ClientError Report := do
  let payload ← expectType "Stats" "StatsOk" (← response)
  return .stats (← decodeAs "StatsOk" StatsOk.fromValue payload)

def stopReport (response : Except ClientError ControlEnvelope) : Except ClientError Report := do
  let payload ← expectType "Shutdown" "ShutdownOk" (← response)
  let _ ← decodeAs "ShutdownOk" ShutdownOk.fromValue payload
  return .stopped

/-- The lease of an `AttachOk`. -/
def attachedLease (response : Except ClientError ControlEnvelope) : Except ClientError String := do
  let payload ← expectType "Attach" "AttachOk" (← response)
  match (payload.get "lease_id").bind Json.asStr with
  | some leaseId => .ok leaseId
  | none => .error .missingLeaseId

/-- An `AttachOk` as `capabilities` reads it. -/
def attachedOk (response : Except ClientError ControlEnvelope) : Except ClientError AttachOk := do
  let payload ← expectType "Attach" "AttachOk" (← response)
  decodeAs "AttachOk" AttachOk.fromValue payload

/-- Whether a `Notify` was accepted. -/
def notified (name : String) (response : Except ClientError ControlEnvelope) :
    Except ClientError Unit := do
  let _ ← expectType ("Notify (" ++ name ++ ")") "NotifyOk" (← response)
  return ()

/-- The command, the daemon's connection, what the daemon has written and the
    command has not read, and what was written and taken. -/
structure Conversation where
  command : Command
  caller : Caller
  pc : CommandPc
  connection : Connection
  toClient : List UInt8
  sent : List ControlEnvelope
  heard : List (ControlEnvelope × ControlEnvelope)

/-- What can happen next. -/
inductive ConversationAction where
  | daemon (a : ConnectionAction)
  /-- The command writes its first frame. -/
  | begin (nanos : Nat)
  /-- The command reads a line, and goes on if its wait is over. -/
  | hear (nanos : Nat) (file : Except String SourceFile)
  | kill

namespace Conversation

variable (toString : Json → List Char) (fromStr : List Char → Option Json)

/-- A command that has just been accepted by a daemon. -/
def start (command : Command) (caller : Caller) (world : World)
    (settings : MemoryBudgetSettings) (startedAt : Instant) : Conversation where
  command := command
  caller := caller
  pc := .connected
  connection := Connection.accept world settings startedAt [] .eof
  toClient := []
  sent := []
  heard := []

/-- The daemon's side is closed. -/
def daemonClosed (s : Conversation) : Bool :=
  match s.connection.control.pc with
  | .returned _ => true
  | _ => false

/-- Whether a reader gets to the end of a line: a newline, or the end of what a side
    that is closed has written. -/
def readable (bytes : List UInt8) (closed : Bool) : Bool :=
  (splitLine bytes).2.isSome || closed

/-- The command writes a frame, and waits for its response; or cannot write it. -/
def transmit (s : Conversation) (frame : ControlEnvelope) (pc unsent : CommandPc) : Conversation :=
  if s.daemonClosed then { s with pc := unsent }
  else { s with
    connection := { s.connection with bytes := s.connection.bytes ++ writeFrame toString frame }
    pc := pc
    sent := frame :: s.sent }

def release (s : Conversation) (nanos : Nat) (leaseId : String)
    (result : Except ClientError Report) : Conversation :=
  let frame := s.caller.envelope "release" "Release" (.obj [("lease_id", .str leaseId)]) nanos
  s.transmit toString frame
    (.releasing (s.caller.frontEnd.requestId "release" nanos) leaseId result) (.ended result)

def call (s : Conversation) (nanos : Nat) (leaseId : String) (didOpenUri : Option String) :
    Conversation :=
  let frame := s.caller.envelope "call" "Call"
    (.obj [("lease_id", .str leaseId), ("request", s.command.request)]) nanos
  s.transmit toString frame
    (.calling (s.caller.frontEnd.requestId "call" nanos) leaseId didOpenUri) (.ended (.error .io))

/-- Where the daemon is closed, the `Call` that follows a failed `didOpen` cannot be
    written either. -/
def sendDidOpen (s : Conversation) (nanos : Nat) (leaseId : String) (path : PathBuf)
    (source : SourceFile) : Conversation :=
  let frame := s.caller.envelope "notify-open" "Notify" (notifyPayload leaseId
    (didOpen source.uri (languageIdForPath path) source.text)) nanos
  s.transmit toString frame
    (.opening (s.caller.frontEnd.requestId "notify-open" nanos) leaseId source.uri)
    (.ended (.error .io))

/-- And neither can the `Release` that follows a failed `didClose`. -/
def sendDidClose (s : Conversation) (nanos : Nat) (leaseId uri : String)
    (result : Except ClientError Report) : Conversation :=
  let frame := s.caller.envelope "notify-close" "Notify" (notifyPayload leaseId (didClose uri))
    nanos
  s.transmit toString frame
    (.closing (s.caller.frontEnd.requestId "notify-close" nanos) leaseId result) (.ended result)

/-- The first frame of a command. -/
def firstFrame (s : Conversation) (nanos : Nat) : ControlEnvelope :=
  match s.command with
  | .status => s.caller.envelope "stats" "Stats" (.obj []) nanos
  | .stop => s.caller.envelope "shutdown" "Shutdown" (.obj []) nanos
  | _ => s.caller.envelope "attach" "Attach" s.caller.attachPayload nanos

def begin (s : Conversation) (nanos : Nat) : Conversation :=
  match s.command with
  | .status =>
    s.transmit toString (s.firstFrame nanos) (.asking (s.caller.frontEnd.requestId "stats" nanos))
      (.ended (.error .io))
  | .stop =>
    s.transmit toString (s.firstFrame nanos)
      (.asking (s.caller.frontEnd.requestId "shutdown" nanos)) (.ended (.error .io))
  | _ =>
    s.transmit toString (s.firstFrame nanos)
      (.attaching (s.caller.frontEnd.requestId "attach" nanos)) (.ended (.error .io))

/-- What a command does once it has its lease, or has not. -/
def attached (s : Conversation) (nanos : Nat) (file : Except String SourceFile)
    (response : Except ClientError ControlEnvelope) : Conversation :=
  match s.command with
  | .capabilities =>
    match attachedOk response with
    | .ok ok => s.release toString nanos ok.leaseId (.ok (.capabilities ok.initializeResult))
    | .error error => { s with pc := .ended (.error error) }
  | .doMethod method _ =>
    match attachedLease response with
    | .ok leaseId =>
      match method.filePath, file with
      | some path, .ok source => s.sendDidOpen toString nanos leaseId path source
      | _, _ => s.call toString nanos leaseId none
    | .error error => { s with pc := .ended (.error error) }
  | _ =>
    match attachedLease response with
    | .ok leaseId => s.call toString nanos leaseId none
    | .error error => { s with pc := .ended (.error error) }

/-- What a command does once its `Call` is answered, or not. Only `raw_call` gives
    up without a response. -/
def called (s : Conversation) (nanos : Nat) (leaseId : String) (didOpenUri : Option String)
    (response : Except ClientError ControlEnvelope) : Conversation :=
  match s.command, response with
  | .rawCall _, .error error => { s with pc := .ended (.error error) }
  | _, _ =>
    match didOpenUri with
    | some uri => s.sendDidClose toString nanos leaseId uri (callReport response)
    | none => s.release toString nanos leaseId (callReport response)

/-- The wait is over. -/
def proceed (s : Conversation) (nanos : Nat) (file : Except String SourceFile)
    (response : Except ClientError ControlEnvelope) : Conversation :=
  match s.pc with
  | .asking _ =>
    match s.command with
    | .stop => { s with pc := .ended (stopReport response) }
    | _ => { s with pc := .ended (statsReport response) }
  | .attaching _ => s.attached toString nanos file response
  | .opening _ leaseId uri =>
    match notified "didOpen" response with
    | .ok () => s.call toString nanos leaseId (some uri)
    | .error _ => s.call toString nanos leaseId none
  | .calling _ leaseId didOpenUri => s.called toString nanos leaseId didOpenUri response
  | .closing _ leaseId result => s.release toString nanos leaseId result
  | .releasing _ _ result => { s with pc := .ended result }
  | _ => s

/-- A response is taken for the frame written last. -/
def note (s : Conversation) (response : Except ClientError ControlEnvelope) : Conversation :=
  match response, s.sent with
  | .ok r, frame :: _ => { s with heard := (frame, r) :: s.heard }
  | _, _ => s

def hear (s : Conversation) (nanos : Nat) (file : Except String SourceFile) :
    Option Conversation :=
  match s.pc.expectedId with
  | none => none
  | some id =>
    if readable s.toClient s.daemonClosed then
      match readResponse fromStr id s.toClient with
      | .skipped rest => some { s with toClient := rest }
      | .over response rest =>
        some (({ s with toClient := rest }.note response).proceed toString nanos file response)
    else none

/-- What the daemon's side may do. -/
def mayMove (s : Conversation) : ConnectionAction → Bool
  | .read _ => readable s.connection.bytes s.pc.gone
  | .wrote ok => ok = !s.pc.gone
  | _ => true

/-- What a step of the daemon's side writes. -/
def written (s : Conversation) : ConnectionAction → List UInt8
  | .wrote true => s.connection.written.flatMap (writeEnvelope toString)
  | _ => []

/-- One step. -/
def step (s : Conversation) : ConversationAction → Option Conversation
  | .daemon a =>
    if s.mayMove a then
      (s.connection.step fromStr a).map fun connection =>
        { s with connection := connection, toClient := s.toClient ++ s.written toString a }
    else none
  | .begin nanos =>
    match s.pc with
    | .connected => some (s.begin toString nanos)
    | _ => none
  | .hear nanos file => s.hear toString fromStr nanos file
  | .kill => if s.pc.gone then none else some { s with pc := .killed }

end Conversation

end Lspee
