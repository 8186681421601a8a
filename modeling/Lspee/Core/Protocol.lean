import Lspee.Core.Registry
import Lspee.Lib.Utf8

/-!
# The Control Protocol

The messages of the control channel, and how they are read from and written to
JSON. A frame is one line; `ControlEnvelope` wraps the payload with the protocol
version, an id and a type.

The types derive their decoders. A structure is read from an object, whose other
fields are ignored, or from an array that lists the fields in order; an optional
field may be missing from an object, or be `null`. A variant without data is
read from its name, or from an object that maps the name to `null`.

## Main definitions

* `asStruct`, `asVariant`, `optional`, `asU32`: The derived decoders.
* `ControlEnvelope`, `Attach`, `Release`, `CallPayload`, `NotifyPayload`: The
  messages a client sends.
* `okEnvelope`, `errorEnvelope`: The answers.
* `validateSessionKey`, `preferredStreamMode`: What an attach checks and chooses.
-/

namespace Lspee

def protocolVersion : Nat := 1

def maxFrameSizeBytes : Nat := 1048576

/-! ### Decoding -/

namespace Json

/-- The fields of a structure with these names, in this order. -/
def asStruct (names : List String) : Json → Option (String → Option Json)
  | obj fields => some (fun name => fields.lookup name)
  | arr items =>
    if items.length = names.length then some (fun name => (names.zip items).lookup name) else none
  | _ => none

/-- The name of a variant without data. -/
def asVariant : Json → Option String
  | str name => some name
  | obj [(name, null)] => some name
  | _ => none

/-- An optional field. -/
def optional {α : Type} (decode : Json → Option α) : Option Json → Option (Option α)
  | none => some none
  | some null => some none
  | some v => (decode v).map some

/-- An unsigned integer of 32 bits. -/
def asU32 (v : Json) : Option Nat :=
  (v.asU64).bind (fun n => if n < 2 ^ 32 then some n else none)

end Json

/-- The path a text denotes: its components, where a leading `.` counts and an
    inner one does not. -/
def PathBuf.ofString (text : String) : PathBuf :=
  let pieces := (text.toList.splitOn '/').map String.ofList
  let components := pieces.filter (fun piece => piece ≠ "" && piece ≠ ".")
  if text.toList.head? = some '/' then ⟨true, components⟩
  else if pieces.head? = some "." then ⟨false, "." :: components⟩
  else ⟨false, components⟩

/-- Versioned wrapper of every control-channel message. -/
structure ControlEnvelope where
  v : Nat
  id : Option String
  messageType : String
  payload : Json
deriving DecidableEq

structure SessionKeyWire where
  projectRoot : String
  configHash : String
  lspId : String
deriving DecidableEq

structure ClientMeta where
  clientName : String
  clientVersion : String
  clientKind : Option ClientKind
  pid : Option Nat
  cwd : Option String
deriving DecidableEq

inductive StreamMode where
  | dedicated
  | muxControl
deriving DecidableEq, Repr

structure AttachCapabilities where
  streamMode : List StreamMode
deriving DecidableEq

structure Attach where
  sessionKey : SessionKeyWire
  clientMeta : ClientMeta
  capabilities : Option AttachCapabilities
deriving DecidableEq

inductive ReleaseReason where
  | clientExit
  | clientDisconnect
  | shutdown
  | error
deriving DecidableEq, Repr

structure Release where
  leaseId : String
  reason : Option ReleaseReason
deriving DecidableEq

/-- The payload of a `Call`. -/
structure CallPayload where
  leaseId : String
  request : Json
deriving DecidableEq

/-- The payload of a `Notify`. -/
structure NotifyPayload where
  leaseId : String
  message : Json
deriving DecidableEq

def ControlEnvelope.fromValue (value : Json) : Option ControlEnvelope := do
  let field ← value.asStruct ["v", "id", "type", "payload"]
  let v ← (field "v").bind Json.asU32
  let id ← Json.optional Json.asStr (field "id")
  let messageType ← (field "type").bind Json.asStr
  let payload ← field "payload"
  return { v, id, messageType, payload }

def SessionKeyWire.fromValue (value : Json) : Option SessionKeyWire := do
  let field ← value.asStruct ["project_root", "config_hash", "lsp_id"]
  let projectRoot ← (field "project_root").bind Json.asStr
  let configHash ← (field "config_hash").bind Json.asStr
  let lspId ← (field "lsp_id").bind Json.asStr
  return { projectRoot, configHash, lspId }

def ClientKind.fromValue (value : Json) : Option ClientKind :=
  match value.asVariant with
  | some "editor" => some .editor
  | some "agent" => some .agent
  | some "human" => some .human
  | some "ci" => some .ci
  | some "other" => some .other
  | _ => none

def ClientMeta.fromValue (value : Json) : Option ClientMeta := do
  let field ← value.asStruct ["client_name", "client_version", "client_kind", "pid", "cwd"]
  let clientName ← (field "client_name").bind Json.asStr
  let clientVersion ← (field "client_version").bind Json.asStr
  let clientKind ← Json.optional ClientKind.fromValue (field "client_kind")
  let pid ← Json.optional Json.asU32 (field "pid")
  let cwd ← Json.optional Json.asStr (field "cwd")
  return { clientName, clientVersion, clientKind, pid, cwd }

def StreamMode.fromValue (value : Json) : Option StreamMode :=
  match value.asVariant with
  | some "dedicated" => some .dedicated
  | some "mux_control" => some .muxControl
  | _ => none

def AttachCapabilities.fromValue (value : Json) : Option AttachCapabilities := do
  let field ← value.asStruct ["stream_mode"]
  match field "stream_mode" with
  | some (.arr modes) => return { streamMode := ← modes.mapM StreamMode.fromValue }
  | _ => none

def Attach.fromValue (value : Json) : Option Attach := do
  let field ← value.asStruct ["session_key", "client_meta", "capabilities"]
  let sessionKey ← (field "session_key").bind SessionKeyWire.fromValue
  let clientMeta ← (field "client_meta").bind ClientMeta.fromValue
  let capabilities ← Json.optional AttachCapabilities.fromValue (field "capabilities")
  return { sessionKey, clientMeta, capabilities }

def ReleaseReason.fromValue (value : Json) : Option ReleaseReason :=
  match value.asVariant with
  | some "client_exit" => some .clientExit
  | some "client_disconnect" => some .clientDisconnect
  | some "shutdown" => some .shutdown
  | some "error" => some .error
  | _ => none

def Release.fromValue (value : Json) : Option Release := do
  let field ← value.asStruct ["lease_id", "reason"]
  let leaseId ← (field "lease_id").bind Json.asStr
  let reason ← Json.optional ReleaseReason.fromValue (field "reason")
  return { leaseId, reason }

def CallPayload.fromValue (value : Json) : Option CallPayload := do
  let field ← value.asStruct ["lease_id", "request"]
  let leaseId ← (field "lease_id").bind Json.asStr
  let request ← field "request"
  return { leaseId, request }

def NotifyPayload.fromValue (value : Json) : Option NotifyPayload := do
  let field ← value.asStruct ["lease_id", "message"]
  let leaseId ← (field "lease_id").bind Json.asStr
  let message ← field "message"
  return { leaseId, message }

/-- Whether the payload of a `Shutdown`, a structure without fields, is one. -/
def isShutdownPayload (value : Json) : Bool := (value.asStruct []).isSome

/-! ### Answers -/

def okEnvelope (id : Option String) (messageType : String) (payload : Json) : ControlEnvelope :=
  { v := protocolVersion, id, messageType, payload }

def errorEnvelope (id : Option String) (code message : String) (retryable : Bool)
    (details : Option Json) : ControlEnvelope where
  v := protocolVersion
  id := id
  messageType := "Error"
  payload := .obj ([("code", .str code)] ++ (details.toList.map (fun v => ("details", v))) ++
    [("message", .str message), ("retryable", .bool retryable)])

def StreamMode.toValue : StreamMode → Json
  | .dedicated => .str "dedicated"
  | .muxControl => .str "mux_control"

/-- The payload of an `AttachOk`. -/
def attachOk (leaseId : String) (mode : StreamMode) (endpoint : Option String)
    (initializeResult : Json) : Json :=
  .obj [("initialize_result", initializeResult), ("lease_id", .str leaseId),
    ("server", .obj [("reused", .bool true), ("state", .str "Ready")]),
    ("stream", .obj ((endpoint.toList.map (fun text => ("endpoint", Json.str text))) ++
      [("mode", mode.toValue)]))]

/-! ### What an attach checks -/

def isLspIdChar (c : Char) : Bool :=
  ('a' ≤ c && c ≤ 'z') || ('0' ≤ c && c ≤ '9') || c = '-' || c = '_' || c = '.'

def validateSessionKey (key : SessionKeyWire) : Except String Unit :=
  if key.projectRoot = "" ∨ key.projectRoot.toList.head? ≠ some '/' then
    .error "session_key.project_root must be an absolute non-empty path"
  else if (Utf8.trim key.configHash.toList).isEmpty then
    .error "session_key.config_hash must be non-empty"
  else if key.lspId = "" ∨ ¬ key.lspId.toList.all isLspIdChar then
    .error "session_key.lsp_id must match ^[a-z0-9._-]+$"
  else .ok ()

/-- The key a session is registered under. -/
def SessionKeyWire.sessionKey (key : SessionKeyWire) : SessionKey where
  root := PathBuf.ofString key.projectRoot
  lspId := key.lspId
  configHash := key.configHash

def preferredStreamMode : Option AttachCapabilities → StreamMode
  | none => .muxControl
  | some capabilities =>
    if .dedicated ∈ capabilities.streamMode then .dedicated else .muxControl

end Lspee
