import Lspee.Core.Protocol
import Lspee.Core.Proxy
import Lspee.Lib.Record

/-!
# The Wire Types

What the protocol's types derive to be written, and the types the daemon answers
with. `Core.Protocol` has the types a client sends and how they are read.

A structure is written as an object that lists its fields in the order of their
declaration, without the optional ones that are absent; a variant without data is
written as its name. A message is the text of its value and a newline. The texts
themselves are `serde_json`'s, and parameters here: the text of a value, and the
value of a text.

An envelope and a stream frame carry a payload of any type, and are read at the
type they are expected to have.

## Main definitions

* `TypedEnvelope`, `TypedFrame`: `ControlEnvelope<T>` and `StreamFrame<T>`.
* `PayloadType`: The types of the payloads of a control message.
* `ControlMessage`, `StreamMessage`: A message with the type of its payload.
* `writeLine`, `readLines`: The messages as lines.
-/

namespace Lspee

open Record Utf8

/-! ### Derived encoders and decoders -/

namespace Json

/-- The object of the fields that have a value. -/
def ofFields (fields : List (String × Option Json)) : Json := .obj (written fields)

def asBool : Json → Option Bool
  | bool b => some b
  | _ => none

def ofNat (n : Nat) : Json := .num n

end Json

def SessionKeyWire.toValue (key : SessionKeyWire) : Json :=
  .ofFields [
    ("project_root", some (.str key.projectRoot)),
    ("config_hash", some (.str key.configHash)),
    ("lsp_id", some (.str key.lspId))]

def ClientKind.toValue : ClientKind → Json
  | .editor => .str "editor"
  | .agent => .str "agent"
  | .human => .str "human"
  | .ci => .str "ci"
  | .other => .str "other"

def ClientMeta.toValue (clientMeta : ClientMeta) : Json :=
  .ofFields [
    ("client_name", some (.str clientMeta.clientName)),
    ("client_version", some (.str clientMeta.clientVersion)),
    ("client_kind", clientMeta.clientKind.map ClientKind.toValue),
    ("pid", clientMeta.pid.map Json.ofNat),
    ("cwd", clientMeta.cwd.map Json.str)]

def AttachCapabilities.toValue (capabilities : AttachCapabilities) : Json :=
  .ofFields [("stream_mode", some (.arr (capabilities.streamMode.map StreamMode.toValue)))]

def Attach.toValue (attach : Attach) : Json :=
  .ofFields [
    ("session_key", some attach.sessionKey.toValue),
    ("client_meta", some attach.clientMeta.toValue),
    ("capabilities", attach.capabilities.map AttachCapabilities.toValue)]

def ReleaseReason.toValue : ReleaseReason → Json
  | .clientExit => .str "client_exit"
  | .clientDisconnect => .str "client_disconnect"
  | .shutdown => .str "shutdown"
  | .error => .str "error"

def Release.toValue (release : Release) : Json :=
  .ofFields [
    ("lease_id", some (.str release.leaseId)),
    ("reason", release.reason.map ReleaseReason.toValue)]

def CallPayload.toValue (call : CallPayload) : Json :=
  .ofFields [("lease_id", some (.str call.leaseId)), ("request", some call.request)]

def NotifyPayload.toValue (notify : NotifyPayload) : Json :=
  .ofFields [("lease_id", some (.str notify.leaseId)), ("message", some notify.message)]

def StreamErrorPayload.toValue (payload : StreamErrorPayload) : Json :=
  .ofFields [
    ("code", some (.str payload.code)),
    ("message", some (.str payload.message)),
    ("retryable", some (.bool payload.retryable)),
    ("details", payload.details)]

/-! ### Answers -/

structure StreamInfo where
  mode : StreamMode
  endpoint : Option String
deriving DecidableEq

structure ServerInfo where
  state : String
  reused : Bool
deriving DecidableEq

structure AttachOk where
  leaseId : String
  sessionId : Option String
  stream : StreamInfo
  server : Option ServerInfo
  initializeResult : Option Json
deriving DecidableEq

structure ReleaseOk where
  leaseId : String
  refCount : Nat
deriving DecidableEq

structure CallOk where
  leaseId : String
  response : Json
deriving DecidableEq

structure NotifyOk where
  leaseId : String
deriving DecidableEq

structure Ping where
  tsMs : Nat
deriving DecidableEq

structure Pong where
  tsMs : Nat
deriving DecidableEq

/-- The payload of a `Shutdown`. -/
structure ShutdownPayload where
deriving DecidableEq

structure ShutdownOk where
  accepted : Bool
deriving DecidableEq

/-- The payload of a `Stats`. -/
structure StatsPayload where
deriving DecidableEq

structure MemoryStats where
  totalBytes : Nat
  maxTotalBytes : Option Nat
  maxSessionBytes : Option Nat
deriving DecidableEq

structure StatsCounters where
  sessionsSpawnedTotal : Nat
  sessionsReusedTotal : Nat
  sessionsGcIdleTotal : Nat
  sessionsEvictedMemoryTotal : Nat
  sessionCrashesTotal : Nat
  attachRequestsTotal : Nat
deriving DecidableEq

structure StatsOk where
  sessions : Nat
  leases : Nat
  uptimeMs : Nat
  counters : StatsCounters
  memory : MemoryStats
deriving DecidableEq

structure ErrorResponse where
  code : String
  message : String
  retryable : Bool
  details : Option Json
deriving DecidableEq

def StreamInfo.toValue (stream : StreamInfo) : Json :=
  .ofFields [
    ("mode", some stream.mode.toValue),
    ("endpoint", stream.endpoint.map Json.str)]

def StreamInfo.fromValue (value : Json) : Option StreamInfo := do
  let field ← value.asStruct ["mode", "endpoint"]
  let mode ← (field "mode").bind StreamMode.fromValue
  let endpoint ← Json.optional Json.asStr (field "endpoint")
  return { mode, endpoint }

def ServerInfo.toValue (server : ServerInfo) : Json :=
  .ofFields [("state", some (.str server.state)), ("reused", some (.bool server.reused))]

def ServerInfo.fromValue (value : Json) : Option ServerInfo := do
  let field ← value.asStruct ["state", "reused"]
  let state ← (field "state").bind Json.asStr
  let reused ← (field "reused").bind Json.asBool
  return { state, reused }

def AttachOk.toValue (attachOk : AttachOk) : Json :=
  .ofFields [
    ("lease_id", some (.str attachOk.leaseId)),
    ("session_id", attachOk.sessionId.map Json.str),
    ("stream", some attachOk.stream.toValue),
    ("server", attachOk.server.map ServerInfo.toValue),
    ("initialize_result", attachOk.initializeResult)]

def AttachOk.fromValue (value : Json) : Option AttachOk := do
  let field ← value.asStruct ["lease_id", "session_id", "stream", "server", "initialize_result"]
  let leaseId ← (field "lease_id").bind Json.asStr
  let sessionId ← Json.optional Json.asStr (field "session_id")
  let stream ← (field "stream").bind StreamInfo.fromValue
  let server ← Json.optional ServerInfo.fromValue (field "server")
  let initializeResult ← Json.optional some (field "initialize_result")
  return { leaseId, sessionId, stream, server, initializeResult }

def ReleaseOk.toValue (releaseOk : ReleaseOk) : Json :=
  .ofFields [
    ("lease_id", some (.str releaseOk.leaseId)),
    ("ref_count", some (.ofNat releaseOk.refCount))]

def ReleaseOk.fromValue (value : Json) : Option ReleaseOk := do
  let field ← value.asStruct ["lease_id", "ref_count"]
  let leaseId ← (field "lease_id").bind Json.asStr
  let refCount ← (field "ref_count").bind Json.asU64
  return { leaseId, refCount }

def CallOk.toValue (callOk : CallOk) : Json :=
  .ofFields [("lease_id", some (.str callOk.leaseId)), ("response", some callOk.response)]

def CallOk.fromValue (value : Json) : Option CallOk := do
  let field ← value.asStruct ["lease_id", "response"]
  let leaseId ← (field "lease_id").bind Json.asStr
  let response ← field "response"
  return { leaseId, response }

def NotifyOk.toValue (notifyOk : NotifyOk) : Json :=
  .ofFields [("lease_id", some (.str notifyOk.leaseId))]

def NotifyOk.fromValue (value : Json) : Option NotifyOk := do
  let field ← value.asStruct ["lease_id"]
  let leaseId ← (field "lease_id").bind Json.asStr
  return { leaseId }

def Ping.toValue (ping : Ping) : Json := .ofFields [("ts_ms", some (.ofNat ping.tsMs))]

def Ping.fromValue (value : Json) : Option Ping := do
  let field ← value.asStruct ["ts_ms"]
  let tsMs ← (field "ts_ms").bind Json.asU64
  return { tsMs }

def Pong.toValue (pong : Pong) : Json := .ofFields [("ts_ms", some (.ofNat pong.tsMs))]

def Pong.fromValue (value : Json) : Option Pong := do
  let field ← value.asStruct ["ts_ms"]
  let tsMs ← (field "ts_ms").bind Json.asU64
  return { tsMs }

def ShutdownPayload.toValue (_ : ShutdownPayload) : Json := .ofFields []

def ShutdownPayload.fromValue (value : Json) : Option ShutdownPayload :=
  if isShutdownPayload value then some {} else none

def ShutdownOk.toValue (shutdownOk : ShutdownOk) : Json :=
  .ofFields [("accepted", some (.bool shutdownOk.accepted))]

def ShutdownOk.fromValue (value : Json) : Option ShutdownOk := do
  let field ← value.asStruct ["accepted"]
  let accepted ← (field "accepted").bind Json.asBool
  return { accepted }

def StatsPayload.toValue (_ : StatsPayload) : Json := .ofFields []

def StatsPayload.fromValue (value : Json) : Option StatsPayload := do
  let _ ← value.asStruct []
  return {}

def MemoryStats.toValue (memory : MemoryStats) : Json :=
  .ofFields [
    ("total_bytes", some (.ofNat memory.totalBytes)),
    ("max_total_bytes", memory.maxTotalBytes.map Json.ofNat),
    ("max_session_bytes", memory.maxSessionBytes.map Json.ofNat)]

def MemoryStats.fromValue (value : Json) : Option MemoryStats := do
  let field ← value.asStruct ["total_bytes", "max_total_bytes", "max_session_bytes"]
  let totalBytes ← (field "total_bytes").bind Json.asU64
  let maxTotalBytes ← Json.optional Json.asU64 (field "max_total_bytes")
  let maxSessionBytes ← Json.optional Json.asU64 (field "max_session_bytes")
  return { totalBytes, maxTotalBytes, maxSessionBytes }

def StatsCounters.toValue (counters : StatsCounters) : Json :=
  .ofFields [
    ("sessions_spawned_total", some (.ofNat counters.sessionsSpawnedTotal)),
    ("sessions_reused_total", some (.ofNat counters.sessionsReusedTotal)),
    ("sessions_gc_idle_total", some (.ofNat counters.sessionsGcIdleTotal)),
    ("sessions_evicted_memory_total", some (.ofNat counters.sessionsEvictedMemoryTotal)),
    ("session_crashes_total", some (.ofNat counters.sessionCrashesTotal)),
    ("attach_requests_total", some (.ofNat counters.attachRequestsTotal))]

def StatsCounters.fromValue (value : Json) : Option StatsCounters := do
  let field ← value.asStruct ["sessions_spawned_total", "sessions_reused_total",
    "sessions_gc_idle_total", "sessions_evicted_memory_total", "session_crashes_total",
    "attach_requests_total"]
  let sessionsSpawnedTotal ← (field "sessions_spawned_total").bind Json.asU64
  let sessionsReusedTotal ← (field "sessions_reused_total").bind Json.asU64
  let sessionsGcIdleTotal ← (field "sessions_gc_idle_total").bind Json.asU64
  let sessionsEvictedMemoryTotal ← (field "sessions_evicted_memory_total").bind Json.asU64
  let sessionCrashesTotal ← (field "session_crashes_total").bind Json.asU64
  let attachRequestsTotal ← (field "attach_requests_total").bind Json.asU64
  return {
    sessionsSpawnedTotal, sessionsReusedTotal, sessionsGcIdleTotal, sessionsEvictedMemoryTotal,
    sessionCrashesTotal, attachRequestsTotal }

def StatsOk.toValue (statsOk : StatsOk) : Json :=
  .ofFields [
    ("sessions", some (.ofNat statsOk.sessions)),
    ("leases", some (.ofNat statsOk.leases)),
    ("uptime_ms", some (.ofNat statsOk.uptimeMs)),
    ("counters", some statsOk.counters.toValue),
    ("memory", some statsOk.memory.toValue)]

def StatsOk.fromValue (value : Json) : Option StatsOk := do
  let field ← value.asStruct ["sessions", "leases", "uptime_ms", "counters", "memory"]
  let sessions ← (field "sessions").bind Json.asU64
  let leases ← (field "leases").bind Json.asU64
  let uptimeMs ← (field "uptime_ms").bind Json.asU64
  let counters ← (field "counters").bind StatsCounters.fromValue
  let memory ← (field "memory").bind MemoryStats.fromValue
  return { sessions, leases, uptimeMs, counters, memory }

def ErrorResponse.toValue (error : ErrorResponse) : Json :=
  .ofFields [
    ("code", some (.str error.code)),
    ("message", some (.str error.message)),
    ("retryable", some (.bool error.retryable)),
    ("details", error.details)]

def ErrorResponse.fromValue (value : Json) : Option ErrorResponse := do
  let field ← value.asStruct ["code", "message", "retryable", "details"]
  let code ← (field "code").bind Json.asStr
  let message ← (field "message").bind Json.asStr
  let retryable ← (field "retryable").bind Json.asBool
  let details ← Json.optional some (field "details")
  return { code, message, retryable, details }

/-! ### Payloads -/

/-- A payload under the name of its type. -/
inductive ControlPayload where
  | attach (payload : Attach)
  | attachOk (payload : AttachOk)
  | release (payload : Release)
  | releaseOk (payload : ReleaseOk)
  | call (payload : CallPayload)
  | callOk (payload : CallOk)
  | notify (payload : NotifyPayload)
  | notifyOk (payload : NotifyOk)
  | ping (payload : Ping)
  | pong (payload : Pong)
  | shutdown (payload : ShutdownPayload)
  | shutdownOk (payload : ShutdownOk)
  | stats (payload : StatsPayload)
  | statsOk (payload : StatsOk)
  | error (payload : ErrorResponse)
deriving DecidableEq

/-- An enumeration that is written as the name of the variant, under `type`, and
    its data, under `payload`. -/
def tagged (name : String) (content : Json) : Json :=
  .ofFields [("type", some (.str name)), ("payload", some content)]

def ControlPayload.toValue : ControlPayload → Json
  | .attach payload => tagged "Attach" payload.toValue
  | .attachOk payload => tagged "AttachOk" payload.toValue
  | .release payload => tagged "Release" payload.toValue
  | .releaseOk payload => tagged "ReleaseOk" payload.toValue
  | .call payload => tagged "Call" payload.toValue
  | .callOk payload => tagged "CallOk" payload.toValue
  | .notify payload => tagged "Notify" payload.toValue
  | .notifyOk payload => tagged "NotifyOk" payload.toValue
  | .ping payload => tagged "Ping" payload.toValue
  | .pong payload => tagged "Pong" payload.toValue
  | .shutdown payload => tagged "Shutdown" payload.toValue
  | .shutdownOk payload => tagged "ShutdownOk" payload.toValue
  | .stats payload => tagged "Stats" payload.toValue
  | .statsOk payload => tagged "StatsOk" payload.toValue
  | .error payload => tagged "Error" payload.toValue

def ControlPayload.fromValue (value : Json) : Option ControlPayload := do
  let field ← value.asStruct ["type", "payload"]
  let name ← (field "type").bind Json.asStr
  let content ← field "payload"
  match name with
  | "Attach" => (Attach.fromValue content).map .attach
  | "AttachOk" => (AttachOk.fromValue content).map .attachOk
  | "Release" => (Release.fromValue content).map .release
  | "ReleaseOk" => (ReleaseOk.fromValue content).map .releaseOk
  | "Call" => (CallPayload.fromValue content).map .call
  | "CallOk" => (CallOk.fromValue content).map .callOk
  | "Notify" => (NotifyPayload.fromValue content).map .notify
  | "NotifyOk" => (NotifyOk.fromValue content).map .notifyOk
  | "Ping" => (Ping.fromValue content).map .ping
  | "Pong" => (Pong.fromValue content).map .pong
  | "Shutdown" => (ShutdownPayload.fromValue content).map .shutdown
  | "ShutdownOk" => (ShutdownOk.fromValue content).map .shutdownOk
  | "Stats" => (StatsPayload.fromValue content).map .stats
  | "StatsOk" => (StatsOk.fromValue content).map .statsOk
  | "Error" => (ErrorResponse.fromValue content).map .error
  | _ => none

/-- The types an envelope's payload can have. A payload that is not looked into
    is any value. -/
inductive PayloadType where
  | attach
  | attachOk
  | release
  | releaseOk
  | call
  | callOk
  | notify
  | notifyOk
  | ping
  | pong
  | shutdown
  | shutdownOk
  | stats
  | statsOk
  | error
  | controlPayload
  | value
deriving DecidableEq, Repr

namespace PayloadType

/-- The payloads of a type. -/
abbrev Carrier : PayloadType → Type
  | .attach => Attach
  | .attachOk => AttachOk
  | .release => Release
  | .releaseOk => ReleaseOk
  | .call => CallPayload
  | .callOk => CallOk
  | .notify => NotifyPayload
  | .notifyOk => NotifyOk
  | .ping => Ping
  | .pong => Pong
  | .shutdown => ShutdownPayload
  | .shutdownOk => ShutdownOk
  | .stats => StatsPayload
  | .statsOk => StatsOk
  | .error => ErrorResponse
  | .controlPayload => ControlPayload
  | .value => Json

def toValue : (type : PayloadType) → type.Carrier → Json
  | .attach => Attach.toValue
  | .attachOk => AttachOk.toValue
  | .release => Release.toValue
  | .releaseOk => ReleaseOk.toValue
  | .call => CallPayload.toValue
  | .callOk => CallOk.toValue
  | .notify => NotifyPayload.toValue
  | .notifyOk => NotifyOk.toValue
  | .ping => Ping.toValue
  | .pong => Pong.toValue
  | .shutdown => ShutdownPayload.toValue
  | .shutdownOk => ShutdownOk.toValue
  | .stats => StatsPayload.toValue
  | .statsOk => StatsOk.toValue
  | .error => ErrorResponse.toValue
  | .controlPayload => ControlPayload.toValue
  | .value => id

def fromValue : (type : PayloadType) → Json → Option type.Carrier
  | .attach => Attach.fromValue
  | .attachOk => AttachOk.fromValue
  | .release => Release.fromValue
  | .releaseOk => ReleaseOk.fromValue
  | .call => CallPayload.fromValue
  | .callOk => CallOk.fromValue
  | .notify => NotifyPayload.fromValue
  | .notifyOk => NotifyOk.fromValue
  | .ping => Ping.fromValue
  | .pong => Pong.fromValue
  | .shutdown => ShutdownPayload.fromValue
  | .shutdownOk => ShutdownOk.fromValue
  | .stats => StatsPayload.fromValue
  | .statsOk => StatsOk.fromValue
  | .error => ErrorResponse.fromValue
  | .controlPayload => ControlPayload.fromValue
  | .value => some

end PayloadType

/-- The payloads of a stream frame: LSP messages, and the error. -/
abbrev StreamFrameType.Carrier : StreamFrameType → Type
  | .lspIn => Json
  | .lspOut => Json
  | .streamError => StreamErrorPayload

namespace StreamFrameType

def toValue : StreamFrameType → Json
  | .lspIn => .str "LspIn"
  | .lspOut => .str "LspOut"
  | .streamError => .str "StreamError"

def fromValue (value : Json) : Option StreamFrameType :=
  match value.asVariant with
  | some "LspIn" => some .lspIn
  | some "LspOut" => some .lspOut
  | some "StreamError" => some .streamError
  | _ => none

def payloadToValue : (type : StreamFrameType) → type.Carrier → Json
  | .lspIn => id
  | .lspOut => id
  | .streamError => StreamErrorPayload.toValue

def payloadFromValue : (type : StreamFrameType) → Json → Option type.Carrier
  | .lspIn => some
  | .lspOut => some
  | .streamError => StreamErrorPayload.fromValue

end StreamFrameType

/-! ### Messages -/

/-- `ControlEnvelope<T>`. -/
structure TypedEnvelope (α : Type) where
  v : Nat
  id : Option String
  messageType : String
  payload : α
deriving DecidableEq

namespace TypedEnvelope

variable {α : Type}

def toValue (encode : α → Json) (envelope : TypedEnvelope α) : Json :=
  .ofFields [
    ("v", some (.ofNat envelope.v)),
    ("id", envelope.id.map Json.str),
    ("type", some (.str envelope.messageType)),
    ("payload", some (encode envelope.payload))]

def fromValue (decode : Json → Option α) (value : Json) : Option (TypedEnvelope α) := do
  let field ← value.asStruct ["v", "id", "type", "payload"]
  let v ← (field "v").bind Json.asU32
  let id ← Json.optional Json.asStr (field "id")
  let messageType ← (field "type").bind Json.asStr
  let payload ← (field "payload").bind decode
  return { v, id, messageType, payload }

end TypedEnvelope

/-- `StreamFrame<T>`. -/
structure TypedFrame (α : Type) where
  v : Nat
  frameType : StreamFrameType
  leaseId : String
  seq : Nat
  payload : α
deriving DecidableEq

namespace TypedFrame

variable {α : Type}

def toValue (encode : α → Json) (frame : TypedFrame α) : Json :=
  .ofFields [
    ("v", some (.ofNat frame.v)),
    ("type", some frame.frameType.toValue),
    ("lease_id", some (.str frame.leaseId)),
    ("seq", some (.ofNat frame.seq)),
    ("payload", some (encode frame.payload))]

def fromValue (decode : Json → Option α) (value : Json) : Option (TypedFrame α) := do
  let field ← value.asStruct ["v", "type", "lease_id", "seq", "payload"]
  let v ← (field "v").bind Json.asU32
  let frameType ← (field "type").bind StreamFrameType.fromValue
  let leaseId ← (field "lease_id").bind Json.asStr
  let seq ← (field "seq").bind Json.asU64
  let payload ← (field "payload").bind decode
  return { v, frameType, leaseId, seq, payload }

end TypedFrame

/-- A message of the control channel, with the type of its payload. -/
structure ControlMessage where
  type : PayloadType
  envelope : TypedEnvelope type.Carrier

namespace ControlMessage

def toValue (message : ControlMessage) : Json := message.envelope.toValue message.type.toValue

def fromValue (type : PayloadType) (value : Json) : Option ControlMessage :=
  (TypedEnvelope.fromValue type.fromValue value).map (fun envelope => ⟨type, envelope⟩)

end ControlMessage

/-- A frame of the stream channel whose payload has one of the three types. -/
structure StreamMessage where
  type : StreamFrameType
  frame : TypedFrame type.Carrier

namespace StreamMessage

def toValue (message : StreamMessage) : Json := message.frame.toValue message.type.payloadToValue

def fromValue (type : StreamFrameType) (value : Json) : Option StreamMessage :=
  (TypedFrame.fromValue type.payloadFromValue value).map (fun frame => ⟨type, frame⟩)

end StreamMessage

/-! ### Lines -/

section Lines

variable (toString : Json → List Char) (fromStr : List Char → Option Json)

/-- The bytes of a value's text, and a newline. -/
def writeLine (value : Json) : List UInt8 := encode (toString value) ++ [newline]

/-- Reading a line for each decoder, up to the end of the bytes. -/
def readLines {α : Type} : List (Json → Option α) → List UInt8 → Option (List α)
  | [], bytes =>
    match nextLine bytes .eof with
    | .eof => some []
    | _ => none
  | decoder :: decoders, bytes =>
    match nextLine bytes .eof with
    | .line text rest => do
      let value ← fromStr text
      let message ← decoder value
      let messages ← readLines decoders rest
      return message :: messages
    | _ => none

end Lines

end Lspee
