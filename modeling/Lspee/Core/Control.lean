import Lspee.Core.Memory
import Lspee.Core.Protocol
import Lspee.Core.Tasks

/-!
# A Control Connection

What the daemon does for one client of its control socket, while everybody else
goes on using the registry. `handle_control_connection` reads a line, dispatches
the request in it, writes the answer, and reads the next one. It ends when the
client closes the connection, when reading or writing fails, after a frame that
is too large or of another version, and after a `Shutdown`.

A request that needs the registry makes a call of the world, and the connection
waits until that call has returned. Its sections are steps of the world like all
others. What the registry does not decide is part of the action: the line, what
becomes of a dedicated endpoint, how much memory is in use, whether a write
succeeds.

A line is its length and what `serde_json` reads in it.

Two lists are kept beside the code, and nothing reads them: the leases granted
to the client in `mux_control` mode, and those the client asked to release.

## Main definitions

* `Line`: A line of the client.
* `ControlPc`: How far the connection has come.
* `Control`: The connection and the world.
* `dispatchControlRequest`: A request, up to its first await.
* `Control.resume`: What follows once the registry call has returned.
* `ControlAction`, `Control.step`: One step.
-/

namespace Lspee

/-- A line of the client, without its newline. -/
structure Line where
  len : Nat
  parsed : Option Json

/-- How far the connection has come: the await it is in. After the answer is
    written, the connection goes on or stops. -/
inductive ControlPc where
  | reading
  | attaching (id : Option String) (mode : StreamMode) (call : CallId)
  | binding (id : Option String) (lease : Lease) (handle : SessionHandle)
  | unattaching (id : Option String) (error : String) (call : CallId)
  | releasing (id : Option String) (leaseId : String) (call : CallId)
  | calling (id : Option String) (leaseId : String) (call : CallId)
  | notifying (id : Option String) (leaseId : String) (call : CallId)
  | sampling (id : Option String) (sessions leases : Nat) (counters : RegistryCounters)
  | writing (response : ControlEnvelope) (stop : Bool)
  | returned (ok : Bool)

/-- The connection, the world it is in, and its leases. -/
structure Control where
  world : World
  settings : MemoryBudgetSettings
  startedAt : Instant
  shutdownSignalled : Bool
  pc : ControlPc
  granted : List Lease
  released : List String

/-- What can happen next: a step of the world, or of the connection. `call` names
    the registry call, when the step makes one. -/
inductive ControlAction where
  | world (a : Action)
  | line (line : Line) (call : CallId)
  | eof
  | readError
  /-- The registry call that the connection awaits has returned. -/
  | resume
  /-- The dedicated endpoint is there, under this path, or could not be
      created. -/
  | bound (endpoint : Except String String) (call : CallId)
  /-- The memory in use has been measured. -/
  | sampled (memoryTotal : Nat)
  | wrote (ok : Bool)

/-- Whether a text contains another. -/
def containsText (text pattern : String) : Bool :=
  decide (pattern.toList <:+: text.toList)

/-- The error a failed `Call` or `Notify` is answered with. Only a call times
    out. -/
def forwardError (kind : ForwardKind) (id : Option String) (message : String) :
    ControlEnvelope :=
  -- The words are looked for anywhere in the text.
  if containsText message "E_SESSION_EVICTED_MEMORY" then
    errorEnvelope id "E_SESSION_EVICTED_MEMORY" message true none
  else if containsText message "terminating" then
    errorEnvelope id "E_SESSION_RESTARTING" message true none
  else if kind = .call ∧ (containsText message "timeout" ∨ containsText message "timed out") then
    errorEnvelope id "E_TIMEOUT" message true none
  else errorEnvelope id "E_INTERNAL" message true none

def leaseNotFound (id : Option String) : ControlEnvelope :=
  errorEnvelope id "E_LEASE_NOT_FOUND" "Lease not found" false none

def badMessage (id : Option String) (message : String) : ControlEnvelope :=
  errorEnvelope id "E_BAD_MESSAGE" message false none

def limitField (name : String) (limit : Option Nat) : List (String × Json) :=
  limit.toList.map (fun n => (name, .num n))

/-- The payload of a `StatsOk`. -/
def statsOk (settings : MemoryBudgetSettings) (sessions leases uptimeMs memoryTotal : Nat)
    (counters : RegistryCounters) : Json :=
  .obj [
    ("counters", .obj [
      ("attach_requests_total", .num counters.attachRequestsTotal),
      ("session_crashes_total", .num counters.sessionCrashesTotal),
      ("sessions_evicted_memory_total", .num counters.sessionsEvictedMemoryTotal),
      ("sessions_gc_idle_total", .num counters.sessionsGcIdleTotal),
      ("sessions_reused_total", .num counters.sessionsReusedTotal),
      ("sessions_spawned_total", .num counters.sessionsSpawnedTotal)]),
    ("leases", .num leases),
    ("memory", .obj (limitField "max_session_bytes" settings.maxSessionBytes ++
      limitField "max_total_bytes" settings.maxTotalBytes ++ [("total_bytes", .num memoryTotal)])),
    ("sessions", .num sessions),
    ("uptime_ms", .num uptimeMs)]

namespace Control

/-- A connection that has just been accepted, in a world. -/
def accept (world : World) (settings : MemoryBudgetSettings) (startedAt : Instant) : Control where
  world := world
  settings := settings
  startedAt := startedAt
  shutdownSignalled := false
  pc := .reading
  granted := []
  released := []

def write (s : Control) (response : ControlEnvelope) (stop : Bool) : Control :=
  { s with pc := .writing response stop }

/-- The connection makes a registry call and waits for it. -/
def await (s : Control) (call : CallId) (method : Method) (pc : ControlPc) : Option Control :=
  (s.world.step (.start call method)).map (fun w => { s with world := w, pc := pc })

def dispatchAttach (s : Control) (id : Option String) (payload : Json) (call : CallId) :
    Option Control :=
  match Attach.fromValue payload with
  | none => some (s.write (badMessage id "Invalid Attach payload") false)
  | some attach =>
    match validateSessionKey attach.sessionKey with
    | .error message =>
      some (s.write (errorEnvelope id "E_INVALID_SESSION_KEY" message false none) false)
    | .ok () =>
      s.await call (.acquireOrSpawn attach.sessionKey.sessionKey attach.clientMeta.clientKind)
        (.attaching id (preferredStreamMode attach.capabilities) call)

def dispatchRelease (s : Control) (id : Option String) (payload : Json) (call : CallId) :
    Option Control :=
  match Release.fromValue payload with
  | none => some (s.write (badMessage id "Invalid Release payload") false)
  | some release =>
    -- The client has asked, whatever the registry will say.
    ({ s with released := release.leaseId :: s.released }).await call
      (.releaseByLeaseId release.leaseId) (.releasing id release.leaseId call)

def dispatchCall (s : Control) (id : Option String) (payload : Json) (call : CallId) :
    Option Control :=
  match CallPayload.fromValue payload with
  | none => some (s.write (badMessage id "Invalid Call payload") false)
  | some request =>
    s.await call (.forwardByLeaseId .call request.leaseId request.request)
      (.calling id request.leaseId call)

def dispatchNotify (s : Control) (id : Option String) (payload : Json) (call : CallId) :
    Option Control :=
  match NotifyPayload.fromValue payload with
  | none => some (s.write (badMessage id "Invalid Notify payload") false)
  | some request =>
    s.await call (.forwardByLeaseId .notify request.leaseId request.message)
      (.notifying id request.leaseId call)

/-- The snapshot is read under all guards at once; the memory is measured
    afterwards. -/
def dispatchStats (s : Control) (id : Option String) : Control :=
  let r := s.world.reg
  { s with pc := .sampling id r.sessionCount r.leaseCount r.counters }

def dispatchShutdown (s : Control) (id : Option String) (payload : Json) : Control :=
  -- The signal is sent before the answer is written.
  if isShutdownPayload payload then
    ({ s with shutdownSignalled := true }).write
      (okEnvelope id "ShutdownOk" (.obj [("accepted", .bool true)])) true
  else s.write (badMessage id "Invalid Shutdown payload") false

def dispatchControlRequest (s : Control) (req : ControlEnvelope) (call : CallId) :
    Option Control :=
  match req.messageType with
  | "Attach" => s.dispatchAttach req.id req.payload call
  | "Release" => s.dispatchRelease req.id req.payload call
  | "Call" => s.dispatchCall req.id req.payload call
  | "Notify" => s.dispatchNotify req.id req.payload call
  | "Stats" => some (s.dispatchStats req.id)
  | "Shutdown" => some (s.dispatchShutdown req.id req.payload)
  -- The only types the daemon knows are those above.
  | _ => some (s.write
      (errorEnvelope req.id "E_UNKNOWN_TYPE" "Unknown control message type" false none) false)

/-- A line, up to the first await. -/
def handleLine (s : Control) (line : Line) (call : CallId) : Option Control :=
  if line.len > maxFrameSizeBytes then
    some (s.write (errorEnvelope none "E_FRAME_TOO_LARGE" "Control frame exceeds 1 MiB maximum"
      false none) true)
  else match line.parsed with
    | none => some (s.write (badMessage none "Invalid JSON frame") false)
    | some raw =>
      let id := (raw.get "id").bind Json.asStr
      -- The version is cut to 32 bits before it is compared.
      let version := ((raw.get "v").bind Json.asU64).map (fun v => v % 2 ^ 32)
      if version ≠ some protocolVersion then
        some (s.write (errorEnvelope id "E_UNSUPPORTED_VERSION" "Unsupported protocol version"
          false none) true)
      else match ControlEnvelope.fromValue raw with
        | none => some (s.write (badMessage none "Malformed control envelope") false)
        | some req => s.dispatchControlRequest req call

/-- What follows once an attach has its lease. -/
def attached (s : Control) (id : Option String) (mode : StreamMode) (lease : Lease)
    (handle : Option SessionHandle) : Control :=
  -- Such a lease is the client's to release: the connection never does.
  let s := if mode = .muxControl then { s with granted := lease :: s.granted } else s
  match handle with
  -- The session was removed after the grant; the lease is not given back.
  | none => s.write
      (errorEnvelope id "E_INTERNAL" "session handle missing after attach" true none) false
  | some handle =>
    match mode with
    | .dedicated => { s with pc := .binding id lease handle }
    | .muxControl => s.write (okEnvelope id "AttachOk"
        (attachOk lease.id .muxControl none handle.initializeResult)) false

/-- What follows once the awaited registry call has returned. -/
def resume (s : Control) : Option Control :=
  match s.pc with
  | .attaching id mode call =>
    match s.world.calls.get? call with
    | some (.acquire _ _ (.returned (.error error))) =>
      some (s.write (errorEnvelope id "E_SESSION_SPAWN_FAILED" error true none) false)
    | some (.attached lease handle) => some (s.attached id mode lease handle)
    | _ => none
  | .unattaching id error call =>
    match s.world.calls.get? call with
    | some (.release _ (.returned _)) =>
      some (s.write (errorEnvelope id "E_INTERNAL"
        ("failed to create dedicated stream endpoint: " ++ error) true none) false)
    | _ => none
  | .releasing id leaseId call =>
    match s.world.calls.get? call with
    | some (.release _ (.returned (some refCount))) =>
      some (s.write (okEnvelope id "ReleaseOk"
        (.obj [("lease_id", .str leaseId), ("ref_count", .num refCount)])) false)
    | some (.release _ (.returned none)) => some (s.write (leaseNotFound id) false)
    | _ => none
  | .calling id leaseId call =>
    match s.world.calls.get? call with
    | some (.forward _ _ _ (.returned (.ok (some response)))) =>
      some (s.write (okEnvelope id "CallOk"
        (.obj [("lease_id", .str leaseId), ("response", response)])) false)
    -- No lease, or no session under its key.
    | some (.forward _ _ _ (.returned (.ok none))) => some (s.write (leaseNotFound id) false)
    | some (.forward _ _ _ (.returned (.error message))) =>
      some (s.write (forwardError .call id message) false)
    | _ => none
  | .notifying id leaseId call =>
    match s.world.calls.get? call with
    | some (.forward _ _ _ (.returned (.ok (some _)))) =>
      some (s.write (okEnvelope id "NotifyOk" (.obj [("lease_id", .str leaseId)])) false)
    | some (.forward _ _ _ (.returned (.ok none))) => some (s.write (leaseNotFound id) false)
    | some (.forward _ _ _ (.returned (.error message))) =>
      some (s.write (forwardError .notify id message) false)
    | _ => none
  | _ => none

/-- What follows once the dedicated endpoint is there, or is not. -/
def bound (s : Control) (endpoint : Except String String) (call : CallId) : Option Control :=
  match s.pc, endpoint with
  | .binding id lease handle, .ok path =>
    some (s.write (okEnvelope id "AttachOk"
      (attachOk lease.id .dedicated (some ("unix://" ++ path)) handle.initializeResult)) false)
  -- The client does not learn of this lease, so it is given back here.
  | .binding id lease _, .error error =>
    s.await call (.releaseByLeaseId lease.id) (.unattaching id error call)
  | _, _ => none

def sampled (s : Control) (memoryTotal : Nat) : Option Control :=
  match s.pc with
  | .sampling id sessions leases counters =>
    -- Milliseconds, rounded down.
    let uptimeMs := (s.world.now - s.startedAt) / 1000000
    some (s.write (okEnvelope id "StatsOk"
      (statsOk s.settings sessions leases uptimeMs memoryTotal counters)) false)
  | _ => none

/-- What follows once the answer is written. -/
def wrote (s : Control) (ok : Bool) : Option Control :=
  match s.pc with
  | .writing _ stop =>
    if ok then some { s with pc := if stop then .returned true else .reading }
    else some { s with pc := .returned false }
  | _ => none

/-- One step of the connection, or of the world around it. -/
def step (s : Control) : ControlAction → Option Control
  | .world a => (s.world.step a).map (fun w => { s with world := w })
  | .line line call =>
    match s.pc with
    | .reading => s.handleLine line call
    | _ => none
  | .eof =>
    match s.pc with
    | .reading => some { s with pc := .returned true }
    | _ => none
  | .readError =>
    match s.pc with
    | .reading => some { s with pc := .returned false }
    | _ => none
  | .resume => s.resume
  | .bound endpoint call => s.bound endpoint call
  | .sampled memoryTotal => s.sampled memoryTotal
  | .wrote ok => s.wrote ok

end Control

end Lspee
