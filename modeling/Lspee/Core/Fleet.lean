import Lspee.Core.Sharing

/-!
# The Registry and Its Servers

The registry of `Core.Tasks` with the servers behind it, and the connections
that send to them. A spawn closure starts a process, calls `initialize` on it,
and queues `initialized`; only when it has returned does the registry have a
runtime. A control connection handles one frame after the other, so a request
of it begins when the one before has been answered. A call of
`call_by_lease_id` or `notify_by_lease_id` that has found its runtime sends to
the server of that runtime, and returns what the server's transport returns.

A spawn closure runs once for each call of `acquire_or_spawn`, so a server goes
by the call that spawned it. `owners` says which of them a runtime is; a server
whose closure has failed, or has not returned, is no runtime.

The handle `.session` of a server stands for every handle that is not a call's
or a stream's: the closure's, the record's, and those of the registry's users.
It is dropped when the last of them is, and any time after the closure may be
that time. An endpoint accepts one client; here any number of clients may
connect with a lease. What the daemon sends a server at its end may be sent to
any runtime.

Kept beside the code, and read by nothing: what each connection has sent, what
was queued to each server, the frames its streams' clients have sent, and
whether a write to it has failed.

## Main definitions

* `initializeRequest`, `initializedNotification`: The handshake.
* `Boot`: How far a spawn closure has come.
* `Server`: One process and its users.
* `ControlRequest`: A Call or a Notify of a connection.
* `Fleet`: The registry, the servers and the connections.
* `FleetAction`, `Fleet.step`: One step.
-/

namespace Lspee

/-- The request of `bootstrap_lsp_session`. A root without a URI and empty
    options are left out. -/
def initializeRequest (rootUri : Option String) (options : Option Json) : Json :=
  .obj [
    ("id", .str "lspee-initialize"),
    ("jsonrpc", .str "2.0"),
    ("method", .str "initialize"),
    ("params", .obj (
      [("capabilities", .obj [])] ++
      options.toList.map (fun options => ("initializationOptions", options)) ++
      [("processId", .null)] ++
      rootUri.toList.map (fun uri => ("rootUri", .str uri))))]

def initializedNotification : Json :=
  .obj [("jsonrpc", .str "2.0"), ("method", .str "initialized"), ("params", .obj [])]

/-- The messages of `LspRuntime::shutdown`. -/
def shutdownMessage : Json :=
  .obj [("id", .str "lspee-shutdown"), ("jsonrpc", .str "2.0"), ("method", .str "shutdown"),
    ("params", .null)]

def exitMessage : Json :=
  .obj [("jsonrpc", .str "2.0"), ("method", .str "exit"), ("params", .null)]

/-- How far the closure that spawned a server has come: the process runs, the
    call of `initialize` is under way, or the result is there. -/
inductive Boot where
  | spawned
  | initializing
  | finished (result : Except String Json)

/-- One process with its users. -/
structure Server where
  sharing : Sharing
  boot : Boot
  /-- What was ever queued to it. -/
  queued : List (Tagged Json)
  /-- The frames its streams' clients have sent. -/
  frames : List (Nat × StreamFrame)
  writerFailed : Bool

/-- A Call or a Notify that a connection has sent: the call of the registry that
    handles it, and the message in it. -/
structure ControlRequest where
  call : CallId
  message : Json

/-- The registry, the servers, and the connections with what they have sent. -/
structure Fleet where
  world : World
  servers : Table CallId Server
  owners : Table RuntimeId CallId
  connections : Table Nat (List ControlRequest)

/-- What can happen next. -/
inductive FleetAction where
  /-- A step of the registry that has to do with no server. -/
  | world (a : Action)
  /-- The closure of a call has started a process, or has failed before. -/
  | spawn (call : CallId)
  | spawnFails (call : CallId) (error : String)
  /-- `bootstrap_lsp_session` calls `initialize`. -/
  | callInitialize (call : CallId) (rootUri : Option String) (options : Option Json)
  /-- The call has returned; `initialized` is sent under the name `c`. -/
  | bootstrap (call : CallId) (c : CallId)
  /-- The closure returns. -/
  | bootReturns (call : CallId)
  /-- A connection sends a Call or a Notify. -/
  | request (n : Nat) (kind : ForwardKind) (leaseId : String) (message : Json) (call : CallId)
  /-- `call_by_lease_id` calls the runtime. -/
  | call (n : Nat) (call : CallId)
  /-- The runtime's `call` returns. -/
  | returned (call : CallId)
  /-- `notify_by_lease_id` sends to the runtime. -/
  | notify (n : Nat) (call : CallId)
  /-- A client connects to the endpoint of an attach. -/
  | connect (attach : CallId) (n : Nat)
  /-- The daemon sends a runtime one of its last messages, under the name `c`. -/
  | daemonSends (server : CallId) (c : CallId) (message : Json)
  /-- A step of a server or of its users. -/
  | server (server : CallId) (a : SharingAction)

namespace Server

/-- A process that has just been started. -/
def spawn : Server where
  sharing := Sharing.init
  boot := .spawned
  queued := []
  frames := []
  writerFailed := false

/-- The server after a step of its users. What the step has queued is what the
    queue is longer by. -/
def after (s : Server) (h : Sharing) : Server :=
  { s with
    sharing := h
    -- The queue grows at its end only, and a step adds one message at most.
    queued := s.queued ++ h.transport.inbound.drop s.sharing.transport.inbound.length }

def callInitialize (s : Server) (call : CallId) (rootUri : Option String) (options : Option Json) :
    Option Server :=
  match s.boot with
  | .spawned =>
    (s.sharing.step (.begin none call .session (initializeRequest rootUri options))).map
      (fun h => { s.after h with boot := .initializing })
  | _ => none

/-- The rest of `bootstrap_lsp_session`, when the call has returned. -/
def bootstrap (s : Server) (call c : CallId) : Option Server :=
  match s.boot, s.sharing.transport.calls.get? call with
  | .initializing, some ⟨_, .returned (.ok response)⟩ =>
    -- `initialized` is sent before the closure returns its handle.
    if s.sharing.fresh c then
      match s.sharing.queue c .daemon initializedNotification with
      | none => none
      | some (.error error) => some { s with boot := .finished (.error error) }
      | some (.ok h) => some { s.after h with boot := .finished (.ok response.content.payload) }
    else none
  -- The process is left running; the closure fails.
  | .initializing, some ⟨_, .returned (.error error)⟩ =>
    some { s with boot := .finished (.error error) }
  | _, _ => none

/-- What the users of a server do by themselves. The requests of the daemon and
    of the control connections, and the clients of streams, come by the
    registry. -/
def mayMove (s : Server) : SharingAction → Bool
  | .begin _ _ _ _ => false
  | .send _ _ _ _ => false
  | .connect _ _ => false
  | .transport (.clone _ _) => false
  -- While the closure runs, it is the closure that holds the handle.
  | .transport (.drop .session) =>
    match s.boot with
    | .finished _ => true
    | _ => false
  | _ => true

/-- The frame a stream's client sends. -/
def noteFrame (frames : List (Nat × StreamFrame)) : SharingAction → List (Nat × StreamFrame)
  | .frame n frame _ => frames ++ [(n, frame)]
  | _ => frames

def isWriterFailed : SharingAction → Bool
  | .transport (.writerFailed _) => true
  | _ => false

/-- A step of a server's users. -/
def act (s : Server) (a : SharingAction) : Option Server :=
  if s.mayMove a then
    (s.sharing.step a).map (fun h =>
      { s.after h with
        frames := noteFrame s.frames a
        writerFailed := s.writerFailed || isWriterFailed a })
  else none

/-- The client of a lease's endpoint is accepted: the connection has a handle,
    and subscribes. -/
def connect (s : Server) (n : Nat) (leaseId : String) : Option Server :=
  match s.sharing.step (.transport (.clone .session n)) with
  | none => none
  | some h => (h.step (.connect n leaseId)).map s.after

end Server

/-- The steps of the registry that no server, no closure and no connection has a
    part in. -/
def Action.ofRegistry : Action → Bool
  | .start _ (.forwardByLeaseId _ _ _) => false
  | .spawnReturns _ _ => false
  | .runtimeReturns _ _ => false
  | _ => true

namespace Fleet

/-- A daemon that has just started. -/
def init (idleTtl : Duration) : Fleet where
  world := World.init idleTtl
  servers := Table.empty
  owners := Table.empty
  connections := Table.empty

def setServer (f : Fleet) (server : CallId) (s : Server) : Fleet :=
  { f with servers := f.servers.set server s }

/-- A step of one server. -/
def onServer (f : Fleet) (server : CallId) (g : Server → Option Server) : Option Fleet :=
  match f.servers.get? server with
  | none => none
  | some s => (g s).map (f.setServer server)

/-- A step of the server of a runtime. -/
def onRuntime (f : Fleet) (runtime : RuntimeId) (g : Server → Option Server) : Option Fleet :=
  match f.owners.get? runtime with
  | none => none
  | some server => f.onServer server g

/-- The server of a runtime. -/
def serverOf (f : Fleet) (runtime : RuntimeId) : Option Server :=
  (f.owners.get? runtime).bind f.servers.get?

/-- What a connection has sent, in order. -/
def history (f : Fleet) (n : Nat) : List ControlRequest := (f.connections.get? n).getD []

/-- Every frame of the connection has been handled. -/
def idle (f : Fleet) (n : Nat) : Bool :=
  (f.history n).all fun request =>
    (f.world.calls.get? request.call).all fun frame => !frame.inFlight

/-- The call is a request of the connection. -/
def sent (f : Fleet) (n : Nat) (call : CallId) : Bool :=
  (f.history n).any fun request => request.call == call

/-- The server is a runtime. -/
def owned (f : Fleet) (server : CallId) : Bool := f.owners.values.contains server

def withWorld (f : Fleet) (a : Action) : Option Fleet :=
  (f.world.step a).map (fun w => { f with world := w })

/-- What the runtime's `call` has returned, of the message its payload. -/
def resultOf (s : Server) (call : CallId) : Option (Except String Json) :=
  match s.sharing.transport.calls.get? call with
  | some ⟨_, .returned result⟩ => some (result.map fun response => response.content.payload)
  | _ => none

/-- A connection's next frame is a Call or a Notify. -/
def request (f : Fleet) (n : Nat) (kind : ForwardKind) (leaseId : String) (message : Json)
    (call : CallId) : Option Fleet :=
  if f.idle n then
    (f.withWorld (.start call (.forwardByLeaseId kind leaseId message))).map (fun f' =>
      { f' with connections := f.connections.set n (f.history n ++ [⟨call, message⟩]) })
  else none

/-- `LspRuntime::send`, and what `notify_by_lease_id` makes of it. -/
def send (f : Fleet) (n : Nat) (call : CallId) (message : Json) (server : CallId) (s : Server) :
    Option Fleet :=
  if .session ∈ s.sharing.transport.handles ∧ s.sharing.fresh call then
    match s.sharing.queue call (.control n) message with
    | none => none
    | some (.error error) => f.withWorld (.runtimeReturns call (.error error))
    | some (.ok h) =>
      (f.setServer server (s.after h)).withWorld (.runtimeReturns call (.ok .null))
  else none

/-- The closure returns to `acquire_or_spawn`. -/
def bootReturn (f : Fleet) (call : CallId) (result : Except String Json) : Option Fleet :=
  (f.withWorld (.spawnReturns call result)).map (fun f' =>
    match result with
    | .ok _ => { f' with owners := f.owners.set f.world.nextRuntime call }
    | .error _ => f')

def step (f : Fleet) : FleetAction → Option Fleet
  | .world a => if a.ofRegistry then f.withWorld a else none
  | .spawn call =>
    match f.world.calls.get? call, f.servers.get? call with
    | some (.acquire _ _ (.spawning _)), none => some (f.setServer call .spawn)
    | _, _ => none
  | .spawnFails call error =>
    match f.servers.get? call with
    | none => f.withWorld (.spawnReturns call (.error error))
    | some _ => none
  | .callInitialize call rootUri options =>
    f.onServer call fun s => s.callInitialize call rootUri options
  | .bootstrap call c => f.onServer call fun s => s.bootstrap call c
  | .bootReturns call =>
    match f.servers.get? call with
    | some ⟨_, .finished result, _, _, _⟩ => f.bootReturn call result
    | _ => none
  | .request n kind leaseId message call => f.request n kind leaseId message call
  | .call n call =>
    match f.world.calls.get? call with
    | some (.forward .call _ message (.awaiting _ runtime)) =>
      if f.sent n call then
        f.onRuntime runtime fun s =>
          (s.sharing.step (.begin (some n) call .session message)).map s.after
      else none
    | _ => none
  | .returned call =>
    match f.world.calls.get? call with
    | some (.forward .call _ _ (.awaiting _ runtime)) =>
      match (f.serverOf runtime).bind (resultOf · call) with
      | some result => f.withWorld (.runtimeReturns call result)
      | none => none
    | _ => none
  | .notify n call =>
    match f.world.calls.get? call with
    | some (.forward .notify _ message (.awaiting _ runtime)) =>
      match f.owners.get? runtime, f.serverOf runtime with
      | some server, some s =>
        if f.sent n call then f.send n call message server s else none
      | _, _ => none
    | _ => none
  | .connect attach n =>
    match f.world.calls.get? attach with
    | some (.attached lease (some handle)) =>
      f.onRuntime handle.runtime fun s => s.connect n lease.id
    | _ => none
  | .daemonSends server c message =>
    if f.owned server ∧ (message = shutdownMessage ∨ message = exitMessage) then
      f.onServer server fun s => (s.sharing.step (.send none c .session message)).map s.after
    else none
  | .server server a => f.onServer server fun s => s.act a

end Fleet

end Lspee
