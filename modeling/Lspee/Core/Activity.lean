import Lspee.Core.Fleet

/-!
# When a Session Was Last Active

The fleet, and beside it when each runtime was last active, and when the record of
each session was last stamped. A runtime is active when a client's message is
queued to its server, when one of its messages gets to a client, and when a lease
on its session is acquired or released.

The registry takes part in the last two, and in what is sent by `Call` and
`Notify`: it looks the session up before the message is queued, and it returns
the response. The frames of a stream it never sees. They are queued by the loop
that reads the client's lines, and written by the stream's writer task.

That a message is queued or written is seen on the queue to the server and on what
the stream's client has got. A lease is acquired and released where the count of
the record changes, and a response gets to the client where `call_by_lease_id`
returns it.

## Main definitions

* `Sharing.queues`, `Sharing.delivers`: A client's message has got into the queue,
  a message of the server to the client of a stream.
* `Sharing.carries`: A step of a server's users is about to do one of the two.
* `Fleet.passes`, `Fleet.carries`: The same of the server of a runtime.
* `forwardedTo`: The runtime a call has found.
* `Fleet.attends`: The registry acquires, releases or returns.
* `Frame.stamps`: The record a section sets the time of.
* `Activity`, `Activity.step`: The fleet with the times.
-/

namespace Lspee

namespace Sharing

/-- The request is one of a client, of a stream or of the control socket. -/
def fromClient (h : Sharing) (call : CallId) : Bool :=
  match h.requests.get? call with
  | some (.stream _) => true
  | some (.control _) => true
  | _ => false

/-- What has been written to the client of a stream. -/
def deliveredTo (h : Sharing) (n : Nat) : List (Tagged StreamFrame) :=
  ((h.streams.get? n).map LeaseStream.delivered).getD []

/-- A message of a client has been queued to the server. -/
def queues (h h' : Sharing) : Bool :=
  (h.transport.queuedBy h'.transport).any fun message => message.caller.any h'.fromClient

/-- A message of the server has been written to the client of a stream. -/
def delivers (h h' : Sharing) : Bool :=
  h'.streams.entries.any fun entry =>
    (entry.2.delivered.drop (h.deliveredTo entry.1).length).any fun frame =>
      frame.content.frameType == .lspOut

/-- A step that can be taken queues a message of a client, or writes a message of
    the server to the client of a stream. -/
def carries (h : Sharing) : SharingAction → Bool
  | .frame n frame _ =>
    match h.streams.get? n with
    | none => false
    | some st =>
      frame.leaseId == st.leaseId && frame.frameType == .lspIn && h.transport.writer != .stopped
  | .write n =>
    match h.streams.get? n with
    | none => false
    | some st =>
      match st.queue with
      | frame :: _ => frame.content.frameType == .lspOut
      | [] => false
  | .transport (.send call) => h.fromClient call && h.transport.writer != .stopped
  | _ => false

end Sharing

/-- The call has forwarded its message to the runtime. -/
def forwardedTo (log : List Event) (call : CallId) (runtime : RuntimeId) : Bool :=
  log.any fun event => match event with
    | .forwarded c _ rt _ => c == call && rt == runtime
    | _ => false

/-- The key of a session that is there. -/
def SessionRegistry.found (r : SessionRegistry) (key : SessionKey) : Option SessionKey :=
  (r.sessions.get? key).map fun _ => key

/-- The session a section stamps with the present: a lease is granted on it or
    released, a message finds it, or it is touched. -/
def Frame.stamps (r : SessionRegistry) : Frame → Option SessionKey
  | .acquire key _ (.lookup _) => r.found key
  | .acquire key _ (.publish _) => some key
  | .release _ (.decrement key) => r.found key
  | .forward _ _ _ (.session key) =>
    match r.sessions.get? key with
    | some record => if record.terminating then none else some key
    | none => none
  | .forward _ _ _ (.touch key _) => r.found key
  | .touch key false => r.found key
  | _ => none

/-- The session a step of the registry stamps. -/
def World.stamps (w : World) : Action → Option SessionKey
  | .sect call => (w.calls.get? call).bind fun frame => frame.stamps w.reg
  | _ => none

namespace Fleet

/-- A message has passed between the clients and the server of a runtime. -/
def passes (f f' : Fleet) (runtime : RuntimeId) : Bool :=
  match f.owners.get? runtime with
  | none => false
  | some server =>
    match f.servers.get? server, f'.servers.get? server with
    | some s, some s' => s.sharing.queues s'.sharing || s.sharing.delivers s'.sharing
    | _, _ => false

/-- A step that can be taken passes a message between the clients and the server of
    a runtime. -/
def carries (f : Fleet) (a : FleetAction) (runtime : RuntimeId) : Bool :=
  match a with
  | .server server a =>
    f.owners.get? runtime == some server &&
      (f.servers.get? server).any fun s => s.sharing.carries a
  | .notify _ call =>
    match f.world.calls.get? call with
    | some (.forward .notify _ _ (.awaiting _ rt)) =>
      f.owners.get? runtime == f.owners.get? rt &&
        (f.serverOf rt).any fun s => s.sharing.transport.writer != .stopped
    | _ => false
  | _ => false

/-- The registry acquires or releases a lease on the session of a runtime, or
    returns a response of it. -/
def attends (f : Fleet) (a : FleetAction) (runtime : RuntimeId) : Bool :=
  match a with
  | .world (.sect call) =>
    match f.world.calls.get? call with
    | some (.acquire key _ (.lookup _)) => f.world.reg.instanceOf key == some runtime
    | some (.acquire key _ (.publish handle)) =>
      (f.world.reg.publishRecord key handle f.world.now).handle.runtime == runtime
    | some (.release _ (.decrement key)) => f.world.reg.instanceOf key == some runtime
    | some (.forward .call _ _ (.touch _ _)) => forwardedTo f.world.log call runtime
    | _ => false
  | _ => false

/-- The session a step stamps. -/
def stamps (f : Fleet) : FleetAction → Option SessionKey
  | .world a => f.world.stamps a
  | _ => none

end Fleet

/-- The fleet, when each runtime was last active, and when each session was last
    stamped. -/
structure Activity where
  fleet : Fleet
  lastActive : RuntimeId → Option Instant
  stampedAt : SessionKey → Option Instant

namespace Activity

def init (idleTtl : Duration) : Activity where
  fleet := Fleet.init idleTtl
  lastActive := fun _ => none
  stampedAt := fun _ => none

def step (s : Activity) (a : FleetAction) : Option Activity :=
  (s.fleet.step a).map fun f => {
    fleet := f
    lastActive := fun runtime =>
      if s.fleet.passes f runtime || s.fleet.attends a runtime then some s.fleet.world.now
      else s.lastActive runtime
    stampedAt := fun key =>
      if s.fleet.stamps a = some key then some s.fleet.world.now else s.stampedAt key }

end Activity

end Lspee
