import Lspee.Core.Registry
import Lspee.Lib.Transition

/-!
# Concurrent Registry Calls

Any number of tasks call the registry's methods at once. A call is a frame: the
method, its arguments and how far it has come. One step of the world runs the
next lock-guarded section of one call; the sections of the other calls may run
before the next one does. What a call awaits outside the registry, the spawn
closure and the runtime's answer, ends by an action of its own, at any time and
with any result.

A section reads and writes the registry only through the functions of
`Core.Registry`. Beside them the world keeps a log, newest event first, of what
has happened: leases granted and on which runtime, closures called, sessions
selected for termination, messages forwarded. Nothing reads the log; properties
are stated with it.

`dispatch_attach` calls `acquire_or_spawn` and then looks the session up under
the key; its second half is one more section of the acquire frame, after the
lease has been returned.

## Main definitions

* `AcquirePc`, `ReleasePc`, `RemovePc`, `ForwardPc`: How far a call has come.
* `Method`, `Frame`: A method with its arguments, and a call of it under way.
* `Event`: What the log records.
* `Frame.section`: One section of a call.
* `World`, `Action`, `World.step`: The tasks and the registry together.
* `Action.mover`: The call an action moves.
* `Frame.inFlight`: The call has not returned.
* `acquireFresh`, `acquireReuse`, `releaseAll`, `removeAll`: The actions of one
  call that nothing interrupts.
-/

namespace Lspee

/-- Which call of a registry method. -/
abbrev CallId := Nat

/-- How far a call of `acquire_or_spawn` has come: the next section, the await
    it is in, or its result. -/
inductive AcquirePc where
  | count
  | gate
  | lookup (g : GateId)
  | enter (g : GateId)
  | spawning (g : GateId)
  | leave (g : GateId) (result : Except String SessionHandle)
  | publish (handle : SessionHandle)
  | dropGate (error : String)
  | waiting (g : GateId) (epoch : Nat)
  | returned (result : Except String Lease)

/-- How far a call of `release_by_lease_id` has come. -/
inductive ReleasePc where
  | take
  | decrement (key : SessionKey)
  | returned (result : Option Nat)

/-- How far a call of `remove` has come. -/
inductive RemovePc where
  | session
  | leases
  | returned

/-- Whether a message is forwarded by `call_by_lease_id`, which waits for the
    response, or by `notify_by_lease_id`, which does not. -/
inductive ForwardKind where
  | call
  | notify
deriving DecidableEq, Repr

/-- How far a call of `call_by_lease_id` or `notify_by_lease_id` has come. A
    notification that was queued has `null` for its response. -/
inductive ForwardPc where
  | lease
  | session (key : SessionKey)
  | awaiting (key : SessionKey) (runtime : RuntimeId)
  | touch (key : SessionKey) (response : Json)
  | returned (result : Except String (Option Json))

/-- A method of the registry with its arguments. -/
inductive Method where
  | acquireOrSpawn (key : SessionKey) (clientKind : Option ClientKind)
  | releaseByLeaseId (id : String)
  | remove (key : SessionKey)
  | forwardByLeaseId (kind : ForwardKind) (id : String) (message : Json)
  | touch (key : SessionKey)
  | markTerminatingWithNotice (key : SessionKey) (notice : Option StreamErrorPayload)
  | idleCandidates
  | increment (evictor : Evictor)
  | incrementSessionCrash

/-- A call under way, or returned. -/
inductive Frame where
  | acquire (key : SessionKey) (clientKind : Option ClientKind) (pc : AcquirePc)
  | attached (lease : Lease) (handle : Option SessionHandle)
  | release (id : String) (pc : ReleasePc)
  | remove (key : SessionKey) (pc : RemovePc)
  | forward (kind : ForwardKind) (id : String) (message : Json) (pc : ForwardPc)
  | touch (key : SessionKey) (returned : Bool)
  | mark (key : SessionKey) (notice : Option StreamErrorPayload) (returned : Bool)
  | idle (now : Instant) (result : Option (List SessionHandle))
  | increment (evictor : Evictor) (returned : Bool)
  | crash (returned : Bool)

/-- What the log records. -/
inductive Event where
  /-- A lease was returned, counted on the session of this runtime. -/
  | granted (call : CallId) (lease : Lease) (runtime : RuntimeId)
  | spawnCalled (call : CallId) (key : SessionKey)
  | spawnOk (call : CallId) (handle : SessionHandle)
  | spawnFailed (call : CallId) (key : SessionKey)
  /-- A record was inserted for this runtime. -/
  | registered (key : SessionKey) (runtime : RuntimeId)
  /-- The session of this runtime was marked for termination. -/
  | selected (runtime : RuntimeId)
  /-- A message accepted on a lease was handed to this runtime. -/
  | forwarded (call : CallId) (id : String) (runtime : RuntimeId) (message : Json)
  /-- An `AttachOk` was built for a lease from this handle. -/
  | attachOk (call : CallId) (lease : Lease) (handle : SessionHandle)
deriving DecidableEq

namespace Method

/-- The frame of a call that has just begun. `idle_candidates` reads the clock
    before it asks for the lock. -/
def frame (now : Instant) : Method → Frame
  | acquireOrSpawn key clientKind => .acquire key clientKind .count
  | releaseByLeaseId id => .release id .take
  | remove key => .remove key .session
  | forwardByLeaseId kind id message => .forward kind id message .lease
  | touch key => .touch key false
  | markTerminatingWithNotice key notice => .mark key notice false
  | idleCandidates => .idle now none
  | increment evictor => .increment evictor false
  | incrementSessionCrash => .crash false

end Method

/-- One section of `acquire_or_spawn`. The spawn closure is not a section; a
    waiter goes on once `notify_waiters` has been called since it began to
    wait. -/
def AcquirePc.section (call : CallId) (key : SessionKey) (clientKind : Option ClientKind)
    (now : Instant) (r : SessionRegistry) :
    AcquirePc → Option (SessionRegistry × AcquirePc × List Event)
  | .count => some (r.countAttach, .gate, [])
  | .gate => some ((r.gateEntry key).1, .lookup (r.gateEntry key).2, [])
  | .lookup g =>
    match r.sessions.get? key with
    -- The reuse path returns without having entered the gate.
    | some record =>
      let (r', lease) := r.reuseSession key clientKind record now
      some (r', .returned (.ok lease), [.granted call lease record.handle.runtime])
    | none => some (r, .enter g, [])
  | .enter g =>
    match r.enterGate g with
    | (r', none) => some (r', .spawning g, [.spawnCalled call key])
    | (r', some epoch) => some (r', .waiting g epoch, [])
  -- Ends by `spawnReturns`, at any time.
  | .spawning _ => none
  -- The gate is cleared before the session is there: in between, another caller may enter
  -- it and spawn again.
  | .leave g (.ok handle) => some (r.leaveGate g, .publish handle, [])
  | .leave g (.error error) => some (r.leaveGate g, .dropGate error, [])
  | .publish handle =>
    let record := r.publishRecord key handle now
    let (r', lease) := r.publishSession key clientKind handle now
    some (r', .returned (.ok lease),
      -- The record that is there may hold another runtime than the handle.
      .granted call lease record.handle.runtime ::
        (if (r.sessions.get? key).isSome then [] else [.registered key handle.runtime]))
  | .dropGate error => some (r.dropGate key, .returned (.error error), [])
  -- Woken waiters go back to the top of the loop, with the gate they were given.
  | .waiting g epoch => if epoch < (r.gateHeap g).notify then some (r, .lookup g, []) else none
  | .returned _ => none

/-- One section of `release_by_lease_id`. -/
def ReleasePc.section (id : String) (now : Instant) (r : SessionRegistry) :
    ReleasePc → Option (SessionRegistry × ReleasePc)
  | .take =>
    match r.takeLease id with
    | some (r', key) => some (r', .decrement key)
    | none => some (r, .returned none)
  | .decrement key =>
    -- The session under the key is looked up anew.
    some ((r.releaseSession key now).1, .returned (some (r.releaseSession key now).2))
  | .returned _ => none

/-- One section of `remove`. The guard of `leases` is still held when the gate
    is dropped. -/
def RemovePc.section (key : SessionKey) (r : SessionRegistry) :
    RemovePc → Option (SessionRegistry × RemovePc)
  -- Between the two sections the key may have leases and no session.
  | .session => some (r.removeSession key, .leases)
  | .leases => some ((r.removeLeases key).dropGate key, .returned)
  | .returned => none

/-- One section of `call_by_lease_id` or `notify_by_lease_id`. The runtime's
    answer is not a section. -/
def ForwardPc.section (call : CallId) (id : String) (message : Json) (now : Instant)
    (r : SessionRegistry) : ForwardPc → Option (SessionRegistry × ForwardPc × List Event)
  | .lease =>
    match r.leaseKey id with
    | some key => some (r, .session key, [])
    -- No such lease: `Ok(None)`, and not an error.
    | none => some (r, .returned (.ok none), [])
  | .session key =>
    match r.lookupRuntime key now with
    | .missing => some (r, .returned (.ok none), [])
    | .rejected error => some (r, .returned (.error error), [])
    -- The guard is dropped before the runtime is called.
    | .found r' handle =>
      some (r', .awaiting key handle.runtime, [.forwarded call id handle.runtime message])
  | .awaiting _ _ => none
  | .touch key response => some (r.touch key now, .returned (.ok (some response)), [])
  | .returned _ => none

/-- The runtime selected by `mark_terminating_with_notice`, if there is one. -/
def markEvents (r : SessionRegistry) (key : SessionKey) : List Event :=
  match r.instanceOf key with
  | some runtime => [.selected runtime]
  | none => []

/-- One section of a call. `none` when the call has returned or awaits
    something outside the registry. -/
def Frame.section (call : CallId) (now : Instant) (r : SessionRegistry) :
    Frame → Option (SessionRegistry × Frame × List Event)
  | .acquire key clientKind pc =>
    match pc with
    -- `session_handle`, the second half of `dispatch_attach`, in a guard of its own.
    | .returned (.ok lease) =>
      some (r, .attached lease (r.sessionHandle key),
        (r.sessionHandle key).toList.map (.attachOk call lease))
    | pc =>
      (pc.section call key clientKind now r).map
        (fun (r', pc', events) => (r', .acquire key clientKind pc', events))
  | .attached _ _ => none
  | .release id pc =>
    (pc.section id now r).map (fun (r', pc') => (r', .release id pc', []))
  | .remove key pc => (pc.section key r).map (fun (r', pc') => (r', .remove key pc', []))
  | .forward kind id message pc =>
    (pc.section call id message now r).map
      (fun (r', pc', events) => (r', .forward kind id message pc', events))
  | .touch key returned => if returned then none else some (r.touch key now, .touch key true, [])
  | .mark key notice returned =>
    if returned then none
    else some (r.markTerminatingWithNotice key notice, .mark key notice true, markEvents r key)
  -- `start` is the clock as it was read before the lock was asked for.
  | .idle start result =>
    match result with
    | some _ => none
    | none =>
      some ((r.idleCandidates start).1, .idle start (some (r.idleCandidates start).2),
        (r.idleCandidates start).2.map (fun handle => .selected handle.runtime))
  | .increment evictor returned =>
    if returned then none else some (r.increment evictor, .increment evictor true, [])
  | .crash returned => if returned then none else some (r.incrementSessionCrash, .crash true, [])

/-- The call has not returned. An acquire has returned once it has a lease or an
    error, whatever its caller does next. -/
def Frame.inFlight : Frame → Bool
  | .acquire _ _ (.returned _) => false
  | .acquire _ _ _ => true
  | .attached _ _ => false
  | .release _ (.returned _) => false
  | .release _ _ => true
  | .remove _ .returned => false
  | .remove _ _ => true
  | .forward _ _ _ (.returned _) => false
  | .forward _ _ _ _ => true
  | .touch _ returned => !returned
  | .mark _ _ returned => !returned
  | .idle _ result => result.isNone
  | .increment _ returned => !returned
  | .crash returned => !returned

/-- The registry, the calls made on it, the clock, the next runtime to be
    spawned, and the log. -/
structure World where
  reg : SessionRegistry
  calls : Table CallId Frame
  now : Instant
  nextRuntime : RuntimeId
  log : List Event

/-- What can happen next. -/
inductive Action where
  /-- Time passes. -/
  | tick (span : Duration)
  /-- A task calls a method. -/
  | start (call : CallId) (method : Method)
  /-- A call runs its next section. -/
  | sect (call : CallId)
  /-- The spawn closure of a call returns: the result of `initialize`, or an
      error. -/
  | spawnReturns (call : CallId) (result : Except String Json)
  /-- The runtime answers a forwarded message, or the forwarding fails. -/
  | runtimeReturns (call : CallId) (result : Except String Json)

/-- The call an action moves. -/
def Action.mover : Action → Option CallId
  | .sect call => some call
  | .spawnReturns call _ => some call
  | .runtimeReturns call _ => some call
  | _ => none

namespace World

/-- The daemon's registry before any call. -/
def init (idleTtl : Duration) : World where
  reg := SessionRegistry.withIdleTtl idleTtl
  calls := Table.empty
  now := 0
  nextRuntime := 0
  log := []

/-- The world after a call has moved to a new frame. -/
def moved (w : World) (call : CallId) (r : SessionRegistry) (frame : Frame)
    (events : List Event) : World :=
  { w with reg := r, calls := w.calls.set call frame, log := events ++ w.log }

/-- The spawn closure returns. A handle it returns is for the key it was called
    with, and holds a runtime that no handle before it has held. -/
def spawnReturn (w : World) (call : CallId) (key : SessionKey) (clientKind : Option ClientKind)
    (g : GateId) : Except String Json → World
  | .ok initializeResult =>
    let handle : SessionHandle :=
      -- The number is given out here, so that two spawns never share one.
      { key := key, runtime := w.nextRuntime, initializeResult := initializeResult }
    { w.moved call w.reg (.acquire key clientKind (.leave g (.ok handle))) [.spawnOk call handle]
      with nextRuntime := w.nextRuntime + 1 }
  | .error error =>
    w.moved call w.reg (.acquire key clientKind (.leave g (.error error))) [.spawnFailed call key]

/-- The runtime answers; a failed `call` or `send` ends the method with its
    error. -/
def runtimeReturn (w : World) (call : CallId) (kind : ForwardKind) (id : String) (message : Json)
    (key : SessionKey) : Except String Json → World
  | .ok response => w.moved call w.reg (.forward kind id message (.touch key response)) []
  | .error error => w.moved call w.reg (.forward kind id message (.returned (.error error))) []

/-- One step of the world. -/
def step (w : World) : Action → Option World
  | .tick span => some { w with now := w.now + span }
  | .start call method =>
    match w.calls.get? call with
    -- A call goes by one name for its whole life.
    | some _ => none
    | none => some { w with calls := w.calls.set call (method.frame w.now) }
  | .sect call =>
    match w.calls.get? call with
    | none => none
    | some frame =>
      (frame.section call w.now w.reg).map
        (fun (r', frame', events) => w.moved call r' frame' events)
  | .spawnReturns call result =>
    match w.calls.get? call with
    | some (.acquire key clientKind (.spawning g)) =>
      some (w.spawnReturn call key clientKind g result)
    | _ => none
  | .runtimeReturns call result =>
    match w.calls.get? call with
    | some (.forward kind id message (.awaiting key _)) =>
      some (w.runtimeReturn call kind id message key result)
    | _ => none

/-- No call is in flight. -/
def Quiescent (w : World) : Prop :=
  ∀ call frame, w.calls.get? call = some frame → frame.inFlight = false

end World

/-! ### Schedules -/

/-- A key to run with. -/
def demoKey : SessionKey where
  root := { hasRoot := true, components := ["project"] }
  lspId := "rust-analyzer"
  configHash := "hash"

/-- The sections of an acquire that finds no session, up to its spawn
    closure. -/
def acquireUntilSpawn (call : CallId) : List Action :=
  [.start call (.acquireOrSpawn demoKey none), .sect call, .sect call, .sect call, .sect call]

/-- An acquire that finds no session and whose spawn closure succeeds. -/
def acquireFresh (call : CallId) : List Action :=
  acquireUntilSpawn call ++ [.spawnReturns call (.ok .null), .sect call, .sect call]

/-- An acquire that finds a session. -/
def acquireReuse (call : CallId) : List Action :=
  [.start call (.acquireOrSpawn demoKey none), .sect call, .sect call, .sect call]

/-- A release from its first section to its last. -/
def releaseAll (call : CallId) (id : String) : List Action :=
  [.start call (.releaseByLeaseId id), .sect call, .sect call]

/-- A removal from its first section to its last. -/
def removeAll (call : CallId) : List Action :=
  [.start call (.remove demoKey), .sect call, .sect call]

end Lspee
