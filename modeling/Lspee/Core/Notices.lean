import Lspee.Core.Control
import Lspee.Core.Evictors
import Lspee.Core.Runtime
import Lspee.Core.Stream

/-!
# What Clients See of an Eviction

The daemon with its evictors, and how those that hold a lease on a session learn
that it has been evicted for its memory. They have two ways to. A request on the
lease finds the session marked, and is answered with the notice in the mark. And
a dedicated stream forwards the event that the memory monitor sends, between the
mark and the shutdown, on the channel of the session it evicts.

A stream's event task subscribes when the client connects to the endpoint, takes
one event, queues it for the client, and ends. A task that has nothing to do
and could end is not told from one that waits. What else is queued for the
client is somebody else's.

Who holds a lease, and what the client has learned, is kept beside the code, and
nothing reads it. A client holds a lease from the moment its `AttachOk` is sent
until it asks to release it; a lease is on the session whose handle it was
attached with. What counts as told is how the first request failed that was made
on the lease after the mark.

## Main definitions

* `evictedCode`, `forwardAnswer`: What a failed `Call` or `Notify` is answered
  with.
* `Outgoing`, `EventPc`, `Listener`: A dedicated stream and its event task.
* `HolderStatus`, `Holder`: What a client that holds a lease has learned.
* `Notices`: The daemon, its streams and its clients.
* `NoticeAction`, `Notices.step`: One step.
-/

namespace Lspee

/-- The code of an eviction for memory. -/
def evictedCode : String := "E_SESSION_EVICTED_MEMORY"

/-- The error a `Call` or `Notify` is answered with, if it has failed. -/
def forwardAnswer (kind : ForwardKind) (id : Option String) :
    Except String (Option Json) → Option ControlEnvelope
  | .ok (some _) => none
  -- The lease is gone, as it is once `remove` has come to the leases.
  | .ok none => some (leaseNotFound id)
  | .error message => some (forwardError kind id message)

/-- A frame for the client of a stream. -/
inductive Outgoing where
  | lspOut (payload : Json)
  | streamError (payload : StreamErrorPayload)
deriving DecidableEq

/-- How far the event task has come. -/
inductive EventPc where
  | polling (rx : Broadcast.Receiver)
  | sending (payload : StreamErrorPayload)
  | ended
deriving DecidableEq

/-- A dedicated stream, as far as the error of its session goes. `since` is how
    many events its session had sent when the client connected. -/
structure Listener where
  runtime : RuntimeId
  since : Nat
  /-- The client has not closed its side. -/
  connected : Bool
  eventTask : EventPc
  writerTask : TaskState
  queue : List Outgoing
  delivered : List Outgoing

/-- Whether a client holds its lease, whether the lease's session has been marked
    since, and whether the event has been sent. -/
inductive HolderStatus where
  | held
  | evicted
  | announced
  | released
deriving DecidableEq, Repr

/-- A client that was sent an `AttachOk`: its lease, its session, and the first
    failure of a request made on the lease since the session was evicted. -/
structure Holder where
  leaseId : String
  runtime : RuntimeId
  status : HolderStatus
  told : Option (ForwardKind × Except String (Option Json))

/-- The daemon, the streams and the clients. Streams and clients go by the call
    of their attach. -/
structure Notices where
  daemon : Daemon
  /-- The event of the victim being evicted has been sent. -/
  sent : Bool
  events : RuntimeId → Broadcast.Channel StreamErrorPayload
  listeners : Table CallId Listener
  holders : Table CallId Holder
  /-- The requests made on the lease of an evicted session. -/
  watched : List CallId

/-- What can happen next. -/
inductive NoticeAction where
  | daemon (a : DaemonAction)
  /-- The memory monitor sends its event. -/
  | announce
  /-- An `AttachOk` is sent. -/
  | answer (call : CallId)
  /-- The client of a dedicated lease connects to the endpoint. -/
  | connect (call : CallId)
  /-- The event task polls its receiver. -/
  | poll (call : CallId)
  /-- The event task queues its frame. -/
  | push (call : CallId)
  /-- Something else is queued for the client. -/
  | forward (call : CallId) (payload : Json)
  /-- The writer task writes a frame. -/
  | write (call : CallId)
  | writeFails (call : CallId)
  | eof (call : CallId)

/-- What `broadcast::channel` is created with for the events of a session. -/
def eventCapacity : Nat := 32

namespace Listener

/-- The stream of a client that connects now. -/
def connect (runtime : RuntimeId) (events : Broadcast.Channel StreamErrorPayload) :
    Listener where
  runtime := runtime
  since := events.sent.length
  connected := true
  -- What was sent before the client came is not for its receiver.
  eventTask := .polling events.subscribe
  writerTask := .running
  queue := []
  delivered := []

/-- One turn of the event task's loop. The stream itself can still send. -/
def poll (st : Listener) (events : Broadcast.Channel StreamErrorPayload) : Option Listener :=
  match st.eventTask with
  | .polling rx =>
    match events.recv 1 rx with
    | .value payload _ => some { st with eventTask := .sending payload }
    -- `continue`, unlike the call of a runtime.
    | .lagged _ rx' => some { st with eventTask := .polling rx' }
    | .closed => some { st with eventTask := .ended }
    | .pending => none
  | _ => none

/-- The event task waits for room in the queue, and fails when the writer task
    is gone. -/
def push (st : Listener) : Option Listener :=
  match st.eventTask with
  | .sending payload =>
    -- The `?` of `send` ends a task that is at its end either way.
    if st.writerTask = .stopped then some { st with eventTask := .ended }
    else if st.queue.length < channelCapacity then
      some { st with eventTask := .ended, queue := st.queue ++ [.streamError payload] }
    else none
  | _ => none

def forward (st : Listener) (payload : Json) : Option Listener :=
  if st.writerTask = .running ∧ st.queue.length < channelCapacity then
    some { st with queue := st.queue ++ [.lspOut payload] }
  else none

def write (st : Listener) : Option Listener :=
  match st.writerTask, st.queue with
  | .running, frame :: rest =>
    some { st with queue := rest, delivered := st.delivered ++ [frame] }
  | _, _ => none

def writeFails (st : Listener) : Listener :=
  { st with writerTask := .stopped, queue := [] }

/-- The client has closed its side: the event task is aborted. -/
def eof (st : Listener) : Listener :=
  { st with connected := false, eventTask := .ended }

end Listener

namespace Holder

/-- The session has been evicted while the client held its lease. -/
def evicted (holder : Holder) : Bool :=
  holder.status == .evicted || holder.status == .announced

/-- The client learns from the next failure on this lease. -/
def waits (holder : Holder) (leaseId : String) : Bool :=
  holder.leaseId == leaseId && holder.evicted && holder.told.isNone

/-- One of these sessions is marked. -/
def mark (runtimes : List RuntimeId) (holder : Holder) : Holder :=
  if holder.status = .held ∧ holder.runtime ∈ runtimes then { holder with status := .evicted }
  else holder

def announce (holder : Holder) : Holder :=
  if holder.status = .evicted then { holder with status := .announced } else holder

/-- The client asks to release a lease. -/
def release (leaseId : String) (holder : Holder) : Holder :=
  if holder.leaseId = leaseId then { holder with status := .released } else holder

/-- A request on a lease ends. -/
def tell (kind : ForwardKind) (leaseId : String) (result : Except String (Option Json))
    (holder : Holder) : Holder :=
  if holder.waits leaseId ∧ (forwardAnswer kind none result).isSome then
    { holder with told := some (kind, result) }
  else holder

end Holder

namespace Notices

def init (idleTtl : Duration) (settings : MemoryBudgetSettings)
    (daemonIdleTtl : Option Duration) : Notices where
  daemon := Daemon.init idleTtl settings daemonIdleTtl
  sent := false
  events := fun _ => ⟨eventCapacity, []⟩
  listeners := Table.empty
  holders := Table.empty
  watched := []

/-- The victim whose shutdown is next. -/
def leaving (d : Daemon) : Option MemorySample :=
  match d.monitor with
  | .evicting ⟨some (sample, .shutdown), _⟩ => some sample
  | _ => none

/-- The victim whose mark is next. -/
def marking (d : Daemon) : Option MemorySample :=
  match d.monitor with
  | .evicting ⟨some (sample, .marking _), _⟩ => some sample
  | _ => none

/-- The sessions an eviction is of: the victim's, and the one that is registered
    under its key and gets the mark. -/
def victims (d : Daemon) (sample : MemorySample) : List RuntimeId :=
  -- The mark goes by the key, the event and the shutdown by the handle.
  sample.handle.runtime :: (d.world.reg.instanceOf sample.key).toList

/-- The result of the request an action has moved, if it was made on the lease of
    an evicted session and has ended. -/
def ending (watched : List CallId) (d' : Daemon) (a : Action) :
    Option (ForwardKind × String × Except String (Option Json)) :=
  match a.mover with
  | none => none
  | some call =>
    if call ∈ watched then
      match d'.world.calls.get? call with
      | some (.forward kind id _ (.returned result)) => some (kind, id, result)
      | _ => none
    else none

/-- What an action of the daemon means for those that hold a lease. -/
def observe (s : Notices) (d' : Daemon) : DaemonAction → Table CallId Holder
  -- Who asks to release a lease is no longer to be told.
  | .client (.start _ (.releaseByLeaseId id)) => s.holders.mapValues (Holder.release id)
  | .client a =>
    match ending s.watched d' a with
    | some (kind, id, result) => s.holders.mapValues (Holder.tell kind id result)
    | none => s.holders
  -- The holders are marked in the section that marks the record.
  | .memoryMonitor _ _ =>
    match marking s.daemon with
    | some sample => s.holders.mapValues (Holder.mark (victims s.daemon sample))
    | none => s.holders
  | _ => s.holders

/-- The requests made on the lease of an evicted session. -/
def watch (s : Notices) : DaemonAction → List CallId
  | .client (.start call (.forwardByLeaseId _ id _)) =>
    if s.holders.values.any (fun holder => holder.leaseId == id && holder.evicted) then
      call :: s.watched
    else s.watched
  | _ => s.watched

/-- The victim's event is sent before its shutdown. -/
def mayMove (s : Notices) : DaemonAction → Bool
  | .memoryMonitor _ _ => (leaving s.daemon).isNone || s.sent
  | _ => true

/-- Whether the event of the victim being evicted has been sent, after an action
    of the daemon. -/
def sentAfter (s : Notices) : DaemonAction → Bool
  -- The next victim has an event of its own.
  | .memoryMonitor _ _ => false
  | _ => s.sent

/-- A step of one stream. -/
def move (s : Notices) (call : CallId) (f : Listener → Option Listener) : Option Notices :=
  match s.listeners.get? call with
  | none => none
  | some st => (f st).map fun st' => { s with listeners := s.listeners.set call st' }

def step (s : Notices) : NoticeAction → Option Notices
  | .daemon a =>
    if s.mayMove a then
      (s.daemon.step a).map fun d' => { s with
        daemon := d'
        sent := s.sentAfter a
        holders := s.observe d' a
        watched := s.watch a }
    else none
  -- Between the mark and the shutdown, once for each victim.
  | .announce =>
    match leaving s.daemon, s.sent with
    | some sample, false => some { s with
        sent := true
        events := Function.update s.events sample.handle.runtime
          ((s.events sample.handle.runtime).send (evictionNotice sample s.daemon.settings))
        holders := s.holders.mapValues Holder.announce }
    | _, _ => none
  | .answer call =>
    match s.daemon.world.calls.get? call, s.holders.get? call with
    | some (.attached lease (some handle)), none =>
      some { s with holders := s.holders.set call ⟨lease.id, handle.runtime, .held, none⟩ }
    | _, _ => none
  -- The channel is the one of the handle the attach has found.
  | .connect call =>
    match s.daemon.world.calls.get? call, s.listeners.get? call with
    | some (.attached _ (some handle)), none =>
      some { s with
        listeners := s.listeners.set call (.connect handle.runtime (s.events handle.runtime)) }
    | _, _ => none
  | .poll call => s.move call fun st => st.poll (s.events st.runtime)
  | .push call => s.move call Listener.push
  | .forward call payload => s.move call fun st => st.forward payload
  | .write call => s.move call Listener.write
  | .writeFails call => s.move call fun st => some st.writeFails
  | .eof call => s.move call fun st => some st.eof

end Notices

end Lspee
