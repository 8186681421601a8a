import Lspee.Core.Protocol
import Lspee.Core.Runtime
import Lspee.Core.Stream

/-!
# A Session and Its Users

The transport of one session with everybody who uses it: the daemon itself, the
clients that send their requests by `Call`, and the clients that hold a dedicated
stream each.

A call reads the broadcast until it meets its own id. A stream does not: what
the server broadcasts while the stream's forwarding task runs is put into a
frame and queued for the stream's client, whoever asked for it. A task that has
lost messages goes on with the oldest it can still get.

The frames a client sends are here values, and not bytes: `Core.Stream` reads
them. What is kept beside the code, and what nothing reads, is who sent which
request.

## Main definitions

* `Party`: Who sends a request.
* `LeaseStream`: A stream, its tasks and its queues.
* `Sharing`: The transport, the streams, and who sent which request.
* `SharingAction`, `Sharing.step`: One step.
-/

namespace Lspee

/-- Who sends a request: the client of a stream, a client of the control socket,
    or the daemon. -/
inductive Party where
  | stream (n : Nat)
  | control (n : Nat)
  | daemon
deriving DecidableEq, Repr

/-- A dedicated stream. `inHand` is the frame the forwarding task waits to
    queue. -/
structure LeaseStream where
  leaseId : String
  /-- The client's lines are being read. -/
  reading : Bool
  rx : Broadcast.Receiver
  seq : Nat
  inHand : Option (Tagged StreamFrame)
  queue : List (Tagged StreamFrame)
  /-- What has been written to the client. -/
  delivered : List (Tagged StreamFrame)
  runtimeTask : TaskState
  eventTask : TaskState
  writerTask : TaskState

/-- One session. `requests` says who sent which request. -/
structure Sharing where
  transport : Transport
  streams : Table Nat LeaseStream
  requests : Table CallId Party

/-- One step of one party. -/
inductive SharingAction where
  | transport (a : TransportAction)
  /-- A client of the control socket, or the daemon, calls the runtime. -/
  | begin (client : Option Nat) (call : CallId) (source : Owner) (request : Json)
  /-- One of them sends a message, and does not wait for a response. -/
  | send (client : Option Nat) (call : CallId) (owner : Owner) (message : Json)
  /-- The client of a stream connects. -/
  | connect (n : Nat) (leaseId : String)
  /-- The client sends a frame; `call` names the request in it. -/
  | frame (n : Nat) (frame : StreamFrame) (call : CallId)
  /-- A line of the client cannot be read, or is no frame. -/
  | lineFails (n : Nat)
  | eof (n : Nat)
  /-- The forwarding task polls its receiver. -/
  | take (n : Nat)
  /-- The forwarding task queues the frame it holds. -/
  | push (n : Nat)
  /-- The event task forwards the session's error. -/
  | event (n : Nat) (payload : Json)
  | eventEnds (n : Nat)
  /-- The writer task writes a frame. -/
  | write (n : Nat)
  | writeFails (n : Nat)
  /-- Nobody can send to the writer task any more. -/
  | writerDrained (n : Nat)

namespace LeaseStream

/-- The stream of a client that connects now. -/
def connect (leaseId : String) (rx : Broadcast.Receiver) : LeaseStream where
  leaseId := leaseId
  reading := true
  rx := rx
  seq := 1
  inHand := none
  queue := []
  delivered := []
  runtimeTask := .running
  eventTask := .running
  writerTask := .running

/-- The frame in which a message is forwarded. -/
def lspOut (s : LeaseStream) (message : Tagged LspMessage) : Tagged StreamFrame :=
  ⟨message.caller, ⟨protocolVersion, .lspOut, s.leaseId, s.seq, message.content.payload⟩⟩

/-- One turn of the forwarding task's loop, up to the queue. -/
def take (s : LeaseStream) (outbound : Broadcast.Channel (Tagged LspMessage)) (senders : Nat) :
    Option LeaseStream :=
  match s.runtimeTask, s.inHand with
  | .running, none =>
    match outbound.recv senders s.rx with
    -- `saturating_add`, and the frame has the number before.
    | .value message rx => some { s with
        rx := rx
        seq := min (s.seq + 1) (2 ^ 64 - 1)
        inHand := some (s.lspOut message) }
    -- `continue`: what was missed is not made up for.
    | .lagged _ rx => some { s with rx := rx }
    | .closed => some { s with runtimeTask := .stopped }
    | .pending => none
  | _, _ => none

/-- The forwarding task waits for room in the queue, and ends when the writer
    task is gone. -/
def push (s : LeaseStream) : Option LeaseStream :=
  match s.runtimeTask, s.inHand with
  | .running, some frame =>
    -- `send` fails, and its `?` ends the task.
    if s.writerTask = .stopped then some { s with runtimeTask := .stopped, inHand := none }
    else if s.queue.length < channelCapacity then
      some { s with inHand := none, queue := s.queue ++ [frame] }
    else none
  | _, _ => none

/-- The event task forwards one event, and ends. -/
def event (s : LeaseStream) (payload : Json) : Option LeaseStream :=
  if s.eventTask = .running ∧ s.writerTask = .running ∧ s.queue.length < channelCapacity then
    some { s with
      eventTask := .stopped
      -- The number is a constant of the source, whatever the other task has reached.
      queue := s.queue ++ [⟨none, ⟨protocolVersion, .streamError, s.leaseId, 1, payload⟩⟩] }
  else none

def write (s : LeaseStream) : Option LeaseStream :=
  match s.writerTask, s.queue with
  | .running, frame :: rest =>
    some { s with queue := rest, delivered := s.delivered ++ [frame] }
  | _, _ => none

/-- The writer task ends, and what is queued is lost. -/
def writerEnds (s : LeaseStream) : LeaseStream :=
  { s with writerTask := .stopped, queue := [] }

/-- The writer task ends when nobody can send to it any more. -/
def drained (s : LeaseStream) : Option LeaseStream :=
  if s.reading = false ∧ s.runtimeTask = .stopped ∧ s.eventTask = .stopped ∧ s.queue = [] then
    some s.writerEnds
  else none

/-- The client has closed its side: the forwarding tasks are aborted. -/
def eof (s : LeaseStream) : LeaseStream :=
  { s with
    reading := false
    runtimeTask := .stopped
    eventTask := .stopped
    inHand := none }

/-- An early return leaves the tasks running. -/
def fail (s : LeaseStream) : LeaseStream :=
  -- The `?` of the loop: neither task is aborted, and the lease is not released.
  { s with reading := false }

end LeaseStream

namespace Sharing

/-- The session when its runtime has been spawned. -/
def init : Sharing where
  transport := Transport.spawn
  streams := Table.empty
  requests := Table.empty

/-- Requests are sent by the actions below. A stream whose client's lines are
    read holds a handle. -/
def mayMove (h : Sharing) : TransportAction → Bool
  | .begin _ _ _ => false
  | .forward _ _ => false
  -- The connection keeps its clone until its loop is over.
  | .drop (.task n) => (h.streams.get? n).all fun s => !s.reading
  | _ => true

/-- A step of one stream. -/
def move (h : Sharing) (n : Nat) (f : LeaseStream → Option LeaseStream) : Option Sharing :=
  match h.streams.get? n with
  | none => none
  | some s => (f s).map fun s' => { h with streams := h.streams.set n s' }

/-- The party that calls or sends. -/
def caller : Option Nat → Party
  | some n => .control n
  | none => .daemon

/-- Nobody has sent a request under this name. -/
def fresh (h : Sharing) (call : CallId) : Bool :=
  (h.requests.get? call).isNone && (h.transport.calls.get? call).isNone

/-- `LspRuntime::send`, for a request of this party. -/
def queue (h : Sharing) (call : CallId) (party : Party) (message : Json) :
    Option (Except String Sharing) :=
  match h.transport.sendInbound ⟨some call, message⟩ with
  | none => none
  | some (.error error) => some (.error error)
  | some (.ok t) =>
    some (.ok { h with transport := t, requests := h.requests.set call party })

/-- A frame of a stream's client. -/
def handleFrame (h : Sharing) (n : Nat) (s : LeaseStream) (frame : StreamFrame) (call : CallId) :
    Option Sharing :=
  -- A frame for another lease is skipped, and not refused.
  if frame.leaseId ≠ s.leaseId then some h
  else match frame.frameType with
    | .lspIn =>
      match h.queue call (.stream n) frame.payload with
      | none => none
      -- The writer task of the server is gone.
      | some (.error _) => some { h with streams := h.streams.set n s.fail }
      | some (.ok h') => some h'
    | .lspOut => some h
    | .streamError => some h

def step (h : Sharing) : SharingAction → Option Sharing
  | .transport a =>
    if h.mayMove a then (h.transport.step a).map fun t => { h with transport := t } else none
  | .begin client call source request =>
    if h.fresh call then
      (h.transport.step (.begin call source request)).map fun t =>
        { h with transport := t, requests := h.requests.set call (caller client) }
    else none
  | .send client call owner message =>
    if owner ∈ h.transport.handles ∧ h.fresh call then
      match h.queue call (caller client) message with
      | none => none
      | some (.error _) => some h
      | some (.ok h') => some h'
    else none
  -- Both tasks subscribe before the first line is read.
  | .connect n leaseId =>
    if .task n ∈ h.transport.handles ∧ h.streams.get? n = none then
      some { h with
        streams := h.streams.set n (.connect leaseId h.transport.outbound.subscribe) }
    else none
  | .frame n frame call =>
    match h.streams.get? n with
    | none => none
    | some s => if s.reading ∧ h.fresh call then h.handleFrame n s frame call else none
  | .lineFails n => h.move n fun s => if s.reading then some s.fail else none
  | .eof n => h.move n fun s => if s.reading then some s.eof else none
  | .take n => h.move n fun s => s.take h.transport.outbound h.transport.senders
  | .push n => h.move n LeaseStream.push
  | .event n payload => h.move n fun s => s.event payload
  | .eventEnds n => h.move n fun s => some { s with eventTask := .stopped }
  | .write n => h.move n LeaseStream.write
  | .writeFails n => h.move n fun s => some s.writerEnds
  | .writerDrained n => h.move n LeaseStream.drained

end Sharing

end Lspee
