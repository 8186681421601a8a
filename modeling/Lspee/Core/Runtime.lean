import Lspee.Core.Tasks
import Lspee.Lib.Broadcast

/-!
# The Runtime of a Language Server

One spawned server process and everybody who talks to it. `LspTransport::spawn`
gives the process a writer task, which takes messages from a bounded queue and
writes them to its standard input, and a reader task, which reads frames from
its standard output and broadcasts them. `LspRuntime` is a handle on the two
channels; it is cloned freely, and each clone owns a sender of both.

`LspRuntime::call` subscribes to the broadcast, queues its request, and then
polls until a message comes by whose id equals the id of the request.

One step is what happens between two awaits of one party: a call, the writer,
the reader, or the server. The server may write anything at any time. What it
writes in response to a request it has read is marked with the call that sent
the request, and the mark travels with the message; no party reads it.

A message's frame is written whole or not at all, and a server whose output is
not a frame ends the reader, which is `readError`.

## Main definitions

* `LspMessage`, `fromJson`: A message as the reader broadcasts it.
* `expects`: The test of the call's loop.
* `Tagged`: A message with the call it belongs to.
* `CallPc`, `Call`: A call of `LspRuntime::call`.
* `Owner`: Who holds a handle.
* `Transport`: The channels, the tasks and the calls of one server.
* `TransportAction`, `Transport.step`: One step.
* `Transport.senders`: Who can still send on the broadcast channel.
* `Transport.queuedBy`: What a step has put into the queue to the server.
-/

namespace Lspee

/-- A parsed message with its id and method. -/
structure LspMessage where
  id : Option Json
  method : Option String
  payload : Json
deriving DecidableEq

namespace LspMessage

def fromJson (payload : Json) : LspMessage :=
  ⟨payload.get "id", (payload.get "method").bind Json.asStr, payload⟩

end LspMessage

/-- A message with the call it is the request of, or the response to. -/
structure Tagged (α : Type) where
  caller : Option CallId
  content : α
deriving DecidableEq

/-- How far a call has come. A result that is a message is the message whose
    payload is returned. -/
inductive CallPc where
  | sending (rx : Broadcast.Receiver)
  | receiving (rx : Broadcast.Receiver)
  | returned (result : Except String (Tagged LspMessage))

/-- The receiver of a call that has not returned. -/
def CallPc.receiver : CallPc → Option Broadcast.Receiver
  | .sending rx => some rx
  | .receiving rx => some rx
  | .returned _ => none

/-- A call with its request. -/
structure Call where
  request : Json
  pc : CallPc

/-- Whether a message bears the id of the request. -/
def expects (request : Json) (message : Tagged LspMessage) : Bool :=
  -- A request has an id by now: `beginCall` fails without one.
  message.content.id == request.get "id"

/-- Who holds a handle on the runtime: the session record, a call, or a task
    that forwards messages. -/
inductive Owner where
  | session
  | call (call : CallId)
  | task (n : Nat)
deriving DecidableEq

/-- What the writer task is doing. -/
inductive WriterPc where
  | idle
  | writing (message : Tagged Json)
  | stopped
deriving DecidableEq

/-- One server process, its two tasks, and the calls on it. -/
structure Transport where
  calls : Table CallId Call
  /-- The live `LspRuntime` handles. -/
  handles : List Owner
  inbound : List (Tagged Json)
  writer : WriterPc
  /-- What the server has read. -/
  received : List (Tagged Json)
  /-- What the server has written and the reader has not read. -/
  stdout : List (Tagged Json)
  /-- The server has not closed its output. -/
  open_ : Bool
  /-- The reader task is running. -/
  reading : Bool
  outbound : Broadcast.Channel (Tagged LspMessage)

/-- One step of one party. -/
inductive TransportAction where
  /-- A task clones a handle. -/
  | clone (source : Owner) (n : Nat)
  | drop (owner : Owner)
  /-- `LspRuntime::call`, up to the subscription. -/
  | begin (call : CallId) (source : Owner) (request : Json)
  /-- The call queues its request. -/
  | send (call : CallId)
  /-- The call polls its receiver. -/
  | recv (call : CallId)
  /-- Somebody else queues a message. -/
  | forward (owner : Owner) (message : Json)
  | writerTake
  | writerWrote
  /-- A write failed; the message may have reached the server all the same. -/
  | writerFailed (delivered : Bool)
  /-- No handle is left and the queue is empty. -/
  | writerEnd
  /-- The server writes a message. -/
  | emit (caller : Option CallId) (payload : Json)
  /-- The server closes its output. -/
  | exit
  | read
  | readEnd
  | readError

/-- What the source's `mpsc::channel` and `broadcast::channel` are created with. -/
def channelCapacity : Nat := 256

namespace Transport

/-- The transport as `spawn` returns it, with the one handle that goes into the
    session record. -/
def spawn : Transport where
  calls := Table.empty
  handles := [.session]
  inbound := []
  writer := .idle
  received := []
  stdout := []
  open_ := true
  reading := true
  outbound := ⟨channelCapacity, []⟩

/-- Who can send on the broadcast channel: the reader task's clone, and the
    `outbound_tx` of every handle. -/
def senders (t : Transport) : Nat :=
  (if t.reading then 1 else 0) + t.handles.length

/-- What is in the queue to the server that was not there before. -/
def queuedBy (t t' : Transport) : List (Tagged Json) := t'.inbound.drop t.inbound.length

/-- `LspRuntime::send`. It waits while the queue is full, and fails when the
    writer task is gone. -/
def sendInbound (t : Transport) (message : Tagged Json) : Option (Except String Transport) :=
  -- The receiver is dropped with the writer task.
  if t.writer = .stopped then some (.error "failed to queue inbound lsp message")
  else if t.inbound.length < channelCapacity then
    some (.ok { t with inbound := t.inbound ++ [message] })
  else none

def setPc (t : Transport) (call : CallId) (request : Json) (pc : CallPc) : Transport :=
  { t with calls := t.calls.set call ⟨request, pc⟩ }

/-- The first section of a call: take the id, subscribe. -/
def beginCall (t : Transport) (call : CallId) (request : Json) : Transport :=
  match request.get "id" with
  | none => t.setPc call request (.returned (.error "request message must include id"))
  -- The subscription precedes the request, so the response cannot be missed for it.
  | some _ => t.setPc call request (.sending t.outbound.subscribe)

/-- The second section: queue the request. -/
def sendCall (t : Transport) (call : CallId) (request : Json) (rx : Broadcast.Receiver) :
    Option Transport :=
  match t.sendInbound ⟨some call, request⟩ with
  | none => none
  | some (.error error) => some (t.setPc call request (.returned (.error error)))
  | some (.ok t') => some (t'.setPc call request (.receiving rx))

/-- What a call reports when its receiver does. -/
def recvError : String := "lsp response channel closed while waiting for call response"

/-- One turn of the loop. The context of the error is the same for a closed
    channel and for a receiver that lags. -/
def recvCall (t : Transport) (call : CallId) (request : Json) (rx : Broadcast.Receiver) :
    Option Transport :=
  match t.outbound.recv t.senders rx with
  | .value message rx' =>
    -- The first message with the id ends the wait, whoever it answers.
    if expects request message then
      some (t.setPc call request (.returned (.ok message)))
    else some (t.setPc call request (.receiving rx'))
  -- `recv().await?` gives up although the channel is still open.
  | .lagged _ _ => some (t.setPc call request (.returned (.error recvError)))
  | .closed => some (t.setPc call request (.returned (.error recvError)))
  | .pending => none

/-- The server answers a request it has read, with the request's id and without
    a method, or writes something else. -/
def mayEmit (t : Transport) (caller : Option CallId) (payload : Json) : Bool :=
  match caller with
  -- What the server says unasked may bear any id.
  | none => true
  | some _ =>
    (payload.get "method").isNone &&
      t.received.any fun m => m.caller == caller && m.content.get "id" == payload.get "id"

/-- A call that has returned, and everybody else, may let go of its handle. -/
def mayDrop (t : Transport) (owner : Owner) : Bool :=
  match owner with
  | .call call =>
    match t.calls.get? call with
    -- The clone lives in the future of the call.
    | some ⟨_, .returned _⟩ => true
    | _ => false
  | _ => true

def step (t : Transport) : TransportAction → Option Transport
  | .clone source n =>
    if source ∈ t.handles ∧ .task n ∉ t.handles then
      some { t with handles := .task n :: t.handles }
    else none
  | .drop owner =>
    if owner ∈ t.handles ∧ t.mayDrop owner then
      some { t with handles := t.handles.erase owner }
    else none
  | .begin call source request =>
    -- `call_by_lease_id` clones the runtime out of the record before it calls.
    if source ∈ t.handles ∧ t.calls.get? call = none ∧ .call call ∉ t.handles then
      some ({ t with handles := .call call :: t.handles }.beginCall call request)
    else none
  | .send call =>
    match t.calls.get? call with
    | some ⟨request, .sending rx⟩ => t.sendCall call request rx
    | _ => none
  | .recv call =>
    match t.calls.get? call with
    | some ⟨request, .receiving rx⟩ => t.recvCall call request rx
    | _ => none
  | .forward owner message =>
    if owner ∈ t.handles then
      match t.sendInbound ⟨none, message⟩ with
      | some (.ok t') => some t'
      | some (.error _) => some t
      | none => none
    else none
  | .writerTake =>
    match t.writer, t.inbound with
    | .idle, message :: rest => some { t with writer := .writing message, inbound := rest }
    | _, _ => none
  | .writerWrote =>
    match t.writer with
    | .writing message => some { t with writer := .idle, received := message :: t.received }
    | _ => none
  | .writerFailed delivered =>
    match t.writer with
    -- What is still queued goes with the receiver.
    | .writing message => some { t with
        writer := .stopped
        inbound := []
        received := if delivered then message :: t.received else t.received }
    | _ => none
  | .writerEnd =>
    -- `recv` of the writer's channel gives `None` only when all senders are gone.
    if t.writer = .idle ∧ t.inbound = [] ∧ t.handles = [] then
      some { t with writer := .stopped }
    else none
  | .emit caller payload =>
    if t.open_ ∧ t.mayEmit caller payload then
      some { t with stdout := t.stdout ++ [⟨caller, payload⟩] }
    else none
  | .exit => if t.open_ then some { t with open_ := false } else none
  | .read =>
    match t.reading, t.stdout with
    | true, ⟨caller, payload⟩ :: rest => some { t with
        stdout := rest
        outbound := t.outbound.send ⟨caller, LspMessage.fromJson payload⟩ }
    | _, _ => none
  | .readEnd =>
    -- The end of the output, after all that was written before it.
    if t.reading ∧ t.stdout = [] ∧ ¬t.open_ then some { t with reading := false } else none
  | .readError => if t.reading then some { t with reading := false } else none

end Transport

end Lspee
