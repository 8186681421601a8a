import Lspee.Core.Fleet
import Lspee.Core.Notices
import Lspee.Core.Wire

/-!
# Evicting a Session Its Clients Use

One session with its users, and `evict_session` at work on it: the notice is
sent, then the messages of `LspRuntime::shutdown`, the process is waited for or
killed, and the session is removed. Nothing here stops its users. The streams
and their tasks hold handles of their own, and the server may write until it is
gone.

The event tasks are here as they are in `Core.Notices`: a task takes one event
and queues it in a `StreamError` frame. The loop that reads a client's lines is
in two steps. It reads a frame, and it hands it to the runtime, which may have to
wait for room.

Kept beside the code, and read by nothing: whether a frame was read after the
`StreamError` had been written to its stream, and what has been queued to the server
when such a frame was handled.

## Main definitions

* `EvictPc`: How far `evict_session` has come.
* `ReadFrame`: A frame that has been read and not been handled.
* `Expulsion`: The session, its event tasks, and its eviction.
* `ExpulsionAction`, `Expulsion.step`: One step.
-/

namespace Lspee

/-- How far `evict_session` has come. -/
inductive EvictPc where
  | starting
  | announced
  | shuttingDown
  | exiting
  | stopped
  | removed
deriving DecidableEq, Repr

/-- A frame that has been read and not been handled. `late` is whether the
    `StreamError` had been written to the stream by then. -/
structure ReadFrame where
  frame : StreamFrame
  late : Bool

/-- A session with its users, its event tasks, and its eviction. -/
structure Expulsion where
  sharing : Sharing
  events : Broadcast.Channel StreamErrorPayload
  pc : EvictPc
  listeners : Table Nat EventPc
  read : Table Nat ReadFrame
  /-- What has been queued to the server for frames that were read too late. -/
  forwardedLate : List (Tagged Json)

/-- What can happen next. -/
inductive ExpulsionAction where
  | sharing (a : SharingAction)
  /-- The client of a stream connects. -/
  | connect (n : Nat) (leaseId : String)
  /-- `evict_session` sends its notice. -/
  | announce (notice : StreamErrorPayload)
  /-- It sends the two messages of `LspRuntime::shutdown`, under these names. -/
  | shutdown (call : CallId)
  | exit (call : CallId)
  /-- The process has exited or has been killed, or neither can be done. -/
  | stop
  | remove
  /-- A frame of the client is read. -/
  | receive (n : Nat) (frame : StreamFrame)
  /-- It is handled; `call` names the request in it. -/
  | handle (n : Nat) (call : CallId)
  /-- The event task polls its receiver. -/
  | poll (n : Nat)
  /-- The event task queues its frame. -/
  | push (n : Nat)

/-- The frame is a `StreamError`. -/
def isStreamError (frame : Tagged StreamFrame) : Bool :=
  frame.content.frameType == .streamError

namespace Expulsion

/-- The session when its runtime has been spawned. -/
def init : Expulsion where
  sharing := Sharing.init
  events := ⟨eventCapacity, []⟩
  pc := .starting
  listeners := Table.empty
  read := Table.empty
  forwardedLate := []

/-- Clients connect, and frames are read and errors queued, by the actions
    below. The loop does not read on while it has a frame. -/
def mayMove (s : Expulsion) : SharingAction → Bool
  | .connect _ _ => false
  | .frame _ _ _ => false
  | .event _ _ => false
  -- A frame in hand comes first.
  | .lineFails n => (s.read.get? n).isNone
  | .eof n => (s.read.get? n).isNone
  | _ => true

/-- `evict_session` sends a message, and does not mind an error. -/
def sendLast (s : Expulsion) (call : CallId) (message : Json) (pc : EvictPc) : Option Expulsion :=
  (s.sharing.step (.send none call .session message)).map fun h => { s with
    sharing := h
    pc := pc }

def step (s : Expulsion) : ExpulsionAction → Option Expulsion
  | .sharing a =>
    if s.mayMove a then (s.sharing.step a).map fun h => { s with sharing := h } else none
  | .connect n leaseId =>
    (s.sharing.step (.connect n leaseId)).map fun h => { s with
      sharing := h
      listeners := s.listeners.set n (.polling s.events.subscribe) }
  | .announce notice =>
    match s.pc with
    | .starting => some { s with pc := .announced, events := s.events.send notice }
    | _ => none
  -- `send`, and not `call`: the answer to the request is not awaited.
  | .shutdown call =>
    match s.pc with
    | .announced => s.sendLast call shutdownMessage .shuttingDown
    | _ => none
  | .exit call =>
    match s.pc with
    | .shuttingDown => s.sendLast call exitMessage .exiting
    | _ => none
  | .stop =>
    match s.pc with
    | .exiting => some { s with pc := .stopped }
    | _ => none
  | .remove =>
    match s.pc with
    | .stopped => some { s with pc := .removed }
    | _ => none
  | .receive n frame =>
    match s.sharing.streams.get? n, s.read.get? n with
    | some st, none =>
      if st.reading then
        -- Whether it is late is settled when the frame is read, not when it is handled.
        some { s with read := s.read.set n ⟨frame, st.delivered.any isStreamError⟩ }
      else none
    | _, _ => none
  | .handle n call =>
    match s.read.get? n with
    | none => none
    | some ⟨frame, late⟩ =>
      (s.sharing.step (.frame n frame call)).map fun h => { s with
        sharing := h
        read := s.read.erase n
        -- What the step has put into the queue, whoever let it.
        forwardedLate :=
          (if late then s.sharing.transport.queuedBy h.transport else []) ++ s.forwardedLate }
  | .poll n =>
    match s.listeners.get? n with
    | some (.polling rx) =>
      -- The stream itself can still send.
      match s.events.recv 1 rx with
      | .value payload _ => some { s with listeners := s.listeners.set n (.sending payload) }
      | .lagged _ rx' => some { s with listeners := s.listeners.set n (.polling rx') }
      | .closed => none
      | .pending => none
    | _ => none
  | .push n =>
    match s.listeners.get? n with
    | some (.sending payload) =>
      (s.sharing.step (.event n payload.toValue)).map fun h => { s with
        sharing := h
        listeners := s.listeners.set n .ended }
    | _ => none

end Expulsion

end Lspee
