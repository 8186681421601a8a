import Lspee.Core.Tasks
import Lspee.Lib.Utf8

/-!
# A Dedicated Stream

What the daemon does for the one client of a lease's stream socket.
`run_stream_connection` starts three tasks: one forwards what the runtime
broadcasts, one forwards the session's error event, and one writes what these
two send to the socket. It then reads the client's lines, and hands the frames
that are for its lease to the runtime. After the last line it aborts the two
forwarding tasks, waits for the writer task, and releases the lease.

The client is the bytes it sends and how its side ends. `serde_json::from_str`
is a parameter. What the forwarding tasks forward is not represented, only
whether they run: either may end by itself, because the writer task is gone or
its channel is closed, and a task that is aborted does not run any further. The
writer task ends when a write fails, or when nobody can send to it any more.

The registry is the world, and the release is a call of it.

## Main definitions

* `StreamFrame`: A frame of the stream.
* `nextLine`: What `Lines::next_line` returns.
* `StreamPc`: How far the connection has come.
* `Stream`: The connection, its tasks and the world.
* `StreamAction`, `Stream.step`: One step.
-/

namespace Lspee

open Utf8

inductive StreamFrameType where
  | lspIn
  | lspOut
  | streamError
deriving DecidableEq, Repr

structure StreamFrame where
  v : Nat
  frameType : StreamFrameType
  leaseId : String
  seq : Nat
  payload : Json
deriving DecidableEq

/-- How the client's side of a socket ends: it is closed, or reading fails. -/
inductive Ending where
  | eof
  | error
deriving DecidableEq, Repr

/-- What reading a line returns. -/
inductive NextLine where
  | line (text : List Char) (rest : List UInt8)
  | eof
  | failed
deriving DecidableEq

/-- A line without the carriage return before its newline. -/
def stripCarriageReturn (text : List Char) : List Char :=
  -- One at most, and `next_line` takes none off where there is no newline.
  if text.getLast? = some '\r' then text.dropLast else text

/-- The next line of the bytes a client sends. The bytes after the last newline
    are a line as well, if there are any and the client closes its side. -/
def nextLine (bytes : List UInt8) (ending : Ending) : NextLine :=
  match splitLine bytes, ending with
  | (line, some rest), _ =>
    match decode line with
    | some text => .line (stripCarriageReturn text) rest
    | none => .failed
  | (_, none), .error => .failed
  | (line, none), .eof =>
    if line = [] then .eof
    else match decode line with
      -- The last line, without a newline.
      | some text => .line text []
      | none => .failed

/-- Whether a task runs. -/
inductive TaskState where
  | running
  | stopped
deriving DecidableEq, Repr

/-- How far the connection has come: the await it is in. -/
inductive StreamPc where
  | reading
  | sending (payload : Json)
  | draining
  | releasing (call : CallId)
  | returned (ok : Bool)
deriving DecidableEq

/-- The connection, the world it is in, and its tasks. `outboundTx` is the
    connection's own sender to the writer task. -/
structure Stream where
  world : World
  leaseId : String
  bytes : List UInt8
  ending : Ending
  pc : StreamPc
  outboundTx : Bool
  runtimeTask : TaskState
  eventTask : TaskState
  writerTask : TaskState
  /-- How often the connection has released its lease. -/
  releases : Nat

/-- What can happen next: a step of the world, of the connection, or the end of
    a task. -/
inductive StreamAction where
  | world (a : Action)
  | read
  /-- The runtime has taken the payload, or is gone. -/
  | sent (ok : Bool)
  | runtimeTaskEnds
  | eventTaskEnds
  | writeFails
  /-- Nobody can send to the writer task any more. -/
  | writerDrained
  /-- The writer task has ended; the connection releases its lease. -/
  | join (call : CallId)
  | finish

namespace Stream

variable (fromStr : List Char → Option StreamFrame)

/-- The connection when its client has been accepted and its tasks have been
    started. -/
def accept (world : World) (leaseId : String) (bytes : List UInt8) (ending : Ending) : Stream where
  world := world
  leaseId := leaseId
  bytes := bytes
  ending := ending
  pc := .reading
  outboundTx := true
  runtimeTask := .running
  eventTask := .running
  writerTask := .running
  releases := 0

/-- An early return drops the connection's sender and detaches its tasks. -/
def fail (s : Stream) : Stream :=
  { s with pc := .returned false, outboundTx := false }

/-- A line of the client. -/
def handleLine (s : Stream) (text : List Char) (rest : List UInt8) : Stream :=
  match fromStr text with
  -- The `?` on `from_str`: the tasks go on without their connection.
  | none => s.fail
  | some frame =>
    -- `continue`, whatever the type of the frame.
    if frame.leaseId ≠ s.leaseId then { s with bytes := rest }
    else match frame.frameType with
      | .lspIn => { s with bytes := rest, pc := .sending frame.payload }
      | .lspOut => { s with bytes := rest }
      | .streamError => { s with bytes := rest }

/-- The end of the loop: the forwarding tasks are aborted, and the connection's
    sender is dropped. -/
def abortTasks (s : Stream) : Stream :=
  { s with
    pc := .draining
    outboundTx := false
    -- An aborted task runs no further, and its sender is dropped.
    runtimeTask := .stopped
    eventTask := .stopped }

def step (s : Stream) : StreamAction → Option Stream
  | .world a => (s.world.step a).map (fun w => { s with world := w })
  | .read =>
    match s.pc, nextLine s.bytes s.ending with
    | .reading, .line text rest => some (s.handleLine fromStr text rest)
    | .reading, .eof => some s.abortTasks
    | .reading, .failed => some s.fail
    | _, _ => none
  | .sent ok =>
    match s.pc with
    | .sending _ => if ok then some { s with pc := .reading } else some s.fail
    | _ => none
  | .runtimeTaskEnds => some { s with runtimeTask := .stopped }
  | .eventTaskEnds => some { s with eventTask := .stopped }
  | .writeFails => some { s with writerTask := .stopped }
  | .writerDrained =>
    -- The channel closes when its last sender is dropped.
    if s.outboundTx = false ∧ s.runtimeTask = .stopped ∧ s.eventTask = .stopped then
      some { s with writerTask := .stopped }
    else none
  | .join call =>
    match s.pc, s.writerTask with
    -- The writer task is awaited before the lease is released.
    | .draining, .stopped =>
      (s.world.step (.start call (.releaseByLeaseId s.leaseId))).map
        (fun w => { s with world := w, pc := .releasing call })
    | _, _ => none
  | .finish =>
    match s.pc with
    | .releasing call =>
      match s.world.calls.get? call with
      | some (.release _ (.returned _)) =>
        some { s with pc := .returned true, releases := s.releases + 1 }
      | _ => none
    | _ => none

end Stream

end Lspee
