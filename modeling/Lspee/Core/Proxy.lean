import Lspee.Core.Framing
import Lspee.Core.Protocol
import Lspee.Core.Stream

/-!
# The Proxy

`lspee proxy` stands between an editor and the dedicated stream of a lease. Once
it is attached, it selects in a loop: it reads a frame of the editor from its
standard input, or the next line of the stream, whichever comes first, and
handles it.

The branch that loses the select is dropped. `next_line` keeps what it has
taken in its `Lines`, so that nothing is lost. `read_lsp_frame` keeps what it has
taken in the future itself: the bytes of a header line or of a body that are not
complete, and the header lines before. They go with the future.

What the editor writes is a list of bytes. Any number of them may have arrived
at any time. Reading a frame takes all that have, up to the end of a frame.
Handling a message or a line writes, which may fail; nothing is read while it
lasts.

The messages handed to `handle_editor_message` are kept in a list that nothing
reads.

## Main definitions

* `handleEditorMessage`: What the proxy does with a message of the editor.
* `streamErrorToEditorWarning`: What it makes of a stream error.
* `ProxyEnd`, `Proxy`: How the proxy ends, and its state.
* `ProxyAction`, `Proxy.step`: One turn of one branch.
-/

namespace Lspee

/-- What the proxy does with a message of the editor. `forward` has the frame
    for the stream and the next sequence number. -/
inductive Handled where
  | respond (response : Json)
  | ignore
  | exit
  | forward (frame : StreamFrame) (seq : Nat)

/-- The response to `initialize`: the result the daemon keeps, or the whole of
    what it keeps when that has no result. -/
def initializeResponseForEditor (id initializeResult : Json) : Json :=
  .obj [("id", id), ("jsonrpc", .str "2.0"),
    ("result", (initializeResult.get "result").getD initializeResult)]

def shutdownResponseForEditor (id : Json) : Json :=
  .obj [("id", id), ("jsonrpc", .str "2.0"), ("result", .null)]

def handleEditorMessage (message initializeResult : Json) (leaseId : String) (seq : Nat) :
    Handled :=
  match (message.get "method").bind Json.asStr, message.get "id" with
  -- By method and by whether there is an id, whatever else the message has.
  | some "initialize", some id => .respond (initializeResponseForEditor id initializeResult)
  | some "shutdown", some id => .respond (shutdownResponseForEditor id)
  | some "initialized", none => .ignore
  | some "exit", none => .exit
  -- A `shutdown` without an id and an `exit` with one come here as well.
  | _, _ => .forward ⟨protocolVersion, .lspIn, leaseId, seq, message⟩ (min (seq + 1) (2 ^ 64 - 1))

def StreamErrorPayload.fromValue (value : Json) : Option StreamErrorPayload := do
  let field ← value.asStruct ["code", "message", "retryable", "details"]
  let code ← (field "code").bind Json.asStr
  let message ← (field "message").bind Json.asStr
  let retryable ← match field "retryable" with
    | some (.bool b) => some b
    | _ => none
  let details ← Json.optional some (field "details")
  return { code, message, retryable, details }

def streamErrorToEditorWarning (payload : StreamErrorPayload) : Json :=
  -- Details without the hint, or with one that is no text, are as good as none.
  let resumeHint := ((payload.details.bind (fun details => details.get "resume_hint")).bind
    Json.asStr).getD "Retry attaching to the daemon session."
  .obj [("jsonrpc", .str "2.0"), ("method", .str "window/showMessage"),
    ("params", .obj [
      ("message", .str ("lspee warning: " ++ payload.message ++ " " ++ resumeHint)),
      ("type", .num 2)])]

/-- How the loop has ended. -/
inductive ProxyEnd where
  /-- The editor has sent `exit`. -/
  | exit
  /-- The editor has closed its side. -/
  | inputClosed
  /-- What the editor has sent is no frame, or no JSON. -/
  | inputFailed
  | writeFailed
  /-- The daemon has closed the stream, or sent a stream error. -/
  | streamClosed
  | streamFailed
deriving DecidableEq, Repr

inductive ProxyPc where
  | running
  | returned (reason : ProxyEnd)
deriving DecidableEq, Repr

/-- What reading the stream gives. -/
inductive StreamRead where
  | line (text : List Char)
  | closed
  | failed

/-- The proxy. `frame` is where the future of `read_lsp_frame` stands. -/
structure Proxy where
  initializeResult : Json
  leaseId : String
  /-- What the editor is still to write. -/
  coming : List UInt8
  /-- What has arrived and has not been taken. -/
  arrived : List UInt8
  frame : FrameState
  seq : Nat
  /-- What was written to the editor, and to the stream. -/
  stdout : List Json
  sent : List StreamFrame
  /-- The messages handled. -/
  handed : List Json
  pc : ProxyPc

/-- What can happen next. `writes` says whether the writes succeed that the step
    makes. -/
inductive ProxyAction where
  | arrive (n : Nat)
  /-- The future of `read_lsp_frame` is polled. -/
  | pollInput (writes : Bool)
  /-- The same, when the editor has closed its side and nothing is left. -/
  | inputEnds (writes : Bool)
  /-- The other branch wins the select. -/
  | streamReady (next : StreamRead) (writes : Bool)

namespace Proxy

variable (fromSlice : List UInt8 → Option Json) (fromStr : List Char → Option StreamFrame)

/-- The proxy when it has attached, with what the editor will write. -/
def attached (initializeResult : Json) (leaseId : String) (input : List UInt8) : Proxy where
  initializeResult := initializeResult
  leaseId := leaseId
  coming := input
  arrived := []
  frame := (frameReader fromSlice).start
  seq := 1
  stdout := []
  sent := []
  handed := []
  pc := .running

def finish (s : Proxy) (reason : ProxyEnd) : Proxy := { s with pc := .returned reason }

def writeLspMessage (s : Proxy) (message : Json) (writes : Bool) : Proxy :=
  if writes then { s with stdout := s.stdout ++ [message] } else s.finish .writeFailed

/-- A message of the editor. -/
def handle (s : Proxy) (message : Json) (writes : Bool) : Proxy :=
  let s := { s with handed := s.handed ++ [message] }
  match handleEditorMessage message s.initializeResult s.leaseId s.seq with
  | .respond response => s.writeLspMessage response writes
  | .ignore => s
  | .exit => s.finish .exit
  -- The number is taken before the write, and stays taken when that fails.
  | .forward frame seq =>
    if writes then { s with seq := seq, sent := s.sent ++ [frame] }
    else { s with seq := seq }.finish .writeFailed

def poll (s : Proxy) (writes : Bool) : Proxy :=
  match (frameReader fromSlice).poll s.frame s.arrived with
  -- All that has arrived is in the future now.
  | .pending frame => { s with frame := frame, arrived := [] }
  | .ready message rest =>
    { s with frame := (frameReader fromSlice).start, arrived := rest }.handle message writes
  | .failed => s.finish .inputFailed

def endInput (s : Proxy) (writes : Bool) : Proxy :=
  match (frameReader fromSlice).finish s.frame with
  -- The editor is done between two frames.
  | some [] => s.finish .inputClosed
  | some (message :: _) =>
    { s with frame := (frameReader fromSlice).start }.handle message writes
  -- It is done inside one.
  | none => s.finish .inputFailed

/-- A line of the stream, or its end. -/
def handleStream (s : Proxy) (next : StreamRead) (writes : Bool) : Proxy :=
  match next with
  | .closed => s.finish .streamClosed
  | .failed => s.finish .streamFailed
  | .line text =>
    match fromStr text with
    | none => s.finish .streamFailed
    | some frame =>
      match frame.frameType with
      | .lspOut => s.writeLspMessage frame.payload writes
      -- The warning is shown first, and then the loop ends.
      | .streamError =>
        match StreamErrorPayload.fromValue frame.payload with
        | none => s.finish .streamFailed
        | some payload =>
          if writes then (s.writeLspMessage (streamErrorToEditorWarning payload) true).finish
            .streamClosed
          else s.finish .writeFailed
      -- Not for a client, and ignored.
      | .lspIn => s

def step (s : Proxy) : ProxyAction → Option Proxy
  | .arrive n =>
    some { s with arrived := s.arrived ++ s.coming.take n, coming := s.coming.drop n }
  | .pollInput writes =>
    match s.pc with
    | .running => some (s.poll fromSlice writes)
    | .returned _ => none
  | .inputEnds writes =>
    match s.pc, s.arrived, s.coming with
    | .running, [], [] => some (s.endInput fromSlice writes)
    | _, _, _ => none
  | .streamReady next writes =>
    match s.pc with
    | .running =>
      -- The future of `read_lsp_frame` is dropped with what it has taken.
      some ({ s with frame := (frameReader fromSlice).start }.handleStream fromStr next writes)
    | .returned _ => none

end Proxy

end Lspee
