import Lspee.Core.Control
import Lspee.Core.Stream

/-!
# The Bytes of a Control Connection

`handle_control_connection` from the bytes it reads to the envelopes it writes.
`Core.Control` is what the daemon does with a line; here the line is taken off
the bytes the client sends. A line that is not UTF-8 is an error of the reader,
and ends the connection.

`serde_json::from_str` is a parameter. Beside the code two lists are kept, and
nothing reads them: the lines taken off, newest first, where one that is not
UTF-8 has no text, and the envelopes handed to `write_envelope`.

## Main definitions

* `lineRead`: The line that reading takes off.
* `Connection`: A control connection with its bytes.
* `ConnectionAction`, `Connection.step`: One step.
-/

namespace Lspee

open Utf8

/-- The line that reading takes off the bytes, if it gets to one: its text, or
    nothing when it is not UTF-8. -/
def lineRead (bytes : List UInt8) (ending : Ending) : Option (Option (List Char)) :=
  match splitLine bytes, ending with
  | (line, some _), _ => some ((decode line).map stripCarriageReturn)
  | (_, none), .error => none
  | (line, none), .eof => if line = [] then none else some (decode line)

/-- `str::len`: the bytes of a text in UTF-8. -/
def byteLen (text : List Char) : Nat := (text.map Char.utf8Size).sum

/-- A control connection, the bytes its client has yet to be read, and what was
    read and written. -/
structure Connection where
  control : Control
  bytes : List UInt8
  ending : Ending
  lines : List (Option (List Char))
  responses : List ControlEnvelope

/-- What can happen next: a step of the world or of a dispatcher, reading a
    line, or the end of a write. -/
inductive ConnectionAction where
  | world (a : Action)
  | read (call : CallId)
  | resume
  | bound (endpoint : Except String String) (call : CallId)
  | sampled (memoryTotal : Nat)
  | wrote (ok : Bool)

namespace Connection

variable (fromStr : List Char → Option Json)

/-- A connection that has just been accepted. -/
def accept (world : World) (settings : MemoryBudgetSettings) (startedAt : Instant)
    (bytes : List UInt8) (ending : Ending) : Connection where
  control := Control.accept world settings startedAt
  bytes := bytes
  ending := ending
  lines := []
  responses := []

/-- The line as it is dispatched. -/
def lineOf (text : List Char) : Line where
  len := byteLen text
  parsed := fromStr text

/-- Reading the next line. -/
def read (s : Connection) (call : CallId) : Option Connection :=
  match s.control.pc with
  | .reading =>
    let lines := (lineRead s.bytes s.ending).toList ++ s.lines
    match nextLine s.bytes s.ending with
    | .line text rest =>
      (s.control.step (.line (lineOf fromStr text) call)).map
        (fun c => { s with control := c, bytes := rest, lines := lines })
    | .eof => (s.control.step .eof).map (fun c => { s with control := c, lines := lines })
    | .failed => (s.control.step .readError).map (fun c => { s with control := c, lines := lines })
  | _ => none

/-- The envelope being written. -/
def written (s : Connection) : List ControlEnvelope :=
  match s.control.pc with
  | .writing response _ => [response]
  | _ => []

/-- One step. -/
def step (s : Connection) : ConnectionAction → Option Connection
  | .world a => (s.control.step (.world a)).map (fun c => { s with control := c })
  | .read call => s.read fromStr call
  | .resume => (s.control.step .resume).map (fun c => { s with control := c })
  | .bound endpoint call =>
    (s.control.step (.bound endpoint call)).map (fun c => { s with control := c })
  | .sampled memoryTotal =>
    (s.control.step (.sampled memoryTotal)).map (fun c => { s with control := c })
  | .wrote ok =>
    (s.control.step (.wrote ok)).map
      (fun c => { s with control := c, responses := s.written ++ s.responses })

end Connection

end Lspee
