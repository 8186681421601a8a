import Lspee.Core.Conversation
import Lspee.Core.Fleet
import Lspee.Core.Proxy
import Lspee.Core.Wire

/-!
# An Editor Behind a Proxy

The whole way between an editor and a language server: the proxy of `Core.Proxy`,
the socket of its stream, and the daemon with its registry and its servers, which is
`Core.Fleet`. The proxy has attached, and connects to the endpoint of its lease.
From there on the frames that the proxy forwards are lines of bytes which the daemon
reads, and the frames that the daemon's writer task writes are lines of bytes which
the proxy reads. Everybody else may do what they do in a `Fleet`.

Either side reads a line when there is a whole one, or when the other side is
closed. The proxy's side is closed when the proxy has returned, the daemon's when
its tasks for the connection have ended. A write of the daemon fails only when the
proxy has returned. A write of the proxy may fail at any time; what it has written
of a frame then is not represented, since nobody reads on.

`serde_json` is two parameters for the lines and one for the frames of the editor.
Kept beside the code, and read by nothing, is what the server has written since the
proxy connected, with what was on its way then.

## Main definitions

* `StreamFrame.toValue`, `StreamFrame.fromValue`: A frame of the stream as JSON.
* `Tunnel`: The proxy, the daemon, and what is between them.
* `TunnelAction`, `Tunnel.step`: One step.
-/

namespace Lspee

/-- The frame with the fields in the order of the struct. -/
def StreamFrame.toValue (frame : StreamFrame) : Json :=
  TypedFrame.toValue id ⟨frame.v, frame.frameType, frame.leaseId, frame.seq, frame.payload⟩

def StreamFrame.fromValue (value : Json) : Option StreamFrame :=
  (TypedFrame.fromValue some value).map fun frame =>
    ⟨frame.v, frame.frameType, frame.leaseId, frame.seq, frame.payload⟩

/-- What of a server's output its reader has not read. -/
def Server.unread (s : Server) : List Json :=
  s.sharing.transport.stdout.map fun m => m.content

/-- The proxy with the daemon. The connection is number `n` on the server of its
    lease. -/
structure Tunnel where
  fleet : Fleet
  server : CallId
  n : Nat
  proxy : Proxy
  /-- What the proxy has written and the daemon has not read. -/
  toDaemon : List UInt8
  /-- What the daemon has written and the proxy has not read. -/
  toProxy : List UInt8
  /-- What the server has written. -/
  spoken : List Json

/-- What can happen next. -/
inductive TunnelAction where
  /-- A step of the daemon that does not touch the socket. -/
  | fleet (a : FleetAction)
  /-- The editor writes, or the proxy reads from it. -/
  | editor (a : ProxyAction)
  /-- The daemon reads a line; `call` names the request in it. -/
  | readLine (call : CallId)
  /-- The daemon's writer task writes a frame. -/
  | write
  /-- The proxy reads a line. -/
  | hear (writes : Bool)

namespace Tunnel

variable (fromSlice : List UInt8 → Option Json)
variable (toString : Json → List Char) (fromStr : List Char → Option Json)

/-- What the proxy and the daemon decode a line with. -/
def frameOf (text : List Char) : Option StreamFrame := (fromStr text).bind StreamFrame.fromValue

/-- A proxy whose attach has returned, once it is connected to the endpoint of its
    lease. The editor will write `input`. -/
def connect (fleet : Fleet) (attach : CallId) (n : Nat) (input : List UInt8) : Option Tunnel :=
  match fleet.world.calls.get? attach with
  | some (.attached lease (some handle)) =>
    match fleet.owners.get? handle.runtime, fleet.serverOf handle.runtime,
      fleet.step (.connect attach n) with
    | some server, some s, some fleet' => some {
        fleet := fleet'
        server := server
        n := n
        proxy := Proxy.attached fromSlice handle.initializeResult lease.id input
        toDaemon := []
        toProxy := []
        -- What the server has written and nobody has read may still come to this stream.
        spoken := s.unread }
    | _, _, _ => none
  | _ => none

/-- The daemon's end of the stream. -/
def stream (s : Tunnel) : Option LeaseStream :=
  (s.fleet.servers.get? s.server).bind fun t => t.sharing.streams.get? s.n

/-- The proxy has returned. -/
def gone (s : Tunnel) : Bool :=
  match s.proxy.pc with
  | .running => false
  | .returned _ => true

/-- The daemon has dropped both halves of the socket. -/
def daemonClosed (s : Tunnel) : Bool :=
  match s.stream with
  -- The writer task owns one half, the loop that reads the other.
  | some u => !u.reading && u.writerTask = .stopped
  | none => true

/-- Lines are read and written by the steps below. -/
def mayMove (s : Tunnel) : FleetAction → Bool
  | .server server a =>
    -- Not the steps of this stream that read or write the socket.
    server ≠ s.server || match a with
      | .frame n _ _ => n ≠ s.n
      | .lineFails n => n ≠ s.n
      | .eof n => n ≠ s.n
      | .write n => n ≠ s.n
      | .writeFails n => n ≠ s.n || s.gone
      | _ => true
  | _ => true

/-- What the server writes in a step. -/
def emitted (s : Tunnel) : FleetAction → List Json
  | .server server (.transport (.emit _ payload)) => if server = s.server then [payload] else []
  | _ => []

/-- A step of the stream on the daemon's side. -/
def onStream (s : Tunnel) (a : SharingAction) : Option Tunnel :=
  (s.fleet.step (.server s.server a)).map fun fleet => { s with fleet := fleet }

def writeFrames (frames : List StreamFrame) : List UInt8 :=
  frames.flatMap fun frame => writeLine toString frame.toValue

/-- The proxy takes a step of its own, and writes what it forwards. -/
def moveProxy (s : Tunnel) (a : ProxyAction) : Option Tunnel :=
  (s.proxy.step fromSlice (frameOf fromStr) a).map fun proxy => { s with
    proxy := proxy
    toDaemon := s.toDaemon ++ writeFrames toString (proxy.sent.drop s.proxy.sent.length) }

def readLine (s : Tunnel) (call : CallId) : Option Tunnel :=
  if Conversation.readable s.toDaemon s.gone then
    match nextLine s.toDaemon .eof with
    | .line text rest =>
      match frameOf fromStr text with
      | some frame => { s with toDaemon := rest }.onStream (.frame s.n frame call)
      -- The line is used up, and the connection fails.
      | none => { s with toDaemon := rest }.onStream (.lineFails s.n)
    | .eof => s.onStream (.eof s.n)
    | .failed => s.onStream (.lineFails s.n)
  else none

def write (s : Tunnel) : Option Tunnel :=
  match s.stream.bind fun u => u.queue.head? with
  | none => none
  | some frame =>
    -- The frame is on its way to the proxy before the task takes the next.
    { s with toProxy := s.toProxy ++ writeFrames toString [frame.content] }.onStream (.write s.n)

/-- What the proxy finds in the socket, and what is left then. -/
def nextRead (s : Tunnel) : StreamRead × List UInt8 :=
  match nextLine s.toProxy .eof with
  | .line text rest => (.line text, rest)
  | .eof => (.closed, s.toProxy)
  | .failed => (.failed, s.toProxy)

def hear (s : Tunnel) (writes : Bool) : Option Tunnel :=
  if Conversation.readable s.toProxy s.daemonClosed then
    { s with toProxy := s.nextRead.2 }.moveProxy fromSlice toString fromStr
      (.streamReady s.nextRead.1 writes)
  else none

/-- One step. -/
def step (s : Tunnel) : TunnelAction → Option Tunnel
  | .fleet a =>
    if s.mayMove a then
      (s.fleet.step a).map fun fleet => { s with fleet := fleet, spoken := s.spoken ++ s.emitted a }
    else none
  | .editor a =>
    match a with
    | .streamReady _ _ => none
    | _ => s.moveProxy fromSlice toString fromStr a
  | .readLine call => s.readLine fromStr call
  | .write => s.write toString
  | .hear writes => s.hear fromSlice toString fromStr writes

end Tunnel

end Lspee
