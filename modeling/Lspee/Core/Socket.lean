import Lspee.Core.Registry
import Lspee.Lib.Transition

/-!
# The Control Socket of a Project

The daemons and clients of one project root meet at one path. A daemon that
starts removes whatever file it finds there and binds its own; a daemon that
stops removes whatever file it finds there. A client that gets no connection
starts a daemon and tries again, forty times.

The path holds the file of the daemon that bound it last, or nothing. A daemon
that has exited, been killed or failed leaves its file behind, and connecting to
it is refused. What a daemon does between two system calls is not represented:
each await is a step, and the steps of different processes interleave in any
order. That the file cannot be removed is a choice of the action.

A list of removals is kept beside the code, and nothing reads it.

## Main definitions

* `DaemonPc`: How far `Daemon::run` has come.
* `ClientPc`: How far `connect` has come.
* `Removal`: What one removal of the file has hit.
* `Socket`: The path, the daemons and the clients.
* `SocketAction`, `Socket.step`: One step.
-/

namespace Lspee

/-- Which daemon process. -/
abbrev DaemonId := Nat

/-- Which client process. -/
abbrev ClientId := Nat

/-- How far `Daemon::run` has come: before the check of the path, before the
    removal of what was seen there, before the bind, in the event loop, in the
    stop sequence up to its check of the path, before its removal, or over. -/
inductive DaemonPc where
  | starting
  | clearing
  | binding
  | serving
  | stopping
  | unlinking
  | exited
deriving DecidableEq, Repr

/-- How far `connect` has come. -/
inductive ClientPc where
  | connecting (autoStart : Bool)
  | spawning
  | retrying (left : Nat)
  | connected (daemon : DaemonId)
  | failed
deriving DecidableEq, Repr

/-- `DAEMON_CONNECT_ATTEMPTS`. -/
def daemonConnectAttempts : Nat := 40

/-- One removal of the file: by whom, whose file it was, and how far its owner
    had come. -/
structure Removal where
  remover : DaemonId
  owner : DaemonId
  ownerPc : DaemonPc
deriving DecidableEq, Repr

/-- The path, the daemons and the clients of one project root. -/
structure Socket where
  path : Option DaemonId
  daemons : Table DaemonId DaemonPc
  clients : Table ClientId ClientPc
  removals : List Removal

/-- What can happen next. -/
inductive SocketAction where
  /-- A daemon is started by hand. -/
  | serve (daemon : DaemonId)
  /-- A daemon that starts checks whether there is a file. -/
  | check (daemon : DaemonId)
  /-- It removes the file, or cannot. -/
  | clear (daemon : DaemonId) (ok : Bool)
  | bind (daemon : DaemonId)
  /-- The event loop ends: a client asked for it, or the daemon was idle. -/
  | signal (daemon : DaemonId)
  /-- The sessions are shut down, and the daemon checks whether there is a
      file. -/
  | swept (daemon : DaemonId)
  /-- It removes the file, or cannot, and exits. -/
  | unlink (daemon : DaemonId) (ok : Bool)
  /-- A daemon fails or is killed. -/
  | die (daemon : DaemonId)
  /-- A client begins to connect. -/
  | arrive (client : ClientId) (autoStart : Bool)
  /-- A client attempts to connect. -/
  | connect (client : ClientId)
  /-- The attempt fails for another reason than that nobody listens. -/
  | connectError (client : ClientId)
  /-- A client starts a daemon. -/
  | spawn (client : ClientId) (daemon : DaemonId)
  | spawnError (client : ClientId)

namespace Socket

/-- A project root on which nothing has run. -/
def init : Socket where
  path := none
  daemons := Table.empty
  clients := Table.empty
  removals := []

/-- A daemon's listener is open: bound, and `run` has not returned. -/
def listening : DaemonPc → Bool
  | .serving => true
  | .stopping => true
  | .unlinking => true
  | _ => false

/-- The daemon that a connection attempt gets to. -/
def reach (s : Socket) : Option DaemonId :=
  match s.path with
  -- Nothing at the path: connecting fails.
  | none => none
  | some owner =>
    match s.daemons.get? owner with
    -- A file whose owner is gone refuses the connection.
    | some pc => if listening pc then some owner else none
    | none => none

def setDaemon (s : Socket) (daemon : DaemonId) (pc : DaemonPc) : Socket :=
  { s with daemons := s.daemons.set daemon pc }

def setClient (s : Socket) (client : ClientId) (pc : ClientPc) : Socket :=
  { s with clients := s.clients.set client pc }

/-- A process that did not exist before. -/
def startDaemon (s : Socket) (daemon : DaemonId) : Option Socket :=
  match s.daemons.get? daemon with
  | some _ => none
  | none => some (s.setDaemon daemon .starting)

/-- The file at the path is removed, if there is one. -/
def removeFile (s : Socket) (daemon : DaemonId) : Socket :=
  -- `remove_file` asks nobody whose file it is.
  match s.path.bind (fun owner => (s.daemons.get? owner).map (fun pc => (owner, pc))) with
  | some (owner, pc) => { s with
      path := none
      removals := { remover := daemon, owner := owner, ownerPc := pc } :: s.removals }
  | none => { s with path := none }

/-- An attempt that fails: the client gives up, starts a daemon, or tries
    again. -/
def missed : ClientPc → ClientPc
  -- The first attempt has failed, and a daemon may be started.
  | .connecting true => .spawning
  | .connecting false => .failed
  -- One of the attempts is used up, and another is left.
  | .retrying (left + 2) => .retrying (left + 1)
  | .retrying _ => .failed
  | pc => pc

/-- An attempt to connect. -/
def attempt (s : Socket) (client : ClientId) (pc : ClientPc) : Socket :=
  match s.reach with
  | some daemon => s.setClient client (.connected daemon)
  | none => s.setClient client (missed pc)

/-- One step. -/
def step (s : Socket) : SocketAction → Option Socket
  | .serve daemon => s.startDaemon daemon
  -- `exists` and `remove_file` are two calls: others may act in between.
  | .check daemon =>
    match s.daemons.get? daemon with
    | some .starting => some (s.setDaemon daemon (if s.path.isSome then .clearing else .binding))
    | _ => none
  | .clear daemon ok =>
    match s.daemons.get? daemon with
    | some .clearing =>
      some ((if ok then s.removeFile daemon else s).setDaemon daemon .binding)
    | _ => none
  | .bind daemon =>
    match s.daemons.get? daemon with
    | some .binding =>
      match s.path with
      | none => some ({ s with path := some daemon }.setDaemon daemon .serving)
      -- The path is taken again: `bind` fails, and `run` with it.
      | some _ => some (s.setDaemon daemon .exited)
    | _ => none
  | .signal daemon =>
    match s.daemons.get? daemon with
    | some .serving => some (s.setDaemon daemon .stopping)
    | _ => none
  -- The listener is still open while the sessions are shut down.
  | .swept daemon =>
    match s.daemons.get? daemon with
    | some .stopping => some (s.setDaemon daemon (if s.path.isSome then .unlinking else .exited))
    | _ => none
  | .unlink daemon ok =>
    match s.daemons.get? daemon with
    | some .unlinking => some ((if ok then s.removeFile daemon else s).setDaemon daemon .exited)
    | _ => none
  | .die daemon =>
    match s.daemons.get? daemon with
    -- The file stays where it is.
    | some _ => some (s.setDaemon daemon .exited)
    | none => none
  | .arrive client autoStart =>
    match s.clients.get? client with
    | some _ => none
    | none => some (s.setClient client (.connecting autoStart))
  | .connect client =>
    match s.clients.get? client with
    | some (.connecting autoStart) => some (s.attempt client (.connecting autoStart))
    | some (.retrying left) => some (s.attempt client (.retrying left))
    | _ => none
  | .connectError client =>
    match s.clients.get? client with
    | some (.connecting _) => some (s.setClient client .failed)
    | some (.retrying left) => some (s.setClient client (missed (.retrying left)))
    | _ => none
  | .spawn client daemon =>
    match s.clients.get? client with
    | some .spawning =>
      (s.startDaemon daemon).map
        (fun s' => s'.setClient client (.retrying daemonConnectAttempts))
    | _ => none
  | .spawnError client =>
    match s.clients.get? client with
    | some .spawning => some (s.setClient client .failed)
    | _ => none

end Socket

end Lspee
