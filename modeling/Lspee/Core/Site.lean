import Lspee.Core.Config
import Lspee.Core.Protocol
import Lspee.Core.Tasks

/-!
# Clients, Files and the Daemon

Where a session's identity comes from. A client resolves its configuration and
attaches with the hash. If no session has that key, the daemon's spawn closure
resolves the configuration of the key's root once more, completes the entry of
the key's server from the catalog, and starts the server with it; the hash of
what it resolved is not looked at.

The files are there for everybody, and may be changed at any time: between a
client's resolving and the closure's, and between any two reads of one of them.
Whether the server starts, and what it answers to `initialize`, is a choice of
the action.

What a closure has read of the files, and what a runtime was started with, is kept
beside the code, and nothing reads it.

## Main definitions

* `FilesRead`: What was read of the two files.
* `Closure`: How far a spawn closure has come.
* `Started`: What a runtime was started with.
* `ConfigClient`: A client that resolves its configuration and attaches.
* `Site`: The files, the clients, the daemon and its spawn closures.
* `SiteAction`, `Site.step`: One step.
-/

namespace Lspee

/-- How far a spawn closure has come: in `resolve`, in `resolve_lsp_config`,
    before the server is up, or at an error. -/
inductive Closure where
  | resolving (stage : Resolving)
  | selecting (resolved : ResolvedConfig) (stage : Overriding)
  | spawning (resolved : ResolvedConfig) (lsp : LspConfig)
  | failed (error : String)

/-- What a `resolve` has read of the two files. Nothing is what it has not found. -/
structure FilesRead where
  user : Option PartialConfig
  project : Option PartialConfig

namespace FilesRead

def nothing : FilesRead := ⟨none, none⟩

def get (files : FilesRead) : Layer → Option PartialConfig
  | .user => files.user
  | .project => files.project

def set (files : FilesRead) (p : PartialConfig) : Layer → FilesRead
  | .user => { files with user := some p }
  | .project => { files with project := some p }

end FilesRead

/-- What a runtime was started with. -/
structure Started where
  resolved : ResolvedConfig
  lsp : LspConfig

/-- A client: its environment, how far its `resolve` has come, and its attach,
    with the key it sent. -/
structure ConfigClient where
  home : Option PathBuf
  resolving : Resolving
  attached : Option (CallId × SessionKey)

/-- The files, the daemon's registry and closures, and the clients. -/
structure Site where
  fs : FileSystem
  world : World
  closures : Table CallId Closure
  /-- What the closures have read in `resolve`. -/
  files : Table CallId FilesRead
  clients : Table Nat ConfigClient
  started : Table RuntimeId Started

/-- What can happen next. -/
inductive SiteAction where
  /-- Files are changed. -/
  | edit (fs : FileSystem)
  /-- A step of the registry, other than the return of a spawn closure. -/
  | world (a : Action)
  /-- A client begins to resolve its configuration. -/
  | resolve (n : Nat) (home : Option PathBuf) (root : PathBuf)
  | client (n : Nat)
  /-- A client that has resolved its configuration attaches. -/
  | attach (n : Nat) (lspId : String) (clientKind : Option ClientKind) (call : CallId)
  /-- A spawn closure takes its next step. -/
  | closure (call : CallId)
  /-- A spawn closure returns, with the server's answer to `initialize` or an
      error. -/
  | spawned (call : CallId) (result : Except String Json)

namespace Closure

variable (x : Externals) (home : Option PathBuf)

/-- The next step of a closure called for a key. -/
def step (fs : FileSystem) (key : SessionKey) : Closure → Option Closure
  | .resolving (.done (.ok resolved)) => some (.selecting resolved .start)
  | .resolving (.done (.error error)) => some (.failed error.display)
  | .resolving stage => some (.resolving (stage.step x home fs))
  -- The two files have been read a second time for the catalog.
  | .selecting resolved (.done (.ok registry)) =>
    match resolveLspConfig resolved registry key.lspId with
    | .ok lsp => some (.spawning resolved lsp)
    | .error error => some (.failed error)
  | .selecting _ (.done (.error error)) => some (.failed error.display)
  | .selecting resolved stage => some (.selecting resolved (stage.step x home key.root fs))
  -- What is left is the process, and ends by `spawned`.
  | .spawning _ _ => none
  | .failed _ => none

/-- What has been read in `resolve` after that step. -/
def reads (fs : FileSystem) (files : FilesRead) : Closure → FilesRead
  | .resolving (.read projectRoot _ layer) =>
    match loadPartial x fs (layer.path home projectRoot) with
    -- Only a file that was found is read: one that is missing stays as nothing.
    | .ok parsed => files.set parsed layer
    | .error _ => files
  | _ => files

end Closure

namespace Site

variable (x : Externals) (home : Option PathBuf)

/-- A daemon that has just started, with the files as they are. -/
def init (fs : FileSystem) (idleTtl : Duration) : Site where
  fs := fs
  world := World.init idleTtl
  closures := Table.empty
  files := Table.empty
  clients := Table.empty
  started := Table.empty

/-- The key a spawn closure that runs was called for. -/
def spawnKey (s : Site) (call : CallId) : Option SessionKey :=
  match s.world.calls.get? call with
  | some (.acquire key _ (.spawning _)) => some key
  | _ => none

/-- How far the closure of a call has come. -/
def closureOf (s : Site) (call : CallId) (key : SessionKey) : Closure :=
  (s.closures.get? call).getD (.resolving (.start key.root))

/-- What it has read in `resolve`. -/
def filesOf (s : Site) (call : CallId) : FilesRead := (s.files.get? call).getD .nothing

def setClient (s : Site) (n : Nat) (client : ConfigClient) : Site :=
  { s with clients := s.clients.set n client }

/-- A client's step in `resolve`. -/
def clientStep (s : Site) (n : Nat) : Option Site :=
  match s.clients.get? n with
  | some client =>
    match client.resolving with
    | .done _ => none
    | stage => some (s.setClient n { client with resolving := stage.step x client.home s.fs })
  | none => none

/-- A client attaches with the key it has computed, which the daemon checks. -/
def attach (s : Site) (n : Nat) (lspId : String) (clientKind : Option ClientKind)
    (call : CallId) : Option Site :=
  match s.clients.get? n with
  | some { home := clientHome, resolving := .done (.ok resolved), attached := none } =>
    -- The root as text, and the hash the client has computed from its own reads.
    let wire : SessionKeyWire :=
      { projectRoot := resolved.projectRoot.display, configHash := resolved.configHash,
        lspId := lspId }
    match validateSessionKey wire with
    | .error _ => none
    | .ok () =>
      (s.world.step (.start call (.acquireOrSpawn wire.sessionKey clientKind))).map (fun w =>
        { s with world := w }.setClient n
          { home := clientHome, resolving := .done (.ok resolved),
            attached := some (call, wire.sessionKey) })
  | _ => none

/-- The end of a spawn closure. A server that is up becomes the next runtime. -/
def spawnReturns (s : Site) (call : CallId) (closure : Closure) (result : Except String Json) :
    Option Site :=
  match closure, result with
  | .spawning resolved lsp, .ok initializeResult =>
    (s.world.step (.spawnReturns call (.ok initializeResult))).map (fun w =>
      { s with world := w, started := s.started.set s.world.nextRuntime ⟨resolved, lsp⟩ })
  | .spawning _ _, .error error =>
    (s.world.step (.spawnReturns call (.error error))).map (fun w => { s with world := w })
  -- The error is the closure's own.
  | .failed error, .error _ =>
    (s.world.step (.spawnReturns call (.error error))).map (fun w => { s with world := w })
  | _, _ => none

def step (s : Site) : SiteAction → Option Site
  | .edit fs => some { s with fs := fs }
  | .world (.spawnReturns _ _) => none
  | .world a => (s.world.step a).map (fun w => { s with world := w })
  | .resolve n clientHome root =>
    match s.clients.get? n with
    | some _ => none
    | none => some
      (s.setClient n { home := clientHome, resolving := .start root, attached := none })
  | .client n => s.clientStep x n
  | .attach n lspId clientKind call => s.attach n lspId clientKind call
  | .closure call =>
    match s.spawnKey call with
    | some key =>
      ((s.closureOf call key).step x home s.fs key).map
        (fun closure => { s with
          closures := s.closures.set call closure
          files := s.files.set call
            ((s.closureOf call key).reads x home s.fs (s.filesOf call)) })
    | none => none
  | .spawned call result =>
    match s.spawnKey call with
    | some key => s.spawnReturns call (s.closureOf call key) result
    | none => none

end Site

end Lspee
