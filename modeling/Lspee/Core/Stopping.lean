import Lspee.Core.Evictors

/-!
# Stopping the Daemon

The daemon serves until it is told to stop. It then stops the memory monitor,
stops the eviction loop, lists the sessions there are, and for each of them
shuts the runtime down and removes the key. Then it removes its socket and
returns.

Nothing tells the connections. A task that serves one goes on dispatching until
the process is gone, so a client may attach at any time, and a spawn that was in
progress ends whenever it ends. The clients' calls are those of the world; a
task of the daemon is stopped between its rounds.

A language server has a process from the moment its transport has spawned it,
which is inside the spawn closure: the closure has `initialize` to wait for
before it returns a handle. Three lists say what became of the processes, and
nothing reads them: closures that have a process and have not returned, closures
that failed after they had one, and runtimes whose process was stopped. Dropping
a runtime stops nothing.

Whether a shutdown, and then the stop by force, end the process is a choice of
the step that tries. Either way the one who tries goes on.

`run` also ends, at once and with an error, when it cannot accept a connection.
That is not the stop sequence, and it is left out.

## Main definitions

* `RunPc`: How far `run` has come.
* `Daemon.stops`: The runtime an evictor's step tries to stop.
* `DaemonRun`, `RunAction`, `DaemonRun.step`: The daemon, and `run` beside it.
* `LeavesNothing`: What `run` is to leave behind.
-/

namespace Lspee

/-- How far `run` has come: it serves, waits for a task to stop, lists the
    sessions, or is at one of the sections of `shutdown_all_sessions`. -/
inductive RunPc where
  | serving
  | stoppingMonitor
  | stoppingEviction
  | listing
  | sweeping (todo : List SessionHandle)
  | removeSession (key : SessionKey) (call : CallId) (todo : List SessionHandle)
  | removeLeases (call : CallId) (todo : List SessionHandle)
  | returned

/-- The sessions that `shutdown_all_sessions` has listed and not come to; `none`
    before it has listed them. -/
def RunPc.todo : RunPc → Option (List SessionHandle)
  | .sweeping todo => some todo
  | .removeSession _ _ todo => some todo
  | .removeLeases _ todo => some todo
  | .returned => some []
  | _ => none

/-- The runtime that the next step of an eviction tries to stop. -/
def Evictions.stops {V : Type} (kind : VictimKind V) (e : Evictions V) : Option RuntimeId :=
  match e.current with
  -- Neither evictor minds when it fails.
  | some (v, .shutdown) => some (kind.runtime v)
  | _ => none

/-- The runtime a step of an evictor tries to stop. -/
def Daemon.stops (d : Daemon) : DaemonAction → Option RuntimeId
  | .evictionLoop _ =>
    match d.eviction with
    | .evicting victims => victims.stops idleVictims
    | _ => none
  | .memoryMonitor _ _ =>
    match d.monitor with
    | .evicting victims => victims.stops (memoryVictims d.settings)
    | _ => none
  | _ => none

/-- The daemon, and how far its `run` has come. -/
structure DaemonRun where
  daemon : Daemon
  pc : RunPc
  /-- The spawn closures that have a process and have not returned. -/
  starting : List CallId
  /-- The spawn closures that failed after they had a process. -/
  orphans : List CallId
  /-- The runtimes that were shut down, or stopped by force. -/
  stopped : List RuntimeId

/-- What can happen next: a step of a client or of a task, `transport.spawn`
    succeeding in a spawn closure, the shutdown signal, the end of the task that
    `run` waits for, or a step of `shutdown_all_sessions`. Where a step tries to
    stop a runtime, `stops` says whether it succeeds. -/
inductive RunAction where
  | daemon (a : DaemonAction) (stops : Bool)
  | process (call : CallId)
  | signal
  | joined
  | allHandles
  | sweep (call : CallId) (stops : Bool)

namespace DaemonRun

def init (idleTtl : Duration) (settings : MemoryBudgetSettings)
    (daemonIdleTtl : Option Duration) : DaemonRun where
  daemon := Daemon.init idleTtl settings daemonIdleTtl
  pc := .serving
  starting := []
  orphans := []
  stopped := []

/-- A task is stopped when `run` waits for it, and a spawn closure returns a
    handle only when it has a process. -/
def permits (s : DaemonRun) : DaemonAction → Bool
  -- The monitor is sent its signal first, and is waited for.
  | .stopMemoryMonitor => (s.pc matches .stoppingMonitor)
  | .stopEvictionLoop => (s.pc matches .stoppingEviction)
  | .client (.spawnReturns call (.ok _)) => s.starting.contains call
  | _ => true

/-- What becomes of the process of a spawn closure that returns. -/
def closes (s : DaemonRun) : DaemonAction → List CallId × List CallId
  | .client (.spawnReturns call (.ok _)) => (s.starting.erase call, s.orphans)
  -- `kill_on_drop` is not set: an error after the process is up leaves it running.
  | .client (.spawnReturns call (.error _)) =>
    (s.starting.erase call, if s.starting.contains call then call :: s.orphans else s.orphans)
  | _ => (s.starting, s.orphans)

/-- The runtimes stopped after a step has tried to stop another. -/
def stoppedBy (s : DaemonRun) (runtime : Option RuntimeId) (stops : Bool) : List RuntimeId :=
  if stops then runtime.toList ++ s.stopped else s.stopped

/-- One step of a client or of a task. -/
def daemonStep (s : DaemonRun) (a : DaemonAction) (stops : Bool) : Option DaemonRun :=
  if s.permits a then
    (s.daemon.step a).map (fun d' =>
      { s with
        daemon := d'
        starting := (s.closes a).1
        orphans := (s.closes a).2
        stopped := s.stoppedBy (s.daemon.stops a) stops })
  else none

/-- The spawn closure of a call has spawned its process. -/
def processStep (s : DaemonRun) (call : CallId) : Option DaemonRun :=
  match s.daemon.world.calls.get? call with
  | some (.acquire _ _ (.spawning _)) =>
    if s.starting.contains call then none else some { s with starting := call :: s.starting }
  | _ => none

/-- A step of the world that `run` takes itself. -/
def withWorld (s : DaemonRun) (w : World) (pc : RunPc) (stopped : List RuntimeId) : DaemonRun :=
  { s with daemon := { s.daemon with world := w }, pc := pc, stopped := stopped }

/-- One step of `shutdown_all_sessions` with the sessions it has listed. When
    there are none left, `run` returns. -/
def sweepStep (s : DaemonRun) (call : CallId) (stops : Bool) : Option DaemonRun :=
  match s.pc with
  -- What has been registered since the listing is not in it.
  | .sweeping [] => some { s with pc := .returned }
  | .sweeping (handle :: todo) =>
    (s.daemon.world.step (.start call (.remove handle.key))).map (fun w' =>
      s.withWorld w' (.removeSession handle.key call todo)
        (s.stoppedBy (some handle.runtime) stops))
  | .removeSession _ c todo =>
    (s.daemon.world.step (.sect c)).map (fun w' =>
      s.withWorld w' (.removeLeases c todo) s.stopped)
  | .removeLeases c todo =>
    (s.daemon.world.step (.sect c)).map (fun w' => s.withWorld w' (.sweeping todo) s.stopped)
  | _ => none

/-- One step of the daemon while `run` has not returned. -/
def step (s : DaemonRun) (a : RunAction) : Option DaemonRun :=
  match s.pc with
  | .returned => none
  | _ =>
    match a with
    | .daemon a stops => s.daemonStep a stops
    | .process call => s.processStep call
    | .signal =>
      match s.pc with
      | .serving => some { s with pc := .stoppingMonitor }
      | _ => none
    | .joined =>
      match s.pc, s.daemon.monitor, s.daemon.eviction with
      | .stoppingMonitor, .stopped, _ => some { s with pc := .stoppingEviction }
      | .stoppingEviction, _, .stopped => some { s with pc := .listing }
      | _, _, _ => none
    -- The sessions are listed once.
    | .allHandles =>
      match s.pc with
      | .listing => some { s with pc := .sweeping s.daemon.world.reg.allHandles }
      | _ => none
    | .sweep call stops => s.sweepStep call stops

/-- No session is registered, and every process there has ever been was
    stopped. -/
structure LeavesNothing (s : DaemonRun) : Prop where
  sessions : ∀ key, s.daemon.world.reg.sessions.get? key = none
  starting : s.starting = []
  orphans : s.orphans = []
  stopped : ∀ runtime, runtime < s.daemon.world.nextRuntime → runtime ∈ s.stopped

end DaemonRun

end Lspee
