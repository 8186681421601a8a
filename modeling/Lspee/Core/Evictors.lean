import Lspee.Core.Memory
import Lspee.Core.Tasks

/-!
# The Evictors

The two tasks that terminate sessions, next to the clients' calls. The eviction
loop asks the registry for the idle sessions, once a second, and evicts them one
after another. The memory monitor takes a snapshot of all sessions, measures
each, chooses its victims and evicts them one after another.

Evicting a session is the same for both: its runtime is shut down, which takes
seconds, then its key is removed from the registry, and then it is counted. The
monitor marks the session first; the eviction loop's sessions were marked when
they were returned as idle. A victim is a handle, and what is removed is a key.

The evictors call the registry as everybody does, so each of their calls is a
call of the world, and its sections are steps of the world. The clients do the
rest: they acquire, release, forward and touch. A log, newest event first,
records what the evictors did to which runtime.

After its sessions, the eviction loop looks whether the daemon has none left for
long enough to stop.

## Main definitions

* `VictimPc`, `Evictions`: A victim being evicted, and those still to come.
* `EvictionPc`, `MonitorPc`: How far the two tasks have come.
* `Evictions.step`: One step of evicting a list of victims.
* `Daemon`, `DaemonAction`, `Daemon.step`: The tasks and the world together.
-/

namespace Lspee

/-- What the log records of the evictors. -/
inductive DaemonEvent where
  /-- The runtime was shut down, or stopped by force. -/
  | shutDown (evictor : Evictor) (runtime : RuntimeId)
  /-- A key was removed; the runtime whose record disappeared, if there was
      one. -/
  | removed (evictor : Evictor) (dropped : Option RuntimeId)
  /-- The session of this runtime was counted as evicted. -/
  | counted (evictor : Evictor) (runtime : RuntimeId)
deriving DecidableEq, Repr

/-- How far the eviction of one victim has come: the registry call it is in, or
    what comes next. -/
inductive VictimPc where
  | marking (call : CallId)
  | shutdown
  | removeSession (call : CallId)
  | removeLeases (call : CallId)
  | removed
  | counting (call : CallId)
deriving DecidableEq, Repr

/-- The victims of one round: the one being evicted, and those still to
    come. -/
structure Evictions (V : Type) where
  current : Option (V × VictimPc)
  rest : List V

/-- What evicting a victim of either kind needs of it: its key, its runtime, and
    the notice to mark it with, if it is still to be marked. -/
structure VictimKind (V : Type) where
  evictor : Evictor
  key : V → SessionKey
  runtime : V → RuntimeId
  notice : V → Option StreamErrorPayload

/-- One step of evicting a list of victims. `call` names the registry call, when
    the step makes one. `none` when there is no victim left. -/
def Evictions.step {V : Type} (kind : VictimKind V) (call : CallId) (w : World)
    (e : Evictions V) : Option (World × Evictions V × List DaemonEvent) :=
  match e.current, e.rest with
  | none, [] => none
  -- Only the memory monitor has a notice to mark its victims with.
  | none, v :: rest =>
    match kind.notice v with
    | some notice =>
      (w.step (.start call (.markTerminatingWithNotice (kind.key v) (some notice)))).map
        (fun w' => (w', { current := some (v, .marking call), rest := rest }, []))
    | none => some (w, { current := some (v, .shutdown), rest := rest }, [])
  | some (v, .marking c), rest =>
    (w.step (.sect c)).map
      (fun w' => (w', { current := some (v, .shutdown), rest := rest }, []))
  -- The shutdown takes seconds, and goes by the handle that was selected.
  | some (v, .shutdown), rest =>
    -- The error of a failed shutdown is logged, and the removal follows all the same.
    (w.step (.start call (.remove (kind.key v)))).map
      (fun w' => (w', { current := some (v, .removeSession call), rest := rest },
        [.shutDown kind.evictor (kind.runtime v)]))
  | some (v, .removeSession c), rest =>
    (w.step (.sect c)).map
      (fun w' => (w', { current := some (v, .removeLeases c), rest := rest },
        -- By key: the runtime dropped may be another than the one shut down.
        [.removed kind.evictor (w.reg.instanceOf (kind.key v))]))
  | some (v, .removeLeases c), rest =>
    (w.step (.sect c)).map
      (fun w' => (w', { current := some (v, .removed), rest := rest }, []))
  | some (v, .removed), rest =>
    (w.step (.start call (.increment kind.evictor))).map
      (fun w' => (w', { current := some (v, .counting call), rest := rest }, []))
  | some (v, .counting c), rest =>
    (w.step (.sect c)).map
      (fun w' => (w', { current := none, rest := rest },
        [.counted kind.evictor (kind.runtime v)]))

/-- How far the eviction loop has come. `finishing` is the end of a round, where
    the sessions are counted. -/
inductive EvictionPc where
  | ticker
  | selecting (call : CallId) (start : Instant)
  | evicting (victims : Evictions SessionHandle)
  | stopped

/-- How far the memory monitor has come. The clock is read before the lock is
    taken. -/
inductive MonitorPc where
  | ticker
  | snapshot (start : Instant)
  | sampling (todo : List MemorySessionSnapshot) (samples : List MemorySample)
  | evicting (victims : Evictions MemorySample)
  | stopped

/-- The world with its two evictors. -/
structure Daemon where
  world : World
  settings : MemoryBudgetSettings
  daemonIdleTtl : Option Duration
  eviction : EvictionPc
  daemonIdleSince : Option Instant
  shutdownSignalled : Bool
  monitor : MonitorPc
  log : List DaemonEvent

/-- What can happen next: a step of a client, of the eviction loop or of the
    memory monitor (with the size it measures, where it measures one), or the
    stop signal of one of the two. -/
inductive DaemonAction where
  | client (a : Action)
  | evictionLoop (call : CallId)
  | memoryMonitor (call : CallId) (rssBytes : Nat)
  | stopEvictionLoop
  | stopMemoryMonitor

/-- The methods clients call. -/
def Method.ofClient : Method → Bool
  | .acquireOrSpawn _ _ => true
  | .releaseByLeaseId _ => true
  | .forwardByLeaseId _ _ _ => true
  | .touch _ => true
  | _ => false

/-- The calls clients make. -/
def Frame.ofClient : Frame → Bool
  | .acquire _ _ _ => true
  | .attached _ _ => true
  | .release _ _ => true
  | .forward _ _ _ _ => true
  | .touch _ _ => true
  | _ => false

/-- The action is one of a client, or of the clock. -/
def Action.ofClient (w : World) : Action → Bool
  | .tick _ => true
  | .start _ method => method.ofClient
  | .sect call => (w.calls.get? call).all Frame.ofClient
  | .spawnReturns _ _ => true
  | .runtimeReturns _ _ => true

/-- The victims of the eviction loop were marked when they were selected. -/
def idleVictims : VictimKind SessionHandle where
  evictor := .idle
  key := fun candidate => candidate.key
  runtime := fun candidate => candidate.runtime
  notice := fun _ => none

/-- The victims of the memory monitor are marked one by one. -/
def memoryVictims (settings : MemoryBudgetSettings) : VictimKind MemorySample where
  evictor := .memory
  key := fun sample => sample.key
  runtime := fun sample => sample.handle.runtime
  notice := fun sample => some (evictionNotice sample settings)

namespace Daemon

def init (idleTtl : Duration) (settings : MemoryBudgetSettings)
    (daemonIdleTtl : Option Duration) : Daemon where
  world := World.init idleTtl
  settings := settings
  daemonIdleTtl := daemonIdleTtl
  eviction := .ticker
  daemonIdleSince := some 0
  shutdownSignalled := false
  monitor := .ticker
  log := []

/-- The end of a round of the eviction loop: the daemon stops when it has had no
    session for long enough. -/
def finishRound (d : Daemon) : Daemon :=
  match d.daemonIdleTtl with
  -- Without a limit the loop goes on forever.
  | none => { d with eviction := .ticker }
  | some ttl =>
    if d.world.reg.sessionCount = 0 then
      -- `get_or_insert_with`: after a round with sessions, the timer starts with the next
      -- one without.
      let idleSince := d.daemonIdleSince.getD d.world.now
      if d.world.now - idleSince ≥ ttl then
        { d with
          eviction := .stopped
          daemonIdleSince := some idleSince
          shutdownSignalled := true }
      else { d with eviction := .ticker, daemonIdleSince := some idleSince }
    -- A session that is there at the end of a round starts the timer anew.
    else { d with eviction := .ticker, daemonIdleSince := none }

/-- One step of the eviction loop. -/
def evictionStep (d : Daemon) (call : CallId) : Option Daemon :=
  match d.eviction with
  -- `idle_candidates` reads the clock as it is called.
  | .ticker =>
    (d.world.step (.start call .idleCandidates)).map
      (fun w' => { d with world := w', eviction := .selecting call d.world.now })
  | .selecting c start =>
    (d.world.step (.sect c)).map (fun w' =>
      { d with
        world := w'
        eviction := .evicting ⟨none, (d.world.reg.idleCandidates start).2⟩ })
  | .evicting victims =>
    match victims.current, victims.rest with
    | none, [] => some d.finishRound
    | _, _ =>
      (victims.step idleVictims call d.world).map (fun (w', victims', events) =>
        { d with world := w', eviction := .evicting victims', log := events ++ d.log })
  | .stopped => none

/-- One step of the memory monitor. -/
def monitorStep (d : Daemon) (call : CallId) (rssBytes : Nat) : Option Daemon :=
  match d.monitor with
  | .ticker =>
    -- Without a budget nothing is measured.
    if d.settings.enabled then some { d with monitor := .snapshot d.world.now } else some d
  -- The clock was read before the two guards were taken.
  | .snapshot start =>
    some { d with monitor := .sampling (d.world.reg.memorySnapshots start) [] }
  | .sampling [] samples =>
    some { d with monitor := .evicting ⟨none, selectEvictions samples d.settings⟩ }
  | .sampling (snapshot :: todo) samples =>
    some { d with
      monitor := .sampling todo (samples ++ [memorySampleFromSnapshot snapshot rssBytes]) }
  | .evicting victims =>
    match victims.current, victims.rest with
    | none, [] => some { d with monitor := .ticker }
    | _, _ =>
      (victims.step (memoryVictims d.settings) call d.world).map (fun (w', victims', events) =>
        { d with world := w', monitor := .evicting victims', log := events ++ d.log })
  | .stopped => none

/-- One step of the daemon. The stop signals are looked at between rounds. -/
def step (d : Daemon) : DaemonAction → Option Daemon
  | .client a =>
    if a.ofClient d.world then (d.world.step a).map (fun w' => { d with world := w' }) else none
  | .evictionLoop call => d.evictionStep call
  | .memoryMonitor call rssBytes => d.monitorStep call rssBytes
  | .stopEvictionLoop =>
    match d.eviction with
    | .ticker => some { d with eviction := .stopped }
    | _ => none
  | .stopMemoryMonitor =>
    match d.monitor with
    | .ticker => some { d with monitor := .stopped }
    | _ => none

end Daemon

end Lspee
