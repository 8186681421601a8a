import Lspee.Core.Config
import Lspee.Core.Stopping

/-!
# Stopping without Being Told

How the configuration reaches the eviction loop, and what makes `run` leave its
loop. `run` waits on a watch channel, on which two parties send: the eviction
loop, when the daemon has had no session for long enough, and a connection that
dispatches a `Shutdown` request.

Whether the daemon was idle is a matter of every instant, and the loop looks once
a round. So the times of interest are kept beside the code, and nothing reads
them: when the daemon was last busy, when the first round ended of those that have
found no session since the last that found one, and, once the signal has been sent,
when that was and when the daemon had last been busy then. The start of the daemon
counts as a round that finds none. What ends at an instant is not there at it any more.

## Main definitions

* `fromSecs`, `memorySettings`, `DaemonRun.ofConfig`: The daemon of a
  configuration.
* `Serving`, `ServingAction`, `Serving.step`: `run` and its watch channel.
* `World.busy`: A session is registered or an attach is in progress.
* `Daemon.roundEnds`, `Daemon.evicts`: Where the eviction loop is.
* `Timed`, `Timed.step`: The daemon, and the times kept beside it.
-/

namespace Lspee

/-- `Duration::from_secs`. -/
def fromSecs (secs : Nat) : Duration := secs * 1000000000

/-- `Duration::from_millis`. -/
def fromMillis (millis : Nat) : Duration := millis * 1000000

/-- The product of a `u64`, which wraps. -/
def mebibytes (mb : Nat) : Nat := mb * 1024 * 1024 % 2 ^ 64

def memorySettings (config : EffectiveConfig) : MemoryBudgetSettings where
  maxSessionBytes := config.memory.maxSessionMb.map mebibytes
  maxTotalBytes := config.memory.maxTotalMb.map mebibytes
  checkInterval := fromMillis config.memory.checkIntervalMs

/-- The daemon when `run` has started its tasks. -/
def DaemonRun.ofConfig (config : EffectiveConfig) : DaemonRun :=
  DaemonRun.init (fromSecs config.session.idleTtlSecs) (memorySettings config)
    (config.session.daemonIdleTtlSecs.map fromSecs)

/-! ### The watch channel -/

/-- `run`, and whether a `Shutdown` request has sent on the channel. -/
structure Serving where
  run : DaemonRun
  requested : Bool

inductive ServingAction where
  | run (a : RunAction)
  /-- A connection dispatches a `Shutdown` request. -/
  | shutdownRequest

namespace Serving

def ofConfig (config : EffectiveConfig) : Serving where
  run := DaemonRun.ofConfig config
  requested := false

/-- `run` sees a change of the channel only when somebody has sent. -/
def permits (s : Serving) : RunAction → Bool
  -- `shutdown_rx.changed()` does not ask who has sent.
  | .signal => s.run.daemon.shutdownSignalled || s.requested
  | _ => true

def step (s : Serving) : ServingAction → Option Serving
  | .run a => if s.permits a then (s.run.step a).map (fun r => { s with run := r }) else none
  | .shutdownRequest =>
    match s.run.pc with
    | .returned => none
    | _ => some { s with requested := true }

end Serving

/-! ### The times -/

/-- An attach whose acquire has not failed and which has not been answered. -/
def Frame.attachInProgress : Frame → Bool
  -- An attach that has failed holds nothing up.
  | .acquire _ _ (.returned (.error _)) => false
  | .acquire _ _ _ => true
  | _ => false

/-- A session is registered or an attach is in progress. -/
def World.busy (w : World) : Bool :=
  w.reg.sessionCount != 0 || w.calls.values.any Frame.attachInProgress

/-- The eviction loop is done with its victims. -/
def Daemon.roundEnds (d : Daemon) : Bool :=
  match d.eviction with
  | .evicting ⟨none, []⟩ => true
  | _ => false

/-- The eviction loop has not ended. -/
def Daemon.evicts (d : Daemon) : Bool :=
  match d.eviction with
  | .stopped => false
  | _ => true

/-- The step is the end of a round. -/
def Daemon.endsRound (d : Daemon) : DaemonAction → Bool
  | .evictionLoop _ => d.roundEnds
  | _ => false

/-- The daemon, and the times kept beside it. -/
structure Timed where
  daemon : Daemon
  /-- The last time at which the daemon was busy. -/
  lastBusy : Option Instant
  /-- When the first of the rounds ended that have found no session, since the last
      one that found one, or since the start. -/
  emptySince : Option Instant
  /-- When the signal was sent, and when the daemon had last been busy. -/
  signal : Option (Instant × Option Instant)

namespace Timed

def init (idleTtl : Duration) (settings : MemoryBudgetSettings) (ttl : Duration) : Timed where
  daemon := Daemon.init idleTtl settings (some ttl)
  lastBusy := none
  emptySince := some 0
  signal := none

/-- What is kept of a step of the daemon. A round finds the sessions that are registered
    at its end. -/
def observe (s : Timed) (a : DaemonAction) (d' : Daemon) : Timed where
  daemon := d'
  lastBusy := if d'.world.busy then some d'.world.now else s.lastBusy
  emptySince :=
    -- `finishRound` counts the sessions before the step, and so does this.
    if s.daemon.endsRound a then
      if s.daemon.world.reg.sessionCount = 0 then
        some (s.emptySince.getD s.daemon.world.now)
      else none
    else s.emptySince
  signal :=
    if d'.shutdownSignalled && !s.daemon.shutdownSignalled then some (d'.world.now, s.lastBusy)
    else s.signal

def step (s : Timed) (a : DaemonAction) : Option Timed :=
  (s.daemon.step a).map (s.observe a)

end Timed

end Lspee
