import Lspee.Core.Tasks
import Lspee.Lib.Locks

/-!
# The Locks of the Registry

Which locks the methods of `SessionRegistry` take, in which order and with which
others held. `sessions`, `leases` and `counters` are `RwLock`s; `spawn_gates` and
each gate are `Mutex`es. Both are fair: whoever asks waits behind those who asked
before.

A method stands at a stage between its guards: it holds no lock there, and waits
for something else if it waits. From a stage it goes on by one of a few paths, a
path being the guards it takes and the next stage. Which path it takes depends on
what it finds under the guards, and is part of the action here. The stages of the
methods of `Core.Tasks` are those of its calls, with one more word where a
constructor would be ambiguous.

A guard that is a temporary of a statement is given back at the end of the
statement, and one that is bound at the end of its block, the last one first.

## Main definitions

* `LockName`, `Stage`: The locks, and how far a method has come.
* `grantGuards`, `Stage.paths`: The guards of the methods.
* `RegistryMethod`, `RegistryMethod.entry`: The methods.
* `Locking`, `Locking.step`: Any number of calls of them.
-/

namespace Lspee

open Locks

inductive LockName where
  | sessions
  | leases
  | counters
  | spawnGates
  | gate (g : GateId)
deriving DecidableEq, Repr

/-- How far a call has come. Where more leases are to be released, `more` says how
    many. -/
inductive Stage where
  -- `acquire_or_spawn`.
  | count
  | gate
  | lookup (g : GateId)
  | enter (g : GateId)
  | spawning (g : GateId)
  | leave (g : GateId)
  | publish
  | dropGate
  | waiting (g : GateId)
  -- `release_by_lease_id`, `release_many`.
  | take (more : Nat)
  | decrement (more : Nat)
  -- `remove`.
  | removeSession
  | removeLeases
  -- `call_by_lease_id`, `notify_by_lease_id`; `touch`.
  | lease
  | session
  | awaiting
  | touch
  -- `handle_for_lease_id`; `session_handle`.
  | handleKey
  | handle
  -- Methods of one stage.
  | mark
  | idle
  | allHandles
  | memorySnapshots
  | increment
  | snapshot
  | sessionCount
  | leaseCount
  | counters
  | returned
deriving DecidableEq, Repr

/-- The end of both grant paths of `acquire_or_spawn`. The guard of `counters` has a
    block of its own, and that of `leases` is a temporary. -/
def grantGuards : List (Op LockName) :=
  guarded .sessions .write (guarded .counters .write [] ++ guarded .leases .write [])

namespace Stage

/-- A release is over. -/
def afterRelease : Nat → Stage
  | 0 => .returned
  | more + 1 => .take more

/-- The paths from a stage: the guards that are taken, and the next stage. `entry`
    is the gate found in `spawn_gates`, or put there. -/
def paths (entry : GateId) : Stage → List (List (Op LockName) × Stage)
  | .count => [(guarded .counters .write [], .gate)]
  | .gate => [(guarded .spawnGates .write [], .lookup entry)]
  | .lookup g => [(grantGuards, .returned), (guarded .sessions .write [], .enter g)]
  | .enter g =>
    [(guarded (.gate g) .write [], .spawning g), (guarded (.gate g) .write [], .waiting g)]
  | .spawning g => [([], .leave g)]
  | .leave g =>
    [(guarded (.gate g) .write [], .publish), (guarded (.gate g) .write [], .dropGate)]
  | .publish => [(grantGuards, .returned)]
  | .dropGate => [(guarded .spawnGates .write [], .returned)]
  | .waiting g => [([], .lookup g)]
  | .take more =>
    [(guarded .leases .write [], .decrement more),
      (guarded .leases .write [], afterRelease more)]
  | .decrement more => [(guarded .sessions .write [], afterRelease more)]
  | .removeSession => [(guarded .sessions .write [], .removeLeases)]
  | .removeLeases =>
    -- The guard of `leases` is still held when the gate is dropped.
    [(guarded .leases .write (guarded .spawnGates .write []), .returned)]
  | .lease => [(guarded .leases .read [], .session), (guarded .leases .read [], .returned)]
  | .session =>
    [(guarded .sessions .write [], .awaiting), (guarded .sessions .write [], .returned)]
  | .awaiting => [([], .touch), ([], .returned)]
  | .touch => [(guarded .sessions .write [], .returned)]
  | .handleKey => [(guarded .leases .read [], .handle), (guarded .leases .read [], .returned)]
  | .handle => [(guarded .sessions .read [], .returned)]
  | .mark => [(guarded .sessions .write [], .returned)]
  | .idle => [(guarded .sessions .write [], .returned)]
  | .allHandles => [(guarded .sessions .read [], .returned)]
  | .memorySnapshots => [(guarded .sessions .read (guarded .leases .read []), .returned)]
  | .increment => [(guarded .counters .write [], .returned)]
  | .snapshot =>
    [(guarded .sessions .read (guarded .leases .read (guarded .counters .read [])), .returned)]
  | .sessionCount => [(guarded .sessions .read [], .returned)]
  | .leaseCount => [(guarded .leases .read [], .returned)]
  | .counters => [(guarded .counters .read [], .returned)]
  | .returned => []

end Stage

/-- The methods, as far as it matters for the locks. -/
inductive RegistryMethod where
  | acquireOrSpawn
  | sessionHandle
  | handleForLeaseId
  | releaseByLeaseId
  | releaseMany (leases : Nat)
  | callByLeaseId
  | notifyByLeaseId
  | touch
  | markTerminatingWithNotice
  | remove
  | idleCandidates
  | allHandles
  | memorySnapshots
  | incrementIdleGc
  | incrementMemoryEviction
  | incrementSessionCrash
  | snapshot
  | sessionCount
  | leaseCount
  | counters
deriving DecidableEq, Repr

/-- Where a method begins. -/
def RegistryMethod.entry : RegistryMethod → Stage
  | acquireOrSpawn => .count
  | sessionHandle => .handle
  | handleForLeaseId => .handleKey
  | releaseByLeaseId => .take 0
  | releaseMany leases => .afterRelease leases
  | callByLeaseId => .lease
  | notifyByLeaseId => .lease
  | touch => .touch
  | markTerminatingWithNotice => .mark
  | remove => .removeSession
  | idleCandidates => .idle
  | allHandles => .allHandles
  | memorySnapshots => .memorySnapshots
  | incrementIdleGc => .increment
  | incrementMemoryEviction => .increment
  | incrementSessionCrash => .increment
  | snapshot => .snapshot
  | sessionCount => .sessionCount
  | leaseCount => .leaseCount
  | counters => .counters

/-- Calls of the methods, and the locks. -/
structure Locking where
  locks : State LockName CallId
  stages : Table CallId Stage

/-- What can happen next. -/
inductive LockingAction where
  /-- A task calls a method. -/
  | start (call : CallId) (method : RegistryMethod)
  /-- A call sets out on a path. -/
  | path (call : CallId) (entry : GateId) (k : Nat)
  /-- A call asks for a lock, gets it, or gives it back. -/
  | go (call : CallId)

namespace Locking

def init : Locking where
  locks := Locks.init
  stages := Table.empty

def step (s : Locking) : LockingAction → Option Locking
  | .start call method =>
    match s.stages.get? call with
    | some _ => none
    | none => some { s with stages := s.stages.set call method.entry }
  | .path call entry k =>
    match s.stages.get? call with
    | none => none
    | some stage =>
      match (stage.paths entry)[k]? with
      | none => none
      | some (script, stage') =>
        (Locks.step s.locks (.begin call script)).map fun locks =>
          { locks := locks, stages := s.stages.set call stage' }
  | .go call => (Locks.step s.locks (.go call)).map fun locks => { s with locks := locks }

end Locking

end Lspee
