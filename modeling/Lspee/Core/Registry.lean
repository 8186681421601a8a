import Lspee.Core.Json
import Lspee.Lib.Table

/-!
# The Session Registry

The daemon's table of language server sessions, the leases counted on them, and
the gates that coalesce concurrent spawns. The registry is shared: its tables
sit behind locks, and a method takes and gives back a lock several times while
it runs. What other methods can see in between is decided by where those scopes
begin and end, so each method is given here as its lock-guarded sections, one
function per guard's scope. The scope of an outer guard covers the guards taken
inside it: a grant holds `sessions` while it bumps a counter and inserts the
lease, and is one section.

A `SessionHandle` holds shared pointers. The model keeps which runtime it is, by
a number given out when the runtime is spawned, and the result of that
runtime's `initialize` request. The transport and the event channel come with
the runtime, one each, and are not represented.

A spawn gate is shared as well: a caller keeps the gate it was given even after
the registry has dropped it from `spawn_gates`. Gates therefore live in a heap
of their own, and `spawn_gates` maps a key to one of them.

## Main definitions

* `SessionKey`, `SessionHandle`, `SessionRecord`, `LeaseRecord`, `Lease`: The
  data the registry holds.
* `SpawnGate`: A gate, with the number of wake-ups its `Notify` has sent.
* `SessionRegistry`: The registry.
* `countAttach`, `gateEntry`, `reuseSession`, `enterGate`, `leaveGate`,
  `publishSession`, `dropGate`: The sections of `acquire_or_spawn`.
* `takeLease`, `releaseSession`: The sections of `release_by_lease_id`.
* `removeSession`, and `removeLeases` with `dropGate`: The two sections of
  `remove`.
* `leaseKey`, `lookupRuntime`, `touch`: The sections of `call_by_lease_id` and
  `notify_by_lease_id`.
* `markTerminatingWithNotice`, `idleCandidates`, `memorySnapshots`: Methods of
  one section.
-/

namespace Lspee

/-- A reading of the monotonic clock, in nanoseconds. -/
abbrev Instant := Nat

/-- A span of time, in nanoseconds. -/
abbrev Duration := Nat

/-- Which of the spawned runtimes an `Arc<LspRuntime>` points to. -/
abbrev RuntimeId := Nat

/-- Which of the allocated gates an `Arc<Mutex<SpawnGate>>` points to. -/
abbrev GateId := Nat

/-- A path as the standard library compares it: by its components. -/
structure PathBuf where
  hasRoot : Bool
  components : List String
deriving DecidableEq, Repr, Inhabited

/-- The text of a path, without repeated or trailing separators. -/
def PathBuf.display (path : PathBuf) : String :=
  (if path.hasRoot then "/" else "") ++ "/".intercalate path.components

/-- Which of the two evictors: the eviction loop, or the memory monitor. -/
inductive Evictor where
  | idle
  | memory
deriving DecidableEq, Repr

/-- The identity under which a session is shared. -/
structure SessionKey where
  root : PathBuf
  lspId : String
  configHash : String
deriving DecidableEq, Repr, Inhabited

/-- What a client says it is. -/
inductive ClientKind where
  | editor
  | agent
  | human
  | ci
  | other
deriving DecidableEq, Repr

/-- The payload of a stream error, also kept as a session's termination
    notice. -/
structure StreamErrorPayload where
  code : String
  message : String
  retryable : Bool
  details : Option Json
deriving DecidableEq

/-- A session's runtime and the result of its `initialize` request. -/
structure SessionHandle where
  key : SessionKey
  -- Stands for the `transport`, the `runtime` and the `events` of the source alike.
  runtime : RuntimeId
  initializeResult : Json
deriving DecidableEq

/-- The registry's record of one session. -/
structure SessionRecord where
  handle : SessionHandle
  refCount : Nat
  lastUsed : Instant
  terminating : Bool
  terminationNotice : Option StreamErrorPayload
deriving DecidableEq

namespace SessionRecord

/-- The record of a session that has just been spawned. -/
def new (handle : SessionHandle) (now : Instant) : SessionRecord where
  handle := handle
  refCount := 0
  lastUsed := now
  terminating := false
  terminationNotice := none

def touch (record : SessionRecord) (now : Instant) : SessionRecord :=
  { record with lastUsed := now }

/-- What a grant does to the record, on the reuse path and on the spawn path
    alike. -/
def grant (record : SessionRecord) (now : Instant) : SessionRecord :=
  { record with
    refCount := record.refCount + 1
    terminating := false
    terminationNotice := none
    lastUsed := now }

/-- What a release does to the record: the count never goes below zero. -/
def release (record : SessionRecord) (now : Instant) : SessionRecord :=
  { record with
    refCount := if record.refCount > 0 then record.refCount - 1 else record.refCount
    lastUsed := now }

end SessionRecord

/-- A spawn gate. A `Notified` future remembers how many times
    `notify_waiters` had been called when it was created, and is ready once the
    number has grown. -/
structure SpawnGate where
  notify : Nat
  started : Bool
deriving DecidableEq, Repr

namespace SpawnGate

def new : SpawnGate where
  notify := 0
  started := false

end SpawnGate

/-- The registry's record of one lease: the key, not the session. -/
structure LeaseRecord where
  key : SessionKey
  clientKind : Option ClientKind
deriving DecidableEq, Repr

/-- A lease as `acquire_or_spawn` returns it. -/
structure Lease where
  id : String
  key : SessionKey
deriving DecidableEq, Repr

structure RegistryCounters where
  sessionsSpawnedTotal : Nat
  sessionsReusedTotal : Nat
  sessionsGcIdleTotal : Nat
  sessionsEvictedMemoryTotal : Nat
  sessionCrashesTotal : Nat
  attachRequestsTotal : Nat
deriving DecidableEq, Repr

namespace RegistryCounters

def zero : RegistryCounters := ⟨0, 0, 0, 0, 0, 0⟩

end RegistryCounters

/-- What the memory monitor reads of one session. -/
structure MemorySessionSnapshot where
  handle : SessionHandle
  refCount : Nat
  idleFor : Duration
  clientKinds : List ClientKind
deriving DecidableEq

/-- The registry. `gateHeap` holds every gate allocated so far, at the indices
    below `nextGate`; `leaseSeq` is an `AtomicU64` and wraps around. -/
structure SessionRegistry where
  sessions : Table SessionKey SessionRecord
  leases : Table String LeaseRecord
  spawnGates : Table SessionKey GateId
  gateHeap : GateId → SpawnGate
  nextGate : GateId
  counters : RegistryCounters
  leaseSeq : Nat
  idleTtl : Duration

/-- The text of a lease id. -/
def leaseId (seq : Nat) : String := "lease_" ++ toString seq

namespace SessionRegistry

/-- An empty registry. -/
def withIdleTtl (idleTtl : Duration) : SessionRegistry where
  sessions := Table.empty
  leases := Table.empty
  spawnGates := Table.empty
  gateHeap := fun _ => SpawnGate.new
  nextGate := 0
  counters := RegistryCounters.zero
  leaseSeq := 1
  idleTtl := idleTtl

/-- The runtime of the session registered under a key. -/
def instanceOf (r : SessionRegistry) (key : SessionKey) : Option RuntimeId :=
  (r.sessions.get? key).map (fun record => record.handle.runtime)

/-! ### `acquire_or_spawn` -/

/-- The first section, under `counters`. -/
def countAttach (r : SessionRegistry) : SessionRegistry :=
  { r with counters :=
      { r.counters with attachRequestsTotal := r.counters.attachRequestsTotal + 1 } }

/-- The gate registered for the key, or a new one, under `spawn_gates`. -/
def gateEntry (r : SessionRegistry) (key : SessionKey) : SessionRegistry × GateId :=
  match r.spawnGates.get? key with
  -- The entry is occupied: a clone of the pointer, whatever the gate's state.
  | some g => (r, g)
  -- A new gate is allocated, and the old one of the key, if any, lives on in the heap.
  | none =>
    ({ r with
        spawnGates := r.spawnGates.set key r.nextGate
        gateHeap := Function.update r.gateHeap r.nextGate SpawnGate.new
        nextGate := r.nextGate + 1 },
      r.nextGate)

/-- The end of both grant paths, inside the guard of `sessions`: the record is
    written back with one more reference, and a lease is issued on the key. -/
def grantLease (r : SessionRegistry) (key : SessionKey) (clientKind : Option ClientKind)
    (record : SessionRecord) (counters : RegistryCounters) (now : Instant) :
    SessionRegistry × Lease :=
  ({ r with
      sessions := r.sessions.set key (record.grant now)
      counters := counters
      -- `fetch_add` gives out the old value, and wraps around.
      leaseSeq := (r.leaseSeq + 1) % 2 ^ 64
      leases := r.leases.set (leaseId r.leaseSeq) { key := key, clientKind := clientKind } },
    { id := leaseId r.leaseSeq, key := key })

/-- The reuse path, under `sessions`, for the record found under the key. -/
def reuseSession (r : SessionRegistry) (key : SessionKey) (clientKind : Option ClientKind)
    (record : SessionRecord) (now : Instant) : SessionRegistry × Lease :=
  r.grantLease key clientKind record
    { r.counters with sessionsReusedTotal := r.counters.sessionsReusedTotal + 1 } now

/-- The check of the gate, under the gate: `none` when the caller is to spawn,
    otherwise the count of wake-ups its `Notified` future starts from. -/
def enterGate (r : SessionRegistry) (g : GateId) : SessionRegistry × Option Nat :=
  -- `notified_owned` counts the wake-ups so far, and is ready after the next one.
  if (r.gateHeap g).started then
    (r, some (r.gateHeap g).notify)
  else
    ({ r with gateHeap := Function.update r.gateHeap g { r.gateHeap g with started := true } },
      none)

/-- The gate is cleared and its waiters are woken, under the gate. -/
def leaveGate (r : SessionRegistry) (g : GateId) : SessionRegistry :=
  { r with gateHeap :=
      -- `notify_waiters` wakes those who wait already, and leaves no permit for later ones.
      Function.update r.gateHeap g { notify := (r.gateHeap g).notify + 1, started := false } }

/-- The record a publish works on: the one already there, or a new one. -/
def publishRecord (r : SessionRegistry) (key : SessionKey) (handle : SessionHandle)
    (now : Instant) : SessionRecord :=
  -- `or_insert_with`: somebody else's record wins, though its handle is another.
  (r.sessions.get? key).getD (SessionRecord.new handle now)

/-- The spawn path, under `sessions`. A record already there is kept, and the
    handle just spawned is dropped. -/
def publishSession (r : SessionRegistry) (key : SessionKey) (clientKind : Option ClientKind)
    (handle : SessionHandle) (now : Instant) : SessionRegistry × Lease :=
  r.grantLease key clientKind (r.publishRecord key handle now)
    { r.counters with sessionsSpawnedTotal := r.counters.sessionsSpawnedTotal + 1 } now

/-- The key's entry of `spawn_gates` is dropped: after a failed spawn, and at the
    end of `remove`. -/
def dropGate (r : SessionRegistry) (key : SessionKey) : SessionRegistry :=
  { r with spawnGates := r.spawnGates.erase key }

/-! ### `release_by_lease_id` -/

def eraseLease (r : SessionRegistry) (id : String) : SessionRegistry :=
  { r with leases := r.leases.erase id }

/-- The lease is taken out, under `leases`; `none` when there is no such
    lease. -/
def takeLease (r : SessionRegistry) (id : String) : Option (SessionRegistry × SessionKey) :=
  match r.leases.get? id with
  -- The `?` of the source: the method returns `None` before it asks for `sessions`.
  | none => none
  | some lease => some (r.eraseLease id, lease.key)

/-- The record under the key loses a reference, under `sessions`. -/
def releaseSession (r : SessionRegistry) (key : SessionKey) (now : Instant) :
    SessionRegistry × Nat :=
  match r.sessions.get? key with
  | some record =>
    ({ r with sessions := r.sessions.set key (record.release now) }, (record.release now).refCount)
  -- The session was removed between the two sections: `Some(0)`, and nothing changes.
  | none => (r, 0)

/-! ### `remove` -/

def removeSession (r : SessionRegistry) (key : SessionKey) : SessionRegistry :=
  { r with sessions := r.sessions.erase key }

def removeLeases (r : SessionRegistry) (key : SessionKey) : SessionRegistry :=
  -- By key, so that the leases on a later session of the key go as well.
  { r with leases := r.leases.retain (fun _ lease => decide (lease.key ≠ key)) }

/-! ### `call_by_lease_id` and `notify_by_lease_id` -/

/-- The key a lease is on, under `leases`. -/
def leaseKey (r : SessionRegistry) (id : String) : Option SessionKey :=
  (r.leases.get? id).map (fun lease => lease.key)

/-- What the second section finds under the key: nothing, a session that is
    being terminated (with the text of the error), or a session, which is
    touched. -/
inductive RuntimeLookup where
  | missing
  | rejected (error : String)
  | found (r : SessionRegistry) (handle : SessionHandle)

/-- The session under the key, under `sessions`. -/
def lookupRuntime (r : SessionRegistry) (key : SessionKey) (now : Instant) : RuntimeLookup :=
  match r.sessions.get? key with
  -- Answered like a lease that does not exist.
  | none => .missing
  | some record =>
    if record.terminating then
      match record.terminationNotice with
      -- The code comes first: `forwardError` later looks for it in the text.
      | some notice => .rejected (notice.code ++ ": " ++ notice.message)
      | none => .rejected "session is terminating"
    else
      .found { r with sessions := r.sessions.set key (record.touch now) } record.handle

def touch (r : SessionRegistry) (key : SessionKey) (now : Instant) : SessionRegistry :=
  match r.sessions.get? key with
  | some record => { r with sessions := r.sessions.set key (record.touch now) }
  | none => r

/-! ### Methods of one section -/

def sessionHandle (r : SessionRegistry) (key : SessionKey) : Option SessionHandle :=
  (r.sessions.get? key).map (fun record => record.handle)

def markTerminatingWithNotice (r : SessionRegistry) (key : SessionKey)
    (notice : Option StreamErrorPayload) : SessionRegistry :=
  match r.sessions.get? key with
  | some record =>
    { r with sessions :=
        r.sessions.set key { record with terminating := true, terminationNotice := notice } }
  | none => r

/-- The test of `idle_candidates`. A reading `now` taken before the last use
    counts as no time at all. -/
def isIdle (r : SessionRegistry) (now : Instant) (record : SessionRecord) : Bool :=
  -- `duration_since` saturates, as subtraction does here.
  !record.terminating && record.refCount == 0 && decide (now - record.lastUsed ≥ r.idleTtl)

/-- The idle sessions, which are marked terminating. The clock is read before
    the lock is taken, so `now` may be earlier than the section. -/
def idleCandidates (r : SessionRegistry) (now : Instant) :
    SessionRegistry × List SessionHandle :=
  -- The mark carries no notice, as the memory monitor's does.
  ({ r with sessions := r.sessions.mapValues (fun record =>
      if r.isIdle now record then { record with terminating := true } else record) },
    (r.sessions.values.filter (r.isIdle now)).map (fun record => record.handle))

def allHandles (r : SessionRegistry) : List SessionHandle :=
  r.sessions.values.map (fun record => record.handle)

/-- The distinct kinds of the clients that hold a lease on the key. -/
def leaseClientKinds (r : SessionRegistry) (key : SessionKey) : List ClientKind :=
  -- A `HashSet`, whose order nothing reads.
  (r.leases.values.filterMap
    (fun lease => if lease.key = key then lease.clientKind else none)).eraseDups

/-- What the memory monitor reads, under `sessions` and `leases`. -/
def memorySnapshots (r : SessionRegistry) (now : Instant) : List MemorySessionSnapshot :=
  r.sessions.values.map (fun record =>
    { handle := record.handle
      refCount := record.refCount
      idleFor := now - record.lastUsed
      clientKinds := r.leaseClientKinds record.handle.key })

def incrementIdleGc (r : SessionRegistry) : SessionRegistry :=
  { r with counters :=
      { r.counters with sessionsGcIdleTotal := r.counters.sessionsGcIdleTotal + 1 } }

def incrementMemoryEviction (r : SessionRegistry) : SessionRegistry :=
  { r with counters :=
      { r.counters with
        sessionsEvictedMemoryTotal := r.counters.sessionsEvictedMemoryTotal + 1 } }

def incrementSessionCrash (r : SessionRegistry) : SessionRegistry :=
  { r with counters :=
      { r.counters with sessionCrashesTotal := r.counters.sessionCrashesTotal + 1 } }

/-- The increment an evictor makes for a session it has evicted. -/
def increment (r : SessionRegistry) : Evictor → SessionRegistry
  | .idle => r.incrementIdleGc
  | .memory => r.incrementMemoryEviction

def sessionCount (r : SessionRegistry) : Nat := r.sessions.size

def leaseCount (r : SessionRegistry) : Nat := r.leases.size

end SessionRegistry

end Lspee
