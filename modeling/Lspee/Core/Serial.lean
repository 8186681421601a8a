import Lspee.Core.Tasks

/-!
# Registry Calls One at a Time

The methods of the registry as each of them runs when no other call is under
way: the sections of `Core.Tasks`, one after the other, with the time that
passes while the method awaits the spawn closure or the runtime.

An operation comes with everything its environment decides: how long what it
awaits takes, and how that ends. Beside the registry a state keeps what has
happened, newest first, as the callers saw it: leases granted and released,
messages accepted and rejected, sessions marked, removed and collected, with
the clock readings taken.

An acquire that finds the gate taken would wait for a spawn that no other call
is there to finish; it does not return, and has no next state.

## Main definitions

* `Operation`: A method with its arguments and what its environment decides.
* `Occurrence`: What came of an operation.
* `Serial`, `Serial.step`: The registry under one operation at a time.
-/

namespace Lspee

/-- A method with its arguments, how long it awaits what it awaits, and how
    that ends; or time that passes between two operations. -/
inductive Operation where
  | wait (span : Duration)
  | acquireOrSpawn (key : SessionKey) (clientKind : Option ClientKind) (span : Duration)
      (spawned : Except String Json)
  | releaseByLeaseId (id : String)
  | forwardByLeaseId (kind : ForwardKind) (id : String) (message : Json) (span : Duration)
      (answer : Except String Json)
  | markTerminatingWithNotice (key : SessionKey) (notice : Option StreamErrorPayload)
  | remove (key : SessionKey)
  | idleCandidates

/-- What came of an operation, with the last reading it took of the clock. -/
inductive Occurrence where
  | acquired (lease : Lease) (time : Instant)
  | acquireFailed (key : SessionKey)
  | released (id : String) (time : Instant)
  /-- A call or notify that was forwarded, whether or not the runtime answered. -/
  | forwarded (id : String) (time : Instant)
  /-- A call or notify rejected because its session is terminating. -/
  | rejected (id : String) (error : String)
  /-- A release, call or notify whose lease is not known. -/
  | unknown (id : String)
  | marked (key : SessionKey)
  | removed (key : SessionKey)
  | collected (handles : List SessionHandle)

/-- The registry, the clock, the next runtime to be spawned, and what has
    happened, newest first. -/
structure Serial where
  reg : SessionRegistry
  now : Instant
  nextRuntime : RuntimeId
  history : List Occurrence

namespace Serial

/-- The daemon's registry before any call. -/
def init (idleTtl : Duration) : Serial where
  reg := SessionRegistry.withIdleTtl idleTtl
  now := 0
  nextRuntime := 0
  history := []

/-- The state after an operation. -/
def after (s : Serial) (r : SessionRegistry) (now : Instant) (occurrence : Occurrence) : Serial :=
  { s with reg := r, now := now, history := occurrence :: s.history }

/-- `acquire_or_spawn` once the spawn closure has returned. -/
def spawned (s : Serial) (r : SessionRegistry) (now : Instant) (key : SessionKey)
    (clientKind : Option ClientKind) : Except String Json → Serial
  | .ok initializeResult =>
    let handle : SessionHandle :=
      { key := key, runtime := s.nextRuntime, initializeResult := initializeResult }
    let published := r.publishSession key clientKind handle now
    { s.after published.1 now (.acquired published.2 now) with nextRuntime := s.nextRuntime + 1 }
  | .error _ => s.after (r.dropGate key) now (.acquireFailed key)

/-- `acquire_or_spawn`. -/
def acquireOrSpawn (s : Serial) (key : SessionKey) (clientKind : Option ClientKind)
    (span : Duration) (result : Except String Json) : Option Serial :=
  let entered := s.reg.countAttach.gateEntry key
  match entered.1.sessions.get? key with
  | some record =>
    let reused := entered.1.reuseSession key clientKind record s.now
    some (s.after reused.1 s.now (.acquired reused.2 s.now))
  | none =>
    match entered.1.enterGate entered.2 with
    | (_, some _) => none
    | (r, none) =>
      some (s.spawned (r.leaveGate entered.2) (s.now + span) key clientKind result)

/-- `release_by_lease_id`. -/
def releaseByLeaseId (s : Serial) (id : String) : Serial :=
  match s.reg.takeLease id with
  | none => s.after s.reg s.now (.unknown id)
  | some (r, key) => s.after (r.releaseSession key s.now).1 s.now (.released id s.now)

/-- `call_by_lease_id` and `notify_by_lease_id`. -/
def forwardByLeaseId (s : Serial) (id : String) (span : Duration) (answer : Except String Json) :
    Serial :=
  match s.reg.leaseKey id with
  | none => s.after s.reg s.now (.unknown id)
  | some key =>
    match s.reg.lookupRuntime key s.now with
    | .missing => s.after s.reg s.now (.unknown id)
    | .rejected error => s.after s.reg s.now (.rejected id error)
    | .found r _ =>
      match answer with
      | .ok _ => s.after (r.touch key (s.now + span)) (s.now + span) (.forwarded id (s.now + span))
      | .error _ => s.after r (s.now + span) (.forwarded id s.now)

/-- One operation, from its call to its return. -/
def step (s : Serial) : Operation → Option Serial
  | .wait span => some { s with now := s.now + span }
  | .acquireOrSpawn key clientKind span result => s.acquireOrSpawn key clientKind span result
  | .releaseByLeaseId id => some (s.releaseByLeaseId id)
  | .forwardByLeaseId _ id _ span answer => some (s.forwardByLeaseId id span answer)
  | .markTerminatingWithNotice key notice =>
    some (s.after (s.reg.markTerminatingWithNotice key notice) s.now (.marked key))
  | .remove key =>
    some (s.after (((s.reg.removeSession key).removeLeases key).dropGate key) s.now
      (.removed key))
  | .idleCandidates =>
    some (s.after (s.reg.idleCandidates s.now).1 s.now
      (.collected (s.reg.idleCandidates s.now).2))

end Serial

end Lspee
