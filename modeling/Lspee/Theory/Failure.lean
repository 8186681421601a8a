import Lspee.Core.Control
import Lspee.Theory.Accounting

/-!
# Failed Requests

What an `Error` leaves behind. A request is followed from its line to its
answer while nothing else goes on: the registry call it waits for runs, time
passes, and no other call moves.

Most failures come before anything is changed, or change only times and
counters. One does not: when the endpoint of a dedicated attach cannot be
created, a lease has been granted, and it is released again. What it was
recorded under is then free, as it was before, provided it was. The counter of
lease ids wraps around, and `reusedLease_lost` is a registry in which the id it
gives out next is that of a lease still out: the failed attach takes that lease
along.

## Main definitions

* `Intact`: The same leases and counts, and nothing counted on new sessions.
* `Granted`, `Revoked`: The registry between a grant and its withdrawal.
* `Unaccompanied`: Nothing moves but the request.
* `IsValidationError`: The errors of requests that are not accepted.
* `Progress`: How the registry stands to the one the request found.

## Theorems

* `accounted_of_intact`: The accounting is kept.
* `progress_line`, `progress_step`: What a line begins, and what a step keeps.
* `failed_request`: An `Error` leaves the leases and counts as they were.
* `reusedLease_lost`: A failed attach that takes a lease along.
-/

namespace Lspee

open Transition

/-! ### What is left as it was -/

/-- The leases are the same, sessions that were there have the same count, and
    new ones have a count of zero. -/
structure Intact (r r' : SessionRegistry) : Prop where
  leases : ∀ id, r'.leases.get? id = r.leases.get? id
  kept : ∀ key record, r.sessions.get? key = some record →
    ∃ record', r'.sessions.get? key = some record' ∧ record'.refCount = record.refCount
  created : ∀ key record', r.sessions.get? key = none → r'.sessions.get? key = some record' →
    record'.refCount = 0

theorem intact_refl (r : SessionRegistry) : Intact r r where
  leases := fun _ => rfl
  kept := fun _ record h => ⟨record, h, rfl⟩
  created := fun key record' hnone hsome => by
    rw [hnone] at hsome
    exact absurd hsome (by simp only [reduceCtorEq, not_false_eq_true])

/-- A registry with the same leases and sessions. -/
theorem intact_of_eq (r r' : SessionRegistry) (hleases : r'.leases = r.leases)
    (hsessions : r'.sessions = r.sessions) : Intact r r' := by
  refine ⟨fun id => by rw [hleases], fun key record h => ?_, fun key record' hnone hsome => ?_⟩
  · exact ⟨record, by rw [hsessions, h], rfl⟩
  · rw [hsessions, hnone] at hsome
    exact absurd hsome (by simp only [reduceCtorEq, not_false_eq_true])

/-- Replacing a record by one with the same count. -/
theorem intact_set (r r' : SessionRegistry) (key : SessionKey) (record record' : SessionRecord)
    (hleases : ∀ id, r'.leases.get? id = r.leases.get? id)
    (hget : r.sessions.get? key = some record) (hcount : record'.refCount = record.refCount)
    (hsessions : ∀ k, r'.sessions.get? k =
      if k = key then some record' else r.sessions.get? k) : Intact r r' := by
  refine ⟨hleases, fun k u hu => ?_, fun k u' hnone hsome => ?_⟩
  · rw [hsessions]
    by_cases hk : k = key
    · rw [hk, hget, Option.some.injEq] at hu
      rw [if_pos hk, ← hu]
      exact ⟨record', rfl, hcount⟩
    · rw [if_neg hk]
      exact ⟨u, hu, rfl⟩
  · rw [hsessions] at hsome
    by_cases hk : k = key
    · rw [hk, hget] at hnone
      exact absurd hnone (by simp only [reduceCtorEq, not_false_eq_true])
    · rw [if_neg hk, hnone] at hsome
      exact absurd hsome (by simp only [reduceCtorEq, not_false_eq_true])

theorem intact_trans (r r' r'' : SessionRegistry) (h : Intact r r') (h' : Intact r' r'') :
    Intact r r'' := by
  refine ⟨fun id => by rw [h'.leases, h.leases], fun key record hget => ?_,
    fun key record' hnone hsome => ?_⟩
  · rcases h.kept key record hget with ⟨u, hu, hcount⟩
    rcases h'.kept key u hu with ⟨u', hu', hcount'⟩
    exact ⟨u', hu', by rw [hcount', hcount]⟩
  · cases hmid : r'.sessions.get? key with
    | none => exact h'.created key record' hmid hsome
    | some u =>
        rcases h'.kept key u hmid with ⟨u', hu', hcount'⟩
        rw [hsome, Option.some.injEq] at hu'
        rw [hu', hcount', h.created key u hnone hmid]

/-- Counts that were right are right. -/
theorem accounted_of_intact (w w' : World) (h : Intact w.reg w'.reg) (haccounted : w.Accounted) :
    w'.Accounted := by
  have hcounts : ∀ p, w'.reg.leases.count p = w.reg.leases.count p :=
    fun p => Table.count_ext w.reg.leases w'.reg.leases p h.leases
  refine ⟨fun id lease hlease => ?_, fun key record' hget => ?_⟩
  · rw [h.leases] at hlease
    rcases haccounted.1 id lease hlease with ⟨record, hrecord⟩
    rcases h.kept lease.key record hrecord with ⟨record', hrecord', -⟩
    exact ⟨record', hrecord'⟩
  · rw [hcounts]
    cases hold : w.reg.sessions.get? key with
    | some record =>
        rcases h.kept key record hold with ⟨u, hu, hcount⟩
        rw [hget, Option.some.injEq] at hu
        rw [hu, hcount, haccounted.2 key record hold]
    | none =>
        -- No lease is on a key without a session.
        rw [h.created key record' hold hget, eq_comm, Table.count_eq_zero]
        intro id lease hlease
        refine decide_eq_false fun hkey => ?_
        rcases haccounted.1 id lease hlease with ⟨record, hrecord⟩
        rw [hkey, hold] at hrecord
        exact absurd hrecord (by simp only [reduceCtorEq, not_false_eq_true])

/-! ### Granted and withdrawn -/

/-- The sessions after a grant on the key: the record found there, or a new
    one, counts one more. -/
def OneMore (r r' : SessionRegistry) (key : SessionKey) : Prop :=
  ∃ record : SessionRecord, ∃ now : Instant,
    (r.sessions.get? key = some record ∨ r.sessions.get? key = none ∧ record.refCount = 0) ∧
    ∀ k, r'.sessions.get? k =
      if k = key then some (record.grant now) else r.sessions.get? k

/-- The registry after a lease has been granted, and nothing else. -/
structure Granted (r r' : SessionRegistry) (key : SessionKey) (lease : Lease) : Prop where
  onKey : lease.key = key
  nextId : lease.id = leaseId r.leaseSeq
  sessions : OneMore r r' key
  leases : ∃ clientKind, ∀ id, r'.leases.get? id =
    if id = lease.id then some { key := key, clientKind := clientKind } else r.leases.get? id

/-- The registry after that lease has been taken out again, before it is
    counted off. -/
structure Revoked (r r' : SessionRegistry) (key : SessionKey) : Prop where
  sessions : OneMore r r' key
  leases : ∀ id, r'.leases.get? id = r.leases.get? id

theorem granted_grantLease (r r₁ : SessionRegistry) (key : SessionKey)
    (clientKind : Option ClientKind) (record : SessionRecord) (counters : RegistryCounters)
    (now : Instant) (hsessions : r₁.sessions = r.sessions) (hleases : r₁.leases = r.leases)
    (hseq : r₁.leaseSeq = r.leaseSeq)
    (hrecord : r.sessions.get? key = some record ∨
      r.sessions.get? key = none ∧ record.refCount = 0) :
    Granted r (r₁.grantLease key clientKind record counters now).1 key
      (r₁.grantLease key clientKind record counters now).2 := by
  unfold SessionRegistry.grantLease
  refine ⟨rfl, by rw [hseq], ⟨record, now, hrecord, fun k => ?_⟩, ⟨clientKind, fun id => ?_⟩⟩
  · simp only [Table.get?_set, hsessions]
  · simp only [Table.get?_set, hleases]

/-- Where its id was free, taking the lease out again leaves the leases as they
    were. -/
theorem revoked_takeLease (r r₁ r₂ : SessionRegistry) (key key' : SessionKey) (lease : Lease)
    (h : Granted r r₁ key lease) (hfree : r.leases.get? (leaseId r.leaseSeq) = none)
    (htake : r₁.takeLease lease.id = some (r₂, key')) : key' = key ∧ Revoked r r₂ key := by
  rcases h.leases with ⟨clientKind, hleases⟩
  unfold SessionRegistry.takeLease at htake
  rw [hleases, if_pos rfl] at htake
  simp only [Option.some.injEq, Prod.mk.injEq] at htake
  rcases htake with ⟨hreg, hkey⟩
  rw [← hreg]
  refine ⟨hkey.symm, h.sessions, fun id => ?_⟩
  unfold SessionRegistry.eraseLease
  rw [Table.get?_erase]
  by_cases hid : id = lease.id
  · rw [if_pos hid, hid, h.nextId, hfree]
  · rw [if_neg hid, hleases, if_neg hid]

/-- Once counted off, the lease has left nothing behind. -/
theorem intact_releaseSession (r r₁ : SessionRegistry) (key : SessionKey) (now : Instant)
    (h : Revoked r r₁ key) : Intact r (r₁.releaseSession key now).1 := by
  rcases h.sessions with ⟨record, granted, hrecord, hsessions⟩
  have hget : r₁.sessions.get? key = some (record.grant granted) := by
    rw [hsessions, if_pos rfl]
  have hcount : ((record.grant granted).release now).refCount = record.refCount := by
    have hpos : (record.grant granted).refCount > 0 := Nat.succ_pos record.refCount
    unfold SessionRecord.release
    simp only []
    rw [if_pos hpos]
    exact Nat.add_sub_cancel record.refCount 1
  have hreleased : ∀ k, (r₁.releaseSession key now).1.sessions.get? k =
      if k = key then some ((record.grant granted).release now) else r.sessions.get? k := by
    intro k
    unfold SessionRegistry.releaseSession
    rw [hget]
    simp only [Table.get?_set]
    by_cases hk : k = key
    · rw [if_pos hk, if_pos hk]
    · rw [if_neg hk, if_neg hk, hsessions, if_neg hk]
  have hleases : ∀ id, (r₁.releaseSession key now).1.leases.get? id = r.leases.get? id := by
    intro id
    unfold SessionRegistry.releaseSession
    rw [hget]
    exact h.leases id
  rcases hrecord with hsome | ⟨hnone, hzero⟩
  · exact intact_set r _ key record _ hleases hsome hcount hreleased
  · -- The session was made for this attach: it stays, with no one counted on it.
    refine ⟨hleases, fun k u hu => ?_, fun k u' hnone' hsome' => ?_⟩
    · rw [hreleased]
      have hk : k ≠ key := by
        intro hk
        rw [hk, hnone] at hu
        exact absurd hu (by simp only [reduceCtorEq, not_false_eq_true])
      rw [if_neg hk]
      exact ⟨u, hu, rfl⟩
    · rw [hreleased] at hsome'
      by_cases hk : k = key
      · rw [if_pos hk, Option.some.injEq] at hsome'
        rw [← hsome', hcount, hzero]
      · rw [if_neg hk, hnone'] at hsome'
        exact absurd hsome' (by simp only [reduceCtorEq, not_false_eq_true])

/-! ### The registry calls of a request -/

/-- The parts of the registry that a request is answered by. -/
structure SameCore (r r' : SessionRegistry) : Prop where
  sessions : r'.sessions = r.sessions
  leases : r'.leases = r.leases
  leaseSeq : r'.leaseSeq = r.leaseSeq

/-- How the registry stands while an attach waits for its lease. -/
def AttachAt (r r' : SessionRegistry) : Frame → Prop
  | .acquire key _ (.returned (.ok lease)) => Granted r r' key lease
  | .acquire _ _ _ => SameCore r r'
  | .attached lease handle => handle.isSome = true ∧ Granted r r' lease.key lease
  | _ => False

/-- How it stands while the lease of a failed attach is released. -/
def UnattachAt (r r' : SessionRegistry) : Frame → Prop
  | .release id .take => ∃ lease, lease.id = id ∧ Granted r r' lease.key lease
  | .release _ (.decrement key) => Revoked r r' key
  | .release _ (.returned _) => Intact r r'
  | _ => False

/-- How it stands while a release is made: a lease that is not known is not
    released. -/
def ReleaseAt (r r' : SessionRegistry) : Frame → Prop
  | .release _ .take => r' = r
  | .release _ (.decrement _) => True
  | .release _ (.returned none) => r' = r
  | .release _ (.returned (some _)) => True
  | _ => False

/-- How it stands while a message is forwarded. -/
def ForwardAt (r r' : SessionRegistry) : Frame → Prop
  | .forward _ _ _ .lease => r' = r
  | .forward _ _ _ (.session _) => r' = r
  | .forward _ _ _ (.returned (.ok none)) => r' = r
  | .forward _ _ _ _ => Intact r r'
  | _ => False

theorem sameCore_gateEntry (r r' : SessionRegistry) (key : SessionKey) (h : SameCore r r') :
    SameCore r (r'.gateEntry key).1 := by
  unfold SessionRegistry.gateEntry
  cases r'.spawnGates.get? key with
  | some g => exact h
  | none => exact ⟨h.sessions, h.leases, h.leaseSeq⟩

theorem sameCore_enterGate (r r' : SessionRegistry) (g : GateId) (h : SameCore r r') :
    SameCore r (r'.enterGate g).1 := by
  unfold SessionRegistry.enterGate
  by_cases hstarted : (r'.gateHeap g).started = true
  · rw [if_pos hstarted]
    exact h
  · rw [if_neg hstarted]
    exact ⟨h.sessions, h.leases, h.leaseSeq⟩

/-- A granted lease's session is there. -/
theorem granted_handle (r r' : SessionRegistry) (key : SessionKey) (lease : Lease)
    (h : Granted r r' key lease) : (r'.sessionHandle key).isSome = true := by
  rcases h.sessions with ⟨record, now, -, hsessions⟩
  unfold SessionRegistry.sessionHandle
  rw [hsessions, if_pos rfl]
  rfl

theorem attachAt_section (call : CallId) (now : Instant) (r r' r'' : SessionRegistry)
    (frame frame' : Frame) (events : List Event) (h : AttachAt r r' frame)
    (hsec : frame.section call now r' = some (r'', frame', events)) : AttachAt r r'' frame' := by
  cases frame with
  | acquire key clientKind pc =>
      cases pc with
      | count =>
          simp only [Frame.section, AcquirePc.section, Option.map_some, Option.some.injEq,
            Prod.mk.injEq] at hsec
          rcases hsec with ⟨rfl, rfl, -⟩
          exact ⟨h.sessions, h.leases, h.leaseSeq⟩
      | gate =>
          simp only [Frame.section, AcquirePc.section, Option.map_some, Option.some.injEq,
            Prod.mk.injEq] at hsec
          rcases hsec with ⟨rfl, rfl, -⟩
          exact sameCore_gateEntry r r' key h
      | lookup g =>
          simp only [Frame.section, AcquirePc.section] at hsec
          cases hget : r'.sessions.get? key with
          | none =>
              simp only [hget, Option.map_some, Option.some.injEq, Prod.mk.injEq] at hsec
              rcases hsec with ⟨rfl, rfl, -⟩
              exact h
          | some record =>
              simp only [hget, Option.map_some, Option.some.injEq, Prod.mk.injEq] at hsec
              rcases hsec with ⟨rfl, rfl, -⟩
              have hrecord : r.sessions.get? key = some record := by rw [← h.sessions, hget]
              -- The reuse path grants on the record that was there.
              exact granted_grantLease r r' key clientKind record _ now h.sessions h.leases
                h.leaseSeq (Or.inl hrecord)
      | enter g =>
          -- Entering a gate touches neither sessions nor leases, whichever way it goes.
          have hcore := sameCore_enterGate r r' g h
          simp only [Frame.section, AcquirePc.section] at hsec
          cases henter : r'.enterGate g with
          | mk r₁ waits =>
              rw [henter] at hcore
              cases waits with
              | none =>
                  simp only [henter, Option.map_some, Option.some.injEq, Prod.mk.injEq] at hsec
                  rcases hsec with ⟨rfl, rfl, -⟩
                  exact hcore
              | some epoch =>
                  simp only [henter, Option.map_some, Option.some.injEq, Prod.mk.injEq] at hsec
                  rcases hsec with ⟨rfl, rfl, -⟩
                  exact hcore
      | spawning g =>
          simp only [Frame.section, AcquirePc.section, Option.map_none, reduceCtorEq] at hsec
      | leave g result =>
          cases result with
          | ok handle =>
              simp only [Frame.section, AcquirePc.section, Option.map_some, Option.some.injEq,
                Prod.mk.injEq] at hsec
              rcases hsec with ⟨rfl, rfl, -⟩
              exact ⟨h.sessions, h.leases, h.leaseSeq⟩
          | error error =>
              simp only [Frame.section, AcquirePc.section, Option.map_some, Option.some.injEq,
                Prod.mk.injEq] at hsec
              rcases hsec with ⟨rfl, rfl, -⟩
              exact ⟨h.sessions, h.leases, h.leaseSeq⟩
      | publish handle =>
          simp only [Frame.section, AcquirePc.section, Option.map_some, Option.some.injEq,
            Prod.mk.injEq] at hsec
          rcases hsec with ⟨rfl, rfl, -⟩
          refine granted_grantLease r r' key clientKind _ _ now h.sessions h.leases h.leaseSeq ?_
          unfold SessionRegistry.publishRecord
          rw [h.sessions]
          -- The record is the old one, or new with no lease on it.
          cases r.sessions.get? key with
          | some record => exact Or.inl rfl
          | none => exact Or.inr ⟨rfl, rfl⟩
      | dropGate error =>
          simp only [Frame.section, AcquirePc.section, Option.map_some, Option.some.injEq,
            Prod.mk.injEq] at hsec
          rcases hsec with ⟨rfl, rfl, -⟩
          exact ⟨h.sessions, h.leases, h.leaseSeq⟩
      | waiting g epoch =>
          simp only [Frame.section, AcquirePc.section, Option.map_eq_some_iff] at hsec
          rcases hsec with ⟨a, hcond, ha⟩
          by_cases hwoken : epoch < (r'.gateHeap g).notify
          · rw [if_pos hwoken, Option.some.injEq] at hcond
            rw [← hcond] at ha
            simp only [Prod.mk.injEq] at ha
            rcases ha with ⟨rfl, rfl, -⟩
            exact h
          · rw [if_neg hwoken] at hcond
            exact absurd hcond (by simp only [reduceCtorEq, not_false_eq_true])
      | returned result =>
          cases result with
          | ok lease =>
              simp only [Frame.section, Option.some.injEq, Prod.mk.injEq] at hsec
              rcases hsec with ⟨rfl, rfl, -⟩
              -- The `get` that follows the acquire finds the record just granted.
              have hgranted : Granted r r' key lease := h
              refine ⟨granted_handle r r' key lease hgranted, ?_⟩
              rw [hgranted.onKey]
              exact hgranted
          | error error =>
              simp only [Frame.section, AcquirePc.section, Option.map_none, reduceCtorEq] at hsec
  | attached lease handle => simp only [Frame.section, reduceCtorEq] at hsec
  | release id pc => exact h.elim
  | remove key pc => exact h.elim
  | forward kind id message pc => exact h.elim
  | touch key returned => exact h.elim
  | mark key notice returned => exact h.elim
  | idle start result => exact h.elim
  | increment evictor returned => exact h.elim
  | crash returned => exact h.elim

theorem unattachAt_section (call : CallId) (now : Instant) (r r' r'' : SessionRegistry)
    (frame frame' : Frame) (events : List Event)
    (hfree : r.leases.get? (leaseId r.leaseSeq) = none) (h : UnattachAt r r' frame)
    (hsec : frame.section call now r' = some (r'', frame', events)) :
    UnattachAt r r'' frame' := by
  cases frame with
  | release id pc =>
      cases pc with
      | take =>
          rcases h with ⟨lease, hid, hgranted⟩
          simp only [Frame.section, ReleasePc.section] at hsec
          cases htake : r'.takeLease id with
          | none =>
              -- The lease granted a moment ago is there.
              rcases hgranted.leases with ⟨clientKind, hleases⟩
              unfold SessionRegistry.takeLease at htake
              rw [hleases, ← hid, if_pos rfl] at htake
              exact absurd htake (by simp only [reduceCtorEq, not_false_eq_true])
          | some taken =>
              simp only [htake, Option.map_some, Option.some.injEq, Prod.mk.injEq] at hsec
              rcases hsec with ⟨rfl, rfl, -⟩
              rw [← hid] at htake
              rcases revoked_takeLease r r' taken.1 lease.key taken.2 lease hgranted hfree htake
                with ⟨hkey, hrevoked⟩
              unfold UnattachAt
              rw [hkey]
              exact hrevoked
      | decrement key =>
          simp only [Frame.section, ReleasePc.section, Option.map_some, Option.some.injEq,
            Prod.mk.injEq] at hsec
          rcases hsec with ⟨rfl, rfl, -⟩
          exact intact_releaseSession r r' key now h
      | returned result =>
          simp only [Frame.section, ReleasePc.section, Option.map_none, reduceCtorEq] at hsec
  | acquire key clientKind pc => exact h.elim
  | attached lease handle => exact h.elim
  | remove key pc => exact h.elim
  | forward kind id message pc => exact h.elim
  | touch key returned => exact h.elim
  | mark key notice returned => exact h.elim
  | idle start result => exact h.elim
  | increment evictor returned => exact h.elim
  | crash returned => exact h.elim

theorem releaseAt_section (call : CallId) (now : Instant) (r r' r'' : SessionRegistry)
    (frame frame' : Frame) (events : List Event) (h : ReleaseAt r r' frame)
    (hsec : frame.section call now r' = some (r'', frame', events)) :
    ReleaseAt r r'' frame' := by
  cases frame with
  | release id pc =>
      cases pc with
      | take =>
          simp only [Frame.section, ReleasePc.section] at hsec
          cases htake : r'.takeLease id with
          | none =>
              simp only [htake, Option.map_some, Option.some.injEq, Prod.mk.injEq] at hsec
              rcases hsec with ⟨rfl, rfl, -⟩
              exact h
          | some taken =>
              simp only [htake, Option.map_some, Option.some.injEq, Prod.mk.injEq] at hsec
              rcases hsec with ⟨rfl, rfl, -⟩
              trivial
      | decrement key =>
          simp only [Frame.section, ReleasePc.section, Option.map_some, Option.some.injEq,
            Prod.mk.injEq] at hsec
          rcases hsec with ⟨rfl, rfl, -⟩
          trivial
      | returned result =>
          simp only [Frame.section, ReleasePc.section, Option.map_none, reduceCtorEq] at hsec
  | acquire key clientKind pc => exact h.elim
  | attached lease handle => exact h.elim
  | remove key pc => exact h.elim
  | forward kind id message pc => exact h.elim
  | touch key returned => exact h.elim
  | mark key notice returned => exact h.elim
  | idle start result => exact h.elim
  | increment evictor returned => exact h.elim
  | crash returned => exact h.elim

/-- Touching a session changes no count. -/
theorem intact_touch (r : SessionRegistry) (key : SessionKey) (now : Instant) :
    Intact r (r.touch key now) := by
  unfold SessionRegistry.touch
  cases hget : r.sessions.get? key with
  | none => exact intact_refl r
  | some record =>
      exact intact_set r _ key record (record.touch now) (fun _ => rfl) hget rfl
        (fun k => Table.get?_set r.sessions key k _)

theorem forwardAt_section (call : CallId) (now : Instant) (r r' r'' : SessionRegistry)
    (frame frame' : Frame) (events : List Event) (h : ForwardAt r r' frame)
    (hsec : frame.section call now r' = some (r'', frame', events)) :
    ForwardAt r r'' frame' := by
  cases frame with
  | forward kind id message pc =>
      cases pc with
      | lease =>
          simp only [Frame.section, ForwardPc.section] at hsec
          cases hlease : r'.leaseKey id with
          | none =>
              simp only [hlease, Option.map_some, Option.some.injEq, Prod.mk.injEq] at hsec
              rcases hsec with ⟨rfl, rfl, -⟩
              exact h
          | some key =>
              simp only [hlease, Option.map_some, Option.some.injEq, Prod.mk.injEq] at hsec
              rcases hsec with ⟨rfl, rfl, -⟩
              exact h
      | session key =>
          have hsame : r' = r := h
          simp only [Frame.section, ForwardPc.section] at hsec
          cases hlook : r'.lookupRuntime key now with
          | missing =>
              simp only [hlook, Option.map_some, Option.some.injEq, Prod.mk.injEq] at hsec
              rcases hsec with ⟨rfl, rfl, -⟩
              exact hsame
          | rejected error =>
              simp only [hlook, Option.map_some, Option.some.injEq, Prod.mk.injEq] at hsec
              rcases hsec with ⟨rfl, rfl, -⟩
              unfold ForwardAt
              rw [hsame]
              exact intact_refl r
          | found r₁ handle =>
              simp only [hlook, Option.map_some, Option.some.injEq, Prod.mk.injEq] at hsec
              rcases hsec with ⟨rfl, rfl, -⟩
              -- A session that is found is touched.
              have htouch : r₁ = r'.touch key now := by
                unfold SessionRegistry.lookupRuntime at hlook
                unfold SessionRegistry.touch
                cases hget : r'.sessions.get? key with
                | none =>
                    rw [hget] at hlook
                    exact absurd hlook (by simp only [reduceCtorEq, not_false_eq_true])
                | some record =>
                    simp only [hget] at hlook
                    split at hlook
                    · split at hlook
                      · exact absurd hlook (by simp only [reduceCtorEq, not_false_eq_true])
                      · exact absurd hlook (by simp only [reduceCtorEq, not_false_eq_true])
                    · rw [SessionRegistry.RuntimeLookup.found.injEq] at hlook
                      exact hlook.1.symm
              unfold ForwardAt
              rw [htouch, ← hsame]
              exact intact_touch r' key now
      | awaiting key runtime =>
          simp only [Frame.section, ForwardPc.section, Option.map_none, reduceCtorEq] at hsec
      | touch key response =>
          simp only [Frame.section, ForwardPc.section, Option.map_some, Option.some.injEq,
            Prod.mk.injEq] at hsec
          rcases hsec with ⟨rfl, rfl, -⟩
          exact intact_trans r r' _ h (intact_touch r' key now)
      | returned result =>
          simp only [Frame.section, ForwardPc.section, Option.map_none, reduceCtorEq] at hsec
  | acquire key clientKind pc => exact h.elim
  | attached lease handle => exact h.elim
  | release id pc => exact h.elim
  | remove key pc => exact h.elim
  | touch key returned => exact h.elim
  | mark key notice returned => exact h.elim
  | idle start result => exact h.elim
  | increment evictor returned => exact h.elim
  | crash returned => exact h.elim

/-! ### From the line to the answer -/

/-- The registry call a connection awaits. -/
def ControlPc.awaited : ControlPc → Option CallId
  | .attaching _ _ call => some call
  | .unattaching _ _ call => some call
  | .releasing _ _ call => some call
  | .calling _ _ call => some call
  | .notifying _ _ call => some call
  | _ => none

/-- Nothing moves but the request: time passes, the call it awaits goes on, or
    the connection itself does, up to its answer. -/
def Unaccompanied (s : Control) : ControlAction → Prop
  | .world (.tick _) => True
  | .world a => a.mover.isSome = true ∧ a.mover = s.pc.awaited
  | .wrote _ => False
  | _ => True

instance (s : Control) (a : ControlAction) : Decidable (Unaccompanied s a) := by
  unfold Unaccompanied
  split <;> infer_instance

/-- The code in the payload of an error. -/
def errorCode (response : ControlEnvelope) : Option String :=
  (response.payload.get "code").bind Json.asStr

/-- The codes of requests that are not accepted: the frame, its JSON, its
    version, its shape, its type, its session key or its lease. -/
def validationCodes : List String :=
  ["E_FRAME_TOO_LARGE", "E_BAD_MESSAGE", "E_UNSUPPORTED_VERSION", "E_UNKNOWN_TYPE",
    "E_INVALID_SESSION_KEY", "E_LEASE_NOT_FOUND"]

/-- The answer says that the request is not accepted. -/
def IsValidationError (response : ControlEnvelope) : Prop :=
  ∃ code ∈ validationCodes, errorCode response = some code

/-- The lease id that the counter gives out next is not that of a lease. -/
def NextIdFree (r : SessionRegistry) : Prop := r.leases.get? (leaseId r.leaseSeq) = none

/-- What an answer says about the registry. -/
def Settled (r r' : SessionRegistry) (response : ControlEnvelope) : Prop :=
  response.messageType = "Error" → Intact r r' ∧ (IsValidationError response → r' = r)

/-- How the registry stands to the one the request found, by how far the
    connection has come. -/
def Progress (r : SessionRegistry) (s : Control) : Prop :=
  match s.pc with
  | .reading => False
  | .attaching _ _ call => ∃ frame, s.world.calls.get? call = some frame ∧
      AttachAt r s.world.reg frame
  | .binding _ lease _ => Granted r s.world.reg lease.key lease
  | .unattaching _ _ call => NextIdFree r ∧ ∃ frame, s.world.calls.get? call = some frame ∧
      UnattachAt r s.world.reg frame
  | .releasing _ _ call => ∃ frame, s.world.calls.get? call = some frame ∧
      ReleaseAt r s.world.reg frame
  | .calling _ _ call => ∃ frame, s.world.calls.get? call = some frame ∧
      ForwardAt r s.world.reg frame
  | .notifying _ _ call => ∃ frame, s.world.calls.get? call = some frame ∧
      ForwardAt r s.world.reg frame
  | .sampling _ _ _ _ => True
  | .writing response _ => Settled r s.world.reg response
  | .returned _ => False

theorem errorCode_errorEnvelope (id : Option String) (code message : String) (retryable : Bool) :
    errorCode (errorEnvelope id code message retryable none) = some code := rfl

/-- The code of an error that is not a validation error. -/
theorem not_isValidationError (id : Option String) (code message : String) (retryable : Bool)
    (h : code ∉ validationCodes) :
    ¬IsValidationError (errorEnvelope id code message retryable none) := by
  rintro ⟨code', hmem, hcode⟩
  rw [errorCode_errorEnvelope, Option.some.injEq] at hcode
  rw [hcode] at h
  exact h hmem

theorem forwardError_not_isValidationError (kind : ForwardKind) (id : Option String)
    (message : String) : ¬IsValidationError (forwardError kind id message) := by
  unfold forwardError
  split
  · exact not_isValidationError id _ message true (by decide)
  · split
    · exact not_isValidationError id _ message true (by decide)
    · split
      · exact not_isValidationError id _ message true (by decide)
      · exact not_isValidationError id _ message true (by decide)

theorem settled_refl (r : SessionRegistry) (response : ControlEnvelope) :
    Settled r r response := fun _ => ⟨intact_refl r, fun _ => rfl⟩

theorem settled_same (r r' : SessionRegistry) (response : ControlEnvelope) (h : r' = r) :
    Settled r r' response := by
  rw [h]
  exact settled_refl r response

theorem settled_ok (r r' : SessionRegistry) (response : ControlEnvelope)
    (h : response.messageType ≠ "Error") : Settled r r' response :=
  fun herror => absurd herror h

theorem settled_error (r r' : SessionRegistry) (response : ControlEnvelope) (hintact : Intact r r')
    (h : ¬IsValidationError response) : Settled r r' response :=
  fun _ => ⟨hintact, fun hvalidation => absurd hvalidation h⟩

/-- A call that has been made, and has not begun. -/
theorem progress_await (s s' : Control) (call : CallId) (method : Method) (pc : ControlPc)
    (h : s.await call method pc = some s') :
    s'.pc = pc ∧ s'.world.reg = s.world.reg ∧
      s'.world.calls.get? call = some (method.frame s.world.now) := by
  unfold Control.await at h
  rcases Option.map_eq_some_iff.mp h with ⟨w, hw, rfl⟩
  simp only [World.step] at hw
  cases hcall : s.world.calls.get? call with
  | some frame =>
      rw [hcall] at hw
      exact absurd hw (by simp only [reduceCtorEq, not_false_eq_true])
  | none =>
      rw [hcall, Option.some.injEq] at hw
      rw [← hw]
      exact ⟨rfl, rfl, Table.get?_set_self _ _ _⟩

theorem progress_write (s : Control) (response : ControlEnvelope) (stop : Bool) :
    Progress s.world.reg (s.write response stop) := settled_refl s.world.reg response

theorem progress_written (s s' : Control) (response : ControlEnvelope) (stop : Bool)
    (h : some (s.write response stop) = some s') : Progress s.world.reg s' := by
  rw [Option.some.injEq] at h
  rw [← h]
  exact progress_write s response stop

theorem progress_dispatch (s s' : Control) (req : ControlEnvelope) (call : CallId)
    (h : s.dispatchControlRequest req call = some s') : Progress s.world.reg s' := by
  unfold Control.dispatchControlRequest at h
  split at h
  · unfold Control.dispatchAttach at h
    split at h
    · exact progress_written s s' _ _ h
    · split at h
      · exact progress_written s s' _ _ h
      · -- The call begins over the registry of the request: no core of it is touched yet.
        rcases progress_await s s' call _ _ h with ⟨hpc, hreg, hcall⟩
        unfold Progress
        rw [hpc]
        refine ⟨_, hcall, ?_⟩
        rw [hreg]
        exact ⟨rfl, rfl, rfl⟩
  · unfold Control.dispatchRelease at h
    split at h
    · exact progress_written s s' _ _ h
    · rcases progress_await _ s' call _ _ h with ⟨hpc, hreg, hcall⟩
      unfold Progress
      rw [hpc]
      exact ⟨_, hcall, hreg⟩
  · unfold Control.dispatchCall at h
    split at h
    · exact progress_written s s' _ _ h
    · rcases progress_await s s' call _ _ h with ⟨hpc, hreg, hcall⟩
      unfold Progress
      rw [hpc]
      exact ⟨_, hcall, hreg⟩
  · unfold Control.dispatchNotify at h
    split at h
    · exact progress_written s s' _ _ h
    · rcases progress_await s s' call _ _ h with ⟨hpc, hreg, hcall⟩
      unfold Progress
      rw [hpc]
      exact ⟨_, hcall, hreg⟩
  · -- Stats waits for the sample, and nothing is promised of it.
    rw [Option.some.injEq] at h
    rw [← h]
    trivial
  · -- Shutdown is answered either way, and changes no registry.
    rw [Option.some.injEq] at h
    rw [← h]
    unfold Control.dispatchShutdown
    split
    · exact settled_refl s.world.reg _
    · exact progress_write s _ _
  · exact progress_written s s' _ _ h

/-- What a line begins: a request is answered at once and changes nothing, or
    makes a registry call. -/
theorem progress_line (s s' : Control) (line : Line) (call : CallId)
    (h : s.handleLine line call = some s') : Progress s.world.reg s' := by
  unfold Control.handleLine at h
  split at h
  · exact progress_written s s' _ _ h
  · split at h
    · exact progress_written s s' _ _ h
    · simp only [] at h
      split at h
      · exact progress_written s s' _ _ h
      · split at h
        · exact progress_written s s' _ _ h
        · exact progress_dispatch s s' _ call h

/-- A step of the awaited call keeps what its sections keep. What comes back
    from outside, a spawned session or an answer, changes nothing yet. -/
theorem awaited_step (P : SessionRegistry → Frame → Prop)
    (hsection : ∀ call now r' r'' frame frame' events, P r' frame →
      frame.section call now r' = some (r'', frame', events) → P r'' frame')
    (hspawn : ∀ r' key clientKind g result,
      P r' (.acquire key clientKind (.spawning g)) →
        P r' (.acquire key clientKind (.leave g result)))
    (hanswer : ∀ r' kind id message key runtime response,
      P r' (.forward kind id message (.awaiting key runtime)) →
        P r' (.forward kind id message (.touch key response)))
    (hfailed : ∀ r' kind id message key runtime error,
      P r' (.forward kind id message (.awaiting key runtime)) →
        P r' (.forward kind id message (.returned (.error error))))
    (w w' : World) (a : Action) (call : CallId)
    (ha : a.mover = some call ∨ ∃ span, a = .tick span) (hstep : w.step a = some w')
    (h : ∃ frame, w.calls.get? call = some frame ∧ P w.reg frame) :
    ∃ frame, w'.calls.get? call = some frame ∧ P w'.reg frame := by
  rcases h with ⟨frame, hcall, hP⟩
  rcases ha with hmover | ⟨span, rfl⟩
  · cases a with
    -- Neither the clock nor a new call moves a call that is running.
    | tick span =>
        exact absurd hmover (by simp only [Action.mover, reduceCtorEq, not_false_eq_true])
    | start c m =>
        exact absurd hmover (by simp only [Action.mover, reduceCtorEq, not_false_eq_true])
    | sect c =>
        rw [Action.mover, Option.some.injEq] at hmover
        simp only [World.step, hmover, hcall, Option.map_eq_some_iff, Prod.exists] at hstep
        rcases hstep with ⟨r', frame', events, hsec, rfl⟩
        exact ⟨frame', Table.get?_set_self _ _ _,
          hsection call w.now w.reg r' frame frame' events hP hsec⟩
    | spawnReturns c result =>
        rw [Action.mover, Option.some.injEq] at hmover
        simp only [World.step, hmover, hcall] at hstep
        split at hstep
        · rename_i key clientKind g heq
          rw [Option.some.injEq] at heq hstep
          rw [heq] at hP
          rw [← hstep]
          cases result with
          | ok initializeResult =>
              exact ⟨_, Table.get?_set_self _ _ _, hspawn w.reg key clientKind g _ hP⟩
          | error error =>
              exact ⟨_, Table.get?_set_self _ _ _, hspawn w.reg key clientKind g _ hP⟩
        · exact absurd hstep (by simp only [reduceCtorEq, not_false_eq_true])
    | runtimeReturns c result =>
        rw [Action.mover, Option.some.injEq] at hmover
        simp only [World.step, hmover, hcall] at hstep
        split at hstep
        · rename_i kind id message key runtime heq
          rw [Option.some.injEq] at heq hstep
          rw [heq] at hP
          rw [← hstep]
          cases result with
          | ok response =>
              exact ⟨_, Table.get?_set_self _ _ _,
                hanswer w.reg kind id message key runtime response hP⟩
          | error error =>
              exact ⟨_, Table.get?_set_self _ _ _,
                hfailed w.reg kind id message key runtime error hP⟩
        · exact absurd hstep (by simp only [reduceCtorEq, not_false_eq_true])
  · simp only [World.step, Option.some.injEq] at hstep
    rw [← hstep]
    exact ⟨frame, hcall, hP⟩

theorem attachAt_awaited (r : SessionRegistry) (w w' : World) (a : Action) (call : CallId)
    (ha : a.mover = some call ∨ ∃ span, a = .tick span) (hstep : w.step a = some w')
    (h : ∃ frame, w.calls.get? call = some frame ∧ AttachAt r w.reg frame) :
    ∃ frame, w'.calls.get? call = some frame ∧ AttachAt r w'.reg frame :=
  awaited_step (AttachAt r)
    (fun call now r' r'' frame frame' events => attachAt_section call now r r' r'' frame frame'
      events)
    (fun _ _ _ _ _ h => h) (fun _ _ _ _ _ _ _ h => h.elim) (fun _ _ _ _ _ _ _ h => h.elim)
    w w' a call ha hstep h

theorem unattachAt_awaited (r : SessionRegistry) (hfree : NextIdFree r) (w w' : World)
    (a : Action) (call : CallId) (ha : a.mover = some call ∨ ∃ span, a = .tick span)
    (hstep : w.step a = some w')
    (h : ∃ frame, w.calls.get? call = some frame ∧ UnattachAt r w.reg frame) :
    ∃ frame, w'.calls.get? call = some frame ∧ UnattachAt r w'.reg frame :=
  awaited_step (UnattachAt r)
    (fun call now r' r'' frame frame' events => unattachAt_section call now r r' r'' frame frame'
      events hfree)
    (fun _ _ _ _ _ h => h.elim) (fun _ _ _ _ _ _ _ h => h.elim) (fun _ _ _ _ _ _ _ h => h.elim)
    w w' a call ha hstep h

theorem releaseAt_awaited (r : SessionRegistry) (w w' : World) (a : Action) (call : CallId)
    (ha : a.mover = some call ∨ ∃ span, a = .tick span) (hstep : w.step a = some w')
    (h : ∃ frame, w.calls.get? call = some frame ∧ ReleaseAt r w.reg frame) :
    ∃ frame, w'.calls.get? call = some frame ∧ ReleaseAt r w'.reg frame :=
  awaited_step (ReleaseAt r)
    (fun call now r' r'' frame frame' events => releaseAt_section call now r r' r'' frame frame'
      events)
    (fun _ _ _ _ _ h => h.elim) (fun _ _ _ _ _ _ _ h => h.elim) (fun _ _ _ _ _ _ _ h => h.elim)
    w w' a call ha hstep h

theorem forwardAt_awaited (r : SessionRegistry) (w w' : World) (a : Action) (call : CallId)
    (ha : a.mover = some call ∨ ∃ span, a = .tick span) (hstep : w.step a = some w')
    (h : ∃ frame, w.calls.get? call = some frame ∧ ForwardAt r w.reg frame) :
    ∃ frame, w'.calls.get? call = some frame ∧ ForwardAt r w'.reg frame :=
  awaited_step (ForwardAt r)
    (fun call now r' r'' frame frame' events => forwardAt_section call now r r' r'' frame frame'
      events)
    (fun _ _ _ _ _ h => h.elim) (fun _ _ _ _ _ _ _ h => h) (fun _ _ _ _ _ _ _ h => h)
    w w' a call ha hstep h

/-- A step of the world that moves only the awaited call. -/
theorem progress_world (r : SessionRegistry) (s : Control) (a : Action) (w : World)
    (hstep : s.world.step a = some w) (halone : Unaccompanied s (.world a)) (h : Progress r s) :
    Progress r { s with world := w } := by
  have hmover : a.mover = s.pc.awaited ∨ ∃ span, a = .tick span := by
    cases a with
    | tick span => exact Or.inr ⟨span, rfl⟩
    | start c m => exact Or.inl halone.2
    | sect c => exact Or.inl halone.2
    | spawnReturns c result => exact Or.inl halone.2
    | runtimeReturns c result => exact Or.inl halone.2
  have hmoves : ∀ call, s.pc.awaited = some call →
      a.mover = some call ∨ ∃ span, a = .tick span := by
    intro call hcall
    rw [← hcall]
    exact hmover
  -- A connection that awaits no call lets only time pass.
  have hsame : s.pc.awaited = none → w.reg = s.world.reg := by
    intro hnone
    cases a with
    | tick span =>
        simp only [World.step, Option.some.injEq] at hstep
        rw [← hstep]
    | _ =>
        rcases halone with ⟨hsome, heq⟩
        rw [heq, hnone] at hsome
        exact absurd hsome (by simp only [Option.isSome_none, Bool.false_eq_true,
          not_false_eq_true])
  unfold Progress at h ⊢
  simp only []
  cases hpc : s.pc with
  | reading => rw [hpc] at h; exact h
  | attaching id mode call =>
      rw [hpc] at h hmoves
      exact attachAt_awaited r s.world w a call (hmoves call rfl) hstep h
  | binding id lease handle =>
      rw [hpc] at h hsame
      simp only [hsame rfl]
      exact h
  | unattaching id error call =>
      rw [hpc] at h hmoves
      exact ⟨h.1, unattachAt_awaited r h.1 s.world w a call (hmoves call rfl) hstep h.2⟩
  | releasing id leaseId call =>
      rw [hpc] at h hmoves
      exact releaseAt_awaited r s.world w a call (hmoves call rfl) hstep h
  | calling id leaseId call =>
      rw [hpc] at h hmoves
      exact forwardAt_awaited r s.world w a call (hmoves call rfl) hstep h
  | notifying id leaseId call =>
      rw [hpc] at h hmoves
      exact forwardAt_awaited r s.world w a call (hmoves call rfl) hstep h
  | sampling id sessions leases counters => trivial
  | writing response stop =>
      rw [hpc] at h hsame
      simp only [hsame rfl]
      exact h
  | returned ok => rw [hpc] at h; exact h

/-- What the connection makes of the call that has returned. -/
theorem progress_resume (r : SessionRegistry) (s s' : Control) (hstep : s.resume = some s')
    (h : Progress r s) : Progress r s' := by
  unfold Progress at h
  unfold Control.resume at hstep
  cases hpc : s.pc with
  | attaching id mode call =>
      simp only [hpc] at h hstep
      rcases h with ⟨frame, hcall, hat⟩
      rw [hcall] at hstep
      split at hstep
      · -- The attach failed: only the gate and the counters have moved.
        rename_i key clientKind error heq
        rw [Option.some.injEq] at heq hstep
        rw [heq] at hat
        have hcore : SameCore r s.world.reg := hat
        rw [← hstep]
        exact settled_error r _ _ (intact_of_eq r _ hcore.leases hcore.sessions)
          (not_isValidationError id _ _ true (by decide))
      · rename_i lease handle heq
        rw [Option.some.injEq] at heq hstep
        rw [heq] at hat
        rcases hat with ⟨hhandle, hgranted⟩
        rw [← hstep]
        unfold Control.attached
        cases handle with
        -- Alone, the attach finds the session it was granted.
        | none => exact absurd hhandle (by simp only [Option.isSome_none, Bool.false_eq_true,
            not_false_eq_true])
        | some handle =>
            cases mode with
            | dedicated => exact hgranted
            | muxControl =>
                exact settled_ok r _ _ (by simp only [okEnvelope]; decide)
      · exact absurd hstep (by simp only [reduceCtorEq, not_false_eq_true])
  | unattaching id error call =>
      simp only [hpc] at h hstep
      rcases h with ⟨-, frame, hcall, hat⟩
      rw [hcall] at hstep
      split at hstep
      · -- The lease has been given back, whatever the release answered.
        rename_i leaseId result heq
        rw [Option.some.injEq] at heq hstep
        rw [heq] at hat
        rw [← hstep]
        exact settled_error r _ _ hat (not_isValidationError id _ _ true (by decide))
      · exact absurd hstep (by simp only [reduceCtorEq, not_false_eq_true])
  | releasing id leaseId call =>
      simp only [hpc] at h hstep
      rcases h with ⟨frame, hcall, hat⟩
      rw [hcall] at hstep
      split at hstep
      · rw [Option.some.injEq] at hstep
        rw [← hstep]
        exact settled_ok r _ _ (by simp only [okEnvelope]; decide)
      · -- `LeaseNotFound` is found out before anything is written.
        rename_i leaseId' heq
        rw [Option.some.injEq] at heq hstep
        rw [heq] at hat
        rw [← hstep]
        exact settled_same r s.world.reg _ hat
      · exact absurd hstep (by simp only [reduceCtorEq, not_false_eq_true])
  | calling id leaseId call =>
      simp only [hpc] at h hstep
      rcases h with ⟨frame, hcall, hat⟩
      rw [hcall] at hstep
      split at hstep
      · rw [Option.some.injEq] at hstep
        rw [← hstep]
        exact settled_ok r _ _ (by simp only [okEnvelope]; decide)
      · rename_i kind id' message heq
        rw [Option.some.injEq] at heq hstep
        rw [heq] at hat
        rw [← hstep]
        exact settled_same r s.world.reg _ hat
      · rename_i kind id' message error heq
        rw [Option.some.injEq] at heq hstep
        rw [heq] at hat
        rw [← hstep]
        exact settled_error r _ _ hat (forwardError_not_isValidationError .call id error)
      · exact absurd hstep (by simp only [reduceCtorEq, not_false_eq_true])
  | notifying id leaseId call =>
      simp only [hpc] at h hstep
      rcases h with ⟨frame, hcall, hat⟩
      rw [hcall] at hstep
      split at hstep
      · rw [Option.some.injEq] at hstep
        rw [← hstep]
        exact settled_ok r _ _ (by simp only [okEnvelope]; decide)
      · rename_i kind id' message heq
        rw [Option.some.injEq] at heq hstep
        rw [heq] at hat
        rw [← hstep]
        exact settled_same r s.world.reg _ hat
      · rename_i kind id' message error heq
        rw [Option.some.injEq] at heq hstep
        rw [heq] at hat
        rw [← hstep]
        exact settled_error r _ _ hat (forwardError_not_isValidationError .notify id error)
      · exact absurd hstep (by simp only [reduceCtorEq, not_false_eq_true])
  | reading => simp only [hpc, reduceCtorEq] at hstep
  | binding id lease handle => simp only [hpc, reduceCtorEq] at hstep
  | sampling id sessions leases counters => simp only [hpc, reduceCtorEq] at hstep
  | writing response stop => simp only [hpc, reduceCtorEq] at hstep
  | returned ok => simp only [hpc, reduceCtorEq] at hstep

/-- What the connection makes of the endpoint: without one, the lease is
    released again. -/
theorem progress_bound (r : SessionRegistry) (s s' : Control) (endpoint : Except String String)
    (call : CallId) (hstep : s.bound endpoint call = some s')
    (hfree : (∃ error, endpoint = .error error) → NextIdFree r) (h : Progress r s) :
    Progress r s' := by
  unfold Progress at h
  unfold Control.bound at hstep
  split at hstep
  · rw [Option.some.injEq] at hstep
    rw [← hstep]
    exact settled_ok r _ _ (by simp only [okEnvelope]; decide)
  · rename_i id lease handle error hpc
    rw [hpc] at h
    rcases progress_await s s' call _ _ hstep with ⟨hpc', hreg, hcall⟩
    unfold Progress
    rw [hpc']
    refine ⟨hfree ⟨error, rfl⟩, _, hcall, ?_⟩
    rw [hreg]
    exact ⟨lease, rfl, h⟩
  · exact absurd hstep (by simp only [reduceCtorEq, not_false_eq_true])

theorem progress_step (r : SessionRegistry) (s s' : Control) (a : ControlAction)
    (h : Progress r s) (hstep : s.step a = some s')
    (hcond : Unaccompanied s a ∧ (∀ error call, a = .bound (.error error) call → NextIdFree r)) :
    Progress r s' := by
  cases a with
  | world a =>
      rcases Option.map_eq_some_iff.mp hstep with ⟨w, hw, rfl⟩
      exact progress_world r s a w hw hcond.1 h
  | line line call =>
      unfold Progress at h
      simp only [Control.step] at hstep
      cases hpc : s.pc with
      | reading =>
          rw [hpc] at h
          exact h.elim
      | _ => simp only [hpc, reduceCtorEq] at hstep
  | eof =>
      unfold Progress at h
      simp only [Control.step] at hstep
      cases hpc : s.pc with
      | reading =>
          rw [hpc] at h
          exact h.elim
      | _ => simp only [hpc, reduceCtorEq] at hstep
  | readError =>
      unfold Progress at h
      simp only [Control.step] at hstep
      cases hpc : s.pc with
      | reading =>
          rw [hpc] at h
          exact h.elim
      | _ => simp only [hpc, reduceCtorEq] at hstep
  | resume => exact progress_resume r s s' hstep h
  | bound endpoint call =>
      refine progress_bound r s s' endpoint call hstep ?_ h
      rintro ⟨error, rfl⟩
      exact hcond.2 error call rfl
  | sampled memoryTotal =>
      simp only [Control.step, Control.sampled] at hstep
      split at hstep
      · rw [Option.some.injEq] at hstep
        rw [← hstep]
        exact settled_ok r _ _ (by simp only [okEnvelope]; decide)
      · exact absurd hstep (by simp only [reduceCtorEq, not_false_eq_true])
  | wrote ok => exact hcond.1.elim

/-- A request, from its line to its answer, with nothing else going on. If the
    answer is an `Error`, the leases and the counts are those before, a session
    made for it counts none, and the accounting is kept; if it is one of
    validation, the whole registry is. Where the endpoint of the attach cannot
    be created, the lease id given out for it must have been free. -/
theorem failed_request (s t : Control) (line : Line) (call : CallId)
    (actions : List ControlAction) (response : ControlEnvelope) (stop : Bool)
    (haccounted : s.world.Accounted)
    (hrun : run Control.step s (.line line call :: actions) = some t)
    (halone : Along Control.step Unaccompanied s (.line line call :: actions))
    (hpc : t.pc = .writing response stop) (herror : response.messageType = "Error")
    (hfree : (∃ error c, ControlAction.bound (.error error) c ∈ actions) →
      NextIdFree s.world.reg) :
    Intact s.world.reg t.world.reg ∧ t.world.Accounted ∧
      (IsValidationError response → t.world.reg = s.world.reg) := by
  rcases exists_of_run_cons _ actions s t hrun with ⟨s₁, hfirst, hrest⟩
  have hbegun : Progress s.world.reg s₁ := by
    simp only [Control.step] at hfirst
    split at hfirst
    · exact progress_line s s₁ line call hfirst
    · exact absurd hfirst (by simp only [reduceCtorEq, not_false_eq_true])
  have hcond := along_and actions s₁ (halone s₁ hfirst).2
    (along_of_forall (C := fun a => ∀ error c, a = ControlAction.bound (.error error) c →
      NextIdFree s.world.reg) actions s₁
      (fun a ha error c heq => hfree ⟨error, c, heq ▸ ha⟩))
  have hend : Progress s.world.reg t :=
    run_invariant (fun u a u' hI hstep hC => progress_step s.world.reg u u' a hI hstep hC)
      actions s₁ t hrest hbegun hcond
  unfold Progress at hend
  rw [hpc] at hend
  rcases hend herror with ⟨hintact, hsame⟩
  exact ⟨hintact, accounted_of_intact s.world t.world hintact haccounted, hsame⟩

/-- An `Attach` that asks for a dedicated stream. -/
def dedicatedLine : Line where
  len := 240
  parsed := some (.obj [("id", .str "1"),
    ("payload", .obj [
      ("capabilities", .obj [("stream_mode", .arr [.str "dedicated"])]),
      ("client_meta", .obj [("client_name", .str "editor"), ("client_version", .str "1.0")]),
      ("session_key", .obj [("config_hash", .str "hash"), ("lsp_id", .str "rust-analyzer"),
        ("project_root", .str "/project")])]),
    ("type", .str "Attach"), ("v", .num 1)])

/-- The session is spawned, and then its endpoint cannot be created. -/
def endpointFails : List ControlAction :=
  (acquireFresh 0).tail.map .world ++ [.world (.sect 0), .resume, .bound (.error "denied") 1] ++
    (releaseAll 1 "lease_1").tail.map .world ++ [.resume]

theorem endpointFails_isSome :
    (run Control.step (Control.accept (World.init 5) ⟨none, none, 5⟩ 0)
      (.line dedicatedLine 0 :: endpointFails)).isSome = true := by
  decide

theorem failed_request_endpointFails :
    Intact (World.init 5).reg
      ((run Control.step (Control.accept (World.init 5) ⟨none, none, 5⟩ 0)
        (.line dedicatedLine 0 :: endpointFails)).get endpointFails_isSome).world.reg := by
  refine (failed_request (Control.accept (World.init 5) ⟨none, none, 5⟩ 0) _ dedicatedLine 0
    endpointFails (errorEnvelope (some "1") "E_INTERNAL"
      "failed to create dedicated stream endpoint: denied" true none) false ?_
    (Option.some_get endpointFails_isSome).symm (by decide) rfl rfl (fun _ => rfl)).1
  refine ⟨fun id lease h => ?_, fun key record h => ?_⟩
  · exact absurd h (by simp only [Control.accept, World.init, SessionRegistry.withIdleTtl,
      Table.get?_empty, reduceCtorEq, not_false_eq_true])
  · exact absurd h (by simp only [Control.accept, World.init, SessionRegistry.withIdleTtl,
      Table.get?_empty, reduceCtorEq, not_false_eq_true])

/-- A registry in which the counter has wrapped around and is about to give out
    the id of a lease that is still out. -/
def wrappedRegistry : SessionRegistry :=
  { SessionRegistry.withIdleTtl 5 with
    sessions := Table.empty.set demoKey
      { SessionRecord.new { key := demoKey, runtime := 0, initializeResult := .null } 0 with
        refCount := 1 }
    leases := Table.empty.set "lease_1" { key := demoKey, clientKind := none } }

def wrappedWorld : World := { World.init 5 with reg := wrappedRegistry, nextRuntime := 1 }

theorem wrappedWorld_accounted : wrappedWorld.Accounted := by
  refine ⟨fun id lease h => ?_, fun key record h => ?_⟩
  · simp only [wrappedWorld, wrappedRegistry, Table.get?_set] at h ⊢
    by_cases hid : id = "lease_1"
    · rw [if_pos hid, Option.some.injEq] at h
      exact ⟨_, if_pos (by rw [← h])⟩
    · rw [if_neg hid, Table.get?_empty] at h
      exact absurd h (by simp only [reduceCtorEq, not_false_eq_true])
  · simp only [wrappedWorld, wrappedRegistry, Table.get?_set] at h
    by_cases hkey : key = demoKey
    · rw [if_pos hkey, Option.some.injEq] at h
      rw [← h, hkey]
      rfl
    · rw [if_neg hkey, Table.get?_empty] at h
      exact absurd h (by simp only [reduceCtorEq, not_false_eq_true])

/-- The session is reused, and then its endpoint cannot be created. -/
def reuseFails : List ControlAction :=
  (acquireReuse 0).tail.map .world ++ [.world (.sect 0), .resume, .bound (.error "denied") 1] ++
    (releaseAll 1 "lease_1").tail.map .world ++ [.resume]

theorem reuseFails_isSome :
    (run Control.step (Control.accept wrappedWorld ⟨none, none, 5⟩ 0)
      (.line dedicatedLine 0 :: reuseFails)).isSome = true := by
  decide

/-- A failed attach can take along a lease that another client holds. -/
theorem reusedLease_lost :
    ¬∀ (s t : Control) (line : Line) (call : CallId) (actions : List ControlAction)
      (response : ControlEnvelope) (stop : Bool), s.world.Accounted →
      run Control.step s (.line line call :: actions) = some t →
      Along Control.step Unaccompanied s (.line line call :: actions) →
      t.pc = .writing response stop → response.messageType = "Error" →
      Intact s.world.reg t.world.reg ∧ t.world.Accounted := by
  intro hall
  have hintact := (hall (Control.accept wrappedWorld ⟨none, none, 5⟩ 0) _ dedicatedLine 0
    reuseFails (errorEnvelope (some "1") "E_INTERNAL"
      "failed to create dedicated stream endpoint: denied" true none) false
    wrappedWorld_accounted (Option.some_get reuseFails_isSome).symm (by decide) rfl rfl).1
  have hlost : ((run Control.step (Control.accept wrappedWorld ⟨none, none, 5⟩ 0)
      (.line dedicatedLine 0 :: reuseFails)).get reuseFails_isSome).world.reg.leases.get?
        "lease_1" = none := by decide
  have hkept := hintact.leases "lease_1"
  rw [hlost] at hkept
  exact absurd hkept (by decide)

end Lspee
