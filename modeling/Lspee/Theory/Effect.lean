import Lspee.Core.Tasks

/-!
# What One Step Does

A call has some thirty sections, but for the accounting of leases only seven of
them matter: a grant on a session that is there, a grant that registers a
session, the two halves of a release and the two halves of a removal. All the
others are quiet. They may touch a session, mark it, move a gate or write a
counter, but every session keeps its handle and its count, the leases stay what
they are, and nothing is granted.

`section_effect` proves this once, by going through the sections. Every
invariant of the registry is then a case analysis over `Effect`, and none of
them unfolds a section again. `step_effect` lifts it to the world, where a step
is the clock, a call that begins, a spawn that succeeds, or an effect.

## Main definitions

* `SessionRecord.core`: The part of a record that a quiet section keeps.
* `Frame.releasing`, `Frame.clearing`: The call is between the two halves of a
  release, or of a removal.
* `Frame.pending`: The handle an acquire has spawned and not published.
* `Frame.holding`: The lease a call will look a session up for.
* `Event.grants`: The event is a grant or a registration.
* `Kept`, `Routed`: What a quiet section leaves, and how it uses a lease.
* `Effect`: What a section does.
* `StepEffect`: What a step of the world does.

## Theorems

* `section_acquire`: The sections of an attach.
* `section_effect`: Every section has an effect.
* `get?_grantLease`, `get?_releaseSession`, `get?_removeSession`: The records
  the sections that are not quiet leave.
* `sect_of_mover`: A call that awaits nothing is moved by its sections.
* `step_effect`: Every step of the world has one.
-/

namespace Lspee

/-- The handle and the count. -/
def SessionRecord.core (record : SessionRecord) : SessionHandle × Nat :=
  (record.handle, record.refCount)

@[simp]
theorem SessionRecord.core_touch (record : SessionRecord) (now : Instant) :
    (record.touch now).core = record.core := rfl

namespace Frame

/-- The lease and the key of a release that has taken the lease and not yet
    counted it off. -/
def releasing : Frame → Option (String × SessionKey)
  | .release id (.decrement key) => some (id, key)
  | _ => none

/-- The key of a removal that has dropped the session and not yet the leases. -/
def clearing : Frame → Option SessionKey
  | .remove key .leases => some key
  | _ => none

/-- The handle an acquire has spawned and not yet published, with the key it
    will be published under. -/
def pending : Frame → Option (SessionKey × SessionHandle)
  | .acquire key _ (.leave _ (.ok handle)) => some (key, handle)
  | .acquire key _ (.publish handle) => some (key, handle)
  | _ => none

/-- The lease a call will look a session up for, and the key it will look
    under: a forwarded message after its first lookup, or an attach that has its
    lease and not yet its handle. -/
def holding : Frame → Option (String × SessionKey)
  | .forward _ id _ (.session key) => some (id, key)
  | .acquire key _ (.returned (.ok lease)) => some (lease.id, key)
  | _ => none

end Frame

/-- The event is a grant or a registration. -/
def Event.grants : Event → Bool
  | .granted _ _ _ => true
  | .registered _ _ => true
  | _ => false

/-- The event names a handle: a message is forwarded, an attach answered or a
    runtime spawned. -/
def Event.routes : Event → Bool
  | .forwarded _ _ _ _ => true
  | .attachOk _ _ _ => true
  | .spawnOk _ _ => true
  | _ => false

/-- What a section leaves of a record: its handle, its count, and its mark
    unless the section selects the session. -/
structure Kept (r r' : SessionRegistry) (events : List Event) : Prop where
  core : ∀ key, (r'.sessions.get? key).map SessionRecord.core
    = (r.sessions.get? key).map SessionRecord.core
  marked : ∀ key record record', r.sessions.get? key = some record →
    r'.sessions.get? key = some record' → record.terminating = true → record'.terminating = true
  selects : ∀ key record record', r.sessions.get? key = some record →
    r'.sessions.get? key = some record' → record'.terminating = true →
      record.terminating = true ∨ Event.selected record.handle.runtime ∈ events
  selected : ∀ runtime, Event.selected runtime ∈ events →
    ∃ key record', r'.sessions.get? key = some record' ∧ record'.handle.runtime = runtime ∧
      record'.terminating = true

/-- How a quiet section uses a lease: it looks the lease up, or it looks up the
    session under the key that it got for the lease. -/
structure Routed (r : SessionRegistry) (frame frame' : Frame) (events : List Event) : Prop where
  holding : ∀ held, frame'.holding = some held → frame.holding = some held ∨
    ∃ lease, r.leases.get? held.1 = some lease ∧ lease.key = held.2
  forwarded : ∀ call id runtime message, Event.forwarded call id runtime message ∈ events →
    ∃ key record, frame.holding = some (id, key) ∧ r.sessions.get? key = some record ∧
      record.handle.runtime = runtime
  attached : ∀ call lease handle, Event.attachOk call lease handle ∈ events →
    ∃ key record, frame.holding = some (lease.id, key) ∧ r.sessions.get? key = some record ∧
      record.handle = handle
  spawned : ∀ call handle, Event.spawnOk call handle ∉ events

/-- What a section does to the leases and the sessions. -/
inductive Effect (call : CallId) (now : Instant) (r : SessionRegistry) :
    Frame → SessionRegistry → Frame → List Event → Prop where
  /-- Sessions keep their handles and counts, and no lease changes. -/
  | quiet (frame frame' : Frame) (r' : SessionRegistry) (events : List Event)
      (hkept : Kept r r' events) (hleases : r'.leases = r.leases)
      (hseq : r'.leaseSeq = r.leaseSeq) (hlog : ∀ event ∈ events, event.grants = false)
      (hrel : frame.releasing = none) (hrel' : frame'.releasing = none)
      (hclear : frame.clearing = none) (hclear' : frame'.clearing = none)
      (hpend : ∀ spawned, frame'.pending = some spawned → frame.pending = some spawned)
      (hroute : Routed r frame frame' events) :
      Effect call now r frame r' frame' events
  /-- A lease is granted on the session found under the key. -/
  | grant (key : SessionKey) (clientKind : Option ClientKind) (pc : AcquirePc)
      (record : SessionRecord) (counters : RegistryCounters)
      (hrecord : r.sessions.get? key = some record)
      (hpc : (∃ g, pc = .lookup g) ∨ ∃ handle, pc = .publish handle) :
      Effect call now r (.acquire key clientKind pc)
        (r.grantLease key clientKind record counters now).1
        (.acquire key clientKind (.returned (.ok { id := leaseId r.leaseSeq, key := key })))
        [.granted call { id := leaseId r.leaseSeq, key := key } record.handle.runtime]
  /-- A session is registered and a lease granted on it. -/
  | register (key : SessionKey) (clientKind : Option ClientKind) (handle : SessionHandle)
      (counters : RegistryCounters) (hnone : r.sessions.get? key = none) :
      Effect call now r (.acquire key clientKind (.publish handle))
        (r.grantLease key clientKind (SessionRecord.new handle now) counters now).1
        (.acquire key clientKind (.returned (.ok { id := leaseId r.leaseSeq, key := key })))
        [.granted call { id := leaseId r.leaseSeq, key := key } handle.runtime,
          .registered key handle.runtime]
  /-- A lease is taken out. -/
  | take (id : String) (lease : LeaseRecord) (hlease : r.leases.get? id = some lease) :
      Effect call now r (.release id .take) (r.eraseLease id)
        (.release id (.decrement lease.key)) []
  /-- A lease that was taken out is counted off. -/
  | decrement (id : String) (key : SessionKey) :
      Effect call now r (.release id (.decrement key)) (r.releaseSession key now).1
        (.release id (.returned (some (r.releaseSession key now).2))) []
  /-- A session is dropped. -/
  | removeSession (key : SessionKey) :
      Effect call now r (.remove key .session) (r.removeSession key) (.remove key .leases) []
  /-- The leases on a key are dropped. -/
  | removeLeases (key : SessionKey) :
      Effect call now r (.remove key .leases) ((r.removeLeases key).dropGate key)
        (.remove key .returned) []

theorem kept_refl (r : SessionRegistry) (events : List Event)
    (hsel : ∀ runtime, Event.selected runtime ∉ events) : Kept r r events where
  core := fun _ => rfl
  marked := by
    intro key record record' h h' hm
    rw [h, Option.some.injEq] at h'
    rw [← h']
    exact hm
  selects := by
    intro key record record' h h' hm
    rw [h, Option.some.injEq] at h'
    rw [h']
    exact Or.inl hm
  selected := fun runtime hmem => absurd hmem (hsel runtime)

/-- A registry with the same sessions keeps them. -/
theorem kept_of_sessions_eq (r r' : SessionRegistry) (events : List Event)
    (h : r'.sessions = r.sessions) (hsel : ∀ runtime, Event.selected runtime ∉ events) :
    Kept r r' events := by
  have hk := kept_refl r events hsel
  exact ⟨by rw [h]; exact hk.core, by rw [h]; exact hk.marked, by rw [h]; exact hk.selects,
    by rw [h]; exact hk.selected⟩

/-- Writing back a record with the same core and mark keeps the sessions. -/
theorem kept_set (r r' : SessionRegistry) (key : SessionKey) (record record' : SessionRecord)
    (events : List Event) (h : r.sessions.get? key = some record)
    (hr' : r'.sessions = r.sessions.set key record') (hcore : record'.core = record.core)
    (hmark : record'.terminating = record.terminating)
    (hsel : ∀ runtime, Event.selected runtime ∉ events) : Kept r r' events := by
  have hget : ∀ k u u', r.sessions.get? k = some u → r'.sessions.get? k = some u' →
      u'.terminating = u.terminating := by
    intro k u u' hu hu'
    rw [hr', Table.get?_set] at hu'
    by_cases hk : k = key
    · rw [if_pos hk, Option.some.injEq] at hu'
      rw [hk, h, Option.some.injEq] at hu
      rw [← hu, ← hu', hmark]
    · rw [if_neg hk, hu, Option.some.injEq] at hu'
      rw [hu']
  refine ⟨fun k => ?_, ?_, ?_, fun runtime hmem => absurd hmem (hsel runtime)⟩
  · rw [hr', Table.get?_set]
    by_cases hk : k = key
    · rw [if_pos hk, hk, h, Option.map_some, Option.map_some, hcore]
    · rw [if_neg hk]
  · intro k u u' hu hu' hm
    rw [hget k u u' hu hu']
    exact hm
  · intro k u u' hu hu' hm
    rw [hget k u u' hu hu'] at hm
    exact Or.inl hm

theorem kept_touch (r : SessionRegistry) (key : SessionKey) (now : Instant) :
    Kept r (r.touch key now) [] := by
  unfold SessionRegistry.touch
  cases h : r.sessions.get? key with
  | none => exact kept_refl r [] (fun _ => by simp)
  | some record => exact kept_set r _ key record _ [] h rfl rfl rfl (fun _ => by simp)

theorem kept_mark (r : SessionRegistry) (key : SessionKey) (notice : Option StreamErrorPayload) :
    Kept r (r.markTerminatingWithNotice key notice) (markEvents r key) := by
  unfold SessionRegistry.markTerminatingWithNotice markEvents SessionRegistry.instanceOf
  cases h : r.sessions.get? key with
  | none => exact kept_refl r [] (fun _ => by simp)
  | some record =>
      simp only [Option.map_some]
      refine ⟨fun k => ?_, ?_, ?_, ?_⟩
      · rw [Table.get?_set]
        by_cases hk : k = key
        · rw [if_pos hk, hk, h]
          rfl
        · rw [if_neg hk]
      · intro k u u' hu hu' hm
        rw [Table.get?_set] at hu'
        by_cases hk : k = key
        · rw [if_pos hk, Option.some.injEq] at hu'
          rw [← hu']
        · rw [if_neg hk, hu, Option.some.injEq] at hu'
          rw [← hu']
          exact hm
      · intro k u u' hu hu' hm
        rw [Table.get?_set] at hu'
        by_cases hk : k = key
        · rw [hk, h, Option.some.injEq] at hu
          rw [← hu]
          exact Or.inr List.mem_cons_self
        · rw [if_neg hk, hu, Option.some.injEq] at hu'
          rw [hu']
          exact Or.inl hm
      · intro runtime hmem
        rw [List.mem_singleton, Event.selected.injEq] at hmem
        exact ⟨key, _, Table.get?_set_self _ _ _, hmem.symm, rfl⟩

theorem kept_idle (r : SessionRegistry) (start : Instant) :
    Kept r (r.idleCandidates start).1
      ((r.idleCandidates start).2.map (fun handle => .selected handle.runtime)) := by
  have hget : ∀ k, (r.idleCandidates start).1.sessions.get? k
      = (r.sessions.get? k).map (fun record =>
        if r.isIdle start record then { record with terminating := true } else record) :=
    fun k => Table.get?_mapValues r.sessions _ k
  refine ⟨fun k => ?_, ?_, ?_, ?_⟩
  · rw [hget, Option.map_map]
    refine congrArg (fun f => (r.sessions.get? k).map f) (funext fun u => ?_)
    simp only [Function.comp_apply]
    split <;> rfl
  · intro k u u' hu hu' hm
    rw [hget, hu, Option.map_some, Option.some.injEq] at hu'
    rw [← hu']
    split
    · rfl
    · exact hm
  · intro k u u' hu hu' hm
    rw [hget, hu, Option.map_some, Option.some.injEq] at hu'
    by_cases hidle : r.isIdle start u = true
    · refine Or.inr (List.mem_map.mpr ⟨u.handle, ?_, rfl⟩)
      refine List.mem_map.mpr ⟨u, List.mem_filter.mpr ⟨?_, hidle⟩, rfl⟩
      exact (Table.mem_values_iff _ _).mpr ⟨k, hu⟩
    · rw [if_neg hidle] at hu'
      rw [hu']
      exact Or.inl hm
  · intro runtime hmem
    rcases List.mem_map.mp hmem with ⟨handle, hcand, heq⟩
    rcases List.mem_map.mp hcand with ⟨u, hu, rfl⟩
    rcases List.mem_filter.mp hu with ⟨hval, hidle⟩
    rcases (Table.mem_values_iff _ _).mp hval with ⟨k, hk⟩
    refine ⟨k, { u with terminating := true }, ?_, ?_, rfl⟩
    · rw [hget, hk, Option.map_some, if_pos hidle]
    · rw [Event.selected.injEq] at heq
      exact heq

/-- A section that holds no lease afterwards and names no handle. -/
theorem routed_plain (r : SessionRegistry) (frame frame' : Frame) (events : List Event)
    (hhold : frame'.holding = none) (hevents : ∀ event ∈ events, event.routes = false) :
    Routed r frame frame' events where
  holding := by
    intro held h
    rw [hhold] at h
    exact absurd h (by simp)
  forwarded := fun _ _ _ _ hmem => absurd (hevents _ hmem) (by simp [Event.routes])
  attached := fun _ _ _ hmem => absurd (hevents _ hmem) (by simp [Event.routes])
  spawned := fun _ _ hmem => absurd (hevents _ hmem) (by simp [Event.routes])

theorem selected_of_markEvents (r : SessionRegistry) (key : SessionKey) (event : Event)
    (h : event ∈ markEvents r key) : ∃ runtime, event = .selected runtime := by
  unfold markEvents at h
  split at h
  · exact ⟨_, List.mem_singleton.mp h⟩
  · exact absurd h (by simp)

/-! ### The sections, one method at a time -/

theorem acquire_effect (call : CallId) (now : Instant) (r r' : SessionRegistry)
    (key : SessionKey) (clientKind : Option ClientKind) (pc pc' : AcquirePc)
    (events : List Event)
    (h : pc.section call key clientKind now r = some (r', pc', events)) :
    Effect call now r (.acquire key clientKind pc) r' (.acquire key clientKind pc') events := by
  cases pc with
  | count =>
      simp only [AcquirePc.section, Option.some.injEq, Prod.mk.injEq] at h
      rcases h with ⟨rfl, rfl, rfl⟩
      exact .quiet _ _ _ _ (kept_of_sessions_eq _ _ _ rfl (by simp)) rfl rfl (by simp)
        rfl rfl rfl rfl (by simp [Frame.pending])
            (routed_plain _ _ _ _ rfl (by simp [Event.routes]))
  | gate =>
      simp only [AcquirePc.section, Option.some.injEq, Prod.mk.injEq] at h
      rcases h with ⟨rfl, rfl, rfl⟩
      have hkeep : (r.gateEntry key).1.sessions = r.sessions ∧
          (r.gateEntry key).1.leases = r.leases ∧ (r.gateEntry key).1.leaseSeq = r.leaseSeq := by
        unfold SessionRegistry.gateEntry
        split <;> exact ⟨rfl, rfl, rfl⟩
      exact .quiet _ _ _ _ (kept_of_sessions_eq _ _ _ hkeep.1 (by simp)) hkeep.2.1 hkeep.2.2
        (by simp) rfl rfl rfl rfl (by simp [Frame.pending])
            (routed_plain _ _ _ _ rfl (by simp [Event.routes]))
  | lookup g =>
      -- A session under the key is shared at once; without one the gate decides.
      cases hrec : r.sessions.get? key with
      | none =>
          simp only [AcquirePc.section, hrec, Option.some.injEq, Prod.mk.injEq] at h
          rcases h with ⟨rfl, rfl, rfl⟩
          exact .quiet _ _ _ _ (kept_refl _ _ (by simp)) rfl rfl (by simp) rfl rfl rfl rfl
            (by simp [Frame.pending])
            (routed_plain _ _ _ _ rfl (by simp [Event.routes]))
      | some record =>
          simp only [AcquirePc.section, hrec, Option.some.injEq, Prod.mk.injEq] at h
          rcases h with ⟨rfl, rfl, rfl⟩
          exact .grant key clientKind _ record _ hrec (Or.inl ⟨g, rfl⟩)
  | enter g =>
      by_cases hstarted : (r.gateHeap g).started = true
      · simp only [AcquirePc.section, SessionRegistry.enterGate, hstarted, if_true,
          Option.some.injEq, Prod.mk.injEq] at h
        rcases h with ⟨rfl, rfl, rfl⟩
        exact .quiet _ _ _ _ (kept_refl _ _ (by simp)) rfl rfl (by simp) rfl rfl rfl rfl
          (by simp [Frame.pending])
            (routed_plain _ _ _ _ rfl (by simp [Event.routes]))
      · simp only [AcquirePc.section, SessionRegistry.enterGate, hstarted, if_false,
          Bool.false_eq_true, Option.some.injEq, Prod.mk.injEq] at h
        rcases h with ⟨rfl, rfl, rfl⟩
        exact .quiet _ _ _ _ (kept_of_sessions_eq _ _ _ rfl (by simp)) rfl rfl
          (by simp [Event.grants]) rfl rfl rfl rfl (by simp [Frame.pending])
            (routed_plain _ _ _ _ rfl (by simp [Event.routes]))
  | spawning g => exact absurd h (by simp [AcquirePc.section])
  | leave g result =>
      cases result with
      | ok handle =>
          simp only [AcquirePc.section, Option.some.injEq, Prod.mk.injEq] at h
          rcases h with ⟨rfl, rfl, rfl⟩
          exact .quiet _ _ _ _ (kept_of_sessions_eq _ _ _ rfl (by simp)) rfl rfl (by simp)
            rfl rfl rfl rfl (by simp [Frame.pending])
            (routed_plain _ _ _ _ rfl (by simp [Event.routes]))
      | error error =>
          simp only [AcquirePc.section, Option.some.injEq, Prod.mk.injEq] at h
          rcases h with ⟨rfl, rfl, rfl⟩
          exact .quiet _ _ _ _ (kept_of_sessions_eq _ _ _ rfl (by simp)) rfl rfl (by simp)
            rfl rfl rfl rfl (by simp [Frame.pending])
            (routed_plain _ _ _ _ rfl (by simp [Event.routes]))
  | publish handle =>
      -- A record found here is kept, and the spawned handle is dropped for it.
      cases hrec : r.sessions.get? key with
      | none =>
          simp only [AcquirePc.section, SessionRegistry.publishSession,
            SessionRegistry.publishRecord, hrec, Option.getD_none, Option.isSome_none,
            Bool.false_eq_true, if_false, Option.some.injEq, Prod.mk.injEq] at h
          rcases h with ⟨rfl, rfl, rfl⟩
          exact .register key clientKind handle _ hrec
      | some record =>
          simp only [AcquirePc.section, SessionRegistry.publishSession,
            SessionRegistry.publishRecord, hrec, Option.getD_some, Option.isSome_some, if_true,
            Option.some.injEq, Prod.mk.injEq] at h
          rcases h with ⟨rfl, rfl, rfl⟩
          exact .grant key clientKind _ record _ hrec (Or.inr ⟨handle, rfl⟩)
  | dropGate error =>
      simp only [AcquirePc.section, Option.some.injEq, Prod.mk.injEq] at h
      rcases h with ⟨rfl, rfl, rfl⟩
      exact .quiet _ _ _ _ (kept_of_sessions_eq _ _ _ rfl (by simp)) rfl rfl (by simp)
        rfl rfl rfl rfl (by simp [Frame.pending])
            (routed_plain _ _ _ _ rfl (by simp [Event.routes]))
  | waiting g epoch =>
      simp only [AcquirePc.section] at h
      split at h
      · simp only [Option.some.injEq, Prod.mk.injEq] at h
        rcases h with ⟨rfl, rfl, rfl⟩
        exact .quiet _ _ _ _ (kept_refl _ _ (by simp)) rfl rfl (by simp) rfl rfl rfl rfl
          (by simp [Frame.pending])
            (routed_plain _ _ _ _ rfl (by simp [Event.routes]))
      · exact absurd h (by simp)
  | returned result => exact absurd h (by simp [AcquirePc.section])

theorem release_effect (call : CallId) (now : Instant) (r r' : SessionRegistry) (id : String)
    (pc pc' : ReleasePc) (h : pc.section id now r = some (r', pc')) :
    Effect call now r (.release id pc) r' (.release id pc') [] := by
  cases pc with
  | take =>
      cases hlease : r.leases.get? id with
      | none =>
          simp only [ReleasePc.section, SessionRegistry.takeLease, hlease, Option.some.injEq,
            Prod.mk.injEq] at h
          rcases h with ⟨rfl, rfl⟩
          exact .quiet _ _ _ _ (kept_refl _ _ (by simp)) rfl rfl (by simp) rfl rfl rfl rfl
            (by simp [Frame.pending])
            (routed_plain _ _ _ _ rfl (by simp [Event.routes]))
      | some lease =>
          simp only [ReleasePc.section, SessionRegistry.takeLease, hlease, Option.some.injEq,
            Prod.mk.injEq] at h
          rcases h with ⟨rfl, rfl⟩
          exact .take id lease hlease
  | decrement key =>
      simp only [ReleasePc.section, Option.some.injEq, Prod.mk.injEq] at h
      rcases h with ⟨rfl, rfl⟩
      exact .decrement id key
  | returned result => exact absurd h (by simp [ReleasePc.section])

theorem remove_effect (call : CallId) (now : Instant) (r r' : SessionRegistry)
    (key : SessionKey) (pc pc' : RemovePc) (h : pc.section key r = some (r', pc')) :
    Effect call now r (.remove key pc) r' (.remove key pc') [] := by
  cases pc with
  | session =>
      simp only [RemovePc.section, Option.some.injEq, Prod.mk.injEq] at h
      rcases h with ⟨rfl, rfl⟩
      exact .removeSession key
  | leases =>
      simp only [RemovePc.section, Option.some.injEq, Prod.mk.injEq] at h
      rcases h with ⟨rfl, rfl⟩
      exact .removeLeases key
  | returned => exact absurd h (by simp [RemovePc.section])

theorem forward_effect (call : CallId) (now : Instant) (r r' : SessionRegistry)
    (kind : ForwardKind) (id : String) (message : Json) (pc pc' : ForwardPc)
    (events : List Event) (h : pc.section call id message now r = some (r', pc', events)) :
    Effect call now r (.forward kind id message pc) r' (.forward kind id message pc') events := by
  -- A lookup writes at most the time of last use.
  have hkept : Kept r r' events ∧ r'.leases = r.leases ∧ r'.leaseSeq = r.leaseSeq ∧
      (∀ event ∈ events, event.grants = false) ∧
      Routed r (.forward kind id message pc) (.forward kind id message pc') events := by
    cases pc with
    | lease =>
        cases hkey : r.leaseKey id with
        | none =>
            simp only [ForwardPc.section, hkey, Option.some.injEq, Prod.mk.injEq] at h
            rcases h with ⟨rfl, rfl, rfl⟩
            exact ⟨kept_refl _ _ (by simp), rfl, rfl, by simp,
              routed_plain _ _ _ _ rfl (by simp)⟩
        | some key =>
            simp only [ForwardPc.section, hkey, Option.some.injEq, Prod.mk.injEq] at h
            rcases h with ⟨rfl, rfl, rfl⟩
            refine ⟨kept_refl _ _ (by simp), rfl, rfl, by simp, ?_, by simp, by simp, by simp⟩
            intro held hheld
            rw [Frame.holding, Option.some.injEq] at hheld
            rw [← hheld]
            exact Or.inr (Option.map_eq_some_iff.mp hkey)
    | session key =>
        cases hrec : r.sessions.get? key with
        | none =>
            simp only [ForwardPc.section, SessionRegistry.lookupRuntime, hrec, Option.some.injEq,
              Prod.mk.injEq] at h
            rcases h with ⟨rfl, rfl, rfl⟩
            exact ⟨kept_refl _ _ (by simp), rfl, rfl, by simp,
              routed_plain _ _ _ _ rfl (by simp)⟩
        | some record =>
            simp only [ForwardPc.section, SessionRegistry.lookupRuntime, hrec] at h
            by_cases hterm : record.terminating = true
            · cases hnotice : record.terminationNotice <;>
                simp only [hterm, if_true, hnotice, Option.some.injEq, Prod.mk.injEq] at h <;>
                rcases h with ⟨rfl, rfl, rfl⟩ <;>
                exact ⟨kept_refl _ _ (by simp), rfl, rfl, by simp,
                  routed_plain _ _ _ _ rfl (by simp)⟩
            · simp only [hterm, if_false, Bool.false_eq_true, Option.some.injEq,
                Prod.mk.injEq] at h
              rcases h with ⟨rfl, rfl, rfl⟩
              refine ⟨kept_set r _ key record _ _ hrec rfl rfl rfl (by simp), rfl, rfl,
                by simp [Event.grants], by simp [Frame.holding], ?_, by simp, by simp⟩
              intro c i rt m hmem
              rw [List.mem_singleton, Event.forwarded.injEq] at hmem
              rw [hmem.2.1, hmem.2.2.1]
              exact ⟨key, record, rfl, hrec, rfl⟩
    | awaiting key runtime => exact absurd h (by simp [ForwardPc.section])
    | touch key response =>
        simp only [ForwardPc.section, Option.some.injEq, Prod.mk.injEq] at h
        rcases h with ⟨rfl, rfl, rfl⟩
        refine ⟨kept_touch r key now, ?_, ?_, by simp, routed_plain _ _ _ _ rfl (by simp)⟩ <;>
          (unfold SessionRegistry.touch; split <;> rfl)
    | returned result => exact absurd h (by simp [ForwardPc.section])
  exact .quiet _ _ _ _ hkept.1 hkept.2.1 hkept.2.2.1 hkept.2.2.2.1 rfl rfl rfl rfl
    (by simp [Frame.pending]) hkept.2.2.2.2

/-- An acquire that has returned its lease is followed by the `get` of the attach. Any
    other runs a section of its own. -/
theorem section_acquire (call : CallId) (now : Instant) (r r' : SessionRegistry)
    (key : SessionKey) (clientKind : Option ClientKind) (pc : AcquirePc) (frame' : Frame)
    (events : List Event)
    (h : Frame.section call now r (.acquire key clientKind pc) = some (r', frame', events)) :
    (∃ lease, pc = .returned (.ok lease) ∧ r' = r ∧
      frame' = .attached lease (r.sessionHandle key) ∧
      events = (r.sessionHandle key).toList.map (.attachOk call lease)) ∨
    ∃ pc', pc.section call key clientKind now r = some (r', pc', events) ∧
      frame' = .acquire key clientKind pc' := by
  cases pc with
  | returned result =>
      cases result with
      | ok lease =>
          simp only [Frame.section, Option.some.injEq, Prod.mk.injEq] at h
          exact Or.inl ⟨lease, rfl, h.1.symm, h.2.1.symm, h.2.2.symm⟩
      | error error => exact absurd h (by simp [Frame.section, AcquirePc.section])
  | _ =>
      simp only [Frame.section, Option.map_eq_some_iff, Prod.exists, Prod.mk.injEq] at h
      rcases h with ⟨r₁, pc', evs, hsec, rfl, rfl, rfl⟩
      exact Or.inr ⟨pc', hsec, rfl⟩

/-- Every section has an effect. -/
theorem section_effect (call : CallId) (now : Instant) (r r' : SessionRegistry)
    (frame frame' : Frame) (events : List Event)
    (h : frame.section call now r = some (r', frame', events)) :
    Effect call now r frame r' frame' events := by
  cases frame with
  | acquire key clientKind pc =>
      rcases section_acquire call now r r' key clientKind pc frame' events h with
        ⟨lease, rfl, rfl, rfl, rfl⟩ | ⟨pc', hsec, rfl⟩
      · -- the attach looks the session up, and changes nothing
        refine .quiet _ _ _ _ (kept_refl _ _ ?_) rfl rfl ?_ rfl rfl rfl rfl
          (by simp [Frame.pending]) ⟨by simp [Frame.holding], ?_, ?_, ?_⟩
        · exact fun runtime hmem => by simp at hmem
        · intro event hmem
          rcases List.mem_map.mp hmem with ⟨_, _, rfl⟩
          rfl
        · exact fun _ _ _ _ hmem => by simp at hmem
        · intro c l handle hmem
          rcases List.mem_map.mp hmem with ⟨handle', hfound, heq⟩
          rw [Event.attachOk.injEq] at heq
          rcases Option.map_eq_some_iff.mp (Option.mem_toList.mp hfound)
            with ⟨record, hrec, hhandle⟩
          rw [← heq.2.1, ← heq.2.2]
          exact ⟨key, record, rfl, hrec, hhandle⟩
        · exact fun _ _ hmem => by simp at hmem
      · exact acquire_effect call now r r' key clientKind _ pc' events hsec
  | attached lease handle => exact absurd h (by simp [Frame.section])
  | release id pc =>
      simp only [Frame.section, Option.map_eq_some_iff, Prod.exists, Prod.mk.injEq] at h
      rcases h with ⟨r₁, pc', hsec, rfl, rfl, rfl⟩
      exact release_effect call now r r₁ id pc pc' hsec
  | remove key pc =>
      simp only [Frame.section, Option.map_eq_some_iff, Prod.exists, Prod.mk.injEq] at h
      rcases h with ⟨r₁, pc', hsec, rfl, rfl, rfl⟩
      exact remove_effect call now r r₁ key pc pc' hsec
  | forward kind id message pc =>
      simp only [Frame.section, Option.map_eq_some_iff, Prod.exists, Prod.mk.injEq] at h
      rcases h with ⟨r₁, pc', evs, hsec, rfl, rfl, rfl⟩
      exact forward_effect call now r r₁ kind id message pc pc' evs hsec
  | touch key returned =>
      cases returned with
      | true => exact absurd h (by simp [Frame.section])
      | false =>
          simp only [Frame.section, Bool.false_eq_true, if_false, Option.some.injEq,
            Prod.mk.injEq] at h
          rcases h with ⟨rfl, rfl, rfl⟩
          refine .quiet _ _ _ _ (kept_touch r key now) ?_ ?_ (by simp) rfl rfl rfl rfl
            (by simp [Frame.pending])
            (routed_plain _ _ _ _ rfl (by simp [Event.routes])) <;>
            (unfold SessionRegistry.touch; split <;> rfl)
  | mark key notice returned =>
      cases returned with
      | true => exact absurd h (by simp [Frame.section])
      | false =>
          simp only [Frame.section, Bool.false_eq_true, if_false, Option.some.injEq,
            Prod.mk.injEq] at h
          rcases h with ⟨rfl, rfl, rfl⟩
          refine .quiet _ _ _ _ (kept_mark r key notice) ?_ ?_ ?_ rfl rfl rfl rfl
            (by simp [Frame.pending]) (routed_plain _ _ _ _ rfl ?_)
          · unfold SessionRegistry.markTerminatingWithNotice
            split <;> rfl
          · unfold SessionRegistry.markTerminatingWithNotice
            split <;> rfl
          · intro event hmem
            rcases selected_of_markEvents r key event hmem with ⟨_, rfl⟩
            rfl
          · intro event hmem
            rcases selected_of_markEvents r key event hmem with ⟨_, rfl⟩
            rfl
  | idle start result =>
      cases result with
      | some handles => exact absurd h (by simp [Frame.section])
      | none =>
          simp only [Frame.section, Option.some.injEq, Prod.mk.injEq] at h
          rcases h with ⟨rfl, rfl, rfl⟩
          refine .quiet _ _ _ _ (kept_idle r start) rfl rfl ?_ rfl rfl rfl rfl
            (by simp [Frame.pending])
            (routed_plain _ _ _ _ rfl (by simp [Event.routes]))
          intro event hmem
          rcases List.mem_map.mp hmem with ⟨_, _, rfl⟩
          rfl
  | increment evictor returned =>
      cases returned with
      | true => exact absurd h (by simp [Frame.section])
      | false =>
          simp only [Frame.section, Bool.false_eq_true, if_false, Option.some.injEq,
            Prod.mk.injEq] at h
          rcases h with ⟨rfl, rfl, rfl⟩
          -- An increment touches the counters and nothing else.
          have hsame : (r.increment evictor).sessions = r.sessions ∧
              (r.increment evictor).leases = r.leases ∧
              (r.increment evictor).leaseSeq = r.leaseSeq := by
            cases evictor <;> exact ⟨rfl, rfl, rfl⟩
          exact .quiet _ _ _ _ (kept_of_sessions_eq _ _ _ hsame.1 (by simp)) hsame.2.1 hsame.2.2
            (by simp) rfl rfl rfl rfl (by simp [Frame.pending])
            (routed_plain _ _ _ _ rfl (by simp))
  | crash returned =>
      cases returned with
      | true => exact absurd h (by simp [Frame.section])
      | false =>
          simp only [Frame.section, Bool.false_eq_true, if_false, Option.some.injEq,
            Prod.mk.injEq] at h
          rcases h with ⟨rfl, rfl, rfl⟩
          exact .quiet _ _ _ _ (kept_of_sessions_eq _ _ _ rfl (by simp)) rfl rfl (by simp)
            rfl rfl rfl rfl (by simp [Frame.pending]) (routed_plain _ _ _ _ rfl (by simp))

/-! ### The records a section leaves -/

/-- A grant leaves an unmarked record under its key and the others as they
    are. -/
theorem get?_grantLease (r : SessionRegistry) (key : SessionKey)
    (clientKind : Option ClientKind) (record : SessionRecord) (counters : RegistryCounters)
    (now : Instant) (k : SessionKey) (u : SessionRecord)
    (hget : (r.grantLease key clientKind record counters now).1.sessions.get? k = some u) :
    (k = key ∧ u = record.grant now) ∨ (k ≠ key ∧ r.sessions.get? k = some u) := by
  rw [SessionRegistry.grantLease, Table.get?_set] at hget
  by_cases hk : k = key
  · rw [if_pos hk, Option.some.injEq] at hget
    exact Or.inl ⟨hk, hget.symm⟩
  · rw [if_neg hk] at hget
    exact Or.inr ⟨hk, hget⟩

/-- A release keeps the mark and the handle of every record. -/
theorem get?_releaseSession (r : SessionRegistry) (key : SessionKey) (now : Instant)
    (k : SessionKey) (u : SessionRecord)
    (hget : (r.releaseSession key now).1.sessions.get? k = some u) :
    ∃ u₀, r.sessions.get? k = some u₀ ∧ u₀.handle = u.handle ∧
      u₀.terminating = u.terminating := by
  unfold SessionRegistry.releaseSession at hget
  cases hrec : r.sessions.get? key with
  | none =>
      rw [hrec] at hget
      exact ⟨u, hget, rfl, rfl⟩
  | some record =>
      simp only [hrec, Table.get?_set] at hget
      by_cases hk : k = key
      · rw [if_pos hk, Option.some.injEq] at hget
        rw [hk, ← hget]
        exact ⟨record, hrec, rfl, rfl⟩
      · rw [if_neg hk] at hget
        exact ⟨u, hget, rfl, rfl⟩

theorem get?_removeSession (r : SessionRegistry) (key k : SessionKey) (u : SessionRecord)
    (hget : (r.removeSession key).sessions.get? k = some u) :
    k ≠ key ∧ r.sessions.get? k = some u := by
  rw [SessionRegistry.removeSession, Table.get?_erase] at hget
  by_cases hk : k = key
  · rw [if_pos hk] at hget
    exact absurd hget (by simp)
  · rw [if_neg hk] at hget
    exact ⟨hk, hget⟩

/-! ### The steps of the world -/

/-- The step that runs a call's next section. -/
theorem step_sect (w : World) (call : CallId) (frame frame' : Frame) (r' : SessionRegistry)
    (events : List Event) (hcall : w.calls.get? call = some frame)
    (hsec : frame.section call w.now w.reg = some (r', frame', events)) :
    w.step (.sect call) = some (w.moved call r' frame' events) := by
  simp only [World.step, hcall, hsec, Option.map_some]

/-- A call that awaits nothing outside the registry is moved only by its own
    sections. -/
theorem sect_of_mover (w w' : World) (a : Action) (call : CallId) (frame : Frame)
    (hmover : a.mover = some call) (hcall : w.calls.get? call = some frame)
    (hspawn : ∀ key clientKind g, frame ≠ .acquire key clientKind (.spawning g))
    (hawait : ∀ kind id message key runtime,
      frame ≠ .forward kind id message (.awaiting key runtime))
    (h : w.step a = some w') :
    ∃ r' frame' events, frame.section call w.now w.reg = some (r', frame', events) ∧
      w' = w.moved call r' frame' events := by
  cases a with
  | tick span => exact absurd hmover (by simp [Action.mover])
  | start c method => exact absurd hmover (by simp [Action.mover])
  | sect c =>
      rw [Action.mover, Option.some.injEq] at hmover
      simp only [World.step, hmover, hcall, Option.map_eq_some_iff, Prod.exists] at h
      rcases h with ⟨r', frame', events, hsec, rfl⟩
      exact ⟨r', frame', events, hsec, rfl⟩
  | spawnReturns c result =>
      rw [Action.mover, Option.some.injEq] at hmover
      simp only [World.step, hmover, hcall] at h
      split at h
      · rename_i key clientKind g heq
        exact absurd (Option.some.inj heq) (hspawn key clientKind g)
      · exact absurd h (by simp)
  | runtimeReturns c result =>
      rw [Action.mover, Option.some.injEq] at hmover
      simp only [World.step, hmover, hcall] at h
      split at h
      · rename_i kind id message key runtime heq
        exact absurd (Option.some.inj heq) (hawait kind id message key runtime)
      · exact absurd h (by simp)

/-- What a step of the world does. -/
inductive StepEffect (w : World) : Action → World → Prop where
  /-- Time passes. -/
  | tick (span : Duration) : StepEffect w (.tick span) { w with now := w.now + span }
  /-- A call begins. -/
  | start (call : CallId) (method : Method) (hfree : w.calls.get? call = none) :
      StepEffect w (.start call method) { w with calls := w.calls.set call (method.frame w.now) }
  /-- A call moves, with an effect on the registry. -/
  | move (a : Action) (call : CallId) (frame frame' : Frame) (r' : SessionRegistry)
      (events : List Event) (hmover : a.mover = some call)
      (hcall : w.calls.get? call = some frame)
      (heffect : Effect call w.now w.reg frame r' frame' events) :
      StepEffect w a (w.moved call r' frame' events)
  /-- A spawn closure returns a handle to a new runtime. -/
  | spawnOk (call : CallId) (key : SessionKey) (clientKind : Option ClientKind) (g : GateId)
      (initializeResult : Json)
      (hcall : w.calls.get? call = some (.acquire key clientKind (.spawning g))) :
      StepEffect w (.spawnReturns call (.ok initializeResult))
        (w.spawnReturn call key clientKind g (.ok initializeResult))

theorem step_effect (w w' : World) (a : Action) (h : w.step a = some w') :
    StepEffect w a w' := by
  cases a with
  | tick span =>
      simp only [World.step, Option.some.injEq] at h
      rw [← h]
      exact .tick span
  | start call method =>
      cases hcall : w.calls.get? call with
      | some frame => exact absurd h (by simp [World.step, hcall])
      | none =>
          simp only [World.step, hcall, Option.some.injEq] at h
          rw [← h]
          exact .start call method hcall
  | sect call =>
      cases hcall : w.calls.get? call with
      | none => exact absurd h (by simp [World.step, hcall])
      | some frame =>
          simp only [World.step, hcall, Option.map_eq_some_iff, Prod.exists] at h
          rcases h with ⟨r', frame', events, hsec, rfl⟩
          exact .move _ call frame frame' r' events rfl hcall
            (section_effect call w.now w.reg r' frame frame' events hsec)
  | spawnReturns call result =>
      simp only [World.step] at h
      split at h
      · rename_i key clientKind g hcall
        rw [Option.some.injEq] at h
        rw [← h]
        -- A spawned server takes the next handle; a failed one changes no registry.
        cases result with
        | ok initializeResult => exact .spawnOk call key clientKind g initializeResult hcall
        | error error =>
            exact .move _ call _ _ _ _ rfl hcall (.quiet _ _ _ _ (kept_refl _ _ (by simp)) rfl rfl
              (by simp [Event.grants]) rfl rfl rfl rfl (by simp [Frame.pending])
            (routed_plain _ _ _ _ rfl (by simp [Event.routes])))
      · exact absurd h (by simp)
  | runtimeReturns call result =>
      simp only [World.step] at h
      split at h
      · rename_i kind id message key runtime hcall
        rw [Option.some.injEq] at h
        rw [← h]
        cases result <;>
          exact .move _ call _ _ _ _ rfl hcall (.quiet _ _ _ _ (kept_refl _ _ (by simp)) rfl rfl
            (by simp) rfl rfl rfl rfl (by simp [Frame.pending])
            (routed_plain _ _ _ _ rfl (by simp [Event.routes])))
      · exact absurd h (by simp)

end Lspee
