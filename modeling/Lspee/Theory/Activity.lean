import Lspee.Core.Activity
import Lspee.Theory.Handshake

/-!
# Whether the Time of Last Use Keeps Up

Whether the record of a session says when it was last active.

A section of the registry that writes a record either stamps it with the present or
leaves its time alone (`section_stamped`). The time in a record is therefore the
time of the last section that stamped its session: one that granted or released a
lease on it, found it for a message, or touched it (`lastUsed_stamped`). A lease is
acquired or released, and a response returned, by a section that stamps the record
of the runtime in question: the record is found under a key, and no other key has
its runtime (`attends_stamps`). So what the registry does itself keeps the time up
to date.

A message on its way between a client and the server is not a matter of the
registry. The frames of a stream pass it by, and a `Call` or `Notify` is queued some
time after its session was looked up. The steps that put a client's message into the
queue, or write one of the server's to a client, are known (`passes_carries`), and
none of them is a section. The record is then up to date exactly if the session was
stamped at that very instant (`upToDate_iff`). A stream whose client sends a message
after a while breaks it (`stream_unnoticed`).

## Main definitions

* `Stamped`: What a section does to the times.
* `Routing`: A call has forwarded its message under its key.
* `UpToDate`: The property.
* `CarryCond`: The condition on a step.

## Theorems

* `section_stamped`, `step_stamped`: Every section and every step stamp.
* `routing_step`: Every step keeps `Routing`.
* `attends_stamps`: What the registry does itself is stamped.
* `passes_carries`: The steps that pass a message.
* `lastUsed_stamped`: What the time in a record is.
* `upToDate_iff`: The condition is exact.
* `idleFor_le`: What it means for the order of the victims.
* `stream_unnoticed`: A stream that breaks it.
-/

namespace Lspee

open Transition

/-! ### Stamps -/

/-- The session that is stamped has the present time afterwards. A record of another
    has the handle and the time of the one before. -/
def Stamped (now : Instant) (stamp : Option SessionKey) (r r' : SessionRegistry) : Prop :=
  ∀ key record', r'.sessions.get? key = some record' →
    (stamp = some key ∧ record'.lastUsed = now) ∨
      (stamp ≠ some key ∧ ∃ record, r.sessions.get? key = some record ∧
        record.handle = record'.handle ∧ record.lastUsed = record'.lastUsed)

theorem stamped_same (now : Instant) (r r' : SessionRegistry) (h : r'.sessions = r.sessions) :
    Stamped now none r r' := by
  intro key record' hget
  rw [h] at hget
  exact Or.inr ⟨by simp, record', hget, rfl, rfl⟩

/-- A record is written back with the present time. -/
theorem stamped_set (now : Instant) (r r' : SessionRegistry) (key : SessionKey)
    (record : SessionRecord) (h : r'.sessions = r.sessions.set key record)
    (htime : record.lastUsed = now) : Stamped now (some key) r r' := by
  intro k record' hget
  rw [h] at hget
  rcases (Table.get?_set_eq_some _ _ _ _ _).mp hget with ⟨hk, heq⟩ | ⟨hk, hold⟩
  · rw [← heq, hk]
    exact Or.inl ⟨rfl, htime⟩
  · refine Or.inr ⟨fun hkey => hk ?_, record', hold, rfl, rfl⟩
    exact (Option.some.inj hkey).symm

theorem found_some (r : SessionRegistry) (key : SessionKey) (record : SessionRecord)
    (h : r.sessions.get? key = some record) : r.found key = some key := by
  rw [SessionRegistry.found, h]
  rfl

theorem found_none (r : SessionRegistry) (key : SessionKey) (h : r.sessions.get? key = none) :
    r.found key = none := by
  rw [SessionRegistry.found, h]
  rfl

theorem stamped_touch (now : Instant) (r : SessionRegistry) (key : SessionKey) :
    Stamped now (r.found key) r (r.touch key now) := by
  unfold SessionRegistry.touch
  split
  · rename_i record hrecord
    rw [found_some r key record hrecord]
    exact stamped_set now r _ key _ rfl rfl
  · rename_i hnone
    rw [found_none r key hnone]
    exact stamped_same now r r rfl

theorem stamped_release (now : Instant) (r : SessionRegistry) (key : SessionKey) :
    Stamped now (r.found key) r (r.releaseSession key now).1 := by
  unfold SessionRegistry.releaseSession
  split
  · rename_i record hrecord
    rw [found_some r key record hrecord]
    exact stamped_set now r _ key _ rfl rfl
  · rename_i hnone
    rw [found_none r key hnone]
    exact stamped_same now r r rfl

/-- A mark leaves the time alone. -/
theorem stamped_mark (now : Instant) (r : SessionRegistry) (key : SessionKey)
    (notice : Option StreamErrorPayload) :
    Stamped now none r (r.markTerminatingWithNotice key notice) := by
  unfold SessionRegistry.markTerminatingWithNotice
  split
  · rename_i record hrecord
    intro k record' hget
    refine Or.inr ⟨by simp, ?_⟩
    rcases (Table.get?_set_eq_some _ _ _ _ _).mp hget with ⟨hk, heq⟩ | ⟨_, hold⟩
    · rw [hk, ← heq]
      exact ⟨record, hrecord, rfl, rfl⟩
    · exact ⟨record', hold, rfl, rfl⟩
  · exact stamped_same now r r rfl

theorem stamped_idle (now start : Instant) (r : SessionRegistry) :
    Stamped now none r (r.idleCandidates start).1 := by
  intro key record' hget
  have hget' : (r.sessions.get? key).map (fun record =>
      if r.isIdle start record then { record with terminating := true } else record) =
        some record' := by
    rw [← Table.get?_mapValues r.sessions _ key]
    exact hget
  rcases Option.map_eq_some_iff.mp hget' with ⟨record, hrecord, heq⟩
  refine Or.inr ⟨by simp, record, hrecord, ?_, ?_⟩
  · rw [← heq]
    split <;> rfl
  · rw [← heq]
    split <;> rfl

theorem stamped_erase (now : Instant) (r : SessionRegistry) (key : SessionKey) :
    Stamped now none r (r.removeSession key) := by
  intro k record' hget
  exact Or.inr ⟨by simp, record', (get?_removeSession r key k record' hget).2, rfl, rfl⟩

/-- A section of an acquire stamps the record it counts the lease on. -/
theorem acquire_stamped (call : CallId) (now : Instant) (r r' : SessionRegistry)
    (key : SessionKey) (clientKind : Option ClientKind) (pc pc' : AcquirePc)
    (events : List Event)
    (h : pc.section call key clientKind now r = some (r', pc', events)) :
    Stamped now (Frame.stamps r (.acquire key clientKind pc)) r r' := by
  cases pc with
  | count | dropGate error =>
      simp only [AcquirePc.section, Option.some.injEq, Prod.mk.injEq] at h
      exact stamped_same now r r' (by rw [← h.1]; rfl)
  | gate =>
      simp only [AcquirePc.section, Option.some.injEq, Prod.mk.injEq] at h
      refine stamped_same now r r' ?_
      rw [← h.1]
      unfold SessionRegistry.gateEntry
      split <;> rfl
  | lookup g =>
      rw [Frame.stamps]
      cases hrec : r.sessions.get? key with
      | none =>
          simp only [AcquirePc.section, hrec, Option.some.injEq, Prod.mk.injEq] at h
          rw [found_none r key hrec]
          exact stamped_same now r r' (by rw [← h.1])
      | some record =>
          simp only [AcquirePc.section, hrec, Option.some.injEq, Prod.mk.injEq] at h
          rw [found_some r key record hrec]
          -- A grant stamps the record it is on.
          exact stamped_set now r r' key (record.grant now) (by rw [← h.1]; rfl) rfl
  | enter g =>
      refine stamped_same now r r' ?_
      simp only [AcquirePc.section] at h
      -- The gates are not looked at by the stamps.
      unfold SessionRegistry.enterGate at h
      by_cases hstarted : (r.gateHeap g).started = true
      · simp only [hstarted, if_true, Option.some.injEq, Prod.mk.injEq] at h
        rw [← h.1]
      · simp only [hstarted, if_false, Bool.false_eq_true, Option.some.injEq, Prod.mk.injEq] at h
        rw [← h.1]
  | spawning g => exact absurd h (by simp [AcquirePc.section])
  | leave g result =>
      cases result <;>
        · simp only [AcquirePc.section, Option.some.injEq, Prod.mk.injEq] at h
          exact stamped_same now r r' (by rw [← h.1]; rfl)
  | publish handle =>
      simp only [AcquirePc.section, Option.some.injEq, Prod.mk.injEq] at h
      exact stamped_set now r r' key ((r.publishRecord key handle now).grant now)
        (by rw [← h.1]; rfl) rfl
  | waiting g epoch =>
      simp only [AcquirePc.section] at h
      split at h
      · simp only [Option.some.injEq, Prod.mk.injEq] at h
        exact stamped_same now r r' (by rw [← h.1])
      · exact absurd h (by simp)
  | returned result => exact absurd h (by simp [AcquirePc.section])

theorem forward_stamped (call : CallId) (now : Instant) (r r' : SessionRegistry)
    (kind : ForwardKind) (id : String) (message : Json) (pc pc' : ForwardPc)
    (events : List Event) (h : pc.section call id message now r = some (r', pc', events)) :
    Stamped now (Frame.stamps r (.forward kind id message pc)) r r' := by
  cases pc with
  | lease =>
      cases hkey : r.leaseKey id <;>
        · simp only [ForwardPc.section, hkey, Option.some.injEq, Prod.mk.injEq] at h
          exact stamped_same now r r' (by rw [← h.1])
  | session key =>
      simp only [ForwardPc.section] at h
      unfold SessionRegistry.lookupRuntime at h
      simp only [Frame.stamps]
      cases hrec : r.sessions.get? key with
      | none =>
          simp only [hrec, Option.some.injEq, Prod.mk.injEq] at h
          exact stamped_same now r r' (by rw [← h.1])
      | some record =>
          simp only [hrec] at h
          -- A session that is being terminated is refused without a stamp.
          by_cases hterm : record.terminating = true
          · simp only [hterm, if_true]
            cases hnotice : record.terminationNotice <;>
              · simp only [hterm, if_true, hnotice, Option.some.injEq, Prod.mk.injEq] at h
                exact stamped_same now r r' (by rw [← h.1])
          · simp only [hterm, if_false, Bool.false_eq_true]
            simp only [hterm, if_false, Bool.false_eq_true, Option.some.injEq, Prod.mk.injEq] at h
            exact stamped_set now r r' key (record.touch now) (by rw [← h.1]) rfl
  | awaiting key runtime => exact absurd h (by simp [ForwardPc.section])
  | touch key response =>
      simp only [ForwardPc.section, Option.some.injEq, Prod.mk.injEq] at h
      rw [← h.1]
      exact stamped_touch now r key
  | returned result => exact absurd h (by simp [ForwardPc.section])

/-- Every section stamps what it writes, or leaves the time alone. -/
theorem section_stamped (call : CallId) (now : Instant) (r r' : SessionRegistry)
    (frame frame' : Frame) (events : List Event)
    (h : frame.section call now r = some (r', frame', events)) :
    Stamped now (frame.stamps r) r r' := by
  cases frame with
  | acquire key clientKind pc =>
      rcases section_acquire call now r r' key clientKind pc frame' events h with
        ⟨lease, hpc, hr, _, _⟩ | ⟨pc', hsec, _⟩
      · rw [hpc]
        exact stamped_same now r r' (by rw [hr])
      · exact acquire_stamped call now r r' key clientKind pc pc' events hsec
  | attached lease handle => exact absurd h (by simp [Frame.section])
  | release id pc =>
      simp only [Frame.section, Option.map_eq_some_iff, Prod.exists, Prod.mk.injEq] at h
      rcases h with ⟨r₁, pc', hsec, rfl, _, _⟩
      cases pc with
      | take =>
          simp only [ReleasePc.section] at hsec
          unfold SessionRegistry.takeLease at hsec
          refine stamped_same now r r₁ ?_
          -- `take` is under `leases`, and stamps nothing.
          cases hlease : r.leases.get? id <;>
            · simp only [hlease, Option.some.injEq, Prod.mk.injEq] at hsec
              rw [← hsec.1]
              try rfl
      | decrement key =>
          simp only [ReleasePc.section, Option.some.injEq, Prod.mk.injEq] at hsec
          rw [← hsec.1]
          exact stamped_release now r key
      | returned result => exact absurd hsec (by simp [ReleasePc.section])
  | remove key pc =>
      simp only [Frame.section, Option.map_eq_some_iff, Prod.exists, Prod.mk.injEq] at h
      rcases h with ⟨r₁, pc', hsec, rfl, _, _⟩
      cases pc with
      | session =>
          simp only [RemovePc.section, Option.some.injEq, Prod.mk.injEq] at hsec
          rw [← hsec.1]
          -- A session that is removed is not stamped.
          exact stamped_erase now r key
      | leases =>
          simp only [RemovePc.section, Option.some.injEq, Prod.mk.injEq] at hsec
          exact stamped_same now r r₁ (by rw [← hsec.1]; rfl)
      | returned => exact absurd hsec (by simp [RemovePc.section])
  | forward kind id message pc =>
      simp only [Frame.section, Option.map_eq_some_iff, Prod.exists, Prod.mk.injEq] at h
      rcases h with ⟨r₁, pc', evs, hsec, rfl, _, _⟩
      exact forward_stamped call now r r₁ kind id message pc pc' evs hsec
  | touch key returned =>
      simp only [Frame.section, Option.ite_none_left_eq_some, Option.some.injEq,
        Prod.mk.injEq] at h
      rw [← h.2.1, Bool.eq_false_of_not_eq_true h.1]
      exact stamped_touch now r key
  | mark key notice returned =>
      simp only [Frame.section, Option.ite_none_left_eq_some, Option.some.injEq,
        Prod.mk.injEq] at h
      rw [← h.2.1]
      -- A mark is no use of the session.
      exact stamped_mark now r key notice
  | idle start result =>
      cases result with
      | some handles => exact absurd h (by simp [Frame.section])
      | none =>
          simp only [Frame.section, Option.some.injEq, Prod.mk.injEq] at h
          rw [← h.1]
          exact stamped_idle now start r
  | increment evictor returned =>
      simp only [Frame.section, Option.ite_none_left_eq_some, Option.some.injEq,
        Prod.mk.injEq] at h
      refine stamped_same now r r' ?_
      rw [← h.2.1]
      cases evictor <;> rfl
  | crash returned =>
      simp only [Frame.section, Option.ite_none_left_eq_some, Option.some.injEq,
        Prod.mk.injEq] at h
      exact stamped_same now r r' (by rw [← h.2.1]; rfl)

theorem step_stamped (w w' : World) (a : Action) (h : w.step a = some w') :
    Stamped w.now (w.stamps a) w.reg w'.reg := by
  cases a with
  | sect call =>
      simp only [World.step] at h
      split at h
      · exact absurd h (by simp)
      · rename_i frame hframe
        rcases Option.map_eq_some_iff.mp h with ⟨⟨r', frame', events⟩, hsec, heq⟩
        rw [← heq, World.stamps, hframe]
        exact section_stamped call w.now w.reg r' frame frame' events hsec
  | tick span =>
      rw [← Option.some.inj h]
      exact stamped_same w.now w.reg _ rfl
  | start call method =>
      simp only [World.step] at h
      split at h
      · exact absurd h (by simp)
      · rw [← Option.some.inj h]
        exact stamped_same w.now w.reg _ rfl
  | spawnReturns call result | runtimeReturns call result =>
      simp only [World.step] at h
      split at h
      · rw [← Option.some.inj h]
        cases result <;> exact stamped_same w.now w.reg _ rfl
      · exact absurd h (by simp)

/-! ### The runtime a call has found -/

theorem forwardedTo_iff (log : List Event) (call : CallId) (runtime : RuntimeId) :
    forwardedTo log call runtime = true ↔ runtime ∈ routedTo call log := by
  rw [mem_routedTo, forwardedTo, List.any_eq_true]
  constructor
  · rintro ⟨event, hmem, hevent⟩
    cases event with
    | forwarded c id rt message =>
        simp only [Bool.and_eq_true, beq_iff_eq] at hevent
        rw [hevent.1, hevent.2] at hmem
        exact ⟨id, message, hmem⟩
    | _ => exact absurd hevent (by simp)
  · rintro ⟨id, message, hmem⟩
    exact ⟨_, hmem, by simp⟩

/-- The message a call forwards, if it is one that does. -/
def Frame.message : Frame → Option (ForwardKind × String × Json)
  | .forward kind id message _ => some (kind, id, message)
  | _ => none

theorem section_message (call : CallId) (now : Instant) (r r' : SessionRegistry)
    (frame frame' : Frame) (events : List Event)
    (h : frame.section call now r = some (r', frame', events)) :
    frame'.message = frame.message := by
  cases frame with
  | acquire key clientKind pc =>
      rcases section_acquire call now r r' key clientKind pc frame' events h with
        ⟨_, _, _, hframe', _⟩ | ⟨_, _, hframe'⟩
      · rw [hframe']
        rfl
      · rw [hframe']
        rfl
  | attached lease handle => exact absurd h (by simp [Frame.section])
  -- A section moves its call, and leaves what it is called with.
  | release id pc | remove key pc =>
      simp only [Frame.section, Option.map_eq_some_iff, Prod.exists, Prod.mk.injEq] at h
      rcases h with ⟨_, _, _, _, hframe', _⟩
      rw [← hframe']
      rfl
  | forward kind id message pc =>
      simp only [Frame.section, Option.map_eq_some_iff, Prod.exists, Prod.mk.injEq] at h
      rcases h with ⟨_, _, _, _, _, hframe', _⟩
      rw [← hframe']
      rfl
  | idle start result =>
      cases result with
      | some handles => exact absurd h (by simp [Frame.section])
      | none =>
          simp only [Frame.section, Option.some.injEq, Prod.mk.injEq] at h
          rw [← h.2.1]
          rfl
  | touch key returned | mark key notice returned | increment evictor returned
  | crash returned =>
      simp only [Frame.section, Option.ite_none_left_eq_some, Option.some.injEq,
        Prod.mk.injEq] at h
      rw [← h.2.2.1]
      rfl

/-- What a call forwards it has forwarded since it began. -/
theorem message_step (w w' : World) (a : Action) (hstep : w.step a = some w') (c : CallId)
    (frame' : Frame) (hget : w'.calls.get? c = some frame') :
    (w.calls.get? c = none ∧ ∃ method, frame' = Method.frame w.now method) ∨
      ∃ frame, w.calls.get? c = some frame ∧ frame'.message = frame.message := by
  have hsame : w'.calls = w.calls → ∃ frame, w.calls.get? c = some frame ∧
      frame'.message = frame.message := by
    intro h
    rw [h] at hget
    exact ⟨frame', hget, rfl⟩
  have hmoved : ∀ call frame₀ frame₁, w'.calls = w.calls.set call frame₁ →
      w.calls.get? call = some frame₀ → frame₁.message = frame₀.message →
        ∃ frame, w.calls.get? c = some frame ∧ frame'.message = frame.message := by
    intro call frame₀ frame₁ h hcall hmessage
    rw [h] at hget
    rcases (Table.get?_set_eq_some _ _ _ _ _).mp hget with ⟨hc, heq⟩ | ⟨_, hold⟩
    · rw [hc, ← heq]
      exact ⟨frame₀, hcall, hmessage⟩
    · exact ⟨frame', hold, rfl⟩
  cases a with
  | tick span => exact Or.inr (hsame (by rw [← Option.some.inj hstep]))
  | start call method =>
      simp only [World.step] at hstep
      cases hcall : w.calls.get? call with
      | some frame => simp only [hcall, reduceCtorEq] at hstep
      | none =>
          simp only [hcall, Option.some.injEq] at hstep
          rw [← hstep] at hget
          rcases (Table.get?_set_eq_some _ _ _ _ _).mp hget with ⟨hc, heq⟩ | ⟨_, hold⟩
          · rw [hc]
            exact Or.inl ⟨hcall, method, heq.symm⟩
          · exact Or.inr ⟨frame', hold, rfl⟩
  | sect call =>
      simp only [World.step] at hstep
      cases hcall : w.calls.get? call with
      | none => simp only [hcall, reduceCtorEq] at hstep
      | some frame =>
          simp only [hcall, Option.map_eq_some_iff, Prod.exists] at hstep
          rcases hstep with ⟨r', frame₁, events, hsec, heq⟩
          exact Or.inr (hmoved call frame frame₁ (by rw [← heq]; rfl) hcall
            (section_message call w.now w.reg r' frame frame₁ events hsec))
  | spawnReturns call result =>
      simp only [World.step] at hstep
      split at hstep
      · rename_i key clientKind g hcall
        rw [Option.some.injEq] at hstep
        -- Whatever the closure returns, the call stays the acquire it is.
        have hspawned : ∃ pc, w'.calls = w.calls.set call (.acquire key clientKind pc) := by
          rw [← hstep]
          cases result <;> exact ⟨_, rfl⟩
        rcases hspawned with ⟨pc, hcalls⟩
        exact Or.inr (hmoved call _ _ hcalls hcall rfl)
      · exact absurd hstep (by simp)
  | runtimeReturns call result =>
      simp only [World.step] at hstep
      split at hstep
      · rename_i kind id message key runtime hcall
        rw [Option.some.injEq] at hstep
        have hreturned : ∃ pc, w'.calls = w.calls.set call (.forward kind id message pc) := by
          rw [← hstep]
          cases result <;> exact ⟨_, rfl⟩
        rcases hreturned with ⟨pc, hcalls⟩
        exact Or.inr (hmoved call _ _ hcalls hcall rfl)
      · exact absurd hstep (by simp)

/-- A call that forwards a message has just begun, or has been forwarding it. -/
theorem forward_origin (w w' : World) (a : Action) (hstep : w.step a = some w') (c : CallId)
    (kind : ForwardKind) (id : String) (message : Json) (pc : ForwardPc)
    (hget : w'.calls.get? c = some (.forward kind id message pc)) :
    (w.calls.get? c = none ∧ pc = .lease) ∨
      ∃ pc₀, w.calls.get? c = some (.forward kind id message pc₀) := by
  rcases message_step w w' a hstep c _ hget with ⟨hnone, method, hframe⟩ | ⟨frame, hold, hmessage⟩
  · cases method with
    | forwardByLeaseId kind' id' message' =>
        rw [Method.frame, Frame.forward.injEq] at hframe
        exact Or.inl ⟨hnone, hframe.2.2.2⟩
    | _ => exact absurd hframe (by simp [Method.frame])
  · cases frame with
    | forward kind' id' message' pc₀ =>
        simp only [Frame.message, Option.some.injEq, Prod.mk.injEq] at hmessage
        rw [hmessage.1, hmessage.2.1, hmessage.2.2]
        exact Or.inr ⟨pc₀, hold⟩
    | _ => exact absurd hmessage (by simp [Frame.message])

/-- A call has forwarded its message once it has found its session, and to a runtime
    that was registered under its key. -/
structure Routing (w : World) : Prop where
  started : ∀ c, w.calls.get? c = none → routedTo c w.log = []
  before : ∀ c kind id message pc, w.calls.get? c = some (.forward kind id message pc) →
    (pc = .lease ∨ ∃ key, pc = .session key) → routedTo c w.log = []
  after : ∀ c kind id message pc key, w.calls.get? c = some (.forward kind id message pc) →
    ((∃ runtime, pc = .awaiting key runtime) ∨ ∃ response, pc = .touch key response) →
      ∀ runtime ∈ routedTo c w.log, Event.registered key runtime ∈ w.log

theorem routing_init (idleTtl : Duration) : Routing (World.init idleTtl) where
  started := fun _ _ => rfl
  before := fun _ _ _ _ _ _ _ => rfl
  after := fun c kind id message pc key h => absurd h (by simp [World.init])

/-- The session a call finds is registered under its key. -/
theorem found_registered (w w' : World) (hfresh : Fresh w) (c : CallId) (kind : ForwardKind)
    (id : String) (message : Json) (key key' : SessionKey) (runtime : RuntimeId)
    (hget : w.calls.get? c = some (.forward kind id message (.session key)))
    (hstep : w.step (.sect c) = some w')
    (hget' : w'.calls.get? c = some (.forward kind id message (.awaiting key' runtime))) :
    Event.registered key' runtime ∈ w.log := by
  simp only [World.step, hget, Option.map_eq_some_iff, Prod.exists] at hstep
  rcases hstep with ⟨r', frame', events, hsec, heq⟩
  simp only [Frame.section, Option.map_eq_some_iff, Prod.exists, Prod.mk.injEq] at hsec
  rcases hsec with ⟨r₁, pc', evs, hsec, _, hframe, _⟩
  rw [← heq, World.moved, Table.get?_set_self, ← hframe, Option.some.injEq,
    Frame.forward.injEq] at hget'
  rw [hget'.2.2.2] at hsec
  unfold ForwardPc.section SessionRegistry.lookupRuntime at hsec
  cases hrec : w.reg.sessions.get? key with
  | none => simp [hrec] at hsec
  | some record =>
      have hregistered := hfresh.registered key record hrec
      simp only [hrec] at hsec
      by_cases hterm : record.terminating = true
      · cases hnotice : record.terminationNotice <;> simp [hterm, hnotice] at hsec
      · simp only [hterm, if_false, Bool.false_eq_true, Option.some.injEq, Prod.mk.injEq,
          ForwardPc.awaiting.injEq] at hsec
        rw [← hsec.2.1.1, ← hsec.2.1.2]
        exact hregistered

theorem routing_step (w w' : World) (a : Action) (h : Routing w) (hfresh : Fresh w)
    (hstep : w.step a = some w') : Routing w' where
  started := by
    intro c hnone
    rcases calls_stay w w' a hstep c hnone with ⟨hold, hmover⟩
    rw [routedTo_other w w' a hstep c hmover]
    exact h.started c hold
  before := by
    intro c kind id message pc hget hpc
    -- The call was there before, or has just begun.
    rcases forward_origin w w' a hstep c kind id message pc hget with ⟨hnone, _⟩ | ⟨pc₀, hold⟩
    · have hmover : a.mover ≠ some c := by
        intro hmover
        rcases mover_isSome w w' a hstep c hmover with ⟨frame, hframe⟩
        rw [hnone] at hframe
        exact absurd hframe (by simp)
      rw [routedTo_other w w' a hstep c hmover]
      exact h.started c hnone
    · rcases routed_step w w' a hstep c kind id message pc₀ hold with
        ⟨hsame, hrouted⟩ | ⟨events, pc', hnew, hadvances, hrouted⟩
      · rw [hsame, Option.some.injEq, Frame.forward.injEq] at hget
        rw [hrouted]
        exact h.before c kind id message pc₀ hold (by rw [hget.2.2.2]; exact hpc)
      · rw [hnew, Option.some.injEq, Frame.forward.injEq] at hget
        rw [← hget.2.2.2] at hpc
        cases hadvances with
        | leased key =>
            rw [hrouted]
            exact h.before c kind id message _ hold (Or.inl rfl)
        | _ => exact absurd hpc (by simp)
  after := by
    intro c kind id message pc key hget hpc runtime hmem
    rcases log_step w w' a hstep with ⟨new, hlog⟩
    have hstays : ∀ event, event ∈ w.log → event ∈ w'.log := by
      intro event hevent
      rw [hlog]
      exact List.mem_append_right _ hevent
    rcases forward_origin w w' a hstep c kind id message pc hget with ⟨_, hlease⟩ | ⟨pc₀, hold⟩
    · rw [hlease] at hpc
      exact absurd hpc (by simp)
    rcases routed_step w w' a hstep c kind id message pc₀ hold with
      ⟨hsame, hrouted⟩ | ⟨events, pc', hnew, hadvances, hrouted⟩
    · rw [hsame, Option.some.injEq, Frame.forward.injEq] at hget
      rw [hget.2.2.2] at hold
      rw [hrouted] at hmem
      exact hstays _ (h.after c kind id message pc key hold hpc runtime hmem)
    · rw [hrouted] at hmem
      rw [hnew, Option.some.injEq, Frame.forward.injEq] at hget
      rw [← hget.2.2.2] at hpc
      cases hadvances with
      | found key₁ runtime₁ =>
          -- It was routed to no runtime before this section.
          rw [h.before c kind id message _ hold (Or.inr ⟨key₁, rfl⟩), List.append_nil] at hmem
          have hkey : key₁ = key := by simpa using hpc
          have hruntime : runtime = runtime₁ := by simpa [routedTo] using hmem
          rw [hruntime, ← hkey]
          exact hstays _ (found_registered w w' hfresh c kind id message key₁ key₁ runtime₁ hold
            hstep hnew)
      | answered key₁ runtime₁ response =>
          have hkey : key₁ = key := by simpa using hpc
          rw [← hkey]
          exact hstays _ (h.after c kind id message _ key₁ hold (Or.inl ⟨runtime₁, rfl⟩) runtime
            hmem)
      | _ => exact absurd hpc (by simp)

/-- A record with the runtime is under one key, and what the registry does for the
    runtime stamps the record under this key. -/
theorem attends_stamps (f f' : Fleet) (a : FleetAction) (runtime : RuntimeId)
    (hfresh : Fresh f.world) (hrouting : Routing f.world) (hfresh' : Fresh f'.world)
    (hstep : f.step a = some f') (h : f.attends a runtime = true) :
    ∃ key, Event.registered key runtime ∈ f'.world.log ∧
      ∀ record, f'.world.reg.sessions.get? key = some record →
        record.lastUsed = f.world.now := by
  unfold Fleet.attends at h
  split at h
  swap
  · exact absurd h (by simp)
  -- Only a section attends to a session, and the world takes it.
  rename_i call
  have hw : f.world.step (.sect call) = some f'.world := by
    simp only [Fleet.step, Fleet.withWorld, Option.ite_none_right_eq_some,
      Option.map_eq_some_iff] at hstep
    rcases hstep with ⟨_, w, hw, heq⟩
    rw [← heq]
    exact hw
  rcases log_step f.world f'.world _ hw with ⟨new, hlog⟩
  have hstays : ∀ event, event ∈ f.world.log → event ∈ f'.world.log := by
    intro event hevent
    rw [hlog]
    exact List.mem_append_right _ hevent
  -- The record under the key of the section is written back with the present time.
  have hset : ∀ key record, f'.world.reg.sessions = f.world.reg.sessions.set key record →
      record.lastUsed = f.world.now → ∀ record', f'.world.reg.sessions.get? key = some record' →
        record'.lastUsed = f.world.now := by
    intro key record hsessions htime record' hget
    rw [hsessions, Table.get?_set_self, Option.some.injEq] at hget
    rw [← hget]
    exact htime
  have hfound : ∀ key, f.world.reg.instanceOf key = some runtime →
      ∃ record, f.world.reg.sessions.get? key = some record ∧
        Event.registered key runtime ∈ f'.world.log := by
    intro key hinstance
    rcases Option.map_eq_some_iff.mp hinstance with ⟨record, hrecord, hruntime⟩
    rw [← hruntime]
    exact ⟨record, hrecord, hstays _ (hfresh.registered key record hrecord)⟩
  split at h
  · rename_i key clientKind g hframe
    rcases hfound key (beq_iff_eq.mp h) with ⟨record, hrecord, hregistered⟩
    simp only [World.step, hframe, Frame.section, AcquirePc.section, hrecord, Option.map_some,
      Option.some.injEq] at hw
    exact ⟨key, hregistered, hset key (record.grant f.world.now) (by rw [← hw]; rfl) rfl⟩
  · rename_i key clientKind handle hframe
    simp only [World.step, hframe, Frame.section, AcquirePc.section, Option.map_some,
      Option.some.injEq] at hw
    -- The record that is granted on is registered by the end of the section.
    have hsessions : f'.world.reg.sessions = f.world.reg.sessions.set key
        ((f.world.reg.publishRecord key handle f.world.now).grant f.world.now) := by
      rw [← hw]
      rfl
    refine ⟨key, ?_, hset key _ hsessions rfl⟩
    have hregistered := hfresh'.registered key _ (by rw [hsessions, Table.get?_set_self])
    rw [← beq_iff_eq.mp h]
    exact hregistered
  · rename_i id key hframe
    rcases hfound key (beq_iff_eq.mp h) with ⟨record, hrecord, hregistered⟩
    simp only [World.step, hframe, Frame.section, ReleasePc.section,
      SessionRegistry.releaseSession, hrecord, Option.map_some, Option.some.injEq] at hw
    exact ⟨key, hregistered, hset key (record.release f.world.now) (by rw [← hw]; rfl) rfl⟩
  · rename_i id message key response hframe
    -- The runtime that has answered was registered under the key when the message found it.
    have hregistered := hrouting.after call .call id message _ key hframe
      (Or.inr ⟨response, rfl⟩) runtime ((forwardedTo_iff _ _ _).mp h)
    refine ⟨key, hstays _ hregistered, ?_⟩
    simp only [World.step, hframe, Frame.section, ForwardPc.section, Option.map_some,
      Option.some.injEq] at hw
    intro record' hget
    rw [← hw] at hget
    simp only [World.moved] at hget
    unfold SessionRegistry.touch at hget
    cases hrecord : f.world.reg.sessions.get? key with
    | none =>
        simp only [hrecord, reduceCtorEq] at hget
    | some record =>
        simp only [hrecord, Table.get?_set_self, Option.some.injEq] at hget
        rw [← hget]
        rfl
  · exact absurd h (by simp)

/-! ### What passes between the clients and a server -/

namespace Sharing

theorem queues_nothing (h h' : Sharing) (hnone : h.transport.queuedBy h'.transport = []) :
    h.queues h' = false := by
  rw [queues, hnone]
  rfl

theorem queues_same (h h' : Sharing) (hsame : h'.transport = h.transport) :
    h.queues h' = false :=
  queues_nothing h h' (Transport.queuedBy_same _ _ (by rw [hsame]))

/-- A request in the queue is a client's if the party is. -/
theorem queues_accept (h : Sharing) (call : CallId) (party : Party) (message : Json) :
    h.queues (h.accept call party message) = decide (party ≠ .daemon) := by
  rw [queues, queuedBy_accept, List.any_cons, List.any_nil, Bool.or_false, Option.any_some,
    fromClient, accept, Table.get?_set_self]
  cases party <;> rfl

theorem delivers_iff (h h' : Sharing) :
    h.delivers h' = true ↔ ∃ n s', h'.streams.get? n = some s' ∧
      (s'.delivered.drop (h.deliveredTo n).length).any
        (fun frame => frame.content.frameType == .lspOut) = true := by
  rw [delivers, List.any_eq_true]
  constructor
  · rintro ⟨⟨n, s'⟩, hmem, hany⟩
    exact ⟨n, s', (Table.mem_entries_iff _ _ _).mp hmem, hany⟩
  · rintro ⟨n, s', hs', hany⟩
    exact ⟨⟨n, s'⟩, (Table.mem_entries_iff _ _ _).mpr hs', hany⟩

theorem delivers_same (h h' : Sharing) (hsame : h'.streams = h.streams) :
    h.delivers h' = false := by
  refine Bool.eq_false_iff.mpr fun hdelivers => ?_
  rcases (delivers_iff h h').mp hdelivers with ⟨n, s', hs', hany⟩
  rw [hsame] at hs'
  rw [deliveredTo, hs', Option.map_some, Option.getD_some, List.drop_length] at hany
  exact absurd hany (by simp)

theorem deliveredTo_some (h : Sharing) (n : Nat) (s : LeaseStream)
    (hs : h.streams.get? n = some s) : h.deliveredTo n = s.delivered := by
  rw [deliveredTo, hs]
  rfl

/-- Only the writer task of a stream writes to its client. -/
theorem delivers_nothing (h h' : Sharing) (a : SharingAction) (hstep : h.step a = some h')
    (ha : ∀ n, a ≠ .write n) : h.delivers h' = false := by
  refine Bool.eq_false_iff.mpr fun hdelivers => ?_
  rcases (delivers_iff h h').mp hdelivers with ⟨n, s', hs', hany⟩
  have hsame : h.deliveredTo n = s'.delivered → False := by
    intro heq
    rw [heq, List.drop_length] at hany
    exact absurd hany (by simp)
  rcases touches_step h h' a hstep n with hkeep | ⟨s, s'', hs, hs'', hacted⟩ |
    ⟨leaseId, _, hnone, hnew⟩
  · exact hsame (deliveredTo_some h n s' (by rw [← hkeep, hs']))
  · rw [hs', Option.some.injEq] at hs''
    rw [← hs''] at hacted
    rcases LeaseStream.writes_acted h.transport n s s' a hacted with hkeep | ⟨hwrite, _⟩
    · exact hsame (by rw [deliveredTo_some h n s hs, hkeep])
    · exact ha n hwrite
  · rw [hs', Option.some.injEq] at hnew
    refine hsame ?_
    rw [deliveredTo, hnone, hnew]
    rfl

/-- It writes the first frame of its queue. -/
theorem delivers_write (h h' : Sharing) (n : Nat) (hstep : h.step (.write n) = some h') :
    h.delivers h' = h.carries (.write n) := by
  rcases move_eq_some h h' n _ hstep with ⟨s, s', hs, hwrite, hh'⟩
  rcases LeaseStream.write_cases s s' hwrite with ⟨frame, rest, _, hqueue, hs'⟩
  have hnew : s'.delivered.drop s.delivered.length = [frame] := by
    rw [hs']
    exact List.drop_left
  rw [Bool.eq_iff_iff, delivers_iff]
  simp only [carries, hs, hqueue]
  constructor
  · rintro ⟨k, u, hu, hany⟩
    rw [hh'] at hu
    rcases (Table.get?_set_eq_some _ _ _ _ _).mp hu with ⟨hk, heq⟩ | ⟨_, hold⟩
    · rw [hk, deliveredTo_some h n s hs, ← heq, hnew, List.any_cons, List.any_nil,
        Bool.or_false] at hany
      exact hany
    · rw [deliveredTo_some h k u hold, List.drop_length] at hany
      exact absurd hany (by simp)
  · intro hout
    refine ⟨n, s', by rw [hh', Table.get?_set_self], ?_⟩
    rw [deliveredTo_some h n s hs, hnew, List.any_cons, List.any_nil, Bool.or_false]
    exact hout

/-- A call that waits for room queues its request, or fails. -/
theorem queues_send (h h' : Sharing) (call : CallId)
    (hstep : h.step (.transport (.send call)) = some h') :
    h.queues h' = (h.fromClient call && h.transport.writer != .stopped) := by
  simp only [step, Option.ite_none_right_eq_some, Option.map_eq_some_iff] at hstep
  rcases hstep with ⟨_, t, ht, heq⟩
  simp only [Transport.step] at ht
  split at ht
  swap
  · exact absurd ht (by simp)
  rename_i request rx hcall
  rw [← heq]
  unfold Transport.sendCall at ht
  cases hsend : h.transport.sendInbound ⟨some call, request⟩ with
  | none => simp only [hsend, reduceCtorEq] at ht
  | some result =>
      rcases Transport.sendInbound_eq_some _ _ result hsend with
        ⟨hwriter, hresult⟩ | ⟨hwriter, hresult⟩
      · simp only [hsend, hresult, Option.some.injEq] at ht
        rw [← ht, hwriter, bne_self_eq_false, Bool.and_false]
        exact queues_nothing _ _ (Transport.queuedBy_same _ _ rfl)
      · simp only [hsend, hresult, Option.some.injEq] at ht
        have hone : h.transport.queuedBy t = [⟨some call, request⟩] :=
          Transport.queuedBy_append _ _ _ (by rw [← ht]; rfl)
        rw [queues, hone, List.any_cons, List.any_nil, Bool.or_false, Option.any_some,
          bne_iff_ne.mpr hwriter, Bool.and_true]
        rfl

/-- What a step of a server's users queues is a client's message in a frame, or the
    request of a call. -/
theorem queues_act (s : Server) (h : Sharing) (a : SharingAction) (hmay : s.mayMove a = true)
    (hstep : s.sharing.step a = some h) (ha : ∀ n, a ≠ .write n) :
    s.sharing.queues h = s.sharing.carries a := by
  -- What a stream does on its own puts nothing into the server's queue.
  have hstream : OfStream a → s.sharing.queues h = false := by
    intro hof
    rcases stream_moved s.sharing h a hof hstep with ⟨_, _, _, _, _, heq⟩
    exact queues_same _ _ (by rw [heq])
  cases a with
  | begin client call source request | send client call owner message | connect n leaseId =>
      exact absurd hmay (by simp [Server.mayMove])
  | write n => exact absurd rfl (ha n)
  | frame n frame call =>
      rcases frame_cases s.sharing h n frame call hstep with
        ⟨u, hu, _, _, ⟨hother, heq⟩ | ⟨⟨hlease, htype⟩, ⟨hwriter, heq⟩ | ⟨hwriter, heq⟩⟩⟩
      · rw [queues_same _ _ (by rw [heq])]
        simp only [carries, hu]
        -- A frame for another lease, or of another type.
        rcases hother with hother | hother
        · rw [beq_false_of_ne hother, Bool.false_and, Bool.false_and]
        · rw [beq_false_of_ne hother, Bool.and_false, Bool.false_and]
      · rw [queues_same _ _ (by rw [heq])]
        simp only [carries, hu, hwriter, bne_self_eq_false, Bool.and_false]
      · rw [heq, queues_accept]
        simp only [carries, hu, hlease, htype, beq_self_eq_true, bne_iff_ne.mpr hwriter,
          Bool.and_true]
        rfl
  | transport b =>
      -- Of the transport's own steps only the send of a call queues.
      by_cases hb : ∃ call, b = .send call
      · rcases hb with ⟨call, hb⟩
        rw [hb] at hstep ⊢
        exact queues_send s.sharing h call hstep
      have hcarries : s.sharing.carries (.transport b) = false := by
        cases b with
        | send call => exact absurd ⟨call, rfl⟩ hb
        | _ => rfl
      rw [hcarries]
      cases Fleet.act_cases s h _ hmay hstep with
      | transport _ t ht hbegin hforward =>
          rcases Transport.queuedBy_step s.sharing.transport t b ht with
            hnone | ⟨call, _, _, hsend, _⟩ | ⟨owner, message, hforwards⟩
          · exact queues_nothing _ _ hnone
          · exact absurd ⟨call, hsend⟩ hb
          · exact absurd hforwards (hforward owner message)
      | moved _ _ _ _ hnot => exact absurd rfl (hnot b)
  | _ => exact hstream trivial

/-- The steps of a server's users that pass a message. -/
theorem passes_act (s : Server) (h : Sharing) (a : SharingAction) (hmay : s.mayMove a = true)
    (hstep : s.sharing.step a = some h) :
    (s.sharing.queues h || s.sharing.delivers h) = s.sharing.carries a := by
  by_cases ha : ∃ n, a = .write n
  · rcases ha with ⟨n, ha⟩
    rw [ha] at hstep ⊢
    rcases move_eq_some s.sharing h n _ hstep with ⟨_, _, _, _, heq⟩
    rw [delivers_write s.sharing h n hstep, queues_same _ _ (by rw [heq]), Bool.false_or]
  · have hnot : ∀ n, a ≠ .write n := fun n heq => ha ⟨n, heq⟩
    rw [queues_act s h a hmay hstep hnot, delivers_nothing s.sharing h a hstep hnot,
      Bool.or_false]

end Sharing

namespace Fleet

/-- What a server and its users pass when the server moves. -/
theorem passes_moves (f : Fleet) (server : CallId) (s s' : Server) (a : FleetAction)
    (hmoves : f.Moves server s a s') :
    (s.sharing.queues s'.sharing || s.sharing.delivers s'.sharing) =
      match a with
      | .server _ b => s.sharing.carries b
      | _ => false := by
  have hbegin : ∀ client call request h,
      s.sharing.step (.begin client call .session request) = some h →
        (s.sharing.queues h || s.sharing.delivers h) = false := by
    intro client call request h hh
    rw [Sharing.queues_nothing _ _ (queuedBy_begin s.sharing h client call .session _ hh),
      Sharing.delivers_nothing s.sharing h _ hh (by simp), Bool.or_false]
  have haccept : ∀ c message, (s.sharing.queues (s.sharing.accept c .daemon message) ||
      s.sharing.delivers (s.sharing.accept c .daemon message)) = false := by
    intro c message
    have hdelivers : s.sharing.delivers (s.sharing.accept c .daemon message) = false :=
      Sharing.delivers_same _ _ rfl
    rw [Sharing.queues_accept, hdelivers]
    rfl
  have hsame : ∀ h, h = s.sharing →
      (s.sharing.queues h || s.sharing.delivers h) = false := by
    intro h heq
    rw [heq, Sharing.queues_same _ _ rfl, Sharing.delivers_same _ _ rfl, Bool.or_false]
  cases hmoves with
  | callInitialize rootUri options h hboot hh => exact hbegin none server _ h hh
  | bootstrapped c request response hboot hcall hfresh => exact haccept c _
  | bootstrapFails c error hboot hcall => exact hsame s.sharing rfl
  | call n call id message key runtime h hframe howner hsent hh =>
      exact hbegin (some n) call _ h hh
  | connect attach n lease handle h h' hframe howner hh hh' =>
      simp only [Sharing.step, Option.ite_none_right_eq_some, Option.map_eq_some_iff] at hh
      rcases hh with ⟨_, t, ht, heq⟩
      rw [← heq] at hh'
      -- The clone queues nothing, and the stream is new.
      have hdelivers := Sharing.delivers_nothing _ h' _ hh' (by simp)
      simp only [Sharing.step, Option.ite_none_right_eq_some, Option.some.injEq] at hh'
      simp only [Transport.step, Option.ite_none_right_eq_some, Option.some.injEq] at ht
      have hqueues : s.sharing.queues h' = false :=
        Sharing.queues_nothing _ _ (Transport.queuedBy_same _ _ (by rw [← hh'.2, ← ht.2]))
      exact Bool.or_eq_false_iff.mpr ⟨hqueues, hdelivers⟩
  | daemonSends c message h howned hmessage hh =>
      rcases Sharing.send_cases s.sharing h none c .session message hh with ⟨_, heq | heq⟩
      · exact hsame h heq
      · subst heq
        exact haccept c message
  | act a h hmay hh => exact Sharing.passes_act s h a hmay hh

/-- A server that stays as it is passes nothing. -/
theorem passes_kept (f f' : Fleet) (runtime : RuntimeId)
    (hkept : ∀ server s s', f.owners.get? runtime = some server →
      f.servers.get? server = some s → f'.servers.get? server = some s' → s' = s) :
    f.passes f' runtime = false := by
  unfold passes
  split
  · rfl
  · rename_i server howner
    split
    · rename_i s s' hs hs'
      rw [hkept server s s' howner hs hs', Sharing.queues_same _ _ rfl,
        Sharing.delivers_same _ _ rfl, Bool.or_false]
    · rfl

/-- Where one server moves, the messages of its runtime pass, and no others. -/
theorem passes_set (f f' : Fleet) (server : CallId) (s s' : Server) (runtime : RuntimeId)
    (hs : f.servers.get? server = some s) (hset : f'.servers = f.servers.set server s') :
    f.passes f' runtime = (f.owners.get? runtime == some server &&
      (s.sharing.queues s'.sharing || s.sharing.delivers s'.sharing)) := by
  by_cases howner : f.owners.get? runtime = some server
  · simp only [passes, howner, hs, hset, Table.get?_set_self, beq_self_eq_true, Bool.true_and]
  rw [beq_false_of_ne howner, Bool.false_and]
  refine passes_kept f f' runtime fun srv u u' hsrv hu hu' => ?_
  have hne : srv ≠ server := fun heq => howner (by rw [hsrv, heq])
  rw [hset, Table.get?_set_ne _ _ _ _ hne, hu, Option.some.injEq] at hu'
  exact hu'.symm

/-- A notification is queued while the writer task is there. -/
theorem writer_of_notified (f f' : Fleet) (n : Nat) (call : CallId) (id : String)
    (message : Json) (key : SessionKey) (runtime : RuntimeId) (server : CallId) (s s' : Server)
    (hframe : f.world.calls.get? call =
      some (.forward .notify id message (.awaiting key runtime)))
    (howner : f.owners.get? runtime = some server) (hs : f.servers.get? server = some s)
    (hstep : f.step (.notify n call) = some f') (hs' : f'.servers.get? server = some s')
    (hqueued : s'.queued ≠ s.queued) : s.sharing.transport.writer ≠ .stopped := by
  intro hwriter
  have hserver : f.serverOf runtime = some s := by rw [serverOf, howner, Option.bind_some, hs]
  simp only [step, hframe, howner, hserver, send, Sharing.queue, Transport.sendInbound, hwriter,
    if_true, Option.ite_none_right_eq_some] at hstep
  rcases withWorld_eq_some f f' _ hstep.2.2 with ⟨w, _, hf'⟩
  rw [hf', hs, Option.some.injEq] at hs'
  exact hqueued (by rw [hs'])

/-- A notification is queued, or fails with the writer task. -/
theorem passes_notify (f f' : Fleet) (n : Nat) (call : CallId) (runtime : RuntimeId)
    (hstep : f.step (.notify n call) = some f') :
    f.passes f' runtime = f.carries (.notify n call) runtime := by
  cases step_effect f f' _ hstep with
  | server a server s s' hs hmoves => cases hmoves
  | notifyFails n call id message key rt server s w hframe howner hs hsent hwriter hw =>
      have hnothing : f.passes { f with world := w } runtime = false :=
        passes_kept f _ runtime fun _ _ _ _ hu hu' => Option.some.inj (hu'.symm.trans hu)
      rw [hnothing]
      simp only [carries, hframe, serverOf, howner, Option.bind_some, hs, Option.any_some, hwriter,
        bne_self_eq_false, Bool.and_false]
  | notified n call id message key rt server s w hframe howner hs hsent hfresh hw =>
      have hlonger : (s.after (s.sharing.accept call (.control n) message)).queued ≠ s.queued := by
        have hone : (s.after (s.sharing.accept call (.control n) message)).queued =
            s.queued ++ [⟨some call, message⟩] :=
          congrArg _ (Sharing.queuedBy_accept s.sharing call (.control n) message)
        rw [hone]
        simp
      have hwriter := writer_of_notified f _ n call id message key rt server s _ hframe howner hs
        hstep (Table.get?_set_self _ _ _) hlonger
      have hqueues : s.sharing.queues (s.after (s.sharing.accept call (.control n) message)).sharing
          = true := Sharing.queues_accept s.sharing call (.control n) message
      rw [passes_set f _ server s _ runtime hs rfl, hqueues, Bool.true_or, Bool.and_true]
      simp only [carries, hframe, serverOf, howner, Option.bind_some, hs, Option.any_some,
        bne_iff_ne.mpr hwriter, Bool.and_true]

/-- The steps that pass a message between the clients and a server are the ones that
    carry one. -/
theorem passes_carries (f f' : Fleet) (a : FleetAction) (runtime : RuntimeId)
    (hstep : f.step a = some f') : f.passes f' runtime = f.carries a runtime := by
  cases step_effect f f' a hstep with
  | server a server s s' hs hmoves =>
      rw [passes_set f _ server s s' runtime hs rfl, passes_moves f server s s' a hmoves]
      cases hmoves with
      | act b h hmay hh => simp only [carries, hs, Option.any_some]
      | _ => exact Bool.and_false _
  | spawn call key clientKind g hframe hfree =>
      refine passes_kept f _ runtime fun srv u u' _ hu hu' => ?_
      have hne : srv ≠ call := fun heq => by
        rw [heq, hfree] at hu
        exact absurd hu (by simp)
      rw [setServer, Table.get?_set_ne _ _ _ _ hne, hu, Option.some.injEq] at hu'
      exact hu'.symm
  | notifyFails n call id message key rt server s w hframe howner hs hsent hwriter hw =>
      exact passes_notify f _ n call runtime hstep
  | notified n call id message key rt server s w hframe howner hs hsent hfresh hw =>
      exact passes_notify f _ n call runtime hstep
  | _ => exact passes_kept f _ runtime fun _ _ _ _ hu hu' => Option.some.inj (hu'.symm.trans hu)

theorem stamped_step (f f' : Fleet) (a : FleetAction) (hstep : f.step a = some f') :
    Stamped f.world.now (f.stamps a) f.world.reg f'.world.reg := by
  cases step_effect f f' a hstep with
  | world b w ha hw => exact step_stamped f.world w b hw
  | spawn call key clientKind g hframe hfree => exact stamped_same _ _ _ rfl
  | server a server s s' hs hmoves =>
      cases hmoves <;> exact stamped_same _ _ _ rfl
  | spawnFails call error w hfree hw => exact step_stamped f.world w _ hw
  | booted call s result w hs hboot hw => exact step_stamped f.world w _ hw
  | bootFailed call s error w hs hboot hw => exact step_stamped f.world w _ hw
  | request n kind leaseId message call w hidle hw => exact step_stamped f.world w _ hw
  | returned call id message key rt server s request result w _ _ _ _ hw =>
      exact step_stamped f.world w _ hw
  | notifyFails n call id message key rt server s w _ _ _ _ _ hw =>
      exact step_stamped f.world w _ hw
  | notified n call id message key rt server s w _ _ _ _ _ hw =>
      exact step_stamped f.world w _ hw

end Fleet

/-- A message that passes by the registry leaves it, and the time, alone. -/
theorem carries_registry (f f' : Fleet) (a : FleetAction) (runtime : RuntimeId)
    (hstep : f.step a = some f') (h : f.carries a runtime = true) :
    f'.world.reg = f.world.reg ∧ f'.world.now = f.world.now := by
  have hreturns : ∀ call result w, f.world.step (.runtimeReturns call result) = some w →
      w.reg = f.world.reg ∧ w.now = f.world.now := by
    intro call result w hw
    simp only [World.step] at hw
    split at hw
    · rw [← Option.some.inj hw]
      cases result <;> exact ⟨rfl, rfl⟩
    · exact absurd hw (by simp)
  unfold Fleet.carries at h
  cases Fleet.step_effect f f' a hstep with
  | server a server s s' hs hmoves => exact ⟨rfl, rfl⟩
  | notifyFails n call id message key runtime server s w hframe howner hs hsent hwriter hw =>
      exact hreturns call _ w hw
  | notified n call id message key runtime server s w hframe howner hs hsent hfresh hw =>
      exact hreturns call _ w hw
  | _ => exact absurd h (by simp)

namespace Activity

/-- No session was active after the time of last use in its record. -/
def UpToDate (s : Activity) : Prop :=
  ∀ key record t, s.fleet.world.reg.sessions.get? key = some record →
    s.lastActive record.handle.runtime = some t → t ≤ record.lastUsed

/-- Where a message passes between the clients and the server of a session, the session
    is stamped at that very instant. -/
def CarryCond (s : Activity) (a : FleetAction) : Prop :=
  ∀ key record, s.fleet.world.reg.sessions.get? key = some record →
    s.fleet.carries a record.handle.runtime = true →
      s.stampedAt key = some s.fleet.world.now

/-- What every run keeps. -/
structure Current (s : Activity) : Prop where
  fresh : Fresh s.fleet.world
  routing : Routing s.fleet.world
  past : ∀ runtime t, s.lastActive runtime = some t → t ≤ s.fleet.world.now
  stamped : ∀ key record, s.fleet.world.reg.sessions.get? key = some record →
    s.stampedAt key = some record.lastUsed
  stampPast : ∀ key t, s.stampedAt key = some t → t ≤ s.fleet.world.now

theorem current_init (idleTtl : Duration) : Current (init idleTtl) where
  fresh := fresh_init idleTtl
  routing := routing_init idleTtl
  past := fun runtime t h => absurd h (by simp [init])
  stamped := fun key record h => absurd h (by simp [init, Fleet.init, World.init,
    SessionRegistry.withIdleTtl])
  stampPast := fun key t h => absurd h (by simp [init])

theorem now_step (w w' : World) (a : Action) (h : w.step a = some w') : w.now ≤ w'.now := by
  cases step_effect w w' a h with
  | tick span => exact Nat.le_add_right _ _
  | _ => exact Nat.le_refl _

theorem current_step (s s' : Activity) (a : FleetAction) (h : Current s)
    (hstep : s.step a = some s') : Current s' := by
  rcases Option.map_eq_some_iff.mp hstep with ⟨f, hf, rfl⟩
  have hboth := Fleet.world_invariant (I := fun w => Fresh w ∧ Routing w)
    (fun w b w' hw hb => ⟨fresh_step w w' b hw.1 hb, routing_step w w' b hw.2 hw.1 hb⟩)
    s.fleet f a ⟨h.fresh, h.routing⟩ hf
  -- The clock never goes back, so what is past stays past.
  have hnow : s.fleet.world.now ≤ f.world.now := by
    rcases Fleet.world_step s.fleet f a hf with heq | ⟨b, hb⟩
    · exact Nat.le_of_eq (by rw [heq])
    · exact now_step s.fleet.world f.world b hb
  refine ⟨hboth.1, hboth.2, fun runtime t ht => ?_, fun key record hget => ?_,
    fun key t ht => ?_⟩
  · simp only at ht
    split at ht
    · rw [Option.some.injEq] at ht
      exact ht ▸ hnow
    · exact Nat.le_trans (h.past runtime t ht) hnow
  · simp only
    rcases Fleet.stamped_step s.fleet f a hf key record hget with
      ⟨hstamp, htime⟩ | ⟨hstamp, old, hold, _, htime⟩
    · rw [if_pos hstamp, htime]
    · rw [if_neg hstamp, h.stamped key old hold, htime]
  · simp only at ht
    split at ht
    · rw [Option.some.injEq] at ht
      exact ht ▸ hnow
    · exact Nat.le_trans (h.stampPast key t ht) hnow

/-- The time of last use in a record is the time of the last section that stamped its
    session. -/
theorem lastUsed_stamped (idleTtl : Duration) (as : List FleetAction) (s : Activity)
    (hrun : run step (init idleTtl) as = some s) (key : SessionKey) (record : SessionRecord)
    (hget : s.fleet.world.reg.sessions.get? key = some record) :
    s.stampedAt key = some record.lastUsed :=
  (run_invariant (fun s a s' h hstep _ => current_step s s' a h hstep) as (init idleTtl) s hrun
    (current_init idleTtl) (along_true as _)).stamped key record hget

/-- A record is up to date after a step that carries no message of its session. -/
theorem upToDate_kept (s s' : Activity) (a : FleetAction) (h : Current s) (hdate : UpToDate s)
    (hstep : s.step a = some s') (hcond : CarryCond s a) : UpToDate s' := by
  have hcurrent' := current_step s s' a h hstep
  rcases Option.map_eq_some_iff.mp hstep with ⟨f, hf, rfl⟩
  intro key record t hget ht
  simp only at hget ht
  rw [Fleet.passes_carries s.fleet f a _ hf] at ht
  by_cases hcarries : s.fleet.carries a record.handle.runtime = true
  · rw [hcarries, Bool.true_or, if_pos rfl, Option.some.injEq] at ht
    rw [(carries_registry s.fleet f a _ hf hcarries).1] at hget
    -- The record is found with the time of its stamp.
    have htime := (h.stamped key record hget).symm.trans (hcond key record hget hcarries)
    rw [← ht, ← Option.some.inj htime]
  by_cases hattends : s.fleet.attends a record.handle.runtime = true
  · rw [hattends, Bool.or_true, if_pos rfl, Option.some.injEq] at ht
    rcases attends_stamps s.fleet f a _ h.fresh h.routing hcurrent'.fresh hf hattends with
      ⟨key', hregistered, hstamped⟩
    -- No other key has its runtime.
    have hkey : key = key' := hcurrent'.fresh.single key key' _
      (hcurrent'.fresh.registered key record hget) hregistered
    rw [hkey] at hget
    exact Nat.le_of_eq (by rw [hstamped record hget, ht])
  · rw [Bool.eq_false_of_not_eq_true hcarries, Bool.eq_false_of_not_eq_true hattends,
      Bool.or_self, if_neg (by simp)] at ht
    rcases Fleet.stamped_step s.fleet f a hf key record hget with
      ⟨_, hnow⟩ | ⟨_, old, hold, hhandle, htime⟩
    · rw [hnow]
      exact h.past _ t ht
    · rw [← hhandle] at ht
      rw [← htime]
      exact hdate key old t hold ht

/-- A record is up to date only where its session was stamped at the present. -/
theorem carryCond_of_upToDate (s s' : Activity) (a : FleetAction) (h : Current s)
    (hstep : s.step a = some s') (hdate : UpToDate s') : CarryCond s a := by
  rcases Option.map_eq_some_iff.mp hstep with ⟨f, hf, rfl⟩
  intro key record hget hcarries
  have hle : s.fleet.world.now ≤ record.lastUsed := by
    refine hdate key record s.fleet.world.now ?_ ?_
    · rw [(carries_registry s.fleet f a _ hf hcarries).1]
      exact hget
    · simp only [Fleet.passes_carries s.fleet f a _ hf, hcarries, Bool.true_or, if_true]
  have hstamp := h.stamped key record hget
  rw [hstamp, Nat.le_antisymm (h.stampPast key _ hstamp) hle]

/-- Up to date, a session counts as idle no longer than it is. -/
theorem idleFor_le (s : Activity) (h : UpToDate s) (now : Instant)
    (snapshot : MemorySessionSnapshot)
    (hmem : snapshot ∈ s.fleet.world.reg.memorySnapshots now) (t : Instant)
    (ht : s.lastActive snapshot.handle.runtime = some t) : snapshot.idleFor ≤ now - t := by
  rcases List.mem_map.mp hmem with ⟨record, hrecord, heq⟩
  rcases (Table.mem_values_iff _ _).mp hrecord with ⟨key, hget⟩
  rw [← heq] at ht ⊢
  have hle : t ≤ record.lastUsed := h key record t hget ht
  exact Nat.sub_le_sub_left hle now

/-- In every state of a run no session was active after the time of last use in its
    record, if and only if the session was stamped at that very instant whenever a
    message passes between a client and the server without the registry. Then no
    session counts as idle for longer than it is. -/
theorem upToDate_iff (idleTtl : Duration) (as : List FleetAction) :
    (Always step UpToDate (init idleTtl) as ↔ Along step CarryCond (init idleTtl) as) ∧
      ∀ s, UpToDate s → ∀ now, ∀ snapshot ∈ s.fleet.world.reg.memorySnapshots now, ∀ t,
        s.lastActive snapshot.handle.runtime = some t → snapshot.idleFor ≤ now - t := by
  have hdate : UpToDate (init idleTtl) := fun key record t _ h => absurd h (by simp [init])
  refine ⟨always_iff_along (I := Current) ?_ ?_ as _ (current_init idleTtl) hdate
    (along_true as _), fun s h now snapshot hmem t => idleFor_le s h now snapshot hmem t⟩
  · intro s a s' hI hP hstep _ hcond
    exact ⟨current_step s s' a hI hstep, upToDate_kept s s' a hI hP hstep hcond⟩
  · intro s a s' hI _ hstep _ hP
    exact carryCond_of_upToDate s s' a hI hstep hP

/-- A client attaches and connects to its stream, and sends a message after a
    while. -/
def streamAfterPause : List FleetAction :=
  Fleet.attachAndNotify ++
    [.world (.sect 2), .world (.sect 0), .connect 0 3, .world (.tick 5),
      .server 0 (.frame 3 ⟨protocolVersion, .lspIn, "lease_1", 1, .obj []⟩ 4)]

theorem streamAfterPause_isSome : (run step (init 0) streamAfterPause).isSome = true := by
  decide

/-- The record does not notice. -/
theorem stream_unnoticed :
    ¬ ∀ (idleTtl : Duration) (as : List FleetAction) (s : Activity),
      run step (init idleTtl) as = some s → UpToDate s := by
  intro hall
  have hdate := hall 0 streamAfterPause
    ((run step (init 0) streamAfterPause).get streamAfterPause_isSome) (Option.some_get _).symm
  exact absurd (hdate demoKey _ 5 rfl rfl) (by decide)

end Activity

end Lspee
