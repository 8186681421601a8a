import Lspee.Theory.Identity

/-!
# What the Attach Counters Count

Every call of `acquire_or_spawn` is counted three times at most: as an attach
request in its first section, and as a reuse or as a spawn in the section that
grants its lease. A call that waits and tries again does not count its request
again, and one whose closure fails is counted as neither.

So each section moves a call from one of four places to the next, and the
counters follow it: not yet counted, under way, granted, failed. `Booked` says
this of one section, and the sum over all calls follows (`booked_step`). The
leases are counted by the log, and by the counter that names them.

## Main definitions

* `RegistryCounters.settled`: Reuses and spawns together.
* `RegistryCounters.Le`: No counter is larger.
* `Frame.attaching`, `Frame.failed`: Where an acquire is.
* `Booked`: What a section does to the counters.
* `AttachesBooked`: What every run keeps.

## Theorems

* `section_booked`: Every section keeps the books.
* `booked_step`: And so does every step.
* `requests_run`: Every call is counted as a request.
* `attach_accounting`: The books balance in every reachable state.
-/

namespace Lspee

open Transition

namespace RegistryCounters

/-- The requests that have led to a lease. -/
def settled (counters : RegistryCounters) : Nat :=
  counters.sessionsReusedTotal + counters.sessionsSpawnedTotal

/-- No counter of the first is larger than that of the second. -/
structure Le (counters more : RegistryCounters) : Prop where
  spawned : counters.sessionsSpawnedTotal ≤ more.sessionsSpawnedTotal
  reused : counters.sessionsReusedTotal ≤ more.sessionsReusedTotal
  gcIdle : counters.sessionsGcIdleTotal ≤ more.sessionsGcIdleTotal
  evictedMemory : counters.sessionsEvictedMemoryTotal ≤ more.sessionsEvictedMemoryTotal
  crashes : counters.sessionCrashesTotal ≤ more.sessionCrashesTotal
  attachRequests : counters.attachRequestsTotal ≤ more.attachRequestsTotal

theorem le_refl (counters : RegistryCounters) : counters.Le counters :=
  ⟨Nat.le_refl _, Nat.le_refl _, Nat.le_refl _, Nat.le_refl _, Nat.le_refl _, Nat.le_refl _⟩

theorem le_trans (a b c : RegistryCounters) (hab : a.Le b) (hbc : b.Le c) : a.Le c where
  spawned := Nat.le_trans hab.spawned hbc.spawned
  reused := Nat.le_trans hab.reused hbc.reused
  gcIdle := Nat.le_trans hab.gcIdle hbc.gcIdle
  evictedMemory := Nat.le_trans hab.evictedMemory hbc.evictedMemory
  crashes := Nat.le_trans hab.crashes hbc.crashes
  attachRequests := Nat.le_trans hab.attachRequests hbc.attachRequests

end RegistryCounters

namespace Frame

/-- An acquire past its first section that has neither counted a reuse or a
    spawn nor failed. -/
def attaching : Frame → Bool
  | .acquire _ _ .count => false
  | .acquire _ _ (.returned _) => false
  | .acquire _ _ _ => true
  | _ => false

/-- An acquire that has returned an error. -/
def failed : Frame → Bool
  | .acquire _ _ (.returned (.error _)) => true
  | _ => false

/-- An acquire before its first section. -/
def requesting : Frame → Bool
  | .acquire _ _ .count => true
  | _ => false

/-- What a call adds to the requests that have not led to a lease. -/
def unsettled (frame : Frame) : Nat :=
  (if frame.attaching then 1 else 0) + if frame.failed then 1 else 0

end Frame

/-- What a section does to the counters. -/
structure Booked (r : SessionRegistry) (frame : Frame) (r' : SessionRegistry) (frame' : Frame)
    (events : List Event) : Prop where
  attaches : r'.counters.attachRequestsTotal + r.counters.settled + frame.unsettled =
    r.counters.attachRequestsTotal + r'.counters.settled + frame'.unsettled
  requests : r'.counters.attachRequestsTotal + (if frame'.requesting then 1 else 0) =
    r.counters.attachRequestsTotal + (if frame.requesting then 1 else 0)
  granted : r'.counters.settled = r.counters.settled + grantCount events
  grows : r.counters.Le r'.counters

/-- A section that leaves the counters alone moves its call to no other place. -/
theorem booked_same (r r' : SessionRegistry) (frame frame' : Frame) (events : List Event)
    (hcounters : r'.counters = r.counters) (hframe : frame'.unsettled = frame.unsettled)
    (hrequest : frame'.requesting = frame.requesting)
    (hevents : ∀ event ∈ events, event.isGranted = false) : Booked r frame r' frame' events := by
  have hzero : grantCount events = 0 := by
    rw [grantCount, List.countP_eq_zero]
    intro event hmem
    rw [hevents event hmem]
    exact Bool.false_ne_true
  refine ⟨?_, ?_, ?_, ?_⟩
  · rw [hcounters, hframe]
  · rw [hcounters, hrequest]
  · rw [hcounters, hzero, Nat.add_zero]
  · rw [hcounters]
    exact RegistryCounters.le_refl _

/-- A section of an acquire. -/
theorem acquire_booked (call : CallId) (now : Instant) (r r' : SessionRegistry)
    (key : SessionKey) (clientKind : Option ClientKind) (pc pc' : AcquirePc)
    (events : List Event)
    (h : pc.section call key clientKind now r = some (r', pc', events)) :
    Booked r (.acquire key clientKind pc) r' (.acquire key clientKind pc') events := by
  cases pc with
  | count =>
      -- The request is counted, and the call is under way.
      simp only [AcquirePc.section, Option.some.injEq, Prod.mk.injEq] at h
      rcases h with ⟨rfl, rfl, rfl⟩
      have hle := RegistryCounters.le_refl r.counters
      refine ⟨?_, rfl, rfl, hle.spawned, hle.reused, hle.gcIdle, hle.evictedMemory, hle.crashes,
        Nat.le_succ _⟩
      simp only [SessionRegistry.countAttach, RegistryCounters.settled, Frame.unsettled,
        Frame.attaching, Frame.failed, if_true, Bool.false_eq_true, if_false]
      omega
  | gate =>
      simp only [AcquirePc.section, Option.some.injEq, Prod.mk.injEq] at h
      rcases h with ⟨rfl, rfl, rfl⟩
      refine booked_same _ _ _ _ _ ?_ rfl rfl (by simp)
      unfold SessionRegistry.gateEntry
      split <;> rfl
  | lookup g =>
      cases hrec : r.sessions.get? key with
      | none =>
          simp only [AcquirePc.section, hrec, Option.some.injEq, Prod.mk.injEq] at h
          rcases h with ⟨rfl, rfl, rfl⟩
          exact booked_same _ _ _ _ _ rfl rfl rfl (by simp)
      | some record =>
          -- The lease is granted, and the reuse counted.
          simp only [AcquirePc.section, hrec, Option.some.injEq, Prod.mk.injEq] at h
          rcases h with ⟨rfl, rfl, rfl⟩
          have hle := RegistryCounters.le_refl r.counters
          refine ⟨?_, rfl, ?_, hle.spawned, Nat.le_succ _, hle.gcIdle, hle.evictedMemory,
            hle.crashes, hle.attachRequests⟩
          · simp only [SessionRegistry.reuseSession, SessionRegistry.grantLease,
              RegistryCounters.settled, Frame.unsettled, Frame.attaching, Frame.failed, if_true,
              Bool.false_eq_true, if_false]
            omega
          · have hone : grantCount [.granted call (r.reuseSession key clientKind record now).2
                record.handle.runtime] = 1 := rfl
            rw [hone]
            simp only [SessionRegistry.reuseSession, SessionRegistry.grantLease,
              RegistryCounters.settled]
            omega
  | enter g =>
      by_cases hstarted : (r.gateHeap g).started = true
      · simp only [AcquirePc.section, SessionRegistry.enterGate, hstarted, if_true,
          Option.some.injEq, Prod.mk.injEq] at h
        rcases h with ⟨rfl, rfl, rfl⟩
        exact booked_same _ _ _ _ _ rfl rfl rfl (by simp)
      · simp only [AcquirePc.section, SessionRegistry.enterGate, hstarted, if_false,
          Bool.false_eq_true, Option.some.injEq, Prod.mk.injEq] at h
        rcases h with ⟨rfl, rfl, rfl⟩
        exact booked_same _ _ _ _ _ rfl rfl rfl (by simp [Event.isGranted])
  | spawning g => exact absurd h (by simp [AcquirePc.section])
  | leave g result =>
      cases result with
      | ok handle | error error =>
          simp only [AcquirePc.section, Option.some.injEq, Prod.mk.injEq] at h
          rcases h with ⟨rfl, rfl, rfl⟩
          exact booked_same _ _ _ _ _ rfl rfl rfl (by simp)
  | publish handle =>
      -- The lease is granted, and the spawn counted, whether or not the record is new.
      simp only [AcquirePc.section, Option.some.injEq, Prod.mk.injEq] at h
      rcases h with ⟨rfl, rfl, rfl⟩
      have hle := RegistryCounters.le_refl r.counters
      refine ⟨?_, rfl, ?_, Nat.le_succ _, hle.reused, hle.gcIdle, hle.evictedMemory, hle.crashes,
        hle.attachRequests⟩
      · simp only [SessionRegistry.publishSession, SessionRegistry.grantLease,
          RegistryCounters.settled, Frame.unsettled, Frame.attaching, Frame.failed, if_true,
          Bool.false_eq_true, if_false]
        omega
      · have hrest : grantCount (if (r.sessions.get? key).isSome then []
            else [.registered key handle.runtime]) = 0 := by
          split <;> rfl
        have hone : ∀ (lease : Lease) (runtime : RuntimeId) (rest : List Event),
            grantCount (.granted call lease runtime :: rest) = grantCount rest + 1 :=
          fun _ _ _ => List.countP_cons_of_pos rfl
        rw [hone, hrest]
        simp only [SessionRegistry.publishSession, SessionRegistry.grantLease,
          RegistryCounters.settled]
        omega
  | dropGate error =>
      simp only [AcquirePc.section, Option.some.injEq, Prod.mk.injEq] at h
      rcases h with ⟨rfl, rfl, rfl⟩
      exact booked_same _ _ _ _ _ rfl rfl rfl (by simp)
  | waiting g epoch =>
      simp only [AcquirePc.section] at h
      split at h
      · simp only [Option.some.injEq, Prod.mk.injEq] at h
        rcases h with ⟨rfl, rfl, rfl⟩
        exact booked_same _ _ _ _ _ rfl rfl rfl (by simp)
      · exact absurd h (by simp)
  | returned result => exact absurd h (by simp [AcquirePc.section])

/-! ### The other methods -/

theorem counters_release (id : String) (now : Instant) (r r' : SessionRegistry)
    (pc pc' : ReleasePc) (h : pc.section id now r = some (r', pc')) :
    r'.counters = r.counters := by
  cases pc with
  | take =>
      cases hlease : r.leases.get? id <;>
        simp only [ReleasePc.section, SessionRegistry.takeLease, hlease, Option.some.injEq,
          Prod.mk.injEq] at h <;>
        rw [← h.1]
      rfl
  | decrement key =>
      simp only [ReleasePc.section, Option.some.injEq, Prod.mk.injEq] at h
      rw [← h.1]
      unfold SessionRegistry.releaseSession
      split <;> rfl
  | returned result => exact absurd h (by simp [ReleasePc.section])

theorem counters_remove (key : SessionKey) (r r' : SessionRegistry) (pc pc' : RemovePc)
    (h : pc.section key r = some (r', pc')) : r'.counters = r.counters := by
  cases pc with
  | session | leases =>
      simp only [RemovePc.section, Option.some.injEq, Prod.mk.injEq] at h
      rw [← h.1]
      rfl
  | returned => exact absurd h (by simp [RemovePc.section])

theorem counters_touch (r : SessionRegistry) (key : SessionKey) (now : Instant) :
    (r.touch key now).counters = r.counters := by
  unfold SessionRegistry.touch
  split <;> rfl

theorem counters_forward (call : CallId) (id : String) (message : Json) (now : Instant)
    (r r' : SessionRegistry) (pc pc' : ForwardPc) (events : List Event)
    (h : pc.section call id message now r = some (r', pc', events)) :
    r'.counters = r.counters ∧ ∀ event ∈ events, event.isGranted = false := by
  cases pc with
  | lease =>
      cases hkey : r.leaseKey id <;>
        simp only [ForwardPc.section, hkey, Option.some.injEq, Prod.mk.injEq] at h <;>
        rcases h with ⟨rfl, rfl, rfl⟩ <;> exact ⟨rfl, by simp⟩
  | session key =>
      unfold ForwardPc.section at h
      cases hlookup : r.lookupRuntime key now with
      | missing | rejected error =>
          simp only [hlookup, Option.some.injEq, Prod.mk.injEq] at h
          rcases h with ⟨rfl, rfl, rfl⟩
          exact ⟨rfl, by simp⟩
      | found r₁ handle =>
          simp only [hlookup, Option.some.injEq, Prod.mk.injEq] at h
          rcases h with ⟨rfl, rfl, rfl⟩
          refine ⟨?_, by simp [Event.isGranted]⟩
          -- A lookup that finds the session writes its time of last use.
          unfold SessionRegistry.lookupRuntime at hlookup
          cases hrec : r.sessions.get? key with
          | none => simp only [hrec, reduceCtorEq] at hlookup
          | some record =>
              simp only [hrec] at hlookup
              by_cases hterm : record.terminating = true
              · rw [if_pos hterm] at hlookup
                split at hlookup <;> exact absurd hlookup (by simp)
              · rw [if_neg hterm, SessionRegistry.RuntimeLookup.found.injEq] at hlookup
                rw [← hlookup.1]
  | awaiting key runtime => exact absurd h (by simp [ForwardPc.section])
  | touch key response =>
      simp only [ForwardPc.section, Option.some.injEq, Prod.mk.injEq] at h
      rcases h with ⟨rfl, rfl, rfl⟩
      exact ⟨counters_touch r key now, by simp⟩
  | returned result => exact absurd h (by simp [ForwardPc.section])

/-- Every section keeps the books. -/
theorem section_booked (call : CallId) (now : Instant) (r r' : SessionRegistry)
    (frame frame' : Frame) (events : List Event)
    (h : frame.section call now r = some (r', frame', events)) :
    Booked r frame r' frame' events := by
  cases frame with
  | acquire key clientKind pc =>
      rcases section_acquire call now r r' key clientKind pc frame' events h with
        ⟨lease, rfl, rfl, rfl, rfl⟩ | ⟨pc', hsec, rfl⟩
      · -- the attach looks up the handle for the lease it has
        refine booked_same _ _ _ _ _ rfl rfl rfl fun event hmem => ?_
        rcases List.mem_map.mp hmem with ⟨handle, _, rfl⟩
        rfl
      · exact acquire_booked call now r r' key clientKind pc pc' events hsec
  | attached lease handle => exact absurd h (by simp [Frame.section])
  | release id pc =>
      rw [Frame.section, Option.map_eq_some_iff] at h
      rcases h with ⟨⟨r₁, pc₁⟩, hsec, heq⟩
      simp only [Prod.mk.injEq] at heq
      rcases heq with ⟨rfl, rfl, rfl⟩
      exact booked_same _ _ _ _ _ (counters_release id now r r₁ pc pc₁ hsec) rfl rfl (by simp)
  | remove key pc =>
      rw [Frame.section, Option.map_eq_some_iff] at h
      rcases h with ⟨⟨r₁, pc₁⟩, hsec, heq⟩
      simp only [Prod.mk.injEq] at heq
      rcases heq with ⟨rfl, rfl, rfl⟩
      exact booked_same _ _ _ _ _ (counters_remove key r r₁ pc pc₁ hsec) rfl rfl (by simp)
  | forward kind id message pc =>
      rw [Frame.section, Option.map_eq_some_iff] at h
      rcases h with ⟨⟨r₁, pc₁, events₁⟩, hsec, heq⟩
      simp only [Prod.mk.injEq] at heq
      rcases heq with ⟨rfl, rfl, rfl⟩
      rcases counters_forward call id message now r r₁ pc pc₁ events₁ hsec with
        ⟨hcounters, hevents⟩
      exact booked_same _ _ _ _ _ hcounters rfl rfl hevents
  | touch key returned =>
      simp only [Frame.section, Option.ite_none_left_eq_some, Option.some.injEq,
        Prod.mk.injEq] at h
      rcases h with ⟨_, rfl, rfl, rfl⟩
      exact booked_same _ _ _ _ _ (counters_touch r key now) rfl rfl (by simp)
  | mark key notice returned =>
      simp only [Frame.section, Option.ite_none_left_eq_some, Option.some.injEq,
        Prod.mk.injEq] at h
      rcases h with ⟨_, rfl, rfl, rfl⟩
      refine booked_same _ _ _ _ _ ?_ rfl rfl fun event hmem => ?_
      · unfold SessionRegistry.markTerminatingWithNotice
        split <;> rfl
      · rcases selected_of_markEvents r key event hmem with ⟨runtime, rfl⟩
        rfl
  | idle start result =>
      cases result with
      | some handles => exact absurd h (by simp [Frame.section])
      | none =>
          simp only [Frame.section, Option.some.injEq, Prod.mk.injEq] at h
          rcases h with ⟨rfl, rfl, rfl⟩
          refine booked_same _ _ _ _ _ rfl rfl rfl fun event hmem => ?_
          rcases List.mem_map.mp hmem with ⟨handle, _, rfl⟩
          rfl
  | increment evictor returned =>
      simp only [Frame.section, Option.ite_none_left_eq_some, Option.some.injEq,
        Prod.mk.injEq] at h
      rcases h with ⟨_, rfl, rfl, rfl⟩
      -- One counter goes up, and none of those that the log is booked against.
      have hle := RegistryCounters.le_refl r.counters
      cases evictor with
      | idle => exact ⟨rfl, rfl, rfl, hle.spawned, hle.reused, Nat.le_succ _, hle.evictedMemory,
          hle.crashes, hle.attachRequests⟩
      | memory => exact ⟨rfl, rfl, rfl, hle.spawned, hle.reused, hle.gcIdle, Nat.le_succ _,
          hle.crashes, hle.attachRequests⟩
  | crash returned =>
      simp only [Frame.section, Option.ite_none_left_eq_some, Option.some.injEq,
        Prod.mk.injEq] at h
      rcases h with ⟨_, rfl, rfl, rfl⟩
      have hle := RegistryCounters.le_refl r.counters
      exact ⟨rfl, rfl, rfl, hle.spawned, hle.reused, hle.gcIdle, hle.evictedMemory, Nat.le_succ _,
        hle.attachRequests⟩

namespace World

/-- How many acquires are past their first section and have neither counted a
    reuse or a spawn nor failed. -/
def attachingCount (w : World) : Nat := w.calls.count fun _ frame => frame.attaching

/-- How many acquires have returned an error. -/
def failedCount (w : World) : Nat := w.calls.count fun _ frame => frame.failed

/-- What every run keeps of the counters. -/
structure AttachesBooked (w : World) : Prop where
  attaches : w.reg.counters.attachRequestsTotal =
    w.reg.counters.settled + w.failedCount + w.attachingCount
  granted : w.reg.counters.settled = grantCount w.log

theorem booked_init (idleTtl : Duration) : AttachesBooked (init idleTtl) where
  attaches := rfl
  granted := rfl

/-- A call that moves takes its place in the sums with it. -/
theorem booked_moved (w : World) (h : AttachesBooked w) (call : CallId) (frame frame' : Frame)
    (r' : SessionRegistry) (events : List Event) (hcall : w.calls.get? call = some frame)
    (hbooked : Booked w.reg frame r' frame' events) :
    AttachesBooked (w.moved call r' frame' events) := by
  have hattaching := Table.count_set_of_get? w.calls (fun _ frame => frame.attaching) call frame
    frame' hcall
  have hfailed := Table.count_set_of_get? w.calls (fun _ frame => frame.failed) call frame frame'
    hcall
  have hlog : grantCount (events ++ w.log) = grantCount events + grantCount w.log :=
    List.countP_append
  have hattaches := h.attaches
  have hbook := hbooked.attaches
  unfold Frame.unsettled at hbook
  unfold attachingCount failedCount at hattaches
  constructor
  · unfold attachingCount failedCount moved
    simp only
    omega
  · have hgranted := hbooked.granted
    have hold := h.granted
    simp only [moved, hlog]
    omega

theorem booked_step (w w' : World) (a : Action) (h : AttachesBooked w)
    (hstep : w.step a = some w') : AttachesBooked w' ∧ w.reg.counters.Le w'.reg.counters := by
  cases a with
  | tick span =>
      simp only [step, Option.some.injEq] at hstep
      rw [← hstep]
      exact ⟨⟨h.attaches, h.granted⟩, RegistryCounters.le_refl _⟩
  | start call method =>
      simp only [step] at hstep
      cases hcall : w.calls.get? call with
      | some frame => simp only [hcall, reduceCtorEq] at hstep
      | none =>
          simp only [hcall, Option.some.injEq] at hstep
          -- A call that begins has counted nothing.
          have hnew : (method.frame w.now).attaching = false ∧
              (method.frame w.now).failed = false := by
            cases method <;> exact ⟨rfl, rfl⟩
          have hattaching := Table.count_set_of_get?_none w.calls
            (fun _ frame => frame.attaching) call (method.frame w.now) hcall
          have hfailed := Table.count_set_of_get?_none w.calls
            (fun _ frame => frame.failed) call (method.frame w.now) hcall
          simp only [hnew.1, hnew.2, Bool.false_eq_true, if_false, Nat.add_zero]
            at hattaching hfailed
          have hattaches := h.attaches
          unfold attachingCount failedCount at hattaches
          rw [← hstep]
          refine ⟨⟨?_, h.granted⟩, RegistryCounters.le_refl _⟩
          unfold attachingCount failedCount
          simp only [hattaching, hfailed]
          exact hattaches
  | sect call =>
      simp only [step] at hstep
      cases hcall : w.calls.get? call with
      | none => simp only [hcall, reduceCtorEq] at hstep
      | some frame =>
          simp only [hcall, Option.map_eq_some_iff] at hstep
          rcases hstep with ⟨⟨r', frame', events⟩, hsec, heq⟩
          have hbooked := section_booked call w.now w.reg r' frame frame' events hsec
          rw [← heq]
          exact ⟨booked_moved w h call frame frame' r' events hcall hbooked, hbooked.grows⟩
  | spawnReturns call result =>
      simp only [step] at hstep
      split at hstep
      · next key clientKind g hcall =>
        -- The call is under way before and after.
        have hbooked : ∀ result event, event.isGranted = false →
            Booked w.reg (.acquire key clientKind (.spawning g)) w.reg
              (.acquire key clientKind (.leave g result)) [event] :=
          fun result event hevent => booked_same _ _ _ _ _ rfl rfl rfl (by simp [hevent])
        rw [Option.some.injEq] at hstep
        rw [← hstep]
        cases result with
        | ok initializeResult =>
            have hmoved := booked_moved w h call _ _ w.reg _ hcall
              (hbooked (.ok ⟨key, w.nextRuntime, initializeResult⟩) (.spawnOk call
                ⟨key, w.nextRuntime, initializeResult⟩) rfl)
            exact ⟨⟨hmoved.attaches, hmoved.granted⟩, RegistryCounters.le_refl _⟩
        | error error =>
            exact ⟨booked_moved w h call _ _ w.reg _ hcall (hbooked (.error error)
              (.spawnFailed call key) rfl), RegistryCounters.le_refl _⟩
      · exact absurd hstep (by simp)
  | runtimeReturns call result =>
      simp only [step] at hstep
      split at hstep
      · next kind id message key runtime hcall =>
        rw [Option.some.injEq] at hstep
        rw [← hstep]
        cases result with
        | ok response | error error =>
            exact ⟨booked_moved w h call _ _ w.reg [] hcall
              (booked_same _ _ _ _ _ rfl rfl rfl (by simp)), RegistryCounters.le_refl _⟩
      · exact absurd hstep (by simp)

theorem booked_run (idleTtl : Duration) (as : List Action) (w : World)
    (h : run step (init idleTtl) as = some w) : AttachesBooked w :=
  run_invariant (fun s a s' hs hstep _ => (booked_step s s' a hs hstep).1) as _ w h
    (booked_init idleTtl) (along_true as _)

/-! ### Every request is counted -/

/-- The step is a call of `acquire_or_spawn`. -/
def acquires : Action → Bool
  | .start _ (.acquireOrSpawn _ _) => true
  | _ => false

/-- How many acquires are before their first section. -/
def requestingCount (w : World) : Nat := w.calls.count fun _ frame => frame.requesting

theorem requests_moved (w : World) (call : CallId) (frame frame' : Frame) (r' : SessionRegistry)
    (events : List Event) (hcall : w.calls.get? call = some frame)
    (hbooked : Booked w.reg frame r' frame' events) :
    (w.moved call r' frame' events).reg.counters.attachRequestsTotal +
        (w.moved call r' frame' events).requestingCount =
      w.reg.counters.attachRequestsTotal + w.requestingCount := by
  have hcount := Table.count_set_of_get? w.calls (fun _ frame => frame.requesting) call frame
    frame' hcall
  have hrequests := hbooked.requests
  unfold requestingCount moved
  simp only
  omega

theorem requests_step (w w' : World) (a : Action) (hstep : w.step a = some w') :
    w'.reg.counters.attachRequestsTotal + w'.requestingCount =
      w.reg.counters.attachRequestsTotal + w.requestingCount + if acquires a then 1 else 0 := by
  cases a with
  | tick span =>
      simp only [step, Option.some.injEq] at hstep
      rw [← hstep]
      rfl
  | start call method =>
      simp only [step] at hstep
      cases hcall : w.calls.get? call with
      | some frame => simp only [hcall, reduceCtorEq] at hstep
      | none =>
          simp only [hcall, Option.some.injEq] at hstep
          have hcount := Table.count_set_of_get?_none w.calls
            (fun _ frame => frame.requesting) call (method.frame w.now) hcall
          -- Only an acquire begins with a request that is yet to be counted.
          have hnew : (method.frame w.now).requesting = acquires (.start call method) := by
            cases method <;> rfl
          rw [hnew] at hcount
          rw [← hstep]
          unfold requestingCount
          simp only
          omega
  | sect call =>
      simp only [step] at hstep
      cases hcall : w.calls.get? call with
      | none => simp only [hcall, reduceCtorEq] at hstep
      | some frame =>
          simp only [hcall, Option.map_eq_some_iff] at hstep
          rcases hstep with ⟨⟨r', frame', events⟩, hsec, heq⟩
          rw [← heq]
          exact requests_moved w call frame frame' r' events hcall
            (section_booked call w.now w.reg r' frame frame' events hsec)
  | spawnReturns call result =>
      simp only [step] at hstep
      split at hstep
      · next key clientKind g hcall =>
        rw [Option.some.injEq] at hstep
        rw [← hstep]
        cases result with
        | ok initializeResult =>
            exact requests_moved w call _ _ w.reg [] hcall
              (booked_same _ _ _ (.acquire key clientKind
                (.leave g (.ok ⟨key, w.nextRuntime, initializeResult⟩))) _ rfl rfl rfl (by simp))
        | error error =>
            exact requests_moved w call _ _ w.reg [] hcall
              (booked_same _ _ _ (.acquire key clientKind (.leave g (.error error))) _ rfl rfl rfl
                (by simp))
      · exact absurd hstep (by simp)
  | runtimeReturns call result =>
      simp only [step] at hstep
      split at hstep
      · next kind id message key runtime hcall =>
        rw [Option.some.injEq] at hstep
        rw [← hstep]
        cases result with
        | ok response | error error =>
            exact requests_moved w call _ _ w.reg [] hcall
              (booked_same _ _ _ _ _ rfl rfl rfl (by simp))
      · exact absurd hstep (by simp)

theorem requests_run (as : List Action) (w w' : World) (h : run step w as = some w') :
    w'.reg.counters.attachRequestsTotal + w'.requestingCount =
      w.reg.counters.attachRequestsTotal + w.requestingCount + as.countP acquires := by
  induction as generalizing w with
  | nil =>
      rw [run, Option.some.injEq] at h
      rw [h, List.countP_nil, Nat.add_zero]
  | cons a as ih =>
      rcases exists_of_run_cons a as w w' h with ⟨u, hu, hrest⟩
      have hone := requests_step w u a hu
      have hmany := ih u hrest
      rw [List.countP_cons]
      omega

/-- There are no more leases than calls of `acquire_or_spawn`. -/
theorem grantCount_le_acquires (idleTtl : Duration) (as : List Action) (w : World)
    (h : run step (init idleTtl) as = some w) : grantCount w.log ≤ as.countP acquires := by
  have hbooked := booked_run idleTtl as w h
  have hrequests : w.reg.counters.attachRequestsTotal + w.requestingCount =
      as.countP acquires := by
    rw [requests_run as (init idleTtl) w h]
    exact Nat.zero_add _
  have hattaches := hbooked.attaches
  have hgranted := hbooked.granted
  omega

/-- No counter ever decreases. -/
theorem counters_grow (as : List Action) (w w' : World) (h : AttachesBooked w)
    (hrun : run step w as = some w') : w.reg.counters.Le w'.reg.counters := by
  induction as generalizing w with
  | nil =>
      rw [run, Option.some.injEq] at hrun
      rw [hrun]
      exact RegistryCounters.le_refl _
  | cons a as ih =>
      rcases exists_of_run_cons a as w w' hrun with ⟨u, hu, hrest⟩
      rcases booked_step w u a h hu with ⟨hbooked, hle⟩
      exact RegistryCounters.le_trans _ _ _ hle (ih u hbooked hrest)

/-- In every reachable state the attach requests are the reuses, the spawns, the
    acquires that have failed and those under way. As many leases have been
    named as reuses and spawns were counted. And no counter is smaller in any
    later state. -/
theorem attach_accounting (idleTtl : Duration) (as : List Action) (w : World)
    (h : run step (init idleTtl) as = some w) :
    w.reg.counters.attachRequestsTotal =
      w.reg.counters.sessionsReusedTotal + w.reg.counters.sessionsSpawnedTotal + w.failedCount +
        w.attachingCount ∧
    grantCount w.log =
      w.reg.counters.sessionsReusedTotal + w.reg.counters.sessionsSpawnedTotal ∧
    w.reg.leaseSeq = (1 + grantCount w.log) % 2 ^ 64 ∧
    ∀ bs w', run step w bs = some w' → w.reg.counters.Le w'.reg.counters := by
  have hbooked := booked_run idleTtl as w h
  exact ⟨hbooked.attaches, hbooked.granted.symm, (leaseIds_run idleTtl as w h).seq,
    fun bs w' hrun => counters_grow bs w w' hbooked hrun⟩

/-- An acquire that shares a session while another is under way and a third one
    has failed. -/
def attachesAtOnce : List Action :=
  acquireFresh 0 ++ acquireReuse 1 ++ removeAll 2 ++ acquireUntilSpawn 3 ++
    [.spawnReturns 3 (.error "no such server"), .sect 3, .sect 3] ++ acquireUntilSpawn 4

theorem attachesAtOnce_isSome : (run step (init 5) attachesAtOnce).isSome = true := by
  decide

theorem attach_accounting_attachesAtOnce :
    ((run step (init 5) attachesAtOnce).get attachesAtOnce_isSome).reg.counters.attachRequestsTotal
      = 4 ∧
    ((run step (init 5) attachesAtOnce).get attachesAtOnce_isSome).failedCount = 1 ∧
    ((run step (init 5) attachesAtOnce).get attachesAtOnce_isSome).attachingCount = 1 := by
  have haccounts :=
    attach_accounting 5 attachesAtOnce _ (Option.some_get attachesAtOnce_isSome).symm
  refine ⟨?_, by decide, by decide⟩
  rw [haccounts.1]
  decide

end World

end Lspee
