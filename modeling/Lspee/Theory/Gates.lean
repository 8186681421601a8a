import Lspee.Theory.Identity

/-!
# Spawn Gates

What a step does to the gates that coalesce spawns, and what the gates keep.

A caller that finds its gate started waits, a caller that finds it idle starts
it, and the caller that started it clears it and wakes the waiters. So a started
gate has exactly one caller behind it, and a waiter either has been woken or has
a caller to wait for: no wake-up is lost. Both hold in every reachable state,
whatever else happens to the registry (`gateInv_run`).

This is about gates, not about keys. That the callers of a key share one gate is
another matter.

## Main definitions

* `Frame.gate`, `Frame.busy`: The gate a caller holds, or has started.
* `Frame.spawns`, `Frame.publishing`, `Frame.waits`: Where the caller is.
* `Frame.disturbs`: The call is a removal of the key or a failed spawn.
* `spawnCount`: How many spawn closures were called for a key.
* `GateEffect`, `GateStep`: What a section, or a step, does to the gates.
* `GateInv`: The invariant of the gates.

## Theorems

* `section_gateEffect`, `gate_step`: Every section and every step has an effect.
* `gateInv_init`, `gateInv_step`, `gateInv_run`: The invariant.
* `notify_step`, `busy_step`, `woken_run`: Who is behind a gate wakes its waiters.
* `waiters_watched`: A waiter has been woken, or will be.
-/

namespace Lspee

open Transition

namespace Frame

/-- The key and the gate of a caller that holds a gate. -/
def gate : Frame → Option (SessionKey × GateId)
  | .acquire key _ (.lookup g) => some (key, g)
  | .acquire key _ (.enter g) => some (key, g)
  | .acquire key _ (.spawning g) => some (key, g)
  | .acquire key _ (.leave g _) => some (key, g)
  | .acquire key _ (.waiting g _) => some (key, g)
  | _ => none

/-- The key and the gate of a caller that has started the gate and not yet
    cleared it. -/
def busy : Frame → Option (SessionKey × GateId)
  | .acquire key _ (.spawning g) => some (key, g)
  | .acquire key _ (.leave g _) => some (key, g)
  | _ => none

/-- The key of a caller whose spawn closure is in progress. -/
def spawns : Frame → Option SessionKey
  | .acquire key _ (.spawning _) => some key
  | _ => none

/-- The key of a caller whose session is spawned and whose gate is cleared, but
    that has not published the session. -/
def publishing : Frame → Option SessionKey
  | .acquire key _ (.publish _) => some key
  | _ => none

/-- The gate and the epoch of a caller that waits. -/
def waits : Frame → Option (GateId × Nat)
  | .acquire _ _ (.waiting g epoch) => some (g, epoch)
  | _ => none

/-- The call removes the key, or acquires it and its spawn failed. -/
def disturbs (key : SessionKey) : Frame → Bool
  | .remove k _ => decide (k = key)
  | .acquire k _ (.leave _ (.error _)) => decide (k = key)
  | .acquire k _ (.dropGate _) => decide (k = key)
  | .acquire k _ (.returned (.error _)) => decide (k = key)
  | _ => false

theorem gate_of_busy (frame : Frame) (held : SessionKey × GateId) (h : frame.busy = some held) :
    frame.gate = some held := by
  unfold busy at h
  split at h
  · exact h
  · exact h
  · exact absurd h (by simp)

theorem gate_of_waits (frame : Frame) (g : GateId) (epoch : Nat)
    (h : frame.waits = some (g, epoch)) : ∃ key, frame.gate = some (key, g) := by
  unfold waits at h
  split at h
  · rename_i key clientKind g' epoch'
    rw [Option.some.injEq, Prod.mk.injEq] at h
    exact ⟨key, by rw [gate, h.1]⟩
  · exact absurd h (by simp)

theorem busy_of_spawns (frame : Frame) (key : SessionKey) (h : frame.spawns = some key) :
    ∃ g, frame.busy = some (key, g) := by
  unfold spawns at h
  split at h
  · rename_i k clientKind g
    exact ⟨g, congrArg (fun k => some (k, g)) (Option.some.inj h)⟩
  · exact absurd h (by simp)

end Frame

/-- The event is the call of a spawn closure for the key. -/
def Event.spawnsKey (key : SessionKey) : Event → Bool
  | .spawnCalled _ k => decide (k = key)
  | _ => false

/-- How many spawn closures were called for the key. -/
def spawnCount (key : SessionKey) (log : List Event) : Nat := log.countP (Event.spawnsKey key)

/-! ### What one section does to the gates -/

/-- What a section does to the gates. -/
inductive GateEffect (call : CallId) (r : SessionRegistry) :
    Frame → SessionRegistry → Frame → List Event → Prop where
  /-- The gates stay what they are, and so does the caller's own. -/
  | keep (frame frame' : Frame) (r' : SessionRegistry) (events : List Event)
      (hheap : r'.gateHeap = r.gateHeap) (hgates : r'.spawnGates = r.spawnGates)
      (hnext : r'.nextGate = r.nextGate)
      (hgate : ∀ held, frame'.gate = some held → frame.gate = some held)
      (hbusy : frame'.busy = frame.busy) (hwaits : frame'.waits = none)
      (hspawns : ∀ key, frame'.spawns = some key → frame.spawns = some key)
      (hpublish : frame.publishing = none) (hpublish' : frame'.publishing = none)
      (hdisturbs : ∀ key, frame'.disturbs key = true → frame.disturbs key = true)
      (hevents : ∀ key, ∀ event ∈ events, event.spawnsKey key = false) :
      GateEffect call r frame r' frame' events
  /-- A caller is given the gate registered for its key, or a new one. -/
  | gate (key : SessionKey) (clientKind : Option ClientKind) :
      GateEffect call r (.acquire key clientKind .gate) (r.gateEntry key).1
        (.acquire key clientKind (.lookup (r.gateEntry key).2)) []
  /-- A caller starts its gate and calls its closure. -/
  | spawn (key : SessionKey) (clientKind : Option ClientKind) (g : GateId)
      (hidle : (r.gateHeap g).started = false) :
      GateEffect call r (.acquire key clientKind (.enter g))
        { r with gateHeap :=
            Function.update r.gateHeap g { r.gateHeap g with started := true } }
        (.acquire key clientKind (.spawning g)) [.spawnCalled call key]
  /-- A caller finds its gate started and waits. -/
  | wait (key : SessionKey) (clientKind : Option ClientKind) (g : GateId)
      (hstarted : (r.gateHeap g).started = true) :
      GateEffect call r (.acquire key clientKind (.enter g)) r
        (.acquire key clientKind (.waiting g (r.gateHeap g).notify)) []
  /-- A caller clears its gate and wakes the waiters. -/
  | leave (key : SessionKey) (clientKind : Option ClientKind) (g : GateId)
      (result : Except String SessionHandle) (pc' : AcquirePc)
      (hpc' : (∃ handle, result = .ok handle ∧ pc' = .publish handle) ∨
        ∃ error, result = .error error ∧ pc' = .dropGate error) :
      GateEffect call r (.acquire key clientKind (.leave g result)) (r.leaveGate g)
        (.acquire key clientKind pc') []
  /-- A caller publishes its session, or finds one. -/
  | publish (key : SessionKey) (clientKind : Option ClientKind) (handle : SessionHandle)
      (r' : SessionRegistry) (lease : Lease) (events : List Event)
      (hheap : r'.gateHeap = r.gateHeap) (hgates : r'.spawnGates = r.spawnGates)
      (hnext : r'.nextGate = r.nextGate) (hsession : ∃ record, r'.sessions.get? key = some record)
      (hevents : ∀ k, ∀ event ∈ events, event.spawnsKey k = false) :
      GateEffect call r (.acquire key clientKind (.publish handle)) r'
        (.acquire key clientKind (.returned (.ok lease))) events
  /-- The entry of a key is dropped, by a removal or after a failed spawn. -/
  | drop (key : SessionKey) (frame frame' : Frame) (r' : SessionRegistry)
      (hheap : r'.gateHeap = r.gateHeap) (hgates : r'.spawnGates = r.spawnGates.erase key)
      (hnext : r'.nextGate = r.nextGate) (hgate : frame.gate = none) (hgate' : frame'.gate = none)
      (hpublish : frame.publishing = none) (hpublish' : frame'.publishing = none)
      (hdisturbs : frame.disturbs key = true)
      (hdisturbs' : ∀ k, frame'.disturbs k = true → frame.disturbs k = true) :
      GateEffect call r frame r' frame' []

theorem acquire_gateEffect (call : CallId) (now : Instant) (r r' : SessionRegistry)
    (key : SessionKey) (clientKind : Option ClientKind) (pc pc' : AcquirePc)
    (events : List Event)
    (h : pc.section call key clientKind now r = some (r', pc', events)) :
    GateEffect call r (.acquire key clientKind pc) r' (.acquire key clientKind pc') events := by
  cases pc with
  | count =>
      simp only [AcquirePc.section, Option.some.injEq, Prod.mk.injEq] at h
      rcases h with ⟨rfl, rfl, rfl⟩
      exact .keep _ _ _ _ rfl rfl rfl (by simp [Frame.gate]) rfl rfl (by simp [Frame.spawns]) rfl
        rfl (by simp [Frame.disturbs]) (by simp)
  | gate =>
      simp only [AcquirePc.section, Option.some.injEq, Prod.mk.injEq] at h
      rcases h with ⟨rfl, rfl, rfl⟩
      exact .gate key clientKind
  -- The reuse path leaves the gate as it is, whoever is behind it.
  | lookup g =>
      cases hrec : r.sessions.get? key with
      | none =>
          simp only [AcquirePc.section, hrec, Option.some.injEq, Prod.mk.injEq] at h
          rcases h with ⟨rfl, rfl, rfl⟩
          exact .keep _ _ _ _ rfl rfl rfl (by simp [Frame.gate]) rfl rfl (by simp [Frame.spawns])
            rfl rfl (by simp [Frame.disturbs]) (by simp)
      | some record =>
          simp only [AcquirePc.section, hrec, Option.some.injEq, Prod.mk.injEq] at h
          rcases h with ⟨rfl, rfl, rfl⟩
          exact .keep _ _ _ _ rfl rfl rfl (by simp [Frame.gate]) rfl rfl (by simp [Frame.spawns])
            rfl rfl (by simp [Frame.disturbs]) (by simp [Event.spawnsKey])
  | enter g =>
      -- The first caller at an idle gate spawns; the others wait for its signal.
      cases hstarted : (r.gateHeap g).started with
      | true =>
          simp only [AcquirePc.section, SessionRegistry.enterGate, hstarted, if_true,
            Option.some.injEq, Prod.mk.injEq] at h
          rcases h with ⟨rfl, rfl, rfl⟩
          exact .wait key clientKind g hstarted
      | false =>
          simp only [AcquirePc.section, SessionRegistry.enterGate, hstarted, if_false,
            Bool.false_eq_true, Option.some.injEq, Prod.mk.injEq] at h
          rcases h with ⟨rfl, rfl, rfl⟩
          exact .spawn key clientKind g hstarted
  | spawning g => exact absurd h (by simp [AcquirePc.section])
  | leave g result =>
      cases result with
      | ok handle =>
          simp only [AcquirePc.section, Option.some.injEq, Prod.mk.injEq] at h
          rcases h with ⟨rfl, rfl, rfl⟩
          exact .leave key clientKind g _ _ (Or.inl ⟨handle, rfl, rfl⟩)
      | error error =>
          simp only [AcquirePc.section, Option.some.injEq, Prod.mk.injEq] at h
          rcases h with ⟨rfl, rfl, rfl⟩
          exact .leave key clientKind g _ _ (Or.inr ⟨error, rfl, rfl⟩)
  | publish handle =>
      simp only [AcquirePc.section, Option.some.injEq, Prod.mk.injEq] at h
      rcases h with ⟨rfl, rfl, rfl⟩
      refine .publish key clientKind handle _ _ _ rfl rfl rfl ⟨_, Table.get?_set_self _ _ _⟩ ?_
      -- Publishing grants, and may register, but spawns nothing.
      intro k event hmem
      rcases List.mem_cons.mp hmem with rfl | hmem
      · rfl
      · split at hmem
        · exact absurd hmem (by simp)
        · rw [List.mem_singleton.mp hmem]
          rfl
  | dropGate error =>
      simp only [AcquirePc.section, Option.some.injEq, Prod.mk.injEq] at h
      rcases h with ⟨rfl, rfl, rfl⟩
      exact .drop key _ _ _ rfl rfl rfl rfl rfl rfl rfl (by simp [Frame.disturbs])
        (by simp [Frame.disturbs])
  | waiting g epoch =>
      simp only [AcquirePc.section] at h
      split at h
      · simp only [Option.some.injEq, Prod.mk.injEq] at h
        rcases h with ⟨rfl, rfl, rfl⟩
        exact .keep _ _ _ _ rfl rfl rfl (by simp [Frame.gate]) rfl rfl (by simp [Frame.spawns])
          rfl rfl (by simp [Frame.disturbs]) (by simp)
      · exact absurd h (by simp)
  | returned result => exact absurd h (by simp [AcquirePc.section])

/-- The sections of a removal drop the gate, or leave the gates alone. -/
theorem remove_gateEffect (call : CallId) (r r' : SessionRegistry) (key : SessionKey)
    (pc pc' : RemovePc) (h : pc.section key r = some (r', pc')) :
    GateEffect call r (.remove key pc) r' (.remove key pc') [] := by
  cases pc with
  | session =>
      simp only [RemovePc.section, Option.some.injEq, Prod.mk.injEq] at h
      rcases h with ⟨rfl, rfl⟩
      exact .keep _ _ _ _ rfl rfl rfl (by simp [Frame.gate]) rfl rfl (by simp [Frame.spawns]) rfl
        rfl (by simp [Frame.disturbs]) (by simp)
  | leases =>
      simp only [RemovePc.section, Option.some.injEq, Prod.mk.injEq] at h
      rcases h with ⟨rfl, rfl⟩
      exact .drop key _ _ _ rfl rfl rfl rfl rfl rfl rfl (by simp [Frame.disturbs])
        (by simp [Frame.disturbs])
  | returned => exact absurd h (by simp [RemovePc.section])

/-- A call that is neither an acquire nor a removal has nothing to do with the
    gates. -/
theorem keep_of_other (call : CallId) (r r' : SessionRegistry) (frame frame' : Frame)
    (events : List Event) (hheap : r'.gateHeap = r.gateHeap)
    (hgates : r'.spawnGates = r.spawnGates) (hnext : r'.nextGate = r.nextGate)
    (hframe : ∀ key clientKind pc, frame ≠ .acquire key clientKind pc)
    (hframe' : ∀ key clientKind pc, frame' ≠ .acquire key clientKind pc)
    (hremove' : ∀ key pc, frame' ≠ .remove key pc)
    (hevents : ∀ key, ∀ event ∈ events, event.spawnsKey key = false) :
    GateEffect call r frame r' frame' events := by
  refine .keep _ _ _ _ hheap hgates hnext ?_ ?_ ?_ ?_ ?_ ?_ ?_ hevents
  · cases frame' with
    | acquire key clientKind pc => exact absurd rfl (hframe' key clientKind pc)
    | _ => simp [Frame.gate]
  · cases frame with
    | acquire key clientKind pc => exact absurd rfl (hframe key clientKind pc)
    | _ =>
      cases frame' with
      | acquire key clientKind pc => exact absurd rfl (hframe' key clientKind pc)
      | _ => rfl
  · cases frame' with
    | acquire key clientKind pc => exact absurd rfl (hframe' key clientKind pc)
    | _ => rfl
  · cases frame' with
    | acquire key clientKind pc => exact absurd rfl (hframe' key clientKind pc)
    | _ => simp [Frame.spawns]
  · cases frame with
    | acquire key clientKind pc => exact absurd rfl (hframe key clientKind pc)
    | _ => rfl
  · cases frame' with
    | acquire key clientKind pc => exact absurd rfl (hframe' key clientKind pc)
    | _ => rfl
  · cases frame' with
    | acquire key clientKind pc => exact absurd rfl (hframe' key clientKind pc)
    | remove key pc => exact absurd rfl (hremove' key pc)
    | _ => simp [Frame.disturbs]

theorem release_gates (id : String) (now : Instant) (r r' : SessionRegistry) (pc pc' : ReleasePc)
    (h : pc.section id now r = some (r', pc')) :
    r'.gateHeap = r.gateHeap ∧ r'.spawnGates = r.spawnGates ∧ r'.nextGate = r.nextGate := by
  cases pc with
  | take =>
      cases hlease : r.leases.get? id <;>
        simp only [ReleasePc.section, SessionRegistry.takeLease, hlease, Option.some.injEq,
          Prod.mk.injEq] at h <;>
        rcases h with ⟨rfl, -⟩ <;>
        exact ⟨rfl, rfl, rfl⟩
  | decrement key =>
      simp only [ReleasePc.section, Option.some.injEq, Prod.mk.injEq] at h
      rcases h with ⟨rfl, -⟩
      unfold SessionRegistry.releaseSession
      split <;> exact ⟨rfl, rfl, rfl⟩
  | returned result => exact absurd h (by simp [ReleasePc.section])

theorem forward_gates (call : CallId) (id : String) (message : Json) (now : Instant)
    (r r' : SessionRegistry) (pc pc' : ForwardPc) (events : List Event)
    (h : pc.section call id message now r = some (r', pc', events)) :
    r'.gateHeap = r.gateHeap ∧ r'.spawnGates = r.spawnGates ∧ r'.nextGate = r.nextGate ∧
      ∀ key, ∀ event ∈ events, event.spawnsKey key = false := by
  cases pc with
  | lease =>
      cases hkey : r.leaseKey id <;>
        simp only [ForwardPc.section, hkey, Option.some.injEq, Prod.mk.injEq] at h <;>
        rcases h with ⟨rfl, rfl, rfl⟩ <;>
        exact ⟨rfl, rfl, rfl, by simp⟩
  | session key =>
      simp only [ForwardPc.section] at h
      cases hfound : r.lookupRuntime key now with
      | missing =>
          simp only [hfound, Option.some.injEq, Prod.mk.injEq] at h
          rcases h with ⟨rfl, rfl, rfl⟩
          exact ⟨rfl, rfl, rfl, by simp⟩
      | rejected error =>
          simp only [hfound, Option.some.injEq, Prod.mk.injEq] at h
          rcases h with ⟨rfl, rfl, rfl⟩
          exact ⟨rfl, rfl, rfl, by simp⟩
      | found r₁ handle =>
          simp only [hfound, Option.some.injEq, Prod.mk.injEq] at h
          rcases h with ⟨rfl, rfl, rfl⟩
          have hsame : r₁.gateHeap = r.gateHeap ∧ r₁.spawnGates = r.spawnGates ∧
              r₁.nextGate = r.nextGate := by
            unfold SessionRegistry.lookupRuntime at hfound
            split at hfound
            · exact absurd hfound (by simp)
            · split at hfound
              · split at hfound <;> exact absurd hfound (by simp)
              · rw [SessionRegistry.RuntimeLookup.found.injEq] at hfound
                rw [← hfound.1]
                exact ⟨rfl, rfl, rfl⟩
          exact ⟨hsame.1, hsame.2.1, hsame.2.2, by simp [Event.spawnsKey]⟩
  | awaiting key runtime => exact absurd h (by simp [ForwardPc.section])
  | touch key response =>
      simp only [ForwardPc.section, Option.some.injEq, Prod.mk.injEq] at h
      rcases h with ⟨rfl, rfl, rfl⟩
      refine ⟨?_, ?_, ?_, by simp⟩ <;> (unfold SessionRegistry.touch; split <;> rfl)
  | returned result => exact absurd h (by simp [ForwardPc.section])

/-- Every section has an effect on the gates. -/
theorem section_gateEffect (call : CallId) (now : Instant) (r r' : SessionRegistry)
    (frame frame' : Frame) (events : List Event)
    (h : frame.section call now r = some (r', frame', events)) :
    GateEffect call r frame r' frame' events := by
  cases frame with
  | acquire key clientKind pc =>
      cases pc with
      | returned result =>
          cases result with
          | ok lease =>
              simp only [Frame.section, Option.some.injEq, Prod.mk.injEq] at h
              rcases h with ⟨rfl, rfl, rfl⟩
              -- The attach only looks its session up.
              refine .keep _ _ _ _ rfl rfl rfl (by simp [Frame.gate]) rfl rfl
                (by simp [Frame.spawns]) rfl rfl (by simp [Frame.disturbs]) ?_
              intro k event hmem
              rcases List.mem_map.mp hmem with ⟨_, _, rfl⟩
              rfl
          | error error => exact absurd h (by simp [Frame.section, AcquirePc.section])
      | _ =>
          simp only [Frame.section, Option.map_eq_some_iff, Prod.exists, Prod.mk.injEq] at h
          rcases h with ⟨r₁, pc', evs, hsec, rfl, rfl, rfl⟩
          exact acquire_gateEffect call now r r₁ key clientKind _ pc' evs hsec
  | attached lease handle => exact absurd h (by simp [Frame.section])
  | remove key pc =>
      simp only [Frame.section, Option.map_eq_some_iff, Prod.exists, Prod.mk.injEq] at h
      rcases h with ⟨r₁, pc', hsec, rfl, rfl, rfl⟩
      exact remove_gateEffect call r r₁ key pc pc' hsec
  | release id pc =>
      simp only [Frame.section, Option.map_eq_some_iff, Prod.exists, Prod.mk.injEq] at h
      rcases h with ⟨r₁, pc', hsec, rfl, rfl, rfl⟩
      have hsame := release_gates id now r r₁ pc pc' hsec
      exact keep_of_other call r r₁ _ _ [] hsame.1 hsame.2.1 hsame.2.2 (by simp) (by simp)
        (by simp) (by simp)
  | forward kind id message pc =>
      simp only [Frame.section, Option.map_eq_some_iff, Prod.exists, Prod.mk.injEq] at h
      rcases h with ⟨r₁, pc', evs, hsec, rfl, rfl, rfl⟩
      have hsame := forward_gates call id message now r r₁ pc pc' evs hsec
      exact keep_of_other call r r₁ _ _ evs hsame.1 hsame.2.1 hsame.2.2.1 (by simp) (by simp)
        (by simp) hsame.2.2.2
  | touch key returned =>
      cases returned with
      | true => exact absurd h (by simp [Frame.section])
      | false =>
          simp only [Frame.section, Bool.false_eq_true, if_false, Option.some.injEq,
            Prod.mk.injEq] at h
          rcases h with ⟨rfl, rfl, rfl⟩
          refine keep_of_other call r _ _ _ [] ?_ ?_ ?_ (by simp) (by simp) (by simp) (by simp) <;>
            (unfold SessionRegistry.touch; split <;> rfl)
  | mark key notice returned =>
      cases returned with
      | true => exact absurd h (by simp [Frame.section])
      | false =>
          simp only [Frame.section, Bool.false_eq_true, if_false, Option.some.injEq,
            Prod.mk.injEq] at h
          rcases h with ⟨rfl, rfl, rfl⟩
          refine keep_of_other call r _ _ _ _ ?_ ?_ ?_ (by simp) (by simp) (by simp) ?_
          · unfold SessionRegistry.markTerminatingWithNotice
            split <;> rfl
          · unfold SessionRegistry.markTerminatingWithNotice
            split <;> rfl
          · unfold SessionRegistry.markTerminatingWithNotice
            split <;> rfl
          · intro k event hmem
            rcases selected_of_markEvents r key event hmem with ⟨_, rfl⟩
            rfl
  | idle start result =>
      cases result with
      | some handles => exact absurd h (by simp [Frame.section])
      | none =>
          simp only [Frame.section, Option.some.injEq, Prod.mk.injEq] at h
          rcases h with ⟨rfl, rfl, rfl⟩
          refine keep_of_other call r _ _ _ _ rfl rfl rfl (by simp) (by simp) (by simp) ?_
          intro k event hmem
          rcases List.mem_map.mp hmem with ⟨_, _, rfl⟩
          rfl
  | increment evictor returned =>
      cases returned with
      | true => exact absurd h (by simp [Frame.section])
      | false =>
          simp only [Frame.section, Bool.false_eq_true, if_false, Option.some.injEq,
            Prod.mk.injEq] at h
          rcases h with ⟨rfl, rfl, rfl⟩
          refine keep_of_other call r _ _ _ [] ?_ ?_ ?_ (by simp) (by simp) (by simp) (by simp) <;>
            (cases evictor <;> rfl)
  | crash returned =>
      cases returned with
      | true => exact absurd h (by simp [Frame.section])
      | false =>
          simp only [Frame.section, Bool.false_eq_true, if_false, Option.some.injEq,
            Prod.mk.injEq] at h
          rcases h with ⟨rfl, rfl, rfl⟩
          exact keep_of_other call r _ _ _ [] rfl rfl rfl (by simp) (by simp) (by simp) (by simp)

/-! ### What one step does to the gates -/

/-- What a step of the world does to the gates. -/
inductive GateStep (w : World) : Action → World → Prop where
  /-- Time passes. -/
  | tick (span : Duration) : GateStep w (.tick span) { w with now := w.now + span }
  /-- A call begins. -/
  | start (call : CallId) (method : Method) (hfree : w.calls.get? call = none) :
      GateStep w (.start call method) { w with calls := w.calls.set call (method.frame w.now) }
  /-- A call moves, with an effect on the gates. -/
  | move (a : Action) (call : CallId) (frame frame' : Frame) (r' : SessionRegistry)
      (events : List Event) (next : RuntimeId) (hmover : a.mover = some call)
      (hcall : w.calls.get? call = some frame)
      (heffect : GateEffect call w.reg frame r' frame' events) :
      GateStep w a { w.moved call r' frame' events with nextRuntime := next }
  /-- A spawn closure fails. -/
  | fail (call : CallId) (key : SessionKey) (clientKind : Option ClientKind) (g : GateId)
      (error : String) (hcall : w.calls.get? call = some (.acquire key clientKind (.spawning g))) :
      GateStep w (.spawnReturns call (.error error))
        (w.moved call w.reg (.acquire key clientKind (.leave g (.error error)))
          [.spawnFailed call key])

theorem gate_step (w w' : World) (a : Action) (h : w.step a = some w') : GateStep w a w' := by
  cases a with
  | tick span =>
      simp only [World.step, Option.some.injEq] at h
      rw [← h]
      exact .tick span
  | start call method =>
      cases hcall : w.calls.get? call with
      | some frame => exact absurd h (by simp [World.step, hcall])
      | none =>
          simp only [World.step, hcall, Option.some.injEq] at h
          rw [← h]
          exact .start call method hcall
  | sect call =>
      cases hcall : w.calls.get? call with
      | none => exact absurd h (by simp [World.step, hcall])
      | some frame =>
          simp only [World.step, hcall, Option.map_eq_some_iff, Prod.exists] at h
          rcases h with ⟨r', frame', events, hsec, rfl⟩
          exact .move _ call frame frame' r' events w.nextRuntime rfl hcall
            (section_gateEffect call w.now w.reg r' frame frame' events hsec)
  | spawnReturns call result =>
      simp only [World.step] at h
      split at h
      · rename_i key clientKind g hcall
        rw [Option.some.injEq] at h
        rw [← h]
        cases result with
        | ok initializeResult =>
            exact .move _ call _ _ _ _ _ rfl hcall (.keep _ _ _ _ rfl rfl rfl
              (by simp [Frame.gate]) rfl rfl (by simp [Frame.spawns]) rfl rfl
              (by simp [Frame.disturbs]) (by simp [Event.spawnsKey]))
        | error error => exact .fail call key clientKind g error hcall
      · exact absurd h (by simp)
  | runtimeReturns call result =>
      simp only [World.step] at h
      split at h
      · rename_i kind id message key runtime hcall
        rw [Option.some.injEq] at h
        rw [← h]
        cases result <;>
          exact .move _ call _ _ _ _ w.nextRuntime rfl hcall
            (keep_of_other call _ _ _ _ _ rfl rfl rfl (by simp) (by simp) (by simp) (by simp))
      · exact absurd h (by simp)

/-! ### What the gates keep -/

/-- A started gate has one caller behind it, and no wake-up is lost. -/
structure GateInv (w : World) : Prop where
  allocated : ∀ call frame key g, w.calls.get? call = some frame →
    frame.gate = some (key, g) → g < w.reg.nextGate
  entries : ∀ key g, w.reg.spawnGates.get? key = some g → g < w.reg.nextGate
  started : ∀ call frame key g, w.calls.get? call = some frame →
    frame.busy = some (key, g) → (w.reg.gateHeap g).started = true
  alone : ∀ call call' frame frame' key key' g, w.calls.get? call = some frame →
    w.calls.get? call' = some frame' → frame.busy = some (key, g) →
      frame'.busy = some (key', g) → call = call'
  watched : ∀ g, (w.reg.gateHeap g).started = true →
    ∃ call frame key, w.calls.get? call = some frame ∧ frame.busy = some (key, g)
  epochs : ∀ call frame g epoch, w.calls.get? call = some frame →
    frame.waits = some (g, epoch) → epoch ≤ (w.reg.gateHeap g).notify
  woken : ∀ call frame g epoch, w.calls.get? call = some frame →
    frame.waits = some (g, epoch) →
      epoch < (w.reg.gateHeap g).notify ∨ (w.reg.gateHeap g).started = true

theorem gateInv_init (idleTtl : Duration) : GateInv (World.init idleTtl) where
  allocated := by simp [World.init]
  entries := by simp [World.init, SessionRegistry.withIdleTtl]
  started := by simp [World.init]
  alone := by simp [World.init]
  watched := by simp [World.init, SessionRegistry.withIdleTtl, SpawnGate.new]
  epochs := by simp [World.init]
  woken := by simp [World.init]

/-- A move that starts and clears no gate. -/
theorem gateInv_moved (w : World) (h : GateInv w) (call : CallId) (frame frame' : Frame)
    (r' : SessionRegistry) (events : List Event) (next : RuntimeId)
    (hcall : w.calls.get? call = some frame) (hheap : r'.gateHeap = w.reg.gateHeap)
    (hnext : r'.nextGate = w.reg.nextGate)
    (hentries : ∀ key g, r'.spawnGates.get? key = some g → w.reg.spawnGates.get? key = some g)
    (hgate : ∀ key g, frame'.gate = some (key, g) → g < w.reg.nextGate)
    (hbusy : frame'.busy = frame.busy)
    (hwaits : ∀ g epoch, frame'.waits = some (g, epoch) →
      epoch = (w.reg.gateHeap g).notify ∧ (w.reg.gateHeap g).started = true) :
    GateInv { w.moved call r' frame' events with nextRuntime := next } := by
  -- Whoever is behind a gate was behind it before, under another frame at most.
  have hback : ∀ c f, (w.calls.set call frame').get? c = some f →
      ∃ f₀, w.calls.get? c = some f₀ ∧ f₀.busy = f.busy := by
    intro c f hc
    rcases (Table.get?_set_eq_some _ _ _ _ _).mp hc with ⟨rfl, rfl⟩ | ⟨_, hold⟩
    · exact ⟨frame, hcall, hbusy.symm⟩
    · exact ⟨f, hold, rfl⟩
  constructor
  · intro c f key g hc hf
    change g < r'.nextGate
    rw [hnext]
    rcases (Table.get?_set_eq_some _ _ _ _ _).mp hc with ⟨rfl, rfl⟩ | ⟨_, hold⟩
    · exact hgate key g hf
    · exact h.allocated c f key g hold hf
  · intro key g hg
    change g < r'.nextGate
    rw [hnext]
    exact h.entries key g (hentries key g hg)
  · intro c f key g hc hf
    change (r'.gateHeap g).started = true
    rcases hback c f hc with ⟨f₀, hc₀, hf₀⟩
    rw [hheap]
    exact h.started c f₀ key g hc₀ (hf₀.trans hf)
  · intro c c' f f' key key' g hc hc' hf hf'
    rcases hback c f hc with ⟨f₀, hc₀, hf₀⟩
    rcases hback c' f' hc' with ⟨f₀', hc₀', hf₀'⟩
    exact h.alone c c' f₀ f₀' key key' g hc₀ hc₀' (hf₀.trans hf) (hf₀'.trans hf')
  · intro g hg
    change (r'.gateHeap g).started = true at hg
    rw [hheap] at hg
    rcases h.watched g hg with ⟨c, f, key, hc, hf⟩
    by_cases hcc : c = call
    · rw [hcc, hcall, Option.some.injEq] at hc
      rw [← hc, ← hbusy] at hf
      exact ⟨call, frame', key, Table.get?_set_self _ _ _, hf⟩
    · exact ⟨c, f, key, (Table.get?_set_ne _ _ _ _ hcc).trans hc, hf⟩
  · intro c f g epoch hc hf
    change epoch ≤ (r'.gateHeap g).notify
    rw [hheap]
    rcases (Table.get?_set_eq_some _ _ _ _ _).mp hc with ⟨rfl, rfl⟩ | ⟨_, hold⟩
    · exact Nat.le_of_eq (hwaits g epoch hf).1
    · exact h.epochs c f g epoch hold hf
  · intro c f g epoch hc hf
    change epoch < (r'.gateHeap g).notify ∨ (r'.gateHeap g).started = true
    rw [hheap]
    rcases (Table.get?_set_eq_some _ _ _ _ _).mp hc with ⟨rfl, rfl⟩ | ⟨_, hold⟩
    · exact Or.inr (hwaits g epoch hf).2
    · exact h.woken c f g epoch hold hf

/-- A caller is given a gate that nobody has held. -/
theorem gateInv_newGate (w : World) (h : GateInv w) (call : CallId) (key : SessionKey)
    (clientKind : Option ClientKind) (next : RuntimeId)
    (hcall : w.calls.get? call = some (.acquire key clientKind .gate)) :
    GateInv { w.moved call
      { w.reg with
        spawnGates := w.reg.spawnGates.set key w.reg.nextGate
        gateHeap := Function.update w.reg.gateHeap w.reg.nextGate SpawnGate.new
        nextGate := w.reg.nextGate + 1 }
      (.acquire key clientKind (.lookup w.reg.nextGate)) [] with nextRuntime := next } := by
  have hheap : ∀ g, g ≠ w.reg.nextGate →
      Function.update w.reg.gateHeap w.reg.nextGate SpawnGate.new g = w.reg.gateHeap g :=
    fun g hg => Function.update_of_ne hg _ _
  -- Everyone else holds an old gate.
  have hothers : ∀ c f k g, (w.calls.set call (.acquire key clientKind
      (.lookup w.reg.nextGate))).get? c = some f → f.gate = some (k, g) →
      (c = call ∧ g = w.reg.nextGate) ∨
        (c ≠ call ∧ w.calls.get? c = some f ∧ g < w.reg.nextGate) := by
    intro c f k g hc hf
    rcases (Table.get?_set_eq_some _ _ _ _ _).mp hc with ⟨rfl, rfl⟩ | ⟨hne, hold⟩
    · rw [Frame.gate, Option.some.injEq, Prod.mk.injEq] at hf
      exact Or.inl ⟨rfl, hf.2.symm⟩
    · exact Or.inr ⟨hne, hold, h.allocated c f k g hold hf⟩
  have hbusy : ∀ c f k g, (w.calls.set call (.acquire key clientKind
      (.lookup w.reg.nextGate))).get? c = some f → f.busy = some (k, g) →
      w.calls.get? c = some f ∧ g < w.reg.nextGate := by
    intro c f k g hc hf
    rcases (Table.get?_set_eq_some _ _ _ _ _).mp hc with ⟨rfl, rfl⟩ | ⟨_, hold⟩
    · exact absurd hf (by simp [Frame.busy])
    · exact ⟨hold, h.allocated c f k g hold (Frame.gate_of_busy f _ hf)⟩
  have hwaits : ∀ c f g epoch, (w.calls.set call (.acquire key clientKind
      (.lookup w.reg.nextGate))).get? c = some f → f.waits = some (g, epoch) →
      w.calls.get? c = some f ∧ g < w.reg.nextGate := by
    intro c f g epoch hc hf
    rcases (Table.get?_set_eq_some _ _ _ _ _).mp hc with ⟨rfl, rfl⟩ | ⟨_, hold⟩
    · exact absurd hf (by simp [Frame.waits])
    · rcases Frame.gate_of_waits f g epoch hf with ⟨k, hk⟩
      exact ⟨hold, h.allocated c f k g hold hk⟩
  constructor
  · intro c f k g hc hf
    change g < w.reg.nextGate + 1
    rcases hothers c f k g hc hf with ⟨_, rfl⟩ | ⟨_, _, hlt⟩
    · exact Nat.lt_succ_self _
    · exact Nat.lt_succ_of_lt hlt
  · intro k g hg
    change g < w.reg.nextGate + 1
    rcases (Table.get?_set_eq_some _ _ _ _ _).mp hg with ⟨_, rfl⟩ | ⟨_, hold⟩
    · exact Nat.lt_succ_self _
    · exact Nat.lt_succ_of_lt (h.entries k g hold)
  · intro c f k g hc hf
    rcases hbusy c f k g hc hf with ⟨hold, hlt⟩
    change (Function.update w.reg.gateHeap w.reg.nextGate SpawnGate.new g).started = true
    rw [hheap g (Nat.ne_of_lt hlt)]
    exact h.started c f k g hold hf
  · intro c c' f f' k k' g hc hc' hf hf'
    exact h.alone c c' f f' k k' g (hbusy c f k g hc hf).1 (hbusy c' f' k' g hc' hf').1 hf hf'
  · intro g hg
    change (Function.update w.reg.gateHeap w.reg.nextGate SpawnGate.new g).started = true at hg
    by_cases hnew : g = w.reg.nextGate
    · rw [hnew, Function.update_self] at hg
      exact absurd hg (by simp [SpawnGate.new])
    · rw [hheap g hnew] at hg
      rcases h.watched g hg with ⟨c, f, k, hc, hf⟩
      have hcc : c ≠ call := by
        intro heq
        rw [heq, hcall, Option.some.injEq] at hc
        rw [← hc] at hf
        exact absurd hf (by simp [Frame.busy])
      exact ⟨c, f, k, (Table.get?_set_ne _ _ _ _ hcc).trans hc, hf⟩
  · intro c f g epoch hc hf
    rcases hwaits c f g epoch hc hf with ⟨hold, hlt⟩
    change epoch ≤ (Function.update w.reg.gateHeap w.reg.nextGate SpawnGate.new g).notify
    rw [hheap g (Nat.ne_of_lt hlt)]
    exact h.epochs c f g epoch hold hf
  · intro c f g epoch hc hf
    rcases hwaits c f g epoch hc hf with ⟨hold, hlt⟩
    change epoch < (Function.update w.reg.gateHeap w.reg.nextGate SpawnGate.new g).notify ∨
      (Function.update w.reg.gateHeap w.reg.nextGate SpawnGate.new g).started = true
    rw [hheap g (Nat.ne_of_lt hlt)]
    exact h.woken c f g epoch hold hf

/-- A caller starts its gate. Nobody was behind it, since it was idle. -/
theorem gateInv_spawn (w : World) (h : GateInv w) (call : CallId) (key : SessionKey)
    (clientKind : Option ClientKind) (g : GateId) (events : List Event) (next : RuntimeId)
    (hcall : w.calls.get? call = some (.acquire key clientKind (.enter g)))
    (hidle : (w.reg.gateHeap g).started = false) :
    GateInv { w.moved call
      { w.reg with gateHeap :=
          Function.update w.reg.gateHeap g { w.reg.gateHeap g with started := true } }
      (.acquire key clientKind (.spawning g)) events with nextRuntime := next } := by
  have hstarted : ∀ g', (w.reg.gateHeap g').started = true →
      (Function.update w.reg.gateHeap g
        { w.reg.gateHeap g with started := true } g').started = true := by
    intro g' hg'
    by_cases heq : g' = g
    · rw [heq, Function.update_self]
    · rw [Function.update_of_ne heq]
      exact hg'
  have hnotify : ∀ g', (Function.update w.reg.gateHeap g
      { w.reg.gateHeap g with started := true } g').notify = (w.reg.gateHeap g').notify := by
    intro g'
    by_cases heq : g' = g
    · rw [heq, Function.update_self]
    · rw [Function.update_of_ne heq]
  -- Someone behind a gate is this caller, or was behind it before.
  have hbusy : ∀ c f k g', (w.calls.set call (.acquire key clientKind (.spawning g))).get? c
      = some f → f.busy = some (k, g') →
      (c = call ∧ g' = g) ∨ (w.calls.get? c = some f ∧ g' ≠ g) := by
    intro c f k g' hc hf
    rcases (Table.get?_set_eq_some _ _ _ _ _).mp hc with ⟨rfl, rfl⟩ | ⟨_, hold⟩
    · rw [Frame.busy, Option.some.injEq, Prod.mk.injEq] at hf
      exact Or.inl ⟨rfl, hf.2.symm⟩
    · refine Or.inr ⟨hold, fun heq => ?_⟩
      have := h.started c f k g' hold hf
      rw [heq, hidle] at this
      exact absurd this (by simp)
  constructor
  · intro c f k g' hc hf
    rcases (Table.get?_set_eq_some _ _ _ _ _).mp hc with ⟨rfl, rfl⟩ | ⟨_, hold⟩
    · exact h.allocated c _ k g' hcall hf
    · exact h.allocated c f k g' hold hf
  · exact h.entries
  · intro c f k g' hc hf
    rcases hbusy c f k g' hc hf with ⟨_, rfl⟩ | ⟨hold, _⟩
    · change (Function.update w.reg.gateHeap g'
        { w.reg.gateHeap g' with started := true } g').started = true
      rw [Function.update_self]
    · exact hstarted g' (h.started c f k g' hold hf)
  · intro c c' f f' k k' g' hc hc' hf hf'
    rcases hbusy c f k g' hc hf with ⟨hcc, hg⟩ | ⟨hold, hg⟩ <;>
      rcases hbusy c' f' k' g' hc' hf' with ⟨hcc', hg'⟩ | ⟨hold', hg'⟩
    · rw [hcc, hcc']
    · exact absurd hg hg'
    · exact absurd hg' hg
    · exact h.alone c c' f f' k k' g' hold hold' hf hf'
  · intro g' hg'
    by_cases heq : g' = g
    · rw [heq]
      exact ⟨call, _, key, Table.get?_set_self _ _ _, rfl⟩
    · change (Function.update w.reg.gateHeap g
        { w.reg.gateHeap g with started := true } g').started = true at hg'
      rw [Function.update_of_ne heq] at hg'
      rcases h.watched g' hg' with ⟨c, f, k, hc, hf⟩
      have hcc : c ≠ call := by
        intro hcc
        rw [hcc, hcall, Option.some.injEq] at hc
        rw [← hc] at hf
        exact absurd hf (by simp [Frame.busy])
      exact ⟨c, f, k, (Table.get?_set_ne _ _ _ _ hcc).trans hc, hf⟩
  · intro c f g' epoch hc hf
    refine Nat.le_trans ?_ (Nat.le_of_eq (hnotify g').symm)
    rcases (Table.get?_set_eq_some _ _ _ _ _).mp hc with ⟨rfl, rfl⟩ | ⟨_, hold⟩
    · exact absurd hf (by simp [Frame.waits])
    · exact h.epochs c f g' epoch hold hf
  · intro c f g' epoch hc hf
    rcases (Table.get?_set_eq_some _ _ _ _ _).mp hc with ⟨rfl, rfl⟩ | ⟨_, hold⟩
    · exact absurd hf (by simp [Frame.waits])
    · rcases h.woken c f g' epoch hold hf with hlt | hst
      · exact Or.inl (Nat.lt_of_lt_of_eq hlt (hnotify g').symm)
      · exact Or.inr (hstarted g' hst)

/-- A caller clears its gate. It was the only one behind it, and whoever waits
    there is woken. -/
theorem gateInv_leave (w : World) (h : GateInv w) (call : CallId) (key : SessionKey)
    (clientKind : Option ClientKind) (g : GateId) (result : Except String SessionHandle)
    (frame' : Frame) (next : RuntimeId)
    (hcall : w.calls.get? call = some (.acquire key clientKind (.leave g result)))
    (hgate' : frame'.gate = none) :
    GateInv { w.moved call (w.reg.leaveGate g) frame' [] with nextRuntime := next } := by
  have hbusy' : frame'.busy = none := by
    cases hb : frame'.busy with
    | none => rfl
    | some held =>
        rw [Frame.gate_of_busy frame' held hb] at hgate'
        exact absurd hgate' (by simp)
  have hwaits' : frame'.waits = none := by
    cases hw : frame'.waits with
    | none => rfl
    | some waiting =>
        rcases Frame.gate_of_waits frame' waiting.1 waiting.2 hw with ⟨k, hk⟩
        rw [hk] at hgate'
        exact absurd hgate' (by simp)
  have hother : ∀ g', g' ≠ g → (w.reg.leaveGate g).gateHeap g' = w.reg.gateHeap g' :=
    fun g' hne => Function.update_of_ne hne _ _
  have hself : (w.reg.leaveGate g).gateHeap g
      = { notify := (w.reg.gateHeap g).notify + 1, started := false } :=
    Function.update_self g _ _
  -- Someone behind a gate is behind another gate than this one, and was before.
  have hbusy : ∀ c f k g', (w.calls.set call frame').get? c = some f →
      f.busy = some (k, g') → w.calls.get? c = some f ∧ g' ≠ g := by
    intro c f k g' hc hf
    rcases (Table.get?_set_eq_some _ _ _ _ _).mp hc with ⟨rfl, rfl⟩ | ⟨hne, hold⟩
    · rw [hbusy'] at hf
      exact absurd hf (by simp)
    · refine ⟨hold, fun heq => hne ?_⟩
      rw [heq] at hf
      exact h.alone c call f _ k key g hold hcall hf rfl
  constructor
  · intro c f k g' hc hf
    rcases (Table.get?_set_eq_some _ _ _ _ _).mp hc with ⟨rfl, rfl⟩ | ⟨_, hold⟩
    · rw [hgate'] at hf
      exact absurd hf (by simp)
    · exact h.allocated c f k g' hold hf
  · exact h.entries
  · intro c f k g' hc hf
    rcases hbusy c f k g' hc hf with ⟨hold, hne⟩
    change ((w.reg.leaveGate g).gateHeap g').started = true
    rw [hother g' hne]
    exact h.started c f k g' hold hf
  · intro c c' f f' k k' g' hc hc' hf hf'
    exact h.alone c c' f f' k k' g' (hbusy c f k g' hc hf).1 (hbusy c' f' k' g' hc' hf').1 hf hf'
  · intro g' hg'
    change ((w.reg.leaveGate g).gateHeap g').started = true at hg'
    by_cases heq : g' = g
    · rw [heq, hself] at hg'
      exact absurd hg' (by simp)
    · rw [hother g' heq] at hg'
      rcases h.watched g' hg' with ⟨c, f, k, hc, hf⟩
      have hcc : c ≠ call := by
        intro hcc
        rw [hcc, hcall, Option.some.injEq] at hc
        rw [← hc, Frame.busy, Option.some.injEq, Prod.mk.injEq] at hf
        exact heq hf.2.symm
      exact ⟨c, f, k, (Table.get?_set_ne _ _ _ _ hcc).trans hc, hf⟩
  · intro c f g' epoch hc hf
    change epoch ≤ ((w.reg.leaveGate g).gateHeap g').notify
    rcases (Table.get?_set_eq_some _ _ _ _ _).mp hc with ⟨rfl, rfl⟩ | ⟨_, hold⟩
    · rw [hwaits'] at hf
      exact absurd hf (by simp)
    · have hle := h.epochs c f g' epoch hold hf
      by_cases heq : g' = g
      · rw [heq, hself]
        rw [heq] at hle
        exact Nat.le_succ_of_le hle
      · rw [hother g' heq]
        exact hle
  · intro c f g' epoch hc hf
    change epoch < ((w.reg.leaveGate g).gateHeap g').notify ∨
      ((w.reg.leaveGate g).gateHeap g').started = true
    rcases (Table.get?_set_eq_some _ _ _ _ _).mp hc with ⟨rfl, rfl⟩ | ⟨_, hold⟩
    · rw [hwaits'] at hf
      exact absurd hf (by simp)
    · by_cases heq : g' = g
      · have hle := h.epochs c f g' epoch hold hf
        rw [heq, hself]
        rw [heq] at hle
        exact Or.inl (Nat.lt_succ_of_le hle)
      · rw [hother g' heq]
        exact h.woken c f g' epoch hold hf

theorem gateInv_move (w : World) (h : GateInv w) (call : CallId) (frame frame' : Frame)
    (r' : SessionRegistry) (events : List Event) (next : RuntimeId)
    (hcall : w.calls.get? call = some frame)
    (heffect : GateEffect call w.reg frame r' frame' events) :
    GateInv { w.moved call r' frame' events with nextRuntime := next } := by
  have hnone : ∀ f : Frame, f.gate = none → f.busy = none := by
    intro f hf
    cases hb : f.busy with
    | none => rfl
    | some held =>
        rw [Frame.gate_of_busy f held hb] at hf
        exact absurd hf (by simp)
  cases heffect with
  | keep _ _ _ _ hheap hgates hnext hgate hbusy hwaits hspawns hpublish hpublish' hdisturbs
      hevents =>
      refine gateInv_moved w h call frame frame' r' events next hcall hheap hnext
        (by rw [hgates]; exact fun _ _ hg => hg) ?_ hbusy (by rw [hwaits]; simp)
      exact fun key g hg => h.allocated call frame key g hcall (hgate (key, g) hg)
  | gate key clientKind =>
      -- A key without a gate gets a new one; the others share the one registered.
      cases hentry : w.reg.spawnGates.get? key with
      | none =>
          have := gateInv_newGate w h call key clientKind next hcall
          simp only [SessionRegistry.gateEntry, hentry]
          exact this
      | some g =>
          simp only [SessionRegistry.gateEntry, hentry]
          refine gateInv_moved w h call _ _ w.reg [] next hcall rfl rfl (fun _ _ hg => hg) ?_ rfl
            (by simp [Frame.waits])
          intro k g' hg'
          rw [Frame.gate, Option.some.injEq, Prod.mk.injEq] at hg'
          rw [← hg'.2]
          exact h.entries key g hentry
  | spawn key clientKind g hidle =>
      exact gateInv_spawn w h call key clientKind g _ next hcall hidle
  | wait key clientKind g hstarted =>
      -- The waiter notes the signal count it has seen while the gate is taken.
      refine gateInv_moved w h call _ _ w.reg [] next hcall rfl rfl (fun _ _ hg => hg) ?_ rfl ?_
      · exact fun k g' hg' => h.allocated call _ k g' hcall hg'
      · intro g' epoch hw
        rw [Frame.waits, Option.some.injEq, Prod.mk.injEq] at hw
        rw [← hw.1, ← hw.2]
        exact ⟨rfl, hstarted⟩
  | leave key clientKind g result pc' hpc' =>
      refine gateInv_leave w h call key clientKind g result _ next hcall ?_
      rcases hpc' with ⟨handle, _, rfl⟩ | ⟨error, _, rfl⟩ <;> rfl
  | publish key clientKind handle _ lease _ hheap hgates hnext hsession hevents =>
      exact gateInv_moved w h call _ _ r' events next hcall hheap hnext
        (by rw [hgates]; exact fun _ _ hg => hg) (by simp [Frame.gate]) rfl (by simp [Frame.waits])
  | drop key _ _ _ hheap hgates hnext hgate hgate' hpublish hpublish' hdisturbs hdisturbs' =>
      -- The entry goes; whoever holds the gate keeps it, and its cell stays.
      refine gateInv_moved w h call frame frame' r' [] next hcall hheap hnext ?_
        (by rw [hgate']; simp) ((hnone frame' hgate').trans (hnone frame hgate).symm) ?_
      · intro k g hg
        rw [hgates, Table.get?_erase] at hg
        split at hg
        · exact absurd hg (by simp)
        · exact hg
      · intro g epoch hw
        rcases Frame.gate_of_waits frame' g epoch hw with ⟨k, hk⟩
        rw [hk] at hgate'
        exact absurd hgate' (by simp)

theorem gateInv_step (w w' : World) (a : Action) (h : GateInv w) (hstep : w.step a = some w') :
    GateInv w' := by
  cases gate_step w w' a hstep with
  | tick span =>
      exact ⟨h.allocated, h.entries, h.started, h.alone, h.watched, h.epochs, h.woken⟩
  | start call method hfree =>
      have hgate : (method.frame w.now).gate = none := by cases method <;> rfl
      have hbusy : (method.frame w.now).busy = none := by cases method <;> rfl
      have hwaits : (method.frame w.now).waits = none := by cases method <;> rfl
      -- Whoever holds a gate afterwards is another call, and held it before.
      have hold : ∀ c f, (w.calls.set call (method.frame w.now)).get? c = some f →
          f = method.frame w.now ∨ w.calls.get? c = some f := by
        intro c f hc
        rcases (Table.get?_set_eq_some _ _ _ _ _).mp hc with ⟨_, heq⟩ | ⟨_, hget⟩
        · exact Or.inl heq.symm
        · exact Or.inr hget
      constructor
      · intro c f k g hc hf
        rcases hold c f hc with rfl | hc₀
        · exact absurd hf (by rw [hgate]; simp)
        · exact h.allocated c f k g hc₀ hf
      · exact h.entries
      · intro c f k g hc hf
        rcases hold c f hc with rfl | hc₀
        · exact absurd hf (by rw [hbusy]; simp)
        · exact h.started c f k g hc₀ hf
      · intro c c' f f' k k' g hc hc' hf hf'
        rcases hold c f hc with rfl | hc₀
        · exact absurd hf (by rw [hbusy]; simp)
        · rcases hold c' f' hc' with rfl | hc₀'
          · exact absurd hf' (by rw [hbusy]; simp)
          · exact h.alone c c' f f' k k' g hc₀ hc₀' hf hf'
      · intro g hg
        rcases h.watched g hg with ⟨c, f, k, hc, hf⟩
        have hcc : c ≠ call := by
          intro heq
          rw [heq, hfree] at hc
          exact absurd hc (by simp)
        exact ⟨c, f, k, (Table.get?_set_ne _ _ _ _ hcc).trans hc, hf⟩
      · intro c f g epoch hc hf
        rcases hold c f hc with rfl | hc₀
        · exact absurd hf (by rw [hwaits]; simp)
        · exact h.epochs c f g epoch hc₀ hf
      · intro c f g epoch hc hf
        rcases hold c f hc with rfl | hc₀
        · exact absurd hf (by rw [hwaits]; simp)
        · exact h.woken c f g epoch hc₀ hf
  | move _ call frame frame' r' events next hmover hcall heffect =>
      exact gateInv_move w h call frame frame' r' events next hcall heffect
  | fail call key clientKind g error hcall =>
      exact gateInv_moved w h call _ _ w.reg _ w.nextRuntime hcall rfl rfl (fun _ _ hg => hg)
        (fun k g' hg' => h.allocated call _ k g' hcall hg') rfl (by simp [Frame.waits])

theorem gateInv_run (idleTtl : Duration) (as : List Action) (w : World)
    (h : run World.step (World.init idleTtl) as = some w) : GateInv w :=
  run_invariant (fun s a s' hs hstep _ => gateInv_step s s' a hs hstep) as _ w h
    (gateInv_init idleTtl) (along_true as _)

/-! ### Who wakes a waiter -/

/-- A gate's count of wake-ups does not go down, and gates are not forgotten. -/
theorem notify_step (w w' : World) (a : Action) (g : GateId) (hg : g < w.reg.nextGate)
    (hstep : w.step a = some w') :
    g < w'.reg.nextGate ∧ (w.reg.gateHeap g).notify ≤ (w'.reg.gateHeap g).notify := by
  cases gate_step w w' a hstep with
  | tick span => exact ⟨hg, Nat.le_refl _⟩
  | start call method hfree => exact ⟨hg, Nat.le_refl _⟩
  | fail call key clientKind g' error hcall => exact ⟨hg, Nat.le_refl _⟩
  | move _ call frame frame' r' events next hmover hcall heffect =>
      simp only [World.moved]
      cases heffect with
      | keep _ _ _ _ hheap _ hnext => exact ⟨by rw [hnext]; exact hg, by rw [hheap]⟩
      | gate key clientKind =>
          unfold SessionRegistry.gateEntry
          cases w.reg.spawnGates.get? key with
          | some g' => exact ⟨hg, Nat.le_refl _⟩
          | none =>
              -- The new gate is another one.
              have hne : g ≠ w.reg.nextGate := Nat.ne_of_lt hg
              refine ⟨Nat.lt_succ_of_lt hg, ?_⟩
              simp only [Function.update_of_ne hne, Nat.le_refl]
      | spawn key clientKind g' hidle =>
          refine ⟨hg, ?_⟩
          by_cases hgg : g = g'
          · simp only [hgg, Function.update_self, Nat.le_refl]
          · simp only [Function.update_of_ne hgg, Nat.le_refl]
      | wait key clientKind g' hstarted => exact ⟨hg, Nat.le_refl _⟩
      | leave key clientKind g' result pc' hpc' =>
          refine ⟨hg, ?_⟩
          by_cases hgg : g = g'
          · simp only [SessionRegistry.leaveGate, hgg, Function.update_self]
            omega
          · simp only [SessionRegistry.leaveGate, Function.update_of_ne hgg, Nat.le_refl]
      | publish _ _ _ _ _ _ hheap _ hnext => exact ⟨by rw [hnext]; exact hg, by rw [hheap]⟩
      | drop _ _ _ _ hheap _ hnext => exact ⟨by rw [hnext]; exact hg, by rw [hheap]⟩

/-- A caller behind a gate stays behind it until it wakes the waiters. -/
theorem busy_step (w w' : World) (a : Action) (call : CallId) (frame : Frame) (key : SessionKey)
    (g : GateId) (hcall : w.calls.get? call = some frame) (hbusy : frame.busy = some (key, g))
    (hstep : w.step a = some w') :
    (∃ frame', w'.calls.get? call = some frame' ∧ frame'.busy = some (key, g)) ∨
      (w.reg.gateHeap g).notify < (w'.reg.gateHeap g).notify := by
  cases gate_step w w' a hstep with
  | tick span => exact Or.inl ⟨frame, hcall, hbusy⟩
  | start call' method hfree =>
      have hne : call ≠ call' := by
        rintro rfl
        rw [hcall] at hfree
        exact absurd hfree (by simp)
      exact Or.inl ⟨frame, (Table.get?_set_ne _ _ _ _ hne).trans hcall, hbusy⟩
  | fail call' key' clientKind g' error hcall' =>
      -- A failed spawn is still behind its gate: it leaves only in its next section.
      left
      by_cases hc : call = call'
      · rw [hc, hcall', Option.some.injEq] at hcall
        rw [← hcall] at hbusy
        rw [hc]
        exact ⟨_, w.calls.get?_set_self call' _, hbusy⟩
      · exact ⟨frame, (Table.get?_set_ne _ _ _ _ hc).trans hcall, hbusy⟩
  | move _ call' frame₀ frame' r' events next hmover hcall' heffect =>
      by_cases hc : call = call'
      · rw [← hc, hcall, Option.some.injEq] at hcall'
        rw [← hcall'] at heffect
        have hget : (w.calls.set call' frame').get? call = some frame' := by
          rw [hc, Table.get?_set_self]
        cases heffect with
        | keep _ _ _ _ _ _ _ _ hbusy' => exact Or.inl ⟨frame', hget, hbusy'.trans hbusy⟩
        | leave key' clientKind g' result pc' hpc' =>
            -- The way out is the one that signals.
            right
            rw [Frame.busy, Option.some.injEq, Prod.mk.injEq] at hbusy
            simp only [World.moved, SessionRegistry.leaveGate, hbusy.2, Function.update_self]
            omega
        | drop _ _ _ _ _ _ _ hgate =>
            rw [Frame.gate_of_busy frame _ hbusy] at hgate
            exact absurd hgate (by simp)
        | _ => exact absurd hbusy (by simp [Frame.busy])
      · exact Or.inl ⟨frame, (Table.get?_set_ne _ _ _ _ hc).trans hcall, hbusy⟩

/-- Once a caller that was behind the gate is not any more, whoever began to wait
    before has been woken. -/
theorem woken_run (w w' : World) (bs : List Action) (call : CallId) (frame : Frame)
    (key : SessionKey) (g : GateId) (epoch : Nat) (hg : g < w.reg.nextGate)
    (hepoch : epoch ≤ (w.reg.gateHeap g).notify) (hcall : w.calls.get? call = some frame)
    (hbusy : frame.busy = some (key, g)) (hrun : run World.step w bs = some w') :
    (∃ frame', w'.calls.get? call = some frame' ∧ frame'.busy = some (key, g)) ∨
      epoch < (w'.reg.gateHeap g).notify := by
  have hinv := run_invariant (C := fun _ (_ : Action) => True)
    (I := fun u => g < u.reg.nextGate ∧ epoch ≤ (u.reg.gateHeap g).notify ∧
      ((∃ frame', u.calls.get? call = some frame' ∧ frame'.busy = some (key, g)) ∨
        epoch < (u.reg.gateHeap g).notify)) ?_ bs w w' hrun
    ⟨hg, hepoch, Or.inl ⟨frame, hcall, hbusy⟩⟩ (along_true bs w)
  · exact hinv.2.2
  · rintro u a u' ⟨hg', hle, hwoken⟩ hstep -
    rcases notify_step u u' a g hg' hstep with ⟨hg'', hmono⟩
    refine ⟨hg'', by omega, ?_⟩
    rcases hwoken with ⟨frame', hcall', hbusy'⟩ | hlt
    · rcases busy_step u u' a call frame' key g hcall' hbusy' hstep with hkept | hlt
      · exact Or.inl hkept
      · exact Or.inr (by omega)
    · exact Or.inr (by omega)

/-- No wake-up is lost. In every reachable state, a caller that waits and has not
    been signalled waits on a started gate with a caller behind it, and is
    signalled in every continuation in which that caller is done with the
    gate. -/
theorem waiters_watched (idleTtl : Duration) (as : List Action) (w : World)
    (hrun : run World.step (World.init idleTtl) as = some w) (call : CallId) (key : SessionKey)
    (clientKind : Option ClientKind) (g : GateId) (epoch : Nat)
    (hcall : w.calls.get? call = some (.acquire key clientKind (.waiting g epoch)))
    (hunsignalled : ¬epoch < (w.reg.gateHeap g).notify) :
    (w.reg.gateHeap g).started = true ∧
    ∃ spawner frame k, w.calls.get? spawner = some frame ∧ frame.busy = some (k, g) ∧
      ∀ bs w', run World.step w bs = some w' →
        (∃ frame', w'.calls.get? spawner = some frame' ∧ frame'.busy = some (k, g)) ∨
          epoch < (w'.reg.gateHeap g).notify := by
  have h := gateInv_run idleTtl as w hrun
  have hstarted := (h.woken call _ g epoch hcall rfl).resolve_left hunsignalled
  rcases h.watched g hstarted with ⟨spawner, frame, k, hspawner, hbusy⟩
  refine ⟨hstarted, spawner, frame, k, hspawner, hbusy, fun bs w' hbs => ?_⟩
  exact woken_run w w' bs spawner frame k g epoch
    (h.allocated spawner frame k g hspawner (Frame.gate_of_busy frame _ hbusy))
    (h.epochs call _ g epoch hcall rfl) hspawner hbusy hbs

/-- A caller waits for another one's spawn. -/
def waitForSpawn : List Action :=
  acquireUntilSpawn 0 ++ [.start 1 (.acquireOrSpawn demoKey none), .sect 1, .sect 1, .sect 1,
    .sect 1]

theorem waitForSpawn_isSome :
    (run World.step (World.init 5) waitForSpawn).isSome = true := by
  decide

theorem waiters_watched_waitForSpawn :
    let w := (run World.step (World.init 5) waitForSpawn).get waitForSpawn_isSome
    (w.reg.gateHeap 0).started = true ∧
    ∃ spawner frame k, w.calls.get? spawner = some frame ∧ frame.busy = some (k, 0) ∧
      ∀ bs w', run World.step w bs = some w' →
        (∃ frame', w'.calls.get? spawner = some frame' ∧ frame'.busy = some (k, 0)) ∨
          0 < (w'.reg.gateHeap 0).notify :=
  waiters_watched 5 waitForSpawn _ (Option.some_get waitForSpawn_isSome).symm 1 demoKey none 0 0
    rfl (by decide)

end Lspee
