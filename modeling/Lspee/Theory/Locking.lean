import Lspee.Core.Locking
import Lspee.Theory.Effect

/-!
# No Deadlock in the Registry

The methods take `sessions` before `leases`, and these before `counters` and before
`spawn_gates`; a gate is never taken with anything else. So every path takes its
locks in the order of `lockRank` (`paths_nest`), and no calls ever wait for each
other, whatever the paths they take and however they are interleaved
(`deadlock_free`).

A path stands for a section of the registry's model. Where a section of a call
under way leads from one frame to another, there is a path between their stages,
and what the section changes is under a guard of this path that may write
(`section_guarded`).

## Main definitions

* `lockRank`: The order of the locks.
* `DeadlockFree`: The property.
* `Frame.stage`: The stage of a call of the registry's model.
* `Covers`, `Guarded`: The guards of a script, or of a path, cover what has
  changed.

## Theorems

* `paths_nest`: Every path takes its locks in order.
* `deadlock_free`: No calls wait for each other.
* `section_guarded`: What a section changes is guarded.
-/

namespace Lspee

open Locks Transition

/-! ### The order -/

def lockRank : LockName → Nat
  | .sessions => 0
  | .leases => 1
  | .counters => 2
  | .spawnGates => 2
  | .gate _ => 3

theorem lockRank_le (l : LockName) : lockRank l ≤ 3 := by
  cases l with
  | gate g => exact Nat.le_refl 3
  | _ => decide

/-- A guard alone. -/
theorem nests_one (l : LockName) (mode : Mode) : Nests lockRank [] (guarded l mode []) :=
  nests_guarded lockRank [] l mode [] (fun _ h => absurd h List.not_mem_nil)
    (nests_nil lockRank [l])

/-- A guard inside another. -/
theorem nests_two (l k : LockName) (mode : Mode) (h : lockRank l < lockRank k) :
    Nests lockRank [l] (guarded k mode []) := by
  refine nests_guarded lockRank [l] k mode [] ?_ (nests_nil lockRank [k, l])
  intro j hj
  rw [List.mem_singleton.mp hj]
  exact h

theorem nests_grant : Nests lockRank [] grantGuards := by
  refine nests_guarded lockRank [] .sessions .write _ (fun _ h => absurd h List.not_mem_nil) ?_
  refine nests_append lockRank _ _ _ ?_ ?_
  · exact nests_two .sessions .counters .write (by decide)
  · exact nests_two .sessions .leases .write (by decide)

theorem nests_removeLeases :
    Nests lockRank [] (guarded .leases .write (guarded .spawnGates .write [])) := by
  refine nests_guarded lockRank [] .leases .write _ (fun _ h => absurd h List.not_mem_nil) ?_
  exact nests_two .leases .spawnGates .write (by decide)

theorem nests_memorySnapshots :
    Nests lockRank [] (guarded .sessions .read (guarded .leases .read [])) := by
  refine nests_guarded lockRank [] .sessions .read _ (fun _ h => absurd h List.not_mem_nil) ?_
  exact nests_two .sessions .leases .read (by decide)

theorem nests_snapshot : Nests lockRank []
    (guarded .sessions .read (guarded .leases .read (guarded .counters .read []))) := by
  refine nests_guarded lockRank [] .sessions .read _ (fun _ h => absurd h List.not_mem_nil) ?_
  refine nests_guarded lockRank _ .leases .read _ ?_ ?_
  · intro k hk
    rw [List.mem_singleton.mp hk]
    decide
  · refine nests_guarded lockRank _ .counters .read _ ?_ (nests_nil lockRank _)
    intro k hk
    rcases List.mem_cons.mp hk with hk | hk
    · rw [hk]
      decide
    · rw [List.mem_singleton.mp hk]
      decide

/-- Every path takes its locks in order. -/
theorem paths_nest (entry : GateId) (stage stage' : Stage) (script : List (Op LockName))
    (h : (script, stage') ∈ stage.paths entry) : Nests lockRank [] script := by
  have hone : ∀ l mode, script = guarded l mode [] → Nests lockRank [] script :=
    fun l mode hscript => hscript ▸ nests_one l mode
  have hnone : script = [] → Nests lockRank [] script :=
    fun hscript => hscript ▸ nests_nil lockRank []
  cases stage with
  | lookup g =>
      simp only [Stage.paths, List.mem_cons, Prod.mk.injEq, List.not_mem_nil, or_false] at h
      rcases h with ⟨hscript, _⟩ | ⟨hscript, _⟩
      · exact hscript ▸ nests_grant
      · exact hone _ _ hscript
  | publish =>
      simp only [Stage.paths, List.mem_singleton, Prod.mk.injEq] at h
      exact h.1 ▸ nests_grant
  | removeLeases =>
      simp only [Stage.paths, List.mem_singleton, Prod.mk.injEq] at h
      exact h.1 ▸ nests_removeLeases
  | memorySnapshots =>
      simp only [Stage.paths, List.mem_singleton, Prod.mk.injEq] at h
      exact h.1 ▸ nests_memorySnapshots
  | snapshot =>
      simp only [Stage.paths, List.mem_singleton, Prod.mk.injEq] at h
      exact h.1 ▸ nests_snapshot
  | returned => exact absurd h List.not_mem_nil
  | spawning g | waiting g =>
      simp only [Stage.paths, List.mem_singleton, Prod.mk.injEq] at h
      exact hnone h.1
  | awaiting =>
      simp only [Stage.paths, List.mem_cons, Prod.mk.injEq, List.not_mem_nil, or_false] at h
      rcases h with ⟨hscript, _⟩ | ⟨hscript, _⟩ <;> exact hnone hscript
  | enter g | leave g | take more | lease | session | handleKey =>
      simp only [Stage.paths, List.mem_cons, Prod.mk.injEq, List.not_mem_nil, or_false] at h
      rcases h with ⟨hscript, _⟩ | ⟨hscript, _⟩ <;> exact hone _ _ hscript
  | _ =>
      simp only [Stage.paths, List.mem_singleton, Prod.mk.injEq] at h
      exact hone _ _ h.1

/-! ### No deadlock -/

/-- No calls wait for each other: of no set of calls does each wait for a lock that
    another of them holds, or asked for earlier. -/
def DeadlockFree (s : Locking) : Prop := ∀ callers : Set CallId, ¬Deadlocked s.locks callers

theorem disciplined_locking (s s' : Locking) (a : LockingAction)
    (h : Disciplined lockRank s.locks) (hstep : s.step a = some s') :
    Disciplined lockRank s'.locks := by
  cases a with
  | start call method =>
      simp only [Locking.step] at hstep
      split at hstep
      · exact absurd hstep (by simp)
      · rw [← Option.some.inj hstep]
        exact h
  | path call entry k =>
      simp only [Locking.step] at hstep
      split at hstep
      · exact absurd hstep (by simp)
      rename_i stage _
      split at hstep
      · exact absurd hstep (by simp)
      rename_i script stage' hpath
      rcases Option.map_eq_some_iff.mp hstep with ⟨locks, hlocks, heq⟩
      rw [← heq]
      have hnests := paths_nest entry stage stage' script (List.mem_of_getElem? hpath)
      have hordered := ordered_of_nests lockRank script hnests
      exact disciplined_begin s.locks locks h call script hordered hlocks
  | go call =>
      rcases Option.map_eq_some_iff.mp hstep with ⟨locks, hlocks, heq⟩
      rw [← heq]
      exact disciplined_step s.locks locks _ h (fun c script hgo => absurd hgo (by simp)) hlocks

/-- In no state that calls of the registry's methods reach, on any keys and in any
    order, do calls wait for each other. -/
theorem deadlock_free (as : List LockingAction) :
    Always Locking.step DeadlockFree Locking.init as := by
  refine always_of_invariant (I := fun s => Disciplined lockRank s.locks) (C := fun _ _ => True)
    ?_ ?_ as _ (disciplined_init lockRank) (along_true as _)
  · exact fun s a s' h hstep _ => disciplined_locking s s' a h hstep
  · exact fun s h => not_deadlocked 3 lockRank_le s.locks h

-- A reader waits behind a writer that waits for another reader.
example : ((run Locking.step Locking.init
    [.start 0 .snapshot, .path 0 0 0, .go 0, .start 1 .touch, .path 1 0 0, .go 1,
      .start 2 .sessionCount, .path 2 0 0, .go 2]).map
    fun s => (s.locks.locks .sessions).queue.map Prod.fst) = some [1, 2] := by
  decide

/-! ### The sections of the registry -/

def AcquirePc.stage : AcquirePc → Stage
  | .count => .count
  | .gate => .gate
  | .lookup g => .lookup g
  | .enter g => .enter g
  | .spawning g => .spawning g
  | .leave g _ => .leave g
  | .publish _ => .publish
  | .dropGate _ => .dropGate
  | .waiting g _ => .waiting g
  | .returned _ => .returned

def ForwardPc.stage : ForwardPc → Stage
  | .lease => .lease
  | .session _ => .session
  | .awaiting _ _ => .awaiting
  | .touch _ _ => .touch
  | .returned _ => .returned

/-- The stage of a call of the registry's model. -/
def Frame.stage : Frame → Stage
  | .acquire _ _ pc => pc.stage
  | .attached _ _ => .returned
  | .release _ .take => .take 0
  | .release _ (.decrement _) => .decrement 0
  | .release _ (.returned _) => .returned
  | .remove _ .session => .removeSession
  | .remove _ .leases => .removeLeases
  | .remove _ .returned => .returned
  | .forward _ _ _ pc => pc.stage
  | .touch _ returned => if returned then .returned else .touch
  | .mark _ _ returned => if returned then .returned else .mark
  | .idle _ result => if result.isSome then .returned else .idle
  | .increment _ returned => if returned then .returned else .increment
  | .crash returned => if returned then .returned else .increment

/-- What has changed is under a guard of the script that may write. A gate that is
    new is nobody else's. -/
structure Covers (script : List (Op LockName)) (r r' : SessionRegistry) : Prop where
  sessions : r'.sessions ≠ r.sessions → .acquire .sessions .write ∈ script
  leases : r'.leases ≠ r.leases → .acquire .leases .write ∈ script
  counters : r'.counters ≠ r.counters → .acquire .counters .write ∈ script
  spawnGates : r'.spawnGates ≠ r.spawnGates → .acquire .spawnGates .write ∈ script
  gates : ∀ g, r'.gateHeap g ≠ r.gateHeap g →
    g = r.nextGate ∨ .acquire (.gate g) .write ∈ script

theorem covers_refl (script : List (Op LockName)) (r : SessionRegistry) : Covers script r r where
  sessions := fun h => absurd rfl h
  leases := fun h => absurd rfl h
  counters := fun h => absurd rfl h
  spawnGates := fun h => absurd rfl h
  gates := fun _ h => absurd rfl h

/-- Only the sessions have changed. -/
theorem covers_sessions (script : List (Op LockName)) (r : SessionRegistry)
    (sessions : Table SessionKey SessionRecord)
    (h : .acquire .sessions .write ∈ script) : Covers script r { r with sessions := sessions } where
  sessions := fun _ => h
  leases := fun h => absurd rfl h
  counters := fun h => absurd rfl h
  spawnGates := fun h => absurd rfl h
  gates := fun _ h => absurd rfl h

theorem covers_touch (script : List (Op LockName)) (r : SessionRegistry) (key : SessionKey)
    (now : Instant) (h : .acquire .sessions .write ∈ script) :
    Covers script r (r.touch key now) := by
  unfold SessionRegistry.touch
  split
  · exact covers_sessions script r _ h
  · exact covers_refl script r

/-- A grant writes the sessions, the leases and the counters. -/
theorem covers_grant (r : SessionRegistry) (key : SessionKey) (clientKind : Option ClientKind)
    (record : SessionRecord) (counters : RegistryCounters) (now : Instant) :
    Covers grantGuards r (r.grantLease key clientKind record counters now).1 where
  sessions := fun _ => by decide
  leases := fun _ => by decide
  counters := fun _ => by decide
  spawnGates := fun h => absurd rfl h
  gates := fun _ h => absurd rfl h

/-- Only one gate has changed. -/
theorem covers_gate (r : SessionRegistry) (g : GateId) (gate : SpawnGate) :
    Covers (guarded (.gate g) .write []) r
      { r with gateHeap := Function.update r.gateHeap g gate } where
  sessions := fun h => absurd rfl h
  leases := fun h => absurd rfl h
  counters := fun h => absurd rfl h
  spawnGates := fun h => absurd rfl h
  gates := by
    intro g' h
    by_cases hg : g' = g
    · rw [hg]
      exact Or.inr List.mem_cons_self
    · exact absurd (Function.update_of_ne hg _ _) h

/-- A gate is found, or put into `spawn_gates`. -/
theorem covers_gateEntry (r : SessionRegistry) (key : SessionKey) :
    Covers (guarded .spawnGates .write []) r (r.gateEntry key).1 := by
  unfold SessionRegistry.gateEntry
  split
  · exact covers_refl _ r
  · constructor
    · exact fun h => absurd rfl h
    · exact fun h => absurd rfl h
    · exact fun h => absurd rfl h
    · exact fun _ => by decide
    · intro g h
      by_cases hg : g = r.nextGate
      · exact Or.inl hg
      · exact absurd (Function.update_of_ne hg _ _) h

theorem covers_dropGate (script : List (Op LockName)) (r : SessionRegistry) (key : SessionKey)
    (h : .acquire .spawnGates .write ∈ script) : Covers script r (r.dropGate key) where
  sessions := fun h => absurd rfl h
  leases := fun h => absurd rfl h
  counters := fun h => absurd rfl h
  spawnGates := fun _ => h
  gates := fun _ h => absurd rfl h

/-- There is a path between two stages that covers what has changed. -/
def Guarded (stage stage' : Stage) (r r' : SessionRegistry) : Prop :=
  ∃ entry script, (script, stage') ∈ stage.paths entry ∧ Covers script r r'

theorem acquire_guarded (call : CallId) (now : Instant) (r r' : SessionRegistry)
    (key : SessionKey) (clientKind : Option ClientKind) (pc pc' : AcquirePc)
    (events : List Event)
    (h : pc.section call key clientKind now r = some (r', pc', events)) :
    Guarded pc.stage pc'.stage r r' := by
  cases pc with
  | count =>
      simp only [AcquirePc.section, Option.some.injEq, Prod.mk.injEq] at h
      rw [← h.1, ← h.2.1]
      refine ⟨0, _, List.mem_singleton.mpr rfl, ?_⟩
      exact ⟨fun h => absurd rfl h, fun h => absurd rfl h, fun _ => by decide,
        fun h => absurd rfl h, fun _ h => absurd rfl h⟩
  | gate =>
      simp only [AcquirePc.section, Option.some.injEq, Prod.mk.injEq] at h
      rw [← h.1, ← h.2.1]
      exact ⟨(r.gateEntry key).2, _, List.mem_singleton.mpr rfl, covers_gateEntry r key⟩
  | lookup g =>
      cases hrec : r.sessions.get? key with
      | none =>
          simp only [AcquirePc.section, hrec, Option.some.injEq, Prod.mk.injEq] at h
          rw [← h.1, ← h.2.1]
          exact ⟨0, _, List.mem_cons_of_mem _ (List.mem_singleton.mpr rfl), covers_refl _ r⟩
      | some record =>
          simp only [AcquirePc.section, hrec, Option.some.injEq, Prod.mk.injEq] at h
          rw [← h.1, ← h.2.1]
          exact ⟨0, _, List.mem_cons_self, covers_grant r key clientKind record _ now⟩
  | enter g =>
      simp only [AcquirePc.section] at h
      unfold SessionRegistry.enterGate at h
      by_cases hstarted : (r.gateHeap g).started = true
      · simp only [hstarted, if_true, Option.some.injEq, Prod.mk.injEq] at h
        rw [← h.1, ← h.2.1]
        exact ⟨0, _, List.mem_cons_of_mem _ (List.mem_singleton.mpr rfl), covers_refl _ r⟩
      · simp only [hstarted, if_false, Bool.false_eq_true, Option.some.injEq, Prod.mk.injEq] at h
        rw [← h.1, ← h.2.1]
        exact ⟨0, _, List.mem_cons_self, covers_gate r g _⟩
  | spawning g => exact absurd h (by simp [AcquirePc.section])
  | leave g result =>
      cases result with
      | ok handle =>
          simp only [AcquirePc.section, Option.some.injEq, Prod.mk.injEq] at h
          rw [← h.1, ← h.2.1]
          exact ⟨0, _, List.mem_cons_self, covers_gate r g _⟩
      | error error =>
          simp only [AcquirePc.section, Option.some.injEq, Prod.mk.injEq] at h
          rw [← h.1, ← h.2.1]
          exact ⟨0, _, List.mem_cons_of_mem _ (List.mem_singleton.mpr rfl), covers_gate r g _⟩
  | publish handle =>
      simp only [AcquirePc.section, Option.some.injEq, Prod.mk.injEq] at h
      rw [← h.1, ← h.2.1]
      exact ⟨0, _, List.mem_singleton.mpr rfl, covers_grant r key clientKind _ _ now⟩
  | dropGate error =>
      simp only [AcquirePc.section, Option.some.injEq, Prod.mk.injEq] at h
      rw [← h.1, ← h.2.1]
      exact ⟨0, _, List.mem_singleton.mpr rfl, covers_dropGate _ r key (by decide)⟩
  | waiting g epoch =>
      simp only [AcquirePc.section, Option.ite_none_right_eq_some, Option.some.injEq,
        Prod.mk.injEq] at h
      rw [← h.2.1, ← h.2.2.1]
      exact ⟨0, _, List.mem_singleton.mpr rfl, covers_refl _ r⟩
  | returned result => exact absurd h (by simp [AcquirePc.section])

theorem forward_guarded (call : CallId) (now : Instant) (r r' : SessionRegistry) (id : String)
    (message : Json) (pc pc' : ForwardPc) (events : List Event)
    (h : pc.section call id message now r = some (r', pc', events)) :
    Guarded pc.stage pc'.stage r r' := by
  cases pc with
  | lease =>
      cases hkey : r.leaseKey id with
      | none =>
          simp only [ForwardPc.section, hkey, Option.some.injEq, Prod.mk.injEq] at h
          rw [← h.1, ← h.2.1]
          exact ⟨0, _, List.mem_cons_of_mem _ (List.mem_singleton.mpr rfl), covers_refl _ r⟩
      | some key =>
          simp only [ForwardPc.section, hkey, Option.some.injEq, Prod.mk.injEq] at h
          rw [← h.1, ← h.2.1]
          exact ⟨0, _, List.mem_cons_self, covers_refl _ r⟩
  | session key =>
      have hfails : ∀ result, r' = r → pc' = .returned result →
          Guarded (ForwardPc.session key).stage pc'.stage r r' := by
        intro result hr hpc
        rw [hr, hpc]
        exact ⟨0, _, List.mem_cons_of_mem _ (List.mem_singleton.mpr rfl), covers_refl _ r⟩
      simp only [ForwardPc.section] at h
      unfold SessionRegistry.lookupRuntime at h
      cases hrec : r.sessions.get? key with
      | none =>
          simp only [hrec, Option.some.injEq, Prod.mk.injEq] at h
          exact hfails _ h.1.symm h.2.1.symm
      | some record =>
          simp only [hrec] at h
          by_cases hterm : record.terminating = true
          · cases hnotice : record.terminationNotice <;>
              · simp only [hterm, if_true, hnotice, Option.some.injEq, Prod.mk.injEq] at h
                exact hfails _ h.1.symm h.2.1.symm
          · simp only [hterm, if_false, Bool.false_eq_true, Option.some.injEq, Prod.mk.injEq] at h
            rw [← h.1, ← h.2.1]
            exact ⟨0, _, List.mem_cons_self, covers_sessions _ r _ (by decide)⟩
  | awaiting key runtime => exact absurd h (by simp [ForwardPc.section])
  | touch key response =>
      simp only [ForwardPc.section, Option.some.injEq, Prod.mk.injEq] at h
      rw [← h.1, ← h.2.1]
      exact ⟨0, _, List.mem_singleton.mpr rfl, covers_touch _ r key now (by decide)⟩
  | returned result => exact absurd h (by simp [ForwardPc.section])

/-- A section of a call under way is a path between the stages of its frames, and
    what it changes is guarded. -/
theorem section_guarded (call : CallId) (now : Instant) (r r' : SessionRegistry)
    (frame frame' : Frame) (events : List Event) (hflight : frame.inFlight = true)
    (h : frame.section call now r = some (r', frame', events)) :
    Guarded frame.stage frame'.stage r r' := by
  cases frame with
  | acquire key clientKind pc =>
      rcases section_acquire call now r r' key clientKind pc frame' events h with
        ⟨lease, hpc, _, _, _⟩ | ⟨pc', hsec, hframe'⟩
      · rw [hpc] at hflight
        exact absurd hflight (by simp [Frame.inFlight])
      · rw [hframe']
        exact acquire_guarded call now r r' key clientKind pc pc' events hsec
  | attached lease handle => exact absurd h (by simp [Frame.section])
  | release id pc =>
      simp only [Frame.section, Option.map_eq_some_iff, Prod.exists, Prod.mk.injEq] at h
      rcases h with ⟨r₁, pc', hsec, rfl, hframe', _⟩
      rw [← hframe']
      cases pc with
      | take =>
          simp only [ReleasePc.section] at hsec
          unfold SessionRegistry.takeLease at hsec
          cases hlease : r.leases.get? id with
          | none =>
              simp only [hlease, Option.some.injEq, Prod.mk.injEq] at hsec
              rw [← hsec.1, ← hsec.2]
              exact ⟨0, _, List.mem_cons_of_mem _ (List.mem_singleton.mpr rfl), covers_refl _ r⟩
          | some lease =>
              simp only [hlease, Option.some.injEq, Prod.mk.injEq] at hsec
              rw [← hsec.1, ← hsec.2]
              refine ⟨0, _, List.mem_cons_self, ?_⟩
              exact ⟨fun h => absurd rfl h, fun _ => by decide, fun h => absurd rfl h,
                fun h => absurd rfl h, fun _ h => absurd rfl h⟩
      | decrement key =>
          simp only [ReleasePc.section, Option.some.injEq, Prod.mk.injEq] at hsec
          rw [← hsec.1, ← hsec.2]
          refine ⟨0, _, List.mem_singleton.mpr rfl, ?_⟩
          unfold SessionRegistry.releaseSession
          split
          · exact covers_sessions _ r _ (by decide)
          · exact covers_refl _ r
      | returned result => exact absurd hsec (by simp [ReleasePc.section])
  | remove key pc =>
      simp only [Frame.section, Option.map_eq_some_iff, Prod.exists, Prod.mk.injEq] at h
      rcases h with ⟨r₁, pc', hsec, rfl, hframe', _⟩
      rw [← hframe']
      cases pc with
      | session =>
          simp only [RemovePc.section, Option.some.injEq, Prod.mk.injEq] at hsec
          rw [← hsec.1, ← hsec.2]
          exact ⟨0, _, List.mem_singleton.mpr rfl, covers_sessions _ r _ (by decide)⟩
      | leases =>
          simp only [RemovePc.section, Option.some.injEq, Prod.mk.injEq] at hsec
          rw [← hsec.1, ← hsec.2]
          refine ⟨0, _, List.mem_singleton.mpr rfl, ?_⟩
          exact ⟨fun h => absurd rfl h, fun _ => by decide, fun h => absurd rfl h,
            fun _ => by decide, fun _ h => absurd rfl h⟩
      | returned => exact absurd hsec (by simp [RemovePc.section])
  | forward kind id message pc =>
      simp only [Frame.section, Option.map_eq_some_iff, Prod.exists, Prod.mk.injEq] at h
      rcases h with ⟨r₁, pc', evs, hsec, rfl, hframe', _⟩
      rw [← hframe']
      exact forward_guarded call now r r₁ id message pc pc' evs hsec
  | touch key returned =>
      simp only [Frame.section, Option.ite_none_left_eq_some, Option.some.injEq,
        Prod.mk.injEq] at h
      rw [← h.2.1, ← h.2.2.1, Frame.stage, if_neg h.1]
      exact ⟨0, _, List.mem_singleton.mpr rfl, covers_touch _ r key now (by decide)⟩
  | mark key notice returned =>
      simp only [Frame.section, Option.ite_none_left_eq_some, Option.some.injEq,
        Prod.mk.injEq] at h
      rw [← h.2.1, ← h.2.2.1, Frame.stage, if_neg h.1]
      refine ⟨0, _, List.mem_singleton.mpr rfl, ?_⟩
      unfold SessionRegistry.markTerminatingWithNotice
      split
      · exact covers_sessions _ r _ (by decide)
      · exact covers_refl _ r
  | idle start result =>
      cases result with
      | some handles => exact absurd h (by simp [Frame.section])
      | none =>
          simp only [Frame.section, Option.some.injEq, Prod.mk.injEq] at h
          rw [← h.1, ← h.2.1]
          exact ⟨0, _, List.mem_singleton.mpr rfl, covers_sessions _ r _ (by decide)⟩
  | increment evictor returned =>
      simp only [Frame.section, Option.ite_none_left_eq_some, Option.some.injEq,
        Prod.mk.injEq] at h
      rw [← h.2.1, ← h.2.2.1, Frame.stage, if_neg h.1]
      refine ⟨0, _, List.mem_singleton.mpr rfl, ?_⟩
      -- The counters have a lock of their own.
      cases evictor <;>
        exact ⟨fun h => absurd rfl h, fun h => absurd rfl h, fun _ => by decide,
          fun h => absurd rfl h, fun _ h => absurd rfl h⟩
  | crash returned =>
      simp only [Frame.section, Option.ite_none_left_eq_some, Option.some.injEq,
        Prod.mk.injEq] at h
      rw [← h.2.1, ← h.2.2.1, Frame.stage, if_neg h.1]
      refine ⟨0, _, List.mem_singleton.mpr rfl, ?_⟩
      exact ⟨fun h => absurd rfl h, fun h => absurd rfl h, fun _ => by decide,
        fun h => absurd rfl h, fun _ h => absurd rfl h⟩

end Lspee
