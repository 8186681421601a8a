import Lspee.Core.Stopping
import Lspee.Theory.Eviction

/-!
# Who Holds a Runtime

Only who holds a runtime can stop it. The world holds it from the moment its
spawn closure returns: the acquire that is to publish it first, then the
registry. An evictor holds it from the moment it reads it until it has tried to
stop it.

A step of the world lets go of a runtime in two places. A publish that finds a
session already there drops the handle it has brought, and the first section of
`remove` drops whatever is registered under the key. `World.has_step` says that
these are the only two: apart from them and from new runtimes, the world has
after a step what it had before.

The evictors add two more. A runtime that an evictor has tried to stop is out of
its hands whether or not it was stopped, and so is one that the memory monitor
has sampled and not chosen. `Daemon.loses` are the runtimes that a step takes out
of the last hands they were in, and `Daemon.has_step` says that these are all.

## Main definitions

* `SessionRegistry.runtimes`, `World.unpublished`: The runtimes registered, and
  those waiting to be.
* `World.Has`, `World.Known`: The world has this runtime, or has had it
  registered.
* `World.letsGo`: The runtime a step of the world lets go of.
* `Daemon.held`, `Daemon.Has`: The runtimes in the hands of the evictors, or of
  anybody.
* `Daemon.loses`: The runtimes a step of the daemon loses.
* `CustodyEffect`: What a step does to what the evictors hold.

## Theorems

* `runtimes_step`, `unpublished_step`: What a step does to either list.
* `World.has_step`, `Daemon.has_step`: What is held after a step.
* `custody_effect`: Every step of the daemon has an effect.
* `held_known_step`: Evictors hold what has been registered.
* `heldOrStopped_step`: No runtime gets away as long as what is lost has been
  stopped.
-/

namespace Lspee

open Transition

/-- The runtimes of the registered sessions. -/
def SessionRegistry.runtimes (r : SessionRegistry) : List RuntimeId :=
  r.sessions.values.map (fun record => record.handle.runtime)

theorem SessionRegistry.mem_runtimes (r : SessionRegistry) (runtime : RuntimeId) :
    runtime ∈ r.runtimes ↔ ∃ key, r.instanceOf key = some runtime := by
  rw [runtimes, List.mem_map]
  constructor
  · rintro ⟨record, hmem, hrt⟩
    rcases (Table.mem_values_iff _ _).mp hmem with ⟨key, hkey⟩
    exact ⟨key, by rw [instanceOf, hkey, Option.map_some, hrt]⟩
  · rintro ⟨key, hinst⟩
    rcases Option.map_eq_some_iff.mp hinst with ⟨record, hget, hrt⟩
    exact ⟨record, (Table.mem_values_iff _ _).mpr ⟨key, hget⟩, hrt⟩

namespace World

/-- The runtimes that acquires have spawned and not published. -/
def unpublished (w : World) : List RuntimeId :=
  w.calls.values.filterMap (fun frame => frame.pending.map (fun spawned => spawned.2.runtime))

theorem mem_unpublished (w : World) (runtime : RuntimeId) :
    runtime ∈ w.unpublished ↔ ∃ call frame spawned, w.calls.get? call = some frame ∧
      frame.pending = some spawned ∧ spawned.2.runtime = runtime := by
  rw [unpublished, List.mem_filterMap]
  constructor
  · rintro ⟨frame, hmem, hmap⟩
    rcases (Table.mem_values_iff _ _).mp hmem with ⟨call, hcall⟩
    rcases Option.map_eq_some_iff.mp hmap with ⟨spawned, hpending, hrt⟩
    exact ⟨call, frame, spawned, hcall, hpending, hrt⟩
  · rintro ⟨call, frame, spawned, hcall, hpending, hrt⟩
    refine ⟨frame, (Table.mem_values_iff _ _).mpr ⟨call, hcall⟩, ?_⟩
    rw [hpending, Option.map_some, hrt]

/-- The runtime is registered, or an acquire is about to register it. -/
def Has (w : World) (runtime : RuntimeId) : Prop :=
  runtime ∈ w.reg.runtimes ∨ runtime ∈ w.unpublished

instance (w : World) (runtime : RuntimeId) : Decidable (w.Has runtime) :=
  inferInstanceAs (Decidable (_ ∨ _))

/-- The runtime has been registered. -/
def Known (w : World) (runtime : RuntimeId) : Prop :=
  ∃ key, Event.registered key runtime ∈ w.log

/-- The runtime a step lets go of: the one a publish has brought for nothing, or
    the one whose session a removal drops. -/
def letsGo (w : World) (a : Action) : Option RuntimeId :=
  match a.mover.bind w.calls.get? with
  | some (.acquire key _ (.publish handle)) =>
    if (w.reg.instanceOf key).isSome then some handle.runtime else none
  | some (.remove key .session) => w.reg.instanceOf key
  | _ => none

/-! ### What is registered is known, and what waits is not -/

theorem known_of_mem (w : World) (h : Fresh w) (runtime : RuntimeId)
    (hmem : runtime ∈ w.reg.runtimes) : w.Known runtime := by
  rcases (w.reg.mem_runtimes runtime).mp hmem with ⟨key, hinst⟩
  rcases Option.map_eq_some_iff.mp hinst with ⟨record, hget, rfl⟩
  exact ⟨key, h.registered key record hget⟩

theorem known_step (w w' : World) (a : Action) (hstep : w.step a = some w')
    (runtime : RuntimeId) (h : w.Known runtime) : w'.Known runtime := by
  rcases h with ⟨key, hmem⟩
  rcases log_step w w' a hstep with ⟨events, hlog⟩
  exact ⟨key, by rw [hlog]; exact List.mem_append_right _ hmem⟩

theorem bound_of_known (w : World) (h : Fresh w) (runtime : RuntimeId)
    (hknown : w.Known runtime) : runtime < w.nextRuntime := by
  rcases hknown with ⟨key, hmem⟩
  exact h.bound key runtime hmem

theorem not_known_of_unpublished (w : World) (h : Fresh w) (runtime : RuntimeId)
    (hmem : runtime ∈ w.unpublished) : ¬ w.Known runtime := by
  rcases (w.mem_unpublished runtime).mp hmem with ⟨call, frame, spawned, hcall, hpending, rfl⟩
  rintro ⟨key, hknown⟩
  exact h.pendingNew call frame spawned hcall hpending key hknown

theorem bound_of_has (w : World) (h : Fresh w) (runtime : RuntimeId)
    (hhas : w.Has runtime) : runtime < w.nextRuntime := by
  rcases hhas with hmem | hmem
  · exact bound_of_known w h runtime (known_of_mem w h runtime hmem)
  · rcases (w.mem_unpublished runtime).mp hmem with ⟨call, frame, spawned, hcall, hpending, rfl⟩
    exact h.pendingBound call frame spawned hcall hpending

/-! ### The handles that wait to be published -/

/-- What moving a call does to the handle it is to publish. -/
inductive PendingStep (w w' : World) (frame frame' : Frame) : Prop where
  /-- It still is to publish it, or still has none. -/
  | keeps (hother : ∀ key clientKind handle, frame ≠ .acquire key clientKind (.publish handle))
      (hnext : w'.nextRuntime = w.nextRuntime) (hpending : frame'.pending = frame.pending)
  /-- It is through with it. -/
  | publishes (key : SessionKey) (clientKind : Option ClientKind) (handle : SessionHandle)
      (hframe : frame = .acquire key clientKind (.publish handle))
      (hnext : w'.nextRuntime = w.nextRuntime) (hpending : frame'.pending = none)
  /-- It has been given one, of a new runtime. -/
  | spawns (spawned : SessionKey × SessionHandle) (hnone : frame.pending = none)
      (hnext : w'.nextRuntime = w.nextRuntime + 1) (hpending : frame'.pending = some spawned)
      (hnew : spawned.2.runtime = w.nextRuntime)

/-- A frame that is to publish a handle leaves its gate, or publishes. -/
theorem pending_eq_some (frame : Frame) (spawned : SessionKey × SessionHandle)
    (h : frame.pending = some spawned) :
    (∃ clientKind g, frame = .acquire spawned.1 clientKind (.leave g (.ok spawned.2))) ∨
      ∃ clientKind, frame = .acquire spawned.1 clientKind (.publish spawned.2) := by
  unfold Frame.pending at h
  split at h
  · rename_i key clientKind g handle
    rw [Option.some.injEq] at h
    rw [← h]
    exact Or.inl ⟨clientKind, g, rfl⟩
  · rename_i key clientKind handle
    rw [Option.some.injEq] at h
    rw [← h]
    exact Or.inr ⟨clientKind, rfl⟩
  · exact absurd h (by simp)

theorem pending_step (w w' : World) (a : Action) (hstep : w.step a = some w') (call : CallId)
    (frame : Frame) (hmover : a.mover = some call) (hcall : w.calls.get? call = some frame) :
    ∃ frame', w'.calls.get? call = some frame' ∧ PendingStep w w' frame frame' := by
  cases hpending : frame.pending with
  | some spawned =>
      rcases pending_eq_some frame spawned hpending with ⟨clientKind, g, rfl⟩ | ⟨clientKind, rfl⟩
      · rcases sect_of_mover w w' a call _ hmover hcall (by simp) (by simp) hstep
          with ⟨r', frame', events, hsec, rfl⟩
        simp only [Frame.section, AcquirePc.section, Option.map_some, Option.some.injEq,
          Prod.mk.injEq] at hsec
        rcases hsec with ⟨rfl, rfl, rfl⟩
        exact ⟨_, Table.get?_set_self _ _ _, .keeps (by simp) rfl rfl⟩
      · rcases sect_of_mover w w' a call _ hmover hcall (by simp) (by simp) hstep
          with ⟨r', frame', events, hsec, rfl⟩
        simp only [Frame.section, AcquirePc.section, Option.map_some, Option.some.injEq,
          Prod.mk.injEq] at hsec
        rcases hsec with ⟨rfl, rfl, rfl⟩
        exact ⟨_, Table.get?_set_self _ _ _, .publishes _ _ _ rfl rfl rfl⟩
  | none =>
      cases step_effect w w' a hstep with
      | tick span => exact absurd hmover (by simp [Action.mover])
      | start c method hfree => exact absurd hmover (by simp [Action.mover])
      | spawnOk c key clientKind g initializeResult hc =>
          rw [Action.mover, Option.some.injEq] at hmover
          rw [hmover]
          exact ⟨_, Table.get?_set_self _ _ _, .spawns _ hpending rfl rfl rfl⟩
      | move _ c f f' r' events hm hc heffect =>
          rw [hmover, Option.some.injEq] at hm
          rw [← hm] at hc ⊢
          rw [hcall, Option.some.injEq] at hc
          have hother : ∀ key clientKind handle,
              frame ≠ .acquire key clientKind (.publish handle) := by
            intro key clientKind handle heq
            rw [heq] at hpending
            exact absurd hpending (by simp [Frame.pending])
          refine ⟨f', Table.get?_set_self _ _ _, .keeps hother rfl ?_⟩
          rw [hc] at hpending ⊢
          -- A frame that has nothing to publish is not the publish of a grant.
          cases heffect with
          | quiet _ _ _ _ hkept hleases hseq hlog hrel hrel' hclear hclear' hpend hroute =>
              cases hpending' : f'.pending with
              | none => exact hpending.symm
              | some spawned => exact (hpend spawned hpending').symm
          | grant key clientKind pc record counters hrecord hpc => exact hpending.symm
          | register key clientKind handle counters hnone => exact hpending.symm
          | take id lease hlease => rfl
          | decrement id key => rfl
          | removeSession key => rfl
          | removeLeases key => rfl

/-- A step moves one call, and the others stay as they are. -/
theorem calls_other (w w' : World) (a : Action) (hstep : w.step a = some w') (call c : CallId)
    (hmover : a.mover = some call) (hne : c ≠ call) :
    w'.calls.get? c = w.calls.get? c := by
  cases step_effect w w' a hstep with
  | tick span => rfl
  | start c' method hfree => exact absurd hmover (by simp [Action.mover])
  | spawnOk c' key clientKind g initializeResult hcall =>
      rw [Action.mover, Option.some.injEq] at hmover
      exact Table.get?_set_ne _ _ _ _ (by rw [hmover]; exact hne)
  | move _ c' frame frame' r' events hm hcall heffect =>
      rw [hmover, Option.some.injEq] at hm
      exact Table.get?_set_ne _ _ _ _ (by rw [← hm]; exact hne)

/-- The step is a publish of this runtime. -/
def Publishes (w : World) (a : Action) (runtime : RuntimeId) : Prop :=
  ∃ call key clientKind handle, a.mover = some call ∧
    w.calls.get? call = some (.acquire key clientKind (.publish handle)) ∧
    handle.runtime = runtime

/-- A step that moves no call spawns nothing and publishes nothing. -/
theorem unpublished_of_no_mover (w w' : World) (a : Action) (hstep : w.step a = some w')
    (hmover : a.mover = none) :
    w'.nextRuntime = w.nextRuntime ∧ w'.reg = w.reg ∧
      ∀ runtime, runtime ∈ w'.unpublished ↔ runtime ∈ w.unpublished := by
  cases step_effect w w' a hstep with
  | tick span => exact ⟨rfl, rfl, fun _ => Iff.rfl⟩
  | start call method hfree =>
      refine ⟨rfl, rfl, fun runtime => ?_⟩
      rw [mem_unpublished, mem_unpublished]
      constructor
      · rintro ⟨c, frame, spawned, hcall, hpending, hrt⟩
        rw [Table.get?_set] at hcall
        by_cases hc : c = call
        · rw [if_pos hc, Option.some.injEq] at hcall
          rw [← hcall] at hpending
          exact absurd hpending (by cases method <;> simp [Method.frame, Frame.pending])
        · rw [if_neg hc] at hcall
          exact ⟨c, frame, spawned, hcall, hpending, hrt⟩
      · rintro ⟨c, frame, spawned, hcall, hpending, hrt⟩
        have hne : c ≠ call := by
          intro heq
          rw [heq, hfree] at hcall
          exact absurd hcall (by simp)
        exact ⟨c, frame, spawned, (Table.get?_set_ne _ _ _ _ hne).trans hcall, hpending, hrt⟩
  | spawnOk call key clientKind g initializeResult hcall =>
      exact absurd hmover (by simp [Action.mover])
  | move _ call frame frame' r' events hm hcall heffect =>
      rw [hmover] at hm
      exact absurd hm (by simp)

/-- A runtime waits to be published when it is new, or when it did before and
    was not published. -/
theorem unpublished_step (w w' : World) (a : Action) (h : Fresh w) (hstep : w.step a = some w')
    (runtime : RuntimeId) :
    runtime ∈ w'.unpublished ↔ (w.nextRuntime ≤ runtime ∧ runtime < w'.nextRuntime) ∨
      (runtime ∈ w.unpublished ∧ ¬ w.Publishes a runtime) := by
  cases hmover : a.mover with
  | none =>
      rcases unpublished_of_no_mover w w' a hstep hmover with ⟨hnext, _, hsame⟩
      rw [hsame, hnext]
      constructor
      · intro hmem
        refine Or.inr ⟨hmem, ?_⟩
        rintro ⟨call, key, clientKind, handle, hm, _⟩
        rw [hmover] at hm
        exact absurd hm (by simp)
      · rintro (⟨hle, hlt⟩ | ⟨hmem, _⟩)
        · exact absurd hlt (Nat.not_lt_of_le hle)
        · exact hmem
  | some call =>
      rcases mover_isSome w w' a hstep call hmover with ⟨frame, hcall⟩
      rcases pending_step w w' a hstep call frame hmover hcall with ⟨frame', hcall', hp⟩
      have hother := fun c hne => calls_other w w' a hstep call c hmover hne
      -- What the step publishes is the handle of the frame it moves.
      have hpublishes : w.Publishes a runtime ↔ ∃ key clientKind handle,
          frame = .acquire key clientKind (.publish handle) ∧ handle.runtime = runtime := by
        constructor
        · rintro ⟨c, key, clientKind, handle, hm, hc, hrt⟩
          rw [hmover, Option.some.injEq] at hm
          rw [← hm, hcall, Option.some.injEq] at hc
          exact ⟨key, clientKind, handle, hc, hrt⟩
        · rintro ⟨key, clientKind, handle, rfl, hrt⟩
          exact ⟨call, key, clientKind, handle, hmover, hcall, hrt⟩
      rw [hpublishes, mem_unpublished, mem_unpublished]
      constructor
      · rintro ⟨c, f, spawned, hc, hpending, hrt⟩
        by_cases hne : c = call
        · rw [hne, hcall', Option.some.injEq] at hc
          rw [← hc] at hpending
          cases hp with
          | keeps hno hnext hkeep =>
              rw [hkeep] at hpending
              refine Or.inr ⟨⟨call, frame, spawned, hcall, hpending, hrt⟩, ?_⟩
              rintro ⟨key, clientKind, handle, heq, _⟩
              exact hno key clientKind handle heq
          | publishes key clientKind handle hframe hnext hnone =>
              rw [hnone] at hpending
              exact absurd hpending (by simp)
          -- The new runtime is the one between the two bounds.
          | spawns spawned' hnone hnext hspawned hnew =>
              rw [hspawned, Option.some.injEq] at hpending
              rw [← hpending, hnew] at hrt
              rw [← hrt, hnext]
              exact Or.inl ⟨Nat.le_refl _, Nat.lt_succ_self _⟩
        · rw [hother c hne] at hc
          refine Or.inr ⟨⟨c, f, spawned, hc, hpending, hrt⟩, ?_⟩
          rintro ⟨key, clientKind, handle, rfl, heq⟩
          -- Two calls never wait to publish one runtime.
          exact h.pendingApart c call f _ spawned (key, handle) hne hc hcall hpending rfl
            (hrt.trans heq.symm)
      · rintro (⟨hle, hlt⟩ | ⟨⟨c, f, spawned, hc, hpending, hrt⟩, hno⟩)
        · cases hp with
          | keeps hno hnext hkeep =>
              rw [hnext] at hlt
              exact absurd hlt (Nat.not_lt_of_le hle)
          | publishes key clientKind handle hframe hnext hnone =>
              rw [hnext] at hlt
              exact absurd hlt (Nat.not_lt_of_le hle)
          | spawns spawned hnone hnext hspawned hnew =>
              rw [hnext] at hlt
              exact ⟨call, frame', spawned, hcall', hspawned,
                hnew.trans (Nat.le_antisymm hle (Nat.le_of_lt_succ hlt))⟩
        · by_cases hne : c = call
          · rw [hne, hcall, Option.some.injEq] at hc
            rw [← hc] at hpending
            cases hp with
            | keeps _ hnext hkeep =>
                exact ⟨call, frame', spawned, hcall', by rw [hkeep]; exact hpending, hrt⟩
            | publishes key clientKind handle hframe hnext hnone =>
                rw [hframe, Frame.pending, Option.some.injEq] at hpending
                exact absurd ⟨key, clientKind, handle, hframe, by rw [← hrt, ← hpending]⟩ hno
            | spawns spawned' hnone hnext hspawned hnew =>
                rw [hnone] at hpending
                exact absurd hpending (by simp)
          · exact ⟨c, f, spawned, by rw [hother c hne]; exact hc, hpending, hrt⟩

theorem mem_of_publishes (w : World) (a : Action) (runtime : RuntimeId)
    (h : w.Publishes a runtime) : runtime ∈ w.unpublished := by
  rcases h with ⟨call, key, clientKind, handle, _, hcall, hrt⟩
  exact (w.mem_unpublished runtime).mpr ⟨call, _, (key, handle), hcall, rfl, hrt⟩

/-! ### The registered sessions -/

/-- The two places where a step lets go of a runtime. -/
theorem letsGo_eq_some (w : World) (a : Action) (runtime : RuntimeId)
    (h : w.letsGo a = some runtime) : w.Publishes a runtime ∨
      ∃ call key, a.mover = some call ∧ w.calls.get? call = some (.remove key .session) ∧
        w.reg.instanceOf key = some runtime := by
  unfold letsGo at h
  split at h
  · rename_i key clientKind handle hcall
    rcases Option.bind_eq_some_iff.mp hcall with ⟨call, hmover, hget⟩
    split at h
    · exact Or.inl ⟨call, key, clientKind, handle, hmover, hget, Option.some.inj h⟩
    · exact absurd h (by simp)
  · rename_i key hcall
    rcases Option.bind_eq_some_iff.mp hcall with ⟨call, hmover, hget⟩
    exact Or.inr ⟨call, key, hmover, hget, h⟩
  · exact absurd h (by simp)

theorem letsGo_publish (w : World) (a : Action) (call : CallId) (key : SessionKey)
    (clientKind : Option ClientKind) (handle : SessionHandle) (hmover : a.mover = some call)
    (hcall : w.calls.get? call = some (.acquire key clientKind (.publish handle))) :
    w.letsGo a = if (w.reg.instanceOf key).isSome then some handle.runtime else none := by
  simp only [letsGo, hmover, Option.bind_some, hcall]

theorem letsGo_remove (w : World) (a : Action) (call : CallId) (key : SessionKey)
    (hmover : a.mover = some call) (hcall : w.calls.get? call = some (.remove key .session)) :
    w.letsGo a = w.reg.instanceOf key := by
  simp only [letsGo, hmover, Option.bind_some, hcall]

/-- The first section of `remove` leaves nothing under its key. -/
theorem removed_step (w w' : World) (a : Action) (hstep : w.step a = some w') (call : CallId)
    (key : SessionKey) (hmover : a.mover = some call)
    (hcall : w.calls.get? call = some (.remove key .session)) :
    w'.reg = w.reg.removeSession key ∧
      w'.calls.get? call = some (.remove key .leases) := by
  rcases sect_of_mover w w' a call _ hmover hcall (by simp) (by simp) hstep
    with ⟨r', frame', events, hsec, rfl⟩
  simp only [Frame.section, RemovePc.section, Option.map_some, Option.some.injEq,
    Prod.mk.injEq] at hsec
  rcases hsec with ⟨rfl, rfl, rfl⟩
  exact ⟨rfl, Table.get?_set_self _ _ _⟩

/-- A publish that finds no session registers the one it has brought. -/
theorem published_step (w w' : World) (a : Action) (hstep : w.step a = some w') (call : CallId)
    (key : SessionKey) (clientKind : Option ClientKind) (handle : SessionHandle)
    (hmover : a.mover = some call)
    (hcall : w.calls.get? call = some (.acquire key clientKind (.publish handle)))
    (hnone : w.reg.instanceOf key = none) :
    w'.reg.instanceOf key = some handle.runtime := by
  rcases sect_of_mover w w' a call _ hmover hcall (by simp) (by simp) hstep
    with ⟨r', frame', events, hsec, rfl⟩
  simp only [Frame.section, AcquirePc.section, Option.map_some, Option.some.injEq,
    Prod.mk.injEq] at hsec
  rcases hsec with ⟨rfl, rfl, rfl⟩
  have hget : w.reg.sessions.get? key = none := Option.map_eq_none_iff.mp hnone
  change Option.map _ ((w.reg.sessions.set key _).get? key) = _
  rw [Table.get?_set_self, SessionRegistry.publishRecord, hget]
  rfl

/-- A runtime is registered when it was before and was not let go, or when it is
    published. -/
theorem runtimes_step (w w' : World) (a : Action) (h : Fresh w) (hstep : w.step a = some w')
    (runtime : RuntimeId) :
    runtime ∈ w'.reg.runtimes ↔ (runtime ∈ w.reg.runtimes ∧ w.letsGo a ≠ some runtime) ∨
      (w.Publishes a runtime ∧ w.letsGo a = none) := by
  constructor
  · intro hmem
    rcases (w'.reg.mem_runtimes runtime).mp hmem with ⟨key, hinst⟩
    rcases Option.map_eq_some_iff.mp hinst with ⟨u, hu, hrt⟩
    rcases handle_step w w' a hstep key u hu with
      ⟨u₀, hu₀, hhandle⟩ | ⟨call, clientKind, hmover, hcall, hnone⟩
    · have hold : w.reg.instanceOf key = some runtime := by
        rw [SessionRegistry.instanceOf, hu₀, Option.map_some, hhandle, hrt]
      have hmem₀ := (w.reg.mem_runtimes runtime).mpr ⟨key, hold⟩
      refine Or.inl ⟨hmem₀, fun hlets => ?_⟩
      rcases letsGo_eq_some w a runtime hlets with hpub | ⟨call, key', hmover, hcall, hinst'⟩
      · exact not_known_of_unpublished w h runtime (mem_of_publishes w a runtime hpub)
          (known_of_mem w h runtime hmem₀)
      · have hkey := Daemon.key_of_instance w h key' key runtime hinst' hold
        rw [(removed_step w w' a hstep call key' hmover hcall).1, hkey] at hu
        rw [SessionRegistry.removeSession, Table.get?_erase_self] at hu
        exact absurd hu (by simp)
    · refine Or.inr ⟨⟨call, key, clientKind, u.handle, hmover, hcall, hrt⟩, ?_⟩
      rw [letsGo_publish w a call key clientKind u.handle hmover hcall,
        SessionRegistry.instanceOf, hnone]
      rfl
  · rintro (⟨hmem, hkept⟩ | ⟨⟨call, key, clientKind, handle, hmover, hcall, hrt⟩, hlets⟩)
    · rcases (w.reg.mem_runtimes runtime).mp hmem with ⟨key, hinst⟩
      refine (w'.reg.mem_runtimes runtime).mpr ⟨key, ?_⟩
      refine instance_step w w' a hstep key runtime (fun call hmover hcall => hkept ?_) hinst
      rw [letsGo_remove w a call key hmover hcall, hinst]
    · rw [letsGo_publish w a call key clientKind handle hmover hcall] at hlets
      have hnone : w.reg.instanceOf key = none := by
        cases hinst : w.reg.instanceOf key with
        | none => rfl
        | some rt => exact absurd hlets (by simp [hinst])
      refine (w'.reg.mem_runtimes runtime).mpr ⟨key, ?_⟩
      rw [published_step w w' a hstep call key clientKind handle hmover hcall hnone, hrt]

/-- What the world has after a step: the new runtimes, and of those it had all
    but the one it lets go. -/
theorem has_step (w w' : World) (a : Action) (h : Fresh w) (hstep : w.step a = some w')
    (runtime : RuntimeId) :
    w'.Has runtime ↔ (w.nextRuntime ≤ runtime ∧ runtime < w'.nextRuntime) ∨
      (w.Has runtime ∧ w.letsGo a ≠ some runtime) := by
  unfold Has
  rw [runtimes_step w w' a h hstep, unpublished_step w w' a h hstep]
  constructor
  · rintro ((⟨hmem, hkept⟩ | ⟨hpub, hlets⟩) | hnew | ⟨hmem, hno⟩)
    · exact Or.inr ⟨Or.inl hmem, hkept⟩
    · exact Or.inr ⟨Or.inr (mem_of_publishes w a runtime hpub), by rw [hlets]; simp⟩
    · exact Or.inl hnew
    · refine Or.inr ⟨Or.inr hmem, fun hlets => ?_⟩
      rcases letsGo_eq_some w a runtime hlets with hpub | ⟨call, key, hmover, hcall, hinst⟩
      · exact hno hpub
      · refine not_known_of_unpublished w h runtime hmem (known_of_mem w h runtime ?_)
        exact (w.reg.mem_runtimes runtime).mpr ⟨key, hinst⟩
  · rintro (hnew | ⟨hmem | hmem, hkept⟩)
    · exact Or.inr (Or.inl hnew)
    · exact Or.inl (Or.inl ⟨hmem, hkept⟩)
    · by_cases hpub : w.Publishes a runtime
      · refine Or.inl (Or.inr ⟨hpub, ?_⟩)
        rcases hpub with ⟨call, key, clientKind, handle, hmover, hcall, hrt⟩
        rw [letsGo_publish w a call key clientKind handle hmover hcall] at hkept ⊢
        rw [hrt] at hkept
        split
        · rename_i hsome
          rw [if_pos hsome] at hkept
          exact absurd rfl hkept
        · rfl
      · exact Or.inr (Or.inr ⟨hmem, hpub⟩)

end World

/-! ### The runtimes in the hands of an evictor -/

/-- The runtimes of the victims an evictor has not tried to stop. -/
def Evictions.held {V : Type} (kind : VictimKind V) (e : Evictions V) : List RuntimeId :=
  match e.current with
  | some (v, .marking _) => kind.runtime v :: e.rest.map kind.runtime
  | some (v, .shutdown) => kind.runtime v :: e.rest.map kind.runtime
  | _ => e.rest.map kind.runtime

/-- The runtime whose session the next step of an eviction drops. -/
def Evictions.letsGo {V : Type} (kind : VictimKind V) (r : SessionRegistry) (e : Evictions V) :
    Option RuntimeId :=
  match e.current with
  | some (v, .removeSession _) => r.instanceOf (kind.key v)
  | _ => none

def EvictionPc.held : EvictionPc → List RuntimeId
  | .evicting victims => victims.held idleVictims
  | _ => []

/-- The monitor also holds what it has read and not chosen from. -/
def MonitorPc.held (settings : MemoryBudgetSettings) : MonitorPc → List RuntimeId
  | .sampling todo samples =>
    todo.map (fun snapshot => snapshot.handle.runtime) ++
      samples.map (fun sample => sample.handle.runtime)
  | .evicting victims => victims.held (memoryVictims settings)
  | _ => []

namespace Daemon

/-- The runtimes in the hands of the evictors. -/
def held (d : Daemon) : List RuntimeId := d.eviction.held ++ d.monitor.held d.settings

/-- Somebody holds the runtime: the world, or an evictor. -/
def Has (d : Daemon) (runtime : RuntimeId) : Prop := d.world.Has runtime ∨ runtime ∈ d.held

instance (d : Daemon) (runtime : RuntimeId) : Decidable (d.Has runtime) :=
  inferInstanceAs (Decidable (_ ∨ _))

/-- The runtime the world lets go of in a step of the daemon. -/
def letsGo (d : Daemon) : DaemonAction → Option RuntimeId
  | .client a => d.world.letsGo a
  | .evictionLoop _ =>
    match d.eviction with
    | .evicting victims => victims.letsGo idleVictims d.world.reg
    | _ => none
  | .memoryMonitor _ _ =>
    match d.monitor with
    | .evicting victims => victims.letsGo (memoryVictims d.settings) d.world.reg
    | _ => none
  | _ => none

/-- The runtimes of the samples that the memory monitor does not choose. -/
def unselected (d : Daemon) : DaemonAction → List RuntimeId
  | .memoryMonitor _ _ =>
    match d.monitor with
    | .sampling [] samples =>
      (samples.map (fun sample => sample.handle.runtime)).filter (fun runtime =>
        decide (runtime ∉ (selectEvictions samples d.settings).map
          (fun sample => sample.handle.runtime)))
    | _ => []
  | _ => []

/-- The runtimes that nobody holds any more after a step: one that the world
    lets go of and no evictor has, one that an evictor tries to stop and nobody
    else has, or one that the monitor does not choose and nobody else has. -/
def loses (d : Daemon) (a : DaemonAction) : List RuntimeId :=
  (d.letsGo a).toList.filter (fun runtime => decide (runtime ∉ d.held)) ++
    ((d.stops a).toList.filter (fun runtime =>
        decide (¬ d.world.Has runtime ∧ runtime ∉ d.held.erase runtime)) ++
      (d.unselected a).filter (fun runtime =>
        decide (¬ d.world.Has runtime ∧ runtime ∉ d.eviction.held)))

/-- What a step of the daemon does to what the evictors hold. -/
inductive CustodyEffect (d : Daemon) : DaemonAction → Daemon → Prop where
  /-- A client takes a step, or an evictor that has its victims. -/
  | moves (a : DaemonAction) (b : Action) (d' : Daemon) (hstep : d.world.step b = some d'.world)
      (hlets : d.world.letsGo b = d.letsGo a) (hstops : d.stops a = none ∨ d.letsGo a = none)
      (hunselected : d.unselected a = [])
      (hheld : d.held.Perm ((d.stops a).toList ++ d'.held)) : CustodyEffect d a d'
  /-- An evictor reads what is registered. -/
  | reads (a : DaemonAction) (b : Action) (d' : Daemon) (hstep : d.world.step b = some d'.world)
      (hlets : d.world.letsGo b = none) (hletsGo : d.letsGo a = none) (hstops : d.stops a = none)
      (hunselected : d.unselected a = []) (hkeeps : ∀ runtime ∈ d.held, runtime ∈ d'.held)
      (hgains : ∀ runtime ∈ d'.held, runtime ∈ d.held ∨ runtime ∈ d.world.reg.runtimes) :
      CustodyEffect d a d'
  /-- The memory monitor chooses among its samples. -/
  | selects (a : DaemonAction) (d' : Daemon) (hworld : d'.world = d.world)
      (hletsGo : d.letsGo a = none) (hstops : d.stops a = none)
      (hheld : ∀ runtime, runtime ∈ d'.held ↔ runtime ∈ d.eviction.held ∨
        (runtime ∈ d.monitor.held d.settings ∧ runtime ∉ d.unselected a))
      (hunselected : ∀ runtime ∈ d.unselected a, runtime ∈ d.monitor.held d.settings) :
      CustodyEffect d a d'

/-- A step of an eviction, when its call is its own. -/
theorem evictions_custody {V : Type} (kind : VictimKind V) (call : CallId) (w w' : World)
    (e e' : Evictions V) (events : List DaemonEvent)
    (h : e.step kind call w = some (w', e', events))
    (howned : ∀ c f, (e.view kind).frame = some (c, f) → w.calls.get? c = some f) :
    ∃ b, w.step b = some w' ∧ w.letsGo b = e.letsGo kind w.reg ∧
      (e.stops kind = none ∨ e.letsGo kind w.reg = none) ∧
      e.held kind = (e.stops kind).toList ++ e'.held kind := by
  rcases e with ⟨current, rest⟩
  -- A section of a call that removes no session lets nothing go.
  have hsect : ∀ c f, w.calls.get? c = some f → f.ofClient = false →
      (∀ key, f ≠ .remove key .session) → w.letsGo (.sect c) = none := by
    intro c f hget hclient hkeeps
    unfold World.letsGo
    rw [Action.mover, Option.bind_some, hget]
    split
    · rename_i key clientKind handle heq
      rw [Option.some.inj heq] at hclient
      exact absurd hclient (by simp [Frame.ofClient])
    · rename_i key heq
      exact absurd (Option.some.inj heq) (hkeeps key)
    · rfl
  cases current with
  | none =>
      cases rest with
      | nil => exact absurd h (by simp [Evictions.step])
      | cons v rest =>
          cases hnotice : kind.notice v with
          | none =>
              simp only [Evictions.step, hnotice, Option.some.injEq, Prod.mk.injEq] at h
              rcases h with ⟨rfl, rfl, rfl⟩
              exact ⟨.tick 0, rfl, rfl, Or.inl rfl, rfl⟩
          | some notice =>
              simp only [Evictions.step, hnotice, Option.map_eq_some_iff, Prod.mk.injEq] at h
              rcases h with ⟨w₁, hstep, rfl, rfl, rfl⟩
              exact ⟨_, hstep, rfl, Or.inl rfl, rfl⟩
  | some current =>
      rcases current with ⟨v, pc⟩
      cases pc with
      | marking c =>
          simp only [Evictions.step, Option.map_eq_some_iff, Prod.mk.injEq] at h
          rcases h with ⟨w₁, hstep, rfl, rfl, rfl⟩
          exact ⟨_, hstep, hsect c _ (howned c _ rfl) rfl (by simp), Or.inl rfl, rfl⟩
      | shutdown =>
          simp only [Evictions.step, Option.map_eq_some_iff, Prod.mk.injEq] at h
          rcases h with ⟨w₁, hstep, rfl, rfl, rfl⟩
          exact ⟨_, hstep, rfl, Or.inr rfl, rfl⟩
      | removeSession c =>
          simp only [Evictions.step, Option.map_eq_some_iff, Prod.mk.injEq] at h
          rcases h with ⟨w₁, hstep, rfl, rfl, rfl⟩
          exact ⟨_, hstep, World.letsGo_remove w _ c (kind.key v) rfl (howned c _ rfl),
            Or.inl rfl, rfl⟩
      | removeLeases c =>
          simp only [Evictions.step, Option.map_eq_some_iff, Prod.mk.injEq] at h
          rcases h with ⟨w₁, hstep, rfl, rfl, rfl⟩
          exact ⟨_, hstep, hsect c _ (howned c _ rfl) rfl (by simp), Or.inl rfl, rfl⟩
      | removed =>
          simp only [Evictions.step, Option.map_eq_some_iff, Prod.mk.injEq] at h
          rcases h with ⟨w₁, hstep, rfl, rfl, rfl⟩
          exact ⟨_, hstep, rfl, Or.inl rfl, rfl⟩
      | counting c =>
          simp only [Evictions.step, Option.map_eq_some_iff, Prod.mk.injEq] at h
          rcases h with ⟨w₁, hstep, rfl, rfl, rfl⟩
          exact ⟨_, hstep, hsect c _ (howned c _ rfl) rfl (by simp), Or.inl rfl, rfl⟩

/-- A step that leaves the world alone is one in which no time passes. -/
theorem step_of_world_eq (d d' : Daemon) (h : d'.world = d.world) :
    d.world.step (.tick 0) = some d'.world := by
  rw [h]
  rfl

theorem evictionStep_custody (d d' : Daemon) (call : CallId) (hown : Owning d)
    (h : d.evictionStep call = some d') : CustodyEffect d (.evictionLoop call) d' := by
  unfold evictionStep at h
  split at h
  · -- A round begins: it calls `idle_candidates`, and holds no session yet.
    rename_i hpc
    rw [Option.map_eq_some_iff] at h
    rcases h with ⟨w', hstep, rfl⟩
    have hstops : d.stops (.evictionLoop call) = none := by simp only [stops, hpc]
    refine .moves _ _ _ hstep ?_ (Or.inl hstops) rfl ?_
    · simp only [letsGo, hpc]
      rfl
    · rw [hstops]
      simp only [held, hpc]
      exact List.Perm.refl _
  · -- The candidates are handles cloned out of the registry, which keeps its own.
    rename_i c start hpc
    rw [Option.map_eq_some_iff] at h
    rcases h with ⟨w', hstep, rfl⟩
    have hcall := (hown.owned .idle c (.idle start none) (by rw [view, hpc]; rfl)).1
    refine .reads _ _ _ hstep ?_ (by simp only [letsGo, hpc]) (by simp only [stops, hpc]) rfl
      ?_ ?_
    · simp only [World.letsGo, Action.mover, Option.bind_some, hcall]
    · intro runtime hmem
      simp only [held, hpc, EvictionPc.held, List.nil_append] at hmem
      exact List.mem_append_right _ hmem
    · intro runtime hmem
      rcases List.mem_append.mp hmem with hmem | hmem
      · rcases List.mem_map.mp hmem with ⟨candidate, hcand, rfl⟩
        have hreg := (idleVictims_registered d.world hown.fresh start).1 _
          (List.mem_map_of_mem hcand)
        exact Or.inr ((d.world.reg.mem_runtimes _).mpr ⟨_, hreg⟩)
      · exact Or.inl (List.mem_append_right _ hmem)
  · rename_i victims hpc
    split at h
    · -- The round is over, with no handle left to let go.
      rename_i hcurrent hrest
      rw [Option.some.injEq] at h
      rw [← h]
      have hnil := evictions_eq_nil victims hcurrent hrest
      have hstops : d.stops (.evictionLoop call) = none := by
        simp only [stops, hpc, hnil]
        rfl
      rcases finishRound_parts d with ⟨hworld, hmonitor, hsettings, _, heviction⟩
      have hheld : d.finishRound.eviction.held = [] := by
        rcases heviction with heviction | heviction <;>
          rw [heviction] <;>
          rfl
      refine .moves _ _ _ (step_of_world_eq d _ hworld) ?_ (Or.inl hstops) rfl ?_
      · simp only [letsGo, hpc, hnil]
        rfl
      · rw [hstops, held, held, hmonitor, hsettings, hheld, hpc, hnil]
        exact List.Perm.refl _
    · rw [Option.map_eq_some_iff] at h
      rcases h with ⟨⟨w', victims', events⟩, hstep, rfl⟩
      rcases evictions_custody idleVictims call d.world w' victims victims' events hstep
        (fun c f hf => (hown.owned .idle c f (by rw [view, hpc]; exact hf)).1)
        with ⟨b, hb, hlets, hnone, hheld⟩
      refine .moves _ b _ hb ?_ ?_ rfl ?_
      · simp only [letsGo, hpc]
        exact hlets
      · simp only [stops, letsGo, hpc]
        exact hnone
      · simp only [stops, held, hpc, EvictionPc.held]
        rw [hheld, List.append_assoc]
  · exact absurd h (by simp)

theorem monitorStep_custody (d d' : Daemon) (call : CallId) (rssBytes : Nat) (hown : Owning d)
    (h : d.monitorStep call rssBytes = some d') :
    CustodyEffect d (.memoryMonitor call rssBytes) d' := by
  -- A step that leaves the world and what the monitor holds.
  have hquiet : ∀ monitor' : MonitorPc, d.stops (.memoryMonitor call rssBytes) = none →
      d.letsGo (.memoryMonitor call rssBytes) = none →
      d.unselected (.memoryMonitor call rssBytes) = [] →
      (d.monitor.held d.settings).Perm (monitor'.held d.settings) →
      CustodyEffect d (.memoryMonitor call rssBytes) { d with monitor := monitor' } := by
    intro monitor' hstops hlets hunselected hheld
    refine .moves _ _ _ (step_of_world_eq d _ rfl) hlets.symm (Or.inl hstops) hunselected ?_
    rw [hstops]
    exact hheld.append_left _
  unfold monitorStep at h
  split at h
  · rename_i hpc
    have hstops : d.stops (.memoryMonitor call rssBytes) = none := by simp only [stops, hpc]
    have hlets : d.letsGo (.memoryMonitor call rssBytes) = none := by simp only [letsGo, hpc]
    have hun : d.unselected (.memoryMonitor call rssBytes) = [] := by simp only [unselected, hpc]
    split at h
    · rw [Option.some.injEq] at h
      rw [← h]
      exact hquiet _ hstops hlets hun (by rw [hpc]; exact List.Perm.refl _)
    · rw [Option.some.injEq] at h
      rw [← h]
      exact hquiet d.monitor hstops hlets hun (List.Perm.refl _)
  -- The snapshots are clones out of the registry, which keeps its own.
  · rename_i start hpc
    rw [Option.some.injEq] at h
    rw [← h]
    refine .reads _ _ _ (step_of_world_eq d _ rfl) rfl (by simp only [letsGo, hpc])
      (by simp only [stops, hpc]) (by simp only [unselected, hpc]) ?_ ?_
    · intro runtime hmem
      simp only [held, hpc, MonitorPc.held, List.append_nil] at hmem
      exact List.mem_append_left _ hmem
    · intro runtime hmem
      rcases List.mem_append.mp hmem with hmem | hmem
      · exact Or.inl (List.mem_append_left _ hmem)
      · rw [MonitorPc.held, List.map_nil, List.append_nil, SessionRegistry.memorySnapshots,
          List.map_map] at hmem
        exact Or.inr hmem
  · rename_i samples hpc
    rw [Option.some.injEq] at h
    rw [← h]
    -- Whatever is not selected is let go without being stopped.
    have hold : d.monitor.held d.settings = samples.map (fun sample => sample.handle.runtime) := by
      rw [hpc]
      rfl
    have hun : d.unselected (.memoryMonitor call rssBytes)
        = (samples.map (fun sample => sample.handle.runtime)).filter (fun runtime =>
          decide (runtime ∉ (selectEvictions samples d.settings).map
            (fun sample => sample.handle.runtime))) := by
      simp only [unselected, hpc]
    refine .selects _ _ rfl (by simp only [letsGo, hpc]) (by simp only [stops, hpc]) ?_ ?_
    · intro runtime
      rw [hold, hun, held, List.mem_append, List.mem_filter, decide_eq_true_eq]
      change _ ∨ runtime ∈ (selectEvictions samples d.settings).map _ ↔ _
      constructor
      · rintro (hmem | hmem)
        · exact Or.inl hmem
        · rcases List.mem_map.mp hmem with ⟨sample, hsample, hrt⟩
          refine Or.inr ⟨List.mem_map.mpr ⟨sample, ?_, hrt⟩, fun hno => hno.2 hmem⟩
          exact mem_selectEvictions samples d.settings sample hsample
      · rintro (hmem | ⟨hmem, hno⟩)
        · exact Or.inl hmem
        · exact Or.inr (by_contra fun hnot => hno ⟨hmem, hnot⟩)
    · intro runtime hmem
      rw [hun] at hmem
      rw [hold]
      exact (List.mem_filter.mp hmem).1
  · rename_i snapshot todo samples hpc
    rw [Option.some.injEq] at h
    rw [← h]
    refine hquiet _ (by simp only [stops, hpc]) (by simp only [letsGo, hpc])
      (by simp only [unselected, hpc]) ?_
    rw [hpc]
    simp only [MonitorPc.held, List.map_append, List.map_cons, List.map_nil, List.cons_append]
    rw [← List.append_assoc]
    -- A measured session is held as a sample and no longer as a snapshot.
    exact (List.perm_append_singleton _ _).symm
  · rename_i victims hpc
    have hun : d.unselected (.memoryMonitor call rssBytes) = [] := by
      simp only [unselected, hpc]
    split at h
    · rename_i hcurrent hrest
      rw [Option.some.injEq] at h
      rw [← h]
      -- The round is over, with no handle left to let go.
      have hnil := evictions_eq_nil victims hcurrent hrest
      refine hquiet _ ?_ ?_ hun (by rw [hpc, hnil]; exact List.Perm.refl _)
      · simp only [stops, hpc, hnil]
        rfl
      · simp only [letsGo, hpc, hnil]
        rfl
    · rw [Option.map_eq_some_iff] at h
      rcases h with ⟨⟨w', victims', events⟩, hstep, rfl⟩
      rcases evictions_custody (memoryVictims d.settings) call d.world w' victims victims' events
        hstep (fun c f hf => (hown.owned .memory c f (by rw [view, hpc]; exact hf)).1)
        with ⟨b, hb, hlets, hnone, hheld⟩
      refine .moves _ b _ hb ?_ ?_ hun ?_
      · simp only [letsGo, hpc]
        exact hlets
      · simp only [stops, letsGo, hpc]
        exact hnone
      · simp only [stops, held, hpc, MonitorPc.held]
        rw [hheld, ← List.append_assoc, ← List.append_assoc]
        exact List.perm_append_comm.append_right _
  · exact absurd h (by simp)

theorem custody_effect (d d' : Daemon) (a : DaemonAction) (hown : Owning d)
    (h : d.step a = some d') : CustodyEffect d a d' := by
  cases a with
  | client b =>
      simp only [step] at h
      split at h
      · rw [Option.map_eq_some_iff] at h
        rcases h with ⟨w', hstep, rfl⟩
        exact .moves _ b _ hstep rfl (Or.inl rfl) rfl (List.Perm.refl _)
      · exact absurd h (by simp)
  | evictionLoop call => exact evictionStep_custody d d' call hown h
  | memoryMonitor call rssBytes => exact monitorStep_custody d d' call rssBytes hown h
  | stopEvictionLoop =>
      simp only [step] at h
      split at h
      · rename_i hpc
        rw [Option.some.injEq] at h
        rw [← h]
        refine .moves _ _ _ (step_of_world_eq d _ rfl) rfl (Or.inl rfl) rfl ?_
        rw [held, hpc]
        exact List.Perm.refl _
      · exact absurd h (by simp)
  | stopMemoryMonitor =>
      simp only [step] at h
      split at h
      · rename_i hpc
        rw [Option.some.injEq] at h
        rw [← h]
        refine .moves _ _ _ (step_of_world_eq d _ rfl) rfl (Or.inl rfl) rfl ?_
        rw [held, hpc]
        exact List.Perm.refl _
      · exact absurd h (by simp)

theorem mem_loses (d : Daemon) (a : DaemonAction) (runtime : RuntimeId) :
    runtime ∈ d.loses a ↔ (d.letsGo a = some runtime ∧ runtime ∉ d.held) ∨
      (d.stops a = some runtime ∧ ¬ d.world.Has runtime ∧ runtime ∉ d.held.erase runtime) ∨
      (runtime ∈ d.unselected a ∧ ¬ d.world.Has runtime ∧ runtime ∉ d.eviction.held) := by
  simp only [loses, List.mem_append, List.mem_filter, Option.mem_toList, decide_eq_true_eq]

/-- Somebody has a runtime after a step when it is new, or when somebody had it and
    the step does not lose it. -/
theorem has_step (d d' : Daemon) (a : DaemonAction) (hown : Owning d)
    (hstep : d.step a = some d') (runtime : RuntimeId) :
    d'.Has runtime ↔
      (d.world.nextRuntime ≤ runtime ∧ runtime < d'.world.nextRuntime) ∨
        (d.Has runtime ∧ runtime ∉ d.loses a) := by
  rw [mem_loses, Has, Has]
  cases custody_effect d d' a hown hstep with
  | moves b _ hb hlets hstops hunselected hheld =>
      rw [World.has_step d.world d'.world b hown.fresh hb, hlets, hunselected]
      cases hstop : d.stops a with
      | none =>
          rw [hstop, Option.toList_none, List.nil_append] at hheld
          rw [← hheld.mem_iff]
          simp only [reduceCtorEq, false_and, List.not_mem_nil, or_false]
          grind
      | some victim =>
          have hletsGo : d.letsGo a = none := by
            rcases hstops with hstops | hletsGo
            · rw [hstop] at hstops
              exact absurd hstops (by simp)
            · exact hletsGo
          -- The evictor holds its victim once less.
          rw [hstop, Option.toList_some, List.singleton_append] at hheld
          have hmem : runtime ∈ d.held ↔ runtime = victim ∨ runtime ∈ d'.held := by
            rw [hheld.mem_iff, List.mem_cons]
          have herase : victim ∈ d.held.erase victim ↔ victim ∈ d'.held := by
            have hperm := hheld.erase victim
            rw [List.erase_cons_head] at hperm
            exact hperm.mem_iff
          rw [hletsGo, hmem, Option.some.injEq]
          simp only [reduceCtorEq, false_and, List.not_mem_nil, or_false, false_or, ne_eq,
            not_false_eq_true, and_true]
          by_cases hrt : victim = runtime
          · rw [hrt] at herase
            rw [herase]
            grind
          · have hne : runtime ≠ victim := fun heq => hrt heq.symm
            grind
  | reads b _ hb hlets hletsGo hstops hunselected hkeeps hgains =>
      have hkeep := hkeeps runtime
      have hgain : runtime ∈ d'.held → runtime ∈ d.held ∨ d.world.Has runtime :=
        fun hmem => (hgains runtime hmem).imp_right Or.inl
      rw [World.has_step d.world d'.world b hown.fresh hb, hlets, hletsGo, hstops, hunselected]
      simp only [reduceCtorEq, false_and, List.not_mem_nil, or_false, ne_eq, not_false_eq_true,
        and_true]
      grind
  | selects _ hworld hletsGo hstops hheld hunselected =>
      have hno : ¬ (d.world.nextRuntime ≤ runtime ∧ runtime < d.world.nextRuntime) :=
        fun hnew => absurd hnew.2 (Nat.not_lt_of_le hnew.1)
      have hmem : runtime ∈ d.held ↔
          runtime ∈ d.eviction.held ∨ runtime ∈ d.monitor.held d.settings := List.mem_append
      have hun := hunselected runtime
      rw [hworld, hletsGo, hstops, hheld, hmem]
      simp only [reduceCtorEq, false_and, false_or]
      grind

/-- What a step loses was in somebody's hands. -/
theorem has_of_loses (d d' : Daemon) (a : DaemonAction) (hown : Owning d)
    (hstep : d.step a = some d') (runtime : RuntimeId) (h : runtime ∈ d.loses a) :
    d.Has runtime := by
  rw [mem_loses] at h
  cases custody_effect d d' a hown hstep with
  | moves b _ hb hlets hstops hunselected hheld =>
      rcases h with ⟨hletsGo, _⟩ | ⟨hstop, _⟩ | ⟨hun, _⟩
      · rw [← hlets] at hletsGo
        rcases World.letsGo_eq_some _ _ _ hletsGo with hpub | ⟨call, key, _, _, hinst⟩
        · exact Or.inl (Or.inr (World.mem_of_publishes _ _ _ hpub))
        · exact Or.inl (Or.inl ((d.world.reg.mem_runtimes _).mpr ⟨key, hinst⟩))
      · rw [hstop] at hheld
        exact Or.inr (hheld.mem_iff.mpr List.mem_cons_self)
      · rw [hunselected] at hun
        exact absurd hun (by simp)
  | reads b _ hb hlets hletsGo hstops hunselected hkeeps hgains =>
      rw [hletsGo, hstops, hunselected] at h
      exact absurd h (by simp)
  | selects _ hworld hletsGo hstops hheld hunselected =>
      rw [hletsGo, hstops] at h
      rcases h with ⟨hno, _⟩ | ⟨hno, _⟩ | ⟨hun, _⟩
      · exact absurd hno (by simp)
      · exact absurd hno (by simp)
      · exact Or.inr (List.mem_append_right _ (hunselected runtime hun))

/-- Who tries to stop a runtime holds it. -/
theorem mem_held_of_stops (d d' : Daemon) (a : DaemonAction) (hown : Owning d)
    (hstep : d.step a = some d') (runtime : RuntimeId) (h : d.stops a = some runtime) :
    runtime ∈ d.held := by
  cases custody_effect d d' a hown hstep with
  | moves b _ hb hlets hstops hunselected hheld =>
      rw [h] at hheld
      exact hheld.mem_iff.mpr List.mem_cons_self
  | reads b _ hb hlets hletsGo hstops hunselected hkeeps hgains =>
      rw [hstops] at h
      exact absurd h (by simp)
  | selects _ hworld hletsGo hstops hheld hunselected =>
      rw [hstops] at h
      exact absurd h (by simp)

/-- What has been registered stays so. -/
theorem known_step (d d' : Daemon) (a : DaemonAction) (hown : Owning d)
    (hstep : d.step a = some d') (runtime : RuntimeId) (h : d.world.Known runtime) :
    d'.world.Known runtime := by
  cases custody_effect d d' a hown hstep with
  | moves b _ hb => exact World.known_step _ _ b hb runtime h
  | reads b _ hb => exact World.known_step _ _ b hb runtime h
  | selects _ hworld =>
      rw [hworld]
      exact h

/-- Evictors hold what was registered when they read it. -/
theorem held_known_step (d d' : Daemon) (a : DaemonAction) (hown : Owning d)
    (hknown : ∀ runtime ∈ d.held, d.world.Known runtime) (hstep : d.step a = some d') :
    ∀ runtime ∈ d'.held, d'.world.Known runtime := by
  intro runtime hmem
  refine known_step d d' a hown hstep runtime ?_
  cases custody_effect d d' a hown hstep with
  | moves b _ hb hlets hstops hunselected hheld =>
      exact hknown runtime (hheld.mem_iff.mpr (List.mem_append_right _ hmem))
  | reads b _ hb hlets hletsGo hstops hunselected hkeeps hgains =>
      rcases hgains runtime hmem with hold | hreg
      · exact hknown runtime hold
      · exact World.known_of_mem d.world hown.fresh runtime hreg
  | selects _ hworld hletsGo hstops hheld hunselected =>
      rcases (hheld runtime).mp hmem with hold | ⟨hold, _⟩
      · exact hknown runtime (List.mem_append_left _ hold)
      · exact hknown runtime (List.mem_append_right _ hold)

theorem bound_of_has (d : Daemon) (hown : Owning d)
    (hknown : ∀ runtime ∈ d.held, d.world.Known runtime) (runtime : RuntimeId)
    (h : d.Has runtime) : runtime < d.world.nextRuntime := by
  rcases h with h | h
  · exact World.bound_of_has d.world hown.fresh runtime h
  · exact World.bound_of_known d.world hown.fresh runtime (hknown runtime h)

/-- A runtime is named when a spawn closure returns a handle. -/
theorem nextRuntime_step (d d' : Daemon) (a : DaemonAction) (hstep : d.step a = some d') :
    d'.world.nextRuntime = d.world.nextRuntime ∨
      ∃ call result, a = .client (.spawnReturns call (.ok result)) ∧
        d'.world.nextRuntime = d.world.nextRuntime + 1 := by
  -- An evictor calls methods and runs sections, and neither spawns.
  have hview : ∀ e v v' events, ViewStep e d.world v d'.world v' events →
      d'.world.nextRuntime = d.world.nextRuntime := by
    intro e v v' events hview
    generalize hw : d'.world = w' at hview
    cases hview with
    | still => rfl
    | start call method _ _ _ hb =>
        exact (World.nextRuntime_step d.world _ _ hb).resolve_right (by simp)
    | sect call frame _ _ hcall hb =>
        exact (World.nextRuntime_step d.world _ _ hb).resolve_right (by simp)
    | drop call victim _ _ hcall hvictim hb =>
        exact (World.nextRuntime_step d.world _ _ hb).resolve_right (by simp)
    | count call frame victim _ _ hcall hb =>
        exact (World.nextRuntime_step d.world _ _ hb).resolve_right (by simp)
  cases daemon_effect d d' a hstep with
  | client b _ hclient hb hviews hsampled hlog =>
      rcases World.nextRuntime_step d.world d'.world b hb with hsame | ⟨call, result, rfl, hnext⟩
      · exact Or.inl hsame
      · exact Or.inr ⟨call, result, rfl, hnext⟩
  | read _ _ hworld => exact Or.inl (by rw [hworld])
  | evictor _ e _ events hstep' => exact Or.inl (hview e _ _ events hstep')
  | selectIdle call c start _ heviction hb =>
      exact Or.inl ((World.nextRuntime_step d.world _ _ hb).resolve_right (by simp))
  | selectMemory call rssBytes samples _ hmonitor hworld => exact Or.inl (by rw [hworld])

/-- Every runtime has been stopped or is in somebody's hands after a step exactly
    when it was before, and the step lost only runtimes that have been
    stopped. -/
theorem heldOrStopped_step (d d' : Daemon) (a : DaemonAction) (hown : Owning d)
    (hknown : ∀ runtime ∈ d.held, d.world.Known runtime) (hstep : d.step a = some d')
    (stopped stopped' : List RuntimeId) (hkeeps : ∀ runtime ∈ stopped, runtime ∈ stopped')
    (htries : ∀ runtime ∈ stopped', runtime ∈ stopped ∨ d.stops a = some runtime) :
    (∀ runtime < d'.world.nextRuntime, runtime ∈ stopped' ∨ d'.Has runtime) ↔
      (∀ runtime < d.world.nextRuntime, runtime ∈ stopped ∨ d.Has runtime) ∧
        ∀ runtime ∈ d.loses a, runtime ∈ stopped' := by
  have hhas := has_step d d' a hown hstep
  -- A runtime that is new is in the hands of the call that spawned it.
  have hnext : d.world.nextRuntime ≤ d'.world.nextRuntime := by
    rcases nextRuntime_step d d' a hstep with hsame | ⟨_, _, _, hmore⟩
    · exact Nat.le_of_eq hsame.symm
    · rw [hmore]
      exact Nat.le_succ _
  constructor
  · intro h
    constructor
    · intro runtime hlt
      rcases h runtime (Nat.lt_of_lt_of_le hlt hnext) with hmem | hhas'
      · rcases htries runtime hmem with hmem | hstop
        · exact Or.inl hmem
        · exact Or.inr (Or.inr (mem_held_of_stops d d' a hown hstep runtime hstop))
      · rcases (hhas runtime).mp hhas' with ⟨hle, _⟩ | ⟨hold, _⟩
        · exact absurd hlt (Nat.not_lt_of_le hle)
        · exact Or.inr hold
    · intro runtime hloses
      have hlt := bound_of_has d hown hknown runtime
        (has_of_loses d d' a hown hstep runtime hloses)
      rcases h runtime (Nat.lt_of_lt_of_le hlt hnext) with hmem | hhas'
      · exact hmem
      · rcases (hhas runtime).mp hhas' with ⟨hle, _⟩ | ⟨_, hno⟩
        · exact absurd hlt (Nat.not_lt_of_le hle)
        · exact absurd hloses hno
  · rintro ⟨h, hloses⟩ runtime hlt
    by_cases hold : runtime < d.world.nextRuntime
    · rcases h runtime hold with hmem | hhad
      · exact Or.inl (hkeeps runtime hmem)
      · by_cases hlost : runtime ∈ d.loses a
        · exact Or.inl (hloses runtime hlost)
        · exact Or.inr ((hhas runtime).mpr (Or.inr ⟨hhad, hlost⟩))
    · exact Or.inr ((hhas runtime).mpr (Or.inl ⟨Nat.le_of_not_lt hold, hlt⟩))

end Daemon

end Lspee
