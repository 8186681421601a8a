import Lspee.Theory.Gates

/-!
# One Spawn at a Time

Whether the spawn gates coalesce the spawns of a key.

The gates themselves work: a started gate has one caller behind it. What they do
not do is hold a key together. A failed spawn and `remove` drop the key's entry
of `spawn_gates` while other callers still hold the gate, and the next caller
gets another one. One spawn at a time then needs `SharedGateCond`: when a caller
starts its gate, no spawn of the key is in progress behind another one.

Nor do the gates cover the whole of a spawn. A gate is cleared before the
session is published, and a caller looks for the session before it looks at the
gate. Between the two sections of either, a caller can find neither the session
nor the gate started, and spawns again, in runs without removals and failures
too. One spawn in all needs `IdleGateCond`: a caller that starts its gate finds
no session then, and no session about to be published.

Both conditions are exact (`singleflight_iff`), and both fail in short runs
(`singleflight_broken`). The sessions are shared either way: the second of two
spawned sessions is dropped, and its caller gets a lease on the first.

## Main definitions

* `OneSpawning`: One spawn of a key at a time.
* `SpawnedOnce`: One spawn in all, and one session for all callers.
* `SharedGateCond`, `IdleGateCond`: What the two need of each step.
* `Undisturbed`: No spawn of the key fails and the key is not removed.
* `Calm`: What an undisturbed run keeps.

## Theorems

* `oneSpawning_keep`, `oneSpawning_need`: What `SharedGateCond` does.
* `calm_init`, `calm_step`: An undisturbed run is calm.
* `spawnedOnce_keep`, `spawnedOnce_need`: What `IdleGateCond` does.
* `singleflight_iff`: Both conditions are exact over whole runs.
* `singleflight_broken`: Runs in which neither property holds.
-/

namespace Lspee

open Transition

namespace World

/-- No two spawn closures for the key are in progress. -/
def OneSpawning (key : SessionKey) (w : World) : Prop :=
  ∀ call call' frame frame', w.calls.get? call = some frame → w.calls.get? call' = some frame' →
    frame.spawns = some key → frame'.spawns = some key → call = call'

/-- At most one spawn closure for the key was ever called, all leases on the key
    were granted on one session, and whoever has returned got a lease. -/
structure SpawnedOnce (key : SessionKey) (w : World) : Prop where
  once : spawnCount key w.log ≤ 1
  shared : ∀ call lease runtime call' lease' runtime',
    Event.granted call lease runtime ∈ w.log → Event.granted call' lease' runtime' ∈ w.log →
      lease.key = key → lease'.key = key → runtime = runtime'
  leased : ∀ call clientKind result,
    w.calls.get? call = some (.acquire key clientKind (.returned result)) →
      ∃ lease, result = .ok lease

/-- When a caller starts its gate, no spawn of the key is in progress behind another
    gate. -/
def SharedGateCond (key : SessionKey) (w : World) (a : Action) : Prop :=
  match a.mover.bind w.calls.get? with
  | some (.acquire k _ (.enter g)) =>
    k = key → (w.reg.gateHeap g).started = false →
      ∀ call frame g', w.calls.get? call = some frame → frame.spawns = some key →
        frame.busy = some (key, g') → g' = g
  | _ => True

/-- A caller that starts its gate finds the key without a session, and without
    a session about to be published. -/
def IdleGateCond (key : SessionKey) (w : World) (a : Action) : Prop :=
  match a.mover.bind w.calls.get? with
  | some (.acquire k _ (.enter g)) =>
    k = key → (w.reg.gateHeap g).started = false →
      w.reg.sessions.get? key = none ∧
        ∀ call frame, w.calls.get? call = some frame → frame.publishing ≠ some key
  | _ => True

/-- No spawn of the key fails, and nobody removes the key. -/
def Undisturbed (key : SessionKey) (w : World) (a : Action) : Prop :=
  match a with
  | .start _ (.remove k) => k ≠ key
  | .spawnReturns call (.error _) => (w.calls.get? call).bind Frame.spawns ≠ some key
  | _ => True

instance (key : SessionKey) (w : World) (a : Action) : Decidable (Undisturbed key w a) := by
  unfold Undisturbed
  split <;> infer_instance

/-! ### One spawn at a time -/

theorem oneSpawning_init (idleTtl : Duration) (key : SessionKey) :
    OneSpawning key (init idleTtl) := by
  simp [OneSpawning, init]

/-- A call that was not spawning and begins to, or one that goes on, is the only
    one when nobody else is spawning. -/
theorem oneSpawning_set (key : SessionKey) (w w' : World) (h : OneSpawning key w) (call : CallId)
    (frame' : Frame) (hcalls : w'.calls = w.calls.set call frame')
    (hspawns : frame'.spawns = some key →
      ∀ c f, w.calls.get? c = some f → f.spawns = some key → c = call) : OneSpawning key w' := by
  intro c c' f f' hc hc' hf hf'
  rw [hcalls, Table.get?_set_eq_some] at hc hc'
  rcases hc with ⟨rfl, rfl⟩ | ⟨hne, hc⟩ <;> rcases hc' with ⟨rfl, rfl⟩ | ⟨hne', hc'⟩
  · rfl
  · exact (hspawns hf c' f' hc' hf').symm
  · exact hspawns hf' c f hc hf
  · exact h c c' f f' hc hc' hf hf'

theorem oneSpawning_keep (key : SessionKey) (w w' : World) (a : Action) (hgates : GateInv w)
    (h : OneSpawning key w) (hstep : w.step a = some w') (hcond : SharedGateCond key w a) :
    OneSpawning key w' := by
  cases gate_step w w' a hstep with
  | tick span => exact h
  | start call method hfree =>
      refine oneSpawning_set key w _ h call _ rfl (fun hs => ?_)
      exact absurd hs (by cases method <;> simp [Method.frame, Frame.spawns])
  | fail call k clientKind g error hcall =>
      exact oneSpawning_set key w _ h call _ rfl (by simp [Frame.spawns])
  | move _ call frame frame' r' events next hmover hcall heffect =>
      rw [SharedGateCond, hmover, Option.bind_some, hcall] at hcond
      refine oneSpawning_set key w _ h call frame' rfl ?_
      cases heffect with
      | keep _ _ _ _ hheap hspawn hnext hgate hbusy hwaits hspawns hpublish hpublish' hdisturbs
          hevents =>
          exact fun hs c f hc hf => h c call f frame hc hcall hf (hspawns key hs)
      | spawn k clientKind g hidle =>
          intro hs c f hc hf
          have hk : k = key := by
            rw [Frame.spawns, Option.some.injEq] at hs
            exact hs
          -- A spawn in progress is behind the gate, and the gate is idle.
          rcases Frame.busy_of_spawns f key hf with ⟨g', hg'⟩
          have hsame := hcond hk hidle c f g' hc hf hg'
          have hstarted := hgates.started c f key g' hc hg'
          rw [hsame, hidle] at hstarted
          exact absurd hstarted (by simp)
      | leave k clientKind g result pc' hpc' =>
          rcases hpc' with ⟨handle, _, rfl⟩ | ⟨error, _, rfl⟩ <;> simp [Frame.spawns]
      | drop k _ _ _ hheap hgates' hnext hgate hgate' hpublish hpublish' hdisturbs hdisturbs' =>
          intro hs
          rcases Frame.busy_of_spawns frame' key hs with ⟨g, hg⟩
          rw [Frame.gate_of_busy frame' _ hg] at hgate'
          exact absurd hgate' (by simp)
      | _ => simp [Frame.spawns]

/-- A caller that finds its gate idle starts it. -/
theorem enter_step (w w' : World) (a : Action) (call : CallId) (key : SessionKey)
    (clientKind : Option ClientKind) (g : GateId) (hmover : a.mover = some call)
    (hcall : w.calls.get? call = some (.acquire key clientKind (.enter g)))
    (hidle : (w.reg.gateHeap g).started = false) (hstep : w.step a = some w') :
    w'.calls = w.calls.set call (.acquire key clientKind (.spawning g)) ∧
      w'.log = .spawnCalled call key :: w.log := by
  rcases sect_of_mover w w' a call _ hmover hcall (by simp) (by simp) hstep
    with ⟨r', frame', events, hsec, rfl⟩
  simp only [Frame.section, AcquirePc.section, SessionRegistry.enterGate, hidle, if_false,
    Bool.false_eq_true, Option.map_some, Option.some.injEq, Prod.mk.injEq] at hsec
  rcases hsec with ⟨-, rfl, rfl⟩
  exact ⟨rfl, rfl⟩

theorem oneSpawning_need (key : SessionKey) (w w' : World) (a : Action)
    (hstep : w.step a = some w') (h' : OneSpawning key w') : SharedGateCond key w a := by
  unfold SharedGateCond
  split
  · rename_i k clientKind g hframe
    rcases Option.bind_eq_some_iff.mp hframe with ⟨call, hmover, hcall⟩
    intro hk hidle c f g' hc hf _
    rcases enter_step w w' a call k clientKind g hmover hcall hidle hstep with ⟨hcalls, _⟩
    -- The other spawn goes on, next to the one that begins.
    have hne : c ≠ call := by
      intro heq
      rw [heq, hcall, Option.some.injEq] at hc
      rw [← hc] at hf
      exact absurd hf (by simp [Frame.spawns])
    refine absurd (h' c call f (.acquire k clientKind (.spawning g)) ?_ ?_ hf ?_) hne
    · rw [hcalls, Table.get?_set_ne _ _ _ _ hne]
      exact hc
    · rw [hcalls, Table.get?_set_self]
    · rw [Frame.spawns, hk]
  · trivial

/-! ### Undisturbed runs -/

/-- A closure for the key was called, and its session is not published yet. -/
def Launched (key : SessionKey) (w : World) : Prop :=
  ∃ call frame, w.calls.get? call = some frame ∧
    ((∃ g, frame.busy = some (key, g)) ∨ frame.publishing = some key)

/-- What an undisturbed run keeps: the callers of the key share one gate, and a
    closure was called if and only if its session is registered or on the way,
    and it stays registered. -/
structure Calm (key : SessionKey) (w : World) : Prop where
  gates : GateInv w
  calm : ∀ call frame, w.calls.get? call = some frame → frame.disturbs key = false
  same : ∀ call frame g, w.calls.get? call = some frame → frame.gate = some (key, g) →
    w.reg.spawnGates.get? key = some g
  spawned : 0 < spawnCount key w.log ↔
    w.Launched key ∨ ∃ record, w.reg.sessions.get? key = some record
  granted : ∀ call lease runtime, Event.granted call lease runtime ∈ w.log → lease.key = key →
    ∃ record, w.reg.sessions.get? key = some record ∧ record.handle.runtime = runtime

theorem calm_init (idleTtl : Duration) (key : SessionKey) : Calm key (init idleTtl) where
  gates := gateInv_init idleTtl
  calm := by simp [init]
  same := by simp [init]
  spawned := by simp [Launched, spawnCount, init, SessionRegistry.withIdleTtl]
  granted := by simp [init]

theorem spawnCount_append (key : SessionKey) (events log : List Event)
    (h : ∀ event ∈ events, event.spawnsKey key = false) :
    spawnCount key (events ++ log) = spawnCount key log := by
  rw [spawnCount, List.countP_append, List.countP_eq_zero.mpr (by simpa using h), Nat.zero_add,
    spawnCount]

/-- In an undisturbed run nobody comes to disturb the key. -/
theorem calm_calls_step (key : SessionKey) (w w' : World) (a : Action) (h : Calm key w)
    (hstep : w.step a = some w') (hquiet : Undisturbed key w a) :
    ∀ call frame, w'.calls.get? call = some frame → frame.disturbs key = false := by
  -- The frame that is written is calm when the frame it replaces is.
  have hset : ∀ call frame', frame'.disturbs key = false →
      ∀ c f, (w.calls.set call frame').get? c = some f → f.disturbs key = false := by
    intro call frame' hcalm c f hc
    rcases (Table.get?_set_eq_some _ _ _ _ _).mp hc with ⟨_, rfl⟩ | ⟨_, hold⟩
    · exact hcalm
    · exact h.calm c f hold
  cases gate_step w w' a hstep with
  | tick span => exact h.calm
  | start call method hfree =>
      refine hset call _ ?_
      cases method with
      | remove k => exact decide_eq_false hquiet
      | _ => rfl
  | fail call k clientKind g error hcall =>
      refine hset call _ (decide_eq_false (fun hk => hquiet ?_))
      rw [hcall, Option.bind_some, Frame.spawns, hk]
  | move _ call frame frame' r' events next hmover hcall heffect =>
      have hframe := h.calm call frame hcall
      refine hset call frame' (Bool.eq_false_iff.mpr (fun hdist => ?_))
      cases heffect with
      | keep _ _ _ _ hheap hspawn hnext hgate hbusy hwaits hspawns hpublish hpublish' hdisturbs
          hevents =>
          rw [hdisturbs key hdist] at hframe
          exact absurd hframe (by simp)
      | leave k clientKind g result pc' hpc' =>
          rcases hpc' with ⟨handle, rfl, rfl⟩ | ⟨error, rfl, rfl⟩
          · exact absurd hdist (by simp [Frame.disturbs])
          · simp only [Frame.disturbs, decide_eq_true_eq, decide_eq_false_iff_not] at hdist hframe
            exact hframe hdist
      | drop k _ _ _ hheap hgates hnext hgate hgate' hpublish hpublish' hdisturbs hdisturbs' =>
          rw [hdisturbs' key hdist] at hframe
          exact absurd hframe (by simp)
      | _ => exact absurd hdist (by simp [Frame.disturbs])

/-- In an undisturbed run the callers of the key hold the gate registered for
    it. -/
theorem calm_same_step (key : SessionKey) (w w' : World) (a : Action) (h : Calm key w)
    (hstep : w.step a = some w') :
    ∀ call frame g, w'.calls.get? call = some frame → frame.gate = some (key, g) →
      w'.reg.spawnGates.get? key = some g := by
  -- One call moves, and the entry of the key stays: then the others hold it still.
  have hset : ∀ (call : CallId) (frame' : Frame) (gates : Table SessionKey GateId),
      (∀ g, w.reg.spawnGates.get? key = some g → gates.get? key = some g) →
      (∀ g, frame'.gate = some (key, g) → gates.get? key = some g) →
      ∀ c f g, (w.calls.set call frame').get? c = some f → f.gate = some (key, g) →
        gates.get? key = some g := by
    intro call frame' gates hgates hframe c f g hc hf
    rcases (Table.get?_set_eq_some _ _ _ _ _).mp hc with ⟨_, rfl⟩ | ⟨_, hold⟩
    · exact hframe g hf
    · exact hgates g (h.same c f g hold hf)
  cases gate_step w w' a hstep with
  | tick span => exact h.same
  | start call method hfree =>
      exact hset call _ _ (fun g hg => hg) (by cases method <;> simp [Method.frame, Frame.gate])
  | fail call k clientKind g error hcall =>
      exact hset call _ _ (fun g hg => hg) (fun g' hg' => h.same call _ g' hcall hg')
  | move _ call frame frame' r' events next hmover hcall heffect =>
      refine hset call frame' r'.spawnGates ?_ ?_
      · cases heffect with
        | keep _ _ _ _ hheap hgates hnext hgate hbusy hwaits hspawns hpublish hpublish' hdisturbs
            hevents =>
            rw [hgates]
            exact fun g hg => hg
        | gate k clientKind =>
            intro g hg
            unfold SessionRegistry.gateEntry
            split
            · exact hg
            · rename_i hnone
              -- A gate is made for a key that has none.
              have hne : key ≠ k := fun heq => by
                rw [heq, hnone] at hg
                exact absurd hg (by simp)
              exact (Table.get?_set_ne _ _ _ _ hne).trans hg
        | publish k clientKind handle _ lease _ hheap hgates hnext hsession hevents =>
            rw [hgates]
            exact fun g hg => hg
        | drop k _ _ _ hheap hgates hnext hgate hgate' hpublish hpublish' hdisturbs hdisturbs' =>
            -- Who drops the entry of the key disturbs it, and the run has none.
            intro g hg
            have hne : key ≠ k := fun heq => by
              rw [← heq, h.calm call frame hcall] at hdisturbs
              exact absurd hdisturbs (by simp)
            rw [hgates, Table.get?_erase_ne _ _ _ hne]
            exact hg
        | _ => exact fun g hg => hg
      · cases heffect with
        | keep _ _ _ _ hheap hgates hnext hgate hbusy hwaits hspawns hpublish hpublish' hdisturbs
            hevents =>
            intro g hg
            rw [hgates]
            exact h.same call frame g hcall (hgate (key, g) hg)
        | gate k clientKind =>
            intro g hg
            rw [Frame.gate, Option.some.injEq, Prod.mk.injEq] at hg
            rw [← hg.1, ← hg.2]
            unfold SessionRegistry.gateEntry
            split
            · rename_i hsome
              exact hsome
            · exact Table.get?_set_self _ _ _
        | spawn k clientKind g hidle => exact fun g' hg' => h.same call _ g' hcall hg'
        | wait k clientKind g hstarted => exact fun g' hg' => h.same call _ g' hcall hg'
        | leave k clientKind g result pc' hpc' =>
            rcases hpc' with ⟨handle, _, rfl⟩ | ⟨error, _, rfl⟩ <;> simp [Frame.gate]
        | publish k clientKind handle _ lease _ hheap hgates hnext hsession hevents =>
            simp [Frame.gate]
        | drop k _ _ _ hheap hgates hnext hgate hgate' hpublish hpublish' hdisturbs hdisturbs' =>
            rw [hgate']
            simp

/-- In an undisturbed run a session of the key stays registered. -/
theorem calm_registered_step (key : SessionKey) (w w' : World) (a : Action) (h : Calm key w)
    (hstep : w.step a = some w') (u : SessionRecord)
    (hget : w.reg.sessions.get? key = some u) :
    ∃ u', w'.reg.sessions.get? key = some u' ∧ u'.handle = u.handle := by
  rcases registered_step w w' a hstep key u hget with ⟨u', hu'⟩ | ⟨call, _, hcall⟩
  · rcases handle_step w w' a hstep key u' hu' with ⟨u₀, hu₀, hhandle⟩ | ⟨_, _, _, _, hnone⟩
    · rw [hget, Option.some.injEq] at hu₀
      exact ⟨u', hu', by rw [hu₀, hhandle]⟩
    · rw [hget] at hnone
      exact absurd hnone (by simp)
  · have := h.calm call _ hcall
    simp [Frame.disturbs] at this

theorem calm_granted_step (key : SessionKey) (w w' : World) (a : Action) (h : Calm key w)
    (hstep : w.step a = some w') (call : CallId) (lease : Lease) (runtime : RuntimeId)
    (hmem : Event.granted call lease runtime ∈ w'.log) (hkey : lease.key = key) :
    ∃ record, w'.reg.sessions.get? key = some record ∧ record.handle.runtime = runtime := by
  rcases granted_step w w' a hstep call lease runtime hmem with hold | ⟨u, hu, hrt⟩
  · rcases h.granted call lease runtime hold hkey with ⟨record, hrecord, hrt⟩
    rcases calm_registered_step key w w' a h hstep record hrecord with ⟨u', hu', hhandle⟩
    exact ⟨u', hu', by rw [hhandle, hrt]⟩
  · rw [hkey] at hu
    exact ⟨u, hu, hrt⟩

/-- A session found after a step was there before, or its caller had launched
    it. -/
theorem present_of_step (key : SessionKey) (w w' : World) (a : Action)
    (hstep : w.step a = some w') (u : SessionRecord)
    (hget : w'.reg.sessions.get? key = some u) :
    w.Launched key ∨ ∃ record, w.reg.sessions.get? key = some record := by
  rcases handle_step w w' a hstep key u hget with ⟨u₀, hu₀, _⟩ | ⟨call, clientKind, _, hcall, _⟩
  · exact Or.inr ⟨u₀, hu₀⟩
  · exact Or.inl ⟨call, _, hcall, Or.inr rfl⟩

/-- A call that is rewritten without calling its closure launches nothing. -/
theorem launched_of_set (key : SessionKey) (w w' : World) (call : CallId) (frame frame' : Frame)
    (hcall : w.calls.get? call = some frame) (hcalls : w'.calls = w.calls.set call frame')
    (hbusy : ∀ g, frame'.busy = some (key, g) → frame.busy = some (key, g))
    (hpublish : frame'.publishing = some key → ∃ g, frame.busy = some (key, g))
    (h : w'.Launched key) : w.Launched key := by
  rcases h with ⟨c, f, hc, hf⟩
  rw [hcalls, Table.get?_set_eq_some] at hc
  rcases hc with ⟨rfl, rfl⟩ | ⟨_, hc⟩
  · refine ⟨c, frame, hcall, Or.inl ?_⟩
    rcases hf with ⟨g, hg⟩ | hf
    · exact ⟨g, hbusy g hg⟩
    · exact hpublish hf
  · exact ⟨c, f, hc, hf⟩

/-- A launched call stays launched while others move, and when it moves as long
    as it is launched itself. -/
theorem launched_set (key : SessionKey) (w w' : World) (call : CallId) (frame frame' : Frame)
    (hcall : w.calls.get? call = some frame) (hcalls : w'.calls = w.calls.set call frame')
    (hbusy : ∀ g, frame.busy = some (key, g) →
      (∃ g, frame'.busy = some (key, g)) ∨ frame'.publishing = some key)
    (hpublish : frame.publishing ≠ some key) (h : w.Launched key) : w'.Launched key := by
  rcases h with ⟨c, f, hc, hf⟩
  by_cases hcc : c = call
  · rw [hcc, hcall, Option.some.injEq] at hc
    rw [← hc] at hf
    refine ⟨call, frame', by rw [hcalls, Table.get?_set_self], ?_⟩
    rcases hf with ⟨g, hg⟩ | hf
    · exact hbusy g hg
    · exact absurd hf hpublish
  · exact ⟨c, f, by rw [hcalls, Table.get?_set_ne _ _ _ _ hcc]; exact hc, hf⟩

/-- A step that calls no closure for the key leaves a spawned key spawned, and
    an unspawned one unspawned. -/
theorem spawned_iff (key : SessionKey) (w w' : World) (a : Action) (h : Calm key w)
    (hstep : w.step a = some w') (hcount : spawnCount key w'.log = spawnCount key w.log)
    (hback : w'.Launched key → w.Launched key)
    (hkeep : w.Launched key →
      w'.Launched key ∨ ∃ record, w'.reg.sessions.get? key = some record) :
    0 < spawnCount key w'.log ↔
      w'.Launched key ∨ ∃ record, w'.reg.sessions.get? key = some record := by
  rw [hcount, h.spawned]
  constructor
  · rintro (hlaunched | ⟨record, hrecord⟩)
    · exact hkeep hlaunched
    · rcases calm_registered_step key w w' a h hstep record hrecord with ⟨u', hu', _⟩
      exact Or.inr ⟨u', hu'⟩
  · rintro (hlaunched | ⟨record, hrecord⟩)
    · exact Or.inl (hback hlaunched)
    · exact present_of_step key w w' a hstep record hrecord

theorem calm_spawned_step (key : SessionKey) (w w' : World) (a : Action) (h : Calm key w)
    (hstep : w.step a = some w') :
    0 < spawnCount key w'.log ↔
      w'.Launched key ∨ ∃ record, w'.reg.sessions.get? key = some record := by
  cases gate_step w w' a hstep with
  | tick span => exact h.spawned
  | start call method hfree =>
      -- A call that has only begun is neither spawning nor publishing.
      have hbusy : (method.frame w.now).busy = none := by cases method <;> rfl
      have hpublish : (method.frame w.now).publishing = none := by cases method <;> rfl
      refine spawned_iff key w _ _ h hstep rfl ?_ ?_
      · rintro ⟨c, f, hc, hf⟩
        rcases (Table.get?_set_eq_some _ _ _ _ _).mp hc with ⟨_, rfl⟩ | ⟨_, hc⟩
        · rw [hbusy, hpublish] at hf
          simp at hf
        · exact ⟨c, f, hc, hf⟩
      · rintro ⟨c, f, hc, hf⟩
        have hne : c ≠ call := by
          intro heq
          rw [heq, hfree] at hc
          exact absurd hc (by simp)
        exact Or.inl ⟨c, f, (Table.get?_set_ne _ _ _ _ hne).trans hc, hf⟩
  -- The closure has failed, but its caller still holds the gate.
  | fail call k clientKind g error hcall =>
      refine spawned_iff key w _ _ h hstep (spawnCount_append key [_] w.log
        (by simp [Event.spawnsKey])) ?_ ?_
      · exact launched_of_set key w _ call _ _ hcall rfl (fun g hg => hg)
          (by simp [Frame.publishing])
      · exact fun hl => Or.inl (launched_set key w _ call _ _ hcall rfl
          (fun g hg => Or.inl ⟨g, hg⟩) (by simp [Frame.publishing]) hl)
  | move _ call frame frame' r' events next hmover hcall heffect =>
      have hcalm := h.calm call frame hcall
      cases heffect with
      | keep _ _ _ _ hheap hgates hnext hgate hbusy hwaits hspawns hpublish hpublish' hdisturbs
          hevents =>
          refine spawned_iff key w _ _ h hstep (spawnCount_append key events w.log (hevents key))
            ?_ ?_
          · refine launched_of_set key w _ call frame frame' hcall rfl (fun g hg => ?_) ?_
            · rw [← hbusy]
              exact hg
            · rw [hpublish']
              simp
          · refine fun hl => Or.inl (launched_set key w _ call frame frame' hcall rfl
              (fun g hg => Or.inl ⟨g, ?_⟩) ?_ hl)
            · rw [hbusy]
              exact hg
            · rw [hpublish]
              simp
      | gate k clientKind =>
          refine spawned_iff key w _ _ h hstep rfl ?_ ?_
          · exact launched_of_set key w _ call _ _ hcall rfl (by simp [Frame.busy])
              (by simp [Frame.publishing])
          · exact fun hl => Or.inl (launched_set key w _ call _ _ hcall rfl (by simp [Frame.busy])
              (by simp [Frame.publishing]) hl)
      | spawn k clientKind g hidle =>
          by_cases hk : k = key
          · -- The closure is called now: it is counted, and it is on the way.
            refine iff_of_true ?_ (Or.inl ⟨call, _, Table.get?_set_self _ _ _, Or.inl ⟨g, ?_⟩⟩)
            · change 0 < (Event.spawnCalled call k :: w.log).countP (Event.spawnsKey key)
              rw [List.countP_cons_of_pos (by simp [Event.spawnsKey, hk])]
              exact Nat.succ_pos _
            · rw [Frame.busy, hk]
          · refine spawned_iff key w _ _ h hstep (spawnCount_append key [_] w.log
              (by simp [Event.spawnsKey, hk])) ?_ ?_
            · refine launched_of_set key w _ call _ _ hcall rfl (fun g' hg' => ?_)
                (by simp [Frame.publishing])
              rw [Frame.busy, Option.some.injEq, Prod.mk.injEq] at hg'
              exact absurd hg'.1 hk
            · exact fun hl => Or.inl (launched_set key w _ call _ _ hcall rfl
                (by simp [Frame.busy]) (by simp [Frame.publishing]) hl)
      | wait k clientKind g hstarted =>
          refine spawned_iff key w _ _ h hstep rfl ?_ ?_
          · exact launched_of_set key w _ call _ _ hcall rfl (by simp [Frame.busy])
              (by simp [Frame.publishing])
          · exact fun hl => Or.inl (launched_set key w _ call _ _ hcall rfl (by simp [Frame.busy])
              (by simp [Frame.publishing]) hl)
      | leave k clientKind g result pc' hpc' =>
          refine spawned_iff key w _ _ h hstep rfl ?_ ?_
          · refine launched_of_set key w _ call _ _ hcall rfl (fun g' hg' => ?_) (fun hp => ?_)
            · rcases hpc' with ⟨handle, _, rfl⟩ | ⟨error, _, rfl⟩ <;> simp [Frame.busy] at hg'
            · rcases hpc' with ⟨handle, _, rfl⟩ | ⟨error, _, rfl⟩
              · exact ⟨g, by rw [Frame.busy, Option.some.inj hp]⟩
              · exact absurd hp (by simp [Frame.publishing])
          · refine fun hl => Or.inl (launched_set key w _ call _ _ hcall rfl (fun g' hg' => ?_)
              (by simp [Frame.publishing]) hl)
            rw [Frame.busy, Option.some.injEq, Prod.mk.injEq] at hg'
            rcases hpc' with ⟨handle, rfl, rfl⟩ | ⟨error, rfl, rfl⟩
            · exact Or.inr (by rw [Frame.publishing, hg'.1])
            · -- A failed spawn of the key would disturb it.
              exact absurd hcalm (by simp [Frame.disturbs, hg'.1])
      -- What was on the way is now registered.
      | publish k clientKind handle _ lease _ hheap hgates hnext hsession hevents =>
          refine spawned_iff key w _ _ h hstep (spawnCount_append key events w.log (hevents key))
            ?_ ?_
          · exact launched_of_set key w _ call _ _ hcall rfl (by simp [Frame.busy])
              (by simp [Frame.publishing])
          · intro hl
            by_cases hk : k = key
            · rw [hk] at hsession
              exact Or.inr hsession
            · exact Or.inl (launched_set key w _ call _ _ hcall rfl (by simp [Frame.busy])
                (by simpa [Frame.publishing] using hk) hl)
      | drop k _ _ _ hheap hgates hnext hgate hgate' hpublish hpublish' hdisturbs hdisturbs' =>
          -- Who drops a gate holds none, so it is not the one on the way.
          have hnone : ∀ f : Frame, f.gate = none → ∀ g, f.busy ≠ some (key, g) := by
            intro f hf g hg
            rw [Frame.gate_of_busy f _ hg] at hf
            exact absurd hf (by simp)
          refine spawned_iff key w _ _ h hstep rfl ?_ ?_
          · refine launched_of_set key w _ call frame frame' hcall rfl
              (fun g hg => absurd hg (hnone frame' hgate' g)) ?_
            rw [hpublish']
            simp
          · refine fun hl => Or.inl (launched_set key w _ call frame frame' hcall rfl
              (fun g hg => absurd hg (hnone frame hgate g)) ?_ hl)
            rw [hpublish]
            simp

theorem calm_step (key : SessionKey) (w w' : World) (a : Action) (h : Calm key w)
    (hstep : w.step a = some w') (hquiet : Undisturbed key w a) : Calm key w' where
  gates := gateInv_step w w' a h.gates hstep
  calm := calm_calls_step key w w' a h hstep hquiet
  same := calm_same_step key w w' a h hstep
  spawned := calm_spawned_step key w w' a h hstep
  granted := calm_granted_step key w w' a h hstep

/-! ### One spawn in all -/

theorem spawnedOnce_init (idleTtl : Duration) (key : SessionKey) :
    SpawnedOnce key (init idleTtl) where
  once := by simp [spawnCount, init]
  shared := by simp [init]
  leased := by simp [init]

/-- Apart from the number of closures called, an undisturbed run shares one
    session whatever its callers find. -/
theorem spawnedOnce_of_calm (key : SessionKey) (w : World) (h : Calm key w)
    (honce : spawnCount key w.log ≤ 1) : SpawnedOnce key w where
  once := honce
  shared := by
    intro call lease runtime call' lease' runtime' hmem hmem' hkey hkey'
    rcases h.granted call lease runtime hmem hkey with ⟨record, hrecord, hrt⟩
    rcases h.granted call' lease' runtime' hmem' hkey' with ⟨record', hrecord', hrt'⟩
    rw [hrecord, Option.some.injEq] at hrecord'
    rw [← hrt, ← hrt', hrecord']
  leased := by
    intro call clientKind result hcall
    cases result with
    | ok lease => exact ⟨lease, rfl⟩
    | error error => exact absurd (h.calm call _ hcall) (by simp [Frame.disturbs])

/-- A step that calls no closure for the key leaves the number of closures
    called. -/
theorem spawnCount_step (key : SessionKey) (w w' : World) (a : Action)
    (hstep : w.step a = some w') :
    spawnCount key w'.log = spawnCount key w.log ∨
      ∃ call clientKind g, a.mover = some call ∧
        w.calls.get? call = some (.acquire key clientKind (.enter g)) ∧
        (w.reg.gateHeap g).started = false ∧
        spawnCount key w'.log = spawnCount key w.log + 1 := by
  cases gate_step w w' a hstep with
  | tick span => exact Or.inl rfl
  | start call method hfree => exact Or.inl rfl
  | fail call k clientKind g error hcall =>
      exact Or.inl (spawnCount_append key [_] w.log (by simp [Event.spawnsKey]))
  | move _ call frame frame' r' events next hmover hcall heffect =>
      cases heffect with
      | keep _ _ _ _ hheap hgates hnext hgate hbusy hwaits hspawns hpublish hpublish' hdisturbs
          hevents => exact Or.inl (spawnCount_append key events w.log (hevents key))
      | spawn k clientKind g hidle =>
          by_cases hk : k = key
          · subst hk
            refine Or.inr ⟨call, clientKind, g, hmover, hcall, hidle, ?_⟩
            exact List.countP_cons_of_pos (by simp [Event.spawnsKey])
          · exact Or.inl (spawnCount_append key [_] w.log (by simp [Event.spawnsKey, hk]))
      | publish k clientKind handle _ lease _ hheap hgates hnext hsession hevents =>
          exact Or.inl (spawnCount_append key events w.log (hevents key))
      | _ => exact Or.inl rfl

/-- A caller that finds its gate idle, no session and none about to be published
    is the first: nobody is behind the gate, and all callers share it. -/
theorem unspawned_of_idle (key : SessionKey) (w : World) (h : Calm key w) (call : CallId)
    (clientKind : Option ClientKind) (g : GateId)
    (hcall : w.calls.get? call = some (.acquire key clientKind (.enter g)))
    (hidle : (w.reg.gateHeap g).started = false) (hnone : w.reg.sessions.get? key = none)
    (hpublish : ∀ c frame, w.calls.get? c = some frame → frame.publishing ≠ some key) :
    spawnCount key w.log = 0 := by
  refine Nat.eq_zero_of_not_pos (fun hpos => ?_)
  rcases h.spawned.mp hpos with ⟨c, f, hc, ⟨g', hg'⟩ | hf⟩ | ⟨record, hrecord⟩
  · have hentry := h.same call _ g hcall rfl
    have hentry' := h.same c f g' hc (Frame.gate_of_busy f _ hg')
    rw [hentry, Option.some.injEq] at hentry'
    have hstarted := h.gates.started c f key g' hc hg'
    rw [← hentry', hidle] at hstarted
    exact absurd hstarted (by simp)
  · exact hpublish c f hc hf
  · rw [hnone] at hrecord
    exact absurd hrecord (by simp)

theorem spawnedOnce_keep (key : SessionKey) (w w' : World) (a : Action) (h : Calm key w)
    (honce : SpawnedOnce key w) (hstep : w.step a = some w') (hquiet : Undisturbed key w a)
    (hcond : IdleGateCond key w a) : SpawnedOnce key w' := by
  refine spawnedOnce_of_calm key w' (calm_step key w w' a h hstep hquiet) ?_
  rcases spawnCount_step key w w' a hstep with
    hcount | ⟨call, clientKind, g, hmover, hcall, hidle, hcount⟩
  · rw [hcount]
    exact honce.once
  · rw [IdleGateCond, hmover, Option.bind_some, hcall] at hcond
    rcases hcond rfl hidle with ⟨hnone, hpublish⟩
    rw [hcount, unspawned_of_idle key w h call clientKind g hcall hidle hnone hpublish]

theorem spawnedOnce_need (key : SessionKey) (w w' : World) (a : Action) (h : Calm key w)
    (hstep : w.step a = some w') (h' : SpawnedOnce key w') : IdleGateCond key w a := by
  unfold IdleGateCond
  split
  · rename_i k clientKind g hframe
    rcases Option.bind_eq_some_iff.mp hframe with ⟨call, hmover, hcall⟩
    intro hk hidle
    rw [hk] at hcall
    rcases enter_step w w' a call key clientKind g hmover hcall hidle hstep with ⟨_, hlog⟩
    have honce := h'.once
    rw [hlog, spawnCount, List.countP_cons_of_pos (by simp [Event.spawnsKey])] at honce
    have hzero : ¬ 0 < spawnCount key w.log := Nat.not_lt.mpr (Nat.le_of_succ_le_succ honce)
    rw [h.spawned, not_or, not_exists] at hzero
    refine ⟨Option.eq_none_iff_forall_ne_some.mpr hzero.2, fun c f hc hf => ?_⟩
    exact hzero.1 ⟨c, f, hc, Or.inr hf⟩
  · trivial

/-- In every run, one spawn of the key is in progress at a time if and only if no
    caller starts its gate while one is in progress behind another gate. And in
    every run in which no spawn of the key fails and nobody removes it, one closure
    is called in all, for the one session every caller gets a lease on, if and only
    if a caller that starts its gate finds no session and none about to be
    published. -/
theorem singleflight_iff (idleTtl : Duration) (key : SessionKey) (as : List Action) :
    (Always step (OneSpawning key) (init idleTtl) as ↔
      Along step (SharedGateCond key) (init idleTtl) as) ∧
    (Along step (Undisturbed key) (init idleTtl) as →
      (Always step (SpawnedOnce key) (init idleTtl) as ↔
        Along step (IdleGateCond key) (init idleTtl) as)) := by
  constructor
  · exact always_iff_along (I := GateInv)
      (fun w a w' hI hP hstep _ hC =>
        ⟨gateInv_step w w' a hI hstep, oneSpawning_keep key w w' a hI hP hstep hC⟩)
      (fun w a w' _ _ hstep _ hP' => oneSpawning_need key w w' a hstep hP') as _
      (gateInv_init idleTtl) (oneSpawning_init idleTtl key) (along_true as _)
  · exact fun hquiet => always_iff_along (I := Calm key)
      (fun w a w' hI hP hstep hD hC =>
        ⟨calm_step key w w' a hI hstep hD, spawnedOnce_keep key w w' a hI hP hstep hD hC⟩)
      (fun w a w' hI _ hstep _ hP' => spawnedOnce_need key w w' a hI hstep hP') as _
      (calm_init idleTtl key) (spawnedOnce_init idleTtl key) hquiet

/-- Two callers, the second while the first has not published its session. -/
def lookBeforePublish : List Action :=
  acquireUntilSpawn 0 ++ [.spawnReturns 0 (.ok .null), .sect 0] ++ acquireUntilSpawn 1

theorem singleflight_lookBeforePublish :
    Always step (SpawnedOnce demoKey) (init 5) lookBeforePublish ↔
      Along step (IdleGateCond demoKey) (init 5) lookBeforePublish :=
  (singleflight_iff 5 demoKey lookBeforePublish).2 (by decide)

/-- A removal during a spawn, and another caller. -/
def removeDuringSpawn : List Action :=
  acquireUntilSpawn 0 ++ removeAll 1 ++ acquireUntilSpawn 2

theorem lookBeforePublish_isSome : (run step (init 5) lookBeforePublish).isSome = true := by
  decide

theorem removeDuringSpawn_isSome : (run step (init 5) removeDuringSpawn).isSome = true := by
  decide

/-- Neither holds of every run: a removal during a spawn lets another spawn
    begin, and without any removal a caller spawns again between the end of a
    spawn and the publication of its session. -/
theorem singleflight_broken :
    (¬ ∀ (idleTtl : Duration) (key : SessionKey) (as : List Action) (w : World),
      run step (init idleTtl) as = some w → OneSpawning key w) ∧
    ¬ ∀ (idleTtl : Duration) (key : SessionKey) (as : List Action) (w : World),
      run step (init idleTtl) as = some w → Along step (Undisturbed key) (init idleTtl) as →
        SpawnedOnce key w := by
  constructor
  · intro hall
    have hone := hall 5 demoKey removeDuringSpawn ((run step (init 5) removeDuringSpawn).get
      removeDuringSpawn_isSome) (Option.some_get _).symm
    exact absurd (hone 0 2 (.acquire demoKey none (.spawning 0))
      (.acquire demoKey none (.spawning 1)) rfl rfl rfl rfl) (by decide)
  · intro hall
    have honce := (hall 5 demoKey lookBeforePublish ((run step (init 5) lookBeforePublish).get
      lookBeforePublish_isSome) (Option.some_get _).symm (by decide)).once
    exact absurd honce (by decide)

end World

end Lspee
