import Lspee.Theory.Following

/-!
# Keys Do Not Interfere

Whether the calls that are made on other keys can be seen in what happens to a
key. The run without them is a run of the same registry (`project`, with
`World.onKey` for what is kept): the clock, the calls on the key with all that
happens to them, and the calls that are on no key. A release or a forwarded
message is on the key that its lease id is granted on. In the run that is left
the leases of the key get other ids, the first ones of the counter, and a call
that names a lease has to name it by its new id.

`Independent` says that this run exists and ends alike for the key: its record,
its leases, its gate, and how far each call has come or with what result. It
holds of every run that grants fewer leases than the counter has values
(`independent_keys`). Then the counter goes around, and a lease that is granted
on one key takes the id of a lease on another, and its place (`keys_interfere`).

The two runs are followed side by side. `Shadow` relates their states, a step of
another key leaves the second state where it is (`shadow_drop`), and every other
step is made on both sides (`shadow_keep`).

## Main definitions

* `Frame.elsewhere`: The call is about another key.
* `World.onKey`: What is left of a step.
* `SameSpawn`: The runtimes that one call has spawned in the two runs.
* `World.SameOn`: Two runs end alike for a key.
* `World.Independent`: The run without the other keys ends alike.
* `Shadow`: The states of the two runs.

## Theorems

* `shadow_init`, `shadow_drop`, `shadow_keep`: The two runs, step by step.
* `next_id`: The next lease on the key has the next id.
* `independent_keys`: Every run, until the counter goes around.
* `keys_interfere`: What happens then.
-/

namespace Lspee

open Transition

/-- The call is about another key. A release or a message is about the key that
    its lease id is granted on, if it ever is. -/
def Frame.elsewhere (key : SessionKey) (log : List Event) : Frame → Bool
  | .acquire k _ _ => decide (k ≠ key)
  | .attached lease _ => decide (lease.key ≠ key)
  | .release id _ => otherKey key log id
  | .remove k _ => decide (k ≠ key)
  | .forward _ id _ _ => otherKey key log id
  | .touch k _ => decide (k ≠ key)
  | .mark k _ _ => decide (k ≠ key)
  | _ => false

/-- The call with its lease id renamed. -/
def Method.rename (σ : String → String) : Method → Method
  | .releaseByLeaseId id => .releaseByLeaseId (σ id)
  | .forwardByLeaseId kind id message => .forwardByLeaseId kind (σ id) message
  | method => method

/-- What is left of a step when the calls of the other keys are deleted. Which
    key a lease id is granted on is looked up in `log`. -/
def World.onKey (key : SessionKey) (log : List Event) (σ : String → String) (w : World) :
    Action → Option Action
  | .tick span => some (.tick span)
  | .start call method =>
    if (method.frame w.now).elsewhere key log then none else some (.start call (method.rename σ))
  | a =>
    match a.mover.bind w.calls.get? with
    | some frame => if frame.elsewhere key log then none else some a
    | none => some a

/-- The runtimes that one call has spawned in two runs. -/
def SameSpawn (log log' : List Event) (runtime runtime' : RuntimeId) : Prop :=
  ∃ call handle handle', .spawnOk call handle ∈ log ∧ .spawnOk call handle' ∈ log' ∧
    handle.runtime = runtime ∧ handle'.runtime = runtime'

theorem sameSpawn_append (log log' events events' : List Event) (runtime runtime' : RuntimeId)
    (h : SameSpawn log log' runtime runtime') :
    SameSpawn (events ++ log) (events' ++ log') runtime runtime' := by
  rcases h with ⟨call, handle, handle', hmem, hmem', hrt, hrt'⟩
  exact ⟨call, handle, handle', List.mem_append_right _ hmem, List.mem_append_right _ hmem', hrt,
    hrt'⟩

namespace World

/-- Two runs end alike for a key: its record, its leases up to their ids, its
    gate, and the results of every call that is not about another key. -/
structure SameOn (key : SessionKey) (σ : String → String) (w w' : World) : Prop where
  record : Option.Rel (SessionRecord.Like (SameSpawn w.log w'.log)) (w.reg.sessions.get? key)
    (w'.reg.sessions.get? key)
  leases : ∀ id' lease, (w'.reg.leases.get? id' = some lease ∧ lease.key = key) ↔
    ∃ id, σ id = id' ∧ w.reg.leases.get? id = some lease ∧ lease.key = key
  gate : (w'.reg.spawnGates.get? key).map w'.reg.gateHeap
    = (w.reg.spawnGates.get? key).map w.reg.gateHeap
  results : ∀ call frame, w.calls.get? call = some frame →
    frame.elsewhere key w.log = false → ∃ frame', w'.calls.get? call = some frame' ∧
      frame.Like key (otherKey key w.log) σ (SameSpawn w.log w'.log) (fun _ _ => True) frame'

/-- The run without the calls of the other keys is a run, and it ends alike for
    the key. -/
def Independent (key : SessionKey) (idleTtl : Duration) (as : List Action) (w : World) : Prop :=
  ∃ σ : String → String, Set.InjOn σ {id | otherKey key w.log id = false} ∧
    ∃ w', run step (init idleTtl) (project step (onKey key w.log σ) (init idleTtl) as) = some w' ∧
      w.SameOn key σ w'

end World

/-! ### The two worlds -/

/-- A call of the one world beside what the other knows of it. -/
inductive CallsLike (key : SessionKey) (F : String → Bool) (σ : String → String)
    (P : RuntimeId → RuntimeId → Prop) (G : GateId → GateId → Prop) (next : GateId) :
    Option Frame → Option Frame → Prop where
  | free : CallsLike key F σ P G next none none
  | left (frame : Frame) (h : frame.Elsewhere key F G next) :
      CallsLike key F σ P G next (some frame) none
  | kept (frame frame' : Frame) (h : frame.Like key F σ P G frame') :
      CallsLike key F σ P G next (some frame) (some frame')

/-- The second world is what the first is without the calls of the other keys.
    `log` is the log that the first run will end with. -/
structure Shadow (key : SessionKey) (log : List Event) (G : GateId → GateId → Prop)
    (w w' : World) : Prop where
  alike : AlikeOn key (otherKey key log) (renamed key log) (SameSpawn w.log w'.log) G w.reg w'.reg
  calls : ∀ call, CallsLike key (otherKey key log) (renamed key log) (SameSpawn w.log w'.log) G
    w.reg.nextGate (w.calls.get? call) (w'.calls.get? call)
  now : w'.now = w.now
  seq : w'.reg.leaseSeq = (1 + (idsOn key w.log).length) % 2 ^ 64

section Shadows

variable {key : SessionKey} {F : String → Bool} {σ : String → String}
  {P P' : RuntimeId → RuntimeId → Prop} {G G' : GateId → GateId → Prop} {next next' : GateId}

theorem callsLike_mono (hP : ∀ a b, P a b → P' a b) (hG : ∀ a b, G a b → G' a b)
    (hstray : ∀ g, Stray G next g → Stray G' next' g) (x y : Option Frame)
    (h : CallsLike key F σ P G next x y) : CallsLike key F σ P' G' next' x y := by
  cases h with
  | free => exact .free
  | left frame h => exact .left frame (Frame.elsewhere_mono hstray frame h)
  | kept frame frame' h => exact .kept frame frame' (Frame.like_mono hP hG frame frame' h)

/-- What the deletion goes by tells the two kinds of calls apart. -/
theorem elsewhere_of_elsewhere (log : List Event) (frame : Frame)
    (h : frame.Elsewhere key (otherKey key log) G next) : frame.elsewhere key log = true := by
  cases frame with
  | acquire k clientKind pc => exact decide_eq_true h.1
  | attached lease handle => exact decide_eq_true h
  | release id pc => exact h.1
  | remove k pc => exact decide_eq_true h
  | forward kind id message pc => exact h.1
  | touch k returned => exact decide_eq_true h
  | mark k notice returned => exact decide_eq_true h
  | idle start result | increment evictor returned | crash returned => exact absurd h id

theorem elsewhere_of_like (log : List Event) (frame frame' : Frame)
    (h : frame.Like key (otherKey key log) σ P G frame') : frame.elsewhere key log = false := by
  cases h with
  | release id pc hid hpc => exact hid
  | forward kind id message pc pc' hid hpc => exact hid
  | idle | candidates | increment | crash => rfl
  | _ => exact decide_eq_false (not_not_intro rfl)

/-- A call that is deleted begins elsewhere, and one that is kept begins alike. -/
theorem elsewhere_frame (log : List Event) (now : Instant) (method : Method)
    (h : (method.frame now).elsewhere key log = true) :
    (method.frame now).Elsewhere key (otherKey key log) G next := by
  cases method with
  | acquireOrSpawn k clientKind => exact ⟨of_decide_eq_true h, trivial⟩
  | releaseByLeaseId id => exact ⟨h, trivial⟩
  | remove k => exact (of_decide_eq_true h : k ≠ key)
  | forwardByLeaseId kind id message => exact ⟨h, trivial⟩
  | touch k => exact (of_decide_eq_true h : k ≠ key)
  | markTerminatingWithNotice k notice => exact (of_decide_eq_true h : k ≠ key)
  | idleCandidates | increment evictor | incrementSessionCrash =>
      exact absurd h (by simp [Method.frame, Frame.elsewhere])

theorem like_frame (log : List Event) (now : Instant) (method : Method)
    (h : ¬(method.frame now).elsewhere key log = true) :
    (method.frame now).Like key (otherKey key log) σ P G ((method.rename σ).frame now) := by
  rw [Bool.not_eq_true] at h
  cases method with
  | acquireOrSpawn k clientKind =>
      obtain rfl : k = key := not_not.mp (of_decide_eq_false h)
      exact .acquire clientKind _ _ .count
  | releaseByLeaseId id => exact .release id .take h (by simp)
  | remove k =>
      obtain rfl : k = key := not_not.mp (of_decide_eq_false h)
      exact .remove .session
  | forwardByLeaseId kind id message => exact .forward kind id message _ _ h .lease
  | touch k =>
      obtain rfl : k = key := not_not.mp (of_decide_eq_false h)
      exact .touch false
  | markTerminatingWithNotice k notice =>
      obtain rfl : k = key := not_not.mp (of_decide_eq_false h)
      exact .mark notice false
  | idleCandidates => exact .idle now
  | increment evictor => exact .increment evictor false
  | incrementSessionCrash => exact .crash false

end Shadows

/-! ### One step -/

section Steps

variable {key : SessionKey} {log : List Event} {G : GateId → GateId → Prop} {w w' : World}

/-- Nothing has happened yet. -/
theorem shadow_init (idleTtl : Duration) :
    Shadow key log (fun _ _ => False) (World.init idleTtl) (World.init idleTtl) where
  alike := by
    refine ⟨⟨?_, fun _ _ => rfl⟩, ⟨?_, ?_, ?_⟩, ⟨⟨?_, ?_⟩, ?_, ?_, ?_⟩, rfl⟩
    · exact .none
    · exact fun id lease h => absurd h (by simp [World.init, SessionRegistry.withIdleTtl])
    · exact fun id lease h => absurd h (by simp [World.init, SessionRegistry.withIdleTtl])
    · exact fun id lease h => absurd h (by simp [World.init, SessionRegistry.withIdleTtl])
    · exact fun _ _ h => h.elim
    · exact fun _ _ _ _ h => h.elim
    · exact fun _ _ h => h.elim
    · exact .none
    · exact fun k g _ h => absurd h (by simp [World.init, SessionRegistry.withIdleTtl])
  calls := fun call => .free
  now := rfl
  seq := rfl

/-- A call of the key has moved on both sides. -/
theorem shadow_kept (h : Shadow key log G w w') (G₂ : GateId → GateId → Prop) (call : CallId)
    (r₂ r₂' : SessionRegistry) (frame₂ frame₂' : Frame) (events events' : List Event)
    (hlike : frame₂.Like key (otherKey key log) (renamed key log)
      (SameSpawn (events ++ w.log) (events' ++ w'.log)) G₂ frame₂')
    (hfollows : Follows key (otherKey key log) (renamed key log) (SameSpawn w.log w'.log) G G₂
      w.reg r₂ w'.reg r₂' events) :
    Shadow key log G₂ (w.moved call r₂ frame₂ events) (w'.moved call r₂' frame₂' events') where
  alike := alike_mono (fun a b => sameSpawn_append _ _ events events' a b) hfollows.alike
  calls := by
    intro c
    change CallsLike key _ _ _ G₂ r₂.nextGate ((w.calls.set call frame₂).get? c)
      ((w'.calls.set call frame₂').get? c)
    rw [Table.get?_set, Table.get?_set]
    split
    · exact .kept frame₂ frame₂' hlike
    · exact callsLike_mono (fun a b => sameSpawn_append _ _ events events' a b) hfollows.grows
        hfollows.strays _ _ (h.calls c)
  now := h.now
  seq := by
    change r₂'.leaseSeq = (1 + (idsOn key (events ++ w.log)).length) % 2 ^ 64
    rw [hfollows.seq _ h.seq, idsOn_append, List.length_append,
      Nat.add_comm (idsOn key w.log).length]

/-- A call of another key has moved. -/
theorem shadow_left (h : Shadow key log G w w') (call : CallId) (r₂ : SessionRegistry)
    (frame₂ : Frame) (events : List Event) (hfree : w'.calls.get? call = none)
    (hother : frame₂.Elsewhere key (otherKey key log) G r₂.nextGate)
    (hpasses : Bypasses key (otherKey key log) (renamed key log) (SameSpawn w.log w'.log) G w.reg
      r₂ w'.reg events) :
    Shadow key log G (w.moved call r₂ frame₂ events) w' where
  alike := alike_mono (fun a b => sameSpawn_append _ _ events [] a b) hpasses.alike
  calls := by
    intro c
    change CallsLike key _ _ _ G r₂.nextGate ((w.calls.set call frame₂).get? c) (w'.calls.get? c)
    rw [Table.get?_set]
    split
    · rename_i heq
      rw [heq, hfree]
      exact .left frame₂ hother
    · exact callsLike_mono (fun a b => sameSpawn_append _ _ events [] a b) (fun _ _ hg => hg)
        hpasses.strays _ _ (h.calls c)
  now := h.now
  seq := by
    change w'.reg.leaseSeq = (1 + (idsOn key (events ++ w.log)).length) % 2 ^ 64
    rw [idsOn_append, hpasses.ids, List.nil_append]
    exact h.seq

/-- A call that is not deleted is on both sides. -/
theorem shadow_frame (h : Shadow key log G w w') (call : CallId) (frame : Frame)
    (hcall : w.calls.get? call = some frame) :
    (frame.elsewhere key log = true ∧ w'.calls.get? call = none ∧
        frame.Elsewhere key (otherKey key log) G w.reg.nextGate) ∨
      (frame.elsewhere key log = false ∧ ∃ frame', w'.calls.get? call = some frame' ∧
        frame.Like key (otherKey key log) (renamed key log) (SameSpawn w.log w'.log) G
          frame') := by
  have hboth := h.calls call
  rw [hcall] at hboth
  generalize hcall' : w'.calls.get? call = y at hboth
  cases hboth with
  | left _ hother => exact Or.inl ⟨elsewhere_of_elsewhere log frame hother, rfl, hother⟩
  | kept _ frame' hlike =>
      exact Or.inr ⟨elsewhere_of_like log frame frame' hlike, frame', rfl, hlike⟩

/-- A step of a call of another key is not seen. -/
theorem shadow_drop (h : Shadow key log G w w') (a : Action) (w₂ : World)
    (hstep : w.step a = some w₂) (later : List Event) (hlog : log = later ++ w₂.log)
    (hnodup : (grantedIds log).Nodup) (hdrop : w.onKey key log (renamed key log) a = none) :
    Shadow key log G w₂ w' := by
  -- The call that moves is one that is deleted.
  have hmoved : ∀ call frame, a.mover = some call → w.calls.get? call = some frame →
      w'.calls.get? call = none ∧ frame.Elsewhere key (otherKey key log) G w.reg.nextGate := by
    intro call frame hmover hcall
    rcases shadow_frame h call frame hcall with ⟨-, hfree, hother⟩ | ⟨hhere, -⟩
    · exact ⟨hfree, hother⟩
    · cases a with
      | tick span | start c method => exact absurd hmover (by simp [Action.mover])
      | sect c | spawnReturns c result | runtimeReturns c result =>
          simp only [World.onKey, hmover, Option.bind_some, hcall, hhere, Bool.false_eq_true,
            if_false, reduceCtorEq] at hdrop
  cases a with
  | tick span => exact absurd hdrop (by simp [World.onKey])
  | start call method =>
      simp only [World.step] at hstep
      split at hstep
      · exact absurd hstep (by simp)
      · rename_i hfree
        rw [Option.some.injEq] at hstep
        rw [← hstep]
        have hfree' : w'.calls.get? call = none := by
          have hboth := h.calls call
          rw [hfree] at hboth
          generalize w'.calls.get? call = y at hboth ⊢
          cases hboth
          rfl
        -- A method that is dropped is one of another key.
        simp only [World.onKey, ite_eq_left_iff, reduceCtorEq, imp_false, not_not] at hdrop
        exact shadow_left h call w.reg _ [] hfree' (elsewhere_frame log w.now method hdrop)
          (bypasses_of_alike [] h.alike rfl rfl)
  | sect call =>
      simp only [World.step] at hstep
      split at hstep
      · exact absurd hstep (by simp)
      · rename_i frame hcall
        simp only [Option.map_eq_some_iff, Prod.exists] at hstep
        rcases hstep with ⟨r₂, frame₂, events, hsec, rfl⟩
        rcases hmoved call frame rfl hcall with ⟨hfree, hother⟩
        -- A lease granted here is on another key, and the whole log says so.
        have hnew : ∀ lease runtime, .granted call lease runtime ∈ events → lease.key ≠ key →
            otherKey key log lease.id = true := by
          intro lease runtime hmem hne
          have hmem' : Event.granted call lease runtime ∈ log := by
            rw [hlog]
            exact List.mem_append_right _ (List.mem_append_left _ hmem)
          rw [otherKey_of_mem key log hnodup call lease runtime hmem']
          exact decide_eq_true hne
        rcases frame_passes h.alike call w.now frame frame₂ events hother hsec hnew with
          ⟨hother₂, hpasses⟩
        exact shadow_left h call r₂ frame₂ events hfree hother₂ hpasses
  | spawnReturns call result =>
      simp only [World.step] at hstep
      split at hstep
      · rename_i k clientKind g hcall
        rw [Option.some.injEq] at hstep
        rw [← hstep]
        rcases hmoved call _ rfl hcall with ⟨hfree, hother⟩
        cases result with
        | ok initializeResult =>
            have hleft := shadow_left h call w.reg
              (.acquire k clientKind (.leave g (.ok ⟨k, w.nextRuntime, initializeResult⟩)))
              [.spawnOk call ⟨k, w.nextRuntime, initializeResult⟩] hfree hother
              (bypasses_of_alike _ h.alike rfl rfl)
            exact ⟨hleft.alike, hleft.calls, hleft.now, hleft.seq⟩
        | error error =>
            exact shadow_left h call w.reg _ _ hfree hother (bypasses_of_alike _ h.alike rfl rfl)
      · exact absurd hstep (by simp)
  | runtimeReturns call result =>
      simp only [World.step] at hstep
      split at hstep
      · rename_i kind id message k runtime hcall
        rw [Option.some.injEq] at hstep
        rw [← hstep]
        rcases hmoved call _ rfl hcall with ⟨hfree, hother⟩
        cases result with
        | ok response =>
            exact shadow_left h call w.reg _ [] hfree hother (bypasses_of_alike [] h.alike rfl rfl)
        | error error =>
            exact shadow_left h call w.reg _ [] hfree ⟨hother.1, trivial⟩
              (bypasses_of_alike [] h.alike rfl rfl)
      · exact absurd hstep (by simp)

/-- The next lease on the key has the next id on both sides. -/
theorem next_id (h : Shadow key log G w w') (events : List Event) (later : List Event)
    (hlog : log = later ++ (events ++ w.log)) (hnodup : (grantedIds log).Nodup)
    (hfew : (grantedIds log).length < 2 ^ 64) (call : CallId) (id : String) (runtime : RuntimeId)
    (rest : List Event) (hevents : events = .granted call ⟨id, key⟩ runtime :: rest)
    (hrest : idsOn key rest = []) :
    otherKey key log id = false ∧ renamed key log id = leaseId w'.reg.leaseSeq := by
  have hsplit : log = later ++ .granted call ⟨id, key⟩ runtime :: (rest ++ w.log) := by
    rw [hlog, hevents, List.cons_append]
  have hmem : Event.granted call ⟨id, key⟩ runtime ∈ log := by
    rw [hsplit]
    exact List.mem_append_right _ List.mem_cons_self
  have hother := otherKey_of_mem key log hnodup call ⟨id, key⟩ runtime hmem
  have hcount : (idsOn key (rest ++ w.log)).length = (idsOn key w.log).length := by
    rw [idsOn_append, hrest, List.nil_append]
  have hless : (idsOn key w.log).length + 1 ≤ (grantedIds log).length := by
    have hle := (idsOn_sublist key log).length_le
    rw [hsplit, idsOn_append, idsOn_here, List.length_append, List.length_cons, hcount] at hle
    rw [hsplit]
    omega
  rw [hsplit] at hnodup
  have hnext := renamed_next key (rest ++ w.log) later call id runtime hnodup
  rw [← hsplit, hcount] at hnext
  rw [hother, hnext, h.seq, Nat.mod_eq_of_lt (by omega)]
  exact ⟨decide_eq_false (not_not_intro rfl), rfl⟩

/-- A step that is kept is made on both sides. -/
theorem shadow_keep (h : Shadow key log G w w')
    (hkeys : ∀ k record, w.reg.sessions.get? k = some record → record.handle.key = k)
    (a b : Action) (w₂ : World) (hstep : w.step a = some w₂) (later : List Event)
    (hlog : log = later ++ w₂.log) (hnodup : (grantedIds log).Nodup)
    (hfew : (grantedIds log).length < 2 ^ 64)
    (hσ : Set.InjOn (renamed key log) {id | otherKey key log id = false})
    (hkeep : w.onKey key log (renamed key log) a = some b) :
    ∃ w₂', w'.step b = some w₂' ∧ ∃ G₂, Shadow key log G₂ w₂ w₂' := by
  -- The call that moves is on both sides, and moves by the same action.
  have hmoved : ∀ call frame, a.mover = some call → w.calls.get? call = some frame →
      b = a ∧ ∃ frame', w'.calls.get? call = some frame' ∧
        frame.Like key (otherKey key log) (renamed key log) (SameSpawn w.log w'.log) G
          frame' := by
    intro call frame hmover hcall
    rcases shadow_frame h call frame hcall with ⟨hthere, -, -⟩ | ⟨hhere, hlike⟩
    · cases a with
      | tick span | start c method => exact absurd hmover (by simp [Action.mover])
      | sect c | spawnReturns c result | runtimeReturns c result =>
          simp only [World.onKey, hmover, Option.bind_some, hcall, hthere, if_true,
            reduceCtorEq] at hkeep
    · cases a with
      | tick span | start c method => exact absurd hmover (by simp [Action.mover])
      | sect c | spawnReturns c result | runtimeReturns c result =>
          simp only [World.onKey, hmover, Option.bind_some, hcall, hhere, Bool.false_eq_true,
            if_false, Option.some.injEq] at hkeep
          exact ⟨hkeep.symm, hlike⟩
  cases a with
  | tick span =>
      simp only [World.onKey, Option.some.injEq] at hkeep
      simp only [World.step, Option.some.injEq] at hstep
      rw [← hkeep, ← hstep]
      exact ⟨_, rfl, G, h.alike, h.calls, congrArg (· + span) h.now, h.seq⟩
  | start call method =>
      simp only [World.onKey, Option.ite_none_left_eq_some, Option.some.injEq] at hkeep
      simp only [World.step] at hstep
      split at hstep
      · exact absurd hstep (by simp)
      · rename_i hfree
        rw [Option.some.injEq] at hstep
        -- A name that is free here is free there, where fewer calls are made.
        have hfree' : w'.calls.get? call = none := by
          have hboth := h.calls call
          rw [hfree] at hboth
          generalize w'.calls.get? call = y at hboth ⊢
          cases hboth
          rfl
        have hlike : (method.frame w.now).Like key (otherKey key log) (renamed key log)
            (SameSpawn w.log w'.log) G ((method.rename (renamed key log)).frame w'.now) := by
          rw [h.now]
          exact like_frame log w.now method hkeep.1
        rw [← hkeep.2, ← hstep]
        simp only [World.step, hfree']
        exact ⟨_, rfl, G, shadow_kept h G call w.reg w'.reg _ _ [] [] hlike
          (follows_of_alike [] h.alike rfl rfl rfl)⟩
  | sect call =>
      simp only [World.step] at hstep
      split at hstep
      · exact absurd hstep (by simp)
      · rename_i frame hcall
        simp only [Option.map_eq_some_iff, Prod.exists] at hstep
        rcases hstep with ⟨r₂, frame₂, events, hsec, rfl⟩
        rcases hmoved call frame rfl hcall with ⟨rfl, frame', hcall', hlike⟩
        -- One section of a call on the key has its like on the other side.
        rcases frame_follows h.alike hσ hkeys call w.now frame frame' frame₂ events hlike hsec
          (next_id h events later hlog hnodup hfew call) with
          ⟨G₂, r₂', frame₂', events', hsec', hlike₂, hfollows⟩
        rw [← h.now] at hsec'
        refine ⟨w'.moved call r₂' frame₂' events', ?_, G₂,
          shadow_kept h G₂ call r₂ r₂' frame₂ frame₂' events events' ?_ hfollows⟩
        · simp only [World.step, hcall', hsec', Option.map_some]
        · exact Frame.like_mono (fun a b => sameSpawn_append _ _ events events' a b)
            (fun _ _ hg => hg) frame₂ frame₂' hlike₂
  | spawnReturns call result =>
      simp only [World.step] at hstep
      split at hstep
      · rename_i k clientKind g hcall
        rw [Option.some.injEq] at hstep
        rw [← hstep]
        rcases hmoved call _ rfl hcall with ⟨rfl, frame', hcall', hlike⟩
        -- The other side is at the same await, for a runtime of its own.
        cases hlike with
        | acquire _ _ pc' hpc =>
            cases hpc with
            | spawning _ g' hg =>
                simp only [World.step, hcall']
                cases result with
                | ok initializeResult =>
                    -- The two runtimes are those that this call has spawned.
                    have hspawn : SameSpawn
                        (.spawnOk call ⟨key, w.nextRuntime, initializeResult⟩ :: w.log)
                        (.spawnOk call ⟨key, w'.nextRuntime, initializeResult⟩ :: w'.log)
                        w.nextRuntime w'.nextRuntime :=
                      ⟨call, _, _, List.mem_cons_self, List.mem_cons_self, rfl, rfl⟩
                    have hkept := shadow_kept h G call w.reg w'.reg _ _
                      [.spawnOk call ⟨key, w.nextRuntime, initializeResult⟩]
                      [.spawnOk call ⟨key, w'.nextRuntime, initializeResult⟩]
                      (.acquire clientKind _ _ (.leaveOk g g' ⟨key, w.nextRuntime, initializeResult⟩
                        ⟨key, w'.nextRuntime, initializeResult⟩ hg ⟨rfl, hspawn, rfl⟩ rfl))
                      (follows_of_alike _ h.alike rfl rfl rfl)
                    exact ⟨_, rfl, G, hkept.alike, hkept.calls, hkept.now, hkept.seq⟩
                | error error =>
                    exact ⟨_, rfl, G, shadow_kept h G call w.reg w'.reg _ _ _ _
                      (.acquire clientKind _ _ (.leaveError g g' error hg))
                      (follows_of_alike _ h.alike rfl rfl rfl)⟩
      · exact absurd hstep (by simp)
  | runtimeReturns call result =>
      simp only [World.step] at hstep
      split at hstep
      · rename_i kind id message k runtime hcall
        rw [Option.some.injEq] at hstep
        rw [← hstep]
        rcases hmoved call _ rfl hcall with ⟨rfl, frame', hcall', hlike⟩
        cases hlike with
        | forward _ _ _ _ pc' hid hpc =>
            cases hpc with
            | awaiting _ runtime' hruntime =>
                simp only [World.step, hcall']
                cases result with
                | ok response =>
                    exact ⟨_, rfl, G, shadow_kept h G call w.reg w'.reg _ _ [] []
                      (.forward kind id message _ _ hid (.touch response))
                      (follows_of_alike [] h.alike rfl rfl rfl)⟩
                | error error =>
                    exact ⟨_, rfl, G, shadow_kept h G call w.reg w'.reg _ _ [] []
                      (.forward kind id message _ _ hid (.returned _))
                      (follows_of_alike [] h.alike rfl rfl rfl)⟩
      · exact absurd hstep (by simp)

end Steps

/-! ### Whole runs -/

namespace World

theorem log_run (v w : World) (as : List Action) (h : run step v as = some w) :
    ∃ later, w.log = later ++ v.log := by
  refine run_invariant (I := fun u => ∃ later, u.log = later ++ v.log) (C := fun _ _ => True) ?_ as
    v w h ⟨[], rfl⟩ (along_true as v)
  rintro u a u' ⟨later, hlater⟩ hstep -
  rcases log_step u u' a hstep with ⟨events, hevents⟩
  exact ⟨events ++ later, by rw [hevents, hlater, List.append_assoc]⟩

/-- Worlds that agree at the end are the same for the key. -/
theorem sameOn_of_shadow (key : SessionKey) (G : GateId → GateId → Prop) (w w' : World)
    (h : Shadow key w.log G w w') : w.SameOn key (renamed key w.log) w' where
  record := h.alike.sessions.here
  leases := by
    intro id' lease
    constructor
    · rintro ⟨hget, -⟩
      exact h.alike.leases.only id' lease hget
    · rintro ⟨id, rfl, hget, hkey⟩
      exact ⟨h.alike.leases.here id lease hget hkey, hkey⟩
  gate := by
    rcases rel_cases h.alike.gates.here with ⟨hnone, hnone'⟩ | ⟨g, g', hg, hg', hpair⟩
    · rw [hnone, hnone']
      rfl
    · rw [hg, hg', Option.map_some, Option.map_some, h.alike.gates.heap g g' hpair]
  results := by
    intro call frame hcall hhere
    rcases shadow_frame h call frame hcall with ⟨hthere, -, -⟩ | ⟨-, frame', hcall', hlike⟩
    · rw [hhere] at hthere
      exact absurd hthere (by simp)
    · exact ⟨frame', hcall', Frame.like_mono (fun _ _ hP => hP) (fun _ _ _ => trivial) _ _ hlike⟩

/-- In every run that grants fewer leases than there are ids, the calls of other
    keys make no difference to a key. -/
theorem independent_keys (key : SessionKey) (idleTtl : Duration) (as : List Action) (w : World)
    (h : run step (init idleTtl) as = some w) (hfew : grantCount w.log < 2 ^ 64) :
    Independent key idleTtl as w := by
  have hnamed := namedInOrder_run idleTtl as w h
  have hnodup : (grantedIds w.log).Nodup := by
    rw [hnamed]
    exact firstIds_nodup _ (Nat.le_of_lt hfew)
  have hlength : (grantedIds w.log).length < 2 ^ 64 := by
    rw [hnamed, firstIds, List.length_map, List.length_reverse, List.length_range]
    exact hfew
  have hσ := renamed_injOn key w hnamed hfew
  have hall : ∃ w', run step (init idleTtl)
      (project step (onKey key w.log (renamed key w.log)) (init idleTtl) as) = some w' ∧
        (Fresh w ∧ ∃ G, Shadow key w.log G w w') := by
    refine run_project (f := onKey key w.log (renamed key w.log))
      (R := fun v v' => Fresh v ∧ ∃ G, Shadow key w.log G v v') w ?_ ?_ as (init idleTtl)
      (init idleTtl) h ⟨fresh_init idleTtl, _, shadow_init idleTtl⟩
    · rintro v a v₂ bs v' ⟨hfresh, G, hshadow⟩ hstep hrest hdrop
      rcases log_run v₂ w bs hrest with ⟨later, hlater⟩
      exact ⟨fresh_step v v₂ a hfresh hstep, G,
        shadow_drop hshadow a v₂ hstep later hlater hnodup hdrop⟩
    · rintro v a v₂ bs v' b ⟨hfresh, G, hshadow⟩ hstep hrest hkeep
      rcases log_run v₂ w bs hrest with ⟨later, hlater⟩
      rcases shadow_keep hshadow hfresh.handleKey a b v₂ hstep later hlater hnodup hlength hσ
        hkeep with ⟨v₂', hstep', hshadow'⟩
      exact ⟨v₂', hstep', fresh_step v v₂ a hfresh hstep, hshadow'⟩
  rcases hall with ⟨w', hrun', -, G, hshadow⟩
  exact ⟨renamed key w.log, hσ, w', hrun', sameOn_of_shadow key G w w' hshadow⟩

/-- An attach that finds no session, and whose spawn succeeds. -/
def attachNew (key : SessionKey) (call : CallId) : List Action :=
  [.start call (.acquireOrSpawn key none), .sect call, .sect call, .sect call, .sect call,
    .spawnReturns call (.ok .null), .sect call, .sect call]

/-- An attach that finds a session. -/
def attachAgain (key : SessionKey) (call : CallId) : List Action :=
  [.start call (.acquireOrSpawn key none), .sect call, .sect call, .sect call]

/-- Attaches of one session, one after the other. -/
def attachMany (key : SessionKey) : Nat → List Action
  | 0 => []
  | n + 1 => attachMany key n ++ attachAgain key (n + 2)

/-- Another key to run with. -/
def otherDemoKey : SessionKey := { demoKey with lspId := "gopls" }

/-- Two keys have a session each. -/
def twoSessions : List Action := attachNew demoKey 0 ++ attachNew otherDemoKey 1

theorem twoSessions_isSome : (run step (init 5) twoSessions).isSome = true := by decide

theorem independent_keys_twoSessions :
    Independent demoKey 5 twoSessions ((run step (init 5) twoSessions).get twoSessions_isSome) :=
  independent_keys demoKey 5 twoSessions _ (Option.some_get twoSessions_isSome).symm (by decide)

/-- An attach that finds a session takes the next id, and is not seen by another
    key. -/
theorem attachAgain_run (key other : SessionKey) (log : List Event) (σ : String → String)
    (w : World) (call : CallId) (record : SessionRecord) (hne : key ≠ other)
    (hfree : w.calls.get? call = none) (hrecord : w.reg.sessions.get? key = some record) :
    ∃ w', run step w (attachAgain key call) = some w' ∧
      project step (onKey other log σ) w (attachAgain key call) = [] ∧
      (∃ record', w'.reg.sessions.get? key = some record') ∧
      w'.reg.leases = w.reg.leases.set (leaseId w.reg.leaseSeq) ⟨key, none⟩ ∧
      w'.reg.leaseSeq = (w.reg.leaseSeq + 1) % 2 ^ 64 ∧
      ∀ c, c ≠ call → w'.calls.get? c = w.calls.get? c := by
  have hothers : ∀ frame₁ frame₂ frame₃ frame₄ : Frame, ∀ c, c ≠ call →
      ((((w.calls.set call frame₁).set call frame₂).set call frame₃).set call frame₄).get? c
        = w.calls.get? c := by
    intro frame₁ frame₂ frame₃ frame₄ c hc
    simp only [Table.get?_set_ne _ _ _ _ hc]
  cases hgate : w.reg.spawnGates.get? key with
  | none =>
      simp [attachAgain, run, project, onKey, step, hfree, Method.frame, Frame.elsewhere, hne,
        Action.mover, Frame.section, AcquirePc.section, moved, SessionRegistry.countAttach,
        SessionRegistry.gateEntry, hgate, hrecord, SessionRegistry.reuseSession,
        SessionRegistry.grantLease]
      exact hothers _ _ _ _
  | some g =>
      simp [attachAgain, run, project, onKey, step, hfree, Method.frame, Frame.elsewhere, hne,
        Action.mover, Frame.section, AcquirePc.section, moved, SessionRegistry.countAttach,
        SessionRegistry.gateEntry, hgate, hrecord, SessionRegistry.reuseSession,
        SessionRegistry.grantLease]
      exact hothers _ _ _ _

/-- What a run of attaches on the other key keeps. -/
structure Overwriting (n : Nat) (w : World) : Prop where
  session : ∃ record, w.reg.sessions.get? otherDemoKey = some record
  seq : w.reg.leaseSeq = (3 + n) % 2 ^ 64
  free : ∀ c : Nat, n + 2 ≤ c → w.calls.get? c = none
  only : ∀ id lease, w.reg.leases.get? id = some lease → lease.key = demoKey → id = leaseId 1

theorem otherDemoKey_ne : otherDemoKey ≠ demoKey := by decide

theorem overwriting_start :
    Overwriting 0 ((run step (init 5) twoSessions).get twoSessions_isSome) where
  session := Option.isSome_iff_exists.mp (by decide)
  seq := by decide
  free := by
    intro c hc
    have hall : ∀ e ∈ ((run step (init 5) twoSessions).get twoSessions_isSome).calls.entries,
        e.1 < 2 := by decide
    rw [← Option.not_isSome_iff_eq_none, Option.isSome_iff_exists]
    rintro ⟨frame, hget⟩
    have hlt : c < 2 := hall _ ((Table.mem_entries_iff _ c frame).mpr hget)
    omega
  only := by
    intro id lease hget
    have hall : ∀ e ∈ ((run step (init 5) twoSessions).get twoSessions_isSome).reg.leases.entries,
        e.2.key = demoKey → e.1 = leaseId 1 := by decide
    exact hall _ ((Table.mem_entries_iff _ id lease).mpr hget)

theorem overwriting_step (n : Nat) (w : World) (h : Overwriting n w) (log : List Event)
    (σ : String → String) :
    ∃ w', run step w (attachAgain otherDemoKey (n + 2)) = some w' ∧
      project step (onKey demoKey log σ) w (attachAgain otherDemoKey (n + 2)) = [] ∧
      Overwriting (n + 1) w' ∧
      w'.reg.leases.get? (leaseId w.reg.leaseSeq) = some ⟨otherDemoKey, none⟩ := by
  rcases h.session with ⟨record, hrecord⟩
  rcases attachAgain_run otherDemoKey demoKey log σ w (n + 2) record otherDemoKey_ne
    (h.free (n + 2) (Nat.le_refl _)) hrecord with
    ⟨w', hrun, hproject, hsession, hleases, hseq, hcalls⟩
  refine ⟨w', hrun, hproject, ⟨hsession, ?_, ?_, ?_⟩, ?_⟩
  · rw [hseq, h.seq, Nat.mod_add_mod, Nat.add_assoc]
  · intro c hc
    have hne : c ≠ n + 2 := by omega
    rw [hcalls c hne]
    exact h.free c (by omega)
  · intro id lease hget hkey
    rw [hleases, Table.get?_set_eq_some] at hget
    rcases hget with ⟨-, rfl⟩ | ⟨-, hold⟩
    · exact absurd hkey otherDemoKey_ne
    · exact h.only id lease hold hkey
  · rw [hleases]
    exact Table.get?_set_self _ _ _

theorem overwriting_run (n : Nat) (w : World) (h : Overwriting 0 w) (log : List Event)
    (σ : String → String) :
    ∃ w', run step w (attachMany otherDemoKey n) = some w' ∧
      project step (onKey demoKey log σ) w (attachMany otherDemoKey n) = [] ∧
      Overwriting n w' := by
  induction n with
  | zero => exact ⟨w, rfl, rfl, h⟩
  | succ n ih =>
      rcases ih with ⟨v, hrun, hproject, hv⟩
      rcases overwriting_step n v hv log σ with ⟨w', hrun', hproject', hw', -⟩
      refine ⟨w', ?_, ?_, hw'⟩
      · rw [attachMany, run_append _ _ w v hrun, hrun']
      · rw [attachMany, project_append _ _ w v hrun, hproject, hproject', List.append_nil]

/-- When the counter of lease ids has gone around, an attach of one key overwrites
    the lease on another. -/
theorem keys_interfere :
    ¬∀ key idleTtl as w, run step (init idleTtl) as = some w → Independent key idleTtl as w := by
  intro hall
  obtain ⟨n, hn⟩ : ∃ n, (3 + n) % 2 ^ 64 = 1 := ⟨2 ^ 64 - 2, rfl⟩
  have hstart := overwriting_start
  generalize hw₀ : (run step (init 5) twoSessions).get twoSessions_isSome = w₀ at hstart
  have hrun₀ : run step (init 5) twoSessions = some w₀ := by
    rw [← hw₀, Option.some_get]
  rcases overwriting_run n w₀ hstart [] id with ⟨w₁, hrun₁, -, hw₁⟩
  rcases overwriting_step n w₁ hw₁ [] id with ⟨w, hrun, -, hw, hlast⟩
  have hrunall : run step (init 5) (twoSessions ++ (attachMany otherDemoKey n
      ++ attachAgain otherDemoKey (n + 2))) = some w := by
    rw [run_append _ _ _ w₀ hrun₀, run_append _ _ _ w₁ hrun₁, hrun]
  rcases hall demoKey 5 _ w hrunall with ⟨σ, -, w', hrun', hsame⟩
  -- What is left is the first attach, whose lease nothing overwrites.
  have hproject : project step (onKey demoKey w.log σ) (init 5) (twoSessions ++
      (attachMany otherDemoKey n ++ attachAgain otherDemoKey (n + 2)))
        = attachNew demoKey 0 := by
    rcases overwriting_run n w₀ hstart w.log σ with ⟨v₁, hrunv, hprojectv, -⟩
    rcases overwriting_step n w₁ hw₁ w.log σ with ⟨-, -, hprojectw, -⟩
    have hfirst : project step (onKey demoKey w.log σ) (init 5) twoSessions
        = attachNew demoKey 0 := rfl
    rw [project_append _ _ _ w₀ hrun₀, project_append _ _ w₀ w₁ hrun₁, hfirst, hprojectv,
      hprojectw, List.append_nil, List.append_nil]
  rw [hproject] at hrun'
  have hkept : w'.reg.leases.get? (leaseId 1) = some ⟨demoKey, none⟩ := by
    have hdone : (run step (init 5) (attachNew demoKey 0)).map
        (fun v => v.reg.leases.get? (leaseId 1)) = some (some ⟨demoKey, none⟩) := by decide
    rw [hrun', Option.map_some, Option.some.injEq] at hdone
    exact hdone
  rcases (hsame.leases (leaseId 1) ⟨demoKey, none⟩).mp ⟨hkept, rfl⟩ with ⟨id', -, hget, -⟩
  rw [hw.only id' _ hget rfl] at hget
  rw [hw₁.seq, hn, hget, Option.some.injEq, LeaseRecord.mk.injEq] at hlast
  exact otherDemoKey_ne hlast.1.symm

end World

end Lspee
