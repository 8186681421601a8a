import Lspee.Theory.Identity

/-!
# Leases and the Sessions They Name

Whether a message accepted on a lease goes to the session the lease was counted
on.

A lease holds a key. Whoever wants the session looks it up under the key, later
and in a section of its own: `call_by_lease_id` and `notify_by_lease_id` after
they have looked up the lease, `dispatch_attach` after it has been given one.
The key can have been given a new session in the meantime, and then the lookup
finds that one.

While a lease is held, so recorded or in the hands of such a caller, the session
registered under its key must therefore not be replaced. A session is replaced
when it is published under a key that has none, so it is enough that no lease on
the key is held at that moment (`RespawnCond`). The condition is tight: whenever
it fails, the run has a continuation in which a message or an `AttachOk` is
bound to the wrong session (`bound_exact`). It does fail, since `remove` drops
the session and the leases in two sections (`misrouted`).

## Main definitions

* `initializeResultOf`: What a runtime answered to `initialize`.
* `BoundToGrant`: Every message and answer in the log went by the session its
  lease was granted on.
* `Holds`, `Unheld`: A lease on a key is in use.
* `RespawnCond`: No session is published under a key with a lease in use.

## Theorems

* `holds_step`: A step brings no lease into use but the one it grants.
* `heldGranted_step`, `answered_step`: What holds of every run.
* `binding_step`: A step that meets the condition keeps the bindings.
* `rebinds`: After a step that fails it, the bindings can be broken.
* `bound_exact`: The two together, for whole runs.
* `misrouted`: A run that breaks the bindings.
-/

namespace Lspee

open Transition

/-- What a runtime answered to its `initialize` request. -/
def initializeResultOf (runtime : RuntimeId) : List Event → Option Json
  | [] => none
  | .spawnOk _ handle :: log =>
    if handle.runtime = runtime then some handle.initializeResult
    else initializeResultOf runtime log
  | _ :: log => initializeResultOf runtime log

theorem initializeResultOf_append (runtime : RuntimeId) (events log : List Event)
    (h : ∀ call handle, Event.spawnOk call handle ∉ events) :
    initializeResultOf runtime (events ++ log) = initializeResultOf runtime log := by
  induction events with
  | nil => rfl
  | cons event events ih =>
      have hrest := ih (fun c handle hm => h c handle (List.mem_cons_of_mem _ hm))
      cases event with
      | spawnOk call handle => exact absurd List.mem_cons_self (h call handle)
      | _ => exact hrest

/-- Every message that was forwarded on a lease went to the runtime of the
    session the lease was granted on, and every attach was answered with what
    that runtime answered to `initialize`. -/
def BoundToGrant : List Event → Prop
  | [] => True
  | .forwarded _ id runtime _ :: log => grantedOn id log = some runtime ∧ BoundToGrant log
  | .attachOk _ lease handle :: log =>
    (grantedOn lease.id log = some handle.runtime ∧
      initializeResultOf handle.runtime log = some handle.initializeResult) ∧ BoundToGrant log
  | _ :: log => BoundToGrant log

instance decidableBoundToGrant : ∀ log, Decidable (BoundToGrant log)
  | [] => isTrue trivial
  | event :: log => by
    have := decidableBoundToGrant log
    cases event <;> unfold BoundToGrant <;> infer_instance

/-- Events that grant and spawn nothing are bound when each of them is. -/
theorem boundToGrant_append (events log : List Event) (h : BoundToGrant log)
    (hgrants : ∀ event ∈ events, event.grants = false)
    (hspawned : ∀ call handle, Event.spawnOk call handle ∉ events)
    (hforwarded : ∀ call id runtime message, Event.forwarded call id runtime message ∈ events →
      grantedOn id log = some runtime)
    (hattached : ∀ call lease handle, Event.attachOk call lease handle ∈ events →
      grantedOn lease.id log = some handle.runtime ∧
        initializeResultOf handle.runtime log = some handle.initializeResult) :
    BoundToGrant (events ++ log) := by
  induction events with
  | nil => exact h
  | cons event events ih =>
      have hgr : ∀ e ∈ events, e.grants = false :=
        fun e he => hgrants e (List.mem_cons_of_mem _ he)
      have hsp : ∀ c handle, Event.spawnOk c handle ∉ events :=
        fun c handle he => hspawned c handle (List.mem_cons_of_mem _ he)
      have hrest : BoundToGrant (events ++ log) :=
        ih hgr hsp (fun c i rt m he => hforwarded c i rt m (List.mem_cons_of_mem _ he))
          (fun c l handle he => hattached c l handle (List.mem_cons_of_mem _ he))
      cases event with
      | forwarded call id runtime message =>
          refine ⟨?_, hrest⟩
          change grantedOn id (events ++ log) = some runtime
          rw [grantedOn_append id events log hgr]
          exact hforwarded call id runtime message List.mem_cons_self
      | attachOk call lease handle =>
          refine ⟨?_, hrest⟩
          change grantedOn lease.id (events ++ log) = some handle.runtime ∧
            initializeResultOf handle.runtime (events ++ log) = some handle.initializeResult
          rw [grantedOn_append _ events log hgr, initializeResultOf_append _ events log hsp]
          exact hattached call lease handle List.mem_cons_self
      | _ => exact hrest

namespace World

/-- A lease on the key is in use: it is recorded, or a call has it and is about
    to look up the session under the key. -/
def Holds (w : World) (id : String) (key : SessionKey) : Prop :=
  (∃ lease, w.reg.leases.get? id = some lease ∧ lease.key = key) ∨
    ∃ call frame, w.calls.get? call = some frame ∧ frame.holding = some (id, key)

/-- No lease on the key is in use. -/
def Unheld (w : World) (key : SessionKey) : Prop :=
  w.reg.leases.count (fun _ lease => decide (lease.key = key)) = 0 ∧
    w.calls.count (fun _ frame => decide (frame.holding.map Prod.snd = some key)) = 0

instance (w : World) (key : SessionKey) : Decidable (w.Unheld key) :=
  inferInstanceAs (Decidable (_ ∧ _))

theorem unheld_iff (w : World) (key : SessionKey) : w.Unheld key ↔ ∀ id, ¬ w.Holds id key := by
  unfold Unheld
  rw [Table.count_eq_zero, Table.count_eq_zero]
  constructor
  · rintro ⟨hleases, hcalls⟩ id (⟨lease, hlease, hkey⟩ | ⟨call, frame, hcall, hhold⟩)
    · exact absurd (hleases id lease hlease) (by simp [hkey])
    · exact absurd (hcalls call frame hcall) (by simp [hhold])
  · intro h
    refine ⟨fun id lease hlease => ?_, fun call frame hcall => ?_⟩
    · exact decide_eq_false (fun hkey => h id (Or.inl ⟨lease, hlease, hkey⟩))
    · refine decide_eq_false (fun hhold => ?_)
      rcases Option.map_eq_some_iff.mp hhold with ⟨held, hheld, hsnd⟩
      exact h held.1 (Or.inr ⟨call, frame, hcall, by rw [hheld, ← hsnd]⟩)

/-- A session is published under a key only when no lease on the key is in
    use. -/
def RespawnCond (w : World) (a : Action) : Prop :=
  match a.mover.bind w.calls.get? with
  | some (.acquire key _ (.publish _)) => w.reg.sessions.get? key = none → w.Unheld key
  | _ => True

instance (w : World) (a : Action) : Decidable (RespawnCond w a) := by
  unfold RespawnCond
  exact match a.mover.bind w.calls.get? with
    | some (.acquire key _ (.publish _)) =>
      inferInstanceAs (Decidable (w.reg.sessions.get? key = none → w.Unheld key))
    | none | some (.acquire _ _ .count) | some (.acquire _ _ .gate)
    | some (.acquire _ _ (.lookup _)) | some (.acquire _ _ (.enter _))
    | some (.acquire _ _ (.spawning _)) | some (.acquire _ _ (.leave _ _))
    | some (.acquire _ _ (.dropGate _)) | some (.acquire _ _ (.waiting _ _))
    | some (.acquire _ _ (.returned _)) | some (.attached _ _) | some (.release _ _)
    | some (.remove _ _) | some (.forward _ _ _ _) | some (.touch _ _) | some (.mark _ _ _)
    | some (.idle _ _) | some (.increment _ _) | some (.crash _) => instDecidableTrue

/-! ### Which leases come into use -/

/-- A call that moves brings no lease into use when the leases recorded
    afterwards were recorded before and the lease it holds was in use. -/
theorem holds_of_moved (w : World) (call : CallId) (r' : SessionRegistry) (frame' : Frame)
    (events : List Event)
    (hleases : ∀ id lease, r'.leases.get? id = some lease → w.reg.leases.get? id = some lease)
    (hframe : ∀ id key, frame'.holding = some (id, key) → w.Holds id key) (id : String)
    (key : SessionKey) (h : (w.moved call r' frame' events).Holds id key) : w.Holds id key := by
  rcases h with ⟨lease, hlease, hkey⟩ | ⟨c, f, hcall, hhold⟩
  · exact Or.inl ⟨lease, hleases id lease hlease, hkey⟩
  · simp only [moved, Table.get?_set] at hcall
    by_cases hc : c = call
    · rw [if_pos hc, Option.some.injEq] at hcall
      rw [← hcall] at hhold
      exact hframe id key hhold
    · rw [if_neg hc] at hcall
      exact Or.inr ⟨c, f, hcall, hhold⟩

/-- The grant of a lease brings that lease into use, and no other. -/
theorem holds_of_grant (w : World) (call : CallId) (key : SessionKey)
    (clientKind : Option ClientKind) (record : SessionRecord) (counters : RegistryCounters)
    (events : List Event) (id : String) (k : SessionKey)
    (h : (w.moved call (w.reg.grantLease key clientKind record counters w.now).1
      (.acquire key clientKind (.returned (.ok { id := leaseId w.reg.leaseSeq, key := key })))
      events).Holds id k) :
    (id = leaseId w.reg.leaseSeq ∧ k = key) ∨ w.Holds id k := by
  rcases h with ⟨lease, hlease, hkey⟩ | ⟨c, f, hcall, hhold⟩
  · simp only [moved, SessionRegistry.grantLease, Table.get?_set] at hlease
    by_cases hid : id = leaseId w.reg.leaseSeq
    · rw [if_pos hid, Option.some.injEq] at hlease
      rw [← hlease] at hkey
      exact Or.inl ⟨hid, hkey.symm⟩
    · rw [if_neg hid] at hlease
      exact Or.inr (Or.inl ⟨lease, hlease, hkey⟩)
  · simp only [moved, Table.get?_set] at hcall
    by_cases hc : c = call
    · rw [if_pos hc, Option.some.injEq] at hcall
      rw [← hcall, Frame.holding, Option.some.injEq, Prod.mk.injEq] at hhold
      exact Or.inl ⟨hhold.1.symm, hhold.2.symm⟩
    · rw [if_neg hc] at hcall
      exact Or.inr (Or.inr ⟨c, f, hcall, hhold⟩)

/-- A lease in use after a step was in use before, or was granted by the step
    on the session now registered under its key. -/
theorem holds_step (w w' : World) (a : Action) (hstep : w.step a = some w') (id : String)
    (k : SessionKey) (h : w'.Holds id k) :
    w.Holds id k ∨ ∃ record, w'.reg.sessions.get? k = some record ∧
      grantedOn id w'.log = some record.handle.runtime := by
  cases step_effect w w' a hstep with
  | tick span => exact Or.inl h
  | start call method hfree =>
      refine Or.inl (holds_of_moved w call w.reg _ [] (fun _ _ hl => hl) ?_ id k h)
      cases method <;> simp [Method.frame, Frame.holding]
  | spawnOk call key clientKind g initializeResult hcall =>
      exact Or.inl (holds_of_moved w call w.reg _ [] (fun _ _ hl => hl) (by simp [Frame.holding])
        id k h)
  | move _ call frame frame' r' events hmover hcall heffect =>
      cases heffect with
      | quiet _ _ _ _ hkept hleases hseq hlog hrel hrel' hclear hclear' hpend hroute =>
          refine Or.inl (holds_of_moved w call r' frame' events ?_ ?_ id k h)
          · rw [hleases]
            exact fun _ _ hl => hl
          · intro i key hhold
            rcases hroute.holding (i, key) hhold with hold | hlease
            · exact Or.inr ⟨call, frame, hcall, hold⟩
            · exact Or.inl hlease
      -- A lease is granted on the record that lies under the key after the step.
      | grant key clientKind pc record counters hrecord hpc =>
          rcases holds_of_grant w call key clientKind record counters _ id k h
            with ⟨rfl, rfl⟩ | hold
          · refine Or.inr ⟨record.grant w.now, Table.get?_set_self _ _ _, ?_⟩
            exact if_pos rfl
          · exact Or.inl hold
      | register key clientKind handle counters hnone =>
          rcases holds_of_grant w call key clientKind _ counters _ id k h with ⟨rfl, rfl⟩ | hold
          · refine Or.inr ⟨_, Table.get?_set_self _ _ _, ?_⟩
            exact if_pos rfl
          · exact Or.inl hold
      | take i lease hlease =>
          refine Or.inl (holds_of_moved w call _ _ [] ?_ (by simp [Frame.holding]) id k h)
          intro j l hl
          rw [SessionRegistry.eraseLease, Table.get?_erase] at hl
          split at hl
          · exact absurd hl (by simp)
          · exact hl
      | decrement i key =>
          refine Or.inl (holds_of_moved w call _ _ [] ?_ (by simp [Frame.holding]) id k h)
          unfold SessionRegistry.releaseSession
          split <;> exact fun _ _ hl => hl
      | removeSession key =>
          exact Or.inl (holds_of_moved w call _ _ [] (fun _ _ hl => hl) (by simp [Frame.holding])
            id k h)
      | removeLeases key =>
          refine Or.inl (holds_of_moved w call _ _ [] ?_ (by simp [Frame.holding]) id k h)
          exact fun j l hl => (Table.get?_retain_eq_some _ _ _ _ |>.mp hl).1

/-- Every lease in use was granted. -/
def HeldGranted (w : World) : Prop :=
  ∀ id key, w.Holds id key → ∃ runtime, grantedOn id w.log = some runtime

theorem heldGranted_init (idleTtl : Duration) : HeldGranted (init idleTtl) := by
  simp [HeldGranted, Holds, init, SessionRegistry.withIdleTtl]

theorem heldGranted_step (w w' : World) (a : Action) (h : HeldGranted w)
    (hstep : w.step a = some w') : HeldGranted w' := by
  intro id key hholds
  rcases holds_step w w' a hstep id key hholds with hold | ⟨record, _, hid⟩
  · exact wasGranted_step w w' a hstep id (h id key hold)
  · exact ⟨_, hid⟩

/-! ### Handles hold what their runtimes answered -/

/-- The handles in the registry, and those about to be published, hold what
    their runtimes answered to `initialize`. -/
structure Answered (w : World) : Prop where
  registered : ∀ key record, w.reg.sessions.get? key = some record →
    initializeResultOf record.handle.runtime w.log = some record.handle.initializeResult
  pending : ∀ call frame spawned, w.calls.get? call = some frame →
    frame.pending = some spawned →
      initializeResultOf spawned.2.runtime w.log = some spawned.2.initializeResult

theorem answered_init (idleTtl : Duration) : Answered (init idleTtl) where
  registered := by simp [init, SessionRegistry.withIdleTtl]
  pending := by simp [init]

/-- A step that spawns nothing leaves every handle with its answer. -/
theorem answered_of_moved (w : World) (h : Answered w) (a : Action) (call : CallId)
    (frame' : Frame) (r' : SessionRegistry) (events : List Event)
    (hstep : w.step a = some (w.moved call r' frame' events))
    (hspawned : ∀ c handle, Event.spawnOk c handle ∉ events)
    (hpend : ∀ spawned, frame'.pending = some spawned →
      ∃ frame, w.calls.get? call = some frame ∧ frame.pending = some spawned) :
    Answered (w.moved call r' frame' events) := by
  constructor
  · intro k u hu
    change initializeResultOf _ (events ++ w.log) = _
    rw [initializeResultOf_append _ events w.log hspawned]
    rcases handle_step w _ a hstep k u hu with ⟨u₀, hu₀, hhandle⟩ | ⟨c, clientKind, _, hc, _⟩
    · rw [← hhandle]
      exact h.registered k u₀ hu₀
    · exact h.pending c _ (k, u.handle) hc rfl
  · intro c f spawned hc hf
    change initializeResultOf _ (events ++ w.log) = _
    rw [initializeResultOf_append _ events w.log hspawned]
    rcases pending_set w.calls call frame' hpend c f spawned hc hf with ⟨f₀, hc₀, hf₀⟩
    exact h.pending c f₀ spawned hc₀ hf₀

theorem answered_spawnOk (w : World) (hfresh : Fresh w) (h : Answered w) (call : CallId)
    (key : SessionKey) (clientKind : Option ClientKind) (g : GateId) (initializeResult : Json) :
    Answered (w.spawnReturn call key clientKind g (.ok initializeResult)) := by
  -- A runtime that exists already is not the one just spawned.
  have hskip : ∀ runtime, runtime < w.nextRuntime →
      initializeResultOf runtime
          (w.spawnReturn call key clientKind g (.ok initializeResult)).log
        = initializeResultOf runtime w.log :=
    fun runtime hlt => if_neg (Nat.ne_of_gt hlt)
  constructor
  · intro k u hu
    rw [hskip _ (hfresh.bound k _ (hfresh.registered k u hu))]
    exact h.registered k u hu
  · intro c f spawned hc hf
    simp only [spawnReturn, moved, Table.get?_set] at hc
    by_cases hcc : c = call
    · rw [if_pos hcc, Option.some.injEq] at hc
      rw [← hc, Frame.pending, Option.some.injEq] at hf
      rw [← hf]
      exact if_pos rfl
    · rw [if_neg hcc] at hc
      rw [hskip _ (hfresh.pendingBound c f spawned hc hf)]
      exact h.pending c f spawned hc hf

theorem answered_step (w w' : World) (a : Action) (hfresh : Fresh w) (h : Answered w)
    (hstep : w.step a = some w') : Answered w' := by
  cases step_effect w w' a hstep with
  | tick span => exact ⟨h.registered, h.pending⟩
  | start call method hfree =>
      refine ⟨h.registered, fun c f spawned hc hf => ?_⟩
      rcases pending_set w.calls call _ (by cases method <;> simp [Method.frame, Frame.pending])
        c f spawned hc hf with ⟨f₀, hc₀, hf₀⟩
      exact h.pending c f₀ spawned hc₀ hf₀
  | spawnOk call key clientKind g initializeResult hcall =>
      exact answered_spawnOk w hfresh h call key clientKind g initializeResult
  | move _ call frame frame' r' events hmover hcall heffect =>
      refine answered_of_moved w h a call frame' r' events hstep ?_ ?_
      · cases heffect with
        | quiet _ _ _ _ hkept hleases hseq hlog hrel hrel' hclear hclear' hpend hroute =>
            exact hroute.spawned
        | _ => simp
      · cases heffect with
        | quiet _ _ _ _ hkept hleases hseq hlog hrel hrel' hclear hclear' hpend hroute =>
            exact fun spawned hs => ⟨frame, hcall, hpend spawned hs⟩
        | _ => simp [Frame.pending]

/-! ### Keeping the bindings -/

/-- A lease in use names the session registered under its key, and so far every
    message and answer was bound to its lease's session. -/
structure Binding (w : World) : Prop where
  names : ∀ id key record, w.Holds id key → w.reg.sessions.get? key = some record →
    grantedOn id w.log = some record.handle.runtime
  bound : BoundToGrant w.log

theorem binding_init (idleTtl : Duration) : Binding (init idleTtl) where
  names := by simp [init, SessionRegistry.withIdleTtl]
  bound := trivial

theorem names_step (w w' : World) (a : Action) (hids : LeaseIds w) (h : Binding w)
    (hstep : w.step a = some w') (hnew : w.NewIdCond a) (hcond : w.RespawnCond a) (id : String)
    (key : SessionKey) (record : SessionRecord) (hholds : w'.Holds id key)
    (hrecord : w'.reg.sessions.get? key = some record) :
    grantedOn id w'.log = some record.handle.runtime := by
  rcases holds_step w w' a hstep id key hholds with hold | ⟨record', hrecord', hid⟩
  · rcases handle_step w w' a hstep key record hrecord with
      ⟨record₀, hrecord₀, hhandle⟩ | ⟨call, clientKind, hmover, hcall, hnone⟩
    · rw [← hhandle]
      exact grantedOn_step w w' a hids hstep hnew id _ (h.names id key record₀ hold hrecord₀)
    · -- A session was published under the key, with the lease in use.
      rw [RespawnCond, hmover, Option.bind_some, hcall] at hcond
      exact absurd hold ((unheld_iff w key).mp (hcond hnone) id)
  · rw [hrecord', Option.some.injEq] at hrecord
    rw [← hrecord]
    exact hid

theorem bound_step (w w' : World) (a : Action) (hanswered : Answered w) (h : Binding w)
    (hstep : w.step a = some w') : BoundToGrant w'.log := by
  cases step_effect w w' a hstep with
  | tick span => exact h.bound
  | start call method hfree => exact h.bound
  | spawnOk call key clientKind g initializeResult hcall => exact h.bound
  | move _ call frame frame' r' events hmover hcall heffect =>
      cases heffect with
      | quiet _ _ _ _ hkept hleases hseq hlog hrel hrel' hclear hclear' hpend hroute =>
          refine boundToGrant_append events w.log h.bound hlog hroute.spawned ?_ ?_
          · intro c id runtime message hmem
            rcases hroute.forwarded c id runtime message hmem with ⟨key, record, hhold, hrec, rfl⟩
            exact h.names id key record (Or.inr ⟨call, frame, hcall, hhold⟩) hrec
          · intro c lease handle hmem
            rcases hroute.attached c lease handle hmem with ⟨key, record, hhold, hrec, rfl⟩
            exact ⟨h.names lease.id key record (Or.inr ⟨call, frame, hcall, hhold⟩) hrec,
              hanswered.registered key record hrec⟩
      | _ => exact h.bound

/-- What every run keeps. -/
structure Sound (w : World) : Prop where
  fresh : Fresh w
  leaseIds : LeaseIds w
  heldGranted : HeldGranted w
  answered : Answered w

theorem sound_init (idleTtl : Duration) : Sound (init idleTtl) :=
  ⟨fresh_init idleTtl, leaseIds_init idleTtl, heldGranted_init idleTtl, answered_init idleTtl⟩

theorem sound_step (w w' : World) (a : Action) (h : Sound w) (hstep : w.step a = some w') :
    Sound w' :=
  ⟨fresh_step w w' a h.fresh hstep, leaseIds_step w w' a h.leaseIds hstep,
    heldGranted_step w w' a h.heldGranted hstep, answered_step w w' a h.fresh h.answered hstep⟩

theorem binding_step (w w' : World) (a : Action) (hsound : Sound w) (h : Binding w)
    (hstep : w.step a = some w') (hnew : w.NewIdCond a) (hcond : w.RespawnCond a) : Binding w' :=
  ⟨names_step w w' a hsound.leaseIds h hstep hnew hcond,
    bound_step w w' a hsound.answered h hstep⟩

/-! ### Breaking the bindings -/

/-- The state a publish leaves under a key that had no session: the new session
    is registered and not marked, and what other calls and leases there were is
    still there. -/
theorem publish_step (w w' : World) (a : Action) (call : CallId) (key : SessionKey)
    (clientKind : Option ClientKind) (handle : SessionHandle) (hmover : a.mover = some call)
    (hcall : w.calls.get? call = some (.acquire key clientKind (.publish handle)))
    (hnone : w.reg.sessions.get? key = none) (hstep : w.step a = some w') :
    (∃ record, w'.reg.sessions.get? key = some record ∧ record.handle = handle ∧
      record.terminating = false) ∧
    (∀ c, c ≠ call → w'.calls.get? c = w.calls.get? c) ∧
    ∀ id, id ≠ leaseId w.reg.leaseSeq → w'.reg.leases.get? id = w.reg.leases.get? id := by
  rcases sect_of_mover w w' a call _ hmover hcall (by simp) (by simp) hstep
    with ⟨r', frame', events, hsec, rfl⟩
  simp only [Frame.section, AcquirePc.section, SessionRegistry.publishSession,
    SessionRegistry.publishRecord, hnone, Option.getD_none, Option.map_some, Option.some.injEq,
    Prod.mk.injEq] at hsec
  rcases hsec with ⟨rfl, -, -⟩
  exact ⟨⟨_, Table.get?_set_self _ _ _, rfl, rfl⟩, fun c hc => Table.get?_set_ne _ _ _ _ hc,
    fun id hid => Table.get?_set_ne _ _ _ _ hid⟩

/-- A call that holds a lease and finds an unmarked session under its key logs
    the session's runtime. -/
theorem breaks_of_holding (w : World) (call : CallId) (frame : Frame) (id : String)
    (key : SessionKey) (record : SessionRecord) (hcall : w.calls.get? call = some frame)
    (hhold : frame.holding = some (id, key)) (hrecord : w.reg.sessions.get? key = some record)
    (hmark : record.terminating = false)
    (hid : grantedOn id w.log ≠ some record.handle.runtime) :
    ∃ w', w.step (.sect call) = some w' ∧ ¬ BoundToGrant w'.log := by
  unfold Frame.holding at hhold
  split at hhold
  · rename_i kind id' message key'
    rw [Option.some.injEq, Prod.mk.injEq] at hhold
    rcases hhold with ⟨rfl, rfl⟩
    have hsec : (Frame.forward kind id' message (.session key')).section call w.now w.reg
        = some ({ w.reg with sessions := w.reg.sessions.set key' (record.touch w.now) },
          .forward kind id' message (.awaiting key' record.handle.runtime),
          [.forwarded call id' record.handle.runtime message]) := by
      simp [Frame.section, ForwardPc.section, SessionRegistry.lookupRuntime, hrecord, hmark]
    exact ⟨_, step_sect w call _ _ _ _ hcall hsec, fun hbound => hid hbound.1⟩
  · rename_i key' clientKind lease
    rw [Option.some.injEq, Prod.mk.injEq] at hhold
    rcases hhold with ⟨rfl, rfl⟩
    have hsec : (Frame.acquire key' clientKind (.returned (.ok lease))).section call w.now w.reg
        = some (w.reg, .attached lease (some record.handle),
          [.attachOk call lease record.handle]) := by
      simp [Frame.section, SessionRegistry.sessionHandle, hrecord]
    exact ⟨_, step_sect w call _ _ _ _ hcall hsec, fun hbound => hid hbound.1.1⟩
  · exact absurd hhold (by simp)

/-- A recorded lease can be used. -/
theorem uses_lease (w : World) (id : String) (lease : LeaseRecord)
    (hlease : w.reg.leases.get? id = some lease) :
    ∃ call as w', run step w as = some w' ∧ w'.reg = w.reg ∧ w'.log = w.log ∧
      ∃ frame, w'.calls.get? call = some frame ∧ frame.holding = some (id, lease.key) := by
  rcases w.calls.exists_get?_none with ⟨call, hfree⟩
  let started : World :=
    { w with calls := w.calls.set call (.forward .notify id .null .lease) }
  have hstart : w.step (.start call (.forwardByLeaseId .notify id .null)) = some started := by
    simp only [step, hfree]
    rfl
  have hsec : (Frame.forward .notify id .null .lease).section call started.now started.reg
      = some (w.reg, .forward .notify id .null (.session lease.key), []) := by
    simp [Frame.section, ForwardPc.section, SessionRegistry.leaseKey, started, hlease]
  have hsect := step_sect started call _ _ _ _ (Table.get?_set_self _ _ _) hsec
  refine ⟨call, [.start call (.forwardByLeaseId .notify id .null), .sect call],
    started.moved call w.reg (.forward .notify id .null (.session lease.key)) [], ?_, rfl, rfl,
    .forward .notify id .null (.session lease.key), Table.get?_set_self _ _ _, rfl⟩
  rw [run_cons _ _ _ _ hstart, run_cons _ _ _ _ hsect]
  rfl

/-- A step that publishes a session under a key with a lease in use can be
    followed by a message or an answer that goes to the wrong session. -/
theorem rebinds (w w' : World) (a : Action) (hsound : Sound w) (hstep : w.step a = some w')
    (hnew : w.NewIdCond a) (hcond : ¬ w.RespawnCond a) :
    ∃ as w'', run step w' as = some w'' ∧ ¬ BoundToGrant w''.log := by
  unfold RespawnCond at hcond
  split at hcond
  · rename_i key clientKind handle hframe
    rcases Option.bind_eq_some_iff.mp hframe with ⟨call, hmover, hcall⟩
    rw [Classical.not_imp, unheld_iff, not_forall] at hcond
    rcases hcond with ⟨hnone, id, hhold⟩
    have hholds : w.Holds id key := not_not.mp hhold
    rcases hsound.heldGranted id key hholds with ⟨runtime, hid⟩
    have hid' := grantedOn_step w w' a hsound.leaseIds hstep hnew id runtime hid
    -- The lease was granted on a session that was registered, and the new one was not.
    have hne : runtime ≠ handle.runtime := by
      intro heq
      rcases granted_of_grantedOn id w.log runtime hid with ⟨c, lease, hmem, _⟩
      have hreg := hsound.fresh.granted c lease runtime hmem
      rw [heq] at hreg
      exact hsound.fresh.pendingNew call _ (key, handle) hcall rfl _ hreg
    have hold : id ≠ leaseId w.reg.leaseSeq := by
      intro heq
      rw [NewIdCond, hmover, Option.bind_some, hcall] at hnew
      rw [heq, nextId_new w hsound.leaseIds hnew] at hid
      exact absurd hid (by simp)
    rcases publish_step w w' a call key clientKind handle hmover hcall hnone hstep
      with ⟨⟨record, hrecord, hhandle, hmark⟩, hcalls, hleases⟩
    have hwrong : grantedOn id w'.log ≠ some record.handle.runtime := by
      rw [hid', hhandle]
      exact fun heq => hne (Option.some.inj heq)
    rcases hholds with ⟨lease, hlease, rfl⟩ | ⟨c, f, hc, hf⟩
    · rcases uses_lease w' id lease (by rw [hleases id hold]; exact hlease)
        with ⟨c, as, w₁, hrun, hreg, hlog, f, hc, hf⟩
      rw [← hreg] at hrecord
      rw [← hlog] at hwrong
      rcases breaks_of_holding w₁ c f id lease.key record hc hf hrecord hmark hwrong
        with ⟨w₂, hstep₂, hbroken⟩
      refine ⟨as ++ [.sect c], w₂, ?_, hbroken⟩
      rw [run_append as _ w' w₁ hrun, run_cons _ _ _ _ hstep₂]
      rfl
    · have hne' : c ≠ call := by
        intro heq
        rw [heq, hcall, Option.some.injEq] at hc
        rw [← hc] at hf
        exact absurd hf (by simp [Frame.holding])
      rcases breaks_of_holding w' c f id key record (by rw [hcalls c hne']; exact hc) hf hrecord
        hmark hwrong with ⟨w₂, hstep₂, hbroken⟩
      exact ⟨[.sect c], w₂, by rw [run_cons _ _ _ _ hstep₂]; rfl, hbroken⟩
  · exact absurd trivial hcond

theorem sound_run (idleTtl : Duration) (as : List Action) (w : World)
    (h : run step (init idleTtl) as = some w) : Sound w :=
  run_invariant (fun s a s' hs hstep _ => sound_step s s' a hs hstep) as _ w h
    (sound_init idleTtl) (along_true as _)

theorem binding_run (idleTtl : Duration) (as : List Action) (w : World)
    (h : run step (init idleTtl) as = some w)
    (hcond : Along step (fun w a => w.NewIdCond a ∧ w.RespawnCond a) (init idleTtl) as) :
    Binding w := by
  have hinv := run_invariant (I := fun s => Sound s ∧ Binding s)
    (fun s a s' hs hstep hc => ⟨sound_step s s' a hs.1 hstep,
      binding_step s s' a hs.1 hs.2 hstep hc.1 hc.2⟩) as _ w h
    ⟨sound_init idleTtl, binding_init idleTtl⟩ hcond
  exact hinv.2

/-- In every run that publishes no session under a key with a lease in use,
    messages and answers go by the session the lease was granted on. And a run
    that does publish one has a continuation in which one of them does not. -/
theorem bound_exact (idleTtl : Duration) (as : List Action) (w : World)
    (h : run step (init idleTtl) as = some w) :
    (Along step (fun w a => w.NewIdCond a ∧ w.RespawnCond a) (init idleTtl) as →
      BoundToGrant w.log) ∧
    ∀ a w', w.step a = some w' → w.NewIdCond a → ¬ w.RespawnCond a →
      ∃ bs w'', run step w' bs = some w'' ∧ ¬ BoundToGrant w''.log :=
  ⟨fun hcond => (binding_run idleTtl as w h hcond).bound,
    fun a w' hstep hnew hcond => rebinds w w' a (sound_run idleTtl as w h) hstep hnew hcond⟩

/-- A client attaches and releases, the session is removed, and another client
    attaches and sends a message. -/
def attachRemoveAttach : List Action :=
  acquireFresh 0 ++ [.sect 0] ++ releaseAll 1 "lease_1" ++ removeAll 2 ++ acquireFresh 3 ++
    [.sect 3, .start 4 (.forwardByLeaseId .call "lease_2" .null), .sect 4, .sect 4,
      .runtimeReturns 4 (.ok .null), .sect 4]

theorem attachRemoveAttach_isSome :
    (run step (init 5) attachRemoveAttach).isSome = true := by
  decide

theorem bound_attachRemoveAttach :
    BoundToGrant ((run step (init 5) attachRemoveAttach).get attachRemoveAttach_isSome).log :=
  (bound_exact 5 attachRemoveAttach _ (Option.some_get _).symm).1 (by decide)

/-- A client has attached. A removal has dropped its session and not yet its
    lease when another client attaches and the first one sends a message. -/
def messageDuringRemoval : List Action :=
  acquireFresh 0 ++ [.sect 0, .start 1 (.remove demoKey), .sect 1] ++ acquireFresh 2 ++
    [.start 3 (.forwardByLeaseId .call "lease_1" .null), .sect 3, .sect 3]

theorem messageDuringRemoval_isSome :
    (run step (init 5) messageDuringRemoval).isSome = true := by
  decide

/-- Messages do not always go to the session of their lease: the message of the
    first client goes to the session of the second. -/
theorem misrouted :
    ¬ ∀ (idleTtl : Duration) (as : List Action) (w : World),
      run step (init idleTtl) as = some w → BoundToGrant w.log := by
  intro hall
  have hbound := hall 5 messageDuringRemoval ((run step (init 5) messageDuringRemoval).get
    messageDuringRemoval_isSome) (Option.some_get _).symm
  exact absurd hbound (by decide)

end World

end Lspee
