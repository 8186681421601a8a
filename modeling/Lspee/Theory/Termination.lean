import Lspee.Theory.Identity

/-!
# Sessions Selected for Termination

Whether a client can be given a lease on a session that an evictor has chosen.

The idle sweep and the memory monitor mark a session `terminating` when they
choose it, and then take seconds to shut it down and remove it. The mark is
there for the others to see: `call_by_lease_id` rejects a message for a marked
session. `acquire_or_spawn` does not look at it. Both of its grant paths take
whatever record they find, and clear the mark.

`SparesSelected` is what an evictor relies on: a session that was selected gets
no further lease, and stays marked as long as it is registered. It holds of a
run exactly as long as no grant finds a marked record (`spares_iff`), and a
client that attaches during a shutdown is enough to break it
(`attached_while_dying`).

## Main definitions

* `GrantsSpareSelected`: No lease in the log was granted on a session selected
  before.
* `SparesSelected`: Selected sessions get no lease and keep their mark.
* `MarkedSelected`: Marked sessions were selected.
* `UnmarkedCond`: A grant finds no marked record.

## Theorems

* `marked_init`, `marked_step`: A session is marked only when it is selected.
* `spares_keep`, `spares_need`: What the condition does at one step.
* `spares_iff`: The condition is exact over whole runs.
* `attached_while_dying`: A run that breaks it.
-/

namespace Lspee

open Transition

/-- The log grants no lease on a session that was selected before. -/
def GrantsSpareSelected : List Event → Prop
  | [] => True
  | .granted _ _ runtime :: log => Event.selected runtime ∉ log ∧ GrantsSpareSelected log
  | _ :: log => GrantsSpareSelected log

instance decidableGrantsSpareSelected : ∀ log, Decidable (GrantsSpareSelected log)
  | [] => isTrue trivial
  | event :: log => by
    have := decidableGrantsSpareSelected log
    cases event <;> unfold GrantsSpareSelected <;> infer_instance

theorem grantsSpareSelected_append (events log : List Event)
    (hevents : ∀ event ∈ events, event.grants = false) (h : GrantsSpareSelected log) :
    GrantsSpareSelected (events ++ log) := by
  induction events with
  | nil => exact h
  | cons event events ih =>
      have hrest := ih (fun e he => hevents e (List.mem_cons_of_mem _ he))
      cases event with
      | granted call lease runtime =>
          exact absurd (hevents _ List.mem_cons_self) (by simp [Event.grants])
      | _ => exact hrest

namespace World

/-- A session that was selected gets no further lease, and keeps its mark as
    long as it is registered. -/
structure SparesSelected (w : World) : Prop where
  grants : GrantsSpareSelected w.log
  marked : ∀ key record, w.reg.sessions.get? key = some record →
    Event.selected record.handle.runtime ∈ w.log → record.terminating = true

/-- A session that is marked was selected. -/
def MarkedSelected (w : World) : Prop :=
  ∀ key record, w.reg.sessions.get? key = some record → record.terminating = true →
    Event.selected record.handle.runtime ∈ w.log

/-- A grant that finds a record finds one that is not marked. -/
def UnmarkedCond (w : World) (a : Action) : Prop :=
  match a.mover.bind w.calls.get? with
  | some (.acquire key _ (.lookup _)) =>
    ∀ record ∈ w.reg.sessions.get? key, record.terminating = false
  | some (.acquire key _ (.publish _)) =>
    ∀ record ∈ w.reg.sessions.get? key, record.terminating = false
  | _ => True

instance (w : World) (a : Action) : Decidable (UnmarkedCond w a) := by
  unfold UnmarkedCond
  exact match a.mover.bind w.calls.get? with
    | some (.acquire key _ (.lookup _)) | some (.acquire key _ (.publish _)) =>
      inferInstanceAs (Decidable
        (∀ record ∈ w.reg.sessions.get? key, record.terminating = false))
    | none | some (.acquire _ _ .count) | some (.acquire _ _ .gate)
    | some (.acquire _ _ (.enter _)) | some (.acquire _ _ (.spawning _))
    | some (.acquire _ _ (.leave _ _)) | some (.acquire _ _ (.dropGate _))
    | some (.acquire _ _ (.waiting _ _)) | some (.acquire _ _ (.returned _))
    | some (.attached _ _) | some (.release _ _)
    | some (.remove _ _) | some (.forward _ _ _ _) | some (.touch _ _) | some (.mark _ _ _)
    | some (.idle _ _) | some (.increment _ _) | some (.crash _) => instDecidableTrue

theorem marked_init (idleTtl : Duration) : MarkedSelected (init idleTtl) := by
  simp [MarkedSelected, init, SessionRegistry.withIdleTtl]

theorem spares_init (idleTtl : Duration) : SparesSelected (init idleTtl) where
  grants := trivial
  marked := by simp [init, SessionRegistry.withIdleTtl]

/-! ### Marked sessions were selected -/

theorem marked_step (w w' : World) (a : Action) (h : MarkedSelected w)
    (hstep : w.step a = some w') : MarkedSelected w' := by
  cases step_effect w w' a hstep with
  | tick span => exact h
  | start call method hfree => exact h
  | spawnOk call key clientKind g initializeResult hcall =>
      exact fun k u hu hm => List.mem_cons_of_mem _ (h k u hu hm)
  | move _ call frame frame' r' events hmover hcall heffect =>
      cases heffect with
      | quiet _ _ _ _ hkept hleases hseq hlog hrel hrel' hclear hclear' hpend hroute =>
          -- A mark is older than the section, or the section logs the selection.
          intro k u hu hm
          rcases handle_of_core w.reg r' events hkept k u hu with ⟨u₀, hu₀, hhandle, _⟩
          rw [← hhandle]
          rcases hkept.selects k u₀ u hu₀ hu hm with hm₀ | hsel
          · exact List.mem_append_right _ (h k u₀ hu₀ hm₀)
          · exact List.mem_append_left _ hsel
      | grant key clientKind pc record counters hrecord hpc =>
          intro k u hu hm
          rcases get?_grantLease _ _ _ _ _ _ k u hu with ⟨_, hgrant⟩ | ⟨_, hold⟩
          · rw [hgrant] at hm
            exact absurd hm Bool.false_ne_true
          · exact List.mem_cons_of_mem _ (h k u hold hm)
      | register key clientKind handle counters hnone =>
          intro k u hu hm
          rcases get?_grantLease _ _ _ _ _ _ k u hu with ⟨_, hgrant⟩ | ⟨_, hold⟩
          · rw [hgrant] at hm
            exact absurd hm Bool.false_ne_true
          · exact List.mem_append_right _ (h k u hold hm)
      | take id lease hlease => exact h
      | decrement id key =>
          intro k u hu hm
          rcases get?_releaseSession _ _ _ k u hu with ⟨u₀, hu₀, hhandle, hmark⟩
          rw [← hhandle]
          exact h k u₀ hu₀ (by rw [hmark]; exact hm)
      | removeSession key =>
          intro k u hu hm
          exact h k u (get?_removeSession _ key k u hu).2 hm
      | removeLeases key => exact h

/-! ### What the condition does -/

/-- A grant on an unmarked record, or on a session just registered, spares the
    selected ones. -/
theorem spares_grant (w : World) (h : SparesSelected w) (call : CallId) (lease : Lease)
    (frame' : Frame) (key : SessionKey) (clientKind : Option ClientKind)
    (record : SessionRecord) (counters : RegistryCounters) (events : List Event)
    (hevents : ∀ event ∈ events, event.isGranted = false ∧
      ∀ runtime, event ≠ .selected runtime)
    (hnot : Event.selected record.handle.runtime ∉ w.log) :
    SparesSelected (w.moved call (w.reg.grantLease key clientKind record counters w.now).1 frame'
      (.granted call lease record.handle.runtime :: events)) := by
  have hsel : ∀ runtime, Event.selected runtime ∈ events ++ w.log →
      Event.selected runtime ∈ w.log := by
    intro runtime hmem
    rcases List.mem_append.mp hmem with hmem | hmem
    · exact absurd rfl ((hevents _ hmem).2 runtime)
    · exact hmem
  have hspare : GrantsSpareSelected (events ++ w.log) := by
    clear hsel
    induction events with
    | nil => exact h.grants
    | cons event events ih =>
        have hrest := ih (fun e he => hevents e (List.mem_cons_of_mem _ he))
        cases event with
        | granted c l rt =>
            exact absurd (hevents _ List.mem_cons_self).1 (by simp [Event.isGranted])
        | _ => exact hrest
  constructor
  · exact ⟨fun hmem => hnot (hsel _ hmem), hspare⟩
  · intro k u hu hmem
    have hmem' : Event.selected u.handle.runtime ∈ w.log :=
      hsel _ ((List.mem_cons.mp hmem).resolve_left (by simp))
    rcases get?_grantLease _ _ _ _ _ _ k u hu with ⟨_, hgrant⟩ | ⟨_, hold⟩
    · rw [hgrant] at hmem'
      exact absurd hmem' hnot
    · exact h.marked k u hold hmem'

theorem spares_keep (w w' : World) (a : Action) (hfresh : Fresh w) (h : SparesSelected w)
    (hstep : w.step a = some w') (hcond : UnmarkedCond w a) : SparesSelected w' := by
  cases step_effect w w' a hstep with
  | tick span => exact ⟨h.grants, h.marked⟩
  | start call method hfree => exact ⟨h.grants, h.marked⟩
  | spawnOk call key clientKind g initializeResult hcall =>
      exact ⟨h.grants, fun k u hu hmem =>
        h.marked k u hu ((List.mem_cons.mp hmem).resolve_left (by simp))⟩
  | move _ call frame frame' r' events hmover hcall heffect =>
      rw [UnmarkedCond, hmover, Option.bind_some, hcall] at hcond
      cases heffect with
      | quiet _ _ _ _ hkept hleases hseq hlog hrel hrel' hclear hclear' hpend hroute =>
          refine ⟨grantsSpareSelected_append events w.log hlog h.grants, fun k u hu hmem => ?_⟩
          rcases handle_of_core w.reg r' events hkept k u hu with ⟨u₀, hu₀, hhandle, _⟩
          rcases List.mem_append.mp hmem with hmem | hmem
          · -- Selected just now: it is the session under its only key.
            rcases hkept.selected _ hmem with ⟨k', u', hu', hrt, hmark⟩
            rcases handle_of_core w.reg r' events hkept k' u' hu' with ⟨u₁, hu₁, hhandle₁, _⟩
            have hreg := hfresh.registered k u₀ hu₀
            have hreg₁ := hfresh.registered k' u₁ hu₁
            rw [hhandle] at hreg
            rw [hhandle₁, hrt] at hreg₁
            have hsame : some u' = some u := by
              rw [← hu', ← hfresh.single k k' _ hreg hreg₁]
              exact hu
            rw [← Option.some.inj hsame]
            exact hmark
          · rw [← hhandle] at hmem
            exact hkept.marked k u₀ u hu₀ hu (h.marked k u₀ hu₀ hmem)
      | grant key clientKind pc record counters hrecord hpc =>
          have hunmarked : record.terminating = false := by
            rcases hpc with ⟨g, rfl⟩ | ⟨handle, rfl⟩ <;> exact hcond record hrecord
          refine spares_grant w h call _ _ key clientKind record counters [] (by simp) ?_
          intro hmem
          rw [h.marked key record hrecord hmem] at hunmarked
          exact absurd hunmarked (by simp)
      | register key clientKind handle counters hnone =>
          refine spares_grant w h call _ _ key clientKind (SessionRecord.new handle w.now)
            counters [_] (by simp [Event.isGranted]) ?_
          intro hmem
          rcases hfresh.selected _ hmem with ⟨k, hreg⟩
          exact hfresh.pendingNew call _ (key, handle) hcall rfl k hreg
      | take id lease hlease => exact ⟨h.grants, h.marked⟩
      | decrement id key =>
          refine ⟨h.grants, fun k u hu hmem => ?_⟩
          rcases get?_releaseSession _ _ _ k u hu with ⟨u₀, hu₀, hhandle, hmark⟩
          rw [← hmark]
          exact h.marked k u₀ hu₀ (by rw [hhandle]; exact hmem)
      | removeSession key =>
          exact ⟨h.grants, fun k u hu hmem =>
            h.marked k u (get?_removeSession _ key k u hu).2 hmem⟩
      | removeLeases key => exact ⟨h.grants, h.marked⟩

/-- What a grant section leaves when it finds a record: the newest event is a
    grant on that record's session. -/
theorem log_of_found (w w' : World) (a : Action) (call : CallId) (key : SessionKey)
    (clientKind : Option ClientKind) (pc : AcquirePc) (record : SessionRecord)
    (hmover : a.mover = some call)
    (hcall : w.calls.get? call = some (.acquire key clientKind pc))
    (hpc : (∃ g, pc = .lookup g) ∨ ∃ handle, pc = .publish handle)
    (hrecord : w.reg.sessions.get? key = some record) (hstep : w.step a = some w') :
    ∃ lease, w'.log = .granted call lease record.handle.runtime :: w.log := by
  rcases sect_of_mover w w' a call _ hmover hcall
    (by rcases hpc with ⟨g, rfl⟩ | ⟨handle, rfl⟩ <;> simp) (by simp) hstep
    with ⟨r', frame', events, hsec, rfl⟩
  rcases hpc with ⟨g, rfl⟩ | ⟨handle, rfl⟩
  · simp only [Frame.section, AcquirePc.section, hrecord, Option.map_some, Option.some.injEq,
      Prod.mk.injEq] at hsec
    exact ⟨_, by rw [← hsec.2.2]; rfl⟩
  · simp only [Frame.section, AcquirePc.section, SessionRegistry.publishRecord, hrecord,
      Option.getD_some, Option.isSome_some, if_true, Option.map_some, Option.some.injEq,
      Prod.mk.injEq] at hsec
    exact ⟨_, by rw [← hsec.2.2]; rfl⟩

theorem spares_need (w w' : World) (a : Action) (hmarked : MarkedSelected w)
    (hstep : w.step a = some w') (h' : SparesSelected w') : UnmarkedCond w a := by
  -- A marked record was selected, and the grant on it is in the log.
  have hfound : ∀ call key clientKind pc, a.mover = some call →
      w.calls.get? call = some (.acquire key clientKind pc) →
      ((∃ g, pc = .lookup g) ∨ ∃ handle, pc = .publish handle) →
      ∀ record ∈ w.reg.sessions.get? key, record.terminating = false := by
    intro call key clientKind pc hmover hcall hpc record hrecord
    rcases log_of_found w w' a call key clientKind pc record hmover hcall hpc hrecord hstep
      with ⟨lease, hlog⟩
    have hgrants := h'.grants
    rw [hlog] at hgrants
    cases hterm : record.terminating with
    | false => rfl
    | true => exact absurd (hmarked key record hrecord hterm) hgrants.1
  unfold UnmarkedCond
  cases hmover : a.mover with
  | none => trivial
  | some call =>
      rw [Option.bind_some]
      split
      · rename_i key clientKind g hcall
        exact hfound call key clientKind _ hmover hcall (Or.inl ⟨g, rfl⟩)
      · rename_i key clientKind handle hcall
        exact hfound call key clientKind _ hmover hcall (Or.inr ⟨handle, rfl⟩)
      · trivial

/-- In every run, selected sessions are spared in every state passed through if
    and only if no grant finds a marked record. -/
theorem spares_iff (idleTtl : Duration) (as : List Action) :
    Always step SparesSelected (init idleTtl) as ↔ Along step UnmarkedCond (init idleTtl) as := by
  refine always_iff_along (I := fun w => Fresh w ∧ MarkedSelected w) ?_ ?_ as _
    ⟨fresh_init idleTtl, marked_init idleTtl⟩ (spares_init idleTtl) (along_true as _)
  · intro w a w' hI hP hstep _ hcond
    exact ⟨⟨fresh_step w w' a hI.1 hstep, marked_step w w' a hI.2 hstep⟩,
      spares_keep w w' a hI.1 hP hstep hcond⟩
  · intro w a w' hI _ hstep _ hP'
    exact spares_need w w' a hI.2 hstep hP'

/-- A client attaches and releases, the idle sweep selects the session, and
    another client attaches while it is being shut down. -/
def attachDuringShutdown : List Action :=
  acquireFresh 0 ++ releaseAll 1 "lease_1" ++ [.tick 5, .start 2 .idleCandidates, .sect 2] ++
    acquireReuse 3

theorem attachDuringShutdown_isSome :
    (run step (init 5) attachDuringShutdown).isSome = true := by
  decide

/-- Selected sessions are not always spared: the second client gets a lease on
    the session being shut down, and the mark is cleared. -/
theorem attached_while_dying :
    ¬ ∀ (idleTtl : Duration) (as : List Action) (w : World),
      run step (init idleTtl) as = some w → w.SparesSelected := by
  intro hall
  have hspares := hall 5 attachDuringShutdown ((run step (init 5) attachDuringShutdown).get
    attachDuringShutdown_isSome) (Option.some_get _).symm
  have hgrants : ¬ GrantsSpareSelected ((run step (init 5) attachDuringShutdown).get
      attachDuringShutdown_isSome).log := by decide
  exact hgrants hspares.grants

end World

end Lspee
