import Lspee.Core.Control
import Lspee.Theory.Leases

/-!
# Leases and the End of a Connection

What becomes of the leases a client was granted on its control connection in
`mux_control` mode once the connection has ended. A client that crashes sends no
`Release`, so it is up to the daemon to release its leases, and the
specification says that it does.

The connection does not know which leases it has granted, and none of its ends
releases anything. A lease stays in the registry unless somebody takes it out:
the client with a `Release`, another client that names it, or an evictor that
removes its session. `disconnect_exact` says that nothing else does.

## Main definitions

* `Control.Disconnected`: The leases the client did not release are out.
* `Control.AllWithdrawn`: Somebody took each of them out.

## Theorems

* `hosts_world`: The connection makes its calls in the world.
* `ledger_step`: The leases granted on the connection were granted.
* `disconnect_exact`: The condition is exact.
* `lease_outlives_client`: A run that breaks it.
-/

namespace Lspee

open Transition

namespace Control

/-- The step of the world an action is. -/
def inner : ControlAction → Option Action
  | .world a => some a
  | _ => none

/-- The leases granted on the connection that the client did not release are not
    in the registry. -/
def Disconnected (s : Control) : Prop :=
  ∀ lease ∈ s.granted, lease.id ∉ s.released → s.world.reg.leases.get? lease.id = none

/-- Of the leases granted on the connection, each was released by the client or
    taken out by a step of the run: the release or the removal of another
    task. -/
def AllWithdrawn (init : Control) (as : List ControlAction) (s : Control) : Prop :=
  ∀ lease ∈ s.granted, lease.id ∉ s.released →
    ¬Along step (fun s a => ¬WithdrawsIn Control.world inner lease.id s a) init as

/-! ### The connection in the world -/

/-- What a step of the connection itself does: at most it begins a call, and it
    adds to the granted leases only what an attach has returned. -/
structure Own (s s' : Control) : Prop where
  world : s'.world = s.world ∨
    ∃ call method, s.world.step (.start call method) = some s'.world
  granted : ∀ lease ∈ s'.granted, lease ∈ s.granted ∨
    ∃ call handle, s.world.calls.get? call = some (.attached lease handle)

/-- A step that touches neither the world nor the granted leases. -/
theorem own_of_eq (s s' : Control) (hworld : s'.world = s.world)
    (hgranted : s'.granted = s.granted) : Own s s' where
  world := Or.inl hworld
  granted := by
    intro lease hlease
    rw [hgranted] at hlease
    exact Or.inl hlease

theorem own_write (s s' : Control) (response : ControlEnvelope) (stop : Bool)
    (h : some (s.write response stop) = some s') : Own s s' := by
  rw [Option.some.injEq] at h
  exact own_of_eq s s' (by rw [← h]; rfl) (by rw [← h]; rfl)

theorem own_await (s s₀ s' : Control) (call : CallId) (method : Method) (pc : ControlPc)
    (hworld : s₀.world = s.world) (hgranted : s₀.granted = s.granted)
    (h : s₀.await call method pc = some s') : Own s s' := by
  rcases Option.map_eq_some_iff.mp h with ⟨w, hw, hs'⟩
  rw [hworld] at hw
  refine ⟨Or.inr ⟨call, method, by rw [hw, ← hs']⟩, fun lease hlease => Or.inl ?_⟩
  rw [← hs'] at hlease
  rw [← hgranted]
  exact hlease

theorem own_dispatch (s s' : Control) (req : ControlEnvelope) (call : CallId)
    (h : s.dispatchControlRequest req call = some s') : Own s s' := by
  unfold dispatchControlRequest at h
  split at h
  · unfold dispatchAttach at h
    split at h
    · exact own_write s s' _ _ h
    · split at h
      · exact own_write s s' _ _ h
      · exact own_await s s s' call _ _ rfl rfl h
  · unfold dispatchRelease at h
    split at h
    · exact own_write s s' _ _ h
    · refine own_await s _ s' call _ _ ?_ ?_ h <;> rfl
  · unfold dispatchCall at h
    split at h
    · exact own_write s s' _ _ h
    · exact own_await s s s' call _ _ rfl rfl h
  · unfold dispatchNotify at h
    split at h
    · exact own_write s s' _ _ h
    · exact own_await s s s' call _ _ rfl rfl h
  · exact own_of_eq s s' (by rw [← Option.some.inj h]; rfl) (by rw [← Option.some.inj h]; rfl)
  · rw [← Option.some.inj h]
    unfold dispatchShutdown
    split <;> exact own_of_eq s _ rfl rfl
  · exact own_write s s' _ _ h

theorem own_handleLine (s s' : Control) (line : Line) (call : CallId)
    (h : s.handleLine line call = some s') : Own s s' := by
  unfold handleLine at h
  split at h
  · exact own_write s s' _ _ h
  · split at h
    · exact own_write s s' _ _ h
    · simp only at h
      split at h
      · exact own_write s s' _ _ h
      · split at h
        · exact own_write s s' _ _ h
        · exact own_dispatch s s' _ call h

/-- The only leases that are added are those of an attach that has returned. -/
theorem own_attached (s : Control) (id : Option String) (mode : StreamMode) (lease : Lease)
    (handle : Option SessionHandle) (call : CallId)
    (hcall : s.world.calls.get? call = some (.attached lease handle)) :
    Own s (s.attached id mode lease handle) := by
  have hgranted : (s.attached id mode lease handle).world = s.world ∧
      ((s.attached id mode lease handle).granted = s.granted ∨
        (s.attached id mode lease handle).granted = lease :: s.granted) := by
    cases handle <;> cases mode <;> simp [attached, write]
  refine ⟨Or.inl hgranted.1, fun l hl => ?_⟩
  rcases hgranted.2 with hsame | hnew
  · rw [hsame] at hl
    exact Or.inl hl
  · rw [hnew, List.mem_cons] at hl
    rcases hl with heq | hold
    · rw [heq]
      exact Or.inr ⟨call, handle, hcall⟩
    · exact Or.inl hold

theorem own_resume (s s' : Control) (h : s.resume = some s') : Own s s' := by
  unfold resume at h
  split at h
  · split at h
    · exact own_write s s' _ _ h
    · rename_i call lease handle hcall
      rw [← Option.some.inj h]
      exact own_attached s _ _ lease handle _ hcall
    · exact absurd h (by simp)
  all_goals
    first
    | exact absurd h (by simp)
    | split at h
      all_goals
        first
        | exact own_write s s' _ _ h
        | exact absurd h (by simp)

theorem own_step (s s' : Control) (a : ControlAction) (h : s.step a = some s')
    (hinner : inner a = none) : Own s s' := by
  cases a with
  | world b => exact absurd hinner (by simp [inner])
  | line line call =>
      simp only [step] at h
      split at h
      · exact own_handleLine s s' line call h
      · exact absurd h (by simp)
  | eof =>
      simp only [step] at h
      split at h
      · exact own_of_eq s s' (by rw [← Option.some.inj h]) (by rw [← Option.some.inj h])
      · exact absurd h (by simp)
  | readError =>
      simp only [step] at h
      split at h
      · exact own_of_eq s s' (by rw [← Option.some.inj h]) (by rw [← Option.some.inj h])
      · exact absurd h (by simp)
  | resume => exact own_resume s s' h
  | bound endpoint call =>
      simp only [step, bound] at h
      split at h
      · exact own_write s s' _ _ h
      · exact own_await s s s' call _ _ rfl rfl h
      · exact absurd h (by simp)
  | sampled memoryTotal =>
      simp only [step, sampled] at h
      split at h
      · exact own_write s s' _ _ h
      · exact absurd h (by simp)
  | wrote ok =>
      -- An answer that could not be written ends the loop, and the leases stay.
      simp only [step, wrote] at h
      split at h
      · split at h
        · exact own_of_eq s s' (by rw [← Option.some.inj h]) (by rw [← Option.some.inj h])
        · exact own_of_eq s s' (by rw [← Option.some.inj h]) (by rw [← Option.some.inj h])
      · exact absurd h (by simp)

theorem step_world (s s' : Control) (b : Action) (h : s.step (.world b) = some s') :
    s.world.step b = some s'.world ∧ s'.granted = s.granted := by
  rcases Option.map_eq_some_iff.mp h with ⟨w, hw, hs'⟩
  rw [← hs']
  exact ⟨hw, rfl⟩

theorem hosts_world : Hosts step Control.world inner where
  inside := by
    intro s a s' b hstep hinner
    cases a with
    | world b' =>
        rw [inner, Option.some.injEq] at hinner
        rw [← hinner]
        exact (step_world s s' b' hstep).1
    | _ => exact absurd hinner (by simp [inner])
  outside := fun s a s' hstep hinner => (own_step s s' a hstep hinner).world

/-! ### The leases of the connection -/

/-- The leases granted on the connection were granted by the registry. -/
def Ledger (s : Control) : Prop :=
  ∀ lease ∈ s.granted, ∃ runtime, grantedOn lease.id s.world.log = some runtime

theorem ledger_step (s s' : Control) (a : ControlAction) (hsound : World.LeaseSound s.world)
    (h : Ledger s) (hstep : s.step a = some s') : Ledger s' := by
  intro lease hlease
  have hbefore : ∃ runtime, grantedOn lease.id s.world.log = some runtime := by
    cases hinner : inner a with
    | some b =>
        cases a with
        | world b' =>
            rw [(step_world s s' b' hstep).2] at hlease
            exact h lease hlease
        | _ => exact absurd hinner (by simp [inner])
    | none =>
        rcases (own_step s s' a hstep hinner).granted lease hlease with hold | ⟨call, handle, hc⟩
        · exact h lease hold
        · exact hsound.attached call lease handle hc
  rcases host_step hosts_world s s' a hstep with hsame | ⟨b, hb, _⟩
  · rw [hsame]
    exact hbefore
  · exact wasGranted_step _ _ b hb lease.id hbefore

/-- What every run keeps. -/
theorem ledger_run (as : List ControlAction) (s t : Control) (hsound : World.LeaseSound s.world)
    (h : Ledger s) (hrun : run step s as = some t) : Ledger t := by
  have hend := run_invariant (I := fun s => World.LeaseSound s.world ∧ Ledger s)
    (fun s a s' hs hstep _ => ⟨leaseSound_host hosts_world s s' a hs.1 hstep,
      ledger_step s s' a hs.1 hs.2 hstep⟩) as s t hrun ⟨hsound, h⟩ (along_true as s)
  exact hend.2

/-- In whatever state the connection is, and so however it has ended: the leases
    it was granted and the client did not release are out if somebody took each
    of them out, and only then. The other tasks may have done anything before
    the connection was accepted. -/
theorem disconnect_exact (idleTtl : Duration) (settings : MemoryBudgetSettings)
    (startedAt : Instant) (as : List ControlAction) (s : Control)
    (hrun : run step (accept (World.init idleTtl) settings startedAt) as = some s) :
    (Along step (NewIdIn Control.world inner)
        (accept (World.init idleTtl) settings startedAt) as →
      AllWithdrawn (accept (World.init idleTtl) settings startedAt) as s → Disconnected s) ∧
    (Disconnected s → AllWithdrawn (accept (World.init idleTtl) settings startedAt) as s) := by
  have hsound : World.LeaseSound (accept (World.init idleTtl) settings startedAt).world :=
    World.leaseSound_init idleTtl
  constructor
  · intro hnew hall lease hlease hunreleased
    exact gone_run hosts_world lease.id as _ s hrun hsound hnew (hall lease hlease hunreleased)
  · intro hdisc lease hlease hunreleased hnot
    have hgranted := ledger_run as _ s hsound (fun l hl => absurd hl (by simp [accept])) hrun
      lease hlease
    have hrecorded := recorded_run hosts_world lease.id as _ s hrun
      (fun h => absurd h (by simp [accept, World.init, grantedOn])) hnot hgranted
    exact hrecorded (hdisc lease hlease hunreleased)

/-! ### Two clients -/

/-- A client's `Attach` without capabilities. -/
def attachLine : Line where
  len := 189
  parsed := some (.obj [("id", .str "1"),
    ("payload", .obj [
      ("client_meta", .obj [("client_name", .str "editor"), ("client_version", .str "1.0")]),
      ("session_key", .obj [("config_hash", .str "hash"), ("lsp_id", .str "rust-analyzer"),
        ("project_root", .str "/project")])]),
    ("type", .str "Attach"), ("v", .num 1)])

/-- The `Release` of the first lease. -/
def releaseLine : Line where
  len := 67
  parsed := some (.obj [("id", .str "2"), ("payload", .obj [("lease_id", .str "lease_1")]),
    ("type", .str "Release"), ("v", .num 1)])

/-- The client attaches and is answered. -/
def attachAnswered : List ControlAction :=
  [.line attachLine 0] ++ (acquireFresh 0).tail.map .world ++
    [.world (.sect 0), .resume, .wrote true]

/-- The client attaches, releases and closes the connection. -/
def attachReleaseClose : List ControlAction :=
  attachAnswered ++ [.line releaseLine 1] ++ (releaseAll 1 "lease_1").tail.map .world ++
    [.resume, .wrote true, .eof]

theorem attachReleaseClose_isSome :
    (run step (accept (World.init 5) ⟨none, none, 5⟩ 0) attachReleaseClose).isSome = true := by
  decide

theorem disconnect_attachReleaseClose :
    Disconnected ((run step (accept (World.init 5) ⟨none, none, 5⟩ 0) attachReleaseClose).get
      attachReleaseClose_isSome) := by
  refine (disconnect_exact 5 ⟨none, none, 5⟩ 0 attachReleaseClose _
    (Option.some_get _).symm).1 (by decide) ?_
  have hreleased : ∀ lease ∈ ((run step (accept (World.init 5) ⟨none, none, 5⟩ 0)
      attachReleaseClose).get attachReleaseClose_isSome).granted,
      lease.id ∈ ((run step (accept (World.init 5) ⟨none, none, 5⟩ 0)
        attachReleaseClose).get attachReleaseClose_isSome).released := by decide
  exact fun lease hlease hunreleased => absurd (hreleased lease hlease) hunreleased

/-- The client attaches and crashes. -/
def attachCrash : List ControlAction := attachAnswered ++ [.eof]

theorem attachCrash_isSome :
    (run step (accept (World.init 5) ⟨none, none, 5⟩ 0) attachCrash).isSome = true := by
  decide

/-- A lease can outlive its client: after the end of the connection it is still
    in the registry, and its session is in use. -/
theorem lease_outlives_client :
    ¬ ∀ (idleTtl : Duration) (settings : MemoryBudgetSettings) (startedAt : Instant)
      (as : List ControlAction) (s : Control) (ok : Bool),
      run step (accept (World.init idleTtl) settings startedAt) as = some s →
      s.pc = .returned ok → Disconnected s := by
  intro hall
  have hdisc := hall 5 ⟨none, none, 5⟩ 0 attachCrash
    ((run step (accept (World.init 5) ⟨none, none, 5⟩ 0) attachCrash).get attachCrash_isSome) true
    (Option.some_get _).symm rfl
  have hkept : ((run step (accept (World.init 5) ⟨none, none, 5⟩ 0) attachCrash).get
      attachCrash_isSome).world.reg.leases.get? "lease_1" ≠ none := by decide
  exact hkept (hdisc ⟨"lease_1", demoKey⟩ (by decide) (by decide))

end Control

end Lspee
