import Lspee.Core.Connection
import Lspee.Theory.Disconnect
import Lspee.Theory.Failure
import Lspee.Theory.Progress

/-!
# What a Connection Waits For

A control connection that has made a call of the registry waits until the call has
returned. It finds the call among those of the registry, under the id it made it with
and as a call of the kind it made (`Awaits`), and stays there until the call has
returned what the connection awaits; then it can go on (`resume_settled`), and before
that it cannot (`settled_of_resume`). Everything else it waits for it gets from the
system: the socket of a dedicated endpoint, the memory in use, the end of a write.

## Main definitions

* `ControlPc.awaitedKind`: The call that is awaited.
* `Control.Awaits`: The awaited call is there.
* `Control.AwaitsOnly`: And it is this one.
* `Connection.inner`: The step of the world an action is.

## Theorems

* `awaitsOnly_handleLine`: What a line makes the connection wait for.
* `awaits_step`: A connection finds the call it awaits.
* `dispatch_fresh`: A request can be dispatched.
* `resume_settled`, `settled_of_resume`: When the connection goes on.
* `control_step`: A step with the bytes is a step without them.
-/

namespace Lspee

open Transition Utf8

/-! ### The call that is awaited -/

/-- The call that is awaited, and what it is a call of. -/
def ControlPc.awaitedKind : ControlPc → Option (CallId × CallKind)
  | .attaching _ _ call => some (call, .attach)
  | .unattaching _ _ call => some (call, .release)
  | .releasing _ _ call => some (call, .release)
  | .calling _ _ call => some (call, .forward)
  | .notifying _ _ call => some (call, .forward)
  | _ => none

namespace Control

/-- The connection finds the call it awaits. -/
def Awaits (s : Control) : Prop :=
  ∀ call kind, s.pc.awaitedKind = some (call, kind) →
    ∃ frame, s.world.calls.get? call = some frame ∧ frame.kind = kind

theorem awaits_of_none (s : Control) (h : s.pc.awaitedKind = none) : s.Awaits := by
  intro call kind hcall
  rw [h] at hcall
  cases hcall

/-- The connection finds the call it awaits, and it is this one. -/
def AwaitsOnly (s : Control) (call : CallId) : Prop :=
  s.Awaits ∧ ∀ call' kind, s.pc.awaitedKind = some (call', kind) → call' = call

theorem awaitsOnly_of_none (s : Control) (call : CallId) (h : s.pc.awaitedKind = none) :
    s.AwaitsOnly call :=
  ⟨awaits_of_none s h, fun call' kind hcall => by rw [h] at hcall; cases hcall⟩

theorem awaitsOnly_write (s s' : Control) (call : CallId) (response : ControlEnvelope)
    (stop : Bool) (h : some (s.write response stop) = some s') : s'.AwaitsOnly call := by
  rw [← Option.some.inj h]
  exact awaitsOnly_of_none _ call rfl

/-- A connection that makes a call awaits that call. -/
theorem awaitsOnly_await (s s' : Control) (call : CallId) (method : Method) (pc : ControlPc)
    (hpc : pc.awaitedKind = some (call, (method.frame s.world.now).kind))
    (h : s.await call method pc = some s') : s'.AwaitsOnly call := by
  rcases progress_await s s' call method pc h with ⟨hpc', _, hcall⟩
  refine ⟨fun call' kind hawaited => ?_, fun call' kind hawaited => ?_⟩
  · rw [hpc', hpc, Option.some.injEq, Prod.mk.injEq] at hawaited
    rw [← hawaited.1, ← hawaited.2]
    exact ⟨_, hcall, rfl⟩
  · rw [hpc', hpc, Option.some.injEq, Prod.mk.injEq] at hawaited
    exact hawaited.1.symm

theorem awaitsOnly_dispatch (s s' : Control) (req : ControlEnvelope) (call : CallId)
    (h : s.dispatchControlRequest req call = some s') : s'.AwaitsOnly call := by
  unfold dispatchControlRequest at h
  split at h
  -- A request makes one call at most, and that is the one awaited.
  · unfold dispatchAttach at h
    split at h
    · exact awaitsOnly_write s s' call _ _ h
    · split at h
      · exact awaitsOnly_write s s' call _ _ h
      · exact awaitsOnly_await s s' call _ _ rfl h
  · unfold dispatchRelease at h
    split at h
    · exact awaitsOnly_write s s' call _ _ h
    · exact awaitsOnly_await _ s' call _ _ rfl h
  · unfold dispatchCall at h
    split at h
    · exact awaitsOnly_write s s' call _ _ h
    · exact awaitsOnly_await s s' call _ _ rfl h
  · unfold dispatchNotify at h
    split at h
    · exact awaitsOnly_write s s' call _ _ h
    · exact awaitsOnly_await s s' call _ _ rfl h
  · rw [← Option.some.inj h]
    exact awaitsOnly_of_none _ call rfl
  · rw [← Option.some.inj h]
    unfold dispatchShutdown
    split
    · exact awaitsOnly_of_none _ call rfl
    · exact awaitsOnly_of_none _ call rfl
  · exact awaitsOnly_write s s' call _ _ h

theorem awaitsOnly_handleLine (s s' : Control) (line : Line) (call : CallId)
    (h : s.handleLine line call = some s') : s'.AwaitsOnly call := by
  unfold handleLine at h
  split at h
  · exact awaitsOnly_write s s' call _ _ h
  · split at h
    · exact awaitsOnly_write s s' call _ _ h
    · simp only at h
      split at h
      · exact awaitsOnly_write s s' call _ _ h
      · split at h
        · exact awaitsOnly_write s s' call _ _ h
        · exact awaitsOnly_dispatch s s' _ call h

theorem awaitedKind_attached (s : Control) (id : Option String) (mode : StreamMode)
    (lease : Lease) (handle : Option SessionHandle) :
    (s.attached id mode lease handle).pc.awaitedKind = none := by
  unfold attached
  cases handle with
  | none => rfl
  | some handle => cases mode <;> rfl

theorem awaitedKind_write (s s' : Control) (response : ControlEnvelope) (stop : Bool)
    (h : some (s.write response stop) = some s') : s'.pc.awaitedKind = none := by
  rw [← Option.some.inj h]
  rfl

/-- A connection whose call has returned awaits no other. -/
theorem awaitedKind_resume (s s' : Control) (h : s.resume = some s') :
    s'.pc.awaitedKind = none := by
  unfold resume at h
  split at h
  · split at h
    · exact awaitedKind_write s s' _ _ h
    · rw [← Option.some.inj h]
      exact awaitedKind_attached s _ _ _ _
    · cases h
  all_goals
    first
    | cases h
    | split at h
      all_goals
        first
        | exact awaitedKind_write s s' _ _ h
        | cases h

theorem awaits_step (s s' : Control) (a : ControlAction) (hstep : s.step a = some s')
    (h : s.Awaits) : s'.Awaits := by
  cases a with
  | world a =>
      rcases Option.map_eq_some_iff.mp hstep with ⟨w, hw, rfl⟩
      intro call kind hcall
      rcases h call kind hcall with ⟨frame, hframe, hkind⟩
      -- A call stays a call of its method.
      rcases World.kind_step s.world w a hw call frame hframe with ⟨frame', hframe', hkind'⟩
      exact ⟨frame', hframe', hkind'.trans hkind⟩
  | line line call =>
      simp only [step] at hstep
      split at hstep
      · exact (awaitsOnly_handleLine s s' line call hstep).1
      · cases hstep
  | eof =>
      simp only [step] at hstep
      split at hstep
      · rw [← Option.some.inj hstep]
        exact awaits_of_none _ rfl
      · cases hstep
  | readError =>
      simp only [step] at hstep
      split at hstep
      · rw [← Option.some.inj hstep]
        exact awaits_of_none _ rfl
      · cases hstep
  | resume => exact awaits_of_none _ (awaitedKind_resume s s' hstep)
  | bound endpoint call =>
      simp only [step, bound] at hstep
      split at hstep
      · exact (awaitsOnly_write s s' 0 _ _ hstep).1
      · exact (awaitsOnly_await s s' call _ _ rfl hstep).1
      · cases hstep
  | sampled memoryTotal =>
      simp only [step, sampled] at hstep
      split at hstep
      · exact (awaitsOnly_write s s' 0 _ _ hstep).1
      · cases hstep
  | wrote ok =>
      simp only [step, wrote] at hstep
      split at hstep
      · rename_i response stop _
        cases ok <;> cases stop <;> simp at hstep <;> rw [← hstep] <;> exact awaits_of_none _ rfl
      · cases hstep

/-! ### What a connection can do next -/

/-- A call can be made under an id that is not in use. -/
theorem await_fresh (s : Control) (call : CallId) (method : Method) (pc : ControlPc)
    (hfree : s.world.calls.get? call = none) : ∃ s', s.await call method pc = some s' := by
  simp only [await, World.step, hfree, Option.map_some]
  exact ⟨_, rfl⟩

theorem dispatch_fresh (s : Control) (req : ControlEnvelope) (call : CallId)
    (hfree : s.world.calls.get? call = none) :
    ∃ s', s.dispatchControlRequest req call = some s' := by
  unfold dispatchControlRequest
  split
  · unfold dispatchAttach
    split
    · exact ⟨_, rfl⟩
    · split
      · exact ⟨_, rfl⟩
      · exact await_fresh s call _ _ hfree
  · unfold dispatchRelease
    split
    · exact ⟨_, rfl⟩
    · exact await_fresh _ call _ _ hfree
  · unfold dispatchCall
    split
    · exact ⟨_, rfl⟩
    · exact await_fresh s call _ _ hfree
  · unfold dispatchNotify
    split
    · exact ⟨_, rfl⟩
    · exact await_fresh s call _ _ hfree
  · exact ⟨_, rfl⟩
  · exact ⟨_, rfl⟩
  · exact ⟨_, rfl⟩

theorem bound_writes (s : Control) (id : Option String) (lease : Lease) (handle : SessionHandle)
    (path : String) (call : CallId) (hpc : s.pc = .binding id lease handle) :
    ∃ s' r, s.bound (.ok path) call = some s' ∧ s'.pc = .writing r false ∧ r.id = id := by
  simp only [bound, hpc, Option.some.injEq]
  exact ⟨_, _, rfl, rfl, rfl⟩

theorem sampled_writes (s : Control) (id : Option String) (sessions leases : Nat)
    (counters : RegistryCounters) (memoryTotal : Nat)
    (hpc : s.pc = .sampling id sessions leases counters) :
    ∃ s' r, s.sampled memoryTotal = some s' ∧ s'.pc = .writing r false ∧ r.id = id := by
  simp only [sampled, hpc, Option.some.injEq]
  exact ⟨_, _, rfl, rfl, rfl⟩

/-- A connection whose call has returned goes on. -/
theorem resume_settled (s : Control) (call : CallId) (kind : CallKind) (frame : Frame)
    (hpc : s.pc.awaitedKind = some (call, kind)) (hcall : s.world.calls.get? call = some frame)
    (hkind : frame.kind = kind) (hsettled : frame.settled = true) :
    ∃ s', s.resume = some s' := by
  unfold ControlPc.awaitedKind at hpc
  split at hpc
  · rename_i id mode call' hattaching
    cases hpc
    cases frame with
    | acquire key clientKind pc =>
        cases pc with
        | returned result =>
            cases result with
            -- An acquire with a lease has still to look its session up.
            | ok lease => cases hsettled
            | error error => exact ⟨_, by simp only [resume, hattaching, hcall]; rfl⟩
        | _ => cases hsettled
    | attached lease handle => exact ⟨_, by simp only [resume, hattaching, hcall]; rfl⟩
    | _ => cases hkind
  · rename_i id error call' hunattaching
    cases hpc
    cases frame with
    | release id' pc =>
        cases pc with
        | returned result => exact ⟨_, by simp only [resume, hunattaching, hcall]; rfl⟩
        | _ => cases hsettled
    | _ => cases hkind
  · rename_i id leaseId call' hreleasing
    cases hpc
    cases frame with
    | release id' pc =>
        cases pc with
        | returned result =>
            cases result with
            | none => exact ⟨_, by simp only [resume, hreleasing, hcall]; rfl⟩
            | some refCount => exact ⟨_, by simp only [resume, hreleasing, hcall]; rfl⟩
        | _ => cases hsettled
    | _ => cases hkind
  · rename_i id leaseId call' hcalling
    cases hpc
    cases frame with
    | forward kind' id' message pc =>
        cases pc with
        | returned result =>
            rcases result with error | ⟨_ | response⟩
            · exact ⟨_, by simp only [resume, hcalling, hcall]; rfl⟩
            · exact ⟨_, by simp only [resume, hcalling, hcall]; rfl⟩
            · exact ⟨_, by simp only [resume, hcalling, hcall]; rfl⟩
        | _ => cases hsettled
    | _ => cases hkind
  · rename_i id leaseId call' hnotifying
    cases hpc
    cases frame with
    | forward kind' id' message pc =>
        cases pc with
        | returned result =>
            rcases result with error | ⟨_ | response⟩
            · exact ⟨_, by simp only [resume, hnotifying, hcall]; rfl⟩
            · exact ⟨_, by simp only [resume, hnotifying, hcall]; rfl⟩
            · exact ⟨_, by simp only [resume, hnotifying, hcall]; rfl⟩
        | _ => cases hsettled
    | _ => cases hkind
  · cases hpc

/-- A connection goes on only when its call has returned. -/
theorem settled_of_resume (s s' : Control) (call : CallId) (kind : CallKind)
    (h : s.resume = some s') (hpc : s.pc.awaitedKind = some (call, kind)) :
    ∃ frame, s.world.calls.get? call = some frame ∧ frame.settled = true := by
  unfold resume at h
  split at h
  case h_6 => cases h
  all_goals
    rename_i hat
    rw [hat] at hpc
    cases hpc
    split at h
    all_goals
      first
      | exact ⟨_, ‹_›, rfl⟩
      | cases h

end Control

/-! ### The connection with its bytes -/

namespace Connection

variable {fromStr : List Char → Option Json}

/-- The step of the world an action is. -/
def inner : ConnectionAction → Option Action
  | .world a => some a
  | _ => none

/-- A step with the bytes is a step without them. -/
theorem control_step (s s' : Connection) (a : ConnectionAction) (h : s.step fromStr a = some s') :
    ∃ b, s.control.step b = some s'.control ∧ Control.inner b = inner a := by
  cases a with
  | world a =>
      rcases Option.map_eq_some_iff.mp h with ⟨c, hc, rfl⟩
      exact ⟨.world a, hc, rfl⟩
  | read call =>
      simp only [step, read] at h
      split at h
      · split at h
        -- The line, the end or the failure, as it is read off the bytes.
        · rename_i text rest _
          rcases Option.map_eq_some_iff.mp h with ⟨c, hc, rfl⟩
          exact ⟨.line (lineOf fromStr text) call, hc, rfl⟩
        · rcases Option.map_eq_some_iff.mp h with ⟨c, hc, rfl⟩
          exact ⟨.eof, hc, rfl⟩
        · rcases Option.map_eq_some_iff.mp h with ⟨c, hc, rfl⟩
          exact ⟨.readError, hc, rfl⟩
      · cases h
  | resume =>
      rcases Option.map_eq_some_iff.mp h with ⟨c, hc, rfl⟩
      exact ⟨.resume, hc, rfl⟩
  | bound endpoint call =>
      rcases Option.map_eq_some_iff.mp h with ⟨c, hc, rfl⟩
      exact ⟨.bound endpoint call, hc, rfl⟩
  | sampled memoryTotal =>
      rcases Option.map_eq_some_iff.mp h with ⟨c, hc, rfl⟩
      exact ⟨.sampled memoryTotal, hc, rfl⟩
  | wrote ok =>
      rcases Option.map_eq_some_iff.mp h with ⟨c, hc, rfl⟩
      exact ⟨.wrote ok, hc, rfl⟩

end Connection

end Lspee
