import Lspee.Theory.Answering

/-!
# What a Connection Does Next

One statement about every step of the daemon's side of a connection, for the
invariants of what it answers. `Went` has a case for each thing such a step can be:
the world goes on, a request is dispatched, a call has returned, or a response is
written. Most responses say nothing of leases, of sessions or of what a server has
answered; those that do have cases of their own, with the state that the connection
has them from.

When the other side is a command the requests are the frames it has written
(`went_daemon`).

## Main definitions

* `ControlEnvelope.Plain`: A response that says nothing.
* `Control.HasLease`: The connection has a lease, with the handle of its session.
* `Control.Went`: What a step of the connection is.

## Theorems

* `went_dispatch`: A request is dispatched.
* `went_resume`, `went_step`: A step of the connection.
* `went_daemon`: A step of the daemon's side that talks to a command.
-/

namespace Lspee

open Transition Utf8

/-- The response says nothing of leases, of the registry or of what a server has
    answered. -/
structure ControlEnvelope.Plain (r : ControlEnvelope) : Prop where
  attach : r.messageType ≠ "AttachOk"
  stats : r.messageType ≠ "StatsOk"
  call : r.messageType ≠ "CallOk"

/-- The connection waits for a call of which it reports no more than that it has
    returned. -/
def ControlPc.waits : ControlPc → Bool
  | .unattaching _ _ _ => true
  | .releasing _ _ _ => true
  | .notifying _ _ _ => true
  | _ => false

/-- A call that has been made is there. -/
theorem World.started (w w' : World) (call : CallId) (method : Method)
    (h : w.step (.start call method) = some w') :
    w'.calls.get? call = some (method.frame w.now) := by
  simp only [step] at h
  split at h
  · cases h
  · rw [← Option.some.inj h]
    exact Table.get?_set_self _ _ _

namespace Control

/-- The connection has the lease, and the handle of the session that was found for
    it. -/
def HasLease (s : Control) (lease : Lease) (handle : SessionHandle) : Prop :=
  (∃ id mode call, s.pc = .attaching id mode call ∧
    s.world.calls.get? call = some (.attached lease (some handle))) ∨
    ∃ id, s.pc = .binding id lease handle

/-- What a step of the connection is. The requests that are dispatched are among
    those given, and so are the steps of the world. -/
inductive Went (Q : ControlEnvelope → Prop) (A : Action → Prop) (s s' : Control) : Prop where
  | world (a : Action) (ha : A a) (hpc : s'.pc = s.pc) (hstep : s.world.step a = some s'.world)
  | rests (hworld : s'.world = s.world) (hpc : s'.pc = .reading ∨ ∃ ok, s'.pc = .returned ok)
  | plain (r : ControlEnvelope) (stop : Bool) (hworld : s'.world = s.world)
      (hpc : s'.pc = .writing r stop) (hplain : r.Plain)
  | attaches (q : ControlEnvelope) (attach : Attach) (id : Option String) (mode : StreamMode)
      (call : CallId) (hq : Q q) (htype : q.messageType = "Attach")
      (hpayload : Attach.fromValue q.payload = some attach) (hpc : s'.pc = .attaching id mode call)
      (hstart : s.world.step (.start call (.acquireOrSpawn attach.sessionKey.sessionKey
        attach.clientMeta.clientKind)) = some s'.world)
  | calls (q : ControlEnvelope) (payload : CallPayload) (id : Option String) (call : CallId)
      (hq : Q q) (htype : q.messageType = "Call")
      (hpayload : CallPayload.fromValue q.payload = some payload)
      (hpc : s'.pc = .calling id payload.leaseId call)
      (hstart : s.world.step (.start call (.forwardByLeaseId .call payload.leaseId
        payload.request)) = some s'.world)
  | waits (call : CallId) (method : Method) (hpc : s'.pc.waits = true)
      (hstart : s.world.step (.start call method) = some s'.world)
  | samples (id : Option String) (hworld : s'.world = s.world)
      (hpc : s'.pc = .sampling id s.world.reg.sessionCount s.world.reg.leaseCount
        s.world.reg.counters)
  | binds (id : Option String) (lease : Lease) (handle : SessionHandle)
      (hhas : s.HasLease lease handle) (hworld : s'.world = s.world)
      (hpc : s'.pc = .binding id lease handle)
  | attachOk (id : Option String) (lease : Lease) (mode : StreamMode) (endpoint : Option String)
      (handle : SessionHandle) (hhas : s.HasLease lease handle) (hworld : s'.world = s.world)
      (hpc : s'.pc = .writing (okEnvelope id "AttachOk" (attachOk lease.id mode endpoint
        handle.initializeResult)) false)
  | statsOk (id : Option String) (sessions leases : Nat) (counters : RegistryCounters)
      (uptimeMs memoryTotal : Nat) (hold : s.pc = .sampling id sessions leases counters)
      (hworld : s'.world = s.world)
      (hpc : s'.pc = .writing (okEnvelope id "StatsOk" (statsOk s.settings sessions leases
        uptimeMs memoryTotal counters)) false)
  | callOk (id : Option String) (leaseId : String) (call : CallId) (kind : ForwardKind)
      (id' : String) (message response : Json) (hold : s.pc = .calling id leaseId call)
      (hcall : s.world.calls.get? call =
        some (.forward kind id' message (.returned (.ok (some response)))))
      (hworld : s'.world = s.world)
      (hpc : s'.pc = .writing (okEnvelope id "CallOk"
        (.obj [("lease_id", .str leaseId), ("response", response)])) false)

section Steps

variable {Q : ControlEnvelope → Prop} {A : Action → Prop}

/-! ### Plain responses -/

theorem went_plain (s s' u : Control) (r : ControlEnvelope) (stop : Bool)
    (hworld : u.world = s.world) (hplain : r.Plain) (h : some (u.write r stop) = some s') :
    Went Q A s s' := by
  rw [← Option.some.inj h]
  exact .plain r stop hworld rfl hplain

theorem errorEnvelope_plain (id : Option String) (code message : String) (retryable : Bool)
    (details : Option Json) : (errorEnvelope id code message retryable details).Plain :=
  ⟨show ("Error" : String) ≠ "AttachOk" by decide, show ("Error" : String) ≠ "StatsOk" by decide,
    show ("Error" : String) ≠ "CallOk" by decide⟩

theorem went_error (s s' : Control) (id : Option String) (code message : String)
    (retryable : Bool) (details : Option Json) (stop : Bool)
    (h : some (s.write (errorEnvelope id code message retryable details) stop) = some s') :
    Went Q A s s' :=
  went_plain s s' s _ stop rfl (errorEnvelope_plain _ _ _ _ _) h

theorem went_ok (s s' u : Control) (id : Option String) (name : String) (payload : Json)
    (stop : Bool) (hworld : u.world = s.world)
    (hname : name ≠ "AttachOk" ∧ name ≠ "StatsOk" ∧ name ≠ "CallOk")
    (h : some (u.write (okEnvelope id name payload) stop) = some s') : Went Q A s s' :=
  went_plain s s' u _ stop hworld ⟨hname.1, hname.2.1, hname.2.2⟩ h

theorem forwardError_type (kind : ForwardKind) (id : Option String) (message : String) :
    (forwardError kind id message).messageType = "Error" := by
  unfold forwardError
  split
  · rfl
  · split
    · rfl
    · split
      · rfl
      · rfl

theorem went_forwardError (s s' : Control) (kind : ForwardKind) (id : Option String)
    (message : String) (h : some (s.write (forwardError kind id message) false) = some s') :
    Went Q A s s' := by
  have htype := forwardError_type kind id message
  refine went_plain s s' s _ false rfl ⟨?_, ?_, ?_⟩ h
  · rw [htype]
    decide
  · rw [htype]
    decide
  · rw [htype]
    decide

theorem await_starts (s s' : Control) (call : CallId) (method : Method) (pc : ControlPc)
    (h : s.await call method pc = some s') :
    s'.pc = pc ∧ s.world.step (.start call method) = some s'.world := by
  rcases Option.map_eq_some_iff.mp h with ⟨w, hw, rfl⟩
  exact ⟨rfl, hw⟩

theorem went_waits (s s' u : Control) (call : CallId) (method : Method) (pc : ControlPc)
    (hworld : u.world = s.world) (hpc : pc.waits = true) (h : u.await call method pc = some s') :
    Went Q A s s' := by
  rcases await_starts u s' call method pc h with ⟨hpc', hstart⟩
  rw [hworld] at hstart
  exact .waits call method (by rw [hpc']; exact hpc) hstart

/-! ### The steps -/

/-- A request is dispatched. -/
theorem went_dispatch (s s' : Control) (q : ControlEnvelope) (call : CallId) (hq : Q q)
    (h : s.dispatchControlRequest q call = some s') : Went Q A s s' := by
  unfold dispatchControlRequest at h
  split at h
  · rename_i htype
    unfold dispatchAttach at h
    split at h
    · exact went_error s s' _ _ _ _ _ _ h
    · rename_i attach hattach
      split at h
      · exact went_error s s' _ _ _ _ _ _ h
      · rcases await_starts s s' call _ _ h with ⟨hpc, hstart⟩
        exact .attaches q attach _ _ call hq htype hattach hpc hstart
  · unfold dispatchRelease at h
    split at h
    · exact went_error s s' _ _ _ _ _ _ h
    · refine went_waits s s' _ call _ _ ?_ ?_ h
      · rfl
      · rfl
  · rename_i htype
    unfold dispatchCall at h
    split at h
    · exact went_error s s' _ _ _ _ _ _ h
    · rename_i payload hpayload
      rcases await_starts s s' call _ _ h with ⟨hpc, hstart⟩
      exact .calls q payload _ call hq htype hpayload hpc hstart
  · unfold dispatchNotify at h
    split at h
    · exact went_error s s' _ _ _ _ _ _ h
    · exact went_waits s s' _ call _ _ rfl rfl h
  · rw [← Option.some.inj h]
    exact .samples q.id rfl rfl
  · unfold dispatchShutdown at h
    split at h
    · refine went_ok s s' _ _ _ _ _ ?_ (by decide) h
      rfl
    · exact went_error s s' _ _ _ _ _ _ h
  · exact went_error s s' _ _ _ _ _ _ h

theorem went_handleLine (s s' : Control) (line : Line) (call : CallId) (hQ : ∀ q, Q q)
    (h : s.handleLine line call = some s') : Went Q A s s' := by
  unfold handleLine at h
  split at h
  · exact went_error s s' _ _ _ _ _ _ h
  · split at h
    · exact went_error s s' _ _ _ _ _ _ h
    · simp only at h
      split at h
      · exact went_error s s' _ _ _ _ _ _ h
      · split at h
        · exact went_error s s' _ _ _ _ _ _ h
        · exact went_dispatch s s' _ call (hQ _) h

/-- The attach has its lease, and the handle of its session, if there is one. -/
theorem went_attached (s : Control) (id : Option String) (mode : StreamMode) (call : CallId)
    (lease : Lease) (handle : Option SessionHandle) (hpc : s.pc = .attaching id mode call)
    (hcall : s.world.calls.get? call = some (.attached lease handle)) :
    Went Q A s (s.attached id mode lease handle) := by
  unfold attached
  cases handle with
  | none =>
      cases mode with
      | dedicated => exact went_error s _ _ _ _ _ _ _ rfl
      | muxControl => exact .plain _ false rfl rfl (errorEnvelope_plain _ _ _ _ _)
  | some handle =>
      have hhas : s.HasLease lease handle := .inl ⟨id, mode, call, hpc, hcall⟩
      cases mode with
      | dedicated => exact .binds id lease handle hhas rfl rfl
      | muxControl => exact .attachOk id lease .muxControl none handle hhas rfl rfl

/-- The call that is awaited has returned. -/
theorem went_resume (s s' : Control) (h : s.resume = some s') : Went Q A s s' := by
  unfold resume at h
  split at h
  · rename_i id mode call hpc
    split at h
    · exact went_error s s' _ _ _ _ _ _ h
    · rename_i lease handle hcall
      rw [← Option.some.inj h]
      exact went_attached s id mode call lease handle hpc hcall
    · cases h
  · split at h
    · exact went_error s s' _ _ _ _ _ _ h
    · cases h
  · split at h
    · exact went_ok s s' _ _ _ _ _ rfl (by decide) h
    · exact went_error s s' _ _ _ _ _ _ h
    · cases h
  · rename_i id leaseId call hpc
    split at h
    · rename_i kind id' message response hcall
      rw [← Option.some.inj h]
      exact .callOk id leaseId call kind id' message response hpc hcall rfl rfl
    · exact went_error s s' _ _ _ _ _ _ h
    · exact went_forwardError s s' _ _ _ h
    · cases h
  · split at h
    · exact went_ok s s' _ _ _ _ _ rfl (by decide) h
    · exact went_error s s' _ _ _ _ _ _ h
    · exact went_forwardError s s' _ _ _ h
    · cases h
  · cases h

/-- A step of the connection. -/
theorem went_step (s s' : Control) (a : ControlAction)
    (hQ : (∃ line call, a = .line line call) → ∀ q, Q q) (hA : ∀ b, a = .world b → A b)
    (h : s.step a = some s') : Went Q A s s' := by
  cases a with
  | world a =>
      rcases Option.map_eq_some_iff.mp h with ⟨w, hw, rfl⟩
      exact .world a (hA a rfl) rfl hw
  | line line call =>
      simp only [step] at h
      split at h
      · exact went_handleLine s s' line call (hQ ⟨line, call, rfl⟩) h
      · cases h
  | eof =>
      simp only [step] at h
      split at h
      · rw [← Option.some.inj h]
        exact .rests rfl (.inr ⟨_, rfl⟩)
      · cases h
  | readError =>
      simp only [step] at h
      split at h
      · rw [← Option.some.inj h]
        exact .rests rfl (.inr ⟨_, rfl⟩)
      · cases h
  | resume => exact went_resume s s' h
  | bound endpoint call =>
      simp only [step, bound] at h
      split at h
      · rename_i id lease handle path hpc
        rw [← Option.some.inj h]
        exact .attachOk id lease .dedicated _ handle (.inr ⟨id, hpc⟩) rfl rfl
      · exact went_waits s s' s call _ _ rfl rfl h
      · cases h
  | sampled memoryTotal =>
      simp only [step, sampled] at h
      split at h
      · rename_i id sessions leases counters hpc
        rw [← Option.some.inj h]
        exact .statsOk id sessions leases counters _ memoryTotal hpc rfl rfl
      · cases h
  | wrote ok =>
      simp only [step, wrote] at h
      split at h
      · rename_i response stop _
        refine .rests ?_ ?_
        · cases ok <;> simp at h <;> rw [← h]
        · cases ok <;> cases stop <;> simp at h <;> rw [← h] <;> simp
      · cases h

end Steps

end Control

namespace Conversation

variable {toString : Json → List Char} {fromStr : List Char → Option Json}

/-- A step of the daemon's side that talks to a command: what it dispatches is a frame
    of the command. -/
theorem went_daemon (hcompact : Json.PrintsCompact toString) (s : Conversation) (c : Connection)
    (b : ConnectionAction) (horderly : s.Orderly toString) (hback : s.ReadsBack toString fromStr)
    (hc : s.connection.step fromStr b = some c) :
    Control.Went (· ∈ s.sent) (fun a => b = .world a) s.connection.control c.control := by
  have hother : ∀ ca, s.connection.control.step ca = some c.control →
      (∀ line call, ca ≠ .line line call) → (∀ a, ca = .world a → b = .world a) →
        Control.Went (· ∈ s.sent) (fun a => b = .world a) s.connection.control c.control := by
    intro ca hca hline hworld
    exact Control.went_step _ _ ca (fun ⟨line, call, hsame⟩ => absurd hsame (hline line call))
      hworld hca
  cases b with
  | read call =>
      rcases horderly.unread with ⟨hbytes, _⟩ | ⟨q, earlier, hsent, hbytes, _⟩
      · rcases read_nothing _ c call hbytes hc with ⟨ok, rfl⟩
        exact .rests rfl (.inr ⟨ok, rfl⟩)
      · have hmem : q ∈ s.sent := by
          rw [hsent]
          exact List.mem_cons_self
        have hline := (read_frame hcompact s.connection c call q hbytes hc).1
        rw [handleLine_frame s.connection.control q call
          (horderly.version q (List.mem_append_left _ hmem))
          (hback q (List.mem_append_left _ hmem))] at hline
        split at hline
        · exact Control.went_error _ _ _ _ _ _ _ _ hline
        · exact Control.went_dispatch _ _ q call hmem hline
  | world a =>
      rcases Option.map_eq_some_iff.mp hc with ⟨control, hcontrol, rfl⟩
      rcases Option.map_eq_some_iff.mp hcontrol with ⟨w, hw, rfl⟩
      exact .world a rfl rfl hw
  | resume =>
      rcases Option.map_eq_some_iff.mp hc with ⟨control, hcontrol, rfl⟩
      exact hother .resume hcontrol (by simp) (by simp)
  | bound endpoint call =>
      rcases Option.map_eq_some_iff.mp hc with ⟨control, hcontrol, rfl⟩
      exact hother (.bound endpoint call) hcontrol (by simp) (by simp)
  | sampled memoryTotal =>
      rcases Option.map_eq_some_iff.mp hc with ⟨control, hcontrol, rfl⟩
      exact hother (.sampled memoryTotal) hcontrol (by simp) (by simp)
  | wrote ok =>
      rcases Option.map_eq_some_iff.mp hc with ⟨control, hcontrol, rfl⟩
      exact hother (.wrote ok) hcontrol (by simp) (by simp)

end Conversation

end Lspee
