import Lspee.Theory.Dispatch

/-!
# Commands Return Their Leases

Whether a command that has ended has left a lease behind. The daemon releases no lease
of a connection that is closed (`Control.lease_outlives_client`), so it is up to the
command.

A command that has been told of a lease holds it until it writes the `Release`
(`Passes`), and takes no other end: each of its requests is answered, because the
connection is closed only after a `Shutdown` or a frame that is too large
(`Stays`). When the `Release` is answered the lease is out of the registry
(`ReleaseAt`), and stays out. So a command that ends by itself, and whose frames were
all small enough, has left no lease of its own (`lease_returned`).

## Main definitions

* `Tells`: A response names the lease that was granted.
* `Control.NamesGranted`: What the daemon answers of leases is so.
* `Control.Stays`: The connection is not about to be closed.
* `Control.ReleaseAt`: How far the daemon is with a release.
* `Conversation.Passes`: A command keeps its lease, or writes the release.
* `Conversation.Owed`: Where a lease is that a command was told of.

## Theorems

* `namesGranted_step`: An `AttachOk` names a lease that was granted.
* `stays_step`: A connection that is read from is not closed.
* `releaseAt_step`: A release takes the lease out before it is answered.
* `passes_proceed`: A command that goes on keeps its lease, or writes the release.
* `kept_step`: What every run keeps.
* `lease_returned`: A command that has ended has left no lease.
-/

namespace Lspee

open Transition Utf8

/-- The response names the lease that was granted. -/
def Tells (r : ControlEnvelope) (leaseId : String) : Prop := attachedLease (.ok r) = .ok leaseId

theorem tells_type (r : ControlEnvelope) (leaseId : String) (h : Tells r leaseId) :
    r.messageType = "AttachOk" := by
  simp only [Tells, attachedLease, bind, Except.bind, expectType, ensureNotError] at h
  by_contra hne
  by_cases herror : r.messageType = "Error"
  · simp [herror] at h
  · simp [herror, hne] at h

theorem tells_attachOk (id : Option String) (mode : StreamMode) (endpoint : Option String)
    (initializeResult : Json) (lease leaseId : String)
    (h : Tells (okEnvelope id "AttachOk" (attachOk lease mode endpoint initializeResult)) leaseId) :
    leaseId = lease := by
  simp only [Tells, attachedLease, bind, Except.bind, expectType, ensureNotError, okEnvelope] at h
  have hlease : ((attachOk lease mode endpoint initializeResult).get "lease_id").bind Json.asStr =
      some lease := rfl
  simp only [String.reduceEq, if_false, if_true, hlease, Except.ok.injEq] at h
  exact h.symm

/-- The one answer that names a lease. -/
theorem tells_answer (id : Option String) (answer : Answer) (leaseId : String)
    (h : Tells (answer.envelope id) leaseId) :
    ∃ mode endpoint initializeResult,
      answer = .attachOk leaseId mode endpoint initializeResult := by
  have htype := tells_type _ _ h
  cases answer with
  | attachOk lease mode endpoint initializeResult =>
      rw [tells_attachOk id mode endpoint initializeResult lease leaseId h]
      exact ⟨mode, endpoint, initializeResult, rfl⟩
  | error code message retryable =>
      exact absurd htype (show ("Error" : String) ≠ "AttachOk" by decide)
  | releaseOk lease refCount =>
      exact absurd htype (show ("ReleaseOk" : String) ≠ "AttachOk" by decide)
  | callOk lease response => exact absurd htype (show ("CallOk" : String) ≠ "AttachOk" by decide)
  | notifyOk lease => exact absurd htype (show ("NotifyOk" : String) ≠ "AttachOk" by decide)
  | statsOk settings sessions leases uptimeMs memoryTotal counters =>
      exact absurd htype (show ("StatsOk" : String) ≠ "AttachOk" by decide)
  | shutdownOk => exact absurd htype (show ("ShutdownOk" : String) ≠ "AttachOk" by decide)

/-- `capabilities` reads the same lease in it. -/
theorem attachedOk_of_tells (id : Option String) (answer : Answer) (leaseId : String)
    (h : Tells (answer.envelope id) leaseId) :
    ∃ ok, attachedOk (.ok (answer.envelope id)) = .ok ok ∧ ok.leaseId = leaseId := by
  rcases tells_answer id answer leaseId h with ⟨mode, endpoint, initializeResult, rfl⟩
  have hdecodes := AttachOk.fromValue_attachOk leaseId mode endpoint initializeResult
  simp only [attachedOk, bind, Except.bind, expectType, ensureNotError, Answer.envelope, okEnvelope]
  simp only [String.reduceEq, if_false, if_true, decodeAs, hdecodes]
  exact ⟨_, rfl, rfl⟩

/-- The lease has been granted. -/
def World.Granted (w : World) (leaseId : String) : Prop :=
  ∃ runtime, grantedOn leaseId w.log = some runtime

/-- The lease was granted, and is out of the registry. -/
def World.Out (w : World) (leaseId : String) : Prop :=
  w.Granted leaseId ∧ w.reg.leases.get? leaseId = none

namespace Control

/-! ### What is answered of leases -/

/-- The lease that is named in the answer, or is to be, was granted. -/
structure NamesGranted (s : Control) : Prop where
  writing : ∀ response stop leaseId, s.pc = .writing response stop → Tells response leaseId →
    s.world.Granted leaseId
  binding : ∀ id lease handle, s.pc = .binding id lease handle → s.world.Granted lease.id

theorem namesGranted_quiet (s : Control) (hwriting : ∀ r stop, s.pc ≠ .writing r stop)
    (hbinding : ∀ id lease handle, s.pc ≠ .binding id lease handle) : s.NamesGranted :=
  ⟨fun r stop _ hpc => absurd hpc (hwriting r stop),
    fun id lease handle hpc => absurd hpc (hbinding id lease handle)⟩

/-- A response that is no `AttachOk` names no lease. -/
theorem namesGranted_silent (s : Control) (r : ControlEnvelope) (stop : Bool)
    (hpc : s.pc = .writing r stop) (htype : r.messageType ≠ "AttachOk") : s.NamesGranted := by
  refine ⟨fun r' stop' leaseId hpc' htells => ?_, fun id lease handle hpc' => ?_⟩
  · rw [hpc, ControlPc.writing.injEq] at hpc'
    rw [← hpc'.1] at htells
    exact absurd (tells_type _ _ htells) htype
  · rw [hpc] at hpc'
    cases hpc'

/-- The lease that a connection has was granted. -/
theorem granted_of_hasLease (s : Control) (lease : Lease) (handle : SessionHandle)
    (hsound : World.LeaseSound s.world) (h : s.NamesGranted) (hhas : s.HasLease lease handle) :
    s.world.Granted lease.id := by
  rcases hhas with ⟨id, mode, call, _, hcall⟩ | ⟨id, hpc⟩
  · exact hsound.attached call lease (some handle) hcall
  · exact h.binding id lease handle hpc

theorem namesGranted_step {Q : ControlEnvelope → Prop} {A : Action → Prop} (s s' : Control)
    (hsound : World.LeaseSound s.world) (hstep : Went Q A s s') (h : s.NamesGranted) :
    s'.NamesGranted := by
  cases hstep with
  -- What was granted once stays granted, whatever others do.
  | world a ha hpc hstep =>
      refine ⟨fun r stop leaseId hpc' htells => ?_, fun id lease handle hpc' => ?_⟩
      · rw [hpc] at hpc'
        exact wasGranted_step _ _ a hstep leaseId (h.writing r stop leaseId hpc' htells)
      · rw [hpc] at hpc'
        exact wasGranted_step _ _ a hstep lease.id (h.binding id lease handle hpc')
  | rests hworld hpc =>
      rcases hpc with hpc | ⟨ok, hpc⟩ <;>
        exact namesGranted_quiet s' (by simp [hpc]) (by simp [hpc])
  | plain r stop hworld hpc hplain => exact namesGranted_silent s' r stop hpc hplain.attach
  | attaches q attach id mode call hq htype hpayload hpc hstart =>
      exact namesGranted_quiet s' (by simp [hpc]) (by simp [hpc])
  | calls q payload id call hq htype hpayload hpc hstart =>
      exact namesGranted_quiet s' (by simp [hpc]) (by simp [hpc])
  | waits call method hpc hstart =>
      refine namesGranted_quiet s' (fun r stop hpc' => ?_) (fun id lease handle hpc' => ?_)
      · rw [hpc'] at hpc
        cases hpc
      · rw [hpc'] at hpc
        cases hpc
  | samples id hworld hpc => exact namesGranted_quiet s' (by simp [hpc]) (by simp [hpc])
  | binds id lease handle hhas hworld hpc =>
      refine ⟨fun r stop leaseId hpc' => ?_, fun id' lease' handle' hpc' => ?_⟩
      · rw [hpc] at hpc'
        cases hpc'
      · rw [hpc, ControlPc.binding.injEq] at hpc'
        rw [hworld, ← hpc'.2.1]
        -- A lease is bound only after its acquire has returned it.
        exact granted_of_hasLease s lease handle hsound h hhas
  | attachOk id lease mode endpoint handle hhas hworld hpc =>
      refine ⟨fun r stop leaseId hpc' htells => ?_, fun id' lease' handle' hpc' => ?_⟩
      · rw [hpc, ControlPc.writing.injEq] at hpc'
        rw [← hpc'.1] at htells
        -- An `AttachOk` names the lease the connection has.
        rw [hworld, tells_attachOk _ _ _ _ _ _ htells]
        exact granted_of_hasLease s lease handle hsound h hhas
      · rw [hpc] at hpc'
        cases hpc'
  | statsOk id sessions leases counters uptimeMs memoryTotal hold hworld hpc =>
      exact namesGranted_silent s' _ _ hpc (show ("StatsOk" : String) ≠ "AttachOk" by decide)
  | callOk id leaseId call kind id' message response hold hcall hworld hpc =>
      exact namesGranted_silent s' _ _ hpc (show ("CallOk" : String) ≠ "AttachOk" by decide)

/-! ### A connection that is not closed -/

/-- The connection is open, and stays so when the answer is written. -/
def Stays (s : Control) : Prop := endsAfter s.pc ≠ some true ∧ ∀ ok, s.pc ≠ .returned ok

theorem stays_of_writes (s : Control) (id : Option String) (h : Writes id s.pc)
    (hcarried : Connection.carried s.pc = some id) : s.Stays := by
  refine ⟨fun hends => ?_, fun ok hpc => ?_⟩
  · cases endsAfter_of_writes id s.pc true h hends
  · rw [hpc] at hcarried
    cases hcarried

/-- A step that neither reads nor fails leaves the connection open. -/
theorem stays_step (s s' : Control) (a : ControlAction) (hstep : s.step a = some s')
    (hread : ∀ line call, a ≠ .line line call) (heof : a ≠ .eof) (herror : a ≠ .readError)
    (hwrote : ∀ ok, a = .wrote ok → ok = true) (h : s.Stays) : s'.Stays := by
  cases a with
  | world a =>
      rcases Option.map_eq_some_iff.mp hstep with ⟨w, _, rfl⟩
      exact h
  | line line call => exact absurd rfl (hread line call)
  | eof => exact absurd rfl heof
  | readError => exact absurd rfl herror
  | resume =>
      rcases goesOn_resume s s' hstep with ⟨id, hgoes⟩
      exact stays_of_writes s' id hgoes.writes hgoes.after
  | bound endpoint call =>
      rcases goesOn_bound s s' endpoint call hstep with ⟨id, hgoes⟩
      exact stays_of_writes s' id hgoes.writes hgoes.after
  | sampled memoryTotal =>
      rcases goesOn_sampled s s' memoryTotal hstep with ⟨id, hgoes⟩
      exact stays_of_writes s' id hgoes.writes hgoes.after
  | wrote ok =>
      -- The write succeeds, and the answer is none after which the connection stops.
      rw [hwrote ok rfl] at hstep
      simp only [step, wrote] at hstep
      split at hstep
      · rename_i response stop hpc
        simp only [if_true, Option.some.injEq] at hstep
        have hstop : stop = false := by
          cases stop with
          | false => rfl
          | true => exact absurd (by rw [hpc]; rfl) h.1
        rw [← hstep, hstop]
        refine ⟨fun hends => ?_, fun ok hpc => ?_⟩
        · cases hends
        · cases hpc
      · cases hstep

/-! ### How far a release is -/

/-- The lease is out, or the release that takes it out has been made. -/
def ReleaseAt (leaseId : String) (s : Control) : Prop :=
  s.world.Out leaseId ∨ ∃ id call, s.pc = .releasing id leaseId call ∧
    s.world.calls.get? call = some (.release leaseId .take)

theorem out_step (s s' : Control) (a : ControlAction) (leaseId : String)
    (hsound : World.LeaseSound s.world) (hstep : s.step a = some s')
    (hnew : NewIdIn Control.world inner s a) (h : s.world.Out leaseId) : s'.world.Out leaseId :=
  gone_step hosts_world leaseId s s' a hsound h.1 h.2 hstep hnew

/-- The lease is out before the release is answered. -/
theorem releaseAt_step (s s' : Control) (a : ControlAction) (leaseId : String)
    (hsound : World.LeaseSound s.world) (hstep : s.step a = some s')
    (hnew : NewIdIn Control.world inner s a) (hgranted : s.world.Granted leaseId)
    (h : s.ReleaseAt leaseId) : s'.ReleaseAt leaseId := by
  rcases h with hout | ⟨id, call, hpc, hcall⟩
  · exact .inl (out_step s s' a leaseId hsound hstep hnew hout)
  · cases a with
    | world a =>
        rcases Option.map_eq_some_iff.mp hstep with ⟨w, hw, rfl⟩
        rcases World.release_step s.world w a hw call leaseId .take hcall with
          ⟨pc', hcall', htake, _⟩
        rcases htake rfl with rfl | hgone
        · exact .inr ⟨id, call, hpc, hcall'⟩
        · exact .inl ⟨wasGranted_step _ _ a hw leaseId hgranted, hgone⟩
    | resume =>
        -- The call has not returned.
        simp [step, resume, hpc, hcall] at hstep
    | _ => simp [step, bound, sampled, wrote, hpc] at hstep

/-- A `Release` that is dispatched makes the release of its lease. -/
theorem releaseAt_dispatch (s s' : Control) (q : ControlEnvelope) (call : CallId)
    (leaseId : String) (htype : q.messageType = "Release")
    (hpayload : q.payload = .obj [("lease_id", .str leaseId)])
    (h : s.dispatchControlRequest q call = some s') : s'.ReleaseAt leaseId := by
  have hdecodes : Release.fromValue (.obj [("lease_id", .str leaseId)]) = some ⟨leaseId, none⟩ := by
    have hsome := Release.fromValue_toValue ⟨leaseId, none⟩
    exact hsome
  simp only [dispatchControlRequest, htype, dispatchRelease, hpayload, hdecodes] at h
  rcases progress_await _ s' call _ _ h with ⟨hpc, _, hcall⟩
  exact .inr ⟨q.id, call, hpc, hcall⟩

end Control

/-- The lease that a command uses. -/
def CommandPc.holds : CommandPc → Option String
  | .opening _ leaseId _ => some leaseId
  | .calling _ leaseId _ => some leaseId
  | .closing _ leaseId _ => some leaseId
  | _ => none

/-- The frame releases the lease. -/
def ControlEnvelope.IsRelease (q : ControlEnvelope) (leaseId : String) : Prop :=
  q.messageType = "Release" ∧ q.payload = .obj [("lease_id", .str leaseId)]

namespace Conversation

variable {toString : Json → List Char} {fromStr : List Char → Option Json}

/-! ### A command keeps its lease, or writes the release -/

/-- A command that has a lease keeps it, or writes the release. -/
inductive Passes (leaseId : String) (s s' : Conversation) : Prop where
  | holds (hpc : s'.pc.holds = some leaseId)
  | releases (q : ControlEnvelope) (id : String) (result : Except ClientError Report)
      (hpc : s'.pc = .releasing id leaseId result) (hq : q.IsRelease leaseId)
      (hsent : s'.sent = q :: s.sent) (hbytes : s'.connection.bytes ≠ [])

section Passing

variable (s : Conversation) (nanos : Nat) (leaseId : String) (hopen : s.daemonClosed = false)

include hopen

theorem passes_release (result : Except ClientError Report) :
    Passes leaseId s (s.release toString nanos leaseId result) := by
  unfold release transmit
  rw [hopen]
  exact .releases _ _ result rfl ⟨rfl, rfl⟩ rfl (by simp [writeFrame, writeLine])

theorem passes_call (didOpenUri : Option String) :
    Passes leaseId s (s.call toString nanos leaseId didOpenUri) := by
  unfold call transmit
  rw [hopen]
  exact .holds rfl

/-- A command that is told of its lease. -/
theorem passes_attached (file : Except String SourceFile) (id : Option String) (answer : Answer)
    (htells : Tells (answer.envelope id) leaseId) :
    Passes leaseId s (s.attached toString nanos file (.ok (answer.envelope id))) := by
  have hlease : attachedLease (.ok (answer.envelope id)) = .ok leaseId := htells
  unfold attached
  split
  · rcases attachedOk_of_tells id answer leaseId htells with ⟨ok, hok, hsame⟩
    rw [hok, ← hsame]
    exact passes_release s nanos ok.leaseId hopen _
  · rw [hlease]
    simp only
    split
    · unfold sendDidOpen transmit
      rw [hopen]
      exact .holds rfl
    · exact passes_call s nanos leaseId hopen none
  · rw [hlease]
    exact passes_call s nanos leaseId hopen none

theorem passes_called (didOpenUri : Option String) (r : ControlEnvelope) :
    Passes leaseId s (s.called toString nanos leaseId didOpenUri (.ok r)) := by
  unfold called
  split
  · rename_i herror
    cases herror
  · split
    · unfold sendDidClose transmit
      rw [hopen]
      exact .holds rfl
    · exact passes_release s nanos leaseId hopen _

/-- A command that uses a lease, or is told of it, goes on. -/
theorem passes_proceed (file : Except String SourceFile) (id : Option String) (answer : Answer)
    (h : s.pc.holds = some leaseId ∨
      (∃ expected, s.pc = .attaching expected) ∧ Tells (answer.envelope id) leaseId) :
    Passes leaseId s (s.proceed toString nanos file (.ok (answer.envelope id))) := by
  unfold proceed
  rcases h with hholds | ⟨⟨expected, hpc⟩, htells⟩
  · cases hpc : s.pc with
    | opening expected lease uri =>
        rw [hpc, CommandPc.holds, Option.some.injEq] at hholds
        rw [hholds]
        simp only
        split
        · exact passes_call s nanos leaseId hopen _
        · exact passes_call s nanos leaseId hopen _
    | calling expected lease didOpenUri =>
        rw [hpc, CommandPc.holds, Option.some.injEq] at hholds
        rw [hholds]
        exact passes_called s nanos leaseId hopen didOpenUri _
    | closing expected lease result =>
        rw [hpc, CommandPc.holds, Option.some.injEq] at hholds
        rw [hholds]
        exact passes_release s nanos leaseId hopen result
    | _ => rw [hpc] at hholds; cases hholds
  · rw [hpc]
    exact passes_attached s nanos leaseId hopen file id answer htells

end Passing

/-! ### What every run keeps -/

/-- Where a lease is that a command was told of. -/
inductive Owed (leaseId : String) (s : Conversation) : Prop where
  | holds (hpc : s.pc.holds = some leaseId)
  | releasing (q : ControlEnvelope) (earlier : List ControlEnvelope) (id : String)
      (result : Except ClientError Report) (hpc : s.pc = .releasing id leaseId result)
      (hsent : s.sent = q :: earlier) (hq : q.IsRelease leaseId)
      (hat : s.connection.bytes = [] → s.connection.control.ReleaseAt leaseId)
  | ended (result : Except ClientError Report) (hpc : s.pc = .ended result)
      (hout : s.world.Out leaseId)
  | killed (hpc : s.pc = .killed)

theorem owed_of_passes (leaseId : String) (s s' : Conversation) (h : Passes leaseId s s') :
    Owed leaseId s' := by
  cases h with
  | holds hpc => exact .holds hpc
  | releases q id result hpc hq hsent hbytes =>
      exact .releasing q s.sent id result hpc hsent hq fun hempty => absurd hempty hbytes

structure Kept (s : Conversation) : Prop where
  sound : World.LeaseSound s.world
  names : s.connection.control.NamesGranted
  answers : ∀ r ∈ s.connection.sent, (∃ id answer, r = Answer.envelope id answer) ∧
    ∀ leaseId, Tells r leaseId → s.world.Granted leaseId
  types : ∀ id, s.pc.expectedId = some id → ∀ q earlier, s.sent = q :: earlier →
    s.pc.waitsFor q.messageType = true
  stays : ∀ id, s.pc.expectedId = some id → ∀ q earlier, s.sent = q :: earlier →
    q.messageType ≠ "Shutdown" → s.connection.control.Stays
  owed : ∀ pair ∈ s.heard, pair.1.messageType = "Attach" → ∀ leaseId, Tells pair.2 leaseId →
    s.world.Granted leaseId ∧ Owed leaseId s

theorem open_of_stays (s : Conversation) (h : s.connection.control.Stays) :
    s.daemonClosed = false := by
  unfold daemonClosed
  split
  · rename_i ok hpc
    exact absurd hpc (h.2 ok)
  · rfl

/-- What was written is said, and what is being written joins it. -/
theorem responses_step (s c : Connection) (a : ConnectionAction) (h : s.step fromStr a = some c) :
    ∀ r ∈ c.responses, r ∈ s.sent := by
  intro r hr
  by_cases hread : ∃ call, a = .read call
  · rcases hread with ⟨call, rfl⟩
    rcases (Connection.read_cases s c call h).2 with ⟨_, _, _, _, _, rfl⟩ | ⟨_, _, rfl⟩ |
      ⟨_, rfl⟩
    · exact List.mem_append_right _ hr
    · exact List.mem_append_right _ hr
    · exact List.mem_append_right _ hr
  · rcases step_other s c a (fun call ha => hread ⟨call, ha⟩) h with ⟨_, _, hsame | ⟨_, _, hmore⟩⟩
    · rw [hsame] at hr
      exact List.mem_append_right _ hr
    · rw [hmore] at hr
      exact hr

/-- A step of the daemon other than reading leaves the connection open, as long as the
    command is there. -/
theorem stays_daemon (s : Conversation) (c : Connection) (b : ConnectionAction)
    (hmay : s.mayMove b = true) (hgone : s.pc.gone = false)
    (hc : s.connection.step fromStr b = some c) (hread : ∀ call, b ≠ .read call)
    (h : s.connection.control.Stays) : c.control.Stays := by
  have hquiet : ∀ ca, s.connection.control.step ca = some c.control →
      (∀ line call, ca ≠ .line line call) ∧ ca ≠ .eof ∧ ca ≠ .readError ∧
        (∀ ok, ca = .wrote ok → ok = true) → c.control.Stays :=
    fun ca hca hother => Control.stays_step _ _ ca hca hother.1 hother.2.1 hother.2.2.1
      hother.2.2.2 h
  cases b with
  | read call => exact absurd rfl (hread call)
  | wrote ok =>
      rcases Option.map_eq_some_iff.mp hc with ⟨control, hcontrol, rfl⟩
      -- The command is still there, so the daemon's write reaches it.
      have hok : ok = true := by simpa [mayMove, hgone] using hmay
      rw [hok] at hcontrol
      exact hquiet (.wrote true) hcontrol (by simp)
  | world a =>
      rcases Option.map_eq_some_iff.mp hc with ⟨control, hcontrol, rfl⟩
      exact hquiet (.world a) hcontrol (by simp)
  | resume =>
      rcases Option.map_eq_some_iff.mp hc with ⟨control, hcontrol, rfl⟩
      exact hquiet .resume hcontrol (by simp)
  | bound endpoint call =>
      rcases Option.map_eq_some_iff.mp hc with ⟨control, hcontrol, rfl⟩
      exact hquiet (.bound endpoint call) hcontrol (by simp)
  | sampled memoryTotal =>
      rcases Option.map_eq_some_iff.mp hc with ⟨control, hcontrol, rfl⟩
      exact hquiet (.sampled memoryTotal) hcontrol (by simp)

/-- The frames written so far are small enough. -/
def FramesFit (toString : Json → List Char) (s : Conversation) : Prop :=
  ∀ q ∈ s.sent, byteLen (toString q.toValue) ≤ maxFrameSizeBytes

/-- The daemon reads the last frame: it dispatches it. -/
theorem reads_dispatched (hcompact : Json.PrintsCompact toString) (s : Conversation)
    (c : Connection) (call : CallId) (q : ControlEnvelope) (earlier : List ControlEnvelope)
    (hsent : s.sent = q :: earlier) (horderly : s.Orderly toString)
    (hback : s.ReadsBack toString fromStr) (hfit : s.FramesFit toString)
    (hmay : s.mayMove (.read call) = true) (hgone : s.pc.gone = false)
    (hc : s.connection.step fromStr (.read call) = some c) :
    s.connection.control.dispatchControlRequest q call = some c.control ∧ c.bytes = [] := by
  rcases horderly.unread with ⟨hbytes, _⟩ | ⟨q', earlier', hsent', hbytes, _⟩
  · simp [mayMove, readable, hbytes, hgone, splitLine] at hmay
  · rw [hsent, List.cons.injEq] at hsent'
    rw [← hsent'.1] at hbytes
    have hmem : q ∈ s.sent := by
      rw [hsent]
      exact List.mem_cons_self
    rcases read_frame hcompact s.connection c call q hbytes hc with ⟨hline, hstate⟩
    rw [handleLine_frame s.connection.control q call
      (horderly.version q (List.mem_append_left _ hmem)) (hback q (List.mem_append_left _ hmem)),
      if_neg (Nat.not_lt.mpr (hfit q hmem))] at hline
    exact ⟨hline, by rw [hstate]⟩

theorem newIdIn_control (s : Conversation) (b : ConnectionAction) (ca : ControlAction)
    (hinner : Control.inner ca = Connection.inner b)
    (hnew : NewIdIn Conversation.world inner s (.daemon b)) :
    NewIdIn Control.world Control.inner s.connection.control ca :=
  fun a ha => hnew a (hinner.symm.trans ha)

/-- A lease that is owed stays so while the daemon moves. -/
theorem owed_daemon (hcompact : Json.PrintsCompact toString) (s : Conversation) (c : Connection)
    (b : ConnectionAction) (out : List UInt8) (leaseId : String)
    (hsound : World.LeaseSound s.world) (horderly : s.Orderly toString)
    (hback : s.ReadsBack toString fromStr) (hfit : s.FramesFit toString)
    (hmay : s.mayMove b = true) (hc : s.connection.step fromStr b = some c)
    (hnew : NewIdIn Conversation.world inner s (.daemon b)) (hgranted : s.world.Granted leaseId)
    (h : Owed leaseId s) : Owed leaseId { s with connection := c, toClient := out } := by
  rcases Connection.control_step _ c b hc with ⟨ca, hca, hinner⟩
  have hnew' := newIdIn_control s b ca hinner hnew
  cases h with
  | holds hpc => exact .holds hpc
  | releasing q earlier id result hpc hsent hq hat =>
      refine .releasing q earlier id result hpc hsent hq fun hbytes => ?_
      -- The `Release` is read in this step, or it is on its way through the daemon.
      by_cases hread : ∃ call, b = .read call
      · rcases hread with ⟨call, rfl⟩
        have hgone : s.pc.gone = false := by
          rw [hpc]
          rfl
        -- The line read is the frame the command has written last.
        have hdispatched := (reads_dispatched hcompact s c call q earlier hsent horderly hback hfit
          hmay hgone hc).1
        exact Control.releaseAt_dispatch _ _ q call leaseId hq.1 hq.2 hdispatched
      · rcases step_other _ c b (fun call hb => hread ⟨call, hb⟩) hc with ⟨hsame, _⟩
        exact Control.releaseAt_step _ _ ca leaseId hsound hca hnew' hgranted
          (hat (hsame.symm.trans hbytes))
  | ended result hpc hout =>
      exact .ended result hpc (Control.out_step _ _ ca leaseId hsound hca hnew' hout)
  | killed hpc => exact .killed hpc

theorem kept_daemon (hcompact : Json.PrintsCompact toString) (s : Conversation) (c : Connection)
    (b : ConnectionAction) (out : List UInt8) (horderly : s.Orderly toString)
    (hback : s.ReadsBack toString fromStr) (hfit : s.FramesFit toString)
    (hmay : s.mayMove b = true) (hc : s.connection.step fromStr b = some c)
    (hnew : NewIdIn Conversation.world inner s (.daemon b)) (h : s.Kept) :
    Kept { s with connection := c, toClient := out } := by
  rcases Connection.control_step _ c b hc with ⟨ca, hca, hinner⟩
  have hwent := went_daemon hcompact s c b horderly hback hc
  have hnames := Control.namesGranted_step _ _ h.sound hwent h.names
  -- The connection moves the world by at most one step.
  have hgranted : ∀ leaseId, s.world.Granted leaseId → c.control.world.Granted leaseId := by
    intro leaseId hgranted
    rcases host_step Control.hosts_world _ _ ca hca with hsame | ⟨a, ha, _⟩
    · rw [hsame]
      exact hgranted
    · exact wasGranted_step _ _ a ha leaseId hgranted
  refine ⟨leaseSound_host Control.hosts_world _ _ ca h.sound hca, hnames, ?_, h.types, ?_, ?_⟩
  · intro r hr
    refine ⟨?_, fun leaseId htells => ?_⟩
    · rcases (Connection.sent_step _ c b hc).2 r hr with hold | hanswer
      · exact (h.answers r hold).1
      · exact hanswer
    -- A response under way, or one that has been written.
    · rcases List.mem_append.mp hr with hwritten | hresponses
      · rcases (Connection.mem_written c r).mp hwritten with ⟨stop, hpc⟩
        exact hnames.writing r stop leaseId hpc htells
      · exact hgranted leaseId ((h.answers r (responses_step _ c b hc r hresponses)).2 leaseId
          htells)
  · intro id hid q earlier hsent htype
    have hgone := expectedId_waiting s.pc id hid
    by_cases hread : ∃ call, b = .read call
    · rcases hread with ⟨call, rfl⟩
      have hdispatched := (reads_dispatched hcompact s c call q earlier hsent horderly hback hfit
        hmay hgone hc).1
      -- A frame of this type is no `Shutdown`, after which the daemon would stop.
      have haccepted : q.acceptedShutdown = false := by
        simp [ControlEnvelope.acceptedShutdown, htype]
      exact Control.stays_of_writes c.control q.id
        (writes_dispatch _ _ q call hdispatched haccepted)
        (Connection.carried_dispatch _ _ q call hdispatched)
    · exact stays_daemon s c b hmay hgone hc (fun call hb => hread ⟨call, hb⟩)
        (h.stays id hid q earlier hsent htype)
  · intro pair hpair hattach leaseId htells
    rcases h.owed pair hpair hattach leaseId htells with ⟨hgrantedOld, howed⟩
    exact ⟨hgranted leaseId hgrantedOld, owed_daemon hcompact s c b out leaseId h.sound horderly
      hback hfit hmay hc hnew hgrantedOld howed⟩

/-- A command that goes on while nothing is under way keeps what it owes. -/
theorem kept_moved (s s' : Conversation) (hmoved : Moved toString s s')
    (hsound : World.LeaseSound s.world) (hnames : s.connection.control.NamesGranted)
    (hanswers : ∀ r ∈ s.connection.sent, (∃ id answer, r = Answer.envelope id answer) ∧
      ∀ leaseId, Tells r leaseId → s.world.Granted leaseId)
    (hready : s.daemonClosed = false → s.connection.control.pc = .reading)
    (howed : ∀ pair ∈ s.heard, pair.1.messageType = "Attach" → ∀ leaseId, Tells pair.2 leaseId →
      s.world.Granted leaseId ∧ Owed leaseId s') : s'.Kept := by
  cases hmoved with
  | ends result h =>
      rw [h] at howed ⊢
      exact ⟨hsound, hnames, hanswers, fun id hid => (by cases hid), fun id hid => (by cases hid),
        howed⟩
  | sends frame pc id hopen hv hid hpc htype hattach h =>
      rw [h] at howed ⊢
      refine ⟨hsound, hnames, hanswers, fun id' hid' q earlier hsent => ?_,
        fun id' hid' q earlier hsent _ => ?_, howed⟩
      · rw [← (List.cons.inj hsent).1]
        exact htype
      · have hreading := hready hopen
        refine ⟨fun hends => ?_, fun ok hreturned => ?_⟩
        · have hends' : endsAfter s.connection.control.pc = some true := hends
          rw [hreading] at hends'
          cases hends'
        · have hreturned' : s.connection.control.pc = .returned ok := hreturned
          rw [hreading] at hreturned'
          cases hreturned'

theorem waitsFor_attach (pc : CommandPc) (h : pc.waitsFor "Attach" = true) :
    ∃ id, pc = .attaching id := by
  cases pc with
  | attaching id => exact ⟨id, rfl⟩
  | _ => simp [CommandPc.waitsFor] at h

/-- A command that uses a lease, or is told of it, waits for no `Shutdown`. -/
theorem not_shutdown (pc : CommandPc) (messageType : String)
    (hwaits : pc.waitsFor messageType = true)
    (h : (∃ leaseId, pc.holds = some leaseId) ∨ messageType = "Attach") :
    messageType ≠ "Shutdown" := by
  rcases h with ⟨leaseId, hholds⟩ | rfl
  · rintro rfl
    cases pc with
    | opening id lease uri => simp [CommandPc.waitsFor] at hwaits
    | calling id lease uri => simp [CommandPc.waitsFor] at hwaits
    | closing id lease result => simp [CommandPc.waitsFor] at hwaits
    | _ => cases hholds
  · decide

/-- A command that hears the answer to its request keeps what it owes. -/
theorem kept_answered (s : Conversation) (nanos : Nat) (file : Except String SourceFile)
    (q r : ControlEnvelope) (earlier responses : List ControlEnvelope) (id : String)
    (hid : s.pc.expectedId = some id) (hsent : s.sent = q :: earlier)
    (hbytes : s.connection.bytes = []) (hresponses : s.connection.responses = r :: responses)
    (hcarried : Connection.carried s.connection.control.pc = none) (h : s.Kept) :
    Kept (({ s with toClient := [], heard := (q, r) :: s.heard } : Conversation).proceed toString
      nanos file (.ok r)) := by
  have hmem : r ∈ s.connection.sent := by
    refine List.mem_append_right _ ?_
    rw [hresponses]
    exact List.mem_cons_self
  rcases h.answers r hmem with ⟨⟨rid, answer, rfl⟩, htold⟩
  have hwaits := h.types id hid q earlier hsent
  refine kept_moved _ _ (moved_proceed _ nanos file _ id hid) h.sound h.names h.answers ?_ ?_
  · intro hopen
    cases hpc : s.connection.control.pc with
    | reading => rfl
    | returned ok =>
        have hclosed : s.daemonClosed = false := hopen
        rw [daemonClosed, hpc] at hclosed
        cases hclosed
    | _ => rw [hpc] at hcarried; cases hcarried
  · intro pair hpair hattach leaseId htells
    -- A lease that is used, or that the answer names.
    have hpasses : s.pc.holds = some leaseId ∨
        (∃ expected, s.pc = .attaching expected) ∧ Tells (answer.envelope rid) leaseId →
        q.messageType ≠ "Shutdown" →
        Owed leaseId (({ s with
          toClient := []
          heard := (q, answer.envelope rid) :: s.heard } : Conversation).proceed toString nanos
            file (.ok (answer.envelope rid))) := by
      intro hlease htype
      have hopen := open_of_stays s (h.stays id hid q earlier hsent htype)
      exact owed_of_passes leaseId _ _ (passes_proceed
        { s with toClient := [], heard := (q, answer.envelope rid) :: s.heard } nanos leaseId hopen
        file rid answer hlease)
    rcases List.mem_cons.mp hpair with rfl | hold
    · refine ⟨htold leaseId htells, ?_⟩
      rw [show q.messageType = "Attach" from hattach] at hwaits hpasses
      exact hpasses (.inr ⟨waitsFor_attach s.pc hwaits, htells⟩) (by decide)
    · rcases h.owed pair hold hattach leaseId htells with ⟨hgranted, howed⟩
      refine ⟨hgranted, ?_⟩
      cases howed with
      | holds hpc =>
          exact hpasses (.inl hpc) (not_shutdown s.pc q.messageType hwaits (.inl ⟨leaseId, hpc⟩))
      | releasing q' earlier' id' result hpc hsent' hq hat =>
          -- The answer to the release: the lease is out.
          rcases hat hbytes with hout | ⟨id'', call, hreleasing, _⟩
          · refine .ended result ?_ ?_
            · simp only [proceed, hpc]
            · simp only [proceed, hpc]
              exact hout
          · rw [hreleasing] at hcarried
            cases hcarried
      | ended result hpc hout => rw [hpc] at hid; cases hid
      | killed hpc => rw [hpc] at hid; cases hid

/-- What every run keeps, as long as the frames are small enough and no lease id is
    given out twice. -/
theorem kept_step (hcompact : Json.PrintsCompact toString) (s s' : Conversation)
    (a : ConversationAction) (hstep : s.step toString fromStr a = some s')
    (hback : s.ReadsBack toString fromStr) (hfit : s.FramesFit toString)
    (hnew : NewIdIn Conversation.world inner s a) (horderly : s.Orderly toString) (h : s.Kept) :
    s'.Kept := by
  cases a with
  | daemon b =>
      rcases step_cases s s' _ hstep with ⟨b', c, hb, hmay, hc, rfl⟩ | ⟨hclient, _⟩
      · rw [ConversationAction.daemon.injEq] at hb
        rw [hb] at hnew
        exact kept_daemon hcompact s c b' _ horderly hback hfit hmay hc hnew h
      · exact absurd rfl (hclient b)
  | begin nanos =>
      simp only [step] at hstep
      split at hstep
      · rename_i hpc
        -- Before its first frame the command has heard nothing.
        rcases horderly.fresh hpc with ⟨hreading, _, _, _, _, hheard⟩
        rw [← Option.some.inj hstep]
        refine kept_moved s _ (moved_begin s nanos) h.sound h.names h.answers (fun _ => hreading) ?_
        intro pair hpair
        rw [hheard] at hpair
        cases hpair
      · cases hstep
  | hear nanos file =>
      rcases hear_orderly hcompact s s' nanos file hback hstep horderly with
        ⟨id, q, earlier, hid, hsent, _,
          ⟨r, responses, hbytes, _, hcarried, hresponses, _, rfl⟩ | ⟨hlong, _⟩⟩
      · exact kept_answered s nanos file q r earlier responses id hid hsent hbytes hresponses
          hcarried h
      -- The answer was to a frame too long, and none is.
      · exact absurd hlong (Nat.not_lt.mpr (hfit q (by rw [hsent]; exact List.mem_cons_self)))
  | kill =>
      simp only [step] at hstep
      split at hstep
      · cases hstep
      -- Who is killed owes nothing any more.
      · rw [← Option.some.inj hstep]
        exact ⟨h.sound, h.names, h.answers, fun id hid => (by cases hid),
          fun id hid => (by cases hid), fun pair hpair hattach leaseId htells =>
            ⟨(h.owed pair hpair hattach leaseId htells).1, .killed rfl⟩⟩

theorem kept_start (idleTtl : Duration) (ws : List Action) (world : World)
    (hworld : run World.step (World.init idleTtl) ws = some world) (command : Command)
    (caller : Caller) (settings : MemoryBudgetSettings) (startedAt : Instant) :
    (start command caller world settings startedAt).Kept where
  sound := run_invariant (fun w a w' hw hstep _ => World.leaseSound_step w w' a hw hstep) ws _ world
    hworld (World.leaseSound_init idleTtl) (along_true ws _)
  names := ⟨fun response stop leaseId hpc => (by cases hpc),
    fun id lease handle hpc => (by cases hpc)⟩
  answers := fun r hr => (by cases hr)
  types := fun id hid => (by cases hid)
  stays := fun id hid => (by cases hid)
  owed := fun pair hpair => (by cases hpair)

/-- A command that has ended by itself has left no lease: whatever the other clients of
    the daemon do, each lease that the daemon has told it of is out of the registry
    when it is done, if its frames were small enough and no lease id was given out
    twice. -/
theorem lease_returned (hcompact : Json.PrintsCompact toString) (idleTtl : Duration)
    (ws : List Action) (world : World)
    (hworld : run World.step (World.init idleTtl) ws = some world) (command : Command)
    (caller : Caller) (settings : MemoryBudgetSettings) (startedAt : Instant)
    (as : List ConversationAction) (s : Conversation)
    (hrun : run (step toString fromStr) (start command caller world settings startedAt) as =
      some s) (hback : s.ReadsBack toString fromStr) (hfit : s.FramesFit toString)
    (hnew : Along (step toString fromStr) (NewIdIn Conversation.world inner)
      (start command caller world settings startedAt) as)
    (result : Except ClientError Report) (hended : s.pc = .ended result) :
    ∀ pair ∈ s.heard, pair.1.messageType = "Attach" → ∀ leaseId, Tells pair.2 leaseId →
      s.world.reg.leases.get? leaseId = none := by
  -- What is asked of the frames at the end was so before.
  have hbefore : ∀ (u : Conversation) (a : ConversationAction) (u' : Conversation),
      u.step toString fromStr a = some u' →
      u'.ReadsBack toString fromStr ∧ u'.FramesFit toString →
        u.ReadsBack toString fromStr ∧ u.FramesFit toString := by
    rintro u a u' hstep ⟨hback', hfit'⟩
    exact ⟨readsBack_before u u' a hstep hback',
      fun q hq => hfit' q ((written_step u u' a hstep).1 q hq)⟩
  have hkept := run_invariant
    (I := fun u => u.ReadsBack toString fromStr ∧ u.FramesFit toString →
      u.Orderly toString ∧ u.Kept) (C := NewIdIn Conversation.world inner)
    (fun u a u' hu hstep hnewIn hafter => by
      rcases hbefore u a u' hstep hafter with ⟨hbacku, hfitu⟩
      rcases hu ⟨hbacku, hfitu⟩ with ⟨horderly, hkept⟩
      exact ⟨orderly_step hcompact u u' a hstep hafter.1 horderly,
        kept_step hcompact u u' a hstep hbacku hfitu hnewIn horderly hkept⟩) as _ s hrun
    (fun _ => ⟨orderly_start command caller world settings startedAt,
      kept_start idleTtl ws world hworld command caller settings startedAt⟩) hnew
  intro pair hpair hattach leaseId htells
  rcases ((hkept ⟨hback, hfit⟩).2.owed pair hpair hattach leaseId htells).2 with
    hpc | ⟨q, earlier, id, result', hpc, _, _, _⟩ | ⟨result', _, hout⟩ | hpc
  · rw [hended] at hpc
    cases hpc
  · rw [hended] at hpc
    cases hpc
  · exact hout.2
  · rw [hended] at hpc
    cases hpc

open Connection (plainText plain_compact)

theorem lease_returned_capabilities : ∃ s,
    run (step plainText readCapabilities) capabilitiesStart capabilitiesRun = some s ∧
      ∀ pair ∈ s.heard, pair.1.messageType = "Attach" → ∀ leaseId, Tells pair.2 leaseId →
        s.world.reg.leases.get? leaseId = none := by
  rcases capabilitiesRun_ends with ⟨s, hrun, hback, hfit, hended⟩
  exact ⟨s, hrun, lease_returned plain_compact 5 [] (World.init 5) rfl .capabilities _
    ⟨none, none, 5⟩ 0 capabilitiesRun s hrun hback hfit (by decide +kernel) _ hended⟩

end Conversation

end Lspee
