import Lspee.Theory.Returning

/-!
# Commands Report What Was So

Whether what a command prints about the registry was ever true of it. `status` prints
numbers and `capabilities` what a server answered to `initialize`; both were read by
the daemon some time before, while everybody else went on using the registry.

The numbers of `status` are read under all guards at once, so they are those of one
state of the registry. What `capabilities` prints is read from the session under the
caller's key when the daemon looks it up after the acquire, which may be another
session than the lease was granted on. In both cases that state is one that the run
has visited since the command began (`reports_visited`): the answer is not older than
the question.

The rule `run_visits` keeps the states that were visited beside the one that is
reached.

## Main definitions

* `Matches`, `HasResult`: The registry is as a report says.
* `Report.ShownIn`: A report is of one of the states.
* `Shows`: So is a response.
* `Control.ShowsAll`: So is what the daemon is about to answer.
* `Backs`, `Conversation.Reports`: What a command makes of a response, and reports.
* `Conversation.Shown`: What every run keeps.

## Theorems

* `showsAll_step`: The daemon answers from a state of the registry.
* `reports_proceed`: A command reports what it was answered.
* `shown_step`: What every run keeps.
* `reports_visited`: A report is of a state that was visited.
-/

namespace Lspee

open Transition Utf8

/-- The counters as they are sent. -/
def RegistryCounters.wire (counters : RegistryCounters) : StatsCounters where
  sessionsSpawnedTotal := counters.sessionsSpawnedTotal
  sessionsReusedTotal := counters.sessionsReusedTotal
  sessionsGcIdleTotal := counters.sessionsGcIdleTotal
  sessionsEvictedMemoryTotal := counters.sessionsEvictedMemoryTotal
  sessionCrashesTotal := counters.sessionCrashesTotal
  attachRequestsTotal := counters.attachRequestsTotal

/-- The registry has the numbers of the report. -/
structure Matches (ok : StatsOk) (w : World) : Prop where
  sessions : ok.sessions = w.reg.sessionCount
  leases : ok.leases = w.reg.leaseCount
  counters : ok.counters = w.reg.counters.wire

/-- The session registered under the key has this result of `initialize`; `null` is
    reported as none. -/
def HasResult (key : SessionKey) (result : Option Json) (w : World) : Prop :=
  ∃ record, w.reg.sessions.get? key = some record ∧
    result = Json.unlessNull (some record.handle.initializeResult)

/-- The report is of one of the states. -/
def Report.ShownIn (key : SessionKey) (V : World → Prop) : Report → Prop
  | .stats ok => ∃ w, V w ∧ Matches ok w
  | .capabilities result => ∃ w, V w ∧ HasResult key result w
  | _ => True

/-- What a command reads in the response is of one of the states. -/
structure Shows (key : SessionKey) (V : World → Prop) (r : ControlEnvelope) : Prop where
  stats : ∀ ok, statsReport (.ok r) = .ok (.stats ok) → ∃ w, V w ∧ Matches ok w
  capabilities : ∀ ok, attachedOk (.ok r) = .ok ok →
    ∃ w, V w ∧ HasResult key ok.initializeResult w

section Showing

variable {key : SessionKey} {V W : World → Prop}

theorem Report.shownIn_mono (hVW : ∀ w, V w → W w) (report : Report) (h : report.ShownIn key V) :
    report.ShownIn key W := by
  cases report with
  | stats ok =>
      rcases h with ⟨w, hw, hmatches⟩
      exact ⟨w, hVW w hw, hmatches⟩
  | capabilities result =>
      rcases h with ⟨w, hw, hresult⟩
      exact ⟨w, hVW w hw, hresult⟩
  | _ => trivial

theorem shows_mono (hVW : ∀ w, V w → W w) (r : ControlEnvelope) (h : Shows key V r) :
    Shows key W r where
  stats := by
    intro ok hok
    rcases h.stats ok hok with ⟨w, hw, hmatches⟩
    exact ⟨w, hVW w hw, hmatches⟩
  capabilities := by
    intro ok hok
    rcases h.capabilities ok hok with ⟨w, hw, hresult⟩
    exact ⟨w, hVW w hw, hresult⟩

theorem expectType_ok (request messageType : String) (r : ControlEnvelope) (payload : Json)
    (h : expectType request messageType r = .ok payload) :
    r.messageType = messageType ∧ payload = r.payload := by
  simp only [expectType, ensureNotError, bind, Except.bind] at h
  split at h
  · cases h
  · split at h
    · rename_i htype
      exact ⟨htype, (Except.ok.inj h).symm⟩
    · cases h

theorem decodeAs_ok {α : Type} (type : String) (fromValue : Json → Option α) (payload : Json)
    (x : α) (h : decodeAs type fromValue payload = .ok x) : fromValue payload = some x := by
  unfold decodeAs at h
  split at h
  · rename_i y hy
    rw [hy, Except.ok.inj h]
  · cases h

/-- What `status` reads is a `StatsOk`. -/
theorem statsReport_ok (r : ControlEnvelope) (ok : StatsOk)
    (h : statsReport (.ok r) = .ok (.stats ok)) :
    r.messageType = "StatsOk" ∧ StatsOk.fromValue r.payload = some ok := by
  simp only [statsReport, bind, Except.bind] at h
  split at h
  · cases h
  · rename_i payload hpayload
    rcases expectType_ok _ _ r payload hpayload with ⟨htype, rfl⟩
    split at h
    · cases h
    · rename_i ok' hdecoded
      refine ⟨htype, ?_⟩
      rw [decodeAs_ok _ _ _ _ hdecoded]
      simp only [pure, Except.pure, Except.ok.injEq, Report.stats.injEq] at h
      rw [h]

theorem attachedOk_ok (r : ControlEnvelope) (ok : AttachOk) (h : attachedOk (.ok r) = .ok ok) :
    r.messageType = "AttachOk" ∧ AttachOk.fromValue r.payload = some ok := by
  simp only [attachedOk, bind, Except.bind] at h
  split at h
  · cases h
  · rename_i payload hpayload
    rcases expectType_ok _ _ r payload hpayload with ⟨htype, rfl⟩
    exact ⟨htype, decodeAs_ok _ _ _ _ h⟩

/-- Most responses report neither. -/
theorem shows_silent (r : ControlEnvelope) (hstats : r.messageType ≠ "StatsOk")
    (hattach : r.messageType ≠ "AttachOk") : Shows key V r where
  stats := fun ok hok => absurd (statsReport_ok r ok hok).1 hstats
  capabilities := fun ok hok => absurd (attachedOk_ok r ok hok).1 hattach

theorem StatsOk.fromValue_statsOk (settings : MemoryBudgetSettings)
    (sessions leases uptimeMs memoryTotal : Nat) (counters : RegistryCounters) :
    fromValue (statsOk settings sessions leases uptimeMs memoryTotal counters) =
      some ⟨sessions, leases, uptimeMs, counters.wire,
        ⟨memoryTotal, settings.maxTotalBytes, settings.maxSessionBytes⟩⟩ := by
  rcases settings with ⟨maxSessionBytes, maxTotalBytes, _⟩
  cases maxSessionBytes <;> cases maxTotalBytes <;> rfl

/-- A `StatsOk` shows the numbers in it. -/
theorem shows_stats (id : Option String) (settings : MemoryBudgetSettings)
    (uptimeMs memoryTotal : Nat) (w : World) (hw : V w) :
    Shows key V (okEnvelope id "StatsOk" (statsOk settings w.reg.sessionCount w.reg.leaseCount
      uptimeMs memoryTotal w.reg.counters)) where
  stats := by
    intro ok hok
    have hdecoded := (statsReport_ok _ ok hok).2
    rw [okEnvelope, StatsOk.fromValue_statsOk, Option.some.injEq] at hdecoded
    rw [← hdecoded]
    exact ⟨w, hw, rfl, rfl, rfl⟩
  capabilities := fun ok hok =>
    absurd (attachedOk_ok _ ok hok).1 (show ("StatsOk" : String) ≠ "AttachOk" by decide)

/-- An `AttachOk` shows the result of `initialize` in it. -/
theorem shows_attach (id : Option String) (leaseId : String) (mode : StreamMode)
    (endpoint : Option String) (handle : SessionHandle)
    (h : ∃ w, V w ∧ ∃ record, w.reg.sessions.get? key = some record ∧ record.handle = handle) :
    Shows key V
      (okEnvelope id "AttachOk" (attachOk leaseId mode endpoint handle.initializeResult)) where
  stats := fun ok hok =>
    absurd (statsReport_ok _ ok hok).1 (show ("AttachOk" : String) ≠ "StatsOk" by decide)
  capabilities := by
    intro ok hok
    have hdecoded := (attachedOk_ok _ ok hok).2
    rw [okEnvelope, AttachOk.fromValue_attachOk, Option.some.injEq] at hdecoded
    rcases h with ⟨w, hw, record, hrecord, rfl⟩
    exact ⟨w, hw, record, hrecord, by rw [← hdecoded]⟩

end Showing

/-! ### What the daemon is about to answer -/

/-- The handle is that of the session under the key, in one of the states. -/
def HandleIn (key : SessionKey) (V : World → Prop) (handle : SessionHandle) : Prop :=
  ∃ w, V w ∧ ∃ record, w.reg.sessions.get? key = some record ∧ record.handle = handle

/-- The attach is for the key, and the handle it has looked up is one of the states'. -/
def AttachFor (key : SessionKey) (V : World → Prop) : Frame → Prop
  | .acquire k _ _ => k = key
  | .attached _ handle => ∀ h, handle = some h → HandleIn key V h
  | _ => False

namespace Control

/-- What the daemon is about to answer is of one of the states. -/
structure ShowsAll (key : SessionKey) (V : World → Prop) (s : Control) : Prop where
  writing : ∀ r stop, s.pc = .writing r stop → Shows key V r
  sampling : ∀ id sessions leases counters, s.pc = .sampling id sessions leases counters →
    ∃ w, V w ∧ sessions = w.reg.sessionCount ∧ leases = w.reg.leaseCount ∧
      counters = w.reg.counters
  binding : ∀ id lease handle, s.pc = .binding id lease handle → HandleIn key V handle
  attaching : ∀ id mode call, s.pc = .attaching id mode call →
    ∃ frame, s.world.calls.get? call = some frame ∧ AttachFor key V frame

variable {key : SessionKey} {V W : World → Prop}

theorem handleIn_mono (hVW : ∀ w, V w → W w) (handle : SessionHandle)
    (h : HandleIn key V handle) : HandleIn key W handle := by
  rcases h with ⟨w, hw, hrecord⟩
  exact ⟨w, hVW w hw, hrecord⟩

theorem attachFor_mono (hVW : ∀ w, V w → W w) (frame : Frame) (h : AttachFor key V frame) :
    AttachFor key W frame := by
  cases frame with
  | acquire k clientKind pc => exact h
  | attached lease handle =>
      exact fun handle' hhandle => handleIn_mono hVW handle' (h handle' hhandle)
  | _ => exact h.elim

theorem showsAll_mono (hVW : ∀ w, V w → W w) (s : Control) (h : s.ShowsAll key V) :
    s.ShowsAll key W where
  writing := fun r stop hpc => shows_mono hVW r (h.writing r stop hpc)
  sampling := by
    intro id sessions leases counters hpc
    rcases h.sampling id sessions leases counters hpc with ⟨w, hw, hsame⟩
    exact ⟨w, hVW w hw, hsame⟩
  binding := fun id lease handle hpc => handleIn_mono hVW handle (h.binding id lease handle hpc)
  attaching := by
    intro id mode call hpc
    rcases h.attaching id mode call hpc with ⟨frame, hframe, hfor⟩
    exact ⟨frame, hframe, attachFor_mono hVW frame hfor⟩

/-- An attach stays one for its key; the handle it looks up is the session's. -/
theorem attachFor_step (w w' : World) (a : Action) (hV : V w) (hstep : w.step a = some w')
    (call : CallId) (frame : Frame) (hcall : w.calls.get? call = some frame)
    (h : AttachFor key V frame) :
    ∃ frame', w'.calls.get? call = some frame' ∧ AttachFor key V frame' := by
  by_cases hmover : a.mover = some call
  · cases frame with
    | acquire k clientKind pc =>
        cases a with
        | tick span => cases hmover
        | start c method => cases hmover
        | sect c =>
            rw [Action.mover, Option.some.injEq] at hmover
            simp only [World.step, hmover, hcall, Option.map_eq_some_iff, Prod.exists] at hstep
            rcases hstep with ⟨r', frame', events, hsec, rfl⟩
            refine ⟨frame', Table.get?_set_self _ _ _, ?_⟩
            rcases section_acquire call w.now w.reg r' k clientKind pc frame' events hsec with
              ⟨lease, _, _, hframe, _⟩ | ⟨pc', _, hframe⟩
            · rw [hframe]
              intro handle hhandle
              rcases Option.map_eq_some_iff.mp hhandle with ⟨record, hrecord, hsame⟩
              rw [show k = key from h] at hrecord
              exact ⟨w, hV, record, hrecord, hsame⟩
            · rw [hframe]
              exact h
        | spawnReturns c result =>
            rw [Action.mover, Option.some.injEq] at hmover
            simp only [World.step, hmover, hcall] at hstep
            split at hstep
            · rename_i key' clientKind' g heq
              rw [Option.some.injEq] at heq hstep
              rw [heq] at h
              rw [← hstep]
              cases result with
              | ok initializeResult => exact ⟨_, Table.get?_set_self _ _ _, h⟩
              | error error => exact ⟨_, Table.get?_set_self _ _ _, h⟩
            · cases hstep
        | runtimeReturns c result =>
            rw [Action.mover, Option.some.injEq] at hmover
            simp [World.step, hmover, hcall] at hstep
    | attached lease handle =>
        exact ⟨_, World.settled_step w w' a hstep call _ hcall rfl, h⟩
    | _ => exact h.elim
  · exact ⟨frame, calls_step w w' a hstep call frame hcall hmover, h⟩

theorem showsAll_quiet (s : Control) (hwriting : ∀ r stop, s.pc ≠ .writing r stop)
    (hsampling : ∀ id sessions leases counters, s.pc ≠ .sampling id sessions leases counters)
    (hbinding : ∀ id lease handle, s.pc ≠ .binding id lease handle)
    (hattaching : ∀ id mode call, s.pc ≠ .attaching id mode call) : s.ShowsAll key V :=
  ⟨fun r stop hpc => absurd hpc (hwriting r stop),
    fun id sessions leases counters hpc => absurd hpc (hsampling id sessions leases counters),
    fun id lease handle hpc => absurd hpc (hbinding id lease handle),
    fun id mode call hpc => absurd hpc (hattaching id mode call)⟩

theorem showsAll_write (s : Control) (r : ControlEnvelope) (stop : Bool)
    (hpc : s.pc = .writing r stop) (hshows : Shows key V r) : s.ShowsAll key V := by
  refine ⟨fun r' stop' hpc' => ?_, fun _ _ _ _ hpc' => ?_, fun _ _ _ hpc' => ?_,
    fun _ _ _ hpc' => ?_⟩
  · rw [hpc, ControlPc.writing.injEq] at hpc'
    rw [← hpc'.1]
    exact hshows
  · rw [hpc] at hpc'
    cases hpc'
  · rw [hpc] at hpc'
    cases hpc'
  · rw [hpc] at hpc'
    cases hpc'

/-- The handle that a connection has is that of the session. -/
theorem handleIn_of_hasLease (s : Control) (lease : Lease) (handle : SessionHandle)
    (h : s.ShowsAll key V) (hhas : s.HasLease lease handle) : HandleIn key V handle := by
  rcases hhas with ⟨id, mode, call, hpc, hcall⟩ | ⟨id, hpc⟩
  · rcases h.attaching id mode call hpc with ⟨frame, hframe, hfor⟩
    rw [hcall, Option.some.injEq] at hframe
    rw [← hframe] at hfor
    exact hfor handle rfl
  · exact h.binding id lease handle hpc

/-- The daemon answers from a state of the registry. -/
theorem showsAll_step {Q : ControlEnvelope → Prop} {A : Action → Prop} (s s' : Control)
    (hV : V s.world)
    (hkey : ∀ q, Q q → q.messageType = "Attach" → ∀ attach,
      Attach.fromValue q.payload = some attach → attach.sessionKey.sessionKey = key)
    (hstep : Went Q A s s') (h : s.ShowsAll key V) : s'.ShowsAll key V := by
  cases hstep with
  | world a ha hpc hstep =>
      refine ⟨fun r stop hpc' => h.writing r stop (hpc.symm.trans hpc'),
        fun id sessions leases counters hpc' =>
          h.sampling id sessions leases counters (hpc.symm.trans hpc'),
        fun id lease handle hpc' => h.binding id lease handle (hpc.symm.trans hpc'),
        fun id mode call hpc' => ?_⟩
      rcases h.attaching id mode call (hpc.symm.trans hpc') with ⟨frame, hframe, hfor⟩
      exact attachFor_step s.world s'.world a hV hstep call frame hframe hfor
  | rests hworld hpc =>
      rcases hpc with hpc | ⟨ok, hpc⟩ <;>
        exact showsAll_quiet s' (by simp [hpc]) (by simp [hpc]) (by simp [hpc]) (by simp [hpc])
  | plain r stop hworld hpc hplain =>
      exact showsAll_write s' r stop hpc (shows_silent r hplain.stats hplain.attach)
  | attaches q attach id mode call hq htype hpayload hpc hstart =>
      refine ⟨fun r stop hpc' => ?_, fun _ _ _ _ hpc' => ?_, fun _ _ _ hpc' => ?_,
        fun id' mode' call' hpc' => ?_⟩
      · rw [hpc] at hpc'
        cases hpc'
      · rw [hpc] at hpc'
        cases hpc'
      · rw [hpc] at hpc'
        cases hpc'
      · rw [hpc, ControlPc.attaching.injEq] at hpc'
        rw [← hpc'.2.2]
        -- The call is on the key, as the caller has asked.
        exact ⟨_, World.started s.world s'.world call _ hstart, hkey q hq htype attach hpayload⟩
  | calls q payload id call hq htype hpayload hpc hstart =>
      exact showsAll_quiet s' (by simp [hpc]) (by simp [hpc]) (by simp [hpc]) (by simp [hpc])
  | waits call method hpc hstart =>
      refine showsAll_quiet s' (fun _ _ hpc' => ?_) (fun _ _ _ _ hpc' => ?_)
        (fun _ _ _ hpc' => ?_) (fun _ _ _ hpc' => ?_)
      · rw [hpc'] at hpc
        cases hpc
      · rw [hpc'] at hpc
        cases hpc
      · rw [hpc'] at hpc
        cases hpc
      · rw [hpc'] at hpc
        cases hpc
  | samples id hworld hpc =>
      refine ⟨fun r stop hpc' => ?_, fun id' sessions leases counters hpc' => ?_,
        fun _ _ _ hpc' => ?_, fun _ _ _ hpc' => ?_⟩
      · rw [hpc] at hpc'
        cases hpc'
      · rw [hpc, ControlPc.sampling.injEq] at hpc'
        -- What is sampled is of this very world, whatever comes before the answer.
        exact ⟨s.world, hV, hpc'.2.1.symm, hpc'.2.2.1.symm, hpc'.2.2.2.symm⟩
      · rw [hpc] at hpc'
        cases hpc'
      · rw [hpc] at hpc'
        cases hpc'
  | binds id lease handle hhas hworld hpc =>
      refine ⟨fun r stop hpc' => ?_, fun _ _ _ _ hpc' => ?_, fun id' lease' handle' hpc' => ?_,
        fun _ _ _ hpc' => ?_⟩
      · rw [hpc] at hpc'
        cases hpc'
      · rw [hpc] at hpc'
        cases hpc'
      · rw [hpc, ControlPc.binding.injEq] at hpc'
        rw [← hpc'.2.2]
        exact handleIn_of_hasLease s lease handle h hhas
      · rw [hpc] at hpc'
        cases hpc'
  | attachOk id lease mode endpoint handle hhas hworld hpc =>
      exact showsAll_write s' _ _ hpc
        (shows_attach id _ mode endpoint handle (handleIn_of_hasLease s lease handle h hhas))
  | statsOk id sessions leases counters uptimeMs memoryTotal hold hworld hpc =>
      rcases h.sampling id sessions leases counters hold with ⟨w, hw, rfl, rfl, rfl⟩
      exact showsAll_write s' _ _ hpc (shows_stats id _ _ _ w hw)
  | callOk id leaseId call kind id' message response hold hcall hworld hpc =>
      exact showsAll_write s' _ _ hpc (shows_silent _
        (show ("CallOk" : String) ≠ "StatsOk" by decide)
        (show ("CallOk" : String) ≠ "AttachOk" by decide))

end Control

/-- The result that a command will end with, or has ended with. -/
def CommandPc.result : CommandPc → Option (Except ClientError Report)
  | .closing _ _ result => some result
  | .releasing _ _ result => some result
  | .ended result => some result
  | _ => none

/-- What a command makes of the response. -/
structure Backs (Q : Report → Prop) (r : ControlEnvelope) : Prop where
  stats : ∀ ok, statsReport (.ok r) = .ok (.stats ok) → Q (.stats ok)
  capabilities : ∀ ok, attachedOk (.ok r) = .ok ok → Q (.capabilities ok.initializeResult)
  response : ∀ value, callReport (.ok r) = .ok (.response value) → Q (.response value)

theorem backs_of_shows {key : SessionKey} {V : World → Prop} (r : ControlEnvelope)
    (h : Shows key V r) : Backs (Report.ShownIn key V) r where
  stats := h.stats
  capabilities := h.capabilities
  response := fun _ _ => trivial

theorem statsReport_kind (response : Except ClientError ControlEnvelope) (report : Report)
    (h : statsReport response = .ok report) : ∃ ok, report = .stats ok := by
  simp only [statsReport, bind, Except.bind] at h
  split at h
  · cases h
  · split at h
    · cases h
    · split at h
      · cases h
      · exact ⟨_, (Except.ok.inj h).symm⟩

theorem callReport_kind (response : Except ClientError ControlEnvelope) (report : Report)
    (h : callReport response = .ok report) : ∃ value, report = .response value := by
  simp only [callReport, bind, Except.bind] at h
  split at h
  · cases h
  · split at h
    · cases h
    · split at h
      · cases h
      · exact ⟨_, (Except.ok.inj h).symm⟩

theorem stopReport_kind (response : Except ClientError ControlEnvelope) (report : Report)
    (h : stopReport response = .ok report) : report = .stopped := by
  simp only [stopReport, bind, Except.bind] at h
  split at h
  · cases h
  · split at h
    · cases h
    · split at h
      · cases h
      · exact (Except.ok.inj h).symm

namespace Conversation

variable {toString : Json → List Char} {fromStr : List Char → Option Json}

/-! ### What a command reports -/

/-- What a command reports is so. -/
def Reports (Q : Report → Prop) (pc : CommandPc) : Prop :=
  ∀ report, pc.result = some (.ok report) → Q report

section Reporting

variable {Q : Report → Prop}

theorem reports_transmit (s : Conversation) (frame : ControlEnvelope) (pc unsent : CommandPc)
    (hpc : Reports Q pc) (hunsent : Reports Q unsent) :
    Reports Q (s.transmit toString frame pc unsent).pc := by
  unfold transmit
  split
  · exact hunsent
  · exact hpc

theorem reports_none (pc : CommandPc) (h : pc.result = none) : Reports Q pc := by
  intro report hreport
  rw [h] at hreport
  cases hreport

theorem reports_result (pc : CommandPc) (result : Except ClientError Report)
    (h : pc.result = some result) (hresult : ∀ report, result = .ok report → Q report) :
    Reports Q pc := by
  intro report hreport
  rw [h, Option.some.injEq] at hreport
  exact hresult report hreport

theorem reports_error (pc : CommandPc) (error : ClientError) (h : pc.result = some (.error error)) :
    Reports Q pc :=
  reports_result pc _ h fun _ hreport => by cases hreport

theorem reports_release (s : Conversation) (nanos : Nat) (leaseId : String)
    (result : Except ClientError Report) (hresult : ∀ report, result = .ok report → Q report) :
    Reports Q (s.release toString nanos leaseId result).pc :=
  reports_transmit s _ _ _ (reports_result _ result rfl hresult)
    (reports_result _ result rfl hresult)

theorem reports_call (s : Conversation) (nanos : Nat) (leaseId : String)
    (didOpenUri : Option String) : Reports Q (s.call toString nanos leaseId didOpenUri).pc :=
  reports_transmit s _ _ _ (reports_none _ rfl) (reports_error _ .io rfl)

theorem reports_begin (s : Conversation) (nanos : Nat) :
    Reports Q (s.begin toString nanos).pc := by
  unfold begin
  split
  · exact reports_transmit s _ _ _ (reports_none _ rfl) (reports_error _ .io rfl)
  · exact reports_transmit s _ _ _ (reports_none _ rfl) (reports_error _ .io rfl)
  · exact reports_transmit s _ _ _ (reports_none _ rfl) (reports_error _ .io rfl)

theorem reports_attached (s : Conversation) (nanos : Nat) (file : Except String SourceFile)
    (response : Except ClientError ControlEnvelope) (hbacks : ∀ r, response = .ok r → Backs Q r) :
    Reports Q (s.attached toString nanos file response).pc := by
  unfold attached
  split
  · split
    · rename_i ok hok
      refine reports_release s nanos ok.leaseId _ fun report hreport => ?_
      rw [← Except.ok.inj hreport]
      cases response with
      | error error => cases hok
      | ok r => exact (hbacks r rfl).capabilities ok hok
    · exact reports_error _ _ rfl
  · split
    · split
      · exact reports_transmit s _ _ _ (reports_none _ rfl) (reports_error _ .io rfl)
      · exact reports_call s _ _ _
    · exact reports_error _ _ rfl
  · split
    · exact reports_call s _ _ _
    · exact reports_error _ _ rfl

/-- What a `Call` reports was in its response. -/
theorem callReport_backed (response : Except ClientError ControlEnvelope) (report : Report)
    (hbacks : ∀ r, response = .ok r → Backs Q r) (h : callReport response = .ok report) :
    Q report := by
  rcases callReport_kind response report h with ⟨value, rfl⟩
  cases response with
  | error error => cases h
  | ok r => exact (hbacks r rfl).response value h

theorem reports_called (s : Conversation) (nanos : Nat) (leaseId : String)
    (didOpenUri : Option String) (response : Except ClientError ControlEnvelope)
    (hbacks : ∀ r, response = .ok r → Backs Q r) :
    Reports Q (s.called toString nanos leaseId didOpenUri response).pc := by
  have hresult : ∀ report, callReport response = .ok report → Q report :=
    fun report => callReport_backed response report hbacks
  unfold called
  split
  · exact reports_error _ _ rfl
  · split
    · exact reports_transmit s _ _ _ (reports_result _ _ rfl hresult)
        (reports_result _ _ rfl hresult)
    · exact reports_release s _ _ _ hresult

/-- A command that goes on reports what it was answered. -/
theorem reports_proceed (s : Conversation) (nanos : Nat) (file : Except String SourceFile)
    (response : Except ClientError ControlEnvelope) (hstopped : Q .stopped)
    (hbacks : ∀ r, response = .ok r → Backs Q r) (h : Reports Q s.pc) :
    Reports Q (s.proceed toString nanos file response).pc := by
  unfold proceed
  cases hpc : s.pc with
  | asking id =>
      simp only
      split
      · refine reports_result _ (stopReport response) rfl fun report hreport => ?_
        rw [stopReport_kind response report hreport]
        exact hstopped
      · refine reports_result _ (statsReport response) rfl fun report hreport => ?_
        rcases statsReport_kind response report hreport with ⟨ok, rfl⟩
        cases response with
        | error error => cases hreport
        | ok r => exact (hbacks r rfl).stats ok hreport
  | attaching id => exact reports_attached s nanos file response hbacks
  | opening id leaseId uri =>
      simp only
      split
      · exact reports_call s _ _ _
      · exact reports_call s _ _ _
  | calling id leaseId didOpenUri => exact reports_called s nanos leaseId didOpenUri response hbacks
  | closing id leaseId result =>
      rw [hpc] at h
      exact reports_release s _ _ _ fun report hreport => h report (congrArg some hreport)
  | releasing id leaseId result =>
      rw [hpc] at h
      exact fun report hreport => h report hreport
  | connected => simp only [hpc]; exact reports_none _ rfl
  | ended result => simp only [hpc]; rw [hpc] at h; exact h
  | killed => simp only [hpc]; exact reports_none _ rfl

end Reporting

variable {key : SessionKey} {V W : World → Prop}

/-! ### What every run keeps -/

/-- The daemon reads the caller's key in the `Attach` of a command. -/
theorem attachPayload_key (caller : Caller) (attach : Attach)
    (h : Attach.fromValue caller.attachPayload = some attach) : attach.sessionKey = caller.key := by
  simp only [Attach.fromValue, Option.bind_eq_bind, Option.bind_eq_some_iff] at h
  rcases h with ⟨field, hfield, key, hkey, clientMeta, _, capabilities, _, hattach⟩
  have hsession : field "session_key" = some (.obj [
      ("config_hash", .str caller.key.configHash), ("lsp_id", .str caller.key.lspId),
      ("project_root", .str caller.key.projectRoot)]) := by
    rw [← Option.some.inj hfield]
    rfl
  rcases hkey with ⟨value, hvalue, hkey⟩
  rw [hsession, Option.some.injEq] at hvalue
  rw [← hvalue] at hkey
  rw [← Option.some.inj hattach]
  exact (Option.some.inj hkey).symm

/-- What the daemon has answered and will answer, and what the command reports, is of
    one of the states. -/
structure Shown (V : World → Prop) (s : Conversation) : Prop where
  control : s.connection.control.ShowsAll s.caller.key.sessionKey V
  answers : ∀ r ∈ s.connection.responses, Shows s.caller.key.sessionKey V r
  frames : ∀ q ∈ s.sent, q.messageType = "Attach" → q.payload = s.caller.attachPayload
  reports : Reports (Report.ShownIn s.caller.key.sessionKey V) s.pc

theorem shown_mono (hVW : ∀ w, V w → W w) (s : Conversation) (h : s.Shown V) : s.Shown W where
  control := Control.showsAll_mono hVW _ h.control
  answers := fun r hr => shows_mono hVW r (h.answers r hr)
  frames := h.frames
  reports := fun report hreport => report.shownIn_mono hVW (h.reports report hreport)

theorem shown_daemon (hcompact : Json.PrintsCompact toString) (s : Conversation) (c : Connection)
    (b : ConnectionAction) (out : List UInt8) (horderly : s.Orderly toString)
    (hback : s.ReadsBack toString fromStr) (hV : V s.world)
    (hc : s.connection.step fromStr b = some c) (h : s.Shown V) :
    Shown V { s with connection := c, toClient := out } := by
  refine ⟨?_, fun r hr => ?_, h.frames, h.reports⟩
  · refine Control.showsAll_step _ _ hV (fun q hq htype attach hattach => ?_)
      (went_daemon hcompact s c b horderly hback hc) h.control
    rw [h.frames q hq htype] at hattach
    rw [attachPayload_key s.caller attach hattach]
  · rcases List.mem_append.mp (responses_step _ c b hc r hr) with hwritten | hold
    · rcases (Connection.mem_written _ r).mp hwritten with ⟨stop, hpc⟩
      exact h.control.writing r stop hpc
    · exact h.answers r hold

/-- A command that goes on reports what it was answered. -/
theorem shown_moved (s s' : Conversation) (hmoved : Moved toString s s')
    (hreports : Reports (Report.ShownIn s.caller.key.sessionKey V) s'.pc)
    (hcontrol : s.connection.control.ShowsAll s.caller.key.sessionKey V)
    (hanswers : ∀ r ∈ s.connection.responses, Shows s.caller.key.sessionKey V r)
    (hframes : ∀ q ∈ s.sent, q.messageType = "Attach" → q.payload = s.caller.attachPayload) :
    s'.Shown V := by
  cases hmoved with
  | ends result h =>
      rw [h] at hreports ⊢
      exact ⟨hcontrol, hanswers, hframes, hreports⟩
  | sends frame pc id hopen hv hid hpc htype hattach h =>
      rw [h] at hreports ⊢
      refine ⟨hcontrol, hanswers, fun q hq hqattach => ?_, hreports⟩
      rcases List.mem_cons.mp hq with rfl | hq
      · exact hattach hqattach
      · exact hframes q hq hqattach

/-- A step shows the states before it. -/
theorem shown_step (hcompact : Json.PrintsCompact toString) (s s' : Conversation)
    (a : ConversationAction) (hstep : s.step toString fromStr a = some s')
    (hback : s.ReadsBack toString fromStr) (horderly : s.Orderly toString) (hV : V s.world)
    (h : s.Shown V) : s'.Shown V := by
  cases a with
  | daemon b =>
      rcases step_cases s s' _ hstep with ⟨b', c, hb, hmay, hc, rfl⟩ | ⟨hclient, _⟩
      · exact shown_daemon hcompact s c b' _ horderly hback hV hc h
      · exact absurd rfl (hclient b)
  | begin nanos =>
      simp only [step] at hstep
      split at hstep
      · rw [← Option.some.inj hstep]
        exact shown_moved s _ (moved_begin s nanos) (reports_begin s nanos) h.control h.answers
          h.frames
      · cases hstep
  | hear nanos file =>
      rcases hear_orderly hcompact s s' nanos file hback hstep horderly with
        ⟨id, q, earlier, hid, _, _,
          ⟨r, responses, _, _, _, hresponses, _, rfl⟩ | ⟨_, _, _, rfl | ⟨error, rfl⟩⟩⟩
      · have hshows := h.answers r (by rw [hresponses]; exact List.mem_cons_self)
        refine shown_moved { s with toClient := [], heard := (q, r) :: s.heard } _
          (moved_proceed _ nanos file (.ok r) id hid)
          (reports_proceed _ nanos file (.ok r) trivial (fun r' hr' => ?_) h.reports)
          h.control h.answers h.frames
        rw [← Except.ok.inj hr']
        exact backs_of_shows r hshows
      · exact ⟨h.control, h.answers, h.frames, h.reports⟩
      · refine shown_moved { s with toClient := [] } _
          (moved_proceed _ nanos file (.error error) id hid)
          (reports_proceed _ nanos file (.error error) trivial (fun r hr => ?_) h.reports)
          h.control h.answers h.frames
        cases hr
  | kill =>
      simp only [step] at hstep
      split at hstep
      · cases hstep
      · rw [← Option.some.inj hstep]
        exact ⟨h.control, h.answers, h.frames, reports_none _ rfl⟩

theorem asker_moved (s s' : Conversation) (h : Moved toString s s') :
    s'.caller = s.caller ∧ s'.command = s.command := by
  cases h with
  | ends result h => rw [h]; exact ⟨rfl, rfl⟩
  | sends frame pc id hopen hv hid hpc htype hattach h => rw [h]; exact ⟨rfl, rfl⟩

/-- Who runs which command stays the same. -/
theorem asker_step (s s' : Conversation) (a : ConversationAction)
    (h : s.step toString fromStr a = some s') :
    s'.caller = s.caller ∧ s'.command = s.command := by
  cases a with
  | daemon b =>
      simp only [step] at h
      split at h
      · rcases Option.map_eq_some_iff.mp h with ⟨c, _, rfl⟩
        exact ⟨rfl, rfl⟩
      · cases h
  | begin nanos =>
      simp only [step] at h
      split at h
      · rw [← Option.some.inj h]
        exact asker_moved s _ (moved_begin s nanos)
      · cases h
  | hear nanos file =>
      rcases hear_cases s s' nanos file h with
        ⟨id, hid, _, ⟨rest, _, rfl⟩ | ⟨response, rest, _, rfl⟩⟩
      · exact ⟨rfl, rfl⟩
      · rcases note_same { s with toClient := rest } response with
          ⟨hpc, _, _, hcaller, hcommand⟩
        have hid' := (congrArg CommandPc.expectedId hpc).trans hid
        rcases asker_moved _ _ (moved_proceed _ nanos file response id hid') with
          ⟨hcaller', hcommand'⟩
        exact ⟨hcaller'.trans hcaller, hcommand'.trans hcommand⟩
  | kill =>
      simp only [step] at h
      split at h
      · cases h
      · rw [← Option.some.inj h]
        exact ⟨rfl, rfl⟩

theorem shown_start (command : Command) (caller : Caller) (world : World)
    (settings : MemoryBudgetSettings) (startedAt : Instant) :
    (start command caller world settings startedAt).Shown V where
  control := ⟨fun r stop hw => (by cases hw), fun _ _ _ _ hw => (by cases hw),
    fun _ _ _ hw => (by cases hw), fun _ _ _ hw => (by cases hw)⟩
  answers := fun r hr => (by cases hr)
  frames := fun q hq => (by cases hq)
  reports := reports_none _ rfl

/-- The states of the registry that a run passes through. -/
def WorldsOf (C : Conversation → Prop) (w : World) : Prop := ∃ u, C u ∧ u.world = w

/-- What a command reports was so: the numbers that `status` prints are those of one
    state that the registry was in since the command connected, and the capabilities
    that `capabilities` prints are those of the session that was registered under the
    caller's key in one. -/
theorem reports_visited (hcompact : Json.PrintsCompact toString) (command : Command)
    (caller : Caller) (world : World) (settings : MemoryBudgetSettings) (startedAt : Instant)
    (as : List ConversationAction) (s : Conversation)
    (hrun : run (step toString fromStr) (start command caller world settings startedAt) as =
      some s) (hback : s.ReadsBack toString fromStr) (report : Report)
    (hended : s.pc = .ended (.ok report)) :
    report.ShownIn caller.key.sessionKey (WorldsOf (Visits (step toString fromStr)
      (start command caller world settings startedAt) as)) := by
  have hshown := run_visits
    (I := fun V u => u.ReadsBack toString fromStr →
      u.caller = caller ∧ u.Orderly toString ∧ u.Shown (WorldsOf V))
    (fun V W u hVW hu hbacku => by
      rcases hu hbacku with ⟨hcaller, horderly, hshown⟩
      exact ⟨hcaller, horderly, shown_mono (fun w ⟨v, hv, hw⟩ => ⟨v, hVW v hv, hw⟩) u hshown⟩)
    (fun V u a u' hV hu hstep hback' => by
      have hbacku := readsBack_before u u' a hstep hback'
      rcases hu hbacku with ⟨hcaller, horderly, hshown⟩
      refine ⟨(asker_step u u' a hstep).1.trans hcaller,
        orderly_step hcompact u u' a hstep hback' horderly, ?_⟩
      exact shown_mono (fun w ⟨v, hv, hw⟩ => ⟨v, .inl hv, hw⟩) u'
        (shown_step hcompact u u' a hstep hbacku horderly ⟨u, hV, rfl⟩ hshown))
    as _ s hrun
    (fun _ => ⟨rfl, orderly_start command caller world settings startedAt,
      shown_start command caller world settings startedAt⟩)
  rcases hshown hback with ⟨hcaller, _, hshown⟩
  have hreports := hshown.reports report (by rw [hended]; rfl)
  rw [hcaller] at hreports
  exact hreports

open Connection (plainText plain_compact)

theorem reports_visited_capabilities : ∃ s result,
    run (step plainText readCapabilities) capabilitiesStart capabilitiesRun = some s ∧
      s.pc = .ended (.ok (.capabilities result)) ∧
      (Report.capabilities result).ShownIn capabilitiesStart.caller.key.sessionKey
        (WorldsOf (Visits (step plainText readCapabilities) capabilitiesStart
          capabilitiesRun)) := by
  rcases capabilitiesRun_ends with ⟨s, hrun, hback, _, hended⟩
  exact ⟨s, _, hrun, hended, reports_visited plain_compact .capabilities _ (World.init 5)
    ⟨none, none, 5⟩ 0 capabilitiesRun s hrun hback _ hended⟩

end Conversation

end Lspee
