import Lspee.Theory.Requests
import Lspee.Theory.Snapshots

/-!
# Commands Report What the Server Said

Whether what `call` and `do` report is what the language server has answered to the
request of the command. Between the two lie the command's frame, the lease it names,
two lookups in the registry, the runtime, and the way back; and the sessions may come
and go meanwhile.

The request is followed by the call of the registry that carries it (`AnswerAt`). A
lease that was granted on a key is looked up under this key only (`LentOn`), as long
as no lease id is given out twice, so the runtime is one that was registered under the
key of the caller. What the registry's call returns, the daemon writes; what it
writes, the command takes for the answer to its `Call`, by `hear_orderly`. So a
command that ends with a response has it from a runtime that was registered under its
key when it was handed the request, and that answered with this response
(`response_said`).

The rule `run_takes` keeps the steps that were taken beside the state.

## Main definitions

* `World.LentOn`: A lease is on a key.
* `AttachOn`: How far an attach for a key is.
* `HandedOver`, `Said`: A runtime was handed the request, and has answered.
* `AnswerAt`: How far a request is.
* `Truthful`, `Control.CallsFor`: What the daemon answers is so.
* `Conversation.Uses`: What a command does with its leases.
* `Conversation.Answered`: What every run keeps.

## Theorems

* `lentOn_step`, `attachOn_step`: A lease stays on its key.
* `answerAt_step`: A request on its way.
* `callsFor_step`: The daemon answers what the registry returned.
* `uses_proceed`: A command names the lease it was told of, and its own request.
* `answered_step`: What every run keeps.
* `response_said`: Where the response of a command is from.
-/

namespace Lspee

open Transition Utf8

namespace World

/-! ### A lease is on a key -/

/-- The lease was granted, and is in use on no key but this one. -/
def LentOn (w : World) (leaseId : String) (key : SessionKey) : Prop :=
  w.Granted leaseId ∧ ∀ k, w.Holds leaseId k → k = key

/-- A lease that was granted comes into use on no further key. -/
theorem holds_kept (w w' : World) (a : Action) (id : String) (k : SessionKey)
    (hsound : LeaseSound w) (hstep : w.step a = some w') (hnew : w.NewIdCond a)
    (hgranted : w.Granted id) (h : w'.Holds id k) : w.Holds id k := by
  have hfresh : grantCount w.log < 2 ^ 64 → id ≠ leaseId w.reg.leaseSeq := by
    rintro hcount rfl
    rcases hgranted with ⟨runtime, hid⟩
    rw [nextId_new w hsound.ids hcount] at hid
    cases hid
  cases step_effect w w' a hstep with
  | tick span => exact h
  | start call method hfree =>
      refine holds_of_moved w call w.reg _ [] (fun _ _ hl => hl) ?_ id k h
      cases method <;> simp [Method.frame, Frame.holding]
  | spawnOk call key clientKind g initializeResult hcall =>
      exact holds_of_moved w call w.reg _ [] (fun _ _ hl => hl) (by simp [Frame.holding]) id k h
  | move _ call frame frame' r' events hmover hcall heffect =>
      rw [NewIdCond, hmover, Option.bind_some, hcall] at hnew
      cases heffect with
      | quiet _ _ _ _ hkept hleases hseq hlog hrel hrel' hclear hclear' hpend hroute =>
          refine holds_of_moved w call r' frame' events ?_ ?_ id k h
          · rw [hleases]
            exact fun _ _ hl => hl
          · intro i key hhold
            rcases hroute.holding (i, key) hhold with hold | hlease
            · exact .inr ⟨call, frame, hcall, hold⟩
            · exact .inl hlease
      | grant key clientKind pc record counters hrecord hpc =>
          have hcount : grantCount w.log < 2 ^ 64 := by
            rcases hpc with ⟨g, rfl⟩ | ⟨handle, rfl⟩ <;> exact hnew
          exact (holds_of_grant w call key clientKind record counters _ id k h).resolve_left
            fun hsame => hfresh hcount hsame.1
      | register key clientKind handle counters hnone =>
          exact (holds_of_grant w call key clientKind _ counters _ id k h).resolve_left
            fun hsame => hfresh hnew hsame.1
      | take i lease hlease =>
          refine holds_of_moved w call _ _ [] ?_ (by simp [Frame.holding]) id k h
          intro j l hl
          rw [SessionRegistry.eraseLease, Table.get?_erase] at hl
          split at hl
          · cases hl
          · exact hl
      | decrement i key =>
          refine holds_of_moved w call _ _ [] ?_ (by simp [Frame.holding]) id k h
          unfold SessionRegistry.releaseSession
          split <;> exact fun _ _ hl => hl
      | removeSession key =>
          exact holds_of_moved w call _ _ [] (fun _ _ hl => hl) (by simp [Frame.holding]) id k h
      | removeLeases key =>
          refine holds_of_moved w call _ _ [] ?_ (by simp [Frame.holding]) id k h
          exact fun j l hl => (Table.get?_retain_eq_some _ _ _ _ |>.mp hl).1

theorem lentOn_step (w w' : World) (a : Action) (id : String) (key : SessionKey)
    (hsound : LeaseSound w) (hstep : w.step a = some w') (hnew : w.NewIdCond a)
    (h : w.LentOn id key) : w'.LentOn id key :=
  ⟨wasGranted_step w w' a hstep id h.1, fun k hholds =>
    h.2 k (holds_kept w w' a id k hsound hstep hnew h.1 hholds)⟩

/-- A lease is on the key it is granted on. -/
theorem lentOn_grant (w : World) (call : CallId) (key : SessionKey)
    (clientKind : Option ClientKind) (record : SessionRecord) (counters : RegistryCounters)
    (runtime : RuntimeId) (more : List Event) (hsound : LeaseSound w)
    (hcount : grantCount w.log < 2 ^ 64) :
    (w.moved call (w.reg.grantLease key clientKind record counters w.now).1
      (.acquire key clientKind (.returned (.ok { id := leaseId w.reg.leaseSeq, key := key })))
      (.granted call { id := leaseId w.reg.leaseSeq, key := key } runtime :: more)).LentOn
        (leaseId w.reg.leaseSeq) key := by
  refine ⟨⟨runtime, if_pos rfl⟩, fun k hholds => ?_⟩
  rcases holds_of_grant w call key clientKind record counters _ _ k hholds with ⟨_, hk⟩ | hold
  · exact hk
  · rcases hsound.held _ k hold with ⟨runtime', hid⟩
    rw [nextId_new w hsound.ids hcount] at hid
    cases hid

/-! ### An attach for a key -/

/-- The attach is for the key, and the lease it has been granted is on it. -/
def AttachOn (w : World) (key : SessionKey) : Frame → Prop
  | .acquire k _ pc => k = key ∧ ∀ lease, pc = .returned (.ok lease) → w.LentOn lease.id key
  | .attached lease _ => w.LentOn lease.id key
  | _ => False

/-- An acquire returns its lease when it is granted. -/
theorem section_returned (call : CallId) (key : SessionKey) (clientKind : Option ClientKind)
    (now : Instant) (r r' : SessionRegistry) (pc : AcquirePc) (lease : Lease)
    (events : List Event)
    (h : pc.section call key clientKind now r = some (r', .returned (.ok lease), events)) :
    ((∃ g, pc = .lookup g) ∨ ∃ handle, pc = .publish handle) ∧
      lease = { id := leaseId r.leaseSeq, key := key } ∧
      ∃ record counters runtime more,
        r' = (r.grantLease key clientKind record counters now).1 ∧
          events = .granted call lease runtime :: more := by
  cases pc with
  | lookup g =>
      simp only [AcquirePc.section] at h
      split at h
      · simp only [SessionRegistry.reuseSession, Option.some.injEq, Prod.mk.injEq,
          AcquirePc.returned.injEq, Except.ok.injEq] at h
        rcases h with ⟨hr', hlease, hevents⟩
        rw [hlease] at hevents
        exact ⟨.inl ⟨g, rfl⟩, hlease.symm, _, _, _, _, hr'.symm, hevents.symm⟩
      · cases h
  | publish handle =>
      simp only [AcquirePc.section, SessionRegistry.publishSession, Option.some.injEq,
        Prod.mk.injEq, AcquirePc.returned.injEq, Except.ok.injEq] at h
      rcases h with ⟨hr', hlease, hevents⟩
      rw [hlease] at hevents
      exact ⟨.inr ⟨handle, rfl⟩, hlease.symm, _, _, _, _, hr'.symm, hevents.symm⟩
  | enter g =>
      simp only [AcquirePc.section] at h
      split at h <;> cases h
  | leave g result => cases result <;> cases h
  | waiting g epoch =>
      simp only [AcquirePc.section] at h
      split at h <;> cases h
  | count => cases h
  | gate => cases h
  | spawning g => cases h
  | dropGate error => cases h
  | returned result => cases h

theorem attachOn_kept (w w' : World) (a : Action) (key : SessionKey) (frame : Frame)
    (hsound : LeaseSound w) (hstep : w.step a = some w') (hnew : w.NewIdCond a)
    (h : w.AttachOn key frame) : w'.AttachOn key frame := by
  cases frame with
  | acquire k clientKind pc =>
      exact ⟨h.1, fun lease hpc => lentOn_step w w' a _ key hsound hstep hnew (h.2 lease hpc)⟩
  | attached lease handle => exact lentOn_step w w' a _ key hsound hstep hnew h
  | _ => exact h.elim

/-- A lease stays on its key, from its grant on. -/
theorem attachOn_step (w w' : World) (a : Action) (key : SessionKey) (hsound : LeaseSound w)
    (hstep : w.step a = some w') (hnew : w.NewIdCond a) (call : CallId) (frame : Frame)
    (hcall : w.calls.get? call = some frame) (h : w.AttachOn key frame) :
    ∃ frame', w'.calls.get? call = some frame' ∧ w'.AttachOn key frame' := by
  by_cases hmover : a.mover = some call
  · cases frame with
    | acquire k clientKind pc =>
        cases a with
        | tick span => cases hmover
        | start c method => cases hmover
        | sect c =>
            rw [Action.mover, Option.some.injEq] at hmover
            rw [hmover] at hstep hnew
            have hkept := attachOn_kept w w' (.sect call) key _ hsound hstep hnew h
            have hstep' := hstep
            simp only [step, hcall, Option.map_eq_some_iff, Prod.exists] at hstep'
            rcases hstep' with ⟨r', frame', events, hsec, rfl⟩
            refine ⟨frame', Table.get?_set_self _ _ _, ?_⟩
            rcases section_acquire call w.now w.reg r' k clientKind pc frame' events hsec with
              ⟨lease, hpc, _, hframe, _⟩ | ⟨pc', hpc', hframe⟩
            · subst hframe
              exact hkept.2 lease hpc
            · subst hframe
              refine ⟨h.1, fun lease hreturned => ?_⟩
              subst hreturned
              rcases section_returned call k clientKind w.now w.reg r' pc lease events hpc' with
                ⟨hpc, hlease, record, counters, runtime, more, hr', hevents⟩
              -- The grant.
              have hcount : grantCount w.log < 2 ^ 64 := by
                simp only [NewIdCond, Action.mover, Option.bind_some, hcall] at hnew
                rcases hpc with ⟨g, rfl⟩ | ⟨handle, rfl⟩ <;> exact hnew
              rw [hr', hevents, hlease, ← h.1]
              exact lentOn_grant w call k clientKind record counters runtime more hsound hcount
        | spawnReturns c result =>
            rw [Action.mover, Option.some.injEq] at hmover
            simp only [step, hmover, hcall] at hstep
            split at hstep
            · rename_i key' clientKind' g heq
              rw [Option.some.injEq, Frame.acquire.injEq] at heq
              rw [Option.some.injEq] at hstep
              rw [← hstep, ← heq.1]
              cases result with
              | ok initializeResult =>
                  exact ⟨_, Table.get?_set_self _ _ _, h.1, fun lease hpc => by cases hpc⟩
              | error error =>
                  exact ⟨_, Table.get?_set_self _ _ _, h.1, fun lease hpc => by cases hpc⟩
            · cases hstep
        | runtimeReturns c result =>
            rw [Action.mover, Option.some.injEq] at hmover
            simp [step, hmover, hcall] at hstep
    | attached lease handle =>
        exact ⟨_, settled_step w w' a hstep call _ hcall rfl,
          lentOn_step w w' a _ key hsound hstep hnew h⟩
    | _ => exact h.elim
  · exact ⟨frame, calls_step w w' a hstep call frame hcall hmover,
      attachOn_kept w w' a key frame hsound hstep hnew h⟩

end World

/-- So it is in a machine that hosts the world. -/
theorem lentOn_host {σ α : Type} {machine : σ → α → Option σ} {world : σ → World}
    {inner : α → Option Action} (hhost : Hosts machine world inner) (s s' : σ) (a : α)
    (hsound : World.LeaseSound (world s)) (hstep : machine s a = some s')
    (hnew : NewIdIn world inner s a) (id : String) (key : SessionKey)
    (h : (world s).LentOn id key) : (world s').LentOn id key := by
  rcases host_step hhost s s' a hstep with hsame | ⟨b, hb, hinner⟩
  · rw [hsame]
    exact h
  · refine World.lentOn_step _ _ b id key hsound hb ?_ h
    rcases hinner with hinner | hmover
    · exact hnew b hinner
    · exact newIdCond_of_mover_none _ b hmover

/-! ### A request on its way -/

/-- The step in which a call hands the request on its lease to a runtime: the one that is
    registered under the key in this very step. -/
def HandedOver (P : World → Action → Prop) (key : SessionKey) (leaseId : String)
    (request : Json) (call : CallId) (runtime : RuntimeId) : Prop :=
  ∃ w w', P w (.sect call) ∧ w.step (.sect call) = some w' ∧
    w.calls.get? call = some (.forward .call leaseId request (.session key)) ∧
    w.reg.instanceOf key = some runtime ∧
    w'.calls.get? call = some (.forward .call leaseId request (.awaiting key runtime))

/-- A runtime that was registered under the key was handed the request, on the lease,
    and has answered with the value. -/
def Said (P : World → Action → Prop) (key : SessionKey) (leaseId : String)
    (request value : Json) : Prop :=
  ∃ call runtime, HandedOver P key leaseId request call runtime ∧
    ∃ w, P w (.runtimeReturns call (.ok value)) ∧
      w.calls.get? call = some (.forward .call leaseId request (.awaiting key runtime))

/-- How far the request is: it is looked up under the key, and the runtime that was
    found there answers it. -/
def AnswerAt (P : World → Action → Prop) (key : SessionKey) (leaseId : String) (request : Json)
    (call : CallId) : ForwardPc → Prop
  | .lease => True
  | .session k => k = key
  | .awaiting k runtime => k = key ∧ HandedOver P key leaseId request call runtime
  | .touch _ response => Said P key leaseId request response
  | .returned (.ok (some response)) => Said P key leaseId request response
  | .returned _ => True

section Answers

variable {P R : World → Action → Prop} {key : SessionKey} {leaseId : String} {request : Json}

theorem handedOver_mono (hPR : ∀ w a, P w a → R w a) (call : CallId) (runtime : RuntimeId)
    (h : HandedOver P key leaseId request call runtime) :
    HandedOver R key leaseId request call runtime := by
  rcases h with ⟨w, w', hw, hstep⟩
  exact ⟨w, w', hPR w _ hw, hstep⟩

theorem said_mono (hPR : ∀ w a, P w a → R w a) (value : Json)
    (h : Said P key leaseId request value) : Said R key leaseId request value := by
  rcases h with ⟨call, runtime, hhanded, v, hv, hcall⟩
  exact ⟨call, runtime, handedOver_mono hPR call runtime hhanded, v, hPR v _ hv, hcall⟩

theorem answerAt_mono (hPR : ∀ w a, P w a → R w a) (call : CallId) (pc : ForwardPc)
    (h : AnswerAt P key leaseId request call pc) : AnswerAt R key leaseId request call pc := by
  cases pc with
  | lease => trivial
  | session k => exact h
  | awaiting k runtime =>
      exact ⟨h.1, handedOver_mono hPR call runtime h.2⟩
  | touch k response => exact said_mono hPR response h
  | returned result =>
      rcases result with error | ⟨_ | response⟩
      · trivial
      · trivial
      · exact said_mono hPR response h

/-- The runtime that a request is handed to is registered under the key. -/
theorem World.found_instance (w w' : World) (call : CallId) (kind : ForwardKind) (id : String)
    (message : Json) (k k' : SessionKey) (runtime : RuntimeId)
    (hstep : w.step (.sect call) = some w')
    (hcall : w.calls.get? call = some (.forward kind id message (.session k)))
    (hcall' : w'.calls.get? call = some (.forward kind id message (.awaiting k' runtime))) :
    w.reg.instanceOf k = some runtime := by
  simp only [step, hcall, Frame.section, Option.map_eq_some_iff, Prod.exists] at hstep
  rcases hstep with ⟨r', frame', events, ⟨r₁, pc', evs, hsec, heq⟩, rfl⟩
  simp only [Prod.mk.injEq] at heq
  rw [moved_calls, ← heq.2.1, Option.some.injEq, Frame.forward.injEq] at hcall'
  rw [hcall'.2.2.2] at hsec
  simp only [ForwardPc.section, SessionRegistry.lookupRuntime] at hsec
  cases hrecord : w.reg.sessions.get? k with
  | none => simp [hrecord] at hsec
  | some record =>
      rw [SessionRegistry.instanceOf, hrecord]
      cases hterminating : record.terminating with
      | true =>
          cases hnotice : record.terminationNotice <;> simp [hrecord, hterminating, hnotice] at hsec
      | false =>
          simp only [hrecord, hterminating, Bool.false_eq_true, if_false, Option.some.injEq,
            Prod.mk.injEq, ForwardPc.awaiting.injEq] at hsec
          rw [Option.map_some, hsec.2.1.2]

/-- The request goes on: it stays with its key and its runtime. -/
theorem answerAt_step (w w' : World) (a : Action) (hP : P w a) (hstep : w.step a = some w')
    (call : CallId) (pc : ForwardPc)
    (hcall : w.calls.get? call = some (.forward .call leaseId request pc))
    (hlent : w'.LentOn leaseId key) (h : AnswerAt P key leaseId request call pc) :
    ∃ pc', w'.calls.get? call = some (.forward .call leaseId request pc') ∧
      AnswerAt P key leaseId request call pc' := by
  rcases forward_step w w' a hstep call .call leaseId request pc hcall with
    ⟨_, hsame⟩ | ⟨events, pc', hcall', _, hadvances⟩
  · exact ⟨pc, hsame, h⟩
  · refine ⟨pc', hcall', ?_⟩
    cases hadvances with
    | leased k => exact hlent.2 k (.inr ⟨call, _, hcall', rfl⟩)
    | unknown => trivial
    | missing k => trivial
    | rejected k error => trivial
    | found k runtime =>
        have hk : k = key := h
        rw [hk] at hcall hcall' ⊢
        exact ⟨rfl, w, w', hP, hstep, hcall, World.found_instance w w' call .call leaseId request
          key key runtime hstep hcall hcall', hcall'⟩
    | answered k runtime response =>
        rw [h.1] at hcall
        exact ⟨call, runtime, h.2, w, hP, hcall⟩
    | failed k runtime error => trivial
    | touched k response => exact h

end Answers

/-! ### What the daemon answers -/

/-- The response is so: the lease it names is on the key, and what it says a server has
    answered one has. -/
structure Truthful (P : World → Action → Prop) (T : String → Prop) (key : SessionKey)
    (request : Json) (w : World) (r : ControlEnvelope) : Prop where
  lent : ∀ leaseId, Tells r leaseId → w.LentOn leaseId key
  said : ∀ value, callReport (.ok r) = .ok (.response value) →
    ∃ leaseId, T leaseId ∧ Said P key leaseId request value

theorem callReport_type (r : ControlEnvelope) (value : Json)
    (h : callReport (.ok r) = .ok (.response value)) :
    r.messageType = "CallOk" ∧
      (CallOk.fromValue r.payload).map CallOk.response = some value := by
  simp only [callReport, bind, Except.bind] at h
  split at h
  · cases h
  · rename_i payload hpayload
    rcases expectType_ok _ _ r payload hpayload with ⟨htype, rfl⟩
    split at h
    · cases h
    · rename_i callOk hdecoded
      refine ⟨htype, ?_⟩
      simp only [pure, Except.pure, Except.ok.injEq, Report.response.injEq] at h
      rw [decodeAs_ok _ _ _ _ hdecoded, Option.map_some, h]

/-- Most responses say neither. -/
theorem truthful_silent (P : World → Action → Prop) (T : String → Prop) (key : SessionKey)
    (request : Json) (w : World) (r : ControlEnvelope) (hattach : r.messageType ≠ "AttachOk")
    (hcall : r.messageType ≠ "CallOk") : Truthful P T key request w r where
  lent := fun leaseId htells => absurd (tells_type r leaseId htells) hattach
  said := fun value hreport => absurd (callReport_type r value hreport).1 hcall

namespace Control

/-- The lease that a connection names is on the key, and the request it carries is that
    of the command. -/
structure CallsFor (P : World → Action → Prop) (T : String → Prop) (key : SessionKey)
    (request : Json) (s : Control) : Prop where
  attaching : ∀ id mode call, s.pc = .attaching id mode call →
    ∃ frame, s.world.calls.get? call = some frame ∧ s.world.AttachOn key frame
  binding : ∀ id lease handle, s.pc = .binding id lease handle → s.world.LentOn lease.id key
  calling : ∀ id leaseId call, s.pc = .calling id leaseId call → T leaseId ∧
    s.world.LentOn leaseId key ∧
      ∃ pc, s.world.calls.get? call = some (.forward .call leaseId request pc) ∧
        AnswerAt P key leaseId request call pc
  writing : ∀ r stop, s.pc = .writing r stop → Truthful P T key request s.world r

section Calls

variable {P R : World → Action → Prop} {T U : String → Prop} {key : SessionKey} {request : Json}

theorem truthful_mono (hPR : ∀ w a, P w a → R w a) (hTU : ∀ id, T id → U id) (w : World)
    (r : ControlEnvelope) (h : Truthful P T key request w r) : Truthful R U key request w r where
  lent := h.lent
  said := by
    intro value hreport
    rcases h.said value hreport with ⟨leaseId, htold, hsaid⟩
    exact ⟨leaseId, hTU leaseId htold, said_mono hPR value hsaid⟩

theorem truthful_step (w w' : World) (r : ControlEnvelope)
    (hlent : ∀ id, w.LentOn id key → w'.LentOn id key) (h : Truthful P T key request w r) :
    Truthful P T key request w' r :=
  ⟨fun leaseId htells => hlent leaseId (h.lent leaseId htells), h.said⟩

theorem callsFor_mono (hPR : ∀ w a, P w a → R w a) (hTU : ∀ id, T id → U id) (s : Control)
    (h : s.CallsFor P T key request) : s.CallsFor R U key request where
  attaching := h.attaching
  binding := h.binding
  calling := by
    intro id leaseId call hpc
    rcases h.calling id leaseId call hpc with ⟨htold, hlent, pc, hcall, hat⟩
    exact ⟨hTU leaseId htold, hlent, pc, hcall, answerAt_mono hPR call pc hat⟩
  writing := fun r stop hpc => truthful_mono hPR hTU s.world r (h.writing r stop hpc)

theorem callsFor_quiet (s : Control) (hattaching : ∀ id mode call, s.pc ≠ .attaching id mode call)
    (hbinding : ∀ id lease handle, s.pc ≠ .binding id lease handle)
    (hcalling : ∀ id leaseId call, s.pc ≠ .calling id leaseId call)
    (hwriting : ∀ r stop, s.pc ≠ .writing r stop) : s.CallsFor P T key request :=
  ⟨fun id mode call hpc => absurd hpc (hattaching id mode call),
    fun id lease handle hpc => absurd hpc (hbinding id lease handle),
    fun id leaseId call hpc => absurd hpc (hcalling id leaseId call),
    fun r stop hpc => absurd hpc (hwriting r stop)⟩

theorem callsFor_write (s : Control) (r : ControlEnvelope) (stop : Bool)
    (hpc : s.pc = .writing r stop) (h : Truthful P T key request s.world r) :
    s.CallsFor P T key request := by
  refine ⟨fun _ _ _ hpc' => ?_, fun _ _ _ hpc' => ?_, fun _ _ _ hpc' => ?_,
    fun r' stop' hpc' => ?_⟩
  · rw [hpc] at hpc'
    cases hpc'
  · rw [hpc] at hpc'
    cases hpc'
  · rw [hpc] at hpc'
    cases hpc'
  · rw [hpc, ControlPc.writing.injEq] at hpc'
    rw [← hpc'.1]
    exact h

/-- The lease that a connection has is on the key. -/
theorem lentOn_of_hasLease (s : Control) (lease : Lease) (handle : SessionHandle)
    (h : s.CallsFor P T key request) (hhas : s.HasLease lease handle) :
    s.world.LentOn lease.id key := by
  rcases hhas with ⟨id, mode, call, hpc, hcall⟩ | ⟨id, hpc⟩
  · rcases h.attaching id mode call hpc with ⟨frame, hframe, hon⟩
    rw [hcall, Option.some.injEq] at hframe
    rw [← hframe] at hon
    exact hon
  · exact h.binding id lease handle hpc

/-- The daemon answers what the registry returned. -/
theorem callsFor_step {Q : ControlEnvelope → Prop} {A : Action → Prop} (s s' : Control)
    (hsound : World.LeaseSound s.world)
    (hA : ∀ a, A a → P s.world a ∧ s.world.NewIdCond a)
    (hattach : ∀ q, Q q → q.messageType = "Attach" → ∀ attach,
      Attach.fromValue q.payload = some attach → attach.sessionKey.sessionKey = key)
    (hcall : ∀ q, Q q → q.messageType = "Call" → ∀ payload,
      CallPayload.fromValue q.payload = some payload → payload.request = request ∧
        T payload.leaseId ∧ s.world.LentOn payload.leaseId key)
    (hstep : Went Q A s s') (h : s.CallsFor P T key request) : s'.CallsFor P T key request := by
  cases hstep with
  | world a ha hpc hstep =>
      rcases hA a ha with ⟨hP, hnew⟩
      have hlent : ∀ id, s.world.LentOn id key → s'.world.LentOn id key :=
        fun id => World.lentOn_step _ _ a id key hsound hstep hnew
      refine ⟨fun id mode call hpc' => ?_, fun id lease handle hpc' => ?_,
        fun id leaseId call hpc' => ?_, fun r stop hpc' => ?_⟩
      · rcases h.attaching id mode call (hpc.symm.trans hpc') with ⟨frame, hframe, hon⟩
        -- The four parts are carried along by what a step of the registry keeps.
        exact World.attachOn_step _ _ a key hsound hstep hnew call frame hframe hon
      · exact hlent _ (h.binding id lease handle (hpc.symm.trans hpc'))
      · rcases h.calling id leaseId call (hpc.symm.trans hpc') with ⟨htold, hon, pc, hget, hat⟩
        exact ⟨htold, hlent leaseId hon,
          answerAt_step _ _ a hP hstep call pc hget (hlent leaseId hon) hat⟩
      · exact truthful_step _ _ r hlent (h.writing r stop (hpc.symm.trans hpc'))
  | rests hworld hpc =>
      rcases hpc with hpc | ⟨ok, hpc⟩ <;>
        exact callsFor_quiet s' (by simp [hpc]) (by simp [hpc]) (by simp [hpc]) (by simp [hpc])
  | plain r stop hworld hpc hplain =>
      exact callsFor_write s' r stop hpc
        (truthful_silent P T key request s'.world r hplain.attach hplain.call)
  | attaches q attach id mode call hq htype hpayload hpc hstart =>
      refine ⟨fun id' mode' call' hpc' => ?_, fun _ _ _ hpc' => ?_, fun _ _ _ hpc' => ?_,
        fun _ _ hpc' => ?_⟩
      · rw [hpc, ControlPc.attaching.injEq] at hpc'
        rw [← hpc'.2.2]
        exact ⟨_, World.started s.world s'.world call _ hstart,
          hattach q hq htype attach hpayload, fun lease hreturned => by cases hreturned⟩
      · rw [hpc] at hpc'
        cases hpc'
      · rw [hpc] at hpc'
        cases hpc'
      · rw [hpc] at hpc'
        cases hpc'
  | calls q payload id call hq htype hpayload hpc hstart =>
      refine ⟨fun _ _ _ hpc' => ?_, fun _ _ _ hpc' => ?_, fun id' leaseId call' hpc' => ?_,
        fun _ _ hpc' => ?_⟩
      · rw [hpc] at hpc'
        cases hpc'
      · rw [hpc] at hpc'
        cases hpc'
      · rw [hpc, ControlPc.calling.injEq] at hpc'
        rcases hpc' with ⟨_, rfl, rfl⟩
        -- The `Call` is the caller's own: on its lease, with its request.
        rcases hcall q hq htype payload hpayload with ⟨hrequest, htold, hon⟩
        have hget := World.started s.world s'.world call _ hstart
        rw [← hrequest]
        exact ⟨htold, World.lentOn_step _ _ _ _ key hsound hstart trivial hon, _, hget, trivial⟩
      · rw [hpc] at hpc'
        cases hpc'
  | waits call method hpc hstart =>
      refine callsFor_quiet s' (fun _ _ _ hpc' => ?_) (fun _ _ _ hpc' => ?_)
        (fun _ _ _ hpc' => ?_) (fun _ _ hpc' => ?_)
      · rw [hpc'] at hpc
        cases hpc
      · rw [hpc'] at hpc
        cases hpc
      · rw [hpc'] at hpc
        cases hpc
      · rw [hpc'] at hpc
        cases hpc
  | samples id hworld hpc =>
      exact callsFor_quiet s' (by simp [hpc]) (by simp [hpc]) (by simp [hpc]) (by simp [hpc])
  | binds id lease handle hhas hworld hpc =>
      refine ⟨fun _ _ _ hpc' => ?_, fun id' lease' handle' hpc' => ?_, fun _ _ _ hpc' => ?_,
        fun _ _ hpc' => ?_⟩
      · rw [hpc] at hpc'
        cases hpc'
      · rw [hpc, ControlPc.binding.injEq] at hpc'
        rw [hworld, ← hpc'.2.1]
        exact lentOn_of_hasLease s lease handle h hhas
      · rw [hpc] at hpc'
        cases hpc'
      · rw [hpc] at hpc'
        cases hpc'
  | attachOk id lease mode endpoint handle hhas hworld hpc =>
      refine callsFor_write s' _ _ hpc ⟨fun leaseId htells => ?_, fun value hreport => ?_⟩
      -- The lease that is told is the one the connection was granted.
      · rw [hworld, tells_attachOk _ _ _ _ _ _ htells]
        exact lentOn_of_hasLease s lease handle h hhas
      · exact absurd (callReport_type _ value hreport).1
          (show ("AttachOk" : String) ≠ "CallOk" by decide)
  | statsOk id sessions leases counters uptimeMs memoryTotal hold hworld hpc =>
      exact callsFor_write s' _ _ hpc (truthful_silent P T key request s'.world _
        (show ("StatsOk" : String) ≠ "AttachOk" by decide)
        (show ("StatsOk" : String) ≠ "CallOk" by decide))
  | callOk id leaseId call kind id' message response hold hcall hworld hpc =>
      refine callsFor_write s' _ _ hpc ⟨fun leaseId' htells => ?_, fun value hreport => ?_⟩
      · exact absurd (tells_type _ _ htells) (show ("CallOk" : String) ≠ "AttachOk" by decide)
      · -- what was returned is what the runtime has answered
        rcases h.calling id leaseId call hold with ⟨htold, _, pc, hget, hat⟩
        rw [hcall, Option.some.injEq, Frame.forward.injEq] at hget
        rw [← hget.2.2.2] at hat
        have hvalue := (callReport_type _ value hreport).2
        rw [okEnvelope] at hvalue
        have hdecodes : CallOk.fromValue (.obj [("lease_id", .str leaseId),
            ("response", response)]) = some ⟨leaseId, response⟩ :=
          CallOk.fromValue_toValue ⟨leaseId, response⟩
        rw [hdecodes, Option.map_some, Option.some.injEq] at hvalue
        rw [← hvalue]
        exact ⟨leaseId, htold, hat⟩

end Calls

end Control

namespace Conversation

variable {toString : Json → List Char} {fromStr : List Char → Option Json}

/-! ### What a command does with its leases -/

/-- A command calls with its own request, under a lease that it may use, and goes on to
    use no other. -/
structure Uses (L : String → Prop) (s s' : Conversation) : Prop where
  sent : ∀ q ∈ s'.sent, q ∈ s.sent ∨ (q.messageType = "Call" → ∃ leaseId,
    q.payload = .obj [("lease_id", .str leaseId), ("request", s.command.request)] ∧ L leaseId)
  holds : ∀ leaseId, s'.pc.holds = some leaseId → L leaseId

section Using

variable {L : String → Prop}

theorem uses_transmit (s : Conversation) (frame : ControlEnvelope) (pc unsent : CommandPc)
    (hframe : frame.messageType = "Call" → ∃ leaseId,
      frame.payload = .obj [("lease_id", .str leaseId), ("request", s.command.request)] ∧
        L leaseId) (hpc : ∀ leaseId, pc.holds = some leaseId → L leaseId)
    (hunsent : unsent.holds = none) : Uses L s (s.transmit toString frame pc unsent) := by
  unfold transmit
  split
  · refine ⟨fun q hq => .inl hq, fun leaseId hholds => ?_⟩
    have hnone : unsent.holds = some leaseId := hholds
    rw [hunsent] at hnone
    cases hnone
  · refine ⟨fun q hq => ?_, hpc⟩
    rcases List.mem_cons.mp hq with rfl | hq
    · exact .inr hframe
    · exact .inl hq

/-- A frame of another type is no call. -/
theorem uses_other (s : Conversation) (frame : ControlEnvelope) (pc unsent : CommandPc)
    (htype : frame.messageType ≠ "Call") (hpc : ∀ leaseId, pc.holds = some leaseId → L leaseId)
    (hunsent : unsent.holds = none) : Uses L s (s.transmit toString frame pc unsent) :=
  uses_transmit s frame pc unsent (fun hcall => absurd hcall htype) hpc hunsent

theorem uses_ends (s : Conversation) (result : Except ClientError Report) :
    Uses L s { s with pc := .ended result } :=
  ⟨fun _ hq => .inl hq, fun _ hholds => by cases hholds⟩

theorem uses_release (s : Conversation) (nanos : Nat) (leaseId : String)
    (result : Except ClientError Report) :
    Uses L s (s.release toString nanos leaseId result) :=
  uses_other s _ _ _ (show ("Release" : String) ≠ "Call" by decide)
    (fun _ hholds => by cases hholds) rfl

theorem uses_call (s : Conversation) (nanos : Nat) (leaseId : String)
    (didOpenUri : Option String) (hL : L leaseId) :
    Uses L s (s.call toString nanos leaseId didOpenUri) := by
  refine uses_transmit s _ _ _ (fun _ => ⟨leaseId, rfl, hL⟩) (fun held hholds => ?_) rfl
  rw [← Option.some.inj hholds]
  exact hL

theorem uses_begin (s : Conversation) (nanos : Nat) : Uses L s (s.begin toString nanos) := by
  have hcall : (s.firstFrame nanos).messageType ≠ "Call" := by
    unfold firstFrame
    split <;> simp [Caller.envelope]
  unfold begin
  split
  · exact uses_other s _ _ _ hcall (fun _ hholds => by cases hholds) rfl
  · exact uses_other s _ _ _ hcall (fun _ hholds => by cases hholds) rfl
  · exact uses_other s _ _ _ hcall (fun _ hholds => by cases hholds) rfl

theorem uses_attached (s : Conversation) (nanos : Nat) (file : Except String SourceFile)
    (response : Except ClientError ControlEnvelope)
    (htold : ∀ leaseId, attachedLease response = .ok leaseId → L leaseId) :
    Uses L s (s.attached toString nanos file response) := by
  unfold attached
  split
  · split
    · exact uses_release s _ _ _
    · exact uses_ends s _
  · split
    · rename_i leaseId hlease
      have hL := htold leaseId hlease
      split
      · refine uses_other s _ _ _ (show ("Notify" : String) ≠ "Call" by decide)
          (fun held hholds => ?_) rfl
        rw [← Option.some.inj hholds]
        exact hL
      · exact uses_call s _ _ _ hL
    · exact uses_ends s _
  · split
    · rename_i leaseId hlease
      exact uses_call s _ _ _ (htold leaseId hlease)
    · exact uses_ends s _

theorem uses_called (s : Conversation) (nanos : Nat) (leaseId : String)
    (didOpenUri : Option String) (response : Except ClientError ControlEnvelope)
    (hL : L leaseId) : Uses L s (s.called toString nanos leaseId didOpenUri response) := by
  unfold called
  split
  · exact uses_ends s _
  · split
    · refine uses_other s _ _ _ (show ("Notify" : String) ≠ "Call" by decide)
        (fun held hholds => ?_) rfl
      rw [← Option.some.inj hholds]
      exact hL
    · exact uses_release s _ _ _

/-- A command that goes on names the lease it was told of, and its own request. -/
theorem uses_proceed (s : Conversation) (nanos : Nat) (file : Except String SourceFile)
    (response : Except ClientError ControlEnvelope)
    (hholds : ∀ leaseId, s.pc.holds = some leaseId → L leaseId)
    (htold : ∀ id, s.pc = .attaching id → ∀ leaseId, attachedLease response = .ok leaseId →
      L leaseId) : Uses L s (s.proceed toString nanos file response) := by
  unfold proceed
  cases hpc : s.pc with
  | asking id =>
      simp only
      split
      · exact uses_ends s _
      · exact uses_ends s _
  | attaching id => exact uses_attached s nanos file response (htold id hpc)
  | opening id leaseId uri =>
      have hL := hholds leaseId (by rw [hpc]; rfl)
      simp only
      split
      · exact uses_call s _ _ _ hL
      · exact uses_call s _ _ _ hL
  | calling id leaseId didOpenUri =>
      exact uses_called s nanos leaseId didOpenUri response (hholds leaseId (by rw [hpc]; rfl))
  | closing id leaseId result => exact uses_release s _ _ _
  | releasing id leaseId result => exact uses_ends s _
  | connected => exact ⟨fun _ hq => .inl hq, hholds⟩
  | ended result => exact ⟨fun _ hq => .inl hq, hholds⟩
  | killed => exact ⟨fun _ hq => .inl hq, hholds⟩

end Using

/-! ### What every run keeps -/

/-- The daemon has told the command of the lease, in answer to its attach. -/
def Told (s : Conversation) (leaseId : String) : Prop :=
  ∃ pair ∈ s.heard, pair.1.messageType = "Attach" ∧ Tells pair.2 leaseId

/-- The command reports what a server has said. -/
def SaidTo (P : World → Action → Prop) (s : Conversation) : Report → Prop
  | .response value =>
    ∃ leaseId, s.Told leaseId ∧ Said P s.caller.key.sessionKey leaseId s.command.request value
  | _ => True

/-- What the daemon has answered and will answer, and what the command reports, is
    so. -/
structure Answered (P : World → Action → Prop) (s : Conversation) : Prop where
  sound : World.LeaseSound s.world
  control : s.connection.control.CallsFor P s.Told s.caller.key.sessionKey s.command.request
  answers : ∀ r ∈ s.connection.responses,
    Truthful P s.Told s.caller.key.sessionKey s.command.request s.world r
  types : ∀ id, s.pc.expectedId = some id → ∀ q earlier, s.sent = q :: earlier →
    s.pc.waitsFor q.messageType = true
  attaches : ∀ q ∈ s.sent, q.messageType = "Attach" → q.payload = s.caller.attachPayload
  calls : ∀ q ∈ s.sent, q.messageType = "Call" → ∃ leaseId,
    q.payload = .obj [("lease_id", .str leaseId), ("request", s.command.request)] ∧
      s.Told leaseId ∧ s.world.LentOn leaseId s.caller.key.sessionKey
  holds : ∀ leaseId, s.pc.holds = some leaseId →
    s.Told leaseId ∧ s.world.LentOn leaseId s.caller.key.sessionKey
  reports : Reports (SaidTo P s) s.pc

section Runs

variable {P : World → Action → Prop}

theorem answered_daemon (hcompact : Json.PrintsCompact toString) (s : Conversation)
    (c : Connection) (b : ConnectionAction) (out : List UInt8) (horderly : s.Orderly toString)
    (hback : s.ReadsBack toString fromStr) (hP : ∀ a, b = .world a → P s.world a)
    (hnew : NewIdIn Conversation.world inner s (.daemon b))
    (hc : s.connection.step fromStr b = some c) (h : s.Answered P) :
    Answered P { s with connection := c, toClient := out } := by
  rcases Connection.control_step _ c b hc with ⟨ca, hca, hinner⟩
  have hcontrol : c.control.CallsFor P s.Told s.caller.key.sessionKey s.command.request := by
    refine Control.callsFor_step _ _ h.sound (fun a ha => ⟨hP a ha, hnew a ?_⟩) ?_ ?_
      (went_daemon hcompact s c b horderly hback hc) h.control
    · rw [ha]
      rfl
    · intro q hq htype attach hattach
      rw [h.attaches q hq htype] at hattach
      rw [attachPayload_key s.caller attach hattach]
    · intro q hq htype payload hpayload
      rcases h.calls q hq htype with ⟨leaseId, hq', htold, hlent⟩
      have hdecodes : CallPayload.fromValue (.obj [("lease_id", .str leaseId),
          ("request", s.command.request)]) = some ⟨leaseId, s.command.request⟩ :=
        CallPayload.fromValue_toValue ⟨leaseId, s.command.request⟩
      rw [hq', hdecodes, Option.some.injEq] at hpayload
      rw [← hpayload]
      exact ⟨rfl, htold, hlent⟩
  have hlent : ∀ id, s.world.LentOn id s.caller.key.sessionKey →
      c.control.world.LentOn id s.caller.key.sessionKey :=
    fun id => lentOn_host Control.hosts_world _ _ ca h.sound hca
      (newIdIn_control s b ca hinner hnew) id _
  refine ⟨leaseSound_host Control.hosts_world _ _ ca h.sound hca, hcontrol, fun r hr => ?_,
    h.types, h.attaches, ?_, ?_, h.reports⟩
  · rcases List.mem_append.mp (responses_step _ c b hc r hr) with hwritten | hold
    · rcases (Connection.mem_written _ r).mp hwritten with ⟨stop, hpc⟩
      exact Control.truthful_step _ _ r hlent (h.control.writing r stop hpc)
    · exact Control.truthful_step _ _ r hlent (h.answers r hold)
  · intro q hq htype
    rcases h.calls q hq htype with ⟨leaseId, hpayload, htold, hon⟩
    exact ⟨leaseId, hpayload, htold, hlent leaseId hon⟩
  · intro leaseId hholds
    rcases h.holds leaseId hholds with ⟨htold, hon⟩
    exact ⟨htold, hlent leaseId hon⟩

/-- A command that goes on asks with its own request, and reports what it was
    answered. -/
theorem answered_moved (s s' : Conversation) (hmoved : Moved toString s s')
    (huses : Uses (fun leaseId => s.Told leaseId ∧ s.world.LentOn leaseId s.caller.key.sessionKey)
      s s') (hreports : Reports (SaidTo P s) s'.pc) (hsound : World.LeaseSound s.world)
    (hcontrol : s.connection.control.CallsFor P s.Told s.caller.key.sessionKey s.command.request)
    (hanswers : ∀ r ∈ s.connection.responses,
      Truthful P s.Told s.caller.key.sessionKey s.command.request s.world r)
    (hattaches : ∀ q ∈ s.sent, q.messageType = "Attach" → q.payload = s.caller.attachPayload)
    (hcalls : ∀ q ∈ s.sent, q.messageType = "Call" → ∃ leaseId,
      q.payload = .obj [("lease_id", .str leaseId), ("request", s.command.request)] ∧
        s.Told leaseId ∧ s.world.LentOn leaseId s.caller.key.sessionKey) : s'.Answered P := by
  have hcalled : ∀ q ∈ s'.sent, q.messageType = "Call" → ∃ leaseId,
      q.payload = .obj [("lease_id", .str leaseId), ("request", s.command.request)] ∧
        s.Told leaseId ∧ s.world.LentOn leaseId s.caller.key.sessionKey := by
    intro q hq htype
    rcases huses.sent q hq with hold | hnew
    · exact hcalls q hold htype
    · exact hnew htype
  have hholds := huses.holds
  cases hmoved with
  | ends result h =>
      rw [h] at hreports hcalled hholds ⊢
      exact ⟨hsound, hcontrol, hanswers, fun id hid => (by cases hid), hattaches, hcalled, hholds,
        hreports⟩
  | sends frame pc id hopen hv hid hpc htype hattach h =>
      rw [h] at hreports hcalled hholds ⊢
      refine ⟨hsound, hcontrol, hanswers, fun id' hid' q earlier hsent => ?_,
        fun q hq hqattach => ?_, hcalled, hholds, hreports⟩
      · rw [← (List.cons.inj hsent).1]
        exact htype
      · rcases List.mem_cons.mp hq with rfl | hq
        · exact hattach hqattach
        · exact hattaches q hq hqattach

/-- A command that hears the answer to its request. -/
theorem answered_heard (s : Conversation) (nanos : Nat) (file : Except String SourceFile)
    (q r : ControlEnvelope) (earlier responses : List ControlEnvelope) (id : String)
    (hid : s.pc.expectedId = some id) (hsent : s.sent = q :: earlier)
    (hresponses : s.connection.responses = r :: responses) (h : s.Answered P) :
    Answered P (({ s with toClient := [], heard := (q, r) :: s.heard } : Conversation).proceed
      toString nanos file (.ok r)) := by
  let s₁ : Conversation := { s with toClient := [], heard := (q, r) :: s.heard }
  have htold : ∀ leaseId, s.Told leaseId → s₁.Told leaseId := by
    rintro leaseId ⟨pair, hpair, hattach, htells⟩
    exact ⟨pair, List.mem_cons_of_mem _ hpair, hattach, htells⟩
  have htruthful : Truthful P s₁.Told s.caller.key.sessionKey s.command.request s.world r :=
    Control.truthful_mono (fun _ _ hw => hw) htold _ r
      (h.answers r (by rw [hresponses]; exact List.mem_cons_self))
  refine answered_moved s₁ _ (moved_proceed s₁ nanos file (.ok r) id hid) ?_ ?_ h.sound
    (Control.callsFor_mono (fun _ _ hw => hw) htold _ h.control)
    (fun r' hr' => Control.truthful_mono (fun _ _ hw => hw) htold _ r' (h.answers r' hr'))
    h.attaches ?_
  · refine uses_proceed s₁ nanos file (.ok r) (fun leaseId hholds => ?_)
      (fun id' hattaching leaseId htells => ?_)
    · rcases h.holds leaseId hholds with ⟨hold, hlent⟩
      exact ⟨htold leaseId hold, hlent⟩
    · -- the answer to the attach
      have hpc : s.pc = .attaching id' := hattaching
      have hwaits := h.types id hid q earlier hsent
      rw [hpc] at hwaits
      have htype : q.messageType = "Attach" := of_decide_eq_true hwaits
      exact ⟨⟨(q, r), List.mem_cons_self, htype, htells⟩, htruthful.lent leaseId htells⟩
  · refine reports_proceed s₁ nanos file (.ok r) trivial (fun r' hr' => ?_)
      (fun report hreport => ?_)
    · rw [← Except.ok.inj hr']
      exact ⟨fun _ _ => trivial, fun _ _ => trivial, htruthful.said⟩
    · have hsaid := h.reports report hreport
      cases report with
      | response value =>
          rcases hsaid with ⟨leaseId, hold, hsaid⟩
          exact ⟨leaseId, htold leaseId hold, hsaid⟩
      | _ => trivial
  · intro q' hq' htype
    rcases h.calls q' hq' htype with ⟨leaseId, hpayload, hold, hlent⟩
    exact ⟨leaseId, hpayload, htold leaseId hold, hlent⟩

/-- What every run keeps, as long as no lease id is given out twice. -/
theorem answered_step (hcompact : Json.PrintsCompact toString) (s s' : Conversation)
    (a : ConversationAction) (hstep : s.step toString fromStr a = some s')
    (hback : s.ReadsBack toString fromStr) (horderly : s.Orderly toString)
    (hP : ∀ b, a = .daemon (.world b) → P s.world b)
    (hnew : NewIdIn Conversation.world inner s a) (h : s.Answered P) : s'.Answered P := by
  cases a with
  | daemon b =>
      rcases step_cases s s' _ hstep with ⟨b', c, hb, hmay, hc, rfl⟩ | ⟨hclient, _⟩
      · rw [ConversationAction.daemon.injEq] at hb
        rw [hb] at hP hnew
        refine answered_daemon hcompact s c b' _ horderly hback (fun a ha => hP a ?_) hnew hc h
        rw [ha]
      · exact absurd rfl (hclient b)
  | begin nanos =>
      simp only [step] at hstep
      split at hstep
      · rw [← Option.some.inj hstep]
        exact answered_moved s _ (moved_begin s nanos) (uses_begin s nanos) (reports_begin s nanos)
          h.sound h.control h.answers h.attaches h.calls
      · cases hstep
  | hear nanos file =>
      rcases hear_orderly hcompact s s' nanos file hback hstep horderly with
        ⟨id, q, earlier, hid, hsent, _,
          ⟨r, responses, _, _, _, hresponses, _, rfl⟩ | ⟨_, _, _, rfl | ⟨error, rfl⟩⟩⟩
      · exact answered_heard s nanos file q r earlier responses id hid hsent hresponses h
      · exact ⟨h.sound, h.control, h.answers, h.types, h.attaches, h.calls, h.holds, h.reports⟩
      · refine answered_moved { s with toClient := [] } _
          (moved_proceed _ nanos file (.error error) id hid)
          (uses_proceed _ nanos file (.error error) h.holds fun _ _ _ htells => ?_)
          (reports_proceed _ nanos file (.error error) trivial (fun r hr => ?_) h.reports)
          h.sound h.control h.answers h.attaches h.calls
        · cases htells
        · cases hr
  | kill =>
      simp only [step] at hstep
      split at hstep
      · cases hstep
      · rw [← Option.some.inj hstep]
        exact ⟨h.sound, h.control, h.answers, fun id hid => (by cases hid), h.attaches, h.calls,
          fun leaseId hholds => (by cases hholds), reports_none _ rfl⟩

end Runs

open Connection (plainText plain_compact)

end Conversation

end Lspee
