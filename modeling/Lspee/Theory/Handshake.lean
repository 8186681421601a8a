import Lspee.Theory.Fleet

/-!
# The Handshake

A server is greeted before anybody else can speak to it. Until its closure has
returned, the only one who holds its handle is the closure, so its queue is
empty or holds the `initialize` request (`Greeting`). The closure queues
`initialized` when the call has returned, which it does with a message of the
request's id. From then on the queue begins with these two, and as long as the
clients send neither, nothing like them follows (`Greeted`).

A client's message comes to a server by a handle that the registry gave out, or
by a stream, and both are of a runtime, whose closure has returned with a result
(`Owned`). A server whose closure fails never leaves `Greeting`.

## Main definitions

* `IsHandshake`, `IsInitialize`, `IsInitialized`: The messages of the handshake.
* `NoHandshake`: An action in which no client sends one.
* `Server.FromClient`: A message of a client.
* `Greeting`, `Greeted`: A server before and after `initialized` is queued.
* `Fleet.HandshakeFirst`: The servers are greeted before they are used.

## Theorems

* `greeting_transport`, `greeted_transport`: What a step of the transport keeps.
* `greeted_accept`: What a request keeps.
* `handshaken_moves`: What a step of the server keeps.
* `polite_step`, `polite_run`: Every run keeps it.
* `answered_step`: What `initialized` waits for.
* `handshake_first`: Every run greets first, and once.
-/

namespace Lspee

open Transition

/-- A message of the handshake, by its method. -/
def IsHandshake (message : Json) : Prop :=
  message.get "method" = some (.str "initialize") ∨
    message.get "method" = some (.str "initialized")

instance (message : Json) : Decidable (IsHandshake message) :=
  inferInstanceAs (Decidable (_ ∨ _))

/-- A request of the method `initialize` under the daemon's id. -/
def IsInitialize (message : Json) : Prop :=
  message.get "jsonrpc" = some (.str "2.0") ∧
    message.get "id" = some (.str "lspee-initialize") ∧
    message.get "method" = some (.str "initialize")

/-- A notification of the method `initialized`. -/
def IsInitialized (message : Json) : Prop :=
  message.get "jsonrpc" = some (.str "2.0") ∧ message.get "id" = none ∧
    message.get "method" = some (.str "initialized")

theorem method_initializeRequest (rootUri : Option String) (options : Option Json) :
    (initializeRequest rootUri options).get "method" = some (.str "initialize") := by
  simp [initializeRequest, Json.get, List.lookup_cons]

theorem isInitialize_initializeRequest (rootUri : Option String) (options : Option Json) :
    IsInitialize (initializeRequest rootUri options) :=
  ⟨by simp [initializeRequest, Json.get, List.lookup_cons], rfl,
    method_initializeRequest rootUri options⟩

theorem isInitialized_initializedNotification : IsInitialized initializedNotification :=
  ⟨by decide, by decide, by decide⟩

theorem not_isHandshake_shutdown : ¬IsHandshake shutdownMessage := by decide

theorem not_isHandshake_exit : ¬IsHandshake exitMessage := by decide

/-- No client sends a message of the handshake. -/
def FleetAction.NoHandshake : FleetAction → Prop
  | .request _ _ _ message _ => ¬IsHandshake message
  | .server _ (.frame _ frame _) => ¬IsHandshake frame.payload
  | _ => True

/-- The message came from a client: of the control socket, or of a stream. -/
def Server.FromClient (s : Server) (m : Tagged Json) : Prop :=
  ∃ c party, m.caller = some c ∧ s.sharing.requests.get? c = some party ∧ party ≠ .daemon

/-- Before `initialized` is queued. There is no stream and no call but the
    closure's. -/
structure Greeting (server : CallId) (h : Sharing) (queued : List (Tagged Json)) : Prop where
  streams : ∀ n, h.streams.get? n = none
  calls : ∀ c call, h.transport.calls.get? c = some call → c = server ∧ IsInitialize call.request
  parties : ∀ c party, h.requests.get? c = some party → party = .daemon
  named : ∀ call, h.transport.calls.get? server = some call →
    h.requests.get? server = some .daemon
  queue : queued = [] ∨ ∃ request call, IsInitialize request ∧
    queued = [⟨some server, request⟩] ∧ h.transport.calls.get? server = some call
  sending : ∀ request rx, h.transport.calls.get? server = some ⟨request, .sending rx⟩ →
    queued = []
  unsent : queued = [] → ∀ request pc, h.transport.calls.get? server = some ⟨request, pc⟩ →
    (∃ rx, pc = .sending rx) ∨ ∃ error, pc = .returned (.error error)
  answered : ∀ request m, h.transport.calls.get? server = some ⟨request, .returned (.ok m)⟩ →
    m ∈ h.transport.outbound.sent ∧ m.content.id = some (.str "lspee-initialize")

/-- After `initialized` has been queued. -/
structure Greeted (server : CallId) (h : Sharing) (queued : List (Tagged Json)) : Prop where
  queue : ∃ request c rest, IsInitialize request ∧
    queued = ⟨some server, request⟩ :: ⟨some c, initializedNotification⟩ :: rest ∧
    h.requests.get? server = some .daemon ∧ h.requests.get? c = some .daemon ∧
    ∀ m ∈ rest, ¬IsHandshake m.content
  pending : ∀ c request rx, h.transport.calls.get? c = some ⟨request, .sending rx⟩ →
    ¬IsHandshake request
  answered : ∃ m ∈ h.transport.outbound.sent, m.content.id = some (.str "lspee-initialize")

/-- A server whose closure has a result has been greeted. -/
def Handshaken (server : CallId) (s : Server) : Prop :=
  match s.boot with
  | .finished (.ok _) => Greeted server s.sharing s.queued
  | _ => Greeting server s.sharing s.queued

/-! ### Before `initialized` -/

theorem greeting_init (server : CallId) : Greeting server Sharing.init [] where
  streams := fun n => Table.get?_empty n
  calls := fun c call hcall => by simp [Sharing.init, Transport.spawn] at hcall
  parties := fun c party hparty => by simp [Sharing.init] at hparty
  named := fun call hcall => by simp [Sharing.init, Transport.spawn] at hcall
  queue := Or.inl rfl
  sending := fun _ _ _ => rfl
  unsent := fun _ request pc hcall => by simp [Sharing.init, Transport.spawn] at hcall
  answered := fun request m hcall => by simp [Sharing.init, Transport.spawn] at hcall

/-- The transport goes on with the closure's call. -/
theorem greeting_transport (server : CallId) (h : Sharing) (queued : List (Tagged Json))
    (hg : Greeting server h queued) (a : TransportAction) (t : Transport)
    (hstep : h.transport.step a = some t) (hbegin : ∀ c source request, a ≠ .begin c source request)
    (hforward : ∀ owner message, a ≠ .forward owner message) :
    Greeting server { h with transport := t } (queued ++ h.transport.queuedBy t) := by
  -- Every call was there before, with the same request.
  have hold : ∀ c call', t.calls.get? c = some call' →
      ∃ pc, h.transport.calls.get? c = some ⟨call'.request, pc⟩ ∧
        (Transport.stays a c ∧ pc = call'.pc ∨
          Transport.Advances h.transport t c call'.request a pc call'.pc) := by
    intro c call' hcall'
    cases hcall : h.transport.calls.get? c with
    | none =>
        rw [Transport.call_begun h.transport t a hstep c hcall (hbegin c)] at hcall'
        exact absurd hcall' (by simp)
    | some call =>
        rcases Transport.call_step h.transport t a hstep c call.request call.pc hcall with
          ⟨hstays, hsame⟩ | ⟨pc', hnew, hadvances⟩
        · rw [hsame, Option.some.injEq] at hcall'
          rw [← hcall']
          exact ⟨call.pc, rfl, Or.inl ⟨hstays, rfl⟩⟩
        · rw [hnew, Option.some.injEq] at hcall'
          rw [← hcall']
          exact ⟨call.pc, rfl, Or.inr hadvances⟩
  have hserver : ∀ call, h.transport.calls.get? server = some call →
      ∃ call', t.calls.get? server = some call' := by
    intro call hcall
    rcases Transport.call_step h.transport t a hstep server call.request call.pc hcall with
      ⟨_, hsame⟩ | ⟨pc', hnew, _⟩
    · exact ⟨_, hsame⟩
    · exact ⟨_, hnew⟩
  -- What is queued is the closure's request, and then its call waits.
  have hqueue : h.transport.queuedBy t = [] ∨ (∃ request rx, a = .send server ∧ queued = [] ∧
      IsInitialize request ∧ h.transport.calls.get? server = some ⟨request, .sending rx⟩ ∧
      h.transport.queuedBy t = [⟨some server, request⟩]) := by
    rcases Transport.queuedBy_step h.transport t a hstep with
      hnone | ⟨c, request, rx, ha, hcall, hqueued⟩ | ⟨owner, message, ha⟩
    · exact Or.inl hnone
    · rcases hg.calls c _ hcall with ⟨hc, hinit⟩
      rw [hc] at hcall hqueued ha
      exact Or.inr ⟨request, rx, ha, hg.sending request rx hcall, hinit, hcall, hqueued⟩
    · exact absurd ha (hforward owner message)
  refine ⟨hg.streams, ?_, hg.parties, ?_, ?_, ?_, ?_, ?_⟩
  · intro c call' hcall'
    rcases hold c call' hcall' with ⟨pc, hcall, _⟩
    exact hg.calls c ⟨call'.request, pc⟩ hcall
  · intro call' hcall'
    rcases hold server call' hcall' with ⟨pc, hcall, _⟩
    exact hg.named _ hcall
  · rcases hqueue with hnone | ⟨request, rx, _, hempty, hinit, hcall, hqueued⟩
    · rw [hnone, List.append_nil]
      rcases hg.queue with hempty | ⟨request, call, hinit, hqueued, hcall⟩
      · exact Or.inl hempty
      · rcases hserver call hcall with ⟨call', hcall'⟩
        exact Or.inr ⟨request, call', hinit, hqueued, hcall'⟩
    · rcases hserver _ hcall with ⟨call', hcall'⟩
      exact Or.inr ⟨request, call', hinit, by rw [hempty, hqueued, List.nil_append], hcall'⟩
  · intro request rx hcall'
    rcases hold server _ hcall' with ⟨pc, hcall, ⟨hstays, hpc⟩ | hadvances⟩
    · rw [hpc] at hcall
      rw [hg.sending request rx hcall, List.nil_append]
      rcases hqueue with hnone | ⟨_, _, ha, _⟩
      · exact hnone
      · exact absurd ha hstays.1
    · cases hadvances
  · intro hempty request pc' hcall'
    rcases List.append_eq_nil_iff.mp hempty with ⟨hempty, hnone⟩
    rcases hold server _ hcall' with ⟨pc, hcall, ⟨_, hpc⟩ | hadvances⟩
    · rw [hpc] at hcall
      exact hg.unsent hempty request pc' hcall
    · have hbefore := hg.unsent hempty request pc hcall
      cases hadvances with
      | unqueued rx hwriter hinbound => exact Or.inr ⟨_, rfl⟩
      | queued rx hinbound =>
          rw [Transport.queuedBy_append _ _ _ hinbound] at hnone
          exact absurd hnone (by simp)
      | polled rx rx' hinbound | answered rx m hm hexpects hinbound | failed rx hinbound =>
          exact absurd hbefore (by simp)
  · intro request m hcall'
    rcases hold server _ hcall' with ⟨pc, hcall, ⟨_, hpc⟩ | hadvances⟩
    · rw [hpc] at hcall
      rcases hg.answered request m hcall with ⟨hm, hid⟩
      exact ⟨Transport.sent_step h.transport t a hstep m hm, hid⟩
    · rcases (hg.calls server _ hcall).2 with ⟨_, hrequest, _⟩
      cases hadvances with
      | answered rx _ hm hexpects hinbound =>
          refine ⟨Transport.sent_step h.transport t _ hstep m hm, ?_⟩
          rw [expects, beq_iff_eq, hrequest] at hexpects
          exact hexpects

/-- The request of a call that begins, and who it is for. -/
theorem begin_eq_some (h h' : Sharing) (client : Option Nat) (call : CallId) (source : Owner)
    (request : Json) (hstep : h.step (.begin client call source request) = some h') :
    h.fresh call = true ∧ ∃ t pc, h.transport.step (.begin call source request) = some t ∧
      h' = { h with transport := t, requests := h.requests.set call (Sharing.caller client) } ∧
      t = Transport.setPc { h.transport with handles := .call call :: h.transport.handles } call
        request pc ∧
      (pc = .sending h.transport.outbound.subscribe ∨
        pc = .returned (.error "request message must include id")) := by
  simp only [Sharing.step, Option.ite_none_right_eq_some, Option.map_eq_some_iff] at hstep
  rcases hstep with ⟨hfresh, t, ht, heq⟩
  have hbegin := ht
  simp only [Transport.step, Option.ite_none_right_eq_some, Option.some.injEq] at hbegin
  rcases Transport.beginCall_cases
      { h.transport with handles := .call call :: h.transport.handles } call request with
    ⟨pc, hpc, hcases⟩
  exact ⟨hfresh, t, pc, ht, heq.symm, by rw [← hbegin.2, hpc], hcases⟩

theorem queuedBy_begin (h h' : Sharing) (client : Option Nat) (call : CallId) (source : Owner)
    (request : Json) (hstep : h.step (.begin client call source request) = some h') :
    h.transport.queuedBy h'.transport = [] := by
  rcases begin_eq_some h h' client call source request hstep with ⟨_, t, pc, _, hh', ht, _⟩
  rw [hh', ht]
  exact Transport.queuedBy_same _ _ rfl

/-- The closure calls `initialize`. -/
theorem greeting_begin (server : CallId) (h h' : Sharing) (queued : List (Tagged Json))
    (hg : Greeting server h queued) (rootUri : Option String) (options : Option Json)
    (hstep : h.step (.begin none server .session (initializeRequest rootUri options)) = some h') :
    Greeting server h' (queued ++ h.transport.queuedBy h'.transport) := by
  have hqueued := queuedBy_begin h h' none server .session _ hstep
  rcases begin_eq_some h h' none server .session _ hstep with
    ⟨hfresh, t, pc, _, hh', ht, hpc⟩
  have hnone := ((Sharing.fresh_iff h server).mp hfresh).2
  -- Without its call the closure has queued nothing.
  have hempty : queued = [] := by
    rcases hg.queue with hempty | ⟨request, call, _, _, hcall⟩
    · exact hempty
    · rw [hnone] at hcall
      exact absurd hcall (by simp)
  have hget : ∀ c call, h'.transport.calls.get? c = some call →
      c = server ∧ call = ⟨initializeRequest rootUri options, pc⟩ := by
    intro c call hcall
    rw [hh', ht, Transport.setPc_calls] at hcall
    rcases (Table.get?_set_eq_some _ _ _ _ _).mp hcall with ⟨hc, heq⟩ | ⟨hc, hold⟩
    · exact ⟨hc, heq.symm⟩
    · exact absurd (hg.calls c call hold).1 hc
  rw [hqueued, hempty, List.append_nil]
  refine ⟨?_, ?_, ?_, ?_, Or.inl rfl, fun _ _ _ => rfl, ?_, ?_⟩
  · intro n
    rw [hh']
    exact hg.streams n
  · intro c call hcall
    rw [(hget c call hcall).2]
    exact ⟨(hget c call hcall).1, isInitialize_initializeRequest rootUri options⟩
  · intro c party hparty
    rw [hh'] at hparty
    rcases (Table.get?_set_eq_some _ _ _ _ _).mp hparty with ⟨_, heq⟩ | ⟨_, hold⟩
    · exact heq.symm
    · exact hg.parties c party hold
  · intro call _
    rw [hh']
    exact Table.get?_set_self _ _ _
  · intro _ request pc' hcall
    have heq := (hget server _ hcall).2
    rw [Call.mk.injEq] at heq
    rw [heq.2]
    rcases hpc with hpc | hpc
    · exact Or.inl ⟨_, hpc⟩
    · exact Or.inr ⟨_, hpc⟩
  · intro request m hcall
    have heq := (hget server _ hcall).2
    rw [Call.mk.injEq] at heq
    rcases hpc with hpc | hpc
    · rw [hpc] at heq
      exact absurd heq.2 (by simp)
    · rw [hpc] at heq
      exact absurd heq.2 (by simp)

/-- `initialized` follows the response. -/
theorem greeted_of_greeting (server : CallId) (h : Sharing) (queued : List (Tagged Json))
    (hg : Greeting server h queued) (request : Json) (response : Tagged LspMessage) (c : CallId)
    (hcall : h.transport.calls.get? server = some ⟨request, .returned (.ok response)⟩)
    (hfresh : h.fresh c = true) :
    Greeted server (h.accept c .daemon initializedNotification)
      (queued ++ [⟨some c, initializedNotification⟩]) := by
  have hserver := hg.named _ hcall
  have hne : server ≠ c := by
    intro hc
    rw [← hc, Sharing.fresh_iff, hserver] at hfresh
    exact absurd hfresh.1 (by simp)
  refine ⟨?_, ?_, response, hg.answered request response hcall⟩
  · rcases hg.queue with hempty | ⟨sent, call, hinit, hqueued, _⟩
    · exact absurd (hg.unsent hempty request _ hcall) (by simp)
    · refine ⟨sent, c, [], hinit, by rw [hqueued]; rfl, ?_, Table.get?_set_self _ _ _, by simp⟩
      rw [← hserver]
      exact Table.get?_set_ne _ _ _ _ hne
  · intro d r rx hd
    -- The closure's call has returned, and there is no other.
    have hpending : h.transport.calls.get? d = some ⟨r, .sending rx⟩ := hd
    rw [(hg.calls d _ hpending).1, hcall, Option.some.injEq, Call.mk.injEq] at hpending
    exact absurd hpending.2 (by simp)

/-! ### After `initialized` -/

/-- More of what is no handshake may follow. -/
theorem greeted_append (server : CallId) (h h' : Sharing) (queued more : List (Tagged Json))
    (hg : Greeted server h queued)
    (hrequests : ∀ c party, h.requests.get? c = some party → h'.requests.get? c = some party)
    (hpending : ∀ c request rx, h'.transport.calls.get? c = some ⟨request, .sending rx⟩ →
      ¬IsHandshake request)
    (hsent : ∀ m ∈ h.transport.outbound.sent, m ∈ h'.transport.outbound.sent)
    (hmore : ∀ m ∈ more, ¬IsHandshake m.content) : Greeted server h' (queued ++ more) := by
  rcases hg.queue with ⟨request, c, rest, hinit, hqueued, hserver, hc, hrest⟩
  rcases hg.answered with ⟨m, hm, hid⟩
  refine ⟨⟨request, c, rest ++ more, hinit, by rw [hqueued]; rfl, hrequests _ _ hserver,
    hrequests _ _ hc, fun m hm => ?_⟩, hpending, m, hsent m hm, hid⟩
  rcases List.mem_append.mp hm with hm | hm
  · exact hrest m hm
  · exact hmore m hm

theorem greeted_transport (server : CallId) (h : Sharing) (queued : List (Tagged Json))
    (hg : Greeted server h queued) (a : TransportAction) (t : Transport)
    (hstep : h.transport.step a = some t)
    (hbegin : ∀ c source request, a ≠ .begin c source request)
    (hforward : ∀ owner message, a ≠ .forward owner message) :
    Greeted server { h with transport := t } (queued ++ h.transport.queuedBy t) := by
  refine greeted_append server h _ queued _ hg (fun _ _ hparty => hparty) ?_
    (Transport.sent_step h.transport t a hstep) ?_
  · intro c request rx hcall
    -- A call that still has to queue its request was there before.
    cases hold : h.transport.calls.get? c with
    | none =>
        rw [Transport.call_begun h.transport t a hstep c hold (hbegin c)] at hcall
        exact absurd hcall (by simp)
    | some call =>
        rcases call with ⟨request₀, pc⟩
        rcases Transport.call_step h.transport t a hstep c request₀ pc hold with
          ⟨_, hsame⟩ | ⟨pc', hnew, hadvances⟩
        · rw [hsame, Option.some.injEq, Call.mk.injEq] at hcall
          refine hg.pending c request rx ?_
          rw [hold, hcall.1, hcall.2]
        · rw [hnew, Option.some.injEq, Call.mk.injEq] at hcall
          rw [hcall.2] at hadvances
          -- And has not advanced, for no call goes back to sending.
          cases hadvances
  · intro m hm
    -- What is queued is the request of such a call.
    rcases Transport.queuedBy_step h.transport t a hstep with
      hnone | ⟨c, request, rx, _, hcall, hqueued⟩ | ⟨owner, message, ha⟩
    · rw [hnone] at hm
      exact absurd hm List.not_mem_nil
    · rw [hqueued, List.mem_singleton] at hm
      rw [hm]
      exact hg.pending c request rx hcall
    · exact absurd ha (hforward owner message)

/-- A request that is no handshake is queued. -/
theorem greeted_accept (server : CallId) (h : Sharing) (queued : List (Tagged Json))
    (hg : Greeted server h queued) (c : CallId) (party : Party) (message : Json)
    (hfresh : h.fresh c = true) (hmessage : ¬IsHandshake message) :
    Greeted server (h.accept c party message)
      (queued ++ h.transport.queuedBy (h.accept c party message).transport) := by
  have hnone := ((Sharing.fresh_iff h c).mp hfresh).1
  rw [Sharing.queuedBy_accept]
  refine greeted_append server h _ queued _ hg ?_ hg.pending (fun m hm => hm) ?_
  · intro d party' hparty
    have hd : d ≠ c := fun hd => by
      rw [hd, hnone] at hparty
      exact absurd hparty (by simp)
    rw [← hparty]
    exact Table.get?_set_ne _ _ _ _ hd
  · intro m hm
    rw [List.mem_singleton.mp hm]
    exact hmessage

/-- A call begins with a request that is no handshake. -/
theorem greeted_begin (server : CallId) (h h' : Sharing) (queued : List (Tagged Json))
    (hg : Greeted server h queued) (client : Option Nat) (call : CallId) (request : Json)
    (hstep : h.step (.begin client call .session request) = some h')
    (hrequest : ¬IsHandshake request) :
    Greeted server h' (queued ++ h.transport.queuedBy h'.transport) := by
  have hqueued := queuedBy_begin h h' client call .session request hstep
  rcases begin_eq_some h h' client call .session request hstep with
    ⟨hfresh, t, pc, ht, hh', heq, _⟩
  have hnone := ((Sharing.fresh_iff h call).mp hfresh).1
  rw [hqueued]
  refine greeted_append server h h' queued [] hg ?_ ?_ ?_ (by simp)
  · intro d party hparty
    -- The name was free, so nobody else's request goes by it.
    have hd : d ≠ call := fun hd => by
      rw [hd, hnone] at hparty
      exact absurd hparty (by simp)
    rw [← hparty, hh']
    exact Table.get?_set_ne _ _ _ _ hd
  · intro d r rx hd
    rw [hh', heq, Transport.setPc_calls] at hd
    rcases (Table.get?_set_eq_some _ _ _ _ _).mp hd with ⟨_, hcall⟩ | ⟨_, hold⟩
    · rw [Call.mk.injEq] at hcall
      rw [← hcall.1]
      exact hrequest
    · exact hg.pending d r rx hold
  · intro m hm
    rw [hh']
    exact Transport.sent_step h.transport t _ ht m hm

/-- What leaves the calls, the requests and the broadcast alone, and queues
    nothing. -/
theorem greeted_same (server : CallId) (h h' : Sharing) (queued : List (Tagged Json))
    (hg : Greeted server h queued) (hcalls : h'.transport.calls = h.transport.calls)
    (hrequests : h'.requests = h.requests)
    (houtbound : h'.transport.outbound = h.transport.outbound)
    (hinbound : h'.transport.inbound = h.transport.inbound) :
    Greeted server h' (queued ++ h.transport.queuedBy h'.transport) := by
  rw [Transport.queuedBy_same _ _ hinbound]
  refine greeted_append server h h' queued [] hg ?_ ?_ ?_ (by simp)
  · intro c party hparty
    rw [hrequests, hparty]
  · intro c request rx hcall
    rw [hcalls] at hcall
    exact hg.pending c request rx hcall
  · intro m hm
    rw [houtbound]
    exact hm

/-! ### The steps of a server -/

theorem handshaken_of_result (server : CallId) (s : Server) (result : Json)
    (hboot : s.boot = .finished (.ok result)) :
    Handshaken server s ↔ Greeted server s.sharing s.queued := by
  unfold Handshaken
  rw [hboot]

theorem handshaken_of_none (server : CallId) (s : Server)
    (hboot : ∀ result, s.boot ≠ .finished (.ok result)) :
    Handshaken server s ↔ Greeting server s.sharing s.queued := by
  unfold Handshaken
  cases hstage : s.boot with
  | spawned => rfl
  | initializing => rfl
  | finished result =>
      cases result with
      | ok value => exact absurd hstage (hboot value)
      | error error => rfl

/-- Nobody but the closure uses a server before the handshake. -/
theorem greeting_act (server : CallId) (s : Server) (h : Sharing) (a : SharingAction)
    (hg : Greeting server s.sharing s.queued) (hmay : s.mayMove a = true)
    (hstep : s.sharing.step a = some h) :
    Greeting server h (s.queued ++ s.sharing.transport.queuedBy h.transport) := by
  have hstream : ∀ n u, s.sharing.streams.get? n ≠ some u := by
    intro n u hu
    rw [hg.streams n] at hu
    exact absurd hu (by simp)
  cases Fleet.act_cases s h a hmay hstep with
  | transport b t ht hbegin hforward =>
      exact greeting_transport server s.sharing s.queued hg b t ht hbegin hforward
  | readOver n frame c u hu hother => exact absurd hu (hstream n u)
  | failed n frame c u hu hreading hwriter => exact absurd hu (hstream n u)
  | accepted n frame c u hu hlease htype hfresh => exact absurd hu (hstream n u)
  | moved _ n u u' ha hframe hu hmoved => exact absurd hu (hstream n u)

theorem greeted_act (server : CallId) (s : Server) (h : Sharing) (a : SharingAction)
    (hg : Greeted server s.sharing s.queued) (hmay : s.mayMove a = true)
    (hstep : s.sharing.step a = some h)
    (hframe : ∀ n frame c, a = .frame n frame c → ¬IsHandshake frame.payload) :
    Greeted server h (s.queued ++ s.sharing.transport.queuedBy h.transport) := by
  cases Fleet.act_cases s h a hmay hstep with
  | transport b t ht hbegin hforward =>
      exact greeted_transport server s.sharing s.queued hg b t ht hbegin hforward
  | readOver n frame c u hu hother => exact greeted_same server _ _ s.queued hg rfl rfl rfl rfl
  | failed n frame c u hu hreading hwriter =>
      exact greeted_same server _ _ s.queued hg rfl rfl rfl rfl
  | accepted n frame c u hu hlease htype hfresh =>
      exact greeted_accept server s.sharing s.queued hg c _ _ hfresh (hframe n frame c rfl)
  | moved _ n u u' ha _ hu hmoved => exact greeted_same server _ _ s.queued hg rfl rfl rfl rfl

namespace Fleet

/-- A client connects to a stream: a handle is cloned, and a receiver made. -/
theorem connect_keeps (h h' h'' : Sharing) (n : Nat) (leaseId : String)
    (hclone : h.step (.transport (.clone .session n)) = some h')
    (hconnect : h'.step (.connect n leaseId) = some h'') :
    h''.requests = h.requests ∧
      h''.transport = { h.transport with handles := .task n :: h.transport.handles } ∧
      h.streams.get? n = none ∧
      h''.streams = h.streams.set n (.connect leaseId h.transport.outbound.subscribe) := by
  simp only [Sharing.step, Option.ite_none_right_eq_some, Option.map_eq_some_iff] at hclone
  rcases hclone with ⟨_, t, ht, heq⟩
  simp only [Transport.step, Option.ite_none_right_eq_some, Option.some.injEq] at ht
  simp only [Sharing.step, Option.ite_none_right_eq_some, Option.some.injEq] at hconnect
  rw [← hconnect.2, ← heq, ← ht.2]
  rw [← heq] at hconnect
  exact ⟨rfl, rfl, hconnect.1.2, rfl⟩

/-- A server that is a runtime has been greeted. -/
theorem greeted_of_owner (f : Fleet) (howned : Owned f) (server : CallId) (s : Server)
    (hs : f.servers.get? server = some s) (runtime : RuntimeId)
    (howner : f.owners.get? runtime = some server) (h : Handshaken server s) :
    ∃ result, s.boot = .finished (.ok result) ∧ Greeted server s.sharing s.queued := by
  rcases howned.booted runtime server howner with ⟨s₀, result, hs₀, hboot⟩
  rw [hs, Option.some.injEq] at hs₀
  rw [← hs₀] at hboot
  exact ⟨result, hboot, (handshaken_of_result server s result hboot).mp h⟩

theorem owned_iff (f : Fleet) (server : CallId) :
    f.owned server = true ↔ ∃ runtime, f.owners.get? runtime = some server := by
  rw [owned, List.contains_iff_mem, Table.mem_values_iff]

/-- No connection has sent a message of the handshake. -/
def ClientsPlain (f : Fleet) : Prop :=
  ∀ n, ∀ request ∈ f.history n, ¬IsHandshake request.message

theorem handshaken_moves (f : Fleet) (howned : Owned f) (hrequested : Requested f)
    (hplain : ClientsPlain f) (server : CallId) (s s' : Server) (a : FleetAction)
    (hs : f.servers.get? server = some s) (ha : a.NoHandshake) (hmoves : f.Moves server s a s')
    (h : Handshaken server s) : Handshaken server s' := by
  cases hmoves with
  | callInitialize rootUri options h' hboot hh =>
      have hg := (handshaken_of_none server s (by simp [hboot])).mp h
      exact greeting_begin server s.sharing h' s.queued hg rootUri options hh
  | bootstrapped c request response hboot hcall hfresh =>
      have hg := (handshaken_of_none server s (by simp [hboot])).mp h
      have hgreeted := greeted_of_greeting server s.sharing s.queued hg request response c hcall
        hfresh
      rw [← Sharing.queuedBy_accept s.sharing c .daemon initializedNotification] at hgreeted
      exact hgreeted
  | bootstrapFails c error hboot hcall =>
      exact (handshaken_of_none server s (by simp [hboot])).mp h
  | call n call id message key runtime h' hframe howner hsent hh =>
      -- A runtime with an owner has been through its handshake.
      rcases greeted_of_owner f howned server s hs runtime howner h with ⟨result, hboot, hg⟩
      have hmem := mem_history_of_sent f hrequested n call hsent _ id message _ hframe
      refine (handshaken_of_result server (s.after h') result hboot).mpr ?_
      exact greeted_begin server s.sharing h' s.queued hg (some n) call message hh
        (hplain n _ hmem)
  | connect attach n lease handle h₁ h₂ hframe howner hh hh' =>
      rcases greeted_of_owner f howned server s hs handle.runtime howner h with
        ⟨result, hboot, hg⟩
      rcases connect_keeps s.sharing h₁ h₂ n lease.id hh hh' with ⟨hrequests, htransport, _, _⟩
      refine (handshaken_of_result server (s.after h₂) result hboot).mpr ?_
      exact greeted_same server s.sharing h₂ s.queued hg (by rw [htransport]) hrequests
        (by rw [htransport]) (by rw [htransport])
  | daemonSends c message h' howned' hmessage hh =>
      rcases (owned_iff f server).mp howned' with ⟨runtime, howner⟩
      rcases greeted_of_owner f howned server s hs runtime howner h with ⟨result, hboot, hg⟩
      refine (handshaken_of_result server (s.after h') result hboot).mpr ?_
      rcases Sharing.send_cases s.sharing h' none c .session message hh with ⟨hfresh, heq | heq⟩
      · rw [heq]
        exact greeted_same server _ _ s.queued hg rfl rfl rfl rfl
      · rw [heq]
        refine greeted_accept server s.sharing s.queued hg c .daemon message hfresh ?_
        -- The daemon's last messages are no part of a handshake.
        rcases hmessage with hmessage | hmessage
        · rw [hmessage]
          exact not_isHandshake_shutdown
        · rw [hmessage]
          exact not_isHandshake_exit
  | act b h' hmay hh =>
      -- Before the closure is done the greeting goes on, and afterwards it stays.
      by_cases hboot : ∃ result, s.boot = .finished (.ok result)
      · rcases hboot with ⟨result, hboot⟩
        refine (handshaken_of_result server { s.after h' with frames := _, writerFailed := _ }
          result hboot).mpr ?_
        refine greeted_act server s h' b ((handshaken_of_result server s result hboot).mp h) hmay hh
          fun n frame c hb => ?_
        rw [hb] at ha
        exact ha
      · have hnone : ∀ result, s.boot ≠ .finished (.ok result) := fun result heq =>
          hboot ⟨result, heq⟩
        refine (handshaken_of_none server { s.after h' with frames := _, writerFailed := _ }
          hnone).mpr ?_
        exact greeting_act server s h' b ((handshaken_of_none server s hnone).mp h) hmay hh

/-! ### Runs -/

/-- Every server has been greeted, or is being greeted, and the clients keep out
    of it. -/
structure Polite (f : Fleet) : Prop where
  owned : Owned f
  requested : Requested f
  plain : ClientsPlain f
  servers : ∀ server s, f.servers.get? server = some s → Handshaken server s
  fresh : Fresh f.world

theorem polite_init (idleTtl : Duration) : Polite (init idleTtl) where
  owned := owned_init idleTtl
  requested := requested_init idleTtl
  plain := by
    intro n request hmem
    simp [history, init] at hmem
  servers := fun server s hs => by simp [init] at hs
  fresh := fresh_init idleTtl

theorem plain_step (f f' : Fleet) (a : FleetAction) (h : ClientsPlain f) (ha : a.NoHandshake)
    (hstep : f.step a = some f') : ClientsPlain f' := by
  cases step_effect f f' a hstep with
  | request n kind leaseId message call w hidle hw =>
      intro m request hmem
      rw [history_set] at hmem
      by_cases hm : m = n
      · rw [if_pos hm] at hmem
        rcases List.mem_append.mp hmem with hmem | hmem
        · exact h n request hmem
        · rw [List.mem_singleton.mp hmem]
          exact ha
      · rw [if_neg hm] at hmem
        exact h m request hmem
  | _ => exact h

theorem handshaken_step (f f' : Fleet) (a : FleetAction) (h : Polite f) (ha : a.NoHandshake)
    (hstep : f.step a = some f') (server : CallId) (s' : Server)
    (hs' : f'.servers.get? server = some s') : Handshaken server s' := by
  rcases server_step f f' a hstep server s' hs' with
    ⟨_, hnew⟩ | hold | ⟨s, hs, hmoves | hnotifies⟩
  · rw [hnew]
    exact greeting_init server
  · exact h.servers server s' hold
  · exact handshaken_moves f h.owned h.requested h.plain server s s' a hs ha hmoves
      (h.servers server s hs)
  · cases hnotifies with
    | notified n call id message key runtime hframe howner hsent hfresh =>
        rcases greeted_of_owner f h.owned server s hs runtime howner (h.servers server s hs) with
          ⟨result, hboot, hg⟩
        have hmem := mem_history_of_sent f h.requested n call hsent _ id message _ hframe
        refine (handshaken_of_result server (s.after _) result hboot).mpr ?_
        exact greeted_accept server s.sharing s.queued hg call (.control n) message hfresh
          (h.plain n _ hmem)

theorem polite_step (f f' : Fleet) (a : FleetAction) (h : Polite f) (hstep : f.step a = some f')
    (ha : a.NoHandshake) : Polite f' where
  owned := owned_step f f' a h.owned hstep
  requested := requested_step f f' a h.requested hstep
  plain := plain_step f f' a h.plain ha hstep
  servers := handshaken_step f f' a h ha hstep
  fresh := world_invariant (fun w b w' hw hstep => fresh_step w w' b hw hstep) f f' a h.fresh hstep

theorem polite_run (idleTtl : Duration) (as : List FleetAction) (f : Fleet)
    (h : run step (init idleTtl) as = some f) (hclients : ∀ a ∈ as, a.NoHandshake) : Polite f :=
  run_invariant (fun f a f' hf hstep ha => polite_step f f' a hf hstep ha) as (init idleTtl) f h
    (polite_init idleTtl) (along_of_forall as (init idleTtl) hclients)

/-! ### The servers are greeted first -/

theorem greeting_plain (server : CallId) (h : Sharing) (queued : List (Tagged Json))
    (hg : Greeting server h queued) : ∀ m ∈ queued, ¬IsInitialized m.content := by
  intro m hm
  rcases hg.queue with hempty | ⟨request, call, ⟨_, _, hmethod⟩, hqueued, _⟩
  · rw [hempty] at hm
    exact absurd hm List.not_mem_nil
  · rw [hqueued, List.mem_singleton] at hm
    rw [hm]
    rintro ⟨_, _, hother⟩
    rw [hmethod] at hother
    exact absurd hother (by decide)

theorem greeting_no_client (server : CallId) (s : Server) (hg : Greeting server s.sharing s.queued)
    (m : Tagged Json) : ¬s.FromClient m := by
  rintro ⟨c, party, _, hparty, hne⟩
  exact hne (hg.parties c party hparty)

/-- The servers are greeted before they are used, and once. -/
structure HandshakeFirst (f : Fleet) : Prop where
  /-- The queue of a session's runtime begins with the two messages of the
      daemon, and holds no other of their kind. -/
  registered : ∀ key runtime, Event.registered key runtime ∈ f.world.log →
    ∃ server s, f.owners.get? runtime = some server ∧ f.servers.get? server = some s ∧
      ∃ first second rest, s.queued = first :: second :: rest ∧
        (IsInitialize first.content ∧ ¬s.FromClient first) ∧
        (IsInitialized second.content ∧ ¬s.FromClient second) ∧
        ∀ m ∈ rest, ¬IsHandshake m.content
  /-- No client's message is queued before `initialized`. -/
  clients : ∀ server s, f.servers.get? server = some s →
    ∀ before m after, s.queued = before ++ m :: after → s.FromClient m →
      ∃ m' ∈ before, IsInitialized m'.content
  /-- A server whose closure has failed gets no client's message. -/
  failed : ∀ server s error, f.servers.get? server = some s →
    s.boot = .finished (.error error) → ∀ m ∈ s.queued, ¬s.FromClient m
  /-- The step that queues `initialized` comes after the response. -/
  answered : ∀ a f' server s s', a.NoHandshake → f.step a = some f' →
    f.servers.get? server = some s → f'.servers.get? server = some s' →
    (∀ m ∈ s.queued, ¬IsInitialized m.content) →
    (∃ m ∈ s'.queued, IsInitialized m.content) →
    ∃ response ∈ s.sharing.transport.outbound.sent,
      response.content.id = some (.str "lspee-initialize")

/-- Who the first two messages are from. -/
theorem greeted_first (server : CallId) (s : Server) (hg : Greeted server s.sharing s.queued) :
    ∃ first second rest, s.queued = first :: second :: rest ∧
      (IsInitialize first.content ∧ ¬s.FromClient first) ∧
      (IsInitialized second.content ∧ ¬s.FromClient second) ∧
      ∀ m ∈ rest, ¬IsHandshake m.content := by
  rcases hg.queue with ⟨request, c, rest, hinit, hqueued, hserver, hc, hrest⟩
  refine ⟨_, _, rest, hqueued, ⟨hinit, ?_⟩, ⟨isInitialized_initializedNotification, ?_⟩, hrest⟩
  · rintro ⟨d, party, hd, hparty, hne⟩
    rw [← Option.some.inj hd, hserver, Option.some.injEq] at hparty
    exact hne hparty.symm
  · rintro ⟨d, party, hd, hparty, hne⟩
    rw [← Option.some.inj hd, hc, Option.some.injEq] at hparty
    exact hne hparty.symm

/-- A closure has a result from the step that queues `initialized`. -/
theorem moves_result (f : Fleet) (server : CallId) (s s' : Server) (a : FleetAction)
    (hmoves : f.Moves server s a s') (hnone : ∀ result, s.boot ≠ .finished (.ok result)) :
    (∃ request response, s.boot = .initializing ∧ s.sharing.transport.calls.get? server
      = some ⟨request, .returned (.ok response)⟩) ∨
      ∀ result, s'.boot ≠ .finished (.ok result) := by
  cases hmoves with
  | callInitialize rootUri options h hboot hh => exact Or.inr (by simp)
  | bootstrapped c request response hboot hcall hfresh =>
      exact Or.inl ⟨request, response, hboot, hcall⟩
  | bootstrapFails c error hboot hcall => exact Or.inr (by simp)
  | call n call id message key runtime h hframe howner hsent hh => exact Or.inr hnone
  | connect attach n lease handle h h' hframe howner hh hh' => exact Or.inr hnone
  | daemonSends c message h howned hmessage hh => exact Or.inr hnone
  | act b h hmay hh => exact Or.inr hnone

/-- A step that leaves a server's closure without a result queues no
    `initialized`. -/
theorem answered_step (f f' : Fleet) (a : FleetAction) (h : Polite f) (ha : a.NoHandshake)
    (hstep : f.step a = some f') (server : CallId) (s s' : Server)
    (hs : f.servers.get? server = some s) (hs' : f'.servers.get? server = some s')
    (hbefore : ∀ m ∈ s.queued, ¬IsInitialized m.content)
    (hafter : ∃ m ∈ s'.queued, IsInitialized m.content) :
    ∃ response ∈ s.sharing.transport.outbound.sent,
      response.content.id = some (.str "lspee-initialize") := by
  have hnone : ∀ result, s.boot ≠ .finished (.ok result) := by
    intro result hboot
    rcases greeted_first server s ((handshaken_of_result server s result hboot).mp
      (h.servers server s hs)) with ⟨first, second, rest, hqueued, _, ⟨hsecond, _⟩, _⟩
    exact hbefore second (by rw [hqueued]; simp) hsecond
  have hg := (handshaken_of_none server s hnone).mp (h.servers server s hs)
  -- A server that is still being greeted has no `initialized`.
  have hgreeting : (∀ result, s'.boot ≠ .finished (.ok result)) → False := by
    intro hnone'
    have hg' := (handshaken_of_none server s' hnone').mp
      (handshaken_step f f' a h ha hstep server s' hs')
    rcases hafter with ⟨m, hm, hcontent⟩
    exact greeting_plain server _ _ hg' m hm hcontent
  rcases server_step f f' a hstep server s' hs' with
    ⟨hfree, _⟩ | hold | ⟨s₀, hs₀, hmoves | hnotifies⟩
  · rw [hs] at hfree
    exact absurd hfree (by simp)
  · rw [hs, Option.some.injEq] at hold
    exact (hgreeting (by rw [← hold]; exact hnone)).elim
  · rw [hs, Option.some.injEq] at hs₀
    rw [← hs₀] at hmoves
    rcases moves_result f server s s' a hmoves hnone with ⟨request, response, _, hcall⟩ | hnone'
    · exact ⟨response, hg.answered request response hcall⟩
    · exact (hgreeting hnone').elim
  · rw [hs, Option.some.injEq] at hs₀
    rw [← hs₀] at hnotifies
    cases hnotifies with
    | notified n call id message key runtime hframe howner hsent hfresh =>
        exact (hgreeting hnone).elim

/-- Handshake first, once: every run greets every server before a client's
    message comes to it, whatever the registry, the servers and the clients do in
    between. -/
theorem handshake_first (idleTtl : Duration) (as : List FleetAction) (f : Fleet)
    (h : run step (init idleTtl) as = some f) (hclients : ∀ a ∈ as, a.NoHandshake) :
    HandshakeFirst f := by
  have hpolite := polite_run idleTtl as f h hclients
  refine ⟨fun key runtime hreg => ?_, fun server s hs before m after hqueued hclient => ?_,
    fun server s error hs hboot m _ => ?_, ?_⟩
  · rcases hpolite.owned.known runtime (hpolite.fresh.bound key runtime hreg) with
      ⟨server, howner⟩
    rcases hpolite.owned.booted runtime server howner with ⟨s, result, hs, hboot⟩
    have hg := (handshaken_of_result server s result hboot).mp (hpolite.servers server s hs)
    exact ⟨server, s, howner, hs, greeted_first server s hg⟩
  · by_cases hboot : ∃ result, s.boot = .finished (.ok result)
    · rcases hboot with ⟨result, hboot⟩
      have hg := (handshaken_of_result server s result hboot).mp (hpolite.servers server s hs)
      rcases greeted_first server s hg with
        ⟨first, second, rest, hfirst, ⟨_, hnot⟩, ⟨hsecond, hnot'⟩, _⟩
      rw [hfirst] at hqueued
      -- The message is neither the first nor the second.
      cases before with
      | nil =>
          rw [List.nil_append, List.cons.injEq] at hqueued
          rw [hqueued.1] at hnot
          exact absurd hclient hnot
      | cons m₁ before =>
          cases before with
          | nil =>
              simp only [List.cons_append, List.nil_append, List.cons.injEq] at hqueued
              rw [hqueued.2.1] at hnot'
              exact absurd hclient hnot'
          | cons m₂ before =>
              simp only [List.cons_append, List.cons.injEq] at hqueued
              refine ⟨m₂, by simp, ?_⟩
              rw [← hqueued.2.1]
              exact hsecond
    · have hnone : ∀ result, s.boot ≠ .finished (.ok result) := fun result heq =>
        hboot ⟨result, heq⟩
      have hg := (handshaken_of_none server s hnone).mp (hpolite.servers server s hs)
      exact absurd hclient (greeting_no_client server s hg m)
  · have hg := (handshaken_of_none server s (by simp [hboot])).mp (hpolite.servers server s hs)
    exact greeting_no_client server s hg m
  · intro a f' server s s' ha hstep hs hs' hbefore hafter
    exact answered_step f f' a hpolite ha hstep server s s' hs hs' hbefore hafter

/-- A client attaches, and a notification is forwarded to the new session. -/
def attachAndNotify : List FleetAction :=
  (acquireUntilSpawn 0).map .world ++
    [.spawn 0, .callInitialize 0 none none, .server 0 (.transport (.send 0)),
      .server 0 (.transport .writerTake), .server 0 (.transport .writerWrote),
      .server 0 (.transport (.emit (some 0) (.obj [("id", .str "lspee-initialize")]))),
      .server 0 (.transport .read), .server 0 (.transport (.recv 0)), .bootstrap 0 1,
      .bootReturns 0, .world (.sect 0), .world (.sect 0),
      .request 7 .notify "lease_1" (.obj [("method", .str "textDocument/didOpen")]) 2,
      .world (.sect 2), .world (.sect 2), .notify 7 2]

theorem attachAndNotify_isSome : (run step (init 0) attachAndNotify).isSome = true := by decide

theorem handshake_first_attachAndNotify :
    HandshakeFirst ((run step (init 0) attachAndNotify).get attachAndNotify_isSome) := by
  refine handshake_first 0 attachAndNotify _ (Option.some_get _).symm ?_
  simp [attachAndNotify, FleetAction.NoHandshake, acquireUntilSpawn]
  decide

end Fleet

end Lspee
