import Lspee.Theory.Handshake

/-!
# Requests and Servers

Where a request of a connection is: with the registry until it has found its
session, then with the server of the runtime it found, and back. The registry
and the servers know it under the same name. What the registry knows of the
requests is `Tracked`: a request goes to one runtime, and only the last request
of a connection can be under way. `Linked` says how a server fits in. It has a
call or a message under the name of a request only after the registry has routed
the request to it, and as long as the call has not queued its message the
registry waits for it.

## Main definitions

* `Tracked`: What the registry knows of the requests.
* `Fleet.wentTo`: The registry has routed a request to a server.
* `Fleet.Linked`: What a server knows of them.
* `Fleet.Coherent`: Both, with what they rest on.

## Theorems

* `tracked_world`, `tracked_request`: What the registry keeps.
* `linked_world`, `linked_moves`: What a server keeps.
* `coherent_step`, `coherent_run`: Every run keeps it.
-/

namespace Lspee

open Transition

/-! ### What the registry knows -/

/-- A request goes to one runtime, when it has found its session, and the
    requests of a connection are handled one after the other. -/
structure Tracked (history : Nat → List ControlRequest) (w : World) : Prop where
  started : ∀ c, w.calls.get? c = none → routedTo c w.log = []
  bound : ∀ c, ∀ runtime ∈ routedTo c w.log, runtime < w.nextRuntime
  begun : ∀ n, ∀ request ∈ history n, ∃ kind id pc,
    w.calls.get? request.call = some (.forward kind id request.message pc)
  before : ∀ n, ∀ request ∈ history n, ∀ kind id message pc,
    w.calls.get? request.call = some (.forward kind id message pc) →
      (pc = .lease ∨ ∃ key, pc = .session key) → routedTo request.call w.log = []
  after : ∀ n, ∀ request ∈ history n, ∀ kind id message key runtime,
    w.calls.get? request.call = some (.forward kind id message (.awaiting key runtime)) →
      routedTo request.call w.log = [runtime]
  ordered : ∀ n, ∀ request ∈ (history n).dropLast, ∀ frame,
    w.calls.get? request.call = some frame → frame.inFlight = false
  apart : ∀ n m, ∀ request ∈ history n, ∀ request' ∈ history m, request.call = request'.call →
    n = m

theorem tracked_init (idleTtl : Duration) : Tracked (fun _ => []) (World.init idleTtl) where
  started := fun _ _ => rfl
  bound := fun c runtime hmem => by simp [World.init, routedTo] at hmem
  begun := by simp
  before := by simp
  after := by simp
  ordered := by simp
  apart := by simp

/-- The registry goes on. -/
theorem tracked_world (history : Nat → List ControlRequest) (w w' : World) (b : Action)
    (h : Tracked history w) (hfresh : Fresh w) (hstep : w.step b = some w') :
    Tracked history w' where
  started := by
    intro c hnone
    rcases calls_stay w w' b hstep c hnone with ⟨hold, hmover⟩
    rw [routedTo_other w w' b hstep c hmover]
    exact h.started c hold
  bound := routed_bound w w' b hstep hfresh h.bound
  begun := by
    intro n request hmem
    rcases h.begun n request hmem with ⟨kind, id, pc, hget⟩
    rcases routed_step w w' b hstep _ kind id _ pc hget with ⟨hsame, _⟩ | ⟨events, pc', hnew, _, _⟩
    · exact ⟨kind, id, pc, hsame⟩
    · exact ⟨kind, id, pc', hnew⟩
  before := by
    intro n request hmem kind' id' message' pc₁ hget' hpc
    rcases h.begun n request hmem with ⟨kind, id, pc, hget⟩
    rcases routed_step w w' b hstep _ kind id _ pc hget with
      ⟨hsame, hrouted⟩ | ⟨events, pc', hnew, hadvances, hrouted⟩
    · rw [hsame, Option.some.injEq, Frame.forward.injEq] at hget'
      rw [hrouted]
      exact h.before n request hmem kind id _ pc hget (by rw [hget'.2.2.2]; exact hpc)
    · rw [hnew, Option.some.injEq, Frame.forward.injEq] at hget'
      rw [← hget'.2.2.2] at hpc
      cases hadvances with
      | leased key =>
          rw [hrouted]
          exact h.before n request hmem kind id _ _ hget (Or.inl rfl)
      | _ => exact absurd hpc (by simp)
  after := by
    intro n request hmem kind' id' message' key₁ runtime₁ hget'
    rcases h.begun n request hmem with ⟨kind, id, pc, hget⟩
    rcases routed_step w w' b hstep _ kind id _ pc hget with
      ⟨hsame, hrouted⟩ | ⟨events, pc', hnew, hadvances, hrouted⟩
    · rw [hsame, Option.some.injEq, Frame.forward.injEq] at hget'
      rw [hrouted]
      rw [hget'.2.2.2] at hget
      exact h.after n request hmem kind id _ key₁ runtime₁ hget
    · rw [hnew, Option.some.injEq, Frame.forward.injEq] at hget'
      cases hadvances with
      | found key runtime =>
          have hbefore := h.before n request hmem kind id _ _ hget (Or.inr ⟨key, rfl⟩)
          have heq := hget'.2.2.2
          rw [ForwardPc.awaiting.injEq] at heq
          -- The request has found its runtime in this step, and no other before.
          rw [hrouted, hbefore, ← heq.2]
          simp [routedTo]
      | _ => exact absurd hget'.2.2.2 (by simp)
  ordered := by
    intro n request hmem frame hget'
    rcases h.begun n request (List.mem_of_mem_dropLast hmem) with ⟨kind, id, pc, hget⟩
    have hreturned := h.ordered n request hmem _ hget
    rcases routed_step w w' b hstep _ kind id _ pc hget with
      ⟨hsame, _⟩ | ⟨events, pc', hnew, hadvances, _⟩
    · rw [hsame, Option.some.injEq] at hget'
      rw [← hget']
      exact hreturned
    -- An earlier request has returned, and does not advance.
    · cases hadvances <;> exact absurd hreturned (by simp [Frame.inFlight])
  apart := h.apart

/-- A connection sends its next request when the one before has returned. -/
theorem tracked_request (history : Nat → List ControlRequest) (w w' : World) (n : Nat)
    (kind : ForwardKind) (leaseId : String) (message : Json) (call : CallId)
    (h : Tracked history w) (hfresh : Fresh w)
    (hidle : ∀ request ∈ history n, ∀ frame, w.calls.get? request.call = some frame →
      frame.inFlight = false)
    (hstep : w.step (.start call (.forwardByLeaseId kind leaseId message)) = some w') :
    Tracked (fun m => if m = n then history n ++ [⟨call, message⟩] else history m) w' := by
  have hw := tracked_world history w w' _ h hfresh hstep
  rcases Fleet.start_eq_some w w' call _ hstep with ⟨hfree, hw'⟩
  have hnew : w'.calls.get? call = some (.forward kind leaseId message .lease) := by
    rw [hw']
    exact Table.get?_set_self _ _ _
  have hother : ∀ m, ∀ request ∈ history m, request.call ≠ call := by
    intro m request hmem hcall
    rcases h.begun m request hmem with ⟨_, _, _, hget⟩
    rw [hcall, hfree] at hget
    exact absurd hget (by simp)
  -- An old request, or the new one.
  have hcases : ∀ m request,
      request ∈ (if m = n then history n ++ [⟨call, message⟩] else history m) →
      request ∈ history m ∨ m = n ∧ request = ⟨call, message⟩ := by
    intro m request hmem
    by_cases hm : m = n
    · rw [if_pos hm] at hmem
      rcases List.mem_append.mp hmem with hmem | hmem
      · rw [hm]
        exact Or.inl hmem
      · exact Or.inr ⟨hm, List.mem_singleton.mp hmem⟩
    · rw [if_neg hm] at hmem
      exact Or.inl hmem
  refine ⟨hw.started, hw.bound, ?_, ?_, ?_, ?_, ?_⟩
  · intro m request hmem
    rcases hcases m request hmem with hmem | ⟨_, heq⟩
    · exact hw.begun m request hmem
    · rw [heq]
      exact ⟨kind, leaseId, .lease, hnew⟩
  · intro m request hmem kind' id' message' pc hget hpc
    rcases hcases m request hmem with hmem | ⟨_, heq⟩
    · exact hw.before m request hmem kind' id' message' pc hget hpc
    · rw [heq, routedTo_other w w' _ hstep call (by simp [Action.mover])]
      exact h.started call hfree
  · intro m request hmem kind' id' message' key runtime hget
    rcases hcases m request hmem with hmem | ⟨_, heq⟩
    · exact hw.after m request hmem kind' id' message' key runtime hget
    · rw [heq, hnew] at hget
      exact absurd hget (by simp)
  · intro m request hmem frame hget
    by_cases hm : m = n
    · rw [if_pos hm, List.dropLast_concat] at hmem
      have hold := hget
      rw [hw', Table.get?_set_ne _ _ _ _ (hother n request hmem)] at hold
      exact hidle request hmem frame hold
    · rw [if_neg hm] at hmem
      exact hw.ordered m request hmem frame hget
  · intro m m' request hmem request' hmem' hcall
    rcases hcases m request hmem with hmem | ⟨hm, heq⟩
    · rcases hcases m' request' hmem' with hmem' | ⟨_, heq'⟩
      · exact h.apart m m' request hmem request' hmem' hcall
      · rw [heq'] at hcall
        exact absurd hcall (hother m request hmem)
    · rcases hcases m' request' hmem' with hmem' | ⟨hm', _⟩
      · rw [heq] at hcall
        exact absurd hcall.symm (hother m' request' hmem')
      · rw [hm, hm']

/-! ### What the servers know -/

namespace Fleet

/-- The registry has routed the request to the server. -/
def wentTo (f : Fleet) (server call : CallId) : Bool :=
  (routedTo call f.world.log).any fun runtime => f.owners.get? runtime == some server

theorem wentTo_iff (f : Fleet) (server call : CallId) :
    f.wentTo server call = true ↔
      ∃ runtime ∈ routedTo call f.world.log, f.owners.get? runtime = some server := by
  simp only [wentTo, List.any_eq_true, beq_iff_eq]

/-- A server knows the requests that have gone to it, and the registry waits for
    those that are not queued. -/
structure Linked (f : Fleet) (server : CallId) (h : Sharing) : Prop where
  closure : ∃ key frame, f.world.calls.get? server = some frame ∧ frame.Acquires key
  calls : ∀ c call, h.transport.calls.get? c = some call →
    c = server ∨ ∃ n, h.requests.get? c = some (.control n)
  known : ∀ c n, h.requests.get? c = some (.control n) →
    f.sent n c = true ∧ f.wentTo server c = true
  sending : ∀ c request rx n, h.transport.calls.get? c = some ⟨request, .sending rx⟩ →
    h.requests.get? c = some (.control n) → ∃ id key runtime,
      f.world.calls.get? c = some (.forward .call id request (.awaiting key runtime)) ∧
      f.owners.get? runtime = some server

/-- The registry and the servers agree. -/
structure Coherent (f : Fleet) : Prop where
  fresh : Fresh f.world
  owned : Owned f
  tracked : Tracked f.history f.world
  linked : ∀ server s, f.servers.get? server = some s → Linked f server s.sharing

theorem coherent_init (idleTtl : Duration) : Coherent (init idleTtl) where
  fresh := fresh_init idleTtl
  owned := owned_init idleTtl
  tracked := by
    have hempty : (init idleTtl).history = fun _ => [] := by
      funext n
      simp [history, init]
    rw [hempty]
    exact tracked_init idleTtl
  linked := fun server s hs => by simp [init] at hs

theorem requested_of_coherent (f : Fleet) (h : Coherent f) : Requested f := h.tracked.begun

/-! #### Steps that leave the server alone -/

/-- The registry goes on, without an answer to what the server still has to
    queue. -/
theorem linked_world (f : Fleet) (w : World) (b : Action) (hw : f.world.step b = some w)
    (server : CallId) (h : Sharing) (hlinked : Linked f server h)
    (hb : ∀ c request rx n, h.transport.calls.get? c = some ⟨request, .sending rx⟩ →
      h.requests.get? c = some (.control n) → ∀ result, b ≠ .runtimeReturns c result) :
    Linked { f with world := w } server h where
  closure := by
    rcases hlinked.closure with ⟨key, frame, hget, hacquires⟩
    rcases acquires_step f.world w b hw server key frame hget hacquires with ⟨frame', hget', h'⟩
    exact ⟨key, frame', hget', h'⟩
  calls := hlinked.calls
  known := by
    intro c n hparty
    rcases hlinked.known c n hparty with ⟨hsent, hwent⟩
    rcases (wentTo_iff f server c).mp hwent with ⟨runtime, hmem, howner⟩
    rcases (mem_routedTo c _ runtime).mp hmem with ⟨id, message, hevent⟩
    rcases log_step f.world w b hw with ⟨events, hlog⟩
    refine ⟨hsent, (wentTo_iff _ server c).mpr ⟨runtime, ?_, howner⟩⟩
    refine (mem_routedTo c _ runtime).mpr ⟨id, message, ?_⟩
    rw [hlog]
    exact List.mem_append_right _ hevent
  sending := by
    intro c request rx n hcall hparty
    rcases hlinked.sending c request rx n hcall hparty with ⟨id, key, runtime, hget, howner⟩
    rcases routed_step f.world w b hw c _ id request _ hget with
      ⟨hsame, _⟩ | ⟨events, pc', _, hadvances, _⟩
    · exact ⟨id, key, runtime, hsame, howner⟩
    · -- only an answer moves a call that waits
      cases hadvances with
      | answered _ _ response => exact absurd rfl (hb c request rx n hcall hparty _)
      | failed _ _ error => exact absurd rfl (hb c request rx n hcall hparty _)

/-- Another runtime is named. -/
theorem linked_owner (f : Fleet) (htracked : Tracked f.history f.world) (runtime : RuntimeId)
    (hnew : f.world.nextRuntime ≤ runtime) (call server : CallId) (h : Sharing)
    (hlinked : Linked f server h) :
    Linked { f with owners := f.owners.set runtime call } server h where
  closure := hlinked.closure
  calls := hlinked.calls
  known := by
    intro c n hparty
    rcases hlinked.known c n hparty with ⟨hsent, hwent⟩
    rcases (wentTo_iff f server c).mp hwent with ⟨rt, hmem, howner⟩
    have hne : rt ≠ runtime :=
      Nat.ne_of_lt (Nat.lt_of_lt_of_le (htracked.bound c rt hmem) hnew)
    refine ⟨hsent, (wentTo_iff _ server c).mpr ⟨rt, hmem, ?_⟩⟩
    rw [← howner]
    exact Table.get?_set_ne _ _ _ _ hne
  sending := by
    intro c request rx n hcall hparty
    rcases hlinked.sending c request rx n hcall hparty with ⟨id, key, rt, hget, howner⟩
    rcases (sent_iff f n c).mp (hlinked.known c n hparty).1 with ⟨req, hmem, hreq⟩
    have hrouted := htracked.after n req hmem .call id request key rt (by rw [hreq, hget])
    have hne : rt ≠ runtime :=
      Nat.ne_of_lt (Nat.lt_of_lt_of_le (htracked.bound req.call rt (by rw [hrouted]; simp)) hnew)
    refine ⟨id, key, rt, hget, ?_⟩
    rw [← howner]
    exact Table.get?_set_ne _ _ _ _ hne

/-- A connection sends a request. -/
theorem linked_history (f : Fleet) (n : Nat) (request : ControlRequest) (server : CallId)
    (h : Sharing) (hlinked : Linked f server h) :
    Linked { f with connections := f.connections.set n (f.history n ++ [request]) } server h where
  closure := hlinked.closure
  calls := hlinked.calls
  known := by
    intro c m hparty
    rcases hlinked.known c m hparty with ⟨hsent, hwent⟩
    refine ⟨(sent_iff _ m c).mpr ?_, hwent⟩
    rcases (sent_iff f m c).mp hsent with ⟨req, hmem, hreq⟩
    refine ⟨req, ?_, hreq⟩
    rw [history_set f f.world n m request]
    by_cases hm : m = n
    · rw [if_pos hm, ← hm]
      exact List.mem_append_left _ hmem
    · rw [if_neg hm]
      exact hmem
  sending := hlinked.sending

/-! #### Steps of the server -/

/-- The calls and the requests are the same. -/
theorem linked_same (f : Fleet) (server : CallId) (h h' : Sharing) (hlinked : Linked f server h)
    (hcalls : h'.transport.calls = h.transport.calls) (hrequests : h'.requests = h.requests) :
    Linked f server h' where
  closure := hlinked.closure
  calls := by
    rw [hcalls, hrequests]
    exact hlinked.calls
  known := by
    rw [hrequests]
    exact hlinked.known
  sending := by
    rw [hcalls, hrequests]
    exact hlinked.sending

/-- A message is queued under a new name. -/
theorem linked_accept (f : Fleet) (server : CallId) (h : Sharing) (hlinked : Linked f server h)
    (c : CallId) (party : Party) (message : Json) (hfresh : h.fresh c = true)
    (hparty : ∀ n, party = .control n → f.sent n c = true ∧ f.wentTo server c = true) :
    Linked f server (h.accept c party message) where
  closure := hlinked.closure
  calls := by
    intro d call hcall
    have hd : d ≠ c := fun hd => by
      rw [← hd, Sharing.fresh_iff] at hfresh
      rw [Sharing.accept, hfresh.2] at hcall
      exact absurd hcall (by simp)
    rcases hlinked.calls d call hcall with hserver | ⟨n, hn⟩
    · exact Or.inl hserver
    · refine Or.inr ⟨n, ?_⟩
      rw [← hn]
      exact Table.get?_set_ne _ _ _ _ hd
  known := by
    intro d n hd
    rcases (Table.get?_set_eq_some _ _ _ _ _).mp hd with ⟨heq, hcontrol⟩ | ⟨_, hold⟩
    · rw [heq]
      exact hparty n hcontrol
    · exact hlinked.known d n hold
  sending := by
    intro d request rx n hcall hd
    rcases (Table.get?_set_eq_some _ _ _ _ _).mp hd with ⟨heq, _⟩ | ⟨_, hold⟩
    · rw [heq] at hcall
      have hnone := ((Sharing.fresh_iff h c).mp hfresh).2
      rw [Sharing.accept, hnone] at hcall
      exact absurd hcall (by simp)
    · exact hlinked.sending d request rx n hcall hold

/-- A call begins: the closure's, or one the registry waits for. -/
theorem linked_begin (f : Fleet) (server : CallId) (h h' : Sharing) (hlinked : Linked f server h)
    (client : Option Nat) (call : CallId) (request : Json)
    (hstep : h.step (.begin client call .session request) = some h')
    (hclient : client = none ∧ call = server ∨ ∃ n id key runtime, client = some n ∧
      f.sent n call = true ∧ f.wentTo server call = true ∧
      f.world.calls.get? call = some (.forward .call id request (.awaiting key runtime)) ∧
      f.owners.get? runtime = some server) : Linked f server h' := by
  rcases begin_eq_some h h' client call .session request hstep with
    ⟨hfresh, t, pc, _, hh', ht, _⟩
  have hget : ∀ c call₁, h'.transport.calls.get? c = some call₁ →
      c = call ∧ ⟨request, pc⟩ = call₁ ∨ c ≠ call ∧ h.transport.calls.get? c = some call₁ := by
    intro c call₁ hcall
    rw [hh', ht, Transport.setPc_calls] at hcall
    exact (Table.get?_set_eq_some _ _ _ _ _).mp hcall
  have hrequests : ∀ c party, h'.requests.get? c = some party →
      c = call ∧ Sharing.caller client = party ∨ c ≠ call ∧ h.requests.get? c = some party := by
    intro c party hparty
    rw [hh'] at hparty
    exact (Table.get?_set_eq_some _ _ _ _ _).mp hparty
  have hself : h'.requests.get? call = some (Sharing.caller client) := by
    rw [hh']
    exact Table.get?_set_self _ _ _
  refine ⟨hlinked.closure, ?_, ?_, ?_⟩
  · intro c call₁ hcall
    rcases hget c call₁ hcall with ⟨hc, _⟩ | ⟨hc, hold⟩
    · rw [hc]
      rcases hclient with ⟨_, hserver⟩ | ⟨n, _, _, _, hn, _⟩
      · exact Or.inl hserver
      · exact Or.inr ⟨n, by rw [hself, hn]; rfl⟩
    · rcases hlinked.calls c call₁ hold with hserver | ⟨n, hn⟩
      · exact Or.inl hserver
      · refine Or.inr ⟨n, ?_⟩
        rw [← hn, hh']
        exact Table.get?_set_ne _ _ _ _ hc
  · intro c n hparty
    rcases hrequests c _ hparty with ⟨hc, hcontrol⟩ | ⟨_, hold⟩
    · rw [hc]
      rcases hclient with ⟨hnone, _⟩ | ⟨n', _, _, _, hn, hsent, hwent, _⟩
      · rw [hnone] at hcontrol
        exact absurd hcontrol (by simp [Sharing.caller])
      · rw [hn, Sharing.caller, Party.control.injEq] at hcontrol
        rw [← hcontrol]
        exact ⟨hsent, hwent⟩
    · exact hlinked.known c n hold
  · intro c request₁ rx n hcall hparty
    rcases hget c _ hcall with ⟨hc, heq⟩ | ⟨hc, hold⟩
    · rw [Call.mk.injEq] at heq
      rcases hclient with ⟨hnone, _⟩ | ⟨n', id, key, runtime, hn, _, _, hframe, howner⟩
      · rw [hc, hself, hnone] at hparty
        exact absurd hparty (by simp [Sharing.caller])
      · rw [hc, ← heq.1]
        exact ⟨id, key, runtime, hframe, howner⟩
    · rcases hrequests c _ hparty with ⟨hc', _⟩ | ⟨_, hparty⟩
      · exact absurd hc' hc
      · exact hlinked.sending c request₁ rx n hold hparty

/-- The transport goes on. -/
theorem linked_transport (f : Fleet) (server : CallId) (h : Sharing)
    (hlinked : Linked f server h) (a : TransportAction) (t : Transport)
    (hstep : h.transport.step a = some t)
    (hbegin : ∀ c source request, a ≠ .begin c source request) :
    Linked f server { h with transport := t } := by
  have hold : ∀ c request pc', t.calls.get? c = some ⟨request, pc'⟩ →
      ∃ pc, h.transport.calls.get? c = some ⟨request, pc⟩ ∧
        (pc = pc' ∨ ∀ rx, pc' ≠ .sending rx) := by
    intro c request pc' hcall'
    cases hcall : h.transport.calls.get? c with
    | none =>
        rw [Transport.call_begun h.transport t a hstep c hcall (hbegin c)] at hcall'
        exact absurd hcall' (by simp)
    | some call =>
        rcases call with ⟨request₀, pc⟩
        rcases Transport.call_step h.transport t a hstep c request₀ pc hcall with
          ⟨_, hsame⟩ | ⟨pc₁, hnew, hadvances⟩
        · rw [hsame, Option.some.injEq, Call.mk.injEq] at hcall'
          exact ⟨pc, by rw [hcall'.1], Or.inl hcall'.2⟩
        · rw [hnew, Option.some.injEq, Call.mk.injEq] at hcall'
          refine ⟨pc, by rw [hcall'.1], Or.inr fun rx heq => ?_⟩
          rw [hcall'.2, heq] at hadvances
          cases hadvances
  refine ⟨hlinked.closure, ?_, hlinked.known, ?_⟩
  · rintro c ⟨request, pc'⟩ hcall'
    rcases hold c request pc' hcall' with ⟨pc, hcall, _⟩
    exact hlinked.calls c _ hcall
  · intro c request rx n hcall' hparty
    rcases hold c request _ hcall' with ⟨pc, hcall, hpc | hne⟩
    · rw [hpc] at hcall
      exact hlinked.sending c request rx n hcall hparty
    · exact absurd rfl (hne rx)

/-- A call the registry waits for at a server has gone to it. -/
theorem wentTo_of_awaiting (f : Fleet) (htracked : Tracked f.history f.world) (n : Nat)
    (call : CallId) (hsent : f.sent n call = true) (kind : ForwardKind) (id : String)
    (message : Json) (key : SessionKey) (runtime : RuntimeId) (server : CallId)
    (hframe : f.world.calls.get? call = some (.forward kind id message (.awaiting key runtime)))
    (howner : f.owners.get? runtime = some server) : f.wentTo server call = true := by
  rcases (sent_iff f n call).mp hsent with ⟨request, hmem, hcall⟩
  have hrouted := htracked.after n request hmem kind id message key runtime
    (by rw [hcall, hframe])
  rw [hcall] at hrouted
  exact (wentTo_iff f server call).mpr ⟨runtime, by rw [hrouted]; simp, howner⟩

theorem linked_moves (f : Fleet) (htracked : Tracked f.history f.world) (server : CallId)
    (s s' : Server) (a : FleetAction) (hmoves : f.Moves server s a s')
    (h : Linked f server s.sharing) : Linked f server s'.sharing := by
  cases hmoves with
  | callInitialize rootUri options h' hboot hh =>
      exact linked_begin f server s.sharing h' h none server _ hh (Or.inl ⟨rfl, rfl⟩)
  | bootstrapped c request response hboot hcall hfresh =>
      exact linked_accept f server s.sharing h c .daemon _ hfresh (by simp)
  | bootstrapFails c error hboot hcall => exact h
  | call n call id message key runtime h' hframe howner hsent hh =>
      have hwent := wentTo_of_awaiting f htracked n call hsent .call id message key runtime server
        hframe howner
      exact linked_begin f server s.sharing h' h (some n) call message hh
        (Or.inr ⟨n, id, key, runtime, rfl, hsent, hwent, hframe, howner⟩)
  | connect attach n lease handle h₁ h₂ hframe howner hh hh' =>
      rcases connect_keeps s.sharing h₁ h₂ n lease.id hh hh' with ⟨hrequests, htransport, _, _⟩
      exact linked_same f server s.sharing h₂ h (by rw [htransport]) hrequests
  | daemonSends c message h' howned hmessage hh =>
      rcases Sharing.send_cases s.sharing h' none c .session message hh with ⟨hfresh, heq | heq⟩
      · exact linked_same f server s.sharing h' h (by rw [heq]) (by rw [heq])
      · have haccept := linked_accept f server s.sharing h c .daemon message hfresh (by simp)
        exact linked_same f server _ h' haccept (by rw [heq]; rfl) (by rw [heq]; rfl)
  | act b h' hmay hh =>
      have hact : Linked f server h' := by
        cases act_cases s h' b hmay hh with
        | transport b t ht hbegin hforward =>
            exact linked_transport f server s.sharing h b t ht hbegin
        | readOver n frame c u hu hother => exact h
        | failed n frame c u hu hreading hwriter => exact linked_same f server _ _ h rfl rfl
        | accepted n frame c u hu hlease htype hfresh =>
            exact linked_accept f server s.sharing h c _ _ hfresh (by simp)
        | moved _ n u u' ha hframe hu hmoved => exact linked_same f server _ _ h rfl rfl
      exact hact

/-! ### Runs -/

/-- What a server knows does not depend on the others. -/
theorem linked_servers (f : Fleet) (servers : Table CallId Server) (server : CallId) (h : Sharing)
    (hlinked : Linked f server h) : Linked { f with servers := servers } server h where
  closure := hlinked.closure
  calls := hlinked.calls
  known := hlinked.known
  sending := hlinked.sending

/-- A notification is no call that a server still has to queue. -/
theorem notify_not_sending (f : Fleet) (server : CallId) (h : Sharing)
    (hlinked : Linked f server h) (call : CallId) (id : String) (message : Json) (pc : ForwardPc)
    (hframe : f.world.calls.get? call = some (.forward .notify id message pc))
    (result : Except String Json) (c : CallId) (request : Json) (rx : Broadcast.Receiver) (n : Nat)
    (hcall : h.transport.calls.get? c = some ⟨request, .sending rx⟩)
    (hparty : h.requests.get? c = some (.control n)) (result' : Except String Json) :
    Action.runtimeReturns call result ≠ .runtimeReturns c result' := by
  intro heq
  rcases hlinked.sending c request rx n hcall hparty with ⟨_, _, _, hget, _⟩
  rw [Action.runtimeReturns.injEq] at heq
  rw [← heq.1, hframe, Option.some.injEq, Frame.forward.injEq] at hget
  exact absurd hget.1 (by simp)

theorem tracked_step (f f' : Fleet) (a : FleetAction) (h : Coherent f)
    (hstep : f.step a = some f') : Tracked f'.history f'.world := by
  have hworld : ∀ w b, f.world.step b = some w → Tracked f.history w :=
    fun w b hw => tracked_world f.history f.world w b h.tracked h.fresh hw
  cases step_effect f f' a hstep with
  | world b w hb hw => exact hworld w b hw
  | spawn call key clientKind g hframe hfree => exact h.tracked
  | spawnFails call error w hfree hw => exact hworld w _ hw
  | server a srv s s' hs hmoves => exact h.tracked
  | booted call s result w hs hboot hw => exact hworld w _ hw
  | bootFailed call s error w hs hboot hw => exact hworld w _ hw
  | request n kind leaseId message call w hidle hw =>
      have hhistory := funext fun m => history_set f w n m ⟨call, message⟩
      rw [hhistory]
      refine tracked_request f.history f.world w n kind leaseId message call h.tracked h.fresh ?_ hw
      intro request hmem frame hget
      have hreturned := List.all_eq_true.mp hidle request hmem
      simpa [hget] using hreturned
  | returned call id message key runtime server s request result w _ _ _ _ hw => exact hworld w _ hw
  | notifyFails n call id message key runtime server s w _ _ _ _ _ hw => exact hworld w _ hw
  | notified n call id message key runtime server s w _ _ _ _ _ hw => exact hworld w _ hw

theorem linked_step (f f' : Fleet) (a : FleetAction) (h : Coherent f) (hstep : f.step a = some f')
    (server : CallId) (s : Server) (hs : f'.servers.get? server = some s) :
    Linked f' server s.sharing := by
  cases step_effect f f' a hstep with
  | world b w hb hw =>
      refine linked_world f w b hw server _ (h.linked server s hs) fun c _ _ _ _ _ result heq => ?_
      rw [heq] at hb
      exact absurd hb (by simp [Action.ofRegistry])
  | spawn call key clientKind g hframe hfree =>
      rcases (Table.get?_set_eq_some _ _ _ _ _).mp hs with ⟨hserver, heq⟩ | ⟨_, hold⟩
      · rw [← heq, hserver]
        exact ⟨⟨key, _, hframe, rfl⟩, by simp [Server.spawn, Sharing.init, Transport.spawn],
          by simp [Server.spawn, Sharing.init], by simp [Server.spawn, Sharing.init]⟩
      · exact linked_servers f _ server _ (h.linked server s hold)
  | spawnFails call error w hfree hw =>
      exact linked_world f w _ hw server _ (h.linked server s hs) (by simp)
  | server a srv s₀ s' hs₀ hmoves =>
      rcases (Table.get?_set_eq_some _ _ _ _ _).mp hs with ⟨hserver, heq⟩ | ⟨_, hold⟩
      · rw [← heq, hserver]
        exact linked_servers f _ srv _
          (linked_moves f h.tracked srv s₀ s' _ hmoves (h.linked srv s₀ hs₀))
      · exact linked_servers f _ server _ (h.linked server s hold)
  | booted call s₀ result w hs₀ hboot hw =>
      -- The runtime is named before it is counted.
      have hnamed := linked_owner f h.tracked f.world.nextRuntime (Nat.le_refl _) call server _
        (h.linked server s hs)
      exact linked_world { f with owners := f.owners.set f.world.nextRuntime call } w _ hw server _
        hnamed (by simp)
  | bootFailed call s₀ error w hs₀ hboot hw =>
      exact linked_world f w _ hw server _ (h.linked server s hs) (by simp)
  | request n kind leaseId message call w hidle hw =>
      have hw' := linked_world f w _ hw server _ (h.linked server s hs) (by simp)
      exact linked_history { f with world := w } n ⟨call, message⟩ server _ hw'
  | returned call id message key runtime srv s₀ request result w hframe howner hs₀ hcall hw =>
      refine linked_world f w _ hw server _ (h.linked server s hs) ?_
      intro c request' rx n hsending hparty result' heq
      rw [Action.runtimeReturns.injEq] at heq
      -- The server of the call is the one that has returned it.
      rcases (h.linked server s hs).sending c request' rx n hsending hparty with
        ⟨_, _, runtime', hget, howner'⟩
      rw [← heq.1, hframe, Option.some.injEq, Frame.forward.injEq, ForwardPc.awaiting.injEq] at hget
      rw [← hget.2.2.2.2, howner, Option.some.injEq] at howner'
      rw [howner', hs, Option.some.injEq] at hs₀
      rw [← heq.1, hs₀, hcall, Option.some.injEq, Call.mk.injEq] at hsending
      exact absurd hsending.2 (by simp)
  | notifyFails n call id message key runtime srv s₀ w hframe howner hs₀ hsent hwriter hw =>
      exact linked_world f w _ hw server _ (h.linked server s hs)
        (notify_not_sending f server _ (h.linked server s hs) call id message _ hframe _)
  | notified n call id message key runtime srv s₀ w hframe howner hs₀ hsent hfresh hw =>
      rcases (Table.get?_set_eq_some _ _ _ _ _).mp hs with ⟨hserver, heq⟩ | ⟨_, hold⟩
      · rw [← heq, hserver]
        have hwent := wentTo_of_awaiting f h.tracked n call hsent .notify id message key runtime srv
          hframe howner
        have haccept := linked_accept f srv _ (h.linked srv s₀ hs₀) call (.control n) message hfresh
          fun m hm => by
            rw [← Party.control.inj hm]
            exact ⟨hsent, hwent⟩
        exact linked_servers { f with world := w } _ srv _ (linked_world f w _ hw srv _ haccept
          (notify_not_sending f srv _ haccept call id message _ hframe _))
      · exact linked_servers { f with world := w } _ server _
          (linked_world f w _ hw server _ (h.linked server s hold)
            (notify_not_sending f server _ (h.linked server s hold) call id message _ hframe _))

theorem coherent_step (f f' : Fleet) (a : FleetAction) (h : Coherent f)
    (hstep : f.step a = some f') : Coherent f' where
  fresh := world_invariant (fun w b w' hw hstep => fresh_step w w' b hw hstep) f f' a h.fresh hstep
  owned := owned_step f f' a h.owned hstep
  tracked := tracked_step f f' a h hstep
  linked := linked_step f f' a h hstep

theorem coherent_run (idleTtl : Duration) (as : List FleetAction) (f : Fleet)
    (h : run step (init idleTtl) as = some f) : Coherent f :=
  run_invariant (fun f a f' hf hstep _ => coherent_step f f' a hf hstep) as (init idleTtl) f h
    (coherent_init idleTtl) (along_true as (init idleTtl))

end Fleet

end Lspee
