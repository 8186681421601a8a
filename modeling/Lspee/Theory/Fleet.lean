import Lspee.Core.Fleet
import Lspee.Theory.Queueing
import Lspee.Theory.Requests

/-!
# What a Step of the Fleet Does

A step belongs to the registry, to one server, or to both: a closure that
returns, a call that returns, a notification that is sent. `Effect` lists them
with what the step found, and `Moves` lists what becomes of a server. Everything
proved about the fleet is a case analysis over these two.

Each step is at most one step of the registry (`world_step`), and leaves all
servers but one as they are (`servers_step`). A server becomes a runtime by the
return of its closure, and stays one (`Owned`).

## Main definitions

* `Moves`: What a step does to a server.
* `Effect`: What a step does.
* `Notifies`: What a notification does to its server.
* `Acts`: What the users of a server do by themselves.
* `Owned`: Runtimes are servers whose closure has returned with a result.
* `Requested`: What the connections have sent is with the registry.

## Theorems

* `step_effect`: Every step is one of these.
* `server_step`: Where a server comes from.
* `act_cases`: The steps of a server's users.
* `world_step`, `world_invariant`: The registry under a step of the fleet.
* `finished_moves`: A closure that has finished stays so.
* `owned_init`, `owned_step`, `owned_run`: Every run keeps `Owned`.
* `requested_init`, `requested_step`: And `Requested`.
-/

namespace Lspee

open Transition

namespace Fleet

/-- What a step does to the server that was spawned by the call `server`. -/
inductive Moves (f : Fleet) (server : CallId) (s : Server) : FleetAction → Server → Prop where
  | callInitialize (rootUri : Option String) (options : Option Json) (h : Sharing)
      (hboot : s.boot = .spawned)
      (hh : s.sharing.step (.begin none server .session (initializeRequest rootUri options))
        = some h) :
      Moves f server s (.callInitialize server rootUri options)
        { s.after h with boot := .initializing }
  | bootstrapped (c : CallId) (request : Json) (response : Tagged LspMessage)
      (hboot : s.boot = .initializing)
      (hcall : s.sharing.transport.calls.get? server = some ⟨request, .returned (.ok response)⟩)
      (hfresh : s.sharing.fresh c = true) :
      Moves f server s (.bootstrap server c)
        { s.after (s.sharing.accept c .daemon initializedNotification) with
          boot := .finished (.ok response.content.payload) }
  | bootstrapFails (c : CallId) (error : String) (hboot : s.boot = .initializing)
      (hcall : ∃ call, s.sharing.transport.calls.get? server = some call ∧
        ∀ rx, call.pc ≠ .sending rx) :
      Moves f server s (.bootstrap server c) { s with boot := .finished (.error error) }
  | call (n : Nat) (call : CallId) (id : String) (message : Json) (key : SessionKey)
      (runtime : RuntimeId) (h : Sharing)
      (hframe : f.world.calls.get? call = some (.forward .call id message (.awaiting key runtime)))
      (howner : f.owners.get? runtime = some server) (hsent : f.sent n call = true)
      (hh : s.sharing.step (.begin (some n) call .session message) = some h) :
      Moves f server s (.call n call) (s.after h)
  | connect (attach : CallId) (n : Nat) (lease : Lease) (handle : SessionHandle) (h h' : Sharing)
      (hframe : f.world.calls.get? attach = some (.attached lease (some handle)))
      (howner : f.owners.get? handle.runtime = some server)
      (hh : s.sharing.step (.transport (.clone .session n)) = some h)
      (hh' : h.step (.connect n lease.id) = some h') :
      Moves f server s (.connect attach n) (s.after h')
  | daemonSends (c : CallId) (message : Json) (h : Sharing) (howned : f.owned server = true)
      (hmessage : message = shutdownMessage ∨ message = exitMessage)
      (hh : s.sharing.step (.send none c .session message) = some h) :
      Moves f server s (.daemonSends server c message) (s.after h)
  | act (a : SharingAction) (h : Sharing) (hmay : s.mayMove a = true)
      (hh : s.sharing.step a = some h) :
      Moves f server s (.server server a) { s.after h with
        frames := Server.noteFrame s.frames a
        writerFailed := s.writerFailed || Server.isWriterFailed a }

inductive Effect (f : Fleet) : FleetAction → Fleet → Prop where
  | world (a : Action) (w : World) (ha : a.ofRegistry = true) (hw : f.world.step a = some w) :
      Effect f (.world a) { f with world := w }
  | spawn (call : CallId) (key : SessionKey) (clientKind : Option ClientKind) (g : GateId)
      (hframe : f.world.calls.get? call = some (.acquire key clientKind (.spawning g)))
      (hfree : f.servers.get? call = none) : Effect f (.spawn call) (f.setServer call .spawn)
  | spawnFails (call : CallId) (error : String) (w : World) (hfree : f.servers.get? call = none)
      (hw : f.world.step (.spawnReturns call (.error error)) = some w) :
      Effect f (.spawnFails call error) { f with world := w }
  | server (a : FleetAction) (server : CallId) (s s' : Server)
      (hs : f.servers.get? server = some s) (hmoves : f.Moves server s a s') :
      Effect f a (f.setServer server s')
  | booted (call : CallId) (s : Server) (result : Json) (w : World)
      (hs : f.servers.get? call = some s) (hboot : s.boot = .finished (.ok result))
      (hw : f.world.step (.spawnReturns call (.ok result)) = some w) :
      Effect f (.bootReturns call)
        { f with world := w, owners := f.owners.set f.world.nextRuntime call }
  | bootFailed (call : CallId) (s : Server) (error : String) (w : World)
      (hs : f.servers.get? call = some s) (hboot : s.boot = .finished (.error error))
      (hw : f.world.step (.spawnReturns call (.error error)) = some w) :
      Effect f (.bootReturns call) { f with world := w }
  | request (n : Nat) (kind : ForwardKind) (leaseId : String) (message : Json) (call : CallId)
      (w : World) (hidle : f.idle n = true)
      (hw : f.world.step (.start call (.forwardByLeaseId kind leaseId message)) = some w) :
      Effect f (.request n kind leaseId message call) { f with
        world := w
        connections := f.connections.set n (f.history n ++ [⟨call, message⟩]) }
  | returned (call : CallId) (id : String) (message : Json) (key : SessionKey)
      (runtime : RuntimeId) (server : CallId) (s : Server) (request : Json)
      (result : Except String (Tagged LspMessage)) (w : World)
      (hframe : f.world.calls.get? call = some (.forward .call id message (.awaiting key runtime)))
      (howner : f.owners.get? runtime = some server) (hs : f.servers.get? server = some s)
      (hcall : s.sharing.transport.calls.get? call = some ⟨request, .returned result⟩)
      (hw : f.world.step
        (.runtimeReturns call (result.map fun response => response.content.payload)) = some w) :
      Effect f (.returned call) { f with world := w }
  | notifyFails (n : Nat) (call : CallId) (id : String) (message : Json) (key : SessionKey)
      (runtime : RuntimeId) (server : CallId) (s : Server) (w : World)
      (hframe : f.world.calls.get? call =
        some (.forward .notify id message (.awaiting key runtime)))
      (howner : f.owners.get? runtime = some server) (hs : f.servers.get? server = some s)
      (hsent : f.sent n call = true) (hwriter : s.sharing.transport.writer = .stopped)
      (hw : f.world.step
        (.runtimeReturns call (.error "failed to queue inbound lsp message")) = some w) :
      Effect f (.notify n call) { f with world := w }
  | notified (n : Nat) (call : CallId) (id : String) (message : Json) (key : SessionKey)
      (runtime : RuntimeId) (server : CallId) (s : Server) (w : World)
      (hframe : f.world.calls.get? call =
        some (.forward .notify id message (.awaiting key runtime)))
      (howner : f.owners.get? runtime = some server) (hs : f.servers.get? server = some s)
      (hsent : f.sent n call = true) (hfresh : s.sharing.fresh call = true)
      (hw : f.world.step (.runtimeReturns call (.ok .null)) = some w) :
      Effect f (.notify n call) { f with
        world := w
        servers := f.servers.set server
          (s.after (s.sharing.accept call (.control n) message)) }

theorem withWorld_eq_some (f f' : Fleet) (a : Action) (h : f.withWorld a = some f') :
    ∃ w, f.world.step a = some w ∧ f' = { f with world := w } := by
  rcases Option.map_eq_some_iff.mp h with ⟨w, hw, hf'⟩
  exact ⟨w, hw, hf'.symm⟩

theorem onServer_eq_some (f f' : Fleet) (server : CallId) (g : Server → Option Server)
    (h : f.onServer server g = some f') :
    ∃ s s', f.servers.get? server = some s ∧ g s = some s' ∧ f' = f.setServer server s' := by
  unfold onServer at h
  cases hs : f.servers.get? server with
  | none => simp only [hs, reduceCtorEq] at h
  | some s =>
      simp only [hs, Option.map_eq_some_iff] at h
      rcases h with ⟨s', hg, hf'⟩
      exact ⟨s, s', rfl, hg, hf'.symm⟩

theorem onRuntime_eq_some (f f' : Fleet) (runtime : RuntimeId) (g : Server → Option Server)
    (h : f.onRuntime runtime g = some f') :
    ∃ server s s', f.owners.get? runtime = some server ∧ f.servers.get? server = some s ∧
      g s = some s' ∧ f' = f.setServer server s' := by
  unfold onRuntime at h
  cases howner : f.owners.get? runtime with
  | none => simp only [howner, reduceCtorEq] at h
  | some server =>
      simp only [howner] at h
      rcases onServer_eq_some f f' server g h with ⟨s, s', hs, hg, hf'⟩
      exact ⟨server, s, s', rfl, hs, hg, hf'⟩

theorem serverOf_eq_some (f : Fleet) (runtime : RuntimeId) (s : Server)
    (h : f.serverOf runtime = some s) :
    ∃ server, f.owners.get? runtime = some server ∧ f.servers.get? server = some s := by
  unfold serverOf at h
  exact Option.bind_eq_some_iff.mp h

/-- The end of `bootstrap_lsp_session`. -/
theorem bootstrap_moves (f : Fleet) (call c : CallId) (s s' : Server)
    (h : s.bootstrap call c = some s') : f.Moves call s (.bootstrap call c) s' := by
  unfold Server.bootstrap at h
  split at h
  · rename_i request response hboot hcall
    rw [Option.ite_none_right_eq_some] at h
    rcases h with ⟨hfresh, h⟩
    cases hqueue : s.sharing.queue c .daemon initializedNotification with
    | none => simp only [hqueue, reduceCtorEq] at h
    | some result =>
        rcases Sharing.queue_eq s.sharing c _ _ result hqueue with ⟨_, hresult⟩ | ⟨_, hresult⟩
        · simp only [hqueue, hresult, Option.some.injEq] at h
          rw [← h]
          exact .bootstrapFails c _ hboot ⟨_, hcall, by simp⟩
        · simp only [hqueue, hresult, Option.some.injEq] at h
          rw [← h]
          exact .bootstrapped c request response hboot hcall hfresh
  · rename_i request error hboot hcall
    rw [← Option.some.inj h]
    exact .bootstrapFails c error hboot ⟨_, hcall, by simp⟩
  · exact absurd h (by simp)

/-- A notification that is sent. -/
theorem send_effect (f f' : Fleet) (n : Nat) (call : CallId) (id : String) (message : Json)
    (key : SessionKey) (runtime : RuntimeId) (server : CallId) (s : Server)
    (hframe : f.world.calls.get? call =
      some (.forward .notify id message (.awaiting key runtime)))
    (howner : f.owners.get? runtime = some server) (hs : f.servers.get? server = some s)
    (hsent : f.sent n call = true) (h : f.send n call message server s = some f') :
    f.Effect (.notify n call) f' := by
  unfold send at h
  rw [Option.ite_none_right_eq_some] at h
  rcases h with ⟨⟨_, hfresh⟩, h⟩
  cases hqueue : s.sharing.queue call (.control n) message with
  | none => simp only [hqueue, reduceCtorEq] at h
  | some result =>
      rcases Sharing.queue_eq s.sharing call _ _ result hqueue with
        ⟨hwriter, hresult⟩ | ⟨_, hresult⟩
      · simp only [hqueue, hresult] at h
        rcases withWorld_eq_some f f' _ h with ⟨w, hw, hf'⟩
        rw [hf']
        exact .notifyFails n call id message key runtime server s w hframe howner hs hsent hwriter
          hw
      · simp only [hqueue, hresult] at h
        rcases withWorld_eq_some _ f' _ h with ⟨w, hw, hf'⟩
        rw [hf']
        exact .notified n call id message key runtime server s w hframe howner hs hsent hfresh hw

theorem step_effect (f f' : Fleet) (a : FleetAction) (hstep : f.step a = some f') :
    f.Effect a f' := by
  cases a with
  | world a =>
      simp only [step, Option.ite_none_right_eq_some] at hstep
      rcases withWorld_eq_some f f' a hstep.2 with ⟨w, hw, hf'⟩
      rw [hf']
      exact .world a w hstep.1 hw
  | spawn call =>
      simp only [step] at hstep
      split at hstep
      · rename_i key clientKind g hframe hfree
        rw [← Option.some.inj hstep]
        exact .spawn call key clientKind g hframe hfree
      · exact absurd hstep (by simp)
  -- The closure fails before it has a process: no server to look at.
  | spawnFails call error =>
      simp only [step] at hstep
      split at hstep
      · rename_i hfree
        rcases withWorld_eq_some f f' _ hstep with ⟨w, hw, hf'⟩
        rw [hf']
        exact .spawnFails call error w hfree hw
      · exact absurd hstep (by simp)
  | callInitialize call rootUri options =>
      rcases onServer_eq_some f f' call _ hstep with ⟨s, s', hs, hg, hf'⟩
      rw [hf']
      refine .server _ call s s' hs ?_
      unfold Server.callInitialize at hg
      -- The call of `initialize` is made once, by a closure that has just spawned.
      cases hboot : s.boot with
      | spawned =>
          simp only [hboot, Option.map_eq_some_iff] at hg
          rcases hg with ⟨h, hh, hs'⟩
          rw [← hs']
          exact .callInitialize rootUri options h hboot hh
      | initializing => simp only [hboot, reduceCtorEq] at hg
      | finished result => simp only [hboot, reduceCtorEq] at hg
  | bootstrap call c =>
      rcases onServer_eq_some f f' call _ hstep with ⟨s, s', hs, hg, hf'⟩
      rw [hf']
      exact .server _ call s s' hs (bootstrap_moves f call c s s' hg)
  | bootReturns call =>
      simp only [step] at hstep
      split at hstep
      · rename_i sharing result queued frames failed hs
        rcases Option.map_eq_some_iff.mp hstep with ⟨f₁, hf₁, hf'⟩
        rcases withWorld_eq_some f f₁ _ hf₁ with ⟨w, hw, hworld⟩
        cases result with
        | ok value =>
            simp only at hf'
            rw [← hf', hworld]
            exact .booted call _ value w hs rfl hw
        | error error =>
            simp only at hf'
            rw [← hf', hworld]
            exact .bootFailed call _ error w hs rfl hw
      · exact absurd hstep (by simp)
  | request n kind leaseId message call =>
      simp only [step, request, Option.ite_none_right_eq_some] at hstep
      rcases hstep with ⟨hidle, hstep⟩
      rcases Option.map_eq_some_iff.mp hstep with ⟨f₁, hf₁, hf'⟩
      rcases withWorld_eq_some f f₁ _ hf₁ with ⟨w, hw, hworld⟩
      rw [← hf', hworld]
      exact .request n kind leaseId message call w hidle hw
  -- The frame that awaits names the runtime, and `owners` the server behind it.
  | call n call =>
      simp only [step] at hstep
      split at hstep
      · rename_i id message key runtime hframe
        rw [Option.ite_none_right_eq_some] at hstep
        rcases hstep with ⟨hsent, hstep⟩
        rcases onRuntime_eq_some f f' runtime _ hstep with ⟨server, s, s', howner, hs, hg, hf'⟩
        rcases Option.map_eq_some_iff.mp hg with ⟨h, hh, hs'⟩
        rw [hf', ← hs']
        exact .server _ server s _ hs (.call n call id message key runtime h hframe howner hsent hh)
      · exact absurd hstep (by simp)
  | returned call =>
      simp only [step] at hstep
      split at hstep
      · rename_i id message key runtime hframe
        split at hstep
        · rename_i result hresult
          rcases Option.bind_eq_some_iff.mp hresult with ⟨s, hserver, hresult⟩
          rcases serverOf_eq_some f runtime s hserver with ⟨server, howner, hs⟩
          rcases withWorld_eq_some f f' _ hstep with ⟨w, hw, hf'⟩
          -- The runtime's call has returned, or there is no result to hand on.
          unfold resultOf at hresult
          split at hresult
          · rename_i request response hcall
            rw [hf']
            rw [← Option.some.inj hresult] at hw
            exact .returned call id message key runtime server s request response w hframe howner hs
              hcall hw
          · exact absurd hresult (by simp)
        · exact absurd hstep (by simp)
      · exact absurd hstep (by simp)
  | notify n call =>
      simp only [step] at hstep
      split at hstep
      · rename_i id message key runtime hframe
        split at hstep
        · rename_i server s howner hserver
          rw [Option.ite_none_right_eq_some] at hstep
          rcases serverOf_eq_some f runtime s hserver with ⟨server', howner', hs⟩
          -- `owners` and `serverOf` speak of the same server.
          rw [howner, Option.some.injEq] at howner'
          rw [← howner'] at hs
          exact send_effect f f' n call id message key runtime server s hframe howner hs hstep.1
            hstep.2
        · exact absurd hstep (by simp)
      · exact absurd hstep (by simp)
  | connect attach n =>
      simp only [step] at hstep
      split at hstep
      · rename_i lease handle hframe
        rcases onRuntime_eq_some f f' handle.runtime _ hstep with
          ⟨server, s, s', howner, hs, hg, hf'⟩
        -- Connecting is two steps of the sharing: a handle is cloned, and the tasks
        -- subscribe.
        unfold Server.connect at hg
        cases hh : s.sharing.step (.transport (.clone .session n)) with
        | none => simp only [hh, reduceCtorEq] at hg
        | some h =>
            simp only [hh] at hg
            rcases Option.map_eq_some_iff.mp hg with ⟨h', hh', hs'⟩
            rw [hf', ← hs']
            exact .server _ server s _ hs (.connect attach n lease handle h h' hframe howner hh hh')
      · exact absurd hstep (by simp)
  | daemonSends server c message =>
      simp only [step, Option.ite_none_right_eq_some] at hstep
      rcases hstep with ⟨⟨howned, hmessage⟩, hstep⟩
      rcases onServer_eq_some f f' server _ hstep with ⟨s, s', hs, hg, hf'⟩
      rcases Option.map_eq_some_iff.mp hg with ⟨h, hh, hs'⟩
      rw [hf', ← hs']
      exact .server _ server s _ hs (.daemonSends c message h howned hmessage hh)
  | server server a =>
      rcases onServer_eq_some f f' server _ hstep with ⟨s, s', hs, hg, hf'⟩
      unfold Server.act at hg
      rw [Option.ite_none_right_eq_some] at hg
      rcases hg with ⟨hmay, hg⟩
      rcases Option.map_eq_some_iff.mp hg with ⟨h, hh, hs'⟩
      rw [hf', ← hs']
      exact .server _ server s _ hs (.act a h hmay hh)

/-- A notification queues its message. -/
inductive Notifies (f : Fleet) (server : CallId) (s : Server) : FleetAction → Server → Prop where
  | notified (n : Nat) (call : CallId) (id : String) (message : Json) (key : SessionKey)
      (runtime : RuntimeId)
      (hframe : f.world.calls.get? call =
        some (.forward .notify id message (.awaiting key runtime)))
      (howner : f.owners.get? runtime = some server) (hsent : f.sent n call = true)
      (hfresh : s.sharing.fresh call = true) :
      Notifies f server s (.notify n call)
        (s.after (s.sharing.accept call (.control n) message))

/-- Where a server comes from: it is new, or as it was, or has moved. -/
theorem server_step (f f' : Fleet) (a : FleetAction) (hstep : f.step a = some f')
    (server : CallId) (s' : Server) (hs' : f'.servers.get? server = some s') :
    (f.servers.get? server = none ∧ s' = Server.spawn) ∨ f.servers.get? server = some s' ∨
      ∃ s, f.servers.get? server = some s ∧
        (f.Moves server s a s' ∨ f.Notifies server s a s') := by
  cases step_effect f f' a hstep with
  | spawn call key clientKind g hframe hfree =>
      rcases (Table.get?_set_eq_some _ _ _ _ _).mp hs' with ⟨hserver, heq⟩ | ⟨_, hold⟩
      · exact Or.inl ⟨by rw [hserver, hfree], heq.symm⟩
      · exact Or.inr (Or.inl hold)
  | server a srv s s₁ hs hmoves =>
      rcases (Table.get?_set_eq_some _ _ _ _ _).mp hs' with ⟨hserver, heq⟩ | ⟨_, hold⟩
      · rw [hserver, ← heq]
        exact Or.inr (Or.inr ⟨s, hs, Or.inl hmoves⟩)
      · exact Or.inr (Or.inl hold)
  | notified n call id message key runtime srv s w hframe howner hs hsent hfresh hw =>
      rcases (Table.get?_set_eq_some _ _ _ _ _).mp hs' with ⟨hserver, heq⟩ | ⟨_, hold⟩
      · rw [hserver, ← heq]
        exact Or.inr (Or.inr ⟨s, hs,
          Or.inr (.notified n call id message key runtime hframe howner hsent hfresh)⟩)
      · exact Or.inr (Or.inl hold)
  | _ => exact Or.inr (Or.inl hs')

/-! ### What the users of a server do -/

/-- A step of the transport, a frame of a stream's client, or a step of a
    stream. -/
inductive Acts (h : Sharing) : SharingAction → Sharing → Prop where
  | transport (b : TransportAction) (t : Transport) (ht : h.transport.step b = some t)
      (hbegin : ∀ c source request, b ≠ .begin c source request)
      (hforward : ∀ owner message, b ≠ .forward owner message) :
      Acts h (.transport b) { h with transport := t }
  | readOver (n : Nat) (frame : StreamFrame) (c : CallId) (s : LeaseStream)
      (hs : h.streams.get? n = some s)
      (hother : frame.leaseId ≠ s.leaseId ∨ frame.frameType ≠ .lspIn) :
      Acts h (.frame n frame c) h
  | failed (n : Nat) (frame : StreamFrame) (c : CallId) (s : LeaseStream)
      (hs : h.streams.get? n = some s) (hreading : s.reading = true)
      (hwriter : h.transport.writer = .stopped) :
      Acts h (.frame n frame c) { h with streams := h.streams.set n s.fail }
  | accepted (n : Nat) (frame : StreamFrame) (c : CallId) (s : LeaseStream)
      (hs : h.streams.get? n = some s) (hlease : frame.leaseId = s.leaseId)
      (htype : frame.frameType = .lspIn) (hfresh : h.fresh c = true) :
      Acts h (.frame n frame c) (h.accept c (.stream n) frame.payload)
  | moved (a : SharingAction) (n : Nat) (s s' : LeaseStream) (ha : ∀ b, a ≠ .transport b)
      (hframe : ∀ k frame c, a ≠ .frame k frame c) (hs : h.streams.get? n = some s)
      (hmoved : LeaseStream.Moved h.transport s s') :
      Acts h a { h with streams := h.streams.set n s' }

theorem act_cases (s : Server) (h : Sharing) (a : SharingAction) (hmay : s.mayMove a = true)
    (hstep : s.sharing.step a = some h) : Acts s.sharing a h := by
  cases a with
  | begin client call source request | send client call owner message | connect n leaseId =>
      exact absurd hmay (by simp [Server.mayMove])
  | transport b =>
      simp only [Sharing.step, Option.ite_none_right_eq_some, Option.map_eq_some_iff] at hstep
      rcases hstep with ⟨hb, t, ht, heq⟩
      rw [← heq]
      refine .transport b t ht (fun c source request hbegin => ?_)
        (fun owner message hforward => ?_)
      · rw [hbegin] at hb
        exact absurd hb (by simp [Sharing.mayMove])
      · rw [hforward] at hb
        exact absurd hb (by simp [Sharing.mayMove])
  | frame n frame c =>
      rcases Sharing.frame_cases s.sharing h n frame c hstep with
        ⟨u, hu, hreading, hfresh, ⟨hother, heq⟩ | ⟨⟨hlease, htype⟩, hcases⟩⟩
      · rw [heq]
        exact .readOver n frame c u hu hother
      · rcases hcases with ⟨hwriter, heq⟩ | ⟨_, heq⟩
        · rw [heq]
          exact .failed n frame c u hu hreading hwriter
        · rw [heq]
          exact .accepted n frame c u hu hlease htype hfresh
  | _ =>
      rcases Sharing.stream_moved s.sharing h _ (by exact trivial) hstep with
        ⟨n, u, u', hu, hmoved, heq⟩
      rw [heq]
      exact .moved _ n u u' (by simp) (by simp) hu hmoved

/-! ### Runs -/

/-- A step of the fleet is at most one step of the registry. -/
theorem world_step (f f' : Fleet) (a : FleetAction) (hstep : f.step a = some f') :
    f'.world = f.world ∨ ∃ b, f.world.step b = some f'.world := by
  cases step_effect f f' a hstep with
  | world b w _ hw => exact Or.inr ⟨b, hw⟩
  | spawn call key clientKind g hframe hfree => exact Or.inl rfl
  | spawnFails call error w hfree hw => exact Or.inr ⟨_, hw⟩
  | server a srv s s' hs hmoves => exact Or.inl rfl
  | booted call s result w hs hboot hw => exact Or.inr ⟨_, hw⟩
  | bootFailed call s error w hs hboot hw => exact Or.inr ⟨_, hw⟩
  | request n kind leaseId message call w hidle hw => exact Or.inr ⟨_, hw⟩
  | returned call id message key runtime server s request result w _ _ _ _ hw =>
      exact Or.inr ⟨_, hw⟩
  | notifyFails n call id message key runtime server s w _ _ _ _ _ hw => exact Or.inr ⟨_, hw⟩
  | notified n call id message key runtime server s w _ _ _ _ _ hw => exact Or.inr ⟨_, hw⟩

/-- What every step of the registry keeps, every step of the fleet keeps. -/
theorem world_invariant {I : World → Prop} (hI : ∀ w b w', I w → w.step b = some w' → I w')
    (f f' : Fleet) (a : FleetAction) (h : I f.world) (hstep : f.step a = some f') :
    I f'.world := by
  rcases world_step f f' a hstep with heq | ⟨b, hw⟩
  · rw [heq]
    exact h
  · exact hI f.world b f'.world h hw

/-- A server stays, and the result of its closure with it. -/
theorem finished_moves (f : Fleet) (server : CallId) (s s' : Server) (a : FleetAction)
    (hmoves : f.Moves server s a s') (result : Except String Json)
    (h : s.boot = .finished result) : s'.boot = .finished result := by
  cases hmoves with
  | callInitialize rootUri options h' hboot hh =>
      rw [h] at hboot
      exact absurd hboot (by simp)
  | bootstrapped c request response hboot hcall hfresh =>
      rw [h] at hboot
      exact absurd hboot (by simp)
  | bootstrapFails c error hboot hcall =>
      rw [h] at hboot
      exact absurd hboot (by simp)
  | call n call id message key runtime h' hframe howner hsent hh => exact h
  | connect attach n lease handle h₁ h₂ hframe howner hh hh' => exact h
  | daemonSends c message h' howned hmessage hh => exact h
  | act a h' hmay hh => exact h

/-- Runtimes are servers whose closure has returned with a result. -/
structure Owned (f : Fleet) : Prop where
  booted : ∀ runtime server, f.owners.get? runtime = some server →
    ∃ s result, f.servers.get? server = some s ∧ s.boot = .finished (.ok result)
  known : ∀ runtime, runtime < f.world.nextRuntime →
    ∃ server, f.owners.get? runtime = some server

theorem owned_init (idleTtl : Duration) : Owned (init idleTtl) where
  booted := by simp [init]
  known := by simp [init, World.init]

/-- A server whose closure has finished is kept by a change of another, and by
    its own moves. -/
theorem booted_setServer (f : Fleet) (server : CallId) (s' : Server)
    (hnew : ∀ s result, f.servers.get? server = some s → s.boot = .finished (.ok result) →
      s'.boot = .finished (.ok result))
    (h : ∀ runtime srv, f.owners.get? runtime = some srv →
      ∃ s result, f.servers.get? srv = some s ∧ s.boot = .finished (.ok result)) :
    ∀ runtime srv, f.owners.get? runtime = some srv →
      ∃ s result, (f.servers.set server s').get? srv = some s ∧
        s.boot = .finished (.ok result) := by
  intro runtime srv howner
  rcases h runtime srv howner with ⟨s, result, hs, hboot⟩
  by_cases hsrv : srv = server
  · rw [hsrv] at hs ⊢
    exact ⟨s', result, Table.get?_set_self _ _ _, hnew s result hs hboot⟩
  · exact ⟨s, result, by rw [Table.get?_set_ne _ _ _ _ hsrv, hs], hboot⟩

theorem owned_step (f f' : Fleet) (a : FleetAction) (h : Owned f) (hstep : f.step a = some f') :
    Owned f' := by
  -- Only the return of a closure names a runtime.
  have hknown : ∀ w b, f.world.step b = some w → (∀ c v, b ≠ .spawnReturns c (.ok v)) →
      ∀ runtime, runtime < w.nextRuntime → ∃ server, f.owners.get? runtime = some server := by
    intro w b hw hb runtime hlt
    rcases World.nextRuntime_step f.world w b hw with hnext | ⟨c, v, hspawn, _⟩
    · rw [hnext] at hlt
      exact h.known runtime hlt
    · exact absurd hspawn (hb c v)
  cases step_effect f f' a hstep with
  | world b w hb hw =>
      exact ⟨h.booted, hknown w b hw fun c v heq => by
        rw [heq] at hb
        exact absurd hb (by simp [Action.ofRegistry])⟩
  | spawn call key clientKind g hframe hfree =>
      refine ⟨booted_setServer f call _ (fun s result hs => ?_) h.booted, h.known⟩
      rw [hfree] at hs
      exact absurd hs (by simp)
  | spawnFails call error w hfree hw => exact ⟨h.booted, hknown w _ hw (by simp)⟩
  | server a srv s s' hs hmoves =>
      refine ⟨booted_setServer f srv s' (fun s₀ result hs₀ hboot => ?_) h.booted, h.known⟩
      rw [hs, Option.some.injEq] at hs₀
      rw [← hs₀] at hboot
      exact finished_moves f srv s s' a hmoves _ hboot
  | booted call s result w hs hboot hw =>
      constructor
      · intro runtime server howner
        rcases (Table.get?_set_eq_some _ _ _ _ _).mp howner with ⟨_, heq⟩ | ⟨_, howner⟩
        · rw [← heq]
          exact ⟨s, result, hs, hboot⟩
        · exact h.booted runtime server howner
      · intro runtime hlt
        have hnext := World.spawned_step f.world w call result hw
        by_cases hnew : runtime = f.world.nextRuntime
        · exact ⟨call, by rw [hnew]; exact Table.get?_set_self _ _ _⟩
        · have hold : runtime < f.world.nextRuntime := by
            have hlt' : runtime < f.world.nextRuntime + 1 := by
              rw [← hnext]
              exact hlt
            exact Nat.lt_of_le_of_ne (Nat.lt_succ_iff.mp hlt') hnew
          rcases h.known runtime hold with ⟨server, howner⟩
          exact ⟨server, by rw [Table.get?_set_ne _ _ _ _ hnew, howner]⟩
  | bootFailed call s error w hs hboot hw => exact ⟨h.booted, hknown w _ hw (by simp)⟩
  | request n kind leaseId message call w hidle hw => exact ⟨h.booted, hknown w _ hw (by simp)⟩
  | returned call id message key runtime server s request result w _ _ _ _ hw =>
      exact ⟨h.booted, hknown w _ hw (by simp)⟩
  | notifyFails n call id message key runtime server s w _ _ _ _ _ hw =>
      exact ⟨h.booted, hknown w _ hw (by simp)⟩
  | notified n call id message key runtime server s w hframe howner hs hsent hfresh hw =>
      refine ⟨booted_setServer f server _ (fun s₀ result hs₀ hboot => ?_) h.booted,
        hknown w _ hw (by simp)⟩
      rw [hs, Option.some.injEq] at hs₀
      rw [← hs₀] at hboot
      exact hboot

theorem owned_run (idleTtl : Duration) (as : List FleetAction) (f : Fleet)
    (h : run step (init idleTtl) as = some f) : Owned f :=
  run_invariant (fun f a f' hf hstep _ => owned_step f f' a hf hstep) as (init idleTtl) f h
    (owned_init idleTtl) (along_true as (init idleTtl))

/-! ### What the connections have sent -/

theorem sent_iff (f : Fleet) (n : Nat) (call : CallId) :
    f.sent n call = true ↔ ∃ request ∈ f.history n, request.call = call := by
  simp only [sent, List.any_eq_true, beq_iff_eq]

/-- A connection's history, after another connection has sent a request, or it
    has itself. -/
theorem history_set (f : Fleet) (w : World) (n m : Nat) (request : ControlRequest) :
    history { f with
      world := w
      connections := f.connections.set n (f.history n ++ [request]) } m =
      if m = n then f.history n ++ [request] else f.history m := by
  simp only [history, Table.get?_set]
  by_cases hm : m = n
  · rw [if_pos hm, if_pos hm, Option.getD_some]
  · rw [if_neg hm, if_neg hm]

/-- Every request is with the registry. -/
def Requested (f : Fleet) : Prop :=
  ∀ n, ∀ request ∈ f.history n, ∃ kind id pc,
    f.world.calls.get? request.call = some (.forward kind id request.message pc)

theorem requested_init (idleTtl : Duration) : Requested (init idleTtl) := by
  intro n request hmem
  simp [history, init] at hmem

theorem start_eq_some (w w' : World) (call : CallId) (method : Method)
    (h : w.step (.start call method) = some w') :
    w.calls.get? call = none ∧ w' = { w with calls := w.calls.set call (method.frame w.now) } := by
  simp only [World.step] at h
  split at h
  · exact absurd h (by simp)
  · rename_i hfree
    exact ⟨hfree, (Option.some.inj h).symm⟩

/-- The requests in a history stay with the registry. -/
theorem requested_world (f : Fleet) (w : World) (b : Action) (h : Requested f)
    (hw : f.world.step b = some w) (n : Nat) (request : ControlRequest)
    (hmem : request ∈ f.history n) :
    ∃ kind id pc, w.calls.get? request.call = some (.forward kind id request.message pc) := by
  rcases h n request hmem with ⟨kind, id, pc, hget⟩
  rcases forward_step f.world w b hw request.call kind id request.message pc hget with
    ⟨_, hsame⟩ | ⟨events, pc', hnew, _, _⟩
  · exact ⟨kind, id, pc, hsame⟩
  · exact ⟨kind, id, pc', hnew⟩

theorem requested_step (f f' : Fleet) (a : FleetAction) (h : Requested f)
    (hstep : f.step a = some f') : Requested f' := by
  cases step_effect f f' a hstep with
  | world b w hb hw => exact requested_world f w b h hw
  | spawn call key clientKind g hframe hfree => exact h
  | spawnFails call error w hfree hw => exact requested_world f w _ h hw
  | server a srv s s' hs hmoves => exact h
  | booted call s result w hs hboot hw => exact requested_world f w _ h hw
  | bootFailed call s error w hs hboot hw => exact requested_world f w _ h hw
  | request n kind leaseId message call w hidle hw =>
      intro m request hmem
      rw [history_set] at hmem
      have hrest := requested_world f w _ h hw
      by_cases hm : m = n
      · rw [if_pos hm] at hmem
        rcases List.mem_append.mp hmem with hmem | hmem
        · exact hrest n request hmem
        · rw [List.mem_singleton.mp hmem, (start_eq_some f.world w call _ hw).2]
          exact ⟨kind, leaseId, .lease, Table.get?_set_self _ _ _⟩
      · rw [if_neg hm] at hmem
        exact hrest m request hmem
  | returned call id message key runtime server s request result w _ _ _ _ hw =>
      exact requested_world f w _ h hw
  | notifyFails n call id message key runtime server s w _ _ _ _ _ hw =>
      exact requested_world f w _ h hw
  | notified n call id message key runtime server s w hframe howner hs hsent hfresh hw =>
      exact requested_world f w _ h hw

/-- The message of a request of a connection is the one the registry has. -/
theorem mem_history_of_sent (f : Fleet) (h : Requested f) (n : Nat) (call : CallId)
    (hsent : f.sent n call = true) (kind : ForwardKind) (id : String) (message : Json)
    (pc : ForwardPc) (hget : f.world.calls.get? call = some (.forward kind id message pc)) :
    (⟨call, message⟩ : ControlRequest) ∈ f.history n := by
  rcases (sent_iff f n call).mp hsent with ⟨request, hmem, hcall⟩
  rcases h n request hmem with ⟨kind', id', pc', hget'⟩
  rw [hcall, hget, Option.some.injEq, Frame.forward.injEq] at hget'
  have hrequest : request = ⟨call, message⟩ := by
    rw [← hcall, hget'.2.2.1]
  rw [← hrequest]
  exact hmem

end Fleet

end Lspee
