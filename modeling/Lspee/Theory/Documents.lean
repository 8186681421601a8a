import Lspee.Core.Documents
import Lspee.Theory.Forwarding

/-!
# Runs of `lspee do` and Their Messages

What the runs send to the servers. Of a run's three messages two are about its
document, and nothing else that reaches a server opens or closes one (`Plain`).
What a connection has sent is in its history, with at most one `didOpen` at its
front and at most one `didClose` at its end (`Sent`). What a server has read is
the beginning of what was queued to it, also after a write has failed (`Reads`).

## Main definitions

* `opens`, `closes`, `Plain`: The messages that open and close a document, and
  those that do neither.
* `Server.owner`: Who has sent a message.
* `Sends`, `Does`: What a run sends, and what a step does.
* `Queued`: What a step queues to a server.
* `Sent`: What a run has sent.
* `Asked`, `CallsPlain`: What is called for opens and closes nothing.
* `Reads`: What a server has read.

## Theorems

* `does_step`: Every step is one of these.
* `queued_step`: What a step queues to a server.
* `sent_step`, `asked_step`, `callsPlain_step`, `reads_step`: What every step keeps.
-/

namespace Lspee


/-! ### The messages -/

/-- The document a notification is about. -/
def documentUri (message : Json) : Option String :=
  (((message.get "params").bind fun params => params.get "textDocument").bind
    fun document => document.get "uri").bind Json.asStr

/-- A `textDocument/didOpen` of the document. -/
def opens (uri : String) (message : Json) : Bool :=
  message.get "method" == some (.str "textDocument/didOpen") && documentUri message == some uri

/-- A `textDocument/didClose` of it. -/
def closes (uri : String) (message : Json) : Bool :=
  message.get "method" == some (.str "textDocument/didClose") && documentUri message == some uri

/-- The message opens and closes nothing. -/
def Plain (message : Json) : Prop := ∀ uri, opens uri message = false ∧ closes uri message = false

theorem plain_of_method (message : Json)
    (hopen : message.get "method" ≠ some (.str "textDocument/didOpen"))
    (hclose : message.get "method" ≠ some (.str "textDocument/didClose")) : Plain message := by
  intro uri
  simp [opens, closes, hopen, hclose]

/-- A message does not do both. -/
theorem closes_of_opens (uri uri' : String) (message : Json) (h : opens uri message = true) :
    closes uri' message = false := by
  simp only [opens, Bool.and_eq_true, beq_iff_eq] at h
  simp [closes, h.1]

theorem uri_of_opens (uri : String) (message : Json) (h : opens uri message = true) :
    documentUri message = some uri := by
  simp only [opens, Bool.and_eq_true, beq_iff_eq] at h
  exact h.2

theorem uri_of_closes (uri : String) (message : Json) (h : closes uri message = true) :
    documentUri message = some uri := by
  simp only [closes, Bool.and_eq_true, beq_iff_eq] at h
  exact h.2

theorem closes_didOpen (uri uri' languageId text : String) :
    closes uri' (didOpen uri languageId text) = false := by
  simp [closes, didOpen, Json.get, List.lookup_cons]

theorem opens_didClose (uri uri' : String) : opens uri' (didClose uri) = false := by
  simp [opens, didClose, Json.get, List.lookup_cons]

theorem plain_greeting (rootUri : Option String) (options : Option Json) :
    Plain (initializeRequest rootUri options) := by
  have hmethod := method_initializeRequest rootUri options
  refine plain_of_method _ ?_ ?_ <;> rw [hmethod] <;> decide

theorem plain_initialized : Plain initializedNotification :=
  plain_of_method _ (by decide) (by decide)

theorem plain_shutdown : Plain shutdownMessage := plain_of_method _ (by decide) (by decide)

theorem plain_exit : Plain exitMessage := plain_of_method _ (by decide) (by decide)

/-- The request of a run has the method's name. -/
theorem method_buildRequest (fileUri : PathBuf → Except String String) (method : DoMethod)
    (request : Json) (h : buildRequest fileUri method = .ok request) :
    request.get "method" = some (.str method.lspMethodName) := by
  have hfile : ∀ (path : PathBuf) (params : String → Json),
      (do let uri ← fileUri path; return jsonrpcRequest method.lspMethodName (params uri)) =
        Except.ok request → request.get "method" = some (.str method.lspMethodName) := by
    intro path params hdo
    cases hpath : fileUri path with
    | error error =>
        rw [hpath] at hdo
        exact absurd hdo (by simp [bind, Except.bind])
    | ok uri =>
        rw [hpath] at hdo
        rw [← Except.ok.inj hdo]
        rfl
  cases method with
  | hover args | definition args | implementation args | typeDefinition args | completion args
  | signatureHelp args | references args | rename args | codeAction args | formatting args
  | symbols args | diagnostics args => exact hfile _ _ h
  | workspaceSymbols args =>
      rw [← Except.ok.inj h]
      rfl

theorem plain_buildRequest (fileUri : PathBuf → Except String String) (method : DoMethod)
    (request : Json) (h : buildRequest fileUri method = .ok request) : Plain request := by
  have hmethod := method_buildRequest fileUri method request h
  refine plain_of_method _ ?_ ?_ <;> rw [hmethod] <;> cases method <;> simp [DoMethod.lspMethodName]

namespace Server

/-- Who has sent a message. -/
def owner (s : Server) (m : Tagged Json) : Option Party := m.caller.bind s.sharing.requests.get?

end Server

namespace Desk

/-! ### What a step does -/

/-- What a run may send, and what it waits for then. -/
inductive Sends (d : Desk) (n : Nat) : DoRun → FleetAction → DoPc → Prop where
  | attach (method : DoMethod) (fileUri : PathBuf → Except String String) (key : SessionKey)
      (c : CallId) (request : Json) (hnone : d.runs.get? n = none)
      (hrequest : buildRequest fileUri method = .ok request) :
      Sends d n ⟨method, request, .returned⟩ (.world (.start c (.acquireOrSpawn key (some .agent))))
        (.attaching c)
  | opened (run : DoRun) (leaseId uri languageId text : String) (call c : CallId)
      (hrun : d.runs.get? n = some run) (hpc : run.pc = .attaching call) :
      Sends d n run (.request n .notify leaseId (didOpen uri languageId text) c)
        (.opening leaseId uri c)
  | called (run : DoRun) (leaseId : String) (didOpenUri : Option String) (c : CallId)
      (hrun : d.runs.get? n = some run)
      (hpc : (∃ call, run.pc = .attaching call) ∨ ∃ id uri call, run.pc = .opening id uri call) :
      Sends d n run (.request n .call leaseId run.request c) (.calling leaseId didOpenUri c)
  | closed (run : DoRun) (leaseId uri : String) (c : CallId) (hrun : d.runs.get? n = some run)
      (hpc : ∃ id didOpenUri call, run.pc = .calling id didOpenUri call) :
      Sends d n run (.request n .notify leaseId (didClose uri) c) (.closing leaseId c)
  | released (run : DoRun) (leaseId : String) (c : CallId) (hrun : d.runs.get? n = some run) :
      Sends d n run (.world (.start c (.releaseByLeaseId leaseId))) (.releasing c)

/-- What a step does. -/
inductive Does (d : Desk) : DoAction → Desk → Prop where
  | fleet (b : FleetAction) (f : Fleet) (hb : b.ofDaemon = true) (hf : d.fleet.step b = some f) :
      Does d (.fleet b) { d with fleet := f }
  | sends (a : DoAction) (n : Nat) (run : DoRun) (b : FleetAction) (pc : DoPc) (f : Fleet)
      (ha : ∀ b', a ≠ .fleet b') (hsends : Sends d n run b pc) (hf : d.fleet.step b = some f) :
      Does d a { fleet := f, runs := d.runs.set n { run with pc := pc } }
  | quits (a : DoAction) (n : Nat) (run : DoRun) (ha : ∀ b, a ≠ .fleet b)
      (hrun : d.runs.get? n = some run) : Does d a (d.setPc n run .returned)

theorem does_send (d d' : Desk) (a : DoAction) (n : Nat) (run : DoRun) (b : FleetAction) (pc : DoPc)
    (ha : ∀ b', a ≠ .fleet b') (hsends : Sends d n run b pc) (h : d.send n run b pc = some d') :
    Does d a d' := by
  rcases Option.map_eq_some_iff.mp h with ⟨f, hf, hd'⟩
  rw [← hd']
  exact .sends a n run b pc f ha hsends hf

theorem does_go (d d' : Desk) (n : Nat) (run : DoRun) (c : CallId) (file : Except String SourceFile)
    (hrun : d.runs.get? n = some run) (h : d.go n run c file = some d') :
    Does d (.go n c file) d' := by
  have ha : ∀ b, DoAction.go n c file ≠ .fleet b := by simp
  unfold go at h
  split at h
  · rename_i call hpc
    split at h
    · rename_i lease handle _
      unfold sendDidOpen at h
      split at h
      · exact does_send d d' _ n run _ _ ha (.opened run _ _ _ _ call c hrun hpc) h
      · exact does_send d d' _ n run _ _ ha (.called run _ _ c hrun (Or.inl ⟨call, hpc⟩)) h
    · rw [← Option.some.inj h]
      exact .quits _ n run ha hrun
    · rw [← Option.some.inj h]
      exact .quits _ n run ha hrun
    · exact absurd h (by simp)
  · rename_i leaseId uri call hpc
    have hopening : ∃ id uri call, run.pc = .opening id uri call := ⟨leaseId, uri, call, hpc⟩
    split at h
    · exact does_send d d' _ n run _ _ ha (.called run _ _ c hrun (Or.inr hopening)) h
    · exact does_send d d' _ n run _ _ ha (.called run _ _ c hrun (Or.inr hopening)) h
    · exact absurd h (by simp)
  · rename_i leaseId didOpenUri call hpc
    split at h
    · exact does_send d d' _ n run _ _ ha (.closed run _ _ c hrun ⟨leaseId, _, call, hpc⟩) h
    · exact does_send d d' _ n run _ _ ha (.released run _ c hrun) h
    · exact absurd h (by simp)
  · split at h
    · exact does_send d d' _ n run _ _ ha (.released run _ c hrun) h
    · exact absurd h (by simp)
  · split at h
    · rw [← Option.some.inj h]
      exact .quits _ n run ha hrun
    · exact absurd h (by simp)
  · exact absurd h (by simp)

theorem does_step (d d' : Desk) (a : DoAction) (hstep : d.step a = some d') : Does d a d' := by
  cases a with
  | fleet b =>
      simp only [step, Option.ite_none_right_eq_some, Option.map_eq_some_iff] at hstep
      rcases hstep with ⟨hb, f, hf, hd'⟩
      rw [← hd']
      exact .fleet b f hb hf
  | begin n method fileUri key call =>
      simp only [step, begin] at hstep
      split at hstep
      · rename_i request hnone hrequest
        exact does_send d d' _ n _ _ _ (by simp) (.attach method fileUri key call request hnone
          hrequest) hstep
      · exact absurd hstep (by simp)
  | go n call file =>
      simp only [step] at hstep
      split at hstep
      · exact absurd hstep (by simp)
      · rename_i run hrun
        exact does_go d d' n run call file hrun hstep

end Desk

namespace Fleet

/-- Only a connection's own requests are in its history. -/
theorem history_step (f f' : Fleet) (a : FleetAction) (hstep : f.step a = some f') (n : Nat) :
    f'.history n = f.history n ∨ ∃ kind leaseId message c, a = .request n kind leaseId message c ∧
      f'.history n = f.history n ++ [⟨c, message⟩] := by
  cases step_effect f f' a hstep with
  | request m kind leaseId message call w hidle hw =>
      rw [history_set]
      by_cases hm : n = m
      · rw [if_pos hm, hm]
        exact Or.inr ⟨kind, leaseId, message, call, rfl, rfl⟩
      · exact Or.inl (if_neg hm)
  | _ => exact Or.inl rfl

/-- What a server's calls ask for opens and closes nothing. -/
def CallsPlain (s : Server) : Prop :=
  ∀ c call, s.sharing.transport.calls.get? c = some call → Plain call.request

/-- What a step puts into a server's queue: messages that open and close nothing,
    or the message of a notification. -/
inductive Queued (f : Fleet) (server : CallId) (s : Server) (a : FleetAction) (s' : Server) :
    Prop where
  | plain (ms : List (Tagged Json)) (hms : ∀ m ∈ ms, Plain m.content)
      (hqueued : s'.queued = s.queued ++ ms)
  | notified (n : Nat) (c : CallId) (id : String) (message : Json) (key : SessionKey)
      (runtime : RuntimeId) (ha : a = .notify n c)
      (hframe : f.world.calls.get? c = some (.forward .notify id message (.awaiting key runtime)))
      (howner : f.owners.get? runtime = some server) (hsent : f.sent n c = true)
      (hqueued : s'.queued = s.queued ++ [⟨some c, message⟩])
      (hparty : s'.owner ⟨some c, message⟩ = some (.control n))

/-- A server keeps the parties of its messages. -/
def KeepsParties (s s' : Server) : Prop :=
  ∀ c party, s.sharing.requests.get? c = some party → s'.sharing.requests.get? c = some party

theorem keeps_begin (s : Server) (h : Sharing) (client : Option Nat) (call : CallId)
    (request : Json) (hstep : s.sharing.step (.begin client call .session request) = some h)
    (c : CallId) (party : Party) (hc : s.sharing.requests.get? c = some party) :
    h.requests.get? c = some party := by
  rcases begin_eq_some s.sharing h client call .session request hstep with
    ⟨hfresh, t, pc, _, hh, _, _⟩
  rw [hh]
  exact requests_set s.sharing call (Sharing.caller client) hfresh c party hc

/-- A message of the daemon is queued. -/
theorem plain_accept (s : Server) (c : CallId) (message : Json) (hfresh : s.sharing.fresh c = true)
    (hmessage : Plain message) :
    (∃ ms, (∀ m ∈ ms, Plain m.content) ∧
      (s.after (s.sharing.accept c .daemon message)).queued = s.queued ++ ms) ∧
      KeepsParties s (s.after (s.sharing.accept c .daemon message)) := by
  refine ⟨⟨[⟨some c, message⟩], fun m hm => ?_, ?_⟩, ?_⟩
  · rw [List.mem_singleton.mp hm]
    exact hmessage
  · exact congrArg _ (Sharing.queuedBy_accept s.sharing c .daemon message)
  · exact requests_set s.sharing c .daemon hfresh

theorem plain_moves (f : Fleet) (server : CallId) (s s' : Server) (a : FleetAction)
    (hmoves : f.Moves server s a s') (ha : a.ofDaemon = true) (hcalls : CallsPlain s) :
    (∃ ms, (∀ m ∈ ms, Plain m.content) ∧ s'.queued = s.queued ++ ms) ∧ KeepsParties s s' := by
  have hnothing : ∀ h : Sharing, s.sharing.transport.queuedBy h.transport = [] →
      ∃ ms, (∀ m ∈ ms, Plain m.content) ∧ (s.after h).queued = s.queued ++ ms := fun h hnone =>
    ⟨[], by simp, congrArg _ hnone⟩
  cases hmoves with
  | callInitialize rootUri options h hboot hh =>
      exact ⟨hnothing h (queuedBy_begin s.sharing h none server .session _ hh),
        keeps_begin s h none server _ hh⟩
  | bootstrapped c request response hboot hcall hfresh =>
      exact plain_accept s c _ hfresh plain_initialized
  | bootstrapFails c error hboot hcall =>
      exact ⟨⟨[], by simp, (List.append_nil _).symm⟩, fun _ _ hc => hc⟩
  | call n call id message key runtime h hframe howner hsent hh =>
      exact ⟨hnothing h (queuedBy_begin s.sharing h (some n) call .session _ hh),
        keeps_begin s h (some n) call _ hh⟩
  | connect attach n lease handle h h' hframe howner hh hh' =>
      exact absurd ha (by simp [FleetAction.ofDaemon])
  | daemonSends c message h howned hmessage hh =>
      have hplain : Plain message := by
        rcases hmessage with heq | heq
        · rw [heq]
          exact plain_shutdown
        · rw [heq]
          exact plain_exit
      rcases Sharing.send_cases s.sharing h none c .session message hh with ⟨hfresh, heq | heq⟩
      · rw [heq]
        exact ⟨hnothing s.sharing (Transport.queuedBy_same _ _ rfl), fun _ _ hc => hc⟩
      · rw [heq]
        exact plain_accept s c message hfresh hplain
  | act b h hmay hh =>
      cases act_cases s h b hmay hh with
      | transport b t ht hbegin hforward =>
          refine ⟨?_, fun _ _ hc => hc⟩
          rcases Transport.queuedBy_step s.sharing.transport t b ht with
            hnone | ⟨c, request, rx, _, hcall, hone⟩ | ⟨owner, message, hb⟩
          · exact hnothing { s.sharing with transport := t } hnone
          · -- a call queues what it asks for
            refine ⟨[⟨some c, request⟩], fun m hm => ?_, congrArg _ hone⟩
            rw [List.mem_singleton.mp hm]
            exact hcalls c _ hcall
          · exact absurd hb (hforward owner message)
      | readOver n frame c u hu hother =>
          exact ⟨hnothing s.sharing (Transport.queuedBy_same _ _ rfl), fun _ _ hc => hc⟩
      | failed n frame c u hu hreading hwriter =>
          exact ⟨hnothing { s.sharing with streams := _ } (Transport.queuedBy_same _ _ rfl),
            fun _ _ hc => hc⟩
      | accepted n frame c u hu hlease htype hfresh =>
          exact absurd ha (by simp [FleetAction.ofDaemon])
      | moved _ n u u' hnot hframe hu hmoved =>
          exact ⟨hnothing { s.sharing with streams := _ } (Transport.queuedBy_same _ _ rfl),
            fun _ _ hc => hc⟩

/-- What a step queues to a server. -/
theorem queued_step (f f' : Fleet) (a : FleetAction) (hstep : f.step a = some f')
    (ha : a.ofDaemon = true) (server : CallId) (s' : Server)
    (hs' : f'.servers.get? server = some s')
    (hcalls : ∀ s, f.servers.get? server = some s → CallsPlain s) :
    s' = .spawn ∨ ∃ s, f.servers.get? server = some s ∧ Queued f server s a s' ∧
      KeepsParties s s' := by
  rcases server_step f f' a hstep server s' hs' with
    ⟨_, hnew⟩ | hold | ⟨s, hs, hmoves | hnotifies⟩
  · exact Or.inl hnew
  · exact Or.inr ⟨s', hold, .plain [] (by simp) (List.append_nil _).symm, fun _ _ hc => hc⟩
  · rcases plain_moves f server s s' a hmoves ha (hcalls s hs) with ⟨⟨ms, hms, hqueued⟩, hkeeps⟩
    exact Or.inr ⟨s, hs, .plain ms hms hqueued, hkeeps⟩
  · cases hnotifies with
    | notified n call id message key runtime hframe howner hsent hfresh =>
        have hqueued := congrArg (s.queued ++ ·)
          (Sharing.queuedBy_accept s.sharing call (.control n) message)
        refine Or.inr ⟨s, hs, ?_, requests_set s.sharing call (.control n) hfresh⟩
        exact .notified n call id message key runtime rfl hframe howner hsent hqueued
          (Table.get?_set_self _ _ _)

end Fleet

/-! ### What the runs have sent -/

/-- What a run has sent, by the answer it waits for. -/
def DoPc.Sent : DoPc → List ControlRequest → Prop
  | .attaching _, requests => requests = []
  | .opening _ uri c, requests =>
    ∃ languageId text, requests = [⟨c, didOpen uri languageId text⟩]
  | .calling _ _ _, requests => ∀ r ∈ requests, ∀ uri, closes uri r.message = false
  | _, _ => True

/-- What the connection of a run has sent: a `didOpen` can only be the first, and
    a `didClose` the last. Without a run it has sent nothing. -/
structure Sent (run? : Option DoRun) (requests : List ControlRequest) : Prop where
  opensFirst : ∀ r ∈ requests.tail, ∀ uri, opens uri r.message = false
  closesLast : ∀ r ∈ requests.dropLast, ∀ uri, closes uri r.message = false
  idle : run? = none → requests = []
  pc : ∀ run, run? = some run → run.pc.Sent requests
  plain : ∀ run, run? = some run → Plain run.request

theorem mem_tail_concat (requests : List ControlRequest) (r new : ControlRequest)
    (h : r ∈ (requests ++ [new]).tail) : r ∈ requests.tail ∨ r = new := by
  cases requests with
  | nil => exact absurd h List.not_mem_nil
  | cons first rest =>
      rcases List.mem_append.mp h with hrest | hnew
      · exact Or.inl hrest
      · exact Or.inr (List.mem_singleton.mp hnew)

/-- The run has sent another request, and waits for its answer. -/
theorem sent_request (run : DoRun) (requests : List ControlRequest) (new : ControlRequest)
    (pc : DoPc) (h : Sent (some run) requests)
    (hopen : requests = [] ∨ ∀ uri, opens uri new.message = false)
    (hclosed : ∀ r ∈ requests, ∀ uri, closes uri r.message = false)
    (hpc : pc.Sent (requests ++ [new])) :
    Sent (some { run with pc := pc }) (requests ++ [new]) where
  opensFirst := by
    intro r hr uri
    rcases hopen with hnil | hplain
    · rw [hnil] at hr
      exact absurd hr List.not_mem_nil
    · rcases mem_tail_concat requests r new hr with hold | hnew
      · exact h.opensFirst r hold uri
      · rw [hnew]
        exact hplain uri
  closesLast := by
    rw [List.dropLast_concat]
    exact hclosed
  idle := by simp
  pc := by
    intro run' hrun
    rw [← Option.some.inj hrun]
    exact hpc
  plain := by
    intro run' hrun
    rw [← Option.some.inj hrun]
    exact h.plain run rfl

/-- The run waits for something else. -/
theorem sent_pc (run : DoRun) (requests : List ControlRequest) (pc : DoPc)
    (h : Sent (some run) requests) (hpc : pc.Sent requests) :
    Sent (some { run with pc := pc }) requests where
  opensFirst := h.opensFirst
  closesLast := h.closesLast
  idle := by simp
  pc := by
    intro run' hrun
    rw [← Option.some.inj hrun]
    exact hpc
  plain := by
    intro run' hrun
    rw [← Option.some.inj hrun]
    exact h.plain run rfl

namespace Desk

/-- Before its `didClose` a run has sent none. -/
theorem not_closed (run : DoRun) (requests : List ControlRequest) (h : Sent (some run) requests)
    (hpc : (∃ call, run.pc = .attaching call) ∨ (∃ id uri call, run.pc = .opening id uri call) ∨
      ∃ id uri call, run.pc = .calling id uri call) :
    ∀ r ∈ requests, ∀ uri, closes uri r.message = false := by
  have hsent := h.pc run rfl
  rcases hpc with ⟨call, hpc⟩ | ⟨id, uri, call, hpc⟩ | ⟨id, uri, call, hpc⟩
  · rw [hpc] at hsent
    rw [show requests = [] from hsent]
    simp
  · rw [hpc] at hsent
    rcases hsent with ⟨languageId, text, heq⟩
    intro r hr uri'
    rw [heq, List.mem_singleton] at hr
    rw [hr]
    exact closes_didOpen uri uri' languageId text
  · rw [hpc] at hsent
    exact hsent

/-- What the connections have sent after a step of the daemon. -/
theorem history_daemon (f f' : Fleet) (b : FleetAction) (hf : f.step b = some f')
    (hb : ∀ n kind leaseId message c, b ≠ .request n kind leaseId message c) (n : Nat) :
    f'.history n = f.history n := by
  rcases Fleet.history_step f f' b hf n with hsame | ⟨kind, leaseId, message, c, heq, _⟩
  · exact hsame
  · exact absurd heq (hb n kind leaseId message c)

/-- And after a request. -/
theorem history_request (f f' : Fleet) (n : Nat) (kind : ForwardKind) (leaseId : String)
    (message : Json) (c : CallId) (hf : f.step (.request n kind leaseId message c) = some f') :
    f'.history n = f.history n ++ [⟨c, message⟩] ∧ ∀ m, m ≠ n → f'.history m = f.history m := by
  cases Fleet.step_effect f f' _ hf with
  | request _ _ _ _ _ w hidle hw =>
      refine ⟨?_, fun m hm => ?_⟩
      · rw [Fleet.history_set, if_pos rfl]
      · rw [Fleet.history_set, if_neg hm]
  | server _ srv s s' hs hmoves => cases hmoves

/-- What the run of the step has sent. -/
theorem sent_sends (d : Desk) (n : Nat) (run : DoRun) (b : FleetAction) (pc : DoPc) (f : Fleet)
    (h : ∀ m, Sent (d.runs.get? m) (d.fleet.history m)) (hsends : Sends d n run b pc)
    (hf : d.fleet.step b = some f) :
    Sent (some { run with pc := pc }) (f.history n) ∧
      ∀ m, m ≠ n → f.history m = d.fleet.history m := by
  have hn := h n
  cases hsends with
  | attach method fileUri key c request hnone hrequest =>
      have hsame := history_daemon d.fleet f _ hf (by simp)
      rw [hsame n, hn.idle hnone]
      refine ⟨⟨by simp, by simp, by simp, ?_, ?_⟩, fun m _ => hsame m⟩
      · intro run hrun
        rw [← Option.some.inj hrun]
        rfl
      · intro run hrun
        rw [← Option.some.inj hrun]
        exact plain_buildRequest fileUri method request hrequest
  | opened run leaseId uri languageId text call c hrun hpc =>
      rcases history_request d.fleet f n _ _ _ c hf with ⟨hnew, hothers⟩
      rw [hrun] at hn
      have hnil : d.fleet.history n = [] := by
        have hsent := hn.pc run rfl
        rw [hpc] at hsent
        exact hsent
      rw [hnew]
      refine ⟨sent_request run _ _ _ hn (Or.inl hnil) ?_ ?_, hothers⟩
      · exact not_closed run _ hn (Or.inl ⟨call, hpc⟩)
      · rw [hnil]
        exact ⟨languageId, text, rfl⟩
  | called run leaseId didOpenUri c hrun hpc =>
      rcases history_request d.fleet f n _ _ _ c hf with ⟨hnew, hothers⟩
      rw [hrun] at hn
      have hplain := hn.plain run rfl
      have hclosed : ∀ r ∈ d.fleet.history n, ∀ uri, closes uri r.message = false := by
        refine not_closed run _ hn ?_
        rcases hpc with hpc | hpc
        · exact Or.inl hpc
        · exact Or.inr (Or.inl hpc)
      rw [hnew]
      refine ⟨sent_request run _ _ _ hn (Or.inr fun uri => (hplain uri).1) hclosed ?_, hothers⟩
      intro r hr uri
      rcases List.mem_append.mp hr with hold | hlast
      · exact hclosed r hold uri
      · rw [List.mem_singleton.mp hlast]
        exact (hplain uri).2
  | closed run leaseId uri c hrun hpc =>
      rcases history_request d.fleet f n _ _ _ c hf with ⟨hnew, hothers⟩
      rw [hrun] at hn
      rw [hnew]
      refine ⟨sent_request run _ _ _ hn (Or.inr (opens_didClose uri)) ?_ trivial, hothers⟩
      exact not_closed run _ hn (Or.inr (Or.inr hpc))
  | released run leaseId c hrun =>
      have hsame := history_daemon d.fleet f _ hf (by simp)
      rw [hrun] at hn
      rw [hsame n]
      exact ⟨sent_pc run _ _ hn trivial, fun m _ => hsame m⟩

theorem request_ofDaemon (b : FleetAction) (hb : b.ofDaemon = true) (n : Nat) (kind : ForwardKind)
    (leaseId : String) (message : Json) (c : CallId) : b ≠ .request n kind leaseId message c := by
  intro heq
  rw [heq] at hb
  exact absurd hb (by simp [FleetAction.ofDaemon])

theorem sent_step (d d' : Desk) (a : DoAction)
    (h : ∀ n, Sent (d.runs.get? n) (d.fleet.history n)) (hdoes : Does d a d') (n : Nat) :
    Sent (d'.runs.get? n) (d'.fleet.history n) := by
  cases hdoes with
  | fleet b f hb hf =>
      have hsame := history_daemon d.fleet f b hf (request_ofDaemon b hb) n
      have hn := h n
      rw [← hsame] at hn
      exact hn
  | sends _ m run b pc f ha hsends hf =>
      rcases sent_sends d m run b pc f h hsends hf with ⟨hown, hothers⟩
      by_cases hn : n = m
      · rw [hn]
        simp only [Table.get?_set_self]
        exact hown
      · simp only [Table.get?_set_ne _ _ _ _ hn]
        rw [hothers n hn]
        exact h n
  | quits _ m run ha hrun =>
      by_cases hn : n = m
      · have hm := h m
        rw [hrun] at hm
        rw [hn]
        simp only [setPc, Table.get?_set_self]
        exact sent_pc run _ _ hm trivial
      · simp only [setPc, Table.get?_set_ne _ _ _ _ hn]
        exact h n

end Desk

/-! ### What the servers have -/

namespace Fleet

/-- What is called for a connection opens and closes nothing. -/
def Asked (f : Fleet) : Prop :=
  ∀ n, ∀ r ∈ f.history n, ∀ id message pc,
    f.world.calls.get? r.call = some (.forward .call id message pc) → Plain message

/-- A request stays what it is. -/
theorem asked_old (f f' : Fleet) (a : FleetAction) (hrequested : Requested f) (h : Asked f)
    (hstep : f.step a = some f') (n : Nat) (r : ControlRequest) (hr : r ∈ f.history n) (id : String)
    (message : Json) (pc : ForwardPc)
    (hframe : f'.world.calls.get? r.call = some (.forward .call id message pc)) :
    Plain message := by
  rcases hrequested n r hr with ⟨kind, id₀, pc₀, hget⟩
  have hsame : kind = .call ∧ r.message = message := by
    rcases world_step f f' a hstep with heq | ⟨b, hb⟩
    · rw [heq, hget, Option.some.injEq, Frame.forward.injEq] at hframe
      exact ⟨hframe.1, hframe.2.2.1⟩
    · rcases forward_step f.world f'.world b hb r.call kind id₀ r.message pc₀ hget with
        ⟨_, hget'⟩ | ⟨_, pc', hget', _⟩
      · rw [hget', Option.some.injEq, Frame.forward.injEq] at hframe
        exact ⟨hframe.1, hframe.2.2.1⟩
      · rw [hget', Option.some.injEq, Frame.forward.injEq] at hframe
        exact ⟨hframe.1, hframe.2.2.1⟩
  rw [hsame.1] at hget
  rw [← hsame.2]
  exact h n r hr id₀ r.message pc₀ hget

theorem asked_step (f f' : Fleet) (a : FleetAction) (hrequested : Requested f) (h : Asked f)
    (hstep : f.step a = some f')
    (ha : ∀ n leaseId message c, a = .request n .call leaseId message c → Plain message) :
    Asked f' := by
  intro n r hr id message pc hframe
  rcases history_step f f' a hstep n with hsame | ⟨kind, leaseId, message', c, heq, hnew⟩
  · rw [hsame] at hr
    exact asked_old f f' a hrequested h hstep n r hr id message pc hframe
  · rw [hnew] at hr
    rcases List.mem_append.mp hr with hold | hlast
    · exact asked_old f f' a hrequested h hstep n r hold id message pc hframe
    · rw [List.mem_singleton.mp hlast] at hframe
      rw [heq] at hstep
      cases step_effect f f' _ hstep with
      | request _ _ _ _ _ w hidle hw =>
          rcases start_eq_some f.world w c _ hw with ⟨_, hw'⟩
          simp only [hw', Method.frame, Table.get?_set_self, Option.some.injEq,
            Frame.forward.injEq] at hframe
          rw [hframe.1] at heq
          rw [← hframe.2.2.1]
          exact ha n leaseId message' c heq
      | server _ srv s s' hs hmoves => cases hmoves

theorem callsPlain_begin (s : Server) (h : Sharing) (client : Option Nat) (call : CallId)
    (request : Json) (hcalls : CallsPlain s) (hplain : Plain request)
    (hstep : s.sharing.step (.begin client call .session request) = some h) (c : CallId)
    (call' : Call) (hget : h.transport.calls.get? c = some call') : Plain call'.request := by
  rcases begin_eq_some s.sharing h client call .session request hstep with
    ⟨_, t, pc, _, hh, ht, _⟩
  rw [hh, ht, Transport.setPc_calls] at hget
  rcases (Table.get?_set_eq_some _ _ _ _ _).mp hget with ⟨_, heq⟩ | ⟨_, hold⟩
  · rw [← heq]
    exact hplain
  · exact hcalls c call' hold

theorem callsPlain_moves (f : Fleet) (server : CallId) (s s' : Server) (a : FleetAction)
    (hrequested : Requested f) (hasked : Asked f) (hmoves : f.Moves server s a s')
    (ha : a.ofDaemon = true) (h : CallsPlain s) : CallsPlain s' := by
  cases hmoves with
  | callInitialize rootUri options g hboot hg =>
      exact callsPlain_begin s g none server _ h (plain_greeting rootUri options) hg
  | bootstrapped c request response hboot hcall hfresh => exact h
  | bootstrapFails c error hboot hcall => exact h
  | call n call id message key runtime g hframe howner hsent hg =>
      have hmem := mem_history_of_sent f hrequested n call hsent .call id message _ hframe
      exact callsPlain_begin s g (some n) call message h (hasked n _ hmem id message _ hframe) hg
  | connect attach n lease handle g g' hframe howner hg hg' =>
      exact absurd ha (by simp [FleetAction.ofDaemon])
  | daemonSends c message g howned hmessage hg =>
      rcases Sharing.send_cases s.sharing g none c .session message hg with ⟨_, heq | heq⟩ <;>
        · rw [heq]
          exact h
  | act b g hmay hg =>
      cases act_cases s g b hmay hg with
      | transport b t ht hbegin hforward =>
          intro c call' hget'
          cases hget : s.sharing.transport.calls.get? c with
          | none =>
              have hnone := Transport.call_begun s.sharing.transport t b ht c hget (hbegin c)
              rw [show t.calls.get? c = some call' from hget'] at hnone
              exact absurd hnone (by simp)
          | some call =>
              have hplain := h c call hget
              rcases call with ⟨request, pc⟩
              rcases Transport.call_step s.sharing.transport t b ht c request pc hget with
                ⟨_, hsame⟩ | ⟨pc', hsame, _⟩
              · rw [show t.calls.get? c = some call' from hget', Option.some.injEq] at hsame
                rw [hsame]
                exact hplain
              · rw [show t.calls.get? c = some call' from hget', Option.some.injEq] at hsame
                rw [hsame]
                exact hplain
      | _ => exact h

theorem callsPlain_step (f f' : Fleet) (a : FleetAction) (hrequested : Requested f)
    (hasked : Asked f) (hstep : f.step a = some f') (ha : a.ofDaemon = true)
    (h : ∀ server s, f.servers.get? server = some s → CallsPlain s) (server : CallId) (s' : Server)
    (hs' : f'.servers.get? server = some s') : CallsPlain s' := by
  rcases server_step f f' a hstep server s' hs' with
    ⟨_, hnew⟩ | hold | ⟨s, hs, hmoves | hnotifies⟩
  · rw [hnew]
    intro c call hget
    simp [Server.spawn, Sharing.init, Transport.spawn] at hget
  · exact h server s' hold
  · exact callsPlain_moves f server s s' a hrequested hasked hmoves ha (h server s hs)
  · cases hnotifies with
    | notified n call id message key runtime hframe howner hsent hfresh => exact h server s hs

end Fleet

/-! #### What is read -/

namespace Server

/-- What a server has read is the beginning of what was queued to it. -/
structure Reads (s : Server) : Prop where
  front : s.sharing.transport.received.reverse <+: s.queued
  stopped : s.writerFailed = true → s.sharing.transport.writer = .stopped

/-- The writer task has done nothing. -/
theorem reads_same (s s' : Server) (h : s.Reads) (ms : List (Tagged Json))
    (hqueued : s'.queued = s.queued ++ ms)
    (hreceived : s'.sharing.transport.received = s.sharing.transport.received)
    (hwriter : s'.sharing.transport.writer = s.sharing.transport.writer)
    (hfailed : s'.writerFailed = s.writerFailed) : s'.Reads where
  front := by
    rw [hreceived, hqueued]
    exact h.front.trans (List.prefix_append _ _)
  stopped := by
    rw [hwriter, hfailed]
    exact h.stopped

/-- As long as no write has failed, what is queued waits behind what is read. -/
theorem reads_of_ordered (s : Server) (ho : Ordered s.sharing s.queued s.frames s.writerFailed)
    (hfailed : s.writerFailed = false) : s.Reads where
  front := by
    rw [← ho.piped hfailed, Transport.pipe, List.append_assoc]
    exact List.prefix_append _ _
  stopped := fun h => absurd (hfailed.symm.trans h) (by simp)

/-- The write that fails is of the message that comes next. -/
theorem reads_failed (s s' : Server) (ho : Ordered s.sharing s.queued s.frames s.writerFailed)
    (hfailed : s.writerFailed = false) (t : Transport) (delivered : Bool)
    (ht : s.sharing.transport.step (.writerFailed delivered) = some t)
    (htransport : s'.sharing.transport = t) (ms : List (Tagged Json))
    (hqueued : s'.queued = s.queued ++ ms) : s'.Reads := by
  simp only [Transport.step] at ht
  split at ht
  swap
  · exact absurd ht (by simp)
  rename_i message hwriting
  have hpipe := ho.piped hfailed
  rw [Transport.pipe, hwriting] at hpipe
  have hfront : s.sharing.transport.received.reverse ++ [message] <+: s'.queued := by
    rw [hqueued, ← hpipe, List.append_assoc]
    exact List.prefix_append _ _
  rw [← Option.some.inj ht] at htransport
  constructor
  · rw [htransport]
    cases delivered with
    | true =>
        simp only [if_true, List.reverse_cons]
        exact hfront
    | false =>
        simp only [Bool.false_eq_true, if_false]
        exact (List.prefix_append _ _).trans hfront
  · exact fun _ => by rw [htransport]

/-- A writer task that has ended reads nothing. -/
theorem received_stopped (t t' : Transport) (b : TransportAction) (ht : t.step b = some t')
    (hwriter : t.writer = .stopped) : t'.received = t.received ∧ t'.writer = t.writer := by
  cases Transport.step_flow t t' b ht with
  | quiet hreceived hsame hinbound => exact ⟨hreceived, hsame⟩
  | queued c request rx hb hcall hreceived hsame hinbound => exact ⟨hreceived, hsame⟩
  | forwarded owner message hb hreceived hsame hinbound => exact ⟨hreceived, hsame⟩
  | taken message hidle hinbound hreceived hwriting =>
      rw [hwriter] at hidle
      exact absurd hidle (by simp)
  | wrote message hwriting hreceived hidle hinbound =>
      rw [hwriter] at hwriting
      exact absurd hwriting (by simp)
  | failed delivered hb hstopped hinbound =>
      rw [hb] at ht
      simp only [Transport.step, hwriter, reduceCtorEq] at ht
  | ended hidle hempty hhandles hreceived hstopped hinbound =>
      rw [hwriter] at hidle
      exact absurd hidle (by simp)

end Server

namespace Fleet

theorem reads_act (s : Server) (b : SharingAction) (g : Sharing) (hmay : s.mayMove b = true)
    (hg : s.sharing.step b = some g)
    (ho : Ordered s.sharing s.queued s.frames s.writerFailed) (h : s.Reads) :
    Server.Reads { s.after g with
      frames := Server.noteFrame s.frames b
      writerFailed := s.writerFailed || Server.isWriterFailed b } := by
  have ho' := ordered_act s g b hmay hg ho
  cases hfailed : (s.writerFailed || Server.isWriterFailed b) with
  | false =>
      rw [hfailed] at ho'
      exact Server.reads_of_ordered _ ho' rfl
  | true =>
      have hother : (∀ b', b ≠ .transport b') → s.writerFailed = true := fun hb => by
        rw [isWriterFailed_other b hb, Bool.or_false] at hfailed
        exact hfailed
      cases act_cases s g b hmay hg with
      | transport b t ht hbegin hforward =>
          cases hbefore : s.writerFailed with
          | true =>
              -- The writer task has ended.
              rcases Server.received_stopped s.sharing.transport t b ht (h.stopped hbefore) with
                ⟨hreceived, hwriter⟩
              exact Server.reads_same s _ h _ rfl hreceived hwriter hbefore.symm
          | false =>
              rw [hbefore, Bool.false_or] at hfailed
              cases b with
              | writerFailed delivered =>
                  exact Server.reads_failed s _ ho hbefore t delivered ht rfl _ rfl
              | _ => exact absurd hfailed (by simp [Server.isWriterFailed])
      | readOver n frame c u hu hother =>
          exact Server.reads_same s _ h _ rfl rfl rfl (hother (by simp)).symm
      | failed n frame c u hu hreading hwriter =>
          exact Server.reads_same s _ h _ rfl rfl rfl (hother (by simp)).symm
      | accepted n frame c u hu hlease htype hfresh =>
          exact Server.reads_same s _ h _ rfl rfl rfl (hother (by simp)).symm
      | moved _ n u u' hnot hframe hu hmoved =>
          exact Server.reads_same s _ h _ rfl rfl rfl (hother hnot).symm

theorem reads_step (f f' : Fleet) (a : FleetAction) (hstep : f.step a = some f')
    (ho : ∀ server s, f.servers.get? server = some s →
      Ordered s.sharing s.queued s.frames s.writerFailed)
    (h : ∀ server s, f.servers.get? server = some s → s.Reads) (server : CallId) (s' : Server)
    (hs' : f'.servers.get? server = some s') : s'.Reads := by
  have hbegin : ∀ (s : Server) (g : Sharing) (client : Option Nat) (call : CallId) (request : Json),
      s.Reads → s.sharing.step (.begin client call .session request) = some g →
        ∀ boot, Server.Reads { s.after g with boot := boot } := by
    intro s g client call request hs hg boot
    rcases begin_eq_some s.sharing g client call .session request hg with
      ⟨_, t, pc, _, hg', ht, _⟩
    refine Server.reads_same s _ hs _ rfl ?_ ?_ rfl
    · rw [hg', ht]
      rfl
    · rw [hg', ht]
      rfl
  rcases server_step f f' a hstep server s' hs' with
    ⟨_, hnew⟩ | hold | ⟨s, hs, hmoves | hnotifies⟩
  · rw [hnew]
    exact ⟨List.prefix_refl _, fun hfailed => absurd hfailed (by simp [Server.spawn])⟩
  · exact h server s' hold
  · have hreads := h server s hs
    cases hmoves with
    | callInitialize rootUri options g hboot hg => exact hbegin s g none server _ hreads hg _
    | bootstrapped c request response hboot hcall hfresh =>
        exact Server.reads_same s _ hreads _ rfl rfl rfl rfl
    | bootstrapFails c error hboot hcall =>
        exact Server.reads_same s _ hreads [] (List.append_nil _).symm rfl rfl rfl
    | call n call id message key runtime g hframe howner hsent hg =>
        exact hbegin s g (some n) call message hreads hg _
    | connect attach n lease handle g g' hframe howner hg hg' =>
        rcases connect_keeps s.sharing g g' n lease.id hg hg' with ⟨_, htransport, _, _⟩
        refine Server.reads_same s _ hreads _ rfl ?_ ?_ rfl
        · change g'.transport.received = s.sharing.transport.received
          rw [htransport]
        · change g'.transport.writer = s.sharing.transport.writer
          rw [htransport]
    | daemonSends c message g howned hmessage hg =>
        rcases Sharing.send_cases s.sharing g none c .session message hg with ⟨_, heq | heq⟩ <;>
          · rw [heq]
            exact Server.reads_same s _ hreads _ rfl rfl rfl rfl
    | act b g hmay hg => exact reads_act s b g hmay hg (ho server s hs) hreads
  · cases hnotifies with
    | notified n call id message key runtime hframe howner hsent hfresh =>
        exact Server.reads_same s _ (h server s hs) _ rfl rfl rfl rfl

end Fleet

end Lspee
