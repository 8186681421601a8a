import Lspee.Lib.Turns
import Lspee.Theory.Documents

/-!
# Documents Opened by Turns

Whether a server that several runs of `lspee do` share sees each document opened
and closed by turns. Each run opens its file, makes its call, and closes it. The
daemon forwards what it gets and keeps no count, so two runs on one file open it
twice (`opened_twice`), and the first of them to end closes it for the other.

The runs would have to take turns. `TakesTurns` says when they do: a `didOpen` is
queued to a server only while no other run has the document open there, and a
`didClose` only to a server that has the `didOpen` of its run. The second is not
idle. A lease is on a key, and the session under it may have been removed and
spawned again in between. Nor does a run always close what it has opened: where
its session is terminating, its `didClose` is refused, and the document stays open
in the server if the session is kept. Runs that take turns are enough
(`legal_of_takesTurns`), and a `didOpen` out of turn breaks the property in the
step that queues it (`not_legal_of_overlap`).

## Main definitions

* `Server.turns`: What was done to a document, and by whom.
* `Legal`: The property.
* `OpensAlone`, `TakesTurns`: The condition on a step.
* `Kept`: What runs that take turns keep.

## Theorems

* `not_queued_of_opens`, `not_closed_of_opening`: What a run has not sent.
* `inTurn_notified`: A notification that waits for its turn.
* `kept_step`: Runs that take turns.
* `legal_of_takesTurns`: The condition is enough.
* `not_legal_of_overlap`: A `didOpen` out of turn breaks the property.
* `opened_twice`: Two runs on one file.
-/

namespace Lspee

open Transition Turns

/-! ### What was done to a document -/

namespace Server

def turn (s : Server) (uri : String) (m : Tagged Json) : Option (Turn (Option Party)) :=
  if opens uri m.content then some (.take (s.owner m))
  else if closes uri m.content then some (.give (s.owner m))
  else none

/-- What these messages do to the document, and who sent them. -/
def turns (s : Server) (uri : String) (ms : List (Tagged Json)) : List (Turn (Option Party)) :=
  ms.filterMap (s.turn uri)

theorem turn_plain (s : Server) (uri : String) (m : Tagged Json) (h : Plain m.content) :
    s.turn uri m = none := by
  simp only [turn, (h uri).1, (h uri).2, Bool.false_eq_true, if_false]

theorem turn_opens (s : Server) (uri : String) (m : Tagged Json)
    (h : opens uri m.content = true) : s.turn uri m = some (.take (s.owner m)) := if_pos h

theorem turn_closes (s : Server) (uri : String) (m : Tagged Json)
    (h : closes uri m.content = true) : s.turn uri m = some (.give (s.owner m)) := by
  have hnot : opens uri m.content ≠ true := fun hopens => by
    rw [closes_of_opens uri uri _ hopens] at h
    exact absurd h (by simp)
  rw [turn, if_neg hnot, if_pos h]

theorem turns_append (s : Server) (uri : String) (ms ms' : List (Tagged Json)) :
    s.turns uri (ms ++ ms') = s.turns uri ms ++ s.turns uri ms' := List.filterMap_append

theorem turns_plain (s : Server) (uri : String) (ms : List (Tagged Json))
    (h : ∀ m ∈ ms, Plain m.content) : s.turns uri ms = [] :=
  List.filterMap_eq_nil_iff.mpr fun m hm => turn_plain s uri m (h m hm)

/-- Messages that keep their party are the same turns. -/
theorem turns_congr (s s' : Server) (uri : String) (ms : List (Tagged Json))
    (h : ∀ m ∈ ms, s'.owner m = s.owner m) : s'.turns uri ms = s.turns uri ms := by
  refine List.filterMap_congr fun m hm => ?_
  rw [turn, turn, h m hm]

theorem exists_of_take (s : Server) (uri : String) (ms : List (Tagged Json)) (p : Option Party)
    (h : .take p ∈ s.turns uri ms) : ∃ m ∈ ms, opens uri m.content = true ∧ s.owner m = p := by
  rcases List.mem_filterMap.mp h with ⟨m, hm, hturn⟩
  unfold turn at hturn
  split at hturn
  · rename_i hopens
    exact ⟨m, hm, hopens, Turn.take.inj (Option.some.inj hturn)⟩
  · split at hturn
    · exact absurd (Option.some.inj hturn) (by simp)
    · exact absurd hturn (by simp)

theorem exists_of_give (s : Server) (uri : String) (ms : List (Tagged Json)) (p : Option Party)
    (h : .give p ∈ s.turns uri ms) : ∃ m ∈ ms, closes uri m.content = true ∧ s.owner m = p := by
  rcases List.mem_filterMap.mp h with ⟨m, hm, hturn⟩
  unfold turn at hturn
  split at hturn
  · exact absurd (Option.some.inj hturn) (by simp)
  · split at hturn
    · rename_i hcloses
      exact ⟨m, hm, hcloses, Turn.give.inj (Option.some.inj hturn)⟩
    · exact absurd hturn (by simp)

end Server

namespace Desk

/-- Documents are opened and closed by turns, and none is closed under a run that
    has opened it and has not made its call. -/
structure Legal (d : Desk) : Prop where
  queued : ∀ server s, d.fleet.servers.get? server = some s → ∀ uri,
    Alternates (s.turns uri s.queued)
  read : ∀ server s, d.fleet.servers.get? server = some s → ∀ uri,
    Alternates (s.turns uri s.sharing.transport.received.reverse)
  undisturbed : ∀ n run leaseId uri c, d.runs.get? n = some run → run.pc = .opening leaseId uri c →
    ∀ server s, d.fleet.servers.get? server = some s → ∀ before m after,
      s.queued = before ++ m :: after → s.owner m = some (.control n) →
      opens uri m.content = true → ∀ m' ∈ after, closes uri m'.content = false

end Desk

/-- The notification that a step sends, by its connection and its call. -/
def DoAction.notified : DoAction → Option (Nat × CallId)
  | .fleet (.notify n c) => some (n, c)
  | _ => none

namespace Desk

/-- The message of a notification and the server it is about to be queued to. A
    server whose writer task is gone gets nothing. -/
def queues (d : Desk) (c : CallId) : Option (Json × Server) :=
  match d.fleet.world.calls.get? c with
  | some (.forward .notify _ message (.awaiting _ runtime)) =>
    ((d.fleet.serverOf runtime).filter fun s => s.sharing.transport.writer ≠ .stopped).map
      fun s => (message, s)
  | _ => none

/-- No other run has the document open. -/
def OpensAlone (s : Server) (n : Nat) (uri : String) : Prop :=
  ∀ t ∈ s.turns uri s.queued, Held (s.turns uri s.queued) t.owner → t.owner = some (.control n)

/-- Documents are opened while no other run has them open, and closed where the
    run has them open. -/
def TakesTurns (d : Desk) (a : DoAction) : Prop :=
  ∀ p ∈ a.notified, ∀ q ∈ d.queues p.2, ∀ uri ∈ documentUri q.1,
    (opens uri q.1 = true → OpensAlone q.2 p.1 uri) ∧
      (closes uri q.1 = true → Held (q.2.turns uri q.2.queued) (some (.control p.1)))

instance (s : Server) (n : Nat) (uri : String) : Decidable (OpensAlone s n uri) :=
  inferInstanceAs (Decidable (∀ t ∈ _, _))

instance (d : Desk) (a : DoAction) : Decidable (TakesTurns d a) :=
  inferInstanceAs (Decidable (∀ p ∈ _, _))

/-! ### What a run has not sent -/

/-- What runs that take turns keep. -/
structure Kept (d : Desk) : Prop where
  orderly : Fleet.Orderly d.fleet
  sent : ∀ n, Sent (d.runs.get? n) (d.fleet.history n)
  asked : Fleet.Asked d.fleet
  calls : ∀ server s, d.fleet.servers.get? server = some s → Fleet.CallsPlain s
  reads : ∀ server s, d.fleet.servers.get? server = some s → s.Reads
  turns : ∀ server s, d.fleet.servers.get? server = some s → ∀ uri, InTurn (s.turns uri s.queued)

/-- What a server was queued of a connection the connection has sent. -/
theorem exists_of_owner (d : Desk) (h : Kept d) (server : CallId) (s : Server)
    (hs : d.fleet.servers.get? server = some s) (n : Nat) (m : Tagged Json) (hm : m ∈ s.queued)
    (howner : s.owner m = some (.control n)) :
    ∃ r ∈ d.fleet.history n, d.fleet.accepted server s.sharing.transport r = true ∧
      r.message = m.content := by
  have hsent : m.content ∈ s.sharing.sentBy (.control n) s.queued := by
    refine List.mem_map.mpr ⟨m, List.mem_filter.mpr ⟨hm, ?_⟩, rfl⟩
    exact beq_iff_eq.mpr howner
  rw [h.orderly.forwards server s hs n] at hsent
  rcases List.mem_map.mp hsent with ⟨r, hr, hmessage⟩
  rw [List.mem_filter] at hr
  exact ⟨r, hr.1, hr.2, hmessage⟩

/-- A run whose `didOpen` is about to be queued has queued nothing. -/
theorem not_queued_of_opens (d : Desk) (h : Kept d) (server : CallId) (s : Server)
    (hs : d.fleet.servers.get? server = some s) (n : Nat) (c : CallId) (id uri : String)
    (message : Json) (key : SessionKey) (runtime : RuntimeId)
    (hframe : d.fleet.world.calls.get? c =
      some (.forward .notify id message (.awaiting key runtime)))
    (hsent : d.fleet.sent n c = true) (hopens : opens uri message = true) (m : Tagged Json)
    (hm : m ∈ s.queued) : s.owner m ≠ some (.control n) := by
  intro howner
  have hmem := Fleet.mem_history_of_sent d.fleet h.orderly.coherent.tracked.begun n c hsent .notify
    id message _ hframe
  -- It is the first request of the connection, and it is under way.
  have hsingle : d.fleet.history n = [⟨c, message⟩] := by
    cases hhistory : d.fleet.history n with
    | nil =>
        rw [hhistory] at hmem
        exact absurd hmem List.not_mem_nil
    | cons first rest =>
        have hfirst : first = ⟨c, message⟩ := by
          rw [hhistory] at hmem
          rcases List.mem_cons.mp hmem with heq | hrest
          · exact heq.symm
          · have hnot := (h.sent n).opensFirst ⟨c, message⟩ (by rw [hhistory]; exact hrest) uri
            rw [hopens] at hnot
            exact absurd hnot (by simp)
        cases rest with
        | nil => rw [hfirst]
        | cons second rest =>
            have hlate : first ∈ (d.fleet.history n).dropLast := by
              rw [hhistory]
              exact List.mem_cons_self
            have hreturned := h.orderly.coherent.tracked.ordered n first hlate _
              (by rw [hfirst]; exact hframe)
            exact absurd hreturned (by simp [Frame.inFlight])
  rcases exists_of_owner d h server s hs n m hm howner with ⟨r, hr, haccepted, _⟩
  rw [hsingle, List.mem_singleton] at hr
  rw [hr, Fleet.accepted_eq d.fleet server _ ⟨c, message⟩ _ hframe] at haccepted
  exact absurd haccepted (by simp [Frame.accepted])

/-- A run that waits for the answer to its `didOpen` has closed nothing. -/
theorem not_closed_of_opening (d : Desk) (h : Kept d) (server : CallId) (s : Server)
    (hs : d.fleet.servers.get? server = some s) (n : Nat) (run : DoRun) (leaseId uri : String)
    (c : CallId) (hrun : d.runs.get? n = some run) (hpc : run.pc = .opening leaseId uri c)
    (m : Tagged Json) (hm : m ∈ s.queued) (howner : s.owner m = some (.control n)) (uri' : String) :
    closes uri' m.content = false := by
  rcases exists_of_owner d h server s hs n m hm howner with ⟨r, hr, _, hmessage⟩
  have hsent := (h.sent n).pc run hrun
  rw [hpc] at hsent
  rcases hsent with ⟨languageId, text, heq⟩
  rw [heq, List.mem_singleton] at hr
  rw [← hmessage, hr]
  exact closes_didOpen uri uri' languageId text

/-! ### The condition is enough -/

theorem legal_of_kept (d : Desk) (h : Kept d) : Legal d where
  queued := fun server s hs uri => alternates_of_inTurn _ (h.turns server s hs uri)
  read := by
    intro server s hs uri
    rcases (h.reads server s hs).front with ⟨rest, hrest⟩
    have hall := alternates_of_inTurn _ (h.turns server s hs uri)
    rw [← hrest, s.turns_append] at hall
    exact alternates_of_append _ _ hall
  undisturbed := by
    intro n run leaseId uri c hrun hpc server s hs before m after hqueued howner hopens m' hm'
    have hturns := h.turns server s hs uri
    have hm : s.turns uri (m :: after) = .take (some (.control n)) :: s.turns uri after := by
      rw [← howner]
      exact List.filterMap_cons_some (s.turn_opens uri m hopens)
    rw [hqueued, s.turns_append, hm] at hturns
    -- The run itself has not closed it, and nobody else may.
    have hgive : .give (some (.control n)) ∉ s.turns uri after := by
      intro hgive
      rcases s.exists_of_give uri after _ hgive with ⟨m₁, hm₁, hcloses, howner₁⟩
      have hmem : m₁ ∈ s.queued := by
        rw [hqueued]
        exact List.mem_append_right _ (List.mem_cons_of_mem _ hm₁)
      rw [not_closed_of_opening d h server s hs n run leaseId uri c hrun hpc m₁ hmem howner₁ uri]
        at hcloses
      exact absurd hcloses (by simp)
    have hnothing := nothing_after _ _ _ hturns hgive
    refine Bool.not_eq_true _ ▸ fun hcloses => ?_
    have hgiven : .give (s.owner m') ∈ s.turns uri after :=
      List.mem_filterMap.mpr ⟨m', hm', s.turn_closes uri m' hcloses⟩
    rw [hnothing] at hgiven
    exact absurd hgiven List.not_mem_nil

/-- A notification is queued, unless the writer task is gone. -/
theorem notify_queues (f f' : Fleet) (n : Nat) (c : CallId) (id : String) (message : Json)
    (key : SessionKey) (runtime : RuntimeId) (server : CallId) (s : Server)
    (hframe : f.world.calls.get? c = some (.forward .notify id message (.awaiting key runtime)))
    (howner : f.owners.get? runtime = some server) (hs : f.servers.get? server = some s)
    (hstep : f.step (.notify n c) = some f') :
    s.sharing.transport.writer = .stopped ∧ f'.servers = f.servers ∨
      s.sharing.transport.writer ≠ .stopped ∧ f.sent n c = true ∧
        f'.servers.get? server = some (s.after (s.sharing.accept c (.control n) message)) := by
  have hserver : f.serverOf runtime = some s := by
    rw [Fleet.serverOf, howner, Option.bind_some, hs]
  simp only [Fleet.step, hframe, howner, hserver, Option.ite_none_right_eq_some] at hstep
  rcases hstep with ⟨hsent, hsend⟩
  simp only [Fleet.send, Option.ite_none_right_eq_some] at hsend
  rcases hsend with ⟨_, hsend⟩
  cases hqueue : s.sharing.queue c (.control n) message with
  | none => simp only [hqueue, reduceCtorEq] at hsend
  | some result =>
      rcases Sharing.queue_eq s.sharing c _ _ result hqueue with
        ⟨hwriter, hresult⟩ | ⟨hwriter, hresult⟩
      · simp only [hqueue, hresult] at hsend
        rcases Fleet.withWorld_eq_some f f' _ hsend with ⟨w, _, hf'⟩
        exact Or.inl ⟨hwriter, by rw [hf']⟩
      · simp only [hqueue, hresult] at hsend
        rcases Fleet.withWorld_eq_some _ f' _ hsend with ⟨w, _, hf'⟩
        refine Or.inr ⟨hwriter, hsent, ?_⟩
        rw [hf']
        exact Table.get?_set_self _ _ _

/-- What a notification finds, as the condition sees it. -/
theorem queues_eq_some (d : Desk) (c : CallId) (id : String) (message : Json) (key : SessionKey)
    (runtime : RuntimeId) (server : CallId) (s : Server)
    (hframe : d.fleet.world.calls.get? c =
      some (.forward .notify id message (.awaiting key runtime)))
    (howner : d.fleet.owners.get? runtime = some server)
    (hs : d.fleet.servers.get? server = some s) (hwriter : s.sharing.transport.writer ≠ .stopped) :
    d.queues c = some (message, s) := by
  have hserver : d.fleet.serverOf runtime = some s := by
    rw [Fleet.serverOf, howner, Option.bind_some, hs]
  simp only [queues, hframe, hserver, Option.filter, hwriter, ne_eq, not_false_eq_true,
    decide_true, if_true, Option.map_some]

/-- A notification that waits for its turn. -/
theorem inTurn_notified (d : Desk) (h : Kept d) (server : CallId) (s : Server)
    (hs : d.fleet.servers.get? server = some s) (n : Nat) (c : CallId) (id uri : String)
    (message : Json) (key : SessionKey) (runtime : RuntimeId)
    (hframe : d.fleet.world.calls.get? c =
      some (.forward .notify id message (.awaiting key runtime)))
    (hsent : d.fleet.sent n c = true)
    (hopen : opens uri message = true → OpensAlone s n uri)
    (hclose : closes uri message = true →
      Held (s.turns uri s.queued) (some (.control n))) (s' : Server)
    (hkept : s'.turns uri s.queued = s.turns uri s.queued)
    (howner : s'.owner ⟨some c, message⟩ = some (.control n)) :
    InTurn (s'.turns uri (s.queued ++ [⟨some c, message⟩])) := by
  have hturns := h.turns server s hs uri
  rw [s'.turns_append, hkept]
  by_cases hopens : opens uri message = true
  · have hone : s'.turns uri [⟨some c, message⟩] = [.take (some (.control n))] := by
      rw [← howner]
      exact List.filterMap_cons_some (s'.turn_opens uri ⟨some c, message⟩ hopens)
    have hnone := not_queued_of_opens d h server s hs n c id uri message key runtime hframe hsent
      hopens
    rw [hone]
    refine inTurn_take _ _ hturns (fun b hheld => ?_) fun hgive => ?_
    · -- nobody else has it open, and the run itself has not opened it
      have hb : b = some (.control n) := hopen hopens (.take b) hheld.1 hheld
      rcases s.exists_of_take uri _ b hheld.1 with ⟨m, hm, _, hown⟩
      exact hnone m hm (hown.trans hb)
    · rcases s.exists_of_give uri _ _ hgive with ⟨m, hm, _, hown⟩
      exact hnone m hm hown
  · by_cases hcloses : closes uri message = true
    · have hone : s'.turns uri [⟨some c, message⟩] = [.give (some (.control n))] := by
        rw [← howner]
        exact List.filterMap_cons_some (s'.turn_closes uri ⟨some c, message⟩ hcloses)
      rw [hone]
      exact inTurn_give _ _ hturns (hclose hcloses)
    · have hone : s'.turns uri [⟨some c, message⟩] = [] := by
        refine List.filterMap_eq_nil_iff.mpr fun m hm => ?_
        rw [List.mem_singleton.mp hm, Server.turn, if_neg hopens, if_neg hcloses]
      rw [hone, List.append_nil]
      exact hturns

/-- A step of the daemon, with the notifications in turn. -/
theorem inTurn_step (d : Desk) (h : Kept d) (b : FleetAction) (f : Fleet) (hb : b.ofDaemon = true)
    (hf : d.fleet.step b = some f) (hturn : TakesTurns d (.fleet b)) (server : CallId) (s' : Server)
    (hs' : f.servers.get? server = some s') (uri : String) : InTurn (s'.turns uri s'.queued) := by
  rcases Fleet.queued_step d.fleet f b hf hb server s' hs' (fun s hs => h.calls server s hs) with
    hnew | ⟨s, hs, hqueued, hkeeps⟩
  · rw [hnew]
    exact inTurn_nil
  have hsame : s'.turns uri s.queued = s.turns uri s.queued := by
    refine Server.turns_congr s s' uri s.queued fun m hm => ?_
    rcases (h.orderly.ordered server s hs).named m hm with ⟨c, party, hc, hparty⟩
    rw [Server.owner, Server.owner, hc, Option.bind_some, Option.bind_some, hparty,
      hkeeps c party hparty]
  cases hqueued with
  | plain ms hms heq =>
      rw [heq, s'.turns_append, hsame, s'.turns_plain uri ms hms, List.append_nil]
      exact h.turns server s hs uri
  | notified n c id message key runtime ha hframe howner hsent heq hparty =>
      rw [ha] at hf hturn
      have hwriter : s.sharing.transport.writer ≠ .stopped := by
        rcases notify_queues d.fleet f n c id message key runtime server s hframe howner hs hf with
          ⟨_, hservers⟩ | ⟨hwriter, _⟩
        · -- nothing would have been queued
          rw [hservers, hs, Option.some.injEq] at hs'
          rw [← hs'] at heq
          exact absurd (List.self_eq_append_right.mp heq) (by simp)
        · exact hwriter
      have hfound := queues_eq_some d c id message key runtime server s hframe howner hs hwriter
      rw [heq]
      refine inTurn_notified d h server s hs n c id uri message key runtime hframe hsent
        (fun hopens => ?_) (fun hcloses => ?_) s' hsame hparty
      · exact (hturn (n, c) rfl (message, s) hfound uri (uri_of_opens uri message hopens)).1 hopens
      · exact (hturn (n, c) rfl (message, s) hfound uri (uri_of_closes uri message hcloses)).2
          hcloses

theorem kept_init (idleTtl : Duration) : Kept (init idleTtl) where
  orderly := Fleet.orderly_init idleTtl
  sent := by
    intro n
    have hnone : (init idleTtl).fleet.history n = [] := by simp [init, Fleet.history, Fleet.init]
    rw [hnone]
    exact ⟨by simp, by simp, fun _ => rfl, by simp [init], by simp [init]⟩
  asked := by
    intro n r hr
    simp [init, Fleet.history, Fleet.init] at hr
  calls := fun server s hs => by simp [init, Fleet.init] at hs
  reads := fun server s hs => by simp [init, Fleet.init] at hs
  turns := fun server s hs => by simp [init, Fleet.init] at hs

/-- A run that sends leaves the servers alone. -/
theorem servers_sends (d : Desk) (n : Nat) (run : DoRun) (b : FleetAction) (pc : DoPc) (f : Fleet)
    (hsends : Sends d n run b pc) (hf : d.fleet.step b = some f) :
    f.servers = d.fleet.servers := by
  cases hsends <;> cases Fleet.step_effect d.fleet f _ hf with
  | server _ srv s s' hs hmoves => cases hmoves
  | _ => rfl

theorem kept_step (d d' : Desk) (a : DoAction) (h : Kept d) (hstep : d.step a = some d')
    (hturn : TakesTurns d a) : Kept d' := by
  have hrequested := Fleet.requested_of_coherent d.fleet h.orderly.coherent
  have hdoes := does_step d d' a hstep
  have hsent := sent_step d d' a h.sent hdoes
  cases hdoes with
  | fleet b f hb hf =>
      refine ⟨Fleet.orderly_step d.fleet f b h.orderly hf, hsent, ?_, ?_, ?_, ?_⟩
      · exact Fleet.asked_step d.fleet f b hrequested h.asked hf fun n leaseId message c heq =>
          absurd heq (request_ofDaemon b hb n _ leaseId message c)
      · exact Fleet.callsPlain_step d.fleet f b hrequested h.asked hf hb h.calls
      · exact Fleet.reads_step d.fleet f b hf h.orderly.ordered h.reads
      · exact inTurn_step d h b f hb hf hturn
  | sends _ n run b pc f ha hsends hf =>
      have hservers := servers_sends d n run b pc f hsends hf
      refine ⟨Fleet.orderly_step d.fleet f b h.orderly hf, hsent, ?_, ?_, ?_, ?_⟩
      · refine Fleet.asked_step d.fleet f b hrequested h.asked hf fun m leaseId message c heq => ?_
        -- What a run calls for is the request it has built.
        cases hsends with
        | called run _ _ _ hrun hpc =>
            rw [FleetAction.request.injEq] at heq
            rw [← heq.2.2.2.1]
            exact (h.sent n).plain run hrun
        | _ => exact absurd heq (by simp)
      · rw [hservers]
        exact h.calls
      · rw [hservers]
        exact h.reads
      · rw [hservers]
        exact h.turns
  | quits _ n run ha hrun => exact ⟨h.orderly, hsent, h.asked, h.calls, h.reads, h.turns⟩

/-- In every run in which the runs of `lspee do` take turns at each document, every
    document is opened and closed by turns, and none is closed under a run that has
    not made its call. -/
theorem legal_of_takesTurns (idleTtl : Duration) (as : List DoAction)
    (h : Along step TakesTurns (init idleTtl) as) : Always step Legal (init idleTtl) as :=
  always_of_invariant (fun d a d' hd hstep ha => kept_step d d' a hd hstep ha) legal_of_kept as
    (init idleTtl) (kept_init idleTtl) h

/-! ### A document opened out of turn -/

/-- What the condition sees is what a notification finds. -/
theorem exists_of_queues (d : Desk) (c : CallId) (message : Json) (s : Server)
    (h : d.queues c = some (message, s)) :
    ∃ id key runtime server,
      d.fleet.world.calls.get? c = some (.forward .notify id message (.awaiting key runtime)) ∧
      d.fleet.owners.get? runtime = some server ∧ d.fleet.servers.get? server = some s ∧
      s.sharing.transport.writer ≠ .stopped := by
  unfold queues at h
  split at h
  · rename_i id message' key runtime hframe
    rcases Option.map_eq_some_iff.mp h with ⟨s', hfound, heq⟩
    rw [Prod.mk.injEq] at heq
    rw [heq.1] at hframe
    rw [heq.2, Option.filter_eq_some_iff] at hfound
    rcases Fleet.serverOf_eq_some d.fleet runtime s hfound.1 with ⟨server, howner, hs⟩
    exact ⟨id, key, runtime, server, hframe, howner, hs, of_decide_eq_true hfound.2⟩
  · exact absurd h (by simp)

/-- Where the runs have taken turns, the first `didOpen` that is queued while
    another run has the document open breaks the property. -/
theorem not_legal_of_overlap (idleTtl : Duration) (as : List DoAction) (d d' : Desk)
    (hrun : run step (init idleTtl) as = some d) (has : Along step TakesTurns (init idleTtl) as)
    (n : Nat) (c : CallId) (message : Json) (s : Server) (uri : String)
    (hstep : d.step (.fleet (.notify n c)) = some d')
    (hqueues : d.queues c = some (message, s)) (hopens : opens uri message = true)
    (hoverlap : ¬OpensAlone s n uri) : ¬Legal d' := by
  have hkept : Kept d := run_invariant
    (fun d a d' hd hstep ha => kept_step d d' a hd hstep ha) as (init idleTtl) d hrun
    (kept_init idleTtl) has
  rcases exists_of_queues d c message s hqueues with
    ⟨id, key, runtime, server, hframe, howner, hs, hwriter⟩
  simp only [OpensAlone, Classical.not_forall] at hoverlap
  rcases hoverlap with ⟨t, _, hheld, _⟩
  cases does_step d d' _ hstep with
  | fleet b f hb hf =>
      rcases notify_queues d.fleet f n c id message key runtime server s hframe howner hs hf with
        ⟨hstopped, _⟩ | ⟨_, hsent, hs'⟩
      · exact absurd hstopped hwriter
      intro hlegal
      have halternates := hlegal.queued server _ hs' uri
      have hfresh : s.sharing.fresh c = true := by
        simp only [Fleet.step, hframe, howner, Fleet.serverOf, Option.bind_some, hs,
          Option.ite_none_right_eq_some, Fleet.send] at hf
        exact hf.2.1.2
      have hqueued : (s.after (s.sharing.accept c (.control n) message)).queued =
          s.queued ++ [⟨some c, message⟩] :=
        congrArg _ (Sharing.queuedBy_accept s.sharing c (.control n) message)
      have hsame : (s.after (s.sharing.accept c (.control n) message)).turns uri s.queued =
          s.turns uri s.queued := by
        refine Server.turns_congr s _ uri s.queued fun m hm => ?_
        rcases (hkept.orderly.ordered server s hs).named m hm with ⟨c', party, hc, hparty⟩
        rw [Server.owner, Server.owner, hc, Option.bind_some, Option.bind_some, hparty]
        exact requests_set s.sharing c (.control n) hfresh c' party hparty
      have hone : (s.after (s.sharing.accept c (.control n) message)).turns uri
          [⟨some c, message⟩] = [.take (Server.owner _ ⟨some c, message⟩)] :=
        List.filterMap_cons_some (Server.turn_opens _ uri ⟨some c, message⟩ hopens)
      rw [hqueued, Server.turns_append, hsame, hone] at halternates
      exact not_alternates_of_held _ t.owner _ (hkept.turns server s hs uri) hheld halternates
  | sends _ m run b pc f ha hsends hf => exact absurd rfl (ha _)
  | quits _ m run ha hrun' => exact absurd rfl (ha _)

/-! ### Two runs on one file -/

/-- The path of a file. -/
def demoPath : PathBuf := ⟨true, ["project", "main.rs"]⟩

def demoUri : String := "file:///project/main.rs"

def demoHover : DoMethod := .hover ⟨demoPath, 0, 0⟩

/-- A run attaches and sends its `didOpen`, with the calls `c` and `c + 1`. -/
def attachAndOpen (n : Nat) (c : CallId) (spawn : List FleetAction) : List DoAction :=
  [.begin n demoHover (fun _ => .ok demoUri) demoKey c, .fleet (.world (.sect c)),
      .fleet (.world (.sect c)), .fleet (.world (.sect c))] ++
    spawn.map .fleet ++
    [.fleet (.world (.sect c)), .go n (c + 1) (.ok ⟨demoUri, "fn main() \x7b\x7d"⟩),
      .fleet (.world (.sect (c + 1))), .fleet (.world (.sect (c + 1))), .fleet (.notify n (c + 1))]

/-- The spawn closure of a call, with the messages it queues. -/
def spawnServer (c : CallId) : List FleetAction :=
  [.world (.sect c), .spawn c, .callInitialize c none none, .server c (.transport (.send c)),
    .server c (.transport .writerTake), .server c (.transport .writerWrote),
    .server c (.transport (.emit (some c) (.obj [("id", .str "lspee-initialize")]))),
    .server c (.transport .read), .server c (.transport (.recv c)), .bootstrap c (c + 100),
    .bootReturns c, .world (.sect c), .world (.sect c)]

/-- The server reads three messages. -/
def readThree : List DoAction :=
  (List.replicate 3 [.server 0 (.transport .writerTake),
    .server 0 (.transport .writerWrote)]).flatten.map .fleet

/-- Two runs open one file, and the server reads it. -/
def twoRuns : List DoAction :=
  attachAndOpen 1 0 (spawnServer 0) ++ attachAndOpen 2 10 [] ++ readThree

theorem twoRuns_isSome : (run step (init 0) twoRuns).isSome = true := by decide

/-- The server reads the second `didOpen` before any `didClose`. -/
theorem opened_twice :
    ¬ ∀ (as : List DoAction) (d : Desk), run step (init 0) as = some d →
      ∀ server s, d.fleet.servers.get? server = some s → ∀ uri,
        Alternates (s.turns uri s.sharing.transport.received.reverse) := by
  intro hall
  have hread := hall twoRuns ((run step (init 0) twoRuns).get twoRuns_isSome)
    (Option.some_get _).symm 0 _ rfl demoUri
  exact absurd hread (by decide)

/-- A run makes its call, closes the file, and releases its lease. -/
def callAndClose (n : Nat) (c : CallId) : List DoAction :=
  [.fleet (.world (.sect (c + 1))), .go n (c + 2) (.error ""),
    .fleet (.world (.sect (c + 2))), .fleet (.world (.sect (c + 2))), .fleet (.call n (c + 2)),
    .fleet (.server 0 (.transport (.send (c + 2)))), .fleet (.server 0 (.transport .writerTake)),
    .fleet (.server 0 (.transport .writerWrote)), .fleet (.server 0 (.transport .writerTake)),
    .fleet (.server 0 (.transport .writerWrote)), .fleet (.server 0 (.transport .writerTake)),
    .fleet (.server 0 (.transport .writerWrote)),
    .fleet (.server 0 (.transport (.emit (some (c + 2)) (.obj [("id", .num 1)])))),
    .fleet (.server 0 (.transport .read)), .fleet (.server 0 (.transport (.recv (c + 2)))),
    .fleet (.returned (c + 2)), .fleet (.world (.sect (c + 2))), .go n (c + 3) (.error ""),
    .fleet (.world (.sect (c + 3))), .fleet (.world (.sect (c + 3))), .fleet (.notify n (c + 3)),
    .fleet (.world (.sect (c + 3))), .go n (c + 4) (.error "")]

/-- One run after the other. -/
def oneByOne : List DoAction :=
  attachAndOpen 1 0 (spawnServer 0) ++ callAndClose 1 0 ++ attachAndOpen 2 10 []

set_option maxRecDepth 4000 in
theorem takesTurns_oneByOne : Along step TakesTurns (init 0) oneByOne := by decide

theorem legal_oneByOne :
    (run step (init 0) oneByOne).isSome = true ∧ Always step Legal (init 0) oneByOne :=
  ⟨by decide, legal_of_takesTurns 0 oneByOne takesTurns_oneByOne⟩

end Desk

end Lspee
