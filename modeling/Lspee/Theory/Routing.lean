import Lspee.Theory.Polling

/-!
# Whose Response a Call Returns

All calls on one runtime see the same broadcast, and each takes the first
message that bears the id of its request. Ids are the clients' own: two clients
choose the same one easily (every `lspee do` uses 1), and the server numbers
its own requests as it likes.

`Routed` says that what a call returns is the response to its own request. The
part of it that does hold is causal: a call subscribes before it queues its
request, so the response to it cannot have been missed, and a response comes
after its request. What is left to chance is whether the first message that
bears the id is that response. A call returns a foreign one exactly when the
reader broadcasts it, or when one has come between the call's subscription and
its request (`routed_iff_along`).

## Main definitions

* `Routed`: Calls return their own responses.
* `OwnIdCond`: The condition on a step.
* `Settled`, `FirstCond`: The same for any choice of what calls may return.

## Theorems

* `settled_keep`, `settled_need`: What the condition does at one step.
* `routed_iff_along`: The condition is exact over whole runs.
* `response_misrouted`: Runs that break it.
-/

namespace Lspee

open Transition Broadcast

namespace Transport

/-- What a call has returned, or its own polls return from here, is the
    server's response to its request, and no message with a method. -/
def Routed (t : Transport) : Prop :=
  ∀ c m, Settles t c (.ok m) → m.caller = some c ∧ m.content.payload.get "method" = none

/-- A message that is broadcast and is the first to bear the id that a waiting
    call expects is the response to that call, unless the call's receiver lags
    because of it. And when a call queues its request, no message broadcast
    since it subscribed bears the id, unless its receiver lags. -/
def OwnIdCond (t : Transport) : TransportAction → Prop
  | .read => ∀ m, t.stdout.head? = some m → ∀ c request rx,
      t.calls.get? c = some ⟨request, .receiving rx⟩ →
      t.outbound.seek (expects request) rx = none →
      ¬(t.outbound.send ⟨m.caller, LspMessage.fromJson m.content⟩).Lags rx →
      expects request ⟨m.caller, LspMessage.fromJson m.content⟩ = true → m.caller = some c
  | .send c => t.writer ≠ .stopped → ∀ request rx,
      t.calls.get? c = some ⟨request, .sending rx⟩ →
      ∀ m, t.outbound.seek (expects request) rx ≠ some (.value m)
  | _ => True

/-- A call that has set out to send has settled on nothing. -/
theorem not_settles_of_setPc (t : Transport) (c : CallId) (request : Json) (pc : CallPc)
    (m : Tagged LspMessage) (hrx : ∀ rx, pc ≠ .receiving rx) (hreturned : pc ≠ .returned (.ok m)) :
    ¬Settles (t.setPc c request pc) c (.ok m) := by
  rw [settles_not_receiving]
  · rintro ⟨request', hget⟩
    rw [setPc_calls, Table.get?_set_self, Option.some.injEq, Call.mk.injEq] at hget
    exact hreturned hget.2
  · intro request' rx hget
    rw [setPc_calls, Table.get?_set_self, Option.some.injEq, Call.mk.injEq] at hget
    exact hrx rx hget.2

/-- What a broadcast adds to what a call settles on. -/
theorem settles_broadcast (t t' : Transport) (c : CallId) (m v : Tagged LspMessage)
    (hown : Owned t) (hown' : Owned t') (hcalls : t'.calls = t.calls)
    (houtbound : t'.outbound = t.outbound.send v) (h : Settles t' c (.ok m)) :
    Settles t c (.ok m) ∨ ∃ request rx, t.calls.get? c = some ⟨request, .receiving rx⟩ ∧
      t.outbound.seek (expects request) rx = none ∧ ¬(t.outbound.send v).Lags rx ∧
      expects request v = true ∧ m = v := by
  by_cases hrx : ∃ request rx, t.calls.get? c = some ⟨request, .receiving rx⟩
  · rcases hrx with ⟨request, rx, hget⟩
    have hget' : t'.calls.get? c = some ⟨request, .receiving rx⟩ := by rw [hcalls, hget]
    have hle : rx.next ≤ t.outbound.sent.length := hown.receiver c _ rx hget rfl
    rw [settles_receiving t' c request rx _ hown' hget', houtbound] at h
    rcases h with ⟨found, hseek, hending⟩
    cases found with
    | lagged => exact absurd hending (by simp [ending])
    | value m' =>
        rw [ending, Except.ok.injEq] at hending
        rw [hending] at hseek
        have hlags : ¬(t.outbound.send v).Lags rx := by
          intro hlag
          rw [Channel.seek_lagged _ _ rx hlag] at hseek
          exact absurd hseek (by simp)
        cases hbefore : t.outbound.seek (expects request) rx with
        | some found₀ =>
            left
            rw [settles_receiving t c request rx _ hown hget]
            refine ⟨found₀, hbefore, ?_⟩
            -- One more message does not change a search that has ended.
            rcases Channel.seek_send_of_some _ _ rx v found₀ hle hbefore with hsame | hlag
            · rw [hseek, Option.some.injEq] at hsame
              rw [← hsame, ending]
            · rw [hseek] at hlag
              exact absurd hlag (by simp)
        | none =>
            right
            rw [Channel.seek_send_of_none _ _ rx v hle hbefore hlags] at hseek
            cases hv : expects request v with
            | true =>
                rw [hv, if_pos rfl, Option.some.injEq, Found.value.injEq] at hseek
                exact ⟨request, rx, hget, hbefore, hlags, hv, hseek.symm⟩
            | false =>
                rw [hv] at hseek
                exact absurd hseek (by simp)
  · left
    have hpc : ∀ request rx, t.calls.get? c ≠ some ⟨request, .receiving rx⟩ :=
      fun request rx hget => hrx ⟨request, rx, hget⟩
    rw [settles_not_receiving t' c _ (by rw [hcalls]; exact hpc), hcalls] at h
    rw [settles_not_receiving t c _ hpc]
    exact h

/-! ### What the condition does -/

/-- What every call returns, or its own polls return from here, is a message it
    may return. -/
def Settled (Q : CallId → Tagged LspMessage → Prop) (t : Transport) : Prop :=
  ∀ c m, Settles t c (.ok m) → Q c m

/-- A step makes no message the first with a waiting call's id that the call may
    not return. -/
def FirstCond (Q : CallId → Tagged LspMessage → Prop) (t : Transport) : TransportAction → Prop
  | .read => ∀ m, t.stdout.head? = some m → ∀ c request rx,
      t.calls.get? c = some ⟨request, .receiving rx⟩ →
      t.outbound.seek (expects request) rx = none →
      ¬(t.outbound.send ⟨m.caller, LspMessage.fromJson m.content⟩).Lags rx →
      expects request ⟨m.caller, LspMessage.fromJson m.content⟩ = true →
      Q c ⟨m.caller, LspMessage.fromJson m.content⟩
  | .send c => t.writer ≠ .stopped → ∀ request rx,
      t.calls.get? c = some ⟨request, .sending rx⟩ →
      ∀ m, t.outbound.seek (expects request) rx = some (.value m) → Q c m
  | _ => True

theorem settled_keep (Q : CallId → Tagged LspMessage → Prop) (t t' : Transport)
    (a : TransportAction) (hown : Owned t) (h : Settled Q t) (hstep : t.step a = some t')
    (hcond : FirstCond Q t a) : Settled Q t' := by
  have hown' := owned_step t t' a hown hstep
  intro c m hsettles
  -- A call that is not the one moved settles on what it did before.
  have hother : t'.calls.get? c = t.calls.get? c → t'.outbound = t.outbound → Q c m := by
    intro hcall houtbound
    exact h c m ((settles_congr t t' c _ hown hown' hcall houtbound).mp hsettles)
  cases step_effect t t' a hstep with
  | traffic _ _ ha htraffic => exact hother (by rw [htraffic.calls]) htraffic.outbound
  | begin d source request hfree =>
      rcases beginCall_cases { t with handles := .call d :: t.handles } d request with
        ⟨pc, hbegin, hpc⟩
      rw [hbegin] at hsettles hother
      by_cases hd : c = d
      · rw [hd] at hsettles
        refine absurd hsettles (not_settles_of_setPc _ d request pc m ?_ ?_)
        · rcases hpc with hpc | hpc <;> simp [hpc]
        · rcases hpc with hpc | hpc <;> simp [hpc]
      · exact hother (by rw [setPc_calls, Table.get?_set_ne _ _ _ _ hd]) rfl
  | unqueued d request rx error hcall hwriter =>
      by_cases hd : c = d
      · rw [hd] at hsettles
        exact absurd hsettles (not_settles_of_setPc t d request _ m (by simp) (by simp))
      · exact hother (by rw [setPc_calls, Table.get?_set_ne _ _ _ _ hd]) rfl
  | queued d request rx hcall hwriter =>
      by_cases hd : c = d
      · rw [hd] at hsettles ⊢
        rw [settles_receiving _ d request rx _ hown'
          (by rw [setPc_calls, Table.get?_set_self])] at hsettles
        rcases hsettles with ⟨found, hseek, hending⟩
        cases found with
        | lagged => exact absurd hending (by simp [ending])
        | value m' =>
            rw [ending, Except.ok.injEq] at hending
            rw [hending] at hseek
            exact hcond hwriter request rx hcall m hseek
      · exact hother (by rw [setPc_calls, Table.get?_set_ne _ _ _ _ hd]) rfl
  | polled d request rx t' hcall hrecv =>
      have hsenders := senders_ne_zero t d _ rx hown hcall rfl
      by_cases hd : c = d
      · rw [hd] at hsettles ⊢
        exact h d m (settles_recv t t' d _ hstep hsettles)
      · rcases recvCall_cases t t' d request rx hsenders hrecv with ⟨pc, ht', _⟩
        rw [ht'] at hother
        exact hother (by rw [setPc_calls, Table.get?_set_ne _ _ _ _ hd]) rfl
  | broadcast caller payload rest hreading hstdout =>
      rcases settles_broadcast t _ c m _ hown hown' rfl rfl hsettles with
        hbefore | ⟨request, rx, hget, hnone, hlags, hv, hm⟩
      · exact h c m hbefore
      · rw [hm]
        exact hcond ⟨caller, payload⟩ (by rw [hstdout]; rfl) c request rx hget hnone hlags hv
  | ended _ ha hreading => exact hother rfl rfl

theorem settled_need (Q : CallId → Tagged LspMessage → Prop) (t t' : Transport)
    (a : TransportAction) (hown : Owned t) (hstep : t.step a = some t') (h : Settled Q t') :
    FirstCond Q t a := by
  have hown' := owned_step t t' a hown hstep
  cases step_effect t t' a hstep with
  | traffic _ _ ha htraffic =>
      cases a with
      | begin _ _ _ | send _ | recv _ | read | readEnd | readError =>
          exact absurd ha (by simp [isTraffic])
      | _ => trivial
  | begin d source request hfree => trivial
  | unqueued d request rx error hcall hwriter => exact fun hne => absurd hwriter hne
  | queued d request rx hcall hwriter =>
      intro _ request' rx' hcall' m hseek
      rw [hcall, Option.some.injEq, Call.mk.injEq, CallPc.sending.injEq] at hcall'
      rw [← hcall'.1, ← hcall'.2] at hseek
      refine h d m ?_
      rw [settles_receiving _ d request rx _ hown' (by rw [setPc_calls, Table.get?_set_self])]
      exact ⟨.value m, hseek, rfl⟩
  | polled d request rx t' hcall hrecv => trivial
  | broadcast caller payload rest hreading hstdout =>
      intro m hm c request rx hget hnone hlags hv
      rw [hstdout, List.head?_cons, Option.some.injEq] at hm
      rw [← hm] at hlags hv ⊢
      refine h c ⟨caller, LspMessage.fromJson payload⟩ ?_
      rw [settles_receiving _ c request rx _ hown' hget]
      refine ⟨.value ⟨caller, LspMessage.fromJson payload⟩, ?_, rfl⟩
      rw [Channel.seek_send_of_none _ _ rx _ (hown.receiver c _ rx hget rfl) hnone hlags,
        if_pos hv]
  | ended _ ha hreading => rcases ha with ha | ha <;> rw [ha] <;> trivial

theorem routed_keep (t t' : Transport) (a : TransportAction) (hown : Owned t)
    (hcaused : Caused t) (h : Routed t) (hstep : t.step a = some t') (hcond : OwnIdCond t a) :
    Routed t' := by
  refine settled_keep _ t t' a hown h hstep ?_
  cases a with
  | read =>
      intro m hm c request rx hget hnone hlags hv
      have hcaller := hcond m hm c request rx hget hnone hlags hv
      -- A message with a caller is a response.
      exact ⟨hcaller, (hcaused.stdout m (List.mem_of_mem_head? hm) c hcaller).2⟩
  | send c =>
      intro hwriter request rx hget m hseek
      exact absurd hseek (hcond hwriter request rx hget m)
  | _ => trivial

theorem routed_need (t t' : Transport) (a : TransportAction) (hown : Owned t)
    (hcaused : Caused t) (hstep : t.step a = some t') (h : Routed t') : OwnIdCond t a := by
  have hfirst := settled_need _ t t' a hown hstep h
  cases a with
  | read =>
      intro m hm c request rx hget hnone hlags hv
      exact (hfirst m hm c request rx hget hnone hlags hv).1
  | send c =>
      intro hwriter request rx hget m hseek
      have hcaller := (hfirst hwriter request rx hget m hseek).1
      -- A message that came before the request is not the response to it.
      rcases (hcaused.sent m (Channel.seek_value _ _ rx m hseek).1 c hcaller).1 with
        ⟨request₀, pc, hqueued, hpc⟩
      rw [hget, Option.some.injEq, Call.mk.injEq] at hqueued
      exact hpc rx hqueued.2.symm
  | _ => trivial

/-- Calls return their own responses in every state of a run if and only if no
    step makes a foreign message the first that bears a waiting call's id. -/
theorem routed_iff_along (as : List TransportAction) :
    Always step Routed spawn as ↔ Along step OwnIdCond spawn as := by
  have hspawn : Routed spawn := by
    intro c m hsettles
    rw [settles_not_receiving spawn c _ (by simp [spawn])] at hsettles
    exact absurd hsettles (by simp [spawn])
  refine always_iff_along (I := fun t => Owned t ∧ Caused t) ?_ ?_ as spawn
    ⟨owned_spawn, caused_spawn⟩ hspawn (along_true as spawn)
  · intro t a t' hI h hstep _ hcond
    exact ⟨⟨owned_step t t' a hI.1 hstep, caused_step t t' a hI.1 hI.2 hstep⟩,
      routed_keep t t' a hI.1 hI.2 h hstep hcond⟩
  · intro t a t' hI _ hstep _ h
    exact routed_need t t' a hI.1 hI.2 hstep h

/-- The request every `lspee do` sends, up to its parameters. -/
def doRequest : Json :=
  .obj [("id", .num 1), ("jsonrpc", .str "2.0"), ("method", .str "textDocument/hover")]

/-- Two clients have sent requests with one id, and the server has answered the
    first. -/
def equalIds : List TransportAction :=
  [.begin 0 .session doRequest, .begin 1 .session doRequest, .send 0, .send 1, .writerTake,
    .writerWrote, .writerTake, .writerWrote,
    .emit (some 0) (.obj [("id", .num 1), ("jsonrpc", .str "2.0"), ("result", .null)]),
    .read, .recv 1]

/-- A client has sent a request, and the server one of its own with that id. -/
def serverRequest : List TransportAction :=
  [.begin 0 .session doRequest, .send 0, .writerTake, .writerWrote,
    .emit none (.obj [("id", .num 1), ("jsonrpc", .str "2.0"),
      ("method", .str "workspace/configuration")]), .read, .recv 0]

theorem equalIds_isSome : (run step spawn equalIds).isSome = true := by
  decide

theorem serverRequest_isSome : (run step spawn serverRequest).isSome = true := by
  decide

/-- Calls do not always return their own responses: the second client returns
    the response to the first, and a client returns the server's request. -/
theorem response_misrouted :
    (¬ ∀ (as : List TransportAction) (t : Transport), run step spawn as = some t →
      ∀ c request m, t.calls.get? c = some ⟨request, .returned (.ok m)⟩ → m.caller = some c) ∧
    ¬ ∀ (as : List TransportAction) (t : Transport), run step spawn as = some t →
      ∀ c request m, t.calls.get? c = some ⟨request, .returned (.ok m)⟩ →
        m.content.payload.get "method" = none := by
  constructor
  · intro hall
    have hcaller := hall equalIds ((run step spawn equalIds).get equalIds_isSome)
      (Option.some_get _).symm 1 doRequest _ rfl
    exact absurd hcaller (by decide)
  · intro hall
    have hmethod := hall serverRequest ((run step spawn serverRequest).get serverRequest_isSome)
      (Option.some_get _).symm 0 doRequest _ rfl
    exact absurd hmethod (by decide)

end Transport

end Lspee
