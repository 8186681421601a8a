import Lspee.Core.Sharing
import Lspee.Theory.Routing

/-!
# Who Receives a Response

A stream's client receives what its stream's tasks deliver. What they have
delivered, or deliver from here on if nobody else moves, is `Receives`. It is
what is written, queued, in the forwarding task's hand, or kept for it by the
broadcast, as far as the tasks on the way still run: nothing else can arrive
(`receives_clean`), and all of it does (`receives_of_owed`). So following a
stream means following these four places, and only a broadcast puts something
new into them.

`Isolated` says that no client receives what another asked for: a response comes
on the stream whose client sent the request, and what a client's call returns is
no response to the request of anybody else. Nothing in the forwarding task looks
at whose response a message is. A response therefore stays with the one who
asked exactly when, at its broadcast, no stream but that one's is forwarding,
and no foreign call takes it for its own (`isolated_iff`).

## Main definitions

* `IsResponse`: A message with an id and no method.
* `Moved`, `Effect`, `Touches`: What a step does.
* `Writes`: And what it writes to a stream's client.
* `Clean`, `Owed`: What is on its way to a stream's client.
* `Receives`: What a stream's own tasks lead to.
* `Answers`, `Returns`: What a stream and a call may receive.
* `Isolated`: Every client receives only its own responses.
* `ForwardedCond`, `IsolatedCond`: The condition on a step.

## Theorems

* `clean_moved`, `clean_broadcast`: What a step does to a stream.
* `owed_progress`: The tasks bring a frame further.
* `receives_clean`, `receives_of_owed`: What a stream receives.
* `isolated_keep`, `isolated_need`: What the condition does at one step.
* `isolated_iff`: The condition is exact over whole runs.
* `response_on_other_stream`: Runs that break it.
-/

namespace Lspee

open Transition Broadcast

/-- A JSON-RPC response. -/
def IsResponse (payload : Json) : Prop :=
  payload.get "id" ≠ none ∧ payload.get "method" = none

instance (payload : Json) : Decidable (IsResponse payload) :=
  inferInstanceAs (Decidable (_ ∧ _))

namespace LeaseStream

/-- Everything on its way to the client, and everything it has received, has the
    property. A message that is still to be put into a frame has it whatever the
    frame. -/
structure Clean (Q : Tagged StreamFrame → Prop) (outbound : Channel (Tagged LspMessage))
    (s : LeaseStream) : Prop where
  delivered : ∀ frame ∈ s.delivered, Q frame
  queue : s.writerTask = .running → ∀ frame ∈ s.queue, Q frame
  inHand : s.writerTask = .running → s.runtimeTask = .running →
    ∀ frame, s.inHand = some frame → Q frame
  kept : s.writerTask = .running → s.runtimeTask = .running →
    ∀ m ∈ outbound.kept s.rx, ∀ s₀ : LeaseStream, Q (s₀.lspOut m)

/-- A step of one of the stream's tasks, or of its connection. -/
inductive Moved (t : Transport) (s : LeaseStream) : LeaseStream → Prop where
  | take (s' : LeaseStream) (h : s.take t.outbound t.senders = some s') : Moved t s s'
  | push (s' : LeaseStream) (h : s.push = some s') : Moved t s s'
  | event (payload : Json) (s' : LeaseStream) (h : s.event payload = some s') : Moved t s s'
  | eventEnds : Moved t s { s with eventTask := .stopped }
  | write (s' : LeaseStream) (h : s.write = some s') : Moved t s s'
  | writerEnds : Moved t s s.writerEnds
  | fail : Moved t s s.fail
  | eof : Moved t s s.eof

/-! ### What the tasks do -/

/-- A turn of the forwarding task skips what was lost, takes the oldest message,
    or finds the channel closed. -/
theorem take_cases (s s' : LeaseStream) (outbound : Channel (Tagged LspMessage)) (senders : Nat)
    (h : s.take outbound senders = some s') :
    s.runtimeTask = .running ∧ s.inHand = none ∧
      (outbound.Lags s.rx ∧ s' = { s with rx := ⟨outbound.sent.length - outbound.capacity⟩ } ∨
        ¬outbound.Lags s.rx ∧ (∃ m rest, outbound.unread s.rx = m :: rest ∧
          s' = { s with
            rx := ⟨s.rx.next + 1⟩
            seq := min (s.seq + 1) (2 ^ 64 - 1)
            inHand := some (s.lspOut m) }) ∨
        (senders = 0 ∧ outbound.kept s.rx = []) ∧ s' = { s with runtimeTask := .stopped }) := by
  unfold take at h
  cases htask : s.runtimeTask with
  | stopped => simp only [htask, reduceCtorEq] at h
  | running =>
      cases hhand : s.inHand with
      | some frame => simp only [htask, hhand, reduceCtorEq] at h
      | none =>
          simp only [htask, hhand] at h
          refine ⟨rfl, rfl, ?_⟩
          -- The three results of `recv` that let the task go on.
          by_cases hlags : outbound.Lags s.rx
          · rw [Channel.recv_lagged _ _ _ hlags] at h
            exact Or.inl ⟨hlags, (Option.some.inj h).symm⟩
          · cases hunread : outbound.unread s.rx with
            | cons m rest =>
                rw [Channel.recv_value _ _ _ m rest hlags hunread] at h
                exact Or.inr (Or.inl ⟨hlags, m, rest, rfl, (Option.some.inj h).symm⟩)
            | nil =>
                by_cases hsenders : senders = 0
                · simp only [Channel.recv, if_neg hlags, hunread, if_pos hsenders] at h
                  have hkept : outbound.kept s.rx = [] := by
                    rw [Channel.kept_of_not_lags _ _ hlags, hunread]
                  exact Or.inr (Or.inr ⟨⟨hsenders, hkept⟩, (Option.some.inj h).symm⟩)
                · rw [Channel.recv_drained _ _ _ hlags hunread hsenders] at h
                  exact absurd h (by simp only [reduceCtorEq, not_false_eq_true])

theorem push_cases (s s' : LeaseStream) (h : s.push = some s') :
    ∃ frame, s.runtimeTask = .running ∧ s.inHand = some frame ∧
      (s.writerTask = .stopped ∧ s' = { s with runtimeTask := .stopped, inHand := none } ∨
        s' = { s with inHand := none, queue := s.queue ++ [frame] }) := by
  unfold push at h
  cases htask : s.runtimeTask with
  | stopped => simp only [htask, reduceCtorEq] at h
  | running =>
      cases hhand : s.inHand with
      | none => simp only [htask, hhand, reduceCtorEq] at h
      | some frame =>
          simp only [htask, hhand] at h
          refine ⟨frame, rfl, rfl, ?_⟩
          by_cases hwriter : s.writerTask = .stopped
          · rw [if_pos hwriter] at h
            exact Or.inl ⟨hwriter, (Option.some.inj h).symm⟩
          · rw [if_neg hwriter, Option.ite_none_right_eq_some, Option.some.injEq] at h
            exact Or.inr h.2.symm

theorem write_cases (s s' : LeaseStream) (h : s.write = some s') :
    ∃ frame rest, s.writerTask = .running ∧ s.queue = frame :: rest ∧
      s' = { s with queue := rest, delivered := s.delivered ++ [frame] } := by
  unfold write at h
  cases hwriter : s.writerTask with
  | stopped => simp only [hwriter, reduceCtorEq] at h
  | running =>
      cases hqueue : s.queue with
      | nil => simp only [hwriter, hqueue, reduceCtorEq] at h
      | cons frame rest =>
          simp only [hwriter, hqueue] at h
          exact ⟨frame, rest, rfl, rfl, (Option.some.inj h).symm⟩

/-! ### What a step does to what is on its way -/

variable (Q : Tagged StreamFrame → Prop)

theorem clean_take (s s' : LeaseStream) (outbound : Channel (Tagged LspMessage)) (senders : Nat)
    (hs : Clean Q outbound s) (h : s.take outbound senders = some s') : Clean Q outbound s' := by
  rcases take_cases s s' outbound senders h with ⟨htask, hhand, hcases⟩
  rcases hcases with ⟨hlags, hs'⟩ | ⟨hlags, m, rest, hunread, hs'⟩ | ⟨_, hs'⟩
  · rw [hs']
    refine ⟨hs.delivered, hs.queue, hs.inHand, fun hwriter hrun m hm => ?_⟩
    rw [Channel.kept_oldest outbound s.rx hlags] at hm
    exact hs.kept hwriter hrun m hm
  · have hkept : outbound.kept s.rx = m :: rest := by
      rw [Channel.kept_of_not_lags _ _ hlags, hunread]
    rw [hs']
    refine ⟨hs.delivered, hs.queue, fun hwriter hrun frame hframe => ?_,
      fun hwriter hrun u hu => hs.kept hwriter hrun u ?_⟩
    · rw [← Option.some.inj hframe]
      exact hs.kept hwriter hrun m (by rw [hkept]; exact List.mem_cons_self) s
    · rw [Channel.kept_of_not_lags _ _ (Channel.not_lags_next _ _ hlags),
        Channel.unread_next _ _ m rest hunread] at hu
      rw [hkept]
      exact List.mem_cons_of_mem _ hu
  · rw [hs']
    exact ⟨hs.delivered, hs.queue, fun _ hrun => absurd hrun (by simp),
      fun _ hrun => absurd hrun (by simp)⟩

theorem clean_push (s s' : LeaseStream) (outbound : Channel (Tagged LspMessage))
    (hs : Clean Q outbound s) (h : s.push = some s') : Clean Q outbound s' := by
  rcases push_cases s s' h with ⟨frame, htask, hhand, ⟨_, hs'⟩ | hs'⟩
  · rw [hs']
    exact ⟨hs.delivered, hs.queue, fun _ hrun => absurd hrun (by simp),
      fun _ hrun => absurd hrun (by simp)⟩
  · rw [hs']
    refine ⟨hs.delivered, fun hwriter g hg => ?_, fun _ _ g hg => absurd hg (by simp), hs.kept⟩
    rcases List.mem_append.mp hg with hg | hg
    · exact hs.queue hwriter g hg
    · rw [List.mem_singleton.mp hg]
      exact hs.inHand hwriter htask frame hhand

theorem clean_write (s s' : LeaseStream) (outbound : Channel (Tagged LspMessage))
    (hs : Clean Q outbound s) (h : s.write = some s') : Clean Q outbound s' := by
  rcases write_cases s s' h with ⟨frame, rest, hwriter, hqueue, hs'⟩
  have hq : ∀ g ∈ frame :: rest, Q g := by
    rw [← hqueue]
    exact hs.queue hwriter
  rw [hs']
  refine ⟨fun g hg => ?_, fun _ g hg => hq g (List.mem_cons_of_mem _ hg), hs.inHand, hs.kept⟩
  rcases List.mem_append.mp hg with hg | hg
  · exact hs.delivered g hg
  · rw [List.mem_singleton.mp hg]
    exact hq frame List.mem_cons_self

/-- A step of a stream brings nothing new but its session's error. -/
theorem clean_moved (t : Transport) (s s' : LeaseStream)
    (herror : ∀ frame, frame.content.frameType = .streamError → Q frame)
    (hs : Clean Q t.outbound s) (h : Moved t s s') : Clean Q t.outbound s' := by
  cases h with
  | take s' h => exact clean_take Q s s' t.outbound t.senders hs h
  | push s' h => exact clean_push Q s s' t.outbound hs h
  | write s' h => exact clean_write Q s s' t.outbound hs h
  | event payload s' h =>
      simp only [event, Option.ite_none_right_eq_some, Option.some.injEq] at h
      rw [← h.2]
      refine ⟨hs.delivered, fun hwriter g hg => ?_, hs.inHand, hs.kept⟩
      rcases List.mem_append.mp hg with hg | hg
      · exact hs.queue hwriter g hg
      · rw [List.mem_singleton.mp hg]
        exact herror _ rfl
  | eventEnds => exact ⟨hs.delivered, hs.queue, hs.inHand, hs.kept⟩
  | writerEnds =>
      exact ⟨hs.delivered, fun hwriter => absurd hwriter (by simp [writerEnds]),
        fun hwriter => absurd hwriter (by simp [writerEnds]),
        fun hwriter => absurd hwriter (by simp [writerEnds])⟩
  | fail => exact ⟨hs.delivered, hs.queue, hs.inHand, hs.kept⟩
  | eof =>
      exact ⟨hs.delivered, hs.queue, fun _ hrun => absurd hrun (by simp [eof]),
        fun _ hrun => absurd hrun (by simp [eof])⟩

/-- A broadcast brings its message, if the tasks on the way run. -/
theorem clean_broadcast (s : LeaseStream) (outbound : Channel (Tagged LspMessage))
    (v : Tagged LspMessage) (hs : Clean Q outbound s)
    (hv : s.writerTask = .running → s.runtimeTask = .running →
      ∀ s₀ : LeaseStream, Q (s₀.lspOut v)) : Clean Q (outbound.send v) s := by
  refine ⟨hs.delivered, hs.queue, hs.inHand, fun hwriter hrun m hm => ?_⟩
  rcases Channel.mem_kept_send outbound v m s.rx hm with hold | hnew
  · exact hs.kept hwriter hrun m hold
  · rw [hnew]
    exact hv hwriter hrun

theorem clean_mono (Q' : Tagged StreamFrame → Prop) (hQ : ∀ frame, Q frame → Q' frame)
    (s : LeaseStream) (outbound : Channel (Tagged LspMessage)) (hs : Clean Q outbound s) :
    Clean Q' outbound s :=
  ⟨fun frame h => hQ _ (hs.delivered frame h), fun hw frame h => hQ _ (hs.queue hw frame h),
    fun hw hr frame h => hQ _ (hs.inHand hw hr frame h),
    fun hw hr m hm s₀ => hQ _ (hs.kept hw hr m hm s₀)⟩

theorem clean_connect (leaseId : String) (outbound : Channel (Tagged LspMessage)) :
    Clean Q outbound (connect leaseId outbound.subscribe) := by
  refine ⟨by simp [connect], by simp [connect], by simp [connect], fun _ _ m hm => ?_⟩
  unfold connect at hm
  simp only at hm
  rw [Channel.kept_of_not_lags _ _ (Channel.not_lags_subscribe outbound),
    Channel.unread_subscribe] at hm
  exact absurd hm List.not_mem_nil

/-- A stream has read no more than was broadcast. -/
theorem rx_moved (t : Transport) (s s' : LeaseStream) (hrx : s.rx.next ≤ t.outbound.sent.length)
    (h : Moved t s s') : s'.rx.next ≤ t.outbound.sent.length := by
  cases h with
  | take s' h =>
      rcases take_cases s s' t.outbound t.senders h with ⟨_, _, hcases⟩
      rcases hcases with ⟨_, hs'⟩ | ⟨_, m, rest, hunread, hs'⟩ | ⟨_, hs'⟩
      · rw [hs']
        exact Nat.sub_le _ _
      · rw [hs']
        exact Channel.next_lt_of_unread _ _ m rest hunread
      · rw [hs']
        exact hrx
  | push s' h =>
      rcases push_cases s s' h with ⟨frame, _, _, ⟨_, hs'⟩ | hs'⟩ <;> rw [hs'] <;> exact hrx
  | write s' h =>
      rcases write_cases s s' h with ⟨frame, rest, _, _, hs'⟩
      rw [hs']
      exact hrx
  | event payload s' h =>
      simp only [event, Option.ite_none_right_eq_some, Option.some.injEq] at h
      rw [← h.2]
      exact hrx
  | eventEnds | writerEnds | fail | eof => exact hrx

/-! ### What the tasks deliver -/

/-- A frame with the property is delivered, or on its way while the tasks on the
    way run. -/
def Owed (p : Tagged StreamFrame → Prop) (outbound : Channel (Tagged LspMessage))
    (s : LeaseStream) : Prop :=
  (∃ frame ∈ s.delivered, p frame) ∨ s.writerTask = .running ∧
    ((∃ frame ∈ s.queue, p frame) ∨ s.runtimeTask = .running ∧
      ((∃ frame, s.inHand = some frame ∧ p frame) ∨
        ∃ m ∈ outbound.kept s.rx, ∀ s₀ : LeaseStream, p (s₀.lspOut m)))

/-- What the tasks still have to do: each message kept is taken, queued and
    written. -/
def weight (outbound : Channel (Tagged LspMessage)) (s : LeaseStream) : Nat :=
  4 * (outbound.kept s.rx).length + (if outbound.Lags s.rx then 1 else 0) +
    (if s.inHand.isSome then 2 else 0) + s.queue.length

/-- As long as there is something for them to do, one of the tasks can do it. -/
theorem task_progress (outbound : Channel (Tagged LspMessage)) (senders : Nat) (s : LeaseStream)
    (hwriter : s.writerTask = .running)
    (htodo : s.queue ≠ [] ∨ s.runtimeTask = .running ∧
      (s.inHand ≠ none ∨ outbound.unread s.rx ≠ [])) :
    ∃ s', (s.write = some s' ∨ s.push = some s' ∨ s.take outbound senders = some s') ∧
      weight outbound s' < weight outbound s := by
  cases hqueue : s.queue with
  | cons frame rest =>
      -- The writer writes the oldest frame.
      refine ⟨{ s with queue := rest, delivered := s.delivered ++ [frame] }, Or.inl ?_, ?_⟩
      · simp only [write, hwriter, hqueue]
      · unfold weight
        simp only [hqueue, List.length_cons]
        omega
  | nil =>
      have hrest := htodo.resolve_left (by rw [hqueue]; simp)
      rcases hrest with ⟨hrun, hrest⟩
      cases hhand : s.inHand with
      | some frame =>
          refine ⟨{ s with inHand := none, queue := s.queue ++ [frame] }, Or.inr (Or.inl ?_), ?_⟩
          · unfold push
            simp [hrun, hhand, hwriter, hqueue, channelCapacity]
          · unfold weight
            simp only [hhand, hqueue, List.nil_append, List.length_singleton, List.length_nil,
              Option.isSome_some, Option.isSome_none, Bool.false_eq_true, if_false, if_true]
            omega
      | none =>
          have hunread := hrest.resolve_left (by rw [hhand]; simp)
          by_cases hlags : outbound.Lags s.rx
          · refine ⟨{ s with rx := ⟨outbound.sent.length - outbound.capacity⟩ },
              Or.inr (Or.inr ?_), ?_⟩
            · simp only [take, hrun, hhand, Channel.recv_lagged _ senders _ hlags]
            · unfold weight
              simp only [Channel.kept_oldest outbound s.rx hlags, if_pos hlags,
                if_neg (Channel.not_lags_oldest outbound)]
              omega
          · have hkept := Channel.kept_of_not_lags outbound s.rx hlags
            cases hcons : outbound.unread s.rx with
            | nil => exact absurd hcons hunread
            | cons v rest =>
                have hnext := Channel.not_lags_next outbound s.rx hlags
                have hkept' : outbound.kept ⟨s.rx.next + 1⟩ = rest := by
                  rw [Channel.kept_of_not_lags _ _ hnext,
                    Channel.unread_next _ _ v rest hcons]
                refine ⟨{ s with
                    rx := ⟨s.rx.next + 1⟩
                    seq := min (s.seq + 1) (2 ^ 64 - 1)
                    inHand := some (s.lspOut v) }, Or.inr (Or.inr ?_), ?_⟩
                · simp only [take, hrun, hhand, Channel.recv_value _ senders _ v rest hlags hcons]
                · unfold weight
                  simp only [hkept', hkept, hcons, hhand, List.length_cons, if_neg hlags,
                    if_neg hnext, Option.isSome_some, Option.isSome_none, Bool.false_eq_true,
                    if_false, if_true]
                  omega

theorem owed_write (p : Tagged StreamFrame → Prop) (outbound : Channel (Tagged LspMessage))
    (s s' : LeaseStream) (howed : Owed p outbound s) (h : s.write = some s') :
    Owed p outbound s' := by
  rcases write_cases s s' h with ⟨frame, rest, hwriter, hqueue, hs'⟩
  rw [hs']
  rcases howed with ⟨g, hg, hp⟩ | ⟨_, ⟨g, hg, hp⟩ | hrest⟩
  · exact Or.inl ⟨g, List.mem_append_left _ hg, hp⟩
  · rw [hqueue] at hg
    rcases List.mem_cons.mp hg with hg | hg
    · refine Or.inl ⟨g, ?_, hp⟩
      rw [hg]
      exact List.mem_append_right _ List.mem_cons_self
    · exact Or.inr ⟨hwriter, Or.inl ⟨g, hg, hp⟩⟩
  · exact Or.inr ⟨hwriter, Or.inr hrest⟩

theorem owed_push (p : Tagged StreamFrame → Prop) (outbound : Channel (Tagged LspMessage))
    (s s' : LeaseStream) (howed : Owed p outbound s) (h : s.push = some s') :
    Owed p outbound s' := by
  rcases push_cases s s' h with ⟨frame, hrun, hhand, ⟨hstopped, hs'⟩ | hs'⟩ <;> rw [hs']
  · rcases howed with hdelivered | ⟨hwriter, _⟩
    · exact Or.inl hdelivered
    · rw [hwriter] at hstopped
      exact absurd hstopped (by simp)
  · rcases howed with hdelivered | ⟨hwriter, ⟨g, hg, hp⟩ | ⟨_, hrest⟩⟩
    · exact Or.inl hdelivered
    · exact Or.inr ⟨hwriter, Or.inl ⟨g, List.mem_append_left _ hg, hp⟩⟩
    · rcases hrest with ⟨g, hg, hp⟩ | hkept
      · rw [hhand, Option.some.injEq] at hg
        rw [← hg] at hp
        exact Or.inr ⟨hwriter, Or.inl ⟨frame, List.mem_append_right _ List.mem_cons_self, hp⟩⟩
      · exact Or.inr ⟨hwriter, Or.inr ⟨hrun, Or.inr hkept⟩⟩

theorem owed_take (p : Tagged StreamFrame → Prop) (outbound : Channel (Tagged LspMessage))
    (senders : Nat) (s s' : LeaseStream) (howed : Owed p outbound s)
    (h : s.take outbound senders = some s') : Owed p outbound s' := by
  rcases take_cases s s' outbound senders h with ⟨hrun, hhand, hcases⟩
  rcases howed with hdelivered | ⟨hwriter, hqueue | ⟨_, hrest⟩⟩
  · rcases hcases with ⟨_, hs'⟩ | ⟨_, m, rest, _, hs'⟩ | ⟨_, hs'⟩ <;> rw [hs'] <;>
      exact Or.inl hdelivered
  · rcases hcases with ⟨_, hs'⟩ | ⟨_, m, rest, _, hs'⟩ | ⟨_, hs'⟩ <;> rw [hs'] <;>
      exact Or.inr ⟨hwriter, Or.inl hqueue⟩
  rcases hrest.resolve_left (by rw [hhand]; simp) with ⟨m, hm, hp⟩
  rcases hcases with ⟨hlags, hs'⟩ | ⟨hlags, v, rest, hunread, hs'⟩ | ⟨⟨_, hkept⟩, _⟩
  · rw [hs']
    refine Or.inr ⟨hwriter, Or.inr ⟨hrun, Or.inr ⟨m, ?_, hp⟩⟩⟩
    rw [Channel.kept_oldest outbound s.rx hlags]
    exact hm
  · rw [hs']
    refine Or.inr ⟨hwriter, Or.inr ⟨hrun, ?_⟩⟩
    rw [Channel.kept_of_not_lags outbound s.rx hlags, hunread] at hm
    rcases List.mem_cons.mp hm with hm | hm
    · exact Or.inl ⟨_, rfl, by rw [← hm]; exact hp s⟩
    · refine Or.inr ⟨m, ?_, hp⟩
      rw [Channel.kept_of_not_lags _ _ (Channel.not_lags_next outbound s.rx hlags),
        Channel.unread_next _ _ v rest hunread]
      exact hm
  · rw [hkept] at hm
    exact absurd hm List.not_mem_nil

/-- While a frame is on its way, one of the tasks can bring it further. -/
theorem owed_progress (p : Tagged StreamFrame → Prop) (outbound : Channel (Tagged LspMessage))
    (senders : Nat) (s : LeaseStream) (h : Owed p outbound s) :
    (∃ frame ∈ s.delivered, p frame) ∨
      ∃ s', (s.write = some s' ∨ s.push = some s' ∨ s.take outbound senders = some s') ∧
        Owed p outbound s' ∧ weight outbound s' < weight outbound s := by
  have hkeep : ∀ s', (s.write = some s' ∨ s.push = some s' ∨ s.take outbound senders = some s') →
      Owed p outbound s' := by
    rintro s' (hmove | hmove | hmove)
    · exact owed_write p outbound s s' h hmove
    · exact owed_push p outbound s s' h hmove
    · exact owed_take p outbound senders s s' h hmove
  rcases h with hdelivered | ⟨hwriter, howed⟩
  · exact Or.inl hdelivered
  right
  have htodo : s.queue ≠ [] ∨ s.runtimeTask = .running ∧
      (s.inHand ≠ none ∨ outbound.unread s.rx ≠ []) := by
    rcases howed with ⟨g, hg, _⟩ | ⟨hrun, ⟨g, hg, _⟩ | ⟨m, hm, _⟩⟩
    · exact Or.inl (List.ne_nil_of_mem hg)
    · exact Or.inr ⟨hrun, Or.inl (by rw [hg]; simp)⟩
    · -- what is kept has not been read
      have hunread : m ∈ outbound.unread s.rx :=
        (List.drop_sublist_drop_left outbound.sent (Nat.le_max_left _ _)).subset hm
      exact Or.inr ⟨hrun, Or.inr (List.ne_nil_of_mem hunread)⟩
  rcases task_progress outbound senders s hwriter htodo with ⟨s', hmove, hless⟩
  exact ⟨s', hmove, hkeep s' hmove, hless⟩


end LeaseStream

namespace Sharing

/-- The action is one of the tasks between the broadcast and a stream's
    client. -/
def OfTasks (n : Nat) : SharingAction → Prop
  | .take k => k = n
  | .push k => k = n
  | .write k => k = n
  | _ => False

/-- A frame that has been written to a stream's client, or is if from here on
    only the tasks of that stream move. -/
def Receives (h : Sharing) (n : Nat) (frame : Tagged StreamFrame) : Prop :=
  ∃ as t s, (∀ a ∈ as, OfTasks n a) ∧ run step h as = some t ∧ t.streams.get? n = some s ∧
    frame ∈ s.delivered

theorem move_eq_some (h h' : Sharing) (n : Nat) (f : LeaseStream → Option LeaseStream)
    (hmove : h.move n f = some h') :
    ∃ s s', h.streams.get? n = some s ∧ f s = some s' ∧
      h' = { h with streams := h.streams.set n s' } := by
  unfold move at hmove
  cases hs : h.streams.get? n with
  | none => simp only [hs, reduceCtorEq] at hmove
  | some s =>
      simp only [hs, Option.map_eq_some_iff] at hmove
      rcases hmove with ⟨s', hf, heq⟩
      exact ⟨s, s', rfl, hf, heq.symm⟩

/-- A step of a stream's own tasks moves that stream. -/
theorem ofTasks_step (h h' : Sharing) (n : Nat) (a : SharingAction) (ha : OfTasks n a)
    (hstep : h.step a = some h') :
    ∃ s s', h.streams.get? n = some s ∧ LeaseStream.Moved h.transport s s' ∧
      h' = { h with streams := h.streams.set n s' } := by
  cases a with
  | take k | push k | write k =>
      rw [OfTasks] at ha
      rw [ha] at hstep
      rcases move_eq_some h h' n _ hstep with ⟨s, s', hs, hf, heq⟩
      refine ⟨s, s', hs, ?_, heq⟩
      first
      | exact .take s' hf
      | exact .push s' hf
      | exact .write s' hf
  | _ => exact absurd ha (by simp [OfTasks])

/-- What a stream receives has every property of what is on its way. -/
theorem receives_clean (Q : Tagged StreamFrame → Prop)
    (herror : ∀ frame, frame.content.frameType = .streamError → Q frame) (h : Sharing) (n : Nat)
    (hclean : ∀ s, h.streams.get? n = some s → s.Clean Q h.transport.outbound)
    (frame : Tagged StreamFrame) (hreceives : h.Receives n frame) : Q frame := by
  rcases hreceives with ⟨as, t, s, htasks, hrun, hs, hmem⟩
  induction as generalizing h with
  | nil =>
      rw [run, Option.some.injEq] at hrun
      rw [← hrun] at hs
      exact (hclean s hs).delivered frame hmem
  | cons a as ih =>
      rcases exists_of_run_cons a as h t hrun with ⟨h', hstep, hrest⟩
      rcases ofTasks_step h h' n a (htasks a List.mem_cons_self) hstep with
        ⟨s₀, s₁, hs₀, hmoved, heq⟩
      refine ih h' ?_ (fun b hb => htasks b (List.mem_cons_of_mem _ hb)) hrest
      intro u hu
      rw [heq, Table.get?_set_self, Option.some.injEq] at hu
      rw [heq, ← hu]
      exact LeaseStream.clean_moved Q h.transport s₀ s₁ herror (hclean s₀ hs₀) hmoved

/-- What a stream's tasks still have to do. -/
def taskWeight (n : Nat) (h : Sharing) : Nat :=
  match h.streams.get? n with
  | none => 0
  | some s => s.weight h.transport.outbound

/-- What is on its way to a stream's client. -/
def OwedTo (n : Nat) (p : Tagged StreamFrame → Prop) (h : Sharing) : Prop :=
  ∃ s, h.streams.get? n = some s ∧ s.Owed p h.transport.outbound

/-- As long as a frame is on its way, a task of the stream brings it further. -/
theorem owedTo_progress (n : Nat) (p : Tagged StreamFrame → Prop) (h : Sharing)
    (howed : h.OwedTo n p) :
    (∃ s, h.streams.get? n = some s ∧ ∃ frame ∈ s.delivered, p frame) ∨
      ∃ a h', OfTasks n a ∧ h.step a = some h' ∧ h'.OwedTo n p ∧
        taskWeight n h' < taskWeight n h := by
  rcases howed with ⟨s, hs, howed⟩
  rcases LeaseStream.owed_progress p h.transport.outbound h.transport.senders s howed with
    hdelivered | ⟨s', hmove, howed', hless⟩
  · exact Or.inl ⟨s, hs, hdelivered⟩
  right
  have hnext : ∃ a, OfTasks n a ∧ h.step a = some { h with streams := h.streams.set n s' } := by
    rcases hmove with hmove | hmove | hmove
    · exact ⟨.write n, rfl, by simp only [step, move, hs, hmove, Option.map_some]⟩
    · exact ⟨.push n, rfl, by simp only [step, move, hs, hmove, Option.map_some]⟩
    · exact ⟨.take n, rfl, by simp only [step, move, hs, hmove, Option.map_some]⟩
  rcases hnext with ⟨a, ha, hstep⟩
  refine ⟨a, _, ha, hstep, ⟨s', Table.get?_set_self _ _ _, howed'⟩, ?_⟩
  simp only [taskWeight, hs, Table.get?_set_self]
  exact hless

/-- What is on its way arrives. -/
theorem receives_of_owed (p : Tagged StreamFrame → Prop) (n : Nat) (h : Sharing)
    (howed : h.OwedTo n p) : ∃ frame, p frame ∧ h.Receives n frame := by
  rcases exists_run_of_progress (taskWeight n) (owedTo_progress n p) h howed with
    ⟨as, t, htasks, hrun, s, hs, frame, hframe, hp⟩
  exact ⟨frame, hp, as, t, s, htasks, hrun, hs, hframe⟩

/-! ### What a step does -/

inductive Effect (h : Sharing) : SharingAction → Sharing → Prop where
  | transport (a : TransportAction) (t : Transport) (ht : h.transport.step a = some t) :
      Effect h (.transport a) { h with transport := t }
  | begin (client : Option Nat) (call : CallId) (source : Owner) (request : Json) (t : Transport)
      (hfresh : h.fresh call = true)
      (ht : h.transport.step (.begin call source request) = some t) :
      Effect h (.begin client call source request)
        { h with transport := t, requests := h.requests.set call (caller client) }
  | connect (n : Nat) (leaseId : String) (hfree : h.streams.get? n = none) :
      Effect h (.connect n leaseId) { h with
        streams := h.streams.set n (.connect leaseId h.transport.outbound.subscribe) }
  | request (a : SharingAction) (call : CallId) (party : Party) (message : Json)
      (ha : ∀ b, a ≠ .transport b) (hfresh : h.fresh call = true) :
      Effect h a { h with
        transport := { h.transport with
          inbound := h.transport.inbound ++ [⟨some call, message⟩] }
        requests := h.requests.set call party }
  | ignored (a : SharingAction) (ha : ∀ b, a ≠ .transport b) : Effect h a h
  | moved (a : SharingAction) (n : Nat) (s s' : LeaseStream) (ha : ∀ b, a ≠ .transport b)
      (hs : h.streams.get? n = some s) (hmoved : LeaseStream.Moved h.transport s s') :
      Effect h a { h with streams := h.streams.set n s' }

theorem fresh_iff (h : Sharing) (call : CallId) :
    h.fresh call = true ↔
      h.requests.get? call = none ∧ h.transport.calls.get? call = none := by
  simp only [fresh, Bool.and_eq_true, Option.isNone_iff_eq_none]

/-- Sending fails, or puts the message into the queue. -/
theorem queue_cases (h : Sharing) (call : CallId) (party : Party) (message : Json)
    (result : Except String Sharing) (hqueue : h.queue call party message = some result) :
    (∃ error, result = .error error) ∨ result = .ok { h with
      transport := { h.transport with inbound := h.transport.inbound ++ [⟨some call, message⟩] }
      requests := h.requests.set call party } := by
  unfold queue Transport.sendInbound at hqueue
  by_cases hwriter : h.transport.writer = .stopped
  · simp only [if_pos hwriter, Option.some.injEq] at hqueue
    exact Or.inl ⟨_, hqueue.symm⟩
  · by_cases hroom : h.transport.inbound.length < channelCapacity
    · simp only [if_neg hwriter, if_pos hroom, Option.some.injEq] at hqueue
      exact Or.inr hqueue.symm
    · simp only [if_neg hwriter, if_neg hroom, reduceCtorEq] at hqueue

theorem handleFrame_effect (h h' : Sharing) (n : Nat) (s : LeaseStream) (frame : StreamFrame)
    (call : CallId) (hs : h.streams.get? n = some s) (hfresh : h.fresh call = true)
    (hstep : h.handleFrame n s frame call = some h') : Effect h (.frame n frame call) h' := by
  unfold handleFrame at hstep
  by_cases hlease : frame.leaseId ≠ s.leaseId
  · rw [if_pos hlease, Option.some.injEq] at hstep
    rw [← hstep]
    exact .ignored _ (by simp)
  · rw [if_neg hlease] at hstep
    cases htype : frame.frameType with
    | lspIn =>
        simp only [htype] at hstep
        cases hqueue : h.queue call (.stream n) frame.payload with
        | none => simp only [hqueue, reduceCtorEq] at hstep
        | some result =>
            rcases queue_cases h call _ _ result hqueue with ⟨error, herror⟩ | hok
            · simp only [hqueue, herror, Option.some.injEq] at hstep
              rw [← hstep]
              exact .moved _ n s s.fail (by simp) hs .fail
            · simp only [hqueue, hok, Option.some.injEq] at hstep
              rw [← hstep]
              exact .request _ call _ _ (by simp) hfresh
    | lspOut | streamError =>
        simp only [htype, Option.some.injEq] at hstep
        rw [← hstep]
        exact .ignored _ (by simp)

/-- The actions of a stream's tasks, and the ends of its connection. -/
def OfStream : SharingAction → Prop
  | .transport _ | .begin _ _ _ _ | .send _ _ _ _ | .connect _ _ | .frame _ _ _ => False
  | _ => True

/-- Such an action moves one stream. -/
theorem stream_moved (h h' : Sharing) (a : SharingAction) (ha : OfStream a)
    (hstep : h.step a = some h') :
    ∃ n s s', h.streams.get? n = some s ∧ LeaseStream.Moved h.transport s s' ∧
      h' = { h with streams := h.streams.set n s' } := by
  cases a with
  | transport b | begin client call source request | send client call owner message
  | connect n leaseId | frame n frame call => exact ha.elim
  | lineFails n | eof n =>
      rcases move_eq_some h h' n _ hstep with ⟨s, s', hs, hf, heq⟩
      rw [Option.ite_none_right_eq_some, Option.some.injEq] at hf
      refine ⟨n, s, s', hs, ?_, heq⟩
      rw [← hf.2]
      first
      | exact .fail
      | exact .eof
  | take n =>
      rcases move_eq_some h h' n _ hstep with ⟨s, s', hs, hf, heq⟩
      exact ⟨n, s, s', hs, .take s' hf, heq⟩
  | push n =>
      rcases move_eq_some h h' n _ hstep with ⟨s, s', hs, hf, heq⟩
      exact ⟨n, s, s', hs, .push s' hf, heq⟩
  | event n payload =>
      rcases move_eq_some h h' n _ hstep with ⟨s, s', hs, hf, heq⟩
      exact ⟨n, s, s', hs, .event payload s' hf, heq⟩
  | eventEnds n =>
      rcases move_eq_some h h' n _ hstep with ⟨s, s', hs, hf, heq⟩
      refine ⟨n, s, s', hs, ?_, heq⟩
      rw [← Option.some.inj hf]
      exact .eventEnds
  | write n =>
      rcases move_eq_some h h' n _ hstep with ⟨s, s', hs, hf, heq⟩
      exact ⟨n, s, s', hs, .write s' hf, heq⟩
  | writeFails n =>
      rcases move_eq_some h h' n _ hstep with ⟨s, s', hs, hf, heq⟩
      refine ⟨n, s, s', hs, ?_, heq⟩
      rw [← Option.some.inj hf]
      exact .writerEnds
  | writerDrained n =>
      rcases move_eq_some h h' n _ hstep with ⟨s, s', hs, hf, heq⟩
      rw [LeaseStream.drained, Option.ite_none_right_eq_some, Option.some.injEq] at hf
      refine ⟨n, s, s', hs, ?_, heq⟩
      rw [← hf.2]
      exact .writerEnds

theorem step_effect (h h' : Sharing) (a : SharingAction) (hstep : h.step a = some h') :
    Effect h a h' := by
  cases a with
  | transport a =>
      simp only [step, Option.ite_none_right_eq_some, Option.map_eq_some_iff] at hstep
      rcases hstep with ⟨_, t, ht, heq⟩
      rw [← heq]
      exact .transport a t ht
  | begin client call source request =>
      simp only [step, Option.ite_none_right_eq_some, Option.map_eq_some_iff] at hstep
      rcases hstep with ⟨hfresh, t, ht, heq⟩
      rw [← heq]
      exact .begin client call source request t hfresh ht
  | send client call owner message =>
      simp only [step, Option.ite_none_right_eq_some] at hstep
      cases hqueue : h.queue call (caller client) message with
      | none => simp only [hqueue, reduceCtorEq, and_false] at hstep
      | some result =>
          -- With the writer task gone the caller has an error, and nothing is queued.
          rcases queue_cases h call _ _ result hqueue with ⟨error, herror⟩ | hok
          · simp only [hqueue, herror, Option.some.injEq] at hstep
            rw [← hstep.2]
            exact .ignored _ (by simp)
          · simp only [hqueue, hok, Option.some.injEq] at hstep
            rw [← hstep.2]
            exact .request _ call _ _ (by simp) hstep.1.2
  | connect n leaseId =>
      simp only [step, Option.ite_none_right_eq_some, Option.some.injEq] at hstep
      rw [← hstep.2]
      exact .connect n leaseId hstep.1.2
  | frame n frame call =>
      simp only [step] at hstep
      cases hs : h.streams.get? n with
      | none => simp only [hs, reduceCtorEq] at hstep
      | some s =>
          simp only [hs, Option.ite_none_right_eq_some] at hstep
          exact handleFrame_effect h h' n s frame call hs hstep.1.2 hstep.2
  | _ =>
      rcases stream_moved h h' _ (by exact trivial) hstep with ⟨n, s, s', hs, hmoved, heq⟩
      rw [heq]
      exact .moved _ n s s' (by simp) hs hmoved

/-- What an action does to the stream it is about. -/
inductive Acted (t : Transport) (n : Nat) (s : LeaseStream) : SharingAction → LeaseStream → Prop
    where
  | take (s' : LeaseStream) (h : s.take t.outbound t.senders = some s') : Acted t n s (.take n) s'
  | push (s' : LeaseStream) (h : s.push = some s') : Acted t n s (.push n) s'
  | event (payload : Json) (s' : LeaseStream) (h : s.event payload = some s') :
      Acted t n s (.event n payload) s'
  | eventEnds : Acted t n s (.eventEnds n) { s with eventTask := .stopped }
  | write (s' : LeaseStream) (h : s.write = some s') : Acted t n s (.write n) s'
  | writeFails : Acted t n s (.writeFails n) s.writerEnds
  | writerDrained (hrun : s.runtimeTask = .stopped) : Acted t n s (.writerDrained n) s.writerEnds
  | fail (a : SharingAction) : Acted t n s a s.fail
  | eof : Acted t n s (.eof n) s.eof

/-- A step leaves a stream as it is, or is about it, or connects its client. -/
def Touches (h : Sharing) (a : SharingAction) (n : Nat) (h' : Sharing) : Prop :=
  h'.streams.get? n = h.streams.get? n ∨
    (∃ s s', h.streams.get? n = some s ∧ h'.streams.get? n = some s' ∧
      Acted h.transport n s a s') ∨
    ∃ leaseId, a = .connect n leaseId ∧ h.streams.get? n = none ∧
      h'.streams.get? n = some (.connect leaseId h.transport.outbound.subscribe)

theorem touches_move (h h' : Sharing) (a : SharingAction) (k : Nat)
    (f : LeaseStream → Option LeaseStream) (hstep : h.move k f = some h')
    (hf : ∀ s s', f s = some s' → Acted h.transport k s a s') (n : Nat) : h.Touches a n h' := by
  rcases move_eq_some h h' k f hstep with ⟨s, s', hs, hs', heq⟩
  rw [heq]
  by_cases hn : n = k
  · rw [hn]
    exact Or.inr (Or.inl ⟨s, s', hs, Table.get?_set_self _ _ _, hf s s' hs'⟩)
  · exact Or.inl (Table.get?_set_ne _ _ _ _ hn)

theorem touches_frame (h h' : Sharing) (a : SharingAction) (k : Nat) (s : LeaseStream)
    (frame : StreamFrame) (call : CallId) (hs : h.streams.get? k = some s)
    (hstep : h.handleFrame k s frame call = some h') (n : Nat) : h.Touches a n h' := by
  unfold handleFrame at hstep
  by_cases hlease : frame.leaseId ≠ s.leaseId
  · rw [if_pos hlease, Option.some.injEq] at hstep
    exact Or.inl (by rw [hstep])
  rw [if_neg hlease] at hstep
  cases htype : frame.frameType with
  -- Frames of these types are not for the daemon.
  | lspOut | streamError =>
      simp only [htype, Option.some.injEq] at hstep
      exact Or.inl (by rw [hstep])
  | lspIn =>
      simp only [htype] at hstep
      cases hqueue : h.queue call (.stream k) frame.payload with
      | none => simp only [hqueue, reduceCtorEq] at hstep
      | some result =>
          rcases queue_cases h call _ _ result hqueue with ⟨error, herror⟩ | hok
          · -- the connection fails, and leaves its tasks behind
            simp only [hqueue, herror, Option.some.injEq] at hstep
            rw [← hstep]
            by_cases hn : n = k
            · rw [hn]
              exact Or.inr (Or.inl ⟨s, s.fail, hs, Table.get?_set_self _ _ _, .fail a⟩)
            · exact Or.inl (Table.get?_set_ne _ _ _ _ hn)
          · simp only [hqueue, hok, Option.some.injEq] at hstep
            exact Or.inl (by rw [← hstep])

theorem touches_step (h h' : Sharing) (a : SharingAction) (hstep : h.step a = some h')
    (n : Nat) : h.Touches a n h' := by
  cases a with
  | transport a =>
      simp only [step, Option.ite_none_right_eq_some, Option.map_eq_some_iff] at hstep
      rcases hstep with ⟨_, t, _, heq⟩
      exact Or.inl (by rw [← heq])
  | begin client call source request =>
      simp only [step, Option.ite_none_right_eq_some, Option.map_eq_some_iff] at hstep
      rcases hstep with ⟨_, t, _, heq⟩
      exact Or.inl (by rw [← heq])
  | send client call owner message =>
      simp only [step, Option.ite_none_right_eq_some] at hstep
      cases hqueue : h.queue call (caller client) message with
      | none => simp only [hqueue, reduceCtorEq, and_false] at hstep
      | some result =>
          rcases queue_cases h call _ _ result hqueue with ⟨error, herror⟩ | hok
          · simp only [hqueue, herror, Option.some.injEq] at hstep
            exact Or.inl (by rw [hstep.2])
          · simp only [hqueue, hok, Option.some.injEq] at hstep
            exact Or.inl (by rw [← hstep.2])
  | connect k leaseId =>
      simp only [step, Option.ite_none_right_eq_some, Option.some.injEq] at hstep
      rw [← hstep.2]
      -- Only the stream that connects is new.
      by_cases hn : n = k
      · rw [hn]
        exact Or.inr (Or.inr ⟨leaseId, rfl, hstep.1.2, Table.get?_set_self _ _ _⟩)
      · exact Or.inl (Table.get?_set_ne _ _ _ _ hn)
  | frame k frame call =>
      simp only [step] at hstep
      cases hs : h.streams.get? k with
      | none => simp only [hs, reduceCtorEq] at hstep
      | some s =>
          simp only [hs, Option.ite_none_right_eq_some] at hstep
          exact touches_frame h h' _ k s frame call hs hstep.2 n
  | lineFails k =>
      refine touches_move h h' _ k _ hstep (fun s s' hs' => ?_) n
      rw [Option.ite_none_right_eq_some, Option.some.injEq] at hs'
      rw [← hs'.2]
      exact .fail _
  | eof k =>
      refine touches_move h h' _ k _ hstep (fun s s' hs' => ?_) n
      rw [Option.ite_none_right_eq_some, Option.some.injEq] at hs'
      rw [← hs'.2]
      exact .eof
  | take k => exact touches_move h h' _ k _ hstep (fun s s' hs' => .take s' hs') n
  | push k => exact touches_move h h' _ k _ hstep (fun s s' hs' => .push s' hs') n
  | event k payload => exact touches_move h h' _ k _ hstep (fun s s' hs' => .event _ s' hs') n
  | eventEnds k =>
      refine touches_move h h' _ k _ hstep (fun s s' hs' => ?_) n
      rw [← Option.some.inj hs']
      exact .eventEnds
  | write k => exact touches_move h h' _ k _ hstep (fun s s' hs' => .write s' hs') n
  | writeFails k =>
      refine touches_move h h' _ k _ hstep (fun s s' hs' => ?_) n
      rw [← Option.some.inj hs']
      exact .writeFails
  | writerDrained k =>
      refine touches_move h h' _ k _ hstep (fun s s' hs' => ?_) n
      rw [LeaseStream.drained, Option.ite_none_right_eq_some, Option.some.injEq] at hs'
      rw [← hs'.2]
      exact .writerDrained hs'.1.2.1

end Sharing

namespace LeaseStream

/-- What the writer task has written is what it had, and the frame it writes. -/
def Writes (n : Nat) (a : SharingAction) (u u' : LeaseStream) : Prop :=
  u'.delivered = u.delivered ∨ a = .write n ∧ ∃ frame rest, u.queue = frame :: rest ∧
    u'.delivered = u.delivered ++ [frame]

theorem writes_acted (t : Transport) (n : Nat) (u u' : LeaseStream) (a : SharingAction)
    (hacted : Sharing.Acted t n u a u') : Writes n a u u' := by
  cases hacted with
  | take _ htake =>
      rcases (take_cases u u' _ _ htake).2.2 with ⟨_, hu'⟩ | ⟨_, _, _, _, hu'⟩ | ⟨_, hu'⟩ <;>
        exact .inl (by rw [hu'])
  | push _ hpush =>
      rcases push_cases u u' hpush with ⟨_, _, _, ⟨_, hu'⟩ | hu'⟩ <;> exact .inl (by rw [hu'])
  | event payload _ hevent =>
      simp only [event, Option.ite_none_right_eq_some, Option.some.injEq] at hevent
      exact .inl (by rw [← hevent.2])
  | write _ hwrite =>
      rcases write_cases u u' hwrite with ⟨frame, rest, _, hqueue, hu'⟩
      exact .inr ⟨rfl, frame, rest, hqueue, by rw [hu']⟩
  | _ => exact .inl rfl

/-- The stream of a server's users after one of their steps. -/
theorem writes_act (n : Nat) (h h' : Sharing) (a : SharingAction) (hstep : h.step a = some h')
    (u : LeaseStream) (hu : h.streams.get? n = some u) :
    ∃ u', h'.streams.get? n = some u' ∧ Writes n a u u' := by
  rcases Sharing.touches_step h h' a hstep n with hkeep | ⟨v, u', hv, hu', hacted⟩ |
    ⟨_, _, hnone, _⟩
  · exact ⟨u, by rw [hkeep, hu], .inl rfl⟩
  · rw [hu, Option.some.injEq] at hv
    subst hv
    exact ⟨u', hu', writes_acted h.transport n u u' a hacted⟩
  · rw [hu] at hnone
    cases hnone

end LeaseStream

namespace Sharing

/-- Only the reader changes what has been broadcast. -/
theorem outbound_step (t t' : Transport) (a : TransportAction) (hown : t.Owned)
    (hstep : t.step a = some t') :
    t'.outbound = t.outbound ∨ a = .read ∧ ∃ m, t.stdout.head? = some m ∧
      t'.outbound = t.outbound.send ⟨m.caller, LspMessage.fromJson m.content⟩ := by
  cases Transport.step_effect t t' a hstep with
  | traffic _ _ ha htraffic => exact Or.inl htraffic.outbound
  | begin d source request hfree =>
      rcases Transport.beginCall_cases { t with handles := .call d :: t.handles } d request with
        ⟨pc, hbegin, _⟩
      rw [hbegin]
      exact Or.inl rfl
  | unqueued | queued | ended => exact Or.inl rfl
  | polled d request rx t' hcall hrecv =>
      have hsenders := Transport.senders_ne_zero t d _ rx hown hcall rfl
      rcases Transport.recvCall_cases t t' d request rx hsenders hrecv with ⟨pc, ht', _⟩
      rw [ht']
      exact Or.inl rfl
  | broadcast caller payload rest hreading hstdout =>
      exact Or.inr ⟨rfl, ⟨caller, payload⟩, by rw [hstdout]; rfl, rfl⟩

/-! ### Isolation -/

/-- A response that a stream receives answers a request of its client. -/
def Answers (h : Sharing) (n : Nat) (frame : Tagged StreamFrame) : Prop :=
  frame.content.frameType = .lspOut → IsResponse frame.content.payload →
    ∃ c, frame.caller = some c ∧ h.requests.get? c = some (.stream n)

/-- What the call of a client of the control socket returns is no response to a
    request of anybody else. -/
def Returns (h : Sharing) (c : CallId) (m : Tagged LspMessage) : Prop :=
  ∀ k, h.requests.get? c = some (.control k) → ∀ d, m.caller = some d →
    h.requests.get? d = some (.control k)

/-- Every client receives only the responses to its own requests. -/
structure Isolated (h : Sharing) : Prop where
  streams : ∀ n frame, h.Receives n frame → h.Answers n frame
  calls : h.transport.Settled h.Returns

/-- Where the reader is about to broadcast a response, the only stream that
    forwards it is the one whose client sent the request. -/
def ForwardedCond (h : Sharing) : Prop :=
  ∀ m, h.transport.stdout.head? = some m → IsResponse m.content →
    ∀ n s, h.streams.get? n = some s → s.runtimeTask = .running → s.writerTask = .running →
      ∃ c, m.caller = some c ∧ h.requests.get? c = some (.stream n)

/-- The step broadcasts no response to a stream whose client did not ask for it,
    and makes no client's call take the response to a foreign request. -/
def IsolatedCond (h : Sharing) : SharingAction → Prop
  | .transport a => h.transport.FirstCond h.Returns a ∧ (a = .read → h.ForwardedCond)
  | _ => True

/-- The streams have read no more than was broadcast, and the channel keeps
    something. -/
structure Sound (h : Sharing) : Prop where
  owned : h.transport.Owned
  capacity : 0 < h.transport.outbound.capacity
  rx : ∀ n s, h.streams.get? n = some s → s.rx.next ≤ h.transport.outbound.sent.length

/-- Nothing foreign is on its way to a stream's client. -/
def AllClean (h : Sharing) : Prop :=
  ∀ n s, h.streams.get? n = some s → s.Clean (h.Answers n) h.transport.outbound

theorem answers_error (h : Sharing) (n : Nat) (frame : Tagged StreamFrame)
    (herror : frame.content.frameType = .streamError) : h.Answers n frame := by
  intro hout
  rw [herror] at hout
  exact absurd hout (by simp)

/-- A new request does not change what answers the old ones. -/
theorem answers_set (h h' : Sharing) (n : Nat) (call : CallId) (party : Party)
    (frame : Tagged StreamFrame) (hfresh : h.fresh call = true)
    (hrequests : h'.requests = h.requests.set call party) (hanswers : h.Answers n frame) :
    h'.Answers n frame := by
  intro hout hresponse
  rcases hanswers hout hresponse with ⟨c, hc, hget⟩
  have hfree := ((fresh_iff h call).mp hfresh).1
  have hne : c ≠ call := fun heq => by rw [heq, hfree] at hget; exact absurd hget (by simp)
  exact ⟨c, hc, by rw [hrequests, Table.get?_set_ne _ _ _ _ hne, hget]⟩

theorem returns_set (h h' : Sharing) (call : CallId) (party : Party) (c : CallId)
    (m : Tagged LspMessage) (hfresh : h.fresh call = true)
    (hrequests : h'.requests = h.requests.set call party) (hne : c ≠ call)
    (hreturns : h.Returns c m) : h'.Returns c m := by
  intro k hk d hd
  rw [hrequests, Table.get?_set_ne _ _ _ _ hne] at hk
  have hget := hreturns k hk d hd
  have hfree := ((fresh_iff h call).mp hfresh).1
  have hned : d ≠ call := fun heq => by rw [heq, hfree] at hget; exact absurd hget (by simp)
  rw [hrequests, Table.get?_set_ne _ _ _ _ hned, hget]

theorem isolated_streams (h : Sharing) (hclean : h.AllClean) (n : Nat)
    (frame : Tagged StreamFrame) (hreceives : h.Receives n frame) : h.Answers n frame :=
  receives_clean (h.Answers n) (h.answers_error n) h n (hclean n) frame hreceives

/-! ### What the condition does -/

/-- A step of the transport keeps what `Sound` asks of it. -/
theorem sound_transport (h : Sharing) (t : Transport) (a : TransportAction) (hsound : h.Sound)
    (hstep : h.transport.step a = some t) (requests : Table CallId Party) :
    Sound { h with transport := t, requests := requests } := by
  have hown := Transport.owned_step h.transport t a hsound.owned hstep
  rcases outbound_step h.transport t a hsound.owned hstep with hsame | ⟨_, m, _, hsent⟩
  · refine ⟨hown, ?_, fun n s hs => ?_⟩
    · rw [hsame]
      exact hsound.capacity
    · rw [hsame]
      exact hsound.rx n s hs
  · refine ⟨hown, ?_, fun n s hs => ?_⟩
    · rw [hsent]
      exact hsound.capacity
    · have hrx := hsound.rx n s hs
      simp only [hsent, Channel.send, List.length_append, List.length_singleton]
      omega

theorem sound_init : init.Sound := by
  refine ⟨Transport.owned_spawn, ?_, fun n s hs => absurd hs (by simp [init])⟩
  simp [init, Transport.spawn, channelCapacity]

theorem sound_step (h h' : Sharing) (a : SharingAction) (hsound : h.Sound)
    (hstep : h.step a = some h') : h'.Sound := by
  cases step_effect h h' a hstep with
  | transport a t ht => exact sound_transport h t a hsound ht h.requests
  | begin client call source request t hfresh ht =>
      exact sound_transport h t _ hsound ht _
  | connect n leaseId hfree =>
      refine ⟨hsound.owned, hsound.capacity, fun k s hs => ?_⟩
      rcases (Table.get?_set_eq_some _ _ _ _ _).mp hs with ⟨_, hs⟩ | ⟨_, hs⟩
      · rw [← hs]
        exact le_refl _
      · exact hsound.rx k s hs
  | request _ call party message ha hfresh =>
      exact ⟨⟨hsound.owned.handle, hsound.owned.receiver⟩, hsound.capacity, hsound.rx⟩
  | ignored => exact hsound
  | moved _ n s s' ha hs hmoved =>
      refine ⟨hsound.owned, hsound.capacity, fun k u hu => ?_⟩
      rcases (Table.get?_set_eq_some _ _ _ _ _).mp hu with ⟨_, hu⟩ | ⟨_, hu⟩
      · rw [← hu]
        exact LeaseStream.rx_moved h.transport s s' (hsound.rx n s hs) hmoved
      · exact hsound.rx k u hu

/-- A step that meets the condition puts nothing foreign on its way. -/
theorem allClean_step (h h' : Sharing) (a : SharingAction) (hsound : h.Sound)
    (hclean : h.AllClean) (hstep : h.step a = some h') (hcond : h.IsolatedCond a) :
    h'.AllClean := by
  cases step_effect h h' a hstep with
  | transport a t ht =>
      intro n s hs
      -- Only the reader of the server's stdout broadcasts, and what it broadcasts is
      -- what the condition speaks of.
      rcases outbound_step h.transport t a hsound.owned ht with hsame | ⟨ha, m, hm, hsent⟩
      · rw [hsame]
        exact hclean n s hs
      · rw [hsent]
        refine LeaseStream.clean_broadcast _ s _ _ (hclean n s hs) fun hwriter hrun s₀ => ?_
        exact fun _ hresponse => hcond.2 ha m hm hresponse n s hs hrun hwriter
  | begin client call source request t hfresh ht =>
      intro n s hs
      have hsame : t.outbound = h.transport.outbound := by
        rcases outbound_step h.transport t _ hsound.owned ht with hsame | ⟨ha, _⟩
        · exact hsame
        · exact absurd ha (by simp)
      rw [hsame]
      exact LeaseStream.clean_mono _ _
        (fun frame => answers_set h _ n call _ frame hfresh rfl) s _ (hclean n s hs)
  | connect n leaseId hfree =>
      intro k s hs
      rcases (Table.get?_set_eq_some _ _ _ _ _).mp hs with ⟨_, hs⟩ | ⟨_, hs⟩
      · rw [← hs]
        exact LeaseStream.clean_connect _ leaseId h.transport.outbound
      · exact hclean k s hs
  | request _ call party message ha hfresh =>
      intro k s hs
      exact LeaseStream.clean_mono _ _
        (fun frame => answers_set h _ k call _ frame hfresh rfl) s _ (hclean k s hs)
  | ignored => exact hclean
  | moved _ n s s' ha hs hmoved =>
      intro k u hu
      rcases (Table.get?_set_eq_some _ _ _ _ _).mp hu with ⟨hk, hu⟩ | ⟨_, hu⟩
      · rw [← hu, hk]
        exact LeaseStream.clean_moved _ h.transport s s' (h.answers_error n) (hclean n s hs) hmoved
      · exact hclean k u hu

/-- A step that meets the condition leaves the calls with their own
    responses. -/
theorem calls_step (h h' : Sharing) (a : SharingAction) (hsound : h.Sound)
    (hcalls : h.transport.Settled h.Returns) (hstep : h.step a = some h')
    (hcond : h.IsolatedCond a) : h'.transport.Settled h'.Returns := by
  cases step_effect h h' a hstep with
  | transport a t ht =>
      exact Transport.settled_keep h.Returns h.transport t a hsound.owned hcalls ht hcond.1
  | begin client call source request t hfresh ht =>
      intro c m hsettles
      have hkeep := Transport.settled_keep h.Returns h.transport t _ hsound.owned hcalls ht trivial
      by_cases hc : c = call
      · -- a call that has just begun has returned nothing
        simp only [Transport.step, Option.ite_none_right_eq_some, Option.some.injEq] at ht
        rcases Transport.beginCall_cases
          { h.transport with handles := .call call :: h.transport.handles } call request with
          ⟨pc, hbegin, hpc⟩
        rw [hc] at hsettles
        simp only at hsettles
        rw [← ht.2, hbegin] at hsettles
        refine absurd hsettles (Transport.not_settles_of_setPc _ call request pc m ?_ ?_)
        · rcases hpc with hpc | hpc <;> simp [hpc]
        · rcases hpc with hpc | hpc <;> simp [hpc]
      · exact returns_set h _ call _ c m hfresh rfl hc (hkeep c m hsettles)
  | connect n leaseId hfree => exact hcalls
  | request _ call party message ha hfresh =>
      intro c m hsettles
      have hsound' := sound_step h _ _ hsound hstep
      have hold := hcalls c m
        ((Transport.settles_congr h.transport _ c _ hsound.owned hsound'.owned rfl rfl).mp hsettles)
      by_cases hc : c = call
      · -- there is no call under a name that is still free
        have hnone : h.transport.calls.get? c = none := by
          rw [hc]
          exact ((fresh_iff h call).mp hfresh).2
        rw [Transport.settles_not_receiving _ c _ (by simp [hnone])] at hsettles
        exact absurd hsettles (by simp [hnone])
      · exact returns_set h _ call _ c m hfresh rfl hc hold
  | ignored => exact hcalls
  | moved _ n s s' ha hs hmoved => exact hcalls

theorem isolated_keep (h h' : Sharing) (a : SharingAction) (hsound : h.Sound)
    (hclean : h.AllClean) (hisolated : h.Isolated) (hstep : h.step a = some h')
    (hcond : h.IsolatedCond a) : h'.Isolated where
  streams := isolated_streams h' (allClean_step h h' a hsound hclean hstep hcond)
  calls := calls_step h h' a hsound hisolated.calls hstep hcond

theorem isolated_need (h h' : Sharing) (a : SharingAction) (hsound : h.Sound)
    (hstep : h.step a = some h') (hisolated : h'.Isolated) : h.IsolatedCond a := by
  cases step_effect h h' a hstep with
  | begin | connect => trivial
  | request _ _ _ _ ha | ignored _ ha | moved _ _ _ _ ha =>
      cases a with
      | transport b => exact absurd rfl (ha b)
      | _ => trivial
  | transport a t ht =>
      refine ⟨Transport.settled_need h.Returns h.transport t a hsound.owned ht hisolated.calls, ?_⟩
      intro ha m hm hresponse n s hs hrun hwriter
      have hsent : t.outbound =
          h.transport.outbound.send ⟨m.caller, LspMessage.fromJson m.content⟩ := by
        rw [ha] at ht
        cases Transport.step_effect h.transport t _ ht with
        | traffic _ _ hb _ => exact absurd hb (by simp [Transport.isTraffic])
        | broadcast caller payload rest hreading hstdout =>
            rw [hstdout, List.head?_cons, Option.some.injEq] at hm
            rw [← hm]
        | ended _ hb _ => exact absurd hb (by simp)
      -- The message is kept for the stream, and arrives.
      have hnewest := Channel.newest_kept h.transport.outbound
        ⟨m.caller, LspMessage.fromJson m.content⟩ s.rx (hsound.rx n s hs) hsound.capacity
      rcases receives_of_owed
          (fun frame => frame.caller = m.caller ∧ frame.content.frameType = .lspOut ∧
            frame.content.payload = m.content) n { h with transport := t }
          ⟨s, hs, Or.inr ⟨hwriter, Or.inr ⟨hrun, Or.inr ⟨_, by rw [hsent]; exact hnewest,
            fun s₀ => ⟨rfl, rfl, rfl⟩⟩⟩⟩⟩ with
        ⟨frame, ⟨hcaller, htype, hpayload⟩, hreceives⟩
      rw [← hcaller]
      exact hisolated.streams n frame hreceives htype (by rw [hpayload]; exact hresponse)

/-- In every state of a run every client receives only the responses to its own
    requests, if and only if no step of the run broadcasts a response to a
    stream whose client did not ask for it, or makes a client's call take the
    response to a foreign request. -/
theorem isolated_iff (as : List SharingAction) :
    Always step Isolated init as ↔ Along step IsolatedCond init as := by
  have hclean : init.AllClean := fun n s hs => absurd hs (by simp [init])
  have hisolated : init.Isolated := by
    refine ⟨isolated_streams init hclean, fun c m hsettles => ?_⟩
    intro k hk
    exact absurd hk (by simp [init])
  refine always_iff_along (I := fun h => h.Sound ∧ h.AllClean) ?_ ?_ as init
    ⟨sound_init, hclean⟩ hisolated (along_true as init)
  · intro h a h' hI hP hstep _ hcond
    exact ⟨⟨sound_step h h' a hI.1 hstep, allClean_step h h' a hI.1 hI.2 hstep hcond⟩,
      isolated_keep h h' a hI.1 hI.2 hP hstep hcond⟩
  · intro h a h' hI _ hstep _ hP
    exact isolated_need h h' a hI.1 hstep hP

/-- Two clients are connected, one of them sends a request, and the server answers
    it. The tasks of the other one's stream do the rest. -/
def responseToTwo : List SharingAction :=
  [.transport (.clone .session 0), .transport (.clone .session 1), .connect 0 "lease_1",
    .connect 1 "lease_2", .frame 0 ⟨1, .lspIn, "lease_1", 1, Transport.doRequest⟩ 0,
    .transport .writerTake, .transport .writerWrote,
    .transport (.emit (some 0) (.obj [("id", .num 1), ("jsonrpc", .str "2.0"),
      ("result", .null)])),
    .transport .read, .take 1, .push 1, .write 1]

/-- A client is connected when its session is shut down, and the server answers
    the daemon. -/
def shutdownAnswered : List SharingAction :=
  [.transport (.clone .session 0), .connect 0 "lease_1",
    .send none 0 .session (.obj [("id", .str "lspee-shutdown"), ("jsonrpc", .str "2.0"),
      ("method", .str "shutdown"), ("params", .null)]),
    .transport .writerTake, .transport .writerWrote,
    .transport (.emit (some 0) (.obj [("id", .str "lspee-shutdown"), ("jsonrpc", .str "2.0"),
      ("result", .null)])),
    .transport .read, .take 0, .push 0, .write 0]

theorem responseToTwo_isSome : (run step init responseToTwo).isSome = true := by
  decide

theorem shutdownAnswered_isSome : (run step init shutdownAnswered).isSome = true := by
  decide

/-- Responses reach other clients: one the client of another stream, one the
    client of a stream although it is the daemon's. -/
theorem response_on_other_stream :
    (¬ ∀ (as : List SharingAction) (h : Sharing), run step init as = some h →
      ∀ n s, h.streams.get? n = some s → ∀ frame ∈ s.delivered,
        frame.content.frameType = .lspOut → IsResponse frame.content.payload →
        ∃ c, frame.caller = some c ∧ h.requests.get? c = some (.stream n)) ∧
    ¬ ∀ (as : List SharingAction) (h : Sharing), run step init as = some h →
      ∀ n s, h.streams.get? n = some s → ∀ frame ∈ s.delivered,
        ∀ c, frame.caller = some c → h.requests.get? c ≠ some .daemon := by
  constructor
  · intro hall
    rcases hall responseToTwo ((run step init responseToTwo).get responseToTwo_isSome)
      (Option.some_get _).symm 1 _ rfl _ List.mem_cons_self rfl (by decide) with ⟨c, hc, hget⟩
    have hc0 : c = 0 := (Option.some.inj hc).symm
    rw [hc0] at hget
    exact absurd hget (by decide)
  · intro hall
    exact hall shutdownAnswered ((run step init shutdownAnswered).get shutdownAnswered_isSome)
      (Option.some_get _).symm 0 _ rfl _ List.mem_cons_self 0 rfl (by decide)

end Sharing

end Lspee
