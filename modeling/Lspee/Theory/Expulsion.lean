import Lspee.Lib.Reaching
import Lspee.Core.Expulsion
import Lspee.Theory.Isolation

/-!
# After the Error

Whether the `StreamError` frame is the last thing a client gets, and whether what
it sends after it goes nowhere.

The event task makes one such frame and ends. The forwarding task beside it is
not told, nor is the loop that reads the client's lines. The one goes on to queue
what the server writes, which at the least is its answer to `shutdown`; the other
hands to the runtime what it reads. So all depends on the others. The error is the last
frame if nothing of the server is on its way to the client when it is queued (`Quiet`),
and the server writes nothing more. Nothing is forwarded after it if the client sends no
`LspIn` after it, or the runtime takes nothing any more. In every run in which this is
so, at every step, the error is terminal; and where it is not so at some step, there is
a way on in which it is not (`terminal_exact`). The eviction of a session that answers
breaks both (`answer_after_error`).

## Main definitions

* `ErrorLast`: Nothing comes after the error.
* `Transport.Kept`: The server's output is left where it is.
* `OneError`: The event task makes the only error, and makes it once.
* `Relays`, `HasError`, `Quiet`: What is the case with a stream.
* `Behind`: A frame comes after the error, or is on its way behind it.
* `Terminal`: The property.
* `TerminalCond`: The condition on what the server and the clients do.
* `Still`, `Harmless`, `Settled`: What a run keeps whose steps meet the condition.

## Theorems

* `errorLast_concat`: What one more frame means.
* `kept_step`: Who moves the server's output.
* `oneError_moved`, `errorLast_acted`, `still_acted`: A step of a stream.
* `behind_progress`: The tasks bring a frame further.
* `sharing_step`, `read_step`: What a step does.
* `settled_step`: A step that meets the condition.
* `breaks_output`, `breaks_input`: Steps that do not.
* `terminal_exact`: When the error is terminal.
* `answer_after_error`: An eviction after which it is not.
-/

namespace Lspee

open Transition

/-- No frame comes after a `StreamError`. -/
def ErrorLast (frames : List (Tagged StreamFrame)) : Prop :=
  ∀ before frame after, frames = before ++ frame :: after → isStreamError frame = true →
    after = []

theorem errorLast_nil : ErrorLast [] := by
  intro before frame after h
  exact absurd h (by simp)

/-- The frames up to some point. -/
theorem errorLast_of_append (frames more : List (Tagged StreamFrame))
    (h : ErrorLast (frames ++ more)) : ErrorLast frames := by
  intro before frame after heq herror
  have hafter := h before frame (after ++ more) (by rw [heq]; simp) herror
  exact (List.append_eq_nil_iff.mp hafter).1

/-- One more frame may come as long as there is no error. -/
theorem errorLast_concat (frames : List (Tagged StreamFrame)) (frame : Tagged StreamFrame) :
    ErrorLast (frames ++ [frame]) ↔ ∀ old ∈ frames, isStreamError old = false := by
  constructor
  · intro h old hold
    refine Bool.not_eq_true _ ▸ fun herror => ?_
    rcases List.append_of_mem hold with ⟨before, after, heq⟩
    have hafter := h before old (after ++ [frame]) (by rw [heq]; simp) herror
    exact absurd hafter (by simp)
  · intro h before old after heq herror
    rcases List.eq_nil_or_concat after with hnil | ⟨front, last, hlast⟩
    · exact hnil
    · rw [hlast, List.concat_eq_append, ← List.cons_append, ← List.append_assoc] at heq
      have hframes := (List.append_inj' heq rfl).1
      have hold : old ∈ frames := by
        rw [hframes]
        exact List.mem_append_right _ List.mem_cons_self
      rw [h old hold] at herror
      exact absurd herror (by simp)

/-! ### The output of the server -/

namespace Transport

/-- A step leaves the server's output where it is, but for the server itself and the
    reader, and what has ended stays so. -/
structure Kept (t t' : Transport) : Prop where
  outbound : t'.outbound = t.outbound
  stdout : t'.stdout = t.stdout
  reading : t'.reading = true → t.reading = true
  writer : t.writer = .stopped → t'.writer = .stopped

theorem kept_sendInbound (t t' : Transport) (message : Tagged Json)
    (h : t.sendInbound message = some (.ok t')) : t.Kept t' := by
  unfold sendInbound at h
  split at h
  · cases h
  · split at h
    · cases h
      exact ⟨rfl, rfl, id, id⟩
    · cases h

theorem kept_step (t t' : Transport) (a : TransportAction) (h : t.step a = some t')
    (hread : a ≠ .read) (hemit : ∀ caller payload, a ≠ .emit caller payload) : t.Kept t' := by
  -- Most steps leave the broadcast, the output and the two tasks as they are.
  have hsame : ∀ u : Transport, u.outbound = t.outbound → u.stdout = t.stdout →
      u.reading = t.reading → u.writer = t.writer → t.Kept u :=
    fun u ho hs hr hw => ⟨ho, hs, fun h => hr ▸ h, fun h => hw.trans h⟩
  cases a with
  | read => exact absurd rfl hread
  | emit caller payload => exact absurd rfl (hemit caller payload)
  | begin call source request =>
      simp only [step, Option.ite_none_right_eq_some, Option.some.injEq] at h
      rw [← h.2]
      unfold beginCall
      split <;> exact hsame _ rfl rfl rfl rfl
  | send call =>
      simp only [step] at h
      split at h
      · unfold sendCall at h
        split at h
        · cases h
        · cases h
          exact hsame _ rfl rfl rfl rfl
        · rename_i hsend
          cases h
          have hkept := kept_sendInbound t _ _ hsend
          exact ⟨hkept.outbound, hkept.stdout, hkept.reading, hkept.writer⟩
      · cases h
  | recv call =>
      simp only [step] at h
      split at h
      · unfold recvCall at h
        split at h
        · split at h <;> cases h <;> exact hsame _ rfl rfl rfl rfl
        · cases h; exact hsame _ rfl rfl rfl rfl
        · cases h; exact hsame _ rfl rfl rfl rfl
        · cases h
      · cases h
  | forward owner message =>
      simp only [step] at h
      split at h
      · split at h
        · rename_i hsend
          cases h
          exact kept_sendInbound t _ _ hsend
        · cases h; exact hsame _ rfl rfl rfl rfl
        · cases h
      · cases h
  -- A writer task that is still running has not stopped.
  | writerTake =>
      simp only [step] at h
      split at h
      · rename_i hwriter _
        cases h
        exact ⟨rfl, rfl, id, fun hs => by rw [hwriter] at hs; cases hs⟩
      · cases h
  | writerWrote =>
      simp only [step] at h
      split at h
      · rename_i hwriter
        cases h
        exact ⟨rfl, rfl, id, fun hs => by rw [hwriter] at hs; cases hs⟩
      · cases h
  | writerFailed delivered =>
      simp only [step] at h
      split at h
      · cases h
        exact ⟨rfl, rfl, id, fun _ => rfl⟩
      · cases h
  | writerEnd =>
      simp only [step, Option.ite_none_right_eq_some, Option.some.injEq] at h
      rw [← h.2]
      exact ⟨rfl, rfl, id, fun _ => rfl⟩
  -- The reader may only stop.
  | readEnd | readError =>
      simp only [step, Option.ite_none_right_eq_some, Option.some.injEq] at h
      rw [← h.2]
      exact ⟨rfl, rfl, fun hr => absurd hr (by simp), id⟩
  | clone source n | drop owner | exit =>
      simp only [step, Option.ite_none_right_eq_some, Option.some.injEq] at h
      rw [← h.2]
      exact hsame _ rfl rfl rfl rfl

end Transport

/-- So does a step of the session's users. -/
theorem Sharing.kept_step (h h' : Sharing) (b : SharingAction) (hstep : h.step b = some h')
    (hread : b ≠ .transport .read)
    (hemit : ∀ caller payload, b ≠ .transport (.emit caller payload)) :
    h.transport.Kept h'.transport := by
  cases step_effect h h' b hstep with
  | transport a t ht =>
      exact Transport.kept_step _ _ a ht (fun heq => hread (by rw [heq]))
        fun caller payload heq => hemit caller payload (by rw [heq])
  | begin client call source request t hfresh ht =>
      exact Transport.kept_step _ _ _ ht (by simp) (by simp)
  | connect | request | ignored | moved => exact ⟨rfl, rfl, id, id⟩

namespace LeaseStream

/-- The event task makes the only error, and makes it once. -/
structure OneError (st : LeaseStream) : Prop where
  before : st.eventTask = .running → ∀ frame ∈ st.delivered ++ st.queue, isStreamError frame = false
  inHand : ∀ frame, st.inHand = some frame → isStreamError frame = false

theorem oneError_connect (leaseId : String) (rx : Broadcast.Receiver) :
    OneError (connect leaseId rx) where
  before := fun _ frame h => absurd h (by simp [connect])
  inHand := fun frame h => absurd h (by simp [connect])

theorem oneError_moved (t : Transport) (st st' : LeaseStream) (h : OneError st)
    (hmoved : Moved t st st') : OneError st' := by
  cases hmoved with
  | take st' htake =>
      rcases take_cases st st' _ _ htake with ⟨_, _, hcases⟩
      rcases hcases with ⟨_, heq⟩ | ⟨_, message, _, _, heq⟩ | ⟨_, heq⟩
      · rw [heq]
        exact ⟨h.before, h.inHand⟩
      · rw [heq]
        refine ⟨h.before, fun frame hframe => ?_⟩
        -- What the forwarding task takes is an `LspOut`.
        rw [← Option.some.inj hframe]
        rfl
      · rw [heq]
        exact ⟨h.before, h.inHand⟩
  | push st' hpush =>
      rcases push_cases st st' hpush with ⟨frame, _, hhand, ⟨_, heq⟩ | heq⟩
      · rw [heq]
        exact ⟨h.before, fun _ hnone => absurd hnone (by simp)⟩
      · rw [heq]
        refine ⟨fun hrunning old hold => ?_, fun _ hnone => absurd hnone (by simp)⟩
        rw [← List.append_assoc] at hold
        rcases List.mem_append.mp hold with hold | hnew
        · exact h.before hrunning old hold
        · rw [List.mem_singleton.mp hnew]
          exact h.inHand frame hhand
  | event payload st' hevent =>
      simp only [event, Option.ite_none_right_eq_some, Option.some.injEq] at hevent
      rw [← hevent.2]
      -- The event task has queued its frame, and runs no more.
      exact ⟨fun hrunning => absurd hrunning (by simp), h.inHand⟩
  | write st' hwrite =>
      rcases write_cases st st' hwrite with ⟨frame, rest, _, hqueue, heq⟩
      rw [heq]
      refine ⟨fun hrunning old hold => ?_, h.inHand⟩
      -- The frame goes from the queue to what is delivered.
      rw [List.append_assoc, List.singleton_append, ← hqueue] at hold
      exact h.before hrunning old hold
  | eventEnds => exact ⟨fun hrunning => absurd hrunning (by simp), h.inHand⟩
  | writerEnds =>
      refine ⟨fun hrunning old hold => ?_, h.inHand⟩
      exact h.before hrunning old (List.mem_append_left _ (by simpa [writerEnds] using hold))
  | fail => exact ⟨h.before, h.inHand⟩
  | eof =>
      refine ⟨fun hrunning => ?_, fun _ hnone => ?_⟩
      · exact absurd hrunning (by simp [eof])
      · exact absurd hnone (by simp [eof])

theorem moved_of_acted (t : Transport) (n : Nat) (st st' : LeaseStream) (a : SharingAction)
    (h : Sharing.Acted t n st a st') : Moved t st st' := by
  cases h with
  | take _ htake => exact .take st' htake
  | push _ hpush => exact .push st' hpush
  | event payload _ hevent => exact .event payload st' hevent
  | eventEnds => exact .eventEnds
  | write _ hwrite => exact .write st' hwrite
  | writeFails | writerDrained => exact .writerEnds
  | fail => exact .fail
  | eof => exact .eof

/-- What the server writes is forwarded to the client. -/
def Relays (st : LeaseStream) : Prop := st.runtimeTask = .running ∧ st.writerTask = .running

instance (st : LeaseStream) : Decidable st.Relays := inferInstanceAs (Decidable (_ ∧ _))

/-- The error has been queued. -/
def HasError (st : LeaseStream) : Prop :=
  ∃ frame ∈ st.delivered ++ st.queue, isStreamError frame = true

instance (st : LeaseStream) : Decidable st.HasError :=
  inferInstanceAs (Decidable (∃ frame ∈ _, _))

/-- Nothing that the server has written is on its way to the client. -/
structure Quiet (t : Transport) (st : LeaseStream) : Prop where
  inHand : st.inHand = none
  unread : t.outbound.unread st.rx = []
  stdout : t.reading = true → t.stdout = []

instance (t : Transport) (st : LeaseStream) : Decidable (st.Quiet t) :=
  decidable_of_iff (st.inHand.isNone = true ∧ (t.outbound.unread st.rx).isEmpty = true ∧
      (t.reading = true → t.stdout.isEmpty = true))
    ⟨fun h => ⟨Option.isNone_iff_eq_none.mp h.1, List.isEmpty_iff.mp h.2.1,
        fun hr => List.isEmpty_iff.mp (h.2.2 hr)⟩,
      fun h => ⟨Option.isNone_iff_eq_none.mpr h.inHand, List.isEmpty_iff.mpr h.unread,
        fun hr => List.isEmpty_iff.mpr (h.stdout hr)⟩⟩

/-- While there is a forwarding task, and the error has been queued, nothing is on its
    way. -/
def Still (t : Transport) (st : LeaseStream) : Prop := st.Relays → st.HasError → st.Quiet t

theorem not_hasError_iff (st : LeaseStream) :
    ¬st.HasError ↔ ∀ frame ∈ st.delivered ++ st.queue, isStreamError frame = false := by
  simp only [HasError, not_exists, not_and, Bool.not_eq_true]

/-- With the writer task gone the forwarding task ends, and queues nothing. -/
theorem push_stopped (st st' : LeaseStream) (h : st.push = some st')
    (hwriter : st.writerTask = .stopped) :
    st' = { st with runtimeTask := .stopped, inHand := none } := by
  rcases push_cases st st' h with ⟨frame, hrunning, hhand, _⟩
  simp only [push, hrunning, hhand] at h
  rw [if_pos hwriter, Option.some.injEq] at h
  exact h.symm

/-- Only the forwarding task can put a frame behind the error. -/
theorem errorLast_acted (t : Transport) (n : Nat) (st st' : LeaseStream) (a : SharingAction)
    (hone : OneError st) (h : ErrorLast (st.delivered ++ st.queue)) (hstill : st.Still t)
    (hacted : Sharing.Acted t n st a st') :
    ErrorLast (st'.delivered ++ st'.queue) := by
  cases hacted with
  | take _ htake =>
      rcases take_cases st st' _ _ htake with ⟨_, _, hcases⟩
      rcases hcases with ⟨_, heq⟩ | ⟨_, _, _, _, heq⟩ | ⟨_, heq⟩ <;>
        · rw [heq]
          exact h
  | push _ hpush =>
      by_cases hwriter : st.writerTask = .stopped
      · rw [push_stopped st st' hpush hwriter]
        exact h
      · rcases push_cases st st' hpush with ⟨frame, hrun, hhand, ⟨hstopped, _⟩ | heq⟩
        · exact absurd hstopped hwriter
        · rw [heq, ← List.append_assoc, errorLast_concat]
          -- The frame would be on its way behind the error.
          refine (not_hasError_iff st).mp fun herror => ?_
          have hquiet := hstill ⟨hrun, by cases hw : st.writerTask <;> simp_all⟩ herror
          rw [hquiet.inHand] at hhand
          cases hhand
  | event payload _ hevent =>
      simp only [event, Option.ite_none_right_eq_some, Option.some.injEq] at hevent
      rw [← hevent.2, ← List.append_assoc, errorLast_concat]
      exact hone.before hevent.1.1
  | write _ hwrite =>
      rcases write_cases st st' hwrite with ⟨frame, rest, _, hqueue, heq⟩
      rw [heq, List.append_assoc, List.singleton_append, ← hqueue]
      exact h
  | writeFails | writerDrained =>
      rw [writerEnds, List.append_nil]
      exact errorLast_of_append _ _ h
  | eventEnds | fail | eof => exact h

/-- What is the case with a stream stays so when nothing new comes out of the server. -/
theorem quiet_of_same (t t' : Transport) (st st' : LeaseStream) (h : st.Quiet t)
    (hhand : st'.inHand = st.inHand) (hrx : st'.rx = st.rx) (hout : t'.outbound = t.outbound)
    (hstdout : t'.reading = true → t'.stdout = []) : st'.Quiet t' where
  inHand := hhand.trans h.inHand
  unread := by rw [hout, hrx]; exact h.unread
  stdout := hstdout

/-- A step of a stream puts nothing on its way, if there is nothing when the error is
    queued. -/
theorem still_acted (t t' : Transport) (n : Nat) (st st' : LeaseStream) (a : SharingAction)
    (hone : OneError st) (hstill : st.Still t) (hacted : Sharing.Acted t n st a st')
    (hevent : ∀ payload, a = .event n payload → st.Relays → st.Quiet t)
    (hkeep : st.Quiet t → st.Relays → (st.HasError ∨ ∃ payload, a = .event n payload) →
      t'.outbound = t.outbound ∧ (t'.reading = true → t'.stdout = [])) :
    st'.Still t' := by
  have hsame : st.Quiet t → st.Relays → (st.HasError ∨ ∃ payload, a = .event n payload) →
      st'.inHand = st.inHand → st'.rx = st.rx → st'.Quiet t' :=
    fun h hrelays herror hhand hrx => quiet_of_same t t' st st' h hhand hrx
      (hkeep h hrelays herror).1 (hkeep h hrelays herror).2
  intro hrelays herror
  cases hacted with
  | take _ htake =>
      rcases take_cases st st' _ _ htake with ⟨hrun, _, hcases⟩
      have hquiet : st.HasError → st.writerTask = .running → st.Quiet t :=
        fun he hw => hstill ⟨hrun, hw⟩ he
      rcases hcases with ⟨hlags, heq⟩ | ⟨_, message, rest, hunread, heq⟩ | ⟨_, heq⟩
      · rw [heq] at hrelays herror
        -- Nothing is unread behind an error, so the receiver cannot lag.
        have hnone := (hquiet herror hrelays.2).unread
        rw [Broadcast.Channel.unread, List.drop_eq_nil_iff] at hnone
        unfold Broadcast.Channel.Lags at hlags
        omega
      · rw [heq] at hrelays herror
        -- Nor can it take a message.
        rw [(hquiet herror hrelays.2).unread] at hunread
        cases hunread
      · rw [heq] at hrelays
        cases hrelays.1
  | push _ hpush =>
      rcases push_cases st st' hpush with ⟨frame, hrun, hhand, ⟨_, heq⟩ | heq⟩
      · rw [heq] at hrelays
        cases hrelays.1
      · rw [heq] at hrelays herror
        rcases herror with ⟨old, hold, herror⟩
        rw [← List.append_assoc] at hold
        -- The error is an old one, or the frame just queued, which is none.
        rcases List.mem_append.mp hold with hold | hold
        · have hquiet := hstill ⟨hrun, hrelays.2⟩ ⟨old, hold, herror⟩
          rw [hquiet.inHand] at hhand
          cases hhand
        · rw [List.mem_singleton.mp hold, hone.inHand frame hhand] at herror
          cases herror
  | event payload _ hevent' =>
      simp only [event, Option.ite_none_right_eq_some, Option.some.injEq] at hevent'
      rw [← hevent'.2] at hrelays
      exact hsame (hevent payload rfl hrelays) hrelays (Or.inr ⟨payload, rfl⟩)
        (by rw [← hevent'.2]) (by rw [← hevent'.2])
  | write _ hwrite =>
      rcases write_cases st st' hwrite with ⟨frame, rest, _, hqueue, heq⟩
      rw [heq] at hrelays herror
      rcases herror with ⟨old, hold, herror⟩
      rw [List.append_assoc, List.singleton_append, ← hqueue] at hold
      -- Writing a frame moves it, and makes no error.
      have hbefore : st.HasError := ⟨old, hold, herror⟩
      exact hsame (hstill hrelays hbefore) hrelays (Or.inl hbefore) (by rw [heq])
        (by rw [heq])
  | writeFails | writerDrained => cases hrelays.2
  | eventEnds => exact hsame (hstill hrelays herror) hrelays (Or.inl herror) rfl rfl
  | fail => exact hsame (hstill hrelays herror) hrelays (Or.inl herror) rfl rfl
  | eof => cases hrelays.1

/-! ### Behind the error -/

/-- A frame comes after the error, or is on its way behind it. -/
def Behind (outbound : Broadcast.Channel (Tagged LspMessage)) (st : LeaseStream) : Prop :=
  ¬ErrorLast st.delivered ∨ st.writerTask = .running ∧
    (¬ErrorLast (st.delivered ++ st.queue) ∨ st.HasError ∧ st.runtimeTask = .running ∧
      (st.inHand ≠ none ∨ outbound.unread st.rx ≠ []))

theorem behind_write (outbound : Broadcast.Channel (Tagged LspMessage)) (st st' : LeaseStream)
    (h : st.Behind outbound) (hwrite : st.write = some st') : st'.Behind outbound := by
  rcases write_cases st st' hwrite with ⟨frame, rest, hwriter, hqueue, heq⟩
  have hall : (st.delivered ++ [frame]) ++ rest = st.delivered ++ st.queue := by
    rw [hqueue, List.append_assoc, List.singleton_append]
  rw [heq]
  rcases h with hlast | ⟨_, hlast | ⟨⟨old, hold, herror⟩, hrest⟩⟩
  · exact Or.inl fun hmore => hlast (errorLast_of_append _ _ hmore)
  · refine Or.inr ⟨hwriter, Or.inl ?_⟩
    rw [hall]
    exact hlast
  · refine Or.inr ⟨hwriter, Or.inr ⟨⟨old, ?_, herror⟩, hrest⟩⟩
    rw [hall]
    exact hold

theorem behind_push (outbound : Broadcast.Channel (Tagged LspMessage)) (st st' : LeaseStream)
    (h : st.Behind outbound) (hpush : st.push = some st') : st'.Behind outbound := by
  rcases push_cases st st' hpush with ⟨frame, _, _, ⟨hstopped, heq⟩ | heq⟩ <;> rw [heq]
  · rcases h with hlast | ⟨hwriter, _⟩
    · exact Or.inl hlast
    · rw [hwriter] at hstopped
      cases hstopped
  · rcases h with hlast | ⟨hwriter, hbehind⟩
    · exact Or.inl hlast
    refine Or.inr ⟨hwriter, Or.inl fun hmore => ?_⟩
    rw [← List.append_assoc] at hmore
    rcases hbehind with hlast | ⟨herror, _⟩
    · exact hlast (errorLast_of_append _ _ hmore)
    · -- the frame is now queued behind the error
      exact (not_hasError_iff st).mpr ((errorLast_concat _ frame).mp hmore) herror

theorem behind_take (outbound : Broadcast.Channel (Tagged LspMessage)) (senders : Nat)
    (st st' : LeaseStream) (hcapacity : 0 < outbound.capacity) (h : st.Behind outbound)
    (htake : st.take outbound senders = some st') : st'.Behind outbound := by
  rcases take_cases st st' outbound senders htake with ⟨hrun, hhand, hcases⟩
  rcases h with hlast | ⟨hwriter, hlast | ⟨herror, _, hunread⟩⟩
  · rcases hcases with ⟨_, heq⟩ | ⟨_, _, _, _, heq⟩ | ⟨_, heq⟩ <;> rw [heq] <;> exact Or.inl hlast
  · rcases hcases with ⟨_, heq⟩ | ⟨_, _, _, _, heq⟩ | ⟨_, heq⟩ <;> rw [heq] <;>
      exact Or.inr ⟨hwriter, Or.inl hlast⟩
  replace hunread := hunread.resolve_left (by rw [hhand]; simp)
  rcases hcases with ⟨hlags, heq⟩ | ⟨_, message, rest, _, heq⟩ | ⟨⟨_, hkept⟩, heq⟩
  · rw [heq]
    refine Or.inr ⟨hwriter, Or.inr ⟨herror, hrun, Or.inr fun hnone => ?_⟩⟩
    rw [Broadcast.Channel.unread, List.drop_eq_nil_iff] at hnone
    unfold Broadcast.Channel.Lags at hlags
    simp only at hnone
    omega
  · rw [heq]
    exact Or.inr ⟨hwriter, Or.inr ⟨herror, hrun, Or.inl (by simp)⟩⟩
  · -- what has been lost has been followed by more
    rw [Broadcast.Channel.kept, List.drop_eq_nil_iff] at hkept
    rw [Broadcast.Channel.unread, Ne, List.drop_eq_nil_iff] at hunread
    omega

/-- As long as a frame is on its way behind the error, one of the tasks can bring it
    further. -/
theorem behind_progress (outbound : Broadcast.Channel (Tagged LspMessage)) (senders : Nat)
    (st : LeaseStream) (hcapacity : 0 < outbound.capacity) (h : st.Behind outbound) :
    ¬ErrorLast st.delivered ∨
      ∃ st', (st.write = some st' ∨ st.push = some st' ∨ st.take outbound senders = some st') ∧
        st'.Behind outbound ∧ weight outbound st' < weight outbound st := by
  by_cases hlast : ErrorLast st.delivered
  swap
  · exact Or.inl hlast
  right
  rcases h with hnot | ⟨hwriter, hbehind⟩
  · exact absurd hlast hnot
  have htodo : st.queue ≠ [] ∨ st.runtimeTask = .running ∧
      (st.inHand ≠ none ∨ outbound.unread st.rx ≠ []) := by
    rcases hbehind with hnot | ⟨_, hrest⟩
    · refine Or.inl fun hnone => hnot ?_
      rw [hnone, List.append_nil]
      exact hlast
    · exact Or.inr hrest
  rcases task_progress outbound senders st hwriter htodo with ⟨st', hmove, hless⟩
  refine ⟨st', hmove, ?_, hless⟩
  have hst : st.Behind outbound := Or.inr ⟨hwriter, hbehind⟩
  rcases hmove with hmove | hmove | hmove
  · exact behind_write outbound st st' hst hmove
  · exact behind_push outbound st st' hst hmove
  · exact behind_take outbound senders st st' hcapacity hst hmove

end LeaseStream

namespace Expulsion

/-- Nothing was written to a client after the `StreamError`, and nothing that was
    read after it was forwarded. -/
structure Terminal (s : Expulsion) : Prop where
  frames : ∀ n st, s.sharing.streams.get? n = some st → ErrorLast st.delivered
  input : s.forwardedLate = []

/-- When the error of a stream is queued, nothing of the server is on its way to the
    client. The server writes nothing while there is such a stream. And no `LspIn` for
    its lease is received after the error has been written, unless the runtime takes
    nothing any more. -/
def TerminalCond (s : Expulsion) : ExpulsionAction → Prop
  | .push n => ∀ st ∈ s.sharing.streams.get? n, st.Relays → st.Quiet s.sharing.transport
  | .sharing (.transport (.emit _ _)) => s.sharing.transport.reading = true →
      ∀ st ∈ s.sharing.streams.values, st.Relays → ¬st.HasError
  | .receive n frame => s.sharing.transport.writer ≠ .stopped →
      ∀ st ∈ s.sharing.streams.get? n, frame.frameType = .lspIn → frame.leaseId = st.leaseId →
        ∀ old ∈ st.delivered, isStreamError old = false
  | _ => True

instance (s : Expulsion) (a : ExpulsionAction) : Decidable (TerminalCond s a) := by
  unfold TerminalCond
  split <;> infer_instance

/-! ### What a step does -/

/-- A step is one of the session's users, or leaves them alone. The transport is moved
    by its own actions only, and the error is queued by the event task. -/
theorem sharing_step (s s' : Expulsion) (a : ExpulsionAction) (hstep : s.step a = some s') :
    s'.sharing = s.sharing ∨ ∃ b, s.sharing.step b = some s'.sharing ∧
      (∀ c, b = .transport c → a = .sharing (.transport c)) ∧
      ∀ n payload, b = .event n payload → a = .push n := by
  cases a with
  | sharing b =>
      simp only [step, Option.ite_none_right_eq_some, Option.map_eq_some_iff] at hstep
      rcases hstep with ⟨hmay, h, hb, heq⟩
      rw [← heq]
      refine Or.inr ⟨b, hb, fun c hc => by rw [hc], fun n payload hn => ?_⟩
      -- Errors are queued by the event task alone, and not from here.
      rw [hn] at hmay
      cases hmay
  | connect n leaseId =>
      rcases Option.map_eq_some_iff.mp hstep with ⟨h, hb, heq⟩
      rw [← heq]
      exact Or.inr ⟨_, hb, by simp, by simp⟩
  | announce notice | stop | remove =>
      simp only [step] at hstep
      split at hstep
      · rw [← Option.some.inj hstep]
        exact Or.inl rfl
      · exact absurd hstep (by simp)
  | shutdown call | exit call =>
      simp only [step] at hstep
      split at hstep
      · rcases Option.map_eq_some_iff.mp hstep with ⟨h, hb, heq⟩
        rw [← heq]
        exact Or.inr ⟨_, hb, by simp, by simp⟩
      · exact absurd hstep (by simp)
  | receive n frame =>
      simp only [step] at hstep
      split at hstep
      · rw [Option.ite_none_right_eq_some, Option.some.injEq] at hstep
        rw [← hstep.2]
        exact Or.inl rfl
      · exact absurd hstep (by simp)
  | handle n call =>
      simp only [step] at hstep
      split at hstep
      · exact absurd hstep (by simp)
      · rcases Option.map_eq_some_iff.mp hstep with ⟨h, hb, heq⟩
        rw [← heq]
        exact Or.inr ⟨_, hb, by simp, by simp⟩
  | poll n =>
      simp only [step] at hstep
      split at hstep
      · split at hstep
        · rw [← Option.some.inj hstep]
          exact Or.inl rfl
        · rw [← Option.some.inj hstep]
          exact Or.inl rfl
        · exact absurd hstep (by simp)
        · exact absurd hstep (by simp)
      · exact absurd hstep (by simp)
  | push n =>
      simp only [step] at hstep
      split at hstep
      · rcases Option.map_eq_some_iff.mp hstep with ⟨h, hb, heq⟩
        rw [← heq]
        exact Or.inr ⟨_, hb, by simp, fun m payload hm => by cases hm; rfl⟩
      · exact absurd hstep (by simp)

/-- A step reads a frame, or handles one, or leaves alone what has been read. -/
theorem read_step (s s' : Expulsion) (a : ExpulsionAction) (hstep : s.step a = some s') :
    s'.read = s.read ∧ s'.forwardedLate = s.forwardedLate ∨
      (∃ n frame st, a = .receive n frame ∧ s.sharing.streams.get? n = some st ∧
        s'.read = s.read.set n ⟨frame, st.delivered.any isStreamError⟩ ∧
        s'.forwardedLate = s.forwardedLate) ∨
      ∃ n call r, s.read.get? n = some r ∧
        s.sharing.step (.frame n r.frame call) = some s'.sharing ∧
        s'.read = s.read.erase n ∧
        s'.forwardedLate =
          (if r.late then s.sharing.transport.queuedBy s'.sharing.transport else []) ++
            s.forwardedLate := by
  cases a with
  -- The only step that records anything in `forwardedLate`.
  | handle n call =>
      simp only [step] at hstep
      cases hread : s.read.get? n with
      | none => simp only [hread, reduceCtorEq] at hstep
      | some r =>
          simp only [hread, Option.map_eq_some_iff] at hstep
          rcases hstep with ⟨h, hb, rfl⟩
          exact Or.inr (Or.inr ⟨n, call, r, hread, hb, rfl, rfl⟩)
  | receive n frame =>
      simp only [step] at hstep
      split at hstep
      · rename_i st hst _
        rw [Option.ite_none_right_eq_some, Option.some.injEq] at hstep
        rcases hstep with ⟨_, rfl⟩
        exact Or.inr (Or.inl ⟨n, frame, st, rfl, hst, rfl, rfl⟩)
      · exact absurd hstep (by simp)
  | sharing b =>
      simp only [step, Option.ite_none_right_eq_some, Option.map_eq_some_iff] at hstep
      rcases hstep with ⟨_, h, _, rfl⟩
      exact Or.inl ⟨rfl, rfl⟩
  | connect n leaseId =>
      rcases Option.map_eq_some_iff.mp hstep with ⟨h, _, rfl⟩
      exact Or.inl ⟨rfl, rfl⟩
  | announce notice | stop | remove =>
      simp only [step] at hstep
      split at hstep
      · rw [← Option.some.inj hstep]
        exact Or.inl ⟨rfl, rfl⟩
      · exact absurd hstep (by simp)
  | shutdown call | exit call | push n =>
      simp only [step] at hstep
      split at hstep
      · rcases Option.map_eq_some_iff.mp hstep with ⟨h, _, rfl⟩
        exact Or.inl ⟨rfl, rfl⟩
      · exact absurd hstep (by simp)
  | poll n =>
      simp only [step] at hstep
      split at hstep
      · split at hstep
        · rw [← Option.some.inj hstep]
          exact Or.inl ⟨rfl, rfl⟩
        · rw [← Option.some.inj hstep]
          exact Or.inl ⟨rfl, rfl⟩
        · exact absurd hstep (by simp)
        · exact absurd hstep (by simp)
      · exact absurd hstep (by simp)

/-- A stream keeps its lease. -/
theorem leaseId_step (h h' : Sharing) (b : SharingAction) (hstep : h.step b = some h') (n : Nat)
    (st : LeaseStream) (hst : h.streams.get? n = some st) :
    ∃ st', h'.streams.get? n = some st' ∧ st'.leaseId = st.leaseId := by
  rcases Sharing.touches_step h h' b hstep n with hsame | ⟨u, u', hu, hu', hacted⟩ |
    ⟨_, _, hnone, _⟩
  · exact ⟨st, hsame.trans hst, rfl⟩
  · rw [hst, Option.some.injEq] at hu
    refine ⟨u', hu', ?_⟩
    rw [hu]
    cases hacted with
    | take _ htake =>
        rcases (LeaseStream.take_cases u u' _ _ htake).2.2 with
          ⟨_, heq⟩ | ⟨_, _, _, _, heq⟩ | ⟨_, heq⟩ <;> rw [heq]
    | push _ hpush =>
        rcases LeaseStream.push_cases u u' hpush with ⟨_, _, _, ⟨_, heq⟩ | heq⟩ <;> rw [heq]
    | event payload _ hevent =>
        simp only [LeaseStream.event, Option.ite_none_right_eq_some, Option.some.injEq] at hevent
        rw [← hevent.2]
    | write _ hwrite =>
        rcases LeaseStream.write_cases u u' hwrite with ⟨_, _, _, _, heq⟩
        rw [heq]
    | eventEnds | writeFails | writerDrained | fail | eof => rfl
  · rw [hst] at hnone
    cases hnone

/-- A frame that is no `LspIn` for the lease, or that the runtime does not take, puts
    nothing into the queue to the server. -/
theorem inbound_frame (h h' : Sharing) (n : Nat) (frame : StreamFrame) (call : CallId)
    (st : LeaseStream) (hst : h.streams.get? n = some st)
    (hstep : h.step (.frame n frame call) = some h')
    (hharmless : frame.frameType = .lspIn → frame.leaseId = st.leaseId →
      h.transport.writer = .stopped) : h'.transport.inbound = h.transport.inbound := by
  simp only [Sharing.step, hst, Option.ite_none_right_eq_some] at hstep
  have hhandled := hstep.2
  unfold Sharing.handleFrame at hhandled
  by_cases hlease : frame.leaseId ≠ st.leaseId
  · rw [if_pos hlease, Option.some.injEq] at hhandled
    rw [hhandled]
  · rw [if_neg hlease] at hhandled
    cases htype : frame.frameType with
    | lspIn =>
        have hstopped := hharmless htype (not_not.mp hlease)
        simp only [htype, Sharing.queue, Transport.sendInbound, hstopped, if_true,
          Option.some.injEq] at hhandled
        rw [← hhandled]
    | lspOut | streamError =>
        simp only [htype, Option.some.injEq] at hhandled
        rw [hhandled]

/-! ### The condition is enough -/

/-- What has been read of a client after the error puts nothing into the queue to the
    server. -/
def Harmless (s : Expulsion) : Prop :=
  ∀ n r, s.read.get? n = some r → r.late = true → ∃ st, s.sharing.streams.get? n = some st ∧
    (r.frame.frameType = .lspIn → r.frame.leaseId = st.leaseId →
      s.sharing.transport.writer = .stopped)

/-- What a run keeps whose steps meet the condition. -/
structure Settled (s : Expulsion) : Prop where
  one : ∀ n st, s.sharing.streams.get? n = some st → st.OneError
  last : ∀ n st, s.sharing.streams.get? n = some st → ErrorLast (st.delivered ++ st.queue)
  still : ∀ n st, s.sharing.streams.get? n = some st → st.Still s.sharing.transport
  read : Harmless s
  input : s.forwardedLate = []

theorem settled_init : Settled init where
  one := fun n st h => absurd h (by simp [init, Sharing.init])
  last := fun n st h => absurd h (by simp [init, Sharing.init])
  still := fun n st h => absurd h (by simp [init, Sharing.init])
  read := fun n r h => absurd h (by simp [init])
  input := rfl

/-- The server's output stays where it is, as long as nothing of it may be on its way to
    some stream. -/
theorem output_step (s s' : Expulsion) (a : ExpulsionAction) (hstep : s.step a = some s')
    (hcond : TerminalCond s a) (n : Nat) (st : LeaseStream)
    (hst : s.sharing.streams.get? n = some st) (hrelays : st.Relays)
    (hquiet : st.Quiet s.sharing.transport) (herror : st.HasError ∨ a = .push n) :
    s'.sharing.transport.outbound = s.sharing.transport.outbound ∧
      (s'.sharing.transport.reading = true → s'.sharing.transport.stdout = []) := by
  rcases sharing_step s s' a hstep with hsame | ⟨b, hb, htransport, _⟩
  · rw [hsame]
    exact ⟨rfl, hquiet.stdout⟩
  by_cases hread : b = .transport .read
  · -- there is nothing to read
    rw [hread] at hb
    simp only [Sharing.step, Sharing.mayMove, if_true, Option.map_eq_some_iff] at hb
    rcases hb with ⟨t, ht, _⟩
    simp only [Transport.step] at ht
    split at ht
    · rename_i hreading hstdout
      rw [hquiet.stdout hreading] at hstdout
      cases hstdout
    · cases ht
  by_cases hemit : ∃ caller payload, b = .transport (.emit caller payload)
  · rcases hemit with ⟨caller, payload, hemit⟩
    have ha := htransport _ hemit
    rw [hemit] at hb
    simp only [Sharing.step, Sharing.mayMove, if_true, Option.map_eq_some_iff, Transport.step,
      Option.ite_none_right_eq_some, Option.some.injEq] at hb
    rcases hb with ⟨t, ⟨_, ht⟩, heq⟩
    rw [← heq, ← ht]
    refine ⟨rfl, fun hreading => ?_⟩
    rw [ha] at hcond herror
    -- The server is not to write with an error on its way to a client.
    exact absurd (herror.resolve_right (by simp))
      (hcond hreading st ((Table.mem_values_iff _ st).mpr ⟨n, hst⟩) hrelays)
  · have hkept := Sharing.kept_step _ _ b hb hread
      fun caller payload heq => hemit ⟨caller, payload, heq⟩
    refine ⟨hkept.outbound, fun hreading => ?_⟩
    rw [hkept.stdout]
    exact hquiet.stdout (hkept.reading hreading)

theorem streams_step (s s' : Expulsion) (a : ExpulsionAction) (h : Settled s)
    (hstep : s.step a = some s') (hcond : TerminalCond s a) (n : Nat) (st' : LeaseStream)
    (hst' : s'.sharing.streams.get? n = some st') :
    st'.OneError ∧ ErrorLast (st'.delivered ++ st'.queue) ∧ st'.Still s'.sharing.transport := by
  rcases sharing_step s s' a hstep with hsame | ⟨b, hb, _, hevent⟩
  · rw [hsame] at hst' ⊢
    exact ⟨h.one n st' hst', h.last n st' hst', h.still n st' hst'⟩
  rcases Sharing.touches_step s.sharing s'.sharing b hb n with
    hsame | ⟨st, t, hst, ht, hacted⟩ | ⟨leaseId, _, _, hnew⟩
  · rw [hsame] at hst'
    refine ⟨h.one n st' hst', h.last n st' hst', fun hrelays herror => ?_⟩
    have hquiet := h.still n st' hst' hrelays herror
    -- The stream has not moved, but the server's output may have.
    rcases output_step s s' a hstep hcond n st' hst' hrelays hquiet (Or.inl herror) with
      ⟨hout, hstdout⟩
    exact LeaseStream.quiet_of_same _ _ st' st' hquiet rfl rfl hout hstdout
  · rw [ht, Option.some.injEq] at hst'
    rw [← hst']
    have hone := h.one n st hst
    have hstill := h.still n st hst
    refine ⟨LeaseStream.oneError_moved s.sharing.transport st t hone
        (LeaseStream.moved_of_acted s.sharing.transport n st t b hacted),
      LeaseStream.errorLast_acted s.sharing.transport n st t b hone (h.last n st hst) hstill
        hacted, ?_⟩
    refine LeaseStream.still_acted s.sharing.transport s'.sharing.transport n st t b hone hstill
      hacted (fun payload hpayload hrelays => ?_) fun hquiet hrelays herror => ?_
    -- The error is queued by the event task, on the condition that all is quiet.
    · have ha := hevent n payload hpayload
      rw [ha] at hcond
      exact hcond st hst hrelays
    · refine output_step s s' a hstep hcond n st hst hrelays hquiet ?_
      exact herror.imp_right fun ⟨payload, hpayload⟩ => hevent n payload hpayload
  · rw [hnew, Option.some.injEq] at hst'
    rw [← hst']
    -- A stream that has just connected has no error.
    refine ⟨LeaseStream.oneError_connect leaseId _, errorLast_nil, fun _ herror => ?_⟩
    rcases herror with ⟨frame, hframe, _⟩
    exact absurd hframe (by simp [LeaseStream.connect])

theorem writer_step (s s' : Expulsion) (a : ExpulsionAction) (hstep : s.step a = some s')
    (h : s.sharing.transport.writer = .stopped) : s'.sharing.transport.writer = .stopped := by
  rcases sharing_step s s' a hstep with hsame | ⟨b, hb, _⟩
  · rw [hsame]
    exact h
  cases b with
  | transport c =>
      simp only [Sharing.step, Option.ite_none_right_eq_some, Option.map_eq_some_iff] at hb
      rcases hb with ⟨_, t, ht, heq⟩
      rw [← heq]
      by_cases hread : c = .read
      · rw [hread] at ht
        simp only [Transport.step] at ht
        split at ht
        · rw [← Option.some.inj ht]
          exact h
        · cases ht
      by_cases hemit : ∃ caller payload, c = .emit caller payload
      · rcases hemit with ⟨caller, payload, rfl⟩
        simp only [Transport.step, Option.ite_none_right_eq_some, Option.some.injEq] at ht
        rw [← ht.2]
        exact h
      · exact (Transport.kept_step _ t c ht hread fun caller payload heq =>
          hemit ⟨caller, payload, heq⟩).writer h
  | _ => exact (Sharing.kept_step _ _ _ hb (by simp) (by simp)).writer h

/-- The stream of a client is there after a step, with its lease. -/
theorem stream_step (s s' : Expulsion) (a : ExpulsionAction) (hstep : s.step a = some s')
    (n : Nat) (st : LeaseStream) (hst : s.sharing.streams.get? n = some st) :
    ∃ st', s'.sharing.streams.get? n = some st' ∧ st'.leaseId = st.leaseId := by
  rcases sharing_step s s' a hstep with hsame | ⟨b, hb, _⟩
  · rw [hsame]
    exact ⟨st, hst, rfl⟩
  · exact leaseId_step _ _ b hb n st hst

theorem harmless_step (s s' : Expulsion) (a : ExpulsionAction) (h : Harmless s)
    (hstep : s.step a = some s') (hcond : TerminalCond s a) : Harmless s' := by
  intro n r hr hlate
  -- What has been read before.
  have hold : s.read.get? n = some r → ∃ st, s'.sharing.streams.get? n = some st ∧
      (r.frame.frameType = .lspIn → r.frame.leaseId = st.leaseId →
        s'.sharing.transport.writer = .stopped) := by
    intro hbefore
    rcases h n r hbefore hlate with ⟨st, hst, hharmless⟩
    rcases stream_step s s' a hstep n st hst with ⟨st', hst', hlease⟩
    refine ⟨st', hst', fun htype hleaseId => writer_step s s' a hstep ?_⟩
    exact hharmless htype (hleaseId.trans hlease)
  rcases read_step s s' a hstep with ⟨hread, _⟩ | ⟨k, frame, st, ha, hst, hread, _⟩ |
    ⟨k, call, _, _, _, hread, _⟩
  · rw [hread] at hr
    exact hold hr
  · rw [hread] at hr
    rcases (Table.get?_set_eq_some _ _ _ _ _).mp hr with ⟨hn, hnew⟩ | ⟨_, hbefore⟩
    · rcases stream_step s s' a hstep k st hst with ⟨st', hst', hlease⟩
      rw [← hnew] at hlate ⊢
      rw [hn]
      refine ⟨st', hst', fun htype hleaseId => writer_step s s' a hstep ?_⟩
      by_contra hwriter
      rw [ha] at hcond
      rcases List.any_eq_true.mp hlate with ⟨old, hmem, herror⟩
      rw [hcond hwriter st hst htype (hleaseId.trans hlease) old hmem] at herror
      cases herror
    · exact hold hbefore
  · rw [hread] at hr
    by_cases hn : n = k
    · rw [hn, Table.get?_erase_self] at hr
      cases hr
    · rw [Table.get?_erase_ne _ _ _ hn] at hr
      exact hold hr

theorem settled_step (s s' : Expulsion) (a : ExpulsionAction) (h : Settled s)
    (hstep : s.step a = some s') (hcond : TerminalCond s a) : Settled s' := by
  have hstreams := streams_step s s' a h hstep hcond
  refine ⟨fun n st' hst' => (hstreams n st' hst').1, fun n st' hst' => (hstreams n st' hst').2.1,
    fun n st' hst' => (hstreams n st' hst').2.2, harmless_step s s' a h.read hstep hcond, ?_⟩
  rcases read_step s s' a hstep with ⟨_, hsame⟩ | ⟨_, _, _, _, _, _, hsame⟩ |
    ⟨n, call, r, hr, hframe, _, hlast⟩
  · rw [hsame]
    exact h.input
  · rw [hsame]
    exact h.input
  · rw [hlast, h.input, List.append_nil]
    split
    · rename_i hlate
      rcases h.read n r hr hlate with ⟨st, hst, hharmless⟩
      rw [Transport.queuedBy, inbound_frame _ _ n r.frame call st hst hframe hharmless,
        List.drop_length]
    · rfl

theorem terminal_of_settled (s : Expulsion) (h : Settled s) : Terminal s where
  frames := fun n st hst => errorLast_of_append _ _ (h.last n st hst)
  input := h.input

/-! ### The condition is needed -/

/-- A frame comes after the error of a stream, or is on its way behind it. -/
def BehindOf (n : Nat) (h : Sharing) : Prop :=
  0 < h.transport.outbound.capacity ∧
    ∃ st, h.streams.get? n = some st ∧ st.Behind h.transport.outbound

theorem behindOf_progress (n : Nat) (h : Sharing) (hbehind : BehindOf n h) :
    (∃ st, h.streams.get? n = some st ∧ ¬ErrorLast st.delivered) ∨
      ∃ a h', Sharing.OfTasks n a ∧ h.step a = some h' ∧ BehindOf n h' ∧
        Sharing.taskWeight n h' < Sharing.taskWeight n h := by
  rcases hbehind with ⟨hcapacity, st, hst, hbehind⟩
  rcases LeaseStream.behind_progress h.transport.outbound h.transport.senders st hcapacity
    hbehind with hlast | ⟨st', hmove, hbehind', hless⟩
  · exact Or.inl ⟨st, hst, hlast⟩
  right
  have hnext : ∃ a, Sharing.OfTasks n a ∧
      h.step a = some { h with streams := h.streams.set n st' } := by
    rcases hmove with hmove | hmove | hmove
    · exact ⟨.write n, rfl, by simp only [Sharing.step, Sharing.move, hst, hmove, Option.map_some]⟩
    · exact ⟨.push n, rfl, by simp only [Sharing.step, Sharing.move, hst, hmove, Option.map_some]⟩
    · exact ⟨.take n, rfl, by simp only [Sharing.step, Sharing.move, hst, hmove, Option.map_some]⟩
  rcases hnext with ⟨a, ha, hstep⟩
  refine ⟨a, _, ha, hstep, ⟨hcapacity, st', Table.get?_set_self _ _ _, hbehind'⟩, ?_⟩
  simp only [Sharing.taskWeight, hst, Table.get?_set_self]
  exact hless

/-- What is on its way behind the error comes after it, if the tasks go on. -/
theorem breaks_behind (s : Expulsion) (n : Nat) (h : BehindOf n s.sharing) :
    ∃ bs t, run step s bs = some t ∧ ¬Terminal t := by
  rcases exists_run_of_progress (Sharing.taskWeight n) (behindOf_progress n) s.sharing h with
    ⟨as, h', htasks, hrun, st, hst, hlast⟩
  have hlift : Reaches step (fun _ => True) s { s with sharing := h' } :=
    reaches_lift (fun s h => { s with sharing := h }) ExpulsionAction.sharing
      (fun _ _ => trivial)
      (fun s h a h' ha hstep => by
        cases a <;> first
          | exact ha.elim
          | simp only [step, mayMove, if_true, hstep, Option.map_some])
      s s.sharing h' ⟨as, hrun, htasks⟩
  rcases hlift with ⟨bs, hbs, _⟩
  exact ⟨bs, _, hbs, fun hterminal => hlast (hterminal.frames n st hst)⟩

/-- Where the error has been queued, and something of the server may still come, it comes
    behind the error. -/
theorem breaks_output (s : Expulsion) (hsound : s.sharing.Sound) (n : Nat) (st : LeaseStream)
    (hst : s.sharing.streams.get? n = some st) (hrelays : st.Relays) (herror : st.HasError)
    (hnot : ¬st.Quiet s.sharing.transport) : ∃ bs t, run step s bs = some t ∧ ¬Terminal t := by
  by_cases hway : st.inHand ≠ none ∨ s.sharing.transport.outbound.unread st.rx ≠ []
  · exact breaks_behind s n ⟨hsound.capacity, st, hst,
      Or.inr ⟨hrelays.2, Or.inr ⟨herror, hrelays.1, hway⟩⟩⟩
  simp only [not_or, not_not] at hway
  -- The reader has something to read.
  have hstdout : s.sharing.transport.reading = true ∧ s.sharing.transport.stdout ≠ [] := by
    by_contra hnone
    refine hnot ⟨hway.1, hway.2, fun hreading => ?_⟩
    by_contra hsome
    exact hnone ⟨hreading, hsome⟩
  rcases List.exists_cons_of_ne_nil hstdout.2 with ⟨message, rest, hcons⟩
  have hstep : ∃ s', s.step (.sharing (.transport .read)) = some s' ∧ BehindOf n s'.sharing := by
    simp only [step, mayMove, if_true, Sharing.step, Sharing.mayMove, Transport.step,
      hstdout.1, hcons, Option.map_some, Option.some.injEq, exists_eq_left']
    refine ⟨hsound.capacity, st, hst,
      Or.inr ⟨hrelays.2, Or.inr ⟨herror, hrelays.1, Or.inr ?_⟩⟩⟩
    simp only
    rw [Broadcast.Channel.unread_send _ _ _ (hsound.rx n st hst)]
    simp
  rcases hstep with ⟨s', hs', hbehind⟩
  rcases breaks_behind s' n hbehind with ⟨bs, t, hbs, hbroken⟩
  exact ⟨_, t, (run_cons _ bs s s' hs').trans hbs, hbroken⟩

/-- The writer task of the server makes room in its queue. -/
theorem drains (s : Expulsion) (hwriter : s.sharing.transport.writer ≠ .stopped) :
    ∃ bs transport, run step s bs = some { s with
        sharing := { s.sharing with transport := transport } } ∧
      transport.inbound = [] ∧ transport.writer ≠ .stopped := by
  -- The writer task empties the queue: each message is taken, and then written.
  have hempties : ∃ as t, (∀ a ∈ as, a = TransportAction.writerTake ∨ a = .writerWrote) ∧
      run Transport.step s.sharing.transport as = some t ∧
      t.inbound = [] ∧ t.writer ≠ .stopped := by
    -- The measure counts a message twice while it is queued, and once while it is written.
    refine exists_run_of_progress (I := fun t : Transport => t.writer ≠ .stopped)
      (fun t => 2 * t.inbound.length + if t.writer = .idle then 0 else 1) ?_ _ hwriter
    intro t ht
    cases hinbound : t.inbound with
    | nil => exact Or.inl ⟨rfl, ht⟩
    | cons message rest =>
        right
        cases hpc : t.writer with
        | stopped => exact absurd hpc ht
        | idle =>
            refine ⟨.writerTake, _, Or.inl rfl, by simp only [Transport.step, hpc, hinbound]; rfl,
              by simp, ?_⟩
            simp only [List.length_cons, reduceCtorEq, if_true, if_false]
            omega
        | writing last =>
            refine ⟨.writerWrote, _, Or.inr rfl, by simp only [Transport.step, hpc]; rfl,
              by simp, ?_⟩
            simp [hinbound]
  rcases hempties with ⟨as, t, has, hrun, hdone⟩
  -- The steps are the transport's, and nothing else moves.
  have hlift : Reaches step (fun _ => True) s
      { s with sharing := { s.sharing with transport := t } } :=
    reaches_lift (fun s t => { s with sharing := { s.sharing with transport := t } })
      (fun a => ExpulsionAction.sharing (.transport a)) (fun _ _ => trivial)
      (fun s t a t' ha hstep => by
        rcases ha with rfl | rfl <;>
          simp only [step, mayMove, if_true, Sharing.step, Sharing.mayMove, hstep,
            Option.map_some])
      s s.sharing.transport t ⟨as, hrun, has⟩
  rcases hlift with ⟨bs, hbs, _⟩
  exact ⟨bs, t, hbs, hdone⟩

/-- An `LspIn` that is received after the error is forwarded, if the runtime takes
    messages. -/
theorem breaks_input (s s' : Expulsion) (n : Nat) (frame : StreamFrame)
    (hstep : s.step (.receive n frame) = some s') (hcond : ¬TerminalCond s (.receive n frame)) :
    ∃ bs t, run step s' bs = some t ∧ ¬Terminal t := by
  simp only [TerminalCond, Classical.not_imp, not_forall, Bool.not_eq_false] at hcond
  rcases hcond with ⟨hwriter, st, hst, htype, hlease, old, hold, herror⟩
  have hst' : s.sharing.streams.get? n = some st := hst
  simp only [step, hst'] at hstep
  split at hstep
  swap
  · cases hstep
  rename_i u hsome hfree
  cases hsome
  rw [Option.ite_none_right_eq_some, Option.some.injEq] at hstep
  rcases hstep with ⟨hreading, rfl⟩
  -- The error has been delivered by the time the frame is read.
  have hlate : st.delivered.any isStreamError = true := List.any_eq_true.mpr ⟨old, hold, herror⟩
  -- With the queue drained there is room for the frame.
  rcases drains { s with read := s.read.set n ⟨frame, st.delivered.any isStreamError⟩ } hwriter with
    ⟨bs, transport, hbs, hinbound, hopen⟩
  rcases Table.exists_get?_none_both s.sharing.requests transport.calls with ⟨call, hcall, hcall'⟩
  -- And then it is handled, and recorded as late.
  have hhandled : ∃ t, step { s with
      sharing := { s.sharing with transport := transport }
      read := s.read.set n ⟨frame, st.delivered.any isStreamError⟩ } (.handle n call) = some t ∧
      t.forwardedLate ≠ [] := by
    simp only [step, Table.get?_set_self, Sharing.step, hst', hreading, Sharing.fresh, hcall,
      hcall', Option.isNone_none, Bool.and_self, and_self, if_true, Sharing.handleFrame, hlease,
      ne_eq, not_true_eq_false, if_false, htype, Sharing.queue, Transport.sendInbound, hopen,
      hinbound]
    refine ⟨_, rfl, ?_⟩
    simp [hlate, Transport.queuedBy, hinbound]
  rcases hhandled with ⟨t, ht, hlast⟩
  refine ⟨bs ++ [.handle n call], t, ?_, fun hterminal => hlast hterminal.input⟩
  rw [run_append _ _ _ _ hbs]
  exact run_cons _ [] _ t ht

/-- A step that does not meet the condition may be followed by one after which the error
    is not terminal. -/
theorem broken_of_not_cond (s s' : Expulsion) (a : ExpulsionAction) (hsound : s'.sharing.Sound)
    (hstep : s.step a = some s') (hcond : ¬TerminalCond s a) :
    ∃ bs t, run step s' bs = some t ∧ ¬Terminal t := by
  unfold TerminalCond at hcond
  split at hcond
  · rename_i n
    simp only [Classical.not_imp, not_forall] at hcond
    rcases hcond with ⟨st, hst, hrelays, hnot⟩
    simp only [step] at hstep
    split at hstep
    swap
    · cases hstep
    rcases Option.map_eq_some_iff.mp hstep with ⟨h, hb, rfl⟩
    rcases Sharing.move_eq_some _ _ _ _ hb with ⟨st₀, st', hst₀, hevent, hh⟩
    rw [hst, Option.some.injEq] at hst₀
    rw [← hst₀] at hevent
    simp only [LeaseStream.event, Option.ite_none_right_eq_some, Option.some.injEq] at hevent
    rw [hh]
    refine breaks_output _ (hh ▸ hsound) n st' (Table.get?_set_self _ _ _) ?_ ?_ ?_
    · rw [← hevent.2]
      exact hrelays
    · rw [← hevent.2]
      exact ⟨_, List.mem_append_right _ (List.mem_append_right _ List.mem_cons_self), rfl⟩
    · rw [← hevent.2]
      -- The error was queued while something was still to come.
      exact fun hquiet => hnot ⟨hquiet.inHand, hquiet.unread, hquiet.stdout⟩
  · simp only [Classical.not_imp, not_forall, not_not] at hcond
    rcases hcond with ⟨hreading, st, hmem, hrelays, herror⟩
    rcases (Table.mem_values_iff _ st).mp hmem with ⟨n, hst⟩
    simp only [step, mayMove, if_true, Sharing.step, Sharing.mayMove, Option.map_eq_some_iff,
      Transport.step, Option.ite_none_right_eq_some, Option.some.injEq] at hstep
    rcases hstep with ⟨h, ⟨t, ⟨_, rfl⟩, rfl⟩, rfl⟩
    refine breaks_output _ hsound n st hst hrelays herror fun hquiet => ?_
    -- The server has just written behind the error.
    exact absurd (hquiet.stdout hreading) (by simp)
  · exact breaks_input s s' _ _ hstep hcond
  · exact absurd trivial hcond

theorem sound_expulsion (s s' : Expulsion) (a : ExpulsionAction) (hstep : s.step a = some s')
    (h : s.sharing.Sound) : s'.sharing.Sound := by
  rcases sharing_step s s' a hstep with hsame | ⟨b, hb, _⟩
  · rw [hsame]
    exact h
  · exact Sharing.sound_step _ _ b h hb

/-- The error is terminal in every run in which nothing of the server is on its way to a
    client when the error is queued for it, the server writes nothing while the error has
    been queued for some client, and no client sends an `LspIn` once it has got the error,
    as long as the runtime takes messages. Whenever one of these is not so, there is a way
    on after which a frame has been written behind the error, or something that was
    received after it has been queued to the server. -/
theorem terminal_exact (as : List ExpulsionAction) :
    (Along step TerminalCond init as → Always step Terminal init as) ∧
      ∀ s a s', run step init as = some s → s.step a = some s' → ¬TerminalCond s a →
        ∃ bs t, run step s' bs = some t ∧ ¬Terminal t := by
  refine ⟨always_of_invariant (fun s a s' => settled_step s s' a) terminal_of_settled as init
    settled_init, fun s a s' hrun hstep hcond => broken_of_not_cond s s' a ?_ hstep hcond⟩
  have hsound := run_invariant (I := fun s => s.sharing.Sound) (C := fun _ _ => True)
    (fun s a s' h hstep _ => sound_expulsion s s' a hstep h) as init s hrun Sharing.sound_init
    (along_true as init)
  exact sound_expulsion s s' a hstep hsound

/-- The notice of an eviction. -/
def evictedNotice : StreamErrorPayload := ⟨evictedCode, "Session evicted", true, none⟩

/-- The server's answer to `shutdown`. -/
def shutdownAnswer : Json := .obj [("id", .str "lspee-shutdown"), ("result", .null)]

/-- A frame of the client. -/
def lateFrame : StreamFrame := ⟨protocolVersion, .lspIn, "lease_1", 1, .obj []⟩

/-- A session with one stream is evicted. Its server has said something before it, reads
    `shutdown` and does not answer, and is killed; the client goes. -/
def evictedQuietly : List ExpulsionAction :=
  [.sharing (.transport (.clone .session 0)), .connect 0 "lease_1",
    .sharing (.transport (.emit none (.obj []))), .sharing (.transport .read),
    .sharing (.take 0), .receive 0 lateFrame, .sharing (.push 0), .sharing (.write 0),
    .announce evictedNotice, .poll 0, .push 0, .handle 0 0, .sharing (.write 0),
    .shutdown 1, .sharing (.transport .writerTake), .sharing (.transport .writerWrote),
    .exit 2, .stop, .remove, .sharing (.eof 0)]

theorem terminal_exact_evictedQuietly :
    (∃ s, run step init evictedQuietly = some s ∧
      (s.sharing.streams.get? 0).map (fun st => st.delivered.map (·.content.frameType)) =
        some [.lspOut, .streamError]) ∧
      Always step Terminal init evictedQuietly := by
  refine ⟨⟨_, (Option.some_get (show (run step init evictedQuietly).isSome = true by
    decide)).symm, by decide⟩, (terminal_exact evictedQuietly).1 ?_⟩
  decide

/-- A session with one stream is evicted, its server answers `shutdown`, and the
    client sends one more message. -/
def evictedInUse : List ExpulsionAction :=
  [.sharing (.transport (.clone .session 0)), .connect 0 "lease_1",
    .announce evictedNotice, .poll 0, .push 0,
    .shutdown 0, .sharing (.transport .writerTake), .sharing (.transport .writerWrote),
    .sharing (.transport (.emit (some 0) shutdownAnswer)), .sharing (.transport .read),
    .sharing (.take 0), .sharing (.push 0), .sharing (.write 0), .sharing (.write 0),
    .exit 1, .receive 0 lateFrame, .handle 0 2, .stop, .remove]

theorem evictedInUse_isSome : (run step init evictedInUse).isSome = true := by
  decide

/-- The answer is written behind the error, and the client's message is forwarded
    after it. -/
theorem answer_after_error :
    (¬ ∀ (as : List ExpulsionAction) (s : Expulsion), run step init as = some s →
      ∀ n st, s.sharing.streams.get? n = some st → ErrorLast st.delivered) ∧
    ¬ ∀ (as : List ExpulsionAction) (s : Expulsion), run step init as = some s →
      s.forwardedLate = [] := by
  constructor
  · intro hall
    have hlast := hall evictedInUse
      ((run step init evictedInUse).get evictedInUse_isSome) (Option.some_get _).symm 0 _ rfl
    exact absurd (hlast [] _ _ rfl (by decide)) (by decide)
  · intro hall
    have hinput := hall evictedInUse
      ((run step init evictedInUse).get evictedInUse_isSome) (Option.some_get _).symm
    exact absurd hinput (by decide)

end Expulsion

end Lspee
