import Lspee.Lib.Passage
import Lspee.Theory.Upstream

/-!
# From the Server to the Editor

Whether the editor sees what the language server writes. The reader of the server's
output broadcasts each message; the forwarding task of the connection puts it into a
frame and queues it; the writer task writes it to the socket; the proxy reads the line,
and writes the message to the editor. Each of these may end before the others do, and
leaves what it holds behind.

Until it ends, none of them loses anything, but one: the broadcast keeps 256 messages,
and a forwarding task that is behind by as many loses one to the next. So the messages
of the server that the editor sees are a sublist of what the server has written since
the proxy connected, in the order they were written, none twice and none made up. And
they are the first of them, with no gap, if the reader has never broadcast to a
forwarding task that was that far behind; at rest they are all of them (`editor_shown`).

Along the run this is kept in two pieces: what has been taken from the broadcast
(`Carried`), and what has been taken from the socket (`Downward`, `Shown`).

The proxy also writes to the editor itself: an answer to each `initialize` and
`shutdown`, and a warning when the session has ended in an error, after which it
returns. What the editor is written is an interleaving of these answers with the
messages of the server and the warning.

## Main definitions

* `Carried`: How far the messages of the server have come in the daemon.
* `HasAnswered`: The answers that the proxy has given.
* `Shown`: What the proxy has written.
* `Downward`, `Descending`: What is in the socket, and both ends of it.
* `room`, `InTime`: The forwarding task is not too far behind.
* `AtRest`: Nothing is on its way.

## Theorems

* `carried_act`: The daemon.
* `written_step`, `shown_hear`: What the proxy writes.
* `descending_step`: The socket between them.
* `editor_shown`: What the editor sees.
-/

namespace Lspee

open Transition Utf8 Broadcast Passage

/-! ### In the daemon -/

namespace Transport

/-- Where the server writes nothing and the reader reads nothing, all stays. -/
theorem output_kept (t t' : Transport) (a : TransportAction) (h : t.step a = some t')
    (hwrote : wrote a = []) (hread : a ≠ .read) :
    t'.stdout = t.stdout ∧ t'.outbound = t.outbound := by
  cases outputs_step t t' a h with
  | same _ _ _ hsame => exact ⟨hsame.stdout, hsame.outbound⟩
  | emit => exact absurd hwrote (by simp [wrote])
  | read => exact absurd rfl hread
  | exit _ | readEnd _ hclosed | readError _ =>
      simp only [step, Option.ite_none_right_eq_some, Option.some.injEq] at h
      rw [← h.2]
      exact ⟨rfl, rfl⟩

end Transport

/-- Where the broadcast loses a message, the others stay. -/
theorem kept_send_sublist {α : Type} (c : Channel α) (v : α) (r : Receiver)
    (hr : r.next ≤ c.sent.length) : ((c.send v).kept r).Sublist (c.kept r ++ [v]) := by
  have hle : max r.next (c.sent.length - c.capacity) ≤ c.sent.length := by omega
  have hmore : max r.next (c.sent.length - c.capacity) ≤
      max r.next ((c.sent ++ [v]).length - c.capacity) := by
    rw [List.length_append]
    omega
  change ((c.sent ++ [v]).drop _).Sublist _
  unfold Channel.kept
  rw [← List.drop_append_of_le_length hle]
  exact (List.drop_sublist_drop_left _ hmore)

namespace LeaseStream

/-- How far the messages of the server have come: what has been written to the socket,
    what is queued as long as the writer task runs, and what is on its way as long as the
    forwarding task does. -/
structure Carried (exact : Prop) (spoken : List Json) (t : Transport) (u : LeaseStream) :
    Prop where
  bound : u.rx.next ≤ t.outbound.sent.length
  versions : ∀ frame ∈ u.delivered ++ u.queue ++ u.inHand.toList,
    frame.content.v = protocolVersion
  delivered : Part exact (payloads u.delivered) spoken
  queued : u.writerTask = .running → Part exact (payloads (u.delivered ++ u.queue)) spoken
  coming : u.writerTask = .running → u.runtimeTask = .running → Whole exact (u.coming t) spoken

variable {exact : Prop} {spoken : List Json}

/-- What is coming: what the forwarding task has taken, and what it has yet to take. -/
theorem coming_eq (t : Transport) (u : LeaseStream) :
    u.coming t = payloads (u.delivered ++ u.queue ++ u.inHand.toList) ++
      ((t.outbound.kept u.rx).map (fun m => m.content.payload) ++
        t.stdout.map fun m => m.content) :=
  List.append_assoc _ _ _

theorem queued_of_coming (t : Transport) (u : LeaseStream) :
    payloads (u.delivered ++ u.queue ++ u.inHand.toList) <+: u.coming t :=
  coming_eq t u ▸ List.prefix_append _ _

theorem carried_connect (leaseId : String) (t : Transport) :
    Carried exact t.written t (.connect leaseId t.outbound.subscribe) where
  bound := le_rfl
  versions := by simp [connect]
  delivered := ⟨List.nil_sublist _, fun _ => List.nil_prefix⟩
  queued := fun _ => ⟨List.nil_sublist _, fun _ => List.nil_prefix⟩
  coming := fun _ _ => by
    rw [Delivery.coming_connect]
    exact whole_refl _

/-- The output has not changed. -/
theorem carried_same (t t' : Transport) (u : LeaseStream) (h : Carried exact spoken t u)
    (hstdout : t'.stdout = t.stdout) (houtbound : t'.outbound = t.outbound) :
    Carried exact spoken t' u := by
  refine ⟨by rw [houtbound]; exact h.bound, h.versions, h.delivered, h.queued, fun hw hr => ?_⟩
  have hcoming : u.coming t' = u.coming t := by
    rw [LeaseStream.coming, LeaseStream.coming, Transport.written, Transport.written, hstdout,
      houtbound]
  rw [hcoming]
  exact h.coming hw hr

/-- The server writes. -/
theorem carried_emit (t : Transport) (u : LeaseStream) (h : Carried exact spoken t u)
    (caller : Option CallId) (payload : Json) :
    Carried exact (spoken ++ [payload]) { t with stdout := t.stdout ++ [⟨caller, payload⟩] } u where
  bound := h.bound
  versions := h.versions
  delivered := part_append h.delivered _
  queued := fun hw => part_append (h.queued hw) _
  coming := fun hw hr => by
    have hcoming : u.coming { t with stdout := t.stdout ++ [⟨caller, payload⟩] } =
        u.coming t ++ [payload] := by
      simp only [LeaseStream.coming, Transport.written, List.map_append, List.map_cons,
        List.map_nil, List.append_assoc]
    rw [hcoming]
    exact whole_append (h.coming hw hr) _

/-- The reader broadcasts. Without room, the oldest message is lost. -/
theorem carried_read (t : Transport) (u : LeaseStream) (h : Carried exact spoken t u)
    (m : Tagged Json) (rest : List (Tagged Json)) (hstdout : t.stdout = m :: rest)
    (hroom : exact → (t.outbound.unread u.rx).length < t.outbound.capacity) :
    Carried exact spoken { t with
      stdout := rest
      outbound := t.outbound.send ⟨m.caller, LspMessage.fromJson m.content⟩ } u where
  bound := by
    have hbound := h.bound
    simp only [Channel.send, List.length_append, List.length_singleton]
    omega
  versions := h.versions
  delivered := h.delivered
  queued := h.queued
  coming := fun hw hr => by
    by_cases hfull : (t.outbound.unread u.rx).length < t.outbound.capacity
    · -- the message goes from the output to the broadcast
      rw [Sharing.coming_read t u m rest hstdout h.bound hfull]
      exact h.coming hw hr
    · -- the oldest message makes room for it, which is excluded where nothing may be lost
      refine whole_lose (h.coming hw hr) ?_ fun hexact => hfull (hroom hexact)
      have hkept := (kept_send_sublist t.outbound ⟨m.caller, LspMessage.fromJson m.content⟩ u.rx
        h.bound).map fun k : Tagged LspMessage => k.content.payload
      rw [List.map_append] at hkept
      have hall := hkept.append_right (rest.map fun k => k.content)
      rw [coming_eq, coming_eq, hstdout]
      refine List.Sublist.append_left ?_ _
      rw [List.append_assoc] at hall
      exact hall

/-- The forwarding task takes a message, skips what was lost, or ends. -/
theorem carried_take (t : Transport) (u u' : LeaseStream) (h : Carried exact spoken t u)
    (htake : u.take t.outbound t.senders = some u') : Carried exact spoken t u' := by
  rcases take_cases u u' t.outbound t.senders htake with
    ⟨hrun, hhand, ⟨hlags, hu'⟩ | ⟨hlags, m, rest, hunread, hu'⟩ | ⟨_, hu'⟩⟩
  · -- what was lost is not kept, so the task only learns of it
    rw [hu']
    refine ⟨Nat.sub_le _ _, h.versions, h.delivered, h.queued, fun hw hr => ?_⟩
    have hcoming := h.coming hw hr
    rw [coming_eq, ← Channel.kept_oldest t.outbound u.rx hlags] at hcoming
    rw [coming_eq]
    exact hcoming
  · -- the message goes from the broadcast into a frame
    have hnext := Channel.next_lt_of_unread t.outbound u.rx m rest hunread
    have hkept : (t.outbound.kept u.rx).map (fun k => k.content.payload) = m.content.payload ::
        (t.outbound.kept ⟨u.rx.next + 1⟩).map fun k => k.content.payload := by
      rw [Channel.kept_of_not_lags _ _ hlags, hunread,
        Channel.kept_of_not_lags _ _ (Channel.not_lags_next t.outbound u.rx hlags),
        Channel.unread_next _ _ m rest hunread, List.map_cons]
    rw [hu']
    refine ⟨hnext, fun frame hframe => ?_, h.delivered, h.queued, fun hw hr => ?_⟩
    · rcases List.mem_append.mp hframe with hframe | hframe
      · exact h.versions frame (List.mem_append_left _ hframe)
      · rw [Option.toList_some, List.mem_singleton] at hframe
        rw [hframe]
        rfl
    · have hcoming := h.coming hw hr
      have hnew : payloads [u.lspOut m] = [m.content.payload] := rfl
      rw [coming_eq, hkept, hhand, Option.toList_none, List.append_nil] at hcoming
      rw [coming_eq, Option.toList_some, payloads_append, hnew, List.append_assoc,
        List.singleton_append]
      exact hcoming
  · rw [hu']
    exact ⟨h.bound, h.versions, h.delivered, h.queued, fun _ hr => by cases hr⟩

/-- The forwarding task queues its frame, or ends with it. -/
theorem carried_push (t : Transport) (u u' : LeaseStream) (h : Carried exact spoken t u)
    (hpush : u.push = some u') : Carried exact spoken t u' := by
  have htaken := fun hforwards => (taken_push u u' t.outbound hforwards hpush).1
  rcases push_cases u u' hpush with ⟨frame, hrun, hhand, ⟨hstopped, hu'⟩ | hu'⟩
  · -- nobody takes from the queue any more, and the forwarding task ends with its frame
    rw [hu']
    refine ⟨h.bound, fun f hf => h.versions f ?_, h.delivered, fun hw => ?_,
      fun _ hr => by cases hr⟩
    · rw [Option.toList_none, List.append_nil] at hf
      exact List.mem_append_left _ hf
    · exact absurd (hw.symm.trans hstopped) (by simp)
  · have hall : u.delivered ++ (u.queue ++ [frame]) =
        u.delivered ++ u.queue ++ u.inHand.toList := by
      rw [hhand, Option.toList_some, List.append_assoc]
    rw [hu']
    refine ⟨h.bound, fun f hf => h.versions f ?_, h.delivered, fun hw => ?_, fun hw hr => ?_⟩
    · rw [Option.toList_none, List.append_nil, hall] at hf
      exact hf
    · change Part exact (payloads (u.delivered ++ (u.queue ++ [frame]))) spoken
      rw [hall]
      exact part_of_whole (h.coming hw hrun) (queued_of_coming t u)
    · rw [LeaseStream.coming, ← hu', htaken ⟨hrun, hw⟩]
      exact h.coming hw hrun

/-- The event task queues a frame that is no message of the server. -/
theorem carried_event (t : Transport) (u u' : LeaseStream) (h : Carried exact spoken t u)
    (payload : Json) (hevent : u.event payload = some u') : Carried exact spoken t u' := by
  have htaken := fun hforwards => (taken_event u u' t.outbound payload hforwards hevent).1
  simp only [event, Option.ite_none_right_eq_some, Option.some.injEq] at hevent
  rw [← hevent.2] at htaken ⊢
  have hnone : payloads [⟨none, ⟨protocolVersion, .streamError, u.leaseId, 1, payload⟩⟩] = [] := rfl
  refine ⟨h.bound, fun f hf => ?_, h.delivered, fun hw => ?_, fun hw hr => ?_⟩
  · simp only [List.mem_append, List.mem_singleton] at hf
    rcases hf with (hf | hf | hf) | hf
    · exact h.versions f (by simp [hf])
    · exact h.versions f (by simp [hf])
    · rw [hf]
    · exact h.versions f (List.mem_append_right _ hf)
  · rw [← List.append_assoc, payloads_append, hnone, List.append_nil]
    exact h.queued hw
  · rw [LeaseStream.coming, htaken ⟨hr, hw⟩]
    exact h.coming hw hr

/-- The writer task writes the first frame that is queued. -/
theorem carried_write (t : Transport) (u u' : LeaseStream) (h : Carried exact spoken t u)
    (hwrite : u.write = some u') : Carried exact spoken t u' := by
  have htaken := fun hforwards => (taken_write u u' t.outbound hforwards hwrite).1
  rcases write_cases u u' hwrite with ⟨frame, rest, hwriter, hqueue, hu'⟩
  have hall : u.delivered ++ [frame] ++ rest = u.delivered ++ u.queue := by
    rw [hqueue, List.append_assoc, List.singleton_append]
  rw [hu']
  refine ⟨h.bound, fun f hf => h.versions f ?_, ?_, fun hw => ?_, fun hw hr => ?_⟩
  · rw [hall] at hf
    exact hf
  · -- what has been delivered now is the first part of what was delivered and queued
    refine part_cut (h.queued hwriter) ?_
    rw [← hall, payloads_append _ rest]
    exact List.prefix_append _ _
  · change Part exact (payloads (u.delivered ++ [frame] ++ rest)) spoken
    rw [hall]
    exact h.queued hw
  · rw [LeaseStream.coming, ← hu', htaken ⟨hr, hw⟩]
    exact h.coming hw hr

/-- The writer task ends, and what is queued is lost with it. -/
theorem carried_writerEnds (t : Transport) (u : LeaseStream) (h : Carried exact spoken t u) :
    Carried exact spoken t u.writerEnds where
  bound := h.bound
  versions := fun f hf => h.versions f (by
    simp only [writerEnds, List.append_nil, List.mem_append] at hf
    rcases hf with hf | hf
    · simp [hf]
    · exact List.mem_append_right _ hf)
  delivered := h.delivered
  queued := fun hw => by cases hw
  coming := fun hw => by cases hw

/-- What a step of the stream does to the messages. -/
theorem carried_acted (t : Transport) (n : Nat) (u u' : LeaseStream) (a : SharingAction)
    (h : Carried exact spoken t u) (hacted : Sharing.Acted t n u a u') :
    Carried exact spoken t u' := by
  cases hacted with
  | take _ htake => exact carried_take t u u' h htake
  | push _ hpush => exact carried_push t u u' h hpush
  | event payload _ hevent => exact carried_event t u u' h payload hevent
  | eventEnds => exact ⟨h.bound, h.versions, h.delivered, h.queued, h.coming⟩
  | write _ hwrite => exact carried_write t u u' h hwrite
  | writeFails => exact carried_writerEnds t u h
  | writerDrained => exact carried_writerEnds t u h
  | fail => exact ⟨h.bound, h.versions, h.delivered, h.queued, h.coming⟩
  | eof =>
      -- What the forwarding task holds is lost with it.
      refine ⟨h.bound, fun f hf => h.versions f ?_, h.delivered, h.queued, fun _ hr => by cases hr⟩
      simp only [eof, Option.toList_none, List.append_nil] at hf
      exact List.mem_append_left _ hf

/-- The frame that the writer task writes is the first in the queue. -/
theorem delivered_write (n : Nat) (h h' : Sharing) (hstep : h.step (.write n) = some h')
    (u u' : LeaseStream) (hu : h.streams.get? n = some u) (hu' : h'.streams.get? n = some u')
    (frame : Tagged StreamFrame) (rest : List (Tagged StreamFrame))
    (hqueue : u.queue = frame :: rest) : u'.delivered = u.delivered ++ [frame] := by
  rcases Sharing.move_eq_some h h' n _ hstep with ⟨v, v', hv, hwrite, hh'⟩
  rw [hu, Option.some.injEq] at hv
  subst hv
  rw [hh', Table.get?_set_self, Option.some.injEq] at hu'
  rcases write_cases u v' hwrite with ⟨frame', rest', _, hqueue', hv'⟩
  rw [hqueue, List.cons.injEq] at hqueue'
  rw [← hu', hv', hqueue'.1]

/-- What a step of the server's users does. Only the server itself adds a message. -/
theorem carried_act (n : Nat) (h h' : Sharing) (a : SharingAction) (hstep : h.step a = some h')
    (u u' : LeaseStream) (hu : h.streams.get? n = some u) (hu' : h'.streams.get? n = some u')
    (hcarried : Carried exact spoken h.transport u)
    (hroom : exact → a = .transport .read →
      (h.transport.outbound.unread u.rx).length < h.transport.outbound.capacity) :
    Carried exact (spoken ++ Sharing.wrote a) h'.transport u' := by
  by_cases hb : ∃ b, a = .transport b
  · rcases hb with ⟨b, rfl⟩
    rw [Sharing.streams_transport h h' b hstep, hu, Option.some.injEq] at hu'
    subst hu'
    simp only [Sharing.step, Option.ite_none_right_eq_some, Option.map_eq_some_iff] at hstep
    rcases hstep with ⟨_, t', ht', rfl⟩
    by_cases hread : b = .read
    · -- the reader broadcasts
      subst hread
      rcases Transport.read_cases h.transport t' ht' with ⟨m, rest, hstdout, rfl⟩
      simp only [Sharing.wrote, Transport.wrote, List.append_nil]
      exact carried_read h.transport u hcarried m rest hstdout fun hexact => hroom hexact rfl
    · cases b with
      | emit caller payload =>
          simp only [Transport.step, Option.ite_none_right_eq_some, Option.some.injEq] at ht'
          rw [← ht'.2]
          exact carried_emit h.transport u hcarried caller payload
      | _ =>
          rcases Transport.output_kept h.transport t' _ ht' rfl hread with ⟨hstdout, houtbound⟩
          simp only [Sharing.wrote, Transport.wrote, List.append_nil]
          exact carried_same h.transport t' u hcarried hstdout houtbound
  · -- a step of a stream, or of a client, leaves the server's output alone
    have hwrote : Sharing.wrote a = [] := by
      cases a with
      | transport b => exact absurd ⟨b, rfl⟩ hb
      | _ => rfl
    rcases Sharing.sameOutput_step h h' a hstep with ⟨b, rfl, _⟩ | ⟨_, hsame⟩
    · exact absurd ⟨b, rfl⟩ hb
    · rw [hwrote, List.append_nil]
      refine carried_same h.transport h'.transport u' ?_ hsame.stdout hsame.outbound
      rcases Sharing.touches_step h h' a hstep n with hkeep | ⟨v, v', hv, hv', hacted⟩ |
        ⟨_, _, hnone, _⟩
      · rw [hkeep, hu, Option.some.injEq] at hu'
        rw [← hu']
        exact hcarried
      · rw [hu, Option.some.injEq] at hv
        rw [hu', Option.some.injEq] at hv'
        rw [← hv, ← hv'] at hacted
        exact carried_acted h.transport n u u' a hcarried hacted
      · rw [hu] at hnone
        cases hnone

end LeaseStream

/-! ### What the proxy writes -/

namespace Proxy

variable {fromSlice : List UInt8 → Option Json} {fromStr : List Char → Option StreamFrame}

/-- What handling a message writes to the editor is at most one answer. -/
theorem written_handle (p : Proxy) (message : Json) (writes : Bool) :
    (p.handle message writes).stdout = p.stdout ++
      ((p.handle message writes).stdout[p.stdout.length]?).toList := by
  rcases handle_cases message p.initializeResult p.leaseId p.seq with
    ⟨response, id, hhandled, _⟩ | ⟨hhandled, _⟩ | ⟨hhandled, _⟩ | ⟨hhandled, _⟩
  · cases writes <;> simp [handle, hhandled, writeLspMessage, finish]
  · simp [handle, hhandled]
  · simp [handle, hhandled, finish]
  · cases writes <;> simp [handle, hhandled, finish]

theorem written_same (p p' : Proxy) (h : p'.stdout = p.stdout) :
    p'.stdout = p.stdout ++ (p'.stdout[p.stdout.length]?).toList := by
  rw [h, List.getElem?_length, Option.toList_none, List.append_nil]

/-- Reading from the editor, the proxy writes an answer or nothing. -/
theorem written_step (p p' : Proxy) (a : ProxyAction)
    (ha : ∀ next writes, a ≠ .streamReady next writes)
    (hstep : p.step fromSlice fromStr a = some p') :
    p'.stdout = p.stdout ++ (answeredAt fromSlice fromStr p a).toList ∧
      (p'.pc = .running → p.pc = .running) ∧
      ∀ reason, p.pc = .returned reason → p'.pc = .returned reason := by
  have hkept := hstep
  cases a with
  | arrive n =>
      simp only [step, Option.some.injEq] at hstep
      rw [← hstep]
      exact ⟨(List.append_nil _).symm, id, fun _ => id⟩
  | streamReady next writes => exact absurd rfl (ha next writes)
  | pollInput writes =>
      simp only [answeredAt, hkept, Option.bind_some]
      cases hpc : p.pc with
      | returned reason => exact absurd hstep (by simp [step, hpc])
      | running =>
          refine ⟨?_, fun _ => rfl, fun _ h => by cases h⟩
          simp only [step, hpc, Option.some.injEq, poll] at hstep
          rw [← hstep]
          cases hpoll : (frameReader fromSlice).poll p.frame p.arrived with
          | pending frame => exact written_same p _ rfl
          | failed => exact written_same p _ rfl
          -- A whole message is there, and it is answered or not.
          | ready message rest => exact written_handle _ message writes
  | inputEnds writes =>
      simp only [answeredAt, hkept, Option.bind_some]
      simp only [step] at hstep
      split at hstep
      · rename_i hpc harrived hcoming
        refine ⟨?_, fun _ => hpc, fun _ h => by rw [hpc] at h; cases h⟩
        simp only [Option.some.injEq, endInput] at hstep
        rw [← hstep]
        split
        · exact written_same p _ rfl
        · exact written_handle _ _ writes
        · exact written_same p _ rfl
      · exact absurd hstep (by simp)

/-- The answers that the proxy has given: one to each `initialize` and `shutdown` with an id
    among the messages it has handled, in their order and with their ids. Only to the last
    message there is none, if it was the exit notification or a write has failed. -/
def HasAnswered (p : Proxy) (answers : List Json) : Prop :=
  ∃ before last, p.handed = before ++ last ∧
    answers.map (fun answer => answer.get "id") = (before.filterMap answeredId).map some ∧
    (last = [] ∨ ∃ message, last = [message] ∧
      (exitNotification message = true ∧ p.pc = .returned .exit ∨ p.pc = .returned .writeFailed))

theorem hasAnswered_of_account (p : Proxy) (leaseId : String) (messages answers : List Json)
    (hhanded : HandedOn leaseId messages p) (haccount : Account messages answers p) :
    p.HasAnswered answers := by
  rcases haccount with ⟨before, last, hsplit, _, hlast, _, _, hanswers⟩
  rcases hhanded.2 with hall | ⟨message, hall, hfailed⟩
  · refine ⟨before, last, hall.trans hsplit, hanswers, ?_⟩
    rcases hlast with hlast | ⟨exit, hlast, hexit, hpc⟩
    · exact .inl hlast
    · exact .inr ⟨exit, hlast, .inl ⟨hexit, hpc⟩⟩
  · -- the proxy has returned from the failed write, so there was no exit notification
    rcases hlast with hlast | ⟨_, _, _, hpc⟩
    · rw [hlast, List.append_nil] at hsplit
      exact ⟨before, [message], by rw [hall, hsplit], hanswers, .inr ⟨message, rfl, .inr hfailed⟩⟩
    · rw [hfailed] at hpc
      cases hpc

/-- As long as the proxy runs, it has answered all that it has handled. -/
theorem answers_of_running (p : Proxy) (answers : List Json) (hpc : p.pc = .running)
    (h : p.HasAnswered answers) :
    answers.map (fun answer => answer.get "id") = (p.handed.filterMap answeredId).map some := by
  rcases h with ⟨before, last, hsplit, hanswers, hlast | ⟨_, _, ⟨_, hend⟩ | hend⟩⟩
  · rw [hsplit, hlast, List.append_nil]
    exact hanswers
  · rw [hpc] at hend
    cases hend
  · rw [hpc] at hend
    cases hend

/-- What the proxy has written to the editor: answers, what it has been shown of the
    server's messages, and a warning at the end. -/
structure Shown (p : Proxy) (answers shown warning heard : List Json) : Prop where
  written : Interleaved answers (shown ++ warning) p.stdout
  first : shown <+: heard
  running : p.pc = .running → shown = heard ∧ warning = []
  warned : warning.length ≤ 1
  ended : warning ≠ [] → p.pc = .returned .streamClosed

/-- An answer. -/
theorem shown_answer (p p' : Proxy) (answers shown warning heard : List Json)
    (h : Shown p answers shown warning heard) (a : ProxyAction)
    (ha : ∀ next writes, a ≠ .streamReady next writes)
    (hstep : p.step fromSlice fromStr a = some p') :
    Shown p' (answers ++ (answeredAt fromSlice fromStr p a).toList) shown warning heard := by
  rcases written_step p p' a ha hstep with ⟨hstdout, hran, hreturned⟩
  refine ⟨?_, h.first, fun hpc => h.running (hran hpc), h.warned, fun hne =>
    hreturned _ (h.ended hne)⟩
  rw [hstdout]
  exact interleaved_left h.written _

/-- The loop ends with nothing written. -/
theorem shown_finish (p : Proxy) (answers heard more : List Json) (reason : ProxyEnd)
    (h : Shown p answers heard [] heard) :
    Shown (p.finish reason) answers heard [] (heard ++ more) :=
  ⟨h.written, List.prefix_append _ _, (fun hpc => by cases hpc), h.warned,
    fun hne => absurd rfl hne⟩

/-- The proxy hears a frame of the stream, or its end. -/
theorem shown_hear (p : Proxy) (answers heard : List Json) (h : Shown p answers heard [] heard)
    (text : List Char) (frame : Tagged StreamFrame) (writes : Bool)
    (hread : fromStr text = some frame.content) :
    ∃ shown warning, Shown (p.handleStream fromStr (.line text) writes) answers shown warning
      (heard ++ payloads [frame]) := by
  have hwritten := h.written
  rw [List.append_nil] at hwritten
  cases hframe : frame.content.frameType with
  | lspIn =>
      refine ⟨heard, [], ?_⟩
      have hnone : payloads [frame] = [] := by simp [payloads, isForwarded, hframe]
      simp only [handleStream, hread, hframe, hnone, List.append_nil]
      exact h
  | lspOut =>
      have hone : payloads [frame] = [frame.content.payload] := by
        simp [payloads, isForwarded, hframe]
      cases writes with
      | false =>
          refine ⟨heard, [], ?_⟩
          simp only [handleStream, hread, hframe, writeLspMessage, Bool.false_eq_true, if_false]
          exact shown_finish p answers heard _ .writeFailed h
      | true =>
          refine ⟨heard ++ [frame.content.payload], [], ?_⟩
          simp only [handleStream, hread, hframe, writeLspMessage, if_true, hone]
          refine ⟨?_, List.prefix_rfl, fun _ => ⟨rfl, rfl⟩, by simp, fun hne => absurd rfl hne⟩
          rw [List.append_nil]
          exact .right answers heard p.stdout _ hwritten
  | streamError =>
      cases hpayload : StreamErrorPayload.fromValue frame.content.payload with
      | none =>
          refine ⟨heard, [], ?_⟩
          simp only [handleStream, hread, hframe, hpayload]
          exact shown_finish p answers heard _ .streamFailed h
      | some payload =>
          cases writes with
          | false =>
              -- The warning could not be written.
              refine ⟨heard, [], ?_⟩
              simp only [handleStream, hread, hframe, hpayload, Bool.false_eq_true, if_false]
              exact shown_finish p answers heard _ .writeFailed h
          | true =>
              refine ⟨heard, [streamErrorToEditorWarning payload], ?_⟩
              simp only [handleStream, hread, hframe, hpayload, writeLspMessage, if_true]
              exact ⟨.right answers heard p.stdout _ hwritten, List.prefix_append _ _,
                (fun hrunning => by cases hrunning), le_rfl, fun _ => rfl⟩

end Proxy

/-! ### The socket -/

namespace Tunnel

variable {fromSlice : List UInt8 → Option Json}
variable {toString : Json → List Char} {fromStr : List Char → Option Json}

/-- The frames that the daemon has written are read back. -/
def DeliveredBack (toString : Json → List Char) (fromStr : List Char → Option Json)
    (s : Tunnel) : Prop :=
  ∀ u, s.stream = some u → ∀ frame ∈ u.delivered, ReadBack toString fromStr frame.content

/-- The forwarding task is not behind by all that the broadcast keeps. -/
def hasRoom (s : Tunnel) : Bool :=
  match s.fleet.servers.get? s.server, s.stream with
  | some t, some u =>
    let outbound := t.sharing.transport.outbound
    (outbound.unread u.rx).length < outbound.capacity
  | _, _ => true

/-- The reader of the server's output broadcasts only while there is room. -/
def room (s : Tunnel) : TunnelAction → Bool
  | .fleet (.server server (.transport .read)) => server ≠ s.server || s.hasRoom
  | _ => true

/-- Everybody between the server and the editor runs, and nothing is on its way. -/
structure AtRest (s : Tunnel) (t : Server) (u : LeaseStream) : Prop where
  proxy : s.proxy.pc = .running
  forwards : u.Forwards
  stdout : t.sharing.transport.stdout = []
  kept : t.sharing.transport.outbound.kept u.rx = []
  inHand : u.inHand = none
  queue : u.queue = []
  socket : s.toProxy = []

/-- What the daemon has written are the frames that the proxy has heard, and those that
    are in the socket. -/
structure Downward (toString : Json → List Char) (exact : Prop) (s : Tunnel) (t : Server)
    (u : LeaseStream) (heard pending : List (Tagged StreamFrame)) : Prop extends
    s.Joined t u where
  carried : LeaseStream.Carried exact s.spoken t.sharing.transport u
  arriving : s.toProxy = writeFrames toString (pending.map fun frame => frame.content)
  delivered : u.delivered = heard ++ pending

/-- What holds along a run of the server's messages. -/
def Descending (toString : Json → List Char) (exact : Prop) (s : Tunnel) : Prop :=
  ∃ t u heard pending messages answers shown warning,
    Downward toString exact s t u heard pending ∧
      Proxy.HandedOn s.proxy.leaseId messages s.proxy ∧ Proxy.Account messages answers s.proxy ∧
      Proxy.Shown s.proxy answers shown warning (payloads heard)

variable {exact : Prop}

/-- The daemon makes a step that writes no frame of the stream. -/
theorem downward_fleet (s s' : Tunnel) (t : Server) (u : LeaseStream)
    (heard pending : List (Tagged StreamFrame)) (h : Downward toString exact s t u heard pending)
    (a : FleetAction) (hstep : s.fleet.step a = some s'.fleet)
    (hwrite : a ≠ .server s.server (.write s.n)) (hserver : s'.server = s.server)
    (hn : s'.n = s.n) (hproxy : s'.proxy = s.proxy) (hbytes : s'.toProxy = s.toProxy)
    (hspoken : s'.spoken = s.spoken ++ s.emitted a) (hroom : exact → s.room (.fleet a) = true) :
    ∃ t' u', Downward toString exact s' t' u' heard pending := by
  rcases joined_fleet s s' t u h.toJoined a hstep hserver hn hproxy with ⟨t', u', hjoined, hserved⟩
  have hu' := hjoined.stream
  rw [hn] at hu'
  refine ⟨t', u', hjoined, ?_, by rw [hbytes, h.arriving], ?_⟩
  · cases hserved with
    | aside ha _ hstreams houtput =>
        have hsame := hstreams s.n u h.stream
        rw [hu', Option.some.injEq] at hsame
        -- Somebody else's step writes nothing for this stream.
        have hquiet : s.emitted a = [] := by
          unfold emitted
          split
          · rename_i server caller payload
            by_cases hown : server = s.server
            · exact absurd (by rw [hown]) (ha (.transport (.emit caller payload)))
            · rw [if_neg hown]
          · rfl
        rw [hspoken, hquiet, List.append_nil, hsame]
        exact LeaseStream.carried_same _ _ u h.carried houtput.stdout houtput.outbound
    | act b ha _ hb _ =>
        subst ha
        -- What the server says in this step is what the step wrote.
        have hsaid : s.emitted (.server s.server b) = Sharing.wrote b := by
          cases b with
          | transport c => cases c <;> simp [emitted, Sharing.wrote, Transport.wrote]
          | _ => rfl
        rw [hspoken, hsaid]
        refine LeaseStream.carried_act s.n t.sharing t'.sharing b hb u u' h.stream hu' h.carried
          fun hexact hread => ?_
        have hroom := hroom hexact
        rw [hread] at hroom
        -- Where nothing may be lost, the reader reads with room to spare.
        have hhas : s.hasRoom = true := by simpa [room] using hroom
        simp only [hasRoom, h.server, stream_of_joined s t u h.toJoined,
          decide_eq_true_eq] at hhas
        exact hhas
  · cases hserved with
    | aside _ _ hstreams _ =>
        have hsame := hstreams s.n u h.stream
        rw [hu', Option.some.injEq] at hsame
        rw [hsame, h.delivered]
    | act b ha _ hb _ =>
        rcases LeaseStream.writes_act s.n t.sharing t'.sharing b hb u h.stream with
          ⟨v, hv, hwrites⟩
        rw [hu', Option.some.injEq] at hv
        rcases hwrites with hsame | ⟨rfl, _⟩
        · rw [hv, hsame, h.delivered]
        -- A frame is delivered by `write` alone, which is a step of its own.
        · exact absurd ha hwrite

/-- The daemon writes the first frame that is queued. -/
theorem downward_write (s s' : Tunnel) (t : Server) (u : LeaseStream)
    (heard pending : List (Tagged StreamFrame)) (h : Downward toString exact s t u heard pending)
    (frame : Tagged StreamFrame) (rest : List (Tagged StreamFrame))
    (hqueue : u.queue = frame :: rest)
    (hstep : s.fleet.step (.server s.server (.write s.n)) = some s'.fleet)
    (hserver : s'.server = s.server) (hn : s'.n = s.n) (hproxy : s'.proxy = s.proxy)
    (hbytes : s'.toProxy = s.toProxy ++ writeFrames toString [frame.content])
    (hspoken : s'.spoken = s.spoken) :
    ∃ t' u', Downward toString exact s' t' u' heard (pending ++ [frame]) := by
  rcases joined_fleet s s' t u h.toJoined _ hstep hserver hn hproxy with ⟨t', u', hjoined, hserved⟩
  have hu' := hjoined.stream
  rw [hn] at hu'
  cases hserved with
  | aside ha => exact absurd rfl (ha _)
  | act b hb _ hact _ =>
      simp only [FleetAction.server.injEq, true_and] at hb
      subst hb
      refine ⟨t', u', hjoined, ?_, ?_, ?_⟩
      · have hcarried := LeaseStream.carried_act s.n t.sharing t'.sharing _ hact u u' h.stream hu'
          h.carried (by simp)
        rw [hspoken]
        simpa only [Sharing.wrote, List.append_nil] using hcarried
      · rw [hbytes, h.arriving, List.map_append, writeFrames_append]
        rfl
      · rw [LeaseStream.delivered_write s.n t.sharing t'.sharing hact u u' h.stream hu' frame rest
          hqueue, h.delivered, List.append_assoc]

/-- The proxy hears the first frame in the socket, or finds the end. -/
theorem descending_hear (hcompact : Json.PrintsCompact toString) (s s' : Tunnel)
    (h : Descending toString exact s) (hback : DeliveredBack toString fromStr s) (writes : Bool)
    (hmove : { s with toProxy := s.nextRead.2 }.moveProxy fromSlice toString fromStr
      (.streamReady s.nextRead.1 writes) = some s') : Descending toString exact s' := by
  rcases h with ⟨t, u, heard, pending, messages, answers, shown, warning, hdown, hhanded, haccount,
    hshown⟩
  simp only [moveProxy, Option.map_eq_some_iff] at hmove
  rcases hmove with ⟨p, hp, rfl⟩
  have hhanded' := Proxy.handedOn_step fromSlice _ s.proxy.leaseId messages s.proxy p _ hp hhanded
  have haccount' := Proxy.account_step fromSlice _ messages answers s.proxy p _ hp haccount
  have hsilent : Proxy.answeredAt fromSlice (frameOf fromStr) s.proxy
      (.streamReady s.nextRead.1 writes) = none := rfl
  rw [hsilent, Option.toList_none, List.append_nil] at haccount'
  rcases Proxy.step_streamReady fromSlice _ s.proxy p _ writes hp with ⟨hpc, hp'⟩
  rcases hshown.running hpc with ⟨rfl, rfl⟩
  have hlease := hhanded'.1
  cases pending with
  | nil =>
      -- The daemon has closed its end, and the loop is over.
      have hread : s.nextRead = (.closed, writeFrames toString []) := by
        rw [nextRead, hdown.arriving, List.map_nil, nextLine_empty]
      refine ⟨t, u, heard, [], _, answers, payloads heard, [], ⟨⟨hdown.server, hdown.stream, ?_⟩,
        hdown.carried, by rw [hread]; rfl, hdown.delivered⟩, hlease ▸ hhanded', haccount', ?_⟩
      · rw [hlease]
        exact hdown.lease
      · rw [hread] at hp'
        have hended := Proxy.shown_finish s.proxy answers (payloads heard) [] .streamClosed hshown
        rw [List.append_nil] at hended
        rw [hp']
        exact ⟨hended.written, hended.first, hended.running, hended.warned, hended.ended⟩
  | cons frame rest =>
      -- The first frame in the socket is read back, and has been heard now.
      have hmem : frame ∈ u.delivered := by
        rw [hdown.delivered]
        exact List.mem_append_right _ List.mem_cons_self
      have hv : frame.content.v < 2 ^ 32 := by
        rw [hdown.carried.versions frame (by simp [hmem])]
        decide
      have hread : s.nextRead = (.line (toString frame.content.toValue),
          writeFrames toString (rest.map fun frame => frame.content)) := by
        rw [nextRead, hdown.arriving, List.map_cons, nextLine_writeFrames hcompact]
      rw [hread] at hp'
      rcases Proxy.shown_hear { s.proxy with frame := (frameReader fromSlice).start } answers
        (payloads heard)
        ⟨hshown.written, hshown.first, hshown.running, hshown.warned, hshown.ended⟩
        (toString frame.content.toValue) frame writes (frameOf_toString frame.content hv
          (hback u (stream_of_joined s t u hdown.toJoined) frame hmem)) with
        ⟨shown, warning, hheard⟩
      refine ⟨t, u, heard ++ [frame], rest, _, answers, shown, warning,
        ⟨⟨hdown.server, hdown.stream, ?_⟩, hdown.carried, by rw [hread], ?_⟩, hlease ▸ hhanded',
        haccount', ?_⟩
      · rw [hlease]
        exact hdown.lease
      · rw [hdown.delivered, List.append_assoc, List.singleton_append]
      · rw [payloads_append, hp']
        exact hheard

/-- The proxy reads from the editor. -/
theorem descending_editor (s s' : Tunnel) (h : Descending toString exact s) (a : ProxyAction)
    (ha : ∀ next writes, a ≠ .streamReady next writes)
    (hmove : s.moveProxy fromSlice toString fromStr a = some s') :
    Descending toString exact s' := by
  rcases h with ⟨t, u, heard, pending, messages, answers, shown, warning, hdown, hhanded, haccount,
    hshown⟩
  simp only [moveProxy, Option.map_eq_some_iff] at hmove
  rcases hmove with ⟨p, hp, rfl⟩
  have hhanded' := Proxy.handedOn_step fromSlice _ s.proxy.leaseId messages s.proxy p _ hp hhanded
  refine ⟨t, u, heard, pending, _, _, shown, warning, ⟨⟨hdown.server, hdown.stream, ?_⟩,
    hdown.carried, hdown.arriving, hdown.delivered⟩, hhanded'.1 ▸ hhanded',
    Proxy.account_step fromSlice _ messages answers s.proxy p a hp haccount,
    Proxy.shown_answer s.proxy p answers shown warning _ hshown a ha hp⟩
  rw [hhanded'.1]
  exact hdown.lease

/-- The stream that is there stays there, and the daemon has written no less. -/
theorem stream_grows (s s' : Tunnel) (a : TunnelAction) (u : LeaseStream) (hu : s.stream = some u)
    (hstep : s.step fromSlice toString fromStr a = some s') :
    ∃ u', s'.stream = some u' ∧ u.delivered <+: u'.delivered := by
  -- The daemon makes a step.
  have hfleet : ∀ (v : Tunnel) (b : FleetAction), s.fleet.step b = some v.fleet →
      v.server = s.server → v.n = s.n →
      ∃ u', v.stream = some u' ∧ u.delivered <+: u'.delivered := by
    intro v b hb hserver hn
    rcases Option.bind_eq_some_iff.mp hu with ⟨t, ht, hstream⟩
    rcases Fleet.served_step s.fleet v.fleet b hb s.server t ht with ⟨t', ht', hserved⟩
    rw [stream, hserver, hn, ht', Option.bind_some]
    cases hserved with
    | aside _ _ hstreams _ => exact ⟨u, hstreams s.n u hstream, List.prefix_rfl⟩
    | act c _ _ hc _ =>
        rcases LeaseStream.writes_act s.n t.sharing t'.sharing c hc u hstream with ⟨u', hu', hsame |
          ⟨_, frame, _, _, hmore⟩⟩
        · exact ⟨u', hu', by rw [hsame]⟩
        · exact ⟨u', hu', hmore ▸ List.prefix_append _ _⟩
  -- The proxy makes one, and the stream is not touched.
  have hproxy : ∀ (v : Tunnel) (b : ProxyAction), v.stream = s.stream →
      v.moveProxy fromSlice toString fromStr b = some s' →
      ∃ u', s'.stream = some u' ∧ u.delivered <+: u'.delivered := by
    intro v b hv hb
    simp only [moveProxy, Option.map_eq_some_iff] at hb
    rcases hb with ⟨p, _, rfl⟩
    exact ⟨u, hv.trans hu, List.prefix_rfl⟩
  cases goes_step s s' a hstep with
  | fleet b fleet _ hb => exact hfleet _ b hb rfl rfl
  | editor b _ _ hmove => exact hproxy s b rfl hmove
  | hear writes _ hmove => exact hproxy { s with toProxy := s.nextRead.2 } _ rfl hmove
  | readLine call _ hread =>
      rcases readLine_step s s' call hread with ⟨b, _, hb, hs', _⟩
      exact hfleet s' _ hb (by rw [hs']) (by rw [hs'])
  | write _ _ _ fleet _ _ hb => exact hfleet _ _ hb rfl rfl

/-- What one step keeps. -/
theorem descending_step (hcompact : Json.PrintsCompact toString) (s s' : Tunnel) (a : TunnelAction)
    (hstep : s.step fromSlice toString fromStr a = some s')
    (hback : DeliveredBack toString fromStr s) (hroom : exact → s.room a = true)
    (h : Descending toString exact s) : Descending toString exact s' := by
  have hall := h
  rcases h with ⟨t, u, heard, pending, messages, answers, shown, warning, hdown, hproxy⟩
  cases goes_step s s' a hstep with
  | fleet b fleet hmay hfleet =>
      -- A frame is written by the step `write`, and not here.
      have hwrite : b ≠ .server s.server (.write s.n) := by
        rintro rfl
        simp [mayMove] at hmay
      rcases downward_fleet s { s with fleet := fleet, spoken := s.spoken ++ s.emitted b } t u
        heard pending hdown b hfleet hwrite rfl rfl rfl rfl rfl hroom with ⟨t', u', hdown'⟩
      exact ⟨t', u', heard, pending, messages, answers, shown, warning, hdown', hproxy⟩
  | editor b _ hb hmove => exact descending_editor s s' hall b hb hmove
  | hear writes _ hmove => exact descending_hear hcompact s s' hall hback writes hmove
  | readLine call _ hread =>
      rcases readLine_step s s' call hread with ⟨b, bytes, hfleet, hs', hwrite, hother⟩
      -- Reading a line is none of the steps in which the server writes or is read.
      have hquiet : s.emitted (.server s.server b) = [] := by
        cases b with
        | transport c => exact absurd rfl (hother c)
        | _ => rfl
      have hanyway : s.room (.fleet (.server s.server b)) = true := by
        cases b with
        | transport c => exact absurd rfl (hother c)
        | _ => rfl
      rcases downward_fleet s s' t u heard pending hdown _ hfleet
        (fun hb => hwrite s.n (by simpa using hb)) (by rw [hs']) (by rw [hs']) (by rw [hs'])
        (by rw [hs']) (by rw [hs', hquiet, List.append_nil]) (fun _ => hanyway) with
        ⟨t', u', hdown'⟩
      refine ⟨t', u', heard, pending, messages, answers, shown, warning, hdown', ?_⟩
      rw [hs']
      exact hproxy
  | write frame v rest fleet hv hqueue hfleet =>
      rw [stream_of_joined s t u hdown.toJoined, Option.some.injEq] at hv
      subst hv
      rcases downward_write s { s with
          fleet := fleet
          toProxy := s.toProxy ++ writeFrames toString [frame.content] } t u heard pending hdown
        frame rest hqueue hfleet rfl rfl rfl rfl rfl with ⟨t', u', hdown'⟩
      exact ⟨t', u', heard, _, messages, answers, shown, warning, hdown', hproxy⟩

/-! ### Runs -/

theorem descending_connect (fleet : Fleet) (attach : CallId) (n : Nat) (input : List UInt8)
    (s : Tunnel) (h : connect fromSlice fleet attach n input = some s) :
    Descending toString exact s := by
  rcases connect_cases fromSlice fleet attach n input s h with
    ⟨lease, handle, t, t', _, _, _, ht', _, hstream, hspoken, hn, hproxy, _, hbytes⟩
  refine ⟨t', _, [], [], [], [], [], [], ⟨⟨ht', by rw [hn]; exact hstream, ?_⟩, ?_, hbytes, rfl⟩,
    ⟨rfl, .inl ?_⟩, ?_, ?_⟩
  · rw [hproxy]
    rfl
  · rw [hspoken]
    exact LeaseStream.carried_connect lease.id t'.sharing.transport
  · rw [hproxy]
    rfl
  · rw [hproxy]
    exact Proxy.account_attached fromSlice handle.initializeResult lease.id input
  · rw [hproxy]
    exact ⟨.nil, List.prefix_rfl, fun _ => ⟨rfl, rfl⟩, Nat.zero_le _, fun hne => absurd rfl hne⟩

/-- A tunnel at rest has shown everything that was written. -/
theorem shown_atRest (s : Tunnel) (t : Server) (u : LeaseStream)
    (heard pending : List (Tagged StreamFrame)) (answers shown warning : List Json)
    (hdown : Downward toString exact s t u heard pending)
    (hshown : Proxy.Shown s.proxy answers shown warning (payloads heard)) (hrest : s.AtRest t u)
    (hexact : exact) : shown = s.spoken := by
  have hempty : pending = [] :=
    List.map_eq_nil_iff.mp (pending_nil _ (hdown.arriving ▸ hrest.socket))
  have hcoming := (hdown.carried.coming hrest.forwards.writerTask hrest.forwards.runtimeTask).2
    hexact
  rw [LeaseStream.coming_eq, hrest.stdout, hrest.kept, hrest.inHand, hrest.queue,
    hdown.delivered, hempty] at hcoming
  rw [(hshown.running hrest.proxy).1, ← hcoming]
  simp

variable (fromSlice toString fromStr) in
/-- The forwarding task never fell behind by all that the broadcast keeps. -/
def InTime (start : Tunnel) (as : List TunnelAction) : Prop :=
  Along (step fromSlice toString fromStr) (fun u a => u.room a = true) start as

/-- The invariant at the end of a run. Whether the reader was in time is settled for the run
    as a whole, before the induction. -/
theorem descending_run (hcompact : Json.PrintsCompact toString) (fleet : Fleet) (attach : CallId)
    (n : Nat) (input : List UInt8) (start : Tunnel)
    (hstart : connect fromSlice fleet attach n input = some start) (as : List TunnelAction)
    (s : Tunnel) (hrun : run (step fromSlice toString fromStr) start as = some s)
    (hback : DeliveredBack toString fromStr s) :
    Descending toString (InTime fromSlice toString fromStr start as) s := by
  refine run_invariant
    (C := fun u a => InTime fromSlice toString fromStr start as → u.room a = true)
    (I := fun u => DeliveredBack toString fromStr u →
      Descending toString (InTime fromSlice toString fromStr start as) u)
    (fun u a u' hu hstep hcond hback' => by
      have hbacku : DeliveredBack toString fromStr u := fun v hv frame hframe => by
        rcases stream_grows u u' a v hv hstep with ⟨v', hv', hmore⟩
        exact hback' v' hv' frame (hmore.subset hframe)
      exact descending_step hcompact u u' a hstep hbacku hcond (hu hbacku))
    as start s hrun
    (fun _ => descending_connect fleet attach n input start hstart) ?_ hback
  -- The condition is asked of a step only if every step meets it.
  by_cases hall : InTime fromSlice toString fromStr start as
  · exact along_mono (fun u a ha _ => ha) as start hall
  · exact along_mono (fun u a _ hroom => absurd hroom hall) as start (along_true as start)

/-- Whatever the clients of the daemon do, and whichever of the tasks between the server and
    the editor ends first: what the editor is written is an interleaving of the answers to its
    `initialize` and `shutdown` requests with what the server has written since the
    connection, each message at most once and in order, and one warning at most, which is
    the last the proxy does. If the reader has never broadcast to a forwarding task that was
    behind by all that the broadcast keeps, nothing is left out in between, and at rest
    nothing at all. -/
theorem editor_shown (hcompact : Json.PrintsCompact toString) (fleet : Fleet) (attach : CallId)
    (n : Nat) (input : List UInt8) (start : Tunnel)
    (hstart : connect fromSlice fleet attach n input = some start) (as : List TunnelAction)
    (s : Tunnel) (hrun : run (step fromSlice toString fromStr) start as = some s)
    (hback : DeliveredBack toString fromStr s) :
    ∃ answers shown warning, s.proxy.HasAnswered answers ∧
      Interleaved answers (shown ++ warning) s.proxy.stdout ∧ shown.Sublist s.spoken ∧
      (InTime fromSlice toString fromStr start as → shown <+: s.spoken ∧
        ∀ t u, s.fleet.servers.get? s.server = some t → s.stream = some u → s.AtRest t u →
          shown = s.spoken) ∧
      warning.length ≤ 1 ∧ (warning ≠ [] → s.proxy.pc = .returned .streamClosed) := by
  rcases descending_run hcompact fleet attach n input start hstart as s hrun hback with
    ⟨t, u, heard, pending, messages, answers, shown, warning, hdown, hhanded, haccount, hshown⟩
  have hheard : payloads heard <+: payloads u.delivered := by
    rw [hdown.delivered, payloads_append]
    exact List.prefix_append _ _
  have hpart := part_cut hdown.carried.delivered (hshown.first.trans hheard)
  have hanswered := Proxy.hasAnswered_of_account _ _ messages answers hhanded haccount
  refine ⟨answers, shown, warning, hanswered, hshown.written, hpart.1,
    fun hintime => ⟨hpart.2 hintime, fun t' u' ht' hu' hrest => ?_⟩, hshown.warned, hshown.ended⟩
  rw [hdown.server, Option.some.injEq] at ht'
  rw [stream_of_joined s t u hdown.toJoined, Option.some.injEq] at hu'
  rw [← ht', ← hu'] at hrest
  exact shown_atRest s t u heard pending answers shown warning hdown hshown hrest hintime

open Connection (plainText plain_compact)

/-- The frame of a message of the server. -/
def noticeFrame : StreamFrame := ⟨protocolVersion, .lspOut, "lease_1", 1, .arr []⟩

/-- What is read in the text of this frame, and in nothing else. -/
def readNotice (text : List Char) : Option Json :=
  [noticeFrame.toValue].find? fun value => plainText value = text

/-- The server writes a message, and it takes its way. -/
def backToEditor : List TunnelAction :=
  [.transport (.emit none (.arr [])), .transport .read, .take 3, .push 3].map
      (fun a => .fleet (.server 0 a)) ++
    [.write, .hear true]

theorem backToEditor_ends : ∃ fleet start s t u,
    connect readEmptyArray fleet 0 3 [] = some start ∧
      run (step readEmptyArray plainText readNotice) start backToEditor = some s ∧
      s.fleet.servers.get? s.server = some t ∧ s.stream = some u ∧
      (∀ frame ∈ u.delivered,
        readNotice (plainText frame.content.toValue) = some frame.content.toValue) ∧
      (s.proxy.pc = .running ∧ u.runtimeTask = .running ∧ u.writerTask = .running) ∧
      (t.sharing.transport.stdout = [] ∧ t.sharing.transport.outbound.kept u.rx = [] ∧
        u.inHand = none ∧ u.queue = [] ∧ s.toProxy = []) ∧
      s.spoken = [.arr []] ∧
      Along (step readEmptyArray plainText readNotice) (fun u a => u.room a = true) start
        backToEditor := by
  have hall : ((run Fleet.step (Fleet.init 0) leasedFleet).bind fun fleet =>
      (connect readEmptyArray fleet 0 3 []).bind fun start =>
        (run (step readEmptyArray plainText readNotice) start backToEditor).bind fun s =>
          (s.fleet.servers.get? s.server).bind fun t => s.stream.map fun u => decide (
            (∀ frame ∈ u.delivered,
              readNotice (plainText frame.content.toValue) = some frame.content.toValue) ∧
            (s.proxy.pc = .running ∧ u.runtimeTask = .running ∧ u.writerTask = .running) ∧
            (t.sharing.transport.stdout = [] ∧ t.sharing.transport.outbound.kept u.rx = [] ∧
              u.inHand = none ∧ u.queue = [] ∧ s.toProxy = []) ∧
            s.spoken = [.arr []] ∧
            Along (step readEmptyArray plainText readNotice) (fun u a => u.room a = true) start
              backToEditor)) = some true := by
    decide +kernel
  rcases Option.bind_eq_some_iff.mp hall with ⟨fleet, _, hall⟩
  rcases Option.bind_eq_some_iff.mp hall with ⟨start, hstart, hall⟩
  rcases Option.bind_eq_some_iff.mp hall with ⟨s, hs, hall⟩
  rcases Option.bind_eq_some_iff.mp hall with ⟨t, ht, hall⟩
  rcases Option.map_eq_some_iff.mp hall with ⟨u, hu, hall⟩
  exact ⟨fleet, start, s, t, u, hstart, hs, ht, hu, of_decide_eq_true hall⟩

/-- The message has reached the editor. -/
theorem editor_shown_notice : ∃ fleet start s,
    connect readEmptyArray fleet 0 3 [] = some start ∧
      run (step readEmptyArray plainText readNotice) start backToEditor = some s ∧
      s.spoken = [.arr []] ∧ ∃ answers, Interleaved answers s.spoken s.proxy.stdout := by
  rcases backToEditor_ends with
    ⟨fleet, start, s, t, u, hstart, hs, ht, hu, hback, ⟨hpc, hruntime, hwriter⟩,
      ⟨hstdout, hkept, hhand, hqueue, hsocket⟩, hspoken, hintime⟩
  have hdelivered : DeliveredBack plainText readNotice s := fun v hv frame hframe => by
    rw [hu, Option.some.injEq] at hv
    exact hback frame (hv ▸ hframe)
  rcases editor_shown plain_compact fleet 0 3 [] start hstart backToEditor s hs hdelivered with
    ⟨answers, shown, warning, _, hwritten, _, hall, _, hwarned⟩
  have hshown := (hall hintime).2 t u ht hu
    ⟨hpc, ⟨hruntime, hwriter⟩, hstdout, hkept, hhand, hqueue, hsocket⟩
  have hquiet : warning = [] := by
    by_contra hne
    rw [hpc] at hwarned
    exact absurd (hwarned hne) (by simp)
  rw [hshown, hquiet, List.append_nil] at hwritten
  exact ⟨fleet, start, s, hstart, hs, hspoken, answers, hwritten⟩

end Tunnel

end Lspee
