import Lspee.Theory.Isolation
import Mathlib.Data.List.Range

/-!
# The Numbers on a Stream's Frames

Two tasks make frames for the client of a dedicated stream, and each numbers its
own. The forwarding task counts the messages it takes off the broadcast, from
one, up to the largest number there is. The event task makes one frame, and
gives it the number one. Their frames meet in one queue and are written in the
order of the queue.

`Ascending` says that the numbers of the frames written to a client rise, as long
as they are below the largest one. The frames of the forwarding task do
(`Numbered`), and the first of them has the number one, as the event task's
frame has. So the numbers rise exactly as long as the client is written frames
of one kind only (`ascending_iff`).

## Main definitions

* `Ascending`: The numbers of a list of frames rise.
* `OneKind`: The frames of a list are all of one type.
* `forwardedSeqs`: The numbers of the forwarding task's frames.
* `Numbered`: What the two tasks keep of a stream.
* `WritesOneKind`: The condition on a step.

## Theorems

* `ascending_iff_oneKind`: What rising numbers mean for a numbered stream.
* `numbered_moved`, `numbered_step`: The tasks keep the numbering.
* `ascending_iff`: The condition is exact over whole runs.
* `error_after_message`: A run that breaks it.
-/

namespace Lspee

open Transition Broadcast

/-- The largest number of a frame. -/
def maxSeq : Nat := 2 ^ 64 - 1

/-- The numbers of the frames rise, below the largest one. -/
def Ascending (frames : List (Tagged StreamFrame)) : Prop :=
  frames.Pairwise fun a b => b.content.seq < maxSeq → a.content.seq < b.content.seq

/-- The frames are all of one type. -/
def OneKind (frames : List (Tagged StreamFrame)) : Prop :=
  ∀ a ∈ frames, ∀ b ∈ frames, a.content.frameType = b.content.frameType

/-- The frame is one of the forwarding task. -/
def isForwarded (frame : Tagged StreamFrame) : Bool :=
  decide (frame.content.frameType = .lspOut)

/-- The numbers of the forwarding task's frames. -/
def forwardedSeqs (frames : List (Tagged StreamFrame)) : List Nat :=
  (frames.filter isForwarded).map fun frame => frame.content.seq

/-- The number the forwarding task gives to its frame after `k` others. -/
def seqAfter (k : Nat) : Nat := min (k + 1) maxSeq

/-- The numbers of the first `k` frames of the forwarding task. -/
def firstSeqs (k : Nat) : List Nat := (List.range k).map seqAfter

/-- The numbers are those of the first frames of the forwarding task. -/
def Counted (frames : List (Tagged StreamFrame)) : Prop :=
  ∃ k, forwardedSeqs frames = firstSeqs k

/-- The frame is one of the event task. -/
def isError (frame : Tagged StreamFrame) : Bool :=
  decide (frame.content.frameType = .streamError)

theorem firstSeqs_succ (k : Nat) : firstSeqs (k + 1) = firstSeqs k ++ [seqAfter k] := by
  unfold firstSeqs
  rw [List.range_succ, List.map_append]
  rfl

theorem firstSeqs_length (k : Nat) : (firstSeqs k).length = k := by
  unfold firstSeqs
  rw [List.length_map, List.length_range]

/-- The forwarding task's number after the next one. -/
theorem seqAfter_succ (k : Nat) : min (seqAfter k + 1) maxSeq = seqAfter (k + 1) := by
  unfold seqAfter
  omega

/-- The forwarding task's numbers rise until they stay at the largest one. -/
theorem firstSeqs_ascending (k : Nat) :
    (firstSeqs k).Pairwise fun a b => b < maxSeq → a < b := by
  unfold firstSeqs
  rw [List.pairwise_map]
  refine List.pairwise_lt_range.imp fun {a b} hlt hmax => ?_
  unfold seqAfter at *
  omega

theorem forwardedSeqs_append (frames more : List (Tagged StreamFrame)) :
    forwardedSeqs (frames ++ more) = forwardedSeqs frames ++ forwardedSeqs more := by
  unfold forwardedSeqs
  rw [List.filter_append, List.map_append]

theorem firstSeqs_take (k m : Nat) (h : m ≤ k) : (firstSeqs k).take m = firstSeqs m := by
  unfold firstSeqs
  rw [← List.map_take, List.take_range, Nat.min_eq_left h]

/-- What is in front of counted frames is counted. -/
theorem counted_of_append (frames more : List (Tagged StreamFrame))
    (h : Counted (frames ++ more)) : Counted frames := by
  rcases h with ⟨k, hk⟩
  rw [forwardedSeqs_append] at hk
  have hle : (forwardedSeqs frames).length ≤ k := by
    have hlength := congrArg List.length hk
    rw [List.length_append, firstSeqs_length] at hlength
    omega
  have htake := congrArg (List.take (forwardedSeqs frames).length) hk
  rw [List.take_left, firstSeqs_take k _ hle] at htake
  exact ⟨_, htake⟩

/-- A frame of one of the two tasks: the event task numbers its own with one. -/
def OfTwoTasks (frame : Tagged StreamFrame) : Prop :=
  isForwarded frame = true ∨ isError frame = true ∧ frame.content.seq = 1

/-- Of two frames, the one written first has the smaller number. -/
theorem ascending_either (frames : List (Tagged StreamFrame)) (h : Ascending frames)
    (a b : Tagged StreamFrame) (ha : a ∈ frames) (hb : b ∈ frames) (hne : a ≠ b) :
    (b.content.seq < maxSeq → a.content.seq < b.content.seq) ∨
      (a.content.seq < maxSeq → b.content.seq < a.content.seq) := by
  have hsymm : Std.Symm fun a b : Tagged StreamFrame =>
      (b.content.seq < maxSeq → a.content.seq < b.content.seq) ∨
        (a.content.seq < maxSeq → b.content.seq < a.content.seq) := ⟨fun _ _ h => h.symm⟩
  have hpair : frames.Pairwise fun a b =>
      (b.content.seq < maxSeq → a.content.seq < b.content.seq) ∨
        (a.content.seq < maxSeq → b.content.seq < a.content.seq) := h.imp fun hrel => Or.inl hrel
  exact hpair.forall ha hb hne

/-- Where the forwarding task's frames are counted and there is at most one of the
    event task, the numbers rise exactly when the frames are of one type. -/
theorem ascending_iff_oneKind (frames : List (Tagged StreamFrame)) (hcounted : Counted frames)
    (hkinds : ∀ frame ∈ frames, OfTwoTasks frame) (herrors : frames.countP isError ≤ 1) :
    Ascending frames ↔ OneKind frames := by
  have hforwarded : ∀ a ∈ frames, isForwarded a = true → ∀ b ∈ frames, isError b = true →
      ¬Ascending frames := by
    intro a ha hfa b hb heb hascending
    rcases hcounted with ⟨k, hk⟩
    -- The first forwarded frame has the number of the event task's.
    have hfirst : ∃ f ∈ frames, isForwarded f = true ∧ f.content.seq = 1 := by
      cases k with
      | zero =>
          have hmem : a.content.seq ∈ forwardedSeqs frames :=
            List.mem_map_of_mem (List.mem_filter.mpr ⟨ha, hfa⟩)
          rw [hk] at hmem
          exact absurd hmem (by simp [firstSeqs])
      | succ k =>
          have hmem : seqAfter 0 ∈ forwardedSeqs frames := by
            rw [hk]
            exact List.mem_map_of_mem (List.mem_range.mpr (Nat.succ_pos k))
          rcases List.mem_map.mp hmem with ⟨f, hf, hseq⟩
          rcases List.mem_filter.mp hf with ⟨hf, hff⟩
          exact ⟨f, hf, hff, hseq⟩
    rcases hfirst with ⟨f, hf, hff, hseq⟩
    have hb1 : b.content.seq = 1 := by
      rcases hkinds b hb with hfb | ⟨_, hb1⟩
      · simp only [isForwarded, isError, decide_eq_true_eq] at hfb heb
        rw [heb] at hfb
        exact absurd hfb (by simp)
      · exact hb1
    have hne : f ≠ b := by
      rintro rfl
      simp only [isForwarded, isError, decide_eq_true_eq] at hff heb
      rw [heb] at hff
      exact absurd hff (by simp)
    have hrel := ascending_either frames hascending f b hf hb hne
    rw [hseq, hb1] at hrel
    unfold maxSeq at hrel
    omega
  constructor
  · intro hascending a ha b hb
    rcases hkinds a ha with hfa | ⟨hea, _⟩ <;> rcases hkinds b hb with hfb | ⟨heb, _⟩
    · simp only [isForwarded, decide_eq_true_eq] at hfa hfb
      rw [hfa, hfb]
    · exact absurd hascending (hforwarded a ha hfa b hb heb)
    · exact absurd hascending (hforwarded b hb hfb a ha hea)
    · simp only [isError, decide_eq_true_eq] at hea heb
      rw [hea, heb]
  · intro hkind
    by_cases hout : ∃ a ∈ frames, isForwarded a = true
    · rcases hout with ⟨a, ha, hfa⟩
      have hall : frames.filter isForwarded = frames := by
        refine List.filter_eq_self.mpr fun b hb => ?_
        rw [isForwarded, hkind b hb a ha]
        exact hfa
      rcases hcounted with ⟨k, hk⟩
      rw [forwardedSeqs, hall] at hk
      unfold Ascending
      rw [← List.pairwise_map (R := fun a b => b < maxSeq → a < b)
        (f := fun frame : Tagged StreamFrame => frame.content.seq), hk]
      exact firstSeqs_ascending k
    · have hall : ∀ b ∈ frames, isError b = true := by
        intro b hb
        rcases hkinds b hb with hfb | ⟨heb, _⟩
        · exact absurd ⟨b, hb, hfb⟩ hout
        · exact heb
      rw [List.countP_eq_length.mpr hall] at herrors
      cases frames with
      | nil => exact List.Pairwise.nil
      | cons frame rest =>
          rw [List.length_cons] at herrors
          rw [List.length_eq_zero_iff.mp (by omega : rest.length = 0)]
          exact List.pairwise_singleton _ _

namespace LeaseStream

/-- What the two tasks keep of a stream. As long as the writer task runs, the
    frames that were written and the queued ones are the first of the forwarding
    task, with those of the event task between them. -/
structure Numbered (s : LeaseStream) : Prop where
  delivered : Counted s.delivered
  queue : s.writerTask = .running → Counted (s.delivered ++ s.queue)
  inHand : s.writerTask = .running → s.runtimeTask = .running →
    ∃ k, forwardedSeqs (s.delivered ++ s.queue ++ s.inHand.toList) = firstSeqs k ∧
      s.seq = seqAfter k
  kinds : ∀ frame ∈ s.delivered ++ s.queue, OfTwoTasks frame
  forwarded : ∀ frame, s.inHand = some frame → isForwarded frame = true
  /-- The event task makes one frame. -/
  errors : (s.delivered ++ s.queue).countP isError +
    (if s.eventTask = .running then 1 else 0) ≤ 1

theorem numbered_connect (leaseId : String) (rx : Receiver) : Numbered (connect leaseId rx) where
  delivered := ⟨0, rfl⟩
  queue := fun _ => ⟨0, rfl⟩
  inHand := fun _ _ => ⟨0, rfl, rfl⟩
  kinds := by simp [connect]
  forwarded := by simp [connect]
  errors := by simp [connect]

/-- A message that is taken gets the next number. -/
theorem numbered_take (s s' : LeaseStream) (outbound : Channel (Tagged LspMessage))
    (senders : Nat) (hs : Numbered s) (h : s.take outbound senders = some s') : Numbered s' := by
  rcases take_cases s s' outbound senders h with ⟨htask, hhand, hcases⟩
  rcases hcases with ⟨_, hs'⟩ | ⟨_, m, _, _, hs'⟩ | ⟨_, hs'⟩
  · rw [hs']
    exact ⟨hs.delivered, hs.queue, hs.inHand, hs.kinds, hs.forwarded, hs.errors⟩
  · rw [hs']
    refine ⟨hs.delivered, hs.queue, fun hwriter _ => ?_, hs.kinds, ?_, hs.errors⟩
    · rcases hs.inHand hwriter htask with ⟨k, hk, hseq⟩
      have hnew : forwardedSeqs [s.lspOut m] = [seqAfter k] := by
        rw [← hseq]
        rfl
      refine ⟨k + 1, ?_, ?_⟩
      · rw [hhand, Option.toList_none, List.append_nil] at hk
        rw [Option.toList_some, forwardedSeqs_append, hk, hnew, firstSeqs_succ]
      · have hnext := seqAfter_succ k
        unfold maxSeq at hnext
        simp only [hseq, hnext]
    · intro frame hframe
      rw [← Option.some.inj hframe]
      rfl
  · rw [hs']
    exact ⟨hs.delivered, hs.queue, fun _ hrun => absurd hrun (by simp), hs.kinds, hs.forwarded,
      hs.errors⟩

/-- The frame in the forwarding task's hand goes to the end of the queue. -/
theorem numbered_push (s s' : LeaseStream) (hs : Numbered s) (h : s.push = some s') :
    Numbered s' := by
  rcases push_cases s s' h with ⟨frame, htask, hhand, ⟨_, hs'⟩ | hs'⟩
  · rw [hs']
    exact ⟨hs.delivered, hs.queue, fun _ hrun => absurd hrun (by simp), hs.kinds,
      fun _ hframe => absurd hframe (by simp), hs.errors⟩
  · have hframe := hs.forwarded frame hhand
    rw [hs']
    refine ⟨hs.delivered, fun hwriter => ?_, fun hwriter _ => ?_, ?_,
      fun _ hframe => absurd hframe (by simp), ?_⟩
    · rcases hs.inHand hwriter htask with ⟨k, hk, _⟩
      rw [hhand, Option.toList_some, List.append_assoc] at hk
      exact ⟨k, hk⟩
    · rcases hs.inHand hwriter htask with ⟨k, hk, hseq⟩
      rw [hhand, Option.toList_some, List.append_assoc] at hk
      refine ⟨k, ?_, hseq⟩
      rw [Option.toList_none, List.append_nil, hk]
    · simp only [← List.append_assoc]
      intro g hg
      rcases List.mem_append.mp hg with hg | hg
      · exact hs.kinds g hg
      · rw [List.mem_singleton.mp hg]
        exact Or.inl hframe
    · have herror : isError frame = false := by
        simp only [isForwarded, decide_eq_true_eq] at hframe
        simp [isError, hframe]
      have hcount : [frame].countP isError = 0 := by
        rw [List.countP_singleton, herror]
        rfl
      have herrors := hs.errors
      simp only [← List.append_assoc]
      rw [List.countP_append, hcount]
      exact herrors

/-- The event task's one frame goes to the end of the queue, and takes no number
    from the forwarding task. -/
theorem numbered_event (s s' : LeaseStream) (payload : Json) (hs : Numbered s)
    (h : s.event payload = some s') : Numbered s' := by
  simp only [event, Option.ite_none_right_eq_some, Option.some.injEq] at h
  rcases h with ⟨⟨htask, hwriter, _⟩, hs'⟩
  have hnone : ∀ error : Tagged StreamFrame, error.content.frameType = .streamError →
      forwardedSeqs [error] = [] := by
    intro error herror
    simp [forwardedSeqs, isForwarded, herror]
  rw [← hs']
  refine ⟨hs.delivered, fun hwriter => ?_, fun hwriter hrun => ?_, ?_, hs.forwarded, ?_⟩
  · rcases hs.queue hwriter with ⟨k, hk⟩
    refine ⟨k, ?_⟩
    simp only [← List.append_assoc]
    rw [forwardedSeqs_append, hk]
    rw [hnone]
    · exact List.append_nil _
    · rfl
  · rcases hs.inHand hwriter hrun with ⟨k, hk, hseq⟩
    refine ⟨k, ?_, hseq⟩
    rw [forwardedSeqs_append] at hk
    simp only [← List.append_assoc]
    rw [forwardedSeqs_append, forwardedSeqs_append (s.delivered ++ s.queue)]
    rw [hnone]
    · rw [List.append_nil]
      exact hk
    · rfl
  · simp only [← List.append_assoc]
    intro g hg
    rcases List.mem_append.mp hg with hg | hg
    · exact hs.kinds g hg
    · rw [List.mem_singleton.mp hg]
      exact Or.inr ⟨rfl, rfl⟩
  · have herrors := hs.errors
    rw [if_pos htask] at herrors
    simp only [← List.append_assoc]
    rw [List.countP_append]
    have hone : ([⟨none, ⟨protocolVersion, .streamError, s.leaseId, 1, payload⟩⟩] :
        List (Tagged StreamFrame)).countP isError = 1 := rfl
    simp only [hone, reduceCtorEq, if_false]
    omega

/-- The writer task moves the first frame of the queue behind the ones it has
    written. -/
theorem numbered_write (s s' : LeaseStream) (hs : Numbered s) (h : s.write = some s') :
    Numbered s' := by
  rcases write_cases s s' h with ⟨frame, rest, hwriter, hqueue, hs'⟩
  have hmoved : s.delivered ++ [frame] ++ rest = s.delivered ++ s.queue := by
    rw [hqueue, List.append_assoc, List.singleton_append]
  rw [hs']
  refine ⟨?_, fun _ => ?_, fun _ hrun => ?_, ?_, hs.forwarded, ?_⟩
  · refine counted_of_append _ rest ?_
    simp only [hmoved]
    exact hs.queue hwriter
  · simp only [hmoved]
    exact hs.queue hwriter
  · simp only [hmoved]
    exact hs.inHand hwriter hrun
  · simp only [hmoved]
    exact hs.kinds
  · simp only [hmoved]
    exact hs.errors

theorem numbered_moved (t : Transport) (s s' : LeaseStream) (hs : Numbered s)
    (h : Moved t s s') : Numbered s' := by
  cases h with
  | take s' h => exact numbered_take s s' t.outbound t.senders hs h
  | push s' h => exact numbered_push s s' hs h
  | event payload s' h => exact numbered_event s s' payload hs h
  | write s' h => exact numbered_write s s' hs h
  | eventEnds =>
      have herrors := hs.errors
      refine ⟨hs.delivered, hs.queue, hs.inHand, hs.kinds, hs.forwarded, ?_⟩
      simp only [reduceCtorEq, if_false]
      omega
  | writerEnds =>
      have hqueue : s.delivered ++ s.writerEnds.queue = s.delivered := List.append_nil _
      refine ⟨hs.delivered, fun hwriter => absurd hwriter (by simp [writerEnds]),
        fun hwriter => absurd hwriter (by simp [writerEnds]), fun g hg => ?_, hs.forwarded, ?_⟩
      · exact hs.kinds g (List.mem_append_left _ (by rw [← hqueue]; exact hg))
      · have herrors := hs.errors
        rw [List.countP_append] at herrors
        unfold writerEnds
        simp only [List.append_nil]
        omega
  | fail => exact ⟨hs.delivered, hs.queue, hs.inHand, hs.kinds, hs.forwarded, hs.errors⟩
  | eof =>
      have herrors := hs.errors
      refine ⟨hs.delivered, hs.queue, fun _ hrun => absurd hrun (by simp [eof]), hs.kinds,
        fun _ hframe => absurd hframe (by simp [eof]), ?_⟩
      unfold eof
      simp only [reduceCtorEq, if_false]
      omega

/-- For a numbered stream, rising numbers mean frames of one type. -/
theorem ascending_delivered (s : LeaseStream) (hs : Numbered s) :
    Ascending s.delivered ↔ OneKind s.delivered := by
  have herrors := hs.errors
  rw [List.countP_append] at herrors
  refine ascending_iff_oneKind s.delivered hs.delivered (fun frame hframe => ?_) (by omega)
  exact hs.kinds frame (List.mem_append_left _ hframe)

end LeaseStream

namespace Sharing

/-- All streams are numbered. -/
def AllNumbered (h : Sharing) : Prop :=
  ∀ n s, h.streams.get? n = some s → s.Numbered

/-- The numbers of the frames rise on every stream. -/
def AllAscending (h : Sharing) : Prop :=
  ∀ n s, h.streams.get? n = some s → Ascending s.delivered

/-- The frame that is written next is of the type of those already written to
    its client. -/
def WritesOneKind (h : Sharing) : SharingAction → Prop
  | .write n => ∀ s, h.streams.get? n = some s → ∀ frame, s.queue.head? = some frame →
      ∀ old ∈ s.delivered, old.content.frameType = frame.content.frameType
  | _ => True

theorem numbered_step (h h' : Sharing) (a : SharingAction) (hnumbered : h.AllNumbered)
    (hstep : h.step a = some h') : h'.AllNumbered := by
  cases step_effect h h' a hstep with
  | transport | begin | request | ignored => exact hnumbered
  | connect n leaseId hfree =>
      intro k s hs
      by_cases hk : k = n
      · rw [hk, Table.get?_set_self, Option.some.injEq] at hs
        rw [← hs]
        exact LeaseStream.numbered_connect leaseId _
      · rw [Table.get?_set_ne _ _ _ _ hk] at hs
        exact hnumbered k s hs
  | moved _ n s s' _ hs hmoved =>
      intro k u hu
      by_cases hk : k = n
      · rw [hk, Table.get?_set_self, Option.some.injEq] at hu
        rw [← hu]
        exact LeaseStream.numbered_moved h.transport s s' (hnumbered n s hs) hmoved
      · rw [Table.get?_set_ne _ _ _ _ hk] at hu
        exact hnumbered k u hu

/-! ### What is written to a client -/

/-- The frames written to each client, after a step: those written before, and the
    next one of the queue where the writer task has moved. -/
def Wrote (h : Sharing) (a : SharingAction) (n : Nat) (s' : LeaseStream) : Prop :=
  s'.delivered = [] ∨ (∃ s, h.streams.get? n = some s ∧ s'.delivered = s.delivered) ∨
    ∃ s frame, a = .write n ∧ h.streams.get? n = some s ∧ s.queue.head? = some frame ∧
      s'.delivered = s.delivered ++ [frame]

/-- Only the writer task writes to a client. -/
theorem wrote_step (h h' : Sharing) (a : SharingAction) (hstep : h.step a = some h') (n : Nat)
    (s' : LeaseStream) (hs' : h'.streams.get? n = some s') : h.Wrote a n s' := by
  rcases touches_step h h' a hstep n with hsame | ⟨s, t, hs, ht, hacted⟩ | ⟨leaseId, _, _, hnew⟩
  · exact Or.inr (Or.inl ⟨s', by rw [← hsame]; exact hs', rfl⟩)
  · rw [ht, Option.some.injEq] at hs'
    rw [← hs']
    cases hacted with
    | write _ hwrite =>
        rcases LeaseStream.write_cases s t hwrite with ⟨frame, rest, _, hqueue, ht⟩
        exact Or.inr (Or.inr ⟨s, frame, rfl, hs, by rw [hqueue]; rfl, by rw [ht]⟩)
    | take _ htake =>
        refine Or.inr (Or.inl ⟨s, hs, ?_⟩)
        rcases LeaseStream.take_cases s t _ _ htake with ⟨_, _, hcases⟩
        rcases hcases with ⟨_, ht⟩ | ⟨_, m, _, _, ht⟩ | ⟨_, ht⟩ <;> rw [ht]
    | push _ hpush =>
        refine Or.inr (Or.inl ⟨s, hs, ?_⟩)
        rcases LeaseStream.push_cases s t hpush with ⟨frame, _, _, ⟨_, ht⟩ | ht⟩ <;> rw [ht]
    | event payload _ hevent =>
        refine Or.inr (Or.inl ⟨s, hs, ?_⟩)
        simp only [LeaseStream.event, Option.ite_none_right_eq_some, Option.some.injEq] at hevent
        rw [← hevent.2]
    | eventEnds | writeFails | writerDrained | fail | eof => exact Or.inr (Or.inl ⟨s, hs, rfl⟩)
  · rw [hnew, Option.some.injEq] at hs'
    rw [← hs']
    exact Or.inl rfl

/-! ### Rising numbers -/

theorem oneKind_append (frames : List (Tagged StreamFrame)) (frame : Tagged StreamFrame)
    (h : OneKind frames)
    (hframe : ∀ old ∈ frames, old.content.frameType = frame.content.frameType) :
    OneKind (frames ++ [frame]) := by
  intro a ha b hb
  rcases List.mem_append.mp ha with ha | ha <;> rcases List.mem_append.mp hb with hb | hb
  · exact h a ha b hb
  · rw [List.mem_singleton.mp hb]
    exact hframe a ha
  · rw [List.mem_singleton.mp ha]
    exact (hframe b hb).symm
  · rw [List.mem_singleton.mp ha, List.mem_singleton.mp hb]

theorem ascending_keep (h h' : Sharing) (a : SharingAction) (hnumbered : h.AllNumbered)
    (hascending : h.AllAscending) (hstep : h.step a = some h') (hone : h.WritesOneKind a) :
    h'.AllAscending := by
  intro n s' hs'
  rcases wrote_step h h' a hstep n s' hs' with hnil | ⟨s, hs, heq⟩ | ⟨s, frame, ha, hs, hhead, heq⟩
  · rw [hnil]
    exact List.Pairwise.nil
  · rw [heq]
    exact hascending n s hs
  · have hnumbered' := numbered_step h h' a hnumbered hstep n s' hs'
    have hold : OneKind s.delivered :=
      (LeaseStream.ascending_delivered s (hnumbered n s hs)).mp (hascending n s hs)
    rw [ha] at hone
    rw [LeaseStream.ascending_delivered s' hnumbered', heq]
    exact oneKind_append s.delivered frame hold (hone s hs frame hhead)

theorem ascending_need (h h' : Sharing) (a : SharingAction) (hnumbered : h.AllNumbered)
    (hstep : h.step a = some h') (hascending : h'.AllAscending) : h.WritesOneKind a := by
  cases a with
  | write n =>
      intro s hs frame hhead old hold
      rcases move_eq_some h h' n _ hstep with ⟨u, s', hu, hwrite, heq⟩
      rw [hs, Option.some.injEq] at hu
      rw [← hu] at hwrite
      rcases LeaseStream.write_cases s s' hwrite with ⟨g, rest, _, hqueue, hs'⟩
      have hg : g = frame := by
        rw [hqueue, List.head?_cons, Option.some.injEq] at hhead
        exact hhead
      have hget : h'.streams.get? n = some s' := by
        rw [heq]
        exact Table.get?_set_self _ _ _
      have hone := (LeaseStream.ascending_delivered s'
        (numbered_step h h' _ hnumbered hstep n s' hget)).mp (hascending n s' hget)
      rw [hs', hg] at hone
      exact hone old (List.mem_append_left _ hold) frame
        (List.mem_append_right _ List.mem_cons_self)
  | _ => trivial

/-- On every stream, and in every state of a run, the numbers of the frames
    written to the client rise, if and only if the client of no stream is ever
    written a frame of another type than those before. -/
theorem ascending_iff (as : List SharingAction) :
    Always step AllAscending init as ↔ Along step WritesOneKind init as := by
  have hnumbered : init.AllNumbered := fun n s hs => absurd hs (by simp [init])
  have hascending : init.AllAscending := fun n s hs => absurd hs (by simp [init])
  refine always_iff_along (I := AllNumbered) ?_ ?_ as init hnumbered hascending
    (along_true as init)
  · intro h a h' hI hP hstep _ hone
    exact ⟨numbered_step h h' a hI hstep, ascending_keep h h' a hI hP hstep hone⟩
  · intro h a h' hI _ hstep _ hP
    exact ascending_need h h' a hI hstep hP

/-- The server sends a message, and then the session ends with an error: the client
    is told of both. -/
def errorAfterMessage : List SharingAction :=
  [.transport (.clone .session 0), .connect 0 "lease_1",
    .transport (.emit none (.obj [("jsonrpc", .str "2.0"), ("method", .str "window/logMessage")])),
    .transport .read, .take 0, .push 0, .write 0, .event 0 (.obj []), .write 0]

theorem errorAfterMessage_isSome : (run step init errorAfterMessage).isSome = true := by
  decide

/-- The error has the number of the message before it. -/
theorem error_after_message :
    ¬ ∀ (as : List SharingAction) (h : Sharing), run step init as = some h →
      h.AllAscending := by
  intro hall
  have hascending := hall errorAfterMessage
    ((run step init errorAfterMessage).get errorAfterMessage_isSome) (Option.some_get _).symm
    0 _ rfl
  have hlt := List.rel_of_pairwise_cons hascending List.mem_cons_self (by decide)
  exact absurd hlt (by decide)

end Sharing

end Lspee
