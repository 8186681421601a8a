import Mathlib.Data.List.Basic

/-!
# Broadcast Channels

A bounded channel on which every receiver sees every value sent after it
subscribed. The channel keeps the last `capacity` values. A receiver that falls
further behind has lost values: its next poll says so, and moves it to the
oldest value still kept. A receiver that has read everything waits, or is told
that the channel is closed when nobody can send any more.

The state here is the history of the channel, and a receiver is a position in
it. Values that no receiver can reach any more stay in the history; no poll
returns them.

A receiver is often used to look for one value: poll until a value passes a
test. `seek` is what such a loop ends with if nothing more is sent. A poll that
reads a value over does not change it, so that the result of the loop is known
without following its polls.

## Main definitions

* `Channel`: What has been sent.
* `Receiver`: How far a receiver has read.
* `Channel.send`, `Channel.subscribe`, `Channel.recv`: The operations.
* `Channel.unread`: What a receiver has not read.
* `Channel.Lags`: A receiver has lost values.
* `Channel.kept`: What a receiver can still be given.
* `Channel.seek`: What polling for a value ends with.

## Theorems

* `unread_subscribe`, `unread_send`: What a receiver has not read.
* `mem_kept_send`, `newest_kept`: What a receiver can still be given.
* `kept_send`, `kept_length_send`: What a receiver loses to one more value.
* `recv_value`, `recv_drained`, `recv_lagged`: What a poll returns.
* `seek_eq_none_iff`: When a search waits.
* `seek_found`, `seek_skip`: What one poll does to a search.
* `seek_send_of_none`, `seek_send_of_some`: What one more value does to it.
-/

namespace Broadcast

variable {α : Type*}

/-- A channel: how many values it keeps, and all it was sent, oldest first. -/
structure Channel (α : Type*) where
  capacity : Nat
  sent : List α

/-- A receiver: the position of the next value it reads. -/
structure Receiver where
  next : Nat
deriving DecidableEq

/-- What a poll of a receiver returns. -/
inductive Polled (α : Type*) where
  | value (v : α) (r : Receiver)
  | lagged (missed : Nat) (r : Receiver)
  | closed
  | pending

/-- What a search ends with. -/
inductive Found (α : Type*) where
  | value (v : α)
  | lagged
deriving DecidableEq

namespace Channel

def send (c : Channel α) (v : α) : Channel α :=
  { c with sent := c.sent ++ [v] }

/-- A new receiver sees only what is sent from now on. -/
def subscribe (c : Channel α) : Receiver :=
  ⟨c.sent.length⟩

/-- The values the receiver has not read. -/
def unread (c : Channel α) (r : Receiver) : List α :=
  c.sent.drop r.next

/-- The next value of the receiver is no longer kept. -/
def Lags (c : Channel α) (r : Receiver) : Prop :=
  r.next + c.capacity < c.sent.length

instance (c : Channel α) (r : Receiver) : Decidable (c.Lags r) :=
  inferInstanceAs (Decidable (_ < _))

/-- The values the receiver has neither read nor lost. -/
def kept (c : Channel α) (r : Receiver) : List α :=
  c.sent.drop (max r.next (c.sent.length - c.capacity))

/-- A poll of the receiver, with the number of handles that can still send. -/
def recv (c : Channel α) (senders : Nat) (r : Receiver) : Polled α :=
  if c.Lags r then
    .lagged (c.sent.length - c.capacity - r.next) ⟨c.sent.length - c.capacity⟩
  else match c.unread r with
    | v :: _ => .value v ⟨r.next + 1⟩
    | [] => if senders = 0 then .closed else .pending

/-- What polling until a value passes the test ends with, if nothing more is
    sent: a lag, the first value that passes, or nothing. -/
def seek (c : Channel α) (p : α → Bool) (r : Receiver) : Option (Found α) :=
  if c.Lags r then some .lagged else ((c.unread r).find? p).map .value

/-! ### What is unread -/

theorem unread_subscribe (c : Channel α) : c.unread c.subscribe = [] := by
  simp only [unread, subscribe, List.drop_length]

theorem not_lags_subscribe (c : Channel α) : ¬c.Lags c.subscribe := by
  simp only [Lags, subscribe]
  omega

theorem unread_send (c : Channel α) (v : α) (r : Receiver) (h : r.next ≤ c.sent.length) :
    (c.send v).unread r = c.unread r ++ [v] := by
  simp only [unread, send, List.drop_append_of_le_length h]

theorem lags_send (c : Channel α) (v : α) (r : Receiver) (h : c.Lags r) :
    (c.send v).Lags r := by
  unfold Lags send at *
  simp only [List.length_append, List.length_singleton]
  omega

theorem unread_length (c : Channel α) (r : Receiver) :
    (c.unread r).length = c.sent.length - r.next := by
  simp only [unread, List.length_drop]

/-- Reading one value leaves the others. -/
theorem unread_next (c : Channel α) (r : Receiver) (v : α) (rest : List α)
    (h : c.unread r = v :: rest) : c.unread ⟨r.next + 1⟩ = rest := by
  unfold unread at h ⊢
  rw [← List.drop_drop, h, List.drop_one, List.tail_cons]

theorem next_lt_of_unread (c : Channel α) (r : Receiver) (v : α) (rest : List α)
    (h : c.unread r = v :: rest) : r.next < c.sent.length := by
  have hlength := unread_length c r
  rw [h, List.length_cons] at hlength
  omega

theorem not_lags_next (c : Channel α) (r : Receiver) (h : ¬c.Lags r) : ¬c.Lags ⟨r.next + 1⟩ := by
  unfold Lags at *
  simp only
  omega

/-! ### What is kept -/

theorem kept_of_not_lags (c : Channel α) (r : Receiver) (h : ¬c.Lags r) :
    c.kept r = c.unread r := by
  unfold Lags at h
  have hmax : max r.next (c.sent.length - c.capacity) = r.next := by omega
  rw [kept, unread, hmax]

/-- A receiver that has lost values goes on from the oldest one kept. -/
theorem kept_oldest (c : Channel α) (r : Receiver) (h : c.Lags r) :
    c.kept ⟨c.sent.length - c.capacity⟩ = c.kept r := by
  unfold Lags at h
  have hmax : max r.next (c.sent.length - c.capacity) = c.sent.length - c.capacity := by omega
  rw [kept, kept, hmax, Nat.max_self]

theorem not_lags_oldest (c : Channel α) : ¬c.Lags ⟨c.sent.length - c.capacity⟩ := by
  unfold Lags
  simp only
  omega

/-- One more value adds itself to what is kept, and nothing else. -/
theorem mem_kept_send (c : Channel α) (v u : α) (r : Receiver) (h : u ∈ (c.send v).kept r) :
    u ∈ c.kept r ∨ u = v := by
  unfold kept send at h
  rw [List.drop_append] at h
  rcases List.mem_append.mp h with hold | hnew
  · left
    -- What is kept after the send starts no earlier than what was kept before.
    refine (List.drop_sublist_drop_left c.sent ?_).subset hold
    simp only [List.length_append, List.length_singleton]
    omega
  · exact Or.inr (List.mem_singleton.mp (List.mem_of_mem_drop hnew))

/-- The newest value is kept, whatever the receiver loses to it. -/
theorem newest_kept (c : Channel α) (v : α) (r : Receiver) (h : r.next ≤ c.sent.length)
    (hcapacity : 0 < c.capacity) : v ∈ (c.send v).kept r := by
  have hle : max r.next ((c.sent ++ [v]).length - c.capacity) ≤ c.sent.length := by
    simp only [List.length_append, List.length_singleton]
    omega
  unfold kept send
  rw [List.drop_append_of_le_length hle]
  exact List.mem_append_right _ List.mem_cons_self

/-- A receiver that is not behind by the whole capacity does not lag, and does not
    after one more value. -/
theorem not_lags_of_room (c : Channel α) (r : Receiver)
    (h : (c.unread r).length < c.capacity) : ¬c.Lags r := by
  rw [unread_length] at h
  unfold Lags
  omega

theorem not_lags_send (c : Channel α) (v : α) (r : Receiver)
    (h : (c.unread r).length < c.capacity) : ¬(c.send v).Lags r := by
  rw [unread_length] at h
  unfold Lags send
  simp only [List.length_append, List.length_singleton]
  omega

/-- Such a receiver loses nothing to it. -/
theorem kept_send (c : Channel α) (v : α) (r : Receiver) (hr : r.next ≤ c.sent.length)
    (h : (c.unread r).length < c.capacity) : (c.send v).kept r = c.kept r ++ [v] := by
  rw [kept_of_not_lags _ _ (not_lags_send c v r h), kept_of_not_lags _ _ (not_lags_of_room c r h),
    unread_send c v r hr]

/-- Any other receiver has no more to read than before. -/
theorem kept_length_send (c : Channel α) (v : α) (r : Receiver)
    (h : c.capacity ≤ (c.unread r).length) :
    ((c.send v).kept r).length = (c.kept r).length := by
  rw [unread_length] at h
  unfold kept send
  simp only [List.length_drop, List.length_append, List.length_singleton]
  omega

/-! ### Polls -/

theorem recv_lagged (c : Channel α) (senders : Nat) (r : Receiver) (h : c.Lags r) :
    c.recv senders r =
      .lagged (c.sent.length - c.capacity - r.next) ⟨c.sent.length - c.capacity⟩ := by
  simp only [recv, if_pos h]

theorem recv_value (c : Channel α) (senders : Nat) (r : Receiver) (v : α) (rest : List α)
    (hlags : ¬c.Lags r) (h : c.unread r = v :: rest) :
    c.recv senders r = .value v ⟨r.next + 1⟩ := by
  simp only [recv, if_neg hlags, h]

/-- What a receiver gets was sent. -/
theorem mem_sent_of_recv (c : Channel α) (senders : Nat) (r r' : Receiver) (v : α)
    (h : c.recv senders r = .value v r') : v ∈ c.sent := by
  unfold recv at h
  by_cases hlags : c.Lags r
  · rw [if_pos hlags] at h
    exact absurd h (by simp)
  · rw [if_neg hlags] at h
    cases hunread : c.unread r with
    | nil =>
        simp only [hunread] at h
        by_cases hsenders : senders = 0
        · rw [if_pos hsenders] at h
          exact absurd h (by simp)
        · rw [if_neg hsenders] at h
          exact absurd h (by simp)
    | cons u rest =>
        simp only [hunread, Polled.value.injEq] at h
        have hu : u ∈ c.unread r := by
          rw [hunread]
          exact List.mem_cons_self
        rw [← h.1]
        exact List.mem_of_mem_drop hu

/-- As long as somebody can send, a receiver that has read everything waits. -/
theorem recv_drained (c : Channel α) (senders : Nat) (r : Receiver) (hlags : ¬c.Lags r)
    (h : c.unread r = []) (hsenders : senders ≠ 0) : c.recv senders r = .pending := by
  simp only [recv, if_neg hlags, h, if_neg hsenders]

/-! ### Searches -/

theorem seek_lagged (c : Channel α) (p : α → Bool) (r : Receiver) (h : c.Lags r) :
    c.seek p r = some .lagged := by
  simp only [seek, if_pos h]

theorem seek_of_not_lags (c : Channel α) (p : α → Bool) (r : Receiver) (h : ¬c.Lags r) :
    c.seek p r = ((c.unread r).find? p).map .value := by
  simp only [seek, if_neg h]

/-- A search that finds a value finds one that was sent and passes the test. -/
theorem seek_value (c : Channel α) (p : α → Bool) (r : Receiver) (v : α)
    (h : c.seek p r = some (.value v)) : v ∈ c.sent ∧ p v = true := by
  by_cases hlags : c.Lags r
  · rw [seek_lagged c p r hlags] at h
    exact absurd h (by simp)
  · rw [seek_of_not_lags c p r hlags] at h
    cases hfind : (c.unread r).find? p with
    | none =>
        rw [hfind] at h
        exact absurd h (by simp)
    | some u =>
        rw [hfind, Option.map_some, Option.some.injEq, Found.value.injEq] at h
        rw [← h]
        exact ⟨List.mem_of_mem_drop (List.mem_of_find?_eq_some hfind),
          List.find?_some hfind⟩

/-- A search waits when the receiver has lost nothing and has read, or has yet
    to read, no value that passes. -/
theorem seek_eq_none_iff (c : Channel α) (p : α → Bool) (r : Receiver) :
    c.seek p r = none ↔ ¬c.Lags r ∧ ∀ v ∈ c.unread r, p v = false := by
  by_cases hlags : c.Lags r
  · rw [seek_lagged c p r hlags]
    exact ⟨fun h => absurd h (by simp), fun h => absurd hlags h.1⟩
  · rw [seek_of_not_lags c p r hlags, Option.map_eq_none_iff, List.find?_eq_none]
    simp only [Bool.not_eq_true, hlags, not_false_eq_true, true_and]

/-- A value that passes the first test of the loop ends the search at once. -/
theorem seek_found (c : Channel α) (p : α → Bool) (r : Receiver) (v : α) (rest : List α)
    (hlags : ¬c.Lags r) (h : c.unread r = v :: rest) (hv : p v = true) :
    c.seek p r = some (.value v) := by
  rw [seek_of_not_lags c p r hlags, h, List.find?_cons_of_pos hv, Option.map_some]

/-- A value that does not pass is read over. -/
theorem seek_skip (c : Channel α) (p : α → Bool) (r : Receiver) (v : α) (rest : List α)
    (hlags : ¬c.Lags r) (h : c.unread r = v :: rest) (hv : p v = false) :
    c.seek p r = c.seek p ⟨r.next + 1⟩ := by
  rw [seek_of_not_lags c p r hlags, seek_of_not_lags c p _ (not_lags_next c r hlags), h,
    unread_next c r v rest h, List.find?_cons_of_neg (by rw [hv]; exact Bool.false_ne_true)]

/-- A search that waits ends with the next value, if that value passes and the
    receiver does not lose another one to it. -/
theorem seek_send_of_none (c : Channel α) (p : α → Bool) (r : Receiver) (v : α)
    (hr : r.next ≤ c.sent.length) (h : c.seek p r = none) (hlags : ¬(c.send v).Lags r) :
    (c.send v).seek p r = if p v then some (.value v) else none := by
  rw [seek_of_not_lags _ p r hlags, unread_send c v r hr, List.find?_append]
  have hnone : (c.unread r).find? p = none := by
    rw [List.find?_eq_none]
    intro u hu
    rw [((seek_eq_none_iff c p r).mp h).2 u hu]
    exact Bool.false_ne_true
  rw [hnone, Option.none_or]
  cases hv : p v with
  | true => simp [hv]
  | false => simp [hv]

/-- A search that has ended is not changed by one more value, unless the
    receiver loses values to it. -/
theorem seek_send_of_some (c : Channel α) (p : α → Bool) (r : Receiver) (v : α)
    (found : Found α) (hr : r.next ≤ c.sent.length) (h : c.seek p r = some found) :
    (c.send v).seek p r = some found ∨ (c.send v).seek p r = some .lagged := by
  by_cases hlags : (c.send v).Lags r
  · exact Or.inr (seek_lagged _ p r hlags)
  · have hlags₀ : ¬c.Lags r := fun h' => hlags (lags_send c v r h')
    left
    rw [seek_of_not_lags c p r hlags₀] at h
    rw [seek_of_not_lags _ p r hlags, unread_send c v r hr, List.find?_append]
    cases hfind : (c.unread r).find? p with
    | none =>
        rw [hfind] at h
        exact absurd h (by simp)
    | some u =>
        rw [hfind] at h
        rw [Option.some_or]
        exact h

end Channel

end Broadcast
