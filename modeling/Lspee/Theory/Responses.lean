import Lspee.Core.Connection

/-!
# Responses

One response for each line, with the id of the line. The lines are taken off
the bytes one after the other, and the next one is read only once the response
to the last one is written, so responses come in the order of the lines. What
can go wrong is the id, and the line that is not answered at all.

The id is read from the JSON of the line before anything is decoded, and every
dispatcher puts it into its answers. Two rejections before dispatch leave it
out: the one of a frame that is too large, and the one of an envelope that does
not decode. A line that is not UTF-8 ends the connection without an answer.
`Accepted` says that a line takes none of these three ways, and
`answered_iff_along` that this is exactly what it takes for every response to be in
its place. Whether the one for the line in progress comes is the matter of
`Theory.Responding`.

## Main definitions

* `requestId`: The id of a line that is a JSON object with a string for its id.
* `Answers`: A response carries the id of a line.
* `Answered`: One response for each line but the one in progress, in order.
* `Accepted`, `ReadCond`: The lines that are answered with their id.
* `carried`: The id that the answer to come will have.

## Theorems

* `lineRead_cases`: The line taken off is the one dispatched.
* `carried_dispatch`, `carried_resume`, `carried_bound`, `carried_sampled`: The
  dispatchers keep the id.
* `wrote_writing`: A write may end.
* `carried_of_accepted`, `refused_of_not_accepted`: What becomes of a line.
* `answered_iff_along`: When every response is in its place.
-/

namespace Lspee

open Transition Utf8

namespace Connection

variable (fromStr : List Char → Option Json)

/-- The id of a line that is a JSON object with a string for its id. -/
def requestId (line : Option (List Char)) : Option String :=
  (line.bind fromStr).bind (fun raw => (raw.get "id").bind Json.asStr)

/-- The response carries the id of the line, if the line has one. -/
def Answers (line : Option (List Char)) (response : ControlEnvelope) : Prop :=
  ∀ id ∈ requestId fromStr line, response.id = some id

/-- The lines that were read and the responses to them are the same number, and
    each response answers its line. While a line is being worked on it has no
    response yet; the one being written counts. -/
def Answered (s : Connection) : Prop :=
  match s.control.pc with
  | .reading => List.Forall₂ (Answers fromStr) s.lines s.responses
  | .returned _ => List.Forall₂ (Answers fromStr) s.lines s.responses
  | .writing response _ => List.Forall₂ (Answers fromStr) s.lines (response :: s.responses)
  | _ => ∃ line earlier, s.lines = line :: earlier ∧
      List.Forall₂ (Answers fromStr) earlier s.responses

/-- The version that a line gives, cut to 32 bits. -/
def versionOf (raw : Json) : Option Nat :=
  ((raw.get "v").bind Json.asU64).map (fun v => v % 2 ^ 32)

/-- The line is UTF-8, and if it has an id, then it is not too large, and its
    envelope decodes or is of another version. -/
def Accepted : Option (List Char) → Prop
  | none => False
  | some text =>
    match fromStr text with
    | none => True
    | some raw => (raw.get "id").bind Json.asStr = none ∨
        byteLen text ≤ maxFrameSizeBytes ∧
          (versionOf raw = some protocolVersion → (ControlEnvelope.fromValue raw).isSome = true)

/-- The line that is read next, if there is one, is accepted. -/
def ReadCond (s : Connection) : ConnectionAction → Prop
  | .read _ => ∀ line ∈ lineRead s.bytes s.ending, Accepted fromStr line
  | _ => True

/-! ### The line taken off -/

/-- What reading returns and the line it takes off. -/
theorem lineRead_cases (bytes : List UInt8) (ending : Ending) :
    (∃ text rest, nextLine bytes ending = .line text rest ∧
      lineRead bytes ending = some (some text)) ∨
    nextLine bytes ending = .eof ∧ lineRead bytes ending = none ∨
    nextLine bytes ending = .failed ∧
      (lineRead bytes ending = none ∨ lineRead bytes ending = some none) := by
  unfold nextLine lineRead
  rcases splitLine bytes with ⟨line, rest⟩
  cases rest with
  | some rest =>
      simp only []
      cases hdecode : decode line with
      | some text => exact Or.inl ⟨_, rest, rfl, rfl⟩
      | none => exact Or.inr (Or.inr ⟨rfl, Or.inr rfl⟩)
  | none =>
      cases ending with
      | error => exact Or.inr (Or.inr ⟨rfl, Or.inl rfl⟩)
      | eof =>
          simp only []
          by_cases hempty : line = []
          · rw [if_pos hempty, if_pos hempty]
            exact Or.inr (Or.inl ⟨rfl, rfl⟩)
          · rw [if_neg hempty, if_neg hempty]
            cases hdecode : decode line with
            | some text => exact Or.inl ⟨text, [], rfl, rfl⟩
            | none => exact Or.inr (Or.inr ⟨rfl, Or.inr rfl⟩)

/-! ### The id of the answer to come -/

/-- The id that the answer to come will have, or the one being written has. -/
def carried : ControlPc → Option (Option String)
  | .attaching id _ _ => some id
  | .binding id _ _ => some id
  | .unattaching id _ _ => some id
  | .releasing id _ _ => some id
  | .calling id _ _ => some id
  | .notifying id _ _ => some id
  | .sampling id _ _ _ => some id
  | .writing response _ => some response.id
  | .reading => none
  | .returned _ => none

theorem carried_written (s s' : Control) (response : ControlEnvelope) (stop : Bool)
    (id : Option String) (h : some (s.write response stop) = some s') (hid : response.id = id) :
    carried s'.pc = some id := by
  rw [Option.some.injEq] at h
  rw [← h]
  exact congrArg some hid

theorem carried_await (s s' : Control) (call : CallId) (method : Method) (pc : ControlPc)
    (h : s.await call method pc = some s') : s'.pc = pc := by
  unfold Control.await at h
  rcases Option.map_eq_some_iff.mp h with ⟨w, -, rfl⟩
  rfl

theorem carried_dispatch (s s' : Control) (req : ControlEnvelope) (call : CallId)
    (h : s.dispatchControlRequest req call = some s') : carried s'.pc = some req.id := by
  unfold Control.dispatchControlRequest at h
  split at h
  -- Each request is refused with its own id, or its call carries that id on.
  · unfold Control.dispatchAttach at h
    split at h
    · exact carried_written s s' _ _ req.id h rfl
    · split at h
      · exact carried_written s s' _ _ req.id h rfl
      · rw [carried_await s s' call _ _ h]
        rfl
  · unfold Control.dispatchRelease at h
    split at h
    · exact carried_written s s' _ _ req.id h rfl
    · rw [carried_await _ s' call _ _ h]
      rfl
  · unfold Control.dispatchCall at h
    split at h
    · exact carried_written s s' _ _ req.id h rfl
    · rw [carried_await s s' call _ _ h]
      rfl
  · unfold Control.dispatchNotify at h
    split at h
    · exact carried_written s s' _ _ req.id h rfl
    · rw [carried_await s s' call _ _ h]
      rfl
  · rw [Option.some.injEq] at h
    rw [← h]
    rfl
  · rw [Option.some.injEq] at h
    rw [← h]
    unfold Control.dispatchShutdown
    split
    · rfl
    · rfl
  · exact carried_written s s' _ _ req.id h rfl

theorem forwardError_id (kind : ForwardKind) (id : Option String) (message : String) :
    (forwardError kind id message).id = id := by
  unfold forwardError
  split
  · rfl
  · split
    · rfl
    · split
      · rfl
      · rfl

theorem carried_attached (s : Control) (id : Option String) (mode : StreamMode) (lease : Lease)
    (handle : Option SessionHandle) : carried (s.attached id mode lease handle).pc = some id := by
  unfold Control.attached
  cases handle with
  | none => rfl
  | some handle =>
      cases mode with
      | dedicated => rfl
      | muxControl => rfl

theorem carried_resume (s s' : Control) (h : s.resume = some s') :
    carried s'.pc = carried s.pc := by
  unfold Control.resume at h
  -- Every answer takes its id from where the call has kept it.
  split at h
  · rename_i id mode call hpc
    rw [hpc]
    split at h
    · exact carried_written s s' _ _ id h rfl
    · rw [Option.some.injEq] at h
      rw [← h]
      exact carried_attached s id mode _ _
    · exact absurd h (by simp only [reduceCtorEq, not_false_eq_true])
  · rename_i id error call hpc
    rw [hpc]
    split at h
    · exact carried_written s s' _ _ id h rfl
    · exact absurd h (by simp only [reduceCtorEq, not_false_eq_true])
  · rename_i id leaseId call hpc
    rw [hpc]
    split at h
    · exact carried_written s s' _ _ id h rfl
    · exact carried_written s s' _ _ id h rfl
    · exact absurd h (by simp only [reduceCtorEq, not_false_eq_true])
  · rename_i id leaseId call hpc
    rw [hpc]
    split at h
    · exact carried_written s s' _ _ id h rfl
    · exact carried_written s s' _ _ id h rfl
    · exact carried_written s s' _ _ id h (forwardError_id .call id _)
    · exact absurd h (by simp only [reduceCtorEq, not_false_eq_true])
  · rename_i id leaseId call hpc
    rw [hpc]
    split at h
    · exact carried_written s s' _ _ id h rfl
    · exact carried_written s s' _ _ id h rfl
    · exact carried_written s s' _ _ id h (forwardError_id .notify id _)
    · exact absurd h (by simp only [reduceCtorEq, not_false_eq_true])
  · exact absurd h (by simp only [reduceCtorEq, not_false_eq_true])

theorem carried_bound (s s' : Control) (endpoint : Except String String) (call : CallId)
    (h : s.bound endpoint call = some s') : carried s'.pc = carried s.pc := by
  unfold Control.bound at h
  split at h
  · rename_i id lease handle path hpc
    rw [Option.some.injEq] at h
    rw [← h, hpc]
    rfl
  · rename_i id lease handle error hpc
    rw [carried_await s s' call _ _ h, hpc]
    rfl
  · exact absurd h (by simp only [reduceCtorEq, not_false_eq_true])

theorem carried_sampled (s s' : Control) (memoryTotal : Nat) (h : s.sampled memoryTotal = some s') :
    carried s'.pc = carried s.pc := by
  unfold Control.sampled at h
  split at h
  · rename_i id sessions leases counters hpc
    rw [Option.some.injEq] at h
    rw [← h, hpc]
    rfl
  · exact absurd h (by simp only [reduceCtorEq, not_false_eq_true])

/-- The write that a connection waits for may end in either way. -/
theorem wrote_writing (s : Connection) (response : ControlEnvelope) (stop ok : Bool)
    (hpc : s.control.pc = .writing response stop) :
    ∃ s', s.step fromStr (.wrote ok) = some s' := by
  simp only [step, Control.step, Control.wrote, hpc]
  cases ok with
  | true => exact ⟨_, rfl⟩
  | false => exact ⟨_, rfl⟩

/-! ### What becomes of a line -/

/-- An envelope that decodes has the id read from the line. -/
theorem fromValue_id (raw : Json) (req : ControlEnvelope) (id : String)
    (hreq : ControlEnvelope.fromValue raw = some req)
    (hid : (raw.get "id").bind Json.asStr = some id) : req.id = some id := by
  cases raw with
  | obj fields =>
      unfold ControlEnvelope.fromValue at hreq
      simp only [Json.asStruct, Option.bind_eq_bind, Option.bind_some,
        Option.bind_eq_some_iff] at hreq
      rcases hreq with ⟨v, -, decoded, hdecoded, messageType, -, payload, -, hmake⟩
      simp only [Json.get] at hid
      rcases Option.bind_eq_some_iff.mp hid with ⟨value, hvalue, hstr⟩
      rw [hvalue] at hdecoded
      cases value with
      | str text =>
          simp only [Json.asStr, Option.some.injEq] at hstr
          simp only [Json.optional, Json.asStr, Option.map_some, Option.some.injEq] at hdecoded
          simp only [Option.pure_def, Option.some.injEq] at hmake
          rw [← hmake, ← hdecoded, hstr]
      | _ => exact absurd hstr (by simp only [Json.asStr, reduceCtorEq, not_false_eq_true])
  | _ => exact absurd hid (by simp only [Json.get, Option.bind_none, reduceCtorEq,
      not_false_eq_true])

variable {fromStr}

/-- A line that is accepted gets an answer with its id. -/
theorem carried_of_accepted (s s' : Control) (text : List Char) (call : CallId)
    (h : s.handleLine (lineOf fromStr text) call = some s') (hok : Accepted fromStr (some text)) :
    ∃ id, carried s'.pc = some id ∧ ∀ i ∈ requestId fromStr (some text), id = some i := by
  unfold Control.handleLine lineOf at h
  unfold Accepted at hok
  simp only [] at h hok
  cases hparsed : fromStr text with
  | none =>
      have hnone : requestId fromStr (some text) = none := by
        simp only [requestId, Option.bind_some, hparsed, Option.bind_none]
      rw [hparsed] at h
      rw [hnone]
      split at h
      · rw [Option.some.injEq] at h
        rw [← h]
        exact ⟨none, rfl, fun i hi => absurd hi (by simp only [Option.mem_def, reduceCtorEq,
          not_false_eq_true])⟩
      · rw [Option.some.injEq] at h
        rw [← h]
        exact ⟨none, rfl, fun i hi => absurd hi (by simp only [Option.mem_def, reduceCtorEq,
          not_false_eq_true])⟩
  | some raw =>
      have hid : requestId fromStr (some text) = (raw.get "id").bind Json.asStr := by
        simp only [requestId, Option.bind_some, hparsed]
      rw [hparsed] at h hok
      simp only [] at h hok
      rw [hid]
      cases hi : (raw.get "id").bind Json.asStr with
      | none =>
          -- Without an id any answer will do.
          have hany : ∃ id, carried s'.pc = some id := by
            split at h
            · rw [Option.some.injEq] at h
              rw [← h]
              exact ⟨_, rfl⟩
            · split at h
              · rw [Option.some.injEq] at h
                rw [← h]
                exact ⟨_, rfl⟩
              · split at h
                · rw [Option.some.injEq] at h
                  rw [← h]
                  exact ⟨_, rfl⟩
                · exact ⟨_, carried_dispatch s s' _ call h⟩
          rcases hany with ⟨id, hcarried⟩
          exact ⟨id, hcarried, fun i hi' => absurd hi' (by simp only [Option.mem_def, reduceCtorEq,
            not_false_eq_true])⟩
      | some i =>
          rw [hi] at hok
          rcases hok.resolve_left (by simp only [reduceCtorEq, not_false_eq_true]) with
            ⟨hlen, hdecodes⟩
          rw [if_neg (Nat.not_lt.mpr hlen)] at h
          refine ⟨some i, ?_, fun j hj => hj⟩
          split at h
          · rw [Option.some.injEq] at h
            rw [← h, hi]
            rfl
          · rename_i hversion
            have hsome := hdecodes (not_not.mp hversion)
            split at h
            · rename_i hnone
              rw [hnone] at hsome
              exact absurd hsome (by simp only [Option.isSome_none, Bool.false_eq_true,
                not_false_eq_true])
            · rename_i req hreq
              rw [carried_dispatch s s' req call h, fromValue_id raw req i hreq hi]

/-- A line of UTF-8 that is not accepted has an id, and is answered without
    one. -/
theorem refused_of_not_accepted (s s' : Control) (text : List Char) (call : CallId)
    (h : s.handleLine (lineOf fromStr text) call = some s')
    (hno : ¬Accepted fromStr (some text)) :
    ∃ response stop id, s'.pc = .writing response stop ∧ response.id = none ∧
      requestId fromStr (some text) = some id := by
  unfold Control.handleLine lineOf at h
  unfold Accepted at hno
  simp only [] at h hno
  cases hparsed : fromStr text with
  | none =>
      rw [hparsed] at hno
      exact absurd trivial hno
  | some raw =>
      have hid : requestId fromStr (some text) = (raw.get "id").bind Json.asStr := by
        simp only [requestId, Option.bind_some, hparsed]
      rw [hparsed] at h hno
      simp only [not_or, not_and_or, not_le] at h hno
      -- The line has an id, and is too long or no envelope.
      rcases hno with ⟨hsome, hbad⟩
      rcases Option.ne_none_iff_exists'.mp hsome with ⟨i, hi⟩
      rw [hid, hi]
      by_cases hlen : byteLen text > maxFrameSizeBytes
      · rw [if_pos hlen, Option.some.injEq] at h
        rw [← h]
        exact ⟨_, _, i, rfl, rfl, rfl⟩
      · rcases hbad with hbad | hbad
        · exact absurd hbad hlen
        · rw [if_neg hlen] at h
          rw [Classical.not_imp] at hbad
          rcases hbad with ⟨hversion, hnone⟩
          unfold versionOf at hversion
          rw [if_neg (not_not.mpr hversion), Option.not_isSome_iff_eq_none.mp hnone,
            Option.some.injEq] at h
          rw [← h]
          exact ⟨_, _, i, rfl, rfl, rfl⟩

/-! ### Lines and responses -/

variable (fromStr)

/-- The id kept for the answer to come is that of the line being worked on. -/
def Kept (s : Connection) : Prop :=
  ∀ id, carried s.control.pc = some id → ∃ line earlier, s.lines = line :: earlier ∧
    ∀ i ∈ requestId fromStr line, id = some i

variable {fromStr}

/-- A connection that keeps an id, before its answer is written, has answered
    all lines but the last. -/
theorem answered_of_carried (s : Connection) (id : Option String)
    (hcarried : carried s.control.pc = some id) (line : Option (List Char))
    (earlier : List (Option (List Char))) (hlines : s.lines = line :: earlier)
    (hid : ∀ i ∈ requestId fromStr line, id = some i)
    (hearlier : List.Forall₂ (Answers fromStr) earlier s.responses) :
    Kept fromStr s ∧ Answered fromStr s := by
  refine ⟨fun id' hid' => ?_, ?_⟩
  · rw [hcarried, Option.some.injEq] at hid'
    rw [← hid']
    exact ⟨line, earlier, hlines, hid⟩
  · unfold Answered
    cases hpc : s.control.pc with
    -- The response under way has the id of the last line.
    | writing response stop =>
        rw [hpc] at hcarried
        simp only [carried, Option.some.injEq] at hcarried
        simp only []
        rw [hlines]
        refine List.Forall₂.cons (fun i hi => ?_) hearlier
        rw [hcarried]
        exact hid i hi
    | reading =>
        rw [hpc] at hcarried
        exact absurd hcarried (by simp only [carried, reduceCtorEq, not_false_eq_true])
    | returned ok =>
        rw [hpc] at hcarried
        exact absurd hcarried (by simp only [carried, reduceCtorEq, not_false_eq_true])
    | _ => exact ⟨line, earlier, hlines, hearlier⟩

/-- The lines answered by a connection that keeps an id. -/
theorem earlier_of_carried (s : Connection) (id : Option String)
    (hcarried : carried s.control.pc = some id) (line : Option (List Char))
    (earlier : List (Option (List Char))) (hlines : s.lines = line :: earlier)
    (h : Answered fromStr s) : List.Forall₂ (Answers fromStr) earlier s.responses := by
  unfold Answered at h
  cases hpc : s.control.pc with
  | writing response stop =>
      rw [hpc, hlines] at h
      exact (List.forall₂_cons.mp h).2
  | reading =>
      rw [hpc] at hcarried
      exact absurd hcarried (by simp only [carried, reduceCtorEq, not_false_eq_true])
  | returned ok =>
      rw [hpc] at hcarried
      exact absurd hcarried (by simp only [carried, reduceCtorEq, not_false_eq_true])
  | _ =>
      rw [hpc] at h
      rcases h with ⟨line', earlier', hlines', hforall⟩
      rw [hlines, List.cons.injEq] at hlines'
      rw [hlines'.2]
      exact hforall

/-- A step of the dispatcher keeps the id and answers no line yet. -/
theorem answered_dispatching (s : Connection) (c : Control)
    (hcarried : carried c.pc = carried s.control.pc)
    (hbusy : ∃ id, carried s.control.pc = some id) (hkept : Kept fromStr s)
    (h : Answered fromStr s) :
    Kept fromStr { s with control := c } ∧ Answered fromStr { s with control := c } := by
  rcases hbusy with ⟨id, hid⟩
  rcases hkept id hid with ⟨line, earlier, hlines, hmatch⟩
  have hearlier := earlier_of_carried s id hid line earlier hlines h
  exact answered_of_carried { s with control := c } id (hcarried.trans hid) line earlier hlines
    hmatch hearlier

theorem busy_of_resume (s s' : Control) (h : s.resume = some s') :
    ∃ id, carried s.pc = some id := by
  unfold Control.resume at h
  cases hpc : s.pc with
  | reading => simp only [hpc, reduceCtorEq] at h
  | returned ok => simp only [hpc, reduceCtorEq] at h
  | _ => exact ⟨_, rfl⟩

theorem busy_of_bound (s s' : Control) (endpoint : Except String String) (call : CallId)
    (h : s.bound endpoint call = some s') : ∃ id, carried s.pc = some id := by
  unfold Control.bound at h
  cases hpc : s.pc with
  | reading => simp only [hpc, reduceCtorEq] at h
  | returned ok => simp only [hpc, reduceCtorEq] at h
  | _ => exact ⟨_, rfl⟩

theorem busy_of_sampled (s s' : Control) (memoryTotal : Nat) (h : s.sampled memoryTotal = some s') :
    ∃ id, carried s.pc = some id := by
  unfold Control.sampled at h
  cases hpc : s.pc with
  | reading => simp only [hpc, reduceCtorEq] at h
  | returned ok => simp only [hpc, reduceCtorEq] at h
  | _ => exact ⟨_, rfl⟩

/-- Reading a line, case by case: it is dispatched; or there is none; or it is
    not UTF-8, and the connection ends. -/
theorem read_cases (s s' : Connection) (call : CallId) (h : s.read fromStr call = some s') :
    s.control.pc = .reading ∧
      ((∃ text rest c, lineRead s.bytes s.ending = some (some text) ∧
          s.control.handleLine (lineOf fromStr text) call = some c ∧
          s' = { s with control := c, bytes := rest, lines := some text :: s.lines }) ∨
        (∃ ok, lineRead s.bytes s.ending = none ∧
          s' = { s with control := { s.control with pc := .returned ok } }) ∨
        lineRead s.bytes s.ending = some none ∧
          s' = { s with
            control := { s.control with pc := .returned false }
            lines := none :: s.lines }) := by
  unfold read at h
  cases hpc : s.control.pc with
  | reading =>
      rw [hpc] at h
      simp only [] at h
      refine ⟨rfl, ?_⟩
      rcases lineRead_cases s.bytes s.ending with ⟨text, rest, hnext, hline⟩ | ⟨hnext, hline⟩ |
        ⟨hnext, hline⟩
      · simp only [hnext, hline, Control.step, hpc, Option.toList_some, List.cons_append,
          List.nil_append] at h
        rcases Option.map_eq_some_iff.mp h with ⟨c, hc, rfl⟩
        exact Or.inl ⟨text, rest, c, hline, hc, rfl⟩
      · simp only [hnext, hline, Control.step, hpc, Option.toList_none, List.nil_append,
          Option.map_some, Option.some.injEq] at h
        exact Or.inr (Or.inl ⟨true, hline, h.symm⟩)
      · simp only [hnext, Control.step, hpc, Option.map_some, Option.some.injEq] at h
        rcases hline with hline | hline
        · rw [hline] at h
          exact Or.inr (Or.inl ⟨false, hline, h.symm⟩)
        · rw [hline] at h
          exact Or.inr (Or.inr ⟨hline, h.symm⟩)
  | _ =>
      rw [hpc] at h
      exact absurd h (by simp only [reduceCtorEq, not_false_eq_true])

theorem answered_keep (s s' : Connection) (a : ConnectionAction) (hkept : Kept fromStr s)
    (h : Answered fromStr s) (hstep : s.step fromStr a = some s') (hC : ReadCond fromStr s a) :
    Kept fromStr s' ∧ Answered fromStr s' := by
  cases a with
  | world a =>
      rcases Option.map_eq_some_iff.mp hstep with ⟨c, hc, rfl⟩
      rcases Option.map_eq_some_iff.mp hc with ⟨w, -, rfl⟩
      exact ⟨hkept, h⟩
  | read call =>
      rcases read_cases s s' call hstep with ⟨hpc, hread⟩
      unfold Answered at h
      rw [hpc] at h
      rcases hread with ⟨text, rest, c, hline, hc, rfl⟩ | ⟨ok, -, rfl⟩ | ⟨hline, -⟩
      · have hok : Accepted fromStr (some text) := hC (some text) hline
        rcases carried_of_accepted s.control c text call hc hok with ⟨id, hcarried, hid⟩
        exact answered_of_carried _ id hcarried (some text) s.lines rfl hid h
      · refine ⟨fun id hid => ?_, h⟩
        exact absurd hid (by simp only [carried, reduceCtorEq, not_false_eq_true])
      · exact absurd (hC none hline) not_false
  | resume =>
      rcases Option.map_eq_some_iff.mp hstep with ⟨c, hc, rfl⟩
      exact answered_dispatching s c (carried_resume s.control c hc)
        (busy_of_resume s.control c hc) hkept h
  | bound endpoint call =>
      rcases Option.map_eq_some_iff.mp hstep with ⟨c, hc, rfl⟩
      exact answered_dispatching s c (carried_bound s.control c endpoint call hc)
        (busy_of_bound s.control c endpoint call hc) hkept h
  | sampled memoryTotal =>
      rcases Option.map_eq_some_iff.mp hstep with ⟨c, hc, rfl⟩
      exact answered_dispatching s c (carried_sampled s.control c memoryTotal hc)
        (busy_of_sampled s.control c memoryTotal hc) hkept h
  | wrote ok =>
      rcases Option.map_eq_some_iff.mp hstep with ⟨c, hc, rfl⟩
      simp only [Control.step, Control.wrote] at hc
      unfold Answered at h
      have hwritten : ∀ response stop, s.control.pc = .writing response stop →
          s.written = [response] := by
        intro response stop hpc
        rw [written, hpc]
      split at hc
      · rename_i response stop hpc
        rw [hpc] at h
        rw [hwritten response stop hpc]
        -- The response written is that of the last line.
        split at hc
        · rw [Option.some.injEq] at hc
          rw [← hc]
          cases stop with
          | true => exact ⟨fun id hid => absurd hid (by simp [carried]), h⟩
          | false => exact ⟨fun id hid => absurd hid (by simp [carried]), h⟩
        · rw [Option.some.injEq] at hc
          rw [← hc]
          exact ⟨fun id hid => absurd hid (by simp [carried]), h⟩
      · exact absurd hc (by simp only [reduceCtorEq, not_false_eq_true])

theorem answered_need (s s' : Connection) (a : ConnectionAction) (h : Answered fromStr s)
    (hstep : s.step fromStr a = some s') (h' : Answered fromStr s') : ReadCond fromStr s a := by
  cases a with
  | read call =>
      intro line hline
      rcases read_cases s s' call hstep with ⟨hpc, hread⟩
      unfold Answered at h
      rw [hpc] at h
      rcases hread with ⟨text, rest, c, hsome, hc, rfl⟩ | ⟨ok, hnone, -⟩ | ⟨hbad, rfl⟩
      · rw [Option.mem_def, hsome, Option.some.injEq] at hline
        rw [← hline]
        -- A line that is not accepted is refused without its id.
        by_contra hno
        rcases refused_of_not_accepted s.control c text call hc hno with
          ⟨response, stop, id, hwriting, hresponse, hid⟩
        unfold Answered at h'
        rw [hwriting] at h'
        have hanswers := (List.forall₂_cons.mp h').1 id hid
        rw [hresponse] at hanswers
        exact absurd hanswers (by simp only [reduceCtorEq, not_false_eq_true])
      · rw [Option.mem_def, hnone] at hline
        exact absurd hline (by simp only [reduceCtorEq, not_false_eq_true])
      · -- one line more than there are responses
        have hbefore := h.length_eq
        have hafter := List.Forall₂.length_eq h'
        simp only [List.length_cons] at hafter
        omega
  | _ => trivial

/-- In every state of a run the responses are in place, with the ids of their lines,
    exactly if every line that is read is accepted. -/
theorem answered_iff_along (fromStr : List Char → Option Json) (world : World)
    (settings : MemoryBudgetSettings) (startedAt : Instant) (bytes : List UInt8) (ending : Ending)
    (as : List ConnectionAction) :
    Always (step fromStr) (Answered fromStr) (accept world settings startedAt bytes ending) as ↔
      Along (step fromStr) (ReadCond fromStr) (accept world settings startedAt bytes ending) as :=
  always_iff_along (I := Kept fromStr) (D := fun _ _ => True)
    (fun s a s' hkept h hstep _ hC => answered_keep s s' a hkept h hstep hC)
    (fun s a s' _ h hstep _ h' => answered_need s s' a h hstep h') as _
    (fun id hid => absurd hid (by simp only [accept, Control.accept, carried, reduceCtorEq,
      not_false_eq_true]))
    List.Forall₂.nil (along_true as _)

end Connection

end Lspee
