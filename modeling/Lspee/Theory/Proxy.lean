import Lspee.Core.Proxy
import Lspee.Lib.Transition
import Lspee.Theory.Mangling

/-!
# What the Proxy Hands On

Whether the messages the proxy handles are the ones the editor sent.

A line of the stream that wins the select drops the future that reads a frame,
and the bytes it has taken go with it. What has arrived of a frame when that
happens is a matter of timing: the editor's writes arrive in pieces, and the
server may write at any time. If the future had taken nothing of a frame,
nothing is lost, nor if it was in a header field before the length and something
of the field was left to come. In every other case a message is lost, and with it
often the next one, or the proxy fails (`faithful_iff_along`).

## Main definitions

* `Faithful`: The messages handed on are the editor's.
* `HarmlessDrop`, `DropCond`: The condition on a step.
* `Aligned`: Where the reader is in the editor's messages.

## Theorems

* `aligned_keep`: What one step keeps.
* `faithful_iff_along`: The condition is exact over whole runs.
* `input_mangled`: Runs that break it.
-/

namespace Lspee

open Transition Utf8

namespace Proxy

variable (fromSlice : List UInt8 → Option Json) (fromStr : List Char → Option StreamFrame)

/-- The messages handed on are the editor's first ones. As long as the proxy runs,
    what is left of its input is read as the others; at the end of its input it
    has handed on all, and its input is never in error. -/
def Faithful (values : List Json) (s : Proxy) : Prop :=
  match s.pc with
  | .running => ∃ rest,
      (frameReader fromSlice).readAll s.frame (s.arrived ++ s.coming) = some rest ∧
        s.handed ++ rest = values
  | .returned .inputClosed => s.handed = values
  | .returned .inputFailed => False
  | .returned _ => s.handed <+: values

/-- The future that is dropped has taken nothing since the last end of a line that
    leaves it where it began, or is in a header field before the length, of which
    something is left to come. -/
def HarmlessDrop (s : Proxy) : Prop :=
  s.frame = (frameReader fromSlice).start ∨
  ∃ front back more, s.frame = .header (asciiBytes front) none ∧
    s.arrived ++ s.coming = headerLine back ++ more ∧ IsField (front ++ back) ∧ back ≠ []

/-- A line of the stream after which the loop goes on drops the future where that
    does no harm. -/
def DropCond (s : Proxy) : ProxyAction → Prop
  | .streamReady next writes =>
    ({ s with frame := (frameReader fromSlice).start }.handleStream fromStr next writes).pc
      = .running → HarmlessDrop fromSlice s
  | _ => True

/-- The reader has taken a part of the first of the editor's messages that are
    not handed on. -/
def Aligned (values : List Json) (s : Proxy) : Prop :=
  s.pc = .running → ∃ (taken : List UInt8) (messages : List EditorMessage),
    (∀ m ∈ messages, m.WellFormed fromSlice) ∧
    (frameReader fromSlice).poll (.header [] none) taken = .pending s.frame ∧
    taken ++ (s.arrived ++ s.coming) = messages.flatMap EditorMessage.encode ∧
    s.handed ++ messages.map EditorMessage.payload = values

/-! ### What one turn does -/

/-- How the handling of a message, or of a line, can end the loop. -/
def ProxyEnd.early : ProxyEnd → Prop
  | .inputClosed => False
  | .inputFailed => False
  | _ => True

/-- The turn leaves the input alone, and ends the loop at most for a reason that
    has nothing to do with it. -/
structure Turn (s s' : Proxy) : Prop where
  arrived : s'.arrived = s.arrived
  coming : s'.coming = s.coming
  frame : s'.frame = s.frame
  handed : s'.handed = s.handed
  pc : s'.pc = s.pc ∨ ∃ reason, s'.pc = .returned reason ∧ ProxyEnd.early reason

theorem turn_finish (s : Proxy) (reason : ProxyEnd) (h : ProxyEnd.early reason) :
    Turn s (s.finish reason) where
  arrived := rfl
  coming := rfl
  frame := rfl
  handed := rfl
  pc := Or.inr ⟨reason, rfl, h⟩

theorem turn_writeLspMessage (s : Proxy) (message : Json) (writes : Bool) :
    Turn s (s.writeLspMessage message writes) := by
  unfold writeLspMessage
  cases writes with
  | true => exact ⟨rfl, rfl, rfl, rfl, Or.inl rfl⟩
  | false => exact turn_finish s .writeFailed trivial

theorem turn_handle (s : Proxy) (message : Json) (writes : Bool) :
    Turn { s with handed := s.handed ++ [message] } (s.handle message writes) := by
  unfold handle
  simp only
  split
  · exact turn_writeLspMessage _ _ writes
  · exact ⟨rfl, rfl, rfl, rfl, Or.inl rfl⟩
  · exact turn_finish _ .exit trivial
  · cases writes with
    | true => exact ⟨rfl, rfl, rfl, rfl, Or.inl rfl⟩
    | false => exact ⟨rfl, rfl, rfl, rfl, Or.inr ⟨.writeFailed, rfl, trivial⟩⟩

theorem turn_handleStream (s : Proxy) (next : StreamRead) (writes : Bool) :
    Turn s (s.handleStream fromStr next writes) := by
  unfold handleStream
  split
  · exact turn_finish s .streamClosed trivial
  · exact turn_finish s .streamFailed trivial
  · split
    · exact turn_finish s .streamFailed trivial
    · split
      · exact turn_writeLspMessage s _ writes
      · split
        · exact turn_finish s .streamFailed trivial
        · cases writes with
          | true => exact ⟨rfl, rfl, rfl, rfl, Or.inr ⟨.streamClosed, rfl, trivial⟩⟩
          | false => exact turn_finish s .writeFailed trivial
      · exact ⟨rfl, rfl, rfl, rfl, Or.inl rfl⟩

/-- A step of the select loop is taken while the proxy runs. -/
theorem step_streamReady (s s' : Proxy) (next : StreamRead) (writes : Bool)
    (h : s.step fromSlice fromStr (.streamReady next writes) = some s') :
    s.pc = .running ∧
      s' = { s with frame := (frameReader fromSlice).start }.handleStream fromStr next writes := by
  simp only [step] at h
  split at h
  · rename_i hpc
    rw [Option.some.injEq] at h
    exact ⟨hpc, h.symm⟩
  · exact absurd h (by simp)

/-! ### What the invariant gives -/

theorem faithful_of_aligned (values : List Json) (s : Proxy) (hpc : s.pc = .running)
    (h : Aligned fromSlice values s) : Faithful fromSlice values s := by
  rcases h hpc with ⟨taken, messages, hmessages, hpending, hinput, hvalues⟩
  have hall := readAll_messages fromSlice messages hmessages
  rw [← hinput, frameReader_start, Reader.readAll_of_pending _ _ _ _ _ hpending] at hall
  unfold Faithful
  rw [hpc]
  exact ⟨_, hall, hvalues⟩

theorem faithful_of_early (values : List Json) (s : Proxy) (reason : ProxyEnd)
    (hpc : s.pc = .returned reason) (hreason : ProxyEnd.early reason)
    (h : s.handed <+: values) : Faithful fromSlice values s := by
  unfold Faithful
  rw [hpc]
  cases reason with
  | inputClosed => exact absurd hreason not_false
  | inputFailed => exact absurd hreason not_false
  | _ => exact h

/-- The loop is where it would be if the turn had not been taken, or it has
    ended. -/
theorem keep_of_turn (values : List Json) (s s' : Proxy) (hturn : Turn s s')
    (hpc : s.pc = .running) (hpre : s.handed <+: values)
    (h : s'.pc = .running → Aligned fromSlice values s) :
    Aligned fromSlice values s' ∧ Faithful fromSlice values s' := by
  have haligned : Aligned fromSlice values s' := by
    intro hrunning
    rcases h hrunning hpc with ⟨taken, messages, hmessages, hpending, hinput, hvalues⟩
    refine ⟨taken, messages, hmessages, ?_, ?_, ?_⟩
    · rw [hturn.frame, hpending]
    · rw [hturn.arrived, hturn.coming, hinput]
    · rw [hturn.handed, hvalues]
  refine ⟨haligned, ?_⟩
  rcases hturn.pc with hsame | ⟨reason, hreason, hearly⟩
  · exact faithful_of_aligned fromSlice values s' (hsame.trans hpc) haligned
  · exact faithful_of_early fromSlice values s' reason hreason hearly (hturn.handed ▸ hpre)

/-- Where the reader is when it is dropped: where that does no harm, and the
    messages to come are the same; or where it loses one. -/
theorem drop_cases (hjson : ClosesStrings fromSlice) (values : List Json) (s : Proxy)
    (hpc : s.pc = .running) (h : Aligned fromSlice values s) :
    (HarmlessDrop fromSlice s ∧
      Aligned fromSlice values { s with frame := (frameReader fromSlice).start }) ∨
    ∀ rest, (frameReader fromSlice).readAll (frameReader fromSlice).start
      (s.arrived ++ s.coming) = some rest → s.handed ++ rest ≠ values := by
  rcases h hpc with ⟨taken, messages, hmessages, hpending, hinput, hvalues⟩
  -- At a frame's start, the bytes taken may as well not have been lost.
  have hstart : s.frame = (frameReader fromSlice).start → HarmlessDrop fromSlice s ∧
      Aligned fromSlice values { s with frame := (frameReader fromSlice).start } := by
    intro hframe
    refine ⟨Or.inl hframe, fun _ => ⟨taken, messages, hmessages, ?_, hinput, hvalues⟩⟩
    rw [hpending, hframe]
  by_cases htaken : taken = []
  · left
    rw [htaken, Reader.poll, ReadPoll.pending.injEq] at hpending
    exact hstart hpending.symm
  · rcases Reader.within_of_pending _ EditorMessage.encode EditorMessage.payload messages taken _ _
      (fun m hm => encodes_message fromSlice m (hmessages m hm)) hinput htaken hpending with
      ⟨m, messages', left, rfl, hcut, _, hrest⟩
    rw [List.forall_mem_cons] at hmessages
    rcases cut_message fromSlice hjson m hmessages.1 taken left s.frame hcut hpending with
      hframe | ⟨front, back, after, hframe, hfield, hne, hm', hleft⟩ | hlost
    · exact Or.inl (hstart hframe)
    · left
      constructor
      · refine Or.inr ⟨front, back, after.flatMap headerLine ++
          ((lengthLine m.body.length :: m.after).flatMap headerLine ++ (headerLine [] ++ m.body)) ++
          messages'.flatMap EditorMessage.encode, hframe, ?_, hfield, hne⟩
        rw [hrest, hleft, EditorMessage.encode]
        simp only [List.flatMap_cons, List.append_assoc]
      · intro _
        refine ⟨[], { m with before := back :: after } :: messages', ?_, rfl, ?_, hvalues⟩
        · rw [List.forall_mem_cons]
          exact ⟨hm', hmessages.2⟩
        · rw [List.nil_append, List.flatMap_cons, ← hleft]
          exact hrest
    · right
      intro rest hread heq
      rw [hrest] at hread
      have hshort := hlost messages' hmessages.2 rest hread
      -- One message of those to come is missing.
      have hlength : rest.length = messages'.length + 1 := by
        rw [← hvalues] at heq
        rw [List.append_cancel_left heq, List.length_map, List.length_cons]
      omega

/-- Dropping the future where it does no harm does not change what is read. -/
theorem readAll_of_harmless (s : Proxy) (h : HarmlessDrop fromSlice s) :
    (frameReader fromSlice).readAll (frameReader fromSlice).start (s.arrived ++ s.coming)
      = (frameReader fromSlice).readAll s.frame (s.arrived ++ s.coming) := by
  rcases h with hframe | ⟨front, back, more, hframe, hinput, hfield, hne⟩
  · rw [hframe]
  · have hback := IsField.of_append front back hfield hne
    -- The rest of the field is skipped, and so is the whole of it.
    have hrest := poll_headerLine fromSlice back none hback.line
    rw [endLine_other fromSlice back none hback.line hne (hback.not_contentLength [] back)] at hrest
    have hwhole := poll_headerLine fromSlice (front ++ back) none hfield.line
    rw [endLine_other fromSlice (front ++ back) none hfield.line hfield.ne_nil
      (hfield.not_contentLength [] (front ++ back))] at hwhole
    have hfront : newline ∉ asciiBytes front := by
      intro hmem
      refine newline_not_mem front (fun c hc => hfield.line c (List.mem_append_left _ hc)) ?_
      exact List.mem_append_left _ hmem
    have hsplit : headerLine (front ++ back) = asciiBytes front ++ headerLine back := by
      simp only [headerLine, asciiBytes, List.map_append, List.append_assoc]
    rw [hsplit, Reader.poll_of_pending _ _ _ _ _
      (poll_within_line fromSlice [] _ none hfront), List.nil_append] at hwhole
    rw [hframe, hinput, frameReader_start, Reader.readAll_of_pending _ _ _ _ _ hrest,
      Reader.readAll_of_pending _ _ _ _ _ hwhole]

/-! ### Steps -/

theorem aligned_arrive (values : List Json) (s : Proxy) (n : Nat)
    (h : Aligned fromSlice values s) (hfaithful : Faithful fromSlice values s) :
    let s' := { s with arrived := s.arrived ++ s.coming.take n, coming := s.coming.drop n }
    Aligned fromSlice values s' ∧ Faithful fromSlice values s' := by
  have hinput : (s.arrived ++ s.coming.take n) ++ s.coming.drop n = s.arrived ++ s.coming := by
    rw [List.append_assoc, List.take_append_drop]
  constructor
  · intro hpc
    rcases h hpc with ⟨taken, messages, hmessages, hpending, hall, hvalues⟩
    exact ⟨taken, messages, hmessages, hpending, by simp only [hinput, hall], hvalues⟩
  · unfold Faithful at *
    simp only [hinput]
    exact hfaithful

theorem aligned_poll (values : List Json) (s : Proxy) (writes : Bool) (hpc : s.pc = .running)
    (h : Aligned fromSlice values s) :
    Aligned fromSlice values (s.poll fromSlice writes) ∧
      Faithful fromSlice values (s.poll fromSlice writes) := by
  rcases h hpc with ⟨taken, messages, hmessages, hpending, hinput, hvalues⟩
  have hpoll := Reader.poll_of_pending _ _ _ taken s.arrived hpending
  rw [← List.append_assoc] at hinput
  rcases Reader.poll_encoded (frameReader fromSlice) EditorMessage.encode EditorMessage.payload
    messages (taken ++ s.arrived) s.coming
    (fun m hm => encodes_message fromSlice m (hmessages m hm)) hinput with
    ⟨frame, hframe⟩ | ⟨m, messages', left, rfl, hready, hleft⟩
  · rw [frameReader_start, hpoll] at hframe
    have haligned : Aligned fromSlice values { s with frame := frame, arrived := [] } := by
      intro _
      refine ⟨taken ++ s.arrived, messages, hmessages, ?_, hinput, hvalues⟩
      rw [hpoll, hframe]
    unfold poll
    rw [hframe]
    exact ⟨haligned, faithful_of_aligned fromSlice values _ hpc haligned⟩
  · rw [frameReader_start, hpoll] at hready
    rw [List.forall_mem_cons] at hmessages
    unfold poll
    rw [hready]
    refine keep_of_turn fromSlice values _ _ (turn_handle _ m.payload writes) hpc ?_ ?_
    · rw [← hvalues, List.map_cons]
      exact ⟨messages'.map EditorMessage.payload, by simp⟩
    · intro _ _
      refine ⟨[], messages', hmessages.2, rfl, hleft, ?_⟩
      rw [← hvalues, List.map_cons, List.append_assoc, List.singleton_append]

theorem aligned_endInput (values : List Json) (s : Proxy) (writes : Bool) (hpc : s.pc = .running)
    (harrived : s.arrived = []) (hcoming : s.coming = []) (h : Aligned fromSlice values s) :
    Aligned fromSlice values (s.endInput fromSlice writes) ∧
      Faithful fromSlice values (s.endInput fromSlice writes) := by
  rcases h hpc with ⟨taken, messages, hmessages, hpending, hinput, hvalues⟩
  rw [harrived, hcoming, List.append_nil, List.append_nil] at hinput
  cases messages with
  | nil =>
      rw [List.flatMap_nil] at hinput
      rw [hinput, Reader.poll, ReadPoll.pending.injEq] at hpending
      rw [List.map_nil, List.append_nil] at hvalues
      have hend : s.endInput fromSlice writes = s.finish .inputClosed := by
        unfold endInput
        rw [← hpending]
        rfl
      rw [hend]
      exact ⟨fun hrunning => absurd hrunning (by simp [finish]), hvalues⟩
  | cons m messages =>
      -- A message that has been taken whole has been handed on.
      have hfirst := encodes_message fromSlice m (hmessages m List.mem_cons_self)
      unfold Reader.Encodes at hfirst
      rw [hinput, List.flatMap_cons, Reader.poll_append, ← frameReader_start fromSlice,
        hfirst] at hpending
      exact absurd hpending (by simp)

/-- What one step keeps. -/
theorem aligned_keep (hjson : ClosesStrings fromSlice) (values : List Json) (s s' : Proxy)
    (a : ProxyAction) (h : Aligned fromSlice values s) (hfaithful : Faithful fromSlice values s)
    (hstep : s.step fromSlice fromStr a = some s') (hcond : DropCond fromSlice fromStr s a) :
    Aligned fromSlice values s' ∧ Faithful fromSlice values s' := by
  cases a with
  | arrive n =>
      simp only [step, Option.some.injEq] at hstep
      rw [← hstep]
      exact aligned_arrive fromSlice values s n h hfaithful
  | pollInput writes =>
      cases hpc : s.pc with
      | returned reason => exact absurd hstep (by simp [step, hpc])
      | running =>
          simp only [step, hpc, Option.some.injEq] at hstep
          rw [← hstep]
          exact aligned_poll fromSlice values s writes hpc h
  | inputEnds writes =>
      simp only [step] at hstep
      split at hstep
      · rename_i hpc harrived hcoming
        rw [Option.some.injEq] at hstep
        rw [← hstep]
        exact aligned_endInput fromSlice values s writes hpc harrived hcoming h
      · exact absurd hstep (by simp)
  | streamReady next writes =>
      rcases step_streamReady fromSlice fromStr s s' next writes hstep with ⟨hpc, hs'⟩
      have hpre : s.handed <+: values := by
        rcases h hpc with ⟨_, messages, _, _, _, hvalues⟩
        exact ⟨_, hvalues⟩
      rw [hs']
      refine keep_of_turn fromSlice values { s with frame := (frameReader fromSlice).start } _
        (turn_handleStream fromStr _ next writes) hpc hpre fun hrunning => ?_
      -- Dropping the future leaves the reader aligned, or loses the frame it was in.
      rcases drop_cases fromSlice hjson values s hpc h with ⟨_, haligned⟩ | hlost
      · exact haligned
      · unfold Faithful at hfaithful
        rw [hpc] at hfaithful
        rcases hfaithful with ⟨rest, hread, hvalues⟩
        rw [← readAll_of_harmless fromSlice s (hcond hrunning)] at hread
        exact absurd hvalues (hlost rest hread)

/-- A step to a faithful state has done no harm. -/
theorem faithful_need (hjson : ClosesStrings fromSlice) (values : List Json) (s s' : Proxy)
    (a : ProxyAction) (h : Aligned fromSlice values s)
    (hstep : s.step fromSlice fromStr a = some s') (hfaithful : Faithful fromSlice values s') :
    DropCond fromSlice fromStr s a := by
  cases a with
  | streamReady next writes =>
      intro hrunning
      rcases step_streamReady fromSlice fromStr s s' next writes hstep with ⟨hpc, hs'⟩
      rcases drop_cases fromSlice hjson values s hpc h with ⟨hharmless, _⟩ | hlost
      · exact hharmless
      · have hturn := turn_handleStream fromStr
          { s with frame := (frameReader fromSlice).start } next writes
        rw [← hs'] at hturn hrunning
        unfold Faithful at hfaithful
        rw [hrunning] at hfaithful
        rcases hfaithful with ⟨rest, hread, hvalues⟩
        rw [hturn.frame, hturn.arrived, hturn.coming] at hread
        rw [hturn.handed] at hvalues
        exact absurd hvalues (hlost rest hread)
  | _ => trivial

/-- Whatever pieces the editor's messages arrive in and whatever the daemon sends
    meanwhile, the proxy hands on exactly the editor's messages if and only if no
    line of the stream drops the future that reads a frame where it loses one. -/
theorem faithful_iff_along (hjson : ClosesStrings fromSlice) (initializeResult : Json)
    (leaseId : String) (messages : List EditorMessage)
    (hmessages : ∀ m ∈ messages, m.WellFormed fromSlice) (as : List ProxyAction) :
    let s := attached fromSlice initializeResult leaseId (messages.flatMap EditorMessage.encode)
    Always (step fromSlice fromStr) (Faithful fromSlice (messages.map EditorMessage.payload)) s as ↔
      Along (step fromSlice fromStr) (DropCond fromSlice fromStr) s as := by
  intro s
  have haligned : Aligned fromSlice (messages.map EditorMessage.payload) s :=
    fun _ => ⟨[], messages, hmessages, rfl, rfl, rfl⟩
  refine always_iff_along (I := Aligned fromSlice (messages.map EditorMessage.payload)) ?_ ?_ as s
    haligned (faithful_of_aligned fromSlice _ s rfl haligned) (along_true as s)
  · intro s a s' hI hP hstep _ hcond
    exact aligned_keep fromSlice fromStr hjson _ s s' a hI hP hstep hcond
  · intro s a s' hI _ hstep _ hP
    exact faithful_need fromSlice fromStr hjson _ s s' a hI hstep hP

/-! ### Runs -/

/-- No line of the stream wins while a frame is being read. -/
def StartCond (s : Proxy) : ProxyAction → Prop
  | .streamReady _ _ => s.frame = (frameReader fromSlice).start
  | _ => True

instance (s : Proxy) (a : ProxyAction) : Decidable (StartCond fromSlice s a) := by
  cases a <;> unfold StartCond <;> infer_instance

theorem dropCond_of_start (s : Proxy) (a : ProxyAction) (h : StartCond fromSlice s a) :
    DropCond fromSlice fromStr s a := by
  cases a with
  | streamReady next writes => exact fun _ => Or.inl h
  | _ => trivial

/-- An array without items. -/
def emptyArray : EditorMessage where
  before := []
  after := []
  body := [91, 93]
  payload := .arr []

/-- A frame of the stream with a notification of the server. -/
def lspOutText : String :=
  "\x7b\"v\":1,\"type\":\"LspOut\",\"lease_id\":\"lease_1\",\"seq\":1,\"payload\":null\x7d"

def readLspOut (text : List Char) : Option StreamFrame :=
  if text = lspOutText.toList then some ⟨1, .lspOut, "lease_1", 1, .null⟩ else none

theorem closesStrings_readEmptyArray : ClosesStrings readEmptyArray := by
  intro body payload hbody front line back text hcut _ htext hhead
  unfold readEmptyArray at hbody
  split at hbody
  · rename_i heq
    have hmem : ∀ b ∈ line, b ∈ [91, 93] := by
      intro b hb
      rw [← heq, hcut]
      exact List.mem_append_left _ (List.mem_append_right _ hb)
    have hsmall : ∀ b ∈ ([91, 93] : List UInt8), b < 0x80 ∧ Char.ofNat b.toNat ≠ 'C' := by
      have hall : ([91, 93] : List UInt8).all
          (fun b => decide (b < 0x80 ∧ Char.ofNat b.toNat ≠ 'C')) = true := by decide
      exact fun b hb => of_decide_eq_true (List.all_eq_true.mp hall b hb)
    rw [decode_ascii line (fun b hb => (hsmall b (hmem b hb)).1), Option.some.injEq] at htext
    cases line with
    | nil =>
        rw [← htext] at hhead
        exact absurd hhead (by simp [asciiChars])
    | cons b line =>
        rw [← htext] at hhead
        simp only [asciiChars, List.map_cons, List.head?_cons, Option.some.injEq] at hhead
        exact absurd hhead (hsmall b (hmem b List.mem_cons_self)).2
  · exact absurd hbody (by simp)

theorem wellFormed_emptyArray : emptyArray.WellFormed readEmptyArray where
  before := by simp [emptyArray]
  after := by simp [emptyArray]
  length := by decide
  payload := by decide

/-- The proxy with this message to come. -/
def oneMessage : Proxy :=
  attached readEmptyArray .null "lease_1" ([emptyArray].flatMap EditorMessage.encode)

/-- The message arrives and is handled before the server writes. -/
def messageThenLine : List ProxyAction :=
  [.arrive 23, .pollInput true, .streamReady (.line lspOutText.toList) true, .inputEnds true]

/-- A line of the stream wins while the message's header is being read. -/
def lineInHeader : List ProxyAction :=
  [.arrive 10, .pollInput true, .streamReady (.line lspOutText.toList) true, .arrive 13,
    .pollInput true]

/-- A line of the stream wins while the message's body is being read. -/
def lineInBody : List ProxyAction :=
  [.arrive 22, .pollInput true, .streamReady (.line lspOutText.toList) true, .arrive 1,
    .pollInput true, .inputEnds true]

theorem messageThenLine_isSome :
    (run (step readEmptyArray readLspOut) oneMessage messageThenLine).isSome = true := by
  decide +kernel

theorem lineInHeader_isSome :
    (run (step readEmptyArray readLspOut) oneMessage lineInHeader).isSome = true := by
  decide +kernel

theorem lineInBody_isSome :
    (run (step readEmptyArray readLspOut) oneMessage lineInBody).isSome = true := by
  decide +kernel

theorem faithful_messageThenLine :
    (run (step readEmptyArray readLspOut) oneMessage messageThenLine).isSome = true ∧
      Always (step readEmptyArray readLspOut) (Faithful readEmptyArray [.arr []]) oneMessage
        messageThenLine :=
  ⟨messageThenLine_isSome,
    (faithful_iff_along readEmptyArray readLspOut closesStrings_readEmptyArray .null "lease_1"
      [emptyArray] (by simp [wellFormed_emptyArray]) messageThenLine).mpr
      (along_mono (dropCond_of_start readEmptyArray readLspOut) messageThenLine oneMessage
        (by decide))⟩

/-- The proxy does not always hand on what the editor sends: a frame whose header
    is cut is a decode error, and one whose body is cut is lost. -/
theorem input_mangled :
    (¬ ∀ (as : List ProxyAction) (t : Proxy),
      run (step readEmptyArray readLspOut) oneMessage as = some t →
        t.pc ≠ .returned .inputFailed) ∧
    ¬ ∀ (as : List ProxyAction) (t : Proxy),
      run (step readEmptyArray readLspOut) oneMessage as = some t →
        t.pc = .returned .inputClosed → t.handed = [.arr []] := by
  constructor
  · intro hall
    have herror := hall lineInHeader _ (Option.some_get lineInHeader_isSome).symm
    exact absurd herror (by decide)
  · intro hall
    have hhanded := hall lineInBody _ (Option.some_get lineInBody_isSome).symm (by decide)
    exact absurd hhanded (by decide)

end Proxy

end Lspee
