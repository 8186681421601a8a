import Lspee.Core.Conversation
import Lspee.Theory.Sizes

/-!
# Commands Are Answered

Whether what a command takes for the answer to a frame is the daemon's answer to
that frame.

At most one request is under way. It is in one of four places: on its way to the
daemon, with the daemon, on its way back as a response, or lost, which happens to a
frame that is too large, and closes the connection. `Turn` says where, and
`orderly_step` that a step moves the request from one place to the next. So the
responses a command takes are those to its first frames, one for each and in order
(`answers_exact`).

The texts are those of `serde_json`. What is needed of it is that a text is on one
line, and is read as what was written.

## Main definitions

* `ReadsBack`: The envelopes written so far are read as what they are.
* `Moved`: What a command does when it goes on.
* `Turn`: Where the request is.
* `Orderly`: What every run keeps.

## Theorems

* `readResponse_envelope`: A command reads a response.
* `handleLine_frame`: The daemon reads a frame.
* `moved_proceed`: A command ends, or sends the next frame.
* `sent_step`: What is written stays written.
* `orderly_step`, `orderly_run`: What every run keeps.
* `answers_exact`: Which responses a command takes.
-/

namespace Lspee

open Transition Utf8

theorem ControlEnvelope.fromValue_toValue (envelope : ControlEnvelope)
    (h : envelope.v = protocolVersion) : fromValue envelope.toValue = some envelope := by
  have hv : envelope.v < 2 ^ 32 := by rw [h]; decide
  rw [ControlEnvelope.fromValue_eq, ControlEnvelope.toValue,
    TypedEnvelope.fromValue_toValue _ envelope.payload hv rfl]
  rfl

section Texts

variable {toString : Json → List Char} {fromStr : List Char → Option Json}

/-- A command reads a response: it is taken if it has the id, and skipped if not. -/
theorem readResponse_envelope (hcompact : Json.PrintsCompact toString) (r : ControlEnvelope)
    (id : String) (hv : r.v = protocolVersion)
    (hback : fromStr (toString r.toValue) = some r.toValue) :
    readResponse fromStr id (writeEnvelope toString r) =
      if r.id = some id then .over (.ok r) [] else .skipped [] := by
  have hnext := nextLine_frame toString hcompact r [] .eof
  rw [List.append_nil] at hnext
  rw [readResponse, show writeEnvelope toString r = writeFrame toString r from rfl, hnext]
  simp only [hback, Option.bind_some, ControlEnvelope.fromValue_toValue r hv]

/-- The daemon reads a frame: it is refused if it is too large, and dispatched if
    not. -/
theorem handleLine_frame (s : Control) (q : ControlEnvelope) (call : CallId)
    (hv : q.v = protocolVersion) (hback : fromStr (toString q.toValue) = some q.toValue) :
    s.handleLine (Connection.lineOf fromStr (toString q.toValue)) call =
      if byteLen (toString q.toValue) > maxFrameSizeBytes then
        some (s.write (errorEnvelope none "E_FRAME_TOO_LARGE"
          "Control frame exceeds 1 MiB maximum" false none) true)
      else s.dispatchControlRequest q call := by
  have hversion : ((q.toValue.get "v").bind Json.asU64).map (fun v => v % 2 ^ 32) =
      some protocolVersion := by
    rcases q with ⟨v, id, messageType, payload⟩
    simp only at hv
    rw [hv]
    cases id <;> rfl
  simp only [Control.handleLine, Connection.lineOf, hback, hversion, ne_eq, not_true_eq_false,
    if_false, ControlEnvelope.fromValue_toValue q hv]

end Texts

namespace Connection

variable {fromStr : List Char → Option Json}

/-- What the daemon has written stays written, and what it adds is an answer. -/
theorem sent_step (s s' : Connection) (a : ConnectionAction)
    (h : s.step fromStr a = some s') : (∀ r ∈ s.sent, r ∈ s'.sent) ∧
      ∀ r ∈ s'.sent, r ∈ s.sent ∨ ∃ id answer, r = Answer.envelope id answer := by
  -- While nothing is being written, at most the answer being worked on is new.
  have hquiet : ∀ c bytes lines, (∀ response stop, s.control.pc ≠ .writing response stop) →
      (∀ response stop, c.pc = .writing response stop →
        ∃ id answer, response = Answer.envelope id answer) →
      s' = { s with control := c, bytes := bytes, lines := lines } →
      (∀ r ∈ s.sent, r ∈ s'.sent) ∧
        ∀ r ∈ s'.sent, r ∈ s.sent ∨ ∃ id answer, r = Answer.envelope id answer := by
    intro c bytes lines hwaiting hwrites hs'
    have hsent : s.sent = s.responses := by
      rw [sent, written_eq_nil s hwaiting, List.nil_append]
    rw [hs', hsent]
    refine ⟨fun r hr => List.mem_append_right _ hr, fun r hr => ?_⟩
    rcases List.mem_append.mp hr with hr | hr
    · rcases (mem_written _ r).mp hr with ⟨stop, hpc⟩
      exact .inr (hwrites r stop hpc)
    · exact .inl hr
  have hgoesOn : ∀ c, (∃ id, GoesOn s.control c id) → s' = { s with control := c } →
      (∀ r ∈ s.sent, r ∈ s'.sent) ∧
        ∀ r ∈ s'.sent, r ∈ s.sent ∨ ∃ id answer, r = Answer.envelope id answer := by
    rintro c ⟨id, hgoes⟩ hs'
    refine hquiet c _ _ hgoes.waiting (fun response stop hpc => ?_) hs'
    rcases hgoes.writes response stop hpc with ⟨_, answer, _, hresponse⟩
    exact ⟨id, answer, hresponse⟩
  cases a with
  | world a =>
      rcases Option.map_eq_some_iff.mp h with ⟨c, hc, rfl⟩
      rcases Option.map_eq_some_iff.mp hc with ⟨w, _, rfl⟩
      exact ⟨fun r hr => hr, fun r hr => .inl hr⟩
  | read call =>
      rcases read_cases s s' call h with ⟨hpc, hcases⟩
      have hwaiting : ∀ response stop, s.control.pc ≠ .writing response stop := by
        intro response stop hw
        rw [hpc] at hw
        cases hw
      rcases hcases with ⟨text, rest, c, _, hhandled, hs'⟩ | ⟨ok, _, hs'⟩ | ⟨_, hs'⟩
      · refine hquiet c _ _ hwaiting (fun response stop hw => ?_) hs'
        rcases handleLine_writes _ _ _ call hhandled with ⟨_, response', hpc', _, hanswer⟩ |
          ⟨_, hanswer⟩
        · rw [hpc', ControlPc.writing.injEq] at hw
          rw [← hw.1]
          exact hanswer
        · exact (hanswer response stop hw).2
      · exact hquiet { s.control with pc := .returned ok } _ _ hwaiting
          (fun response stop hw => by cases hw) hs'
      · exact hquiet { s.control with pc := .returned false } _ _ hwaiting
          (fun response stop hw => by cases hw) hs'
  | resume =>
      rcases Option.map_eq_some_iff.mp h with ⟨c, hc, hs'⟩
      exact hgoesOn c (goesOn_resume s.control c hc) hs'.symm
  | bound endpoint call =>
      rcases Option.map_eq_some_iff.mp h with ⟨c, hc, hs'⟩
      exact hgoesOn c (goesOn_bound s.control c endpoint call hc) hs'.symm
  | sampled memoryTotal =>
      rcases Option.map_eq_some_iff.mp h with ⟨c, hc, hs'⟩
      exact hgoesOn c (goesOn_sampled s.control c memoryTotal hc) hs'.symm
  | wrote ok =>
      rcases Option.map_eq_some_iff.mp h with ⟨c, hc, rfl⟩
      -- What was being written is now among the responses.
      have hnot : ∀ response stop, c.pc ≠ .writing response stop := by
        intro response stop hpc
        simp only [Control.step, Control.wrote] at hc
        split at hc
        · rename_i stop' _
          cases ok <;> cases stop' <;> simp at hc <;> rw [← hc] at hpc <;> cases hpc
        · cases hc
      have hsent : ({ s with control := c, responses := s.written ++ s.responses } :
          Connection).sent = s.sent := by
        rw [sent, written_eq_nil _ hnot, List.nil_append]
        rfl
      rw [hsent]
      exact ⟨fun r hr => hr, fun r hr => .inl hr⟩

end Connection

theorem Answer.version (id : Option String) (answer : Answer) :
    (answer.envelope id).v = protocolVersion := by
  cases answer <;> rfl

/-- The type of the frame whose response is waited for. -/
def CommandPc.waitsFor (messageType : String) : CommandPc → Bool
  | .asking _ => messageType = "Stats" || messageType = "Shutdown"
  | .attaching _ => messageType = "Attach"
  | .opening _ _ _ => messageType = "Notify"
  | .calling _ _ _ => messageType = "Call"
  | .closing _ _ _ => messageType = "Notify"
  | .releasing _ _ _ => messageType = "Release"
  | _ => false

namespace Conversation

section Answers

variable {toString : Json → List Char} {fromStr : List Char → Option Json}

variable (toString fromStr) in
/-- The envelopes written so far, by either side, are read as what they are. -/
def ReadsBack (s : Conversation) : Prop :=
  ∀ envelope ∈ s.sent ++ s.connection.sent,
    fromStr (toString envelope.toValue) = some envelope.toValue

variable (toString) in
/-- What a command does when it goes on: it ends, or it sends a frame and waits for
    the response. -/
inductive Moved (s s' : Conversation) : Prop where
  | ends (result : Except ClientError Report) (h : s' = { s with pc := .ended result })
  | sends (frame : ControlEnvelope) (pc : CommandPc) (id : String)
      (hopen : s.daemonClosed = false) (hv : frame.v = protocolVersion)
      (hid : frame.id = some id) (hpc : pc.expectedId = some id)
      (htype : pc.waitsFor frame.messageType = true)
      (hattach : frame.messageType = "Attach" → frame.payload = s.caller.attachPayload)
      (h : s' = { s with
        connection := { s.connection with
          bytes := s.connection.bytes ++ writeFrame toString frame }
        pc := pc
        sent := frame :: s.sent })

theorem moved_transmit (s : Conversation) (frame : ControlEnvelope) (pc : CommandPc) (id : String)
    (result : Except ClientError Report) (hv : frame.v = protocolVersion)
    (hid : frame.id = some id) (hpc : pc.expectedId = some id)
    (htype : pc.waitsFor frame.messageType = true)
    (hattach : frame.messageType = "Attach" → frame.payload = s.caller.attachPayload) :
    Moved toString s (s.transmit toString frame pc (.ended result)) := by
  unfold transmit
  cases hclosed : s.daemonClosed with
  | true => exact .ends result (by simp)
  | false => exact .sends frame pc id hclosed hv hid hpc htype hattach (by simp)

theorem moved_release (s : Conversation) (nanos : Nat) (leaseId : String)
    (result : Except ClientError Report) :
    Moved toString s (s.release toString nanos leaseId result) :=
  moved_transmit s _ _ _ _ rfl rfl rfl rfl (by simp [Caller.envelope])

theorem moved_call (s : Conversation) (nanos : Nat) (leaseId : String)
    (didOpenUri : Option String) :
    Moved toString s (s.call toString nanos leaseId didOpenUri) :=
  moved_transmit s _ _ _ _ rfl rfl rfl rfl (by simp [Caller.envelope])

theorem moved_begin (s : Conversation) (nanos : Nat) :
    Moved toString s (s.begin toString nanos) := by
  unfold begin
  split
  · rename_i hcommand
    exact moved_transmit s _ _ _ _ (by rw [firstFrame, hcommand]; rfl)
      (by rw [firstFrame, hcommand]; rfl) rfl (by rw [firstFrame, hcommand]; rfl)
      (by simp [firstFrame, hcommand, Caller.envelope])
  · rename_i hcommand
    exact moved_transmit s _ _ _ _ (by rw [firstFrame, hcommand]; rfl)
      (by rw [firstFrame, hcommand]; rfl) rfl (by rw [firstFrame, hcommand]; rfl)
      (by simp [firstFrame, hcommand, Caller.envelope])
  · rename_i hstatus hstop
    have hframe : s.firstFrame nanos = s.caller.envelope "attach" "Attach" s.caller.attachPayload
        nanos := by
      unfold firstFrame
      split
      · exact absurd ‹_› hstatus
      · exact absurd ‹_› hstop
      · rfl
    exact moved_transmit s _ _ _ _ (by rw [hframe]; rfl) (by rw [hframe]; rfl) rfl
      (by rw [hframe]; rfl) (fun _ => by rw [hframe]; rfl)

theorem moved_attached (s : Conversation) (nanos : Nat) (file : Except String SourceFile)
    (response : Except ClientError ControlEnvelope) :
    Moved toString s (s.attached toString nanos file response) := by
  unfold attached
  split
  · split
    · exact moved_release s _ _ _
    · exact .ends _ rfl
  · split
    · split
      · exact moved_transmit s _ _ _ _ rfl rfl rfl rfl (by simp [Caller.envelope])
      · exact moved_call s _ _ _
    · exact .ends _ rfl
  · split
    · exact moved_call s _ _ _
    · exact .ends _ rfl

theorem moved_called (s : Conversation) (nanos : Nat) (leaseId : String)
    (didOpenUri : Option String) (response : Except ClientError ControlEnvelope) :
    Moved toString s (s.called toString nanos leaseId didOpenUri response) := by
  unfold called
  split
  · exact .ends _ rfl
  · split
    · exact moved_transmit s _ _ _ _ rfl rfl rfl rfl (by simp [Caller.envelope])
    · exact moved_release s _ _ _

/-- A command whose wait is over ends, or sends the next frame. -/
theorem moved_proceed (s : Conversation) (nanos : Nat) (file : Except String SourceFile)
    (response : Except ClientError ControlEnvelope) (id : String)
    (hid : s.pc.expectedId = some id) :
    Moved toString s (s.proceed toString nanos file response) := by
  unfold proceed
  cases hpc : s.pc with
  | asking id' =>
      simp only
      split
      · exact .ends _ rfl
      · exact .ends _ rfl
  | attaching id' => exact moved_attached s nanos file response
  | opening id' leaseId uri =>
      simp only
      split
      · exact moved_call s _ _ _
      · exact moved_call s _ _ _
  | calling id' leaseId didOpenUri => exact moved_called s nanos leaseId didOpenUri response
  | closing id' leaseId result => exact moved_release s _ _ _
  | releasing id' leaseId result => exact .ends _ rfl
  | connected => rw [hpc] at hid; cases hid
  | ended result => rw [hpc] at hid; cases hid
  | killed => rw [hpc] at hid; cases hid

/-! ### What the daemon reads -/

variable (toString) in
/-- A frame as a line. -/
def lineText (q : ControlEnvelope) : Option (List Char) := some (toString q.toValue)

variable (toString) in
/-- What the daemon has not read is nothing, or the frame written last; the frames
    before it are its lines. -/
def Unread (s : Conversation) : Prop :=
  s.connection.bytes = [] ∧ s.connection.lines = s.sent.map (lineText toString) ∨
    ∃ q earlier, s.sent = q :: earlier ∧ s.connection.bytes = writeFrame toString q ∧
      s.connection.lines = earlier.map (lineText toString)

theorem Unread.all_read {s : Conversation} (h : s.Unread toString)
    (hbytes : s.connection.bytes = []) : s.connection.lines = s.sent.map (lineText toString) := by
  rcases h with ⟨_, hlines⟩ | ⟨q, _, _, hframe, _⟩
  · exact hlines
  · rw [hbytes] at hframe
    exact absurd hframe.symm (by simp [writeFrame, writeLine])

theorem read_frame (hcompact : Json.PrintsCompact toString) (s s' : Connection) (call : CallId)
    (q : ControlEnvelope) (hbytes : s.bytes = writeFrame toString q)
    (h : s.step fromStr (.read call) = some s') :
    s.control.handleLine (Connection.lineOf fromStr (toString q.toValue)) call =
        some s'.control ∧
      s' = { s with
        control := s'.control
        bytes := []
        lines := lineText toString q :: s.lines } := by
  have hnext := nextLine_frame toString hcompact q [] s.ending
  rw [List.append_nil, ← hbytes] at hnext
  exact Connection.read_line s s' call _ _ h hnext

theorem read_nothing (s s' : Connection) (call : CallId) (hbytes : s.bytes = [])
    (h : s.step fromStr (.read call) = some s') :
    ∃ ok, s' = { s with control := { s.control with pc := .returned ok } } := by
  have hnone : ∀ line, lineRead s.bytes s.ending ≠ some line := by
    intro line
    rw [hbytes]
    cases s.ending <;> simp [lineRead, splitLine]
  rcases (Connection.read_cases s s' call h).2 with ⟨text, rest, c, hline, _⟩ | ⟨ok, _, hs'⟩ |
    ⟨hline, _⟩
  · exact absurd hline (hnone _)
  · exact ⟨ok, hs'⟩
  · exact absurd hline (hnone _)

/-- A step of the daemon that reads nothing. -/
theorem step_other (s s' : Connection) (a : ConnectionAction) (hread : ∀ call, a ≠ .read call)
    (h : s.step fromStr a = some s') : s'.bytes = s.bytes ∧ s'.lines = s.lines ∧
      (s'.responses = s.responses ∨
        ∃ ok, a = .wrote ok ∧ s'.responses = s.written ++ s.responses) := by
  cases a with
  | read call => exact absurd rfl (hread call)
  | wrote ok =>
      rcases Option.map_eq_some_iff.mp h with ⟨c, _, rfl⟩
      exact ⟨rfl, rfl, .inr ⟨ok, rfl, rfl⟩⟩
  | _ =>
      rcases Option.map_eq_some_iff.mp h with ⟨c, _, rfl⟩
      exact ⟨rfl, rfl, .inl rfl⟩

/-! ### Where the request is -/

/-- The frames before the last have been answered, and the responses taken. -/
structure Settled (s : Conversation) (earlier responses : List ControlEnvelope) : Prop where
  answered : responses.length = earlier.length
  heard : s.heard = earlier.zip responses

variable (toString) in
/-- Where the request is that the command waits for. -/
inductive Turn (s : Conversation) (q : ControlEnvelope) (earlier : List ControlEnvelope) :
    Prop where
  /-- On its way to the daemon. -/
  | asked (hpc : s.connection.control.pc = .reading)
      (hbytes : s.connection.bytes = writeFrame toString q) (hout : s.toClient = [])
      (hsettled : s.Settled earlier s.connection.responses)
  /-- With the daemon. -/
  | held (hpc : Connection.carried s.connection.control.pc = some q.id)
      (hbytes : s.connection.bytes = []) (hout : s.toClient = [])
      (hsettled : s.Settled earlier s.connection.responses)
  /-- On its way back, as a response. -/
  | answered (r : ControlEnvelope) (responses : List ControlEnvelope)
      (hpc : Connection.carried s.connection.control.pc = none)
      (hbytes : s.connection.bytes = []) (hid : r.id = q.id)
      (hresponses : s.connection.responses = r :: responses)
      (hout : s.toClient = writeEnvelope toString r) (hsettled : s.Settled earlier responses)
  /-- Refused: the response will be one without an id, and the last. -/
  | refused (r : ControlEnvelope) (hlong : byteLen (toString q.toValue) > maxFrameSizeBytes)
      (hpc : s.connection.control.pc = .writing r true) (hid : r.id = none)
      (hbytes : s.connection.bytes = []) (hout : s.toClient = [])
      (hsettled : s.Settled earlier s.connection.responses)
  /-- Lost: the daemon is closed, and there is no response with its id to come. -/
  | lost (hlong : byteLen (toString q.toValue) > maxFrameSizeBytes)
      (hclosed : s.daemonClosed = true) (hbytes : s.connection.bytes = [])
      (hout : s.toClient = [] ∨
        ∃ r ∈ s.connection.sent, r.id = none ∧ s.toClient = writeEnvelope toString r)

variable (toString) in
/-- What every run keeps. -/
structure Orderly (s : Conversation) : Prop where
  version : ∀ envelope ∈ s.sent ++ s.connection.sent, envelope.v = protocolVersion
  unread : s.Unread toString
  paired : s.heard.reverse <+: s.sent.reverse.zip s.connection.responses.reverse
  ids : ∀ pair ∈ s.heard, pair.2.id = pair.1.id
  fresh : s.pc = .connected → s.connection.control.pc = .reading ∧ s.connection.bytes = [] ∧
    s.toClient = [] ∧ s.sent = [] ∧ s.connection.responses = [] ∧ s.heard = []
  turn : ∀ id, s.pc.expectedId = some id →
    ∃ q earlier, s.sent = q :: earlier ∧ q.id = some id ∧ s.Turn toString q earlier

theorem expectedId_waiting (pc : CommandPc) (id : String) (h : pc.expectedId = some id) :
    pc.gone = false := by
  cases pc <;> first | rfl | cases h

/-- Lists that grow at their ends are paired as before. -/
theorem zip_grows {α β : Type} (xs xs' : List α) (ys ys' : List β) (hx : xs <+: xs')
    (hy : ys <+: ys') : xs.zip ys <+: xs'.zip ys' := by
  induction xs generalizing xs' ys ys' with
  | nil => exact List.nil_prefix
  | cons x xs ih =>
      rcases hx with ⟨more, rfl⟩
      cases ys with
      | nil => exact List.nil_prefix
      | cons y ys =>
          rcases hy with ⟨more', rfl⟩
          exact (List.prefix_cons_inj _).mpr
            (ih _ _ _ (List.prefix_append xs more) (List.prefix_append ys more'))

/-! ### Steps of the daemon -/

/-- A connection that works on nothing, and does not read, only sees the world go
    on. -/
theorem idle_step (s : Conversation) (c : Connection) (a : ConnectionAction)
    (hread : ∀ call, a ≠ .read call) (h : s.connection.step fromStr a = some c)
    (hcarried : Connection.carried s.connection.control.pc = none) :
    (∃ w, c = { s.connection with control := { s.connection.control with world := w } }) ∧
      s.written toString a = [] := by
  have hbusy : ∀ {id}, Connection.carried s.connection.control.pc = some id → False := by
    intro id hid
    rw [hcarried] at hid
    cases hid
  cases a with
  | world a =>
      rcases Option.map_eq_some_iff.mp h with ⟨control, hc, rfl⟩
      rcases Option.map_eq_some_iff.mp hc with ⟨w, _, rfl⟩
      exact ⟨⟨w, rfl⟩, rfl⟩
  | read call => exact absurd rfl (hread call)
  | resume =>
      rcases Option.map_eq_some_iff.mp h with ⟨control, hc, _⟩
      exact (hbusy (Connection.busy_of_resume _ _ hc).choose_spec).elim
  | bound endpoint call =>
      rcases Option.map_eq_some_iff.mp h with ⟨control, hc, _⟩
      exact (hbusy (Connection.busy_of_bound _ _ endpoint call hc).choose_spec).elim
  | sampled memoryTotal =>
      rcases Option.map_eq_some_iff.mp h with ⟨control, hc, _⟩
      exact (hbusy (Connection.busy_of_sampled _ _ memoryTotal hc).choose_spec).elim
  | wrote ok =>
      rcases Option.map_eq_some_iff.mp h with ⟨control, hc, _⟩
      simp only [Control.step, Control.wrote] at hc
      split at hc
      · rename_i response stop hpc
        exact (hbusy (congrArg Connection.carried hpc)).elim
      · cases hc

/-- So it is for one that has nothing to read. -/
theorem quiet_step (s : Conversation) (c : Connection) (a : ConnectionAction)
    (hmay : s.mayMove a = true) (h : s.connection.step fromStr a = some c)
    (hcarried : Connection.carried s.connection.control.pc = none)
    (hbytes : s.connection.bytes = []) (hgone : s.pc.gone = false) :
    (∃ w, c = { s.connection with control := { s.connection.control with world := w } }) ∧
      s.written toString a = [] := by
  refine idle_step s c a ?_ h hcarried
  rintro call rfl
  simp [mayMove, readable, hbytes, hgone, splitLine] at hmay

/-- The end of a write that succeeds. -/
theorem wrote_cases (s s' : Connection) (h : s.step fromStr (.wrote true) = some s') :
    ∃ response stop, s.control.pc = .writing response stop ∧
      s' = { s with
        control := { s.control with pc := if stop then .returned true else .reading }
        responses := response :: s.responses } ∧
      s.written = [response] := by
  rcases Option.map_eq_some_iff.mp h with ⟨c, hc, rfl⟩
  simp only [Control.step, Control.wrote] at hc
  split at hc
  · rename_i response stop hpc
    simp only [if_true, Option.some.injEq] at hc
    have hwritten : s.written = [response] := by rw [Connection.written, hpc]
    exact ⟨response, stop, hpc, by rw [← hc, hwritten]; rfl, hwritten⟩
  · cases hc

/-- A step of the daemon that neither reads nor writes keeps the id it works for. -/
theorem carried_step (s s' : Connection) (a : ConnectionAction) (hread : ∀ call, a ≠ .read call)
    (hwrote : ∀ ok, a ≠ .wrote ok) (h : s.step fromStr a = some s') :
    Connection.carried s'.control.pc = Connection.carried s.control.pc := by
  cases a with
  | world a =>
      rcases Option.map_eq_some_iff.mp h with ⟨control, hc, rfl⟩
      rcases Option.map_eq_some_iff.mp hc with ⟨w, _, rfl⟩
      rfl
  | read call => exact absurd rfl (hread call)
  | resume =>
      rcases Option.map_eq_some_iff.mp h with ⟨control, hc, rfl⟩
      exact Connection.carried_resume _ _ hc
  | bound endpoint call =>
      rcases Option.map_eq_some_iff.mp h with ⟨control, hc, rfl⟩
      exact Connection.carried_bound _ _ endpoint call hc
  | sampled memoryTotal =>
      rcases Option.map_eq_some_iff.mp h with ⟨control, hc, rfl⟩
      exact Connection.carried_sampled _ _ memoryTotal hc
  | wrote ok => exact absurd rfl (hwrote ok)

/-- Only reading is left to a connection that writes, until it has written. -/
theorem writing_step (s s' : Connection) (a : ConnectionAction) (response : ControlEnvelope)
    (stop : Bool) (hpc : s.control.pc = .writing response stop) (hwrote : ∀ ok, a ≠ .wrote ok)
    (h : s.step fromStr a = some s') :
    ∃ w, s' = { s with control := { s.control with world := w } } := by
  cases a with
  | world a =>
      rcases Option.map_eq_some_iff.mp h with ⟨control, hc, rfl⟩
      rcases Option.map_eq_some_iff.mp hc with ⟨w, _, rfl⟩
      exact ⟨w, rfl⟩
  | read call =>
      have hread := (Connection.read_cases s s' call h).1
      rw [hpc] at hread
      cases hread
  | resume =>
      rcases Option.map_eq_some_iff.mp h with ⟨control, hc, _⟩
      simp [Control.step, Control.resume, hpc] at hc
  | bound endpoint call =>
      rcases Option.map_eq_some_iff.mp h with ⟨control, hc, _⟩
      simp [Control.step, Control.bound, hpc] at hc
  | sampled memoryTotal =>
      rcases Option.map_eq_some_iff.mp h with ⟨control, hc, _⟩
      simp [Control.step, Control.sampled, hpc] at hc
  | wrote ok => exact absurd rfl (hwrote ok)

/-! ### What every run keeps -/

/-- A command that goes on while nothing is under way. -/
theorem orderly_moved (s s' : Conversation) (h : Moved toString s s')
    (hversion : ∀ envelope ∈ s.sent ++ s.connection.sent, envelope.v = protocolVersion)
    (hbytes : s.connection.bytes = [])
    (hlines : s.connection.lines = s.sent.map (lineText toString))
    (hpaired : s.heard.reverse <+: s.sent.reverse.zip s.connection.responses.reverse)
    (hids : ∀ pair ∈ s.heard, pair.2.id = pair.1.id)
    (hready : s.daemonClosed = false → s.connection.control.pc = .reading ∧ s.toClient = [] ∧
      s.Settled s.sent s.connection.responses) : s'.Orderly toString := by
  cases h with
  | ends result h =>
      rw [h]
      exact ⟨hversion, .inl ⟨hbytes, hlines⟩, hpaired, hids, fun hpc => (by cases hpc),
        fun id hid => (by cases hid)⟩
  | sends frame pc id hopen hv hid hpc htype hattach h =>
      rcases hready hopen with ⟨hreading, hout, hsettled⟩
      rw [h, hbytes]
      refine ⟨?_, .inr ⟨frame, s.sent, rfl, rfl, hlines⟩, ?_, hids, ?_, ?_⟩
      · intro envelope henvelope
        rcases List.mem_cons.mp henvelope with rfl | henvelope
        · exact hv
        · exact hversion envelope henvelope
      · refine hpaired.trans (zip_grows _ _ _ _ ?_ List.prefix_rfl)
        rw [List.reverse_cons]
        exact List.prefix_append _ _
      · intro hconnected
        have hpc' : pc = .connected := hconnected
        rw [hpc'] at hpc
        cases hpc
      · intro id' hid'
        rw [show id' = id from Option.some.inj (hid'.symm.trans hpc)]
        exact ⟨frame, s.sent, rfl, hid, .asked hreading rfl hout ⟨hsettled.1, hsettled.2⟩⟩

/-- A request on its way to the daemon is read: the daemon refuses it, or works for
    its id. -/
theorem turn_asked (hcompact : Json.PrintsCompact toString) (s : Conversation) (c : Connection)
    (a : ConnectionAction) (q : ControlEnvelope) (earlier : List ControlEnvelope)
    (hv : q.v = protocolVersion) (hback : fromStr (toString q.toValue) = some q.toValue)
    (hstep : s.connection.step fromStr a = some c)
    (hreading : s.connection.control.pc = .reading)
    (hbytes : s.connection.bytes = writeFrame toString q) (hout : s.toClient = [])
    (hsettled : s.Settled earlier s.connection.responses) :
    Turn toString { s with connection := c, toClient := s.toClient ++ s.written toString a } q
      earlier := by
  by_cases hread : ∃ call, a = .read call
  · rcases hread with ⟨call, rfl⟩
    rcases read_frame hcompact s.connection c call q hbytes hstep with ⟨hline, hc⟩
    rw [handleLine_frame s.connection.control q call hv hback] at hline
    have hout' : s.toClient ++ s.written toString (.read call) = [] := by
      rw [hout]
      rfl
    have hbytes' : c.bytes = [] := by rw [hc]
    have hsettled' : Settled { s with
        connection := c
        toClient := s.toClient ++ s.written toString (.read call) } earlier c.responses := by
      rw [hc]
      exact ⟨hsettled.1, hsettled.2⟩
    split at hline
    · rename_i hlong
      rw [Option.some.injEq] at hline
      exact .refused (errorEnvelope none "E_FRAME_TOO_LARGE" "Control frame exceeds 1 MiB maximum"
        false none) hlong (congrArg Control.pc hline.symm) rfl hbytes' hout' hsettled'
    · exact .held (Connection.carried_dispatch _ _ q call hline) hbytes' hout' hsettled'
  · have hcarried : Connection.carried s.connection.control.pc = none := by rw [hreading]; rfl
    rcases idle_step s c a (fun call ha => hread ⟨call, ha⟩) hstep hcarried with
      ⟨⟨w, rfl⟩, hwritten⟩
    rw [hwritten, List.append_nil]
    exact .asked hreading hbytes hout ⟨hsettled.1, hsettled.2⟩

/-- A request that is with the daemon stays there until its response is written. -/
theorem turn_held (s : Conversation) (c : Connection) (a : ConnectionAction) (q : ControlEnvelope)
    (earlier : List ControlEnvelope) (hok : ∀ ok, a = .wrote ok → ok = true)
    (hstep : s.connection.step fromStr a = some c)
    (hcarried : Connection.carried s.connection.control.pc = some q.id)
    (hbytes : s.connection.bytes = []) (hout : s.toClient = [])
    (hsettled : s.Settled earlier s.connection.responses) :
    Turn toString { s with connection := c, toClient := s.toClient ++ s.written toString a } q
      earlier := by
  by_cases hwrote : ∃ ok, a = .wrote ok
  · rcases hwrote with ⟨ok, rfl⟩
    rw [hok ok rfl] at hstep ⊢
    rcases wrote_cases _ _ hstep with ⟨response, stop, hwriting, rfl, hwritten⟩
    rw [hwriting] at hcarried
    have hid : response.id = q.id := Option.some.inj hcarried
    refine .answered response s.connection.responses ?_ hbytes hid rfl ?_
      ⟨hsettled.1, hsettled.2⟩
    · cases stop <;> rfl
    · simp [written, hwritten, hout]
  · have hread : ∀ call, a ≠ .read call := by
      rintro call rfl
      rw [(Connection.read_cases s.connection c call hstep).1] at hcarried
      cases hcarried
    have hquiet : s.written toString a = [] := by
      cases a with
      | wrote ok => exact absurd ⟨ok, rfl⟩ hwrote
      | _ => rfl
    rcases step_other _ _ _ hread hstep with ⟨hbytes', _, hresponses | ⟨ok, ha, _⟩⟩
    · refine .held ?_ (hbytes'.trans hbytes) (by rw [hquiet, hout]; rfl) ?_
      · exact (carried_step _ _ a hread (fun ok ha => hwrote ⟨ok, ha⟩) hstep).trans hcarried
      · rw [show c.responses = s.connection.responses from hresponses]
        exact ⟨hsettled.1, hsettled.2⟩
    · exact absurd ⟨ok, ha⟩ hwrote

/-- A request that is refused is answered without its id, and the connection is
    closed. -/
theorem turn_refused (s : Conversation) (c : Connection) (a : ConnectionAction)
    (q r : ControlEnvelope) (earlier : List ControlEnvelope)
    (hok : ∀ ok, a = .wrote ok → ok = true) (hstep : s.connection.step fromStr a = some c)
    (hlong : byteLen (toString q.toValue) > maxFrameSizeBytes)
    (hwriting : s.connection.control.pc = .writing r true) (hid : r.id = none)
    (hbytes : s.connection.bytes = []) (hout : s.toClient = [])
    (hsettled : s.Settled earlier s.connection.responses) :
    Turn toString { s with connection := c, toClient := s.toClient ++ s.written toString a } q
      earlier := by
  by_cases hwrote : ∃ ok, a = .wrote ok
  · rcases hwrote with ⟨ok, rfl⟩
    rw [hok ok rfl] at hstep ⊢
    rcases wrote_cases _ _ hstep with ⟨response, stop, hpc, rfl, hwritten⟩
    rw [hwriting, ControlPc.writing.injEq] at hpc
    rcases hpc with ⟨rfl, rfl⟩
    refine .lost hlong rfl hbytes (.inr ⟨r, ?_, hid, ?_⟩)
    · exact List.mem_append_right _ List.mem_cons_self
    · simp [written, hwritten, hout]
  · have hquiet : s.written toString a = [] := by
      cases a with
      | wrote ok => exact absurd ⟨ok, rfl⟩ hwrote
      | _ => rfl
    rcases writing_step _ _ a r true hwriting (fun ok ha => hwrote ⟨ok, ha⟩) hstep with ⟨w, rfl⟩
    rw [hquiet, List.append_nil]
    exact .refused r hlong hwriting hid hbytes hout ⟨hsettled.1, hsettled.2⟩

/-- Where the request is after a step of the daemon. -/
theorem turn_daemon (hcompact : Json.PrintsCompact toString) (s : Conversation) (c : Connection)
    (a : ConnectionAction) (q : ControlEnvelope) (earlier : List ControlEnvelope) (id : String)
    (hpc : s.pc.expectedId = some id) (hv : q.v = protocolVersion)
    (hback : fromStr (toString q.toValue) = some q.toValue)
    (hmay : s.mayMove a = true) (hstep : s.connection.step fromStr a = some c)
    (h : s.Turn toString q earlier) :
    Turn toString { s with connection := c, toClient := s.toClient ++ s.written toString a } q
      earlier := by
  have hgone := expectedId_waiting s.pc id hpc
  have hok : ∀ ok, a = .wrote ok → ok = true := by
    rintro ok rfl
    simpa [mayMove, hgone] using hmay
  cases h with
  | asked hreading hbytes hout hsettled =>
      exact turn_asked hcompact s c a q earlier hv hback hstep hreading hbytes hout hsettled
  | held hcarried hbytes hout hsettled =>
      exact turn_held s c a q earlier hok hstep hcarried hbytes hout hsettled
  | answered r responses hcarried hbytes hid hresponses hout hsettled =>
      rcases quiet_step s c a hmay hstep hcarried hbytes hgone with ⟨⟨w, rfl⟩, hwritten⟩
      rw [hwritten, List.append_nil]
      exact .answered r responses hcarried hbytes hid hresponses hout ⟨hsettled.1, hsettled.2⟩
  | refused r hlong hwriting hid hbytes hout hsettled =>
      exact turn_refused s c a q r earlier hok hstep hlong hwriting hid hbytes hout hsettled
  | lost hlong hclosed hbytes hout =>
      have hcarried : Connection.carried s.connection.control.pc = none := by
        unfold daemonClosed at hclosed
        split at hclosed
        · rename_i ok hreturned
          rw [hreturned]
          rfl
        · cases hclosed
      rcases quiet_step s c a hmay hstep hcarried hbytes hgone with ⟨⟨w, rfl⟩, hwritten⟩
      rw [hwritten, List.append_nil]
      exact .lost hlong hclosed hbytes hout

theorem unread_daemon (hcompact : Json.PrintsCompact toString) (s : Conversation) (c : Connection)
    (a : ConnectionAction) (out : List UInt8) (hstep : s.connection.step fromStr a = some c)
    (h : s.Unread toString) : Unread toString { s with connection := c, toClient := out } := by
  by_cases hread : ∃ call, a = .read call
  · rcases hread with ⟨call, rfl⟩
    rcases h with ⟨hbytes, hlines⟩ | ⟨q, earlier, hsent, hbytes, hlines⟩
    · rcases read_nothing _ _ call hbytes hstep with ⟨ok, rfl⟩
      exact .inl ⟨hbytes, hlines⟩
    · rcases read_frame hcompact _ _ call q hbytes hstep with ⟨_, hc⟩
      refine .inl ⟨by rw [hc], ?_⟩
      rw [hc, hlines, hsent]
      rfl
  · rcases step_other _ _ a (fun call ha => hread ⟨call, ha⟩) hstep with ⟨hbytes', hlines', _⟩
    unfold Unread
    rw [hbytes', hlines']
    exact h

theorem orderly_daemon (hcompact : Json.PrintsCompact toString) (s : Conversation) (c : Connection)
    (a : ConnectionAction) (hback : s.ReadsBack toString fromStr) (hmay : s.mayMove a = true)
    (hstep : s.connection.step fromStr a = some c) (h : s.Orderly toString) :
    Orderly toString
      { s with connection := c, toClient := s.toClient ++ s.written toString a } := by
  refine ⟨?_, unread_daemon hcompact s c a _ hstep h.unread, ?_, h.ids, ?_, ?_⟩
  · intro envelope henvelope
    rcases List.mem_append.mp henvelope with henvelope | henvelope
    · exact h.version envelope (List.mem_append_left _ henvelope)
    · rcases (Connection.sent_step _ _ a hstep).2 envelope henvelope with hold |
        ⟨id, answer, rfl⟩
      · exact h.version envelope (List.mem_append_right _ hold)
      · exact Answer.version id answer
  · refine h.paired.trans (zip_grows _ _ _ _ List.prefix_rfl ?_)
    by_cases hread : ∃ call, a = .read call
    · rcases hread with ⟨call, rfl⟩
      rcases (Connection.read_cases _ c call hstep).2 with ⟨_, _, _, _, _, rfl⟩ | ⟨_, _, rfl⟩ |
        ⟨_, rfl⟩
      · exact List.prefix_rfl
      · exact List.prefix_rfl
      · exact List.prefix_rfl
    · rcases step_other _ _ a (fun call ha => hread ⟨call, ha⟩) hstep with
        ⟨_, _, hsame | ⟨_, _, hmore⟩⟩
      · change _ <+: c.responses.reverse
        rw [hsame]
      · change _ <+: c.responses.reverse
        rw [hmore, List.reverse_append]
        exact List.prefix_append _ _
  · intro hconnected
    rcases h.fresh hconnected with ⟨hreading, hbytes, hout, hsent, hresponses, hheard⟩
    have hgone : s.pc.gone = false := by
      rw [show s.pc = .connected from hconnected]
      rfl
    rcases quiet_step s c a hmay hstep (by rw [hreading]; rfl) hbytes hgone with
      ⟨⟨w, rfl⟩, hwritten⟩
    exact ⟨hreading, hbytes, by rw [hwritten, hout]; rfl, hsent, hresponses, hheard⟩
  · intro id hid
    rcases h.turn id hid with ⟨q, earlier, hsent, hqid, hturn⟩
    have hmem : q ∈ s.sent ++ s.connection.sent := by
      rw [hsent]
      exact List.mem_append_left _ List.mem_cons_self
    exact ⟨q, earlier, hsent, hqid, turn_daemon hcompact s c a q earlier id hid
      (h.version q hmem) (hback q hmem) hmay hstep hturn⟩

theorem orderly_begin (s : Conversation) (nanos : Nat) (hpc : s.pc = .connected)
    (h : s.Orderly toString) : (s.begin toString nanos).Orderly toString := by
  rcases h.fresh hpc with ⟨hreading, hbytes, hout, hsent, hresponses, hheard⟩
  refine orderly_moved s _ (moved_begin s nanos) h.version hbytes ?_ h.paired h.ids
    fun _ => ⟨hreading, hout, ?_, ?_⟩
  · exact h.unread.all_read hbytes
  · rw [hresponses, hsent]
  · rw [hheard, hsent]
    rfl

/-- A command reads a line: it is not for its request, or the wait is over. -/
theorem hear_cases (s s' : Conversation) (nanos : Nat) (file : Except String SourceFile)
    (h : s.hear toString fromStr nanos file = some s') :
    ∃ id, s.pc.expectedId = some id ∧ readable s.toClient s.daemonClosed = true ∧
      ((∃ rest, readResponse fromStr id s.toClient = .skipped rest ∧
          s' = { s with toClient := rest }) ∨
        ∃ response rest, readResponse fromStr id s.toClient = .over response rest ∧
          s' = (({ s with toClient := rest } : Conversation).note response).proceed toString nanos
            file response) := by
  unfold hear at h
  split at h
  · cases h
  · rename_i id hid
    split at h
    · rename_i hreadable
      refine ⟨id, hid, hreadable, ?_⟩
      split at h
      · rename_i rest hskipped
        exact .inl ⟨rest, hskipped, (Option.some.inj h).symm⟩
      · rename_i response rest hover
        exact .inr ⟨response, rest, hover, (Option.some.inj h).symm⟩
    · cases h

/-- A command reads the answer to its request, and goes on. -/
theorem orderly_answered (s : Conversation) (nanos : Nat) (file : Except String SourceFile)
    (q r : ControlEnvelope) (earlier responses : List ControlEnvelope) (id : String)
    (hid : s.pc.expectedId = some id) (hsent : s.sent = q :: earlier)
    (hbytes : s.connection.bytes = []) (hrid : r.id = q.id)
    (hcarried : Connection.carried s.connection.control.pc = none)
    (hresponses : s.connection.responses = r :: responses) (hsettled : s.Settled earlier responses)
    (h : s.Orderly toString) :
    (({ s with toClient := [], heard := (q, r) :: s.heard } : Conversation).proceed toString nanos
      file (.ok r)).Orderly toString := by
  -- The response is the one for the frame written last.
  have hpairs : (q, r) :: s.heard = s.sent.zip s.connection.responses := by
    rw [hsettled.heard, hsent, hresponses, List.zip_cons_cons]
  have hlength : s.sent.length = s.connection.responses.length := by
    rw [hsent, hresponses, List.length_cons, List.length_cons, hsettled.answered]
  refine orderly_moved _ _ (moved_proceed _ nanos file (.ok r) id hid) h.version hbytes ?_ ?_ ?_ ?_
  · exact h.unread.all_read hbytes
  · change ((q, r) :: s.heard).reverse <+: _
    rw [hpairs, List.zip, List.reverse_zipWith hlength]
  · intro pair hpair
    rcases List.mem_cons.mp hpair with rfl | hpair
    · exact hrid
    · exact h.ids pair hpair
  · intro hopen
    refine ⟨?_, rfl, hlength.symm, hpairs⟩
    cases hpc : s.connection.control.pc with
    | reading => rfl
    | returned ok =>
        have hclosed : s.daemonClosed = false := hopen
        rw [daemonClosed, hpc] at hclosed
        cases hclosed
    | _ => rw [hpc] at hcarried; cases hcarried

/-- A command whose request is lost reads no answer, and ends. -/
theorem orderly_lost (s : Conversation) (nanos : Nat) (file : Except String SourceFile)
    (id : String) (error : ClientError) (hid : s.pc.expectedId = some id)
    (hclosed : s.daemonClosed = true) (hbytes : s.connection.bytes = []) (h : s.Orderly toString) :
    (({ s with toClient := [] } : Conversation).proceed toString nanos file
      (.error error)).Orderly toString := by
  refine orderly_moved _ _ (moved_proceed _ nanos file (.error error) id hid) h.version hbytes ?_
    h.paired h.ids fun hopen => ?_
  · exact h.unread.all_read hbytes
  · exact absurd (hclosed.symm.trans hopen) (by simp)

/-- A command reads: the answer to its request; or, if its request was too large and
    is lost, a line that is not for it or the end of the connection. -/
theorem hear_turn (hcompact : Json.PrintsCompact toString) (s s' : Conversation) (nanos : Nat)
    (file : Except String SourceFile) (q : ControlEnvelope) (earlier : List ControlEnvelope)
    (hsent : s.sent = q :: earlier) (hqid : ∀ id, s.pc.expectedId = some id → q.id = some id)
    (hback : s.ReadsBack toString fromStr) (h : s.Orderly toString)
    (hturn : s.Turn toString q earlier) (hstep : s.hear toString fromStr nanos file = some s') :
    (∃ r responses, s.connection.bytes = [] ∧ r.id = q.id ∧
        Connection.carried s.connection.control.pc = none ∧
        s.connection.responses = r :: responses ∧ s.Settled earlier responses ∧
        s' = (({ s with toClient := [], heard := (q, r) :: s.heard } : Conversation).proceed
          toString nanos file (.ok r))) ∨
      byteLen (toString q.toValue) > maxFrameSizeBytes ∧ s.daemonClosed = true ∧
        s.connection.bytes = [] ∧ (s' = { s with toClient := [] } ∨
          ∃ error, s' = ({ s with toClient := [] } : Conversation).proceed toString nanos file
            (.error error)) := by
  rcases hear_cases s s' nanos file hstep with ⟨id, hid, hreadable, hcases⟩
  -- While the daemon is there, nothing is read that it has not written.
  have hsilent : s.toClient = [] → s.daemonClosed = false → False := by
    intro hout hopen
    simp [readable, hout, hopen, splitLine] at hreadable
  have hresponse : ∀ r ∈ s.connection.sent, readResponse fromStr id (writeEnvelope toString r) =
      if r.id = some id then .over (.ok r) [] else .skipped [] := by
    intro r hr
    have hmem := List.mem_append_right s.sent hr
    exact readResponse_envelope hcompact r id (h.version r hmem) (hback r hmem)
  cases hturn with
  | asked hreading hbytes hout hsettled =>
      exact (hsilent hout (by rw [daemonClosed, hreading])).elim
  | held hcarried hbytes hout hsettled =>
      refine (hsilent hout ?_).elim
      unfold daemonClosed
      split
      · rename_i ok hreturned
        rw [hreturned] at hcarried
        cases hcarried
      · rfl
  | refused r hlong hwriting hrid hbytes hout hsettled =>
      exact (hsilent hout (by rw [daemonClosed, hwriting])).elim
  | answered r responses hcarried hbytes hrid hresponses hout hsettled =>
      have hmem : r ∈ s.connection.sent := by
        refine List.mem_append_right _ ?_
        rw [hresponses]
        exact List.mem_cons_self
      rw [hout, hresponse r hmem, if_pos (hrid.trans (hqid id hid))] at hcases
      rcases hcases with ⟨rest, hskipped, _⟩ | ⟨response, rest, hover, rfl⟩
      · cases hskipped
      · cases hover
        have hnote : ({ s with toClient := [] } : Conversation).note (.ok r) =
            { s with toClient := [], heard := (q, r) :: s.heard } := by
          simp only [note, hsent]
        exact .inl ⟨r, responses, hbytes, hrid, hcarried, hresponses, hsettled, by rw [hnote]⟩
  | lost hlong hclosed hbytes hout =>
      refine .inr ⟨hlong, hclosed, hbytes, ?_⟩
      rcases hout with hout | ⟨r, hr, hrid, hout⟩
      · have hover : readResponse fromStr id [] = .over (.error (.closed id)) [] := rfl
        rw [hout, hover] at hcases
        rcases hcases with ⟨rest, hskipped, _⟩ | ⟨response, rest, hover, rfl⟩
        · cases hskipped
        · cases hover
          exact .inr ⟨_, rfl⟩
      · rw [hout, hresponse r hr, if_neg (by rw [hrid]; simp)] at hcases
        rcases hcases with ⟨rest, hskipped, rfl⟩ | ⟨response, rest, hover, _⟩
        · cases hskipped
          exact .inl rfl
        · cases hover

/-- So reads every command that waits. -/
theorem hear_orderly (hcompact : Json.PrintsCompact toString) (s s' : Conversation) (nanos : Nat)
    (file : Except String SourceFile) (hback : s.ReadsBack toString fromStr)
    (hstep : s.hear toString fromStr nanos file = some s') (h : s.Orderly toString) :
    ∃ id q earlier, s.pc.expectedId = some id ∧ s.sent = q :: earlier ∧ q.id = some id ∧
      ((∃ r responses, s.connection.bytes = [] ∧ r.id = q.id ∧
          Connection.carried s.connection.control.pc = none ∧
          s.connection.responses = r :: responses ∧ s.Settled earlier responses ∧
          s' = (({ s with toClient := [], heard := (q, r) :: s.heard } : Conversation).proceed
            toString nanos file (.ok r))) ∨
        byteLen (toString q.toValue) > maxFrameSizeBytes ∧ s.daemonClosed = true ∧
          s.connection.bytes = [] ∧ (s' = { s with toClient := [] } ∨
            ∃ error, s' = ({ s with toClient := [] } : Conversation).proceed toString nanos file
              (.error error))) := by
  rcases hear_cases s s' nanos file hstep with ⟨id, hid, _, _⟩
  rcases h.turn id hid with ⟨q, earlier, hsent, hqid, hturn⟩
  have hqid' : ∀ id', s.pc.expectedId = some id' → q.id = some id' := by
    intro id' hid'
    rw [← hid', hid]
    exact hqid
  exact ⟨id, q, earlier, hid, hsent, hqid,
    hear_turn hcompact s s' nanos file q earlier hsent hqid' hback h hturn hstep⟩

theorem orderly_hear (hcompact : Json.PrintsCompact toString) (s s' : Conversation) (nanos : Nat)
    (file : Except String SourceFile) (hback : s.ReadsBack toString fromStr)
    (hstep : s.hear toString fromStr nanos file = some s') (h : s.Orderly toString) :
    s'.Orderly toString := by
  rcases hear_orderly hcompact s s' nanos file hback hstep h with
    ⟨id, q, earlier, hid, hsent, hqid,
      ⟨r, responses, hbytes, hrid, hcarried, hresponses, hsettled, rfl⟩ |
      ⟨hlong, hclosed, hbytes, rfl | ⟨error, rfl⟩⟩⟩
  · exact orderly_answered s nanos file q r earlier responses id hid hsent hbytes hrid hcarried
      hresponses hsettled h
  · refine ⟨h.version, h.unread, h.paired, h.ids, fun hconnected => ?_, fun id' hid' => ?_⟩
    · have hpc : s.pc = .connected := hconnected
      rw [hpc] at hid
      cases hid
    · have hsame : id' = id := Option.some.inj (Eq.trans (Eq.symm hid') hid)
      rw [hsame]
      exact ⟨q, earlier, hsent, hqid, .lost hlong hclosed hbytes (.inl rfl)⟩
  · exact orderly_lost s nanos file id error hid hclosed hbytes h

theorem orderly_kill (s : Conversation) (h : s.Orderly toString) :
    Orderly toString { s with pc := .killed } :=
  ⟨h.version, h.unread, h.paired, h.ids, fun hpc => (by cases hpc), fun id hid => (by cases hid)⟩

/-- Taking a response changes nothing but what was taken. -/
theorem note_same (s : Conversation) (response : Except ClientError ControlEnvelope) :
    (s.note response).pc = s.pc ∧ (s.note response).sent = s.sent ∧
      (s.note response).connection = s.connection ∧ (s.note response).caller = s.caller ∧
      (s.note response).command = s.command := by
  unfold note
  split
  · exact ⟨rfl, rfl, rfl, rfl, rfl⟩
  · exact ⟨rfl, rfl, rfl, rfl, rfl⟩

/-- A step is one of the daemon's side, or the command goes on, or neither side
    writes anything. -/
theorem step_cases (s s' : Conversation) (a : ConversationAction)
    (h : s.step toString fromStr a = some s') :
    (∃ b c, a = .daemon b ∧ s.mayMove b = true ∧ s.connection.step fromStr b = some c ∧
        s' = { s with connection := c, toClient := s.toClient ++ s.written toString b }) ∨
      (∀ b, a ≠ .daemon b) ∧
        ((∃ u, Moved toString u s' ∧ u.sent = s.sent ∧ u.connection = s.connection) ∨
          s'.sent = s.sent ∧ s'.connection = s.connection) := by
  cases a with
  | daemon b =>
      simp only [step] at h
      split at h
      · rename_i hmay
        rcases Option.map_eq_some_iff.mp h with ⟨c, hc, rfl⟩
        exact .inl ⟨b, c, rfl, hmay, hc, rfl⟩
      · cases h
  | begin nanos =>
      simp only [step] at h
      split at h
      · rw [← Option.some.inj h]
        exact .inr ⟨fun b hb => (by cases hb), .inl ⟨s, moved_begin s nanos, rfl, rfl⟩⟩
      · cases h
  | hear nanos file =>
      refine .inr ⟨fun b hb => (by cases hb), ?_⟩
      rcases hear_cases s s' nanos file h with
        ⟨id, hid, _, ⟨rest, _, rfl⟩ | ⟨response, rest, _, rfl⟩⟩
      · exact .inr ⟨rfl, rfl⟩
      · rcases note_same { s with toClient := rest } response with ⟨hpc, hsent, hconnection, _⟩
        exact .inl ⟨_, moved_proceed _ nanos file response id (by rw [hpc]; exact hid), hsent,
          hconnection⟩
  | kill =>
      simp only [step] at h
      split at h
      · cases h
      · rw [← Option.some.inj h]
        exact .inr ⟨fun b hb => (by cases hb), .inr ⟨rfl, rfl⟩⟩

/-- What is written stays written. -/
theorem written_step (s s' : Conversation) (a : ConversationAction)
    (h : s.step toString fromStr a = some s') : (∀ envelope ∈ s.sent, envelope ∈ s'.sent) ∧
      ∀ envelope ∈ s.connection.sent, envelope ∈ s'.connection.sent := by
  rcases step_cases s s' a h with ⟨b, c, _, _, hc, rfl⟩ | ⟨_, ⟨u, hmoved, hsent, hconnection⟩ |
    ⟨hsent, hconnection⟩⟩
  · exact ⟨fun _ he => he, (Connection.sent_step _ c b hc).1⟩
  · rw [← hsent, ← hconnection]
    cases hmoved with
    | ends result h => rw [h]; exact ⟨fun _ he => he, fun _ he => he⟩
    | sends frame pc id hopen hv hid hpc htype hattach h =>
        rw [h]
        exact ⟨fun _ he => List.mem_cons_of_mem _ he, fun _ he => he⟩
  · rw [hsent, hconnection]
    exact ⟨fun _ he => he, fun _ he => he⟩

theorem readsBack_before (s s' : Conversation) (a : ConversationAction)
    (h : s.step toString fromStr a = some s') (hback : s'.ReadsBack toString fromStr) :
    s.ReadsBack toString fromStr := by
  rcases written_step s s' a h with ⟨hsent, hwritten⟩
  intro envelope henvelope
  refine hback envelope (List.mem_append.mpr ?_)
  exact (List.mem_append.mp henvelope).imp (hsent envelope) (hwritten envelope)

/-- A step moves the request from one place to the next. -/
theorem orderly_step (hcompact : Json.PrintsCompact toString) (s s' : Conversation)
    (a : ConversationAction) (hstep : s.step toString fromStr a = some s')
    (hback : s'.ReadsBack toString fromStr) (h : s.Orderly toString) : s'.Orderly toString := by
  have hback' := readsBack_before s s' a hstep hback
  cases a with
  | daemon a =>
      simp only [step] at hstep
      split at hstep
      · rename_i hmay
        rcases Option.map_eq_some_iff.mp hstep with ⟨c, hc, rfl⟩
        exact orderly_daemon hcompact s c a hback' hmay hc h
      · cases hstep
  | begin nanos =>
      simp only [step] at hstep
      split at hstep
      · rename_i hpc
        rw [← Option.some.inj hstep]
        exact orderly_begin s nanos hpc h
      · cases hstep
  | hear nanos file => exact orderly_hear hcompact s s' nanos file hback' hstep h
  | kill =>
      simp only [step] at hstep
      split at hstep
      · cases hstep
      · rw [← Option.some.inj hstep]
        exact orderly_kill s h

theorem orderly_start (command : Command) (caller : Caller) (world : World)
    (settings : MemoryBudgetSettings) (startedAt : Instant) :
    (start command caller world settings startedAt).Orderly toString where
  version := fun envelope henvelope => (by cases henvelope)
  unread := .inl ⟨rfl, rfl⟩
  paired := List.prefix_rfl
  ids := fun pair hpair => (by cases hpair)
  fresh := fun _ => ⟨rfl, rfl, rfl, rfl, rfl, rfl⟩
  turn := fun id hid => (by cases hid)

theorem orderly_run (hcompact : Json.PrintsCompact toString) (command : Command) (caller : Caller)
    (world : World) (settings : MemoryBudgetSettings) (startedAt : Instant)
    (as : List ConversationAction) (s : Conversation)
    (hrun : run (step toString fromStr) (start command caller world settings startedAt) as =
      some s) (hback : s.ReadsBack toString fromStr) : s.Orderly toString := by
  refine run_invariant (I := fun s => s.ReadsBack toString fromStr → s.Orderly toString)
    (C := fun _ _ => True) (fun u a u' hu hstep _ hback' => ?_) as _ s hrun
    (fun _ => orderly_start command caller world settings startedAt) (along_true as _) hback
  exact orderly_step hcompact u u' a hstep hback' (hu (readsBack_before u u' a hstep hback'))

/-- The lines the daemon reads are the frames of the command, and the responses that
    the command takes are the daemon's, each to the frame that was written in its
    place. -/
theorem answers_exact (hcompact : Json.PrintsCompact toString) (command : Command)
    (caller : Caller) (world : World) (settings : MemoryBudgetSettings) (startedAt : Instant)
    (as : List ConversationAction) (s : Conversation)
    (hrun : run (step toString fromStr) (start command caller world settings startedAt) as =
      some s) (hback : s.ReadsBack toString fromStr) :
    s.connection.lines.reverse <+: s.sent.reverse.map (lineText toString) ∧
      s.heard.reverse <+: s.sent.reverse.zip s.connection.responses.reverse ∧
      ∀ pair ∈ s.heard, pair.2.id = pair.1.id := by
  have h := orderly_run hcompact command caller world settings startedAt as s hrun hback
  refine ⟨?_, h.paired, h.ids⟩
  rcases h.unread with ⟨_, hlines⟩ | ⟨q, earlier, hsent, _, hlines⟩
  · rw [hlines, List.map_reverse]
  · rw [hlines, hsent, List.reverse_cons, List.map_append, List.map_reverse]
    exact List.prefix_append _ _

/-! ### A run of `capabilities` -/

open Connection (plainText plain_compact)

/-- A user asks for the capabilities of a server. -/
def capabilitiesStart : Conversation :=
  start .capabilities ⟨.cli, ⟨"/project", "hash", "rust-analyzer"⟩, "0.1.0", .human, 7, none⟩
    (World.init 5) ⟨none, none, 5⟩ 0

/-- What either side writes in it. -/
def capabilitiesTexts : List Json := [
  (capabilitiesStart.firstFrame 1).toValue,
  (okEnvelope (some "attach-1") "AttachOk" (attachOk "lease_1" .muxControl none .null)).toValue,
  (capabilitiesStart.caller.envelope "release" "Release" (.obj [("lease_id", .str "lease_1")])
    2).toValue,
  (okEnvelope (some "release-2") "ReleaseOk"
    (.obj [("lease_id", .str "lease_1"), ("ref_count", .num 0)])).toValue]

/-- What is read in these texts, and in nothing else. -/
def readCapabilities (text : List Char) : Option Json :=
  capabilitiesTexts.find? fun value => plainText value = text

/-- The server is spawned, its lease is granted, and the lease is released. -/
def capabilitiesRun : List ConversationAction :=
  [.begin 1, .daemon (.read 0)] ++
    (acquireFresh 0).tail.map (fun a => .daemon (.world a)) ++
    [.daemon (.world (.sect 0)), .daemon .resume, .daemon (.wrote true), .hear 2 (.error ""),
      .daemon (.read 1)] ++
    (releaseAll 1 "lease_1").tail.map (fun a => .daemon (.world a)) ++
    [.daemon .resume, .daemon (.wrote true), .hear 3 (.error "")]

/-- How a run ends. -/
theorem exists_of_ends {σ : Type} {P : σ → Prop} [DecidablePred P] {f : σ → Bool} (s : Option σ)
    (h : s.any (fun t => decide (P t) && f t) = true) : ∃ t, s = some t ∧ P t ∧ f t = true := by
  cases s with
  | none => cases h
  | some t =>
      rw [Option.any_some, Bool.and_eq_true, decide_eq_true_eq] at h
      exact ⟨t, rfl, h⟩

/-- The command has ended, and reports that there are no capabilities. -/
def CommandPc.isCapabilities : CommandPc → Bool
  | .ended (.ok (.capabilities none)) => true
  | _ => false

theorem capabilitiesRun_ends : ∃ s,
    run (step plainText readCapabilities) capabilitiesStart capabilitiesRun = some s ∧
      ReadsBack plainText readCapabilities s ∧
      (∀ q ∈ s.sent, byteLen (plainText q.toValue) ≤ maxFrameSizeBytes) ∧
      s.pc = .ended (.ok (.capabilities none)) := by
  rcases exists_of_ends (P := fun s : Conversation => (∀ envelope ∈ s.sent ++ s.connection.sent,
        readCapabilities (plainText envelope.toValue) = some envelope.toValue) ∧
      ∀ q ∈ s.sent, byteLen (plainText q.toValue) ≤ maxFrameSizeBytes)
    (f := fun s => CommandPc.isCapabilities s.pc)
    (run (step plainText readCapabilities) capabilitiesStart capabilitiesRun)
    (by decide +kernel) with ⟨s, hrun, ⟨hback, hfit⟩, hpc⟩
  refine ⟨s, hrun, hback, hfit, ?_⟩
  unfold CommandPc.isCapabilities at hpc
  split at hpc
  · assumption
  · cases hpc

theorem answers_exact_capabilities : ∃ s,
    run (step plainText readCapabilities) capabilitiesStart capabilitiesRun = some s ∧
      s.connection.lines.reverse <+: s.sent.reverse.map (lineText plainText) ∧
      s.heard.reverse <+: s.sent.reverse.zip s.connection.responses.reverse ∧
      ∀ pair ∈ s.heard, pair.2.id = pair.1.id := by
  rcases capabilitiesRun_ends with ⟨s, hrun, hback, _⟩
  exact ⟨s, hrun, answers_exact plain_compact .capabilities _ (World.init 5) ⟨none, none, 5⟩ 0
    capabilitiesRun s hrun hback⟩

end Answers

end Conversation

end Lspee
