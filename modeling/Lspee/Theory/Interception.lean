import Lspee.Core.Proxy
import Lspee.Lib.Projection

/-!
# What the Proxy Keeps from the Server

Whether the proxy keeps the messages to itself that start and stop a server, and
forwards every other one. It goes by the method together with whether there is an
id: `initialize` and `shutdown` are its own as requests, `initialized` and `exit` as
notifications. A message of one of these methods in the other form is forwarded
like any other. So what is forwarded is right if and only if each of them has the
form that belongs to it, as long as fewer than 2^64 messages are forwarded, after
which the sequence number stands still (`proxy_forwards_iff`). The answers are
right always.

The messages are those handled in a run of the proxy in which lines of the stream
may come between any two of them, and any write may fail. A message whose handling
fails is the last one, and does not count.

## Main definitions

* `handledMessages`, `localAnswers`: What a run handles and answers.
* `lifecycleMethod`, `wanted`: What is to be forwarded.
* `numbered`: The frames with their numbers.
* `ProperForm`, `ProperlyFormed`: The condition.

## Theorems

* `handle_cases`: The ways a message is handled.
* `step_cases`: A step handles a message, or is none of the editor's.
* `account_step`, `account_run`: What a step keeps, and a run.
* `proxy_forwards_iff`: The condition is exact.
* `shutdown_forwarded`: A run that forwards a `shutdown`.
-/

namespace Lspee

open Transition

/-! ### What is to be forwarded -/

def methodOf (message : Json) : Option String := (message.get "method").bind Json.asStr

def lifecycleMethod (message : Json) : Bool :=
  methodOf message ∈ [some "initialize", some "initialized", some "shutdown", some "exit"]

def exitNotification (message : Json) : Bool :=
  methodOf message = some "exit" ∧ (message.get "id").isNone

/-- The messages to forward: those before the exit notification, and of another method
    than the four. -/
def wanted (messages : List Json) : List Json :=
  (messages.takeWhile (fun message => !exitNotification message)).filter
    (fun message => !lifecycleMethod message)

/-- The frames of messages, with the numbers 1, 2, 3, and so on. -/
def numbered (leaseId : String) (messages : List Json) : List StreamFrame :=
  messages.zipIdx.map (fun m => ⟨protocolVersion, .lspIn, leaseId, m.2 + 1, m.1⟩)

/-- The id of a request to answer. -/
def answeredId (message : Json) : Option Json :=
  if methodOf message = some "initialize" ∨ methodOf message = some "shutdown" then
    message.get "id"
  else none

/-- A message that starts or stops a server has an id if it is a request, and none if it
    is a notification. -/
def ProperForm (message : Json) : Prop :=
  (methodOf message = some "initialize" ∨ methodOf message = some "shutdown" →
    (message.get "id").isSome) ∧
  (methodOf message = some "initialized" ∨ methodOf message = some "exit" →
    message.get "id" = none)

instance (message : Json) : Decidable (ProperForm message) :=
  inferInstanceAs (Decidable ((_ ∨ _ → _ = true) ∧ (_ ∨ _ → _ = none)))

/-- Every message has the form of its method, and there are not too many to number. -/
def ProperlyFormed (messages : List Json) : Prop :=
  (∀ message ∈ messages, ProperForm message) ∧ (wanted messages).length < 2 ^ 64

/-! ### What is forwarded -/

/-- The messages that the proxy does not keep to itself. -/
def forwards (message : Json) : Bool :=
  match methodOf message, message.get "id" with
  | some "initialize", some _ => false
  | some "shutdown", some _ => false
  | some "initialized", none => false
  | some "exit", none => false
  | _, _ => true

/-- The number of the frame after `n` others. -/
def proxySeq (n : Nat) : Nat := min (n + 1) (2 ^ 64 - 1)

/-- The frames of messages, with the numbers that they get. -/
def framesFrom (leaseId : String) (n : Nat) (messages : List Json) : List StreamFrame :=
  (messages.zipIdx n).map (fun m => ⟨protocolVersion, .lspIn, leaseId, proxySeq m.2, m.1⟩)

/-- A message is answered, kept, the last one, or forwarded. -/
theorem handle_cases (message initializeResult : Json) (leaseId : String) (seq : Nat) :
    (∃ response id, handleEditorMessage message initializeResult leaseId seq =
        .respond response ∧ answeredId message = some id ∧ response.get "id" = some id ∧
        forwards message = false ∧ exitNotification message = false) ∨
    (handleEditorMessage message initializeResult leaseId seq = .ignore ∧
      answeredId message = none ∧ forwards message = false ∧ exitNotification message = false) ∨
    (handleEditorMessage message initializeResult leaseId seq = .exit ∧
      exitNotification message = true) ∨
    (handleEditorMessage message initializeResult leaseId seq =
        .forward ⟨protocolVersion, .lspIn, leaseId, seq, message⟩ (min (seq + 1) (2 ^ 64 - 1)) ∧
      answeredId message = none ∧ forwards message = true ∧ exitNotification message = false) := by
  unfold handleEditorMessage answeredId forwards exitNotification
  rw [show (message.get "method").bind Json.asStr = methodOf message from rfl]
  -- The methods in the order of the source, each with and without an id.
  by_cases hfirst : methodOf message = some "initialize"
  · cases hid : message.get "id" with
    | some id =>
        refine .inl ⟨initializeResponseForEditor id initializeResult, id, ?_, ?_, rfl, ?_, ?_⟩ <;>
          simp [hfirst]
    | none => simp [hfirst]
  by_cases hshutdown : methodOf message = some "shutdown"
  · cases hid : message.get "id" with
    | some id =>
        refine .inl ⟨shutdownResponseForEditor id, id, ?_, ?_, rfl, ?_, ?_⟩ <;> simp [hshutdown]
    | none => simp [hshutdown]
  by_cases hinitialized : methodOf message = some "initialized"
  · cases hid : message.get "id" with
    | some id => simp [hinitialized]
    | none => simp [hinitialized]
  by_cases hexit : methodOf message = some "exit"
  · cases hid : message.get "id" with
    | some id => simp [hexit]
    | none => simp [hexit]
  · right
    right
    right
    cases hid : message.get "id" <;> simp [hfirst, hshutdown, hinitialized, hexit]

/-! ### Steps -/

namespace Proxy

variable (fromSlice : List UInt8 → Option Json) (fromStr : List Char → Option StreamFrame)

/-- The message that a step handles, if it is one of the editor's and its handling does
    not fail. -/
def handledAt (s : Proxy) (a : ProxyAction) : Option Json :=
  match s.step fromSlice fromStr a with
  | some s' => if s'.pc = .returned .writeFailed then none else s'.handed[s.handed.length]?
  | none => none

/-- What a step that reads from the editor writes to it. -/
def answeredAt (s : Proxy) (a : ProxyAction) : Option Json :=
  match a with
  | .pollInput _ | .inputEnds _ =>
    (s.step fromSlice fromStr a).bind (fun s' => s'.stdout[s.stdout.length]?)
  | _ => none

/-- The messages handled in a run, and the answers given to them. -/
def handledMessages (s : Proxy) (as : List ProxyAction) : List Json :=
  project (Proxy.step fromSlice fromStr) (handledAt fromSlice fromStr) s as

def localAnswers (s : Proxy) (as : List ProxyAction) : List Json :=
  project (Proxy.step fromSlice fromStr) (answeredAt fromSlice fromStr) s as

/-- The proxy but for its reader. -/
structure SameAccount (s t : Proxy) : Prop where
  sent : t.sent = s.sent
  seq : t.seq = s.seq
  leaseId : t.leaseId = s.leaseId
  handed : t.handed = s.handed

/-- A step that handles nothing, and writes no answer. -/
structure Quiet (s s' : Proxy) (a : ProxyAction) : Prop extends SameAccount s s' where
  handled : handledAt fromSlice fromStr s a = none
  answered : answeredAt fromSlice fromStr s a = none
  returned : ∀ reason, s.pc = .returned reason → s'.pc = .returned reason
  ran : s'.pc = .running → s.pc = .running

/-- A step that handles a message of the editor. -/
structure Handling (s s' : Proxy) (a : ProxyAction) (message : Json) (writes : Bool) : Prop where
  running : s.pc = .running
  handles : ∃ t, SameAccount s t ∧ t.stdout = s.stdout ∧ t.pc = .running ∧
    s' = t.handle message writes
  handled : handledAt fromSlice fromStr s a =
    if s'.pc = .returned .writeFailed then none else some message
  answered : answeredAt fromSlice fromStr s a = s'.stdout[s.stdout.length]?

theorem handle_handed (s : Proxy) (message : Json) (writes : Bool) :
    (s.handle message writes).handed = s.handed ++ [message] := by
  cases hmessage : handleEditorMessage message s.initializeResult s.leaseId s.seq with
  | respond response => cases writes <;> simp [handle, hmessage, writeLspMessage, finish]
  | ignore => simp [handle, hmessage]
  | exit => simp [handle, hmessage, finish]
  | forward frame seq => cases writes <;> simp [handle, hmessage, finish]

theorem quiet_of_same (s s' : Proxy) (a : ProxyAction)
    (hstep : s.step fromSlice fromStr a = some s') (hsame : SameAccount s s')
    (hstdout : ∀ writes, a = .pollInput writes ∨ a = .inputEnds writes → s'.stdout = s.stdout)
    (hreturned : ∀ reason, s.pc = .returned reason → s'.pc = .returned reason)
    (hran : s'.pc = .running → s.pc = .running) : Quiet fromSlice fromStr s s' a where
  toSameAccount := hsame
  handled := by
    simp only [handledAt, hstep, hsame.handed, List.getElem?_length, ite_self]
  answered := by
    cases a with
    | arrive n => rfl
    | streamReady next writes => rfl
    | pollInput writes =>
        simp only [answeredAt, hstep, Option.bind_some, hstdout writes (.inl rfl),
          List.getElem?_length]
    | inputEnds writes =>
        simp only [answeredAt, hstep, Option.bind_some, hstdout writes (.inr rfl),
          List.getElem?_length]
  returned := hreturned
  ran := hran

/-- A proxy that runs is quiet when it neither hands a message on nor writes. -/
theorem quiet_of_running (s s' : Proxy) (a : ProxyAction)
    (hstep : s.step fromSlice fromStr a = some s') (hpc : s.pc = .running)
    (hsame : SameAccount s s') (hstdout : s'.stdout = s.stdout) :
    Quiet fromSlice fromStr s s' a := by
  refine quiet_of_same fromSlice fromStr s s' a hstep hsame (fun _ _ => hstdout)
    (fun reason hreturned => ?_) (fun _ => hpc)
  rw [hpc] at hreturned
  cases hreturned

/-- A line of the stream, or its end, is none of the editor's messages. -/
theorem handleStream_same (s : Proxy) (next : StreamRead) (writes : Bool) :
    SameAccount s (s.handleStream fromStr next writes) := by
  cases next with
  | closed => exact ⟨rfl, rfl, rfl, rfl⟩
  | failed => exact ⟨rfl, rfl, rfl, rfl⟩
  | line text =>
      cases hread : fromStr text with
      | none =>
          simp only [handleStream, hread]
          exact ⟨rfl, rfl, rfl, rfl⟩
      | some frame =>
          cases hframe : frame.frameType with
          | lspIn =>
              simp only [handleStream, hread, hframe]
              exact ⟨rfl, rfl, rfl, rfl⟩
          | lspOut =>
              simp only [handleStream, hread, hframe]
              cases writes <;> exact ⟨rfl, rfl, rfl, rfl⟩
          | streamError =>
              simp only [handleStream, hread, hframe]
              cases StreamErrorPayload.fromValue frame.payload with
              | none => exact ⟨rfl, rfl, rfl, rfl⟩
              | some payload => cases writes <;> exact ⟨rfl, rfl, rfl, rfl⟩

theorem handling_of_step (s s' t : Proxy) (a : ProxyAction) (message : Json) (writes : Bool)
    (hstep : s.step fromSlice fromStr a = some s')
    (ha : a = .pollInput writes ∨ a = .inputEnds writes) (hpc : s.pc = .running)
    (hsame : SameAccount s t) (hstdout : t.stdout = s.stdout) (hrunning : t.pc = .running)
    (hs' : s' = t.handle message writes) :
    Handling fromSlice fromStr s s' a message writes where
  running := hpc
  handles := ⟨t, hsame, hstdout, hrunning, hs'⟩
  handled := by
    have hhanded : s'.handed = s.handed ++ [message] := by rw [hs', handle_handed, hsame.handed]
    simp only [handledAt, hstep, hhanded, List.getElem?_concat_length]
  answered := by
    rcases ha with rfl | rfl
    · simp only [answeredAt, hstep, Option.bind_some]
    · simp only [answeredAt, hstep, Option.bind_some]

/-- A step handles a message of the editor, or is none of its messages. -/
theorem step_cases (s s' : Proxy) (a : ProxyAction)
    (hstep : s.step fromSlice fromStr a = some s') :
    Quiet fromSlice fromStr s s' a ∨
      ∃ message writes, Handling fromSlice fromStr s s' a message writes := by
  have hkept := hstep
  cases a with
  | arrive n =>
      simp only [step, Option.some.injEq] at hstep
      left
      refine quiet_of_same fromSlice fromStr s s' _ hkept ?_ (fun _ h => by simp at h) ?_ ?_
      · rw [← hstep]
        exact ⟨rfl, rfl, rfl, rfl⟩
      · rw [← hstep]
        exact fun _ hpc => hpc
      · rw [← hstep]
        exact id
  | streamReady next writes =>
      cases hpc : s.pc with
      | returned reason => simp [step, hpc] at hstep
      | running =>
          simp only [step, hpc, Option.some.injEq] at hstep
          have hsame := handleStream_same fromStr
            { s with frame := (frameReader fromSlice).start, pc := .running } next writes
          rw [hstep] at hsame
          left
          exact quiet_of_same fromSlice fromStr s s' _ hkept
            ⟨hsame.sent, hsame.seq, hsame.leaseId, hsame.handed⟩ (fun _ h => by simp at h)
            (fun _ h => by rw [hpc] at h; cases h) (fun _ => hpc)
  | pollInput writes =>
      cases hpc : s.pc with
      | returned reason => simp [step, hpc] at hstep
      | running =>
          simp only [step, hpc, Option.some.injEq, poll] at hstep
          cases hpoll : (frameReader fromSlice).poll s.frame s.arrived with
          | pending frame =>
              simp only [hpoll] at hstep
              refine .inl (quiet_of_running fromSlice fromStr s s' _ hkept hpc ?_ ?_)
              · rw [← hstep]
                exact ⟨rfl, rfl, rfl, rfl⟩
              · rw [← hstep]
          | failed =>
              simp only [hpoll] at hstep
              refine .inl (quiet_of_running fromSlice fromStr s s' _ hkept hpc ?_ ?_)
              · rw [← hstep]
                exact ⟨rfl, rfl, rfl, rfl⟩
              · rw [← hstep]
                rfl
          -- A whole message has arrived, and is handled.
          | ready message rest =>
              simp only [hpoll] at hstep
              exact .inr ⟨message, writes, handling_of_step fromSlice fromStr s s'
                { s with frame := (frameReader fromSlice).start, arrived := rest, pc := .running }
                _ message writes hkept (.inl rfl) hpc ⟨rfl, rfl, rfl, rfl⟩ rfl rfl hstep.symm⟩
  | inputEnds writes =>
      cases hpc : s.pc with
      | returned reason => simp [step, hpc] at hstep
      | running =>
          rcases harrived : s.arrived with _ | ⟨b, arrived⟩
          -- Everything has arrived; the reader is told that there is no more.
          · rcases hcoming : s.coming with _ | ⟨b, coming⟩
            · simp only [step, hpc, harrived, hcoming, Option.some.injEq, endInput] at hstep
              rcases hfinish : (frameReader fromSlice).finish s.frame with
                _ | (_ | ⟨message, rest⟩)
              · simp only [hfinish] at hstep
                refine .inl (quiet_of_running fromSlice fromStr s s' _ hkept hpc ?_ ?_)
                · rw [← hstep]
                  exact ⟨rfl, rfl, rfl, rfl⟩
                · rw [← hstep]
                  rfl
              · simp only [hfinish] at hstep
                refine .inl (quiet_of_running fromSlice fromStr s s' _ hkept hpc ?_ ?_)
                · rw [← hstep]
                  exact ⟨rfl, rfl, rfl, rfl⟩
                · rw [← hstep]
                  rfl
              · simp only [hfinish] at hstep
                exact .inr ⟨message, writes, handling_of_step fromSlice fromStr s s'
                  { s with
                    coming := []
                    arrived := []
                    frame := (frameReader fromSlice).start
                    pc := .running } _ message writes hkept (.inr rfl) hpc ⟨rfl, rfl, rfl, rfl⟩ rfl
                  rfl hstep.symm⟩
            · simp [step, hpc, harrived, hcoming] at hstep
          · simp [step, hpc, harrived] at hstep

/-! ### The account of a run -/

/-- What is forwarded and answered, by the messages handled and the answers given. After
    the exit notification nothing is handled. -/
def Account (messages answers : List Json) (s : Proxy) : Prop :=
  ∃ before last, messages = before ++ last ∧
    (∀ message ∈ before, exitNotification message = false) ∧
    (last = [] ∨ ∃ message, last = [message] ∧ exitNotification message = true ∧
      s.pc = .returned .exit) ∧
    s.sent = framesFrom s.leaseId 0 (before.filter forwards) ∧
    (s.pc = .running → s.seq = proxySeq (before.filter forwards).length) ∧
    answers.map (fun answer => answer.get "id") = (before.filterMap answeredId).map some

theorem framesFrom_append (leaseId : String) (messages : List Json) (message : Json) :
    framesFrom leaseId 0 (messages ++ [message]) = framesFrom leaseId 0 messages ++
      [⟨protocolVersion, .lspIn, leaseId, proxySeq messages.length, message⟩] := by
  simp [framesFrom, List.zipIdx_append]

theorem account_attached (initializeResult : Json) (leaseId : String) (input : List UInt8) :
    Account [] [] (attached fromSlice initializeResult leaseId input) :=
  ⟨[], [], rfl, by simp, .inl rfl, rfl, fun _ => rfl, rfl⟩

theorem account_same (messages answers : List Json) (s s' : Proxy) (hsent : s'.sent = s.sent)
    (hlease : s'.leaseId = s.leaseId)
    (hexited : s.pc = .returned .exit → s'.pc = .returned .exit)
    (hruns : s'.pc = .running → s.pc = .running ∧ s'.seq = s.seq) (h : Account messages answers s) :
    Account messages answers s' := by
  rcases h with ⟨before, last, hmessages, hnone, hlast, hframes, hnumber, hanswers⟩
  refine ⟨before, last, hmessages, hnone, ?_, ?_, ?_, hanswers⟩
  · rcases hlast with hlast | ⟨message, hlast, hexit, hpc⟩
    · exact .inl hlast
    · exact .inr ⟨message, hlast, hexit, hexited hpc⟩
  · rw [hsent, hlease, hframes]
  · intro hpc
    rw [(hruns hpc).2, hnumber (hruns hpc).1]

/-- While the proxy runs, no exit notification has been handled. -/
theorem account_running (messages answers : List Json) (s : Proxy) (hpc : s.pc = .running)
    (h : Account messages answers s) :
    (∀ message ∈ messages, exitNotification message = false) ∧
      s.sent = framesFrom s.leaseId 0 (messages.filter forwards) ∧
      s.seq = proxySeq (messages.filter forwards).length ∧
      answers.map (fun answer => answer.get "id") = (messages.filterMap answeredId).map some := by
  rcases h with ⟨before, last, hmessages, hnone, hlast, hsent, hseq, hanswers⟩
  have hempty : last = [] := by
    rcases hlast with hlast | ⟨_, _, _, hexit⟩
    · exact hlast
    · rw [hpc] at hexit
      cases hexit
  rw [hempty, List.append_nil] at hmessages
  rw [hmessages]
  exact ⟨hnone, hsent, hseq hpc, hanswers⟩

/-- The account goes on with a message that is not the last one. -/
theorem account_next (messages answers more : List Json) (s s' : Proxy) (message : Json)
    (hpc : s.pc = .running) (h : Account messages answers s)
    (hexit : exitNotification message = false) (hlease : s'.leaseId = s.leaseId)
    (hsent : s'.sent = s.sent ++ if forwards message then
      [⟨protocolVersion, .lspIn, s.leaseId, s.seq, message⟩] else [])
    (hseq : s'.seq = if forwards message then min (s.seq + 1) (2 ^ 64 - 1) else s.seq)
    (hmore : more.map (fun answer => answer.get "id") = (answeredId message).toList.map some) :
    Account (messages ++ [message]) (answers ++ more) s' := by
  rcases account_running messages answers s hpc h with ⟨hnone, hframes, hnumber, hanswers⟩
  refine ⟨messages ++ [message], [], (List.append_nil _).symm, fun m hm => ?_, .inl rfl, ?_, ?_, ?_⟩
  · rcases List.mem_append.mp hm with hm | hm
    · exact hnone m hm
    · rw [List.mem_singleton.mp hm]
      exact hexit
  · -- one more frame, with the number that comes next, or none
    rw [hsent, hlease, List.filter_append, hframes, hnumber]
    cases hforwards : forwards message with
    | false => simp [hforwards]
    | true => simp [hforwards, framesFrom_append]
  · intro _
    rw [hseq, List.filter_append, hnumber]
    cases hforwards : forwards message with
    | false => simp [hforwards]
    | true =>
        simp only [proxySeq, List.filter_cons_of_pos hforwards, List.filter_nil,
          List.length_append, List.length_singleton, if_true]
        omega
  · rw [List.map_append, List.filterMap_append, List.map_append, hanswers, hmore]
    cases hid : answeredId message <;> simp [hid]

/-- A message that is handled enters the account in its own way. A write that fails
    leaves the account as it is. -/
theorem account_handle (messages answers : List Json) (s : Proxy) (message : Json) (writes : Bool)
    (hpc : s.pc = .running) (h : Account messages answers s) :
    Account
      (messages ++ (if (s.handle message writes).pc = .returned .writeFailed then none
        else some message).toList)
      (answers ++ ((s.handle message writes).stdout[s.stdout.length]?).toList)
      (s.handle message writes) := by
  have hnot : ¬ProxyPc.running = .returned .writeFailed := by simp
  -- A write fails: the proxy returns, and nothing is said of the message.
  have hfailed : ∀ t : Proxy, t.sent = s.sent → t.leaseId = s.leaseId →
      t.pc = .returned .writeFailed → Account messages answers t := by
    intro t hsent hlease hreturned
    refine account_same messages answers s t hsent hlease (fun hexited => ?_)
      (fun hrunning => ?_) h
    · rw [hpc] at hexited
      cases hexited
    · rw [hreturned] at hrunning
      cases hrunning
  rcases handle_cases message s.initializeResult s.leaseId s.seq with
    ⟨response, id, hhandled, hid, hresponse, hkept, hexit⟩ | ⟨hhandled, hid, hkept, hexit⟩ |
      ⟨hhandled, hexit⟩ | ⟨hhandled, hid, hsends, hexit⟩
  · cases writes with
    | false =>
        simp only [handle, hhandled, writeLspMessage, finish, Bool.false_eq_true, if_false,
          if_true, List.getElem?_length, Option.toList_none, List.append_nil]
        exact hfailed _ rfl rfl rfl
    | true =>
        simp only [handle, hhandled, writeLspMessage, if_true, hpc, if_neg hnot,
          List.getElem?_concat_length, Option.toList_some]
        exact account_next messages answers [response] s _ message hpc h hexit rfl
          (by simp [hkept]) (by simp [hkept]) (by simp [hid, hresponse])
  · simp only [handle, hhandled, hpc, if_neg hnot, List.getElem?_length, Option.toList_some,
      Option.toList_none]
    exact account_next messages answers [] s _ message hpc h hexit rfl (by simp [hkept])
      (by simp [hkept]) (by simp [hid])
  · -- the exit notification is the last message
    have hreturned : ¬ProxyPc.returned .exit = .returned .writeFailed := by simp
    simp only [handle, hhandled, finish, if_neg hreturned, List.getElem?_length,
      Option.toList_some, Option.toList_none, List.append_nil]
    rcases account_running messages answers s hpc h with ⟨hnone, hsent, _, hanswers⟩
    exact ⟨messages, [message], rfl, hnone, .inr ⟨message, rfl, hexit, rfl⟩, hsent,
      fun hrunning => (by cases hrunning), hanswers⟩
  · cases writes with
    | false =>
        simp only [handle, hhandled, finish, Bool.false_eq_true, if_false, if_true,
          List.getElem?_length, Option.toList_none, List.append_nil]
        exact hfailed _ rfl rfl rfl
    | true =>
        simp only [handle, hhandled, if_true, hpc, if_neg hnot, List.getElem?_length,
          Option.toList_some, Option.toList_none]
        exact account_next messages answers [] s _ message hpc h hexit rfl (by simp [hsends])
          (by simp [hsends]) (by simp [hid])

/-- What one step keeps: the account goes on with the message that is handled, and the
    answer that is given. -/
theorem account_step (messages answers : List Json) (s s' : Proxy) (a : ProxyAction)
    (hstep : s.step fromSlice fromStr a = some s') (h : Account messages answers s) :
    Account (messages ++ (handledAt fromSlice fromStr s a).toList)
      (answers ++ (answeredAt fromSlice fromStr s a).toList) s' := by
  rcases step_cases fromSlice fromStr s s' a hstep with hquiet | ⟨message, writes, hhandling⟩
  · rw [hquiet.handled, hquiet.answered, Option.toList_none, List.append_nil, List.append_nil]
    exact account_same messages answers s s' hquiet.sent hquiet.leaseId (hquiet.returned .exit)
      (fun hpc => ⟨hquiet.ran hpc, hquiet.seq⟩) h
  · rcases hhandling.handles with ⟨t, hsame, hstdout, hrunning, hs'⟩
    have ht := account_same messages answers s t hsame.sent hsame.leaseId
      (fun hpc => by rw [hhandling.running] at hpc; cases hpc)
      (fun _ => ⟨hhandling.running, hsame.seq⟩) h
    have hhandle := account_handle messages answers t message writes hrunning ht
    rw [← hs', hstdout] at hhandle
    rw [hhandling.handled, hhandling.answered]
    exact hhandle

theorem account_run (as : List ProxyAction) (messages answers : List Json) (s t : Proxy)
    (hrun : run (Proxy.step fromSlice fromStr) s as = some t) (h : Account messages answers s) :
    Account (messages ++ handledMessages fromSlice fromStr s as)
      (answers ++ localAnswers fromSlice fromStr s as) t :=
  run_project_append (fun messages answers s a s' hstep h =>
    account_step fromSlice fromStr messages answers s s' a hstep h) as messages answers s t hrun h

/-- What is handled is what was handed on, but for a last message whose handling fails. -/
def HandedOn (leaseId : String) (messages : List Json) (s : Proxy) : Prop :=
  s.leaseId = leaseId ∧ (s.handed = messages ∨
    ∃ message, s.handed = messages ++ [message] ∧ s.pc = .returned .writeFailed)

theorem handle_leaseId (s : Proxy) (message : Json) (writes : Bool) :
    (s.handle message writes).leaseId = s.leaseId := by
  cases hmessage : handleEditorMessage message s.initializeResult s.leaseId s.seq with
  | respond response => cases writes <;> simp [handle, hmessage, writeLspMessage, finish]
  | ignore => simp [handle, hmessage]
  | exit => simp [handle, hmessage, finish]
  | forward frame seq => cases writes <;> simp [handle, hmessage, finish]

theorem handedOn_step (leaseId : String) (messages : List Json) (s s' : Proxy) (a : ProxyAction)
    (hstep : s.step fromSlice fromStr a = some s') (h : HandedOn leaseId messages s) :
    HandedOn leaseId (messages ++ (handledAt fromSlice fromStr s a).toList) s' := by
  rcases h with ⟨hlease, hhanded⟩
  rcases step_cases fromSlice fromStr s s' a hstep with hquiet | ⟨message, writes, hhandling⟩
  · rw [hquiet.handled, Option.toList_none, List.append_nil]
    refine ⟨hquiet.leaseId.trans hlease, ?_⟩
    rw [hquiet.handed]
    rcases hhanded with hhanded | ⟨message, hhanded, hpc⟩
    · exact .inl hhanded
    · exact .inr ⟨message, hhanded, hquiet.returned _ hpc⟩
  · rcases hhandling.handles with ⟨t, hsame, _, _, hs'⟩
    have hmessages : s.handed = messages := by
      rcases hhanded with hhanded | ⟨_, _, hpc⟩
      · exact hhanded
      · rw [hhandling.running] at hpc
        cases hpc
    have hnew : s'.handed = messages ++ [message] := by
      rw [hs', handle_handed, hsame.handed, hmessages]
    refine ⟨by rw [hs', handle_leaseId, hsame.leaseId, hlease], ?_⟩
    rw [hhandling.handled]
    by_cases hfailed : s'.pc = .returned .writeFailed
    · rw [if_pos hfailed, Option.toList_none, List.append_nil]
      exact .inr ⟨message, hnew, hfailed⟩
    · rw [if_neg hfailed]
      exact .inl hnew

theorem handedOn_run (leaseId : String) (as : List ProxyAction) (messages : List Json)
    (s t : Proxy) (hrun : run (Proxy.step fromSlice fromStr) s as = some t)
    (h : HandedOn leaseId messages s) :
    HandedOn leaseId (messages ++ handledMessages fromSlice fromStr s as) t :=
  run_project_append (g := answeredAt fromSlice fromStr)
    (I := fun messages _ s => HandedOn leaseId messages s)
    (fun messages _ s a s' hstep h =>
      handedOn_step fromSlice fromStr leaseId messages s s' a hstep h) as messages [] s t hrun h

end Proxy

/-! ### What is forwarded and what is to be forwarded -/

theorem forwards_of_not_lifecycle (message : Json) (h : lifecycleMethod message = false) :
    forwards message = true := by
  unfold lifecycleMethod at h
  unfold forwards
  split <;> simp_all

/-- A message of the four methods is forwarded if and only if it has the wrong form. -/
theorem forwards_iff (message : Json) :
    (forwards message = true → lifecycleMethod message = false) ↔ ProperForm message := by
  unfold forwards lifecycleMethod ProperForm
  by_cases hfirst : methodOf message = some "initialize"
  · cases hid : message.get "id" <;> simp [hfirst]
  by_cases hshutdown : methodOf message = some "shutdown"
  · cases hid : message.get "id" <;> simp [hshutdown]
  by_cases hinitialized : methodOf message = some "initialized"
  · cases hid : message.get "id" <;> simp [hinitialized]
  by_cases hexit : methodOf message = some "exit"
  · cases hid : message.get "id" <;> simp [hexit]
  · simp [hfirst, hshutdown, hinitialized, hexit]

theorem properForm_of_exit (message : Json) (h : exitNotification message = true) :
    ProperForm message := by
  simp only [exitNotification, Bool.decide_and, Bool.and_eq_true, decide_eq_true_eq,
    Option.isNone_iff_eq_none] at h
  refine ⟨fun hmethod => ?_, fun _ => h.2⟩
  rw [h.1] at hmethod
  simp at hmethod

/-- What is to be forwarded of the messages up to an exit notification. -/
theorem wanted_append (before last : List Json)
    (hnone : ∀ message ∈ before, exitNotification message = false)
    (hlast : last = [] ∨ ∃ message, last = [message] ∧ exitNotification message = true) :
    wanted (before ++ last) = before.filter (fun message => !lifecycleMethod message) := by
  have htake : (before ++ last).takeWhile (fun message => !exitNotification message) = before := by
    rw [List.takeWhile_append_of_pos (fun message hmem => by simp [hnone message hmem])]
    rcases hlast with rfl | ⟨message, rfl, hexit⟩
    · simp
    · simp [hexit]
  rw [wanted, htake]

theorem map_payload_framesFrom (leaseId : String) (n : Nat) (messages : List Json) :
    (framesFrom leaseId n messages).map StreamFrame.payload = messages := by
  simp [framesFrom, Function.comp_def]

theorem map_payload_numbered (leaseId : String) (messages : List Json) :
    (numbered leaseId messages).map StreamFrame.payload = messages := by
  simp [numbered, Function.comp_def]

/-- The numbers are 1, 2, 3, and so on as long as they fit. -/
theorem framesFrom_eq_numbered_iff (leaseId : String) (messages : List Json) :
    framesFrom leaseId 0 messages = numbered leaseId messages ↔ messages.length < 2 ^ 64 := by
  unfold framesFrom numbered
  rw [List.map_inj_left]
  constructor
  · intro h
    by_contra hle
    -- The first frame past the largest number has it once more.
    have hlt : 2 ^ 64 - 1 < messages.length := by omega
    have hframe := h (messages[2 ^ 64 - 1], 2 ^ 64 - 1)
      (List.mk_mem_zipIdx_iff_getElem?.mpr (List.getElem?_eq_getElem hlt))
    simp only [StreamFrame.mk.injEq, proxySeq, true_and, and_true] at hframe
    omega
  · rintro hlt ⟨message, i⟩ hmem
    have hi : i < messages.length := by
      have hget := List.mk_mem_zipIdx_iff_getElem?.mp hmem
      exact (List.getElem?_eq_some_iff.mp hget).1
    have hseq : proxySeq i = i + 1 := by
      unfold proxySeq
      omega
    rw [hseq]

/-- The frames forwarded are those of the messages to be forwarded, and the answers those
    to the requests that start and stop a server. -/
def KeepsLifecycle (leaseId : String) (messages answers : List Json) (sent : List StreamFrame) :
    Prop :=
  sent = numbered leaseId (wanted messages) ∧
    answers.map (fun answer => answer.get "id") = (messages.filterMap answeredId).map some

/-- In every run of the proxy, what it forwards and answers is right if and only if the
    messages of the four methods have the form that belongs to them, and there are fewer
    than 2^64 others. The messages are those it reads, but for one whose handling fails. -/
theorem proxy_forwards_iff (fromSlice : List UInt8 → Option Json)
    (fromStr : List Char → Option StreamFrame) (initializeResult : Json) (leaseId : String)
    (input : List UInt8) (as : List ProxyAction) (s : Proxy)
    (hrun : run (Proxy.step fromSlice fromStr)
      (Proxy.attached fromSlice initializeResult leaseId input) as = some s) :
    ∃ messages, messages = Proxy.handledMessages fromSlice fromStr
        (Proxy.attached fromSlice initializeResult leaseId input) as ∧
      (s.handed = messages ∨
        ∃ message, s.handed = messages ++ [message] ∧ s.pc = .returned .writeFailed) ∧
      (KeepsLifecycle leaseId messages (Proxy.localAnswers fromSlice fromStr
          (Proxy.attached fromSlice initializeResult leaseId input) as) s.sent ↔
        ProperlyFormed messages) := by
  have hhanded := Proxy.handedOn_run fromSlice fromStr leaseId as [] _ s hrun ⟨rfl, .inl rfl⟩
  have haccount := Proxy.account_run fromSlice fromStr as [] [] _ s hrun
    (Proxy.account_attached fromSlice initializeResult leaseId input)
  rw [List.nil_append] at hhanded
  rw [List.nil_append, List.nil_append] at haccount
  refine ⟨_, rfl, hhanded.2, ?_⟩
  rcases haccount with ⟨before, last, hmessages, hnone, hlast, hsent, _, hanswers⟩
  have hlast' : last = [] ∨ ∃ message, last = [message] ∧ exitNotification message = true := by
    rcases hlast with hlast | ⟨message, hlast, hexit, _⟩
    · exact .inl hlast
    · exact .inr ⟨message, hlast, hexit⟩
  rw [hhanded.1] at hsent
  unfold KeepsLifecycle ProperlyFormed
  rw [hmessages, wanted_append before last hnone hlast', hsent]
  -- The exit notification is not answered, and has its form.
  have hanswered : (before ++ last).filterMap answeredId = before.filterMap answeredId := by
    rcases hlast' with rfl | ⟨message, rfl, hexit⟩
    · rw [List.append_nil]
    · simp only [exitNotification, Bool.decide_and, Bool.and_eq_true, decide_eq_true_eq] at hexit
      simp [answeredId, hexit.1]
  have hproper : (∀ message ∈ before ++ last, ProperForm message) ↔
      ∀ message ∈ before, ProperForm message := by
    rcases hlast' with rfl | ⟨message, rfl, hexit⟩
    · rw [List.append_nil]
    · simp [or_imp, forall_and, properForm_of_exit message hexit]
  rw [hanswered, hproper, and_iff_left hanswers]
  constructor
  · intro hframes
    -- The frames carry their messages, so the right messages are forwarded.
    have hsame : before.filter forwards = before.filter (fun m => !lifecycleMethod m) := by
      have hpayloads := congrArg (List.map StreamFrame.payload) hframes
      rw [map_payload_framesFrom, map_payload_numbered] at hpayloads
      exact hpayloads
    rw [hsame] at hframes
    refine ⟨fun message hmem => (forwards_iff message).mp fun hforwards => ?_,
      (framesFrom_eq_numbered_iff leaseId _).mp hframes⟩
    have hkept : message ∈ before.filter (fun m => !lifecycleMethod m) := by
      rw [← hsame]
      exact List.mem_filter.mpr ⟨hmem, hforwards⟩
    simpa using (List.mem_filter.mp hkept).2
  · rintro ⟨hforms, hfew⟩
    have hsame : before.filter forwards = before.filter (fun m => !lifecycleMethod m) := by
      -- In its form, a message of the four methods is not forwarded, and any other is.
      refine List.filter_congr fun message hmem => ?_
      cases hlifecycle : lifecycleMethod message with
      | false => rw [forwards_of_not_lifecycle message hlifecycle, Bool.not_false]
      | true =>
          cases hforwards : forwards message with
          | false => rfl
          | true =>
              have hfalse := (forwards_iff message).mpr (hforms message hmem) hforwards
              rw [hlifecycle] at hfalse
              exact absurd hfalse (by decide)
    rw [hsame]
    exact (framesFrom_eq_numbered_iff leaseId _).mpr hfew

/-! ### A session of the editor, and a shutdown without an id -/

/-- A message of the editor: a request if there is an id. -/
def editorMessage (method : String) (id : Option Nat) : Json :=
  .obj ((id.map fun n => ("id", Json.num n)).toList ++ [("method", .str method)])

def editorText (method : String) (id : Option Nat) : String :=
  "\x7b" ++ (id.elim "" fun n => "\"id\":" ++ toString n ++ ",") ++ "\"method\":\"" ++ method ++
    "\"\x7d"

/-- The frame of a message. -/
def editorFrame (method : String) (id : Option Nat) : List UInt8 :=
  Utf8.asciiBytes ("Content-Length: " ++ toString (editorText method id).length ++ "\r\n\r\n" ++
    editorText method id).toList

/-- JSON, as it is read on these messages. -/
def readEditor (messages : List (String × Option Nat)) (bytes : List UInt8) : Option Json :=
  (messages.find? fun m => bytes = Utf8.asciiBytes (editorText m.1 m.2).toList).map fun m =>
    editorMessage m.1 m.2

/-- The proxy with these messages to come. -/
def editorComing (messages : List (String × Option Nat)) : Proxy :=
  Proxy.attached (readEditor messages) .null "lease_1"
    (messages.flatMap fun m => editorFrame m.1 m.2)

/-- A session from its first message to its last. -/
def wholeSession : List (String × Option Nat) :=
  [("initialize", some 1), ("initialized", none), ("textDocument/didOpen", none),
    ("textDocument/hover", some 2), ("shutdown", some 3), ("exit", none)]

/-- The frames arrive and are handled. -/
def allFrames (messages : List (String × Option Nat)) : List ProxyAction :=
  .arrive 512 :: List.replicate messages.length (.pollInput true)

theorem wholeSession_isSome :
    (run (Proxy.step (readEditor wholeSession) fun _ => none) (editorComing wholeSession)
      (allFrames wholeSession)).isSome = true := by
  decide +kernel

def shutdownWithoutId : List (String × Option Nat) := [("shutdown", none)]

theorem shutdownWithoutId_isSome :
    (run (Proxy.step (readEditor shutdownWithoutId) fun _ => none) (editorComing shutdownWithoutId)
      (allFrames shutdownWithoutId)).isSome = true := by
  decide +kernel

/-- Two messages are forwarded, and the first and the last request are answered. -/
theorem proxy_forwards_iff_wholeSession : ∃ s,
    run (Proxy.step (readEditor wholeSession) fun _ => none) (editorComing wholeSession)
        (allFrames wholeSession) = some s ∧
      KeepsLifecycle "lease_1" (wholeSession.map fun m => editorMessage m.1 m.2)
        [initializeResponseForEditor (.num 1) .null, shutdownResponseForEditor (.num 3)] s.sent ∧
      s.sent.length = 2 := by
  have hrun := (Option.some_get wholeSession_isSome).symm
  rcases proxy_forwards_iff (readEditor wholeSession) (fun _ => none) .null "lease_1" _
      (allFrames wholeSession) _ hrun with ⟨messages, hmessages, _, hiff⟩
  have hhandled : messages = wholeSession.map fun m => editorMessage m.1 m.2 :=
    hmessages.trans (by decide +kernel)
  have hanswers : Proxy.localAnswers (readEditor wholeSession) (fun _ => none)
      (editorComing wholeSession) (allFrames wholeSession) =
        [initializeResponseForEditor (.num 1) .null, shutdownResponseForEditor (.num 3)] := by
    decide +kernel
  have hforms : ∀ message ∈ wholeSession.map fun m => editorMessage m.1 m.2,
      ProperForm message := by decide
  rw [hhandled] at hiff
  have hkeeps := hiff.mpr ⟨hforms, by decide⟩
  unfold editorComing at hanswers
  rw [hanswers] at hkeeps
  exact ⟨_, hrun, hkeeps, by rw [hkeeps.1]; decide⟩

/-- A `shutdown` without an id is forwarded to the server. -/
theorem shutdown_forwarded :
    ¬ ∀ (fromSlice : List UInt8 → Option Json) (fromStr : List Char → Option StreamFrame)
      (initializeResult : Json) (leaseId : String) (input : List UInt8) (as : List ProxyAction)
      (s : Proxy), run (Proxy.step fromSlice fromStr)
        (Proxy.attached fromSlice initializeResult leaseId input) as = some s →
      KeepsLifecycle leaseId (Proxy.handledMessages fromSlice fromStr
          (Proxy.attached fromSlice initializeResult leaseId input) as)
        (Proxy.localAnswers fromSlice fromStr
          (Proxy.attached fromSlice initializeResult leaseId input) as) s.sent := by
  intro hall
  have hkeeps := hall (readEditor shutdownWithoutId) (fun _ => none) .null "lease_1" _
    (allFrames shutdownWithoutId) _ (Option.some_get shutdownWithoutId_isSome).symm
  have hframes := congrArg List.length hkeeps.1
  exact absurd hframes (by decide +kernel)

end Lspee
