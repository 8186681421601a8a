import Lspee.Theory.Responses

/-!
# The Classification of Lines

What the specification makes of a line, in its order: one that is too long, one
that is not JSON, one of another version than the integer 1, one that is no
envelope, and a request. The first and the third end the connection, and so does
an accepted `Shutdown`; after the others it goes on.

The connection reads the version as 64 bits and cuts it to 32 before it compares
it, and then decodes the envelope, whose version has 32 bits. The two disagree on
an integer that is 1 after the cut and is not 1. Such a line passes for version 1
and then fails to decode, so that it is malformed to the connection, which stays
open. On all other lines the connection follows the specification, so a run follows
it throughout if and only if no such line is read (`classification_iff`).

The dispatchers answer with one of a few kinds of answers, and never end the
connection but for a `Shutdown`. This is what is shown of them here
(`writes_dispatch`, `writes_resume`).

## Main definitions

* `requestOf`: The request in an envelope of version 1, by its fields.
* `Verdict`, `verdict`: What the specification makes of a line.
* `Answer`, `Writes`: The answers of the dispatchers.
* `FollowsPrecedence`: A step does with a line what the specification says.
* `Narrowed`: The lines whose version is 1 only after the cut.

## Theorems

* `fromValue_eq_requestOf`: The decoder goes by the fields.
* `handleLine_verdict`: A line that is not narrowed is treated by its verdict.
* `handleLine_narrowed`: One that is narrowed is not.
* `stops_step`: What is known of the end of the connection.
* `classification_iff`: When a run follows the specification.
* `narrowed_misread`: A run that does not.
-/

namespace Lspee

open Transition Utf8

/-! ### What the specification makes of a line -/

/-- The request in an envelope of version 1: a string for the type, a payload, and
    a string for the id, if there is one. -/
def requestOf (raw : Json) : Option ControlEnvelope :=
  match raw.get "type", raw.get "payload" with
  | some (.str messageType), some payload =>
    match raw.get "id" with
    | none | some .null => some ⟨1, none, messageType, payload⟩
    | some (.str id) => some ⟨1, some id, messageType, payload⟩
    | _ => none
  | _, _ => none

inductive Verdict where
  | frameTooLarge
  | notJson
  | unsupportedVersion
  | malformed
  | request (req : ControlEnvelope)

/-- The verdict on a line, in the order of the specification. -/
def verdict (line : Line) : Verdict :=
  if line.len > maxFrameSizeBytes then .frameTooLarge
  else match line.parsed with
    | none => .notJson
    | some raw =>
      if raw.get "v" ≠ some (.num 1) then .unsupportedVersion
      else match requestOf raw with
        | none => .malformed
        | some req => .request req

/-- The request is a `Shutdown` with a payload of its type. -/
def ControlEnvelope.acceptedShutdown (req : ControlEnvelope) : Bool :=
  req.messageType = "Shutdown" ∧ isShutdownPayload req.payload

namespace Verdict

/-- The code of the error that a line is refused with, and whether the connection
    is closed. -/
def refusal : Verdict → Option (String × Bool)
  | .frameTooLarge => some ("E_FRAME_TOO_LARGE", true)
  | .notJson => some ("E_BAD_MESSAGE", false)
  | .unsupportedVersion => some ("E_UNSUPPORTED_VERSION", true)
  | .malformed => some ("E_BAD_MESSAGE", false)
  | .request _ => none

/-- Whether the connection ends with the answer. -/
def closes : Verdict → Bool
  | .request req => req.acceptedShutdown
  | v => (v.refusal.map Prod.snd).getD false

end Verdict

/-- The code of an error. -/
def codeOf (response : ControlEnvelope) : Option String :=
  if response.messageType = "Error" then (response.payload.get "code").bind Json.asStr else none

theorem codeOf_errorEnvelope (id : Option String) (code message : String) (retryable : Bool)
    (details : Option Json) :
    codeOf (errorEnvelope id code message retryable details) = some code := by
  simp [codeOf, errorEnvelope, Json.get, Json.asStr]

/-! ### The two routes to the version -/

theorem fromValue_obj (fields : List (String × Json)) :
    ControlEnvelope.fromValue (.obj fields) =
      ((fields.lookup "v").bind Json.asU32).bind fun v =>
        (Json.optional Json.asStr (fields.lookup "id")).bind fun id =>
          ((fields.lookup "type").bind Json.asStr).bind fun messageType =>
            (fields.lookup "payload").bind fun payload => some ⟨v, id, messageType, payload⟩ :=
  rfl

/-- An envelope of version 1 decodes by its fields. -/
theorem fromValue_eq_requestOf (raw : Json) (hversion : raw.get "v" = some (.num 1)) :
    ControlEnvelope.fromValue raw = requestOf raw := by
  cases raw with
  | obj fields =>
      have hv : (fields.lookup "v").bind Json.asU32 = some 1 := by
        rw [show fields.lookup "v" = some (.num 1) from hversion]
        decide
      rw [fromValue_obj, hv, Option.bind_some]
      simp only [requestOf, Json.get]
      cases htype : fields.lookup "type" with
      | none => simp
      | some messageType =>
          cases messageType with
          | str messageType =>
              cases hpayload : fields.lookup "payload" with
              | none => simp
              | some payload =>
                  cases hid : fields.lookup "id" with
                  | none => simp [Json.optional, Json.asStr]
                  | some id => cases id <;> simp [Json.optional, Json.asStr]
          | _ => simp [Json.asStr]
  | _ => simp [Json.get] at hversion

/-- The version of a value that decodes is an integer of 32 bits. -/
theorem version_of_fromValue (raw : Json) (req : ControlEnvelope) (v : Json)
    (hv : raw.get "v" = some v) (h : ControlEnvelope.fromValue raw = some req) :
    ∃ n, v.asU32 = some n := by
  cases raw with
  | obj fields =>
      rw [fromValue_obj, show fields.lookup "v" = some v from hv, Option.bind_some] at h
      rcases Option.bind_eq_some_iff.mp h with ⟨n, hn, _⟩
      exact ⟨n, hn⟩
  | _ => simp [Json.get] at hv

/-- The version is an integer that is 1 after it is cut to 32 bits, and is not 1. -/
def NarrowedVersion (raw : Json) : Prop :=
  ∃ n : Nat, raw.get "v" = some (.num n) ∧ n % 2 ^ 32 = 1 ∧ n ≠ 1

/-- The line is not too long, and is JSON of such a version. -/
def Narrowed (line : Line) : Prop :=
  line.len ≤ maxFrameSizeBytes ∧ ∃ raw, line.parsed = some raw ∧ NarrowedVersion raw

/-- The version that is compared. -/
theorem versionOf_eq_one_iff (raw : Json) :
    Connection.versionOf raw = some protocolVersion ↔
      raw.get "v" = some (.num 1) ∨ NarrowedVersion raw := by
  unfold Connection.versionOf protocolVersion NarrowedVersion
  constructor
  · intro h
    cases hv : raw.get "v" with
    | none => simp [hv] at h
    | some v =>
        cases v with
        | num n =>
            rw [hv, Option.bind_some, Json.asU64] at h
            split at h
            · rename_i hn
              rw [Option.map_some, Option.some.injEq] at h
              have hcast : ((n.toNat : Nat) : Int) = n := Int.toNat_of_nonneg hn
              -- The number is 1, or is cut down to it.
              by_cases hone : n.toNat = 1
              · left
                rw [← hcast, hone]
                rfl
              · exact .inr ⟨n.toNat, by rw [hcast], h, hone⟩
            · simp at h
        | _ => simp [hv, Json.asU64] at h
  · rintro (h | ⟨n, h, hcut, _⟩)
    · rw [h]
      decide
    · simp only [h, Option.bind_some, Json.asU64, Int.natCast_nonneg, if_true, Int.toNat_natCast,
        Option.map_some, hcut]

/-- An envelope of such a version does not decode. -/
theorem fromValue_narrowed (raw : Json) (h : NarrowedVersion raw) :
    ControlEnvelope.fromValue raw = none := by
  rcases h with ⟨n, hv, hcut, hne⟩
  cases hreq : ControlEnvelope.fromValue raw with
  | none => rfl
  | some req =>
      rcases version_of_fromValue raw req _ hv hreq with ⟨m, hm⟩
      have hsmall : n < 2 ^ 32 := by
        simp only [Json.asU32, Json.asU64, Int.natCast_nonneg, if_true, Int.toNat_natCast,
          Option.bind_some] at hm
        split at hm
        · assumption
        · cases hm
      omega

/-! ### The answers of the dispatchers -/

/-- An answer of a dispatcher, without its id. -/
inductive Answer where
  | attachOk (leaseId : String) (mode : StreamMode) (endpoint : Option String)
      (initializeResult : Json)
  | releaseOk (leaseId : String) (refCount : Nat)
  | callOk (leaseId : String) (response : Json)
  | notifyOk (leaseId : String)
  | statsOk (settings : MemoryBudgetSettings) (sessions leases uptimeMs memoryTotal : Nat)
      (counters : RegistryCounters)
  | shutdownOk
  | error (code message : String) (retryable : Bool)

namespace Answer

def envelope (id : Option String) : Answer → ControlEnvelope
  | attachOk leaseId mode endpoint initializeResult =>
    okEnvelope id "AttachOk" (Lspee.attachOk leaseId mode endpoint initializeResult)
  | releaseOk leaseId refCount =>
    okEnvelope id "ReleaseOk" (.obj [("lease_id", .str leaseId), ("ref_count", .num refCount)])
  | callOk leaseId response =>
    okEnvelope id "CallOk" (.obj [("lease_id", .str leaseId), ("response", response)])
  | notifyOk leaseId => okEnvelope id "NotifyOk" (.obj [("lease_id", .str leaseId)])
  | statsOk settings sessions leases uptimeMs memoryTotal counters =>
    okEnvelope id "StatsOk" (Lspee.statsOk settings sessions leases uptimeMs memoryTotal counters)
  | shutdownOk => okEnvelope id "ShutdownOk" (.obj [("accepted", .bool true)])
  | error code message retryable => errorEnvelope id code message retryable none

/-- An answer is not the refusal of a line. -/
def IsDispatched : Answer → Prop
  | error code _ _ => code ≠ "E_FRAME_TOO_LARGE" ∧ code ≠ "E_UNSUPPORTED_VERSION"
  | _ => True

theorem codeOf_envelope (id : Option String) (answer : Answer) (h : answer.IsDispatched) :
    codeOf (answer.envelope id) ≠ some "E_FRAME_TOO_LARGE" := by
  cases answer with
  | error code message retryable =>
      rw [envelope, codeOf_errorEnvelope]
      exact fun heq => h.1 (Option.some.inj heq)
  | _ => simp [envelope, codeOf, okEnvelope]

end Answer

/-- The connection goes on, and what it writes is an answer with this id. -/
def Writes (id : Option String) (pc : ControlPc) : Prop :=
  ∀ response stop, pc = .writing response stop →
    stop = false ∧ ∃ answer : Answer, answer.IsDispatched ∧ response = answer.envelope id

theorem writes_answer (s s' : Control) (id : Option String) (answer : Answer)
    (hdispatched : answer.IsDispatched)
    (h : some (s.write (answer.envelope id) false) = some s') : Writes id s'.pc := by
  intro response stop hpc
  rw [← Option.some.inj h, Control.write, ControlPc.writing.injEq] at hpc
  exact ⟨hpc.2.symm, answer, hdispatched, hpc.1.symm⟩

theorem writes_error (s s' : Control) (id : Option String) (code message : String)
    (retryable : Bool) (hcode : code ≠ "E_FRAME_TOO_LARGE" ∧ code ≠ "E_UNSUPPORTED_VERSION")
    (h : some (s.write (errorEnvelope id code message retryable none) false) = some s') :
    Writes id s'.pc :=
  writes_answer s s' id (.error code message retryable) hcode h

theorem writes_await (s s' : Control) (id : Option String) (call : CallId) (method : Method)
    (pc : ControlPc) (hpc : ∀ response stop, pc ≠ .writing response stop)
    (h : s.await call method pc = some s') : Writes id s'.pc := by
  intro response stop hwriting
  rw [Connection.carried_await s s' call method pc h] at hwriting
  exact absurd hwriting (hpc response stop)

theorem writes_dispatch (s s' : Control) (req : ControlEnvelope) (call : CallId)
    (h : s.dispatchControlRequest req call = some s')
    (haccepted : req.acceptedShutdown = false) : Writes req.id s'.pc := by
  have hbad : ("E_BAD_MESSAGE" : String) ≠ "E_FRAME_TOO_LARGE" ∧
      ("E_BAD_MESSAGE" : String) ≠ "E_UNSUPPORTED_VERSION" := by decide
  -- One branch per type; each refuses a payload that it cannot read.
  unfold Control.dispatchControlRequest at h
  split at h
  · unfold Control.dispatchAttach at h
    split at h
    · exact writes_error s s' req.id _ _ _ hbad h
    · split at h
      · exact writes_error s s' req.id _ _ _ (by decide) h
      · exact writes_await s s' req.id call _ _ (by simp) h
  · unfold Control.dispatchRelease at h
    split at h
    · exact writes_error s s' req.id _ _ _ hbad h
    · exact writes_await _ s' req.id call _ _ (by simp) h
  · unfold Control.dispatchCall at h
    split at h
    · exact writes_error s s' req.id _ _ _ hbad h
    · exact writes_await s s' req.id call _ _ (by simp) h
  · unfold Control.dispatchNotify at h
    split at h
    · exact writes_error s s' req.id _ _ _ hbad h
    · exact writes_await s s' req.id call _ _ (by simp) h
  · intro response stop hpc
    rw [← Option.some.inj h] at hpc
    cases hpc
  · rename_i htype
    have hpayload : isShutdownPayload req.payload = false := by
      simpa [ControlEnvelope.acceptedShutdown, htype] using haccepted
    rw [Control.dispatchShutdown, hpayload, if_neg (by decide)] at h
    exact writes_error s s' req.id _ _ _ hbad h
  · exact writes_error s s' req.id _ _ _ (by decide) h

theorem writes_shutdown (s s' : Control) (req : ControlEnvelope) (call : CallId)
    (h : s.dispatchControlRequest req call = some s') (haccepted : req.acceptedShutdown = true) :
    s'.pc = .writing (okEnvelope req.id "ShutdownOk" (.obj [("accepted", .bool true)])) true := by
  simp only [ControlEnvelope.acceptedShutdown, Bool.decide_and, Bool.and_eq_true,
    decide_eq_true_eq] at haccepted
  rw [Control.dispatchControlRequest, haccepted.1] at h
  simp only [Control.dispatchShutdown, haccepted.2, if_true, Option.some.injEq] at h
  rw [← h]
  rfl

theorem writes_forwardError (s s' : Control) (kind : ForwardKind) (id : Option String)
    (message : String) (h : some (s.write (forwardError kind id message) false) = some s') :
    Writes id s'.pc := by
  unfold forwardError at h
  split at h
  · exact writes_error s s' id _ _ _ (by decide) h
  · split at h
    · exact writes_error s s' id _ _ _ (by decide) h
    · split at h
      · exact writes_error s s' id _ _ _ (by decide) h
      · exact writes_error s s' id _ _ _ (by decide) h

theorem writes_attached (s : Control) (id : Option String) (mode : StreamMode) (lease : Lease)
    (handle : Option SessionHandle) : Writes id (s.attached id mode lease handle).pc := by
  unfold Control.attached
  cases handle with
  | none => exact writes_error _ _ id "E_INTERNAL" _ _ (by decide) rfl
  | some handle =>
      cases mode with
      | dedicated =>
          intro response stop hpc
          cases hpc
      | muxControl => exact writes_answer _ _ id (.attachOk lease.id .muxControl none
          handle.initializeResult) trivial rfl

theorem writes_resume (s s' : Control) (id : Option String)
    (hid : Connection.carried s.pc = some id) (h : s.resume = some s') : Writes id s'.pc := by
  unfold Control.resume at h
  split at h
  · rename_i id' mode call hpc
    rw [hpc, Connection.carried, Option.some.injEq] at hid
    -- The answer has the id that was kept.
    rw [hid] at h
    split at h
    · exact writes_error s s' id _ _ _ (by decide) h
    · rw [← Option.some.inj h]
      exact writes_attached s id mode _ _
    · cases h
  · rename_i id' error call hpc
    rw [hpc, Connection.carried, Option.some.injEq] at hid
    rw [hid] at h
    split at h
    · exact writes_error s s' id _ _ _ (by decide) h
    · cases h
  · rename_i id' leaseId call hpc
    rw [hpc, Connection.carried, Option.some.injEq] at hid
    rw [hid] at h
    split at h
    · rename_i refCount _
      exact writes_answer s s' id (.releaseOk leaseId refCount) trivial h
    · exact writes_error s s' id _ _ _ (by decide) h
    · cases h
  · rename_i id' leaseId call hpc
    rw [hpc, Connection.carried, Option.some.injEq] at hid
    rw [hid] at h
    split at h
    · rename_i response _
      exact writes_answer s s' id (.callOk leaseId response) trivial h
    · exact writes_error s s' id _ _ _ (by decide) h
    · exact writes_forwardError s s' .call id _ h
    · cases h
  · rename_i id' leaseId call hpc
    rw [hpc, Connection.carried, Option.some.injEq] at hid
    rw [hid] at h
    split at h
    · exact writes_answer s s' id (.notifyOk leaseId) trivial h
    · exact writes_error s s' id _ _ _ (by decide) h
    · exact writes_forwardError s s' .notify id _ h
    · cases h
  · cases h

theorem writes_bound (s s' : Control) (endpoint : Except String String) (call : CallId)
    (id : Option String) (hid : Connection.carried s.pc = some id)
    (h : s.bound endpoint call = some s') : Writes id s'.pc := by
  unfold Control.bound at h
  split at h
  · rename_i id' lease handle path hpc
    rw [hpc, Connection.carried, Option.some.injEq] at hid
    rw [hid] at h
    exact writes_answer s s' id (.attachOk lease.id .dedicated _ handle.initializeResult) trivial h
  · exact writes_await s s' id call _ _ (by simp) h
  · cases h

theorem writes_sampled (s s' : Control) (memoryTotal : Nat) (id : Option String)
    (hid : Connection.carried s.pc = some id) (h : s.sampled memoryTotal = some s') :
    Writes id s'.pc := by
  unfold Control.sampled at h
  split at h
  · rename_i id' sessions leases counters hpc
    rw [hpc, Connection.carried, Option.some.injEq] at hid
    rw [hid] at h
    exact writes_answer s s' id (.statsOk s.settings sessions leases _ memoryTotal counters)
      trivial h
  · cases h

/-! ### A line and its verdict -/

/-- The connection has done with a line what its verdict says: it refuses it, or
    dispatches the request in it. -/
def Heeds (v : Verdict) (s s' : Control) (call : CallId) : Prop :=
  (∀ code closes, v.refusal = some (code, closes) →
    ∃ response, codeOf response = some code ∧ s' = s.write response closes) ∧
  ∀ req, v = .request req → s.dispatchControlRequest req call = some s'

theorem heeds_refused (v : Verdict) (s s' : Control) (call : CallId)
    (id : Option String) (code message : String) (closes : Bool)
    (hv : v.refusal = some (code, closes))
    (h : some (s.write (errorEnvelope id code message false none) closes) = some s') :
    Heeds v s s' call := by
  refine ⟨fun code' closes' hv' => ?_, fun req hreq => ?_⟩
  · rw [hv, Option.some.injEq, Prod.mk.injEq] at hv'
    rw [← hv'.1, ← hv'.2]
    exact ⟨_, codeOf_errorEnvelope id code message false none, (Option.some.inj h).symm⟩
  · rw [hreq] at hv
    cases hv

theorem handleLine_verdict (s s' : Control) (line : Line) (call : CallId)
    (h : s.handleLine line call = some s') (hline : ¬Narrowed line) :
    Heeds (verdict line) s s' call := by
  unfold Control.handleLine at h
  unfold verdict
  by_cases hlen : line.len > maxFrameSizeBytes
  · rw [if_pos hlen] at h ⊢
    exact heeds_refused _ s s' call none _ _ true rfl h
  rw [if_neg hlen] at h ⊢
  cases hparsed : line.parsed with
  | none =>
      rw [hparsed] at h
      exact heeds_refused _ s s' call none _ _ false rfl h
  | some raw =>
      rw [hparsed] at h
      -- Where nothing is cut, the version that is read is the version in the line.
      have hnarrowed : ¬NarrowedVersion raw := fun hv =>
        hline ⟨Nat.le_of_not_lt hlen, raw, hparsed, hv⟩
      have hversion := versionOf_eq_one_iff raw
      rw [or_iff_left hnarrowed] at hversion
      unfold Connection.versionOf at hversion
      by_cases hone : raw.get "v" = some (.num 1)
      · simp only [hone, fromValue_eq_requestOf raw hone, ne_eq,
          not_true_eq_false, if_false] at h ⊢
        cases hreq : requestOf raw with
        | none =>
            rw [hreq] at h
            exact heeds_refused _ s s' call none _ _ false rfl h
        | some req =>
            rw [hreq] at h
            refine ⟨fun code closes hv => ?_, fun req' hreq' => ?_⟩
            · cases hv
            · rw [← Verdict.request.inj hreq']
              exact h
      · have hother : ((raw.get "v").bind Json.asU64).map (fun v => v % 2 ^ 32) ≠
            some protocolVersion := fun heq => hone (hversion.mp heq)
        simp only [if_pos hother] at h
        simp only [ne_eq, hone, not_false_eq_true, if_true]
        exact heeds_refused _ s s' call _ _ _ true rfl h

/-- A line whose version is 1 only after the cut is refused with the wrong code, and
    the connection goes on. -/
theorem handleLine_narrowed (s s' : Control) (line : Line) (call : CallId)
    (h : s.handleLine line call = some s') (hline : Narrowed line) :
    ¬Heeds (verdict line) s s' call := by
  rcases hline with ⟨hlen, raw, hparsed, hnarrowed⟩
  have hverdict : verdict line = .unsupportedVersion := by
    rcases hnarrowed with ⟨n, hv, _, hne⟩
    have hother : raw.get "v" ≠ some (.num 1) := by
      rw [hv]
      intro heq
      rw [Option.some.injEq, Json.num.injEq] at heq
      exact hne (by omega)
    unfold verdict
    rw [if_neg (Nat.not_lt.mpr hlen), hparsed]
    simp only [if_pos hother]
  have hversion := (versionOf_eq_one_iff raw).mpr (.inr hnarrowed)
  unfold Connection.versionOf at hversion
  unfold Control.handleLine at h
  rw [if_neg (Nat.not_lt.mpr hlen), hparsed] at h
  simp only [hversion, fromValue_narrowed raw hnarrowed, ne_eq, not_true_eq_false, if_false,
    Option.some.injEq] at h
  rintro ⟨hrefused, _⟩
  rw [hverdict] at hrefused
  rcases hrefused _ _ rfl with ⟨response, _, hs'⟩
  -- The verdict closes the connection, and what is written leaves it open.
  have hpc := congrArg Control.pc (h.trans hs')
  simp only [Control.write, ControlPc.writing.injEq] at hpc
  exact absurd hpc.2 (by decide)

/-! ### Steps -/

/-- Whether the connection ends once the answer to come is written. -/
def endsAfter : ControlPc → Option Bool
  | .reading => none
  | .returned _ => none
  | .writing _ stop => some stop
  | _ => some false

theorem endsAfter_of_writes (id : Option String) (pc : ControlPc) (stop : Bool)
    (h : Writes id pc) (hstop : endsAfter pc = some stop) : stop = false := by
  cases pc with
  | writing response stop' =>
      rw [endsAfter, Option.some.injEq] at hstop
      rw [← hstop]
      exact (h response stop' rfl).1
  | reading => cases hstop
  | returned ok => cases hstop
  | _ => exact (Option.some.inj hstop).symm

/-- A dispatcher that waits for an answer to come, and goes on with the request it is
    for; what it writes is an answer. -/
structure GoesOn (s c : Control) (id : Option String) : Prop where
  before : Connection.carried s.pc = some id
  waiting : ∀ response stop, s.pc ≠ .writing response stop
  after : Connection.carried c.pc = some id
  writes : Writes id c.pc

theorem goesOn_resume (s c : Control) (h : s.resume = some c) : ∃ id, GoesOn s c id := by
  rcases Connection.busy_of_resume s c h with ⟨id, hid⟩
  have hcarried := Connection.carried_resume s c h
  refine ⟨id, hid, fun response stop hpc => ?_, hcarried.trans hid, writes_resume s c id hid h⟩
  simp [Control.resume, hpc] at h

theorem goesOn_bound (s c : Control) (endpoint : Except String String) (call : CallId)
    (h : s.bound endpoint call = some c) : ∃ id, GoesOn s c id := by
  rcases Connection.busy_of_bound s c endpoint call h with ⟨id, hid⟩
  have hcarried := Connection.carried_bound s c endpoint call h
  refine ⟨id, hid, fun response stop hpc => ?_, hcarried.trans hid,
    writes_bound s c endpoint call id hid h⟩
  simp [Control.bound, hpc] at h

theorem goesOn_sampled (s c : Control) (memoryTotal : Nat) (h : s.sampled memoryTotal = some c) :
    ∃ id, GoesOn s c id := by
  rcases Connection.busy_of_sampled s c memoryTotal h with ⟨id, hid⟩
  have hcarried := Connection.carried_sampled s c memoryTotal h
  refine ⟨id, hid, fun response stop hpc => ?_, hcarried.trans hid,
    writes_sampled s c memoryTotal id hid h⟩
  simp [Control.sampled, hpc] at h

theorem GoesOn.endsAfter (s c : Control) (id : Option String) (h : GoesOn s c id) :
    endsAfter s.pc = some false := by
  have hbefore := h.before
  cases hpc : s.pc with
  | reading => rw [hpc] at hbefore; cases hbefore
  | returned ok => rw [hpc] at hbefore; cases hbefore
  | writing response stop => exact absurd hpc (h.waiting response stop)
  | _ => rfl

theorem endsAfter_heeds (v : Verdict) (s s' : Control) (call : CallId)
    (h : Heeds v s s' call) (stop : Bool) (hstop : endsAfter s'.pc = some stop) :
    v.closes = stop := by
  have hrefused : ∀ code closes, v.refusal = some (code, closes) → closes = stop := by
    intro code closes hv
    rcases h.1 code closes hv with ⟨response, _, hs'⟩
    rw [hs'] at hstop
    exact Option.some.inj hstop
  cases v with
  | request req =>
      have hdispatch := h.2 req rfl
      cases haccepted : req.acceptedShutdown with
      | true =>
          rw [writes_shutdown s s' req call hdispatch haccepted] at hstop
          rw [Verdict.closes, haccepted]
          exact Option.some.inj hstop
      | false =>
          rw [Verdict.closes, haccepted]
          exact (endsAfter_of_writes req.id _ stop
            (writes_dispatch s s' req call hdispatch haccepted) hstop).symm
  | _ => exact hrefused _ _ rfl

namespace Connection

variable (fromStr : List Char → Option Json)

/-- Whether the last line read closes the connection. -/
def lastCloses (s : Connection) : Bool :=
  match s.lines with
  | some text :: _ => (verdict (lineOf fromStr text)).closes
  | _ => false

/-- A step does with a line what its verdict says. Once the answer is written, the
    connection ends if and only if the line closes it, and no step of a dispatcher
    ends it. -/
def FollowsPrecedence (s : Connection) : ConnectionAction → Prop
  | .read call => ∀ s' text rest, s.step fromStr (.read call) = some s' →
      nextLine s.bytes s.ending = .line text rest →
      Heeds (verdict (lineOf fromStr text)) s.control s'.control call
  | .wrote ok => ∀ s', s.step fromStr (.wrote ok) = some s' → ok = true →
      s'.control.pc = if s.lastCloses fromStr then .returned true else .reading
  | a => ∀ s', s.step fromStr a = some s' →
      ∀ ok, s'.control.pc = .returned ok → s.control.pc = .returned ok

/-- The line that is read next, if it is UTF-8, has no version that is 1 only after
    the cut. -/
def NotNarrowed (s : Connection) : ConnectionAction → Prop
  | .read _ => ∀ text rest, nextLine s.bytes s.ending = .line text rest →
      ¬Narrowed (lineOf fromStr text)
  | _ => True

/-- What is known of the end of the connection is what the last line says. -/
def Stops (s : Connection) : Prop :=
  ∀ stop, endsAfter s.control.pc = some stop → s.lastCloses fromStr = stop

variable {fromStr}

/-- A line that is read is dispatched. -/
theorem read_line (s s' : Connection) (call : CallId) (text : List Char) (rest : List UInt8)
    (hstep : s.step fromStr (.read call) = some s')
    (hnext : nextLine s.bytes s.ending = .line text rest) :
    s.control.handleLine (lineOf fromStr text) call = some s'.control ∧
      s' = { s with control := s'.control, bytes := rest, lines := some text :: s.lines } := by
  have hline : lineRead s.bytes s.ending = some (some text) := by
    rcases lineRead_cases s.bytes s.ending with ⟨text', rest', hnext', hline⟩ | ⟨hnext', _⟩ |
      ⟨hnext', _⟩
    · rw [hnext, NextLine.line.injEq] at hnext'
      rw [hline, hnext'.1]
    · rw [hnext] at hnext'
      cases hnext'
    · rw [hnext] at hnext'
      cases hnext'
  simp only [step, read] at hstep
  cases hpc : s.control.pc with
  | reading =>
      simp only [hpc, hnext, hline, Control.step, Option.toList_some, List.cons_append,
        List.nil_append] at hstep
      rcases Option.map_eq_some_iff.mp hstep with ⟨c, hc, hs'⟩
      rw [← hs']
      exact ⟨hc, rfl⟩
  | _ =>
      rw [hpc] at hstep
      cases hstep

/-- Without a line the connection ends. -/
theorem read_end (s s' : Connection) (call : CallId)
    (hstep : s.step fromStr (.read call) = some s')
    (hnext : ∀ text rest, nextLine s.bytes s.ending ≠ .line text rest) :
    ∃ ok, s'.control.pc = .returned ok := by
  simp only [step, read] at hstep
  cases hpc : s.control.pc with
  | reading =>
      rw [hpc] at hstep
      cases hline : nextLine s.bytes s.ending with
      | line text rest => exact absurd hline (hnext text rest)
      | eof =>
          simp only [hline, Control.step, hpc, Option.map_some, Option.some.injEq] at hstep
          exact ⟨true, by rw [← hstep]⟩
      | failed =>
          simp only [hline, Control.step, hpc, Option.map_some, Option.some.injEq] at hstep
          exact ⟨false, by rw [← hstep]⟩
  | _ =>
      rw [hpc] at hstep
      cases hstep

/-- A step of a dispatcher does not end the connection, and what it writes is no
    reason to end it. -/
theorem stops_goesOn (s : Connection) (a : ConnectionAction) (c : Control) (id : Option String)
    (hI : Stops fromStr s) (hgoes : GoesOn s.control c id)
    (hstep : s.step fromStr a = some { s with control := c }) :
    Stops fromStr { s with control := c } ∧ ∀ t, s.step fromStr a = some t →
      ∀ ok, t.control.pc = .returned ok → s.control.pc = .returned ok := by
  refine ⟨fun stop hstop => ?_, fun t ht ok hok => ?_⟩
  · rw [endsAfter_of_writes id c.pc stop hgoes.writes hstop]
    exact hI false hgoes.endsAfter
  · have hafter := hgoes.after
    rw [hstep, Option.some.injEq] at ht
    rw [← ht] at hok
    rw [hok] at hafter
    cases hafter

theorem stops_step (s s' : Connection) (a : ConnectionAction) (hI : Stops fromStr s)
    (hstep : s.step fromStr a = some s') (hC : NotNarrowed fromStr s a) :
    Stops fromStr s' ∧ FollowsPrecedence fromStr s a := by
  cases a with
  | world a =>
      rcases Option.map_eq_some_iff.mp hstep with ⟨c, hc, hs'⟩
      rcases Option.map_eq_some_iff.mp hc with ⟨w, _, hw⟩
      have hpc : s'.control.pc = s.control.pc := by rw [← hs', ← hw]
      refine ⟨fun stop hstop => ?_, fun t ht ok hok => ?_⟩
      · rw [hpc] at hstop
        rw [← hI stop hstop, ← hs']
        rfl
      · rw [hstep, Option.some.injEq] at ht
        rw [← ht, hpc] at hok
        exact hok
  | read call =>
      have hheeds : ∀ t text rest, s.step fromStr (.read call) = some t →
          nextLine s.bytes s.ending = .line text rest →
          Heeds (verdict (lineOf fromStr text)) s.control t.control call := by
        intro t text rest ht hnext
        exact handleLine_verdict _ _ _ call (read_line s t call text rest ht hnext).1
          (hC text rest hnext)
      refine ⟨fun stop hstop => ?_, hheeds⟩
      cases hnext : nextLine s.bytes s.ending with
      | line text rest =>
          rw [(read_line s s' call text rest hstep hnext).2] at hstop ⊢
          rw [lastCloses]
          exact endsAfter_heeds _ _ _ call (hheeds s' text rest hstep hnext) stop hstop
      | eof =>
          rcases read_end s s' call hstep (by simp [hnext]) with ⟨ok, hpc⟩
          rw [hpc] at hstop
          cases hstop
      | failed =>
          rcases read_end s s' call hstep (by simp [hnext]) with ⟨ok, hpc⟩
          rw [hpc] at hstop
          cases hstop
  | resume =>
      rcases Option.map_eq_some_iff.mp hstep with ⟨c, hc, rfl⟩
      rcases goesOn_resume s.control c hc with ⟨id, hgoes⟩
      exact stops_goesOn s .resume c id hI hgoes hstep
  | bound endpoint call =>
      rcases Option.map_eq_some_iff.mp hstep with ⟨c, hc, rfl⟩
      rcases goesOn_bound s.control c endpoint call hc with ⟨id, hgoes⟩
      exact stops_goesOn s (.bound endpoint call) c id hI hgoes hstep
  | sampled memoryTotal =>
      rcases Option.map_eq_some_iff.mp hstep with ⟨c, hc, rfl⟩
      rcases goesOn_sampled s.control c memoryTotal hc with ⟨id, hgoes⟩
      exact stops_goesOn s (.sampled memoryTotal) c id hI hgoes hstep
  | wrote ok =>
      rcases Option.map_eq_some_iff.mp hstep with ⟨c, hc, hs'⟩
      simp only [Control.step, Control.wrote] at hc
      split at hc
      · rename_i response stop hpc
        -- The answer is written, and the connection ends if it was to.
        have hlast := hI stop (by rw [hpc]; rfl)
        have hafter : c.pc = if ok then if stop then .returned true else .reading
            else .returned false := by
          cases ok <;> exact (congrArg Control.pc (Option.some.inj hc)).symm
        refine ⟨fun stop' hstop' => ?_, fun t ht hok => ?_⟩
        · rw [← hs', hafter] at hstop'
          cases ok <;> cases stop <;> cases hstop'
        · rw [hstep, Option.some.injEq] at ht
          rw [← ht, ← hs', hafter, hlast, hok, if_pos rfl]
      · cases hc

theorem stops_accept (world : World) (settings : MemoryBudgetSettings) (startedAt : Instant)
    (bytes : List UInt8) (ending : Ending) :
    Stops fromStr (accept world settings startedAt bytes ending) := by
  intro stop hstop
  cases hstop

/-- A step that does what the specification says with the line it reads read none
    whose version is cut to 1. -/
theorem notNarrowed_of_follows (s s' : Connection) (a : ConnectionAction)
    (hstep : s.step fromStr a = some s') (h : FollowsPrecedence fromStr s a) :
    NotNarrowed fromStr s a := by
  cases a with
  | read call =>
      intro text rest hnext hnarrowed
      have hhandled := (read_line s s' call text rest hstep hnext).1
      exact handleLine_narrowed _ _ _ call hhandled hnarrowed (h s' text rest hstep hnext)
  | _ => trivial

/-- In every run of a connection, what is done with the lines follows the
    specification if and only if no line is read that is JSON, not too long, and of a
    version that is 1 only after it is cut to 32 bits. Whatever answer a connection comes
    to write, the write can end, well or not. -/
theorem classification_iff (fromStr : List Char → Option Json) (world : World)
    (settings : MemoryBudgetSettings) (startedAt : Instant) (bytes : List UInt8) (ending : Ending)
    (as : List ConnectionAction) :
    (Along (step fromStr) (FollowsPrecedence fromStr)
        (accept world settings startedAt bytes ending) as ↔
      Along (step fromStr) (NotNarrowed fromStr)
        (accept world settings startedAt bytes ending) as) ∧
    ∀ s response stop, run (step fromStr) (accept world settings startedAt bytes ending) as =
        some s → s.control.pc = .writing response stop →
      ∀ ok, ∃ s', s.step fromStr (.wrote ok) = some s' := by
  refine ⟨⟨?_, ?_⟩, fun s response stop _ hpc ok => wrote_writing fromStr s response stop ok hpc⟩
  · exact along_of_invariant (I := fun _ => True)
      (fun s a s' _ hstep h => ⟨trivial, notNarrowed_of_follows s s' a hstep h⟩) as _ trivial
  · exact along_of_invariant (I := Stops fromStr)
      (fun s a s' hI hstep h => stops_step s s' a hI hstep h) as _
      (stops_accept world settings startedAt bytes ending)

/-! ### A version that is cut to 1 -/

/-- A request of the version 2^32 + 1. -/
def laterText : List Char :=
  "\x7b\"v\":4294967297,\"type\":\"Stats\",\"payload\":\x7b\x7d\x7d".toList

/-- What is read in that request, and in nothing else. -/
def laterFromStr (text : List Char) : Option Json :=
  if text = laterText then
    some (.obj [("payload", .obj []), ("type", .str "Stats"), ("v", .num 4294967297)])
  else none

/-- A connection whose client sends that request. -/
def laterConnection : Connection :=
  accept (World.init 5) ⟨none, none, 5⟩ 0 (asciiBytes laterText ++ [newline]) .eof

theorem later_isSome : (laterConnection.step laterFromStr (.read 0)).isSome = true := by
  decide

/-- The request is refused as malformed, and the connection goes on. -/
theorem narrowed_misread :
    ¬∀ (fromStr : List Char → Option Json) (world : World) (settings : MemoryBudgetSettings)
      (startedAt : Instant) (bytes : List UInt8) (ending : Ending) (as : List ConnectionAction),
      Along (step fromStr) (FollowsPrecedence fromStr)
        (accept world settings startedAt bytes ending) as := by
  intro hall
  have halong : Along (step laterFromStr) (FollowsPrecedence laterFromStr) laterConnection
      [.read 0] := hall laterFromStr (World.init 5) ⟨none, none, 5⟩ 0 _ .eof [.read 0]
  have hstep := (Option.some_get later_isSome).symm
  have hcond := notNarrowed_of_follows laterConnection _ (.read 0) hstep (halong _ hstep).1
  have hnext : nextLine laterConnection.bytes laterConnection.ending = .line laterText [] := by
    decide
  have hparsed : laterFromStr laterText =
      some (.obj [("payload", .obj []), ("type", .str "Stats"), ("v", .num 4294967297)]) :=
    if_pos rfl
  refine hcond laterText [] hnext ⟨by decide, _, hparsed, 4294967297, ?_⟩
  exact ⟨by decide, by decide, by decide⟩

end Connection

end Lspee
