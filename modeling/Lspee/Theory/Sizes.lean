import Lspee.Core.Encoding
import Lspee.Theory.Classification
import Lspee.Theory.Wire

/-!
# The Size of Frames

Whether the frames of the two sides are as short as a frame may be. Only the
daemon's reader looks at the size. The clients write a file or a request into a
frame however long it is, and so does the daemon with what a server answers, so a
frame fits if and only if the parts it is made from are short enough
(`frames_fit_iff`).

The size of a frame is computed from its parts: the text of a value is as long as
its `size`, where the characters that are escaped count as their escapes. All other
parts of a frame are the same in every frame of its kind. No frame has a line
terminator in its text, so that it is read as one line, of that length.

The run is one of a connection whose client writes frames of `lspee do` and `lspee
call`, in any order. The first frame that is too long is refused and ends it, and the
frames behind it are not read.

## Main definitions

* `charSize`, `textSize`, `size`: The bytes of a string, and of a value.
* `OneLine`: A text without line terminators.
* `ClientFrame.size`, `Answer.size`: The bytes of a frame, by its parts.
* `Sized`: What is known of a connection whose client writes such frames.
* `FramesFit`: No frame is refused, and no answer too long.

## Theorems

* `byteLen_toString`, `oneLine_toString`: The text of a value.
* `size_clientFrame`, `size_answer`: The text of a frame.
* `handleLine_writes`: When a frame is refused as too large.
* `sized_step`, `sized_run`: What a step keeps, and a run.
* `frames_fit_iff`: When the frames fit.
* `long_file_refused`: A file that is too long to be opened.
-/

namespace Lspee

open Transition Utf8

/-! ### The size of a text -/

@[simp]
theorem byteLen_nil : byteLen [] = 0 := rfl

@[simp]
theorem byteLen_cons (c : Char) (text : List Char) :
    byteLen (c :: text) = c.utf8Size + byteLen text := by
  simp [byteLen]

@[simp]
theorem byteLen_append (xs ys : List Char) : byteLen (xs ++ ys) = byteLen xs + byteLen ys := by
  simp [byteLen]

theorem length_encode (text : List Char) : (encode text).length = byteLen text := by
  induction text with
  | nil => rfl
  | cons c text ih =>
      have hcons : encode (c :: text) = String.utf8EncodeChar c ++ encode text := by
        simp [encode]
      rw [hcons, List.length_append, String.length_utf8EncodeChar, ih, byteLen_cons]

namespace Json

/-- The bytes of a character in a string. -/
def charSize (c : Char) : Nat :=
  if c = '"' ∨ c = '\\' ∨ c.toNat ∈ [8, 9, 10, 12, 13] then 2
  else if c.toNat < 32 then 6
  else c.utf8Size

/-- The bytes of a string with its quotes. -/
def textSize (text : String) : Nat := (text.toList.map charSize).sum + 2

theorem digitChar_small : ∀ n < 16, (Nat.digitChar n).utf8Size = 1 ∧
    Nat.digitChar n ≠ '\n' ∧ Nat.digitChar n ≠ '\r' := by
  decide

theorem byteLen_escape (c : Char) : byteLen (escape c) = charSize c := by
  unfold escape charSize
  by_cases hquote : c = '"'
  · rw [if_pos hquote, if_pos (.inl hquote)]
    decide
  by_cases hslash : c = '\\'
  · rw [if_neg hquote, if_pos hslash, if_pos (.inr (.inl hslash))]
    decide
  rw [if_neg hquote, if_neg hslash]
  -- The five control characters with an escape of two letters.
  by_cases hletter : c.toNat ∈ [8, 9, 10, 12, 13]
  · have hshort : c = '"' ∨ c = '\\' ∨ c.toNat ∈ [8, 9, 10, 12, 13] := .inr (.inr hletter)
    rw [if_pos hshort]
    simp only [List.mem_cons, List.not_mem_nil, or_false] at hletter
    rcases hletter with h | h | h | h | h <;> simp [h] <;> decide
  · have hnone : ¬(c = '"' ∨ c = '\\' ∨ c.toNat ∈ [8, 9, 10, 12, 13]) := by
      simp only [hquote, hslash, hletter, or_self, not_false_eq_true]
    rw [if_neg hnone]
    simp only [List.mem_cons, List.not_mem_nil, or_false, not_or] at hletter
    rw [if_neg hletter.1, if_neg hletter.2.1, if_neg hletter.2.2.1, if_neg hletter.2.2.2.1,
      if_neg hletter.2.2.2.2]
    -- The others are escaped by four digits, all of one byte.
    by_cases hcontrol : c.toNat < 32
    · rw [if_pos hcontrol, if_pos hcontrol]
      have hhigh := (digitChar_small (c.toNat / 16) (by omega)).1
      have hlow := (digitChar_small (c.toNat % 16) (by omega)).1
      simp [hhigh, hlow, show ('\\' : Char).utf8Size = 1 by decide,
        show ('u' : Char).utf8Size = 1 by decide, show ('0' : Char).utf8Size = 1 by decide]
    · rw [if_neg hcontrol, if_neg hcontrol]
      simp

theorem byteLen_quoted (text : String) : byteLen (quoted text.toList) = textSize text := by
  have hquote : ('"' : Char).utf8Size = 1 := by decide
  have hchars : ∀ chars : List Char,
      byteLen (chars.flatMap escape) = (chars.map charSize).sum := by
    intro chars
    induction chars with
    | nil => rfl
    | cons c chars ih =>
        rw [List.flatMap_cons, byteLen_append, byteLen_escape, ih, List.map_cons, List.sum_cons]
  simp only [quoted, textSize, List.cons_append, byteLen_cons, byteLen_append, byteLen_nil, hquote,
    hchars]
  omega

theorem byteLen_intercalate (texts : List (List Char)) :
    byteLen ([','].intercalate texts) = (texts.map byteLen).sum + (texts.length - 1) := by
  have hcomma : (',' : Char).utf8Size = 1 := by decide
  induction texts with
  | nil => rfl
  | cons text texts ih =>
      cases texts with
      | nil => simp
      | cons next texts =>
          rw [List.intercalate_cons_cons, byteLen_append, byteLen_append, ih]
          simp [hcomma]
          omega

/-! ### The size of a value -/

section Size

variable (toString : Json → List Char)

mutual

/-- The bytes of a value's text. -/
def size : Json → Nat
  | null => 4
  | bool b => if b then 4 else 5
  | num n => byteLen n.repr.toList
  | float q => byteLen (toString (float q))
  | str s => textSize s
  | arr items => itemsSize items + (items.length - 1) + 2
  | obj fields => fieldsSize fields + (fields.length - 1) + 2

def itemsSize : List Json → Nat
  | [] => 0
  | item :: items => size item + itemsSize items

def fieldsSize : List (String × Json) → Nat
  | [] => 0
  | (name, v) :: fields => textSize name + 1 + size v + fieldsSize fields

end

end Size

variable {toString : Json → List Char}

mutual

/-- The size of a value is the length of its text. -/
theorem byteLen_toString (h : PrintsCompact toString) :
    ∀ v : Json, byteLen (toString v) = size toString v
  | null => by
      rw [h.null, size]
      decide
  | bool b => by
      rw [h.bool, size]
      cases b <;> decide
  | num n => by rw [h.num, size]
  | float q => by rw [size]
  | str s => by rw [h.str, byteLen_quoted, size]
  | arr items => by
      have hopen : ('[' : Char).utf8Size = 1 := by decide
      have hclose : (']' : Char).utf8Size = 1 := by decide
      rw [h.arr, size, ← sum_items h items]
      simp [byteLen_intercalate, hopen, hclose, Function.comp_def]
      omega
  | obj fields => by
      have hopen : ('\x7b' : Char).utf8Size = 1 := by decide
      have hclose : ('\x7d' : Char).utf8Size = 1 := by decide
      rw [h.obj, size, ← sum_fields h fields]
      simp [byteLen_intercalate, hopen, hclose, Function.comp_def]
      omega

theorem sum_items (h : PrintsCompact toString) : ∀ items : List Json,
    (items.map fun item => byteLen (toString item)).sum = itemsSize toString items
  | [] => rfl
  | item :: items => by
      rw [List.map_cons, List.sum_cons, byteLen_toString h item, sum_items h items, itemsSize]

theorem sum_fields (h : PrintsCompact toString) : ∀ fields : List (String × Json),
    (fields.map fun field => byteLen (quoted field.1.toList ++ ':' :: toString field.2)).sum =
      fieldsSize toString fields
  | [] => rfl
  | (name, v) :: fields => by
      have hcolon : (':' : Char).utf8Size = 1 := by decide
      rw [List.map_cons, List.sum_cons, sum_fields h fields, fieldsSize, byteLen_append,
        byteLen_cons, byteLen_quoted, byteLen_toString h v, hcolon]
      simp only []
      omega

end

/-! ### One line -/

/-- The text has no line terminator. -/
def OneLine (text : List Char) : Prop := '\n' ∉ text ∧ '\r' ∉ text

instance (text : List Char) : Decidable (OneLine text) := inferInstanceAs (Decidable (_ ∧ _))

theorem oneLine_append (xs ys : List Char) (hx : OneLine xs) (hy : OneLine ys) :
    OneLine (xs ++ ys) := by
  constructor
  · exact fun h => (List.mem_append.mp h).elim hx.1 hy.1
  · exact fun h => (List.mem_append.mp h).elim hx.2 hy.2

theorem oneLine_cons (c : Char) (text : List Char) (hn : c ≠ '\n') (hr : c ≠ '\r')
    (h : OneLine text) : OneLine (c :: text) := by
  constructor
  · exact fun hmem => (List.mem_cons.mp hmem).elim (fun heq => hn heq.symm) h.1
  · exact fun hmem => (List.mem_cons.mp hmem).elim (fun heq => hr heq.symm) h.2

theorem oneLine_escape (c : Char) : OneLine (escape c) := by
  unfold escape
  split
  · decide
  split
  · decide
  split
  · decide
  split
  · decide
  split
  · decide
  split
  · decide
  split
  · decide
  -- A newline and a carriage return have been escaped above.
  rename_i hnewline _ hreturn
  split
  · have hhigh := (digitChar_small (c.toNat / 16) (by omega)).2
    have hlow := (digitChar_small (c.toNat % 16) (by omega)).2
    refine oneLine_append ['\\', 'u', '0', '0'] _ (by decide) ?_
    exact oneLine_cons _ _ hhigh.1 hhigh.2 (oneLine_cons _ _ hlow.1 hlow.2 (by decide))
  · refine oneLine_cons c [] (fun heq => hnewline ?_) (fun heq => hreturn ?_) (by decide)
    · rw [heq]
      rfl
    · rw [heq]
      rfl

theorem oneLine_quoted (text : String) : OneLine (quoted text.toList) := by
  have hchars : ∀ chars : List Char, OneLine (chars.flatMap escape) := by
    intro chars
    induction chars with
    | nil => decide
    | cons c chars ih => exact oneLine_append _ _ (oneLine_escape c) ih
  exact oneLine_cons _ _ (by decide) (by decide)
    (oneLine_append _ _ (hchars text.toList) (by decide))

theorem oneLine_repr (n : Int) : OneLine n.repr.toList := by
  have hdigits : ∀ m : Nat, OneLine m.repr.toList := by
    intro m
    have hdigit : ∀ c ∈ m.repr.toList, c.isDigit = true := by
      intro c hc
      rw [Nat.toList_repr] at hc
      exact Nat.isDigit_of_mem_toDigits (by decide) (by decide) hc
    exact ⟨fun h => absurd (hdigit _ h) (by decide), fun h => absurd (hdigit _ h) (by decide)⟩
  cases n with
  | ofNat m => exact hdigits m
  | negSucc m =>
      have htext : (Int.negSucc m).repr.toList = '-' :: (m + 1).repr.toList := by
        simp [Int.repr]
      rw [htext]
      exact oneLine_cons _ _ (by decide) (by decide) (hdigits (m + 1))

theorem oneLine_intercalate (texts : List (List Char)) (h : ∀ text ∈ texts, OneLine text) :
    OneLine ([','].intercalate texts) := by
  induction texts with
  | nil => decide
  | cons text texts ih =>
      have hrest := ih (fun t ht => h t (List.mem_cons_of_mem _ ht))
      have hfirst := h text List.mem_cons_self
      cases texts with
      | nil => simpa using hfirst
      | cons next texts =>
          rw [List.intercalate_cons_cons]
          exact oneLine_append _ _ (oneLine_append _ _ hfirst (by decide)) hrest

mutual

/-- The text of a value is on one line. -/
theorem oneLine_toString (h : PrintsCompact toString) : ∀ v : Json, OneLine (toString v)
  | null => by
      rw [h.null]
      decide
  | bool b => by
      rw [h.bool]
      cases b <;> decide
  | num n => by
      rw [h.num]
      exact oneLine_repr n
  | float q => h.float q
  | str s => by
      rw [h.str]
      exact oneLine_quoted s
  | arr items => by
      rw [h.arr]
      refine oneLine_cons _ _ (by decide) (by decide) (oneLine_append _ _ ?_ (by decide))
      exact oneLine_intercalate _ (oneLine_items h items)
  | obj fields => by
      rw [h.obj]
      refine oneLine_cons _ _ (by decide) (by decide) (oneLine_append _ _ ?_ (by decide))
      exact oneLine_intercalate _ (oneLine_fields h fields)

theorem oneLine_items (h : PrintsCompact toString) : ∀ items : List Json,
    ∀ text ∈ items.map toString, OneLine text
  | [] => by simp
  | item :: items => by
      intro text htext
      rcases List.mem_cons.mp htext with heq | hrest
      · rw [heq]
        exact oneLine_toString h item
      · exact oneLine_items h items text hrest

theorem oneLine_fields (h : PrintsCompact toString) : ∀ fields : List (String × Json),
    ∀ text ∈ fields.map (fun field => quoted field.1.toList ++ ':' :: toString field.2),
      OneLine text
  | [] => by simp
  | (name, v) :: fields => by
      intro text htext
      rcases List.mem_cons.mp htext with heq | hrest
      · rw [heq]
        exact oneLine_append _ _ (oneLine_quoted name)
          (oneLine_cons _ _ (by decide) (by decide) (oneLine_toString h v))
      · exact oneLine_fields h fields text hrest

end

end Json

/-! ### The size of a frame -/

section Frames

variable (toString : Json → List Char)

/-- The bytes of an envelope, by the parts that differ. -/
def envelopeSize (id : Option String) (messageType : String) (payloadSize : Nat) : Nat :=
  26 + (id.elim 0 fun id => 6 + Json.textSize id) + Json.textSize messageType + payloadSize

/-- The bytes of a frame of a client. -/
def ClientFrame.size : ClientFrame → Nat
  | attach nanos key clientVersion clientKind pid cwd =>
    envelopeSize (some (newRequestId "attach" nanos)) "Attach"
      (187 + clientKind.toValue.size toString + Json.textSize clientVersion +
        (cwd.elim 0 fun path => 7 + Json.textSize path) + Json.size toString (.num pid) +
        Json.textSize key.configHash + Json.textSize key.lspId + Json.textSize key.projectRoot)
  | didOpen nanos leaseId path source =>
    envelopeSize (some (newRequestId "notify-open" nanos)) "Notify"
      (142 + Json.textSize leaseId + Json.textSize (languageIdForPath path) +
        Json.textSize source.text + Json.textSize source.uri)
  | call nanos leaseId request =>
    envelopeSize (some (newRequestId "call" nanos)) "Call"
      (24 + Json.textSize leaseId + request.size toString)
  | didClose nanos leaseId uri =>
    envelopeSize (some (newRequestId "notify-close" nanos)) "Notify"
      (109 + Json.textSize leaseId + Json.textSize uri)
  | release nanos leaseId =>
    envelopeSize (some (newRequestId "release" nanos)) "Release" (13 + Json.textSize leaseId)

/-- The bytes of an answer. -/
def Answer.size (id : Option String) : Answer → Nat
  | attachOk leaseId mode endpoint initializeResult =>
    envelopeSize id "AttachOk"
      (94 + initializeResult.size toString + Json.textSize leaseId +
        (endpoint.elim 0 fun path => 12 + Json.textSize path) + mode.toValue.size toString)
  | releaseOk leaseId refCount =>
    envelopeSize id "ReleaseOk" (26 + Json.textSize leaseId + Json.size toString (.num refCount))
  | callOk leaseId response =>
    envelopeSize id "CallOk" (25 + Json.textSize leaseId + response.size toString)
  | notifyOk leaseId => envelopeSize id "NotifyOk" (13 + Json.textSize leaseId)
  | statsOk settings sessions leases uptimeMs memoryTotal counters =>
    envelopeSize id "StatsOk"
      ((Lspee.statsOk settings sessions leases uptimeMs memoryTotal counters).size toString)
  | shutdownOk => envelopeSize id "ShutdownOk" 17
  | error code message retryable =>
    envelopeSize id "Error" (33 + Json.textSize code + Json.textSize message +
      Json.size toString (.bool retryable))

/-- The names of the fields. -/
theorem textSize_names :
    Json.textSize "v" = 3 ∧ Json.textSize "id" = 4 ∧ Json.textSize "type" = 6 ∧
    Json.textSize "payload" = 9 ∧ Json.textSize "lease_id" = 10 ∧ Json.textSize "message" = 9 ∧
    Json.textSize "request" = 9 ∧ Json.textSize "response" = 10 ∧
    Json.textSize "ref_count" = 11 ∧ Json.textSize "accepted" = 10 ∧ Json.textSize "code" = 6 ∧
    Json.textSize "retryable" = 11 ∧ Json.textSize "jsonrpc" = 9 ∧ Json.textSize "2.0" = 5 ∧
    Json.textSize "method" = 8 ∧ Json.textSize "textDocument/didOpen" = 22 ∧
    Json.textSize "textDocument/didClose" = 23 ∧ Json.textSize "params" = 8 ∧
    Json.textSize "textDocument" = 14 ∧ Json.textSize "languageId" = 12 ∧
    Json.textSize "text" = 6 ∧ Json.textSize "uri" = 5 ∧ Json.textSize "version" = 9 ∧
    Json.textSize "capabilities" = 14 ∧ Json.textSize "stream_mode" = 13 ∧
    Json.textSize "mux_control" = 13 ∧ Json.textSize "client_meta" = 13 ∧
    Json.textSize "client_kind" = 13 ∧ Json.textSize "client_name" = 13 ∧
    Json.textSize "lspee_cli" = 11 ∧ Json.textSize "client_version" = 16 ∧
    Json.textSize "cwd" = 5 ∧ Json.textSize "pid" = 5 ∧ Json.textSize "session_key" = 13 ∧
    Json.textSize "config_hash" = 13 ∧ Json.textSize "lsp_id" = 8 ∧
    Json.textSize "project_root" = 14 ∧ Json.textSize "initialize_result" = 19 ∧
    Json.textSize "server" = 8 ∧ Json.textSize "reused" = 8 ∧ Json.textSize "state" = 7 ∧
    Json.textSize "Ready" = 7 ∧ Json.textSize "stream" = 8 ∧ Json.textSize "endpoint" = 10 ∧
    Json.textSize "mode" = 6 ∧ byteLen (1 : Int).repr.toList = 1 := by
  decide +kernel

theorem size_toValue (envelope : ControlEnvelope) (hv : envelope.v = 1) :
    envelope.toValue.size toString =
      envelopeSize envelope.id envelope.messageType (envelope.payload.size toString) := by
  rcases envelope with ⟨v, id, messageType, payload⟩
  simp only at hv
  rw [hv]
  cases id <;>
    simp [ControlEnvelope.toValue, TypedEnvelope.toValue, Json.ofFields, Record.written,
      Json.ofNat, Json.size, Json.fieldsSize, envelopeSize, textSize_names] <;>
    omega

theorem size_clientFrame (frame : ClientFrame) :
    frame.envelope.toValue.size toString = frame.size toString := by
  cases frame with
  -- Each frame is measured field by field, and `size` counts the same fields.
  | attach nanos key clientVersion clientKind pid cwd =>
      rw [size_toValue toString _ rfl]
      refine congrArg (envelopeSize _ _) ?_
      cases cwd <;>
        simp [ClientFrame.envelope, attachPayload, StreamMode.toValue, Json.size,
          Json.fieldsSize, Json.itemsSize, textSize_names] <;>
        omega
  | didOpen nanos leaseId path source =>
      rw [size_toValue toString _ rfl]
      refine congrArg (envelopeSize _ _) ?_
      simp [ClientFrame.envelope, notifyPayload, Lspee.didOpen, Json.size,
        Json.fieldsSize, textSize_names]
      omega
  | call nanos leaseId request =>
      rw [size_toValue toString _ rfl]
      refine congrArg (envelopeSize _ _) ?_
      simp [ClientFrame.envelope, Json.size, Json.fieldsSize, textSize_names]
      omega
  | didClose nanos leaseId uri =>
      rw [size_toValue toString _ rfl]
      refine congrArg (envelopeSize _ _) ?_
      simp [ClientFrame.envelope, notifyPayload, Lspee.didClose, textDocument,
        Json.size, Json.fieldsSize, textSize_names]
      omega
  | release nanos leaseId =>
      rw [size_toValue toString _ rfl]
      refine congrArg (envelopeSize _ _) ?_
      simp [ClientFrame.envelope, Json.size, Json.fieldsSize, textSize_names]
      omega

theorem size_answer (id : Option String) (answer : Answer) :
    (answer.envelope id).toValue.size toString = answer.size toString id := by
  have hv : (answer.envelope id).v = 1 := by cases answer <;> rfl
  rw [size_toValue toString _ hv]
  cases answer with
  | attachOk leaseId mode endpoint initializeResult =>
      refine congrArg (envelopeSize _ _) ?_
      cases endpoint <;>
        simp [Answer.envelope, okEnvelope, Lspee.attachOk, Json.size, Json.fieldsSize,
          textSize_names] <;>
        omega
  | statsOk settings sessions leases uptimeMs memoryTotal counters => rfl
  | error code message retryable =>
      refine congrArg (envelopeSize _ _) ?_
      simp [Answer.envelope, errorEnvelope, Json.size, Json.fieldsSize,
        textSize_names]
      omega
  | shutdownOk =>
      refine congrArg (envelopeSize _ _) ?_
      simp [Answer.envelope, okEnvelope, Json.size, Json.fieldsSize, textSize_names]
  | _ =>
      refine congrArg (envelopeSize _ _) ?_
      simp [Answer.envelope, okEnvelope, Json.size, Json.fieldsSize, textSize_names]
      omega

end Frames

/-! ### Frames as lines -/

/-- The frame without its newline is as long as its value. -/
theorem length_text (toString : Json → List Char) (h : Json.PrintsCompact toString) (value : Json) :
    (encode (toString value)).length = value.size toString := by
  rw [length_encode, Json.byteLen_toString h]

theorem nextLine_frame (toString : Json → List Char) (h : Json.PrintsCompact toString)
    (envelope : ControlEnvelope) (rest : List UInt8) (ending : Ending) :
    nextLine (writeFrame toString envelope ++ rest) ending =
      .line (toString envelope.toValue) rest := by
  have hline := Json.oneLine_toString h envelope.toValue
  exact nextLine_writeLine envelope.toValue rest ending hline.1 hline.2

/-! ### A connection that reads them -/

/-- A line, up to the first await: what is written is an answer, and it is the refusal
    of a frame that is too large if and only if the line is one. -/
theorem handleLine_writes (s s' : Control) (line : Line) (call : CallId)
    (h : s.handleLine line call = some s') :
    (line.len > maxFrameSizeBytes ∧ ∃ response, s'.pc = .writing response true ∧
        codeOf response = some "E_FRAME_TOO_LARGE" ∧
        ∃ id answer, response = Answer.envelope id answer) ∨
    line.len ≤ maxFrameSizeBytes ∧ ∀ response stop, s'.pc = .writing response stop →
      codeOf response ≠ some "E_FRAME_TOO_LARGE" ∧
      ∃ id answer, response = Answer.envelope id answer := by
  -- A refusal has its own code, and is one of the answers.
  have herror : ∀ (id : Option String) (code message : String) (stop : Bool),
      code ≠ "E_FRAME_TOO_LARGE" →
      some (s.write (errorEnvelope id code message false none) stop) = some s' →
      ∀ response stop, s'.pc = .writing response stop →
        codeOf response ≠ some "E_FRAME_TOO_LARGE" ∧
        ∃ id answer, response = Answer.envelope id answer := by
    intro id code message stop hcode hs' response stop' hpc
    rw [← Option.some.inj hs', Control.write, ControlPc.writing.injEq] at hpc
    rw [← hpc.1, codeOf_errorEnvelope]
    exact ⟨fun heq => hcode (Option.some.inj heq), id, .error code message false, rfl⟩
  unfold Control.handleLine at h
  by_cases hlen : line.len > maxFrameSizeBytes
  · rw [if_pos hlen] at h
    left
    rw [← Option.some.inj h]
    exact ⟨hlen, _, rfl, codeOf_errorEnvelope _ _ _ _ _, none, .error _ _ false, rfl⟩
  · rw [if_neg hlen] at h
    right
    refine ⟨Nat.le_of_not_lt hlen, ?_⟩
    cases hparsed : line.parsed with
    | none =>
        rw [hparsed] at h
        exact herror none _ _ _ (by decide) h
    | some raw =>
        rw [hparsed] at h
        simp only at h
        split at h
        · exact herror _ _ _ _ (by decide) h
        · split at h
          · exact herror none _ _ _ (by decide) h
          · rename_i req _
            intro response stop hpc
            cases haccepted : req.acceptedShutdown with
            | true =>
                rw [writes_shutdown s s' req call h haccepted, ControlPc.writing.injEq] at hpc
                rw [← hpc.1]
                exact ⟨by simp [codeOf, okEnvelope], req.id, .shutdownOk, rfl⟩
            | false =>
                rcases writes_dispatch s s' req call h haccepted response stop hpc with
                  ⟨_, answer, hdispatched, hresponse⟩
                rw [hresponse]
                exact ⟨Answer.codeOf_envelope req.id answer hdispatched, req.id, answer, rfl⟩

namespace Connection

/-- What has been written to the client, and what is being written. -/
def sent (s : Connection) : List ControlEnvelope := s.written ++ s.responses

theorem mem_written (s : Connection) (response : ControlEnvelope) :
    response ∈ s.written ↔ ∃ stop, s.control.pc = .writing response stop := by
  unfold written
  split
  · rename_i response' stop hpc
    rw [hpc, List.mem_singleton]
    constructor
    · intro heq
      exact ⟨stop, by rw [heq]⟩
    · rintro ⟨stop', heq⟩
      exact (ControlPc.writing.inj heq).1.symm
  · rename_i hother
    constructor
    · intro hmem
      cases hmem
    · rintro ⟨stop, hpc⟩
      exact absurd hpc (hother response stop)

theorem written_eq_nil (s : Connection)
    (h : ∀ response stop, s.control.pc ≠ .writing response stop) : s.written = [] := by
  rw [List.eq_nil_iff_forall_not_mem]
  intro response hmem
  rcases (mem_written s response).mp hmem with ⟨stop, hpc⟩
  exact h response stop hpc

variable (toString : Json → List Char) (fromStr : List Char → Option Json)

/-- The client's side of the connection, and what is known of the answers. -/
structure Sized (frames : List ClientFrame) (s : Connection) : Prop where
  bytes : s.bytes =
    (frames.drop s.lines.length).flatMap (fun frame => writeFrame toString frame.envelope)
  read : s.lines.length ≤ frames.length
  answers : ∀ response ∈ s.sent, ∃ id answer, response = Answer.envelope id answer
  refused : (∀ response ∈ s.sent, codeOf response ≠ some "E_FRAME_TOO_LARGE") ↔
    ∀ frame ∈ frames.take s.lines.length, frame.size toString ≤ maxFrameSizeBytes

variable {toString} {fromStr}

theorem sized_more (frames : List ClientFrame) (s s' : Connection)
    (h : Sized toString frames s) (hbytes : s'.bytes = s.bytes) (hlines : s'.lines = s.lines)
    (hold : ∀ response ∈ s.sent, response ∈ s'.sent)
    (hnew : ∀ response ∈ s'.sent, response ∈ s.sent ∨
      codeOf response ≠ some "E_FRAME_TOO_LARGE" ∧
        ∃ id answer, response = Answer.envelope id answer) : Sized toString frames s' where
  bytes := by rw [hbytes, hlines, h.bytes]
  read := by rw [hlines]; exact h.read
  answers := fun response hmem => (hnew response hmem).elim (h.answers response) And.right
  refused := by
    rw [hlines, ← h.refused]
    constructor
    · exact fun hall response hmem => hall response (hold response hmem)
    · exact fun hall response hmem => (hnew response hmem).elim (hall response) And.left

/-- A dispatcher goes on, and what it writes is an answer. -/
theorem sized_dispatching (frames : List ClientFrame) (s : Connection) (c : Control)
    (h : Sized toString frames s) (id : Option String) (hgoes : GoesOn s.control c id) :
    Sized toString frames { s with control := c } := by
  have hsent : s.sent = s.responses := by
    rw [sent, written_eq_nil s hgoes.waiting, List.nil_append]
  refine sized_more frames s _ h rfl rfl (fun response hmem => ?_) (fun response hmem => ?_)
  · rw [hsent] at hmem
    exact List.mem_append_right _ hmem
  · rcases List.mem_append.mp hmem with hmem | hmem
    · rcases (mem_written _ response).mp hmem with ⟨stop, hpc⟩
      rcases hgoes.writes response stop hpc with ⟨_, answer, hdispatched, hresponse⟩
      rw [hresponse]
      exact .inr ⟨Answer.codeOf_envelope id answer hdispatched, id, answer, rfl⟩
    · rw [hsent]
      exact .inl hmem

/-- The frame that comes next, when this many have been read. -/
theorem frames_next (frames : List ClientFrame) (n : Nat) (frame : ClientFrame)
    (rest : List ClientFrame) (hdrop : frames.drop n = frame :: rest) :
    n < frames.length ∧ frames.drop (n + 1) = rest ∧
      frames.take (n + 1) = frames.take n ++ [frame] := by
  have hget : frames[n]? = some frame := by
    rw [← List.head?_drop, hdrop, List.head?_cons]
  refine ⟨(List.getElem?_eq_some_iff.mp hget).1, ?_, ?_⟩
  · rw [← List.drop_drop, hdrop, List.drop_one, List.tail_cons]
  · rw [List.take_add_one, hget, Option.toList_some]

/-- A frame is read. -/
theorem sized_read (hcompact : Json.PrintsCompact toString) (frames : List ClientFrame)
    (s s' : Connection) (call : CallId) (h : Sized toString frames s)
    (hstep : s.step fromStr (.read call) = some s') : Sized toString frames s' := by
  have hpc : s.control.pc = .reading := (read_cases s s' call hstep).1
  have hsent : s.sent = s.responses := by
    rw [sent, written_eq_nil s (fun response stop hw => by rw [hpc] at hw; cases hw),
      List.nil_append]
  cases hdrop : frames.drop s.lines.length with
  | nil =>
      -- The client has sent all it sends.
      have hbytes := h.bytes
      rw [hdrop, List.flatMap_nil] at hbytes
      have hnone : ∀ line, lineRead s.bytes s.ending ≠ some line := by
        intro line
        rw [hbytes]
        cases s.ending <;> simp [lineRead, splitLine]
      rcases (read_cases s s' call hstep).2 with ⟨text, rest, c, hline, _⟩ | ⟨ok, _, hs'⟩ |
        ⟨hline, _⟩
      · exact absurd hline (hnone _)
      · rw [hs']
        refine sized_more frames s _ h rfl rfl (fun response hmem => ?_)
          (fun response hmem => .inl ?_)
        · rw [hsent] at hmem
          exact List.mem_append_right _ hmem
        · rw [hsent]
          exact hmem
      · exact absurd hline (hnone _)
  | cons frame rest =>
      have hbytes := h.bytes
      rw [hdrop, List.flatMap_cons] at hbytes
      -- What the client has still to send begins with this frame, which is one line.
      have hnext := nextLine_frame toString hcompact frame.envelope
        (rest.flatMap fun frame => writeFrame toString frame.envelope) s.ending
      rw [← hbytes] at hnext
      rcases read_line s s' call _ _ hstep hnext with ⟨hhandled, hs'⟩
      have hlen : (lineOf fromStr (toString frame.envelope.toValue)).len = frame.size toString := by
        rw [lineOf, Json.byteLen_toString hcompact, size_clientFrame]
      have hread : s'.lines = some (toString frame.envelope.toValue) :: s.lines := by rw [hs']
      have hlines : s'.lines.length = s.lines.length + 1 := by
        rw [hread, List.length_cons]
      have hresponses : s'.responses = s.responses := by rw [hs']
      rcases frames_next frames s.lines.length frame rest hdrop with ⟨hlength, hafter, htake⟩
      have hold : ∀ response ∈ s.responses, response ∈ s'.sent := by
        intro response hmem
        rw [sent, hresponses]
        exact List.mem_append_right _ hmem
      -- Nothing was being written, so at most the answer to this frame is new.
      have hnew : ∀ response ∈ s'.sent,
          (∃ stop, s'.control.pc = .writing response stop) ∨ response ∈ s.responses := by
        intro response hmem
        rw [sent, hresponses] at hmem
        exact (List.mem_append.mp hmem).imp_left (mem_written s' response).mp
      have hanswers := h.answers
      have hrefused := h.refused
      rw [hsent] at hanswers hrefused
      refine ⟨?_, by omega, ?_, ?_⟩
      · rw [hlines, hafter, hs']
      · intro response hmem
        rcases hnew response hmem with ⟨stop, hwriting⟩ | hmem
        · rcases handleLine_writes _ _ _ call hhandled with ⟨_, response', hpc', _, hanswer⟩ |
            ⟨_, hanswer⟩
          · rw [hpc', ControlPc.writing.injEq] at hwriting
            rw [← hwriting.1]
            exact hanswer
          · exact (hanswer response stop hwriting).2
        · exact hanswers response hmem
      · rw [hlines, htake]
        simp only [List.mem_append, List.mem_singleton, or_imp, forall_and, forall_eq]
        -- Up to here by the invariant; for this frame, by the answer to it.
        rw [← hrefused, ← hlen]
        rcases handleLine_writes _ _ _ call hhandled with ⟨hlong, response, hpc', hcode, _⟩ |
          ⟨hshort, hanswer⟩
        · have hmem : response ∈ s'.sent :=
            List.mem_append_left _ ((mem_written s' response).mpr ⟨true, hpc'⟩)
          constructor
          · exact fun hall => absurd hcode (hall response hmem)
          · exact fun hall => absurd hall.2 (Nat.not_le_of_gt hlong)
        · constructor
          · exact fun hall => ⟨fun response hmem => hall response (hold response hmem), hshort⟩
          · rintro ⟨hall, _⟩ response hmem
            rcases hnew response hmem with ⟨stop, hwriting⟩ | hmem
            · exact (hanswer response stop hwriting).1
            · exact hall response hmem

theorem sized_step (hcompact : Json.PrintsCompact toString) (frames : List ClientFrame)
    (s s' : Connection) (a : ConnectionAction) (h : Sized toString frames s)
    (hstep : s.step fromStr a = some s') : Sized toString frames s' := by
  cases a with
  | world a =>
      rcases Option.map_eq_some_iff.mp hstep with ⟨c, hc, rfl⟩
      rcases Option.map_eq_some_iff.mp hc with ⟨w, _, rfl⟩
      exact sized_more frames s _ h rfl rfl (fun response hmem => hmem)
        (fun response hmem => .inl hmem)
  | read call => exact sized_read hcompact frames s s' call h hstep
  | resume =>
      rcases Option.map_eq_some_iff.mp hstep with ⟨c, hc, rfl⟩
      rcases goesOn_resume s.control c hc with ⟨id, hgoes⟩
      exact sized_dispatching frames s c h id hgoes
  | bound endpoint call =>
      rcases Option.map_eq_some_iff.mp hstep with ⟨c, hc, rfl⟩
      rcases goesOn_bound s.control c endpoint call hc with ⟨id, hgoes⟩
      exact sized_dispatching frames s c h id hgoes
  | sampled memoryTotal =>
      rcases Option.map_eq_some_iff.mp hstep with ⟨c, hc, rfl⟩
      rcases goesOn_sampled s.control c memoryTotal hc with ⟨id, hgoes⟩
      exact sized_dispatching frames s c h id hgoes
  | wrote ok =>
      rcases Option.map_eq_some_iff.mp hstep with ⟨c, hc, rfl⟩
      -- After the write nothing is being written.
      have hnot : ∀ response stop, c.pc ≠ .writing response stop := by
        intro response stop hpc
        simp only [Control.step, Control.wrote] at hc
        split at hc
        · cases ok with
          | true =>
              rw [if_pos rfl, Option.some.injEq] at hc
              rw [← hc] at hpc
              simp only at hpc
              split at hpc <;> cases hpc
          | false =>
              rw [← Option.some.inj hc] at hpc
              cases hpc
        · cases hc
      have hsent : ({ s with control := c, responses := s.written ++ s.responses } :
          Connection).sent = s.sent := by
        rw [sent, written_eq_nil _ hnot]
        rfl
      refine sized_more frames s _ h rfl rfl (fun response hmem => ?_) (fun response hmem => ?_)
      · rw [hsent]
        exact hmem
      · rw [hsent] at hmem
        exact .inl hmem

/-- A line that is too long is refused. -/
theorem read_long (s : Connection) (call : CallId) (text : List Char) (rest : List UInt8)
    (hpc : s.control.pc = .reading) (hnext : nextLine s.bytes s.ending = .line text rest)
    (hlen : byteLen text > maxFrameSizeBytes) :
    ∃ s', s.step fromStr (.read call) = some s' ∧
      ∃ response ∈ s'.sent, codeOf response = some "E_FRAME_TOO_LARGE" := by
  have hhandled : s.control.handleLine (lineOf fromStr text) call =
      some (s.control.write (errorEnvelope none "E_FRAME_TOO_LARGE"
        "Control frame exceeds 1 MiB maximum" false none) true) := by
    rw [Control.handleLine, if_pos (show (lineOf fromStr text).len > maxFrameSizeBytes from hlen)]
  simp only [step, read, hpc, hnext, Control.step, hhandled, Option.map_some]
  refine ⟨_, rfl, _, List.mem_append_left _ ((mem_written _ _).mpr ⟨true, rfl⟩), ?_⟩
  exact codeOf_errorEnvelope _ _ _ _ _

theorem sized_run (hcompact : Json.PrintsCompact toString) (frames : List ClientFrame)
    (as : List ConnectionAction) (s t : Connection) (hrun : run (step fromStr) s as = some t)
    (h : Sized toString frames s) : Sized toString frames t :=
  run_invariant (C := fun _ _ => True)
    (fun s a s' hI hstep _ => sized_step hcompact frames s s' a hI hstep) as s t hrun h
    (along_true as s)

theorem sized_accept (world : World) (settings : MemoryBudgetSettings) (startedAt : Instant)
    (frames : List ClientFrame) (ending : Ending) :
    Sized toString frames (accept world settings startedAt
      (frames.flatMap fun frame => writeFrame toString frame.envelope) ending) where
  bytes := rfl
  read := Nat.zero_le _
  answers := fun response hmem => by cases hmem
  refused := by simp [sent, written, accept, Control.accept]

/-- No frame of the client is refused as too large, and no answer is longer than a
    frame may be. The newline is not counted. -/
def FramesFit (toString : Json → List Char) (s : Connection) : Prop :=
  (∀ response ∈ s.sent, codeOf response ≠ some "E_FRAME_TOO_LARGE") ∧
    ∀ response ∈ s.sent, (writeEnvelope toString response).dropLast.length ≤ maxFrameSizeBytes

/-- An answer has its size when it is written. -/
theorem length_answer (toString : Json → List Char) (hcompact : Json.PrintsCompact toString)
    (id : Option String) (answer : Answer) :
    (writeEnvelope toString (Answer.envelope id answer)).dropLast.length =
      answer.size toString id := by
  rw [writeEnvelope, writeLine, List.dropLast_concat, length_text toString hcompact, size_answer]

/-- In every run of a connection whose client writes frames of `lspee do` and `lspee
    call`, each envelope that the daemon writes is an answer; and no frame is refused as
    too large, and no answer is longer than a frame, if and only if the frames read and
    the answers are made from parts that are short enough. -/
theorem frames_fit_iff (toString : Json → List Char) (hcompact : Json.PrintsCompact toString)
    (fromStr : List Char → Option Json) (world : World) (settings : MemoryBudgetSettings)
    (startedAt : Instant) (frames : List ClientFrame) (ending : Ending)
    (as : List ConnectionAction) (s : Connection)
    (hrun : run (step fromStr) (accept world settings startedAt
      (frames.flatMap fun frame => writeFrame toString frame.envelope) ending) as = some s) :
    (∀ response ∈ s.sent, ∃ id answer, response = Answer.envelope id answer) ∧
      (FramesFit toString s ↔
        (∀ frame ∈ frames.take s.lines.length, frame.size toString ≤ maxFrameSizeBytes) ∧
        ∀ id answer, Answer.envelope id answer ∈ s.sent →
          answer.size toString id ≤ maxFrameSizeBytes) := by
  have hsized := sized_run hcompact frames as _ s hrun
    (sized_accept world settings startedAt frames ending)
  refine ⟨hsized.answers, ?_⟩
  unfold FramesFit
  rw [hsized.refused]
  refine and_congr_right fun _ => ⟨fun hall id answer hmem => ?_, fun hall response hmem => ?_⟩
  · rw [← length_answer toString hcompact]
    exact hall _ hmem
  · rcases hsized.answers response hmem with ⟨id, answer, hresponse⟩
    rw [hresponse] at hmem ⊢
    rw [length_answer toString hcompact]
    exact hall id answer hmem

/-! ### A release, and a long file -/

/-- JSON texts without a float. -/
def plainText : Json → List Char := Json.compactText fun _ => "0.0".toList

theorem plain_compact : Json.PrintsCompact plainText where
  null := rfl
  bool _ := rfl
  num _ := rfl
  float _ := by
    rw [plainText, Json.compactText]
    decide
  str _ := rfl
  arr items := by
    -- The two recursions over the items are the same.
    have hitems : ∀ items : List Json,
        Json.itemTexts (fun _ => "0.0".toList) items = items.map plainText := by
      intro items
      induction items with
      | nil => rfl
      | cons item items ih => rw [Json.itemTexts, List.map_cons, ih, plainText]
    rw [plainText, Json.compactText, hitems]
    rfl
  obj fields := by
    have hfields : ∀ fields : List (String × Json),
        Json.fieldTexts (fun _ => "0.0".toList) fields =
          fields.map fun field => Json.quoted field.1.toList ++ ':' :: plainText field.2 := by
      intro fields
      induction fields with
      | nil => rfl
      | cons field fields ih => rw [Json.fieldTexts, List.map_cons, ih, plainText]
    rw [plainText, Json.compactText, hfields]
    rfl

def releaseFrame : ClientFrame := .release 17 "lease_1"

/-- What is read in its text, and in nothing else. -/
def readRelease (text : List Char) : Option Json :=
  if text = plainText releaseFrame.envelope.toValue then some releaseFrame.envelope.toValue
  else none

/-- A connection whose client releases a lease. -/
def releaseComing : Connection :=
  accept (World.init 5) ⟨none, none, 5⟩ 0
    ([releaseFrame].flatMap fun frame => writeFrame plainText frame.envelope) .eof

/-- The frame is read, the registry has no such lease, and the answer is written. -/
def releaseAnswered : List ConnectionAction :=
  [.read 0, .world (.sect 0), .resume, .wrote true]

theorem releaseAnswered_isSome :
    (run (step readRelease) releaseComing releaseAnswered).isSome = true := by
  decide +kernel

/-- A release fits, and so does the answer to it. -/
theorem frames_fit_iff_release : ∃ s,
    run (step readRelease) releaseComing releaseAnswered = some s ∧ s.sent.length = 1 ∧
      FramesFit plainText s := by
  have hrun := (Option.some_get releaseAnswered_isSome).symm
  have hfit := (frames_fit_iff plainText plain_compact readRelease (World.init 5) ⟨none, none, 5⟩ 0
    [releaseFrame] .eof releaseAnswered _ hrun).2
  have hsent : sent ((run (step readRelease) releaseComing releaseAnswered).get
      releaseAnswered_isSome) = [errorEnvelope (some "release-17") "E_LEASE_NOT_FOUND"
        "Lease not found" false none] := by decide +kernel
  refine ⟨_, hrun, by rw [hsent]; rfl, hfit.mpr ⟨fun frame hmem => ?_, fun id answer hmem => ?_⟩⟩
  · rw [List.mem_singleton.mp (List.mem_of_mem_take hmem)]
    decide
  · rw [hsent, List.mem_singleton] at hmem
    rw [← length_answer plainText plain_compact, hmem]
    decide +kernel

/-- The frame that opens a file of `n` bytes. -/
def openFrame (n : Nat) : ClientFrame :=
  .didOpen 17 "lease_1" ⟨true, ["project", "main.rs"]⟩
    ⟨"file:///project/main.rs", String.ofList (List.replicate n 'a')⟩

theorem textSize_replicate (n : Nat) :
    Json.textSize (String.ofList (List.replicate n 'a')) = n + 2 := by
  have hchar : Json.charSize 'a' = 1 := by decide
  simp [Json.textSize, List.map_replicate, hchar]

theorem openFrame_size (n : Nat) : n < (openFrame n).size plainText := by
  rw [openFrame, ClientFrame.size, textSize_replicate, envelopeSize]
  omega

theorem openFrame_refused (fromStr : List Char → Option Json) (n : Nat)
    (hn : maxFrameSizeBytes ≤ n) :
    ∃ s, run (step fromStr) (accept (World.init 5) ⟨none, none, 5⟩ 0
        ([openFrame n].flatMap fun frame => writeFrame plainText frame.envelope) .eof)
        [.read 0] = some s ∧
      ¬FramesFit plainText s := by
  have hnext := nextLine_frame plainText plain_compact (openFrame n).envelope [] .eof
  have hlen : byteLen (plainText (openFrame n).envelope.toValue) > maxFrameSizeBytes := by
    rw [Json.byteLen_toString plain_compact, size_clientFrame]
    exact Nat.lt_of_le_of_lt hn (openFrame_size n)
  rcases @read_long fromStr (accept (World.init 5) ⟨none, none, 5⟩ 0
    ([openFrame n].flatMap fun frame => writeFrame plainText frame.envelope) .eof) 0 _ [] rfl
    (by simpa [accept] using hnext) hlen with ⟨s, hstep, response, hmem, hcode⟩
  exact ⟨s, by rw [run_cons _ _ _ _ hstep, run], fun hfit => hfit.1 response hmem hcode⟩

/-- A file of 1 MiB is not opened: its frame is refused as too large. -/
theorem long_file_refused :
    ¬ ∀ (toString : Json → List Char), Json.PrintsCompact toString →
      ∀ (fromStr : List Char → Option Json) (world : World) (settings : MemoryBudgetSettings)
        (startedAt : Instant) (frames : List ClientFrame) (ending : Ending)
        (as : List ConnectionAction) (s : Connection),
        run (step fromStr) (accept world settings startedAt
          (frames.flatMap fun frame => writeFrame toString frame.envelope) ending) as = some s →
        FramesFit toString s := by
  intro hall
  rcases openFrame_refused (fun _ => none) maxFrameSizeBytes (Nat.le_refl _) with ⟨s, hrun, hfit⟩
  exact hfit (hall plainText plain_compact (fun _ => none) _ _ _ [openFrame maxFrameSizeBytes] _
    _ s hrun)

end Connection

end Lspee
