import Lspee.Core.Wire

/-!
# Round Trips on the Wire

Whether the messages of the two channels come back from the lines they are
written as.

Every type is read back from the value it is written as, with one exception. An
optional field that holds any JSON value may hold `null`, and is then written,
since it is not absent; but `null` is also what the decoder takes for an absent
field. Such a message comes back without the field, and all others come back as
they were (`lines_read_back`).

The texts are those of `serde_json`. What is needed of it is that the text of a
value has no line terminator in it, and is read as the value.

## Main definitions

* `Json.unlessNull`, `readBack`: What a message comes back as.
* `HoldsNull`: An optional JSON value is `null`.
* `Fits`: The numbers that are read as ones of 32 bits are.

## Theorems

* `asStruct_ofFields`, `optional_map`: What a decoder finds in what an encoder
  wrote.
* `fromValue_toValue`: Each type is read back from its value.
* `readBack_eq_iff`: When that is the value that was written.
* `nextLine_writeLine`, `readLines_writeLines`: From values to lines.
* `lines_read_back`: Sequences of messages come back from their lines.
* `null_details_lost`: A message that does not come back.
* `AttachOk.fromValue_attachOk`: The answer to an `Attach` is of its type.
-/

namespace Lspee

open Record Utf8

namespace Json

/-- What a structure's decoder finds in what its encoder wrote. -/
theorem asStruct_ofFields (names : List String) (fields : List (String × Option Json))
    (hnames : fields.map Prod.fst = names) (h : names.Nodup) :
    (ofFields fields).asStruct names = some (fun name => (fields.lookup name).join) := by
  rw [← hnames] at h
  have hlookup : (fun name => (written fields).lookup name) =
      fun name => (fields.lookup name).join :=
    funext (fun name => lookup_written fields name h)
  rw [← hlookup]
  rfl

@[simp]
theorem asU64_ofNat (n : Nat) : (ofNat n).asU64 = some n := by
  simp [ofNat, asU64]

theorem asU32_ofNat (n : Nat) (h : n < 2 ^ 32) : (ofNat n).asU32 = some n := by
  rw [asU32, asU64_ofNat, Option.bind_some, if_pos h]

@[simp]
theorem asStr_str (s : String) : (str s).asStr = some s := rfl

@[simp]
theorem asBool_bool (b : Bool) : (bool b).asBool = some b := rfl

/-- An optional field whose encoding is never `null`. -/
theorem optional_map {α : Type} (decode : Json → Option α) (encode : α → Json) (x : Option α)
    (hne : ∀ a, encode a ≠ null) (h : ∀ a, x = some a → decode (encode a) = some a) :
    optional decode (x.map encode) = some x := by
  cases x with
  | none => rfl
  | some a =>
      have hread := h a rfl
      have hcons : optional decode (some (encode a)) = (decode (encode a)).map some := by
        unfold optional
        split
        · rename_i heq
          exact absurd heq (by simp)
        · rename_i heq
          exact absurd (Option.some.inj heq) (hne a)
        · rename_i heq
          rw [Option.some.inj heq]
      rw [Option.map_some, hcons, hread, Option.map_some]

theorem optional_str (x : Option String) : optional asStr (x.map str) = some x :=
  optional_map asStr str x (fun _ => by simp) (fun _ _ => rfl)

theorem optional_ofNat (x : Option Nat) : optional asU64 (x.map ofNat) = some x :=
  optional_map asU64 ofNat x (fun _ => by simp [ofNat]) (fun n _ => asU64_ofNat n)

/-- What an optional value is read back as: `null` is read as its absence. -/
def unlessNull : Option Json → Option Json
  | some null => none
  | x => x

theorem optional_some (x : Option Json) : optional some x = some (unlessNull x) := by
  unfold optional unlessNull
  split <;> simp_all

theorem unlessNull_eq_iff (x : Option Json) : unlessNull x = x ↔ x ≠ some null := by
  unfold unlessNull
  split <;> simp_all

end Json

theorem SessionKeyWire.fromValue_toValue (key : SessionKeyWire) :
    fromValue key.toValue = some key := by
  rw [fromValue, toValue, Json.asStruct_ofFields _ _ (by rfl) (by decide)]
  simp [lookup_cons_eq]

theorem ClientKind.fromValue_toValue (kind : ClientKind) : fromValue kind.toValue = some kind := by
  cases kind <;> rfl

/-- The process id is one of 32 bits. -/
def ClientMeta.Fits (clientMeta : ClientMeta) : Prop :=
  ∀ pid, clientMeta.pid = some pid → pid < 2 ^ 32

theorem ClientMeta.fromValue_toValue (clientMeta : ClientMeta) (h : clientMeta.Fits) :
    fromValue clientMeta.toValue = some clientMeta := by
  have hkind := Json.optional_map ClientKind.fromValue ClientKind.toValue clientMeta.clientKind
    (fun kind => by cases kind <;> simp [ClientKind.toValue])
    (fun kind _ => ClientKind.fromValue_toValue kind)
  have hpid := Json.optional_map Json.asU32 Json.ofNat clientMeta.pid
    (fun _ => by simp [Json.ofNat]) (fun pid hpid => Json.asU32_ofNat pid (h pid hpid))
  rw [fromValue, toValue, Json.asStruct_ofFields _ _ (by rfl) (by decide)]
  simp [lookup_cons_eq, hkind, hpid, Json.optional_str]

theorem StreamMode.fromValue_toValue (mode : StreamMode) : fromValue mode.toValue = some mode := by
  cases mode <;> rfl

theorem AttachCapabilities.fromValue_toValue (capabilities : AttachCapabilities) :
    fromValue capabilities.toValue = some capabilities := by
  have hmodes := mapM_map StreamMode.toValue StreamMode.fromValue capabilities.streamMode
    (fun mode _ => StreamMode.fromValue_toValue mode)
  rw [fromValue, toValue, Json.asStruct_ofFields _ _ (by rfl) (by decide)]
  simp [lookup_cons_eq, hmodes]

theorem Attach.fromValue_toValue (attach : Attach) (h : attach.clientMeta.Fits) :
    fromValue attach.toValue = some attach := by
  have hcapabilities := Json.optional_map AttachCapabilities.fromValue AttachCapabilities.toValue
    attach.capabilities (fun _ => by simp [AttachCapabilities.toValue, Json.ofFields])
    (fun capabilities _ => AttachCapabilities.fromValue_toValue capabilities)
  rw [fromValue, toValue, Json.asStruct_ofFields _ _ (by rfl) (by decide)]
  simp [lookup_cons_eq, hcapabilities, SessionKeyWire.fromValue_toValue,
    ClientMeta.fromValue_toValue attach.clientMeta h]

theorem ReleaseReason.fromValue_toValue (reason : ReleaseReason) :
    fromValue reason.toValue = some reason := by
  cases reason <;> rfl

theorem Release.fromValue_toValue (release : Release) :
    fromValue release.toValue = some release := by
  have hreason := Json.optional_map ReleaseReason.fromValue ReleaseReason.toValue release.reason
    (fun reason => by cases reason <;> simp [ReleaseReason.toValue])
    (fun reason _ => ReleaseReason.fromValue_toValue reason)
  rw [fromValue, toValue, Json.asStruct_ofFields _ _ (by rfl) (by decide)]
  simp [lookup_cons_eq, hreason]

theorem CallPayload.fromValue_toValue (call : CallPayload) :
    fromValue call.toValue = some call := by
  rw [fromValue, toValue, Json.asStruct_ofFields _ _ (by rfl) (by decide)]
  simp [lookup_cons_eq]

theorem NotifyPayload.fromValue_toValue (notify : NotifyPayload) :
    fromValue notify.toValue = some notify := by
  rw [fromValue, toValue, Json.asStruct_ofFields _ _ (by rfl) (by decide)]
  simp [lookup_cons_eq]

/-! ### Answers -/

theorem StreamInfo.fromValue_toValue (stream : StreamInfo) :
    fromValue stream.toValue = some stream := by
  rw [fromValue, toValue, Json.asStruct_ofFields _ _ (by rfl) (by decide)]
  simp [lookup_cons_eq, StreamMode.fromValue_toValue, Json.optional_str]

theorem ServerInfo.fromValue_toValue (server : ServerInfo) :
    fromValue server.toValue = some server := by
  rw [fromValue, toValue, Json.asStruct_ofFields _ _ (by rfl) (by decide)]
  simp [lookup_cons_eq]

/-- The answer as it is read back. -/
def AttachOk.readBack (attachOk : AttachOk) : AttachOk :=
  { attachOk with initializeResult := Json.unlessNull attachOk.initializeResult }

theorem AttachOk.fromValue_toValue (attachOk : AttachOk) :
    fromValue attachOk.toValue = some attachOk.readBack := by
  have hserver := Json.optional_map ServerInfo.fromValue ServerInfo.toValue attachOk.server
    (fun _ => by simp [ServerInfo.toValue, Json.ofFields])
    (fun server _ => ServerInfo.fromValue_toValue server)
  rw [fromValue, toValue, Json.asStruct_ofFields _ _ (by rfl) (by decide)]
  simp [lookup_cons_eq, StreamInfo.fromValue_toValue, hserver, Json.optional_str,
    Json.optional_some, readBack]

theorem ReleaseOk.fromValue_toValue (releaseOk : ReleaseOk) :
    fromValue releaseOk.toValue = some releaseOk := by
  rw [fromValue, toValue, Json.asStruct_ofFields _ _ (by rfl) (by decide)]
  simp [lookup_cons_eq]

theorem CallOk.fromValue_toValue (callOk : CallOk) :
    fromValue callOk.toValue = some callOk := by
  rw [fromValue, toValue, Json.asStruct_ofFields _ _ (by rfl) (by decide)]
  simp [lookup_cons_eq]

theorem NotifyOk.fromValue_toValue (notifyOk : NotifyOk) :
    fromValue notifyOk.toValue = some notifyOk := by
  rw [fromValue, toValue, Json.asStruct_ofFields _ _ (by rfl) (by decide)]
  simp [lookup_cons_eq]

theorem Ping.fromValue_toValue (ping : Ping) :
    fromValue ping.toValue = some ping := by
  rw [fromValue, toValue, Json.asStruct_ofFields _ _ (by rfl) (by decide)]
  simp [lookup_cons_eq]

theorem Pong.fromValue_toValue (pong : Pong) :
    fromValue pong.toValue = some pong := by
  rw [fromValue, toValue, Json.asStruct_ofFields _ _ (by rfl) (by decide)]
  simp [lookup_cons_eq]

theorem ShutdownPayload.fromValue_toValue (shutdown : ShutdownPayload) :
    fromValue shutdown.toValue = some shutdown := rfl

theorem ShutdownOk.fromValue_toValue (shutdownOk : ShutdownOk) :
    fromValue shutdownOk.toValue = some shutdownOk := by
  rw [fromValue, toValue, Json.asStruct_ofFields _ _ (by rfl) (by decide)]
  simp [lookup_cons_eq]

theorem StatsPayload.fromValue_toValue (stats : StatsPayload) :
    fromValue stats.toValue = some stats := rfl

theorem MemoryStats.fromValue_toValue (memory : MemoryStats) :
    fromValue memory.toValue = some memory := by
  rw [fromValue, toValue, Json.asStruct_ofFields _ _ (by rfl) (by decide)]
  simp [lookup_cons_eq, Json.optional_ofNat]

theorem StatsCounters.fromValue_toValue (counters : StatsCounters) :
    fromValue counters.toValue = some counters := by
  rw [fromValue, toValue, Json.asStruct_ofFields _ _ (by rfl) (by decide)]
  simp [lookup_cons_eq]

theorem StatsOk.fromValue_toValue (statsOk : StatsOk) :
    fromValue statsOk.toValue = some statsOk := by
  rw [fromValue, toValue, Json.asStruct_ofFields _ _ (by rfl) (by decide)]
  simp [lookup_cons_eq, StatsCounters.fromValue_toValue,
    MemoryStats.fromValue_toValue]

/-- The error as it is read back. -/
def ErrorResponse.readBack (error : ErrorResponse) : ErrorResponse :=
  { error with details := Json.unlessNull error.details }

theorem ErrorResponse.fromValue_toValue (error : ErrorResponse) :
    fromValue error.toValue = some error.readBack := by
  rw [fromValue, toValue, Json.asStruct_ofFields _ _ (by rfl) (by decide)]
  simp [lookup_cons_eq, Json.optional_some, readBack]

/-- The error as it is read back. -/
def StreamErrorPayload.readBack (payload : StreamErrorPayload) : StreamErrorPayload :=
  { payload with details := Json.unlessNull payload.details }

theorem StreamErrorPayload.fromValue_toValue (payload : StreamErrorPayload) :
    fromValue payload.toValue = some payload.readBack := by
  rw [fromValue, toValue, Json.asStruct_ofFields _ _ (by rfl) (by decide)]
  simp [lookup_cons_eq, Json.optional_some, readBack]

/-! ### Payloads -/

/-- What a tagged value is found to hold. -/
theorem asStruct_tagged (name : String) (content : Json) :
    (tagged name content).asStruct ["type", "payload"] =
      some (fun field => (List.lookup field [("type", some (Json.str name)),
        ("payload", some content)]).join) :=
  Json.asStruct_ofFields _ _ rfl (by decide)

namespace ControlPayload

/-- The numbers of 32 bits are. -/
def Fits : ControlPayload → Prop
  | .attach payload => payload.clientMeta.Fits
  | _ => True

/-- The payload as it is read back. -/
def readBack : ControlPayload → ControlPayload
  | .attachOk payload => .attachOk payload.readBack
  | .error payload => .error payload.readBack
  | payload => payload

theorem fromValue_toValue (payload : ControlPayload) (h : payload.Fits) :
    fromValue payload.toValue = some payload.readBack := by
  cases payload with
  | attach payload =>
      have hread := Attach.fromValue_toValue payload h
      simp [fromValue, toValue, asStruct_tagged, lookup_cons_eq, hread, readBack]
  | _ payload =>
      -- The tag is the variant's name, and selects the decoder of its data.
      simp [fromValue, toValue, asStruct_tagged, lookup_cons_eq, readBack,
        AttachOk.fromValue_toValue, Release.fromValue_toValue, ReleaseOk.fromValue_toValue,
        CallPayload.fromValue_toValue, CallOk.fromValue_toValue, NotifyPayload.fromValue_toValue,
        NotifyOk.fromValue_toValue, Ping.fromValue_toValue, Pong.fromValue_toValue,
        ShutdownPayload.fromValue_toValue, ShutdownOk.fromValue_toValue,
        StatsPayload.fromValue_toValue, StatsOk.fromValue_toValue, ErrorResponse.fromValue_toValue]

end ControlPayload

namespace PayloadType

/-- The numbers of 32 bits are. -/
def Fits : (type : PayloadType) → type.Carrier → Prop
  | .attach, payload => payload.clientMeta.Fits
  | .controlPayload, payload => payload.Fits
  | _, _ => True

/-- The payload as it is read back. -/
def readBack : (type : PayloadType) → type.Carrier → type.Carrier
  | .attachOk => AttachOk.readBack
  | .error => ErrorResponse.readBack
  | .controlPayload => ControlPayload.readBack
  | .attach => id
  | .release => id
  | .releaseOk => id
  | .call => id
  | .callOk => id
  | .notify => id
  | .notifyOk => id
  | .ping => id
  | .pong => id
  | .shutdown => id
  | .shutdownOk => id
  | .stats => id
  | .statsOk => id
  | .value => id

theorem fromValue_toValue (type : PayloadType) (payload : type.Carrier) (h : type.Fits payload) :
    type.fromValue (type.toValue payload) = some (type.readBack payload) := by
  cases type with
  | attach => exact Attach.fromValue_toValue payload h
  | attachOk => exact AttachOk.fromValue_toValue payload
  | release => exact Release.fromValue_toValue payload
  | releaseOk => exact ReleaseOk.fromValue_toValue payload
  | call => exact CallPayload.fromValue_toValue payload
  | callOk => exact CallOk.fromValue_toValue payload
  | notify => exact NotifyPayload.fromValue_toValue payload
  | notifyOk => exact NotifyOk.fromValue_toValue payload
  | ping => exact Ping.fromValue_toValue payload
  | pong => exact Pong.fromValue_toValue payload
  | shutdown => exact ShutdownPayload.fromValue_toValue payload
  | shutdownOk => exact ShutdownOk.fromValue_toValue payload
  | stats => exact StatsPayload.fromValue_toValue payload
  | statsOk => exact StatsOk.fromValue_toValue payload
  | error => exact ErrorResponse.fromValue_toValue payload
  | controlPayload => exact ControlPayload.fromValue_toValue payload h
  | value => rfl

/-- Whether an optional JSON value of the payload is there, and `null`. -/
def HoldsNull : (type : PayloadType) → type.Carrier → Prop
  | .attachOk, payload => payload.initializeResult = some .null
  | .error, payload => payload.details = some .null
  | .controlPayload, .attachOk payload => payload.initializeResult = some .null
  | .controlPayload, .error payload => payload.details = some .null
  | _, _ => False

end PayloadType

theorem AttachOk.readBack_eq_iff (attachOk : AttachOk) :
    attachOk.readBack = attachOk ↔ attachOk.initializeResult ≠ some .null := by
  rw [← Json.unlessNull_eq_iff]
  cases attachOk
  simp [readBack]

theorem ErrorResponse.readBack_eq_iff (error : ErrorResponse) :
    error.readBack = error ↔ error.details ≠ some .null := by
  rw [← Json.unlessNull_eq_iff]
  cases error
  simp [readBack]

theorem StreamErrorPayload.readBack_eq_iff (payload : StreamErrorPayload) :
    payload.readBack = payload ↔ payload.details ≠ some .null := by
  rw [← Json.unlessNull_eq_iff]
  cases payload
  simp [readBack]

theorem PayloadType.readBack_eq_iff (type : PayloadType) (payload : type.Carrier) :
    type.readBack payload = payload ↔ ¬ type.HoldsNull payload := by
  cases type with
  | attachOk => exact AttachOk.readBack_eq_iff payload
  | error => exact ErrorResponse.readBack_eq_iff payload
  | controlPayload =>
      cases payload with
      | attachOk payload =>
          simp [readBack, ControlPayload.readBack, HoldsNull, AttachOk.readBack_eq_iff]
      | error payload =>
          simp [readBack, ControlPayload.readBack, HoldsNull, ErrorResponse.readBack_eq_iff]
      | _ => simp [readBack, ControlPayload.readBack, HoldsNull]
  | _ => simp [readBack, HoldsNull]

/-! ### Messages -/

section Typed

variable {α : Type} {encode : α → Json} {decode : Json → Option α}

theorem TypedEnvelope.fromValue_toValue (envelope : TypedEnvelope α) (payload : α)
    (hv : envelope.v < 2 ^ 32) (h : decode (encode envelope.payload) = some payload) :
    fromValue decode (envelope.toValue encode) = some { envelope with payload := payload } := by
  rw [fromValue, toValue, Json.asStruct_ofFields _ _ (by rfl) (by decide)]
  simp [lookup_cons_eq, Json.asU32_ofNat envelope.v hv, Json.optional_str, h]

theorem StreamFrameType.fromValue_toValue (type : StreamFrameType) :
    fromValue type.toValue = some type := by
  cases type <;> rfl

theorem TypedFrame.fromValue_toValue (frame : TypedFrame α) (payload : α)
    (hv : frame.v < 2 ^ 32) (h : decode (encode frame.payload) = some payload) :
    fromValue decode (frame.toValue encode) = some { frame with payload := payload } := by
  rw [fromValue, toValue, Json.asStruct_ofFields _ _ (by rfl) (by decide)]
  simp [lookup_cons_eq, Json.asU32_ofNat frame.v hv, StreamFrameType.fromValue_toValue, h]

end Typed

namespace ControlMessage

/-- The numbers of 32 bits are. -/
def Fits (message : ControlMessage) : Prop :=
  message.envelope.v < 2 ^ 32 ∧ message.type.Fits message.envelope.payload

/-- The message as it is read back. -/
def readBack (message : ControlMessage) : ControlMessage where
  type := message.type
  envelope :=
    { message.envelope with payload := message.type.readBack message.envelope.payload }

def HoldsNull (message : ControlMessage) : Prop := message.type.HoldsNull message.envelope.payload

theorem fromValue_toValue (message : ControlMessage) (h : message.Fits) :
    fromValue message.type message.toValue = some message.readBack := by
  have hpayload := message.type.fromValue_toValue message.envelope.payload h.2
  rw [fromValue, toValue, TypedEnvelope.fromValue_toValue message.envelope _ h.1 hpayload]
  rfl

theorem readBack_eq_iff (message : ControlMessage) :
    message.readBack = message ↔ ¬ message.HoldsNull := by
  rcases message with ⟨type, v, id, messageType, payload⟩
  rw [HoldsNull, ← PayloadType.readBack_eq_iff]
  simp [readBack]

end ControlMessage

namespace StreamMessage

def Fits (message : StreamMessage) : Prop := message.frame.v < 2 ^ 32

/-- A payload as it is read back. -/
def payloadReadBack : (type : StreamFrameType) → type.Carrier → type.Carrier
  | .lspIn => id
  | .lspOut => id
  | .streamError => StreamErrorPayload.readBack

/-- The frame as it is read back. -/
def readBack (message : StreamMessage) : StreamMessage where
  type := message.type
  frame := { message.frame with payload := payloadReadBack message.type message.frame.payload }

def PayloadHoldsNull : (type : StreamFrameType) → type.Carrier → Prop
  | .streamError, payload => payload.details = some .null
  | _, _ => False

def HoldsNull (message : StreamMessage) : Prop :=
  PayloadHoldsNull message.type message.frame.payload

theorem fromValue_toValue (message : StreamMessage) (h : message.Fits) :
    fromValue message.type message.toValue = some message.readBack := by
  have hpayload : message.type.payloadFromValue (message.type.payloadToValue message.frame.payload)
      = some (payloadReadBack message.type message.frame.payload) := by
    rcases message with ⟨type, frame⟩
    cases type with
    | lspIn => rfl
    | lspOut => rfl
    | streamError => exact StreamErrorPayload.fromValue_toValue frame.payload
  rw [fromValue, toValue, TypedFrame.fromValue_toValue message.frame _ h hpayload]
  rfl

theorem readBack_eq_iff (message : StreamMessage) :
    message.readBack = message ↔ ¬ message.HoldsNull := by
  rcases message with ⟨type, v, frameType, leaseId, seq, payload⟩
  cases type with
  | lspIn => simp [readBack, HoldsNull, PayloadHoldsNull, payloadReadBack]
  | lspOut => simp [readBack, HoldsNull, PayloadHoldsNull, payloadReadBack]
  | streamError =>
      simp [readBack, HoldsNull, PayloadHoldsNull, payloadReadBack,
        StreamErrorPayload.readBack_eq_iff]

end StreamMessage

/-! ### Lines -/

section Lines

variable {toString : Json → List Char} {fromStr : List Char → Option Json}

/-- The text of a value is a line of its own. -/
theorem nextLine_writeLine (value : Json) (rest : List UInt8) (ending : Ending)
    (hnewline : '\n' ∉ toString value) (hreturn : '\r' ∉ toString value) :
    nextLine (writeLine toString value ++ rest) ending = .line (toString value) rest := by
  have hnot : newline ∉ encode (toString value) :=
    fun h => hnewline (newline_mem_encode (toString value) h)
  have hsplit : splitLine (writeLine toString value ++ rest) =
      (encode (toString value), some rest) := by
    rw [writeLine, List.append_assoc, List.singleton_append, splitLine_append _ _ hnot]
  have hlast : (toString value).getLast? ≠ some '\r' :=
    fun h => hreturn (List.mem_of_getLast? h)
  unfold nextLine
  rw [hsplit]
  simp only [decode_encode, stripCarriageReturn, if_neg hlast]

/-- Messages whose values are read back are read back from their lines. -/
theorem readLines_writeLines {α β : Type} (toValue : β → Json) (decoder : β → Json → Option α)
    (read : β → α) (messages : List β)
    (hvalue : ∀ message ∈ messages, decoder message (toValue message) = some (read message))
    (hline : ∀ message ∈ messages,
      '\n' ∉ toString (toValue message) ∧ '\r' ∉ toString (toValue message))
    (htext : ∀ message ∈ messages,
      fromStr (toString (toValue message)) = some (toValue message)) :
    readLines fromStr (messages.map decoder)
      (messages.flatMap (fun message => writeLine toString (toValue message))) =
        some (messages.map read) := by
  induction messages with
  | nil => rfl
  | cons message messages ih =>
      have hfirst := hline message List.mem_cons_self
      have hrest := ih (fun m hm => hvalue m (List.mem_cons_of_mem _ hm))
        (fun m hm => hline m (List.mem_cons_of_mem _ hm))
        (fun m hm => htext m (List.mem_cons_of_mem _ hm))
      rw [List.map_cons, List.flatMap_cons, readLines,
        nextLine_writeLine (toValue message) _ .eof hfirst.1 hfirst.2]
      simp only [htext message List.mem_cons_self, hvalue message List.mem_cons_self, hrest,
        Option.bind_eq_bind, Option.bind_some]
      rfl

end Lines

/-- Sequences of messages, of any types, come back from their lines, except that
    an optional JSON value that is `null` comes back as absent: the sequence is
    the same exactly when none holds such a value. -/
theorem lines_read_back (toString : Json → List Char) (fromStr : List Char → Option Json)
    (messages : List ControlMessage) (frames : List StreamMessage)
    (hmessages : ∀ message ∈ messages, message.Fits) (hframes : ∀ frame ∈ frames, frame.Fits)
    (hline : ∀ value ∈ messages.map ControlMessage.toValue ++ frames.map StreamMessage.toValue,
      '\n' ∉ toString value ∧ '\r' ∉ toString value)
    (htext : ∀ value ∈ messages.map ControlMessage.toValue ++ frames.map StreamMessage.toValue,
      fromStr (toString value) = some value) :
    (readLines fromStr (messages.map (fun message => ControlMessage.fromValue message.type))
        (messages.flatMap (fun message => writeLine toString message.toValue)) =
          some (messages.map ControlMessage.readBack) ∧
      (messages.map ControlMessage.readBack = messages ↔
        ∀ message ∈ messages, ¬ message.HoldsNull)) ∧
    readLines fromStr (frames.map (fun frame => StreamMessage.fromValue frame.type))
        (frames.flatMap (fun frame => writeLine toString frame.toValue)) =
          some (frames.map StreamMessage.readBack) ∧
      (frames.map StreamMessage.readBack = frames ↔ ∀ frame ∈ frames, ¬ frame.HoldsNull) := by
  have hcontrol : ∀ message ∈ messages, message.toValue ∈
      messages.map ControlMessage.toValue ++ frames.map StreamMessage.toValue :=
    fun message h => List.mem_append_left _ (List.mem_map_of_mem h)
  have hstream : ∀ frame ∈ frames, frame.toValue ∈
      messages.map ControlMessage.toValue ++ frames.map StreamMessage.toValue :=
    fun frame h => List.mem_append_right _ (List.mem_map_of_mem h)
  refine ⟨⟨?_, ?_⟩, ?_, ?_⟩
  · exact readLines_writeLines ControlMessage.toValue
      (fun message => ControlMessage.fromValue message.type) ControlMessage.readBack messages
      (fun message h => message.fromValue_toValue (hmessages message h))
      (fun message h => hline _ (hcontrol message h))
      (fun message h => htext _ (hcontrol message h))
  · nth_rewrite 2 [← List.map_id messages]
    rw [List.map_inj_left]
    exact forall₂_congr (fun message _ => message.readBack_eq_iff)
  · exact readLines_writeLines StreamMessage.toValue
      (fun frame => StreamMessage.fromValue frame.type) StreamMessage.readBack frames
      (fun frame h => frame.fromValue_toValue (hframes frame h))
      (fun frame h => hline _ (hstream frame h))
      (fun frame h => htext _ (hstream frame h))
  · nth_rewrite 2 [← List.map_id frames]
    rw [List.map_inj_left]
    exact forall₂_congr (fun frame _ => frame.readBack_eq_iff)

/-! ### Three messages -/

/-- A client attaches. -/
def attachMessage : ControlMessage where
  type := .attach
  envelope :=
    { v := 1
      id := some "req-1"
      messageType := "Attach"
      payload :=
        { sessionKey := ⟨"/tmp/proj", "deadbeef", "rust-analyzer"⟩
          clientMeta := ⟨"my-editor", "0.1.0", some .editor, some 42, none⟩
          capabilities := some ⟨[.dedicated, .muxControl]⟩ } }

/-- An error whose details are `null`. -/
def nullDetailsMessage : ControlMessage where
  type := .error
  envelope := ⟨1, none, "Error", ⟨"E_INTERNAL", "boom", false, some .null⟩⟩

/-- A response of the server on a stream. -/
def lspOutMessage : StreamMessage where
  type := .lspOut
  frame := ⟨1, .lspOut, "lease_7", 9,
    .obj [("id", .num 99), ("jsonrpc", .str "2.0"), ("result", .obj [("ok", .bool true)])]⟩

/-- The compact texts of the three. -/
def messageTexts : List (Json × List Char) := [
  (attachMessage.toValue,
    ["\x7b\"v\":1,\"id\":\"req-1\",\"type\":\"Attach\",",
      "\"payload\":\x7b\"session_key\":\x7b",
      "\"project_root\":\"/tmp/proj\",\"config_hash\":\"deadbeef\",",
      "\"lsp_id\":\"rust-analyzer\"\x7d,\"client_meta\":\x7b",
      "\"client_name\":\"my-editor\",\"client_version\":\"0.1.0\",",
      "\"client_kind\":\"editor\",\"pid\":42\x7d,\"capabilities\":\x7b",
      "\"stream_mode\":[\"dedicated\",\"mux_control\"]\x7d\x7d\x7d"].flatMap String.toList),
  (nullDetailsMessage.toValue,
    ["\x7b\"v\":1,\"type\":\"Error\",\"payload\":\x7b\"code\":\"E_INTERNAL\",",
      "\"message\":\"boom\",\"retryable\":false,\"details\":null\x7d\x7d"].flatMap String.toList),
  (lspOutMessage.toValue,
    ["\x7b\"v\":1,\"type\":\"LspOut\",\"lease_id\":\"lease_7\",\"seq\":9,",
      "\"payload\":\x7b\"id\":99,\"jsonrpc\":\"2.0\",",
      "\"result\":\x7b\"ok\":true\x7d\x7d\x7d"].flatMap String.toList)]

def messageToString (value : Json) : List Char := (messageTexts.lookup value).getD []

def messageFromStr (text : List Char) : Option Json :=
  (messageTexts.map Prod.swap).lookup text

theorem messageTexts_lines : ∀ value ∈ messageTexts.map Prod.fst,
    '\n' ∉ messageToString value ∧ '\r' ∉ messageToString value := by
  decide +kernel

theorem messageTexts_read : ∀ value ∈ messageTexts.map Prod.fst,
    messageFromStr (messageToString value) = some value := by
  decide +kernel

theorem lines_read_back_three :
    readLines messageFromStr
        ([attachMessage, nullDetailsMessage].map
          (fun message => ControlMessage.fromValue message.type))
        ([attachMessage, nullDetailsMessage].flatMap
          (fun message => writeLine messageToString message.toValue)) =
      some ([attachMessage, nullDetailsMessage].map ControlMessage.readBack) :=
  (lines_read_back messageToString messageFromStr [attachMessage, nullDetailsMessage]
    [lspOutMessage]
    (by simp [ControlMessage.Fits, PayloadType.Fits, ClientMeta.Fits, attachMessage,
      nullDetailsMessage])
    (by simp [StreamMessage.Fits, lspOutMessage])
    messageTexts_lines messageTexts_read).1.1

/-- An error with the details `null` comes back without details. -/
theorem null_details_lost :
    ¬ ∀ (toString : Json → List Char) (fromStr : List Char → Option Json)
      (messages : List ControlMessage),
      (∀ message ∈ messages, message.Fits) →
      (∀ value ∈ messages.map ControlMessage.toValue,
        '\n' ∉ toString value ∧ '\r' ∉ toString value) →
      (∀ value ∈ messages.map ControlMessage.toValue, fromStr (toString value) = some value) →
      readLines fromStr (messages.map (fun message => ControlMessage.fromValue message.type))
        (messages.flatMap (fun message => writeLine toString message.toValue)) = some messages := by
  intro hall
  have hline : ∀ value ∈ [nullDetailsMessage].map ControlMessage.toValue,
      value ∈ messageTexts.map Prod.fst := by
    intro value hvalue
    rw [List.mem_singleton.mp hvalue]
    exact List.mem_cons_of_mem _ List.mem_cons_self
  have hfits : ∀ message ∈ [nullDetailsMessage], message.Fits := by
    simp [ControlMessage.Fits, PayloadType.Fits, nullDetailsMessage]
  have hsame := hall messageToString messageFromStr [nullDetailsMessage] hfits
    (fun value h => messageTexts_lines value (hline value h))
    (fun value h => messageTexts_read value (hline value h))
  have hback := readLines_writeLines ControlMessage.toValue
    (fun message => ControlMessage.fromValue message.type) ControlMessage.readBack
    [nullDetailsMessage] (fun message h => message.fromValue_toValue (hfits message h))
    (fun message h => messageTexts_lines _ (hline _ (List.mem_map_of_mem h)))
    (fun message h => messageTexts_read _ (hline _ (List.mem_map_of_mem h)))
  rw [hback, Option.some.injEq, List.map_singleton, List.singleton_inj] at hsame
  exact (nullDetailsMessage.readBack_eq_iff.mp hsame) rfl

/-! ### The answers the daemon writes -/

/-- The decoder of `ControlEnvelope<Value>`. -/
theorem ControlEnvelope.fromValue_eq (value : Json) :
    ControlEnvelope.fromValue value = (TypedEnvelope.fromValue some value).map
      (fun envelope => ⟨envelope.v, envelope.id, envelope.messageType, envelope.payload⟩) := by
  simp [ControlEnvelope.fromValue, TypedEnvelope.fromValue, Option.map_bind]

/-- The payload of an `AttachOk` is one. -/
theorem AttachOk.fromValue_attachOk (leaseId : String) (mode : StreamMode)
    (endpoint : Option String) (initializeResult : Json) :
    fromValue (attachOk leaseId mode endpoint initializeResult) =
      some {
        leaseId := leaseId
        sessionId := none
        stream := ⟨mode, endpoint⟩
        server := some ⟨"Ready", true⟩
        initializeResult := Json.unlessNull (some initializeResult) } := by
  have hstream : StreamInfo.fromValue (.obj ((endpoint.toList.map
      (fun text => ("endpoint", Json.str text))) ++ [("mode", mode.toValue)])) =
        some ⟨mode, endpoint⟩ := by
    cases endpoint <;> cases mode <;> rfl
  have hserver : Json.optional ServerInfo.fromValue
      (some (.obj [("reused", .bool true), ("state", .str "Ready")])) =
        some (some ⟨"Ready", true⟩) := rfl
  have hsession : Json.optional Json.asStr none = some none := rfl
  have hresult := Json.optional_some (some initializeResult)
  rw [attachOk, fromValue, Json.asStruct]
  simp [lookup_cons_eq, hstream, hserver, hsession, hresult]

end Lspee
