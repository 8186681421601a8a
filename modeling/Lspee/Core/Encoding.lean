import Lspee.Core.Documents
import Lspee.Core.Wire

/-!
# The Frames of the Clients

What `lspee do` and `lspee call` write to the daemon, and how. An envelope is
written as its text and a newline, on both sides of the control channel, and
neither side looks at how long the text is.

The text is that of `serde_json`, and a parameter. `PrintsCompact` is what is known
of it: values are printed without white space, and in a string the quote, the
backslash and the control characters are escaped. `compactText` prints like that.

A frame of a client is given by what it is made from. The id of a request ends in
the time in nanoseconds.

## Main definitions

* `escape`, `quoted`: A string in JSON.
* `PrintsCompact`, `compactText`: The text of a value.
* `writeFrame`, `writeEnvelope`: The bytes of an envelope.
* `ClientFrame`: What the clients send.
-/

namespace Lspee

open Utf8

namespace Json

/-! ### Text -/

/-- A character in a string. -/
def escape (c : Char) : List Char :=
  if c = '"' then ['\\', '"']
  else if c = '\\' then ['\\', '\\']
  else if c.toNat = 8 then ['\\', 'b']
  else if c.toNat = 9 then ['\\', 't']
  else if c.toNat = 10 then ['\\', 'n']
  else if c.toNat = 12 then ['\\', 'f']
  else if c.toNat = 13 then ['\\', 'r']
  else if c.toNat < 32 then
    ['\\', 'u', '0', '0', Nat.digitChar (c.toNat / 16), Nat.digitChar (c.toNat % 16)]
  else [c]

def quoted (text : List Char) : List Char := '"' :: text.flatMap escape ++ ['"']

/-- The text of a value has no white space outside its strings. Nothing is said of
    the text of a float but that it is on one line. -/
structure PrintsCompact (toString : Json → List Char) : Prop where
  null : toString .null = "null".toList
  bool (b : Bool) : toString (.bool b) = if b then "true".toList else "false".toList
  num (n : Int) : toString (.num n) = n.repr.toList
  float (q : Rat) : '\n' ∉ toString (.float q) ∧ '\r' ∉ toString (.float q)
  str (s : String) : toString (.str s) = quoted s.toList
  arr (items : List Json) :
    toString (.arr items) = '[' :: [','].intercalate (items.map toString) ++ [']']
  obj (fields : List (String × Json)) :
    toString (.obj fields) = '\x7b' ::
      [','].intercalate (fields.map fun field =>
        quoted field.1.toList ++ ':' :: toString field.2) ++ ['\x7d']

mutual

/-- The text of a value, given the texts of floats. -/
def compactText (floatText : Rat → List Char) : Json → List Char
  | null => "null".toList
  | bool b => if b then "true".toList else "false".toList
  | num n => n.repr.toList
  | float q => floatText q
  | str s => quoted s.toList
  | arr items => '[' :: [','].intercalate (itemTexts floatText items) ++ [']']
  | obj fields => '\x7b' :: [','].intercalate (fieldTexts floatText fields) ++ ['\x7d']

def itemTexts (floatText : Rat → List Char) : List Json → List (List Char)
  | [] => []
  | item :: items => compactText floatText item :: itemTexts floatText items

def fieldTexts (floatText : Rat → List Char) : List (String × Json) → List (List Char)
  | [] => []
  | (name, v) :: fields =>
    (quoted name.toList ++ ':' :: compactText floatText v) :: fieldTexts floatText fields

end

end Json

/-! ### Envelopes -/

/-- The fields of an envelope in the order in which they are written. -/
def ControlEnvelope.toValue (envelope : ControlEnvelope) : Json :=
  TypedEnvelope.toValue (fun payload => payload)
    ⟨envelope.v, envelope.id, envelope.messageType, envelope.payload⟩

section Writing

variable (toString : Json → List Char)

/-- What a client writes. -/
def writeFrame (envelope : ControlEnvelope) : List UInt8 :=
  writeLine toString envelope.toValue

/-- What the daemon writes. -/
def writeEnvelope (envelope : ControlEnvelope) : List UInt8 :=
  writeLine toString envelope.toValue

end Writing

/-! ### What the clients send -/

def newRequestId (name : String) (nanos : Nat) : String := name ++ "-" ++ nanos.repr

/-- A frame of a client, by what it is made from. -/
inductive ClientFrame where
  | attach (nanos : Nat) (key : SessionKeyWire) (clientVersion : String) (clientKind : ClientKind)
      (pid : Nat) (cwd : Option String)
  | didOpen (nanos : Nat) (leaseId : String) (path : PathBuf) (source : SourceFile)
  | call (nanos : Nat) (leaseId : String) (request : Json)
  | didClose (nanos : Nat) (leaseId uri : String)
  | release (nanos : Nat) (leaseId : String)

/-- The payload of an `Attach`, as `to_value` sorts its fields. -/
def attachPayload (key : SessionKeyWire) (clientVersion : String) (clientKind : ClientKind)
    (pid : Nat) (cwd : Option String) : Json :=
  .obj [
    ("capabilities", .obj [("stream_mode", .arr [StreamMode.muxControl.toValue])]),
    ("client_meta", .obj ([
      ("client_kind", clientKind.toValue),
      ("client_name", .str "lspee_cli"),
      ("client_version", .str clientVersion)] ++
      cwd.toList.map (fun path => ("cwd", .str path)) ++ [
      ("pid", .num pid)])),
    ("session_key", .obj [
      ("config_hash", .str key.configHash),
      ("lsp_id", .str key.lspId),
      ("project_root", .str key.projectRoot)])]

/-- The payload of a `Notify`. -/
def notifyPayload (leaseId : String) (message : Json) : Json :=
  .obj [("lease_id", .str leaseId), ("message", message)]

namespace ClientFrame

def envelope : ClientFrame → ControlEnvelope
  | attach nanos key clientVersion clientKind pid cwd =>
    ⟨protocolVersion, some (newRequestId "attach" nanos), "Attach",
      attachPayload key clientVersion clientKind pid cwd⟩
  | didOpen nanos leaseId path source =>
    ⟨protocolVersion, some (newRequestId "notify-open" nanos), "Notify",
      notifyPayload leaseId (Lspee.didOpen source.uri (languageIdForPath path) source.text)⟩
  | call nanos leaseId request =>
    ⟨protocolVersion, some (newRequestId "call" nanos), "Call",
      .obj [("lease_id", .str leaseId), ("request", request)]⟩
  | didClose nanos leaseId uri =>
    ⟨protocolVersion, some (newRequestId "notify-close" nanos), "Notify",
      notifyPayload leaseId (Lspee.didClose uri)⟩
  | release nanos leaseId =>
    ⟨protocolVersion, some (newRequestId "release" nanos), "Release",
      .obj [("lease_id", .str leaseId)]⟩

end ClientFrame

end Lspee
