import Lspee.Core.Json
import Lspee.Lib.Reader
import Lspee.Lib.Utf8
import Mathlib.Data.List.Infix

/-!
# LSP Frames

The base protocol: a header of lines, one of them `Content-Length`, an empty
line, and a body of that many bytes. `read_lsp_frame` reads header lines until
an empty one, then the body, and decodes it as JSON.

Reading awaits input, so what matters is what has been taken at each point.
`frameReader` is `read_lsp_frame` one byte at a time: its state is where the
function stands, with the bytes that `read_line` or `read_exact` has taken and
not yet given back.

`serde_json::from_slice` is a parameter.

## Main definitions

* `parseUsize`: A number as Rust reads it.
* `FrameState`: Where `read_lsp_frame` stands.
* `endLine`: What follows a header line.
* `frameReader`: `read_lsp_frame`.
* `readLspFrame`: A call of it on an input that is all there.
* `encodeLspFrame`: A body with its header.
-/

namespace Lspee

open Utf8

/-- A decimal number below `2 ^ 64`, with an optional plus sign. -/
def parseUsize (text : List Char) : Option Nat :=
  let digits := if text.head? = some '+' then text.tail else text
  if digits ≠ [] ∧ digits.all Char.isDigit then
    let n := Nat.ofDigitChars 10 digits 0
    if n < 2 ^ 64 then some n else none
  else none

/-- Where `read_lsp_frame` stands: in a header line, with the length read so
    far, or in the body, with the number of bytes that are missing. -/
inductive FrameState where
  | header (line : List UInt8) (contentLength : Option Nat)
  | body (taken : List UInt8) (missing : Nat)
deriving DecidableEq

def contentLengthHeader : List Char := "Content-Length:".toList

/-- The end of a line, which is trimmed. -/
def isLineEnd (c : Char) : Bool := c = '\r' || c = '\n'

variable (fromSlice : List UInt8 → Option Json)

/-- The body is complete. -/
def decodeBody (body : List UInt8) : Fed FrameState Json :=
  match fromSlice body with
  | some payload => .done payload
  | none => .failed

/-- What follows a header line: the next one, or the body. -/
def endLine (line : List UInt8) (contentLength : Option Nat) : Fed FrameState Json :=
  match decode line with
  | none => .failed
  | some text =>
    let text := trimEnd isLineEnd text
    if text = [] then
      match contentLength with
      | none => .failed
      | some 0 => decodeBody fromSlice []
      | some n => .more (.body [] n)
    else if contentLengthHeader <+: text then
      match parseUsize (trim (text.drop contentLengthHeader.length)) with
      | none => .failed
      | some n => .more (.header [] (some n))
    else .more (.header [] contentLength)

/-- One more byte. -/
def feedByte (s : FrameState) (b : UInt8) : Fed FrameState Json :=
  match s with
  | .header line contentLength =>
    if b = newline then endLine fromSlice (line ++ [b]) contentLength
    else .more (.header (line ++ [b]) contentLength)
  | .body taken missing =>
    if missing ≤ 1 then decodeBody fromSlice (taken ++ [b])
    else .more (.body (taken ++ [b]) (missing - 1))

/-- The end of the input. A header that is cut off ends the input, once its last
    line has been looked at; a body that is cut off is an error. -/
def finishFrame : FrameState → Option (List Json)
  | .header [] _ => some []
  | .header line contentLength =>
    match endLine fromSlice line contentLength with
    | .more (.header _ _) => some []
    | .more (.body _ _) => none
    | .done payload => some [payload]
    | .failed => none
  | .body _ _ => none

def frameReader : Reader UInt8 FrameState Json where
  start := .header [] none
  feed := feedByte fromSlice
  finish := finishFrame fromSlice

/-- What one call of `read_lsp_frame` returns on an input that is all there, and
    what it leaves of it. -/
inductive FrameRead where
  | message (payload : Json) (rest : List UInt8)
  | endOfInput
  | failed
deriving DecidableEq

def readLspFrame (input : List UInt8) : FrameRead :=
  match (frameReader fromSlice).poll (frameReader fromSlice).start input with
  | .ready payload rest => .message payload rest
  | .failed => .failed
  | .pending s =>
    match (frameReader fromSlice).finish s with
    | some [] => .endOfInput
    | some (payload :: _) => .message payload []
    | none => .failed

/-- The header of a body of this length, up to the end of its line. -/
def lengthLine (n : Nat) : List Char := contentLengthHeader ++ ' ' :: Nat.toDigits 10 n

/-- A body with its header. -/
def encodeLspFrame (body : List UInt8) : List UInt8 :=
  asciiBytes (lengthLine body.length) ++ [13, 10, 13, 10] ++ body

end Lspee
