import Lspee.Core.Registry
import Lspee.Core.Stream

/-!
# Context Lines

What the `do` command adds to the locations a server answers with: the text of the
line a location starts at. A result is one location or an array of them, in one of
two formats, and what is not a location is left alone.

The `url` crate is a parameter, and so are the files: what a file that opens gives
to its reader, and whether reading it ends or fails there. Reading the next line
of a file goes on behind one that is no UTF-8, so such a line counts as the others
do. The line number of a location is a `u64`, and that of the reader is a `u32`.

## Main definitions

* `uriToPath`: The path of a `file` URI.
* `readContextLine`: One line of a file.
* `enrichSingleLocation`, `enrichLocations`: The result with its context lines.
-/

namespace Lspee

open Utf8

/-- What is used of the `url` crate. -/
structure UrlCrate (Url Path : Type) where
  parse : String → Option Url
  scheme : Url → String
  toFilePath : Url → Option Path

/-- A file that is open: its bytes, and how reading ends behind the last one. -/
structure OpenFile where
  bytes : List UInt8
  ending : Ending

/-! ### Values -/

/-- `Map::insert`, for fields in the order of their keys. -/
def insertField (key : String) (value : Json) : List (String × Json) → List (String × Json)
  | [] => [(key, value)]
  | (other, field) :: rest =>
    if key = other then (key, value) :: rest
    else if key < other then (key, value) :: (other, field) :: rest
    else (other, field) :: insertField key value rest

/-- `location[key] = value`. It panics for a value that is neither an object nor null,
    and no such value gets here. -/
def Json.set (location : Json) (key : String) (value : Json) : Json :=
  match location with
  | .obj fields => .obj (insertField key value fields)
  | .null => .obj [(key, value)]
  | other => other

/-! ### Lines of a file -/

/-- `Lines::next`: the next line, which has no text when it is no UTF-8 or when
    reading fails, and the bytes behind it. -/
def nextFileLine (file : OpenFile) : Option (Option (List Char) × OpenFile) :=
  match splitLine file.bytes, file.ending with
  | (line, some rest), _ =>
    some ((decode line).map stripCarriageReturn, { file with bytes := rest })
  | (_, none), .error => some (none, { file with bytes := [] })
  | (line, none), .eof =>
    if line = [] then none else some (decode line, { file with bytes := [] })

/-- `Iterator::nth` of the lines. -/
def nthLine : Nat → OpenFile → Option (Option (List Char))
  | 0, file => (nextFileLine file).map Prod.fst
  | n + 1, file =>
    match nextFileLine file with
    | none => none
    | some (_, file) => nthLine n file

section Files

variable {Url Path : Type} (x : UrlCrate Url Path) (files : Path → Option OpenFile)

def uriToPath (uri : String) : Option Path :=
  match x.parse uri with
  | none => none
  | some parsed => if x.scheme parsed ≠ "file" then none else x.toFilePath parsed

/-- The line with this number, as `read_context_line` finds it. -/
def readContextLine (path : Path) (line : Nat) : Option (List Char) :=
  match files path with
  | none => none
  | some file => (nthLine line file).join

/-! ### Locations -/

/-- `line as u32`. -/
def castU32 (line : Nat) : Nat := line % 2 ^ 32

/-- The line at which a range starts, for the range under this key. -/
def startLine (location : Json) (range : String) : Option Nat :=
  (((location.get range).bind (·.get "start")).bind (·.get "line")).bind Json.asU64

/-- The body that the two formats share. -/
def setContextLine (location : Json) (uri : String) (line : Nat) : Json :=
  match uriToPath x uri with
  | none => location
  | some path =>
    match readContextLine files path (castU32 line) with
    | none => location
    | some context => location.set "context_line" (.str (String.ofList context))

def enrichSingleLocation (location : Json) : Json :=
  match (location.get "uri").bind Json.asStr, startLine location "range" with
  | some uri, some line => setContextLine x files location uri line
  | _, _ =>
    match (location.get "targetUri").bind Json.asStr, startLine location "targetRange" with
    | some uri, some line => setContextLine x files location uri line
    | _, _ => location

def enrichLocations (result : Json) : Json :=
  match result with
  | .arr items => .arr (items.map (enrichSingleLocation x files))
  | .obj fields => enrichSingleLocation x files (.obj fields)
  | other => other

end Files

end Lspee
