import Lspee.Core.Editing

/-!
# The Commands That Edit the Project's File

`config add-lsp`, `config remove-lsp` and `config set`, on documents that have
kept their shapes. In such a document `memory = { .. }` is a value and `[memory]`
is a table; `lsp = [..]` is a value and `[[lsp]]` an array of tables. The commands
tell the shapes apart, and `resolve` does not: what it reads is the document with
the shapes forgotten (`TomlItems.plain`).

A command ends in a result, in an error, or in a panic. Writing a file may fail,
and leave something else in it than it had.

## Main definitions

* `TomlItem`, `TomlItems`: A document with its shapes.
* `TomlItems.plain`: What `resolve` reads of it.
* `Outcome`: How a command ends.
* `parseTomlValue`: What `config set` takes a text for.
* `addLspItems`, `removeLspItems`, `setItems`: The edits.
* `ConfigAction.run`: The commands.
-/

namespace Lspee

/-- What a document has under a key. -/
inductive TomlItem where
  | value (v : TomlValue)
  | table (t : TomlTable)
  | arrayOfTables (entries : List TomlTable)

/-- A document: the items of its root. -/
abbrev TomlItems := Table String TomlItem

/-- How a command ends. -/
inductive Outcome (α : Type) where
  | ok (a : α)
  | err (error : String)
  | panicked (message : String)

/-! ### What is read -/

def tableValue (t : TomlTable) : TomlValue := .table (t.entries.map (fun e => (e.1, e.2)))

/-- The value of an item, its shape forgotten. -/
def TomlItem.toValue : TomlItem → TomlValue
  | .value v => v
  | .table t => tableValue t
  | .arrayOfTables entries => .array (entries.map tableValue)

def TomlItem.toLspItem : Option TomlItem → LspItem
  | none => .missing
  | some (.arrayOfTables entries) => .tables entries
  | some item => .value item.toValue

def TomlItems.plain (doc : TomlItems) : TomlDocument where
  lsp := TomlItem.toLspItem (doc.get? "lsp")
  rest := (doc.erase "lsp").map TomlItem.toValue

/-! ### Values -/

/-- Decimal digits, at least one. -/
def parseDigits (digits : List Char) : Option Nat :=
  if digits.isEmpty then none
  else if digits.all Char.isDigit then
    some (digits.foldl (fun n c => 10 * n + (c.toNat - '0'.toNat)) 0)
  else none

/-- `i64::from_str`: a sign, if there is one, and digits. A number that does not fit
    is none. -/
def parseI64 (s : String) : Option Int :=
  let number : Option Int := match s.toList with
    | '+' :: digits => (parseDigits digits).map Int.ofNat
    | '-' :: digits => (parseDigits digits).map (fun n => -Int.ofNat n)
    | digits => (parseDigits digits).map Int.ofNat
  number.bind (fun n => if -2 ^ 63 ≤ n ∧ n < 2 ^ 63 then some n else none)

def parseBool (s : String) : Option Bool :=
  if s = "true" then some true else if s = "false" then some false else none

def parseTomlValue (s : String) : TomlValue :=
  match parseI64 s with
  | some n => .integer n
  | none =>
    match parseBool s with
    | some b => .boolean b
    | none => .string s

/-- The parts of a key in dotted notation. -/
def splitDots (key : String) : List String := (key.toList.splitOn '.').map String.ofList

/-! ### The edits -/

/-- `lspee config remove-lsp`; the root is the project's. -/
structure RemoveLspCommand where
  id : String

/-- `lspee config set`; the root is the project's. -/
structure SetCommand where
  key : String
  value : String

/-- The tables under `lsp`; another item there is met with a panic. -/
def ensureLspItems (doc : TomlItems) : Outcome (List TomlTable) :=
  match doc.get? "lsp" with
  | none => .ok []
  | some (.arrayOfTables entries) => .ok entries
  | some _ => .panicked "lsp should be an array of tables"

/-- The document with the entry, and what is printed. -/
def addLspItems (doc : TomlItems) (cmd : AddLspCommand) : Outcome (TomlItems × String) :=
  match ensureLspItems doc with
  | .err error => .err error
  | .panicked message => .panicked message
  | .ok lspArray =>
    match updateFirst cmd lspArray with
    | some entries => .ok (doc.set "lsp" (.arrayOfTables entries), "updated")
    | none => .ok (doc.set "lsp" (.arrayOfTables (lspArray ++ [newEntry cmd])), "added")

/-- The loop that removes the entries with the id, from an index on. A removal leaves
    the index where it is. -/
def removeFrom (id : String) (idx : Nat) (lspArray : List TomlTable) : List TomlTable :=
  if h : idx < lspArray.length then
    if hasId id lspArray[idx] then removeFrom id idx (lspArray.eraseIdx idx)
    else removeFrom id (idx + 1) lspArray
  else lspArray
termination_by lspArray.length - idx
decreasing_by
  · rw [List.length_eraseIdx_of_lt h]
    omega
  · omega

/-- The document without the entries with the id; a path is named in the errors. -/
def removeLspItems (configPath : PathBuf) (doc : TomlItems) (cmd : RemoveLspCommand) :
    Outcome (TomlItems × String) :=
  match doc.get? "lsp" with
  | none => .err ("no [[lsp]] entries in " ++ configPath.display)
  | some (.arrayOfTables lspArray) =>
    let left := removeFrom cmd.id 0 lspArray
    if left.length = lspArray.length then
      .err ("no [[lsp]] entry with id '" ++ cmd.id ++ "' found")
    else .ok (doc.set "lsp" (.arrayOfTables left), "removed")
  | some _ => .err ("lsp is not an array of tables in " ++ configPath.display)

/-- The document with the value at the key. A section that is missing is made. -/
def setItems (doc : TomlItems) (cmd : SetCommand) : Outcome (TomlItems × String) :=
  let printed := "set " ++ cmd.key ++ "=" ++ cmd.value
  match splitDots cmd.key with
  | [name, key] =>
    match (doc.get? name).getD (.table Table.empty) with
    | .table table =>
      .ok (doc.set name (.table (table.set key (parseTomlValue cmd.value))), printed)
    | _ => .err ("'" ++ name ++ "' is not a table in lspee.toml")
  | [key] => .ok (doc.set key (.value (parseTomlValue cmd.value)), printed)
  | _ => .err ("unsupported key depth: '" ++ cmd.key ++
      "'. Use section.key format (e.g. session.idle_ttl_secs)")

/-! ### The commands -/

/-- The parser and the printer of documents with their shapes. -/
structure TomlSyntax where
  parse : String → Except String TomlItems
  print : TomlItems → String

/-- What becomes of writing a file. A failure may leave another text there. -/
inductive Writing where
  | succeeds
  | fails (source : String) (left : Option String)

namespace TomlSyntax

variable (t : TomlSyntax)

def loadDoc (fs : FileSystem) (path : PathBuf) : Except String TomlItems :=
  match fs.readToString path with
  | .error source => .error source
  | .ok content =>
    match t.parse content with
    | .error source => .error ("failed to parse " ++ path.display ++ ": " ++ source)
    | .ok doc => .ok doc

def loadOrCreateDoc (fs : FileSystem) (path : PathBuf) : Except String TomlItems :=
  if fs.pathExists path then t.loadDoc fs path else .ok Table.empty

/-- The end of every command: the edited document is written, and a line printed. -/
def finish (fs : FileSystem) (path : PathBuf) (writing : Writing) :
    Outcome (TomlItems × String) → FileSystem × Outcome String
  | .ok (doc, printed) =>
    match writing with
    | .succeeds => (fs.write path (t.print doc), .ok printed)
    | .fails source none => (fs, .err source)
    | .fails source (some left) => (fs.write path left, .err source)
  | .err error => (fs, .err error)
  | .panicked message => (fs, .panicked message)

def runAddLsp (fs : FileSystem) (root : PathBuf) (cmd : AddLspCommand) (writing : Writing) :
    FileSystem × Outcome String :=
  match fs.canonicalize root with
  | .error source => (fs, .err source)
  | .ok projectRoot =>
    let configPath := projectRoot.join ["lspee.toml"]
    match t.loadOrCreateDoc fs configPath with
    | .error error => (fs, .err error)
    | .ok doc => t.finish fs configPath writing (addLspItems doc cmd)

def runRemoveLsp (fs : FileSystem) (root : PathBuf) (cmd : RemoveLspCommand)
    (writing : Writing) : FileSystem × Outcome String :=
  match fs.canonicalize root with
  | .error source => (fs, .err source)
  | .ok projectRoot =>
    let configPath := projectRoot.join ["lspee.toml"]
    if fs.pathExists configPath then
      match t.loadDoc fs configPath with
      | .error error => (fs, .err error)
      | .ok doc => t.finish fs configPath writing (removeLspItems configPath doc cmd)
    else (fs, .err ("no lspee.toml found at " ++ configPath.display))

def runSet (fs : FileSystem) (root : PathBuf) (cmd : SetCommand) (writing : Writing) :
    FileSystem × Outcome String :=
  match fs.canonicalize root with
  | .error source => (fs, .err source)
  | .ok projectRoot =>
    let configPath := projectRoot.join ["lspee.toml"]
    match t.loadOrCreateDoc fs configPath with
    | .error error => (fs, .err error)
    | .ok doc => t.finish fs configPath writing (setItems doc cmd)

end TomlSyntax

/-- The commands that edit the file. -/
inductive ConfigAction where
  | addLsp (cmd : AddLspCommand)
  | removeLsp (cmd : RemoveLspCommand)
  | set (cmd : SetCommand)

def ConfigAction.run (t : TomlSyntax) (fs : FileSystem) (root : PathBuf) (writing : Writing) :
    ConfigAction → FileSystem × Outcome String
  | .addLsp cmd => t.runAddLsp fs root cmd writing
  | .removeLsp cmd => t.runRemoveLsp fs root cmd writing
  | .set cmd => t.runSet fs root cmd writing

end Lspee
