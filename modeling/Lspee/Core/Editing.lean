import Lspee.Core.Config

/-!
# Editing the Project's File

`config add-lsp`, which writes an entry for a server into `lspee.toml`, and what
`resolve` reads in a file.

The file is edited as a document, and read as a `PartialConfig`. A document is
what the text says before any field has a meaning: the tables under `lsp`, and a
value for every other key. `readDocument` is the deserialization that the
`PartialConfig` types derive. Reading and printing texts is not this repository's
and a parameter.

A command that finds something else than an array of tables under `lsp` panics,
which is an error here.

## Main definitions

* `LspItem`, `TomlDocument`: A document.
* `readLspEntry`, `readDocument`: What it says.
* `TomlEdit`: The parser and the printer of documents.
* `AddLspCommand`, `addLsp`: The edit.
* `runAddLsp`: The command.
-/

namespace Lspee

/-- A table of a document. -/
abbrev TomlTable := Table String TomlValue

/-- What a document has under `lsp`. -/
inductive LspItem where
  | missing
  | tables (entries : List TomlTable)
  | value (v : TomlValue)

structure TomlDocument where
  lsp : LspItem
  rest : TomlTable

namespace TomlValue

def asStr : TomlValue → Option String
  | .string s => some s
  | _ => none

/-! ### Deserialization -/

/-- The fields of what can be read as a map. A date is a map with one field, of a name
    that is reserved for it. -/
def mapFields : TomlValue → Option (List (String × TomlValue))
  | .table fields => some fields
  | .datetime text => some [("$__toml_private_datetime", .string text)]
  | _ => none

/-- A table; of two equal keys there is none in a document. -/
def readTable (v : TomlValue) : Option TomlTable :=
  v.mapFields.map (fun fields =>
    fields.foldl (fun m field => m.set field.1 field.2) Table.empty)

def readStrings : TomlValue → Option (List String)
  | .array items => items.mapM asStr
  | _ => none

def readStringMap (v : TomlValue) : Option (Table String String) := do
  let fields ← v.mapFields
  let pairs ← fields.mapM (fun field => field.2.asStr.map (Prod.mk field.1))
  return pairs.foldl (fun m field => m.set field.1 field.2) Table.empty

def readU64 : TomlValue → Option Nat
  | .integer n => if 0 ≤ n then some n.toNat else none
  | _ => none

end TomlValue

/-- An optional field: it may be missing, but not of another type. -/
def readField {α : Type} (read : TomlValue → Option α) (table : TomlTable) (key : String) :
    Option (Option α) :=
  match table.get? key with
  | none => some none
  | some v => (read v).map some

def readLspEntry (table : TomlTable) : Option PartialLspConfig := do
  let id ← readField TomlValue.asStr table "id"
  let command ← readField TomlValue.asStr table "command"
  let args ← readField TomlValue.readStrings table "args"
  let env ← readField TomlValue.readStringMap table "env"
  let initializationOptions ← readField TomlValue.readTable table "initialization_options"
  return { id, command, args, env, initializationOptions }

/-- A field by its place. A record that is written as an array has its fields in their
    order, and all of them. -/
def readPlace {α : Type} (read : TomlValue → Option α) (items : List TomlValue) (place : Nat) :
    Option (Option α) :=
  items[place]?.bind (fun v => (read v).map some)

def readLspValue : TomlValue → Option PartialLspConfig
  | .array items => do
    let id ← readPlace TomlValue.asStr items 0
    let command ← readPlace TomlValue.asStr items 1
    let args ← readPlace TomlValue.readStrings items 2
    let env ← readPlace TomlValue.readStringMap items 3
    let initializationOptions ← readPlace TomlValue.readTable items 4
    return { id, command, args, env, initializationOptions }
  | v => v.readTable.bind readLspEntry

def readMemory : TomlValue → Option PartialMemoryConfig
  | .array items => do
    let maxSessionMb ← readPlace TomlValue.readU64 items 0
    let maxTotalMb ← readPlace TomlValue.readU64 items 1
    let checkIntervalMs ← readPlace TomlValue.readU64 items 2
    return { maxSessionMb, maxTotalMb, checkIntervalMs }
  | v => do
    let table ← v.readTable
    let maxSessionMb ← readField TomlValue.readU64 table "max_session_mb"
    let maxTotalMb ← readField TomlValue.readU64 table "max_total_mb"
    let checkIntervalMs ← readField TomlValue.readU64 table "check_interval_ms"
    return { maxSessionMb, maxTotalMb, checkIntervalMs }

def readSession : TomlValue → Option PartialSessionConfig
  | .array items => do
    let idleTtlSecs ← readPlace TomlValue.readU64 items 0
    let daemonIdleTtlSecs ← readPlace TomlValue.readU64 items 1
    return { idleTtlSecs, daemonIdleTtlSecs }
  | v => do
    let table ← v.readTable
    let idleTtlSecs ← readField TomlValue.readU64 table "idle_ttl_secs"
    let daemonIdleTtlSecs ← readField TomlValue.readU64 table "daemon_idle_ttl_secs"
    return { idleTtlSecs, daemonIdleTtlSecs }

def readLsp : LspItem → Option (List PartialLspConfig)
  | .missing => some []
  | .tables entries => entries.mapM readLspEntry
  | .value (.array items) => items.mapM readLspValue
  | .value _ => none

/-- What a document says as a configuration, if it is one. -/
def readDocument (doc : TomlDocument) : Option PartialConfig := do
  let lsp ← readLsp doc.lsp
  let rootMarkers ← readField TomlValue.readStrings doc.rest "root_markers"
  let workspaceMode ← readField TomlValue.asStr doc.rest "workspace_mode"
  let transportFlags ← readField TomlValue.readStringMap doc.rest "transport_flags"
  let memory ← readField readMemory doc.rest "memory"
  let session ← readField readSession doc.rest "session"
  return { lsp, rootMarkers, workspaceMode, transportFlags, memory, session }

/-! ### Editing -/

/-- `lspee config add-lsp`; the root is the project's. -/
structure AddLspCommand where
  id : String
  command : String
  args : Option (List String)

def toTomlArray (items : List String) : TomlValue := .array (items.map TomlValue.string)

/-- The tables under `lsp`. -/
def ensureLspArray (doc : TomlDocument) : Except String (List TomlTable) :=
  match doc.lsp with
  | .missing => .ok []
  | .tables entries => .ok entries
  | .value _ => .error "lsp should be an array of tables"

/-- The command, and the arguments if there are any, of an entry that is there. -/
def updateEntry (cmd : AddLspCommand) (entry : TomlTable) : TomlTable :=
  let entry := entry.set "command" (.string cmd.command)
  match cmd.args with
  | some args => entry.set "args" (toTomlArray args)
  | none => entry

def newEntry (cmd : AddLspCommand) : TomlTable :=
  ((Table.empty.set "id" (.string cmd.id)).set "command" (.string cmd.command)).set "args"
    (toTomlArray (cmd.args.getD []))

/-- The entry is the one for this id. -/
def hasId (id : String) (entry : TomlTable) : Bool :=
  (entry.get? "id").bind TomlValue.asStr == some id

/-- The first entry with the id is updated; the result is `none` if there is none. -/
def updateFirst (cmd : AddLspCommand) : List TomlTable → Option (List TomlTable)
  | [] => none
  | entry :: rest =>
    if hasId cmd.id entry then some (updateEntry cmd entry :: rest)
    else (updateFirst cmd rest).map (entry :: ·)

/-- The document with the entry, and what is printed. -/
def addLsp (doc : TomlDocument) (cmd : AddLspCommand) : Except String (TomlDocument × String) :=
  match ensureLspArray doc with
  | .error error => .error error
  | .ok lspArray =>
    match updateFirst cmd lspArray with
    | some entries => .ok ({ doc with lsp := .tables entries }, "updated")
    | none => .ok ({ doc with lsp := .tables (lspArray ++ [newEntry cmd]) }, "added")

/-! ### The command -/

/-- The parser and the printer of documents. -/
structure TomlEdit where
  parse : String → Except String TomlDocument
  print : TomlDocument → String

def emptyDocument : TomlDocument := ⟨.missing, Table.empty⟩

def loadDoc (e : TomlEdit) (fs : FileSystem) (path : PathBuf) : Except String TomlDocument :=
  match fs.readToString path with
  | .error source => .error source
  | .ok content =>
    match e.parse content with
    | .error source => .error ("failed to parse " ++ path.display ++ ": " ++ source)
    | .ok doc => .ok doc

def loadOrCreateDoc (e : TomlEdit) (fs : FileSystem) (path : PathBuf) :
    Except String TomlDocument :=
  if fs.pathExists path then loadDoc e fs path else .ok emptyDocument

/-- A file has been written. -/
def FileSystem.write (fs : FileSystem) (path : PathBuf) (text : String) : FileSystem :=
  { fs with
    pathExists := fun p => if p = path then true else fs.pathExists p
    readToString := fun p => if p = path then .ok text else fs.readToString p }

/-- The command at a root. Whether the file can be written is a choice. -/
def runAddLsp (e : TomlEdit) (fs : FileSystem) (root : PathBuf) (cmd : AddLspCommand)
    (written : Except String Unit) : Except String (FileSystem × String) :=
  match fs.canonicalize root with
  | .error source => .error source
  | .ok projectRoot =>
    let configPath := projectRoot.join ["lspee.toml"]
    match loadOrCreateDoc e fs configPath with
    | .error error => .error error
    | .ok doc =>
      match addLsp doc cmd with
      | .error error => .error error
      | .ok (edited, printed) =>
        match written with
        | .error error => .error error
        | .ok () => .ok (fs.write configPath (e.print edited), printed)

end Lspee
