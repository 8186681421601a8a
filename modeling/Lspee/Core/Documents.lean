import Lspee.Core.Config
import Lspee.Core.Fleet

/-!
# Runs of `lspee do`

Clients that run one request of a language server each, on the fleet of
`Core.Fleet`. A run attaches, opens the file it is about by a `Notify`, makes its
`Call`, closes the file by another `Notify`, and releases its lease. It waits for
the answer to each frame before it sends the next, and goes by what the answer
is: without a lease it ends, and a file it could not open it does not close. One
step of a run takes the answer it waits for and sends the next frame. A run may
stop at any point, as a process may that is killed.

What the file system has is part of the action: the URI of a path, which
`build_request` asks for and `send_did_open` asks for again, and the text of the
file. A path that cannot be resolved ends the run before it attaches, and
`send_did_open` fails without a text.

No other connection sends anything. The registry may be used by others, and by
the daemon itself, and leases may be released and sessions removed at any time.

## Main definitions

* `DoMethod`, `buildRequest`: A method with its arguments, and its request.
* `didOpen`, `didClose`: The two notifications.
* `DoPc`, `DoRun`: How far a run has come.
* `Desk`: The fleet and the runs.
* `DoAction`, `Desk.step`: One step.
-/

namespace Lspee

structure PositionArgs where
  file : PathBuf
  line : Nat
  col : Nat

structure ReferencesArgs where
  position : PositionArgs
  includeDeclaration : Bool

structure RenameArgs where
  position : PositionArgs
  newName : String

structure CodeActionArgs where
  position : PositionArgs
  endLine : Option Nat
  endCol : Option Nat

structure FileOnlyArgs where
  file : PathBuf

structure FormattingArgs where
  file : PathBuf
  tabSize : Nat
  insertSpaces : Bool

structure WorkspaceSymbolArgs where
  query : String

/-- The method to execute, with its arguments. -/
inductive DoMethod where
  | hover (args : PositionArgs)
  | definition (args : PositionArgs)
  | references (args : ReferencesArgs)
  | implementation (args : PositionArgs)
  | typeDefinition (args : PositionArgs)
  | completion (args : PositionArgs)
  | signatureHelp (args : PositionArgs)
  | rename (args : RenameArgs)
  | codeAction (args : CodeActionArgs)
  | formatting (args : FormattingArgs)
  | symbols (args : FileOnlyArgs)
  | workspaceSymbols (args : WorkspaceSymbolArgs)
  | diagnostics (args : FileOnlyArgs)

namespace DoMethod

def filePath : DoMethod → Option PathBuf
  | hover a | definition a | completion a | implementation a | typeDefinition a
  | signatureHelp a => some a.file
  | references a => some a.position.file
  | rename a => some a.position.file
  | codeAction a => some a.position.file
  | formatting a => some a.file
  | symbols a | diagnostics a => some a.file
  | workspaceSymbols _ => none

def lspMethodName : DoMethod → String
  | hover _ => "textDocument/hover"
  | definition _ => "textDocument/definition"
  | references _ => "textDocument/references"
  | implementation _ => "textDocument/implementation"
  | typeDefinition _ => "textDocument/typeDefinition"
  | completion _ => "textDocument/completion"
  | signatureHelp _ => "textDocument/signatureHelp"
  | rename _ => "textDocument/rename"
  | codeAction _ => "textDocument/codeAction"
  | formatting _ => "textDocument/formatting"
  | symbols _ => "textDocument/documentSymbol"
  | workspaceSymbols _ => "workspace/symbol"
  | diagnostics _ => "textDocument/diagnostic"

end DoMethod

def languageIdForExtension : String → String
  | "rs" => "rust"
  | "ts" => "typescript"
  | "tsx" => "typescriptreact"
  | "js" => "javascript"
  | "jsx" => "javascriptreact"
  | "py" => "python"
  | "go" => "go"
  | "toml" => "toml"
  | "json" => "json"
  | "md" => "markdown"
  | "yaml" | "yml" => "yaml"
  | "html" => "html"
  | "css" => "css"
  | _ => "plaintext"

def languageIdForPath (path : PathBuf) : String :=
  (path.extension.map languageIdForExtension).getD "plaintext"

def jsonrpcRequest (method : String) (params : Json) : Json :=
  .obj [("id", .num 1), ("jsonrpc", .str "2.0"), ("method", .str method), ("params", params)]

def jsonPosition (line character : Nat) : Json :=
  .obj [("character", .num character), ("line", .num line)]

def textDocument (uri : String) : Json := .obj [("uri", .str uri)]

/-- The request of a method. `fileUri` is what `file_uri` makes of a path. -/
def buildRequest (fileUri : PathBuf → Except String String) (method : DoMethod) :
    Except String Json :=
  match method with
  | .hover args | .definition args | .completion args | .implementation args
  | .typeDefinition args | .signatureHelp args => do
    let uri ← fileUri args.file
    return jsonrpcRequest method.lspMethodName (.obj [
      ("position", jsonPosition args.line args.col),
      ("textDocument", textDocument uri)])
  | .references args => do
    let uri ← fileUri args.position.file
    return jsonrpcRequest method.lspMethodName (.obj [
      ("context", .obj [("includeDeclaration", .bool args.includeDeclaration)]),
      ("position", jsonPosition args.position.line args.position.col),
      ("textDocument", textDocument uri)])
  | .rename args => do
    let uri ← fileUri args.position.file
    return jsonrpcRequest method.lspMethodName (.obj [
      ("newName", .str args.newName),
      ("position", jsonPosition args.position.line args.position.col),
      ("textDocument", textDocument uri)])
  | .codeAction args => do
    let uri ← fileUri args.position.file
    let endLine := args.endLine.getD args.position.line
    let endCol := args.endCol.getD args.position.col
    return jsonrpcRequest method.lspMethodName (.obj [
      ("context", .obj [("diagnostics", .arr [])]),
      ("range", .obj [
        ("end", jsonPosition endLine endCol),
        ("start", jsonPosition args.position.line args.position.col)]),
      ("textDocument", textDocument uri)])
  | .formatting args => do
    let uri ← fileUri args.file
    return jsonrpcRequest method.lspMethodName (.obj [
      ("options", .obj [
        ("insertSpaces", .bool args.insertSpaces),
        ("tabSize", .num args.tabSize)]),
      ("textDocument", textDocument uri)])
  | .symbols args | .diagnostics args => do
    let uri ← fileUri args.file
    return jsonrpcRequest method.lspMethodName (.obj [("textDocument", textDocument uri)])
  | .workspaceSymbols args =>
    return jsonrpcRequest method.lspMethodName (.obj [("query", .str args.query)])

/-- The message of `send_did_open`. -/
def didOpen (uri languageId text : String) : Json :=
  .obj [("jsonrpc", .str "2.0"), ("method", .str "textDocument/didOpen"),
    ("params", .obj [("textDocument", .obj [
      ("languageId", .str languageId), ("text", .str text), ("uri", .str uri),
      ("version", .num 1)])])]

/-- The message of `send_did_close`. -/
def didClose (uri : String) : Json :=
  .obj [("jsonrpc", .str "2.0"), ("method", .str "textDocument/didClose"),
    ("params", .obj [("textDocument", textDocument uri)])]

/-- What the file system has at a path: its URI, and its text. -/
structure SourceFile where
  uri : String
  text : String

/-- The answer a run waits for: to its `Attach`, its `didOpen`, its `Call`, its
    `didClose`, or its `Release`. -/
inductive DoPc where
  | attaching (call : CallId)
  | opening (leaseId uri : String) (call : CallId)
  | calling (leaseId : String) (didOpenUri : Option String) (call : CallId)
  | closing (leaseId : String) (call : CallId)
  | releasing (call : CallId)
  | returned

/-- A run with the request it has built. -/
structure DoRun where
  method : DoMethod
  request : Json
  pc : DoPc

/-- The fleet, and a run on each of some connections. -/
structure Desk where
  fleet : Fleet
  runs : Table Nat DoRun

/-- What can happen next. -/
inductive DoAction where
  | fleet (a : FleetAction)
  /-- A run connects and attaches. -/
  | begin (n : Nat) (method : DoMethod) (fileUri : PathBuf → Except String String)
      (key : SessionKey) (call : CallId)
  /-- A run goes on. `call` names the request it sends; `file` is what it finds at
      its path. -/
  | go (n : Nat) (call : CallId) (file : Except String SourceFile)

/-- What happens without a client's connection. -/
def FleetAction.ofDaemon : FleetAction → Bool
  | .request _ _ _ _ _ => false
  | .connect _ _ => false
  | .server _ (.frame _ _ _) => false
  | _ => true

namespace Desk

/-- A daemon that has just started, and no runs. -/
def init (idleTtl : Duration) : Desk where
  fleet := Fleet.init idleTtl
  runs := Table.empty

def setPc (d : Desk) (n : Nat) (run : DoRun) (pc : DoPc) : Desk :=
  { d with runs := d.runs.set n { run with pc := pc } }

/-- The run sends a frame. -/
def send (d : Desk) (n : Nat) (run : DoRun) (a : FleetAction) (pc : DoPc) : Option Desk :=
  (d.fleet.step a).map fun f => { fleet := f, runs := d.runs.set n { run with pc := pc } }

/-- The run makes its call. -/
def call (d : Desk) (n : Nat) (run : DoRun) (leaseId : String) (didOpenUri : Option String)
    (call : CallId) : Option Desk :=
  d.send n run (.request n .call leaseId run.request call) (.calling leaseId didOpenUri call)

/-- `send_did_open`, if the method has a file. Without its text the run goes on to
    its call. -/
def sendDidOpen (d : Desk) (n : Nat) (run : DoRun) (leaseId : String) (call : CallId)
    (file : Except String SourceFile) : Option Desk :=
  match run.method.filePath, file with
  | some path, .ok source =>
    d.send n run
      (.request n .notify leaseId
        (didOpen source.uri (languageIdForPath path) source.text) call)
      (.opening leaseId source.uri call)
  | _, _ => d.call n run leaseId none call

/-- `send_did_close`. -/
def sendDidClose (d : Desk) (n : Nat) (run : DoRun) (leaseId uri : String) (call : CallId) :
    Option Desk :=
  d.send n run (.request n .notify leaseId (didClose uri) call) (.closing leaseId call)

def releaseLease (d : Desk) (n : Nat) (run : DoRun) (leaseId : String) (call : CallId) :
    Option Desk :=
  d.send n run (.world (.start call (.releaseByLeaseId leaseId))) (.releasing call)

/-- A run takes the answer it waits for, and goes on. -/
def go (d : Desk) (n : Nat) (run : DoRun) (c : CallId) (file : Except String SourceFile) :
    Option Desk :=
  match run.pc with
  | .attaching call =>
    match d.fleet.world.calls.get? call with
    | some (.attached lease (some _)) => d.sendDidOpen n run lease.id c file
    | some (.attached _ none) => some (d.setPc n run .returned)
    | some (.acquire _ _ (.returned (.error _))) => some (d.setPc n run .returned)
    | _ => none
  | .opening leaseId uri call =>
    match d.fleet.world.calls.get? call with
    | some (.forward _ _ _ (.returned (.ok (some _)))) => d.call n run leaseId (some uri) c
    | some (.forward _ _ _ (.returned _)) => d.call n run leaseId none c
    | _ => none
  | .calling leaseId didOpenUri call =>
    match d.fleet.world.calls.get? call, didOpenUri with
    | some (.forward _ _ _ (.returned _)), some uri => d.sendDidClose n run leaseId uri c
    | some (.forward _ _ _ (.returned _)), none => d.releaseLease n run leaseId c
    | _, _ => none
  | .closing leaseId call =>
    match d.fleet.world.calls.get? call with
    | some (.forward _ _ _ (.returned _)) => d.releaseLease n run leaseId c
    | _ => none
  | .releasing call =>
    match d.fleet.world.calls.get? call with
    | some (.release _ (.returned _)) => some (d.setPc n run .returned)
    | _ => none
  | .returned => none

/-- A run that has built its request attaches, on a connection of its own. -/
def begin (d : Desk) (n : Nat) (method : DoMethod) (fileUri : PathBuf → Except String String)
    (key : SessionKey) (call : CallId) : Option Desk :=
  match d.runs.get? n, buildRequest fileUri method with
  | none, .ok request =>
    d.send n ⟨method, request, .returned⟩ (.world (.start call (.acquireOrSpawn key (some .agent))))
      (.attaching call)
  | _, _ => none

def step (d : Desk) : DoAction → Option Desk
  | .fleet a => if a.ofDaemon then (d.fleet.step a).map fun f => { d with fleet := f } else none
  | .begin n method fileUri key call => d.begin n method fileUri key call
  | .go n call file =>
    match d.runs.get? n with
    | none => none
    | some run => d.go n run call file

end Desk

end Lspee
