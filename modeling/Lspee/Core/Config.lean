import Lspee.Core.Registry
import Lspee.Lib.Utf8

/-!
# Configuration

How a configuration comes about, and what identifies it. The defaults, the user's
file and the project's file are merged, the later over the earlier, and the
identity of the result is a digest of the project root and of the text the merged
configuration is written as. The daemon completes the configuration of a language
server from a catalog, over which it lays the same two files once more.

Reading a file is looking whether it is there and then reading it, and between
any two of these the files may have been changed. So `resolve` and
`load_registry` are given as the steps they consist of, each a function of the
file system as it is then.

The parser and the printer of `toml`, the digest of `sha2` and the built-in
catalog are parameters.

## Main definitions

* `EffectiveConfig`, `PartialConfig`, `LspConfig`: Configurations.
* `defaultConfig`, `applyPartial`, `hashIdentity`: Merging, and identity.
* `FileSystem`: What reading files gives at some time.
* `Resolving`: How far a call of `resolve` has come.
* `Overriding`: How far a call of `load_registry` has come.
* `resolveLspConfig`: The configuration a server is started with.
-/

namespace Lspee

/-- A path below another. -/
def PathBuf.join (path : PathBuf) (names : List String) : PathBuf :=
  { path with components := path.components ++ names }

/-- `Path::extension`: what follows the last dot of the file's name, unless the
    name begins there. -/
def PathBuf.extension (path : PathBuf) : Option String :=
  match path.components.getLast? with
  | none => none
  | some ".." => none
  | some name =>
    match name.toList.reverse.dropWhile (· ≠ '.') with
    | [] => none
    | [_] => none
    | _ :: _ => some (String.ofList (name.toList.reverse.takeWhile (· ≠ '.')).reverse)

/-- `Path::parent`. -/
def PathBuf.parent (path : PathBuf) : Option PathBuf :=
  if path.components = [] then none
  else some { path with components := path.components.dropLast }

inductive ConfigError where
  | read (path : PathBuf) (source : String)
  | parse (path : PathBuf) (source : String)
  | canonicalize (path : PathBuf) (source : String)
deriving DecidableEq

def ConfigError.display : ConfigError → String
  | .read path source => "failed to read " ++ path.display ++ ": " ++ source
  | .parse path source => "failed to parse TOML " ++ path.display ++ ": " ++ source
  | .canonicalize path source => "failed to canonicalize root " ++ path.display ++ ": " ++ source

/-- A TOML value; a float by its bits. -/
inductive TomlValue where
  | string (s : String)
  | integer (n : Int)
  | float (bits : UInt64)
  | boolean (b : Bool)
  | datetime (text : String)
  | array (items : List TomlValue)
  | table (fields : List (String × TomlValue))

structure LspConfig where
  id : String
  command : String
  args : List String
  env : Table String String
  initializationOptions : Table String TomlValue

structure MemoryConfig where
  maxSessionMb : Option Nat
  maxTotalMb : Option Nat
  checkIntervalMs : Nat
deriving DecidableEq

structure SessionConfig where
  idleTtlSecs : Nat
  daemonIdleTtlSecs : Option Nat
deriving DecidableEq

structure EffectiveConfig where
  lsps : Table String LspConfig
  rootMarkers : List String
  workspaceMode : String
  transportFlags : Table String String
  memory : MemoryConfig
  session : SessionConfig

def EffectiveConfig.lspConfig (config : EffectiveConfig) (id : String) : Option LspConfig :=
  config.lsps.get? id

structure PartialLspConfig where
  id : Option String
  command : Option String
  args : Option (List String)
  env : Option (Table String String)
  initializationOptions : Option (Table String TomlValue)

structure PartialMemoryConfig where
  maxSessionMb : Option Nat
  maxTotalMb : Option Nat
  checkIntervalMs : Option Nat

structure PartialSessionConfig where
  idleTtlSecs : Option Nat
  daemonIdleTtlSecs : Option Nat

/-- What a configuration file says. -/
structure PartialConfig where
  lsp : List PartialLspConfig
  rootMarkers : Option (List String)
  workspaceMode : Option String
  transportFlags : Option (Table String String)
  memory : Option PartialMemoryConfig
  session : Option PartialSessionConfig

structure ResolvedConfig where
  projectRoot : PathBuf
  merged : EffectiveConfig
  configHash : String

/-! ### Merging -/

def defaultConfig : EffectiveConfig where
  lsps := Table.empty
  rootMarkers := [".git"]
  workspaceMode := "single"
  transportFlags := Table.empty
  memory := { maxSessionMb := none, maxTotalMb := none, checkIntervalMs := 1000 }
  session := { idleTtlSecs := 300, daemonIdleTtlSecs := some 1800 }

/-- An entry of a file, laid over the entry with its id. -/
def applyPartialLsp (lsps : Table String LspConfig) (lsp : PartialLspConfig) :
    Table String LspConfig :=
  let id := lsp.id.getD "default"
  let entry := (lsps.get? id).getD
    { id := id, command := "", args := [], env := Table.empty,
      initializationOptions := Table.empty }
  lsps.set id
    { entry with
      command := lsp.command.getD entry.command
      args := lsp.args.getD entry.args
      env := lsp.env.getD entry.env
      initializationOptions := lsp.initializationOptions.getD entry.initializationOptions }

def applyPartialMemory (memory : MemoryConfig) (p : PartialMemoryConfig) : MemoryConfig where
  maxSessionMb := p.maxSessionMb.or memory.maxSessionMb
  maxTotalMb := p.maxTotalMb.or memory.maxTotalMb
  checkIntervalMs := p.checkIntervalMs.getD memory.checkIntervalMs

def applyPartialSession (session : SessionConfig) (p : PartialSessionConfig) : SessionConfig where
  idleTtlSecs := p.idleTtlSecs.getD session.idleTtlSecs
  daemonIdleTtlSecs := p.daemonIdleTtlSecs.or session.daemonIdleTtlSecs

def applyPartial (merged : EffectiveConfig) (p : PartialConfig) : EffectiveConfig where
  lsps := p.lsp.foldl applyPartialLsp merged.lsps
  rootMarkers := p.rootMarkers.getD merged.rootMarkers
  workspaceMode := p.workspaceMode.getD merged.workspaceMode
  transportFlags := p.transportFlags.getD merged.transportFlags
  memory := p.memory.elim merged.memory (applyPartialMemory merged.memory)
  session := p.session.elim merged.session (applyPartialSession merged.session)

/-! ### The catalog -/

structure LspDefinition where
  command : String
  args : List String
  fileExtensions : List String
  rootMarkers : List String

/-- `LanguageRegistryFile`: the definitions by id. -/
abbrev LanguageRegistry := Table String LspDefinition

structure LspSelection where
  id : String
  command : String
  args : List String
  rootMarkers : List String

/-- The file extensions that an entry's initialization options name. -/
def languageExtensions (options : Table String TomlValue) : List String :=
  options.entries.filterMap (fun option =>
    if "language_extension_".toList.isPrefixOf option.1.toList then
      some (String.ofList (option.1.toList.drop "language_extension_".length))
    else none)

/-- An entry of a file, laid over the definition with its id. A set of extensions
    is listed in order. -/
def overrideLsp (registry : LanguageRegistry) (lsp : PartialLspConfig) : LanguageRegistry :=
  let id := lsp.id.getD "default"
  let entry := (registry.get? id).getD
    { command := "", args := [], fileExtensions := [], rootMarkers := [] }
  registry.set id
    { entry with
      command := lsp.command.getD entry.command
      args := lsp.args.getD entry.args
      fileExtensions := match lsp.initializationOptions with
        | some options =>
          (entry.fileExtensions ++ languageExtensions options).dedup.mergeSort (· ≤ ·)
        | none => entry.fileExtensions }

def selectionFromDefinition (id : String) (definition : LspDefinition) : LspSelection where
  id := id
  command := definition.command
  args := definition.args
  rootMarkers := definition.rootMarkers

def isBlank (text : String) : Bool := (Utf8.trim text.toList).isEmpty

/-- What the daemon starts for an id: the merged entry, its gaps filled in from
    the catalog, or what the catalog has. -/
def resolveLspConfig (resolved : ResolvedConfig) (registry : LanguageRegistry)
    (requestedLspId : String) : Except String LspConfig :=
  let catalog := (registry.get? requestedLspId).map (selectionFromDefinition requestedLspId)
  let fallback : Except String LspConfig := match catalog with
    | some selection => .ok
      { id := requestedLspId, command := selection.command, args := selection.args,
        env := Table.empty, initializationOptions := Table.empty }
    | none => .error ("no command found for lsp id '" ++ requestedLspId ++
      "'. add a [[lsp]] entry or install the server")
  match resolved.merged.lspConfig requestedLspId with
  | none => fallback
  | some projectLsp =>
    let command := if isBlank projectLsp.command then
        (catalog.map LspSelection.command).getD projectLsp.command
      else projectLsp.command
    let args := if projectLsp.args.isEmpty then
        (catalog.map LspSelection.args).getD projectLsp.args
      else projectLsp.args
    if isBlank command then fallback else .ok { projectLsp with command := command, args := args }

/-! ### Reading -/

/-- What the file system gives at some time. -/
structure FileSystem where
  pathExists : PathBuf → Bool
  readToString : PathBuf → Except String String
  canonicalize : PathBuf → Except String PathBuf

/-- What is not this repository's: the parser and the printer of TOML, SHA-256 in
    hexadecimal, and the catalog that is built in. -/
structure Externals where
  tomlFromStr : String → Except String PartialConfig
  tomlToString : EffectiveConfig → String
  sha256Hex : List UInt8 → String
  defaultLanguages : Except String LanguageRegistry

section Reading

variable (x : Externals)

/-- The digest of the root, a zero byte and the text of the configuration. -/
def hashIdentity (projectRoot : PathBuf) (mergedConfig : EffectiveConfig) : String :=
  x.sha256Hex (Utf8.encode projectRoot.display.toList ++
    [0] ++ Utf8.encode (x.tomlToString mergedConfig).toList)

/-- A file that was seen to be there, read and parsed. -/
def loadPartial (fs : FileSystem) (path : PathBuf) : Except ConfigError PartialConfig :=
  match fs.readToString path with
  | .error source => .error (.read path source)
  | .ok raw =>
    match x.tomlFromStr raw with
    | .error source => .error (.parse path source)
    | .ok parsed => .ok parsed

/-- The two files, in the order in which they are read. -/
inductive Layer where
  | user
  | project
deriving DecidableEq, Repr

/-- `HOME/.config/lspee/config.toml`. -/
def userConfigPath (home : Option PathBuf) : PathBuf :=
  (home.getD ⟨false, ["~"]⟩).join [".config", "lspee", "config.toml"]

def Layer.path (home : Option PathBuf) (projectRoot : PathBuf) : Layer → PathBuf
  | .user => userConfigPath home
  | .project => projectRoot.join ["lspee.toml"]

/-- How far a call of `resolve` has come: before a look whether a file is there,
    before its reading, or over. -/
inductive Resolving where
  | start (root : PathBuf)
  | probe (projectRoot : PathBuf) (merged : EffectiveConfig) (layer : Layer)
  | read (projectRoot : PathBuf) (merged : EffectiveConfig) (layer : Layer)
  | done (result : Except ConfigError ResolvedConfig)

namespace Resolving

/-- What follows a layer. -/
def next (projectRoot : PathBuf) (merged : EffectiveConfig) : Layer → Resolving
  | .user => .probe projectRoot merged .project
  | .project => .done (.ok
    { projectRoot := projectRoot, merged := merged,
      configHash := hashIdentity x projectRoot merged })

def step (home : Option PathBuf) (fs : FileSystem) : Resolving → Resolving
  | .start root =>
    match fs.canonicalize root with
    | .error source => .done (.error (.canonicalize root source))
    | .ok projectRoot => .probe projectRoot defaultConfig .user
  | .probe projectRoot merged layer =>
    if fs.pathExists (layer.path home projectRoot) then .read projectRoot merged layer
    else next x projectRoot merged layer
  | .read projectRoot merged layer =>
    match loadPartial x fs (layer.path home projectRoot) with
    | .error error => .done (.error error)
    | .ok parsed => next x projectRoot (applyPartial merged parsed) layer
  | .done result => .done result

end Resolving

/-- How far a call of `load_registry` has come. -/
inductive Overriding where
  | start
  | probe (registry : LanguageRegistry) (layer : Layer)
  | read (registry : LanguageRegistry) (layer : Layer)
  | done (result : Except ConfigError LanguageRegistry)

namespace Overriding

/-- The path of the catalog in the source tree, which an error names. -/
def catalogPath : PathBuf :=
  ⟨false, ["crates", "lspee_config", "defaults", "languages.toml"]⟩

/-- What follows a layer. -/
def next (registry : LanguageRegistry) : Layer → Overriding
  | .user => .probe registry .project
  | .project => .done (.ok registry)

/-- One step for a project root. Without a home there is no user's file. -/
def step (home : Option PathBuf) (projectRoot : PathBuf) (fs : FileSystem) :
    Overriding → Overriding
  | .start =>
    match x.defaultLanguages with
    | .error source => .done (.error (.parse catalogPath source))
    | .ok registry => .probe registry .user
  | .probe registry layer =>
    if layer = .user ∧ home = none then next registry layer
    else if fs.pathExists (layer.path home projectRoot) then .read registry layer
    else next registry layer
  | .read registry layer =>
    match loadPartial x fs (layer.path home projectRoot) with
    | .error error => .done (.error error)
    | .ok parsed => next (parsed.lsp.foldl overrideLsp registry) layer
  | .done result => .done result

end Overriding

end Reading

end Lspee
