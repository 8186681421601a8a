import Lspee.Core.Config
import Mathlib.Data.String.Basic

/-!
# Which Servers a File Has

`lsps_for_file`, which lists the servers of the catalog whose extensions match a
file, and its two callers. `lspee lsps --file` lays the user's file and an
`lspee.toml` next to the file over the catalog first; `resolve_lsp_id`, which the
`do` command asks when no `--lsp` is given, calls it with neither.

The files do not change during a call. What `PATH` has, and whether there is a
file for a command in one of its directories, is a parameter.

## Main definitions

* `SearchPath.hasExecutable`: Whether a command is found.
* `loadRegistry`: The catalog with the files laid over it.
* `lspsForFile`: The servers for a file.
* `resolveLspId`, `lspsOf`: The two callers.
-/

namespace Lspee

/-- `str::to_ascii_lowercase`. -/
def toAsciiLowercase (s : String) : String := String.ofList (s.toList.map Char.toLower)

def eqIgnoreAsciiCase (s t : String) : Bool := toAsciiLowercase s == toAsciiLowercase t

/-! ### The catalog -/

/-- The directories of `PATH`, if it is set, and whether one has a file for a command. -/
structure SearchPath where
  paths : Option (List PathBuf)
  isFile : PathBuf → String → Bool

def SearchPath.hasExecutable (env : SearchPath) (executable : String) : Bool :=
  if executable = "" then false
  else match env.paths with
    | none => false
    | some paths => paths.any (fun dir => env.isFile dir executable)

/-- An `LspSelection` with `executable_found`. -/
structure LspMatch where
  selection : LspSelection
  executableFound : Bool

def matchFromDefinition (env : SearchPath) (id : String) (definition : LspDefinition) :
    LspMatch where
  selection := selectionFromDefinition id definition
  executableFound := env.hasExecutable definition.command

section Registry

variable (x : Externals) (fs : FileSystem)

def applyOverrides (registry : LanguageRegistry) :
    Option PathBuf → Except ConfigError LanguageRegistry
  | none => .ok registry
  | some path =>
    if fs.pathExists path then
      match loadPartial x fs path with
      | .error error => .error error
      | .ok parsed => .ok (parsed.lsp.foldl overrideLsp registry)
    else .ok registry

def loadRegistry (userConfig projectConfig : Option PathBuf) :
    Except ConfigError LanguageRegistry :=
  match x.defaultLanguages with
  | .error source => .error (.parse Overriding.catalogPath source)
  | .ok registry =>
    match applyOverrides x fs registry userConfig with
    | .error error => .error error
    | .ok registry => applyOverrides x fs registry projectConfig

/-- Whether a definition is for files with this extension. -/
def LspDefinition.hasExtension (definition : LspDefinition) (extension : String) : Bool :=
  definition.fileExtensions.any (fun candidate => eqIgnoreAsciiCase candidate extension)

/-- The definitions for an extension, in the order of their ids. -/
def matchesIn (env : SearchPath) (registry : LanguageRegistry) (extension : String) :
    List LspMatch :=
  ((registry.entries.insertionSort (fun a b => a.1 ≤ b.1)).filter
    (fun e => e.2.hasExtension extension)).map (fun e => matchFromDefinition env e.1 e.2)

def lspsForFile (env : SearchPath) (filePath : PathBuf)
    (userConfig projectConfig : Option PathBuf) : Except ConfigError (List LspMatch) :=
  match filePath.extension.map toAsciiLowercase with
  | none => .ok []
  | some extension =>
    match loadRegistry x fs userConfig projectConfig with
    | .error error => .error error
    | .ok registry => .ok (matchesIn env registry extension)

/-! ### The callers -/

/-- The list of `lspee lsps --file`. A project's file that is missing is not passed on. -/
def lspsOf (env : SearchPath) (home : Option PathBuf) (file : PathBuf) :
    Except ConfigError (List LspMatch) :=
  let userCfg := home.map (fun home => userConfigPath (some home))
  let projectCfg := (file.parent.map (fun parent => parent.join ["lspee.toml"])).filter
    (fun path => fs.pathExists path)
  lspsForFile x fs env file userCfg projectCfg

def selectFromMatches (found : List LspMatch) (file : PathBuf) : Except String String :=
  match found.find? LspMatch.executableFound with
  | some healthy => .ok healthy.selection.id
  | none =>
    match found.head? with
    | some first => .ok first.selection.id
    | none => .error ("no LSP server matches file '" ++ file.display ++
        "'; use --lsp to specify one explicitly")

def resolveLspId (env : SearchPath) (lsp : Option String) (file : Option PathBuf) :
    Except String String :=
  match lsp with
  | some id => .ok id
  | none =>
    match file with
    | none => .error
      "--lsp is required when no --file is provided (needed for workspace-symbols)"
    | some file =>
      match lspsForFile x fs env file none none with
      | .error error => .error ("failed to resolve LSP for file: " ++ error.display)
      | .ok found => selectFromMatches found file

end Registry

end Lspee
