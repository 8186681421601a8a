import Lspee.Theory.Merging

/-!
# What a Server Is Started With

Two merges decide with which command a server is started. `resolve` lays the
files over an empty configuration; `load_registry` lays the same files over the
catalog. `resolve_lsp_config` takes the first and fills its gaps from the second.
A gap is an empty value, and an empty value may also be what a file says. It makes
no difference: where a file says it, both merges have it, since an entry has the
same id for both and both keep the last value set (`definition_args`). A value
that no file gives is missing from the first merge and is the catalog's in the
second.

An id that the catalog does not have counts as one with an empty definition
there, which is what `load_registry` makes of it.

## Main definitions

* `PartialLspConfig.overDefinition`: What an entry makes of a definition.
* `LastExplicit`: The values a server is started with.
* `FileSays`: What a file that is read and parsed says.

## Theorems

* `overrideLsp_eq`, `definition_command`: The entries laid over the catalog.
* `resolveLspConfig_cases`: The two ways to a result.
* `last_explicit_of_merges`: The two merges agree.
* `resolving_ends`, `overriding_ends`: What the two read.
* `resolved_last_explicit`: The values a server is started with are the last
  explicit ones.
-/

namespace Lspee

open Layers

/-! ### The catalog -/

/-- What an entry of a file makes of the definition with its id. -/
def PartialLspConfig.overDefinition (lsp : PartialLspConfig) (old : Option LspDefinition) :
    LspDefinition :=
  let entry := old.getD { command := "", args := [], fileExtensions := [], rootMarkers := [] }
  { entry with
    command := lsp.command.getD entry.command
    args := lsp.args.getD entry.args
    fileExtensions := match lsp.initializationOptions with
      | some options =>
        (entry.fileExtensions ++ languageExtensions options).dedup.mergeSort (· ≤ ·)
      | none => entry.fileExtensions }

theorem overrideLsp_eq :
    overrideLsp = layOver PartialLspConfig.entryId PartialLspConfig.overDefinition := rfl

/-- What the files make of the catalog. -/
def overridden (catalog : LanguageRegistry) (ps : List PartialConfig) : LanguageRegistry :=
  (ps.flatMap PartialConfig.lsp).foldl overrideLsp catalog

theorem overridden_cons (catalog : LanguageRegistry) (p : PartialConfig)
    (ps : List PartialConfig) :
    overridden catalog (p :: ps) = overridden (p.lsp.foldl overrideLsp catalog) ps := by
  rw [overridden, List.flatMap_cons, List.foldl_append]
  rfl

theorem overDefinition_command (lsp : PartialLspConfig) (old : Option LspDefinition) :
    (lsp.overDefinition old).command = lsp.command.getD (old.elim "" LspDefinition.command) := by
  cases old <;> rfl

theorem overDefinition_args (lsp : PartialLspConfig) (old : Option LspDefinition) :
    (lsp.overDefinition old).args = lsp.args.getD (old.elim [] LspDefinition.args) := by
  cases old <;> rfl

theorem definition_command (catalog : LanguageRegistry) (ps : List PartialConfig) (id : String)
    (definition : LspDefinition) (h : (overridden catalog ps).get? id = some definition) :
    definition.command = (lastSet PartialLspConfig.command (entriesFor id ps)).getD
      ((catalog.get? id).elim "" LspDefinition.command) := by
  rw [overridden, overrideLsp_eq] at h
  exact foldl_layOver_field _ _ LspDefinition.command "" _ overDefinition_command _ _ id _ h

/-- An explicitly empty list counts like any other. -/
theorem definition_args (catalog : LanguageRegistry) (ps : List PartialConfig) (id : String)
    (definition : LspDefinition) (h : (overridden catalog ps).get? id = some definition) :
    definition.args = (lastSet PartialLspConfig.args (entriesFor id ps)).getD
      ((catalog.get? id).elim [] LspDefinition.args) := by
  rw [overridden, overrideLsp_eq] at h
  exact foldl_layOver_field _ _ LspDefinition.args [] _ overDefinition_args _ _ id _ h

theorem definition_isSome (catalog : LanguageRegistry) (ps : List PartialConfig) (id : String) :
    ((overridden catalog ps).get? id).isSome ↔
      (catalog.get? id).isSome ∨ entriesFor id ps ≠ [] := by
  rw [overridden, overrideLsp_eq, isSome_foldl_layOver]
  refine or_congr Iff.rfl ?_
  rw [entriesFor, ne_eq, List.filter_eq_nil_iff]
  push Not
  simp only [decide_eq_true_eq]

/-! ### The two merges -/

/-- The values a server is started with: the last explicit ones for its id, or the
    catalog's. -/
structure LastExplicit (catalog : LanguageRegistry) (ps : List PartialConfig) (id : String)
    (c : LspConfig) : Prop where
  command : c.command = (lastSet PartialLspConfig.command (entriesFor id ps)).getD
    ((catalog.get? id).elim "" LspDefinition.command)
  args : c.args = (lastSet PartialLspConfig.args (entriesFor id ps)).getD
    ((catalog.get? id).elim [] LspDefinition.args)
  env : isBlank c.command = false →
    c.env = (lastSet PartialLspConfig.env (entriesFor id ps)).getD Table.empty
  initializationOptions : isBlank c.command = false → c.initializationOptions =
    (lastSet PartialLspConfig.initializationOptions (entriesFor id ps)).getD Table.empty

/-- The command of an entry, its gap filled. -/
def filledCommand (entry : LspConfig) (definition : Option LspDefinition) : String :=
  if isBlank entry.command then (definition.map LspDefinition.command).getD entry.command
  else entry.command

/-- The arguments of an entry, their gap filled. -/
def filledArgs (entry : LspConfig) (definition : Option LspDefinition) : List String :=
  if entry.args.isEmpty then (definition.map LspDefinition.args).getD entry.args else entry.args

/-- What a server is started with by the catalog alone. -/
def catalogConfig (id : String) (definition : LspDefinition) : LspConfig where
  id := id
  command := definition.command
  args := definition.args
  env := Table.empty
  initializationOptions := Table.empty

/-- A result is the merged entry with its gaps filled, if that has a command, or the
    catalog's definition. -/
theorem resolveLspConfig_cases (resolved : ResolvedConfig) (registry : LanguageRegistry)
    (id : String) (c : LspConfig) (h : resolveLspConfig resolved registry id = .ok c) :
    (∃ entry, resolved.merged.lsps.get? id = some entry ∧
      isBlank (filledCommand entry (registry.get? id)) = false ∧
      c = { entry with
        command := filledCommand entry (registry.get? id)
        args := filledArgs entry (registry.get? id) }) ∨
    ∃ definition, registry.get? id = some definition ∧ c = catalogConfig id definition ∧
      ∀ entry, resolved.merged.lsps.get? id = some entry →
        isBlank (filledCommand entry (registry.get? id)) = true := by
  unfold resolveLspConfig EffectiveConfig.lspConfig at h
  cases hentry : resolved.merged.lsps.get? id with
  | none =>
      rw [hentry] at h
      cases hdef : registry.get? id with
      | none =>
          rw [hdef] at h
          exact absurd h (by simp)
      | some definition =>
          rw [hdef] at h
          exact Or.inr ⟨definition, rfl, (Except.ok.inj h).symm, by simp⟩
  | some entry =>
      rw [hentry] at h
      by_cases hblank : isBlank (filledCommand entry (registry.get? id)) = true
      · cases hdef : registry.get? id with
        | none =>
            rw [hdef] at h hblank
            exact absurd ((if_pos hblank).symm.trans h) (by simp)
        | some definition =>
            rw [hdef] at h hblank
            refine Or.inr ⟨definition, rfl, (Except.ok.inj ((if_pos hblank).symm.trans h)).symm, ?_⟩
            intro e he
            rw [Option.some.injEq] at he
            rw [← he]
            exact hblank
      · left
        refine ⟨entry, rfl, Bool.not_eq_true _ ▸ hblank, ?_⟩
        cases hdef : registry.get? id with
        | none =>
            rw [hdef] at h hblank
            exact (Except.ok.inj ((if_neg hblank).symm.trans h)).symm
        | some definition =>
            rw [hdef] at h hblank
            exact (Except.ok.inj ((if_neg hblank).symm.trans h)).symm

theorem merged_isSome_iff (ps : List PartialConfig) (id : String) :
    ((ps.foldl applyPartial defaultConfig).lsps.get? id).isSome ↔ entriesFor id ps ≠ [] := by
  rw [merged_isSome, entriesFor, ne_eq, List.filter_eq_nil_iff]
  push Not
  simp only [defaultConfig, Table.get?_empty, Option.isSome_none, Bool.false_eq_true, false_or,
    List.mem_flatMap, decide_eq_true_eq]
  constructor
  · rintro ⟨p, hp, lsp, hlsp, hid⟩
    exact ⟨lsp, ⟨p, hp, hlsp⟩, hid⟩
  · rintro ⟨lsp, ⟨p, hp, hlsp⟩, hid⟩
    exact ⟨p, hp, lsp, hlsp, hid⟩

section Merges

variable (catalog : LanguageRegistry) (ps : List PartialConfig) (id : String) (entry : LspConfig)
  (definition : LspDefinition)
  (hentry : (ps.foldl applyPartial defaultConfig).lsps.get? id = some entry)
  (hdefinition : (overridden catalog ps).get? id = some definition)

include hentry hdefinition

/-- A blank command is missing, or both merges have it. -/
theorem filledCommand_eq : filledCommand entry (some definition) =
    (lastSet PartialLspConfig.command (entriesFor id ps)).getD
      ((catalog.get? id).elim "" LspDefinition.command) := by
  have hcommand := merged_entry LspConfig.command "" _ over_command defaultConfig ps id entry hentry
  have hcatalog := definition_command catalog ps id definition hdefinition
  unfold filledCommand
  cases hlast : lastSet PartialLspConfig.command (entriesFor id ps) with
  | none =>
      rw [hlast] at hcommand
      have hblank : isBlank entry.command = true := by
        rw [hcommand]
        rfl
      rw [if_pos hblank, Option.map_some, Option.getD_some, hcatalog, hlast]
  | some v =>
      rw [hlast, Option.getD_some] at hcommand hcatalog
      rw [Option.map_some, Option.getD_some, hcommand, hcatalog, ite_self, Option.getD_some]

/-- So are no arguments. -/
theorem filledArgs_eq : filledArgs entry (some definition) =
    (lastSet PartialLspConfig.args (entriesFor id ps)).getD
      ((catalog.get? id).elim [] LspDefinition.args) := by
  have hargs := merged_entry LspConfig.args [] _ over_args defaultConfig ps id entry hentry
  have hcatalog := definition_args catalog ps id definition hdefinition
  unfold filledArgs
  cases hlast : lastSet PartialLspConfig.args (entriesFor id ps) with
  | none =>
      rw [hlast] at hargs
      have hempty : entry.args.isEmpty = true := by
        rw [hargs]
        rfl
      rw [if_pos hempty, Option.map_some, Option.getD_some, hcatalog, hlast]
  | some v =>
      rw [hlast, Option.getD_some] at hargs hcatalog
      rw [Option.map_some, Option.getD_some, hargs, hcatalog, ite_self, Option.getD_some]

end Merges

/-- The files laid over nothing, its gaps filled from the files laid over the
    catalog, is the last explicit value. -/
theorem last_explicit_of_merges (catalog : LanguageRegistry) (ps : List PartialConfig)
    (resolved : ResolvedConfig) (hmerged : resolved.merged = ps.foldl applyPartial defaultConfig)
    (id : String) (c : LspConfig)
    (h : resolveLspConfig resolved (overridden catalog ps) id = .ok c) :
    LastExplicit catalog ps id c := by
  rcases resolveLspConfig_cases resolved _ id c h with
    ⟨entry, hentry, hblank, hc⟩ | ⟨definition, hdefinition, hc, hall⟩
  · rw [hmerged] at hentry
    -- An entry comes from the files, so the second merge has the id as well.
    have hne : entriesFor id ps ≠ [] :=
      (merged_isSome_iff ps id).mp (Option.isSome_of_eq_some hentry)
    have hsome := (definition_isSome catalog ps id).mpr (Or.inr hne)
    rcases Option.isSome_iff_exists.mp hsome with ⟨definition, hdefinition⟩
    rw [hdefinition] at hc
    rw [hc]
    constructor
    · exact filledCommand_eq catalog ps id entry definition hentry hdefinition
    · exact filledArgs_eq catalog ps id entry definition hentry hdefinition
    · exact fun _ =>
        merged_entry LspConfig.env Table.empty _ over_env defaultConfig ps id entry hentry
    · exact fun _ => merged_entry LspConfig.initializationOptions Table.empty _
        over_initializationOptions defaultConfig ps id entry hentry
  · -- with a command the catalog is asked only for an id without entries
    have hnil : isBlank definition.command = false → entriesFor id ps = [] := by
      intro hcommand
      by_contra hne
      have hsome := (merged_isSome_iff ps id).mpr hne
      rcases Option.isSome_iff_exists.mp hsome with ⟨entry, hentry⟩
      have hblank := hall entry (by rw [hmerged]; exact hentry)
      rw [hdefinition, filledCommand_eq catalog ps id entry definition hentry hdefinition,
        ← definition_command catalog ps id definition hdefinition, hcommand] at hblank
      exact absurd hblank (by simp)
    rw [hc]
    constructor
    · exact definition_command catalog ps id definition hdefinition
    · exact definition_args catalog ps id definition hdefinition
    · intro hcommand
      rw [hnil hcommand]
      rfl
    · intro hcommand
      rw [hnil hcommand]
      rfl

/-! ### Reading the files -/

/-- What a file says, if it is there; a file that is there is read and parsed. -/
def FileSays (x : Externals) (fs : FileSystem) (path : PathBuf) : Option PartialConfig → Prop
  | none => fs.pathExists path = false
  | some p => fs.pathExists path = true ∧
      ∃ raw, fs.readToString path = .ok raw ∧ x.tomlFromStr raw = .ok p

theorem loadPartial_of_fileSays (x : Externals) (fs : FileSystem) (path : PathBuf)
    (p : PartialConfig) (h : FileSays x fs path (some p)) : loadPartial x fs path = .ok p := by
  rcases h with ⟨_, raw, hraw, hparsed⟩
  simp only [loadPartial, hraw, hparsed]

/-- A process that has ended has one result. -/
theorem iterate_end {α : Type} (f : α → α) (n m : Nat) (s a b : α) (ha : f a = a) (hb : f b = b)
    (hn : f^[n] s = a) (hm : f^[m] s = b) : a = b := by
  have hle : ∀ n m a b, f a = a → f^[n] s = a → f^[m] s = b → n ≤ m → a = b := by
    intro n m a b ha hn hm hnm
    rw [← Nat.sub_add_cancel hnm, Function.iterate_add_apply, hn, Function.iterate_fixed ha] at hm
    exact hm
  rcases Nat.le_total n m with hnm | hnm
  · exact hle n m a b ha hn hm hnm
  · exact (hle m n b a hb hm hn hnm).symm

section Files

variable (x : Externals) (fs : FileSystem) (root canon : PathBuf)
  (user project : Option PartialConfig)

/-- What follows a layer of `resolve`, whether or not its file is there. -/
theorem resolving_layer (home : Option PathBuf) (merged : EffectiveConfig) (layer : Layer)
    (parsed : Option PartialConfig) (h : FileSays x fs (layer.path home canon) parsed) :
    ∃ n, (Resolving.step x home fs)^[n] (.probe canon merged layer) =
      Resolving.next x canon (parsed.toList.foldl applyPartial merged) layer := by
  cases parsed with
  | none =>
      refine ⟨1, ?_⟩
      simp only [Function.iterate_one, Resolving.step, show fs.pathExists _ = false from h,
        Bool.false_eq_true, if_false]
      rfl
  | some p =>
      refine ⟨2, ?_⟩
      have hload := loadPartial_of_fileSays x fs _ p h
      simp only [Function.iterate_succ, Function.iterate_zero, id_eq, Function.comp_apply,
        Resolving.step, h.1, if_true, hload]
      rfl

/-- `resolve` ends with the two files laid over the defaults. -/
theorem resolving_ends (home : Option PathBuf) (hcanon : fs.canonicalize root = .ok canon)
    (huser : FileSays x fs (userConfigPath home) user)
    (hproject : FileSays x fs (canon.join ["lspee.toml"]) project) :
    ∃ n resolved, (Resolving.step x home fs)^[n] (.start root) = .done (.ok resolved) ∧
      resolved.merged = (user.toList ++ project.toList).foldl applyPartial defaultConfig := by
  rcases resolving_layer x fs canon home defaultConfig .user user huser with ⟨n, hn⟩
  rcases resolving_layer x fs canon home (user.toList.foldl applyPartial defaultConfig) .project
    project hproject with ⟨m, hm⟩
  let merged := project.toList.foldl applyPartial (user.toList.foldl applyPartial defaultConfig)
  refine ⟨m + n + 1, ⟨canon, merged, hashIdentity x canon merged⟩, ?_, List.foldl_append.symm⟩
  have hstart : Resolving.step x home fs (.start root) =
      .probe canon defaultConfig .user := by
    simp only [Resolving.step, hcanon]
  rw [Function.iterate_succ_apply, hstart, Function.iterate_add_apply, hn]
  exact hm

/-- The same for `load_registry`. -/
theorem overriding_layer (home : PathBuf) (registry : LanguageRegistry) (layer : Layer)
    (parsed : Option PartialConfig) (h : FileSays x fs (layer.path (some home) root) parsed) :
    ∃ n, (Overriding.step x (some home) root fs)^[n] (.probe registry layer) =
      Overriding.next (overridden registry parsed.toList) layer := by
  cases parsed with
  | none =>
      refine ⟨1, ?_⟩
      simp only [Function.iterate_one, Overriding.step, show fs.pathExists _ = false from h,
        reduceCtorEq, and_false, Bool.false_eq_true, if_false]
      rfl
  | some p =>
      refine ⟨2, ?_⟩
      have hload := loadPartial_of_fileSays x fs _ p h
      simp only [Function.iterate_succ, Function.iterate_zero, id_eq, Function.comp_apply,
        Overriding.step, reduceCtorEq, and_false, if_false, h.1, if_true, hload, Option.toList_some,
        overridden_cons]
      rfl

theorem overriding_ends (home : PathBuf) (catalog : LanguageRegistry)
    (hcatalog : x.defaultLanguages = .ok catalog)
    (huser : FileSays x fs (userConfigPath (some home)) user)
    (hproject : FileSays x fs (root.join ["lspee.toml"]) project) :
    ∃ n, (Overriding.step x (some home) root fs)^[n] .start =
      .done (.ok (overridden catalog (user.toList ++ project.toList))) := by
  rcases overriding_layer x fs root home catalog .user user huser with ⟨n, hn⟩
  rcases overriding_layer x fs root home (overridden catalog user.toList) .project project
    hproject with ⟨m, hm⟩
  refine ⟨m + n + 1, ?_⟩
  have hstart : Overriding.step x (some home) root fs .start = .probe catalog .user := by
    simp only [Overriding.step, hcatalog]
  rw [Function.iterate_succ_apply, hstart, Function.iterate_add_apply, hn, Overriding.next, hm,
    Overriding.next]
  unfold overridden
  rw [List.flatMap_append, List.foldl_append]

/-- With the files as they are, a server is started with the last explicit values
    for its id, the user's file before the project's, or with the catalog's. The
    two readers of the project's file may know it by different names. -/
theorem resolved_last_explicit (home : PathBuf) (catalog : LanguageRegistry)
    (hcatalog : x.defaultLanguages = .ok catalog) (hcanon : fs.canonicalize root = .ok canon)
    (huser : FileSays x fs (userConfigPath (some home)) user)
    (hproject : FileSays x fs (canon.join ["lspee.toml"]) project)
    (hproject' : FileSays x fs (root.join ["lspee.toml"]) project) (n m : Nat)
    (resolved : ResolvedConfig) (registry : LanguageRegistry)
    (hresolve : (Resolving.step x (some home) fs)^[n] (.start root) = .done (.ok resolved))
    (hload : (Overriding.step x (some home) root fs)^[m] .start = .done (.ok registry))
    (id : String) (c : LspConfig) (h : resolveLspConfig resolved registry id = .ok c) :
    LastExplicit catalog (user.toList ++ project.toList) id c := by
  rcases resolving_ends x fs root canon user project (some home) hcanon huser hproject with
    ⟨n', resolved', hn', hmerged⟩
  have hresolved := iterate_end _ n n' _ _ _ rfl rfl hresolve hn'
  rw [Resolving.done.injEq, Except.ok.injEq] at hresolved
  rcases overriding_ends x fs root user project home catalog hcatalog huser hproject' with
    ⟨m', hm'⟩
  have hregistry := iterate_end _ m m' _ _ _ rfl rfl hload hm'
  rw [Overriding.done.injEq, Except.ok.injEq] at hregistry
  rw [hregistry] at h
  exact last_explicit_of_merges catalog _ resolved (hresolved ▸ hmerged) id c h

end Files

/-! ### An explicitly empty list -/

/-- A project that wants a server of the catalog without its arguments. -/
def emptyArgs : PartialConfig where
  lsp := [⟨some "taplo", none, some [], none, none⟩]
  rootMarkers := none
  workspaceMode := none
  transportFlags := none
  memory := none
  session := none

def emptyArgsText : String := "[[lsp]]\nid = \"taplo\"\nargs = []\n"

def taploCatalog : LanguageRegistry := Table.empty.set "taplo"
  { command := "taplo", args := ["lsp", "stdio"], fileExtensions := ["toml"], rootMarkers := [] }

/-- The parser, the printer and the digest, as they are on this file. -/
def taploExternals : Externals where
  tomlFromStr := fun text =>
    if text = emptyArgsText then .ok emptyArgs else .error "unexpected text"
  tomlToString := fun _ =>
    "root_markers = [\".git\"]\nworkspace_mode = \"single\"\n\n" ++
    "[lsps.taplo]\nid = \"taplo\"\ncommand = \"\"\nargs = []\n\n" ++
    "[lsps.taplo.env]\n\n[lsps.taplo.initialization_options]\n\n" ++
    "[transport_flags]\n\n[memory]\ncheck_interval_ms = 1000\n\n" ++
    "[session]\nidle_ttl_secs = 300\ndaemon_idle_ttl_secs = 1800\n"
  sha256Hex := fun _ => "ea7c43bae86993b1906b45785a1c9f9a347c2a0d9e0d959487e3f5656ec24366"
  defaultLanguages := .ok taploCatalog

def taploRoot : PathBuf := ⟨true, ["project"]⟩

def taploFiles : FileSystem where
  pathExists := fun path => path = taploRoot.join ["lspee.toml"]
  readToString := fun path =>
    if path = taploRoot.join ["lspee.toml"] then .ok emptyArgsText
    else .error "No such file or directory (os error 2)"
  canonicalize := fun path => .ok path

def taploHome : PathBuf := ⟨true, ["home", "user"]⟩

/-- What the server is started with. -/
def taploStarted : Except String LspConfig :=
  match (Resolving.step taploExternals (some taploHome) taploFiles)^[4] (.start taploRoot),
    (Overriding.step taploExternals (some taploHome) taploRoot taploFiles)^[4] .start with
  | .done (.ok resolved), .done (.ok registry) => resolveLspConfig resolved registry "taplo"
  | _, _ => .error "not resolved"

/-- By the catalog's command, and without arguments. -/
theorem resolved_last_explicit_emptyArgs :
    ∃ c, taploStarted = .ok c ∧ c.command = "taplo" ∧ c.args = [] := by
  have hfile : FileSays taploExternals taploFiles (taploRoot.join ["lspee.toml"])
      (some emptyArgs) := ⟨by decide, emptyArgsText, rfl, rfl⟩
  have huser : FileSays taploExternals taploFiles (userConfigPath (some taploHome)) none := by
    unfold FileSays
    decide
  have hlast := resolved_last_explicit taploExternals taploFiles taploRoot taploRoot none
    (some emptyArgs) taploHome taploCatalog rfl rfl huser hfile hfile 4 4 _ _ rfl rfl "taplo" _ rfl
  exact ⟨_, rfl, hlast.command, hlast.args⟩

end Lspee
