import Lspee.Core.Discovery
import Lspee.Lib.Preference
import Lspee.Lib.Ranking
import Lspee.Theory.Commands
import Lspee.Theory.Precedence
import Mathlib.Data.List.Find

/-!
# The Server That Is Chosen for a File

Whether the server that `do` chooses for a file is the first choice of the list
that `lsps` reports. Both take the first server of the list whose command is
found, or else the first of all. `lsps` lays the user's and the project's file over
the catalog; `resolve_lsp_id` leaves both out, though it is to heed them. So they
agree if and only if the entries of the files make no difference to the choice.

What the entries do to a server is said per id: an option adds an extension, and
the last command given is the command (`matchesFile`, `commandOf`). An entry never
takes an extension away. A server stands higher when it matches and its command is
found than when it only matches. The two commands agree if and only if, with the
entries, no server overtakes the one that the catalog prefers without them, and
none matches where none did (`auto_resolution_agrees_iff`).

## Main definitions

* `matchesFile`, `commandOf`, `standingOf`: How a server stands, by the entries.
* `Undisturbed`: No entry makes a difference to the choice.
* `firstChoice`, `ChosenFrom`: What is to be chosen from a list.

## Theorems

* `overridden_hasExtension`: The extensions after the entries are laid over.
* `firstChoice_matchesIn`: The choice from the list, by standings.
* `loadRegistry_says`: The catalog that `lsps` reads.
* `auto_resolution_agrees_iff`: The condition is exact.
* `auto_resolution_disagrees`: A project on which the two differ.
-/

namespace Lspee

open Layers Preference

/-! ### What the entries say about an id -/

/-- An entry's options name the extension. -/
def PartialLspConfig.addsExtension (lsp : PartialLspConfig) (extension : String) : Bool :=
  lsp.initializationOptions.any (fun options =>
    (languageExtensions options).any (fun candidate => eqIgnoreAsciiCase candidate extension))

/-- A server matches by its definition, or by an entry for it. -/
def matchesFile (catalog : LanguageRegistry) (files : List PartialConfig) (extension : String)
    (id : String) : Bool :=
  (catalog.get? id).any (fun definition => definition.hasExtension extension) ||
    (entriesFor id files).any (fun lsp => lsp.addsExtension extension)

/-- The last command given for a server, or the catalog's. -/
def commandOf (catalog : LanguageRegistry) (files : List PartialConfig) (id : String) : String :=
  (lastSet PartialLspConfig.command (entriesFor id files)).getD
    ((catalog.get? id).elim "" LspDefinition.command)

/-- How a server stands: it does not match, or its command is not found, or it is. -/
def standingOf (env : SearchPath) (catalog : LanguageRegistry) (files : List PartialConfig)
    (extension : String) (id : String) : Nat :=
  if matchesFile catalog files extension id then
    if env.hasExecutable (commandOf catalog files id) then 2 else 1
  else 0

/-- With the entries of the files no server overtakes the one that the catalog prefers,
    and where it has none, no entry makes one match. -/
def Undisturbed (env : SearchPath) (catalog : LanguageRegistry) (files : List PartialConfig)
    (extension : String) : Prop :=
  (∀ a b, Preferred (standingOf env catalog [] extension) a →
    ¬Overtakes (standingOf env catalog files extension) b a) ∧
  ((∀ a, standingOf env catalog [] extension a = 0) →
    ∀ a, standingOf env catalog files extension a = 0)

/-! ### The catalog with the entries -/

theorem overDefinition_hasExtension (lsp : PartialLspConfig) (old : Option LspDefinition)
    (extension : String) : (lsp.overDefinition old).hasExtension extension =
      (old.any (fun definition => definition.hasExtension extension) ||
        lsp.addsExtension extension) := by
  have hold : ∀ definition : LspDefinition, (lsp.overDefinition (some definition)).hasExtension
      extension = (definition.hasExtension extension || lsp.addsExtension extension) := by
    intro definition
    rw [Bool.eq_iff_iff, Bool.or_eq_true]
    unfold PartialLspConfig.overDefinition PartialLspConfig.addsExtension
      LspDefinition.hasExtension
    cases lsp.initializationOptions with
    | none => simp
    | some options =>
        simp only [Option.getD_some, List.any_eq_true, List.mem_mergeSort, List.mem_dedup,
          List.mem_append, Option.any_some]
        constructor
        · rintro ⟨candidate, hmem | hmem, heq⟩
          · exact .inl ⟨candidate, hmem, heq⟩
          · exact .inr ⟨candidate, hmem, heq⟩
        · rintro (⟨candidate, hmem, heq⟩ | ⟨candidate, hmem, heq⟩)
          · exact ⟨candidate, .inl hmem, heq⟩
          · exact ⟨candidate, .inr hmem, heq⟩
  cases old with
  | some definition => exact hold definition
  | none => exact hold { command := "", args := [], fileExtensions := [], rootMarkers := [] }

/-- The entries for an id, laid over its definition one by one. -/
theorem foldl_overDefinition_hasExtension (lsps : List PartialLspConfig)
    (old : Option LspDefinition) (extension : String) :
    (lsps.foldl (fun v lsp => some (lsp.overDefinition v)) old).any
        (fun definition => definition.hasExtension extension) =
      (old.any (fun definition => definition.hasExtension extension) ||
        lsps.any (fun lsp => lsp.addsExtension extension)) := by
  -- The definition the entries are laid over changes with each of them.
  induction lsps generalizing old with
  | nil => simp
  | cons lsp lsps ih =>
      rw [List.foldl_cons, ih, Option.any_some, overDefinition_hasExtension, List.any_cons,
        Bool.or_assoc]

theorem overridden_hasExtension (catalog : LanguageRegistry) (files : List PartialConfig)
    (extension id : String) : ((overridden catalog files).get? id).any
      (fun definition => definition.hasExtension extension) =
        matchesFile catalog files extension id := by
  rw [overridden, overrideLsp_eq, get?_foldl_layOver, foldl_overDefinition_hasExtension]
  rfl

/-! ### The choice -/

/-- The ids of the servers that match, in order. -/
def matchingIds (registry : LanguageRegistry) (extension : String) : List String :=
  ((registry.entries.insertionSort (fun a b => a.1 ≤ b.1)).filter
    (fun e => e.2.hasExtension extension)).map (fun e => e.1)

theorem mem_matchingIds_iff (registry : LanguageRegistry) (extension id : String) :
    id ∈ matchingIds registry extension ↔ (registry.get? id).any
      (fun definition => definition.hasExtension extension) = true := by
  simp only [matchingIds, List.mem_map, List.mem_filter, List.mem_insertionSort]
  constructor
  · rintro ⟨e, ⟨he, hext⟩, rfl⟩
    rw [(registry.mem_entries_iff e.1 e.2).mp he]
    exact hext
  · intro h
    cases hget : registry.get? id with
    | none =>
        rw [hget] at h
        exact absurd h (by simp)
    | some definition =>
        rw [hget] at h
        exact ⟨⟨id, definition⟩, ⟨(registry.mem_entries_iff id definition).mpr hget, h⟩, rfl⟩

/-- The order of a map is that of its keys, and no key is there twice. -/
theorem matchingIds_ascending (registry : LanguageRegistry) (extension : String) :
    (matchingIds registry extension).Pairwise (· < ·) := by
  have hstable : Ranking.StableOrder (fun e : Sigma fun _ : String => LspDefinition => e.1)
      registry.entries (registry.entries.insertionSort (fun a b => a.1 ≤ b.1)) :=
    Ranking.stableOrder_insertionSort _ (fun a b => Iff.rfl) registry.entries
  have hne : (registry.entries.insertionSort (fun a b => a.1 ≤ b.1)).Pairwise
      (fun a b => a.1 ≠ b.1) := by
    have hnodup : registry.entries.Pairwise (fun a b => a.1 ≠ b.1) :=
      List.pairwise_map.mp registry.toAList.nodupKeys
    exact hstable.perm.symm.pairwise hnodup (fun h => Ne.symm h)
  -- The keys do not fall, and no two are the same.
  have hlt := (hstable.ordered.and hne).imp (fun h => lt_of_le_of_ne h.1 h.2)
  exact List.pairwise_map.mpr (hlt.sublist List.filter_sublist)

/-- A server whose command is found. -/
def goodIn (env : SearchPath) (registry : LanguageRegistry) (id : String) : Bool :=
  (registry.get? id).any (fun definition => env.hasExecutable definition.command)

/-- How a server stands in the list is how it stands by the entries. -/
theorem standing_matchingIds (env : SearchPath) (catalog : LanguageRegistry)
    (files : List PartialConfig) (extension : String) :
    standing (matchingIds (overridden catalog files) extension)
        (goodIn env (overridden catalog files)) =
      standingOf env catalog files extension := by
  funext id
  unfold standing standingOf
  simp only [mem_matchingIds_iff, overridden_hasExtension]
  by_cases hmatches : matchesFile catalog files extension id = true
  · rw [if_pos hmatches, if_pos hmatches]
    rw [← overridden_hasExtension] at hmatches
    cases hget : (overridden catalog files).get? id with
    | none =>
        rw [hget] at hmatches
        exact absurd hmatches (by simp)
    | some definition =>
        rw [goodIn, hget, Option.any_some, definition_command catalog files id definition hget]
        rfl
  · rw [if_neg hmatches, if_neg hmatches]

/-- What `do` is to choose from a list: the first server whose command is
    found, or else the first. -/
def firstChoice (found : List LspMatch) : Option String :=
  ((found.find? LspMatch.executableFound).or found.head?).map (fun m => m.selection.id)

/-- The result is the first choice of the list, or an error if it has none. -/
def ChosenFrom (found : List LspMatch) (result : Except String String) : Prop :=
  match firstChoice found with
  | some id => result = .ok id
  | none => ∃ error, result = .error error

theorem selectFromMatches_chosen (found : List LspMatch) (file : PathBuf) :
    ChosenFrom found (selectFromMatches found file) := by
  unfold ChosenFrom firstChoice selectFromMatches
  cases hfind : found.find? LspMatch.executableFound with
  | some healthy => rfl
  | none =>
      cases hhead : found.head? with
      | some first => rfl
      | none => exact ⟨_, rfl⟩

/-- The choice from the list of servers is the choice from their ids. -/
theorem firstChoice_matchesIn (env : SearchPath) (registry : LanguageRegistry)
    (extension : String) : firstChoice (matchesIn env registry extension) =
      choice (matchingIds registry extension) (goodIn env registry) := by
  have hgood : ∀ e ∈ (registry.entries.insertionSort (fun a b => a.1 ≤ b.1)).filter
      (fun e => e.2.hasExtension extension),
        (matchFromDefinition env e.1 e.2).executableFound = goodIn env registry e.1 := by
    intro e he
    have hmem := (List.mem_insertionSort _).mp (List.mem_of_mem_filter he)
    rw [goodIn, (registry.mem_entries_iff e.1 e.2).mp hmem]
    rfl
  unfold firstChoice choice matchesIn matchingIds
  generalize (registry.entries.insertionSort (fun a b => a.1 ≤ b.1)).filter
    (fun e => e.2.hasExtension extension) = es at hgood
  have hfind : ((es.map (fun e => matchFromDefinition env e.1 e.2)).find?
      LspMatch.executableFound).map (fun m => m.selection.id) =
        (es.map (fun e => e.1)).find? (goodIn env registry) := by
    rw [List.find?_map, List.find?_map, Option.map_map]
    have hcongr : es.find? (LspMatch.executableFound ∘ fun e => matchFromDefinition env e.1 e.2) =
        es.find? (goodIn env registry ∘ fun e => e.1) :=
      List.find?_congr fun e he => hgood e he
    rw [hcongr]
    rfl
  rw [← hfind, Option.map_or, List.head?_map, List.head?_map, Option.map_map]
  rfl

/-! ### What the two commands read -/

/-- What a file says, if there is a path for it. -/
def LayerSays (x : Externals) (fs : FileSystem) :
    Option PathBuf → Option PartialConfig → Prop
  | none, said => said = none
  | some path, said => FileSays x fs path said

theorem applyOverrides_says (x : Externals) (fs : FileSystem) (registry : LanguageRegistry)
    (path : Option PathBuf) (said : Option PartialConfig) (h : LayerSays x fs path said) :
    applyOverrides x fs registry path =
      .ok (overridden registry said.toList) := by
  unfold overridden
  cases path with
  | none =>
      rw [show said = none from h]
      rfl
  | some path =>
      cases said with
      | none => exact if_neg (by rw [show fs.pathExists path = false from h]; decide)
      | some p =>
          rw [applyOverrides, if_pos h.1, loadPartial_of_fileSays x fs path p h,
            Option.toList_some, List.flatMap_cons, List.flatMap_nil, List.append_nil]

theorem loadRegistry_says (x : Externals) (fs : FileSystem) (catalog : LanguageRegistry)
    (userPath projectPath : Option PathBuf) (user project : Option PartialConfig)
    (hcatalog : x.defaultLanguages = .ok catalog) (huser : LayerSays x fs userPath user)
    (hproject : LayerSays x fs projectPath project) :
    loadRegistry x fs userPath projectPath =
      .ok (overridden catalog (user.toList ++ project.toList)) := by
  simp only [loadRegistry, hcatalog, applyOverrides_says x fs _ userPath user huser,
    applyOverrides_says x fs _ projectPath project hproject, overridden, List.flatMap_append,
    List.foldl_append]

/-- A file that is missing need not be passed on. -/
theorem layerSays_filter (x : Externals) (fs : FileSystem) (path : Option PathBuf)
    (said : Option PartialConfig) (h : LayerSays x fs path said) :
    LayerSays x fs (path.filter (fun path => fs.pathExists path)) said := by
  cases path with
  | none => exact h
  | some path =>
      by_cases hexists : fs.pathExists path = true
      · rw [Option.filter_some_pos hexists]
        exact h
      · rw [Option.filter_some_neg (by simpa using hexists)]
        cases said with
        | none => rfl
        | some p => exact absurd h.1 hexists

/-- The id that `do` chooses for a file is the first choice of the list that `lsps`
    reports for it, and there is none exactly when the list is empty, if and only if the
    entries of the two files make no difference to the choice for its extension. -/
theorem auto_resolution_agrees_iff (x : Externals) (env : SearchPath) (fs : FileSystem)
    (home : Option PathBuf) (file : PathBuf) (catalog : LanguageRegistry)
    (user project : Option PartialConfig) (hcatalog : x.defaultLanguages = .ok catalog)
    (huser : LayerSays x fs (home.map (fun home => userConfigPath (some home))) user)
    (hproject : LayerSays x fs (file.parent.map (fun parent => parent.join ["lspee.toml"]))
      project) :
    ∃ found, lspsOf x fs env home file = .ok found ∧
      (ChosenFrom found (resolveLspId x fs env none (some file)) ↔
        ∀ extension, file.extension.map toAsciiLowercase = some extension →
          Undisturbed env catalog (user.toList ++ project.toList) extension) := by
  cases hext : file.extension.map toAsciiLowercase with
  | none =>
      refine ⟨[], by simp only [lspsOf, lspsForFile, hext], iff_of_true ?_ (by simp)⟩
      simp only [resolveLspId, lspsForFile, hext]
      exact selectFromMatches_chosen [] file
  | some extension =>
      have hlist := loadRegistry_says x fs catalog _ _ user project hcatalog huser
        (layerSays_filter x fs _ project hproject)
      have hbare := loadRegistry_says x fs catalog none none none none hcatalog rfl rfl
      refine ⟨matchesIn env (overridden catalog (user.toList ++ project.toList)) extension,
        by simp only [lspsOf, lspsForFile, hext, hlist], ?_⟩
      simp only [resolveLspId, lspsForFile, hext, hbare, Option.toList_none, List.append_nil,
        Option.some.injEq, forall_eq']
      -- Entries take no extension away, so what matches without them matches with them.
      have hsub : ∀ id ∈ matchingIds (overridden catalog []) extension,
          id ∈ matchingIds (overridden catalog (user.toList ++ project.toList)) extension := by
        intro id hid
        rw [mem_matchingIds_iff, overridden_hasExtension] at hid ⊢
        unfold matchesFile at hid ⊢
        rw [entriesFor, List.flatMap_nil, List.filter_nil, List.any_nil, Bool.or_false] at hid
        rw [hid, Bool.true_or]
      -- Both lists are in the order of the ids, so only how the servers stand matters.
      have hsame := choice_eq_iff _ _ (matchingIds_ascending (overridden catalog []) extension)
        (matchingIds_ascending (overridden catalog (user.toList ++ project.toList)) extension)
        (goodIn env (overridden catalog []))
        (goodIn env (overridden catalog (user.toList ++ project.toList))) hsub
      rw [standing_matchingIds, standing_matchingIds, ← firstChoice_matchesIn,
        ← firstChoice_matchesIn] at hsame
      refine Iff.trans ?_ hsame
      -- What is selected is the first choice of the list without the entries.
      have hselected := selectFromMatches_chosen (matchesIn env (overridden catalog []) extension)
        file
      unfold ChosenFrom at hselected ⊢
      cases hbareChoice : firstChoice (matchesIn env (overridden catalog []) extension) with
      | none =>
          rw [hbareChoice] at hselected
          rcases hselected with ⟨error, herror⟩
          rw [herror]
          cases firstChoice (matchesIn env
            (overridden catalog (user.toList ++ project.toList)) extension) <;> simp
      | some id =>
          rw [hbareChoice] at hselected
          rw [hselected]
          cases firstChoice (matchesIn env
            (overridden catalog (user.toList ++ project.toList)) extension) <;> simp

/-- Entries that give neither a command nor options make no difference. -/
theorem undisturbed_of_neither (env : SearchPath) (catalog : LanguageRegistry)
    (files : List PartialConfig) (extension : String)
    (h : ∀ lsp ∈ files.flatMap PartialConfig.lsp,
      lsp.command = none ∧ lsp.initializationOptions = none) :
    Undisturbed env catalog files extension := by
  have hentries : ∀ id, ∀ lsp ∈ entriesFor id files,
      lsp.command = none ∧ lsp.initializationOptions = none :=
    fun id lsp hlsp => h lsp (List.mem_of_mem_filter hlsp)
  have hstanding : standingOf env catalog files extension =
      standingOf env catalog [] extension := by
    funext id
    -- Without options an entry adds no extension; without a command the old one stays.
    have hadds : (entriesFor id files).any (fun lsp => lsp.addsExtension extension) = false := by
      rw [List.any_eq_false]
      intro lsp hlsp
      rw [PartialLspConfig.addsExtension, (hentries id lsp hlsp).2]
      simp
    have hcommand : lastSet PartialLspConfig.command (entriesFor id files) = none :=
      (lastSet_eq_none_iff _ _).mpr fun lsp hlsp => (hentries id lsp hlsp).1
    unfold standingOf matchesFile commandOf
    rw [hadds, hcommand]
    rfl
  unfold Undisturbed
  rw [hstanding]
  exact ⟨fun a b ha => ha.2 b, fun hzero => hzero⟩

/-! ### Two servers for a language -/

def pythonDefinition (command : String) : LspDefinition where
  command := command
  args := ["--stdio"]
  fileExtensions := ["py"]
  rootMarkers := ["pyproject.toml"]

/-- What the catalog has of two servers. -/
def pythonCatalog : LanguageRegistry :=
  (Table.empty.set "basedpyright" (pythonDefinition "basedpyright-langserver")).set "pyright"
    (pythonDefinition "pyright-langserver")

/-- Both are installed. -/
def pythonPath : SearchPath where
  paths := some [⟨true, ["usr", "bin"]⟩]
  isFile := fun _ executable =>
    executable = "basedpyright-langserver" ∨ executable = "pyright-langserver"

/-- The project has its own build of the first, which is not on the path. -/
def ownBuild : PartialConfig :=
  ⟨[⟨some "basedpyright", some "tools/basedpyright", none, none, none⟩], none, none, none, none,
    none⟩

/-- The project has other arguments for the first. -/
def otherArgs : PartialConfig :=
  ⟨[⟨some "basedpyright", none, some ["--stdio", "--verbose"], none, none⟩], none, none, none,
    none, none⟩

def ownBuildText : String :=
  "[[lsp]]\nid = \"basedpyright\"\ncommand = \"tools/basedpyright\"\n"

def otherArgsText : String :=
  "[[lsp]]\nid = \"basedpyright\"\nargs = [\"--stdio\", \"--verbose\"]\n"

def pythonExternals : Externals where
  tomlFromStr := fun text =>
    if text = ownBuildText then .ok ownBuild
    else if text = otherArgsText then .ok otherArgs
    else .error "unexpected text"
  tomlToString := inlineExternals.tomlToString
  sha256Hex := inlineExternals.sha256Hex
  defaultLanguages := .ok pythonCatalog

def pythonFiles (text : String) : FileSystem where
  pathExists := fun path => path = taploRoot.join ["lspee.toml"]
  readToString := fun path =>
    if path = taploRoot.join ["lspee.toml"] then .ok text
    else .error "No such file or directory (os error 2)"
  canonicalize := fun path => .ok path

def pythonFile : PathBuf := taploRoot.join ["app.py"]

/-- Other arguments make no difference to the choice. -/
theorem auto_resolution_agrees_iff_otherArgs :
    ∃ found, lspsOf pythonExternals (pythonFiles otherArgsText) pythonPath (some taploHome)
        pythonFile = .ok found ∧
      ChosenFrom found (resolveLspId pythonExternals (pythonFiles otherArgsText) pythonPath none
        (some pythonFile)) := by
  have huser : LayerSays pythonExternals (pythonFiles otherArgsText)
      (some (userConfigPath (some taploHome))) none := by
    show (pythonFiles otherArgsText).pathExists (userConfigPath (some taploHome)) = false
    decide
  have hproject : LayerSays pythonExternals (pythonFiles otherArgsText)
      (some (taploRoot.join ["lspee.toml"])) (some otherArgs) :=
    ⟨by decide, otherArgsText, rfl, rfl⟩
  rcases auto_resolution_agrees_iff pythonExternals pythonPath (pythonFiles otherArgsText)
    (some taploHome) pythonFile pythonCatalog none (some otherArgs) rfl huser hproject with
    ⟨found, hfound, hagrees⟩
  refine ⟨found, hfound, hagrees.mpr fun extension _ => undisturbed_of_neither _ _ _ _ ?_⟩
  intro lsp hlsp
  rw [Option.toList_none, Option.toList_some, List.nil_append, List.flatMap_cons,
    List.flatMap_nil, List.append_nil] at hlsp
  rw [List.mem_singleton.mp hlsp]
  exact ⟨rfl, rfl⟩

/-- `lsps` has the second server first among those whose command is found, and `do`
    chooses the first. -/
theorem auto_resolution_disagrees :
    ¬ ∀ (x : Externals) (env : SearchPath) (fs : FileSystem) (home : Option PathBuf)
      (file : PathBuf) (found : List LspMatch), lspsOf x fs env home file = .ok found →
      ChosenFrom found (resolveLspId x fs env none (some file)) := by
  intro hall
  have hchosen := hall pythonExternals pythonPath (pythonFiles ownBuildText) (some taploHome)
    pythonFile _ rfl
  have hresult : resolveLspId pythonExternals (pythonFiles ownBuildText) pythonPath none
      (some pythonFile) = .ok "basedpyright" := rfl
  rw [hresult] at hchosen
  exact absurd (Except.ok.inj hchosen) (by decide)

end Lspee
