import Lspee.Core.Editing
import Lspee.Theory.Precedence
import Mathlib.Data.List.TakeWhile

/-!
# Adding a Server to the Project's File

Whether `config add-lsp` has the effect it is called for. The command looks for
the first entry with the id and updates that, or appends a new entry; `resolve`
takes, for each field, the last entry for the id. An appended entry is the last
one. The first entry with the id need not be, and then what a later entry says
still holds (`takes_effect_iff`). An entry without an id is a later entry for
`default` too, though the command never takes it for one.

What is left after the first entry is `laterEntries`, and the condition is on the
last command and the last arguments there.

## Main definitions

* `laterEntries`: The entries after the first one with the id.
* `LastForId`: No later entry says otherwise.
* `TakesEffect`: What the command is called for.
* `Resolves`: What `resolve` ends with.

## Theorems

* `readLspEntry_updateEntry`, `readLspEntry_newEntry`: What the edited entries say.
* `edited_cases`: What the edited document says.
* `lookup_congr`: Only the entries for an id matter.
* `takes_effect_iff`: The condition is exact.
* `fileSays_write`: The files after the command.
* `add_lsp_takes_effect_iff`: The same for the command and `resolve`.
* `add_lsp_overruled`: A file on which the command has no effect.
-/

namespace Lspee

open Layers

/-! ### What the edited entries say -/

theorem readStrings_toTomlArray (items : List String) :
    (toTomlArray items).readStrings = some items := by
  simp only [toTomlArray, TomlValue.readStrings]
  induction items with
  | nil => rfl
  | cons item items ih =>
      rw [List.map_cons, List.mapM_cons, ih]
      rfl

theorem readField_set {α : Type} (read : TomlValue → Option α) (table : TomlTable) (key : String)
    (v : TomlValue) : readField read (table.set key v) key = (read v).map some := by
  rw [readField, Table.get?_set_self]

theorem readField_set_ne {α : Type} (read : TomlValue → Option α) (table : TomlTable)
    (key key' : String) (v : TomlValue) (h : key' ≠ key) :
    readField read (table.set key v) key' = readField read table key' := by
  rw [readField, Table.get?_set_ne _ _ _ _ h, readField]

theorem readLspEntry_eq_some (table : TomlTable) (p : PartialLspConfig) :
    readLspEntry table = some p ↔
      readField TomlValue.asStr table "id" = some p.id ∧
      readField TomlValue.asStr table "command" = some p.command ∧
      readField TomlValue.readStrings table "args" = some p.args ∧
      readField TomlValue.readStringMap table "env" = some p.env ∧
      readField TomlValue.readTable table "initialization_options" =
        some p.initializationOptions := by
  rcases p with ⟨id, command, args, env, options⟩
  simp only [readLspEntry, Option.bind_eq_bind, Option.bind_eq_some_iff, Option.pure_def,
    Option.some.injEq, PartialLspConfig.mk.injEq]
  constructor
  · rintro ⟨_, h1, _, h2, _, h3, _, h4, _, h5, rfl, rfl, rfl, rfl, rfl⟩
    exact ⟨h1, h2, h3, h4, h5⟩
  · rintro ⟨h1, h2, h3, h4, h5⟩
    exact ⟨_, h1, _, h2, _, h3, _, h4, _, h5, rfl, rfl, rfl, rfl, rfl⟩

/-- An updated entry has the command, and the arguments if there were any. -/
theorem readLspEntry_updateEntry (cmd : AddLspCommand) (table : TomlTable) (p : PartialLspConfig)
    (h : readLspEntry table = some p) : readLspEntry (updateEntry cmd table) =
      some { p with command := some cmd.command, args := cmd.args.or p.args } := by
  rw [readLspEntry_eq_some] at h ⊢
  rcases h with ⟨hid, hcommand, hargs, henv, hoptions⟩
  unfold updateEntry
  cases cmd.args with
  | none =>
      refine ⟨?_, readField_set _ _ _ _, ?_, ?_, ?_⟩
      · rw [readField_set_ne _ _ _ _ _ (by decide), hid]
      · rw [readField_set_ne _ _ _ _ _ (by decide), hargs]
        rfl
      · rw [readField_set_ne _ _ _ _ _ (by decide), henv]
      · rw [readField_set_ne _ _ _ _ _ (by decide), hoptions]
  | some args =>
      refine ⟨?_, ?_, ?_, ?_, ?_⟩
      · rw [readField_set_ne _ _ _ _ _ (by decide), readField_set_ne _ _ _ _ _ (by decide), hid]
      · rw [readField_set_ne _ _ _ _ _ (by decide)]
        exact readField_set _ _ _ _
      · rw [readField_set, readStrings_toTomlArray]
        rfl
      · rw [readField_set_ne _ _ _ _ _ (by decide), readField_set_ne _ _ _ _ _ (by decide), henv]
      · rw [readField_set_ne _ _ _ _ _ (by decide), readField_set_ne _ _ _ _ _ (by decide),
          hoptions]

/-- A new entry is for the id, and has arguments, if only an empty list. -/
theorem readLspEntry_newEntry (cmd : AddLspCommand) : readLspEntry (newEntry cmd) =
    some ⟨some cmd.id, some cmd.command, some (cmd.args.getD []), none, none⟩ := by
  rw [readLspEntry_eq_some]
  unfold newEntry
  refine ⟨?_, ?_, ?_, ?_, ?_⟩
  · rw [readField_set_ne _ _ _ _ _ (by decide), readField_set_ne _ _ _ _ _ (by decide)]
    exact readField_set _ _ _ _
  · rw [readField_set_ne _ _ _ _ _ (by decide)]
    exact readField_set _ _ _ _
  · rw [readField_set, readStrings_toTomlArray]
    rfl
  · rw [readField_set_ne _ _ _ _ _ (by decide), readField_set_ne _ _ _ _ _ (by decide),
      readField_set_ne _ _ _ _ _ (by decide)]
    rfl
  · rw [readField_set_ne _ _ _ _ _ (by decide), readField_set_ne _ _ _ _ _ (by decide),
      readField_set_ne _ _ _ _ _ (by decide)]
    rfl

/-- The editor and the reader see the same id. -/
theorem hasId_iff (id : String) (table : TomlTable) (p : PartialLspConfig)
    (h : readLspEntry table = some p) : hasId id table = true ↔ p.id = some id := by
  have hid := ((readLspEntry_eq_some table p).mp h).1
  unfold readField at hid
  unfold hasId
  cases hget : table.get? "id" with
  | none =>
      rw [hget, Option.some.injEq] at hid
      rw [← hid]
      simp
  | some v =>
      rw [hget] at hid
      rcases Option.map_eq_some_iff.mp hid with ⟨s, hs, hp⟩
      rw [← hp, Option.bind_some, hs]
      exact beq_iff_eq

/-! ### What the edited document says -/

/-- The entry the command makes of the first one with its id. -/
def updated (cmd : AddLspCommand) (p : PartialLspConfig) : PartialLspConfig :=
  { p with command := some cmd.command, args := cmd.args.or p.args }

/-- The first entry with the id is updated, if there is one. The induction is on the
    tables before it. -/
theorem updateFirst_cases (cmd : AddLspCommand) (tables : List TomlTable)
    (ps : List PartialLspConfig) (h : tables.mapM readLspEntry = some ps) :
    match updateFirst cmd tables with
    | none => ∀ p ∈ ps, p.id ≠ some cmd.id
    | some tables' => ∃ as p bs, ps = as ++ p :: bs ∧ (∀ a ∈ as, a.id ≠ some cmd.id) ∧
        p.id = some cmd.id ∧ tables'.mapM readLspEntry = some (as ++ updated cmd p :: bs) := by
  induction tables generalizing ps with
  | nil =>
      simp only [List.mapM_nil, Option.pure_def, Option.some.injEq] at h
      rw [← h]
      simp [updateFirst]
  | cons table tables ih =>
      simp only [List.mapM_cons, Option.bind_eq_bind, Option.bind_eq_some_iff, Option.pure_def,
        Option.some.injEq] at h
      rcases h with ⟨p, hp, rest, hrest, rfl⟩
      have hid := hasId_iff cmd.id table p hp
      have htail := ih rest hrest
      by_cases hhas : hasId cmd.id table = true
      · simp only [updateFirst, hhas, if_true]
        refine ⟨[], p, rest, rfl, by simp, hid.mp hhas, ?_⟩
        rw [List.mapM_cons, readLspEntry_updateEntry cmd table p hp, hrest]
        rfl
      · have hne : p.id ≠ some cmd.id := fun heq => hhas (hid.mpr heq)
        simp only [updateFirst, hhas, Bool.false_eq_true, if_false]
        cases hfirst : updateFirst cmd tables with
        | none =>
            rw [hfirst] at htail
            intro q hq
            rcases List.mem_cons.mp hq with hq | hq
            · rw [hq]
              exact hne
            · exact htail q hq
        | some tables' =>
            rw [hfirst] at htail
            rcases htail with ⟨as, q, bs, hps, has, hq, hread⟩
            refine ⟨p :: as, q, bs, by rw [hps, List.cons_append], ?_, hq, ?_⟩
            · intro a ha
              rcases List.mem_cons.mp ha with ha | ha
              · rw [ha]
                exact hne
              · exact has a ha
            · rw [List.mapM_cons, hp, hread]
              rfl

/-- The entries after the first one with the id. -/
def laterEntries (id : String) (ps : List PartialLspConfig) : List PartialLspConfig :=
  (ps.dropWhile (fun p => p.id ≠ some id)).tail

/-- The entries of the edited document, for any id. An appended entry is the last;
    an updated one stands before those that came after it. -/
theorem edited_cases (cmd : AddLspCommand) (tables : List TomlTable) (ps : List PartialLspConfig)
    (h : tables.mapM readLspEntry = some ps) : ∃ as q old bs,
      readLsp (.tables ((updateFirst cmd tables).getD (tables ++ [newEntry cmd]))) =
        some (as ++ q :: bs) ∧
      ps = as ++ old ++ bs ∧ bs = laterEntries cmd.id ps ∧ (∀ p ∈ old, p.id = some cmd.id) ∧
      q.id = some cmd.id ∧ q.command = some cmd.command ∧
      ∀ args, cmd.args = some args → q.args = some args := by
  have hcases := updateFirst_cases cmd tables ps h
  cases hfirst : updateFirst cmd tables with
  | none =>
      rw [hfirst] at hcases
      have hlater : laterEntries cmd.id ps = [] := by
        have hdrop : ps.dropWhile (fun p => p.id ≠ some cmd.id) = [] :=
          List.dropWhile_eq_nil_iff.mpr fun p hp => by simpa using hcases p hp
        rw [laterEntries, hdrop]
        rfl
      refine ⟨ps, ⟨some cmd.id, some cmd.command, some (cmd.args.getD []), none, none⟩, [], [], ?_,
        by simp, hlater.symm, by simp, rfl, rfl, ?_⟩
      · rw [Option.getD_none, readLsp, List.mapM_append, h, List.mapM_cons, List.mapM_nil,
          readLspEntry_newEntry]
        rfl
      · intro args hargs
        rw [hargs, Option.getD_some]
  | some tables' =>
      rw [hfirst] at hcases
      rcases hcases with ⟨as, p, bs, hps, has, hid, hread⟩
      have hlater : bs = laterEntries cmd.id ps := by
        have hdrop : ps.dropWhile (fun p => p.id ≠ some cmd.id) = p :: bs := by
          rw [hps, List.dropWhile_append_of_pos fun a ha => by simpa using has a ha,
            List.dropWhile_cons_of_neg (by simpa using hid)]
        rw [laterEntries, hdrop]
        rfl
      refine ⟨as, updated cmd p, [p], bs, hread, by simp [hps], hlater, by simp [hid], hid, rfl, ?_⟩
      intro args hargs
      rw [updated, hargs, Option.some_or]

/-! ### The effect -/

/-- No later entry for the id has another command, and none has other arguments
    than the command's, if it has some; of several the last counts. -/
def LastForId (cmd : AddLspCommand) (ps : List PartialLspConfig) : Prop :=
  let later := (laterEntries cmd.id ps).filter (fun p => p.entryId = cmd.id)
  (∀ v, lastSet PartialLspConfig.command later = some v → v = cmd.command) ∧
    ∀ args, cmd.args = some args → ∀ v, lastSet PartialLspConfig.args later = some v → v = args

/-- The merged entry for the id has the command, and the arguments if they were
    given, and every other merged entry is what it was. -/
def TakesEffect (cmd : AddLspCommand) (before after : EffectiveConfig) : Prop :=
  (∃ entry, after.lsps.get? cmd.id = some entry ∧ entry.command = cmd.command ∧
    ∀ args, cmd.args = some args → entry.args = args) ∧
  ∀ id, id ≠ cmd.id → after.lsps.get? id = before.lsps.get? id

/-- Only the entries for an id matter for it. -/
theorem lookup_congr (start : EffectiveConfig) (ps ps' : List PartialConfig) (id : String)
    (h : entriesFor id ps = entriesFor id ps') :
    (ps.foldl applyPartial start).lsps.get? id = (ps'.foldl applyPartial start).lsps.get? id := by
  unfold entriesFor at h
  rw [applyPartial_lsps, applyPartial_lsps, applyPartialLsp_eq, get?_foldl_layOver,
    get?_foldl_layOver, h]

theorem entriesFor_append (id : String) (ps qs : List PartialConfig) :
    entriesFor id (ps ++ qs) = entriesFor id ps ++ entriesFor id qs := by
  rw [entriesFor, List.flatMap_append, List.filter_append]
  rfl

theorem entriesFor_singleton (id : String) (p : PartialConfig) :
    entriesFor id [p] = p.lsp.filter (fun lsp => lsp.entryId = id) := by
  rw [entriesFor, List.flatMap_cons, List.flatMap_nil, List.append_nil]

/-- An edit has its effect if and only if no later entry says otherwise. The edited
    entries are those before, the one for the id, and those after. -/
theorem takes_effect_iff (cmd : AddLspCommand) (user : List PartialConfig)
    (before after : List PartialConfig) (ps as : List PartialLspConfig) (q : PartialLspConfig)
    (old bs : List PartialLspConfig) (hps : ps = as ++ old ++ bs)
    (hbs : bs = laterEntries cmd.id ps) (hold : ∀ p ∈ old, p.id = some cmd.id)
    (hid : q.id = some cmd.id) (hcommand : q.command = some cmd.command)
    (hargs : ∀ args, cmd.args = some args → q.args = some args)
    (hbefore : ∀ id, entriesFor id before =
      entriesFor id user ++ ps.filter (fun p => p.entryId = id))
    (hafter : ∀ id, entriesFor id after =
      entriesFor id user ++ (as ++ q :: bs).filter (fun p => p.entryId = id)) :
    TakesEffect cmd (before.foldl applyPartial defaultConfig)
      (after.foldl applyPartial defaultConfig) ↔ LastForId cmd ps := by
  have hentryId : ∀ p : PartialLspConfig, p.id = some cmd.id → p.entryId = cmd.id := by
    intro p hp
    rw [PartialLspConfig.entryId, hp, Option.getD_some]
  -- The entries for the id end with the edited one and the later ones.
  have hsplit : entriesFor cmd.id after = (entriesFor cmd.id user ++
      as.filter (fun p => p.entryId = cmd.id)) ++
        q :: (laterEntries cmd.id ps).filter (fun p => p.entryId = cmd.id) := by
    rw [hafter, List.filter_append, List.filter_cons_of_pos (by simpa using hentryId q hid), hbs,
      List.append_assoc]
  have hlast : ∀ {β : Type} (f : PartialLspConfig → Option β) (v : β), f q = some v →
      lastSet f (entriesFor cmd.id after) = some ((lastSet f ((laterEntries cmd.id ps).filter
        (fun p => p.entryId = cmd.id))).getD v) := by
    intro β f v hv
    rw [hsplit, lastSet_append, lastSet_cons, hv]
    cases lastSet f ((laterEntries cmd.id ps).filter (fun p => p.entryId = cmd.id)) <;> rfl
  have hsome : ∃ entry, (after.foldl applyPartial defaultConfig).lsps.get? cmd.id = some entry := by
    refine Option.isSome_iff_exists.mp ((merged_isSome_iff after cmd.id).mpr ?_)
    rw [hsplit]
    simp
  rcases hsome with ⟨entry, hentry⟩
  have hentryCommand := merged_entry LspConfig.command "" _ over_command defaultConfig after cmd.id
    entry hentry
  have hentryArgs := merged_entry LspConfig.args [] _ over_args defaultConfig after cmd.id
    entry hentry
  rw [hlast _ _ hcommand, Option.getD_some] at hentryCommand
  have hothers : ∀ id, id ≠ cmd.id → (after.foldl applyPartial defaultConfig).lsps.get? id =
      (before.foldl applyPartial defaultConfig).lsps.get? id := by
    intro id hne
    refine lookup_congr defaultConfig after before id ?_
    have hq : q.entryId ≠ id := by
      rw [hentryId q hid]
      exact Ne.symm hne
    have hnone : old.filter (fun p => p.entryId = id) = [] := by
      rw [List.filter_eq_nil_iff]
      intro p hp
      rw [hentryId p (hold p hp)]
      simpa using Ne.symm hne
    rw [hbefore, hafter, hps, List.filter_append, List.filter_append, List.filter_append,
      List.filter_cons_of_neg (by simpa using hq), hnone, List.append_nil]
  constructor
  · rintro ⟨⟨entry', hentry', hc, ha⟩, _⟩
    rw [hentry, Option.some.injEq] at hentry'
    rw [← hentry'] at hc ha
    refine ⟨fun v hv => ?_, fun args hgiven v hv => ?_⟩
    · rw [hv, Option.getD_some] at hentryCommand
      rw [← hentryCommand, hc]
    · rw [hlast _ _ (hargs args hgiven), hv, Option.getD_some, Option.getD_some] at hentryArgs
      rw [← hentryArgs, ha args hgiven]
  · rintro ⟨hlaterCommand, hlaterArgs⟩
    refine ⟨⟨entry, hentry, ?_, fun args hgiven => ?_⟩, hothers⟩
    · rw [hentryCommand]
      cases hv : lastSet PartialLspConfig.command ((laterEntries cmd.id ps).filter
        (fun p => p.entryId = cmd.id)) with
      | none => rfl
      | some v => exact hlaterCommand v hv
    · rw [hentryArgs, hlast _ _ (hargs args hgiven), Option.getD_some]
      cases hv : lastSet PartialLspConfig.args ((laterEntries cmd.id ps).filter
        (fun p => p.entryId = cmd.id)) with
      | none => rfl
      | some v => exact hlaterArgs args hgiven v hv

/-! ### The command -/

/-- What `resolve` ends with, the files being as they are. -/
def Resolves (x : Externals) (home : Option PathBuf) (fs : FileSystem) (root : PathBuf)
    (resolved : ResolvedConfig) : Prop :=
  ∃ n, (Resolving.step x home fs)^[n] (.start root) = .done (.ok resolved)

/-- The parser of documents and that of configurations read the same in a text. -/
def ReadsAlike (x : Externals) (e : TomlEdit) (raw : String) : Prop :=
  ∀ doc p, e.parse raw = .ok doc → x.tomlFromStr raw = .ok p → readDocument doc = some p

/-- What is printed for a document says what the document says. -/
def PrintsBack (x : Externals) (e : TomlEdit) (doc : TomlDocument) : Prop :=
  ∀ p, readDocument doc = some p → x.tomlFromStr (e.print doc) = .ok p

/-- The two files are different ones: they have different names. -/
theorem userConfigPath_ne (home : Option PathBuf) (canon : PathBuf) :
    userConfigPath home ≠ canon.join ["lspee.toml"] := by
  intro h
  have hcomponents := congrArg (fun path => path.components.getLast?) h
  simp [userConfigPath, PathBuf.join] at hcomponents

theorem fileSays_write (x : Externals) (fs : FileSystem) (path : PathBuf) (text : String)
    (p : PartialConfig) (h : x.tomlFromStr text = .ok p) :
    FileSays x (fs.write path text) path (some p) :=
  ⟨if_pos rfl, text, if_pos rfl, h⟩

theorem fileSays_write_ne (x : Externals) (fs : FileSystem) (path path' : PathBuf) (text : String)
    (parsed : Option PartialConfig) (hne : path' ≠ path) (h : FileSays x fs path' parsed) :
    FileSays x (fs.write path text) path' parsed := by
  cases parsed with
  | none => exact (if_neg hne).trans h
  | some p =>
      rcases h with ⟨hexists, raw, hraw, hparsed⟩
      exact ⟨(if_neg hne).trans hexists, raw, (if_neg hne).trans hraw, hparsed⟩

/-- A command that succeeds has edited the document of the file and written it. -/
theorem runAddLsp_eq_ok (e : TomlEdit) (fs fs' : FileSystem) (root canon : PathBuf)
    (cmd : AddLspCommand) (written : Except String Unit) (printed : String)
    (hcanon : fs.canonicalize root = .ok canon)
    (h : runAddLsp e fs root cmd written = .ok (fs', printed)) :
    ∃ doc tables edited, loadOrCreateDoc e fs (canon.join ["lspee.toml"]) = .ok doc ∧
      ensureLspArray doc = .ok tables ∧ addLsp doc cmd = .ok (edited, printed) ∧
      edited = { doc with
        lsp := .tables ((updateFirst cmd tables).getD (tables ++ [newEntry cmd])) } ∧
      fs' = fs.write (canon.join ["lspee.toml"]) (e.print edited) := by
  unfold runAddLsp at h
  simp only [hcanon] at h
  cases hdoc : loadOrCreateDoc e fs (canon.join ["lspee.toml"]) with
  | error error => simp [hdoc] at h
  | ok doc =>
      simp only [hdoc] at h
      cases hadd : addLsp doc cmd with
      | error error => simp [hadd] at h
      | ok result =>
          rcases result with ⟨edited, said⟩
          simp only [hadd] at h
          cases written with
          | error error => simp at h
          | ok u =>
              simp only [Except.ok.injEq, Prod.mk.injEq] at h
              cases htables : ensureLspArray doc with
              | error error => simp [addLsp, htables] at hadd
              | ok tables =>
                  refine ⟨doc, tables, edited, rfl, htables, by rw [hadd, h.2], ?_, h.1.symm⟩
                  simp only [addLsp, htables] at hadd
                  cases hfirst : updateFirst cmd tables with
                  | none =>
                      simp only [hfirst, Except.ok.injEq, Prod.mk.injEq] at hadd
                      rw [Option.getD_none, hadd.1]
                  | some entries =>
                      simp only [hfirst, Except.ok.injEq, Prod.mk.injEq] at hadd
                      rw [Option.getD_some, hadd.1]

/-- Only what is under `lsp` is edited, and the rest is read as before. -/
theorem readDocument_edited (doc : TomlDocument) (item : LspItem) (p : PartialConfig)
    (lsps : List PartialLspConfig) (h : readDocument doc = some p)
    (hitem : readLsp item = some lsps) :
    readLsp doc.lsp = some p.lsp ∧
      readDocument { doc with lsp := item } = some { p with lsp := lsps } := by
  rcases p with ⟨lsp, rootMarkers, workspaceMode, transportFlags, memory, session⟩
  simp only [readDocument, Option.bind_eq_bind, Option.bind_eq_some_iff, Option.pure_def,
    Option.some.injEq, PartialConfig.mk.injEq] at h ⊢
  rcases h with ⟨_, h1, _, h2, _, h3, _, h4, _, h5, _, h6, rfl, rfl, rfl, rfl, rfl, rfl⟩
  exact ⟨h1, _, hitem, _, h2, _, h3, _, h4, _, h5, _, h6, rfl, rfl, rfl, rfl, rfl, rfl⟩

/-- What the document of the file says is what the file says; without a file both
    say nothing. -/
theorem loadOrCreateDoc_says (x : Externals) (e : TomlEdit) (fs : FileSystem) (path : PathBuf)
    (doc : TomlDocument) (project : Option PartialConfig)
    (hreads : ∀ raw, fs.readToString path = .ok raw → ReadsAlike x e raw)
    (hproject : FileSays x fs path project) (h : loadOrCreateDoc e fs path = .ok doc) :
    ∃ p, readDocument doc = some p ∧ p.lsp = project.elim [] PartialConfig.lsp := by
  unfold loadOrCreateDoc at h
  cases project with
  | none =>
      rw [if_neg (by rw [show fs.pathExists path = false from hproject]; simp),
        Except.ok.injEq] at h
      rw [← h]
      exact ⟨⟨[], none, none, none, none, none⟩, rfl, rfl⟩
  | some p =>
      rcases hproject with ⟨hexists, raw, hraw, hparsed⟩
      rw [if_pos hexists, loadDoc, hraw] at h
      cases hparse : e.parse raw with
      | error source => simp [hparse] at h
      | ok doc' =>
          simp only [hparse, Except.ok.injEq] at h
          rw [← h]
          exact ⟨p, hreads raw hraw doc' p hparse hparsed, rfl⟩

theorem entriesFor_project (user project : Option PartialConfig) (id : String) :
    entriesFor id (user.toList ++ project.toList) = entriesFor id user.toList ++
      (project.elim [] PartialConfig.lsp).filter (fun p => p.entryId = id) := by
  rw [entriesFor_append]
  cases project with
  | none => rfl
  | some p => rw [Option.toList_some, entriesFor_singleton, Option.elim_some]

/-- After `config add-lsp` has succeeded, `resolve` has the entry as the command
    gave it and every other entry as before, if and only if no later entry of the
    file says otherwise. The file may be missing, and may have any entries. -/
theorem add_lsp_takes_effect_iff (x : Externals) (e : TomlEdit) (home : Option PathBuf)
    (fs fs' : FileSystem) (root canon : PathBuf) (user project : Option PartialConfig)
    (cmd : AddLspCommand) (written : Except String Unit) (printed : String)
    (hcanon : fs.canonicalize root = .ok canon)
    (huser : FileSays x fs (userConfigPath home) user)
    (hproject : FileSays x fs (canon.join ["lspee.toml"]) project)
    (hreads : ∀ raw, fs.readToString (canon.join ["lspee.toml"]) = .ok raw → ReadsAlike x e raw)
    (hprints : ∀ doc edited, loadOrCreateDoc e fs (canon.join ["lspee.toml"]) = .ok doc →
      addLsp doc cmd = .ok (edited, printed) → PrintsBack x e edited)
    (hadd : runAddLsp e fs root cmd written = .ok (fs', printed)) :
    ∃ before after, Resolves x home fs root before ∧ Resolves x home fs' root after ∧
      (TakesEffect cmd before.merged after.merged ↔
        LastForId cmd (project.elim [] PartialConfig.lsp)) := by
  rcases runAddLsp_eq_ok e fs fs' root canon cmd written printed hcanon hadd with
    ⟨doc, tables, edited, hdoc, htables, hedit, hedited, hfs'⟩
  rcases loadOrCreateDoc_says x e fs _ doc project hreads hproject hdoc with ⟨p, hp, hlsp⟩
  -- The tables of the document are the entries of the file.
  have hread : tables.mapM readLspEntry = some p.lsp := by
    have hdocLsp := (readDocument_edited doc .missing p [] hp rfl).1
    unfold ensureLspArray at htables
    cases hitem : doc.lsp with
    | missing =>
        rw [hitem] at htables hdocLsp
        rw [← Except.ok.inj htables]
        exact hdocLsp
    | tables entries =>
        rw [hitem] at htables hdocLsp
        rw [← Except.ok.inj htables]
        exact hdocLsp
    | value v =>
        rw [hitem] at htables
        exact absurd htables (by simp)
  rcases edited_cases cmd tables p.lsp hread with
    ⟨as, q, old, bs, hedits, hps, hbs, hold, hid, hcommand, hargs⟩
  have hp' := (readDocument_edited doc _ p _ hp hedits).2
  rw [← hedited] at hp'
  have hparsed := hprints doc edited hdoc hedit _ hp'
  rcases resolving_ends x fs root canon user project home hcanon huser hproject with
    ⟨n, before, hbefore, hmerged⟩
  have huser' := fileSays_write_ne x fs _ _ (e.print edited) user (userConfigPath_ne home canon)
    huser
  have hproject' := fileSays_write x fs (canon.join ["lspee.toml"]) (e.print edited) _ hparsed
  rw [← hfs'] at huser' hproject'
  have hcanon' : fs'.canonicalize root = .ok canon := by
    rw [hfs']
    exact hcanon
  rcases resolving_ends x fs' root canon user _ home hcanon' huser' hproject' with
    ⟨m, after, hafter, hmerged'⟩
  refine ⟨before, after, ⟨n, hbefore⟩, ⟨m, hafter⟩, ?_⟩
  rw [hmerged, hmerged', ← hlsp]
  refine takes_effect_iff cmd user.toList _ _ p.lsp as q old bs hps hbs hold hid hcommand hargs
    ?_ ?_
  · intro id
    rw [entriesFor_project, hlsp]
  · intro id
    rw [entriesFor_project]
    rfl

/-! ### A server that is there twice -/

/-- An entry of a file for `taplo`. -/
def taploEntry (command : String) : PartialLspConfig :=
  ⟨some "taplo", some command, none, none, none⟩

def taploTable (command : String) : TomlTable :=
  (Table.empty.set "id" (.string "taplo")).set "command" (.string command)

/-- A file with two entries for `taplo`, the second with an older command. -/
def twiceText (command : String) : String :=
  "[[lsp]]\nid = \"taplo\"\ncommand = \"" ++ command ++
    "\"\n\n[[lsp]]\nid = \"taplo\"\ncommand = \"old-taplo\"\n"

def twice (command : String) : PartialConfig :=
  ⟨[taploEntry command, taploEntry "old-taplo"], none, none, none, none, none⟩

def twiceDocument (command : String) : TomlDocument :=
  ⟨.tables [taploTable command, taploTable "old-taplo"], Table.empty⟩

/-- The parsers and the printers, as they are on these files. -/
def twiceExternals : Externals where
  tomlFromStr := fun text =>
    if text = twiceText "taplo" then .ok (twice "taplo")
    else if text = twiceText "new-taplo" then .ok (twice "new-taplo")
    else .error "unexpected text"
  tomlToString := fun _ =>
    "root_markers = [\".git\"]\nworkspace_mode = \"single\"\n\n" ++
    "[lsps.taplo]\nid = \"taplo\"\ncommand = \"old-taplo\"\nargs = []\n\n" ++
    "[lsps.taplo.env]\n\n[lsps.taplo.initialization_options]\n\n" ++
    "[transport_flags]\n\n[memory]\ncheck_interval_ms = 1000\n\n" ++
    "[session]\nidle_ttl_secs = 300\ndaemon_idle_ttl_secs = 1800\n"
  sha256Hex := fun _ => "e7027146de0f652d56130aabfd72d719950248572f623918512945c99f22fcdc"
  defaultLanguages := .ok taploCatalog

def twiceEdit : TomlEdit where
  parse := fun text =>
    if text = twiceText "taplo" then .ok (twiceDocument "taplo") else .error "unexpected text"
  print := fun _ => twiceText "new-taplo"

def twiceFiles : FileSystem where
  pathExists := fun path => path = taploRoot.join ["lspee.toml"]
  readToString := fun path =>
    if path = taploRoot.join ["lspee.toml"] then .ok (twiceText "taplo")
    else .error "No such file or directory (os error 2)"
  canonicalize := fun path => .ok path

def addNewTaplo : AddLspCommand := ⟨"taplo", "new-taplo", none⟩

def twiceFilesAfter : FileSystem :=
  twiceFiles.write (taploRoot.join ["lspee.toml"]) (twiceText "new-taplo")

theorem twice_user : FileSays twiceExternals twiceFiles (userConfigPath (some taploHome)) none := by
  unfold FileSays
  decide

theorem twice_project : FileSays twiceExternals twiceFiles (taploRoot.join ["lspee.toml"])
    (some (twice "taplo")) :=
  ⟨by decide, twiceText "taplo", rfl, rfl⟩

theorem twice_reads (raw : String)
    (h : twiceFiles.readToString (taploRoot.join ["lspee.toml"]) = .ok raw) :
    ReadsAlike twiceExternals twiceEdit raw := by
  have hraw : raw = twiceText "taplo" := (Except.ok.inj h).symm
  intro doc p hdoc hp
  rw [hraw] at hdoc hp
  rw [← Except.ok.inj hdoc, ← Except.ok.inj hp]
  rfl

theorem twice_add : runAddLsp twiceEdit twiceFiles taploRoot addNewTaplo (.ok ()) =
    .ok (twiceFilesAfter, "updated") := rfl

theorem twice_prints (doc edited : TomlDocument)
    (hdoc : loadOrCreateDoc twiceEdit twiceFiles (taploRoot.join ["lspee.toml"]) = .ok doc)
    (hedit : addLsp doc addNewTaplo = .ok (edited, "updated")) :
    PrintsBack twiceExternals twiceEdit edited := by
  intro p hp
  rw [← Except.ok.inj hdoc] at hedit
  rw [← (Prod.mk.inj (Except.ok.inj hedit)).1] at hp
  rw [← Option.some.inj hp]
  rfl

/-- The second entry has another command, and the edit of the first has no effect. -/
theorem add_lsp_takes_effect_iff_twice :
    ∃ before after, Resolves twiceExternals (some taploHome) twiceFiles taploRoot before ∧
      Resolves twiceExternals (some taploHome) twiceFilesAfter taploRoot after ∧
      ¬TakesEffect addNewTaplo before.merged after.merged := by
  rcases add_lsp_takes_effect_iff twiceExternals twiceEdit (some taploHome) twiceFiles
    twiceFilesAfter taploRoot taploRoot none (some (twice "taplo")) addNewTaplo (.ok ()) "updated"
    rfl twice_user twice_project twice_reads twice_prints twice_add with
    ⟨before, after, hbefore, hafter, heffect⟩
  refine ⟨before, after, hbefore, hafter, fun h => ?_⟩
  have hcommand := (heffect.mp h).1 "old-taplo" rfl
  exact absurd hcommand (by decide)

/-- Not every edit that succeeds has its effect. -/
theorem add_lsp_overruled :
    ¬ ∀ (x : Externals) (e : TomlEdit) (home : Option PathBuf) (fs fs' : FileSystem)
      (root canon : PathBuf) (user project : Option PartialConfig) (cmd : AddLspCommand)
      (written : Except String Unit) (printed : String),
      fs.canonicalize root = .ok canon → FileSays x fs (userConfigPath home) user →
      FileSays x fs (canon.join ["lspee.toml"]) project →
      (∀ raw, fs.readToString (canon.join ["lspee.toml"]) = .ok raw → ReadsAlike x e raw) →
      (∀ doc edited, loadOrCreateDoc e fs (canon.join ["lspee.toml"]) = .ok doc →
        addLsp doc cmd = .ok (edited, printed) → PrintsBack x e edited) →
      runAddLsp e fs root cmd written = .ok (fs', printed) →
      ∀ before after, Resolves x home fs root before → Resolves x home fs' root after →
        TakesEffect cmd before.merged after.merged := by
  intro hall
  have heffect := hall twiceExternals twiceEdit (some taploHome) twiceFiles twiceFilesAfter
    taploRoot taploRoot none (some (twice "taplo")) addNewTaplo (.ok ()) "updated" rfl twice_user
    twice_project twice_reads twice_prints twice_add _ _ ⟨4, rfl⟩ ⟨4, rfl⟩
  rcases heffect.1 with ⟨entry, hentry, hcommand, _⟩
  rw [← Option.some.inj hentry] at hcommand
  exact absurd hcommand (by decide)

end Lspee
