import Lspee.Theory.Commands

/-!
# Removing a Server from the Project's File

Whether `config remove-lsp` leaves no entry for the id, and everything else as it
was. The command takes an entry for the id's when the text under `id` is the id.
`resolve` takes it so also when there is no `id` at all and the id is `default`.
An entry like that is left in the file, so the removal is complete if and only if
the id is another one or every entry has its own (`remove_lsp_iff`).

A command that fails has not changed the file, unless the writing itself fails
half way.

## Main definitions

* `TomlSyntax.PrintsBack`: A printed document says what the document says.
* `RemovesOnly`: No entry for the id is left, and every other entry is.
* `RemovalComplete`: The condition.

## Theorems

* `mapM_filter_hasId`: The entries that are left, as the reader sees them.
* `removeLspItems_cases`: The ways the edit can end.
* `remove_lsp_iff`: The condition is exact.
* `remove_lsp_leaves_default`: A file in which `default` is left.
-/

namespace Lspee

open Layers

/-- What is printed for a document is accepted if and only if the document is, and says
    the same. -/
def TomlSyntax.PrintsBack (t : TomlSyntax) (x : Externals) (doc : TomlItems) : Prop :=
  (∀ p, readDocument (TomlItems.plain doc) = some p → x.tomlFromStr (t.print doc) = .ok p) ∧
    (readDocument (TomlItems.plain doc) = none →
      ∃ source, x.tomlFromStr (t.print doc) = .error source)

/-! ### What is left -/

/-- The entries that are left are those whose text under `id` is another or missing. -/
theorem mapM_filter_hasId (id : String) (entries : List TomlTable) (ps : List PartialLspConfig)
    (h : entries.mapM readLspEntry = some ps) :
    (entries.filter (fun entry => !hasId id entry)).mapM readLspEntry =
      some (ps.filter (fun p => p.id ≠ some id)) := by
  induction entries generalizing ps with
  | nil =>
      simp only [List.mapM_nil, Option.pure_def, Option.some.injEq] at h
      rw [← h]
      rfl
  | cons entry entries ih =>
      simp only [List.mapM_cons, Option.bind_eq_bind, Option.bind_eq_some_iff, Option.pure_def,
        Option.some.injEq] at h
      rcases h with ⟨p, hp, rest, hrest, rfl⟩
      have hid := hasId_iff id entry p hp
      have htail := ih rest hrest
      by_cases hhas : hasId id entry = true
      · rw [List.filter_cons_of_neg (by simp [hhas]),
          List.filter_cons_of_neg (by simpa using hid.mp hhas), htail]
      · have hne : p.id ≠ some id := fun heq => hhas (hid.mpr heq)
        rw [List.filter_cons_of_pos (by simpa using hhas),
          List.filter_cons_of_pos (by simpa using hne), List.mapM_cons, hp, htail]
        rfl

/-- The edit ends in an error, or the entries are an array of tables with the id among
    them. -/
theorem removeLspItems_cases (configPath : PathBuf) (doc : TomlItems) (cmd : RemoveLspCommand) :
    (∃ error, removeLspItems configPath doc cmd = .err error ∧
      ∀ entries, doc.get? "lsp" = some (.arrayOfTables entries) →
        entries.any (hasId cmd.id) = false) ∨
    ∃ entries, doc.get? "lsp" = some (.arrayOfTables entries) ∧
      entries.any (hasId cmd.id) = true ∧ removeLspItems configPath doc cmd =
        .ok (doc.set "lsp" (.arrayOfTables
          (entries.filter (fun entry => !hasId cmd.id entry))), "removed") := by
  unfold removeLspItems
  rcases hitem : doc.get? "lsp" with _ | (v | table | entries)
  · exact .inl ⟨_, rfl, by simp⟩
  · exact .inl ⟨_, rfl, by simp⟩
  · exact .inl ⟨_, rfl, by simp⟩
  · have hleft : removeFrom cmd.id 0 entries =
        entries.filter (fun entry => !hasId cmd.id entry) := by
      rw [removeFrom_eq, List.take_zero, List.nil_append, List.drop_zero]
    simp only [hleft]
    -- The command compares the lengths: they differ when an entry with the id is there.
    by_cases hany : entries.any (hasId cmd.id) = true
    · rcases List.any_eq_true.mp hany with ⟨entry, hentry, hhas⟩
      have hlength : (entries.filter (fun entry => !hasId cmd.id entry)).length ≠
          entries.length := by
        intro heq
        have hall := List.length_filter_eq_length_iff.mp heq entry hentry
        rw [hhas] at hall
        exact absurd hall (by decide)
      exact .inr ⟨entries, rfl, hany, if_neg hlength⟩
    · have hlength : (entries.filter (fun entry => !hasId cmd.id entry)).length =
          entries.length := by
        refine List.length_filter_eq_length_iff.mpr fun entry hentry => ?_
        have hnone : hasId cmd.id entry ≠ true := fun hhas =>
          hany (List.any_eq_true.mpr ⟨entry, hentry, hhas⟩)
        simpa using hnone
      refine .inl ⟨_, if_pos hlength, fun entries' heq => ?_⟩
      rw [Option.some.injEq, TomlItem.arrayOfTables.injEq] at heq
      rw [← heq]
      simpa using hany

/-! ### The removal -/

/-- No entry for the id is left, the other entries are, in their order, and every other
    id is merged to what it was. -/
structure RemovesOnly (id : String) (p p' : PartialConfig) (before after : EffectiveConfig) :
    Prop where
  gone : ∀ lsp ∈ p'.lsp, lsp.entryId ≠ id
  kept : p'.lsp.filter (fun lsp => lsp.entryId ≠ id) = p.lsp.filter (fun lsp => lsp.entryId ≠ id)
  merged : ∀ other, other ≠ id → after.lsps.get? other = before.lsps.get? other

/-- The entries without the text are the entries that do not resolve to the id, if and
    only if none is left that resolves to it for want of an id. -/
theorem filter_gone_iff (id : String) (ps : List PartialLspConfig) :
    (∀ lsp ∈ ps.filter (fun lsp => lsp.id ≠ some id), lsp.entryId ≠ id) ↔
      (id = "default" → ∀ lsp ∈ ps, lsp.id ≠ none) := by
  constructor
  · intro h hid lsp hlsp hnone
    have hkept : lsp ∈ ps.filter (fun lsp => lsp.id ≠ some id) :=
      List.mem_filter.mpr ⟨hlsp, by simp [hnone]⟩
    refine h lsp hkept ?_
    rw [PartialLspConfig.entryId, hnone, Option.getD_none, hid]
  · intro h lsp hlsp hentry
    rcases List.mem_filter.mp hlsp with ⟨hmem, hne⟩
    cases hlspId : lsp.id with
    | none =>
        rw [PartialLspConfig.entryId, hlspId, Option.getD_none] at hentry
        exact h hentry.symm lsp hmem hlspId
    | some s =>
        rw [PartialLspConfig.entryId, hlspId, Option.getD_some] at hentry
        rw [hlspId, hentry] at hne
        simp at hne

/-- A filter by the id an entry resolves to does not see the removal. -/
theorem filter_entryId_filter (id other : String) (ps : List PartialLspConfig)
    (hne : other ≠ id) :
    (ps.filter (fun lsp => lsp.id ≠ some id)).filter (fun lsp => lsp.entryId = other) =
      ps.filter (fun lsp => lsp.entryId = other) := by
  rw [List.filter_filter]
  refine List.filter_congr fun lsp _ => ?_
  by_cases hother : lsp.entryId = other
  · have hid : lsp.id ≠ some id := by
      intro heq
      rw [PartialLspConfig.entryId, heq, Option.getD_some] at hother
      exact hne hother.symm
    simp [hother, hid]
  · simp [hother]

theorem filter_not_entryId_filter (id : String) (ps : List PartialLspConfig) :
    (ps.filter (fun lsp => lsp.id ≠ some id)).filter (fun lsp => lsp.entryId ≠ id) =
      ps.filter (fun lsp => lsp.entryId ≠ id) := by
  rw [List.filter_filter]
  refine List.filter_congr fun lsp _ => ?_
  by_cases hentry : lsp.entryId = id
  · simp [hentry]
  · have hid : lsp.id ≠ some id := by
      intro heq
      rw [PartialLspConfig.entryId, heq, Option.getD_some] at hentry
      exact hentry rfl
    simp [hentry, hid]

/-- What a file says is one thing. -/
theorem fileSays_unique (x : Externals) (fs : FileSystem) (path : PathBuf) (p q : PartialConfig)
    (hp : FileSays x fs path (some p)) (hq : FileSays x fs path (some q)) : p = q := by
  rcases hp with ⟨_, raw, hraw, hparsed⟩
  rcases hq with ⟨_, raw', hraw', hparsed'⟩
  rw [hraw, Except.ok.injEq] at hraw'
  rw [← hraw', hparsed, Except.ok.injEq] at hparsed'
  exact hparsed'

/-- The file is as it was. -/
def SameFile (fs fs' : FileSystem) (path : PathBuf) : Prop :=
  fs'.pathExists path = fs.pathExists path ∧ fs'.readToString path = fs.readToString path

/-- What `remove-lsp` promises: the removal if it succeeds, and otherwise the same
    file. -/
def RemovesOrKeeps (x : Externals) (home : Option PathBuf) (fs : FileSystem) (root path : PathBuf)
    (id : String) (p : PartialConfig) : FileSystem × Outcome String → Prop
  | (fs', .ok _) => ∃ p' before after, FileSays x fs' path (some p') ∧
      Resolves x home fs root before ∧ Resolves x home fs' root after ∧
      RemovesOnly id p p' before.merged after.merged
  | (fs', _) => SameFile fs fs' path

/-- The condition. It matters only where the command comes to write, which is where an
    array of tables has an entry with the id: then, if the writing succeeds, every entry
    has an id of its own or the id is not `default`, and if it fails, it leaves the text
    that was there. -/
def RemovalComplete (t : TomlSyntax) (fs : FileSystem) (path : PathBuf) (id : String)
    (p : PartialConfig) (writing : Writing) : Prop :=
  ∀ doc, t.loadDoc fs path = .ok doc →
    ∀ entries, doc.get? "lsp" = some (.arrayOfTables entries) →
      entries.any (hasId id) = true →
      match writing with
      | .succeeds => id = "default" → ∀ lsp ∈ p.lsp, lsp.id ≠ none
      | .fails _ left => ∀ text, left = some text → fs.readToString path = .ok text

section Removal

variable (x : Externals) (t : TomlSyntax) (home : Option PathBuf) (fs : FileSystem)
  (root canon : PathBuf) (user : Option PartialConfig) (p : PartialConfig)

/-- The removal, once the edited document is written. -/
theorem removal_written (id : String) (doc edited : TomlItems) (entries : List TomlTable)
    (hcanon : fs.canonicalize root = .ok canon)
    (huser : FileSays x fs (userConfigPath home) user)
    (hproject : FileSays x fs (canon.join ["lspee.toml"]) (some p))
    (hdoc : readDocument (TomlItems.plain doc) = some p)
    (hitem : doc.get? "lsp" = some (.arrayOfTables entries))
    (hedited : edited =
      doc.set "lsp" (.arrayOfTables (entries.filter (fun entry => !hasId id entry))))
    (hprints : t.PrintsBack x edited) :
    RemovesOrKeeps x home fs root (canon.join ["lspee.toml"]) id p
        (fs.write (canon.join ["lspee.toml"]) (t.print edited), .ok "removed") ↔
      (id = "default" → ∀ lsp ∈ p.lsp, lsp.id ≠ none) := by
  -- The tables of the document are the entries of the file.
  have hread : entries.mapM readLspEntry = some p.lsp := by
    have hlsp := (readDocument_edited _ .missing p [] hdoc rfl).1
    rw [TomlItems.plain, hitem] at hlsp
    exact hlsp
  -- What is written is read back as the entries whose text is another.
  have hleft := mapM_filter_hasId id entries p.lsp hread
  have hp' := (readDocument_edited _ (.tables _) p _ hdoc hleft).2
  rw [← plain_set_lsp, ← hedited] at hp'
  have hproject' := fileSays_write x fs (canon.join ["lspee.toml"]) (t.print edited) _
    (hprints.1 _ hp')
  have huser' := fileSays_write_ne x fs _ _ (t.print edited) user (userConfigPath_ne home canon)
    huser
  rcases resolving_ends x fs root canon user (some p) home hcanon huser hproject with
    ⟨n, before, hbefore, hmerged⟩
  rcases resolving_ends x (fs.write (canon.join ["lspee.toml"]) (t.print edited)) root canon user
    _ home hcanon huser' hproject' with ⟨m, after, hafter, hmerged'⟩
  constructor
  · rintro ⟨q, _, _, hq, _, _, hremoves⟩
    -- The file says one thing, so what is left is what the edit has left.
    have hgone := hremoves.gone
    rw [fileSays_unique x _ _ _ _ hq hproject'] at hgone
    exact (filter_gone_iff id p.lsp).mp hgone
  · intro hids
    refine ⟨_, before, after, hproject', ⟨n, hbefore⟩, ⟨m, hafter⟩, ?_⟩
    refine ⟨(filter_gone_iff id p.lsp).mpr hids, filter_not_entryId_filter id p.lsp, ?_⟩
    intro other hne
    rw [hmerged, hmerged']
    refine lookup_congr defaultConfig _ _ other ?_
    rw [entriesFor_project, entriesFor_project]
    exact congrArg _ (filter_entryId_filter id other p.lsp hne)

/-- `remove-lsp` leaves no entry for the id and every other entry as it was if it
    succeeds, and the file as it was if it fails, if and only if the removal is
    complete. -/
theorem remove_lsp_iff (cmd : RemoveLspCommand) (writing : Writing)
    (hcanon : fs.canonicalize root = .ok canon)
    (huser : FileSays x fs (userConfigPath home) user)
    (hproject : FileSays x fs (canon.join ["lspee.toml"]) (some p))
    (hreads : ∀ raw, fs.readToString (canon.join ["lspee.toml"]) = .ok raw → t.ReadsAlike x raw)
    (hprints : ∀ doc edited printed, t.loadDoc fs (canon.join ["lspee.toml"]) = .ok doc →
      removeLspItems (canon.join ["lspee.toml"]) doc cmd = .ok (edited, printed) →
      t.PrintsBack x edited) :
    RemovesOrKeeps x home fs root (canon.join ["lspee.toml"]) cmd.id p
        (t.runRemoveLsp fs root cmd writing) ↔
      RemovalComplete t fs (canon.join ["lspee.toml"]) cmd.id p writing := by
  rcases hproject with ⟨hexists, raw, hraw, hparsed⟩
  unfold TomlSyntax.runRemoveLsp RemovalComplete
  simp only [hcanon, hexists, if_true]
  cases hload : t.loadDoc fs (canon.join ["lspee.toml"]) with
  | error error =>
      refine iff_of_true ⟨rfl, rfl⟩ ?_
      intro _ hdoc
      exact absurd hdoc (by simp)
  | ok doc =>
      have hdoc : readDocument (TomlItems.plain doc) = some p := by
        unfold TomlSyntax.loadDoc at hload
        cases hparse : t.parse raw with
        | error source => simp [hraw, hparse] at hload
        | ok doc' =>
            simp only [hraw, hparse, Except.ok.injEq] at hload
            rw [← hload]
            exact hreads raw hraw doc' p hparse hparsed
      simp only [Except.ok.injEq, forall_eq']
      rcases removeLspItems_cases (canon.join ["lspee.toml"]) doc cmd with
        ⟨error, hedit, hnone⟩ | ⟨entries, hitem, hany, hedit⟩
      · rw [hedit]
        refine iff_of_true ⟨rfl, rfl⟩ ?_
        intro entries hitem hany
        rw [hnone entries hitem] at hany
        exact absurd hany (by decide)
      -- The document has one array of tables, so the condition is about this one.
      · have hforall : ∀ P : Prop, (∀ entries', doc.get? "lsp" = some (.arrayOfTables entries') →
            entries'.any (hasId cmd.id) = true → P) ↔ P :=
          fun P => ⟨fun h => h entries hitem hany, fun h _ _ _ => h⟩
        rw [hforall, hedit]
        cases writing with
        | succeeds =>
            exact removal_written x t home fs root canon user p cmd.id doc _ entries hcanon huser
              ⟨hexists, raw, hraw, hparsed⟩ hdoc hitem rfl (hprints doc _ _ hload hedit)
        | fails source left =>
            cases left with
            | none => exact iff_of_true ⟨rfl, rfl⟩ (by simp)
            | some text =>
                simp only [TomlSyntax.finish, RemovesOrKeeps, SameFile, FileSystem.write,
                  if_true, hexists, true_and, Option.some.injEq, forall_eq']
                exact eq_comm

end Removal

/-! ### A file with an entry without an id -/

def namelessTable : TomlTable := Table.empty.set "command" (.string "old-taplo")

def namelessEntry : PartialLspConfig := ⟨none, some "old-taplo", none, none, none⟩

def defaultTable : TomlTable :=
  (Table.empty.set "id" (.string "default")).set "command" (.string "taplo")

def defaultEntry : PartialLspConfig := ⟨some "default", some "taplo", none, none, none⟩

def namelessText : String := "[[lsp]]\ncommand = \"old-taplo\"\n"

/-- The file has an entry for `taplo`, one for `default` and one without an id. -/
def namedText (id : String) : String :=
  "[[lsp]]\nid = \"" ++ id ++ "\"\ncommand = \"taplo\"\n\n" ++ namelessText

def threeText : String := "[[lsp]]\nid = \"taplo\"\ncommand = \"taplo\"\n\n" ++
  namedText "default"

def serversOf (lsp : List PartialLspConfig) : PartialConfig := ⟨lsp, none, none, none, none, none⟩

def threeItems : TomlItems :=
  Table.empty.set "lsp" (.arrayOfTables [taploTable "taplo", defaultTable, namelessTable])

/-- The parsers and the printers, as they are on this file and on those that a removal
    makes of it. -/
def threeExternals : Externals where
  tomlFromStr := fun text =>
    if text = threeText then .ok (serversOf [taploEntry "taplo", defaultEntry, namelessEntry])
    else if text = namedText "default" then .ok (serversOf [defaultEntry, namelessEntry])
    else if text = namedText "taplo" then .ok (serversOf [taploEntry "taplo", namelessEntry])
    else .error "unexpected text"
  tomlToString := inlineExternals.tomlToString
  sha256Hex := inlineExternals.sha256Hex
  defaultLanguages := .ok taploCatalog

def threeSyntax : TomlSyntax where
  parse := fun text => if text = threeText then .ok threeItems else .error "unexpected text"
  print := fun doc => match doc.get? "lsp" with
    | some (.arrayOfTables (entry :: _)) =>
      if hasId "taplo" entry then namedText "taplo" else namedText "default"
    | _ => namelessText

def threeFiles : FileSystem where
  pathExists := fun path => path = taploRoot.join ["lspee.toml"]
  readToString := fun path =>
    if path = taploRoot.join ["lspee.toml"] then .ok threeText
    else .error "No such file or directory (os error 2)"
  canonicalize := fun path => .ok path

theorem three_user : FileSays threeExternals threeFiles (userConfigPath (some taploHome)) none := by
  unfold FileSays
  decide

theorem three_project : FileSays threeExternals threeFiles (taploRoot.join ["lspee.toml"])
    (some (serversOf [taploEntry "taplo", defaultEntry, namelessEntry])) :=
  ⟨by decide, threeText, rfl, rfl⟩

theorem three_reads (raw : String)
    (h : threeFiles.readToString (taploRoot.join ["lspee.toml"]) = .ok raw) :
    threeSyntax.ReadsAlike threeExternals raw := by
  have hraw : raw = threeText := (Except.ok.inj h).symm
  intro doc p hdoc hp
  rw [hraw] at hdoc hp
  rw [← Except.ok.inj hdoc, ← Except.ok.inj hp]
  rfl

theorem three_edited (id : String) (doc edited : TomlItems) (printed : String)
    (hdoc : threeSyntax.loadDoc threeFiles (taploRoot.join ["lspee.toml"]) = .ok doc)
    (hedit : removeLspItems (taploRoot.join ["lspee.toml"]) doc ⟨id⟩ = .ok (edited, printed)) :
    edited = threeItems.set "lsp" (.arrayOfTables
      ([taploTable "taplo", defaultTable, namelessTable].filter
        (fun entry => !hasId id entry))) := by
  rw [← Except.ok.inj hdoc] at hedit
  rcases removeLspItems_cases (taploRoot.join ["lspee.toml"]) threeItems ⟨id⟩ with
    ⟨error, herror, _⟩ | ⟨entries, hitem, _, hok⟩
  · rw [show removeLspItems (taploRoot.join ["lspee.toml"]) threeItems ⟨id⟩ = .ok (edited, printed)
      from hedit] at herror
    exact absurd herror (by simp)
  · rw [show removeLspItems (taploRoot.join ["lspee.toml"]) threeItems ⟨id⟩ = .ok (edited, printed)
      from hedit, Outcome.ok.injEq, Prod.mk.injEq] at hok
    have hentries : some (TomlItem.arrayOfTables
        [taploTable "taplo", defaultTable, namelessTable]) = some (.arrayOfTables entries) := hitem
    rw [Option.some.injEq, TomlItem.arrayOfTables.injEq] at hentries
    rw [hok.1, hentries]

theorem three_prints (id : String) (hid : id = "taplo" ∨ id = "default") (doc edited : TomlItems)
    (printed : String)
    (hdoc : threeSyntax.loadDoc threeFiles (taploRoot.join ["lspee.toml"]) = .ok doc)
    (hedit : removeLspItems (taploRoot.join ["lspee.toml"]) doc ⟨id⟩ = .ok (edited, printed)) :
    threeSyntax.PrintsBack threeExternals edited := by
  rw [three_edited id doc edited printed hdoc hedit]
  rcases hid with rfl | rfl
  · refine ⟨fun p hp => ?_, fun hnone => absurd hnone (by decide)⟩
    rw [← Option.some.inj hp]
    rfl
  · refine ⟨fun p hp => ?_, fun hnone => absurd hnone (by decide)⟩
    rw [← Option.some.inj hp]
    rfl

/-- The removal of `taplo` is complete. -/
theorem remove_lsp_iff_three : RemovesOrKeeps threeExternals (some taploHome) threeFiles taploRoot
    (taploRoot.join ["lspee.toml"]) "taplo"
    (serversOf [taploEntry "taplo", defaultEntry, namelessEntry])
    (threeSyntax.runRemoveLsp threeFiles taploRoot ⟨"taplo"⟩ .succeeds) := by
  refine (remove_lsp_iff threeExternals threeSyntax (some taploHome) threeFiles taploRoot taploRoot
    none _ ⟨"taplo"⟩ .succeeds rfl three_user three_project three_reads
    (fun doc edited printed => three_prints "taplo" (.inl rfl) doc edited printed)).mpr ?_
  intro _ _ _ _ _ hid
  exact absurd hid (by decide)

/-- The removal of `default` leaves the entry without an id, which is one for `default`
    to `resolve`. -/
theorem remove_lsp_leaves_default :
    ¬ ∀ (x : Externals) (t : TomlSyntax) (home : Option PathBuf) (fs : FileSystem)
      (root canon : PathBuf) (user : Option PartialConfig) (p : PartialConfig)
      (cmd : RemoveLspCommand), fs.canonicalize root = .ok canon →
      FileSays x fs (userConfigPath home) user →
      FileSays x fs (canon.join ["lspee.toml"]) (some p) →
      (∀ raw, fs.readToString (canon.join ["lspee.toml"]) = .ok raw → t.ReadsAlike x raw) →
      (∀ doc edited printed, t.loadDoc fs (canon.join ["lspee.toml"]) = .ok doc →
        removeLspItems (canon.join ["lspee.toml"]) doc cmd = .ok (edited, printed) →
        t.PrintsBack x edited) →
      RemovesOrKeeps x home fs root (canon.join ["lspee.toml"]) cmd.id p
        (t.runRemoveLsp fs root cmd .succeeds) := by
  intro hall
  have hremoves := hall threeExternals threeSyntax (some taploHome) threeFiles taploRoot taploRoot
    none _ ⟨"default"⟩ rfl three_user three_project three_reads
    (fun doc edited printed => three_prints "default" (.inr rfl) doc edited printed)
  have hedit : removeLspItems (taploRoot.join ["lspee.toml"]) threeItems ⟨"default"⟩ =
      .ok (threeItems.set "lsp" (.arrayOfTables [taploTable "taplo", namelessTable]),
        "removed") := by
    simp only [removeLspItems, removeFrom_eq]
    rfl
  have hrun : threeSyntax.runRemoveLsp threeFiles taploRoot ⟨"default"⟩ .succeeds =
      (threeFiles.write (taploRoot.join ["lspee.toml"]) (namedText "taplo"), .ok "removed") := by
    have hload : threeSyntax.loadDoc threeFiles (taploRoot.join ["lspee.toml"]) =
        .ok threeItems := rfl
    unfold TomlSyntax.runRemoveLsp
    simp only [show threeFiles.canonicalize taploRoot = .ok taploRoot from rfl, hload, hedit,
      show threeFiles.pathExists (taploRoot.join ["lspee.toml"]) = true by decide, if_true]
    rfl
  rw [hrun] at hremoves
  rcases hremoves with ⟨p', _, _, hp', _, _, hremoved⟩
  have hsays : FileSays threeExternals
      (threeFiles.write (taploRoot.join ["lspee.toml"]) (namedText "taplo"))
      (taploRoot.join ["lspee.toml"]) (some (serversOf [taploEntry "taplo", namelessEntry])) :=
    fileSays_write threeExternals threeFiles _ _ _ rfl
  have hgone := hremoved.gone
  rw [fileSays_unique _ _ _ _ _ hp' hsays] at hgone
  exact hgone namelessEntry (by simp [serversOf]) rfl

end Lspee
