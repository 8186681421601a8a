import Lspee.Core.Commands
import Lspee.Theory.Editing

/-!
# The Commands on Files of Every Shape

Whether a command that edits the file always ends in a result or in an error, and
leaves the file alone in the second case. All three edit the document first and
write it last, so an error before the writing has changed nothing. `remove-lsp`
and `set` ask what they find in the document and turn what they cannot use into an
error. `add-lsp` expects an array of tables under `lsp`, and panics on another
item (`commands_total_iff`). A file may well have one there: `lsp = []` is an array
with no entries to `resolve`.

An edit of the tables under `lsp` is one of the entries that `resolve` reads
(`plain_set_lsp`).

## Main definitions

* `TotalAtomic`: A result, or an error and the same files.
* `TomlSyntax.ReadsAlike`: Both parsers read the same in a text.
* `MeetsValue`: The command is `add-lsp`, and `lsp` is not an array of tables.

## Theorems

* `readField_plain`, `readDocument_congr`: Only lookups matter to the reader.
* `plain_set_lsp`: The edits of `lsp`, as the reader sees them.
* `removeFrom_eq`: The loop keeps the entries without the id.
* `commands_total_iff`: The condition is exact.
* `add_lsp_panics`: A file on which `add-lsp` panics.
-/

namespace Lspee

/-! ### What is read -/

theorem readField_plain {α : Type} (read : TomlValue → Option α) (doc : TomlItems) (key : String)
    (h : key ≠ "lsp") : readField read doc.plain.rest key =
      ((doc.get? key).map TomlItem.toValue).elim (some none) (fun v => (read v).map some) := by
  have hget : doc.plain.rest.get? key = (doc.get? key).map TomlItem.toValue := by
    rw [TomlItems.plain, Table.get?_map, Table.get?_erase_ne _ _ _ h]
  rw [readField, hget]
  cases doc.get? key with
  | none => rfl
  | some item => rfl

/-- Two documents with the same lookups are read alike. -/
theorem readDocument_congr (doc doc' : TomlDocument) (hlsp : doc'.lsp = doc.lsp)
    (hrest : ∀ key, doc'.rest.get? key = doc.rest.get? key) :
    readDocument doc' = readDocument doc := by
  have hfield : ∀ {α : Type} (read : TomlValue → Option α) (key : String),
      readField read doc'.rest key = readField read doc.rest key := by
    intro α read key
    rw [readField, hrest, readField]
  simp only [readDocument, hlsp, hfield]

/-- An edit of the tables under `lsp` is one of the entries the reader sees. -/
theorem plain_set_lsp (doc : TomlItems) (entries : List TomlTable) :
    readDocument (TomlItems.plain (doc.set "lsp" (.arrayOfTables entries))) =
      readDocument { doc.plain with lsp := .tables entries } := by
  refine readDocument_congr _ _ ?_ ?_
  · rw [TomlItems.plain, Table.get?_set_self]
    rfl
  · intro key
    simp only [TomlItems.plain, Table.get?_map, Table.get?_erase]
    by_cases hkey : key = "lsp"
    · rw [if_pos hkey, if_pos hkey]
    · rw [if_neg hkey, if_neg hkey, Table.get?_set_ne _ _ _ _ hkey]

/-- The parser of documents and that of configurations read the same in a text. -/
def TomlSyntax.ReadsAlike (t : TomlSyntax) (x : Externals) (raw : String) : Prop :=
  ∀ doc p, t.parse raw = .ok doc → x.tomlFromStr raw = .ok p →
    readDocument (TomlItems.plain doc) = some p

/-! ### The edits -/

/-- The loop looks at every entry once: what it has passed stays, and of the rest
    the entries without the id. The induction is on the calls of the loop. -/
theorem removeFrom_eq (id : String) (idx : Nat) (lspArray : List TomlTable) :
    removeFrom id idx lspArray =
      lspArray.take idx ++ (lspArray.drop idx).filter (fun entry => !hasId id entry) := by
  induction idx, lspArray using removeFrom.induct id with
  | case1 idx lspArray h hhas ih =>
      have hdrop : lspArray.drop idx = lspArray[idx] :: lspArray.drop (idx + 1) :=
        List.drop_eq_getElem_cons h
      -- The entry goes, and the index now stands at the next one.
      rw [removeFrom, dif_pos h, if_pos hhas, ih, List.eraseIdx_eq_take_drop_succ,
        List.take_left' (by rw [List.length_take]; omega),
        List.drop_left' (by rw [List.length_take]; omega), hdrop,
        List.filter_cons_of_neg (by simp [hhas])]
  | case2 idx lspArray h hhas ih =>
      have hdrop : lspArray.drop idx = lspArray[idx] :: lspArray.drop (idx + 1) :=
        List.drop_eq_getElem_cons h
      have hkept : lspArray.take (idx + 1) = lspArray.take idx ++ [lspArray[idx]] :=
        (List.take_append_getElem h).symm
      -- The entry stays, and the index moves on.
      rw [removeFrom, dif_pos h, if_neg hhas, ih, hdrop,
        List.filter_cons_of_pos (by simpa using hhas), hkept, List.append_assoc]
      rfl
  | case3 idx lspArray h =>
      rw [removeFrom, dif_neg h, List.take_of_length_le (by omega),
        List.drop_eq_nil_of_le (by omega), List.filter_nil, List.append_nil]

/-- No edit of `remove-lsp` or of `set` panics. -/
theorem removeLspItems_total (configPath : PathBuf) (doc : TomlItems) (cmd : RemoveLspCommand)
    (message : String) : removeLspItems configPath doc cmd ≠ .panicked message := by
  unfold removeLspItems
  rcases doc.get? "lsp" with _ | (v | table | entries)
  · simp
  · simp
  · simp
  · by_cases hleft : (removeFrom cmd.id 0 entries).length = entries.length
    · simp [hleft]
    · simp [hleft]

theorem setItems_total (doc : TomlItems) (cmd : SetCommand) (message : String) :
    setItems doc cmd ≠ .panicked message := by
  unfold setItems
  rcases splitDots cmd.key with _ | ⟨name, _ | ⟨key, _ | ⟨more, rest⟩⟩⟩
  · simp
  · simp
  · cases hitem : (doc.get? name).getD (.table Table.empty) with
    | value v => simp [hitem]
    | table table => simp [hitem]
    | arrayOfTables entries => simp [hitem]
  · simp

/-! ### The commands -/

/-- The command has ended in a result, or in an error with the files as they were. -/
def TotalAtomic (fs : FileSystem) : FileSystem × Outcome String → Prop
  | (_, .ok _) => True
  | (fs', .err _) => fs' = fs
  | (_, .panicked _) => False

/-- What `add-lsp` finds under `lsp` is there, and is not an array of tables. -/
def MeetsValue (t : TomlSyntax) (fs : FileSystem) (root : PathBuf) (action : ConfigAction) : Prop :=
  ∃ cmd canon doc item, action = .addLsp cmd ∧ fs.canonicalize root = .ok canon ∧
    t.loadOrCreateDoc fs (canon.join ["lspee.toml"]) = .ok doc ∧ doc.get? "lsp" = some item ∧
    ∀ entries, item ≠ .arrayOfTables entries

theorem finish_totalAtomic (t : TomlSyntax) (fs : FileSystem) (path : PathBuf)
    (edit : Outcome (TomlItems × String)) :
    TotalAtomic fs (t.finish fs path .succeeds edit) ↔ ∀ message, edit ≠ .panicked message := by
  rcases edit with ⟨doc, printed⟩ | error | message
  · simp [TomlSyntax.finish, TotalAtomic]
  · simp [TomlSyntax.finish, TotalAtomic]
  · simp [TomlSyntax.finish, TotalAtomic]

theorem addLspItems_panics_iff (doc : TomlItems) (cmd : AddLspCommand) :
    (∃ message, addLspItems doc cmd = .panicked message) ↔
      ∃ item, doc.get? "lsp" = some item ∧ ∀ entries, item ≠ .arrayOfTables entries := by
  unfold addLspItems ensureLspItems
  rcases doc.get? "lsp" with _ | (v | table | entries)
  · cases hfirst : updateFirst cmd [] <;> simp [hfirst]
  · simp
  · simp
  · cases hfirst : updateFirst cmd entries <;> simp [hfirst]

/-- Every command ends in a result, or in an error with the files as they were, if and
    only if it is not `add-lsp` on a file whose `lsp` is something else than an array
    of tables. This is for every text and all arguments, the file being there or not. -/
theorem commands_total_iff (t : TomlSyntax) (fs : FileSystem) (root : PathBuf)
    (action : ConfigAction) :
    TotalAtomic fs (action.run t fs root .succeeds) ↔ ¬MeetsValue t fs root action := by
  cases action with
  | addLsp cmd =>
      rw [ConfigAction.run, TomlSyntax.runAddLsp]
      cases hcanon : fs.canonicalize root with
      | error source => simp [TotalAtomic, MeetsValue, hcanon]
      | ok canon =>
          cases hdoc : t.loadOrCreateDoc fs (canon.join ["lspee.toml"]) with
          | error error => simp [TotalAtomic, MeetsValue, hcanon, hdoc]
          | ok doc =>
              -- Only the edit can panic; reading and writing end in errors.
              have hpanics := addLspItems_panics_iff doc cmd
              simp only [hdoc, finish_totalAtomic]
              rw [← not_exists, hpanics]
              refine not_congr ⟨?_, ?_⟩
              · rintro ⟨item, hitem, hne⟩
                exact ⟨cmd, canon, doc, item, rfl, hcanon, hdoc, hitem, hne⟩
              · rintro ⟨cmd', canon', doc', item, _, hcanon', hdoc', hitem, hne⟩
                rw [hcanon, Except.ok.injEq] at hcanon'
                rw [← hcanon', hdoc, Except.ok.injEq] at hdoc'
                rw [← hdoc'] at hitem
                exact ⟨item, hitem, hne⟩
  | removeLsp cmd =>
      have hnot : ¬MeetsValue t fs root (.removeLsp cmd) := by
        rintro ⟨_, _, _, _, haction, _⟩
        exact absurd haction (by simp)
      refine iff_of_true ?_ hnot
      rw [ConfigAction.run, TomlSyntax.runRemoveLsp]
      cases hcanon : fs.canonicalize root with
      | error source => rfl
      | ok canon =>
          by_cases hexists : fs.pathExists (canon.join ["lspee.toml"]) = true
          · cases hdoc : t.loadDoc fs (canon.join ["lspee.toml"]) with
            | error error => simp [TotalAtomic, hexists, hdoc]
            | ok doc =>
                simp only [hexists, hdoc, if_true]
                exact (finish_totalAtomic _ _ _ _).mpr (removeLspItems_total _ doc cmd)
          · simp [TotalAtomic, hexists]
  | set cmd =>
      have hnot : ¬MeetsValue t fs root (.set cmd) := by
        rintro ⟨_, _, _, _, haction, _⟩
        exact absurd haction (by simp)
      refine iff_of_true ?_ hnot
      rw [ConfigAction.run, TomlSyntax.runSet]
      cases hcanon : fs.canonicalize root with
      | error source => rfl
      | ok canon =>
          cases hdoc : t.loadOrCreateDoc fs (canon.join ["lspee.toml"]) with
          | error error => simp [TotalAtomic, hdoc]
          | ok doc =>
              simp only [hdoc]
              exact (finish_totalAtomic _ _ _ _).mpr (setItems_total doc cmd)

/-! ### A file with an inline array -/

def inlineDocument : TomlItems := Table.empty.set "lsp" (.value (.array []))

/-- The file has no servers, and says so. -/
def inlineSyntax : TomlSyntax where
  parse := fun text => if text = "lsp = []\n" then .ok inlineDocument else .error "unexpected text"
  print := fun _ => "lsp = []\n"

def inlineExternals : Externals where
  tomlFromStr := fun text =>
    if text = "lsp = []\n" then .ok ⟨[], none, none, none, none, none⟩
    else .error "unexpected text"
  tomlToString := fun _ =>
    "root_markers = [\".git\"]\nworkspace_mode = \"single\"\n\n[lsps]\n\n" ++
    "[transport_flags]\n\n[memory]\ncheck_interval_ms = 1000\n\n" ++
    "[session]\nidle_ttl_secs = 300\ndaemon_idle_ttl_secs = 1800\n"
  sha256Hex := fun _ => "991b6998c649ac3c88f6468b39b8ba9dd6dea135ea70f41ea9bb8699bd255e2b"
  defaultLanguages := .ok taploCatalog

def inlineFiles : FileSystem where
  pathExists := fun path => path = taploRoot.join ["lspee.toml"]
  readToString := fun path =>
    if path = taploRoot.join ["lspee.toml"] then .ok "lsp = []\n"
    else .error "No such file or directory (os error 2)"
  canonicalize := fun path => .ok path

theorem inline_reads (raw : String) : inlineSyntax.ReadsAlike inlineExternals raw := by
  intro doc p hdoc hp
  by_cases hraw : raw = "lsp = []\n"
  · rw [hraw] at hdoc hp
    rw [← Except.ok.inj hdoc, ← Except.ok.inj hp]
    rfl
  · simp [inlineSyntax, hraw] at hdoc

/-- A file that `resolve` accepts, and `add-lsp` panics on it. -/
theorem add_lsp_panics :
    ¬ ∀ (x : Externals) (t : TomlSyntax) (home : Option PathBuf) (fs : FileSystem)
      (root : PathBuf) (action : ConfigAction), (∀ raw, t.ReadsAlike x raw) →
      (∃ resolved, Resolves x home fs root resolved) →
      TotalAtomic fs (action.run t fs root .succeeds) := by
  intro hall
  exact hall inlineExternals inlineSyntax (some taploHome) inlineFiles taploRoot
    (.addLsp ⟨"taplo", "taplo", none⟩) inline_reads ⟨_, 4, rfl⟩

end Lspee
