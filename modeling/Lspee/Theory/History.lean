import Lspee.Lib.Transition
import Lspee.Theory.Removal
import Lspee.Theory.Setting

/-!
# A File That Is Edited Again and Again

What comes of any sequence of `config add-lsp`, `config remove-lsp` and `config set` on
one project.

What these commands are for is a table: an id has an entry or has none, `add-lsp` gives
it one or changes the one it has, `remove-lsp` takes it away, and `set` has nothing to do
with it. The file is something else. It is a text that every command parses and prints
again; the entries in it stand in a list, in which an id may occur many times or not at
all; the list is missing when the file is new; and a command can fail at every point.

Where the entries of the file have different ids, the commands do with the file what
they are to do with the table, and they say so: an entry is `added` if and only if the
id had none, and removing one fails if and only if there was none (`edits_refine`). No
command panics. Entries without an id are left alone. This is an induction over the
commands; that a command keeps it is shown on documents first, where an equation for each
id says both that the table is right and that the ids differ (`Servers.Of`).

It takes that no `set` names `lsp`, which would put a value in the place of the list,
that a write that fails leaves no other text in the file, and that the parser reads in a
text what the printer has printed there.

## Main definitions

* `Servers`, `Servers.Goes`, `Servers.Lives`: The table, and what becomes of it.
* `Edit`, `editStep`, `outcomesOf`: The commands on the files.
* `Servers.Of`, `HasServers`: What the table has to do with a file.
* `Edit.Calm`, `PrintsEntries`: What is taken of the commands and the printer.

## Theorems

* `Servers.of_put`: An entry of the table is changed.
* `Servers.add_goes`, `Servers.remove_goes`, `Servers.set_goes`: The commands on
  documents.
* `edit_goes`: One command.
* `edits_refine`: Any number of them.
-/

namespace Lspee

open Transition

/-- A command, and what becomes of writing the file. -/
structure Edit where
  action : ConfigAction
  writing : Writing

/-! ### What the commands are for -/

/-- The servers of a project: the entry of an id, and the entries that have none. -/
structure Servers where
  entry : String → Option PartialLspConfig
  unnamed : List PartialLspConfig

namespace Servers

/-- The servers with another entry for the id, or with none. -/
def put (s : Servers) (id : String) (p : Option PartialLspConfig) : Servers :=
  { s with entry := fun other => if other = id then p else s.entry other }

@[simp] theorem put_self (s : Servers) (id : String) (p : Option PartialLspConfig) :
    (s.put id p).entry id = p := if_pos rfl

theorem put_ne (s : Servers) (id other : String) (p : Option PartialLspConfig)
    (h : other ≠ id) : (s.put id p).entry other = s.entry other := if_neg h

/-- The entry that an id is given that has none. -/
def added (cmd : AddLspCommand) : PartialLspConfig :=
  ⟨some cmd.id, some cmd.command, some (cmd.args.getD []), none, none⟩

/-- What a command does to the servers, and how it ends. -/
inductive Goes (s : Servers) : Edit → Outcome String → Servers → Prop where
  | added (cmd : AddLspCommand) (h : s.entry cmd.id = none) :
      Goes s ⟨.addLsp cmd, .succeeds⟩ (.ok "added") (s.put cmd.id (some (added cmd)))
  | updated (cmd : AddLspCommand) (p : PartialLspConfig) (h : s.entry cmd.id = some p) :
      Goes s ⟨.addLsp cmd, .succeeds⟩ (.ok "updated") (s.put cmd.id (some (updated cmd p)))
  | removed (cmd : RemoveLspCommand) (p : PartialLspConfig) (h : s.entry cmd.id = some p) :
      Goes s ⟨.removeLsp cmd, .succeeds⟩ (.ok "removed") (s.put cmd.id none)
  | missing (cmd : RemoveLspCommand) (writing : Writing) (error : String)
      (h : s.entry cmd.id = none) : Goes s ⟨.removeLsp cmd, writing⟩ (.err error) s
  | set (cmd : SetCommand) (printed : String) : Goes s ⟨.set cmd, .succeeds⟩ (.ok printed) s
  | notSet (cmd : SetCommand) (writing : Writing) (error : String) :
      Goes s ⟨.set cmd, writing⟩ (.err error) s
  | unwritten (action : ConfigAction) (source : String) :
      Goes s ⟨action, .fails source none⟩ (.err source) s

/-- What a sequence of commands does. -/
inductive Lives : Servers → List Edit → List (Outcome String) → Servers → Prop where
  | nil (s : Servers) : Lives s [] [] s
  | cons (s t u : Servers) (e : Edit) (es : List Edit) (out : Outcome String)
      (outs : List (Outcome String)) (h : Goes s e out t) (rest : Lives t es outs u) :
      Lives s (e :: es) (out :: outs) u

/-- The entries of a file are those of the servers: for an id at most one, which is
    its own. -/
structure Of (s : Servers) (ps : List PartialLspConfig) : Prop where
  entry : ∀ id, ps.filter (fun p => p.id = some id) = (s.entry id).toList
  unnamed : ps.filter (fun p => p.id = none) = s.unnamed

end Servers

/-! ### The commands on the files -/

/-- The files after a command. -/
def editStep (t : TomlSyntax) (root : PathBuf) (fs : FileSystem) (e : Edit) : Option FileSystem :=
  some (e.action.run t fs root e.writing).1

/-- How the commands end, one after the other. -/
def outcomesOf (t : TomlSyntax) (root : PathBuf) : FileSystem → List Edit → List (Outcome String)
  | _, [] => []
  | fs, e :: es =>
    let after := e.action.run t fs root e.writing
    after.2 :: outcomesOf t root after.1 es

/-- A write that fails leaves the text, and no `set` names `lsp`. -/
def Edit.Calm (e : Edit) : Prop :=
  (∀ source left, e.writing ≠ .fails source (some left)) ∧
    ∀ cmd, e.action = .set cmd → (splitDots cmd.key).head? ≠ some "lsp"

/-- The entries of a document, if they stand where the commands look for them. -/
def entriesOf (doc : TomlItems) : Option (List PartialLspConfig) :=
  match doc.get? "lsp" with
  | none => some []
  | some (.arrayOfTables entries) => entries.mapM readLspEntry
  | some _ => none

/-- The file at the path has these servers. -/
def HasServers (t : TomlSyntax) (path : PathBuf) (s : Servers) (fs : FileSystem) : Prop :=
  ∃ doc ps, t.loadOrCreateDoc fs path = .ok doc ∧ entriesOf doc = some ps ∧ s.Of ps

/-- Where the file is a document that has been printed, the parser reads its entries. -/
def PrintsEntries (t : TomlSyntax) (path : PathBuf) (fs : FileSystem) : Prop :=
  ∀ doc, fs.readToString path = .ok (t.print doc) →
    ∃ doc', t.parse (t.print doc) = .ok doc' ∧ entriesOf doc' = entriesOf doc

/-! ### One document -/

theorem entriesOf_set (doc : TomlItems) (entries : List TomlTable) :
    entriesOf (doc.set "lsp" (.arrayOfTables entries)) = entries.mapM readLspEntry := by
  unfold entriesOf
  rw [Table.get?_set_self]

theorem entriesOf_set_ne (doc : TomlItems) (name : String) (item : TomlItem) (h : name ≠ "lsp") :
    entriesOf (doc.set name item) = entriesOf doc := by
  unfold entriesOf
  rw [Table.get?_set_ne _ _ _ _ (Ne.symm h)]

/-- The tables that are read, where the commands look for them. -/
theorem tables_of_entries (doc : TomlItems) (ps : List PartialLspConfig)
    (h : entriesOf doc = some ps) :
    ∃ tables, ensureLspItems doc = .ok tables ∧ tables.mapM readLspEntry = some ps ∧
      ∀ entries, doc.get? "lsp" = some (.arrayOfTables entries) → entries = tables := by
  unfold entriesOf at h
  unfold ensureLspItems
  cases hitem : doc.get? "lsp" with
  | none =>
      rw [hitem, Option.some.injEq] at h
      exact ⟨[], rfl, by rw [← h]; rfl, by simp⟩
  | some item =>
      rw [hitem] at h
      cases item with
      | value v => cases h
      | table fields => cases h
      | arrayOfTables tables =>
          refine ⟨tables, rfl, h, fun entries heq => ?_⟩
          rw [Option.some.injEq, TomlItem.arrayOfTables.injEq] at heq
          exact heq.symm

namespace Servers

/-- An id has no entry if no entry of the file is its own. -/
theorem entry_eq_none_iff (s : Servers) (ps : List PartialLspConfig) (h : s.Of ps) (id : String) :
    s.entry id = none ↔ ∀ p ∈ ps, p.id ≠ some id := by
  have hfilter := h.entry id
  constructor
  · intro hnone p hp hid
    rw [hnone, Option.toList_none, List.filter_eq_nil_iff] at hfilter
    exact hfilter p hp (decide_eq_true hid)
  · intro hall
    rw [List.filter_eq_nil_iff.mpr fun p hp => by simp [hall p hp]] at hfilter
    exact Option.toList_eq_nil_iff.mp hfilter.symm

/-- No table has the id if no entry has it. -/
theorem any_hasId_eq_false_iff (id : String) (tables : List TomlTable)
    (ps : List PartialLspConfig) (h : tables.mapM readLspEntry = some ps) :
    tables.any (hasId id) = false ↔ ∀ p ∈ ps, p.id ≠ some id := by
  induction tables generalizing ps with
  | nil =>
      simp only [List.mapM_nil, Option.pure_def, Option.some.injEq] at h
      simp [← h]
  | cons table tables ih =>
      simp only [List.mapM_cons, Option.bind_eq_bind, Option.bind_eq_some_iff, Option.pure_def,
        Option.some.injEq] at h
      rcases h with ⟨p, hp, rest, hrest, rfl⟩
      have hid := hasId_iff id table p hp
      rw [List.any_cons, Bool.or_eq_false_iff, ih rest hrest, List.forall_mem_cons, ne_eq, ← hid,
        Bool.not_eq_true]

/-- The list has changed in the entries of one id. -/
theorem of_put (s : Servers) (ps ps' : List PartialLspConfig) (h : s.Of ps) (id : String)
    (p : Option PartialLspConfig) (hown : ps'.filter (fun q => q.id = some id) = p.toList)
    (hother : ∀ key, key ≠ some id →
      ps'.filter (fun q => q.id = key) = ps.filter (fun q => q.id = key)) :
    (s.put id p).Of ps' := by
  refine ⟨fun other => ?_, ?_⟩
  · by_cases hid : other = id
    · rw [hid, hown, put_self]
    · rw [hother (some other) (by simpa using hid), h.entry, put_ne s id other p hid]
  · rw [hother none (by simp), h.unnamed]
    rfl

/-- `add-lsp` on a document. -/
theorem add_goes (s : Servers) (doc : TomlItems) (ps : List PartialLspConfig)
    (hps : entriesOf doc = some ps) (h : s.Of ps) (cmd : AddLspCommand) :
    ∃ edited ps' printed s', addLspItems doc cmd = .ok (edited, printed) ∧
      entriesOf edited = some ps' ∧ s'.Of ps' ∧
      Goes s ⟨.addLsp cmd, .succeeds⟩ (.ok printed) s' := by
  rcases tables_of_entries doc ps hps with ⟨tables, hensure, hread, _⟩
  have hfirst := updateFirst_cases cmd tables ps hread
  cases hupdate : updateFirst cmd tables with
  | none =>
      rw [hupdate] at hfirst
      simp only [addLspItems, hensure, hupdate]
      -- No entry has the id, and one is appended.
      have hnone := (entry_eq_none_iff s ps h cmd.id).mpr hfirst
      refine ⟨_, ps ++ [added cmd], _, _, rfl, ?_, of_put s ps _ h cmd.id (some (added cmd)) ?_ ?_,
        .added cmd hnone⟩
      · rw [entriesOf_set, List.mapM_append, hread, List.mapM_cons, readLspEntry_newEntry]
        rfl
      · rw [List.filter_append, h.entry, hnone]
        simp [added]
      · intro key hkey
        rw [List.filter_append, List.filter_cons_of_neg (by simp [added, Ne.symm hkey]),
          List.filter_nil, List.append_nil]
  | some tables' =>
      rw [hupdate] at hfirst
      simp only [addLspItems, hensure, hupdate]
      rcases hfirst with ⟨as, p, bs, rfl, has, hid, hread'⟩
      -- The first entry with the id is changed, and none stands after it.
      have hown := h.entry cmd.id
      have hbefore : as.filter (fun q => q.id = some cmd.id) = [] :=
        List.filter_eq_nil_iff.mpr fun q hq => by simp [has q hq]
      rw [List.filter_append, hbefore, List.nil_append,
        List.filter_cons_of_pos (by simpa using hid)] at hown
      cases hentry : s.entry cmd.id with
      | none =>
          rw [hentry] at hown
          cases hown
      | some q =>
          rw [hentry, Option.toList_some, List.cons.injEq] at hown
          rcases hown with ⟨rfl, hafter⟩
          refine ⟨_, as ++ updated cmd p :: bs, _, _, rfl, ?_,
            of_put s _ _ h cmd.id (some (updated cmd p)) ?_ ?_, .updated cmd p hentry⟩
          · rw [entriesOf_set, hread']
          · rw [List.filter_append, hbefore, List.nil_append,
              List.filter_cons_of_pos (by simp [updated, hid]), hafter]
            rfl
          · intro key hkey
            have hnot : ¬p.id = key := fun heq => hkey (heq ▸ hid)
            rw [List.filter_append, List.filter_append, List.filter_cons_of_neg (by simpa),
              List.filter_cons_of_neg (by simpa [updated])]

/-- `remove-lsp` on a document. -/
theorem remove_goes (s : Servers) (path : PathBuf) (doc : TomlItems) (ps : List PartialLspConfig)
    (hps : entriesOf doc = some ps) (h : s.Of ps) (cmd : RemoveLspCommand) :
    (∃ error, removeLspItems path doc cmd = .err error ∧ s.entry cmd.id = none) ∨
    ∃ edited ps' printed s', removeLspItems path doc cmd = .ok (edited, printed) ∧
      entriesOf edited = some ps' ∧ s'.Of ps' ∧
      Goes s ⟨.removeLsp cmd, .succeeds⟩ (.ok printed) s' := by
  rcases tables_of_entries doc ps hps with ⟨tables, hensure, hread, htables⟩
  have hleft := mapM_filter_hasId cmd.id tables ps hread
  -- An entry is removed if and only if the id has one.
  have hany : tables.any (hasId cmd.id) = false ↔ s.entry cmd.id = none := by
    rw [entry_eq_none_iff s ps h, ← any_hasId_eq_false_iff cmd.id tables ps hread]
  rcases removeLspItems_cases path doc cmd with ⟨error, herr, hnone⟩ |
    ⟨entries, hitem, hhas, hok⟩
  · refine .inl ⟨error, herr, hany.mp ?_⟩
    cases hitem : doc.get? "lsp" with
    | none =>
        rw [ensureLspItems, hitem, Outcome.ok.injEq] at hensure
        rw [← hensure]
        rfl
    | some item =>
        cases item with
        | arrayOfTables entries =>
            rw [← htables entries hitem]
            exact hnone entries hitem
        | _ => simp [ensureLspItems, hitem] at hensure
  · rw [htables entries hitem] at hhas hok
    cases hentry : s.entry cmd.id with
    | none =>
        rw [hany.mpr hentry] at hhas
        cases hhas
    | some p =>
        refine .inr ⟨_, _, _, _, hok, (entriesOf_set doc _).trans hleft,
          of_put s ps _ h cmd.id none ?_ fun key hkey => ?_, .removed cmd p hentry⟩
        · rw [List.filter_filter]
          exact List.filter_eq_nil_iff.mpr fun q _ => by simp
        · rw [List.filter_filter]
          refine List.filter_congr fun q _ => ?_
          by_cases hq : q.id = key
          · simp [hq, hkey]
          · simp [hq]

/-- `set` on a document. -/
theorem set_goes (doc : TomlItems) (cmd : SetCommand)
    (hkey : (splitDots cmd.key).head? ≠ some "lsp") :
    (∃ error, setItems doc cmd = .err error) ∨
    ∃ edited printed, setItems doc cmd = .ok (edited, printed) ∧
      entriesOf edited = entriesOf doc := by
  cases hset : setItems doc cmd with
  | err error => exact .inl ⟨error, rfl⟩
  | panicked message => exact absurd hset (setItems_total doc cmd message)
  | ok edit =>
      refine .inr ⟨edit.1, edit.2, rfl, ?_⟩
      rcases setItems_cases doc edit.1 cmd edit.2 hset with ⟨key, hparts, hedited⟩ |
        ⟨name, key, table, hparts, _, hedited⟩
      · -- a key of the root, or of a section: neither is `lsp`
        rw [hparts, List.head?_cons] at hkey
        rw [hedited, entriesOf_set_ne doc key _ fun heq => hkey (by rw [heq])]
      · rw [hparts, List.head?_cons] at hkey
        rw [hedited, entriesOf_set_ne doc name _ fun heq => hkey (by rw [heq])]

end Servers

/-! ### One command -/

section Files

variable (t : TomlSyntax) (path : PathBuf)

/-- A document that has been edited is written, or the file stays as it is. -/
theorem finish_goes (s s' : Servers) (fs : FileSystem) (action : ConfigAction) (writing : Writing)
    (hwriting : ∀ source left, writing ≠ .fails source (some left)) (edited : TomlItems)
    (ps : List PartialLspConfig) (printed : String) (hservers : HasServers t path s fs)
    (hps : entriesOf edited = some ps) (hof : s'.Of ps)
    (hgoes : s.Goes ⟨action, .succeeds⟩ (.ok printed) s')
    (hback : PrintsEntries t path (t.finish fs path writing (.ok (edited, printed))).1) :
    ∃ u, HasServers t path u (t.finish fs path writing (.ok (edited, printed))).1 ∧
      s.Goes ⟨action, writing⟩ (t.finish fs path writing (.ok (edited, printed))).2 u := by
  cases writing with
  | succeeds =>
      -- The next command will read what this one has printed.
      have hread : (fs.write path (t.print edited)).readToString path = .ok (t.print edited) :=
        if_pos rfl
      have hexists : (fs.write path (t.print edited)).pathExists path = true := if_pos rfl
      rcases hback edited hread with ⟨doc, hparse, hentries⟩
      refine ⟨s', ⟨doc, ps, ?_, hentries.trans hps, hof⟩, hgoes⟩
      simp only [TomlSyntax.finish, TomlSyntax.loadOrCreateDoc, hexists, TomlSyntax.loadDoc, hread,
        hparse, if_true]
  | fails source left =>
      cases left with
      | none => exact ⟨s, hservers, .unwritten action source⟩
      | some left => exact absurd rfl (hwriting source left)

/-- What one command does to the servers of the file. -/
theorem edit_goes (s : Servers) (fs : FileSystem) (root canon : PathBuf) (e : Edit)
    (hcanon : fs.canonicalize root = .ok canon) (hpath : path = canon.join ["lspee.toml"])
    (hcalm : e.Calm) (hservers : HasServers t path s fs)
    (hback : PrintsEntries t path (e.action.run t fs root e.writing).1) :
    ∃ u, HasServers t path u (e.action.run t fs root e.writing).1 ∧
      s.Goes e (e.action.run t fs root e.writing).2 u := by
  rcases e with ⟨action, writing⟩
  rcases hcalm with ⟨hwriting, hkey⟩
  subst hpath
  have hfile := hservers
  rcases hservers with ⟨doc, ps, hload, hps, hof⟩
  cases action with
  | addLsp cmd =>
      simp only [ConfigAction.run, TomlSyntax.runAddLsp, hcanon, hload] at hback ⊢
      rcases Servers.add_goes s doc ps hps hof cmd with
        ⟨edited, ps', printed, s', hadd, hps', hof', hgoes⟩
      rw [hadd] at hback ⊢
      exact finish_goes t _ s s' fs _ writing hwriting edited ps' printed hfile hps' hof' hgoes
        hback
  | removeLsp cmd =>
      by_cases hexists : fs.pathExists (canon.join ["lspee.toml"]) = true
      · simp only [TomlSyntax.loadOrCreateDoc, hexists, if_true] at hload
        simp only [ConfigAction.run, TomlSyntax.runRemoveLsp, hcanon, hexists, if_true,
          hload] at hback ⊢
        rcases Servers.remove_goes s (canon.join ["lspee.toml"]) doc ps hps hof cmd with
          ⟨error, herr, hnone⟩ | ⟨edited, ps', printed, s', hremove, hps', hof', hgoes⟩
        · rw [herr]
          exact ⟨s, hfile, .missing cmd writing error hnone⟩
        · rw [hremove] at hback ⊢
          exact finish_goes t _ s s' fs _ writing hwriting edited ps' printed hfile hps' hof' hgoes
            hback
      · -- a file that is not there has no entries
        simp only [ConfigAction.run, TomlSyntax.runRemoveLsp, hcanon, hexists,
          Bool.false_eq_true, if_false]
        refine ⟨s, hfile, .missing cmd writing _ ?_⟩
        simp only [TomlSyntax.loadOrCreateDoc, hexists, Bool.false_eq_true, if_false,
          Except.ok.injEq] at hload
        rw [← hload] at hps
        have hempty : ps = [] := (Option.some.inj hps).symm
        exact (Servers.entry_eq_none_iff s ps hof cmd.id).mpr (by simp [hempty])
  | set cmd =>
      simp only [ConfigAction.run, TomlSyntax.runSet, hcanon, hload] at hback ⊢
      rcases Servers.set_goes doc cmd (hkey cmd rfl) with ⟨error, herr⟩ |
        ⟨edited, printed, hset, hentries⟩
      · rw [herr]
        exact ⟨s, hfile, .notSet cmd writing error⟩
      · rw [hset] at hback ⊢
        exact finish_goes t _ s s fs _ writing hwriting edited ps printed hfile
          (hentries.trans hps) hof (.set cmd printed) hback

/-- The commands leave the directories as they are. -/
theorem canonicalize_run (fs : FileSystem) (root : PathBuf) (e : Edit) :
    (e.action.run t fs root e.writing).1.canonicalize = fs.canonicalize := by
  have hfinish : ∀ (path : PathBuf) (writing : Writing) (edit : Outcome (TomlItems × String)),
      (t.finish fs path writing edit).1.canonicalize = fs.canonicalize := by
    intro path writing edit
    rcases edit with ⟨doc, printed⟩ | error | message
    · rcases writing with _ | ⟨source, _ | left⟩ <;> rfl
    · rfl
    · rfl
  cases e.action with
  | addLsp cmd =>
      simp only [ConfigAction.run, TomlSyntax.runAddLsp]
      split
      · rfl
      · split
        · rfl
        · exact hfinish _ _ _
  | removeLsp cmd =>
      simp only [ConfigAction.run, TomlSyntax.runRemoveLsp]
      split
      · rfl
      · split
        · split
          · rfl
          · exact hfinish _ _ _
        · rfl
  | set cmd =>
      simp only [ConfigAction.run, TomlSyntax.runSet]
      split
      · rfl
      · split
        · rfl
        · exact hfinish _ _ _

/-! ### Any number of commands -/

/-- The servers of a file go through any sequence of commands as they are to: every
    command ends as it should on the servers as they are then, and does to them what it
    should. No two entries of the file ever have the same id. -/
theorem edits_refine (root canon : PathBuf) (es : List Edit) (s : Servers) (fs fs' : FileSystem)
    (hcanon : fs.canonicalize root = .ok canon) (hpath : path = canon.join ["lspee.toml"])
    (hcalm : ∀ e ∈ es, e.Calm) (hservers : HasServers t path s fs)
    (hback : Always (editStep t root) (PrintsEntries t path) fs es)
    (hrun : run (editStep t root) fs es = some fs') :
    ∃ u, HasServers t path u fs' ∧ s.Lives es (outcomesOf t root fs es) u := by
  -- By induction on the commands, for any servers and files at the start.
  induction es generalizing s fs with
  | nil =>
      simp only [run, Option.some.injEq] at hrun
      rw [← hrun]
      exact ⟨s, hservers, .nil s⟩
  | cons e es ih =>
      rcases exists_of_run_cons e es fs fs' hrun with ⟨after, hafter, hrest⟩
      have halways := hback.2 after hafter
      simp only [editStep, Option.some.injEq] at hafter
      subst hafter
      rcases edit_goes t path s fs root canon e hcanon hpath (hcalm e List.mem_cons_self) hservers
        (always_first es _ halways) with ⟨v, hv, hgoes⟩
      rcases ih v _ (by rw [canonicalize_run, hcanon])
        (fun d hd => hcalm d (List.mem_cons_of_mem e hd)) hv halways hrest with ⟨u, hu, hlives⟩
      exact ⟨u, hu, .cons s v u e es _ _ hgoes hlives⟩

end Files

/-- The entry that the first command makes. -/
def taploCommand : AddLspCommand := ⟨"taplo", "taplo", none⟩

/-- What is printed for a document without entries, with this one, and with any others. -/
def oneEntrySyntax : TomlSyntax where
  parse := fun text =>
    if text = "" then .ok Table.empty
    else if text = "[[lsp]]\nid = \"taplo\"\ncommand = \"taplo\"\nargs = []\n" then
      .ok (Table.empty.set "lsp" (.arrayOfTables [newEntry taploCommand]))
    else .error "unexpected text"
  print := fun doc =>
    match entriesOf doc with
    | some [] => ""
    | some [⟨some "taplo", some "taplo", some [], none, none⟩] =>
      "[[lsp]]\nid = \"taplo\"\ncommand = \"taplo\"\nargs = []\n"
    | _ => "others"

/-- A project without a file. -/
def noFile : FileSystem where
  pathExists := fun _ => false
  readToString := fun _ => .error "No such file or directory (os error 2)"
  canonicalize := fun path => .ok path

/-- A server is added, removed, and removed once more. -/
def addAndRemove : List Edit :=
  [⟨.addLsp taploCommand, .succeeds⟩, ⟨.removeLsp ⟨"taplo"⟩, .succeeds⟩,
    ⟨.removeLsp ⟨"taplo"⟩, .succeeds⟩]

theorem oneEntry_prints (path : PathBuf) (fs : FileSystem)
    (h : fs.readToString path ≠ .ok "others") : PrintsEntries oneEntrySyntax path fs := by
  intro doc hread
  rw [hread] at h
  simp only [oneEntrySyntax] at h ⊢
  split
  · rename_i hentries
    exact ⟨Table.empty, if_pos rfl, hentries.symm⟩
  · rename_i hentries
    exact ⟨_, rfl, by rw [hentries]; rfl⟩
  · simp_all

/-- The file is made, and at the end it has no entries. -/
theorem edits_refine_taplo : ∃ fs' u,
    run (editStep oneEntrySyntax taploRoot) noFile addAndRemove = some fs' ∧
      HasServers oneEntrySyntax (taploRoot.join ["lspee.toml"]) u fs' ∧
      Servers.Lives ⟨fun _ => none, []⟩ addAndRemove
        (outcomesOf oneEntrySyntax taploRoot noFile addAndRemove) u := by
  have hback : Always (editStep oneEntrySyntax taploRoot)
      (PrintsEntries oneEntrySyntax (taploRoot.join ["lspee.toml"])) noFile addAndRemove := by
    refine ⟨oneEntry_prints _ _ ?_, fun s₁ h₁ => ⟨oneEntry_prints _ _ ?_, fun s₂ h₂ =>
      ⟨oneEntry_prints _ _ ?_, fun s₃ h₃ => oneEntry_prints _ _ ?_⟩⟩⟩
    · decide
    · rw [← Option.some.inj h₁]
      decide +kernel
    · rw [← Option.some.inj h₂, ← Option.some.inj h₁]
      decide +kernel
    · rw [← Option.some.inj h₃, ← Option.some.inj h₂, ← Option.some.inj h₁]
      decide +kernel
  rcases edits_refine oneEntrySyntax _ taploRoot taploRoot addAndRemove ⟨fun _ => none, []⟩ noFile _
    rfl rfl (by simp [addAndRemove, Edit.Calm])
    ⟨Table.empty, [], rfl, rfl, ⟨fun _ => rfl, rfl⟩⟩ hback rfl with ⟨u, hu, hlives⟩
  exact ⟨_, u, rfl, hu, hlives⟩

end Lspee
