import Lspee.Core.Config
import Lspee.Lib.Layers

/-!
# Merging Configurations

What the layers of a configuration amount to. `apply_partial` goes through the
entries of one file and writes them into the configuration, and `resolve` does
so for one file after the other. The result is that the last one who sets a
field has set it: over the files in their order, and within a file over the
entries in theirs (`merged_last_writer`).

An entry without an id is an entry for `default`, and entries with one id are one
entry. So what counts for an id is the list of all its entries in all files,
`entriesFor`, and each field of the merged entry is the last one set in that
list.

## Main definitions

* `PartialLspConfig.entryId`, `PartialLspConfig.over`: What an entry is for, and
  what it makes of the one before.
* `entriesFor`: The entries for an id, in the order in which they are read.
* `EffectiveConfig.Keyed`: Every entry stands at its id.
* `LastWriterWins`: What the merged configuration is.

## Theorems

* `applyPartialLsp_eq`: The entries are laid over a table.
* `applyPartial_lsps`: All the layers are one list of entries.
* `merged_entry`: A field of a merged entry.
* `merged_keyed`: Every entry stands at its id.
* `applyPartial_twice`: A layer applied twice.
* `merged_last_writer`: The last one who sets a field has set it.
-/

namespace Lspee

open Layers

/-- The id an entry of a file is for. -/
def PartialLspConfig.entryId (lsp : PartialLspConfig) : String := lsp.id.getD "default"

/-- What an entry of a file makes of the entry with its id. -/
def PartialLspConfig.over (lsp : PartialLspConfig) (old : Option LspConfig) : LspConfig :=
  let entry := old.getD
    { id := lsp.entryId, command := "", args := [], env := Table.empty,
      initializationOptions := Table.empty }
  { entry with
    command := lsp.command.getD entry.command
    args := lsp.args.getD entry.args
    env := lsp.env.getD entry.env
    initializationOptions := lsp.initializationOptions.getD entry.initializationOptions }

theorem applyPartialLsp_eq :
    applyPartialLsp = layOver PartialLspConfig.entryId PartialLspConfig.over := rfl

/-- The entries for an id, over all the files. -/
def entriesFor (id : String) (ps : List PartialConfig) : List PartialLspConfig :=
  (ps.flatMap PartialConfig.lsp).filter (fun lsp => lsp.entryId = id)

/-- Every entry stands at its id. -/
def EffectiveConfig.Keyed (config : EffectiveConfig) : Prop :=
  ∀ id entry, config.lsps.get? id = some entry → entry.id = id

/-! ### The entries -/

/-- All the layers are one list of entries. -/
theorem applyPartial_lsps (start : EffectiveConfig) (ps : List PartialConfig) :
    (ps.foldl applyPartial start).lsps =
      (ps.flatMap PartialConfig.lsp).foldl applyPartialLsp start.lsps := by
  induction ps generalizing start with
  | nil => rfl
  | cons p ps ih =>
      rw [List.foldl_cons, ih, List.flatMap_cons, List.foldl_append]
      rfl

/-- A field of a merged entry is the last one set, or that of the entry at the
    start, or empty. -/
theorem merged_entry {β : Type} (field : LspConfig → β) (d : β) (f : PartialLspConfig → Option β)
    (hover : ∀ lsp old, field (PartialLspConfig.over lsp old) = (f lsp).getD (old.elim d field))
    (start : EffectiveConfig) (ps : List PartialConfig) (id : String) (entry : LspConfig)
    (h : (ps.foldl applyPartial start).lsps.get? id = some entry) :
    field entry = (lastSet f (entriesFor id ps)).getD ((start.lsps.get? id).elim d field) := by
  rw [applyPartial_lsps, applyPartialLsp_eq] at h
  exact foldl_layOver_field _ _ field d f hover _ _ id entry h

theorem merged_isSome (start : EffectiveConfig) (ps : List PartialConfig) (id : String) :
    ((ps.foldl applyPartial start).lsps.get? id).isSome ↔
      (start.lsps.get? id).isSome ∨ ∃ p ∈ ps, ∃ lsp ∈ p.lsp, lsp.entryId = id := by
  rw [applyPartial_lsps, applyPartialLsp_eq, isSome_foldl_layOver]
  simp only [List.mem_flatMap]
  refine or_congr Iff.rfl ⟨?_, ?_⟩
  · rintro ⟨lsp, ⟨p, hp, hlsp⟩, hid⟩
    exact ⟨p, hp, lsp, hlsp, hid⟩
  · rintro ⟨p, hp, lsp, hlsp, hid⟩
    exact ⟨lsp, ⟨p, hp, hlsp⟩, hid⟩

theorem over_command (lsp : PartialLspConfig) (old : Option LspConfig) :
    (lsp.over old).command = lsp.command.getD (old.elim "" LspConfig.command) := by
  cases old <;> rfl

theorem over_args (lsp : PartialLspConfig) (old : Option LspConfig) :
    (lsp.over old).args = lsp.args.getD (old.elim [] LspConfig.args) := by
  cases old <;> rfl

theorem over_env (lsp : PartialLspConfig) (old : Option LspConfig) :
    (lsp.over old).env = lsp.env.getD (old.elim Table.empty LspConfig.env) := by
  cases old <;> rfl

theorem over_initializationOptions (lsp : PartialLspConfig) (old : Option LspConfig) :
    (lsp.over old).initializationOptions =
      lsp.initializationOptions.getD (old.elim Table.empty LspConfig.initializationOptions) := by
  cases old <;> rfl

/-- An entry that is written gets the id it is written at. -/
theorem keyed_applyPartialLsp (lsps : Table String LspConfig) (lsp : PartialLspConfig)
    (h : ∀ id entry, lsps.get? id = some entry → entry.id = id) (id : String)
    (entry : LspConfig) (hget : (applyPartialLsp lsps lsp).get? id = some entry) :
    entry.id = id := by
  rw [applyPartialLsp_eq, layOver, Table.get?_set_eq_some] at hget
  rcases hget with ⟨hid, hentry⟩ | ⟨_, hold⟩
  · rw [← hentry, hid]
    cases hold : lsps.get? lsp.entryId with
    | none => rfl
    | some old => exact h _ old hold
  · exact h id entry hold

theorem merged_keyed (start : EffectiveConfig) (h : start.Keyed) (ps : List PartialConfig) :
    (ps.foldl applyPartial start).Keyed := by
  unfold EffectiveConfig.Keyed at h ⊢
  rw [applyPartial_lsps]
  generalize ps.flatMap PartialConfig.lsp = lsps
  generalize start.lsps = table at h ⊢
  induction lsps generalizing table with
  | nil => exact h
  | cons lsp lsps ih => exact ih _ (keyed_applyPartialLsp table lsp h)

/-! ### Twice -/

/-- Merged entries are equal when their fields are. -/
theorem over_twice (xs : List PartialLspConfig) (old : LspConfig) :
    xs.foldl (fun v lsp => some (PartialLspConfig.over lsp v))
        (xs.foldl (fun v lsp => some (PartialLspConfig.over lsp v)) (some old)) =
      xs.foldl (fun v lsp => some (PartialLspConfig.over lsp v)) (some old) := by
  have hfold : ∀ start : LspConfig,
      xs.foldl (fun v lsp => some (PartialLspConfig.over lsp v)) (some start) =
      some { start with
        command := (lastSet PartialLspConfig.command xs).getD start.command
        args := (lastSet PartialLspConfig.args xs).getD start.args
        env := (lastSet PartialLspConfig.env xs).getD start.env
        initializationOptions := (lastSet PartialLspConfig.initializationOptions xs).getD
          start.initializationOptions } := by
    intro start
    induction xs generalizing start with
    | nil => rfl
    | cons x xs ih =>
        rw [List.foldl_cons, ih]
        simp only [PartialLspConfig.over, Option.getD_some, lastSet_cons, Option.getD_or]
  rw [hfold, hfold]
  have hgetD : ∀ {β : Type} (o : Option β) (v : β), o.getD (o.getD v) = o.getD v := by
    intro β o v
    cases o <;> rfl
  simp only [hgetD]

theorem applyPartialMemory_twice (memory : MemoryConfig) (p : PartialMemoryConfig) :
    applyPartialMemory (applyPartialMemory memory p) p = applyPartialMemory memory p := by
  rcases p with ⟨maxSessionMb, maxTotalMb, checkIntervalMs⟩
  cases maxSessionMb <;> cases maxTotalMb <;> cases checkIntervalMs <;> rfl

theorem applyPartialSession_twice (session : SessionConfig) (p : PartialSessionConfig) :
    applyPartialSession (applyPartialSession session p) p = applyPartialSession session p := by
  rcases p with ⟨idleTtlSecs, daemonIdleTtlSecs⟩
  cases idleTtlSecs <;> cases daemonIdleTtlSecs <;> rfl

theorem applyPartialLsps_twice (lsps : Table String LspConfig) (xs : List PartialLspConfig) :
    xs.foldl applyPartialLsp (xs.foldl applyPartialLsp lsps) = xs.foldl applyPartialLsp lsps := by
  rw [applyPartialLsp_eq]
  refine foldl_layOver_twice _ _ _ _ fun id => ?_
  simp only [get?_foldl_layOver]
  cases lsps.get? id with
  | some old => exact over_twice _ old
  | none =>
      cases xs.filter (fun lsp => lsp.entryId = id) with
      | nil => rfl
      | cons lsp rest =>
          -- The first entry for an id finds an empty one.
          exact over_twice (lsp :: rest)
            { id := lsp.entryId, command := "", args := [], env := Table.empty,
              initializationOptions := Table.empty }

/-- A layer applied twice is the layer applied once. -/
theorem applyPartial_twice (start : EffectiveConfig) (p : PartialConfig) :
    applyPartial (applyPartial start p) p = applyPartial start p := by
  rcases p with ⟨lsp, rootMarkers, workspaceMode, transportFlags, memory, session⟩
  have hmemory : memory.elim (memory.elim start.memory (applyPartialMemory start.memory))
      (applyPartialMemory (memory.elim start.memory (applyPartialMemory start.memory))) =
      memory.elim start.memory (applyPartialMemory start.memory) := by
    cases memory with
    | none => rfl
    | some m => exact applyPartialMemory_twice start.memory m
  have hsession : session.elim (session.elim start.session (applyPartialSession start.session))
      (applyPartialSession (session.elim start.session (applyPartialSession start.session))) =
      session.elim start.session (applyPartialSession start.session) := by
    cases session with
    | none => rfl
    | some s => exact applyPartialSession_twice start.session s
  have hlsps := applyPartialLsps_twice start.lsps lsp
  simp only [applyPartial, hlsps, hmemory, hsession]
  cases rootMarkers <;> cases workspaceMode <;> cases transportFlags <;> rfl

/-! ### The merged configuration -/

/-- The last layer that sets a field has set it; for an entry, the last entry with
    its id. -/
structure LastWriterWins (start : EffectiveConfig) (ps : List PartialConfig)
    (merged : EffectiveConfig) : Prop where
  rootMarkers : merged.rootMarkers =
    (lastSet PartialConfig.rootMarkers ps).getD start.rootMarkers
  workspaceMode : merged.workspaceMode =
    (lastSet PartialConfig.workspaceMode ps).getD start.workspaceMode
  transportFlags : merged.transportFlags =
    (lastSet PartialConfig.transportFlags ps).getD start.transportFlags
  maxSessionMb : merged.memory.maxSessionMb =
    (lastSet (fun p => p.memory.bind PartialMemoryConfig.maxSessionMb) ps).or
      start.memory.maxSessionMb
  maxTotalMb : merged.memory.maxTotalMb =
    (lastSet (fun p => p.memory.bind PartialMemoryConfig.maxTotalMb) ps).or
      start.memory.maxTotalMb
  checkIntervalMs : merged.memory.checkIntervalMs =
    (lastSet (fun p => p.memory.bind PartialMemoryConfig.checkIntervalMs) ps).getD
      start.memory.checkIntervalMs
  idleTtlSecs : merged.session.idleTtlSecs =
    (lastSet (fun p => p.session.bind PartialSessionConfig.idleTtlSecs) ps).getD
      start.session.idleTtlSecs
  daemonIdleTtlSecs : merged.session.daemonIdleTtlSecs =
    (lastSet (fun p => p.session.bind PartialSessionConfig.daemonIdleTtlSecs) ps).or
      start.session.daemonIdleTtlSecs
  ids : ∀ id, (merged.lsps.get? id).isSome ↔
    (start.lsps.get? id).isSome ∨ ∃ p ∈ ps, ∃ lsp ∈ p.lsp, lsp.entryId = id
  command : ∀ id entry, merged.lsps.get? id = some entry → entry.command =
    (lastSet PartialLspConfig.command (entriesFor id ps)).getD
      ((start.lsps.get? id).elim "" LspConfig.command)
  args : ∀ id entry, merged.lsps.get? id = some entry → entry.args =
    (lastSet PartialLspConfig.args (entriesFor id ps)).getD
      ((start.lsps.get? id).elim [] LspConfig.args)
  env : ∀ id entry, merged.lsps.get? id = some entry → entry.env =
    (lastSet PartialLspConfig.env (entriesFor id ps)).getD
      ((start.lsps.get? id).elim Table.empty LspConfig.env)
  initializationOptions : ∀ id entry, merged.lsps.get? id = some entry →
    entry.initializationOptions =
      (lastSet PartialLspConfig.initializationOptions (entriesFor id ps)).getD
        ((start.lsps.get? id).elim Table.empty LspConfig.initializationOptions)
  keyed : merged.Keyed

theorem applyPartial_memory (s : EffectiveConfig) (p : PartialConfig) :
    (applyPartial s p).memory.maxSessionMb =
        (p.memory.bind PartialMemoryConfig.maxSessionMb).or s.memory.maxSessionMb ∧
      (applyPartial s p).memory.maxTotalMb =
        (p.memory.bind PartialMemoryConfig.maxTotalMb).or s.memory.maxTotalMb ∧
      (applyPartial s p).memory.checkIntervalMs =
        (p.memory.bind PartialMemoryConfig.checkIntervalMs).getD s.memory.checkIntervalMs := by
  unfold applyPartial
  cases p.memory <;> exact ⟨rfl, rfl, rfl⟩

theorem applyPartial_session (s : EffectiveConfig) (p : PartialConfig) :
    (applyPartial s p).session.idleTtlSecs =
        (p.session.bind PartialSessionConfig.idleTtlSecs).getD s.session.idleTtlSecs ∧
      (applyPartial s p).session.daemonIdleTtlSecs =
        (p.session.bind PartialSessionConfig.daemonIdleTtlSecs).or
          s.session.daemonIdleTtlSecs := by
  unfold applyPartial
  cases p.session <;> exact ⟨rfl, rfl⟩

/-- Each field of a merged configuration is what the last layer that sets it says,
    or what it was at the start, and a layer applied twice in a row counts once. -/
theorem merged_last_writer (start : EffectiveConfig) (h : start.Keyed)
    (ps : List PartialConfig) : LastWriterWins start ps (ps.foldl applyPartial start) ∧
      ∀ p, applyPartial (applyPartial start p) p = applyPartial start p := by
  refine ⟨?_, applyPartial_twice start⟩
  constructor
  case rootMarkers => exact foldl_getD _ EffectiveConfig.rootMarkers _ (fun _ _ => rfl) ps start
  case workspaceMode =>
    exact foldl_getD _ EffectiveConfig.workspaceMode _ (fun _ _ => rfl) ps start
  case transportFlags =>
    exact foldl_getD _ EffectiveConfig.transportFlags _ (fun _ _ => rfl) ps start
  case maxSessionMb =>
    exact foldl_or _ (fun c : EffectiveConfig => c.memory.maxSessionMb) _
      (fun s p => (applyPartial_memory s p).1) ps start
  case maxTotalMb =>
    exact foldl_or _ (fun c : EffectiveConfig => c.memory.maxTotalMb) _
      (fun s p => (applyPartial_memory s p).2.1) ps start
  case checkIntervalMs =>
    exact foldl_getD _ (fun c : EffectiveConfig => c.memory.checkIntervalMs) _
      (fun s p => (applyPartial_memory s p).2.2) ps start
  case idleTtlSecs =>
    exact foldl_getD _ (fun c : EffectiveConfig => c.session.idleTtlSecs) _
      (fun s p => (applyPartial_session s p).1) ps start
  case daemonIdleTtlSecs =>
    exact foldl_or _ (fun c : EffectiveConfig => c.session.daemonIdleTtlSecs) _
      (fun s p => (applyPartial_session s p).2) ps start
  case ids => exact merged_isSome start ps
  case command => exact merged_entry LspConfig.command "" _ over_command start ps
  case args => exact merged_entry LspConfig.args [] _ over_args start ps
  case env => exact merged_entry LspConfig.env Table.empty _ over_env start ps
  case initializationOptions =>
    exact merged_entry LspConfig.initializationOptions Table.empty _ over_initializationOptions
      start ps
  case keyed => exact merged_keyed start h ps

/-- What every run of `resolve` starts from is keyed: it has no entries. -/
theorem keyed_defaultConfig : defaultConfig.Keyed := by
  intro id entry h
  exact absurd h (by simp [defaultConfig])

/-- A configuration that has an entry. -/
def withTaplo : EffectiveConfig :=
  { defaultConfig with
    lsps := Table.empty.set "taplo" ⟨"taplo", "taplo", ["lsp"], Table.empty, Table.empty⟩ }

theorem keyed_withTaplo : withTaplo.Keyed := by
  intro id entry h
  rcases (Table.get?_set_eq_some _ _ _ _ _).mp h with ⟨hid, hentry⟩ | ⟨_, hold⟩
  · rw [← hentry, hid]
  · rw [Table.get?_empty] at hold
    exact absurd hold (by simp)

/-- Two files with an entry for this server each, both without a command. -/
def serverEntries : List PartialConfig :=
  [⟨[⟨some "taplo", none, some ["lsp", "--verbose"], none, none⟩], none, none, none, none, none⟩,
    ⟨[⟨some "taplo", none, some [], none, none⟩], none, none, none, none, none⟩]

/-- The command is the one at the start, if there is one, and the arguments are the
    second file's. -/
theorem merged_last_writer_serverEntries :
    (∃ entry, (serverEntries.foldl applyPartial withTaplo).lsps.get? "taplo" = some entry ∧
      entry.id = "taplo" ∧ entry.command = "taplo" ∧ entry.args = []) ∧
    ∃ entry, (serverEntries.foldl applyPartial defaultConfig).lsps.get? "taplo" = some entry ∧
      entry.id = "taplo" ∧ entry.command = "" ∧ entry.args = [] := by
  have hmerged := (merged_last_writer withTaplo keyed_withTaplo serverEntries).1
  have hdefault := (merged_last_writer defaultConfig keyed_defaultConfig serverEntries).1
  have hset : ∃ p ∈ serverEntries, ∃ lsp ∈ p.lsp, lsp.entryId = "taplo" :=
    ⟨_, List.mem_cons_self, _, List.mem_cons_self, rfl⟩
  constructor
  · rcases Option.isSome_iff_exists.mp ((hmerged.ids "taplo").mpr (Or.inr hset)) with
      ⟨entry, hentry⟩
    exact ⟨entry, hentry, hmerged.keyed "taplo" entry hentry, hmerged.command "taplo" entry hentry,
      hmerged.args "taplo" entry hentry⟩
  · rcases Option.isSome_iff_exists.mp ((hdefault.ids "taplo").mpr (Or.inr hset)) with
      ⟨entry, hentry⟩
    exact ⟨entry, hentry, hdefault.keyed "taplo" entry hentry,
      hdefault.command "taplo" entry hentry, hdefault.args "taplo" entry hentry⟩

end Lspee
