import Lspee.Theory.Removal

/-!
# Setting a Value in the Project's File

Whether `config set` leaves a file that `resolve` accepts. The command guesses the
type of a value from its text: what `i64` parses is an integer, `true` and `false`
are booleans, and the rest is a string. The reader wants a string for
`workspace_mode` and for every transport flag, and a number that is not negative
for the limits and the times; under `lsp` and `root_markers` it wants what the
command cannot write at all. So the file stays a configuration if and only if the
value is of the type that the key has (`keyType`). For a key that the reader does
not know every value is.

When it is, the field has the value and no other field is changed
(`set_keeps_loadable_iff`).

## Main definitions

* `FieldType`, `keyType`: What the reader wants under a key.
* `ConfigField`: The fields that `config set` is for.
* `ConfigField.Given`: The effective value is the given one.

## Theorems

* `readItems_eq_some`: What the reader takes from a document.
* `setItems_cases`: The two edits.
* `readMemory_set`, `readSession_set`: One field of a section.
* `setItems_reads`: What is read after the edit.
* `set_keeps_loadable_iff`: The condition is exact.
* `set_breaks_file`: A value that `resolve` does not accept.
-/

namespace Lspee

/-! ### The fields -/

/-- What the reader wants under a key. -/
inductive FieldType where
  | text
  | number
  | anything
  | nothing
deriving DecidableEq

def FieldType.admits : FieldType → TomlValue → Bool
  | .text, v => v.asStr.isSome
  | .number, v => v.readU64.isSome
  | .anything, _ => true
  | .nothing, _ => false

/-- Whether the parts of a key name a number. -/
def isNumberKey (name key : String) : Bool :=
  (name = "memory" ∧ key ∈ ["max_session_mb", "max_total_mb", "check_interval_ms"]) ∨
    (name = "session" ∧ key ∈ ["idle_ttl_secs", "daemon_idle_ttl_secs"])

/-- What the reader wants under a key, by its parts. A single value is never an entry,
    a list or a section; a section is never a list or a text. -/
def keyType : List String → FieldType
  | [key] =>
    if key = "workspace_mode" then .text
    else if key ∈ ["lsp", "root_markers", "transport_flags", "memory", "session"] then .nothing
    else .anything
  | [name, key] =>
    if name ∈ ["lsp", "root_markers", "workspace_mode"] then .nothing
    else if name = "transport_flags" then .text
    else if isNumberKey name key then .number
    else .anything
  | _ => .anything

/-- The fields of a configuration that are single values. -/
inductive ConfigField where
  | workspaceMode
  | maxSessionMb
  | maxTotalMb
  | checkIntervalMs
  | idleTtlSecs
  | daemonIdleTtlSecs

namespace ConfigField

def key : ConfigField → String
  | workspaceMode => "workspace_mode"
  | maxSessionMb => "memory.max_session_mb"
  | maxTotalMb => "memory.max_total_mb"
  | checkIntervalMs => "memory.check_interval_ms"
  | idleTtlSecs => "session.idle_ttl_secs"
  | daemonIdleTtlSecs => "session.daemon_idle_ttl_secs"

def path : ConfigField → List String
  | workspaceMode => ["workspace_mode"]
  | maxSessionMb => ["memory", "max_session_mb"]
  | maxTotalMb => ["memory", "max_total_mb"]
  | checkIntervalMs => ["memory", "check_interval_ms"]
  | idleTtlSecs => ["session", "idle_ttl_secs"]
  | daemonIdleTtlSecs => ["session", "daemon_idle_ttl_secs"]

theorem splitDots_key (field : ConfigField) : splitDots field.key = field.path := by
  cases field <;> decide

/-- The configuration with a number in a field of numbers. -/
def put (config : EffectiveConfig) (n : Nat) : ConfigField → EffectiveConfig
  | workspaceMode => config
  | maxSessionMb => { config with memory := { config.memory with maxSessionMb := some n } }
  | maxTotalMb => { config with memory := { config.memory with maxTotalMb := some n } }
  | checkIntervalMs => { config with memory := { config.memory with checkIntervalMs := n } }
  | idleTtlSecs => { config with session := { config.session with idleTtlSecs := n } }
  | daemonIdleTtlSecs =>
    { config with session := { config.session with daemonIdleTtlSecs := some n } }

/-- The field has the value that the text gives, and every other field is as before. -/
def Given (field : ConfigField) (text : String) (before after : EffectiveConfig) : Prop :=
  match field with
  | workspaceMode => after = { before with workspaceMode := text }
  | field => ∃ n : Nat, parseI64 text = some (n : Int) ∧ after = field.put before n

end ConfigField

/-! ### What is read -/

/-- An optional field of a document with shapes. -/
def itemField {α : Type} (read : TomlValue → Option α) (doc : TomlItems) (key : String) :
    Option (Option α) :=
  ((doc.get? key).map TomlItem.toValue).elim (some none) (fun v => (read v).map some)

theorem itemField_set {α : Type} (read : TomlValue → Option α) (doc : TomlItems)
    (key : String) (item : TomlItem) :
    itemField read (doc.set key item) key = (read item.toValue).map some := by
  rw [itemField, Table.get?_set_self]
  rfl

theorem itemField_set_ne {α : Type} (read : TomlValue → Option α) (doc : TomlItems)
    (key key' : String) (item : TomlItem) (h : key' ≠ key) :
    itemField read (doc.set key item) key' = itemField read doc key' := by
  rw [itemField, Table.get?_set_ne _ _ _ _ h, itemField]

/-- The reading of a document, field by field. -/
def readItems (doc : TomlItems) : Option PartialConfig := do
  let lsp ← readLsp (TomlItem.toLspItem (doc.get? "lsp"))
  let rootMarkers ← itemField TomlValue.readStrings doc "root_markers"
  let workspaceMode ← itemField TomlValue.asStr doc "workspace_mode"
  let transportFlags ← itemField TomlValue.readStringMap doc "transport_flags"
  let memory ← itemField readMemory doc "memory"
  let session ← itemField readSession doc "session"
  return { lsp, rootMarkers, workspaceMode, transportFlags, memory, session }

theorem readItems_eq (doc : TomlItems) : readDocument (TomlItems.plain doc) = readItems doc := by
  have hfield : ∀ {α : Type} (read : TomlValue → Option α) (key : String), key ≠ "lsp" →
      readField read (TomlItems.plain doc).rest key = itemField read doc key := by
    intro α read key hkey
    exact readField_plain read doc key hkey
  rw [readDocument, readItems, hfield _ "root_markers" (by decide),
    hfield _ "workspace_mode" (by decide), hfield _ "transport_flags" (by decide),
    hfield _ "memory" (by decide), hfield _ "session" (by decide)]
  rfl

/-- A document is a configuration when each of its fields is read. -/
theorem readItems_eq_some (doc : TomlItems) (p : PartialConfig) :
    readItems doc = some p ↔
      readLsp (TomlItem.toLspItem (doc.get? "lsp")) = some p.lsp ∧
      itemField TomlValue.readStrings doc "root_markers" = some p.rootMarkers ∧
      itemField TomlValue.asStr doc "workspace_mode" = some p.workspaceMode ∧
      itemField TomlValue.readStringMap doc "transport_flags" = some p.transportFlags ∧
      itemField readMemory doc "memory" = some p.memory ∧
      itemField readSession doc "session" = some p.session := by
  rcases p with ⟨lsp, rootMarkers, workspaceMode, transportFlags, memory, session⟩
  simp only [readItems, Option.bind_eq_bind, Option.bind_eq_some_iff, Option.pure_def,
    Option.some.injEq, PartialConfig.mk.injEq]
  constructor
  · rintro ⟨_, h1, _, h2, _, h3, _, h4, _, h5, _, h6, rfl, rfl, rfl, rfl, rfl, rfl⟩
    exact ⟨h1, h2, h3, h4, h5, h6⟩
  · rintro ⟨h1, h2, h3, h4, h5, h6⟩
    exact ⟨_, h1, _, h2, _, h3, _, h4, _, h5, _, h6, rfl, rfl, rfl, rfl, rfl, rfl⟩

section Fields

variable (doc : TomlItems) (p : PartialConfig) (item : TomlItem)

/-- Nothing that `set` writes under `lsp` is a list of entries. -/
theorem readItems_set_lsp (h : readLsp (TomlItem.toLspItem (some item)) = none) :
    readItems (doc.set "lsp" item) = none := by
  rw [readItems, Table.get?_set_self, h]
  rfl

theorem readItems_set_rootMarkers (h : readItems doc = some p) :
    readItems (doc.set "root_markers" item) =
      item.toValue.readStrings.map (fun v => { p with rootMarkers := some v }) := by
  rcases (readItems_eq_some doc p).mp h with ⟨h1, h2, h3, h4, h5, h6⟩
  rw [readItems, Table.get?_set_ne _ _ _ _ (by decide), h1, itemField_set,
    itemField_set_ne _ _ _ _ _ (by decide), h3, itemField_set_ne _ _ _ _ _ (by decide), h4,
    itemField_set_ne _ _ _ _ _ (by decide), h5, itemField_set_ne _ _ _ _ _ (by decide), h6]
  cases item.toValue.readStrings <;> rfl

theorem readItems_set_workspaceMode (h : readItems doc = some p) :
    readItems (doc.set "workspace_mode" item) =
      item.toValue.asStr.map (fun v => { p with workspaceMode := some v }) := by
  rcases (readItems_eq_some doc p).mp h with ⟨h1, h2, h3, h4, h5, h6⟩
  rw [readItems, Table.get?_set_ne _ _ _ _ (by decide), h1, itemField_set,
    itemField_set_ne _ _ _ _ _ (by decide), h2, itemField_set_ne _ _ _ _ _ (by decide), h4,
    itemField_set_ne _ _ _ _ _ (by decide), h5, itemField_set_ne _ _ _ _ _ (by decide), h6]
  cases item.toValue.asStr <;> rfl

theorem readItems_set_transportFlags (h : readItems doc = some p) :
    readItems (doc.set "transport_flags" item) =
      item.toValue.readStringMap.map (fun v => { p with transportFlags := some v }) := by
  rcases (readItems_eq_some doc p).mp h with ⟨h1, h2, h3, h4, h5, h6⟩
  rw [readItems, Table.get?_set_ne _ _ _ _ (by decide), h1, itemField_set,
    itemField_set_ne _ _ _ _ _ (by decide), h2, itemField_set_ne _ _ _ _ _ (by decide), h3,
    itemField_set_ne _ _ _ _ _ (by decide), h5, itemField_set_ne _ _ _ _ _ (by decide), h6]
  cases item.toValue.readStringMap <;> rfl

theorem readItems_set_memory (h : readItems doc = some p) :
    readItems (doc.set "memory" item) =
      (readMemory item.toValue).map (fun v => { p with memory := some v }) := by
  rcases (readItems_eq_some doc p).mp h with ⟨h1, h2, h3, h4, h5, h6⟩
  rw [readItems, Table.get?_set_ne _ _ _ _ (by decide), h1, itemField_set,
    itemField_set_ne _ _ _ _ _ (by decide), h2, itemField_set_ne _ _ _ _ _ (by decide), h3,
    itemField_set_ne _ _ _ _ _ (by decide), h4, itemField_set_ne _ _ _ _ _ (by decide), h6]
  cases readMemory item.toValue <;> rfl

theorem readItems_set_session (h : readItems doc = some p) :
    readItems (doc.set "session" item) =
      (readSession item.toValue).map (fun v => { p with session := some v }) := by
  rcases (readItems_eq_some doc p).mp h with ⟨h1, h2, h3, h4, h5, h6⟩
  rw [readItems, Table.get?_set_ne _ _ _ _ (by decide), h1, itemField_set,
    itemField_set_ne _ _ _ _ _ (by decide), h2, itemField_set_ne _ _ _ _ _ (by decide), h3,
    itemField_set_ne _ _ _ _ _ (by decide), h4, itemField_set_ne _ _ _ _ _ (by decide), h5]
  cases readSession item.toValue <;> rfl

/-- What the reader does not know, it does not see. -/
theorem readItems_set_other (name : String)
    (hname : name ∉ ["lsp", "root_markers", "workspace_mode", "transport_flags", "memory",
      "session"]) : readItems (doc.set name item) = readItems doc := by
  simp only [List.mem_cons, List.not_mem_nil, or_false, not_or] at hname
  rcases hname with ⟨h1, h2, h3, h4, h5, h6⟩
  rw [readItems, Table.get?_set_ne _ _ _ _ (Ne.symm h1),
    itemField_set_ne _ _ _ _ _ (Ne.symm h2), itemField_set_ne _ _ _ _ _ (Ne.symm h3),
    itemField_set_ne _ _ _ _ _ (Ne.symm h4), itemField_set_ne _ _ _ _ _ (Ne.symm h5),
    itemField_set_ne _ _ _ _ _ (Ne.symm h6)]
  rfl

end Fields

/-! ### Sections -/

/-- Laying the entries of a table over another, one by one. -/
theorem get?_foldl_entries {V : Type} (fields : List (String × V)) (m : Table String V)
    (key : String) (h : (fields.map Prod.fst).Nodup) :
    (fields.foldl (fun m field => m.set field.1 field.2) m).get? key =
      ((fields.find? (fun field => field.1 = key)).map Prod.snd).or (m.get? key) := by
  -- The table that the fields are laid over changes with each of them.
  induction fields generalizing m with
  | nil => simp
  | cons field fields ih =>
      rw [List.map_cons, List.nodup_cons] at h
      rw [List.foldl_cons, ih _ h.2, Table.get?_set]
      by_cases hkey : field.1 = key
      · have hnone : fields.find? (fun field => field.1 = key) = none := by
          refine List.find?_eq_none.mpr fun other hother heq => ?_
          refine h.1 (List.mem_map.mpr ⟨other, hother, ?_⟩)
          rw [of_decide_eq_true heq, hkey]
        rw [hnone, if_pos hkey.symm, List.find?_cons_of_pos (by simpa using hkey)]
        rfl
      · rw [if_neg (Ne.symm hkey), List.find?_cons_of_neg (by simpa using hkey)]

/-- A table that is written down is read as itself. -/
theorem readTable_tableValue (t : TomlTable) :
    ∃ t', (tableValue t).readTable = some t' ∧ ∀ key, t'.get? key = t.get? key := by
  refine ⟨_, rfl, fun key => ?_⟩
  have hkeys : ((t.entries.map (fun e => (e.1, e.2))).map Prod.fst).Nodup := by
    rw [List.map_map]
    exact t.toAList.nodupKeys
  rw [get?_foldl_entries _ _ _ hkeys, Table.get?_empty, Option.or_none]
  -- An entry that is found is one of the table with this key.
  have hsome : ∀ field ∈ t.entries.map (fun e => (e.1, e.2)), field.1 = key →
      t.get? key = some field.2 := by
    intro field hfield hkey
    rcases List.mem_map.mp hfield with ⟨e, he, rfl⟩
    rw [← hkey]
    exact (t.mem_entries_iff e.1 e.2).mp he
  cases hfind : (t.entries.map (fun e => (e.1, e.2))).find? (fun field => field.1 = key) with
  | none =>
      cases hget : t.get? key with
      | none => rfl
      | some v =>
          have hmem : (key, v) ∈ t.entries.map (fun e => (e.1, e.2)) :=
            List.mem_map.mpr ⟨⟨key, v⟩, (t.mem_entries_iff key v).mpr hget, rfl⟩
          exact absurd (List.find?_eq_none.mp hfind _ hmem) (by simp)
  | some field =>
      have hkey : field.1 = key := by simpa using List.find?_some hfind
      exact (hsome field (List.mem_of_find?_eq_some hfind) hkey).symm

theorem readField_tableValue {α : Type} (read : TomlValue → Option α) (t t' : TomlTable)
    (key : String) (h : ∀ key, t'.get? key = t.get? key) :
    readField read t' key = readField read t key := by
  rw [readField, h, readField]

/-- The limits of a section, as the table has them. -/
theorem readMemory_tableValue (t : TomlTable) : readMemory (tableValue t) = do
    let maxSessionMb ← readField TomlValue.readU64 t "max_session_mb"
    let maxTotalMb ← readField TomlValue.readU64 t "max_total_mb"
    let checkIntervalMs ← readField TomlValue.readU64 t "check_interval_ms"
    return { maxSessionMb, maxTotalMb, checkIntervalMs } := by
  rcases readTable_tableValue t with ⟨t', ht', hget⟩
  rw [tableValue] at ht' ⊢
  rw [readMemory, ht']
  simp only [Option.bind_eq_bind, Option.bind_some, readField_tableValue _ t t' _ hget]
  rintro items ⟨⟩

theorem readSession_tableValue (t : TomlTable) : readSession (tableValue t) = do
    let idleTtlSecs ← readField TomlValue.readU64 t "idle_ttl_secs"
    let daemonIdleTtlSecs ← readField TomlValue.readU64 t "daemon_idle_ttl_secs"
    return { idleTtlSecs, daemonIdleTtlSecs } := by
  rcases readTable_tableValue t with ⟨t', ht', hget⟩
  rw [tableValue] at ht' ⊢
  rw [readSession, ht']
  simp only [Option.bind_eq_bind, Option.bind_some, readField_tableValue _ t t' _ hget]
  rintro items ⟨⟩

/-- A limit of a section with one key set. -/
theorem readField_set_cases {α : Type} (read : TomlValue → Option α) (t : TomlTable)
    (key key' : String) (v : TomlValue) : readField read (t.set key v) key' =
      if key' = key then (read v).map some else readField read t key' := by
  by_cases h : key' = key
  · rw [if_pos h, h, readField_set]
  · rw [if_neg h, readField_set_ne _ _ _ _ _ h]

theorem readMemory_set (t : TomlTable) (key : String) (v : TomlValue) (m : PartialMemoryConfig)
    (h : readMemory (tableValue t) = some m) : readMemory (tableValue (t.set key v)) =
      if key = "max_session_mb" then v.readU64.map (fun n => { m with maxSessionMb := some n })
      else if key = "max_total_mb" then v.readU64.map (fun n => { m with maxTotalMb := some n })
      else if key = "check_interval_ms" then
        v.readU64.map (fun n => { m with checkIntervalMs := some n })
      else some m := by
  rw [readMemory_tableValue] at h ⊢
  simp only [Option.bind_eq_bind, Option.bind_eq_some_iff, Option.pure_def,
    Option.some.injEq] at h
  rcases h with ⟨_, h1, _, h2, _, h3, rfl⟩
  simp only [readField_set_cases, h1, h2, h3]
  by_cases hsession : key = "max_session_mb"
  · rw [hsession]
    cases v.readU64 <;> rfl
  · by_cases htotal : key = "max_total_mb"
    · rw [htotal]
      cases v.readU64 <;> rfl
    · by_cases hinterval : key = "check_interval_ms"
      · rw [hinterval]
        cases v.readU64 <;> rfl
      · rw [if_neg (Ne.symm hsession), if_neg (Ne.symm htotal), if_neg (Ne.symm hinterval),
          if_neg hsession, if_neg htotal, if_neg hinterval]
        rfl

theorem readSession_set (t : TomlTable) (key : String) (v : TomlValue) (m : PartialSessionConfig)
    (h : readSession (tableValue t) = some m) : readSession (tableValue (t.set key v)) =
      if key = "idle_ttl_secs" then v.readU64.map (fun n => { m with idleTtlSecs := some n })
      else if key = "daemon_idle_ttl_secs" then
        v.readU64.map (fun n => { m with daemonIdleTtlSecs := some n })
      else some m := by
  rw [readSession_tableValue] at h ⊢
  simp only [Option.bind_eq_bind, Option.bind_eq_some_iff, Option.pure_def,
    Option.some.injEq] at h
  rcases h with ⟨_, h1, _, h2, rfl⟩
  simp only [readField_set_cases, h1, h2]
  by_cases hidle : key = "idle_ttl_secs"
  · rw [hidle]
    cases v.readU64 <;> rfl
  · by_cases hdaemon : key = "daemon_idle_ttl_secs"
    · rw [hdaemon]
      cases v.readU64 <;> rfl
    · rw [if_neg (Ne.symm hidle), if_neg (Ne.symm hdaemon), if_neg hidle, if_neg hdaemon]
      rfl

/-- A list of fields is one of texts when each of them is. -/
theorem mapM_isSome_iff {α β : Type} (f : α → Option β) (xs : List α) :
    (xs.mapM f).isSome ↔ ∀ x ∈ xs, (f x).isSome := by
  induction xs with
  | nil => simp
  | cons x xs ih =>
      rw [List.mapM_cons]
      cases hx : f x with
      | none => simp [hx]
      | some y =>
          cases hxs : xs.mapM f with
          | none =>
              rw [hxs] at ih
              simpa [hx] using ih
          | some ys =>
              rw [hxs] at ih
              simpa [hx] using ih

theorem readStringMap_isSome (t : TomlTable) : (tableValue t).readStringMap.isSome ↔
    ∀ key v, t.get? key = some v → v.asStr.isSome := by
  have hmap : (tableValue t).readStringMap.isSome ↔ ((t.entries.map (fun e => (e.1, e.2))).mapM
      (fun field : String × TomlValue => field.2.asStr.map (Prod.mk field.1))).isSome := by
    rw [tableValue, TomlValue.readStringMap, TomlValue.mapFields]
    simp only [Option.bind_eq_bind, Option.bind_some]
    generalize (t.entries.map (fun e => (e.1, e.2))).mapM
      (fun field : String × TomlValue => field.2.asStr.map (Prod.mk field.1)) = pairs
    cases pairs <;> rfl
  rw [hmap, mapM_isSome_iff]
  constructor
  · intro h key v hget
    have hfield := h (key, v)
      (List.mem_map.mpr ⟨⟨key, v⟩, (t.mem_entries_iff key v).mpr hget, rfl⟩)
    rwa [Option.isSome_map] at hfield
  · intro h field hfield
    rcases List.mem_map.mp hfield with ⟨e, he, rfl⟩
    rw [Option.isSome_map]
    exact h e.1 e.2 ((t.mem_entries_iff e.1 e.2).mp he)

/-- One flag is set; the others are texts already. -/
theorem readStringMap_set (t : TomlTable) (key : String) (v : TomlValue)
    (h : (tableValue t).readStringMap.isSome) :
    (tableValue (t.set key v)).readStringMap.isSome ↔ v.asStr.isSome := by
  rw [readStringMap_isSome] at h ⊢
  constructor
  · intro hset
    exact hset key v (t.get?_set_self key v)
  · intro hv key' u hget
    rcases (t.get?_set_eq_some key key' v u).mp hget with ⟨_, rfl⟩ | ⟨_, hold⟩
    · exact hv
    · exact h key' u hold

/-! ### The edit -/

/-- A value that the command guesses is a single one. -/
theorem parseTomlValue_cases (text : String) :
    (∃ n, parseI64 text = some n ∧ parseTomlValue text = .integer n) ∨
    (∃ b, parseTomlValue text = .boolean b) ∨ parseTomlValue text = .string text := by
  unfold parseTomlValue
  cases parseI64 text with
  | some n => exact .inl ⟨n, rfl, rfl⟩
  | none =>
      cases parseBool text with
      | some b => exact .inr (.inl ⟨b, rfl⟩)
      | none => exact .inr (.inr rfl)

/-- A single value is no list, no section and no entry. -/
theorem parseTomlValue_single (text : String) :
    readLsp (.value (parseTomlValue text)) = none ∧ (parseTomlValue text).readStrings = none ∧
      (parseTomlValue text).readStringMap = none ∧ readMemory (parseTomlValue text) = none ∧
      readSession (parseTomlValue text) = none := by
  rcases parseTomlValue_cases text with ⟨n, _, hv⟩ | ⟨b, hv⟩ | hv
  · rw [hv]
    exact ⟨rfl, rfl, rfl, rfl, rfl⟩
  · rw [hv]
    exact ⟨rfl, rfl, rfl, rfl, rfl⟩
  · rw [hv]
    exact ⟨rfl, rfl, rfl, rfl, rfl⟩

/-- An edit that succeeds sets a value in the root, or one in a section that is there
    or is made. -/
theorem setItems_cases (doc edited : TomlItems) (cmd : SetCommand) (printed : String)
    (h : setItems doc cmd = .ok (edited, printed)) :
    (∃ key, splitDots cmd.key = [key] ∧
      edited = doc.set key (.value (parseTomlValue cmd.value))) ∨
    ∃ name key table, splitDots cmd.key = [name, key] ∧
      (doc.get? name).getD (.table Table.empty) = .table table ∧
      edited = doc.set name (.table (table.set key (parseTomlValue cmd.value))) := by
  unfold setItems at h
  rcases hparts : splitDots cmd.key with _ | ⟨name, _ | ⟨key, _ | ⟨more, rest⟩⟩⟩
  · simp [hparts] at h
  · simp only [hparts, Outcome.ok.injEq, Prod.mk.injEq] at h
    exact .inl ⟨name, rfl, h.1.symm⟩
  · simp only [hparts] at h
    cases hitem : (doc.get? name).getD (.table Table.empty) with
    | value v => simp [hitem] at h
    | arrayOfTables entries => simp [hitem] at h
    | table table =>
        simp only [hitem, Outcome.ok.injEq, Prod.mk.injEq] at h
        exact .inr ⟨name, key, table, rfl, hitem, h.1.symm⟩
  · simp [hparts] at h

/-- What the edited file says, next to what the file said: a field that the key names
    has the value, whatever the file is laid over. -/
def SetsPartial (cmd : SetCommand) (p p' : PartialConfig) : Prop :=
  ∀ field : ConfigField, field.key = cmd.key → ∀ base,
    field.Given cmd.value (applyPartial base p) (applyPartial base p')

theorem path_of_key (cmd : SetCommand) (field : ConfigField) (parts : List String)
    (hparts : splitDots cmd.key = parts) (hkey : field.key = cmd.key) : field.path = parts := by
  rw [← field.splitDots_key, hkey, hparts]

/-- A single value at a key of the root. -/
theorem set_root_reads (doc : TomlItems) (p : PartialConfig) (cmd : SetCommand) (key : String)
    (h : readItems doc = some p) (hparts : splitDots cmd.key = [key]) :
    if (keyType [key]).admits (parseTomlValue cmd.value) then
      ∃ p', readItems (doc.set key (.value (parseTomlValue cmd.value))) = some p' ∧
        SetsPartial cmd p p'
    else readItems (doc.set key (.value (parseTomlValue cmd.value))) = none := by
  have hpath : ∀ field : ConfigField, field.key = cmd.key → key = "workspace_mode" := by
    intro field hfield
    have hfieldPath := path_of_key cmd field _ hparts hfield
    cases field <;> simp_all [ConfigField.path]
  -- Of the fields only the mode is in the root; the rest there is no single value.
  by_cases hmode : key = "workspace_mode"
  · subst hmode
    rw [readItems_set_workspaceMode doc p _ h]
    rcases parseTomlValue_cases cmd.value with ⟨n, _, hv⟩ | ⟨b, hv⟩ | hv
    · rw [hv]
      rfl
    · rw [hv]
      rfl
    · rw [hv]
      refine ⟨_, rfl, fun field hfield base => ?_⟩
      have hfieldPath := path_of_key cmd field _ hparts hfield
      cases field with
      | workspaceMode => rfl
      | _ => simp [ConfigField.path] at hfieldPath
  · by_cases hname : key ∈ ["lsp", "root_markers", "transport_flags", "memory", "session"]
    · have htype : keyType [key] = .nothing := by
        rw [keyType, if_neg hmode, if_pos hname]
      rw [htype]
      rcases parseTomlValue_single cmd.value with ⟨hlsp, hstrings, hmap, hmemory, hsession⟩
      simp only [List.mem_cons, List.not_mem_nil, or_false] at hname
      rcases hname with rfl | rfl | rfl | rfl | rfl
      · exact readItems_set_lsp doc _ hlsp
      · rw [readItems_set_rootMarkers doc p _ h]
        exact Option.map_eq_none_iff.mpr hstrings
      · rw [readItems_set_transportFlags doc p _ h]
        exact Option.map_eq_none_iff.mpr hmap
      · rw [readItems_set_memory doc p _ h]
        exact Option.map_eq_none_iff.mpr hmemory
      · rw [readItems_set_session doc p _ h]
        exact Option.map_eq_none_iff.mpr hsession
    · have htype : keyType [key] = .anything := by
        rw [keyType, if_neg hmode, if_neg hname]
      rw [htype, readItems_set_other, h]
      · exact ⟨p, rfl, fun field hfield => absurd (hpath field hfield) hmode⟩
      · simp_all

/-- A section that is there or is made, as the reader sees it. -/
theorem section_read {α : Type} (read : TomlValue → Option α) (doc : TomlItems) (name : String)
    (table : TomlTable) (field : Option α) (d : α)
    (hempty : read (tableValue Table.empty) = some d)
    (hfield : itemField read doc name = some field)
    (htable : (doc.get? name).getD (.table Table.empty) = .table table) :
    read (tableValue table) = some (field.getD d) := by
  rw [itemField] at hfield
  cases hitem : doc.get? name with
  | none =>
      rw [hitem, Option.getD_none, TomlItem.table.injEq] at htable
      rw [hitem, Option.map_none, Option.elim_none, Option.some.injEq] at hfield
      rw [← htable, ← hfield, hempty, Option.getD_none]
  | some item =>
      rw [hitem, Option.getD_some] at htable
      rw [hitem, Option.map_some, Option.elim_some, htable] at hfield
      rcases Option.map_eq_some_iff.mp hfield with ⟨v, hv, hsome⟩
      rw [← hsome, Option.getD_some]
      exact hv

/-- A number as the command writes it is the number of its text. -/
theorem readU64_parseTomlValue (text : String) (n : Nat)
    (h : (parseTomlValue text).readU64 = some n) : parseI64 text = some (n : Int) := by
  rcases parseTomlValue_cases text with ⟨m, hm, hv⟩ | ⟨b, hv⟩ | hv
  · rw [hv, TomlValue.readU64] at h
    by_cases hle : 0 ≤ m
    · rw [if_pos hle, Option.some.injEq] at h
      rw [hm, ← h, Int.toNat_of_nonneg hle]
    · rw [if_neg hle] at h
      exact absurd h (by simp)
  · rw [hv] at h
    exact absurd h (by simp [TomlValue.readU64])
  · rw [hv] at h
    exact absurd h (by simp [TomlValue.readU64])

theorem ConfigField.path_injective (field named : ConfigField) (h : field.path = named.path) :
    field = named := by
  cases field <;> cases named <;> simp_all [ConfigField.path]

/-- A number of a section, at the key of a field: it is read when the text gives one, and
    then it is the field's. -/
theorem number_reads (p : PartialConfig) (cmd : SetCommand) (named : ConfigField)
    (hparts : splitDots cmd.key = named.path) (hmode : named ≠ .workspaceMode)
    (edit : Nat → PartialConfig)
    (hedit : ∀ n base, applyPartial base (edit n) = named.put (applyPartial base p) n) :
    if FieldType.number.admits (parseTomlValue cmd.value) then
      ∃ p', (parseTomlValue cmd.value).readU64.map edit = some p' ∧ SetsPartial cmd p p'
    else (parseTomlValue cmd.value).readU64.map edit = none := by
  rw [FieldType.admits]
  cases hread : (parseTomlValue cmd.value).readU64 with
  | none => rfl
  | some n =>
      refine ⟨edit n, rfl, fun field hfield base => ?_⟩
      -- A key names one field.
      have heq := ConfigField.path_injective field named (path_of_key cmd field _ hparts hfield)
      have hnumber := readU64_parseTomlValue cmd.value n hread
      subst heq
      cases field with
      | workspaceMode => exact absurd rfl hmode
      | _ => exact ⟨n, hnumber, hedit n base⟩

/-- A limit in the section of the limits. -/
theorem set_memory_reads (doc : TomlItems) (p : PartialConfig) (cmd : SetCommand) (key : String)
    (table : TomlTable) (h : readItems doc = some p) (hparts : splitDots cmd.key = ["memory", key])
    (htable : (doc.get? "memory").getD (.table Table.empty) = .table table) :
    if (keyType ["memory", key]).admits (parseTomlValue cmd.value) then
      ∃ p', readItems (doc.set "memory"
        (.table (table.set key (parseTomlValue cmd.value)))) = some p' ∧ SetsPartial cmd p p'
    else
      readItems (doc.set "memory" (.table (table.set key (parseTomlValue cmd.value)))) = none := by
  have hold := section_read readMemory doc "memory" table p.memory ⟨none, none, none⟩ rfl
    ((readItems_eq_some doc p).mp h).2.2.2.2.1 htable
  rw [readItems_set_memory doc p _ h, TomlItem.toValue, readMemory_set table key _ _ hold]
  by_cases hsession : key = "max_session_mb"
  · subst hsession
    rw [if_pos rfl, show keyType ["memory", "max_session_mb"] = .number by decide, Option.map_map]
    refine number_reads p cmd .maxSessionMb hparts (by simp) _ fun n base => ?_
    cases hmemory : p.memory <;> simp [applyPartial, applyPartialMemory, ConfigField.put, hmemory]
  by_cases htotal : key = "max_total_mb"
  · subst htotal
    rw [if_neg hsession, if_pos rfl, show keyType ["memory", "max_total_mb"] = .number by decide,
      Option.map_map]
    refine number_reads p cmd .maxTotalMb hparts (by simp) _ fun n base => ?_
    cases hmemory : p.memory <;> simp [applyPartial, applyPartialMemory, ConfigField.put, hmemory]
  by_cases hinterval : key = "check_interval_ms"
  · subst hinterval
    rw [if_neg hsession, if_neg htotal, if_pos rfl,
      show keyType ["memory", "check_interval_ms"] = .number by decide, Option.map_map]
    refine number_reads p cmd .checkIntervalMs hparts (by simp) _ fun n base => ?_
    cases hmemory : p.memory <;> simp [applyPartial, applyPartialMemory, ConfigField.put, hmemory]
  -- A key that the reader does not know.
  have htype : keyType ["memory", key] = .anything := by
    simp [keyType, isNumberKey, hsession, htotal, hinterval]
  rw [if_neg hsession, if_neg htotal, if_neg hinterval, htype]
  refine ⟨_, rfl, fun field hfield base => ?_⟩
  have hfieldPath := path_of_key cmd field _ hparts hfield
  cases field <;> simp_all [ConfigField.path]

/-- A time in the section of the times. -/
theorem set_session_reads (doc : TomlItems) (p : PartialConfig) (cmd : SetCommand) (key : String)
    (table : TomlTable) (h : readItems doc = some p)
    (hparts : splitDots cmd.key = ["session", key])
    (htable : (doc.get? "session").getD (.table Table.empty) = .table table) :
    if (keyType ["session", key]).admits (parseTomlValue cmd.value) then
      ∃ p', readItems (doc.set "session"
        (.table (table.set key (parseTomlValue cmd.value)))) = some p' ∧ SetsPartial cmd p p'
    else
      readItems (doc.set "session" (.table (table.set key (parseTomlValue cmd.value)))) = none := by
  have hold := section_read readSession doc "session" table p.session ⟨none, none⟩ rfl
    ((readItems_eq_some doc p).mp h).2.2.2.2.2 htable
  rw [readItems_set_session doc p _ h, TomlItem.toValue, readSession_set table key _ _ hold]
  by_cases hidle : key = "idle_ttl_secs"
  · subst hidle
    rw [if_pos rfl, show keyType ["session", "idle_ttl_secs"] = .number by decide, Option.map_map]
    refine number_reads p cmd .idleTtlSecs hparts (by simp) _ fun n base => ?_
    cases hsession : p.session <;>
      simp [applyPartial, applyPartialSession, ConfigField.put, hsession]
  by_cases hdaemon : key = "daemon_idle_ttl_secs"
  · subst hdaemon
    rw [if_neg hidle, if_pos rfl,
      show keyType ["session", "daemon_idle_ttl_secs"] = .number by decide, Option.map_map]
    refine number_reads p cmd .daemonIdleTtlSecs hparts (by simp) _ fun n base => ?_
    cases hsession : p.session <;>
      simp [applyPartial, applyPartialSession, ConfigField.put, hsession]
  have htype : keyType ["session", key] = .anything := by
    simp [keyType, isNumberKey, hidle, hdaemon]
  rw [if_neg hidle, if_neg hdaemon, htype]
  refine ⟨_, rfl, fun field hfield base => ?_⟩
  have hfieldPath := path_of_key cmd field _ hparts hfield
  cases field <;> simp_all [ConfigField.path]

/-- A value in a section. -/
theorem set_section_reads (doc : TomlItems) (p : PartialConfig) (cmd : SetCommand)
    (name key : String) (table : TomlTable) (h : readItems doc = some p)
    (hparts : splitDots cmd.key = [name, key])
    (htable : (doc.get? name).getD (.table Table.empty) = .table table) :
    if (keyType [name, key]).admits (parseTomlValue cmd.value) then
      ∃ p', readItems (doc.set name
        (.table (table.set key (parseTomlValue cmd.value)))) = some p' ∧ SetsPartial cmd p p'
    else readItems (doc.set name (.table (table.set key (parseTomlValue cmd.value)))) = none := by
  by_cases hmemory : name = "memory"
  · subst hmemory
    exact set_memory_reads doc p cmd key table h hparts htable
  by_cases hsession : name = "session"
  · subst hsession
    exact set_session_reads doc p cmd key table h hparts htable
  -- No field of a number or of the mode is in another section.
  have hnone : ∀ p', SetsPartial cmd p p' := by
    intro p' field hfield
    have hfieldPath := path_of_key cmd field _ hparts hfield
    cases field <;> simp_all [ConfigField.path]
  by_cases hnothing : name ∈ ["lsp", "root_markers", "workspace_mode"]
  · have htype : keyType [name, key] = .nothing := by
      rw [keyType, if_pos hnothing]
    rw [htype]
    simp only [List.mem_cons, List.not_mem_nil, or_false] at hnothing
    rcases hnothing with rfl | rfl | rfl
    · exact readItems_set_lsp doc _ rfl
    · rw [readItems_set_rootMarkers doc p _ h]
      rfl
    · rw [readItems_set_workspaceMode doc p _ h]
      rfl
  · by_cases hflags : name = "transport_flags"
    · subst hflags
      have hold := section_read TomlValue.readStringMap doc "transport_flags" table
        p.transportFlags Table.empty rfl ((readItems_eq_some doc p).mp h).2.2.2.1 htable
      -- The other flags are texts already, so only the new one counts.
      have hset := readStringMap_set table key (parseTomlValue cmd.value)
        (Option.isSome_of_eq_some hold)
      rw [readItems_set_transportFlags doc p _ h, TomlItem.toValue,
        show keyType ["transport_flags", key] = .text by simp [keyType], FieldType.admits]
      by_cases htext : (parseTomlValue cmd.value).asStr.isSome = true
      · rw [if_pos htext]
        rcases Option.isSome_iff_exists.mp (hset.mpr htext) with ⟨flags, hflags⟩
        rw [hflags]
        exact ⟨_, rfl, hnone _⟩
      · rw [if_neg htext]
        have hflags : (tableValue (table.set key (parseTomlValue cmd.value))).readStringMap =
            none := Option.not_isSome_iff_eq_none.mp fun hsome => htext (hset.mp hsome)
        rw [hflags]
        rfl
    · have htype : keyType [name, key] = .anything := by
        have hnumber : isNumberKey name key = false := by simp [isNumberKey, hmemory, hsession]
        rw [keyType, if_neg hnothing, if_neg hflags, hnumber]
        rfl
      rw [htype, readItems_set_other, h]
      · exact ⟨p, rfl, hnone p⟩
      · simp_all

/-- After the edit the document is a configuration with the value, if the value is of
    the type of the key, and no configuration otherwise. -/
theorem setItems_reads (doc edited : TomlItems) (p : PartialConfig) (cmd : SetCommand)
    (printed : String) (h : readItems doc = some p)
    (hset : setItems doc cmd = .ok (edited, printed)) :
    if (keyType (splitDots cmd.key)).admits (parseTomlValue cmd.value) then
      ∃ p', readItems edited = some p' ∧ SetsPartial cmd p p'
    else readItems edited = none := by
  rcases setItems_cases doc edited cmd printed hset with
    ⟨key, hparts, rfl⟩ | ⟨name, key, table, hparts, htable, rfl⟩
  · rw [hparts]
    exact set_root_reads doc p cmd key h hparts
  · rw [hparts]
    exact set_section_reads doc p cmd name key table h hparts htable

/-! ### The command -/

/-- If the key names a field, its effective value is the given one, and every other
    field is unchanged. -/
def SetsField (cmd : SetCommand) (before after : EffectiveConfig) : Prop :=
  ∀ field : ConfigField, field.key = cmd.key → field.Given cmd.value before after

/-- What the project's file says, where a file that is missing says nothing. -/
def saidBy (project : Option PartialConfig) : PartialConfig :=
  project.getD ⟨[], none, none, none, none, none⟩

theorem foldl_saidBy (user project : Option PartialConfig) :
    (user.toList ++ project.toList).foldl applyPartial defaultConfig =
      applyPartial (user.toList.foldl applyPartial defaultConfig) (saidBy project) := by
  rw [List.foldl_append]
  cases project with
  | none => rfl
  | some p => rfl

/-- The document that is loaded or made says what the file says. -/
theorem loadOrCreateDoc_reads (x : Externals) (t : TomlSyntax) (fs : FileSystem) (path : PathBuf)
    (doc : TomlItems) (project : Option PartialConfig)
    (hreads : ∀ raw, fs.readToString path = .ok raw → t.ReadsAlike x raw)
    (hproject : FileSays x fs path project) (h : t.loadOrCreateDoc fs path = .ok doc) :
    readItems doc = some (saidBy project) := by
  unfold TomlSyntax.loadOrCreateDoc at h
  cases project with
  | none =>
      rw [if_neg (by rw [show fs.pathExists path = false from hproject]; simp),
        Except.ok.injEq] at h
      rw [← h]
      rfl
  | some p =>
      rcases hproject with ⟨hexists, raw, hraw, hparsed⟩
      rw [if_pos hexists, TomlSyntax.loadDoc, hraw] at h
      cases hparse : t.parse raw with
      | error source => simp [hparse] at h
      | ok doc' =>
          simp only [hparse, Except.ok.injEq] at h
          rw [← h, ← readItems_eq]
          exact hreads raw hraw doc' p hparse hparsed

/-- A command that succeeds has edited the document of the file and written it. -/
theorem runSet_eq_ok (t : TomlSyntax) (fs fs' : FileSystem) (root canon : PathBuf)
    (cmd : SetCommand) (writing : Writing) (printed : String)
    (hcanon : fs.canonicalize root = .ok canon)
    (h : t.runSet fs root cmd writing = (fs', .ok printed)) :
    ∃ doc edited, t.loadOrCreateDoc fs (canon.join ["lspee.toml"]) = .ok doc ∧
      setItems doc cmd = .ok (edited, printed) ∧
      fs' = fs.write (canon.join ["lspee.toml"]) (t.print edited) := by
  unfold TomlSyntax.runSet at h
  simp only [hcanon] at h
  cases hdoc : t.loadOrCreateDoc fs (canon.join ["lspee.toml"]) with
  | error error => simp [hdoc] at h
  | ok doc =>
      simp only [hdoc] at h
      cases hset : setItems doc cmd with
      | err error => simp [hset, TomlSyntax.finish] at h
      | panicked message => simp [hset, TomlSyntax.finish] at h
      | ok result =>
          rcases result with ⟨edited, said⟩
          rw [hset] at h
          cases writing with
          | succeeds =>
              simp only [TomlSyntax.finish, Prod.mk.injEq, Outcome.ok.injEq] at h
              exact ⟨doc, edited, rfl, by rw [hset, h.2], h.1.symm⟩
          | fails source left => cases left <;> simp [TomlSyntax.finish] at h

/-- `resolve` does not accept a file that does not parse. -/
theorem not_resolves_of_error (x : Externals) (home : Option PathBuf) (fs : FileSystem)
    (root canon : PathBuf) (user : Option PartialConfig) (text source : String)
    (hcanon : fs.canonicalize root = .ok canon)
    (huser : FileSays x fs (userConfigPath home) user)
    (hexists : fs.pathExists (canon.join ["lspee.toml"]) = true)
    (hraw : fs.readToString (canon.join ["lspee.toml"]) = .ok text)
    (herror : x.tomlFromStr text = .error source) (resolved : ResolvedConfig) :
    ¬Resolves x home fs root resolved := by
  rintro ⟨n, hn⟩
  rcases resolving_layer x fs canon home defaultConfig .user user huser with ⟨m, hm⟩
  have hstart : Resolving.step x home fs (.start root) = .probe canon defaultConfig .user := by
    simp only [Resolving.step, hcanon]
  have hprobe : Resolving.step x home fs (.probe canon
      (user.toList.foldl applyPartial defaultConfig) .project) =
        .read canon (user.toList.foldl applyPartial defaultConfig) .project := by
    simp only [Resolving.step, Layer.path, hexists, if_true]
  have hread : Resolving.step x home fs (.read canon
      (user.toList.foldl applyPartial defaultConfig) .project) =
        .done (.error (.parse (canon.join ["lspee.toml"]) source)) := by
    simp only [Resolving.step, Layer.path, loadPartial, hraw, herror]
  have hfails : (Resolving.step x home fs)^[2 + m + 1] (.start root) =
      .done (.error (.parse (canon.join ["lspee.toml"]) source)) := by
    rw [Function.iterate_succ_apply, hstart, Function.iterate_add_apply, hm]
    exact (congrArg _ hprobe).trans hread
  have hsame := iterate_end (Resolving.step x home fs) n (2 + m + 1) (.start root) _ _ rfl rfl hn
    hfails
  rw [Resolving.done.injEq] at hsame
  exact absurd hsame (by simp)

/-- After `config set` has succeeded, `resolve` accepts the file, with the given value
    in the field that the key names and every other field as before, if and only if the
    value is of the type of the key. The file may be missing, and may have any shape. -/
theorem set_keeps_loadable_iff (x : Externals) (t : TomlSyntax) (home : Option PathBuf)
    (fs fs' : FileSystem) (root canon : PathBuf) (user project : Option PartialConfig)
    (cmd : SetCommand) (writing : Writing) (printed : String)
    (hcanon : fs.canonicalize root = .ok canon)
    (huser : FileSays x fs (userConfigPath home) user)
    (hproject : FileSays x fs (canon.join ["lspee.toml"]) project)
    (hreads : ∀ raw, fs.readToString (canon.join ["lspee.toml"]) = .ok raw → t.ReadsAlike x raw)
    (hprints : ∀ doc edited, t.loadOrCreateDoc fs (canon.join ["lspee.toml"]) = .ok doc →
      setItems doc cmd = .ok (edited, printed) → t.PrintsBack x edited)
    (hset : t.runSet fs root cmd writing = (fs', .ok printed)) :
    ∃ before, Resolves x home fs root before ∧
      ((∃ after, Resolves x home fs' root after ∧ SetsField cmd before.merged after.merged) ↔
        (keyType (splitDots cmd.key)).admits (parseTomlValue cmd.value) = true) := by
  rcases runSet_eq_ok t fs fs' root canon cmd writing printed hcanon hset with
    ⟨doc, edited, hdoc, hedit, rfl⟩
  have hread := loadOrCreateDoc_reads x t fs _ doc project hreads hproject hdoc
  have hprint := hprints doc edited hdoc hedit
  have hedited := setItems_reads doc edited _ cmd printed hread hedit
  rcases resolving_ends x fs root canon user project home hcanon huser hproject with
    ⟨n, before, hbefore, hmerged⟩
  have huser' := fileSays_write_ne x fs _ _ (t.print edited) user (userConfigPath_ne home canon)
    huser
  refine ⟨before, ⟨n, hbefore⟩, ?_⟩
  unfold TomlSyntax.PrintsBack at hprint
  rw [readItems_eq] at hprint
  by_cases hadmits : (keyType (splitDots cmd.key)).admits (parseTomlValue cmd.value) = true
  · rw [if_pos hadmits] at hedited
    rcases hedited with ⟨p', hp', hsets⟩
    have hproject' := fileSays_write x fs (canon.join ["lspee.toml"]) (t.print edited) _
      (hprint.1 p' hp')
    rcases resolving_ends x (fs.write (canon.join ["lspee.toml"]) (t.print edited)) root canon
      user _ home hcanon huser' hproject' with ⟨m, after, hafter, hmerged'⟩
    refine iff_of_true ⟨after, ⟨m, hafter⟩, fun field hfield => ?_⟩ hadmits
    rw [hmerged, hmerged', foldl_saidBy, foldl_saidBy]
    exact hsets field hfield _
  · rw [if_neg hadmits] at hedited
    refine iff_of_false ?_ hadmits
    rintro ⟨after, hafter, _⟩
    rcases hprint.2 hedited with ⟨source, herror⟩
    exact not_resolves_of_error x home (fs.write (canon.join ["lspee.toml"]) (t.print edited)) root
      canon user _ source hcanon huser' (if_pos rfl) (if_pos rfl) herror after hafter

/-! ### A file with a limit -/

def limitText (n : String) : String := "[memory]\nmax_total_mb = " ++ n ++ "\n"

def limitTable (n : Int) : TomlTable := Table.empty.set "max_total_mb" (.integer n)

def limitItems : TomlItems := Table.empty.set "memory" (.table (limitTable 100))

def limitConfig (n : Nat) : PartialConfig :=
  ⟨[], none, none, none, some ⟨none, some n, none⟩, none⟩

/-- The parsers and the printers, as they are on the file and on those that setting the
    limit makes of it. -/
def limitExternals : Externals where
  tomlFromStr := fun text =>
    if text = limitText "100" then .ok (limitConfig 100)
    else if text = limitText "200" then .ok (limitConfig 200)
    else .error "invalid value: integer, expected u64"
  tomlToString := inlineExternals.tomlToString
  sha256Hex := inlineExternals.sha256Hex
  defaultLanguages := .ok taploCatalog

def limitSyntax : TomlSyntax where
  parse := fun text =>
    if text = limitText "100" then .ok limitItems else .error "unexpected text"
  print := fun doc => match doc.get? "memory" with
    | some (.table t) => match t.get? "max_total_mb" with
      | some (.integer n) =>
        if n = 200 then limitText "200" else if n = 100 then limitText "100" else limitText "-1"
      | _ => ""
    | _ => ""

def limitFiles : FileSystem where
  pathExists := fun path => path = taploRoot.join ["lspee.toml"]
  readToString := fun path =>
    if path = taploRoot.join ["lspee.toml"] then .ok (limitText "100")
    else .error "No such file or directory (os error 2)"
  canonicalize := fun path => .ok path

def setLimit (value : String) : SetCommand := ⟨"memory.max_total_mb", value⟩

def limitEdited (value : String) : TomlItems := limitItems.set "memory"
  (.table ((limitTable 100).set "max_total_mb" (parseTomlValue value)))

theorem limit_user : FileSays limitExternals limitFiles (userConfigPath (some taploHome)) none := by
  unfold FileSays
  decide

theorem limit_project : FileSays limitExternals limitFiles (taploRoot.join ["lspee.toml"])
    (some (limitConfig 100)) :=
  ⟨by decide, limitText "100", rfl, rfl⟩

theorem limit_reads (raw : String)
    (h : limitFiles.readToString (taploRoot.join ["lspee.toml"]) = .ok raw) :
    limitSyntax.ReadsAlike limitExternals raw := by
  have hraw : raw = limitText "100" := (Except.ok.inj h).symm
  intro doc p hdoc hp
  rw [hraw] at hdoc hp
  rw [← Except.ok.inj hdoc, ← Except.ok.inj hp]
  rfl

theorem limit_edits (value : String) : setItems limitItems (setLimit value) =
    .ok (limitEdited value, "set " ++ "memory.max_total_mb" ++ "=" ++ value) := by
  have hparts : splitDots (setLimit value).key = ["memory", "max_total_mb"] :=
    ConfigField.maxTotalMb.splitDots_key
  simp only [setItems, hparts]
  rfl

theorem limit_set (value : String) : limitSyntax.runSet limitFiles taploRoot (setLimit value)
    .succeeds = (limitFiles.write (taploRoot.join ["lspee.toml"])
      (limitSyntax.print (limitEdited value)),
        .ok ("set " ++ "memory.max_total_mb" ++ "=" ++ value)) := by
  have hload : limitSyntax.loadOrCreateDoc limitFiles (taploRoot.join ["lspee.toml"]) =
      .ok limitItems := rfl
  simp only [TomlSyntax.runSet, show limitFiles.canonicalize taploRoot = .ok taploRoot from rfl,
    hload, limit_edits]
  rfl

theorem limit_prints (value : String) (hvalue : value = "200" ∨ value = "-1")
    (doc edited : TomlItems)
    (hdoc : limitSyntax.loadOrCreateDoc limitFiles (taploRoot.join ["lspee.toml"]) = .ok doc)
    (hedit : setItems doc (setLimit value) =
      .ok (edited, "set " ++ "memory.max_total_mb" ++ "=" ++ value)) :
    limitSyntax.PrintsBack limitExternals edited := by
  have hload : limitItems = doc := Except.ok.inj hdoc
  rw [← hload, limit_edits, Outcome.ok.injEq, Prod.mk.injEq] at hedit
  rw [← hedit.1]
  rcases hvalue with rfl | rfl
  · refine ⟨fun p hp => ?_, fun hnone => absurd hnone (by decide)⟩
    rw [← Option.some.inj hp]
    rfl
  · have hnone : readDocument (TomlItems.plain (limitEdited "-1")) = none := rfl
    refine ⟨fun p hp => ?_, fun _ => ⟨_, rfl⟩⟩
    rw [hnone] at hp
    exact absurd hp (by simp)

/-- A limit of 200 is one that `resolve` accepts. -/
theorem set_keeps_loadable_iff_limit : ∃ before after,
    Resolves limitExternals (some taploHome) limitFiles taploRoot before ∧
    Resolves limitExternals (some taploHome) (limitFiles.write (taploRoot.join ["lspee.toml"])
      (limitSyntax.print (limitEdited "200"))) taploRoot after ∧
    SetsField (setLimit "200") before.merged after.merged := by
  rcases set_keeps_loadable_iff limitExternals limitSyntax (some taploHome) limitFiles _ taploRoot
    taploRoot none (some (limitConfig 100)) (setLimit "200") .succeeds _ rfl limit_user
    limit_project limit_reads (limit_prints "200" (.inl rfl)) (limit_set "200") with
    ⟨before, hbefore, hiff⟩
  rcases hiff.mpr (by decide) with ⟨after, hafter, hsets⟩
  exact ⟨before, after, hbefore, hafter, hsets⟩

/-- A limit of -1 is set, and then `resolve` does not accept the file. -/
theorem set_breaks_file :
    ¬ ∀ (x : Externals) (t : TomlSyntax) (home : Option PathBuf) (fs fs' : FileSystem)
      (root canon : PathBuf) (user project : Option PartialConfig) (cmd : SetCommand)
      (printed : String), fs.canonicalize root = .ok canon →
      FileSays x fs (userConfigPath home) user →
      FileSays x fs (canon.join ["lspee.toml"]) project →
      (∀ raw, fs.readToString (canon.join ["lspee.toml"]) = .ok raw → t.ReadsAlike x raw) →
      (∀ doc edited, t.loadOrCreateDoc fs (canon.join ["lspee.toml"]) = .ok doc →
        setItems doc cmd = .ok (edited, printed) → t.PrintsBack x edited) →
      t.runSet fs root cmd .succeeds = (fs', .ok printed) →
      ∃ after, Resolves x home fs' root after := by
  intro hall
  rcases hall limitExternals limitSyntax (some taploHome) limitFiles _ taploRoot taploRoot none
    (some (limitConfig 100)) (setLimit "-1") _ rfl limit_user limit_project limit_reads
    (limit_prints "-1" (.inr rfl)) (limit_set "-1") with ⟨after, hafter⟩
  have huser := fileSays_write_ne limitExternals limitFiles _ _
    (limitSyntax.print (limitEdited "-1")) none (userConfigPath_ne (some taploHome) taploRoot)
    limit_user
  have hexists : (limitFiles.write (taploRoot.join ["lspee.toml"]) (limitSyntax.print
      (limitEdited "-1"))).pathExists (taploRoot.join ["lspee.toml"]) = true := rfl
  exact not_resolves_of_error limitExternals (some taploHome) _ taploRoot taploRoot none
    (limitText "-1") _ rfl huser hexists rfl rfl after hafter

end Lspee
