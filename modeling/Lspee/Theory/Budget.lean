import Lspee.Core.AutoShutdown
import Lspee.Theory.Editing

/-!
# The Memory Budget of a Configuration

Whether the daemon enforces the memory budget that its configuration sets. The
limits are configured in MiB and multiplied by 2^20 in a `u64`, which wraps, and the
interval is handed to a ticker that cannot take zero. Neither value is checked on the
way from the file to the daemon. So a configuration is enforced as it is written if
and only if the last file that sets a limit sets it below 2^44, and the last one that
sets the interval does not set it to zero (`budget_kept_iff`).

Where the limits are exact, a larger limit for all sessions never has more of them
evicted. The choice for the total takes candidates in an order that does not depend
on the limit, until the total is within it; a larger limit stops it earlier, and what
is selected is an initial part of what was selected before (`selectEvictions_raised`).
That is so for any samples and any two limits in bytes.

## Main definitions

* `said`: The value of the last file that sets one.
* `FilesFit`: The condition.
* `ConfiguredBy`: A configuration that `resolve` ends with.
* `RaisesTotal`: A configuration with a larger limit for all sessions.
* `ExactBytes`, `BudgetKept`: What is claimed of a configuration, and of two.

## Theorems

* `mebibytes_exact_iff`: When the product does not wrap.
* `takeOverTotal_raised`, `dedupeByKey_initial`, `selectEvictions_raised`: A larger
  limit.
* `memory_of_configuredBy`: The memory section, by the files.
* `budget_kept_iff`: The condition is exact.
* `limit_wrapped`: A limit that becomes zero.
-/

namespace Lspee

/-! ### Limits in bytes -/

/-- The product does not wrap. -/
theorem mebibytes_exact_iff (mb : Nat) : mebibytes mb = mb * 2 ^ 20 ↔ mb < 2 ^ 44 := by
  unfold mebibytes
  omega

/-- The limits in bytes are the limits in MiB, times 2^20. -/
def ExactBytes (config : EffectiveConfig) : Prop :=
  (memorySettings config).maxSessionBytes = config.memory.maxSessionMb.map (· * 2 ^ 20) ∧
    (memorySettings config).maxTotalBytes = config.memory.maxTotalMb.map (· * 2 ^ 20)

theorem map_mebibytes_iff (limit : Option Nat) :
    limit.map mebibytes = limit.map (· * 2 ^ 20) ↔ ∀ mb, limit = some mb → mb < 2 ^ 44 := by
  cases limit with
  | none => simp
  | some mb => simp only [Option.map_some, Option.some.injEq, forall_eq', mebibytes_exact_iff]

theorem exactBytes_iff (config : EffectiveConfig) : ExactBytes config ↔
    (∀ mb, config.memory.maxSessionMb = some mb → mb < 2 ^ 44) ∧
      ∀ mb, config.memory.maxTotalMb = some mb → mb < 2 ^ 44 := by
  rw [← map_mebibytes_iff, ← map_mebibytes_iff]
  rfl

theorem checkInterval_pos_iff (config : EffectiveConfig) :
    0 < (memorySettings config).checkInterval ↔ config.memory.checkIntervalMs ≠ 0 := by
  change (0 : Nat) < config.memory.checkIntervalMs * 1000000 ↔ _
  omega

/-! ### A larger limit -/

/-- A larger limit takes fewer of the candidates. -/
theorem takeOverTotal_raised (limit limit' : Nat) (hle : limit ≤ limit')
    (samples : List MemorySample) (total : Nat) :
    takeOverTotal limit' total samples <+: takeOverTotal limit total samples := by
  induction samples generalizing total with
  | nil => exact List.nil_prefix
  | cons sample samples ih =>
      rw [takeOverTotal, takeOverTotal]
      by_cases hwithin : total ≤ limit'
      · rw [if_pos hwithin]
        exact List.nil_prefix
      -- Over the larger limit, it is over the smaller one as well.
      · have hover : ¬total ≤ limit := by omega
        rw [if_neg hwithin, if_neg hover]
        exact (List.prefix_cons_inj sample).mpr (ih (total - sample.rssBytes))

/-- The first samples of an initial part are first samples of the whole. -/
theorem dedupeByKey_initial (samples more : List MemorySample) :
    dedupeByKey samples <+: dedupeByKey (samples ++ more) := by
  induction samples with
  | nil => exact List.nil_prefix
  | cons sample samples ih =>
      rw [List.cons_append, dedupeByKey, dedupeByKey]
      exact (List.prefix_cons_inj sample).mpr (ih.filter _)

/-- With the same limit of one session, a larger limit of all has fewer samples
    selected. -/
theorem selectEvictions_raised (samples : List MemorySample)
    (settings settings' : MemoryBudgetSettings)
    (hsession : settings'.maxSessionBytes = settings.maxSessionBytes)
    (htotal : ∀ limit', settings'.maxTotalBytes = some limit' →
      ∃ limit ≤ limit', settings.maxTotalBytes = some limit) :
    selectEvictions samples settings' <+: selectEvictions samples settings := by
  have hover : overSessionLimit samples settings' = overSessionLimit samples settings := by
    rw [overSessionLimit, overSessionLimit, hsession]
  have htaken : ∀ remaining,
      overTotalLimit remaining settings' <+: overTotalLimit remaining settings := by
    intro remaining
    cases hlimit' : settings'.maxTotalBytes with
    | none =>
        rw [overTotalLimit, hlimit']
        exact List.nil_prefix
    | some limit' =>
        rcases htotal limit' hlimit' with ⟨limit, hle, hlimit⟩
        rw [overTotalLimit, overTotalLimit, hlimit', hlimit]
        exact takeOverTotal_raised limit limit' hle _ _
  unfold selectEvictions
  rw [hover]
  -- The first group is the same, and of the second an initial part is taken.
  rcases htaken (remainingAfter samples (overSessionLimit samples settings)) with ⟨more, hmore⟩
  simp only
  rw [← hmore, ← List.append_assoc]
  exact dedupeByKey_initial _ more

/-- The second configuration has a larger limit of all sessions, or the same, and
    everything else is as in the first. -/
def RaisesTotal (config config' : EffectiveConfig) : Prop :=
  config' = { config with
    memory := { config.memory with maxTotalMb := config'.memory.maxTotalMb } } ∧
  (config.memory.maxTotalMb = none ∧ config'.memory.maxTotalMb = none ∨
    ∃ mb mb', config.memory.maxTotalMb = some mb ∧ config'.memory.maxTotalMb = some mb' ∧ mb ≤ mb')

/-- The budgets of both configurations are enforced as they are written: the limits are
    exact, the ticker has an interval, and the larger limit of all has no other sessions
    evicted than the smaller one. -/
def BudgetKept (config config' : EffectiveConfig) : Prop :=
  (ExactBytes config ∧ ExactBytes config') ∧
  (0 < (memorySettings config).checkInterval ∧ 0 < (memorySettings config').checkInterval) ∧
  ∀ samples, ∀ sample ∈ selectEvictions samples (memorySettings config'),
    sample ∈ selectEvictions samples (memorySettings config)

/-- Exact limits are raised in bytes as they are in MiB. -/
theorem selectEvictions_of_raisesTotal (config config' : EffectiveConfig)
    (hraises : RaisesTotal config config') (hexact : ExactBytes config)
    (hexact' : ExactBytes config') (samples : List MemorySample) :
    selectEvictions samples (memorySettings config') <+:
      selectEvictions samples (memorySettings config) := by
  rcases hraises with ⟨hsame, htotal⟩
  have hsession : config'.memory.maxSessionMb = config.memory.maxSessionMb := by rw [hsame]
  refine selectEvictions_raised samples _ _ ?_ fun limit' hlimit' => ?_
  · rw [hexact.1, hexact'.1, hsession]
  · rw [hexact'.2] at hlimit'
    rcases htotal with ⟨_, hnone⟩ | ⟨mb, mb', hmb, hmb', hle⟩
    · rw [hnone] at hlimit'
      cases hlimit'
    · rw [hmb', Option.map_some, Option.some.injEq] at hlimit'
      refine ⟨mb * 2 ^ 20, ?_, by rw [hexact.2, hmb, Option.map_some]⟩
      rw [← hlimit']
      exact Nat.mul_le_mul_right _ hle

/-! ### From the files -/

/-- The value that the last of the two files sets that sets one. -/
def said (field : PartialMemoryConfig → Option Nat) (user project : Option PartialConfig) :
    Option Nat :=
  ((project.bind PartialConfig.memory).bind field).or ((user.bind PartialConfig.memory).bind field)

/-- The files set the limits below 2^44 MiB, and no interval of zero. -/
def FilesFit (user project : Option PartialConfig) : Prop :=
  (∀ mb, said PartialMemoryConfig.maxSessionMb user project = some mb → mb < 2 ^ 44) ∧
  (∀ mb, said PartialMemoryConfig.maxTotalMb user project = some mb → mb < 2 ^ 44) ∧
  said PartialMemoryConfig.checkIntervalMs user project ≠ some 0

/-- The configuration that `resolve` ends with, on these two files. -/
structure ConfiguredBy (x : Externals) (home : Option PathBuf) (fs : FileSystem) (root : PathBuf)
    (user project : Option PartialConfig) (config : EffectiveConfig) : Prop where
  files : ∃ canon, fs.canonicalize root = .ok canon ∧
    FileSays x fs (userConfigPath home) user ∧
    FileSays x fs (canon.join ["lspee.toml"]) project
  resolves : ∃ resolved, Resolves x home fs root resolved ∧ resolved.merged = config

theorem foldl_memory (config : EffectiveConfig) (p : Option PartialConfig) :
    (p.toList.foldl applyPartial config).memory =
      (p.bind PartialConfig.memory).elim config.memory (applyPartialMemory config.memory) := by
  cases p with
  | none => rfl
  | some p => rfl

/-- The memory section of a configuration, by the files. -/
theorem memory_of_configuredBy (x : Externals) (home : Option PathBuf) (fs : FileSystem)
    (root : PathBuf) (user project : Option PartialConfig) (config : EffectiveConfig)
    (h : ConfiguredBy x home fs root user project config) :
    config.memory = {
      maxSessionMb := said PartialMemoryConfig.maxSessionMb user project
      maxTotalMb := said PartialMemoryConfig.maxTotalMb user project
      checkIntervalMs := (said PartialMemoryConfig.checkIntervalMs user project).getD 1000 } := by
  rcases h.files with ⟨canon, hcanon, huser, hproject⟩
  rcases h.resolves with ⟨resolved, ⟨n, hn⟩, hmerged⟩
  rcases resolving_ends x fs root canon user project home hcanon huser hproject with
    ⟨m, resolved', hm, hmerged'⟩
  -- Both runs of `resolve` end, and they end the same way.
  have hsame := iterate_end _ n m _ _ _ rfl rfl hn hm
  rw [Resolving.done.injEq, Except.ok.injEq] at hsame
  rw [← hmerged, hsame, hmerged', List.foldl_append, foldl_memory, foldl_memory]
  unfold said
  cases user.bind PartialConfig.memory <;> cases project.bind PartialConfig.memory <;>
    simp [applyPartialMemory, defaultConfig]

theorem filesFit_iff (x : Externals) (home : Option PathBuf) (fs : FileSystem) (root : PathBuf)
    (user project : Option PartialConfig) (config : EffectiveConfig)
    (h : ConfiguredBy x home fs root user project config) :
    ExactBytes config ∧ 0 < (memorySettings config).checkInterval ↔ FilesFit user project := by
  rw [exactBytes_iff, checkInterval_pos_iff, memory_of_configuredBy x home fs root user project
    config h, FilesFit, and_assoc]
  refine and_congr_right fun _ => and_congr_right fun _ => ?_
  cases said PartialMemoryConfig.checkIntervalMs user project <;> simp

/-- Two configurations that `resolve` ends with, of which the second raises the limit of
    all sessions, are enforced as they are written if and only if the files of both set
    the limits below 2^44 MiB, and no interval of zero. -/
theorem budget_kept_iff (x : Externals) (home : Option PathBuf) (fs fs' : FileSystem)
    (root : PathBuf) (user project user' project' : Option PartialConfig)
    (config config' : EffectiveConfig)
    (h : ConfiguredBy x home fs root user project config)
    (h' : ConfiguredBy x home fs' root user' project' config')
    (hraises : RaisesTotal config config') :
    BudgetKept config config' ↔ FilesFit user project ∧ FilesFit user' project' := by
  rw [← filesFit_iff x home fs root user project config h,
    ← filesFit_iff x home fs' root user' project' config' h']
  constructor
  · rintro ⟨⟨hexact, hexact'⟩, ⟨hinterval, hinterval'⟩, _⟩
    exact ⟨⟨hexact, hinterval⟩, hexact', hinterval'⟩
  · rintro ⟨⟨hexact, hinterval⟩, hexact', hinterval'⟩
    refine ⟨⟨hexact, hexact'⟩, ⟨hinterval, hinterval'⟩, fun samples sample hmem => ?_⟩
    have hfewer := selectEvictions_of_raisesTotal config config' hraises hexact hexact' samples
    exact hfewer.subset hmem

/-! ### A limit of 8 GiB, and one of 2^64 bytes -/

/-- A file that limits all sessions together. -/
def budgetText (mb : Nat) : String := "[memory]\nmax_total_mb = " ++ mb.repr ++ "\n"

def budget (mb : Nat) : PartialConfig where
  lsp := []
  rootMarkers := none
  workspaceMode := none
  transportFlags := none
  memory := some ⟨none, some mb, none⟩
  session := none

def budgetPrinted (mb : Nat) : String :=
  "root_markers = [\".git\"]\nworkspace_mode = \"single\"\n\n[lsps]\n\n" ++
  "[transport_flags]\n\n[memory]\nmax_total_mb = " ++ mb.repr ++
  "\ncheck_interval_ms = 1000\n\n[session]\nidle_ttl_secs = 300\ndaemon_idle_ttl_secs = 1800\n"

/-- The parser, the printer and the digest, as they are on such files. -/
def budgetExternals : Externals where
  tomlFromStr := fun text =>
    if text = budgetText 8192 then .ok (budget 8192)
    else if text = budgetText 16384 then .ok (budget 16384)
    else if text = budgetText 17592186044416 then .ok (budget 17592186044416)
    else .error "unexpected text"
  tomlToString := fun config => budgetPrinted (config.memory.maxTotalMb.getD 0)
  sha256Hex := fun bytes =>
    let inputOf := fun mb => Utf8.encode "/project".toList ++ [0] ++
      Utf8.encode (budgetPrinted mb).toList
    if bytes = inputOf 8192 then
      "a2490bb523015323cc3ec85d3ff5a0439c72c34326f27fe8778832101de2c647"
    else if bytes = inputOf 16384 then
      "b94c3d47451debe83db86813b240e3e0495731ac823bf14f8a842e2b3a227b5b"
    else "eacdd9a349b4e1ecdc6b72d50cb8e872a13c55d8c5d9352895ca3243e9162875"
  defaultLanguages := .ok taploCatalog

def budgetFiles (mb : Nat) : FileSystem where
  pathExists := fun path => path = taploRoot.join ["lspee.toml"]
  readToString := fun path =>
    if path = taploRoot.join ["lspee.toml"] then .ok (budgetText mb)
    else .error "No such file or directory (os error 2)"
  canonicalize := fun path => .ok path

/-- The configuration with this limit. -/
def budgetConfig (mb : Nat) : EffectiveConfig := applyPartial defaultConfig (budget mb)

theorem configuredBy_budget (mb : Nat)
    (hparsed : budgetExternals.tomlFromStr (budgetText mb) = .ok (budget mb)) :
    ConfiguredBy budgetExternals (some taploHome) (budgetFiles mb) taploRoot none
      (some (budget mb)) (budgetConfig mb) := by
  have huser : FileSays budgetExternals (budgetFiles mb) (userConfigPath (some taploHome))
      none := by
    simp only [FileSays, budgetFiles, decide_eq_false_iff_not]
    decide
  have hproject : FileSays budgetExternals (budgetFiles mb) (taploRoot.join ["lspee.toml"])
      (some (budget mb)) := ⟨by simp [budgetFiles], budgetText mb, rfl, hparsed⟩
  rcases resolving_ends budgetExternals (budgetFiles mb) taploRoot taploRoot none (some (budget mb))
    (some taploHome) rfl huser hproject with ⟨n, resolved, hn, hmerged⟩
  exact ⟨⟨taploRoot, rfl, huser, hproject⟩, resolved, ⟨n, hn⟩, hmerged⟩

theorem filesFit_budget (mb : Nat) (h : mb < 2 ^ 44) : FilesFit none (some (budget mb)) := by
  refine ⟨fun mb' hmb' => ?_, fun mb' hmb' => ?_, by simp [said, budget]⟩
  · simp [said, budget] at hmb'
  · simp only [said, budget, Option.bind_some, Option.bind_none, Option.or_none,
      Option.some.injEq] at hmb'
    rw [← hmb']
    exact h

/-- A limit of 8 GiB, raised to 16 GiB, is kept. -/
theorem budget_kept_iff_raised : BudgetKept (budgetConfig 8192) (budgetConfig 16384) :=
  (budget_kept_iff budgetExternals (some taploHome) (budgetFiles 8192) (budgetFiles 16384) taploRoot
    none (some (budget 8192)) none (some (budget 16384)) _ _ (configuredBy_budget 8192 rfl)
    (configuredBy_budget 16384 rfl) ⟨rfl, .inr ⟨8192, 16384, rfl, rfl, by decide⟩⟩).mpr
      ⟨filesFit_budget 8192 (by decide), filesFit_budget 16384 (by decide)⟩

/-- A limit of 2^44 MiB becomes one of no bytes. -/
theorem limit_wrapped :
    ¬ ∀ (x : Externals) (home : Option PathBuf) (fs fs' : FileSystem) (root : PathBuf)
      (user project user' project' : Option PartialConfig) (config config' : EffectiveConfig),
      ConfiguredBy x home fs root user project config →
      ConfiguredBy x home fs' root user' project' config' → RaisesTotal config config' →
      BudgetKept config config' := by
  intro hall
  have hconfigured := configuredBy_budget 17592186044416 rfl
  have hkept := hall budgetExternals (some taploHome) _ _ taploRoot _ _ _ _ _ _ hconfigured
    hconfigured ⟨rfl, .inr ⟨_, _, rfl, rfl, Nat.le_refl _⟩⟩
  exact absurd hkept.1.1.2 (by decide)

end Lspee
