import Lspee.Core.Hashing
import Lspee.Theory.Commands

/-!
# What the Identity Tells Apart

Whether the digest of a root and a configuration tells them apart from every other
root and configuration, given that the digest has no collisions and that the text
of a configuration is one of no other. What is digested can be taken apart again:
a path has no zero byte, and rendering it makes none, so the first zero byte is the
separator. What can be lost is in the rendering itself. Bytes that are no UTF-8
give way to the replacement character, and two directories may be rendered the
same (`hash_identity_injective_iff`). Roots that are texts are told apart
(`rendered_text`).

Configurations are the same when their maps have the same entries, however they are
listed.

## Main definitions

* `TomlValue.Same`, `LspConfig.Same`, `EffectiveConfig.Same`: The same
  configuration.
* `NoCollision`: The digest tells two inputs apart.
* `Produced`: What `resolve` can end with.

## Theorems

* `hashIdentityBytes_text`: For roots that are texts, the digest of `Core.Config`.
* `hashInput_eq_iff`: When two inputs are the same.
* `hash_identity_injective_iff`: The condition is exact.
* `hash_identity_conflates`: Two roots with one identity.
-/

namespace Lspee

/-! ### The same configuration -/

/-- The same value; the fields of a table have no order. -/
inductive TomlValue.Same : TomlValue → TomlValue → Prop
  | string (s : String) : Same (.string s) (.string s)
  | integer (n : Int) : Same (.integer n) (.integer n)
  | float (bits : UInt64) : Same (.float bits) (.float bits)
  | boolean (b : Bool) : Same (.boolean b) (.boolean b)
  | datetime (text : String) : Same (.datetime text) (.datetime text)
  | array (items items' : List TomlValue) (h : List.Forall₂ Same items items') :
      Same (.array items) (.array items')
  | table (fields fields' : List (String × TomlValue))
      (h : ∀ key, Option.Rel Same (fields.lookup key) (fields'.lookup key)) :
      Same (.table fields) (.table fields')

structure LspConfig.Same (a b : LspConfig) : Prop where
  id : a.id = b.id
  command : a.command = b.command
  args : a.args = b.args
  env : ∀ key, a.env.get? key = b.env.get? key
  initializationOptions : ∀ key, Option.Rel TomlValue.Same (a.initializationOptions.get? key)
    (b.initializationOptions.get? key)

structure EffectiveConfig.Same (a b : EffectiveConfig) : Prop where
  lsps : ∀ id, Option.Rel LspConfig.Same (a.lsps.get? id) (b.lsps.get? id)
  rootMarkers : a.rootMarkers = b.rootMarkers
  workspaceMode : a.workspaceMode = b.workspaceMode
  transportFlags : ∀ key, a.transportFlags.get? key = b.transportFlags.get? key
  memory : a.memory = b.memory
  session : a.session = b.session

theorem defaultConfig_same : defaultConfig.Same defaultConfig where
  lsps := fun id => by
    rw [defaultConfig, Table.get?_empty]
    exact .none
  rootMarkers := rfl
  workspaceMode := rfl
  transportFlags := fun _ => rfl
  memory := rfl
  session := rfl

/-! ### What is digested -/

section Digest

variable (x : Externals)

/-- A root that is a text is rendered as it is. -/
theorem hashIdentityBytes_text (root : PathBuf) (c : EffectiveConfig) :
    hashIdentityBytes x (Utf8.encode root.display.toList) c = hashIdentity x root c := by
  rw [hashIdentityBytes, hashInput, Utf8.lossy_encode, hashIdentity]

/-- Two roots that are texts are rendered differently, unless they are the same. -/
theorem rendered_text (r₁ r₂ : List UInt8) (t₁ t₂ : List Char) (h₁ : Utf8.decode r₁ = some t₁)
    (h₂ : Utf8.decode r₂ = some t₂) (h : Utf8.lossy r₁ = Utf8.lossy r₂) : r₁ = r₂ := by
  rw [Utf8.lossy_of_decode r₁ t₁ h₁, Utf8.lossy_of_decode r₂ t₂ h₂] at h
  exact h

theorem encode_text_injective (s t : String)
    (h : Utf8.encode s.toList = Utf8.encode t.toList) : s = t := by
  have hdecode := congrArg Utf8.decode h
  rw [Utf8.decode_encode, Utf8.decode_encode, Option.some.injEq] at hdecode
  exact String.toList_injective hdecode

/-- What is digested can be taken apart. -/
theorem hashInput_eq_iff (r₁ r₂ : List UInt8) (c₁ c₂ : EffectiveConfig) (h₁ : 0 ∉ r₁)
    (h₂ : 0 ∉ r₂) : hashInput x r₁ c₁ = hashInput x r₂ c₂ ↔
      Utf8.lossy r₁ = Utf8.lossy r₂ ∧ x.tomlToString c₁ = x.tomlToString c₂ := by
  unfold hashInput
  rw [List.append_assoc, List.append_assoc, List.singleton_append, List.singleton_append]
  constructor
  · intro heq
    rcases Utf8.lossy_separated r₁ r₂ _ _ h₁ h₂ heq with ⟨hroots, htexts⟩
    exact ⟨hroots, encode_text_injective _ _ htexts⟩
  · rintro ⟨hroots, htexts⟩
    rw [hroots, htexts]

/-- The digest tells two inputs apart. -/
def NoCollision (a b : List UInt8) : Prop := x.sha256Hex a = x.sha256Hex b → a = b

/-- What `resolve` can end with. -/
def Produced (c : EffectiveConfig) : Prop :=
  ∃ home fs root resolved, Resolves x home fs root resolved ∧ c = resolved.merged

/-- The identity of two roots and configurations is one only where they are the same,
    if and only if the rendering does not make the roots the same that differ, where the
    configurations are. -/
theorem hash_identity_injective_iff (r₁ r₂ : List UInt8) (c₁ c₂ : EffectiveConfig)
    (h₁ : 0 ∉ r₁) (h₂ : 0 ∉ r₂) (hsha : NoCollision x (hashInput x r₁ c₁) (hashInput x r₂ c₂))
    (htext : x.tomlToString c₁ = x.tomlToString c₂ ↔ c₁.Same c₂) :
    (hashIdentityBytes x r₁ c₁ = hashIdentityBytes x r₂ c₂ → r₁ = r₂ ∧ c₁.Same c₂) ↔
      (c₁.Same c₂ → Utf8.lossy r₁ = Utf8.lossy r₂ → r₁ = r₂) := by
  -- Without a collision, one identity is one input, and that is one rendering and one text.
  have hidentity : hashIdentityBytes x r₁ c₁ = hashIdentityBytes x r₂ c₂ ↔
      Utf8.lossy r₁ = Utf8.lossy r₂ ∧ c₁.Same c₂ := by
    rw [← htext, ← hashInput_eq_iff x r₁ r₂ c₁ c₂ h₁ h₂]
    exact ⟨hsha, congrArg x.sha256Hex⟩
  rw [hidentity]
  constructor
  · intro h hconfigs hroots
    exact (h ⟨hroots, hconfigs⟩).1
  · rintro h ⟨hroots, hconfigs⟩
    exact ⟨h hconfigs hroots, hconfigs⟩

end Digest

/-! ### Roots of one name -/

/-- The digests, as they are on the defaults at `/a`, at `/b`, and at a root whose last
    byte is replaced. -/
def rootExternals : Externals where
  tomlFromStr := inlineExternals.tomlFromStr
  tomlToString := inlineExternals.tomlToString
  sha256Hex := fun input =>
    if input.take 3 = [0x2F, 0x61, 0] then
      "bcd4ba9f3fe736e402b247d3320e19c5aac68b432bdd7faad662f9e8f5dacc5e"
    else if input.take 3 = [0x2F, 0x62, 0] then
      "32f00d4c39939afe9c80d833d22b2d371a4954abcd0c49590340af9acc74e90e"
    else "f80140df0f3122900792497403498494b96d2fbf692ff7bd1d79a2cfa2184828"
  defaultLanguages := .ok taploCatalog

/-- The roots `/a` and `/b` have different identities. -/
theorem hash_identity_injective_iff_text :
    defaultConfig.Same defaultConfig ∧
      hashIdentityBytes rootExternals [0x2F, 0x61] defaultConfig ≠
        hashIdentityBytes rootExternals [0x2F, 0x62] defaultConfig := by
  have hinjective := (hash_identity_injective_iff rootExternals [0x2F, 0x61] [0x2F, 0x62]
    defaultConfig defaultConfig (by decide) (by decide)
    (fun heq => absurd heq (by decide)) (iff_of_true rfl defaultConfig_same)).mpr
    (fun _ hlossy => rendered_text _ _ ['/', 'a'] ['/', 'b'] (by decide) (by decide) hlossy)
  exact ⟨defaultConfig_same, fun heq => absurd (hinjective heq).1 (by decide)⟩

/-- Two directories whose names end in a byte that is no UTF-8 have one identity. -/
theorem hash_identity_conflates :
    ¬ ∀ (x : Externals) (r₁ r₂ : List UInt8) (c₁ c₂ : EffectiveConfig), 0 ∉ r₁ → 0 ∉ r₂ →
      Produced x c₁ → Produced x c₂ → NoCollision x (hashInput x r₁ c₁) (hashInput x r₂ c₂) →
      (x.tomlToString c₁ = x.tomlToString c₂ ↔ c₁.Same c₂) →
      hashIdentityBytes x r₁ c₁ = hashIdentityBytes x r₂ c₂ → r₁ = r₂ ∧ c₁.Same c₂ := by
  intro hall
  -- Without files, `resolve` ends with the defaults.
  have hproduced : Produced rootExternals defaultConfig :=
    ⟨some taploHome, ⟨fun _ => false, fun _ => .error "No such file or directory (os error 2)",
      .ok⟩, taploRoot, _, ⟨3, rfl⟩, rfl⟩
  have hsame : hashInput rootExternals [0x2F, 0x61, 0xFF] defaultConfig =
      hashInput rootExternals [0x2F, 0x61, 0xFE] defaultConfig := by
    rw [hashInput_eq_iff _ _ _ _ _ (by decide) (by decide)]
    exact ⟨by decide, rfl⟩
  have hroots := (hall rootExternals [0x2F, 0x61, 0xFF] [0x2F, 0x61, 0xFE] defaultConfig
    defaultConfig (by decide) (by decide) hproduced hproduced (fun _ => hsame)
    (iff_of_true rfl defaultConfig_same) (congrArg rootExternals.sha256Hex hsame)).1
  exact absurd hroots (by decide)

end Lspee
