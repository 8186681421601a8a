import Lspee.Core.Site
import Lspee.Theory.Identity
import Lspee.Theory.Precedence

/-!
# What a Session Was Configured With

Whether the hash in a session's key is the hash of the configuration its server
was started with.

The hash is the client's. The spawn closure is called with the key, resolves the
configuration of the key's root by itself, and then reads the files once more, for
the catalog that it takes the server's command from; it compares nothing. So there
are two ways to a server that is not what its key says: `resolve` reads files that
give another hash, or the catalog is laid under files that have changed since. If
neither happens (`ReadsCond`), every server was started as one pair of files says
whose configuration has the key's hash (`truthful_of_reads`), and two clients with
different hashes are never served by one runtime, since the runtime's configuration
has the hash of both.

Of the catalog only the entries for the key's server matter, so these are all that
the files must still have.

## Main definitions

* `FilesRead.merged`, `FilesRead.catalog`: What two files give.
* `Matches`: A runtime was started as two files say that have the key's hash.
* `Truthful`: So was every session, and every runtime that serves a client.
* `resolves`, `Overriding.finds`, `ReadsCond`: What a closure's step reads, and the
  condition.
* `Closure.Faithful`: How far a closure has come with what it has read.
* `Traced`: The invariant, from the reading to the registration.

## Theorems

* `resolving_step`, `overriding_step`, `faithful_step`: What a closure has read.
* `traced_world`, `traced_step`: What one step keeps.
* `truthful_of_reads`: The condition suffices over whole runs.
* `started_from_other_config`: A run that breaks it.
-/

namespace Lspee

open Transition

namespace FilesRead

variable (x : Externals) (home : Option PathBuf)

/-- The configuration that the two files give. -/
def merged (files : FilesRead) : EffectiveConfig :=
  (files.user.toList ++ files.project.toList).foldl applyPartial defaultConfig

/-- The catalog with the two files laid over it. Without a home there is no user's
    file. -/
def catalog (files : FilesRead) (languages : LanguageRegistry) : LanguageRegistry :=
  overridden languages
    ((home.bind fun _ => files.user).toList ++ files.project.toList)

/-- The server of the key is what the files say, and their configuration has the key's
    hash. -/
def Gives (files : FilesRead) (key : SessionKey) (started : Started) : Prop :=
  started.resolved.merged = files.merged ∧
    hashIdentity x key.root started.resolved.merged = key.configHash ∧
    ∃ languages, x.defaultLanguages = .ok languages ∧
      resolveLspConfig started.resolved (files.catalog home languages) key.lspId =
        .ok started.lsp

end FilesRead

/-- What a step of `load_registry` finds in a file: nothing where it sees none. -/
def Overriding.finds (x : Externals) (home : Option PathBuf) (projectRoot : PathBuf)
    (fs : FileSystem) : Overriding → Option (Layer × List PartialConfig)
  | .probe _ layer =>
    if layer = .user ∧ home = none ∨ fs.pathExists (layer.path home projectRoot) then none
    else some (layer, [])
  | .read _ layer =>
    match loadPartial x fs (layer.path home projectRoot) with
    | .ok parsed => some (layer, [parsed])
    | .error _ => none
  | _ => none

namespace Site

variable (x : Externals) (home : Option PathBuf)

/-- The runtime was started as two files say whose configuration has the key's
    identity. -/
def Matches (s : Site) (key : SessionKey) (runtime : RuntimeId) : Prop :=
  ∃ started files, s.started.get? runtime = some started ∧
    FilesRead.Gives x home files key started

/-- Every session was started as files say whose configuration has its key's hash, and
    so was every runtime that serves a client: the hash is the client's. -/
structure Truthful (s : Site) : Prop where
  session : ∀ key record, s.world.reg.sessions.get? key = some record →
    s.Matches x home key record.handle.runtime
  served : ∀ n client resolved call key lease runtime, s.clients.get? n = some client →
    client.resolving = .done (.ok resolved) → client.attached = some (call, key) →
    Event.granted call lease runtime ∈ s.world.log →
      s.Matches x home key runtime ∧ key.configHash = resolved.configHash

/-- The configuration that the next step of a closure ends its `resolve` with,
    given the files as they are, and the key the closure was called for. -/
def resolves (s : Site) (call : CallId) : Option (SessionKey × EffectiveConfig) :=
  match s.spawnKey call with
  | none => none
  | some key =>
    match s.closureOf call key with
    | .resolving (.done _) => none
    | .resolving stage =>
      match stage.step x home s.fs with
      | .done (.ok resolved) => some (key, resolved.merged)
      | _ => none
    | _ => none

/-- What the next step of a closure finds in a file for the catalog: the entries for the
    key's server, and those that `resolve` has read in that file. -/
def rereads (s : Site) (call : CallId) :
    Option (List PartialLspConfig × List PartialLspConfig) :=
  match s.spawnKey call with
  | none => none
  | some key =>
    match s.closureOf call key with
    | .selecting _ stage => (stage.finds x home key.root s.fs).map fun found =>
      (entriesFor key.lspId found.2,
        entriesFor key.lspId ((s.filesOf call).get found.1).toList)
    | _ => none

/-- A spawn closure that ends its `resolve` has read files that give the hash its
    caller sent, and what it reads for the catalog has not changed since. -/
def ReadsCond (s : Site) (a : SiteAction) : Prop :=
  match a with
  | .closure call =>
    (∀ key merged, s.resolves x home call = some (key, merged) →
      hashIdentity x key.root merged = key.configHash) ∧
    ∀ found before, s.rereads x home call = some (found, before) → found = before
  | _ => True

end Site

/-! ### What a closure has read -/

/-- What a closure has resolved is what it has read, and has the key's hash. -/
def ResolvedConfig.IsOf (x : Externals) (files : FilesRead) (key : SessionKey)
    (resolved : ResolvedConfig) : Prop :=
  resolved.merged = files.merged ∧ hashIdentity x key.root resolved.merged = key.configHash

/-- How far `resolve` has come with what it has read. -/
def Resolving.Reads (x : Externals) (files : FilesRead) (key : SessionKey) : Resolving → Prop
  | .start _ => files = .nothing
  | .probe _ merged .user | .read _ merged .user => files = .nothing ∧ merged = defaultConfig
  | .probe _ merged .project | .read _ merged .project =>
    files.project = none ∧ merged = files.merged
  | .done (.ok resolved) => resolved.IsOf x files key
  | .done (.error _) => True

/-- How far the catalog has come, at one id. -/
def Overriding.Follows (x : Externals) (home : Option PathBuf) (files : FilesRead) (id : String) :
    Overriding → Prop
  | .start => True
  | .probe registry .user => x.defaultLanguages = .ok registry
  | .read registry .user => home ≠ none ∧ x.defaultLanguages = .ok registry
  | .probe registry .project | .read registry .project =>
    ∃ languages, x.defaultLanguages = .ok languages ∧
      registry.get? id = (FilesRead.catalog home ⟨files.user, none⟩ languages).get? id
  | .done (.ok registry) => ∃ languages, x.defaultLanguages = .ok languages ∧
      registry.get? id = (files.catalog home languages).get? id
  | .done (.error _) => True

/-- How far a closure has come with what it has read. -/
def Closure.Faithful (x : Externals) (home : Option PathBuf) (files : FilesRead)
    (key : SessionKey) : Closure → Prop
  | .resolving stage => stage.Reads x files key
  | .selecting resolved stage =>
    resolved.IsOf x files key ∧ stage.Follows x home files key.lspId
  | .spawning resolved lsp => files.Gives x home key ⟨resolved, lsp⟩
  | .failed _ => True

section Reads

variable {x : Externals} {home : Option PathBuf}

/-- What `resolve` has read after a step. The last one is the one that must give the key's
    hash. -/
theorem resolving_step (fs : FileSystem) (files : FilesRead) (key : SessionKey) (stage : Resolving)
    (hrunning : ∀ result, stage ≠ .done result) (h : stage.Reads x files key)
    (hhash : ∀ resolved, stage.step x home fs = .done (.ok resolved) →
      hashIdentity x key.root resolved.merged = key.configHash) :
    (stage.step x home fs).Reads x (Closure.reads x home fs files (.resolving stage)) key := by
  cases stage with
  | done result => exact absurd rfl (hrunning result)
  | start root =>
      have hnone : files = .nothing := h
      simp only [Resolving.step, Closure.reads]
      split
      · trivial
      · exact ⟨hnone, rfl⟩
  | probe projectRoot merged layer =>
      simp only [Resolving.step, Closure.reads] at hhash ⊢
      cases layer with
      | user =>
          have hboth : files = .nothing ∧ merged = defaultConfig := h
          split
          · exact hboth
          · exact ⟨by rw [hboth.1]; rfl, by rw [hboth.1, hboth.2]; rfl⟩
      | project =>
          have hboth : files.project = none ∧ merged = files.merged := h
          by_cases hexists : fs.pathExists (Layer.project.path home projectRoot) = true
          · rw [if_pos hexists]
            exact hboth
          · rw [if_neg hexists] at hhash ⊢
            exact ⟨hboth.2, hhash _ rfl⟩
  | read projectRoot merged layer =>
      simp only [Resolving.step, Closure.reads] at hhash ⊢
      cases hload : loadPartial x fs (layer.path home projectRoot) with
      | error error => trivial
      | ok parsed =>
          simp only [hload] at hhash
          cases layer with
          | user =>
              have hboth : files = .nothing ∧ merged = defaultConfig := h
              rw [hboth.1, hboth.2]
              exact ⟨rfl, rfl⟩
          | project =>
              have hboth : files.project = none ∧ merged = files.merged := h
              refine ⟨?_, hhash _ rfl⟩
              -- The project's file is laid over what there was without it.
              change applyPartial merged parsed = FilesRead.merged ⟨files.user, some parsed⟩
              rw [hboth.2, FilesRead.merged, FilesRead.merged, hboth.1]
              simp

/-- The catalog sees the entries for an id, and nothing else of the files. -/
theorem overridden_congr (languages languages' : LanguageRegistry) (ps qs : List PartialConfig)
    (id : String) (hlanguages : languages.get? id = languages'.get? id)
    (h : entriesFor id ps = entriesFor id qs) :
    (overridden languages ps).get? id = (overridden languages' qs).get? id := by
  rw [overridden, overridden, overrideLsp_eq, Layers.get?_foldl_layOver,
    Layers.get?_foldl_layOver, hlanguages]
  exact congrArg (fun xs => List.foldl _ _ xs) h

theorem overridden_append (languages : LanguageRegistry) (ps qs : List PartialConfig) :
    overridden languages (ps ++ qs) = overridden (overridden languages ps) qs := by
  rw [overridden, List.flatMap_append, List.foldl_append]
  rfl

/-- A step of `load_registry` that finds what `resolve` had read. -/
theorem overriding_step (fs : FileSystem) (files : FilesRead) (root : PathBuf) (id : String)
    (stage : Overriding) (h : stage.Follows x home files id)
    (hsame : ∀ layer found, stage.finds x home root fs = some (layer, found) →
      entriesFor id found = entriesFor id (files.get layer).toList) :
    (stage.step x home root fs).Follows x home files id := by
  -- The next layer, once the entries of this one are known.
  have huser : ∀ (registry : LanguageRegistry) (found : List PartialConfig),
      x.defaultLanguages = .ok registry →
      entriesFor id found = entriesFor id (home.bind fun _ => files.user).toList →
      (Overriding.next (overridden registry found) .user).Follows x home files id := by
    intro registry found hlanguages hfound
    refine ⟨registry, hlanguages, ?_⟩
    rw [FilesRead.catalog]
    refine overridden_congr registry registry _ _ id rfl ?_
    simpa using hfound
  have hproject : ∀ (registry : LanguageRegistry) (found : List PartialConfig),
      (Overriding.read registry .project).Follows x home files id →
      entriesFor id found = entriesFor id files.project.toList →
      (Overriding.next (overridden registry found) .project).Follows x home files id := by
    rintro registry found ⟨languages, hlanguages, hget⟩ hfound
    refine ⟨languages, hlanguages, ?_⟩
    rw [FilesRead.catalog, overridden_append]
    refine overridden_congr _ _ _ _ id ?_ hfound
    simpa [FilesRead.catalog] using hget
  have hhome : home ≠ none → (home.bind fun _ => files.user) = files.user := by
    cases home with
    | none => exact fun hnone => absurd rfl hnone
    | some path => exact fun _ => rfl
  cases stage with
  | start =>
      simp only [Overriding.step]
      split
      · trivial
      · assumption
  | done result => exact h
  | probe registry layer =>
      simp only [Overriding.step, Overriding.finds] at hsame ⊢
      by_cases hnone : layer = .user ∧ home = none
      · -- without a home the user's file is not looked for
        rw [if_pos hnone]
        rcases hnone with ⟨rfl, rfl⟩
        exact huser registry [] h rfl
      · rw [if_neg hnone]
        by_cases hexists : fs.pathExists (layer.path home root) = true
        · rw [if_pos hexists]
          cases layer with
          | user => exact ⟨fun hmissing => hnone ⟨rfl, hmissing⟩, h⟩
          | project => exact h
        · rw [if_neg hexists]
          have hfound := hsame layer [] (if_neg (by simp [hnone, hexists]))
          cases layer with
          | user =>
              rw [FilesRead.get, ← hhome fun hmissing => hnone ⟨rfl, hmissing⟩] at hfound
              exact huser registry [] h hfound
          | project => exact hproject registry [] h hfound
  | read registry layer =>
      simp only [Overriding.step, Overriding.finds] at hsame ⊢
      cases hload : loadPartial x fs (layer.path home root) with
      | error error => trivial
      | ok parsed =>
          have hfound := hsame layer [parsed] (by simp [hload])
          have hlaid : parsed.lsp.foldl overrideLsp registry = overridden registry [parsed] := by
            simp [overridden]
          simp only [hlaid]
          cases layer with
          | user =>
              rw [FilesRead.get, ← hhome h.1] at hfound
              exact huser registry [parsed] h.2 hfound
          | project => exact hproject registry [parsed] h hfound

/-- The command is taken from the definition of the id, and from no other. -/
theorem resolveLspConfig_congr (resolved : ResolvedConfig) (registry registry' : LanguageRegistry)
    (id : String) (h : registry.get? id = registry'.get? id) :
    resolveLspConfig resolved registry id = resolveLspConfig resolved registry' id := by
  unfold resolveLspConfig
  rw [h]

/-- A closure goes on with what it has read. -/
theorem faithful_step (fs : FileSystem) (files : FilesRead) (key : SessionKey)
    (closure closure' : Closure) (hstep : closure.step x home fs key = some closure')
    (h : closure.Faithful x home files key)
    (hhash : ∀ stage resolved, closure = .resolving stage → (∀ result, stage ≠ .done result) →
      stage.step x home fs = .done (.ok resolved) →
        hashIdentity x key.root resolved.merged = key.configHash)
    (hsame : ∀ resolved stage layer found, closure = .selecting resolved stage →
      stage.finds x home key.root fs = some (layer, found) →
        entriesFor key.lspId found = entriesFor key.lspId (files.get layer).toList) :
    closure'.Faithful x home (closure.reads x home fs files) key := by
  cases closure with
  | resolving stage =>
      by_cases hdone : ∃ result, stage = .done result
      -- `resolve` has returned: its error ends the closure, its result goes on.
      · rcases hdone with ⟨error | resolved, rfl⟩
        · simp only [Closure.step, Option.some.injEq] at hstep
          rw [← hstep]
          trivial
        · simp only [Closure.step, Option.some.injEq] at hstep
          rw [← hstep]
          exact ⟨h, trivial⟩
      -- `resolve` is still under way, and reads on.
      · have hrunning : ∀ result, stage ≠ .done result := fun result heq => hdone ⟨result, heq⟩
        have hnext : closure' = .resolving (stage.step x home fs) := by
          cases stage with
          | done result => exact absurd rfl (hrunning result)
          | _ => exact (Option.some.inj hstep).symm
        rw [hnext]
        exact resolving_step fs files key stage hrunning h fun resolved =>
          hhash stage resolved rfl hrunning
  | selecting resolved stage =>
      by_cases hdone : ∃ result, stage = .done result
      -- The catalog is there, and the server is looked up in it.
      · rcases hdone with ⟨error | registry, rfl⟩
        · simp only [Closure.step, Option.some.injEq] at hstep
          rw [← hstep]
          trivial
        · simp only [Closure.step] at hstep
          split at hstep <;> rw [Option.some.injEq] at hstep
          · rename_i lsp hlsp
            rcases h.2 with ⟨languages, hlanguages, hget⟩
            rw [← hstep]
            refine ⟨h.1.1, h.1.2, languages, hlanguages, ?_⟩
            rw [← hlsp]
            -- The two catalogs agree on this id, and no other is looked at.
            exact (resolveLspConfig_congr resolved registry _ key.lspId hget).symm
          · rw [← hstep]
            trivial
      · have hnext : closure' = .selecting resolved (stage.step x home key.root fs) := by
          cases stage with
          | done result => exact absurd ⟨result, rfl⟩ hdone
          | _ => exact (Option.some.inj hstep).symm
        rw [hnext]
        exact ⟨h.1, overriding_step fs files key.root key.lspId stage h.2 fun layer found =>
          hsame resolved stage layer found rfl⟩
  | spawning resolved lsp => cases hstep
  | failed error => cases hstep

end Reads

namespace Site

variable (x : Externals) (home : Option PathBuf)

/-- What is kept as long as every closure reads what it is to read. -/
structure Traced (s : Site) : Prop where
  session : ∀ key record, s.world.reg.sessions.get? key = some record →
    s.Matches x home key record.handle.runtime
  pending : ∀ call frame spawned, s.world.calls.get? call = some frame →
    frame.pending = some spawned → s.Matches x home spawned.1 spawned.2.runtime
  closure : ∀ call closure, s.closures.get? call = some closure →
    ∃ key frame, s.world.calls.get? call = some frame ∧ frame.Acquires key ∧
      closure.Faithful x home (s.filesOf call) key
  unread : ∀ call, s.closures.get? call = none → s.files.get? call = none
  granted : ∀ call lease runtime, Event.granted call lease runtime ∈ s.world.log →
    s.Matches x home lease.key runtime
  bound : ∀ runtime, s.world.nextRuntime ≤ runtime → s.started.get? runtime = none
  called : ∀ call lease runtime, Event.granted call lease runtime ∈ s.world.log →
    ∃ frame, s.world.calls.get? call = some frame ∧ frame.Acquires lease.key
  client : ∀ n client call key, s.clients.get? n = some client →
    client.attached = some (call, key) →
      (∃ resolved, client.resolving = .done (.ok resolved) ∧
        key.configHash = resolved.configHash) ∧
      (∃ frame, s.world.calls.get? call = some frame ∧ frame.Acquires key) ∧
      ∀ lease runtime, Event.granted call lease runtime ∈ s.world.log → lease.key = key

variable {x home}

theorem traced_init (fs : FileSystem) (idleTtl : Duration) : (init fs idleTtl).Traced x home where
  session := by simp [init, World.init, SessionRegistry.withIdleTtl]
  pending := by simp [init, World.init]
  closure := by simp [init]
  unread := by simp [init]
  granted := by simp [init, World.init]
  bound := by simp [init]
  called := by simp [init, World.init]
  client := by simp [init]

/-- A runtime that has been started stays what it was started with, while the next
    one gets its number. -/
theorem matches_step (s : Site) (world : World) (started : Table RuntimeId Started)
    (hkeep : ∀ runtime st, s.started.get? runtime = some st → started.get? runtime = some st)
    (key : SessionKey) (runtime : RuntimeId) (h : s.Matches x home key runtime) :
    Matches x home { s with world := world, started := started } key runtime := by
  rcases h with ⟨st, files, hst, hgives⟩
  exact ⟨st, files, hkeep runtime st hst, hgives⟩

/-- A step of the registry keeps the invariant, if what a spawn closure returns
    matches the key it was called for. -/
theorem traced_world (s : Site) (h : s.Traced x home) (w' : World) (a : Action)
    (started : Table RuntimeId Started) (hstep : s.world.step a = some w')
    (hkeep : ∀ runtime st, s.started.get? runtime = some st → started.get? runtime = some st)
    (hbound : ∀ runtime, w'.nextRuntime ≤ runtime → started.get? runtime = none)
    (hspawn : ∀ call result key clientKind g, a = .spawnReturns call (.ok result) →
      s.world.calls.get? call = some (.acquire key clientKind (.spawning g)) →
      Matches x home { s with world := w', started := started } key s.world.nextRuntime) :
    Traced x home { s with world := w', started := started } := by
  have hmono : ∀ key runtime, s.Matches x home key runtime →
      Matches x home { s with world := w', started := started } key runtime :=
    matches_step s w' started hkeep
  have hpending : ∀ call frame spawned, w'.calls.get? call = some frame →
      frame.pending = some spawned →
      Matches x home { s with world := w', started := started } spawned.1 spawned.2.runtime := by
    intro call frame spawned hcall hp
    -- A handle that is pending was so before, or its closure returns now.
    rcases pending_origin s.world w' a hstep call frame spawned hcall hp with
      ⟨frame₀, hcall₀, hp₀⟩ | ⟨result, clientKind, g, ha, hcall₀, hruntime⟩
    · exact hmono _ _ (h.pending call frame₀ spawned hcall₀ hp₀)
    · rw [hruntime]
      exact hspawn call result spawned.1 clientKind g ha hcall₀
  have hsession : ∀ key record, w'.reg.sessions.get? key = some record →
      Matches x home { s with world := w', started := started } key record.handle.runtime := by
    intro key record hget
    rcases handle_step s.world w' a hstep key record hget with
      ⟨record₀, hget₀, hhandle⟩ | ⟨call, clientKind, _, hcall, _⟩
    · rw [← hhandle]
      exact hmono _ _ (h.session key record₀ hget₀)
    · -- it is registered from a handle that waited
      exact hmono _ _ (h.pending call _ (key, record.handle) hcall rfl)
  refine ⟨hsession, hpending, ?_, h.unread, ?_, hbound, ?_, ?_⟩
  · intro call closure hclosure
    rcases h.closure call closure hclosure with ⟨key, frame, hcall, hacquires, hfaithful⟩
    rcases acquires_step s.world w' a hstep call key frame hcall hacquires with
      ⟨frame', hcall', hacquires'⟩
    exact ⟨key, frame', hcall', hacquires', hfaithful⟩
  · intro call lease runtime hmem
    rcases granted_step s.world w' a hstep call lease runtime hmem with hold | ⟨u, hget, hruntime⟩
    · exact hmono _ _ (h.granted call lease runtime hold)
    · rw [← hruntime]
      exact hsession lease.key u hget
  · intro call lease runtime hmem
    -- The call a lease is granted to was there, and is an acquire of the lease's key.
    have hframe : ∃ frame, s.world.calls.get? call = some frame ∧ frame.Acquires lease.key := by
      rcases grantedTo_step s.world w' a hstep call lease runtime hmem with
        hold | ⟨clientKind, pc, hcall⟩
      · exact h.called call lease runtime hold
      · exact ⟨_, hcall, rfl⟩
    rcases hframe with ⟨frame, hcall, hacquires⟩
    exact acquires_step s.world w' a hstep call lease.key frame hcall hacquires
  · intro n client call key hclient hattached
    rcases h.client n client call key hclient hattached with
      ⟨hresolved, ⟨frame, hcall, hacq⟩, hlease⟩
    refine ⟨hresolved, acquires_step s.world w' a hstep call key frame hcall hacq, ?_⟩
    intro lease runtime hmem
    rcases grantedTo_step s.world w' a hstep call lease runtime hmem with
      hold | ⟨clientKind, pc, hcall₀⟩
    · exact hlease lease runtime hold
    · rw [hcall, Option.some.injEq] at hcall₀
      rw [hcall₀] at hacq
      exact hacq

/-- Only the clients change, and none attaches. -/
theorem traced_setClient (s : Site) (h : s.Traced x home) (n : Nat) (client : ConfigClient)
    (hclient : ∀ call key, client.attached = some (call, key) →
      (∃ resolved, client.resolving = .done (.ok resolved) ∧
        key.configHash = resolved.configHash) ∧
      (∃ frame, s.world.calls.get? call = some frame ∧ frame.Acquires key) ∧
      ∀ lease runtime, Event.granted call lease runtime ∈ s.world.log → lease.key = key) :
    (s.setClient n client).Traced x home := by
  refine ⟨h.session, h.pending, h.closure, h.unread, h.granted, h.bound, h.called, ?_⟩
  intro m client' call key hget hattached
  rw [setClient, Table.get?_set] at hget
  by_cases hm : m = n
  · rw [if_pos hm, Option.some.injEq] at hget
    rw [← hget] at hattached ⊢
    exact hclient call key hattached
  · rw [if_neg hm] at hget
    exact h.client m client' call key hget hattached

theorem spawnKey_eq_some (s : Site) (call : CallId) (key : SessionKey)
    (h : s.spawnKey call = some key) :
    ∃ clientKind g, s.world.calls.get? call = some (.acquire key clientKind (.spawning g)) := by
  unfold spawnKey at h
  split at h
  · rename_i k clientKind g hcall
    rw [Option.some.inj h] at hcall
    exact ⟨clientKind, g, hcall⟩
  · exact absurd h (by simp)

/-- A closure that runs has come as far as what it has read. -/
theorem faithful_closureOf (s : Site) (h : s.Traced x home) (call : CallId) (key : SessionKey)
    (hkey : s.spawnKey call = some key) :
    (s.closureOf call key).Faithful x home (s.filesOf call) key := by
  rcases spawnKey_eq_some s call key hkey with ⟨clientKind, g, hcall⟩
  cases hclosure : s.closures.get? call with
  | none =>
      rw [closureOf, hclosure, filesOf, h.unread call hclosure]
      rfl
  | some closure =>
      rcases h.closure call closure hclosure with ⟨key', frame, hcall', hacquires, hfaithful⟩
      rw [hcall, Option.some.injEq] at hcall'
      rw [← hcall'] at hacquires
      have hsame : key = key' := hacquires
      rw [closureOf, hclosure, Option.getD_some, hsame]
      exact hfaithful

/-- A client that has resolved attaches, with a call that is new. -/
theorem traced_attach (s s' : Site) (n : Nat) (lspId : String) (clientKind : Option ClientKind)
    (call : CallId) (h : s.Traced x home)
    (hstep : s.step x home (.attach n lspId clientKind call) = some s') : s'.Traced x home := by
  simp only [step, attach] at hstep
  split at hstep
  · rename_i clientHome resolved hget
    split at hstep
    · exact absurd hstep (by simp)
    · simp only [Option.map_eq_some_iff] at hstep
      rcases hstep with ⟨w', hw, rfl⟩
      have hstart := hw
      simp only [World.step] at hstart
      split at hstart
      · exact absurd hstart (by simp)
      · rename_i hfree
        rw [Option.some.injEq] at hstart
        have hworld : Traced x home { s with world := w' } := by
          refine traced_world s h w' _ s.started hw (fun _ _ hst => hst) ?_ (by simp)
          rw [← hstart]
          exact h.bound
        refine traced_setClient _ hworld n _ fun call' key hattached => ?_
        rw [Option.some.injEq, Prod.mk.injEq] at hattached
        rcases hattached with ⟨rfl, rfl⟩
        refine ⟨⟨resolved, rfl, rfl⟩, ?_, ?_⟩
        · rw [← hstart]
          exact ⟨_, Table.get?_set_self _ _ _, rfl⟩
        · -- the call is new, so nothing has been granted to it
          intro lease runtime hmem
          rw [← hstart] at hmem
          rcases h.called call lease runtime hmem with ⟨frame, hcall, _⟩
          rw [hfree] at hcall
          exact absurd hcall (by simp)
  · exact absurd hstep (by simp)

/-- A closure goes on. -/
theorem traced_closure (s s' : Site) (call : CallId) (h : s.Traced x home)
    (hstep : s.step x home (.closure call) = some s') (hcond : s.ReadsCond x home (.closure call)) :
    s'.Traced x home := by
  simp only [step] at hstep
  split at hstep
  · rename_i key hkey
    simp only [Option.map_eq_some_iff] at hstep
    rcases hstep with ⟨closure', hclosure, rfl⟩
    -- What the closure reads is constrained, and so its next state is faithful.
    have hnew : closure'.Faithful x home
        ((s.closureOf call key).reads x home s.fs (s.filesOf call)) key := by
      refine faithful_step s.fs (s.filesOf call) key _ closure' hclosure
        (faithful_closureOf s h call key hkey) (fun stage resolved hstage hrunning hdone => ?_)
        (fun resolved stage layer found hstage hfinds => ?_)
      · refine hcond.1 key resolved.merged ?_
        simp only [resolves, hkey, hstage]
        cases stage with
        | done result => exact absurd rfl (hrunning result)
        | _ => simp only [hdone]
      · refine hcond.2 _ _ ?_
        simp only [rereads, hkey, hstage, hfinds, Option.map_some]
    refine ⟨h.session, h.pending, ?_, fun c hnone => ?_, h.granted, h.bound, h.called, h.client⟩
    · intro c closure hget
      rw [Table.get?_set] at hget
      -- Only this closure has moved.
      by_cases hc : c = call
      · rw [if_pos hc, Option.some.injEq] at hget
        rcases spawnKey_eq_some s call key hkey with ⟨clientKind, g, hcall⟩
        refine ⟨key, .acquire key clientKind (.spawning g), by rw [hc]; exact hcall, rfl, ?_⟩
        simp only [filesOf, hc, Table.get?_set_self, Option.getD_some, ← hget]
        exact hnew
      · rw [if_neg hc] at hget
        simp only [filesOf, Table.get?_set_ne _ _ _ _ hc]
        exact h.closure c closure hget
    · rw [Table.get?_set] at hnone ⊢
      by_cases hc : c = call
      · rw [if_pos hc] at hnone
        cases hnone
      · rw [if_neg hc] at hnone ⊢
        exact h.unread c hnone
  · exact absurd hstep (by simp)

/-- A closure returns; a runtime it has started is started from what it has read. -/
theorem traced_spawned (s s' : Site) (call : CallId) (result : Except String Json)
    (h : s.Traced x home) (hstep : s.step x home (.spawned call result) = some s') :
    s'.Traced x home := by
  simp only [step] at hstep
  split at hstep
  · rename_i key hkey
    rcases spawnKey_eq_some s call key hkey with ⟨clientKind, g, hcall⟩
    -- A closure that fails starts nothing.
    have hfailed : ∀ error w', s.world.step (.spawnReturns call (.error error)) = some w' →
        Traced x home { s with world := w' } := by
      intro error w' hw
      refine traced_world s h w' _ s.started hw (fun _ _ hst => hst) ?_ (by simp)
      intro runtime hle
      rcases World.nextRuntime_step s.world w' _ hw with hsame | ⟨_, _, ha, _⟩
      · exact h.bound runtime (hsame ▸ hle)
      · exact absurd ha (by simp)
    simp only [spawnReturns] at hstep
    split at hstep
    · rename_i resolved lsp initializeResult hclosure
      simp only [Option.map_eq_some_iff] at hstep
      rcases hstep with ⟨w', hw, rfl⟩
      have hnext := World.spawned_step s.world w' call initializeResult hw
      -- The number of the next runtime has not been given out.
      have hnew : s.started.get? s.world.nextRuntime = none := h.bound _ le_rfl
      refine traced_world s h w' _ _ hw ?_ ?_ ?_
      · intro runtime st hst
        have hne : runtime ≠ s.world.nextRuntime := by
          intro heq
          rw [heq, hnew] at hst
          exact absurd hst (by simp)
        exact (Table.get?_set_ne _ _ _ _ hne).trans hst
      · intro runtime hle
        rw [hnext] at hle
        have hne : runtime ≠ s.world.nextRuntime := Nat.ne_of_gt (Nat.lt_of_succ_le hle)
        exact (Table.get?_set_ne _ _ _ _ hne).trans (h.bound runtime (Nat.le_of_succ_le hle))
      · intro call' result key' clientKind' g' ha hcall'
        rw [Action.spawnReturns.injEq] at ha
        rw [← ha.1, hcall, Option.some.injEq, Frame.acquire.injEq] at hcall'
        refine ⟨⟨resolved, lsp⟩, s.filesOf call, Table.get?_set_self _ _ _, ?_⟩
        rw [← hcall'.1]
        -- What the server is started with is what its closure has come to.
        have hfaithful := faithful_closureOf s h call key hkey
        rw [hclosure] at hfaithful
        exact hfaithful
    · simp only [Option.map_eq_some_iff] at hstep
      rcases hstep with ⟨w', hw, rfl⟩
      exact hfailed _ w' hw
    · simp only [Option.map_eq_some_iff] at hstep
      rcases hstep with ⟨w', hw, rfl⟩
      exact hfailed _ w' hw
    · exact absurd hstep (by simp)
  · exact absurd hstep (by simp)

theorem traced_step (s s' : Site) (a : SiteAction) (h : s.Traced x home)
    (hstep : s.step x home a = some s') (hcond : s.ReadsCond x home a) : s'.Traced x home := by
  cases a with
  | edit fs =>
      simp only [step, Option.some.injEq] at hstep
      rw [← hstep]
      exact ⟨h.session, h.pending, h.closure, h.unread, h.granted, h.bound, h.called, h.client⟩
  | world a =>
      -- No other step of the registry makes a runtime.
      have hworld : ∀ w', s.world.step a = some w' →
          (∀ call result, a ≠ .spawnReturns call result) →
          Traced x home { s with world := w' } := by
        intro w' hw hne
        refine traced_world s h w' a s.started hw (fun _ _ hst => hst) ?_
          (fun call result _ _ _ ha => absurd ha (hne call _))
        intro runtime hle
        rcases World.nextRuntime_step s.world w' a hw with hsame | ⟨call, result, ha, _⟩
        · exact h.bound runtime (hsame ▸ hle)
        · exact absurd ha (hne call _)
      cases a with
      | spawnReturns call result => exact absurd hstep (by simp [step])
      | _ =>
          simp only [step, Option.map_eq_some_iff] at hstep
          rcases hstep with ⟨w', hw, rfl⟩
          exact hworld w' hw (by simp)
  | resolve n clientHome root =>
      simp only [step] at hstep
      split at hstep
      · exact absurd hstep (by simp)
      · rw [Option.some.injEq] at hstep
        rw [← hstep]
        exact traced_setClient s h n _ (by simp)
  | client n =>
      simp only [step, clientStep] at hstep
      split at hstep
      · rename_i client hget
        split at hstep
        · exact absurd hstep (by simp)
        · -- a client that has attached has resolved
          rename_i hstage
          rw [Option.some.injEq] at hstep
          rw [← hstep]
          refine traced_setClient s h n _ fun call key hattached => ?_
          rcases (h.client n client call key hget hattached).1 with ⟨resolved, hdone, _⟩
          exact absurd hdone (hstage (.ok resolved))
      · exact absurd hstep (by simp)
  | attach n lspId clientKind call => exact traced_attach s s' n lspId clientKind call h hstep
  | closure call => exact traced_closure s s' call h hstep hcond
  | spawned call result => exact traced_spawned s s' call result h hstep

theorem truthful_of_traced (s : Site) (h : s.Traced x home) : s.Truthful x home where
  session := h.session
  served := by
    intro n client resolved call key lease runtime hget hresolved hattached hmem
    rcases h.client n client call key hget hattached with ⟨⟨resolved', hdone, hhash⟩, _, hlease⟩
    rw [hresolved, Resolving.done.injEq, Except.ok.injEq] at hdone
    have hmatches := h.granted call lease runtime hmem
    rw [hlease lease runtime hmem] at hmatches
    exact ⟨hmatches, by rw [hhash, hdone]⟩

/-- However files are changed and calls interleave, every session is what its key
    says and every client is served by what its hash says, if every spawn closure
    reads files that give the hash it was called with, and for the catalog finds the
    entries of its server as they were then. -/
theorem truthful_of_reads (fs : FileSystem) (idleTtl : Duration) (as : List SiteAction) (s : Site)
    (h : run (step x home) (init fs idleTtl) as = some s)
    (hcond : Along (step x home) (ReadsCond x home) (init fs idleTtl) as) : s.Truthful x home :=
  truthful_of_traced s (run_invariant (fun s a s' => traced_step s s' a) as _ s h
    (traced_init fs idleTtl) hcond)

/-! ### A client attaches -/

/-- The text of a configuration without servers, up to the values that are never
    changed here. -/
def demoToml (config : EffectiveConfig) : String :=
  "root_markers = [\".git\"]\nworkspace_mode = \"" ++ config.workspaceMode ++
  "\"\n\n[lsps]\n\n[transport_flags]\n\n[memory]\ncheck_interval_ms = 1000\n\n" ++
  "[session]\nidle_ttl_secs = 300\ndaemon_idle_ttl_secs = 1800\n"

/-- The parser and the printer, the digest of two texts, and a catalog of one
    server. -/
def demoExternals : Externals where
  tomlFromStr := fun text =>
    if text = "workspace_mode = \"multi\"\n" then
      .ok { lsp := [], rootMarkers := none, workspaceMode := some "multi", transportFlags := none,
            memory := none, session := none }
    else .error "unexpected text"
  tomlToString := demoToml
  sha256Hex := fun bytes =>
    if bytes.length = 180 then "991b6998c649ac3c88f6468b39b8ba9dd6dea135ea70f41ea9bb8699bd255e2b"
    else "326acd3143ec57e4d5aacb345934c2d274f36eb2534b22ab4b70830595ddfdb2"
  defaultLanguages := .ok (Table.empty.set "rust-analyzer"
    { command := "rust-analyzer", args := [], fileExtensions := ["rs"],
      rootMarkers := ["Cargo.toml"] })

def demoRoot : PathBuf := ⟨true, ["project"]⟩

/-- A project without configuration files. -/
def noFiles : FileSystem where
  pathExists := fun _ => false
  readToString := fun _ => .error "No such file or directory (os error 2)"
  canonicalize := fun path => .ok path

/-- The project has a configuration file. -/
def projectFile : FileSystem where
  pathExists := fun path => path = demoRoot.join ["lspee.toml"]
  readToString := fun path =>
    if path = demoRoot.join ["lspee.toml"] then .ok "workspace_mode = \"multi\"\n"
    else .error "No such file or directory (os error 2)"
  canonicalize := fun path => .ok path

/-- A client resolves its configuration and attaches; its acquire gets to the
    spawn closure. -/
def attachUntilSpawn : List SiteAction :=
  [.resolve 0 none demoRoot, .client 0, .client 0, .client 0,
    .attach 0 "rust-analyzer" none 0, .world (.sect 0), .world (.sect 0), .world (.sect 0),
    .world (.sect 0)]

/-- The closure reads the same files, and the session is registered. -/
def attachUnchanged : List SiteAction :=
  attachUntilSpawn ++ List.replicate 8 (.closure 0) ++
    [.spawned 0 (.ok .null), .world (.sect 0), .world (.sect 0)]

/-- The project's file is written before the closure reads it. -/
def attachEdited : List SiteAction :=
  attachUntilSpawn ++ [.edit projectFile] ++ List.replicate 10 (.closure 0) ++
    [.spawned 0 (.ok .null), .world (.sect 0), .world (.sect 0)]

/-- A look at the condition, where the files have no entries for the server. -/
def readsPlain (x : Externals) (home : Option PathBuf) (s : Site) : SiteAction → Bool
  | .closure call =>
    (s.resolves x home call).all (fun r => hashIdentity x r.1.root r.2 == r.1.configHash) &&
      (s.rereads x home call).all (fun r => r.1.isEmpty && r.2.isEmpty)
  | _ => true

theorem readsCond_of_readsPlain (s : Site) (a : SiteAction)
    (h : readsPlain x home s a = true) : s.ReadsCond x home a := by
  cases a with
  | closure call =>
      simp only [readsPlain, Bool.and_eq_true, Option.all_eq_true] at h
      refine ⟨fun key merged hresolves => ?_, fun found before hrereads => ?_⟩
      · simpa using h.1 _ hresolves
      · have hempty := h.2 _ hrereads
        simp only [List.isEmpty_iff] at hempty
        rw [hempty.1, hempty.2]
  | _ => trivial

theorem attachUnchanged_reads :
    (run (step demoExternals none) (init noFiles 5) attachUnchanged).isSome = true ∧
      Along (step demoExternals none) (fun s a => readsPlain demoExternals none s a = true)
        (init noFiles 5) attachUnchanged := by
  decide +kernel

theorem truthful_of_reads_attachUnchanged :
    ((run (step demoExternals none) (init noFiles 5) attachUnchanged).get
      attachUnchanged_reads.1).Truthful demoExternals none :=
  truthful_of_reads noFiles 5 attachUnchanged _ (Option.some_get attachUnchanged_reads.1).symm
    (along_mono (fun s a => readsCond_of_readsPlain s a) attachUnchanged _ attachUnchanged_reads.2)

/-- A look at every session. -/
def looksTruthful (x : Externals) (s : Site) : Bool :=
  s.world.reg.sessions.entries.all (fun session =>
    (s.started.get? session.2.handle.runtime).any (fun started =>
      hashIdentity x session.1.root started.resolved.merged == session.1.configHash))

theorem looksTruthful_of_truthful (s : Site) (h : s.Truthful x home) :
    looksTruthful x s = true := by
  rw [looksTruthful, List.all_eq_true]
  intro session hsession
  rcases session with ⟨key, record⟩
  rcases h.session key record ((Table.mem_entries_iff _ _ _).mp hsession) with
    ⟨st, files, hst, _, hhash, _⟩
  simp only [hst, Option.any_some, hhash, beq_self_eq_true]

theorem attachEdited_mismatch :
    (run (step demoExternals none) (init noFiles 5) attachEdited).map (looksTruthful demoExternals)
      = some false := by
  decide +kernel

/-- A session is registered under the hash of one configuration and runs with
    another. -/
theorem started_from_other_config :
    ¬∀ (x : Externals) (home : Option PathBuf) (fs : FileSystem) (idleTtl : Duration)
      (as : List SiteAction) (s : Site), run (step x home) (init fs idleTtl) as = some s →
        s.Truthful x home := by
  intro hall
  rcases Option.map_eq_some_iff.mp attachEdited_mismatch with ⟨s, hrun, hfalse⟩
  have htrue := looksTruthful_of_truthful s (hall demoExternals none noFiles 5 attachEdited s hrun)
  rw [hfalse] at htrue
  exact absurd htrue (by simp)

end Site

end Lspee
