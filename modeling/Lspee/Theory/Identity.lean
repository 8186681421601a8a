import Lspee.Theory.Effect

/-!
# Runtimes and Lease Ids Are New

Two kinds of names are given out while the daemon runs. A runtime is named when
its spawn closure returns, and the session registered for it is the only one
that ever holds it. A lease is named by the text of an atomic counter.

`Fresh` says the first: what the log and the registry mention is registered,
and a handle that waits to be published is not, so publishing it cannot bring
an old runtime back. `LeaseIds` says the second, up to the width of the
counter: the ids granted so far are the first values of the counter, and the
next one differs from all of them until it has wrapped around.

Neither needs a condition on the run.

## Main definitions

* `grantCount`: How many leases have been granted.
* `grantedOn`: The runtime a lease was counted on when it was granted.
* `Fresh`: Runtimes are registered once.
* `LeaseIds`: Lease ids come from the counter, in order.
* `NewIdCond`: The counter has not wrapped around.

## Theorems

* `fresh_init`, `fresh_step`, `fresh_run`: Every run keeps `Fresh`.
* `leaseIds_init`, `leaseIds_step`, `leaseIds_run`: And `LeaseIds`.
* `leaseId_injective`: Distinct counter values have distinct texts.
* `nextId_new`: Before the counter wraps, the next id has not been granted.
* `handle_step`: Where the handle of a record comes from.
* `registered_step`, `instance_step`, `granted_step`: How a session leaves the
  registry, and what a grant is on.
* `calls_step`: A call stays as it is while others move.
* `acquires_step`, `grantedTo_step`: An acquire stays one of its key, and its
  lease is on that key.
* `pending_origin`: Where a handle that waits to be published comes from.
* `grantedOn_step`: A lease stays bound to the session it was granted on.
* `grantedOn_append`: Events that grant nothing leave the bindings alone.
* `granted_of_grantedOn`, `grantedOn_isSome`: The bindings are the grants.
-/

namespace Lspee

open Transition

/-- The event is a grant. -/
def Event.isGranted : Event → Bool
  | .granted _ _ _ => true
  | _ => false

/-- How many leases have been granted. -/
def grantCount (log : List Event) : Nat := log.countP Event.isGranted

/-- The runtime of the session a lease was counted on when it was granted. -/
def grantedOn (id : String) : List Event → Option RuntimeId
  | [] => none
  | .granted _ lease runtime :: log =>
    if lease.id = id then some runtime else grantedOn id log
  | _ :: log => grantedOn id log

theorem grantedOn_cons (id : String) (event : Event) (log : List Event)
    (h : event.isGranted = false) : grantedOn id (event :: log) = grantedOn id log := by
  cases event with
  | granted call lease runtime => exact absurd h (by simp [Event.isGranted])
  | _ => rfl

theorem isGranted_of_grants (event : Event) (h : event.grants = false) :
    event.isGranted = false := by
  cases event with
  | granted call lease runtime => exact absurd h (by simp [Event.grants])
  | _ => rfl

theorem grantedOn_append (id : String) (events log : List Event)
    (h : ∀ event ∈ events, event.grants = false) :
    grantedOn id (events ++ log) = grantedOn id log := by
  induction events with
  | nil => rfl
  | cons event events ih =>
      rw [List.cons_append, grantedOn_cons _ _ _
        (isGranted_of_grants event (h event List.mem_cons_self))]
      exact ih (fun e he => h e (List.mem_cons_of_mem _ he))

theorem grantCount_append (events log : List Event)
    (h : ∀ event ∈ events, event.grants = false) :
    grantCount (events ++ log) = grantCount log := by
  have hzero : events.countP Event.isGranted = 0 := by
    rw [List.countP_eq_zero]
    intro event hmem
    rw [isGranted_of_grants event (h event hmem)]
    exact Bool.false_ne_true
  rw [grantCount, List.countP_append, hzero, Nat.zero_add, grantCount]

theorem granted_of_grantedOn (id : String) (log : List Event) (runtime : RuntimeId)
    (h : grantedOn id log = some runtime) :
    ∃ call lease, Event.granted call lease runtime ∈ log ∧ lease.id = id := by
  induction log with
  | nil => exact absurd h (by simp [grantedOn])
  | cons event log ih =>
      cases hev : event.isGranted with
      | false =>
          rw [grantedOn_cons id event log hev] at h
          rcases ih h with ⟨call, lease, hmem, hid⟩
          exact ⟨call, lease, List.mem_cons_of_mem _ hmem, hid⟩
      | true =>
          cases event with
          | granted call lease rt =>
              rw [grantedOn] at h
              split at h
              · rename_i hid
                rw [Option.some.injEq] at h
                rw [h]
                exact ⟨call, lease, List.mem_cons_self, hid⟩
              · rcases ih h with ⟨c, l, hmem, hid⟩
                exact ⟨c, l, List.mem_cons_of_mem _ hmem, hid⟩
          | _ => exact absurd hev (by simp [Event.isGranted])

theorem grantedOn_isSome (log : List Event) (call : CallId) (lease : Lease)
    (runtime : RuntimeId) (h : Event.granted call lease runtime ∈ log) :
    ∃ rt, grantedOn lease.id log = some rt := by
  induction log with
  | nil => exact absurd h (by simp)
  | cons event log ih =>
      rcases List.mem_cons.mp h with rfl | hmem
      · exact ⟨runtime, by rw [grantedOn, if_pos rfl]⟩
      · cases hev : event.isGranted with
        | false =>
            rw [grantedOn_cons _ _ _ hev]
            exact ih hmem
        | true =>
            cases event with
            | granted c l rt =>
                rw [grantedOn]
                split
                · exact ⟨rt, rfl⟩
                · exact ih hmem
            | _ => exact absurd hev (by simp [Event.isGranted])

/-- A grant binds a new id, so whatever was bound stays bound. -/
theorem grantedOn_grant (log events : List Event) (call : CallId) (lease : Lease)
    (runtime : RuntimeId) (hevents : ∀ event ∈ events, event.isGranted = false) (id : String) :
    grantedOn id (.granted call lease runtime :: (events ++ log))
      = if id = lease.id then some runtime else grantedOn id log := by
  have hskip : grantedOn id (events ++ log) = grantedOn id log := by
    induction events with
    | nil => rfl
    | cons event events ih =>
        rw [List.cons_append, grantedOn_cons _ _ _ (hevents event List.mem_cons_self)]
        exact ih (fun e he => hevents e (List.mem_cons_of_mem _ he))
  rw [grantedOn, hskip]
  by_cases h : id = lease.id
  · rw [if_pos h, if_pos h.symm]
  · rw [if_neg h, if_neg (fun hc => h hc.symm)]

/-! ### Runtimes -/

/-- Runtimes are registered once, and everything mentions registered ones. -/
structure Fresh (w : World) : Prop where
  handleKey : ∀ key record, w.reg.sessions.get? key = some record → record.handle.key = key
  registered : ∀ key record, w.reg.sessions.get? key = some record →
    Event.registered key record.handle.runtime ∈ w.log
  bound : ∀ key runtime, Event.registered key runtime ∈ w.log → runtime < w.nextRuntime
  single : ∀ key key' runtime, Event.registered key runtime ∈ w.log →
    Event.registered key' runtime ∈ w.log → key = key'
  granted : ∀ call lease runtime, Event.granted call lease runtime ∈ w.log →
    Event.registered lease.key runtime ∈ w.log
  selected : ∀ runtime, Event.selected runtime ∈ w.log →
    ∃ key, Event.registered key runtime ∈ w.log
  pendingKey : ∀ call frame spawned, w.calls.get? call = some frame →
    frame.pending = some spawned → spawned.2.key = spawned.1
  pendingBound : ∀ call frame spawned, w.calls.get? call = some frame →
    frame.pending = some spawned → spawned.2.runtime < w.nextRuntime
  pendingNew : ∀ call frame spawned, w.calls.get? call = some frame →
    frame.pending = some spawned → ∀ key, Event.registered key spawned.2.runtime ∉ w.log
  pendingApart : ∀ call call' frame frame' spawned spawned', call ≠ call' →
    w.calls.get? call = some frame → w.calls.get? call' = some frame' →
      frame.pending = some spawned → frame'.pending = some spawned' →
        spawned.2.runtime ≠ spawned'.2.runtime

theorem fresh_init (idleTtl : Duration) : Fresh (World.init idleTtl) where
  handleKey := by simp [World.init, SessionRegistry.withIdleTtl]
  registered := by simp [World.init, SessionRegistry.withIdleTtl]
  bound := by simp [World.init]
  single := by simp [World.init]
  granted := by simp [World.init]
  selected := by simp [World.init]
  pendingKey := by simp [World.init]
  pendingBound := by simp [World.init]
  pendingNew := by simp [World.init]
  pendingApart := by simp [World.init]

/-- Putting a frame that waits to publish nothing new, or nothing at all, in
    the table of calls. -/
theorem pending_set (calls : Table CallId Frame) (call : CallId) (frame' : Frame)
    (hpend : ∀ spawned, frame'.pending = some spawned →
      ∃ frame, calls.get? call = some frame ∧ frame.pending = some spawned)
    (c : CallId) (f : Frame) (spawned : SessionKey × SessionHandle)
    (hget : (calls.set call frame').get? c = some f) (hf : f.pending = some spawned) :
    ∃ frame, calls.get? c = some frame ∧ frame.pending = some spawned := by
  rw [Table.get?_set] at hget
  by_cases hc : c = call
  · rw [if_pos hc, Option.some.injEq] at hget
    rw [← hget] at hf
    rw [hc]
    exact hpend spawned hf
  · rw [if_neg hc] at hget
    exact ⟨f, hget, hf⟩

/-- Freshness survives every change but two: no session gets another handle, no
    handle becomes pending, nothing is registered, and what is granted or
    selected is registered. -/
theorem fresh_of_unregistered (w w' : World) (h : Fresh w)
    (hnext : w'.nextRuntime = w.nextRuntime)
    (hhandle : ∀ key record, w'.reg.sessions.get? key = some record →
      ∃ record₀, w.reg.sessions.get? key = some record₀ ∧ record₀.handle = record.handle)
    (hold : ∀ key runtime, Event.registered key runtime ∈ w'.log →
      Event.registered key runtime ∈ w.log)
    (hnew : ∀ event, event ∈ w.log → event ∈ w'.log)
    (hgranted : ∀ call lease runtime, Event.granted call lease runtime ∈ w'.log →
      Event.registered lease.key runtime ∈ w.log)
    (hselected : ∀ runtime, Event.selected runtime ∈ w'.log →
      ∃ key, Event.registered key runtime ∈ w.log)
    (hpend : ∀ c f spawned, w'.calls.get? c = some f → f.pending = some spawned →
      ∃ frame, w.calls.get? c = some frame ∧ frame.pending = some spawned) : Fresh w' := by
  constructor
  · intro key record hget
    rcases hhandle key record hget with ⟨record₀, hget₀, heq⟩
    rw [← heq]
    exact h.handleKey key record₀ hget₀
  · intro key record hget
    rcases hhandle key record hget with ⟨record₀, hget₀, heq⟩
    rw [← heq]
    exact hnew _ (h.registered key record₀ hget₀)
  · intro key runtime hmem
    rw [hnext]
    exact h.bound key runtime (hold key runtime hmem)
  · intro key key' runtime hmem hmem'
    exact h.single key key' runtime (hold key runtime hmem) (hold key' runtime hmem')
  · intro call lease runtime hmem
    exact hnew _ (hgranted call lease runtime hmem)
  · intro runtime hmem
    rcases hselected runtime hmem with ⟨key, hreg⟩
    exact ⟨key, hnew _ hreg⟩
  · intro c f spawned hget hf
    rcases hpend c f spawned hget hf with ⟨frame, hc, hfr⟩
    exact h.pendingKey c frame spawned hc hfr
  · intro c f spawned hget hf
    rcases hpend c f spawned hget hf with ⟨frame, hc, hfr⟩
    rw [hnext]
    exact h.pendingBound c frame spawned hc hfr
  · intro c f spawned hget hf key hmem
    rcases hpend c f spawned hget hf with ⟨frame, hc, hfr⟩
    exact h.pendingNew c frame spawned hc hfr key (hold key _ hmem)
  · intro c c' f f' spawned spawned' hne hget hget' hf hf'
    rcases hpend c f spawned hget hf with ⟨frame, hc, hfr⟩
    rcases hpend c' f' spawned' hget' hf' with ⟨frame', hc', hfr'⟩
    exact h.pendingApart c c' frame frame' spawned spawned' hne hc hc' hfr hfr'

/-- A record with the same core has the same handle. -/
theorem handle_of_core (r r' : SessionRegistry) (events : List Event) (hkept : Kept r r' events)
    (key : SessionKey) (record : SessionRecord) (hget : r'.sessions.get? key = some record) :
    ∃ record₀, r.sessions.get? key = some record₀ ∧ record₀.handle = record.handle ∧
      record₀.refCount = record.refCount := by
  have hk := hkept.core key
  rw [hget, Option.map_some] at hk
  rcases Option.map_eq_some_iff.mp hk.symm with ⟨record₀, hget₀, heq⟩
  exact ⟨record₀, hget₀, congrArg Prod.fst heq, congrArg Prod.snd heq⟩

/-- Writing a record back under its key with the same handle gives no session
    another handle. -/
theorem handle_of_set (sessions : Table SessionKey SessionRecord) (key : SessionKey)
    (record record' : SessionRecord) (hrecord : sessions.get? key = some record)
    (hsame : record'.handle = record.handle) (k : SessionKey) (u : SessionRecord)
    (hget : (sessions.set key record').get? k = some u) :
    ∃ u₀, sessions.get? k = some u₀ ∧ u₀.handle = u.handle := by
  rw [Table.get?_set] at hget
  by_cases hk : k = key
  · rw [if_pos hk, Option.some.injEq] at hget
    rw [hk, ← hget]
    exact ⟨record, hrecord, hsame.symm⟩
  · rw [if_neg hk] at hget
    exact ⟨u, hget, rfl⟩

/-- A move that logs nothing, gives no session another handle and leaves the
    call with nothing to publish keeps freshness. -/
theorem fresh_moved_silent (w : World) (h : Fresh w) (call : CallId) (r' : SessionRegistry)
    (frame' : Frame) (hpend : frame'.pending = none)
    (hhandle : ∀ key record, r'.sessions.get? key = some record →
      ∃ record₀, w.reg.sessions.get? key = some record₀ ∧ record₀.handle = record.handle) :
    Fresh (w.moved call r' frame' []) := by
  refine fresh_of_unregistered w _ h rfl hhandle (fun _ _ hm => hm) (fun _ hm => hm)
    h.granted h.selected ?_
  exact pending_set w.calls call frame' (by rw [hpend]; simp)

/-- The grant that registers a session. -/
theorem fresh_register (w : World) (h : Fresh w) (call : CallId) (key : SessionKey)
    (clientKind : Option ClientKind) (handle : SessionHandle) (counters : RegistryCounters)
    (result : Frame) (lease : Lease) (hlease : lease.key = key) (hresult : result.pending = none)
    (hcall : w.calls.get? call = some (.acquire key clientKind (.publish handle))) :
    Fresh (w.moved call
      (w.reg.grantLease key clientKind (SessionRecord.new handle w.now) counters w.now).1 result
      [.granted call lease handle.runtime, .registered key handle.runtime]) := by
  have hget : ∀ k u,
      (w.reg.grantLease key clientKind (SessionRecord.new handle w.now) counters
        w.now).1.sessions.get? k = some u →
      (k = key ∧ u.handle = handle) ∨ (k ≠ key ∧ w.reg.sessions.get? k = some u) := by
    intro k u hu
    rw [SessionRegistry.grantLease, Table.get?_set] at hu
    by_cases hk : k = key
    · rw [if_pos hk, Option.some.injEq] at hu
      exact Or.inl ⟨hk, by rw [← hu]; rfl⟩
    · rw [if_neg hk] at hu
      exact Or.inr ⟨hk, hu⟩
  have hlog : ∀ event, event ∈ (w.moved call
      (w.reg.grantLease key clientKind (SessionRecord.new handle w.now) counters w.now).1 result
      [.granted call lease handle.runtime, .registered key handle.runtime]).log ↔
      event = .granted call lease handle.runtime ∨ event = .registered key handle.runtime ∨
        event ∈ w.log := by
    intro event
    simp only [World.moved, List.cons_append, List.nil_append, List.mem_cons]
  -- Every other pending handle is for another runtime, and was pending before.
  have hpend : ∀ c f spawned, (w.calls.set call result).get? c = some f →
      f.pending = some spawned → c ≠ call ∧ w.calls.get? c = some f := by
    intro c f spawned hc hf
    rw [Table.get?_set] at hc
    by_cases hcc : c = call
    · rw [if_pos hcc, Option.some.injEq] at hc
      rw [← hc, hresult] at hf
      exact absurd hf (by simp)
    · rw [if_neg hcc] at hc
      exact ⟨hcc, hc⟩
  -- The handle was pending until now.
  have hpub : (Frame.acquire key clientKind (.publish handle)).pending = some (key, handle) := rfl
  constructor
  · intro k u hu
    rcases hget k u hu with ⟨hk, hh⟩ | ⟨_, hold⟩
    · rw [hh, hk]
      exact h.pendingKey call _ _ hcall hpub
    · exact h.handleKey k u hold
  · intro k u hu
    rw [hlog]
    rcases hget k u hu with ⟨hk, hh⟩ | ⟨_, hold⟩
    · rw [hh, hk]
      exact Or.inr (Or.inl rfl)
    · exact Or.inr (Or.inr (h.registered k u hold))
  · intro k runtime hmem
    rw [hlog] at hmem
    rcases hmem with heq | heq | hmem
    · exact absurd heq (by simp)
    · rw [Event.registered.injEq] at heq
      rw [heq.2]
      exact h.pendingBound call _ _ hcall hpub
    · exact h.bound k runtime hmem
  · -- The handle published was registered under no key before.
    intro k k' runtime hmem hmem'
    have hcases : ∀ k₁, Event.registered k₁ runtime ∈ (w.moved call
        (w.reg.grantLease key clientKind (SessionRecord.new handle w.now) counters w.now).1 result
        [.granted call lease handle.runtime, .registered key handle.runtime]).log →
        (k₁ = key ∧ runtime = handle.runtime) ∨ Event.registered k₁ runtime ∈ w.log := by
      intro k₁ hm
      rw [hlog] at hm
      rcases hm with heq | heq | hm
      · exact absurd heq (by simp)
      · exact Or.inl (Event.registered.inj heq)
      · exact Or.inr hm
    -- Each of the two may be old or the one just registered.
    rcases hcases k hmem with ⟨hk, hrt⟩ | hold <;> rcases hcases k' hmem' with ⟨hk', hrt'⟩ | hold'
    · rw [hk, hk']
    · rw [hrt] at hold'
      exact absurd hold' (h.pendingNew call _ _ hcall hpub k')
    · rw [hrt'] at hold
      exact absurd hold (h.pendingNew call _ _ hcall hpub k)
    · exact h.single k k' runtime hold hold'
  · intro c l runtime hmem
    rw [hlog] at hmem ⊢
    rcases hmem with heq | heq | hmem
    · rw [Event.granted.injEq] at heq
      rw [heq.2.1, heq.2.2, hlease]
      exact Or.inr (Or.inl rfl)
    · exact absurd heq (by simp)
    · exact Or.inr (Or.inr (h.granted c l runtime hmem))
  · intro runtime hmem
    rw [hlog] at hmem
    rcases hmem with heq | heq | hmem
    · exact absurd heq (by simp)
    · exact absurd heq (by simp)
    · rcases h.selected runtime hmem with ⟨k, hreg⟩
      exact ⟨k, (hlog _).mpr (Or.inr (Or.inr hreg))⟩
  · intro c f spawned hc hf
    exact h.pendingKey c f spawned (hpend c f spawned hc hf).2 hf
  · intro c f spawned hc hf
    exact h.pendingBound c f spawned (hpend c f spawned hc hf).2 hf
  · intro c f spawned hc hf k hmem
    rcases hpend c f spawned hc hf with ⟨hne, hc₀⟩
    rw [hlog] at hmem
    rcases hmem with heq | heq | hmem
    · exact absurd heq (by simp)
    · rw [Event.registered.injEq] at heq
      exact h.pendingApart c call f _ spawned _ hne hc₀ hcall hf hpub heq.2
    · exact h.pendingNew c f spawned hc₀ hf k hmem
  · intro c c' f f' spawned spawned' hne hc hc' hf hf'
    exact h.pendingApart c c' f f' spawned spawned' hne (hpend c f spawned hc hf).2
      (hpend c' f' spawned' hc' hf').2 hf hf'

/-- A spawn closure that returns a handle. -/
theorem fresh_spawnOk (w : World) (h : Fresh w) (call : CallId) (key : SessionKey)
    (clientKind : Option ClientKind) (g : GateId) (initializeResult : Json) :
    Fresh (w.spawnReturn call key clientKind g (.ok initializeResult)) := by
  have hreg : ∀ k runtime, Event.registered k runtime ∈
      (w.spawnReturn call key clientKind g (.ok initializeResult)).log →
      Event.registered k runtime ∈ w.log := by
    intro k runtime hmem
    simpa [World.spawnReturn, World.moved] using hmem
  have hmono : ∀ event, event ∈ w.log →
      event ∈ (w.spawnReturn call key clientKind g (.ok initializeResult)).log :=
    fun event hmem => List.mem_cons_of_mem _ hmem
  -- What is pending afterwards was pending before, or is the new handle.
  have hpend : ∀ c f spawned,
      (w.spawnReturn call key clientKind g (.ok initializeResult)).calls.get? c = some f →
      f.pending = some spawned →
      (c = call ∧ spawned.1 = key ∧ spawned.2.key = key ∧ spawned.2.runtime = w.nextRuntime) ∨
        (c ≠ call ∧ w.calls.get? c = some f) := by
    intro c f spawned hc hf
    simp only [World.spawnReturn, World.moved, Table.get?_set] at hc
    by_cases hcc : c = call
    · rw [if_pos hcc, Option.some.injEq] at hc
      rw [← hc, Frame.pending, Option.some.injEq] at hf
      rw [← hf]
      exact Or.inl ⟨hcc, rfl, rfl, rfl⟩
    · rw [if_neg hcc] at hc
      exact Or.inr ⟨hcc, hc⟩
  constructor
  · exact h.handleKey
  · intro k u hu
    exact hmono _ (h.registered k u hu)
  · intro k runtime hmem
    exact Nat.lt_succ_of_lt (h.bound k runtime (hreg k runtime hmem))
  · intro k k' runtime hmem hmem'
    exact h.single k k' runtime (hreg k runtime hmem) (hreg k' runtime hmem')
  · intro c l runtime hmem
    refine hmono _ (h.granted c l runtime ?_)
    simpa [World.spawnReturn, World.moved] using hmem
  · intro runtime hmem
    have hold : Event.selected runtime ∈ w.log := by
      simpa [World.spawnReturn, World.moved] using hmem
    rcases h.selected runtime hold with ⟨k, hk⟩
    exact ⟨k, hmono _ hk⟩
  · intro c f spawned hc hf
    rcases hpend c f spawned hc hf with ⟨_, hkey, hhandle, _⟩ | ⟨_, hc₀⟩
    · rw [hkey, hhandle]
    · exact h.pendingKey c f spawned hc₀ hf
  · intro c f spawned hc hf
    rcases hpend c f spawned hc hf with ⟨_, _, _, hrt⟩ | ⟨_, hc₀⟩
    · rw [hrt]
      exact Nat.lt_succ_self _
    · exact Nat.lt_succ_of_lt (h.pendingBound c f spawned hc₀ hf)
  · intro c f spawned hc hf k hmem
    have hold := hreg k _ hmem
    rcases hpend c f spawned hc hf with ⟨_, _, _, hrt⟩ | ⟨_, hc₀⟩
    · rw [hrt] at hold
      exact absurd (h.bound k _ hold) (Nat.lt_irrefl _)
    · exact h.pendingNew c f spawned hc₀ hf k hold
  · intro c c' f f' spawned spawned' hne hc hc' hf hf'
    rcases hpend c f spawned hc hf with ⟨hcc, _, _, hrt⟩ | ⟨_, hc₀⟩ <;>
      rcases hpend c' f' spawned' hc' hf' with ⟨hcc', _, _, hrt'⟩ | ⟨_, hc₀'⟩
    · exact absurd (hcc.trans hcc'.symm) hne
    · rw [hrt]
      exact (Nat.ne_of_lt (h.pendingBound c' f' spawned' hc₀' hf')).symm
    · rw [hrt']
      exact Nat.ne_of_lt (h.pendingBound c f spawned hc₀ hf)
    · exact h.pendingApart c c' f f' spawned spawned' hne hc₀ hc₀' hf hf'

theorem fresh_step (w w' : World) (a : Action) (h : Fresh w) (hstep : w.step a = some w') :
    Fresh w' := by
  cases step_effect w w' a hstep with
  | tick span =>
      exact ⟨h.handleKey, h.registered, h.bound, h.single, h.granted, h.selected, h.pendingKey,
        h.pendingBound, h.pendingNew, h.pendingApart⟩
  | start call method hfree =>
      refine fresh_of_unregistered w _ h rfl (fun _ record hget => ⟨record, hget, rfl⟩)
        (fun _ _ hm => hm) (fun _ hm => hm) h.granted h.selected ?_
      exact pending_set w.calls call _ (by cases method <;> simp [Method.frame, Frame.pending])
  | spawnOk call key clientKind g initializeResult hcall =>
      exact fresh_spawnOk w h call key clientKind g initializeResult
  | move _ call frame frame' r' events hmover hcall heffect =>
      cases heffect with
      | quiet _ _ _ _ hkept hleases hseq hlog hrel hrel' hclear hclear' hpend hroute =>
          have hmem : ∀ event, event.grants = true →
              event ∈ (w.moved call r' frame' events).log → event ∈ w.log := by
            intro event hgr hm
            rcases List.mem_append.mp hm with hm | hm
            · rw [hlog event hm] at hgr
              exact absurd hgr Bool.false_ne_true
            · exact hm
          -- It logs no grant and no registration, and selects only what is registered.
          refine fresh_of_unregistered w _ h rfl ?_ (fun _ _ hm => hmem _ rfl hm)
            (fun _ hm => List.mem_append_right _ hm)
            (fun c l rt hm => h.granted c l rt (hmem _ rfl hm)) ?_ ?_
          · intro key record hget
            rcases handle_of_core w.reg r' events hkept key record hget with ⟨u, hu, heq, _⟩
            exact ⟨u, hu, heq⟩
          · intro runtime hm
            rcases List.mem_append.mp hm with hm | hm
            · rcases hkept.selected runtime hm with ⟨key, record, hget, hrt, _⟩
              rcases handle_of_core w.reg r' events hkept key record hget with ⟨u, hu, heq, _⟩
              refine ⟨key, ?_⟩
              have := h.registered key u hu
              rw [heq, hrt] at this
              exact this
            · exact h.selected runtime hm
          · exact pending_set w.calls call frame'
              (fun spawned hs => ⟨frame, hcall, hpend spawned hs⟩)
      | grant key clientKind pc record counters hrecord hpc =>
          -- The lease is granted on the record found, which was registered before.
          refine fresh_of_unregistered w _ h rfl
            (handle_of_set w.reg.sessions key record _ hrecord rfl) ?_
            (fun _ hm => List.mem_cons_of_mem _ hm) ?_ ?_
            (pending_set w.calls call _ (by simp [Frame.pending]))
          · intro k rt hm
            exact (List.mem_cons.mp hm).resolve_left (by simp)
          · intro c l rt hm
            rcases List.mem_cons.mp hm with heq | hm
            · rw [Event.granted.injEq] at heq
              rw [heq.2.1, heq.2.2]
              exact h.registered key record hrecord
            · exact h.granted c l rt hm
          · intro rt hm
            exact h.selected rt ((List.mem_cons.mp hm).resolve_left (by simp))
      | register key clientKind handle counters hnone =>
          exact fresh_register w h call key clientKind handle counters _ _ rfl rfl hcall
      | take id lease hlease =>
          exact fresh_moved_silent w h call _ _ rfl (fun _ record hget => ⟨record, hget, rfl⟩)
      | decrement id key =>
          refine fresh_moved_silent w h call _ _ rfl ?_
          unfold SessionRegistry.releaseSession
          cases hrec : w.reg.sessions.get? key with
          | none => exact fun _ record hget => ⟨record, hget, rfl⟩
          | some record => exact handle_of_set w.reg.sessions key record _ hrec rfl
      | removeSession key =>
          refine fresh_moved_silent w h call _ _ rfl (fun k record hget => ?_)
          rw [SessionRegistry.removeSession, Table.get?_erase] at hget
          split at hget
          · exact absurd hget (by simp)
          · exact ⟨record, hget, rfl⟩
      | removeLeases key =>
          exact fresh_moved_silent w h call _ _ rfl (fun _ record hget => ⟨record, hget, rfl⟩)

theorem fresh_run (idleTtl : Duration) (as : List Action) (w : World)
    (h : run World.step (World.init idleTtl) as = some w) : Fresh w :=
  run_invariant (fun s a s' hs hstep _ => fresh_step s s' a hs hstep) as _ w h
    (fresh_init idleTtl) (along_true as _)

/-! ### Lease ids -/

theorem leaseId_injective (m n : Nat) (h : leaseId m = leaseId n) : m = n := by
  unfold leaseId at h
  have hrepr : m.repr = n.repr := (String.append_right_inj _).mp h
  rw [← Nat.ofDigitChars_ten_toDigits (n := m), ← Nat.toList_repr, hrepr, Nat.toList_repr,
    Nat.ofDigitChars_ten_toDigits]

/-- The ids granted so far are the first values of the counter. -/
structure LeaseIds (w : World) : Prop where
  seq : w.reg.leaseSeq = (1 + grantCount w.log) % 2 ^ 64
  ids : ∀ call lease runtime, Event.granted call lease runtime ∈ w.log →
    ∃ j < grantCount w.log, lease.id = leaseId ((1 + j) % 2 ^ 64)

theorem leaseIds_init (idleTtl : Duration) : LeaseIds (World.init idleTtl) where
  seq := rfl
  ids := by simp [World.init]

/-- A grant takes the next value of the counter. -/
theorem leaseIds_grant (w w' : World) (h : LeaseIds w) (call : CallId) (key : SessionKey)
    (runtime : RuntimeId) (events : List Event)
    (hseq : w'.reg.leaseSeq = (w.reg.leaseSeq + 1) % 2 ^ 64)
    (hlog : w'.log = .granted call { id := leaseId w.reg.leaseSeq, key := key } runtime ::
      (events ++ w.log)) (hevents : ∀ event ∈ events, event.isGranted = false) : LeaseIds w' := by
  have hcount : grantCount w'.log = grantCount w.log + 1 := by
    have hzero : events.countP Event.isGranted = 0 := by
      rw [List.countP_eq_zero]
      intro event hmem
      rw [hevents event hmem]
      exact Bool.false_ne_true
    rw [hlog, grantCount, List.countP_cons, List.countP_append, hzero, Nat.zero_add]
    rfl
  constructor
  · rw [hseq, h.seq, hcount]
    omega
  · intro c l rt hmem
    rw [hcount]
    rw [hlog, List.mem_cons, List.mem_append] at hmem
    rcases hmem with heq | hmem | hmem
    · rw [Event.granted.injEq] at heq
      refine ⟨grantCount w.log, Nat.lt_succ_self _, ?_⟩
      rw [heq.2.1, h.seq]
    · exact absurd (hevents _ hmem) (by simp [Event.isGranted])
    · rcases h.ids c l rt hmem with ⟨j, hj, hid⟩
      exact ⟨j, Nat.lt_succ_of_lt hj, hid⟩

/-- A step that grants nothing leaves the counter alone. -/
theorem leaseIds_same (w w' : World) (h : LeaseIds w) (events : List Event)
    (hseq : w'.reg.leaseSeq = w.reg.leaseSeq) (hlog : w'.log = events ++ w.log)
    (hevents : ∀ event ∈ events, event.grants = false) : LeaseIds w' := by
  have hcount : grantCount w'.log = grantCount w.log := by
    rw [hlog, grantCount_append events w.log hevents]
  constructor
  · rw [hseq, hcount, h.seq]
  · intro c l rt hmem
    rw [hcount]
    rw [hlog, List.mem_append] at hmem
    rcases hmem with hmem | hmem
    · exact absurd (hevents _ hmem) (by simp [Event.grants])
    · exact h.ids c l rt hmem

theorem leaseIds_step (w w' : World) (a : Action) (h : LeaseIds w) (hstep : w.step a = some w') :
    LeaseIds w' := by
  cases step_effect w w' a hstep with
  | tick span => exact leaseIds_same w _ h [] rfl rfl (by simp)
  | start call method hfree => exact leaseIds_same w _ h [] rfl rfl (by simp)
  | spawnOk call key clientKind g initializeResult hcall =>
      exact leaseIds_same w _ h [_] rfl rfl (by simp [Event.grants])
  | move _ call frame frame' r' events hmover hcall heffect =>
      cases heffect with
      | quiet _ _ _ _ hkept hleases hseq hlog hrel hrel' hclear hclear' hpend hroute =>
          exact leaseIds_same w _ h events hseq rfl hlog
      | grant key clientKind pc record counters hrecord hpc =>
          exact leaseIds_grant w _ h call key record.handle.runtime [] rfl rfl (by simp)
      | register key clientKind handle counters hnone =>
          exact leaseIds_grant w _ h call key handle.runtime [_] rfl rfl
            (by simp [Event.isGranted])
      | take id lease hlease => exact leaseIds_same w _ h [] rfl rfl (by simp)
      | decrement id key =>
          refine leaseIds_same w _ h [] ?_ rfl (by simp)
          change (w.reg.releaseSession key w.now).1.leaseSeq = _
          unfold SessionRegistry.releaseSession
          split <;> rfl
      | removeSession key => exact leaseIds_same w _ h [] rfl rfl (by simp)
      | removeLeases key => exact leaseIds_same w _ h [] rfl rfl (by simp)

theorem leaseIds_run (idleTtl : Duration) (as : List Action) (w : World)
    (h : run World.step (World.init idleTtl) as = some w) : LeaseIds w :=
  run_invariant (fun s a s' hs hstep _ => leaseIds_step s s' a hs hstep) as _ w h
    (leaseIds_init idleTtl) (along_true as _)

/-- A record found after a step has the handle of a record found before, or the
    step published it under a key that had none. -/
theorem handle_step (w w' : World) (a : Action) (hstep : w.step a = some w') (k : SessionKey)
    (u : SessionRecord) (hget : w'.reg.sessions.get? k = some u) :
    (∃ u₀, w.reg.sessions.get? k = some u₀ ∧ u₀.handle = u.handle) ∨
      ∃ call clientKind, a.mover = some call ∧
        w.calls.get? call = some (.acquire k clientKind (.publish u.handle)) ∧
        w.reg.sessions.get? k = none := by
  cases step_effect w w' a hstep with
  | tick span => exact Or.inl ⟨u, hget, rfl⟩
  | start call method hfree => exact Or.inl ⟨u, hget, rfl⟩
  | spawnOk call key clientKind g initializeResult hcall => exact Or.inl ⟨u, hget, rfl⟩
  | move _ call frame frame' r' events hmover hcall heffect =>
      cases heffect with
      | quiet _ _ _ _ hkept hleases hseq hlog hrel hrel' hclear hclear' hpend hroute =>
          rcases handle_of_core w.reg r' events hkept k u hget with ⟨u₀, hu₀, hhandle, _⟩
          exact Or.inl ⟨u₀, hu₀, hhandle⟩
      | grant key clientKind pc record counters hrecord hpc =>
          exact Or.inl (handle_of_set w.reg.sessions key record (record.grant w.now) hrecord rfl k u
            hget)
      | register key clientKind handle counters hnone =>
          rcases get?_grantLease _ _ _ _ _ _ k u hget with ⟨rfl, hgrant⟩ | ⟨_, hold⟩
          · rw [hgrant]
            exact Or.inr ⟨call, clientKind, hmover, hcall, hnone⟩
          · exact Or.inl ⟨u, hold, rfl⟩
      | take id lease hlease => exact Or.inl ⟨u, hget, rfl⟩
      | decrement id key =>
          rcases get?_releaseSession _ _ _ k u hget with ⟨u₀, hu₀, hhandle, _⟩
          exact Or.inl ⟨u₀, hu₀, hhandle⟩
      | removeSession key =>
          exact Or.inl ⟨u, (get?_removeSession _ key k u hget).2, rfl⟩
      | removeLeases key => exact Or.inl ⟨u, hget, rfl⟩

/-- A session stays registered until a removal drops it. -/
theorem registered_step (w w' : World) (a : Action) (hstep : w.step a = some w') (k : SessionKey)
    (u : SessionRecord) (hget : w.reg.sessions.get? k = some u) :
    (∃ u', w'.reg.sessions.get? k = some u') ∨
      ∃ call, a.mover = some call ∧ w.calls.get? call = some (.remove k .session) := by
  cases step_effect w w' a hstep with
  | tick span => exact Or.inl ⟨u, hget⟩
  | start call method hfree => exact Or.inl ⟨u, hget⟩
  | spawnOk call key clientKind g initializeResult hcall => exact Or.inl ⟨u, hget⟩
  | move _ call frame frame' r' events hmover hcall heffect =>
      -- Writing a record back leaves every key that had one with one.
      have hset : ∀ (key : SessionKey) (record : SessionRecord),
          ∃ u', (w.reg.sessions.set key record).get? k = some u' := by
        intro key record
        rw [Table.get?_set]
        split
        · exact ⟨record, rfl⟩
        · exact ⟨u, hget⟩
      cases heffect with
      | quiet _ _ _ _ hkept hleases hseq hlog hrel hrel' hclear hclear' hpend hroute =>
          have hcore := hkept.core k
          rw [hget, Option.map_some] at hcore
          rcases Option.map_eq_some_iff.mp hcore with ⟨u', hu', _⟩
          exact Or.inl ⟨u', hu'⟩
      | grant key clientKind pc record counters hrecord hpc => exact Or.inl (hset key _)
      | register key clientKind handle counters hnone => exact Or.inl (hset key _)
      | take id lease hlease => exact Or.inl ⟨u, hget⟩
      | decrement id key =>
          refine Or.inl ?_
          change ∃ u', (w.reg.releaseSession key w.now).1.sessions.get? k = some u'
          unfold SessionRegistry.releaseSession
          split
          · exact hset key _
          · exact ⟨u, hget⟩
      | removeSession key =>
          by_cases hk : k = key
          · rw [hk]
            exact Or.inr ⟨call, hmover, hcall⟩
          · exact Or.inl ⟨u, (Table.get?_erase_ne _ _ _ hk).trans hget⟩
      | removeLeases key => exact Or.inl ⟨u, hget⟩

/-- A key keeps its session through every step but the removal of the key. -/
theorem instance_step (w w' : World) (a : Action) (hstep : w.step a = some w') (key : SessionKey)
    (runtime : RuntimeId)
    (hkeep : ∀ call, a.mover = some call → w.calls.get? call ≠ some (.remove key .session))
    (h : w.reg.instanceOf key = some runtime) : w'.reg.instanceOf key = some runtime := by
  rcases Option.map_eq_some_iff.mp h with ⟨u, hget, hrt⟩
  rcases registered_step w w' a hstep key u hget with ⟨u', hu'⟩ | ⟨call, hmover, hcall⟩
  · rcases handle_step w w' a hstep key u' hu' with ⟨u₀, hu₀, hhandle⟩ | ⟨_, _, _, _, hnone⟩
    · rw [hget, Option.some.injEq] at hu₀
      rw [SessionRegistry.instanceOf, hu', Option.map_some, ← hhandle, ← hu₀, hrt]
    · rw [hget] at hnone
      exact absurd hnone (by simp)
  · exact absurd hcall (hkeep call hmover)

/-- A call stays as it is while others begin and move. -/
theorem calls_step (w w' : World) (a : Action) (hstep : w.step a = some w') (c : CallId)
    (frame : Frame) (hget : w.calls.get? c = some frame) (hmover : a.mover ≠ some c) :
    w'.calls.get? c = some frame := by
  cases step_effect w w' a hstep with
  | tick span => exact hget
  | start call method hfree =>
      have hne : c ≠ call := by
        intro heq
        rw [heq, hfree] at hget
        exact absurd hget (by simp)
      exact (Table.get?_set_ne _ _ _ _ hne).trans hget
  | spawnOk call key clientKind g initializeResult hcall =>
      have hne : c ≠ call := fun heq => hmover (by rw [heq]; rfl)
      exact (Table.get?_set_ne _ _ _ _ hne).trans hget
  | move _ call f frame' r' events hmover' hcall heffect =>
      have hne : c ≠ call := fun heq => hmover (by rw [heq]; exact hmover')
      exact (Table.get?_set_ne _ _ _ _ hne).trans hget

/-- The call a step moves is there. -/
theorem mover_isSome (w w' : World) (a : Action) (hstep : w.step a = some w') (call : CallId)
    (hmover : a.mover = some call) : ∃ frame, w.calls.get? call = some frame := by
  cases step_effect w w' a hstep with
  | tick span => exact absurd hmover (by simp [Action.mover])
  | start c method hfree => exact absurd hmover (by simp [Action.mover])
  | spawnOk c key clientKind g initializeResult hcall =>
      rw [Action.mover, Option.some.injEq] at hmover
      exact ⟨_, by rw [← hmover]; exact hcall⟩
  | move _ c frame frame' r' events hm hcall heffect =>
      rw [hmover, Option.some.injEq] at hm
      exact ⟨frame, by rw [hm]; exact hcall⟩

/-- A grant that a step logs is on the session now registered under the key. -/
theorem granted_step (w w' : World) (a : Action) (hstep : w.step a = some w') (call : CallId)
    (lease : Lease) (runtime : RuntimeId) (hmem : Event.granted call lease runtime ∈ w'.log) :
    Event.granted call lease runtime ∈ w.log ∨
      ∃ u, w'.reg.sessions.get? lease.key = some u ∧ u.handle.runtime = runtime := by
  cases step_effect w w' a hstep with
  | tick span => exact Or.inl hmem
  | start c method hfree => exact Or.inl hmem
  | spawnOk c key clientKind g initializeResult hcall =>
      exact Or.inl ((List.mem_cons.mp hmem).resolve_left (by simp))
  | move _ c frame frame' r' events hmover hcall heffect =>
      cases heffect with
      | quiet _ _ _ _ hkept hleases hseq hlog hrel hrel' hclear hclear' hpend hroute =>
          rcases List.mem_append.mp hmem with hmem | hmem
          · exact absurd (hlog _ hmem) (by simp [Event.grants])
          · exact Or.inl hmem
      | grant key clientKind pc record counters hrecord hpc =>
          rcases List.mem_cons.mp hmem with heq | hmem
          · rw [Event.granted.injEq] at heq
            rw [heq.2.1, heq.2.2]
            exact Or.inr ⟨record.grant w.now, Table.get?_set_self _ _ _, rfl⟩
          · exact Or.inl hmem
      | register key clientKind handle counters hnone =>
          rcases List.mem_cons.mp hmem with heq | hmem
          · rw [Event.granted.injEq] at heq
            rw [heq.2.1, heq.2.2]
            exact Or.inr ⟨(SessionRecord.new handle w.now).grant w.now,
              Table.get?_set_self _ _ _, rfl⟩
          · exact Or.inl ((List.mem_cons.mp hmem).resolve_left (by simp))
      | take id l hlease => exact Or.inl hmem
      | decrement id key => exact Or.inl hmem
      | removeSession key => exact Or.inl hmem
      | removeLeases key => exact Or.inl hmem

/-- The log only grows. -/
theorem log_step (w w' : World) (a : Action) (hstep : w.step a = some w') :
    ∃ events, w'.log = events ++ w.log := by
  cases step_effect w w' a hstep with
  | tick span => exact ⟨[], rfl⟩
  | start call method hfree => exact ⟨[], rfl⟩
  | spawnOk call key clientKind g initializeResult hcall => exact ⟨[_], rfl⟩
  | move _ call frame frame' r' events hmover hcall heffect => exact ⟨events, rfl⟩

/-- Once granted, an id stays so. -/
theorem wasGranted_step (w w' : World) (a : Action) (hstep : w.step a = some w') (id : String)
    (h : ∃ runtime, grantedOn id w.log = some runtime) :
    ∃ runtime, grantedOn id w'.log = some runtime := by
  rcases h with ⟨runtime, hid⟩
  rcases granted_of_grantedOn id w.log runtime hid with ⟨call, lease, hmem, rfl⟩
  rcases log_step w w' a hstep with ⟨events, hlog⟩
  refine grantedOn_isSome w'.log call lease runtime ?_
  rw [hlog]
  exact List.mem_append_right _ hmem

/-- Until the counter has wrapped around, the next id has not been granted. -/
theorem nextId_new (w : World) (h : LeaseIds w) (hcount : grantCount w.log < 2 ^ 64) :
    grantedOn (leaseId w.reg.leaseSeq) w.log = none := by
  cases hg : grantedOn (leaseId w.reg.leaseSeq) w.log with
  | none => rfl
  | some runtime =>
      exfalso
      rcases granted_of_grantedOn _ _ _ hg with ⟨call, lease, hmem, hid⟩
      rcases h.ids call lease runtime hmem with ⟨j, hj, hlease⟩
      rw [hlease, h.seq] at hid
      have := leaseId_injective _ _ hid
      omega

/-- A grant takes an id that the counter has not given out before. -/
def World.NewIdCond (w : World) (a : Action) : Prop :=
  match a.mover.bind w.calls.get? with
  | some (.acquire _ _ (.lookup _)) => grantCount w.log < 2 ^ 64
  | some (.acquire _ _ (.publish _)) => grantCount w.log < 2 ^ 64
  | _ => True

instance (w : World) (a : Action) : Decidable (w.NewIdCond a) := by
  unfold World.NewIdCond
  split <;> infer_instance

/-- A lease stays bound to the session it was granted on. -/
theorem grantedOn_step (w w' : World) (a : Action) (h : LeaseIds w) (hstep : w.step a = some w')
    (hcond : w.NewIdCond a) (id : String) (runtime : RuntimeId)
    (hid : grantedOn id w.log = some runtime) : grantedOn id w'.log = some runtime := by
  cases step_effect w w' a hstep with
  | tick span => exact hid
  | start call method hfree => exact hid
  | spawnOk call key clientKind g initializeResult hcall => exact hid
  | move _ call frame frame' r' events hmover hcall heffect =>
      rw [World.NewIdCond, hmover, Option.bind_some, hcall] at hcond
      -- A new id is not bound, so it is not this one.
      have hne : grantCount w.log < 2 ^ 64 → id ≠ leaseId w.reg.leaseSeq := by
        intro hcount heq
        rw [heq, nextId_new w h hcount] at hid
        exact absurd hid (by simp)
      cases heffect with
      | quiet _ _ _ _ hkept hleases hseq hlog hrel hrel' hclear hclear' hpend hroute =>
          exact (grantedOn_append id events w.log hlog).trans hid
      | grant key clientKind pc record counters hrecord hpc =>
          have hcount : grantCount w.log < 2 ^ 64 := by
            rcases hpc with ⟨g, rfl⟩ | ⟨handle, rfl⟩ <;> exact hcond
          have := grantedOn_grant w.log [] call { id := leaseId w.reg.leaseSeq, key := key }
            record.handle.runtime (by simp) id
          rw [if_neg (hne hcount)] at this
          exact this.trans hid
      | register key clientKind handle counters hnone =>
          have := grantedOn_grant w.log [.registered key handle.runtime] call
            { id := leaseId w.reg.leaseSeq, key := key } handle.runtime
            (by simp [Event.isGranted]) id
          rw [if_neg (hne hcond)] at this
          exact this.trans hid
      | take id' lease hlease => exact hid
      | decrement id' key => exact hid
      | removeSession key => exact hid
      | removeLeases key => exact hid

/-- A runtime is named when a spawn closure returns a handle. -/
theorem World.nextRuntime_step (w w' : World) (a : Action) (hstep : w.step a = some w') :
    w'.nextRuntime = w.nextRuntime ∨
      ∃ call result, a = .spawnReturns call (.ok result) ∧
        w'.nextRuntime = w.nextRuntime + 1 := by
  cases step_effect w w' a hstep with
  | tick span => exact Or.inl rfl
  | start call method hfree => exact Or.inl rfl
  | spawnOk call key clientKind g initializeResult hcall => exact Or.inr ⟨call, _, rfl, rfl⟩
  | move _ call frame frame' r' events hmover hcall heffect => exact Or.inl rfl

theorem World.spawned_step (w w' : World) (call : CallId) (result : Json)
    (hstep : w.step (.spawnReturns call (.ok result)) = some w') :
    w'.nextRuntime = w.nextRuntime + 1 := by
  simp only [World.step] at hstep
  split at hstep
  · rw [Option.some.injEq] at hstep
    rw [← hstep]
    rfl
  · exact absurd hstep (by simp)

/-- The call is an acquire of the key, or an attach that has its lease. -/
def Frame.Acquires (key : SessionKey) : Frame → Prop
  | .acquire k _ _ => k = key
  | .attached _ _ => True
  | _ => False

/-- An acquire stays one of its key. -/
theorem acquires_step (w w' : World) (a : Action) (hstep : w.step a = some w') (call : CallId)
    (key : SessionKey) (frame : Frame) (hget : w.calls.get? call = some frame)
    (h : frame.Acquires key) :
    ∃ frame', w'.calls.get? call = some frame' ∧ frame'.Acquires key := by
  by_cases hmover : a.mover = some call
  · cases frame with
    | acquire k clientKind pc =>
        cases a with
        | tick span => exact absurd hmover (by simp [Action.mover])
        | start c method => exact absurd hmover (by simp [Action.mover])
        | sect c =>
            rw [Action.mover, Option.some.injEq] at hmover
            simp only [World.step, hmover, hget, Option.map_eq_some_iff, Prod.exists] at hstep
            rcases hstep with ⟨r', frame', events, hsec, rfl⟩
            refine ⟨frame', Table.get?_set_self _ _ _, ?_⟩
            rcases section_acquire call w.now w.reg r' k clientKind pc frame' events hsec with
              ⟨lease, _, _, rfl, _⟩ | ⟨pc', _, rfl⟩
            · trivial
            · exact h
        | spawnReturns c result =>
            rw [Action.mover, Option.some.injEq] at hmover
            simp only [World.step, hmover, hget] at hstep
            split at hstep
            · rename_i k' clientKind' g heq
              rw [Option.some.injEq, Frame.acquire.injEq] at heq
              rw [Option.some.injEq] at hstep
              rw [← hstep]
              cases result with
              | ok initializeResult =>
                  exact ⟨_, Table.get?_set_self _ _ _, heq.1.symm.trans h⟩
              | error error => exact ⟨_, Table.get?_set_self _ _ _, heq.1.symm.trans h⟩
            · exact absurd hstep (by simp)
        | runtimeReturns c result =>
            rw [Action.mover, Option.some.injEq] at hmover
            simp only [World.step, hmover, hget] at hstep
            exact absurd hstep (by simp)
    | attached lease handle =>
        rcases sect_of_mover w w' a call _ hmover hget (by simp) (by simp) hstep with
          ⟨r', frame', events, hsec, _⟩
        exact absurd hsec (by simp [Frame.section])
    | _ => exact absurd h (by simp [Frame.Acquires])
  · exact ⟨frame, calls_step w w' a hstep call frame hget hmover, h⟩

/-- A grant is logged by the acquire that gets it. -/
theorem grantedTo_step (w w' : World) (a : Action) (hstep : w.step a = some w') (call : CallId)
    (lease : Lease) (runtime : RuntimeId) (hmem : Event.granted call lease runtime ∈ w'.log) :
    Event.granted call lease runtime ∈ w.log ∨
      ∃ clientKind pc, w.calls.get? call = some (.acquire lease.key clientKind pc) := by
  cases step_effect w w' a hstep with
  | tick span => exact Or.inl hmem
  | start c method hfree => exact Or.inl hmem
  | spawnOk c key clientKind g initializeResult hcall =>
      exact Or.inl ((List.mem_cons.mp hmem).resolve_left (by simp))
  | move _ c frame frame' r' events hmover hcall heffect =>
      cases heffect with
      | quiet _ _ _ _ hkept hleases hseq hlog hrel hrel' hclear hclear' hpend hroute =>
          rcases List.mem_append.mp hmem with hmem | hmem
          · exact absurd (hlog _ hmem) (by simp [Event.grants])
          · exact Or.inl hmem
      | grant key clientKind pc record counters hrecord hpc =>
          rcases List.mem_cons.mp hmem with heq | hmem
          · rw [Event.granted.injEq] at heq
            rw [heq.1, heq.2.1]
            exact Or.inr ⟨clientKind, pc, hcall⟩
          · exact Or.inl hmem
      | register key clientKind handle counters hnone =>
          rcases List.mem_cons.mp hmem with heq | hmem
          · rw [Event.granted.injEq] at heq
            rw [heq.1, heq.2.1]
            exact Or.inr ⟨clientKind, .publish handle, hcall⟩
          · exact Or.inl ((List.mem_cons.mp hmem).resolve_left (by simp))
      | take id l hlease => exact Or.inl hmem
      | decrement id key => exact Or.inl hmem
      | removeSession key => exact Or.inl hmem
      | removeLeases key => exact Or.inl hmem

/-- A handle that waits to be published waited before, or a spawn closure has just
    returned it. -/
theorem pending_origin (w w' : World) (a : Action) (hstep : w.step a = some w') (call : CallId)
    (frame' : Frame) (spawned : SessionKey × SessionHandle)
    (hget : w'.calls.get? call = some frame') (hpending : frame'.pending = some spawned) :
    (∃ frame, w.calls.get? call = some frame ∧ frame.pending = some spawned) ∨
      ∃ result clientKind g, a = .spawnReturns call (.ok result) ∧
        w.calls.get? call = some (.acquire spawned.1 clientKind (.spawning g)) ∧
        spawned.2.runtime = w.nextRuntime := by
  cases step_effect w w' a hstep with
  | tick span => exact Or.inl ⟨frame', hget, hpending⟩
  | start c method hfree =>
      refine Or.inl
        (pending_set w.calls c (method.frame w.now) ?_ call frame' spawned hget hpending)
      intro spawned' h
      cases method <;> exact absurd h (by simp [Method.frame, Frame.pending])
  | spawnOk c key clientKind g initializeResult hcall =>
      rw [World.spawnReturn, World.moved, Table.get?_set] at hget
      by_cases hc : call = c
      · rw [if_pos hc, Option.some.injEq] at hget
        rw [← hget, Frame.pending, Option.some.injEq] at hpending
        rw [← hpending, hc]
        exact Or.inr ⟨initializeResult, clientKind, g, rfl, hcall, rfl⟩
      · rw [if_neg hc] at hget
        exact Or.inl ⟨frame', hget, hpending⟩
  | move _ c frame f' r' events hmover hcall heffect =>
      refine Or.inl (pending_set w.calls c f' ?_ call frame' spawned hget hpending)
      intro spawned' h
      cases heffect with
      | quiet _ _ _ _ hkept hleases hseq hlog hrel hrel' hclear hclear' hpend hroute =>
          exact ⟨frame, hcall, hpend spawned' h⟩
      | _ => exact absurd h (by simp [Frame.pending])

end Lspee
