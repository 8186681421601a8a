import Lspee.Theory.Likeness
import Lspee.Theory.Naming

/-!
# Sections Beside a Registry of One Key

What one section of a call does to two registries that agree on a key.

A call of the key makes its section on both sides, with like results, and the
registries agree again: `frame_follows`. The two sides may have made a gate, and
a lease has the next id on each. A call of another key makes its section on the
first side only, and the registries agree as before: `frame_passes`. Between
them they say that every section is local to its key, but for the names it gives
out: a session is found under the key, a lease by an id that tells the key, and a
gate by the caller that was given it. `idle_candidates` goes through the sessions
of all keys, and treats each by itself.

## Main definitions

* `Follows`: What a section does on both sides.
* `Bypasses`: What a section of another key does.

## Theorems

* `acquire_follows`, `release_follows`, `forward_follows`, `candidates_alike`:
  The methods, on both sides.
* `frame_follows`: Every section of a call of the key.
* `acquire_passes`, `release_passes`, `forward_passes`: The methods, for another
  key.
* `frame_passes`: Every section of a call of another key.
-/

namespace Lspee

/-- What a section of a call of the key does on both sides. -/
structure Follows (key : SessionKey) (F : String → Bool) (σ : String → String)
    (P : RuntimeId → RuntimeId → Prop) (G G₂ : GateId → GateId → Prop)
    (r r₂ r' r₂' : SessionRegistry) (events : List Event) : Prop where
  alike : AlikeOn key F σ P G₂ r₂ r₂'
  grows : ∀ g g', G g g' → G₂ g g'
  strays : ∀ g, Stray G r.nextGate g → Stray G₂ r₂.nextGate g
  seq : ∀ n, r'.leaseSeq = (1 + n) % 2 ^ 64 →
    r₂'.leaseSeq = (1 + (n + (idsOn key events).length)) % 2 ^ 64

/-- What a section of a call of another key does. -/
structure Bypasses (key : SessionKey) (F : String → Bool) (σ : String → String)
    (P : RuntimeId → RuntimeId → Prop) (G : GateId → GateId → Prop)
    (r r₂ r' : SessionRegistry) (events : List Event) : Prop where
  alike : AlikeOn key F σ P G r₂ r'
  strays : ∀ g, Stray G r.nextGate g → Stray G r₂.nextGate g
  ids : idsOn key events = []

variable {key : SessionKey} {F : String → Bool} {σ : String → String}
  {P : RuntimeId → RuntimeId → Prop} {G : GateId → GateId → Prop} {r r₂ r' r₂' : SessionRegistry}

theorem follows_of_alike (events : List Event) (h : AlikeOn key F σ P G r₂ r₂')
    (hnext : r₂.nextGate = r.nextGate) (hseq : r₂'.leaseSeq = r'.leaseSeq)
    (hids : idsOn key events = []) : Follows key F σ P G G r r₂ r' r₂' events where
  alike := h
  grows := fun _ _ hg => hg
  strays := by
    intro g hg
    rw [hnext]
    exact hg
  seq := by
    intro n hn
    rw [hseq, hids, List.length_nil, Nat.add_zero]
    exact hn

theorem bypasses_of_alike (events : List Event) (h : AlikeOn key F σ P G r₂ r')
    (hnext : r₂.nextGate = r.nextGate) (hids : idsOn key events = []) :
    Bypasses key F σ P G r r₂ r' events where
  alike := h
  strays := by
    intro g hg
    rw [hnext]
    exact hg
  ids := hids

/-! ### Calls of the key -/

section Kept

/-- A grant on both sides. -/
theorem grant_follows (h : AlikeOn key F σ P G r r') (hσ : Set.InjOn σ {id | F id = false})
    (call : CallId) (clientKind : Option ClientKind) (record record' : SessionRecord)
    (counters counters' : RegistryCounters) (now : Instant) (runtime : RuntimeId)
    (rest : List Event) (hrest : idsOn key rest = []) (hrecord : record.Like P record')
    (hid : F (leaseId r.leaseSeq) = false)
    (hnext : σ (leaseId r.leaseSeq) = leaseId r'.leaseSeq) :
    Follows key F σ P G G r (r.grantLease key clientKind record counters now).1 r'
      (r'.grantLease key clientKind record' counters' now).1
      (.granted call ⟨leaseId r.leaseSeq, key⟩ runtime :: rest) where
  alike := by
    have hgrant : (record.grant now).Like P (record'.grant now) :=
      ⟨hrecord.handle, congrArg (· + 1) hrecord.refCount, rfl, rfl, rfl⟩
    have hleases := leases_grant h.leases hσ (leaseId r.leaseSeq) hid
      { key := key, clientKind := clientKind } rfl
    rw [hnext] at hleases
    exact ⟨sessions_set h.sessions _ _ hgrant, hleases, h.gates, h.idleTtl⟩
  grows := fun _ _ hg => hg
  strays := fun _ hg => hg
  seq := by
    intro n hn
    rw [idsOn_here, hrest]
    change (r'.leaseSeq + 1) % 2 ^ 64 = _
    rw [hn, List.length_singleton, Nat.mod_add_mod, Nat.add_assoc]

theorem granted_like (id id' : String) (h : σ id = id') :
    AcquirePc.Like σ P G key (.returned (.ok ⟨id, key⟩)) (.returned (.ok ⟨id', key⟩)) := by
  rw [← h]
  exact .granted id

theorem acquire_follows (h : AlikeOn key F σ P G r r') (hσ : Set.InjOn σ {id | F id = false})
    (call : CallId) (clientKind : Option ClientKind) (now : Instant) (pc pc' pc₂ : AcquirePc)
    (events : List Event) (hlike : pc.Like σ P G key pc')
    (hsec : pc.section call key clientKind now r = some (r₂, pc₂, events))
    (hnew : ∀ id runtime rest, events = .granted call ⟨id, key⟩ runtime :: rest →
      idsOn key rest = [] → F id = false ∧ σ id = leaseId r'.leaseSeq) :
    ∃ G₂ r₂' pc₂' events', pc'.section call key clientKind now r' = some (r₂', pc₂', events') ∧
      pc₂.Like σ P G₂ key pc₂' ∧ Follows key F σ P G G₂ r r₂ r' r₂' events := by
  cases hlike with
  | count =>
      simp only [AcquirePc.section, Option.some.injEq, Prod.mk.injEq] at hsec
      rcases hsec with ⟨rfl, rfl, rfl⟩
      exact ⟨G, _, _, _, rfl, .gate,
        follows_of_alike [] ⟨h.sessions, h.leases, h.gates, h.idleTtl⟩ rfl rfl rfl⟩
  | gate =>
      simp only [AcquirePc.section, Option.some.injEq, Prod.mk.injEq] at hsec
      rcases hsec with ⟨rfl, rfl, rfl⟩
      -- A gate registered for the key is there on both sides, or is made on both.
      rcases rel_cases h.gates.here with ⟨hnone, hnone'⟩ | ⟨g, g', hg, hg', hpair⟩
      · refine ⟨Pairing.extend G r.nextGate r'.nextGate, _, _, _, rfl, ?_, ?_⟩
        · simp only [SessionRegistry.gateEntry, hnone, hnone']
          exact .lookup _ _ (Or.inr ⟨rfl, rfl⟩)
        · simp only [SessionRegistry.gateEntry, hnone, hnone']
          exact ⟨⟨h.sessions, h.leases, gates_new h.gates, h.idleTtl⟩, fun _ _ => Or.inl,
            stray_extend, fun n hn => hn⟩
      · refine ⟨G, _, _, _, rfl, ?_, ?_⟩
        · simp only [SessionRegistry.gateEntry, hg, hg']
          exact .lookup g g' hpair
        · simp only [SessionRegistry.gateEntry, hg, hg']
          exact follows_of_alike [] h rfl rfl rfl
  | lookup g g' hg =>
      rcases rel_cases h.sessions.here with ⟨hnone, hnone'⟩ | ⟨record, record', hrec, hrec', hlike⟩
      · simp only [AcquirePc.section, hnone, Option.some.injEq, Prod.mk.injEq] at hsec
        rcases hsec with ⟨rfl, rfl, rfl⟩
        simp only [AcquirePc.section, hnone']
        exact ⟨G, _, _, _, rfl, .enter g g' hg, follows_of_alike [] h rfl rfl rfl⟩
      · simp only [AcquirePc.section, hrec, Option.some.injEq, Prod.mk.injEq] at hsec
        rcases hsec with ⟨rfl, rfl, rfl⟩
        -- The two leases may have different ids: the renaming takes one to the other.
        have hname := hnew (leaseId r.leaseSeq) record.handle.runtime [] rfl rfl
        simp only [AcquirePc.section, hrec']
        refine ⟨G, _, _, _, rfl, ?_, grant_follows h hσ call clientKind record record' _ _ now _ []
          rfl hlike hname.1 hname.2⟩
        exact granted_like _ _ hname.2
  | enter g g' hg =>
      -- The two gates are in the same state, so both callers spawn, or both wait.
      have hheap := h.gates.heap g g' hg
      cases hstarted : (r.gateHeap g).started with
      | true =>
          simp only [AcquirePc.section, SessionRegistry.enterGate, hstarted, if_true,
            Option.some.injEq, Prod.mk.injEq] at hsec
          rcases hsec with ⟨rfl, rfl, rfl⟩
          simp only [AcquirePc.section, SessionRegistry.enterGate, hheap, hstarted, if_true]
          exact ⟨G, _, _, _, rfl, .waiting g g' _ hg, follows_of_alike [] h rfl rfl rfl⟩
      | false =>
          simp only [AcquirePc.section, SessionRegistry.enterGate, hstarted, if_false,
            Bool.false_eq_true, Option.some.injEq, Prod.mk.injEq] at hsec
          rcases hsec with ⟨rfl, rfl, rfl⟩
          simp only [AcquirePc.section, SessionRegistry.enterGate, hheap, hstarted, if_false,
            Bool.false_eq_true]
          exact ⟨G, _, _, _, rfl, .spawning g g' hg, follows_of_alike _
            ⟨h.sessions, h.leases, gates_update h.gates g g' hg _, h.idleTtl⟩ rfl rfl rfl⟩
  | spawning g g' hg => exact absurd hsec (by simp [AcquirePc.section])
  | leaveOk g g' handle handle' hg hhandle hkey =>
      simp only [AcquirePc.section, Option.some.injEq, Prod.mk.injEq] at hsec
      rcases hsec with ⟨rfl, rfl, rfl⟩
      have hgates := gates_update h.gates g g' hg
        { notify := (r.gateHeap g).notify + 1, started := false }
      refine ⟨G, _, _, _, rfl, .publish handle handle' hhandle hkey,
        follows_of_alike [] ⟨h.sessions, h.leases, ?_, h.idleTtl⟩ rfl rfl rfl⟩
      simp only [SessionRegistry.leaveGate, h.gates.heap g g' hg]
      exact hgates
  | leaveError g g' error hg =>
      simp only [AcquirePc.section, Option.some.injEq, Prod.mk.injEq] at hsec
      rcases hsec with ⟨rfl, rfl, rfl⟩
      have hgates := gates_update h.gates g g' hg
        { notify := (r.gateHeap g).notify + 1, started := false }
      refine ⟨G, _, _, _, rfl, .dropGate error,
        follows_of_alike [] ⟨h.sessions, h.leases, ?_, h.idleTtl⟩ rfl rfl rfl⟩
      simp only [SessionRegistry.leaveGate, h.gates.heap g g' hg]
      exact hgates
  | publish handle handle' hhandle hkey =>
      simp only [AcquirePc.section, Option.some.injEq, Prod.mk.injEq] at hsec
      rcases hsec with ⟨rfl, rfl, rfl⟩
      -- The record a publish works on is the one found, or a new one.
      have hrecord : (r.publishRecord key handle now).Like P
          (r'.publishRecord key handle' now) := by
        unfold SessionRegistry.publishRecord
        rcases rel_cases h.sessions.here with ⟨hnone, hnone'⟩ | ⟨u, u', hrec, hrec', hlike⟩
        · rw [hnone, hnone']
          exact ⟨hhandle, rfl, rfl, rfl, rfl⟩
        · rw [hrec, hrec']
          exact hlike
      -- Registering a runtime names no lease.
      have hrest : idsOn key (if (r.sessions.get? key).isSome then []
          else [Event.registered key handle.runtime]) = [] := by
        split <;> rfl
      have hname := hnew (leaseId r.leaseSeq) _ _ rfl hrest
      refine ⟨G, _, _, _, rfl, ?_, grant_follows h hσ call clientKind _ _ _ _ now _ _ hrest hrecord
        hname.1 hname.2⟩
      exact granted_like _ _ hname.2
  | dropGate error =>
      simp only [AcquirePc.section, Option.some.injEq, Prod.mk.injEq] at hsec
      rcases hsec with ⟨rfl, rfl, rfl⟩
      exact ⟨G, _, _, _, rfl, .failed error,
        follows_of_alike [] ⟨h.sessions, h.leases, gates_drop h.gates, h.idleTtl⟩ rfl rfl rfl⟩
  | waiting g g' epoch hg =>
      simp only [AcquirePc.section] at hsec
      split at hsec
      -- Who is woken here is woken there.
      · rename_i hwoken
        simp only [Option.some.injEq, Prod.mk.injEq] at hsec
        rcases hsec with ⟨rfl, rfl, rfl⟩
        refine ⟨G, r', .lookup g', [], ?_, .lookup g g' hg, follows_of_alike [] h rfl rfl rfl⟩
        simp only [AcquirePc.section, h.gates.heap g g' hg]
        rw [if_pos hwoken]
      · exact absurd hsec (by simp)
  | granted id => exact absurd hsec (by simp [AcquirePc.section])
  | failed error => exact absurd hsec (by simp [AcquirePc.section])

theorem touch_rest (r : SessionRegistry) (k : SessionKey) (now : Instant) :
    (r.touch k now).nextGate = r.nextGate ∧ (r.touch k now).leaseSeq = r.leaseSeq := by
  unfold SessionRegistry.touch
  split <;> exact ⟨rfl, rfl⟩

theorem mark_rest (r : SessionRegistry) (k : SessionKey) (notice : Option StreamErrorPayload) :
    (r.markTerminatingWithNotice k notice).nextGate = r.nextGate ∧
      (r.markTerminatingWithNotice k notice).leaseSeq = r.leaseSeq := by
  unfold SessionRegistry.markTerminatingWithNotice
  split <;> exact ⟨rfl, rfl⟩

theorem release_rest (r : SessionRegistry) (k : SessionKey) (now : Instant) :
    (r.releaseSession k now).1.nextGate = r.nextGate ∧
      (r.releaseSession k now).1.leaseSeq = r.leaseSeq := by
  unfold SessionRegistry.releaseSession
  split <;> exact ⟨rfl, rfl⟩

/-- A record that is written back in the same way on both sides. -/
theorem touch_alike (h : AlikeOn key F σ P G r r') (now : Instant) :
    AlikeOn key F σ P G (r.touch key now) (r'.touch key now) := by
  unfold SessionRegistry.touch
  rcases rel_cases h.sessions.here with ⟨hnone, hnone'⟩ | ⟨record, record', hrec, hrec', hlike⟩
  · rw [hnone, hnone']
    exact h
  · rw [hrec, hrec']
    have htouch : (record.touch now).Like P (record'.touch now) :=
      ⟨hlike.handle, hlike.refCount, rfl, hlike.terminating, hlike.terminationNotice⟩
    exact ⟨sessions_set h.sessions _ _ htouch, h.leases, h.gates, h.idleTtl⟩

theorem mark_alike (h : AlikeOn key F σ P G r r') (notice : Option StreamErrorPayload) :
    AlikeOn key F σ P G (r.markTerminatingWithNotice key notice)
      (r'.markTerminatingWithNotice key notice) := by
  unfold SessionRegistry.markTerminatingWithNotice
  rcases rel_cases h.sessions.here with ⟨hnone, hnone'⟩ | ⟨record, record', hrec, hrec', hlike⟩
  · rw [hnone, hnone']
    exact h
  · rw [hrec, hrec']
    exact ⟨sessions_set h.sessions _ _
      ⟨hlike.handle, hlike.refCount, hlike.lastUsed, rfl, rfl⟩, h.leases, h.gates, h.idleTtl⟩

theorem release_alike (h : AlikeOn key F σ P G r r') (now : Instant) :
    AlikeOn key F σ P G (r.releaseSession key now).1 (r'.releaseSession key now).1 ∧
      (r'.releaseSession key now).2 = (r.releaseSession key now).2 := by
  unfold SessionRegistry.releaseSession
  rcases rel_cases h.sessions.here with ⟨hnone, hnone'⟩ | ⟨record, record', hrec, hrec', hlike⟩
  · rw [hnone, hnone']
    exact ⟨h, rfl⟩
  · rw [hrec, hrec']
    have hcount : (record'.release now).refCount = (record.release now).refCount := by
      unfold SessionRecord.release
      rw [hlike.refCount]
    have hrelease : (record.release now).Like P (record'.release now) :=
      ⟨hlike.handle, hcount, rfl, hlike.terminating, hlike.terminationNotice⟩
    exact ⟨⟨sessions_set h.sessions _ _ hrelease, h.leases, h.gates, h.idleTtl⟩, hcount⟩

/-- Both sides test the session in the same way. -/
theorem isIdle_alike (h : AlikeOn key F σ P G r r') (start : Instant)
    (record record' : SessionRecord) (hlike : record.Like P record') :
    r'.isIdle start record' = r.isIdle start record := by
  unfold SessionRegistry.isIdle
  rw [hlike.terminating, hlike.refCount, hlike.lastUsed, h.idleTtl]

theorem idle_alike (h : AlikeOn key F σ P G r r') (start : Instant) :
    AlikeOn key F σ P G (r.idleCandidates start).1 (r'.idleCandidates start).1 := by
  refine ⟨⟨?_, ?_⟩, h.leases, h.gates, h.idleTtl⟩
  · simp only [SessionRegistry.idleCandidates, Table.get?_mapValues]
    rcases rel_cases h.sessions.here with ⟨hnone, hnone'⟩ | ⟨record, record', hrec, hrec', hlike⟩
    · rw [hnone, hnone']
      exact .none
    · rw [hrec, hrec', Option.map_some, Option.map_some, isIdle_alike h start _ _ hlike]
      refine .some ?_
      split
      · exact ⟨hlike.handle, hlike.refCount, hlike.lastUsed, rfl, hlike.terminationNotice⟩
      · exact hlike
  · intro k hk
    simp only [SessionRegistry.idleCandidates, Table.get?_mapValues]
    rw [h.sessions.only k hk]
    rfl

/-- The candidates of a key are its session, if that is idle. -/
theorem candidates_of (r : SessionRegistry) (start : Instant)
    (hkeys : ∀ k record, r.sessions.get? k = some record → record.handle.key = k)
    (key : SessionKey) :
    (r.idleCandidates start).2.filter (fun handle => decide (handle.key = key))
      = ((r.sessions.get? key).toList.filter (r.isIdle start)).map fun record => record.handle := by
  rw [← Table.values_filter r.sessions (fun record => record.handle.key) hkeys key]
  simp only [SessionRegistry.idleCandidates, List.filter_map, List.filter_filter]
  refine congrArg _ (List.filter_congr fun record _ => ?_)
  exact Bool.and_comm _ _

/-- What `idle_candidates` returns of the key is what it returns where there is no
    other. -/
theorem candidates_alike (h : AlikeOn key F σ P G r r') (start : Instant)
    (hkeys : ∀ k record, r.sessions.get? k = some record → record.handle.key = k) :
    List.Forall₂ (SessionHandle.Like P)
      ((r.idleCandidates start).2.filter fun handle => decide (handle.key = key))
      (r'.idleCandidates start).2 := by
  -- The second table has handles of the key alone.
  have hkeys' : ∀ k record, r'.sessions.get? k = some record →
      record.handle.key = k ∧ k = key := by
    intro k record' hrec'
    by_cases hk : k = key
    · rw [hk] at hrec' ⊢
      rcases rel_cases h.sessions.here with ⟨-, hnone'⟩ | ⟨u, u', hrec, hget', hlike⟩
      · rw [hnone'] at hrec'
        exact absurd hrec' (by simp)
      · rw [hget', Option.some.injEq] at hrec'
        rw [← hrec', hlike.handle.key]
        exact ⟨hkeys key u hrec, rfl⟩
    · rw [h.sessions.only k hk] at hrec'
      exact absurd hrec' (by simp)
  have hall : (r'.idleCandidates start).2.filter (fun handle => decide (handle.key = key))
      = (r'.idleCandidates start).2 := by
    rw [List.filter_eq_self]
    intro handle hmem
    rcases List.mem_map.mp hmem with ⟨record, hrec, rfl⟩
    rcases (Table.mem_values_iff _ _).mp (List.mem_filter.mp hrec).1 with ⟨k, hget⟩
    rcases hkeys' k record hget with ⟨hkey, rfl⟩
    exact decide_eq_true hkey
  rw [← hall, candidates_of r start hkeys key,
    candidates_of r' start (fun k record hrec => (hkeys' k record hrec).1) key]
  rcases rel_cases h.sessions.here with ⟨hnone, hnone'⟩ | ⟨record, record', hrec, hrec', hlike⟩
  · rw [hnone, hnone']
    exact .nil
  · rw [hrec, hrec', Option.toList_some, Option.toList_some, List.filter_singleton,
      List.filter_singleton, isIdle_alike h start _ _ hlike]
    cases r.isIdle start record with
    | true => exact .cons hlike.handle .nil
    | false => exact .nil

theorem release_follows (h : AlikeOn key F σ P G r r') (hσ : Set.InjOn σ {id | F id = false})
    (now : Instant) (id : String) (pc pc₂ : ReleasePc) (hid : F id = false)
    (hpc : ∀ k, pc = .decrement k → k = key) (hsec : pc.section id now r = some (r₂, pc₂)) :
    ∃ r₂', pc.section (σ id) now r' = some (r₂', pc₂) ∧
      (∀ k, pc₂ = .decrement k → k = key) ∧ Follows key F σ P G G r r₂ r' r₂' [] := by
  cases pc with
  | take =>
      have hlookup := h.leases.lookup hσ id hid
      cases hlease : r.leases.get? id with
      | none =>
          rw [hlease] at hlookup
          simp only [ReleasePc.section, SessionRegistry.takeLease, hlease, Option.some.injEq,
            Prod.mk.injEq] at hsec
          rcases hsec with ⟨rfl, rfl⟩
          simp only [ReleasePc.section, SessionRegistry.takeLease, hlookup]
          exact ⟨_, rfl, by simp, follows_of_alike [] h rfl rfl rfl⟩
      | some lease =>
          rw [hlease] at hlookup
          simp only [ReleasePc.section, SessionRegistry.takeLease, hlease, Option.some.injEq,
            Prod.mk.injEq] at hsec
          rcases hsec with ⟨rfl, rfl⟩
          simp only [ReleasePc.section, SessionRegistry.takeLease, hlookup]
          refine ⟨_, rfl, ?_, follows_of_alike [] ⟨h.sessions, leases_erase h.leases hσ id hid,
            h.gates, h.idleTtl⟩ rfl rfl rfl⟩
          intro k hk
          rw [ReleasePc.decrement.injEq] at hk
          rw [← hk]
          exact (h.leases.keyed id lease hlease).mpr hid
  | decrement k =>
      rw [hpc k rfl] at hsec
      simp only [ReleasePc.section, Option.some.injEq, Prod.mk.injEq] at hsec
      rcases hsec with ⟨rfl, rfl⟩
      have hboth := release_alike h now
      rw [hpc k rfl]
      simp only [ReleasePc.section, hboth.2]
      exact ⟨_, rfl, by simp, follows_of_alike [] hboth.1 (release_rest r key now).1
        (release_rest r' key now).2 rfl⟩
  | returned result => exact absurd hsec (by simp [ReleasePc.section])

theorem forward_follows (h : AlikeOn key F σ P G r r') (hσ : Set.InjOn σ {id | F id = false})
    (call : CallId) (now : Instant) (id : String) (message : Json) (pc pc' pc₂ : ForwardPc)
    (events : List Event) (hid : F id = false) (hlike : pc.Like P key pc')
    (hsec : pc.section call id message now r = some (r₂, pc₂, events)) :
    ∃ r₂' pc₂' events', pc'.section call (σ id) message now r' = some (r₂', pc₂', events') ∧
      pc₂.Like P key pc₂' ∧ Follows key F σ P G G r r₂ r' r₂' events := by
  cases hlike with
  | lease =>
      have hlookup := h.leases.lookup hσ id hid
      cases hlease : r.leases.get? id with
      | none =>
          rw [hlease] at hlookup
          simp only [ForwardPc.section, SessionRegistry.leaseKey, hlease, Option.map_none,
            Option.some.injEq, Prod.mk.injEq] at hsec
          rcases hsec with ⟨rfl, rfl, rfl⟩
          simp only [ForwardPc.section, SessionRegistry.leaseKey, hlookup, Option.map_none]
          exact ⟨_, _, _, rfl, .returned _, follows_of_alike [] h rfl rfl rfl⟩
      | some lease =>
          rw [hlease] at hlookup
          -- A lease that is not another key's is the key's.
          have hkey : lease.key = key := (h.leases.keyed id lease hlease).mpr hid
          simp only [ForwardPc.section, SessionRegistry.leaseKey, hlease, Option.map_some, hkey,
            Option.some.injEq, Prod.mk.injEq] at hsec
          rcases hsec with ⟨rfl, rfl, rfl⟩
          simp only [ForwardPc.section, SessionRegistry.leaseKey, hlookup, Option.map_some, hkey]
          exact ⟨_, _, _, rfl, .session, follows_of_alike [] h rfl rfl rfl⟩
  | session =>
      rcases rel_cases h.sessions.here with ⟨hnone, hnone'⟩ | ⟨record, record', hrec, hrec', hlike⟩
      · simp only [ForwardPc.section, SessionRegistry.lookupRuntime, hnone, Option.some.injEq,
          Prod.mk.injEq] at hsec
        rcases hsec with ⟨rfl, rfl, rfl⟩
        simp only [ForwardPc.section, SessionRegistry.lookupRuntime, hnone']
        exact ⟨_, _, _, rfl, .returned _, follows_of_alike [] h rfl rfl rfl⟩
      · -- A session being terminated is refused with the same text on both sides.
        simp only [ForwardPc.section, SessionRegistry.lookupRuntime, hrec] at hsec
        simp only [ForwardPc.section, SessionRegistry.lookupRuntime, hrec', hlike.terminating,
          hlike.terminationNotice]
        cases hterm : record.terminating with
        | true =>
            simp only [hterm, if_true] at hsec ⊢
            cases hnotice : record.terminationNotice with
            | none =>
                simp only [hnotice, Option.some.injEq, Prod.mk.injEq] at hsec ⊢
                rcases hsec with ⟨rfl, rfl, rfl⟩
                exact ⟨_, _, _, ⟨rfl, rfl, rfl⟩, .returned _, follows_of_alike [] h rfl rfl rfl⟩
            | some notice =>
                simp only [hnotice, Option.some.injEq, Prod.mk.injEq] at hsec ⊢
                rcases hsec with ⟨rfl, rfl, rfl⟩
                exact ⟨_, _, _, ⟨rfl, rfl, rfl⟩, .returned _, follows_of_alike [] h rfl rfl rfl⟩
        | false =>
            simp only [hterm, Bool.false_eq_true, if_false, Option.some.injEq,
              Prod.mk.injEq] at hsec ⊢
            rcases hsec with ⟨rfl, rfl, rfl⟩
            have htouch : (record.touch now).Like P (record'.touch now) :=
              ⟨hlike.handle, hlike.refCount, rfl, hlike.terminating, hlike.terminationNotice⟩
            exact ⟨_, _, _, ⟨rfl, rfl, rfl⟩, .awaiting _ _ hlike.handle.runtime,
              follows_of_alike _ ⟨sessions_set h.sessions _ _ htouch, h.leases, h.gates,
                h.idleTtl⟩ rfl rfl rfl⟩
  | awaiting runtime runtime' hruntime => exact absurd hsec (by simp [ForwardPc.section])
  | touch response =>
      simp only [ForwardPc.section, Option.some.injEq, Prod.mk.injEq] at hsec
      rcases hsec with ⟨rfl, rfl, rfl⟩
      exact ⟨_, _, _, rfl, .returned _, follows_of_alike [] (touch_alike h now)
        (touch_rest r key now).1 (touch_rest r' key now).2 rfl⟩
  | returned result => exact absurd hsec (by simp [ForwardPc.section])

/-- A section of an acquire is one of the call, until it has its lease. -/
theorem section_of_acquire (call : CallId) (clientKind : Option ClientKind) (now : Instant)
    (pc pc₂ : AcquirePc) (events : List Event)
    (h : pc.section call key clientKind now r = some (r₂, pc₂, events)) :
    Frame.section call now r (.acquire key clientKind pc)
      = some (r₂, .acquire key clientKind pc₂, events) := by
  cases pc with
  | returned result => exact absurd h (by simp [AcquirePc.section])
  | _ => simp only [Frame.section, h, Option.map_some]

/-- A call of the key makes its section on both sides. -/
theorem frame_follows (h : AlikeOn key F σ P G r r') (hσ : Set.InjOn σ {id | F id = false})
    (hkeys : ∀ k record, r.sessions.get? k = some record → record.handle.key = k)
    (call : CallId) (now : Instant) (frame frame' frame₂ : Frame) (events : List Event)
    (hlike : frame.Like key F σ P G frame')
    (hsec : frame.section call now r = some (r₂, frame₂, events))
    (hnew : ∀ id runtime rest, events = .granted call ⟨id, key⟩ runtime :: rest →
      idsOn key rest = [] → F id = false ∧ σ id = leaseId r'.leaseSeq) :
    ∃ G₂ r₂' frame₂' events', frame'.section call now r' = some (r₂', frame₂', events') ∧
      frame₂.Like key F σ P G₂ frame₂' ∧ Follows key F σ P G G₂ r r₂ r' r₂' events := by
  cases hlike with
  | acquire clientKind pc pc' hpc =>
      rcases section_acquire call now r r₂ key clientKind pc frame₂ events hsec with
        ⟨lease, rfl, rfl, rfl, rfl⟩ | ⟨pc₂, hpcsec, rfl⟩
      · cases hpc with
        | granted id =>
            have hhandle : Option.Rel (SessionHandle.Like P) (r₂.sessionHandle key)
                (r'.sessionHandle key) := by
              unfold SessionRegistry.sessionHandle
              rcases rel_cases h.sessions.here with ⟨hnone, hnone'⟩ | ⟨u, u', hrec, hrec', hlike⟩
              · rw [hnone, hnone']
                exact .none
              · rw [hrec, hrec']
                exact .some hlike.handle
            refine ⟨G, _, _, _, rfl, .attached id _ _ hhandle, follows_of_alike _ h rfl rfl ?_⟩
            refine idsOn_of_quiet key _ fun event hmem => ?_
            rcases List.mem_map.mp hmem with ⟨handle, -, rfl⟩
            rfl
      · rcases acquire_follows h hσ call clientKind now pc pc' pc₂ events hpc hpcsec hnew with
          ⟨G₂, r₂', pc₂', events', hsec', hlike₂, hfollows⟩
        exact ⟨G₂, r₂', _, events', section_of_acquire call clientKind now pc' pc₂' events' hsec',
          .acquire clientKind pc₂ pc₂' hlike₂, hfollows⟩
  | attached id handle handle' hhandle => exact absurd hsec (by simp [Frame.section])
  | release id pc hid hpc =>
      simp only [Frame.section, Option.map_eq_some_iff, Prod.exists, Prod.mk.injEq] at hsec
      rcases hsec with ⟨q, pc₂, hpcsec, rfl, rfl, rfl⟩
      rcases release_follows h hσ now id pc pc₂ hid hpc hpcsec with ⟨r₂', hsec', hpc₂, hfollows⟩
      refine ⟨G, r₂', .release (σ id) pc₂, [], ?_, .release id pc₂ hid hpc₂, hfollows⟩
      simp only [Frame.section, hsec', Option.map_some]
  | remove pc =>
      cases pc with
      | session =>
          simp only [Frame.section, RemovePc.section, Option.map_some, Option.some.injEq,
            Prod.mk.injEq] at hsec
          rcases hsec with ⟨rfl, rfl, rfl⟩
          exact ⟨G, _, _, _, rfl, .remove .leases, follows_of_alike []
            ⟨sessions_erase h.sessions, h.leases, h.gates, h.idleTtl⟩ rfl rfl rfl⟩
      | leases =>
          simp only [Frame.section, RemovePc.section, Option.map_some, Option.some.injEq,
            Prod.mk.injEq] at hsec
          rcases hsec with ⟨rfl, rfl, rfl⟩
          exact ⟨G, _, _, _, rfl, .remove .returned, follows_of_alike []
            ⟨h.sessions, leases_retain h.leases, gates_drop h.gates, h.idleTtl⟩ rfl rfl rfl⟩
      | returned => exact absurd hsec (by simp [Frame.section, RemovePc.section])
  | forward kind id message pc pc' hid hpc =>
      simp only [Frame.section, Option.map_eq_some_iff, Prod.exists, Prod.mk.injEq] at hsec
      rcases hsec with ⟨q, pc₂, evs, hpcsec, rfl, rfl, rfl⟩
      rcases forward_follows h hσ call now id message pc pc' pc₂ evs hid hpc hpcsec with
        ⟨r₂', pc₂', events', hsec', hlike₂, hfollows⟩
      refine ⟨G, r₂', .forward kind (σ id) message pc₂', events', ?_,
        .forward kind id message pc₂ pc₂' hid hlike₂, hfollows⟩
      simp only [Frame.section, hsec', Option.map_some]
  | touch returned =>
      cases returned with
      | true => exact absurd hsec (by simp [Frame.section])
      | false =>
          simp only [Frame.section, Bool.false_eq_true, if_false, Option.some.injEq,
            Prod.mk.injEq] at hsec
          rcases hsec with ⟨rfl, rfl, rfl⟩
          exact ⟨G, _, _, _, rfl, .touch true, follows_of_alike [] (touch_alike h now)
            (touch_rest r key now).1 (touch_rest r' key now).2 rfl⟩
  | mark notice returned =>
      cases returned with
      | true => exact absurd hsec (by simp [Frame.section])
      | false =>
          simp only [Frame.section, Bool.false_eq_true, if_false, Option.some.injEq,
            Prod.mk.injEq] at hsec
          rcases hsec with ⟨rfl, rfl, rfl⟩
          refine ⟨G, _, _, _, rfl, .mark notice true, follows_of_alike _ (mark_alike h notice)
            (mark_rest r key notice).1 (mark_rest r' key notice).2 ?_⟩
          refine idsOn_of_quiet key _ fun event hmem => ?_
          rcases selected_of_markEvents r key event hmem with ⟨runtime, rfl⟩
          rfl
  | idle start =>
      simp only [Frame.section, Option.some.injEq, Prod.mk.injEq] at hsec
      rcases hsec with ⟨rfl, rfl, rfl⟩
      refine ⟨G, _, _, _, rfl, .candidates start _ _ (candidates_alike h start hkeys),
        follows_of_alike _ (idle_alike h start) rfl rfl ?_⟩
      refine idsOn_of_quiet key _ fun event hmem => ?_
      rcases List.mem_map.mp hmem with ⟨handle, -, rfl⟩
      rfl
  | candidates start handles handles' hhandles => exact absurd hsec (by simp [Frame.section])
  | increment evictor returned =>
      cases returned with
      | true => exact absurd hsec (by simp [Frame.section])
      | false =>
          simp only [Frame.section, Bool.false_eq_true, if_false, Option.some.injEq,
            Prod.mk.injEq] at hsec
          rcases hsec with ⟨rfl, rfl, rfl⟩
          refine ⟨G, _, _, _, rfl, .increment evictor true, ?_⟩
          cases evictor <;>
            exact follows_of_alike [] ⟨h.sessions, h.leases, h.gates, h.idleTtl⟩ rfl rfl rfl
  | crash returned =>
      cases returned with
      | true => exact absurd hsec (by simp [Frame.section])
      | false =>
          simp only [Frame.section, Bool.false_eq_true, if_false, Option.some.injEq,
            Prod.mk.injEq] at hsec
          rcases hsec with ⟨rfl, rfl, rfl⟩
          exact ⟨G, _, _, _, rfl, .crash true,
            follows_of_alike [] ⟨h.sessions, h.leases, h.gates, h.idleTtl⟩ rfl rfl rfl⟩

end Kept

/-! ### Calls of another key -/

section Left

variable {k : SessionKey}

theorem sessions_setOther {sessions sessions' : Table SessionKey SessionRecord}
    (h : SessionsLike key P sessions sessions') (hk : k ≠ key) (record : SessionRecord) :
    SessionsLike key P (sessions.set k record) sessions' :=
  sessions_other h _ (Table.get?_set_ne _ _ _ _ (Ne.symm hk))

theorem grant_passes (h : AlikeOn key F σ P G r r') (hk : k ≠ key) (call : CallId)
    (clientKind : Option ClientKind) (record : SessionRecord) (counters : RegistryCounters)
    (now : Instant) (runtime : RuntimeId) (rest : List Event) (hrest : idsOn key rest = [])
    (hid : F (leaseId r.leaseSeq) = true) :
    Bypasses key F σ P G r (r.grantLease k clientKind record counters now).1 r'
      (.granted call ⟨leaseId r.leaseSeq, k⟩ runtime :: rest) where
  alike := ⟨sessions_setOther h.sessions hk _, leases_grantOther h.leases _ hid _ hk, h.gates,
    h.idleTtl⟩
  strays := fun _ hg => hg
  ids := by
    rw [idsOn_there key call ⟨_, k⟩ runtime rest hk]
    exact hrest

theorem acquire_passes (h : AlikeOn key F σ P G r r') (hk : k ≠ key) (call : CallId)
    (clientKind : Option ClientKind) (now : Instant) (pc pc₂ : AcquirePc) (events : List Event)
    (hpc : pc.Elsewhere key G r.nextGate)
    (hsec : pc.section call k clientKind now r = some (r₂, pc₂, events))
    (hnew : ∀ lease runtime, .granted call lease runtime ∈ events → lease.key ≠ key →
      F lease.id = true) :
    pc₂.Elsewhere key G r₂.nextGate ∧ Bypasses key F σ P G r r₂ r' events := by
  cases pc with
  | count =>
      simp only [AcquirePc.section, Option.some.injEq, Prod.mk.injEq] at hsec
      rcases hsec with ⟨rfl, rfl, rfl⟩
      exact ⟨trivial, bypasses_of_alike [] ⟨h.sessions, h.leases, h.gates, h.idleTtl⟩ rfl rfl⟩
  | gate =>
      simp only [AcquirePc.section, Option.some.injEq, Prod.mk.injEq] at hsec
      rcases hsec with ⟨rfl, rfl, rfl⟩
      cases hget : r.spawnGates.get? k with
      -- A gate made for another key is paired with none.
      | none =>
          simp only [SessionRegistry.gateEntry, hget]
          exact ⟨stray_new h.gates.pairing,
            ⟨h.sessions, h.leases, gates_newOther h.gates k hk, h.idleTtl⟩, stray_left, rfl⟩
      | some g =>
          simp only [SessionRegistry.gateEntry, hget]
          exact ⟨h.gates.others k g hk hget, bypasses_of_alike [] h rfl rfl⟩
  | lookup g =>
      cases hrec : r.sessions.get? k with
      | none =>
          simp only [AcquirePc.section, hrec, Option.some.injEq, Prod.mk.injEq] at hsec
          rcases hsec with ⟨rfl, rfl, rfl⟩
          exact ⟨hpc, bypasses_of_alike [] h rfl rfl⟩
      | some record =>
          simp only [AcquirePc.section, hrec, Option.some.injEq, Prod.mk.injEq] at hsec
          rcases hsec with ⟨rfl, rfl, rfl⟩
          exact ⟨hk, grant_passes h hk call clientKind record _ now _ [] rfl
            (hnew _ _ List.mem_cons_self hk)⟩
  | enter g =>
      cases hstarted : (r.gateHeap g).started with
      | true =>
          simp only [AcquirePc.section, SessionRegistry.enterGate, hstarted, if_true,
            Option.some.injEq, Prod.mk.injEq] at hsec
          rcases hsec with ⟨rfl, rfl, rfl⟩
          exact ⟨hpc, bypasses_of_alike [] h rfl rfl⟩
      | false =>
          simp only [AcquirePc.section, SessionRegistry.enterGate, hstarted, if_false,
            Bool.false_eq_true, Option.some.injEq, Prod.mk.injEq] at hsec
          rcases hsec with ⟨rfl, rfl, rfl⟩
          exact ⟨hpc, bypasses_of_alike _
            ⟨h.sessions, h.leases, gates_updateOther h.gates g hpc _, h.idleTtl⟩ rfl rfl⟩
  | spawning g => exact absurd hsec (by simp [AcquirePc.section])
  | leave g result =>
      -- Leaving another key's gate is not seen on this one.
      have hleft : Bypasses key F σ P G r (r.leaveGate g) r' [] := bypasses_of_alike []
        ⟨h.sessions, h.leases, gates_updateOther h.gates g hpc _, h.idleTtl⟩ rfl rfl
      cases result with
      | ok handle =>
          simp only [AcquirePc.section, Option.some.injEq, Prod.mk.injEq] at hsec
          rcases hsec with ⟨rfl, rfl, rfl⟩
          exact ⟨trivial, hleft⟩
      | error error =>
          simp only [AcquirePc.section, Option.some.injEq, Prod.mk.injEq] at hsec
          rcases hsec with ⟨rfl, rfl, rfl⟩
          exact ⟨trivial, hleft⟩
  | publish handle =>
      simp only [AcquirePc.section, Option.some.injEq, Prod.mk.injEq] at hsec
      rcases hsec with ⟨rfl, rfl, rfl⟩
      refine ⟨hk, grant_passes h hk call clientKind _ _ now _ _ ?_
        (hnew _ _ List.mem_cons_self hk)⟩
      split <;> rfl
  | dropGate error =>
      simp only [AcquirePc.section, Option.some.injEq, Prod.mk.injEq] at hsec
      rcases hsec with ⟨rfl, rfl, rfl⟩
      exact ⟨trivial, bypasses_of_alike []
        ⟨h.sessions, h.leases, gates_dropOther h.gates k hk, h.idleTtl⟩ rfl rfl⟩
  | waiting g epoch =>
      simp only [AcquirePc.section] at hsec
      split at hsec
      · simp only [Option.some.injEq, Prod.mk.injEq] at hsec
        rcases hsec with ⟨rfl, rfl, rfl⟩
        exact ⟨hpc, bypasses_of_alike [] h rfl rfl⟩
      · exact absurd hsec (by simp)
  | returned result => exact absurd hsec (by simp [AcquirePc.section])

/-- The record of another key is written back. -/
theorem touch_other (h : AlikeOn key F σ P G r r') (hk : k ≠ key) (now : Instant) :
    AlikeOn key F σ P G (r.touch k now) r' := by
  unfold SessionRegistry.touch
  split
  · exact ⟨sessions_setOther h.sessions hk _, h.leases, h.gates, h.idleTtl⟩
  · exact h

theorem mark_other (h : AlikeOn key F σ P G r r') (hk : k ≠ key)
    (notice : Option StreamErrorPayload) :
    AlikeOn key F σ P G (r.markTerminatingWithNotice k notice) r' := by
  unfold SessionRegistry.markTerminatingWithNotice
  split
  · exact ⟨sessions_setOther h.sessions hk _, h.leases, h.gates, h.idleTtl⟩
  · exact h

theorem release_other (h : AlikeOn key F σ P G r r') (hk : k ≠ key) (now : Instant) :
    AlikeOn key F σ P G (r.releaseSession k now).1 r' := by
  unfold SessionRegistry.releaseSession
  split
  · exact ⟨sessions_setOther h.sessions hk _, h.leases, h.gates, h.idleTtl⟩
  · exact h

/-- A lease found under an id of another key is on another key. -/
theorem elsewhere_of_lease (h : AlikeOn key F σ P G r r') (id : String) (hid : F id = true)
    (lease : LeaseRecord) (hlease : r.leases.get? id = some lease) : lease.key ≠ key := by
  intro hkey
  rw [(h.leases.keyed id lease hlease).mp hkey] at hid
  exact absurd hid (by simp)

theorem release_passes (h : AlikeOn key F σ P G r r') (now : Instant) (id : String)
    (pc pc₂ : ReleasePc) (hid : F id = true) (hpc : pc.Elsewhere key)
    (hsec : pc.section id now r = some (r₂, pc₂)) :
    pc₂.Elsewhere key ∧ Bypasses key F σ P G r r₂ r' [] := by
  cases pc with
  | take =>
      cases hlease : r.leases.get? id with
      | none =>
          simp only [ReleasePc.section, SessionRegistry.takeLease, hlease, Option.some.injEq,
            Prod.mk.injEq] at hsec
          rcases hsec with ⟨rfl, rfl⟩
          exact ⟨trivial, bypasses_of_alike [] h rfl rfl⟩
      | some lease =>
          simp only [ReleasePc.section, SessionRegistry.takeLease, hlease, Option.some.injEq,
            Prod.mk.injEq] at hsec
          rcases hsec with ⟨rfl, rfl⟩
          exact ⟨elsewhere_of_lease h id hid lease hlease, bypasses_of_alike []
            ⟨h.sessions, leases_eraseOther h.leases id hid, h.gates, h.idleTtl⟩ rfl rfl⟩
  | decrement j =>
      simp only [ReleasePc.section, Option.some.injEq, Prod.mk.injEq] at hsec
      rcases hsec with ⟨rfl, rfl⟩
      exact ⟨trivial, bypasses_of_alike [] (release_other h hpc now) (release_rest r j now).1 rfl⟩
  | returned result => exact absurd hsec (by simp [ReleasePc.section])

/-- A session that is found is touched. -/
theorem found_of_lookup (r q : SessionRegistry) (j : SessionKey) (now : Instant)
    (handle : SessionHandle) (h : r.lookupRuntime j now = .found q handle) :
    ∃ record, { r with sessions := r.sessions.set j record } = q := by
  unfold SessionRegistry.lookupRuntime at h
  split at h
  · exact absurd h (by simp)
  · split at h
    · split at h <;> exact absurd h (by simp)
    · rw [SessionRegistry.RuntimeLookup.found.injEq] at h
      exact ⟨_, h.1⟩

theorem forward_passes (h : AlikeOn key F σ P G r r') (call : CallId) (now : Instant) (id : String)
    (message : Json) (pc pc₂ : ForwardPc) (events : List Event) (hid : F id = true)
    (hpc : pc.Elsewhere key)
    (hsec : pc.section call id message now r = some (r₂, pc₂, events)) :
    pc₂.Elsewhere key ∧ Bypasses key F σ P G r r₂ r' events := by
  cases pc with
  | lease =>
      cases hlease : r.leases.get? id with
      | none =>
          simp only [ForwardPc.section, SessionRegistry.leaseKey, hlease, Option.map_none,
            Option.some.injEq, Prod.mk.injEq] at hsec
          rcases hsec with ⟨rfl, rfl, rfl⟩
          exact ⟨trivial, bypasses_of_alike [] h rfl rfl⟩
      | some lease =>
          simp only [ForwardPc.section, SessionRegistry.leaseKey, hlease, Option.map_some,
            Option.some.injEq, Prod.mk.injEq] at hsec
          rcases hsec with ⟨rfl, rfl, rfl⟩
          exact ⟨elsewhere_of_lease h id hid lease hlease, bypasses_of_alike [] h rfl rfl⟩
  | session j =>
      simp only [ForwardPc.section] at hsec
      cases hfound : r.lookupRuntime j now with
      | missing =>
          simp only [hfound, Option.some.injEq, Prod.mk.injEq] at hsec
          rcases hsec with ⟨rfl, rfl, rfl⟩
          exact ⟨trivial, bypasses_of_alike [] h rfl rfl⟩
      | rejected error =>
          simp only [hfound, Option.some.injEq, Prod.mk.injEq] at hsec
          rcases hsec with ⟨rfl, rfl, rfl⟩
          exact ⟨trivial, bypasses_of_alike [] h rfl rfl⟩
      | found q handle =>
          simp only [hfound, Option.some.injEq, Prod.mk.injEq] at hsec
          rcases hsec with ⟨rfl, rfl, rfl⟩
          rcases found_of_lookup r q j now handle hfound with ⟨record, rfl⟩
          exact ⟨hpc, bypasses_of_alike _
            ⟨sessions_setOther h.sessions hpc _, h.leases, h.gates, h.idleTtl⟩ rfl rfl⟩
  | awaiting j runtime => exact absurd hsec (by simp [ForwardPc.section])
  | touch j response =>
      simp only [ForwardPc.section, Option.some.injEq, Prod.mk.injEq] at hsec
      rcases hsec with ⟨rfl, rfl, rfl⟩
      exact ⟨trivial, bypasses_of_alike [] (touch_other h hpc now) (touch_rest r j now).1 rfl⟩
  | returned result => exact absurd hsec (by simp [ForwardPc.section])

/-- A section of a call of another key is not seen. -/
theorem frame_passes (h : AlikeOn key F σ P G r r') (call : CallId) (now : Instant)
    (frame frame₂ : Frame) (events : List Event) (hother : frame.Elsewhere key F G r.nextGate)
    (hsec : frame.section call now r = some (r₂, frame₂, events))
    (hnew : ∀ lease runtime, .granted call lease runtime ∈ events → lease.key ≠ key →
      F lease.id = true) :
    frame₂.Elsewhere key F G r₂.nextGate ∧ Bypasses key F σ P G r r₂ r' events := by
  cases frame with
  | acquire j clientKind pc =>
      rcases section_acquire call now r r₂ j clientKind pc frame₂ events hsec with
        ⟨lease, rfl, rfl, rfl, rfl⟩ | ⟨pc₂, hpcsec, rfl⟩
      · refine ⟨hother.2, bypasses_of_alike _ h rfl ?_⟩
        refine idsOn_of_quiet key _ fun event hmem => ?_
        rcases List.mem_map.mp hmem with ⟨handle, -, rfl⟩
        rfl
      · rcases acquire_passes h hother.1 call clientKind now pc pc₂ events hother.2 hpcsec hnew with
          ⟨hpc₂, hpasses⟩
        exact ⟨⟨hother.1, hpc₂⟩, hpasses⟩
  | attached lease handle => exact absurd hsec (by simp [Frame.section])
  | release id pc =>
      simp only [Frame.section, Option.map_eq_some_iff, Prod.exists, Prod.mk.injEq] at hsec
      rcases hsec with ⟨q, pc₂, hpcsec, rfl, rfl, rfl⟩
      rcases release_passes h now id pc pc₂ hother.1 hother.2 hpcsec with ⟨hpc₂, hpasses⟩
      exact ⟨⟨hother.1, hpc₂⟩, hpasses⟩
  | remove j pc =>
      cases pc with
      | session =>
          simp only [Frame.section, RemovePc.section, Option.map_some, Option.some.injEq,
            Prod.mk.injEq] at hsec
          rcases hsec with ⟨rfl, rfl, rfl⟩
          exact ⟨hother, bypasses_of_alike [] ⟨sessions_other h.sessions _
            (Table.get?_erase_ne _ _ _ (Ne.symm hother)), h.leases, h.gates, h.idleTtl⟩ rfl rfl⟩
      | leases =>
          simp only [Frame.section, RemovePc.section, Option.map_some, Option.some.injEq,
            Prod.mk.injEq] at hsec
          rcases hsec with ⟨rfl, rfl, rfl⟩
          exact ⟨hother, bypasses_of_alike [] ⟨h.sessions, leases_retainOther h.leases j hother,
            gates_dropOther h.gates j hother, h.idleTtl⟩ rfl rfl⟩
      | returned => exact absurd hsec (by simp [Frame.section, RemovePc.section])
  | forward kind id message pc =>
      simp only [Frame.section, Option.map_eq_some_iff, Prod.exists, Prod.mk.injEq] at hsec
      rcases hsec with ⟨q, pc₂, evs, hpcsec, rfl, rfl, rfl⟩
      rcases forward_passes h call now id message pc pc₂ evs hother.1 hother.2 hpcsec with
        ⟨hpc₂, hpasses⟩
      exact ⟨⟨hother.1, hpc₂⟩, hpasses⟩
  | touch j returned =>
      cases returned with
      | true => exact absurd hsec (by simp [Frame.section])
      | false =>
          simp only [Frame.section, Bool.false_eq_true, if_false, Option.some.injEq,
            Prod.mk.injEq] at hsec
          rcases hsec with ⟨rfl, rfl, rfl⟩
          exact ⟨hother, bypasses_of_alike [] (touch_other h hother now) (touch_rest r j now).1 rfl⟩
  | mark j notice returned =>
      cases returned with
      | true => exact absurd hsec (by simp [Frame.section])
      | false =>
          simp only [Frame.section, Bool.false_eq_true, if_false, Option.some.injEq,
            Prod.mk.injEq] at hsec
          rcases hsec with ⟨rfl, rfl, rfl⟩
          refine ⟨hother, bypasses_of_alike _ (mark_other h hother notice)
            (mark_rest r j notice).1 ?_⟩
          refine idsOn_of_quiet key _ fun event hmem => ?_
          rcases selected_of_markEvents r j event hmem with ⟨runtime, rfl⟩
          rfl
  -- A call that looks at every key is no call of another key.
  | idle start result => exact absurd hother id
  | increment evictor returned => exact absurd hother id
  | crash returned => exact absurd hother id

end Left

end Lspee
