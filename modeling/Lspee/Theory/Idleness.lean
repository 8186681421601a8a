import Lspee.Core.Serial

/-!
# Idle Sessions

`idle_candidates` looks at three fields of a record: its count, its mark and
its time of last use. What it should find is a matter of history: whether a
lease on the session is still out, whether the session was marked after it was
last acquired, and when it was last used.

The history is what the callers saw. `openLeases` reads off it the leases that
are out: each one granted, less those released and those whose session was
removed. Lease ids repeat once the counter has wrapped around, so a release
ends the lease granted last under its id.

`Agrees` says that every record holds what the history gives for its key. The
guard of the decrement never acts: a lease that can be released is counted.

## Main definitions

* `openLeases`, `leasedKey`: The leases that are out, and the key of one.
* `markedSince`, `lastActive`: Marks and uses of the session under a key.
* `Idle`: What `idle_candidates` should find.
* `Agrees`: The records hold what the history gives.

## Theorems

* `agrees_init`, `agrees_step`, `agrees_run`: The invariant, and that every
  operation returns.
* `isIdle_iff`: The test of a record is the test of the history.
* `idleCandidates_exact`: What `idle_candidates` returns and marks.
-/

namespace Lspee

open Transition

namespace Serial

/-! ### Reading the history -/

/-- The leases that are out, the one granted last first. -/
def openLeases : List Occurrence → List Lease
  | [] => []
  | .acquired lease _ :: history => lease :: openLeases history
  | .released id _ :: history =>
    (openLeases history).eraseP (fun lease => decide (lease.id = id))
  | .removed key :: history =>
    (openLeases history).filter (fun lease => decide (lease.key ≠ key))
  | _ :: history => openLeases history

/-- How many leases are out on a key. -/
def openOn (key : SessionKey) (history : List Occurrence) : Nat :=
  (openLeases history).countP (fun lease => decide (lease.key = key))

/-- The key of the lease that is out under an id. -/
def leasedKey (id : String) (history : List Occurrence) : Option SessionKey :=
  ((openLeases history).find? (fun lease => decide (lease.id = id))).map (fun lease => lease.key)

/-- The session under the key has been marked since it was last acquired. -/
def markedSince (key : SessionKey) : List Occurrence → Bool
  | [] => false
  | .acquired lease _ :: history => if lease.key = key then false else markedSince key history
  | .marked key' :: history => if key' = key then true else markedSince key history
  | .collected handles :: history =>
    if ∃ handle ∈ handles, handle.key = key then true else markedSince key history
  | _ :: history => markedSince key history

/-- When the session under the key was last acquired, released, or forwarded a
    message. -/
def lastActive (key : SessionKey) : List Occurrence → Option Instant
  | [] => none
  | .acquired lease time :: history =>
    if lease.key = key then some time else lastActive key history
  | .released id time :: history =>
    if leasedKey id history = some key then some time else lastActive key history
  | .forwarded id time :: history =>
    if leasedKey id history = some key then some time else lastActive key history
  | _ :: history => lastActive key history

/-- No lease on the key is out, the session has not been marked since it was
    last acquired, and it was last active long enough ago. -/
structure Idle (idleTtl : Duration) (s : Serial) (key : SessionKey) : Prop where
  unused : ∀ lease ∈ openLeases s.history, lease.key ≠ key
  unmarked : markedSince key s.history = false
  quiet : ∃ time, lastActive key s.history = some time ∧ time + idleTtl ≤ s.now

/-! ### The leases that are out -/

theorem countP_eraseP (leases : List Lease) (p q : Lease → Bool) (lease : Lease)
    (h : leases.find? p = some lease) :
    leases.countP q = (leases.eraseP p).countP q + (if q lease then 1 else 0) := by
  induction leases with
  | nil => exact absurd h (by simp only [List.find?_nil, reduceCtorEq, not_false_eq_true])
  | cons other leases ih =>
      rw [List.find?_cons] at h
      cases hp : p other with
      | true =>
          rw [hp] at h
          simp only [Option.some.injEq] at h
          rw [List.eraseP_cons_of_pos hp, List.countP_cons, h]
      | false =>
          rw [hp] at h
          have hrest := ih h
          rw [List.eraseP_cons_of_neg (by simp only [hp, Bool.false_eq_true, not_false_eq_true]),
            List.countP_cons, List.countP_cons]
          omega

theorem find?_eraseP_of_ne (leases : List Lease) (id id' : String) (h : id' ≠ id) :
    (leases.eraseP (fun lease => decide (lease.id = id))).find?
      (fun lease => decide (lease.id = id')) =
    leases.find? (fun lease => decide (lease.id = id')) := by
  induction leases with
  | nil => rfl
  | cons lease leases ih =>
      by_cases hid : lease.id = id
      · have hne : ¬lease.id = id' := fun hid' => h (hid'.symm.trans hid)
        rw [List.eraseP_cons_of_pos (by simp only [hid, decide_true]),
          List.find?_cons_of_neg (by simp only [hne, decide_false, Bool.false_eq_true,
            not_false_eq_true])]
      · rw [List.eraseP_cons_of_neg (by simp only [hid, decide_false, Bool.false_eq_true,
          not_false_eq_true]), List.find?_cons, List.find?_cons, ih]

theorem find?_filter_of_pos (leases : List Lease) (p q : Lease → Bool) (lease : Lease)
    (h : leases.find? p = some lease) (hq : q lease = true) :
    (leases.filter q).find? p = some lease := by
  induction leases with
  | nil => exact absurd h (by simp only [List.find?_nil, reduceCtorEq, not_false_eq_true])
  | cons other leases ih =>
      rw [List.find?_cons] at h
      cases hp : p other with
      | true =>
          rw [hp] at h
          simp only [Option.some.injEq] at h
          rw [← h] at hq
          rw [List.filter_cons_of_pos hq, List.find?_cons_of_pos hp, h]
      | false =>
          rw [hp] at h
          have hneg : ¬p other = true := by simp only [hp, Bool.false_eq_true, not_false_eq_true]
          by_cases hqo : q other = true
          · rw [List.filter_cons_of_pos hqo, List.find?_cons_of_neg hneg, ih h]
          · rw [List.filter_cons_of_neg hqo, ih h]

theorem openOn_acquired (key : SessionKey) (lease : Lease) (time : Instant)
    (history : List Occurrence) :
    openOn key (.acquired lease time :: history) =
      openOn key history + (if lease.key = key then 1 else 0) := by
  unfold openOn
  rw [openLeases, List.countP_cons]
  simp only [decide_eq_true_eq]

/-- A release takes one lease off the key it was on. -/
theorem openOn_released (key key' : SessionKey) (id : String) (time : Instant)
    (history : List Occurrence) (h : leasedKey id history = some key') :
    openOn key history =
      openOn key (.released id time :: history) + (if key' = key then 1 else 0) := by
  rcases Option.map_eq_some_iff.mp h with ⟨lease, hfind, hkey⟩
  have hcount := countP_eraseP (openLeases history) _ (fun lease => decide (lease.key = key))
    lease hfind
  simp only [hkey, decide_eq_true_eq] at hcount
  exact hcount

/-- A removal ends the leases on its key and no others. -/
theorem openOn_removed (key key' : SessionKey) (history : List Occurrence) :
    openOn key (.removed key' :: history) = if key = key' then 0 else openOn key history := by
  unfold openOn
  rw [openLeases]
  by_cases h : key = key'
  · rw [if_pos h, List.countP_eq_zero]
    intro lease hlease
    rw [List.mem_filter] at hlease
    have hne := of_decide_eq_true hlease.2
    rw [← h] at hne
    simp only [hne, decide_false, Bool.false_eq_true, not_false_eq_true]
  · rw [if_neg h, List.countP_filter]
    refine List.countP_congr fun lease _ => ?_
    simp only [Bool.and_eq_true, decide_eq_true_eq]
    exact ⟨fun hand => hand.1, fun heq => ⟨heq, fun hne => h (heq.symm.trans hne)⟩⟩

theorem openOn_eq_zero (key : SessionKey) (history : List Occurrence) :
    openOn key history = 0 ↔ ∀ lease ∈ openLeases history, lease.key ≠ key := by
  unfold openOn
  rw [List.countP_eq_zero]
  simp only [decide_eq_true_eq, ne_eq]

theorem leasedKey_acquired (id : String) (lease : Lease) (time : Instant)
    (history : List Occurrence) :
    leasedKey id (.acquired lease time :: history) =
      if lease.id = id then some lease.key else leasedKey id history := by
  unfold leasedKey
  rw [openLeases, List.find?_cons]
  by_cases h : lease.id = id
  · simp only [h, decide_true, Option.map_some, if_true]
  · simp only [h, decide_false, if_false]

theorem leasedKey_released (id id' : String) (time : Instant) (history : List Occurrence)
    (h : id' ≠ id) : leasedKey id' (.released id time :: history) = leasedKey id' history := by
  unfold leasedKey
  rw [openLeases, find?_eraseP_of_ne _ id id' h]

theorem leasedKey_removed (id : String) (key key' : SessionKey) (history : List Occurrence)
    (h : leasedKey id history = some key') (hne : key' ≠ key) :
    leasedKey id (.removed key :: history) = some key' := by
  rcases Option.map_eq_some_iff.mp h with ⟨lease, hfind, hkey⟩
  unfold leasedKey
  rw [openLeases, find?_filter_of_pos _ _ _ lease hfind (by rw [hkey]; exact decide_eq_true hne),
    Option.map_some, hkey]

/-! ### The invariant -/

/-- The record under a key, or its absence, is what the history gives. -/
def Matches (history : List Occurrence) (now : Instant) (key : SessionKey) :
    Option SessionRecord → Prop
  | none => openOn key history = 0
  | some record =>
    record.handle.key = key ∧ record.refCount = openOn key history ∧
    record.terminating = markedSince key history ∧
    lastActive key history = some record.lastUsed ∧ record.lastUsed ≤ now

/-- The records hold what the history gives, every lease recorded is one that
    is out, and no gate is taken. -/
structure Agrees (idleTtl : Duration) (s : Serial) : Prop where
  ttl : s.reg.idleTtl = idleTtl
  gates : ∀ g, (s.reg.gateHeap g).started = false
  sessions : ∀ key, Matches s.history s.now key (s.reg.sessions.get? key)
  leases : ∀ id lease, s.reg.leases.get? id = some lease →
    leasedKey id s.history = some lease.key

theorem agrees_init (idleTtl : Duration) : Agrees idleTtl (init idleTtl) where
  ttl := rfl
  gates := fun _ => rfl
  sessions := fun key => by
    simp only [init, SessionRegistry.withIdleTtl, Table.get?_empty]
    rfl
  leases := fun id lease h => by
    simp only [init, SessionRegistry.withIdleTtl, Table.get?_empty, reduceCtorEq] at h

/-- What happens elsewhere, and time, leave a record as the history gives
    it. -/
theorem matches_congr (history history' : List Occurrence) (now now' : Instant)
    (key : SessionKey) (record : Option SessionRecord)
    (hopen : openOn key history' = openOn key history)
    (hmarked : markedSince key history' = markedSince key history)
    (hactive : lastActive key history' = lastActive key history) (hnow : now ≤ now')
    (h : Matches history now key record) : Matches history' now' key record := by
  cases record with
  | none =>
      unfold Matches at h ⊢
      rw [hopen, h]
  | some record =>
      rcases h with ⟨hkey, hcount, hmark, hlast, hpast⟩
      refine ⟨hkey, ?_, ?_, ?_, ?_⟩
      · rw [hopen, hcount]
      · rw [hmarked, hmark]
      · rw [hactive, hlast]
      · exact le_trans hpast hnow

theorem agrees_wait (idleTtl : Duration) (s : Serial) (h : Agrees idleTtl s) (span : Duration) :
    Agrees idleTtl { s with now := s.now + span } where
  ttl := h.ttl
  gates := h.gates
  sessions := fun key =>
    matches_congr s.history s.history s.now (s.now + span) key _ rfl rfl rfl
      (Nat.le_add_right _ _) (h.sessions key)
  leases := h.leases

/-- A grant, on a record that is the one under the key or new. -/
theorem agrees_grant (idleTtl : Duration) (s : Serial) (h : Agrees idleTtl s)
    (r : SessionRegistry) (key : SessionKey) (clientKind : Option ClientKind)
    (record : SessionRecord) (counters : RegistryCounters) (now : Instant)
    (nextRuntime : RuntimeId) (httl : r.idleTtl = s.reg.idleTtl)
    (hgates : ∀ g, (r.gateHeap g).started = false) (hsessions : r.sessions = s.reg.sessions)
    (hleases : r.leases = s.reg.leases) (hkey : record.handle.key = key)
    (hcount : record.refCount = openOn key s.history) (hnow : s.now ≤ now) :
    Agrees idleTtl
      { reg := (r.grantLease key clientKind record counters now).1
        now := now
        nextRuntime := nextRuntime
        history :=
          .acquired (r.grantLease key clientKind record counters now).2 now :: s.history } := by
  unfold SessionRegistry.grantLease
  refine ⟨httl.trans h.ttl, hgates, fun k => ?_, fun id lease hlease => ?_⟩
  · simp only [Table.get?_set, hsessions]
    by_cases hk : k = key
    · rw [if_pos hk, hk]
      refine ⟨hkey, ?_, ?_, ?_, le_refl now⟩
      · rw [openOn_acquired, if_pos rfl, ← hcount]
        rfl
      · simp only [markedSince, if_true]
        rfl
      · simp only [lastActive, if_true]
        rfl
    · rw [if_neg hk]
      have hne : ¬key = k := fun hkk => hk hkk.symm
      refine matches_congr s.history _ s.now now k _ ?_ ?_ ?_ hnow (h.sessions k)
      · rw [openOn_acquired, if_neg hne, Nat.add_zero]
      · simp only [markedSince, if_neg hne]
      · simp only [lastActive, if_neg hne]
  · -- The lease of the grant is the one the history ends in; the others are older.
    simp only [Table.get?_set, hleases] at hlease
    rw [leasedKey_acquired]
    by_cases hid : id = leaseId r.leaseSeq
    · rw [if_pos hid, Option.some.injEq] at hlease
      rw [if_pos hid.symm, ← hlease]
    · rw [if_neg hid] at hlease
      rw [if_neg (fun hid' => hid hid'.symm)]
      exact h.leases id lease hlease

/-- Registering a gate leaves no gate taken. -/
theorem gateEntry_gates (r : SessionRegistry) (key : SessionKey)
    (h : ∀ g, (r.gateHeap g).started = false) (g : GateId) :
    ((r.gateEntry key).1.gateHeap g).started = false := by
  unfold SessionRegistry.gateEntry
  cases r.spawnGates.get? key with
  | some g' => exact h g
  | none =>
      simp only []
      by_cases hg : g = r.nextGate
      · rw [hg, Function.update_self]
        rfl
      · rw [Function.update_of_ne hg]
        exact h g

theorem gateEntry_rest (r : SessionRegistry) (key : SessionKey) :
    (r.gateEntry key).1.sessions = r.sessions ∧ (r.gateEntry key).1.leases = r.leases ∧
      (r.gateEntry key).1.idleTtl = r.idleTtl := by
  unfold SessionRegistry.gateEntry
  cases r.spawnGates.get? key with
  | some g => exact ⟨rfl, rfl, rfl⟩
  | none => exact ⟨rfl, rfl, rfl⟩

/-- A gate that is not taken is entered, and once it is left no gate is
    taken. -/
theorem enterGate_leaveGate (r : SessionRegistry) (g : GateId)
    (h : ∀ g', (r.gateHeap g').started = false) :
    ∃ r', r.enterGate g = (r', none) ∧ (r'.leaveGate g).sessions = r.sessions ∧
      (r'.leaveGate g).leases = r.leases ∧ (r'.leaveGate g).idleTtl = r.idleTtl ∧
      ∀ g', ((r'.leaveGate g).gateHeap g').started = false := by
  unfold SessionRegistry.enterGate
  rw [if_neg (by simp only [h, Bool.false_eq_true, not_false_eq_true])]
  refine ⟨_, rfl, rfl, rfl, rfl, fun g' => ?_⟩
  unfold SessionRegistry.leaveGate
  simp only []
  by_cases hg : g' = g
  · rw [hg, Function.update_self]
  · rw [Function.update_of_ne hg, Function.update_of_ne hg]
    exact h g'

theorem agrees_acquire (idleTtl : Duration) (s : Serial) (h : Agrees idleTtl s)
    (key : SessionKey) (clientKind : Option ClientKind) (span : Duration)
    (result : Except String Json) :
    ∃ s', s.acquireOrSpawn key clientKind span result = some s' ∧ Agrees idleTtl s' := by
  have hgates := gateEntry_gates s.reg.countAttach key h.gates
  rcases gateEntry_rest s.reg.countAttach key with ⟨hsessions, hleases, httl⟩
  unfold acquireOrSpawn
  simp only []
  generalize s.reg.countAttach.gateEntry key = entered at hgates hsessions hleases httl ⊢
  have hmatch : Matches s.history s.now key (entered.1.sessions.get? key) := by
    rw [hsessions]
    exact h.sessions key
  cases hget : entered.1.sessions.get? key with
  | some record =>
      rw [hget] at hmatch
      exact ⟨_, rfl, agrees_grant idleTtl s h _ key clientKind record _ s.now s.nextRuntime httl
        hgates hsessions hleases hmatch.1 hmatch.2.1 (le_refl _)⟩
  | none =>
      rw [hget] at hmatch
      rcases enterGate_leaveGate entered.1 entered.2 hgates with
        ⟨r, henter, hrsessions, hrleases, hrttl, hrgates⟩
      simp only [henter]
      cases result with
      | ok initializeResult =>
          -- There is still no session when the spawned one is published.
          have hfresh : (r.leaveGate entered.2).sessions.get? key = none := by
            rw [hrsessions, hget]
          refine ⟨_, rfl, agrees_grant idleTtl s h _ key clientKind _ _ (s.now + span)
            (s.nextRuntime + 1) (hrttl.trans httl) hrgates (hrsessions.trans hsessions)
            (hrleases.trans hleases) ?_ ?_ (Nat.le_add_right _ _)⟩
          · simp only [SessionRegistry.publishRecord, hfresh]
            rfl
          · simp only [SessionRegistry.publishRecord, hfresh]
            exact hmatch.symm
      | error error =>
          have hdrop : ∀ k, ((r.leaveGate entered.2).dropGate key).sessions.get? k =
              s.reg.sessions.get? k := fun k => by
            rw [show ((r.leaveGate entered.2).dropGate key).sessions = s.reg.sessions from
              hrsessions.trans hsessions]
          refine ⟨_, rfl, (hrttl.trans httl).trans h.ttl, hrgates, fun k => ?_,
            fun id lease hlease => ?_⟩
          · refine matches_congr s.history _ s.now (s.now + span) k _ rfl rfl rfl
              (Nat.le_add_right _ _) ?_
            simp only [spawned, after, hdrop]
            exact h.sessions k
          · refine h.leases id lease ?_
            have hsame : s.reg.leases = (r.leaveGate entered.2).leases :=
              (hrleases.trans hleases).symm
            rw [hsame]
            exact hlease

/-- An occurrence that is nobody's leaves everything as the history gives
    it. -/
theorem agrees_unknown (idleTtl : Duration) (s : Serial) (h : Agrees idleTtl s) (id : String) :
    Agrees idleTtl (s.after s.reg s.now (.unknown id)) :=
  ⟨h.ttl, h.gates, h.sessions, h.leases⟩

theorem agrees_rejected (idleTtl : Duration) (s : Serial) (h : Agrees idleTtl s)
    (id error : String) :
    Agrees idleTtl (s.after s.reg s.now (.rejected id error)) :=
  ⟨h.ttl, h.gates, h.sessions, h.leases⟩

/-- The count of a key a lease is out on is not zero. -/
theorem openOn_pos (key : SessionKey) (id : String) (history : List Occurrence)
    (h : leasedKey id history = some key) : 0 < openOn key history := by
  have hcount := openOn_released key key id 0 history h
  rw [if_pos rfl] at hcount
  omega

theorem agrees_release (idleTtl : Duration) (s : Serial) (h : Agrees idleTtl s) (id : String) :
    Agrees idleTtl (s.releaseByLeaseId id) := by
  unfold releaseByLeaseId SessionRegistry.takeLease
  cases hlease : s.reg.leases.get? id with
  | none => exact agrees_unknown idleTtl s h id
  | some lease =>
      have hleased := h.leases id lease hlease
      have hmatch := h.sessions lease.key
      have hpos := openOn_pos lease.key id s.history hleased
      simp only []
      unfold SessionRegistry.releaseSession SessionRegistry.eraseLease
      simp only []
      cases hget : s.reg.sessions.get? lease.key with
      | none =>
          -- A lease that is out has a session.
          rw [hget] at hmatch
          unfold Matches at hmatch
          omega
      | some record =>
          rw [hget] at hmatch
          rcases hmatch with ⟨hkey, hcount, hmark, hlast, hpast⟩
          refine ⟨h.ttl, h.gates, fun k => ?_, fun id' lease' hlease' => ?_⟩
          · have hopen := openOn_released k lease.key id s.now s.history hleased
            simp only [after, Table.get?_set]
            by_cases hk : k = lease.key
            · rw [if_pos hk, hk]
              rw [hk, if_pos rfl] at hopen
              refine ⟨hkey, ?_, hmark, ?_, le_refl _⟩
              · -- the count is not zero, so the guard lets it be decremented
                simp only [SessionRecord.release]
                rw [if_pos (by omega)]
                omega
              · simp only [lastActive, hleased, if_true]
                rfl
            · rw [if_neg hk]
              have hne : ¬lease.key = k := fun hkk => hk hkk.symm
              rw [if_neg hne, Nat.add_zero] at hopen
              refine matches_congr s.history _ s.now s.now k _ hopen.symm rfl ?_ (le_refl _)
                (h.sessions k)
              simp only [lastActive, hleased, Option.some.injEq, if_neg hne]
          · simp only [after, Table.get?_erase] at hlease'
            by_cases hid : id' = id
            · rw [if_pos hid] at hlease'
              exact absurd hlease' (by simp only [reduceCtorEq, not_false_eq_true])
            · rw [if_neg hid] at hlease'
              simp only [after]
              rw [leasedKey_released id id' s.now s.history hid]
              exact h.leases id' lease' hlease'

/-- A message forwarded on a lease touches the session of its key. -/
theorem agrees_touched (idleTtl : Duration) (s : Serial) (h : Agrees idleTtl s)
    (sessions : Table SessionKey SessionRecord) (id : String) (key : SessionKey)
    (record : SessionRecord) (time now : Instant) (hleased : leasedKey id s.history = some key)
    (hget : s.reg.sessions.get? key = some record) (hsessions : ∀ k, sessions.get? k =
      if k = key then some (record.touch time) else s.reg.sessions.get? k)
    (htime : time ≤ now) (hnow : s.now ≤ now) :
    Agrees idleTtl (s.after { s.reg with sessions := sessions } now (.forwarded id time)) := by
  refine ⟨h.ttl, h.gates, fun k => ?_, h.leases⟩
  simp only [after, hsessions]
  have hmatch := h.sessions k
  by_cases hk : k = key
  · rw [if_pos hk]
    rw [hk, hget] at hmatch
    rcases hmatch with ⟨hkey, hcount, hmark, hlast, hpast⟩
    rw [hk]
    refine ⟨hkey, hcount, hmark, ?_, htime⟩
    simp only [lastActive, hleased, if_true]
    rfl
  · rw [if_neg hk]
    have hne : ¬key = k := fun hkk => hk hkk.symm
    refine matches_congr s.history _ s.now now k _ rfl rfl ?_ hnow hmatch
    simp only [lastActive, hleased, Option.some.injEq, if_neg hne]

theorem agrees_forward (idleTtl : Duration) (s : Serial) (h : Agrees idleTtl s) (id : String)
    (span : Duration) (answer : Except String Json) :
    Agrees idleTtl (s.forwardByLeaseId id span answer) := by
  unfold forwardByLeaseId SessionRegistry.leaseKey
  cases hlease : s.reg.leases.get? id with
  | none => exact agrees_unknown idleTtl s h id
  | some lease =>
      have hleased := h.leases id lease hlease
      simp only [Option.map_some, SessionRegistry.lookupRuntime]
      cases hget : s.reg.sessions.get? lease.key with
      | none => exact agrees_unknown idleTtl s h id
      | some record =>
          simp only []
          by_cases hterm : record.terminating = true
          · rw [if_pos hterm]
            cases record.terminationNotice with
            | none => exact agrees_rejected idleTtl s h id _
            | some notice => exact agrees_rejected idleTtl s h id _
          · rw [if_neg hterm]
            cases answer with
            | error error =>
                refine agrees_touched idleTtl s h _ id lease.key record s.now (s.now + span)
                  hleased hget (fun k => ?_) (Nat.le_add_right _ _) (Nat.le_add_right _ _)
                rw [Table.get?_set]
            | ok response =>
                simp only [SessionRegistry.touch, Table.get?_set_self]
                refine agrees_touched idleTtl s h _ id lease.key record (s.now + span)
                  (s.now + span) hleased hget (fun k => ?_) (le_refl _) (Nat.le_add_right _ _)
                rw [Table.get?_set, Table.get?_set]
                by_cases hk : k = lease.key
                · rw [if_pos hk, if_pos hk]
                  rfl
                · rw [if_neg hk, if_neg hk, if_neg hk]

/-- Sessions that are marked, and an occurrence that says which. -/
theorem agrees_marking (idleTtl : Duration) (s : Serial) (h : Agrees idleTtl s)
    (sessions : Table SessionKey SessionRecord) (occurrence : Occurrence)
    (hopen : openLeases (occurrence :: s.history) = openLeases s.history)
    (hactive : ∀ key, lastActive key (occurrence :: s.history) = lastActive key s.history)
    (hsessions : ∀ key record', sessions.get? key = some record' →
      ∃ record, s.reg.sessions.get? key = some record ∧ record'.handle = record.handle ∧
        record'.refCount = record.refCount ∧ record'.lastUsed = record.lastUsed ∧
        (record.terminating = markedSince key s.history →
          record'.terminating = markedSince key (occurrence :: s.history)))
    (hnone : ∀ key, sessions.get? key = none → s.reg.sessions.get? key = none) :
    Agrees idleTtl (s.after { s.reg with sessions := sessions } s.now occurrence) := by
  have hcount : ∀ key, openOn key (occurrence :: s.history) = openOn key s.history := by
    intro key
    unfold openOn
    rw [hopen]
  refine ⟨h.ttl, h.gates, fun key => ?_, fun id lease hlease => ?_⟩
  · simp only [after]
    have hmatch := h.sessions key
    cases hget : sessions.get? key with
    | none =>
        rw [hnone key hget] at hmatch
        unfold Matches at hmatch ⊢
        rw [hcount, hmatch]
    | some record' =>
        rcases hsessions key record' hget with ⟨record, hold, hhandle, href, hused, hterm⟩
        rw [hold] at hmatch
        rcases hmatch with ⟨hkey, hrefs, hmark, hlast, hpast⟩
        exact ⟨by rw [hhandle, hkey], by rw [href, hrefs, hcount], hterm hmark,
          by rw [hactive, hlast, hused], by rw [hused]; exact hpast⟩
  · have hleased := h.leases id lease hlease
    unfold leasedKey at hleased ⊢
    simp only [after]
    rw [hopen]
    exact hleased

theorem agrees_mark (idleTtl : Duration) (s : Serial) (h : Agrees idleTtl s) (key : SessionKey)
    (notice : Option StreamErrorPayload) :
    Agrees idleTtl
      (s.after (s.reg.markTerminatingWithNotice key notice) s.now (.marked key)) := by
  have hmarked : ∀ k, markedSince k (.marked key :: s.history) =
      if key = k then true else markedSince k s.history := fun k => rfl
  unfold SessionRegistry.markTerminatingWithNotice
  cases hget : s.reg.sessions.get? key with
  | none =>
      refine agrees_marking idleTtl s h s.reg.sessions _ rfl (fun _ => rfl)
        (fun k record hk => ?_) (fun _ hk => hk)
      have hne : ¬key = k := by
        intro hkk
        rw [← hkk, hget] at hk
        exact absurd hk (by simp only [reduceCtorEq, not_false_eq_true])
      refine ⟨record, hk, rfl, rfl, rfl, fun hmark => ?_⟩
      rw [hmarked, if_neg hne, hmark]
  | some record =>
      refine agrees_marking idleTtl s h _ _ rfl (fun _ => rfl) (fun k record' hk => ?_)
        (fun k hk => ?_)
      · rw [Table.get?_set] at hk
        rw [hmarked]
        by_cases hkk : k = key
        · rw [if_pos hkk, Option.some.injEq] at hk
          rw [← hk, hkk]
          exact ⟨record, hget, rfl, rfl, rfl, fun _ => by rw [if_pos rfl]⟩
        · rw [if_neg hkk] at hk
          have hne : ¬key = k := fun hkk' => hkk hkk'.symm
          exact ⟨record', hk, rfl, rfl, rfl, fun hmark => by rw [if_neg hne, hmark]⟩
      · rw [Table.get?_set] at hk
        by_cases hkk : k = key
        · rw [if_pos hkk] at hk
          exact absurd hk (by simp only [reduceCtorEq, not_false_eq_true])
        · rw [if_neg hkk] at hk
          exact hk

theorem agrees_remove (idleTtl : Duration) (s : Serial) (h : Agrees idleTtl s)
    (key : SessionKey) :
    Agrees idleTtl (s.after (((s.reg.removeSession key).removeLeases key).dropGate key) s.now
      (.removed key)) := by
  refine ⟨h.ttl, h.gates, fun k => ?_, fun id lease hlease => ?_⟩
  · simp only [after, SessionRegistry.dropGate, SessionRegistry.removeLeases,
      SessionRegistry.removeSession, Table.get?_erase]
    by_cases hk : k = key
    · rw [if_pos hk]
      unfold Matches
      rw [openOn_removed, if_pos hk]
    · rw [if_neg hk]
      refine matches_congr s.history _ s.now s.now k _ ?_ rfl rfl (le_refl _) (h.sessions k)
      rw [openOn_removed, if_neg hk]
  · simp only [after, SessionRegistry.dropGate, SessionRegistry.removeLeases,
      SessionRegistry.removeSession, Table.get?_retain_eq_some, decide_eq_true_eq] at hlease ⊢
    exact leasedKey_removed id key lease.key s.history (h.leases id lease hlease.1) hlease.2

/-! ### What is found idle -/

theorem mem_idleCandidates (r : SessionRegistry) (now : Instant) (handle : SessionHandle) :
    handle ∈ (r.idleCandidates now).2 ↔ ∃ key record, r.sessions.get? key = some record ∧
      r.isIdle now record = true ∧ record.handle = handle := by
  unfold SessionRegistry.idleCandidates
  simp only [List.mem_map, List.mem_filter, Table.mem_values_iff]
  constructor
  · rintro ⟨record, ⟨⟨key, hget⟩, hidle⟩, hhandle⟩
    exact ⟨key, record, hget, hidle, hhandle⟩
  · rintro ⟨key, record, hget, hidle, hhandle⟩
    exact ⟨record, ⟨⟨key, hget⟩, hidle⟩, hhandle⟩

theorem get?_idleCandidates (r : SessionRegistry) (now : Instant) (key : SessionKey) :
    (r.idleCandidates now).1.sessions.get? key = (r.sessions.get? key).map (fun record =>
      if r.isIdle now record then { record with terminating := true } else record) :=
  Table.get?_mapValues r.sessions _ key

/-- Under a key with a record, some candidate has the key exactly when the
    record is idle. -/
theorem exists_mem_idleCandidates (idleTtl : Duration) (s : Serial) (h : Agrees idleTtl s)
    (key : SessionKey) (record : SessionRecord) (hget : s.reg.sessions.get? key = some record) :
    (∃ handle ∈ (s.reg.idleCandidates s.now).2, handle.key = key) ↔
      s.reg.isIdle s.now record = true := by
  have hkeyed : ∀ k u, s.reg.sessions.get? k = some u → u.handle.key = k := by
    intro k u hu
    have hmatch := h.sessions k
    rw [hu] at hmatch
    exact hmatch.1
  constructor
  · rintro ⟨handle, hmem, hkey⟩
    rcases (mem_idleCandidates s.reg s.now handle).mp hmem with ⟨k, u, hu, hidle, hhandle⟩
    have hk : k = key := by
      rw [← hkeyed k u hu, hhandle, hkey]
    rw [hk, hget, Option.some.injEq] at hu
    rw [hu]
    exact hidle
  · intro hidle
    exact ⟨record.handle, (mem_idleCandidates s.reg s.now record.handle).mpr
      ⟨key, record, hget, hidle, rfl⟩, hkeyed key record hget⟩

theorem agrees_idle (idleTtl : Duration) (s : Serial) (h : Agrees idleTtl s) :
    Agrees idleTtl (s.after (s.reg.idleCandidates s.now).1 s.now
      (.collected (s.reg.idleCandidates s.now).2)) := by
  have hmarked : ∀ k, markedSince k (.collected (s.reg.idleCandidates s.now).2 :: s.history) =
      if ∃ handle ∈ (s.reg.idleCandidates s.now).2, handle.key = k then true
      else markedSince k s.history := fun k => rfl
  refine agrees_marking idleTtl s h (s.reg.idleCandidates s.now).1.sessions _ rfl (fun _ => rfl)
    (fun k record' hk => ?_) (fun k hk => ?_)
  · rw [get?_idleCandidates] at hk
    rcases Option.map_eq_some_iff.mp hk with ⟨record, hget, heq⟩
    have hcand := exists_mem_idleCandidates idleTtl s h k record hget
    rw [hmarked, ← heq]
    by_cases hidle : s.reg.isIdle s.now record = true
    · rw [if_pos hidle, if_pos (hcand.mpr hidle)]
      exact ⟨record, hget, rfl, rfl, rfl, fun _ => rfl⟩
    · rw [if_neg hidle, if_neg (fun hmem => hidle (hcand.mp hmem))]
      exact ⟨record, hget, rfl, rfl, rfl, fun hmark => hmark⟩
  · rw [get?_idleCandidates] at hk
    exact Option.map_eq_none_iff.mp hk

/-- The test of a record is the test of the history. -/
theorem isIdle_iff (idleTtl : Duration) (s : Serial) (h : Agrees idleTtl s) (key : SessionKey)
    (record : SessionRecord) (hget : s.reg.sessions.get? key = some record) :
    s.reg.isIdle s.now record = true ↔ Idle idleTtl s key := by
  have hmatch := h.sessions key
  rw [hget] at hmatch
  rcases hmatch with ⟨hkey, hcount, hmark, hlast, hpast⟩
  have hquiet : s.now - record.lastUsed ≥ idleTtl ↔ record.lastUsed + idleTtl ≤ s.now := by
    rw [ge_iff_le, Nat.le_sub_iff_add_le hpast, Nat.add_comm]
  unfold SessionRegistry.isIdle
  rw [h.ttl, hmark, hcount]
  simp only [Bool.and_eq_true, Bool.not_eq_true', beq_iff_eq, decide_eq_true_eq, hquiet,
    openOn_eq_zero]
  constructor
  · rintro ⟨⟨hunmarked, hunused⟩, htime⟩
    exact ⟨hunused, hunmarked, record.lastUsed, hlast, htime⟩
  · rintro ⟨hunused, hunmarked, time, htime, hle⟩
    rw [hlast, Option.some.injEq] at htime
    rw [htime]
    exact ⟨⟨hunmarked, hunused⟩, hle⟩

/-! ### Every sequence of operations -/

/-- Every operation returns, and leaves the records as the history gives
    them. -/
theorem agrees_step (idleTtl : Duration) (s : Serial) (operation : Operation)
    (h : Agrees idleTtl s) : ∃ s', step s operation = some s' ∧ Agrees idleTtl s' := by
  cases operation with
  | wait span => exact ⟨_, rfl, agrees_wait idleTtl s h span⟩
  | acquireOrSpawn key clientKind span result =>
      exact agrees_acquire idleTtl s h key clientKind span result
  | releaseByLeaseId id => exact ⟨_, rfl, agrees_release idleTtl s h id⟩
  | forwardByLeaseId kind id message span answer =>
      exact ⟨_, rfl, agrees_forward idleTtl s h id span answer⟩
  | markTerminatingWithNotice key notice => exact ⟨_, rfl, agrees_mark idleTtl s h key notice⟩
  | remove key => exact ⟨_, rfl, agrees_remove idleTtl s h key⟩
  | idleCandidates => exact ⟨_, rfl, agrees_idle idleTtl s h⟩

theorem agrees_run (idleTtl : Duration) (operations : List Operation) :
    ∃ s, run step (init idleTtl) operations = some s ∧ Agrees idleTtl s :=
  exists_run (fun s operation h => agrees_step idleTtl s operation h) operations (init idleTtl)
    (agrees_init idleTtl)

/-- After any operations, made one at a time, `idle_candidates` returns the
    sessions that are idle by what has happened, each once, marks those
    terminating, and changes nothing else. -/
theorem idleCandidates_exact (idleTtl : Duration) (operations : List Operation) :
    ∃ s, run step (init idleTtl) operations = some s ∧
      ((s.reg.idleCandidates s.now).2.map (fun handle => handle.key)).Nodup ∧
      (∀ handle, handle ∈ (s.reg.idleCandidates s.now).2 ↔
        ∃ record, s.reg.sessions.get? handle.key = some record ∧ record.handle = handle ∧
          Idle idleTtl s handle.key) ∧
      (∀ key record, s.reg.sessions.get? key = some record →
        (Idle idleTtl s key → (s.reg.idleCandidates s.now).1.sessions.get? key =
          some { record with terminating := true }) ∧
        (¬Idle idleTtl s key →
          (s.reg.idleCandidates s.now).1.sessions.get? key = some record)) ∧
      (∀ key, s.reg.sessions.get? key = none →
        (s.reg.idleCandidates s.now).1.sessions.get? key = none) ∧
      (s.reg.idleCandidates s.now).1 =
        { s.reg with sessions := (s.reg.idleCandidates s.now).1.sessions } := by
  rcases agrees_run idleTtl operations with ⟨s, hrun, hagrees⟩
  have hkeyed : ∀ k u, s.reg.sessions.get? k = some u → u.handle.key = k := by
    intro k u hu
    have hmatch := hagrees.sessions k
    rw [hu] at hmatch
    exact hmatch.1
  refine ⟨s, hrun, ?_, fun handle => ?_, fun key record hget => ⟨fun hidle => ?_, fun hidle => ?_⟩,
    fun key hget => ?_, rfl⟩
  · -- A record lies under the key of its handle, and a table has each key once.
    have hkeys : (s.reg.sessions.values.map (fun record => record.handle.key)).Nodup := by
      have heq : s.reg.sessions.values.map (fun record => record.handle.key)
          = s.reg.sessions.entries.map (fun entry => entry.1) := by
        rw [Table.values, List.map_map]
        refine List.map_congr_left fun entry hmem => ?_
        exact hkeyed entry.1 entry.2 ((Table.mem_entries_iff _ _ _).mp hmem)
      rw [heq]
      exact s.reg.sessions.toAList.nodupKeys
    rw [SessionRegistry.idleCandidates, List.map_map]
    exact hkeys.sublist (List.filter_sublist.map _)
  · rw [mem_idleCandidates]
    constructor
    · rintro ⟨key, record, hget, hidle, hhandle⟩
      have hkey : handle.key = key := by rw [← hhandle, hkeyed key record hget]
      rw [hkey]
      exact ⟨record, hget, hhandle, (isIdle_iff idleTtl s hagrees key record hget).mp hidle⟩
    · rintro ⟨record, hget, hhandle, hidle⟩
      exact ⟨handle.key, record, hget,
        (isIdle_iff idleTtl s hagrees handle.key record hget).mpr hidle, hhandle⟩
  · rw [get?_idleCandidates, hget, Option.map_some,
      if_pos ((isIdle_iff idleTtl s hagrees key record hget).mpr hidle)]
  · rw [get?_idleCandidates, hget, Option.map_some,
      if_neg (fun hmem => hidle ((isIdle_iff idleTtl s hagrees key record hget).mp hmem))]
  · rw [get?_idleCandidates, hget, Option.map_none]

end Serial

end Lspee
