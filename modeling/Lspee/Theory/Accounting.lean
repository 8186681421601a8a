import Lspee.Theory.Identity

/-!
# Lease Accounting

Whether a session's reference count is the number of leases on its key.

A lease is counted on a session, and recorded under a key. The two are not the
same thing: `release_by_lease_id` takes the lease out in one section and counts
it off in another, `remove` drops the session in one section and the leases in
another, and in between the key may be given a new session. What is true at
every cut point is a statement about sessions. The count of a registered
session is the number of leases counted on *it* that are still recorded, plus
the number of releases that have taken such a lease and not yet counted it off.

The second halves do not look at the session, only at the key, so they keep
this statement only if the session found there is the right one.
`AccountingCond` says when. Under it the statement is an invariant, and when no
call is in flight it is the accounting the registry promises.

The condition can fail. `accounting_broken` is a run in which a release is
overtaken by a removal and a respawn, and takes a reference off the new
session, which is left with a lease and a count of zero.

## Main definitions

* `leasesOn`: The leases on a key that are counted on a runtime's session.
* `releasesOn`: The releases under way of such leases.
* `Balanced`: The accounting at every cut point.
* `Accounted`: The accounting when no call is in flight.
* `AccountingCond`: The second halves find the session they are about.

## Theorems

* `balanced_init`, `balanced_step`, `balanced_run`: The invariant.
* `accounted_of_balanced`: Without calls in flight, the counts are right.
* `accounted_run`: The accounting of every run that meets the condition.
* `accounting_broken`: The accounting of a run that does not.
-/

namespace Lspee

open Transition

namespace World

/-- How many recorded leases on the key are counted on this runtime's
    session. -/
def leasesOn (w : World) (key : SessionKey) (runtime : RuntimeId) : Nat :=
  w.reg.leases.count (fun id lease =>
    decide (lease.key = key) && decide (grantedOn id w.log = some runtime))

/-- The call has taken a lease on the key that is counted on this runtime's
    session, and has not counted it off. -/
def takenFrom (log : List Event) (key : SessionKey) (runtime : RuntimeId) (frame : Frame) :
    Bool :=
  match frame.releasing with
  | some (id, k) => decide (k = key) && decide (grantedOn id log = some runtime)
  | none => false

/-- How many releases are under way of leases on the key that are counted on
    this runtime's session. -/
def releasesOn (w : World) (key : SessionKey) (runtime : RuntimeId) : Nat :=
  w.calls.count (fun _ frame => takenFrom w.log key runtime frame)

/-- The accounting at every cut point. A lease whose session is gone is about
    to be dropped by a removal under way. -/
structure Balanced (w : World) : Prop where
  counts : ∀ key record, w.reg.sessions.get? key = some record →
    record.refCount
      = w.leasesOn key record.handle.runtime + w.releasesOn key record.handle.runtime
  rooted : ∀ id lease, w.reg.leases.get? id = some lease →
    ∃ runtime, grantedOn id w.log = some runtime ∧
      Event.registered lease.key runtime ∈ w.log ∧
      (w.reg.instanceOf lease.key = some runtime ∨
        ∃ call frame, w.calls.get? call = some frame ∧ frame.clearing = some lease.key)
  taken : ∀ call frame id key, w.calls.get? call = some frame →
    frame.releasing = some (id, key) →
      ∃ runtime, grantedOn id w.log = some runtime ∧ Event.registered key runtime ∈ w.log

/-- The accounting the registry promises. -/
def Accounted (w : World) : Prop :=
  (∀ id lease, w.reg.leases.get? id = some lease →
    ∃ record, w.reg.sessions.get? lease.key = some record) ∧
  ∀ key record, w.reg.sessions.get? key = some record →
    record.refCount = w.reg.leases.count (fun _ lease => decide (lease.key = key))

/-- When the second half of a release or of a removal is about the session it
    finds: the session counted off is the one the lease was counted on, unless
    it has no references to lose, and the leases dropped with a key include
    none that is counted on a session registered there. A grant takes an id
    that the counter has not given out before. -/
def AccountingCond (w : World) (a : Action) : Prop :=
  match a.mover.bind w.calls.get? with
  | some (.release id (.decrement key)) =>
    ∀ record ∈ w.reg.sessions.get? key,
      grantedOn id w.log = some record.handle.runtime ∨ record.refCount = 0
  | some (.remove key .leases) =>
    ∀ runtime ∈ w.reg.instanceOf key, w.leasesOn key runtime = 0
  | some (.acquire _ _ (.lookup _)) => grantCount w.log < 2 ^ 64
  | some (.acquire _ _ (.publish _)) => grantCount w.log < 2 ^ 64
  | _ => True

instance (w : World) (a : Action) : Decidable (AccountingCond w a) := by
  unfold AccountingCond
  exact match a.mover.bind w.calls.get? with
    | some (.release id (.decrement key)) =>
      inferInstanceAs (Decidable (∀ record ∈ w.reg.sessions.get? key,
        grantedOn id w.log = some record.handle.runtime ∨ record.refCount = 0))
    | some (.remove key .leases) =>
      inferInstanceAs (Decidable
        (∀ runtime ∈ w.reg.instanceOf key, w.leasesOn key runtime = 0))
    | some (.acquire _ _ (.lookup _)) | some (.acquire _ _ (.publish _)) =>
      inferInstanceAs (Decidable (grantCount w.log < 2 ^ 64))
    | none | some (.acquire _ _ .count) | some (.acquire _ _ .gate)
    | some (.acquire _ _ (.enter _)) | some (.acquire _ _ (.spawning _))
    | some (.acquire _ _ (.leave _ _)) | some (.acquire _ _ (.dropGate _))
    | some (.acquire _ _ (.waiting _ _)) | some (.acquire _ _ (.returned _))
    | some (.attached _ _) | some (.release _ .take) | some (.release _ (.returned _))
    | some (.remove _ .session) | some (.remove _ .returned)
    | some (.forward _ _ _ _) | some (.touch _ _) | some (.mark _ _ _)
    | some (.idle _ _) | some (.increment _ _) | some (.crash _) => instDecidableTrue

theorem balanced_init (idleTtl : Duration) : Balanced (init idleTtl) where
  counts := by simp [init, SessionRegistry.withIdleTtl]
  rooted := by simp [init, SessionRegistry.withIdleTtl]
  taken := by simp [init]

/-! ### Counting while the world moves -/

theorem takenFrom_of_releasing_none (log : List Event) (key : SessionKey) (runtime : RuntimeId)
    (frame : Frame) (h : frame.releasing = none) : takenFrom log key runtime frame = false := by
  rw [takenFrom, h]

/-- Whether a call has taken a lease does not change when the binding of that
    lease does not. -/
theorem takenFrom_congr (log log' : List Event) (key : SessionKey) (runtime : RuntimeId)
    (frame : Frame)
    (h : ∀ id k, frame.releasing = some (id, k) → grantedOn id log' = grantedOn id log) :
    takenFrom log' key runtime frame = takenFrom log key runtime frame := by
  cases hrel : frame.releasing with
  | none => rw [takenFrom_of_releasing_none _ _ _ _ hrel, takenFrom_of_releasing_none _ _ _ _ hrel]
  | some taken =>
      rcases taken with ⟨id, k⟩
      simp only [takenFrom, hrel]
      rw [h id k hrel]

/-- The bindings of the leases that are recorded or taken are the same in two
    worlds. -/
structure SameBindings (w : World) (log' : List Event) : Prop where
  lease : ∀ id lease, w.reg.leases.get? id = some lease → grantedOn id log' = grantedOn id w.log
  taken : ∀ call frame id key, w.calls.get? call = some frame →
    frame.releasing = some (id, key) → grantedOn id log' = grantedOn id w.log

theorem sameBindings_append (w : World) (events : List Event)
    (h : ∀ event ∈ events, event.grants = false) : SameBindings w (events ++ w.log) where
  lease := fun id _ _ => grantedOn_append id events w.log h
  taken := fun _ _ id _ _ _ => grantedOn_append id events w.log h

/-- The count of the leases in terms of the old log. -/
theorem count_leases_congr (w : World) (log' : List Event) (hsame : SameBindings w log')
    (key : SessionKey) (runtime : RuntimeId) :
    w.reg.leases.count (fun id lease =>
        decide (lease.key = key) && decide (grantedOn id log' = some runtime))
      = w.leasesOn key runtime := by
  refine Table.count_congr _ _ _ (fun id lease hget => ?_)
  rw [hsame.lease id lease hget]

/-- The count of the releases in terms of the old log. -/
theorem count_calls_congr (w : World) (log' : List Event) (hsame : SameBindings w log')
    (key : SessionKey) (runtime : RuntimeId) :
    w.calls.count (fun _ frame => takenFrom log' key runtime frame)
      = w.releasesOn key runtime := by
  refine Table.count_congr _ _ _ (fun call frame hget => ?_)
  exact takenFrom_congr _ _ _ _ _ (fun id k hrel => hsame.taken call frame id k hget hrel)

/-- A call that moves takes itself off the count of releases and puts itself
    back on. -/
theorem releasesOn_moved (w : World) (call : CallId) (frame frame' : Frame)
    (r' : SessionRegistry) (events : List Event) (hcall : w.calls.get? call = some frame)
    (hsame : SameBindings w (events ++ w.log)) (key : SessionKey) (runtime : RuntimeId) :
    (w.moved call r' frame' events).releasesOn key runtime
        + (if takenFrom (events ++ w.log) key runtime frame then 1 else 0)
      = w.releasesOn key runtime
        + (if takenFrom (events ++ w.log) key runtime frame' then 1 else 0) := by
  have h := Table.count_set_of_get? w.calls
    (fun _ f => takenFrom (events ++ w.log) key runtime f) call frame frame' hcall
  rw [count_calls_congr w _ hsame key runtime] at h
  exact h

/-- A call that is not releasing, before or after, leaves the count of
    releases. -/
theorem releasesOn_moved_of_none (w : World) (call : CallId) (frame frame' : Frame)
    (r' : SessionRegistry) (events : List Event) (hcall : w.calls.get? call = some frame)
    (hsame : SameBindings w (events ++ w.log)) (hrel : frame.releasing = none)
    (hrel' : frame'.releasing = none) (key : SessionKey) (runtime : RuntimeId) :
    (w.moved call r' frame' events).releasesOn key runtime = w.releasesOn key runtime := by
  have h := releasesOn_moved w call frame frame' r' events hcall hsame key runtime
  rw [takenFrom_of_releasing_none _ _ _ frame hrel,
    takenFrom_of_releasing_none _ _ _ frame' hrel'] at h
  simpa using h

/-- The releases under way after a call has moved: those under way before, and
    the call itself if it is one. -/
theorem taken_moved (w : World) (call : CallId) (frame' : Frame) (r' : SessionRegistry)
    (events : List Event) (h : Balanced w) (hsame : SameBindings w (events ++ w.log))
    (hframe : ∀ id key, frame'.releasing = some (id, key) →
      ∃ runtime, grantedOn id (events ++ w.log) = some runtime ∧
        Event.registered key runtime ∈ w.log)
    (c : CallId) (f : Frame) (id : String) (key : SessionKey)
    (hget : (w.moved call r' frame' events).calls.get? c = some f)
    (hf : f.releasing = some (id, key)) :
    ∃ runtime, grantedOn id (w.moved call r' frame' events).log = some runtime ∧
      Event.registered key runtime ∈ (w.moved call r' frame' events).log := by
  simp only [World.moved, Table.get?_set] at hget
  by_cases hc : c = call
  · rw [if_pos hc, Option.some.injEq] at hget
    rw [← hget] at hf
    rcases hframe id key hf with ⟨runtime, hbind, hreg⟩
    exact ⟨runtime, hbind, List.mem_append_right _ hreg⟩
  · rw [if_neg hc] at hget
    rcases h.taken c f id key hget hf with ⟨runtime, hbind, hreg⟩
    refine ⟨runtime, ?_, List.mem_append_right _ hreg⟩
    change grantedOn id (events ++ w.log) = some runtime
    rw [hsame.taken c f id key hget hf, hbind]

/-- A removal under way stays under way when another call moves. -/
theorem clearing_moved (w : World) (call : CallId) (frame frame' : Frame)
    (r' : SessionRegistry) (events : List Event) (key : SessionKey)
    (hcall : w.calls.get? call = some frame) (hclear : frame.clearing ≠ some key)
    (h : ∃ c f, w.calls.get? c = some f ∧ f.clearing = some key) :
    ∃ c f, (w.moved call r' frame' events).calls.get? c = some f ∧ f.clearing = some key := by
  rcases h with ⟨c, f, hget, hf⟩
  have hne : c ≠ call := by
    rintro rfl
    rw [hcall, Option.some.injEq] at hget
    rw [hget] at hclear
    exact hclear hf
  exact ⟨c, f, by rw [World.moved, Table.get?_set_ne _ _ _ _ hne]; exact hget, hf⟩

/-! ### The effects, one at a time -/

theorem instanceOf_of_kept (r r' : SessionRegistry) (events : List Event)
    (hkept : Kept r r' events) (key : SessionKey) : r'.instanceOf key = r.instanceOf key := by
  have h := congrArg (Option.map (fun c => c.1.runtime)) (hkept.core key)
  rw [Option.map_map, Option.map_map] at h
  exact h

theorem balanced_quiet (w : World) (h : Balanced w) (call : CallId) (frame frame' : Frame)
    (r' : SessionRegistry) (events : List Event) (hcall : w.calls.get? call = some frame)
    (hkept : Kept w.reg r' events) (hleases : r'.leases = w.reg.leases)
    (hlog : ∀ event ∈ events, event.grants = false) (hrel : frame.releasing = none)
    (hrel' : frame'.releasing = none) (hclear : frame.clearing = none) :
    Balanced (w.moved call r' frame' events) := by
  have hsame := sameBindings_append w events hlog
  have hlease : ∀ key runtime, (w.moved call r' frame' events).leasesOn key runtime
      = w.leasesOn key runtime := by
    intro key runtime
    rw [← count_leases_congr w (events ++ w.log) hsame key runtime, ← hleases]
    rfl
  constructor
  · intro key record hget
    rcases handle_of_core w.reg r' events hkept key record hget with ⟨u, hu, hhandle, hcount⟩
    rw [← hcount, ← hhandle, hlease,
      releasesOn_moved_of_none w call frame frame' r' events hcall hsame hrel hrel']
    exact h.counts key u hu
  · intro id lease hget
    have hold : w.reg.leases.get? id = some lease := by
      rw [← hleases]
      exact hget
    rcases h.rooted id lease hold with ⟨runtime, hbind, hreg, hroot⟩
    refine ⟨runtime, ?_, List.mem_append_right _ hreg, ?_⟩
    · change grantedOn id (events ++ w.log) = some runtime
      rw [hsame.lease id lease hold, hbind]
    · rcases hroot with hinst | hclr
      · refine Or.inl ?_
        rw [← hinst]
        exact instanceOf_of_kept w.reg r' events hkept lease.key
      · exact Or.inr (clearing_moved w call frame frame' r' events lease.key hcall
          (by rw [hclear]; simp) hclr)
  · exact taken_moved w call frame' r' events h hsame (by rw [hrel']; simp)

/-- A call that begins is not yet releasing. -/
theorem balanced_begin (w : World) (h : Balanced w) (call : CallId) (frame : Frame)
    (hfree : w.calls.get? call = none) (hrel : frame.releasing = none) :
    Balanced { w with calls := w.calls.set call frame } := by
  have hcount : ∀ key runtime,
      World.releasesOn { w with calls := w.calls.set call frame } key runtime
        = w.releasesOn key runtime := by
    intro key runtime
    have hset := Table.count_set_of_get?_none w.calls
      (fun _ f => takenFrom w.log key runtime f) call frame hfree
    rw [takenFrom_of_releasing_none _ _ _ frame hrel] at hset
    exact hset
  constructor
  · intro key record hget
    rw [hcount]
    exact h.counts key record hget
  · intro id lease hget
    rcases h.rooted id lease hget with ⟨runtime, hb, hr, hroot⟩
    refine ⟨runtime, hb, hr, ?_⟩
    rcases hroot with hin | ⟨c, f, hc, hclear⟩
    · exact Or.inl hin
    · refine Or.inr ⟨c, f, ?_, hclear⟩
      have hne : c ≠ call := by
        rintro rfl
        rw [hfree] at hc
        exact absurd hc (by simp)
      exact (Table.get?_set_ne _ _ _ _ hne).trans hc
  · intro c f id key hget hf
    change (w.calls.set call frame).get? c = some f at hget
    rw [Table.get?_set] at hget
    split at hget
    · rw [Option.some.injEq] at hget
      rw [← hget, hrel] at hf
      exact absurd hf (by simp)
    · exact h.taken c f id key hget hf

/-- A grant on a record that is balanced before the grant: the record of the
    session registered under the key, or a new one. -/
theorem balanced_grant (w : World) (h : Balanced w) (call : CallId) (frame frame' : Frame)
    (key : SessionKey) (clientKind : Option ClientKind) (record : SessionRecord)
    (counters : RegistryCounters) (events : List Event)
    (hcall : w.calls.get? call = some frame)
    (hnew : grantedOn (leaseId w.reg.leaseSeq) w.log = none)
    (hrecord : record.refCount
      = w.leasesOn key record.handle.runtime + w.releasesOn key record.handle.runtime)
    (hinst : ∀ runtime, w.reg.instanceOf key = some runtime → runtime = record.handle.runtime)
    (hevents : ∀ event ∈ events, event.isGranted = false)
    (hreg : Event.registered key record.handle.runtime ∈ events ++ w.log)
    (hrel : frame.releasing = none) (hrel' : frame'.releasing = none)
    (hclear : frame.clearing = none) :
    Balanced (w.moved call (w.reg.grantLease key clientKind record counters w.now).1 frame'
      (.granted call { id := leaseId w.reg.leaseSeq, key := key } record.handle.runtime ::
        events)) := by
  have hbind := fun id => grantedOn_grant w.log events call
    { id := leaseId w.reg.leaseSeq, key := key } record.handle.runtime hevents id
  -- The id is new, so it is neither recorded nor taken.
  have hfree : w.reg.leases.get? (leaseId w.reg.leaseSeq) = none := by
    cases hg : w.reg.leases.get? (leaseId w.reg.leaseSeq) with
    | none => rfl
    | some lease =>
        rcases h.rooted _ lease hg with ⟨runtime, hb, _⟩
        rw [hnew] at hb
        exact absurd hb (by simp)
  have hsame : SameBindings w (.granted call { id := leaseId w.reg.leaseSeq, key := key }
      record.handle.runtime :: events ++ w.log) := by
    constructor
    · intro id lease hget
      rw [List.cons_append, hbind, if_neg]
      rintro rfl
      rw [hfree] at hget
      exact absurd hget (by simp)
    · intro c f id k hget hf
      rw [List.cons_append, hbind, if_neg]
      rintro rfl
      rcases h.taken c f _ k hget hf with ⟨runtime, hb, _⟩
      rw [hnew] at hb
      exact absurd hb (by simp)
  have hlease : ∀ k runtime, (w.moved call
      (w.reg.grantLease key clientKind record counters w.now).1 frame'
      (.granted call { id := leaseId w.reg.leaseSeq, key := key } record.handle.runtime ::
        events)).leasesOn k runtime
      = w.leasesOn k runtime + (if key = k ∧ record.handle.runtime = runtime then 1 else 0) := by
    intro k runtime
    have hcount := Table.count_set_of_get?_none w.reg.leases (fun id lease =>
      decide (lease.key = k) && decide (grantedOn id (.granted call
        { id := leaseId w.reg.leaseSeq, key := key } record.handle.runtime :: events ++ w.log)
          = some runtime)) (leaseId w.reg.leaseSeq) { key := key, clientKind := clientKind } hfree
    rw [count_leases_congr w _ hsame k runtime] at hcount
    refine hcount.trans (congrArg (w.leasesOn k runtime + ·) ?_)
    simp only [List.cons_append, hbind, if_true, Option.some.injEq, Bool.and_eq_true,
      decide_eq_true_eq]
  constructor
  · intro k u hget
    change (w.reg.sessions.set key (record.grant w.now)).get? k = some u at hget
    rw [hlease, releasesOn_moved_of_none w call frame frame' _ _ hcall hsame hrel hrel']
    rw [Table.get?_set] at hget
    by_cases hk : k = key
    · rw [if_pos hk, Option.some.injEq] at hget
      rw [← hget, hk, if_pos ⟨rfl, rfl⟩]
      change record.refCount + 1 = w.leasesOn key record.handle.runtime + 1
        + w.releasesOn key record.handle.runtime
      omega
    · rw [if_neg hk] at hget
      rw [if_neg (fun hc => hk hc.1.symm), Nat.add_zero]
      exact h.counts k u hget
  · intro id lease hget
    change (w.reg.leases.set (leaseId w.reg.leaseSeq)
      { key := key, clientKind := clientKind }).get? id = some lease at hget
    have hinst' : (w.moved call (w.reg.grantLease key clientKind record counters w.now).1 frame'
        (.granted call { id := leaseId w.reg.leaseSeq, key := key } record.handle.runtime ::
          events)).reg.instanceOf key = some record.handle.runtime := by
      change ((w.reg.sessions.set key (record.grant w.now)).get? key).map _ = _
      rw [Table.get?_set_self]
      rfl
    rw [Table.get?_set] at hget
    by_cases hid : id = leaseId w.reg.leaseSeq
    · rw [if_pos hid, Option.some.injEq] at hget
      rw [← hget]
      refine ⟨record.handle.runtime, ?_, ?_, Or.inl hinst'⟩
      · change grantedOn id (_ :: (events ++ w.log)) = _
        rw [hbind, if_pos hid]
      · exact List.mem_cons_of_mem _ hreg
    · rw [if_neg hid] at hget
      rcases h.rooted id lease hget with ⟨runtime, hb, hr, hroot⟩
      refine ⟨runtime, ?_, List.mem_append_right _ hr, ?_⟩
      · change grantedOn id (_ :: (events ++ w.log)) = _
        rw [hbind, if_neg hid, hb]
      · rcases hroot with hin | hclr
        · refine Or.inl ?_
          by_cases hk : lease.key = key
          · rw [hk] at hin ⊢
            rw [hinst', hinst runtime hin]
          · rw [← hin]
            change ((w.reg.sessions.set key (record.grant w.now)).get? lease.key).map _ = _
            rw [Table.get?_set_ne _ _ _ _ hk]
            rfl
        · exact Or.inr (clearing_moved w call frame frame' _ _ lease.key hcall
            (by rw [hclear]; simp) hclr)
  · exact taken_moved w call frame' _ _ h hsame (by rw [hrel']; simp)

/-- A release takes its lease: one lease fewer, one release more. -/
theorem balanced_take (w : World) (h : Balanced w) (call : CallId) (id : String)
    (lease : LeaseRecord) (hcall : w.calls.get? call = some (.release id .take))
    (hlease : w.reg.leases.get? id = some lease) :
    Balanced (w.moved call (w.reg.eraseLease id) (.release id (.decrement lease.key)) []) := by
  have hsame := sameBindings_append w [] (by simp)
  constructor
  · intro key record hget
    have hrel := releasesOn_moved w call _ (.release id (.decrement lease.key))
      (w.reg.eraseLease id) [] hcall hsame key record.handle.runtime
    have hcount := Table.count_erase w.reg.leases (fun id lease =>
      decide (lease.key = key) && decide (grantedOn id w.log = some record.handle.runtime))
      id lease hlease
    have hrec := h.counts key record hget
    -- Both counts test the same lease.
    change w.leasesOn key record.handle.runtime = (w.moved call (w.reg.eraseLease id)
      (.release id (.decrement lease.key)) []).leasesOn key record.handle.runtime + _ at hcount
    have htaken : takenFrom ([] ++ w.log) key record.handle.runtime
        (.release id (.decrement lease.key)) = (decide (lease.key = key) &&
          decide (grantedOn id w.log = some record.handle.runtime)) := rfl
    rw [takenFrom_of_releasing_none _ _ _ (.release id .take) rfl, htaken] at hrel
    simp only [Bool.false_eq_true, if_false] at hrel
    omega
  · intro i l hget
    change (w.reg.leases.erase id).get? i = some l at hget
    rw [Table.get?_erase] at hget
    split at hget
    · exact absurd hget (by simp)
    · rcases h.rooted i l hget with ⟨runtime, hb, hr, hroot⟩
      refine ⟨runtime, hb, hr, ?_⟩
      rcases hroot with hin | hclr
      · exact Or.inl hin
      · exact Or.inr (clearing_moved w call _ _ _ [] l.key hcall (by simp [Frame.clearing]) hclr)
  · refine taken_moved w call _ _ [] h hsame (fun i k hrel => ?_)
    simp only [Frame.releasing, Option.some.injEq, Prod.mk.injEq] at hrel
    rcases h.rooted id lease hlease with ⟨runtime, hb, hr, _⟩
    rw [← hrel.1, ← hrel.2]
    exact ⟨runtime, hb, hr⟩

/-- A release counts its lease off, on the session the lease was counted on. -/
theorem balanced_decrement (w : World) (h : Balanced w) (call : CallId) (id : String)
    (key : SessionKey) (result : Frame)
    (hcall : w.calls.get? call = some (.release id (.decrement key)))
    (hresult : result.releasing = none)
    (hcond : ∀ record, w.reg.sessions.get? key = some record →
      grantedOn id w.log = some record.handle.runtime ∨ record.refCount = 0) :
    Balanced (w.moved call (w.reg.releaseSession key w.now).1 result []) := by
  have hsame := sameBindings_append w [] (by simp)
  -- The lease went in the section before.
  have hleases : (w.reg.releaseSession key w.now).1.leases = w.reg.leases := by
    unfold SessionRegistry.releaseSession
    split <;> rfl
  have hlease : ∀ k runtime, (w.moved call (w.reg.releaseSession key w.now).1 result []).leasesOn
      k runtime = w.leasesOn k runtime := by
    intro k runtime
    rw [leasesOn, World.moved, hleases]
    rfl
  -- The session under a key keeps its handle, and loses a reference if it is the one.
  have hsessions : ∀ k u, (w.reg.releaseSession key w.now).1.sessions.get? k = some u →
      ∃ u₀, w.reg.sessions.get? k = some u₀ ∧ u.handle = u₀.handle ∧
        (k = key → u.refCount = u₀.refCount - 1) ∧ (k ≠ key → u.refCount = u₀.refCount) := by
    intro k u hget
    unfold SessionRegistry.releaseSession at hget
    cases hrec : w.reg.sessions.get? key with
    | none =>
        rw [hrec] at hget
        refine ⟨u, hget, rfl, fun hk => ?_, fun _ => rfl⟩
        rw [hk] at hget
        exact absurd (hrec.symm.trans hget) (by simp)
    | some record =>
        simp only [hrec, Table.get?_set] at hget
        by_cases hk : k = key
        · rw [if_pos hk, Option.some.injEq] at hget
          rw [← hget, hk]
          refine ⟨record, hrec, rfl, fun _ => ?_, fun hne => absurd rfl hne⟩
          simp only [SessionRecord.release]
          split <;> omega
        · rw [if_neg hk] at hget
          exact ⟨u, hget, rfl, fun hc => absurd hc hk, fun _ => rfl⟩
  constructor
  · intro k u hget
    rcases hsessions k u hget with ⟨u₀, hget₀, hhandle, hsub, hkeep⟩
    have hrel := releasesOn_moved w call _ result (w.reg.releaseSession key w.now).1 [] hcall
      hsame k u₀.handle.runtime
    rw [takenFrom_of_releasing_none _ _ _ result hresult] at hrel
    simp only [takenFrom, Frame.releasing, List.nil_append, Bool.false_eq_true, if_false,
      Nat.add_zero, Bool.and_eq_true, decide_eq_true_eq] at hrel
    have hrec := h.counts k u₀ hget₀
    rw [hhandle, hlease]
    -- Only the record under the key, and only a release under way on it, can change.
    by_cases hk : k = key
    · rw [hsub hk]
      rw [hk] at hget₀ hrel hrec ⊢
      rcases hcond u₀ hget₀ with hbound | hzero
      · -- The lease was counted on this session, and so was its release.
        rw [if_pos ⟨rfl, hbound⟩] at hrel
        omega
      · -- The session has no reference to lose, so no release is under way on it.
        split at hrel <;> omega
    · rw [hkeep hk]
      rw [if_neg (fun hc => hk hc.1.symm)] at hrel
      omega
  · intro i l hget
    have hold : w.reg.leases.get? i = some l := by
      rw [← hleases]
      exact hget
    rcases h.rooted i l hold with ⟨runtime, hb, hr, hroot⟩
    refine ⟨runtime, hb, hr, ?_⟩
    rcases hroot with hin | hclr
    · refine Or.inl ?_
      rw [← hin]
      change (w.reg.releaseSession key w.now).1.instanceOf l.key = _
      unfold SessionRegistry.releaseSession
      cases hrec : w.reg.sessions.get? key with
      | none => rfl
      | some record =>
          simp only [SessionRegistry.instanceOf, Table.get?_set]
          by_cases hk : l.key = key
          · rw [if_pos hk, hk, hrec]
            rfl
          · rw [if_neg hk]
    · exact Or.inr (clearing_moved w call _ _ _ [] l.key hcall (by simp [Frame.clearing]) hclr)
  · exact taken_moved w call _ _ [] h hsame (by rw [hresult]; simp)

/-- A removal drops the session; its leases now rest on the removal. -/
theorem balanced_removeSession (w : World) (h : Balanced w) (call : CallId) (key : SessionKey)
    (hcall : w.calls.get? call = some (.remove key .session)) :
    Balanced (w.moved call (w.reg.removeSession key) (.remove key .leases) []) := by
  have hsame := sameBindings_append w [] (by simp)
  constructor
  · intro k u hget
    change (w.reg.sessions.erase key).get? k = some u at hget
    rw [Table.get?_erase] at hget
    split at hget
    · exact absurd hget (by simp)
    · rw [releasesOn_moved_of_none w call _ _ _ [] hcall hsame rfl rfl]
      exact h.counts k u hget
  · intro i l hget
    rcases h.rooted i l hget with ⟨runtime, hb, hr, hroot⟩
    refine ⟨runtime, hb, hr, ?_⟩
    by_cases hk : l.key = key
    · refine Or.inr ⟨call, .remove key .leases, Table.get?_set_self _ _ _, ?_⟩
      rw [hk]
      rfl
    · rcases hroot with hin | hclr
      · refine Or.inl ?_
        rw [← hin]
        change ((w.reg.sessions.erase key).get? l.key).map _ = _
        rw [Table.get?_erase_ne _ _ _ hk]
        rfl
      · exact Or.inr (clearing_moved w call _ _ _ [] l.key hcall (by simp [Frame.clearing]) hclr)
  · exact taken_moved w call _ _ [] h hsame (by simp [Frame.releasing])

/-- A removal drops the leases on its key, none of which is counted on a
    session registered there. -/
theorem balanced_removeLeases (w : World) (h : Balanced w) (call : CallId) (key : SessionKey)
    (hcall : w.calls.get? call = some (.remove key .leases))
    (hcond : ∀ runtime, w.reg.instanceOf key = some runtime → w.leasesOn key runtime = 0) :
    Balanced (w.moved call ((w.reg.removeLeases key).dropGate key) (.remove key .returned) [])
    := by
  have hsame := sameBindings_append w [] (by simp)
  -- The leases on other keys are not touched; on the key none is left.
  have hlease : ∀ k runtime, k ≠ key → (w.moved call ((w.reg.removeLeases key).dropGate key)
      (.remove key .returned) []).leasesOn k runtime = w.leasesOn k runtime := by
    intro k runtime hne
    change (w.reg.leases.retain (fun _ lease => decide (lease.key ≠ key))).count
      (fun id lease => decide (lease.key = k) && decide (grantedOn id w.log = some runtime)) = _
    rw [Table.count_retain]
    refine Table.count_congr _ _ _ (fun id lease _ => ?_)
    by_cases hk : lease.key = k
    · simp [hk, hne]
    · simp [hk]
  have hgone : ∀ runtime, (w.moved call ((w.reg.removeLeases key).dropGate key)
      (.remove key .returned) []).leasesOn key runtime = 0 := by
    intro runtime
    change (w.reg.leases.retain (fun _ lease => decide (lease.key ≠ key))).count
      (fun id lease => decide (lease.key = key) && decide (grantedOn id w.log = some runtime)) = _
    rw [Table.count_retain, Table.count_eq_zero]
    intro id lease _
    by_cases hk : lease.key = key <;> simp [hk]
  constructor
  · intro k u hget
    rw [releasesOn_moved_of_none w call _ _ _ [] hcall hsame rfl rfl]
    have hrec := h.counts k u hget
    by_cases hk : k = key
    · rw [hk] at hget hrec ⊢
      rw [hgone]
      rw [hcond u.handle.runtime (by
        rw [SessionRegistry.instanceOf, show w.reg.sessions.get? key = some u from hget]
        rfl)] at hrec
      exact hrec
    · rw [hlease k _ hk]
      exact hrec
  · intro i l hget
    rcases (Table.get?_retain_eq_some _ _ _ _).mp hget with ⟨hold, hkeep⟩
    have hne : l.key ≠ key := by simpa using hkeep
    rcases h.rooted i l hold with ⟨runtime, hb, hr, hroot⟩
    refine ⟨runtime, hb, hr, ?_⟩
    rcases hroot with hin | hclr
    · exact Or.inl hin
    · refine Or.inr (clearing_moved w call _ _ _ [] l.key hcall ?_ hclr)
      simp only [Frame.clearing, ne_eq, Option.some.injEq]
      exact fun hc => hne hc.symm
  · exact taken_moved w call _ _ [] h hsame (by simp [Frame.releasing])

/-! ### Runs -/

/-- Every step that meets the condition keeps the accounting. -/
theorem balanced_step (w w' : World) (a : Action) (hfresh : Fresh w) (hids : LeaseIds w)
    (h : Balanced w) (hstep : w.step a = some w') (hcond : AccountingCond w a) : Balanced w' := by
  cases step_effect w w' a hstep with
  | tick span => exact ⟨h.counts, h.rooted, h.taken⟩
  | start call method hfree =>
      exact balanced_begin w h call _ hfree (by cases method <;> rfl)
  | spawnOk call key clientKind g initializeResult hcall =>
      have hq := balanced_quiet w h call _ (.acquire key clientKind (.leave g (.ok
        { key := key, runtime := w.nextRuntime, initializeResult := initializeResult }))) w.reg
        [.spawnOk call
          { key := key, runtime := w.nextRuntime, initializeResult := initializeResult }]
        hcall (kept_refl _ _ (by simp)) rfl (by simp [Event.grants]) rfl rfl rfl
      exact ⟨hq.counts, hq.rooted, hq.taken⟩
  | move _ call frame frame' r' events hmover hcall heffect =>
      simp only [AccountingCond, hmover, Option.bind_some, hcall] at hcond
      cases heffect with
      | quiet _ _ _ _ hkept hleases hseq hlog hrel hrel' hclear hclear' hpend hroute =>
          exact balanced_quiet w h call frame frame' r' events hcall hkept hleases hlog hrel hrel'
            hclear
      | grant key clientKind pc record counters hrecord hpc =>
          have hcount : grantCount w.log < 2 ^ 64 := by
            rcases hpc with ⟨g, rfl⟩ | ⟨handle, rfl⟩ <;> exact hcond
          refine balanced_grant w h call _ _ key clientKind record counters [] hcall
            (nextId_new w hids hcount) (h.counts key record hrecord) ?_ (by simp)
            (hfresh.registered key record hrecord) rfl rfl rfl
          intro runtime hin
          simp only [SessionRegistry.instanceOf, hrecord, Option.map_some,
            Option.some.injEq] at hin
          exact hin.symm
      | register key clientKind handle counters hnone =>
          refine balanced_grant w h call _ _ key clientKind (SessionRecord.new handle w.now)
            counters [.registered key handle.runtime] hcall (nextId_new w hids hcond) ?_ ?_
            (by simp [Event.isGranted]) List.mem_cons_self rfl rfl rfl
          · -- Nothing was ever counted on a runtime that has not been registered.
            have hnew := hfresh.pendingNew call _ (key, handle) hcall rfl key
            have hlease : w.leasesOn key handle.runtime = 0 := by
              refine (Table.count_eq_zero _ _).mpr (fun id lease hget => ?_)
              rcases h.rooted id lease hget with ⟨runtime, hb, hr, _⟩
              simp only [Bool.and_eq_false_iff, decide_eq_false_iff_not]
              by_cases hk : lease.key = key
              · refine Or.inr (fun hc => hnew ?_)
                rw [hb, Option.some.injEq] at hc
                rw [hk, hc] at hr
                exact hr
              · exact Or.inl hk
            have hrel : w.releasesOn key handle.runtime = 0 := by
              refine (Table.count_eq_zero _ _).mpr (fun c f hget => ?_)
              cases hf : f.releasing with
              | none => exact takenFrom_of_releasing_none _ _ _ f hf
              | some taken =>
                  rcases taken with ⟨id, k⟩
                  rcases h.taken c f id k hget hf with ⟨runtime, hb, hr⟩
                  simp only [takenFrom, hf, Bool.and_eq_false_iff, decide_eq_false_iff_not]
                  by_cases hk : k = key
                  · refine Or.inr (fun hc => hnew ?_)
                    rw [hb, Option.some.injEq] at hc
                    rw [hk, hc] at hr
                    exact hr
                  · exact Or.inl hk
            change 0 = w.leasesOn key handle.runtime + w.releasesOn key handle.runtime
            rw [hlease, hrel]
          · intro runtime hin
            rw [SessionRegistry.instanceOf, hnone] at hin
            exact absurd hin (by simp)
      | take id lease hlease => exact balanced_take w h call id lease hcall hlease
      | decrement id key => exact balanced_decrement w h call id key _ hcall rfl hcond
      | removeSession key => exact balanced_removeSession w h call key hcall
      | removeLeases key => exact balanced_removeLeases w h call key hcall hcond

theorem balanced_run (idleTtl : Duration) (as : List Action) (w : World)
    (h : run step (init idleTtl) as = some w)
    (hcond : Along step AccountingCond (init idleTtl) as) :
    Balanced w := by
  have hinv := run_invariant (I := fun s => Fresh s ∧ LeaseIds s ∧ Balanced s)
    (fun s a s' hs hstep hc => ⟨fresh_step s s' a hs.1 hstep, leaseIds_step s s' a hs.2.1 hstep,
      balanced_step s s' a hs.1 hs.2.1 hs.2.2 hstep hc⟩) as _ w h
    ⟨fresh_init idleTtl, leaseIds_init idleTtl, balanced_init idleTtl⟩ hcond
  exact hinv.2.2

/-- When no call is in flight, no release is under way and no lease rests on a
    removal, so the leases on a key are the ones counted on its session. -/
theorem accounted_of_balanced (w : World) (h : Balanced w) (hquiet : w.Quiescent) :
    w.Accounted := by
  have hnoRelease : ∀ key runtime, w.releasesOn key runtime = 0 := by
    intro key runtime
    refine (Table.count_eq_zero _ _).mpr (fun c f hget => ?_)
    have hret := hquiet c f hget
    cases hf : f.releasing with
    | none => exact takenFrom_of_releasing_none _ _ _ f hf
    | some taken =>
        -- Between its halves a release is in flight.
        exfalso
        cases f with
        | release id pc =>
            cases pc with
            | decrement key => exact absurd hret (by simp [Frame.inFlight])
            | _ => exact absurd hf (by simp [Frame.releasing])
        | _ => exact absurd hf (by simp [Frame.releasing])
  have hroot : ∀ id lease, w.reg.leases.get? id = some lease →
      ∃ runtime, grantedOn id w.log = some runtime ∧
        w.reg.instanceOf lease.key = some runtime := by
    intro id lease hget
    rcases h.rooted id lease hget with ⟨runtime, hb, _, hin | ⟨c, f, hc, hclear⟩⟩
    · exact ⟨runtime, hb, hin⟩
    · exfalso
      have hret := hquiet c f hc
      cases f with
      | remove key pc =>
          cases pc with
          | leases => exact absurd hret (by simp [Frame.inFlight])
          | _ => exact absurd hclear (by simp [Frame.clearing])
      | _ => exact absurd hclear (by simp [Frame.clearing])
  constructor
  · intro id lease hget
    rcases hroot id lease hget with ⟨runtime, _, hin⟩
    rcases Option.map_eq_some_iff.mp hin with ⟨record, hrec, _⟩
    exact ⟨record, hrec⟩
  · intro key record hrec
    rw [h.counts key record hrec, hnoRelease, Nat.add_zero]
    refine Table.count_congr _ _ _ (fun id lease hget => ?_)
    by_cases hk : lease.key = key
    · rcases hroot id lease hget with ⟨runtime, hb, hin⟩
      rw [hk, SessionRegistry.instanceOf, hrec, Option.map_some, Option.some.injEq] at hin
      simp [hk, hb, ← hin]
    · simp [hk]

/-- In every run whose second halves are about the sessions they find, the
    leases and the counts agree whenever no call is in flight. -/
theorem accounted_run (idleTtl : Duration) (as : List Action) (w : World)
    (h : run step (init idleTtl) as = some w) (hcond : Along step AccountingCond (init idleTtl) as)
    (hquiet : w.Quiescent) : w.Accounted :=
  accounted_of_balanced w (balanced_run idleTtl as w h hcond) hquiet

theorem quiescent_iff (w : World) :
    w.Quiescent ↔ ∀ entry ∈ w.calls.entries, entry.2.inFlight = false := by
  constructor
  · exact fun h entry hmem => h entry.1 entry.2 ((Table.mem_entries_iff _ _ _).mp hmem)
  · exact fun h call frame hget => h ⟨call, frame⟩ ((Table.mem_entries_iff _ _ _).mpr hget)

/-- Two clients attach, one of them releases, and the session is removed; then a third
    attaches. -/
def attachedAgain : List Action :=
  acquireFresh 0 ++ acquireReuse 1 ++ releaseAll 2 "lease_1" ++ removeAll 3 ++ acquireFresh 4

theorem attachedAgain_isSome : (run step (init 5) attachedAgain).isSome = true := by
  decide

/-- The third has the one lease that is left. -/
theorem accounted_attachedAgain :
    ((run step (init 5) attachedAgain).get attachedAgain_isSome).Accounted ∧
      ((run step (init 5) attachedAgain).get attachedAgain_isSome).reg.leases.size = 1 :=
  ⟨accounted_run 5 attachedAgain _ (Option.some_get _).symm (by decide)
    ((quiescent_iff _).mpr (by decide)), by decide⟩

/-- A release has taken its lease when the session is removed and the key is
    given a new session; then it counts the lease off. -/
def overtakenRelease : List Action :=
  acquireFresh 0 ++ [.start 1 (.releaseByLeaseId "lease_1"), .sect 1] ++ removeAll 2 ++
    acquireFresh 3 ++ [.sect 1]

theorem overtakenRelease_isSome : (run step (init 5) overtakenRelease).isSome = true := by
  decide

/-- The accounting does not hold of every run: the new session has a lease and
    a count of zero. -/
theorem accounting_broken :
    ¬ ∀ (idleTtl : Duration) (as : List Action) (w : World),
      run step (init idleTtl) as = some w → w.Quiescent → w.Accounted := by
  intro hall
  have hacc := hall 5 overtakenRelease ((run step (init 5) overtakenRelease).get
    overtakenRelease_isSome) (Option.some_get _).symm ((quiescent_iff _).mpr (by decide))
  have hcount : (((run step (init 5) overtakenRelease).get
      overtakenRelease_isSome).reg.sessions.get? demoKey).map
      (fun record => record.refCount) = some 0 := by decide
  have hleases : ((run step (init 5) overtakenRelease).get overtakenRelease_isSome).reg.leases.count
      (fun _ lease => decide (lease.key = demoKey)) = 1 := by decide
  rcases Option.map_eq_some_iff.mp hcount with ⟨record, hrec, hzero⟩
  have := hacc.2 demoKey record hrec
  omega

end World

end Lspee
