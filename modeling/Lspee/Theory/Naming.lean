import Lspee.Theory.Releases

/-!
# Lease Ids Without the Other Keys

The counter of lease ids is shared by all keys. Without the calls of the other
keys, the leases of a key get the first ids of the counter, in the same order;
so each lease that was ever granted on the key has a new id, which the log
determines (`renamed`). A client that names an id which is never granted goes on
naming it.

As long as the counter has not gone around, ids are distinct, and so are the new
ones: `renamed_injOn` is for the ids that are not granted on other keys, the
ungranted ones included.

## Main definitions

* `grantedKey`: The key a lease id was granted on.
* `otherKey`: The id was granted on another key.
* `idsOn`: The ids granted on a key.
* `renamed`: The id as it is without the other keys.

## Theorems

* `grantedKey_of_mem`, `otherKey_of_mem`: With distinct ids, an id is granted on
  one key.
* `idsOn_append`, `idsOn_here`, `idsOn_there`, `mem_idsOn`, `idsOn_sublist`: What
  the ids of a key are.
* `idsOn_of_quiet`: Events that grant nothing name no id.
* `renamed_next`: The new id of the next lease on the key.
* `renamed_injOn`: Distinct ids stay distinct.
-/

namespace Lspee

/-- The key that a lease with the id was granted on. -/
def grantedKey (id : String) : List Event → Option SessionKey
  | [] => none
  | .granted _ lease _ :: log => if lease.id = id then some lease.key else grantedKey id log
  | _ :: log => grantedKey id log

/-- The id was granted on a key other than this one. -/
def otherKey (key : SessionKey) (log : List Event) (id : String) : Bool :=
  match grantedKey id log with
  | some k => decide (k ≠ key)
  | none => false

/-- The ids of the leases granted on the key, newest first. -/
def idsOn (key : SessionKey) (log : List Event) : List String :=
  log.filterMap fun
    | .granted _ lease _ => if lease.key = key then some lease.id else none
    | _ => none

/-- The id that the lease has in a daemon that serves no other key. -/
def renamed (key : SessionKey) (log : List Event) (id : String) : String :=
  if id ∈ idsOn key log then leaseId (1 + (idsOn key log).reverse.idxOf id) else id

theorem grantedKey_cons (id : String) (event : Event) (log : List Event)
    (h : event.isGranted = false) : grantedKey id (event :: log) = grantedKey id log := by
  cases event with
  | granted call lease runtime => exact absurd h (by simp [Event.isGranted])
  | _ => rfl

theorem mem_grantedIds (id : String) (log : List Event) :
    id ∈ grantedIds log ↔ ∃ call lease runtime, .granted call lease runtime ∈ log ∧
      lease.id = id := by
  rw [grantedIds, List.mem_filterMap]
  constructor
  · rintro ⟨event, hmem, hid⟩
    cases event with
    | granted call lease runtime => exact ⟨call, lease, runtime, hmem, Option.some.inj hid⟩
    | _ => exact absurd hid (by simp)
  · rintro ⟨call, lease, runtime, hmem, rfl⟩
    exact ⟨_, hmem, rfl⟩

/-- Where ids are distinct, an id is granted on one key. -/
theorem grantedKey_of_mem (log : List Event) (hnodup : (grantedIds log).Nodup) (call : CallId)
    (lease : Lease) (runtime : RuntimeId) (h : .granted call lease runtime ∈ log) :
    grantedKey lease.id log = some lease.key := by
  induction log with
  | nil => exact absurd h List.not_mem_nil
  | cons event log ih =>
      cases hev : event.isGranted with
      | false =>
          have hrest : Event.granted call lease runtime ∈ log := by
            rcases List.mem_cons.mp h with heq | hrest
            · rw [← heq] at hev
              exact absurd hev (by simp [Event.isGranted])
            · exact hrest
          have hids : grantedIds (event :: log) = grantedIds log := by
            rw [← List.singleton_append, grantedIds_append, grantedIds_of_quiet [event] (by simpa),
              List.nil_append]
          rw [grantedKey_cons _ _ _ hev]
          exact ih (hids ▸ hnodup) hrest
      | true =>
          cases event with
          | granted c l rt =>
              have hcons : grantedIds (.granted c l rt :: log) = l.id :: grantedIds log := rfl
              rw [hcons, List.nodup_cons] at hnodup
              rw [grantedKey]
              rcases List.mem_cons.mp h with heq | hrest
              · rw [Event.granted.injEq] at heq
                rw [heq.2.1, if_pos rfl]
              · have hne : l.id ≠ lease.id := by
                  intro heq
                  exact hnodup.1 ((mem_grantedIds _ _).mpr ⟨call, lease, runtime, hrest, heq.symm⟩)
                rw [if_neg hne]
                exact ih hnodup.2 hrest
          | _ => exact absurd hev (by simp [Event.isGranted])

theorem otherKey_of_mem (key : SessionKey) (log : List Event) (hnodup : (grantedIds log).Nodup)
    (call : CallId) (lease : Lease) (runtime : RuntimeId)
    (h : .granted call lease runtime ∈ log) :
    otherKey key log lease.id = decide (lease.key ≠ key) := by
  rw [otherKey, grantedKey_of_mem log hnodup call lease runtime h]

theorem idsOn_append (key : SessionKey) (events log : List Event) :
    idsOn key (events ++ log) = idsOn key events ++ idsOn key log :=
  List.filterMap_append

theorem idsOn_here (key : SessionKey) (call : CallId) (id : String) (runtime : RuntimeId)
    (log : List Event) :
    idsOn key (.granted call ⟨id, key⟩ runtime :: log) = id :: idsOn key log :=
  List.filterMap_cons_some (if_pos rfl)

theorem idsOn_there (key : SessionKey) (call : CallId) (lease : Lease) (runtime : RuntimeId)
    (log : List Event) (h : lease.key ≠ key) :
    idsOn key (.granted call lease runtime :: log) = idsOn key log :=
  List.filterMap_cons_none (if_neg h)

theorem mem_idsOn (key : SessionKey) (id : String) (log : List Event) :
    id ∈ idsOn key log ↔ ∃ call runtime, .granted call ⟨id, key⟩ runtime ∈ log := by
  rw [idsOn, List.mem_filterMap]
  constructor
  · rintro ⟨event, hmem, hid⟩
    cases event with
    | granted call lease runtime =>
        simp only [Option.ite_none_right_eq_some, Option.some.injEq] at hid
        rcases hid with ⟨rfl, rfl⟩
        exact ⟨call, runtime, hmem⟩
    | _ => exact absurd hid (by simp)
  · rintro ⟨call, runtime, hmem⟩
    exact ⟨_, hmem, if_pos rfl⟩

theorem idsOn_sublist (key : SessionKey) (log : List Event) :
    (idsOn key log).Sublist (grantedIds log) := by
  induction log with
  | nil => exact List.Sublist.refl _
  | cons event log ih =>
      cases event with
      | granted call lease runtime =>
          have hcons : grantedIds (.granted call lease runtime :: log)
              = lease.id :: grantedIds log := rfl
          rw [hcons]
          by_cases hkey : lease.key = key
          · rcases lease with ⟨id, k⟩
            obtain rfl : k = key := hkey
            rw [idsOn_here]
            exact ih.cons_cons _
          · rw [idsOn_there key call lease runtime log hkey]
            exact ih.cons _
      | _ => exact ih

theorem idsOn_of_quiet (key : SessionKey) (events : List Event)
    (h : ∀ event ∈ events, event.isGranted = false) : idsOn key events = [] := by
  have hsub := idsOn_sublist key events
  rw [grantedIds_of_quiet events h] at hsub
  exact List.sublist_nil.mp hsub

/-- The lease that is the next one on the key has the next id. -/
theorem renamed_next (key : SessionKey) (log later : List Event) (call : CallId) (id : String)
    (runtime : RuntimeId)
    (hnodup : (grantedIds (later ++ .granted call ⟨id, key⟩ runtime :: log)).Nodup) :
    renamed key (later ++ .granted call ⟨id, key⟩ runtime :: log) id
      = leaseId (1 + (idsOn key log).length) := by
  have hids : idsOn key (later ++ .granted call ⟨id, key⟩ runtime :: log)
      = idsOn key later ++ id :: idsOn key log := by
    rw [idsOn_append, idsOn_here]
  have hnodup' := hnodup.sublist (idsOn_sublist key _)
  rw [hids, List.nodup_append, List.nodup_cons] at hnodup'
  have hnew : id ∉ (idsOn key log).reverse := by
    rw [List.mem_reverse]
    exact hnodup'.2.1.1
  rw [renamed, hids, if_pos (List.mem_append_right _ List.mem_cons_self), List.reverse_append,
    List.reverse_cons, List.append_assoc, List.idxOf_append_of_notMem hnew,
    List.singleton_append, List.idxOf_cons_self, List.length_reverse, Nat.add_zero]

/-- A new id is among the first ones of the counter. -/
theorem renamed_mem (key : SessionKey) (w : World) (hnamed : w.NamedInOrder)
    (hfew : grantCount w.log < 2 ^ 64) (id : String) (h : id ∈ idsOn key w.log) :
    renamed key w.log id ∈ grantedIds w.log := by
  have hindex : (idsOn key w.log).reverse.idxOf id < (idsOn key w.log).length := by
    rw [← List.length_reverse]
    exact List.idxOf_lt_length_of_mem (List.mem_reverse.mpr h)
  have hlength : (idsOn key w.log).length ≤ grantCount w.log := by
    have hle := (idsOn_sublist key w.log).length_le
    rw [hnamed, firstIds, List.length_map, List.length_reverse, List.length_range] at hle
    exact hle
  rw [renamed, if_pos h, hnamed, firstIds, List.mem_map]
  refine ⟨(idsOn key w.log).reverse.idxOf id, ?_, ?_⟩
  · rw [List.mem_reverse, List.mem_range]
    omega
  · rw [Nat.mod_eq_of_lt (by omega)]

/-- Ids that are not of another key stay distinct. -/
theorem renamed_injOn (key : SessionKey) (w : World) (hnamed : w.NamedInOrder)
    (hfew : grantCount w.log < 2 ^ 64) :
    Set.InjOn (renamed key w.log) {id | otherKey key w.log id = false} := by
  -- An id of the key and one that nobody was granted do not meet: the first one
  -- is renamed to a granted id.
  have hapart : ∀ id id', id ∈ idsOn key w.log → id' ∉ idsOn key w.log →
      otherKey key w.log id' = false → renamed key w.log id ≠ renamed key w.log id' := by
    intro id id' hid hid' hother heq
    have hmem := renamed_mem key w hnamed hfew id hid
    rw [heq, renamed, if_neg hid'] at hmem
    rcases (mem_grantedIds id' w.log).mp hmem with ⟨call, lease, runtime, hgranted, rfl⟩
    have hnodup : (grantedIds w.log).Nodup := by
      rw [hnamed]
      exact firstIds_nodup _ (Nat.le_of_lt hfew)
    rw [otherKey_of_mem key w.log hnodup call lease runtime hgranted, decide_eq_false_iff_not,
      not_not] at hother
    refine hid' ((mem_idsOn key lease.id w.log).mpr ⟨call, runtime, ?_⟩)
    rw [← hother]
    exact hgranted
  intro id hid id' hid' heq
  by_cases hmem : id ∈ idsOn key w.log <;> by_cases hmem' : id' ∈ idsOn key w.log
  · rw [renamed, renamed, if_pos hmem, if_pos hmem'] at heq
    have hindex := leaseId_injective _ _ heq
    exact (List.idxOf_inj (List.mem_reverse.mpr hmem)).mp (by omega)
  · exact absurd heq (hapart id id' hmem hmem' hid')
  · exact absurd heq.symm (hapart id' id hmem' hmem hid)
  · rw [renamed, renamed, if_neg hmem, if_neg hmem'] at heq
    exact heq

end Lspee
