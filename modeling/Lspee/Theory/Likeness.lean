import Lspee.Theory.Gates
import Lspee.Lib.Projection

/-!
# Two Registries That Agree on One Key

The state of a registry that serves every key, beside the state of one that has
served a single key, with the calls of each. The second has given out fewer
lease ids, runtimes and gates, so the two go by different names. Lease ids are
renamed by a function `σ`: a client knows an id before the call that uses it,
and the renamed run has to use the renamed one. Runtimes and gates are matched
by relations `P` and `G`, as the two sides create them. `F` tells which lease
ids are granted on another key.

`AlikeOn` says that the two agree on the key. Of the other keys the second
registry knows nothing, and the first has given them gates that are matched with
none. A call of the key is `Frame.Like` its counterpart: it is as far, and has
the same arguments and the same result. A call of another key is
`Frame.Elsewhere`.

What the sections of a call make of this is in `Theory.Following`; here are
the relations, and what the functions of the registry make of them.

## Main definitions

* `SessionHandle.Like`, `SessionRecord.Like`, `AcquirePc.Like`,
  `ForwardPc.Like`, `Frame.Like`: The same up to names.
* `Frame.Elsewhere`: The call is about another key.
* `SessionsLike`, `LeasesLike`, `GatesLike`: The tables agree on the key.
* `AlikeOn`: The registries agree on the key.

## Theorems

* `Frame.like_mono`, `Frame.elsewhere_mono`, `alike_mono`: More names may be
  matched.
* `LeasesLike.lookup`: A lease is found on both sides.
* `leases_grant`, `leases_grantOther`, `leases_erase`, `leases_eraseOther`,
  `leases_retain`, `leases_retainOther`: What the key's own operations do to the
  leases, and those of the others.
* `sessions_set`, `sessions_erase`, `sessions_other`: The same for the sessions.
* `gates_new`, `gates_newOther`, `gates_update`, `gates_updateOther`,
  `gates_drop`, `gates_dropOther`: And for the gates.
-/

namespace Lspee

/-! ### The same up to names -/

section Names

variable (σ : String → String) (P : RuntimeId → RuntimeId → Prop) (G : GateId → GateId → Prop)

/-- Handles of the same session. -/
structure SessionHandle.Like (handle handle' : SessionHandle) : Prop where
  key : handle'.key = handle.key
  runtime : P handle.runtime handle'.runtime
  initializeResult : handle'.initializeResult = handle.initializeResult

/-- Records of the same session. -/
structure SessionRecord.Like (record record' : SessionRecord) : Prop where
  handle : record.handle.Like P record'.handle
  refCount : record'.refCount = record.refCount
  lastUsed : record'.lastUsed = record.lastUsed
  terminating : record'.terminating = record.terminating
  terminationNotice : record'.terminationNotice = record.terminationNotice

/-- Acquires of the key that are as far, or have the same result. -/
inductive AcquirePc.Like (key : SessionKey) : AcquirePc → AcquirePc → Prop where
  | count : Like key .count .count
  | gate : Like key .gate .gate
  | lookup (g g' : GateId) (hg : G g g') : Like key (.lookup g) (.lookup g')
  | enter (g g' : GateId) (hg : G g g') : Like key (.enter g) (.enter g')
  | spawning (g g' : GateId) (hg : G g g') : Like key (.spawning g) (.spawning g')
  | leaveOk (g g' : GateId) (handle handle' : SessionHandle) (hg : G g g')
      (hhandle : handle.Like P handle') (hkey : handle.key = key) :
      Like key (.leave g (.ok handle)) (.leave g' (.ok handle'))
  | leaveError (g g' : GateId) (error : String) (hg : G g g') :
      Like key (.leave g (.error error)) (.leave g' (.error error))
  | publish (handle handle' : SessionHandle) (hhandle : handle.Like P handle')
      (hkey : handle.key = key) : Like key (.publish handle) (.publish handle')
  | dropGate (error : String) : Like key (.dropGate error) (.dropGate error)
  | waiting (g g' : GateId) (epoch : Nat) (hg : G g g') :
      Like key (.waiting g epoch) (.waiting g' epoch)
  | granted (id : String) : Like key (.returned (.ok ⟨id, key⟩)) (.returned (.ok ⟨σ id, key⟩))
  | failed (error : String) : Like key (.returned (.error error)) (.returned (.error error))

/-- Messages forwarded to the key's session that are as far, or have the same
    result. -/
inductive ForwardPc.Like (key : SessionKey) : ForwardPc → ForwardPc → Prop where
  | lease : Like key .lease .lease
  | session : Like key (.session key) (.session key)
  | awaiting (runtime runtime' : RuntimeId) (hruntime : P runtime runtime') :
      Like key (.awaiting key runtime) (.awaiting key runtime')
  | touch (response : Json) : Like key (.touch key response) (.touch key response)
  | returned (result : Except String (Option Json)) :
      Like key (.returned result) (.returned result)

end Names

/-- Calls of the key that are as far, or have the same result. Of what
    `idle_candidates` returns, it is what it returns of the key. -/
inductive Frame.Like (key : SessionKey) (F : String → Bool) (σ : String → String)
    (P : RuntimeId → RuntimeId → Prop) (G : GateId → GateId → Prop) : Frame → Frame → Prop where
  | acquire (clientKind : Option ClientKind) (pc pc' : AcquirePc)
      (hpc : pc.Like σ P G key pc') :
      Like key F σ P G (.acquire key clientKind pc) (.acquire key clientKind pc')
  | attached (id : String) (handle handle' : Option SessionHandle)
      (hhandle : Option.Rel (SessionHandle.Like P) handle handle') :
      Like key F σ P G (.attached ⟨id, key⟩ handle) (.attached ⟨σ id, key⟩ handle')
  | release (id : String) (pc : ReleasePc) (hid : F id = false)
      (hpc : ∀ k, pc = .decrement k → k = key) :
      Like key F σ P G (.release id pc) (.release (σ id) pc)
  | remove (pc : RemovePc) : Like key F σ P G (.remove key pc) (.remove key pc)
  | forward (kind : ForwardKind) (id : String) (message : Json) (pc pc' : ForwardPc)
      (hid : F id = false) (hpc : pc.Like P key pc') :
      Like key F σ P G (.forward kind id message pc) (.forward kind (σ id) message pc')
  | touch (returned : Bool) : Like key F σ P G (.touch key returned) (.touch key returned)
  | mark (notice : Option StreamErrorPayload) (returned : Bool) :
      Like key F σ P G (.mark key notice returned) (.mark key notice returned)
  | idle (start : Instant) : Like key F σ P G (.idle start none) (.idle start none)
  | candidates (start : Instant) (handles handles' : List SessionHandle)
      (hhandles : List.Forall₂ (SessionHandle.Like P)
        (handles.filter fun handle => decide (handle.key = key)) handles') :
      Like key F σ P G (.idle start (some handles)) (.idle start (some handles'))
  | increment (evictor : Evictor) (returned : Bool) :
      Like key F σ P G (.increment evictor returned) (.increment evictor returned)
  | crash (returned : Bool) : Like key F σ P G (.crash returned) (.crash returned)

/-- An acquire of another key holds a gate that is matched with none, and its
    lease is on another key. -/
def AcquirePc.Elsewhere (key : SessionKey) (G : GateId → GateId → Prop) (next : GateId) :
    AcquirePc → Prop
  | .lookup g => Stray G next g
  | .enter g => Stray G next g
  | .spawning g => Stray G next g
  | .leave g _ => Stray G next g
  | .waiting g _ => Stray G next g
  | .returned (.ok lease) => lease.key ≠ key
  | _ => True

/-- A release has found a lease on another key. -/
def ReleasePc.Elsewhere (key : SessionKey) : ReleasePc → Prop
  | .decrement k => k ≠ key
  | _ => True

/-- A message is forwarded to the session of another key. -/
def ForwardPc.Elsewhere (key : SessionKey) : ForwardPc → Prop
  | .session k => k ≠ key
  | .awaiting k _ => k ≠ key
  | .touch k _ => k ≠ key
  | _ => True

/-- The call is about another key. -/
def Frame.Elsewhere (key : SessionKey) (F : String → Bool) (G : GateId → GateId → Prop)
    (next : GateId) : Frame → Prop
  | .acquire k _ pc => k ≠ key ∧ pc.Elsewhere key G next
  | .attached lease _ => lease.key ≠ key
  | .release id pc => F id = true ∧ pc.Elsewhere key
  | .remove k _ => k ≠ key
  | .forward _ id _ pc => F id = true ∧ pc.Elsewhere key
  | .touch k _ => k ≠ key
  | .mark k _ _ => k ≠ key
  | _ => False

section Monotone

variable {key : SessionKey} {F : String → Bool} {σ : String → String}
  {P P' : RuntimeId → RuntimeId → Prop} {G G' : GateId → GateId → Prop} {next next' : GateId}

theorem SessionHandle.like_mono (hP : ∀ a b, P a b → P' a b) (handle handle' : SessionHandle)
    (h : handle.Like P handle') : handle.Like P' handle' :=
  ⟨h.key, hP _ _ h.runtime, h.initializeResult⟩

theorem SessionRecord.like_mono (hP : ∀ a b, P a b → P' a b) (record record' : SessionRecord)
    (h : record.Like P record') : record.Like P' record' :=
  ⟨SessionHandle.like_mono hP _ _ h.handle, h.refCount, h.lastUsed, h.terminating,
    h.terminationNotice⟩

theorem rel_mono {α β : Type*} {R R' : α → β → Prop} (hR : ∀ a b, R a b → R' a b) (x : Option α)
    (y : Option β) (h : Option.Rel R x y) : Option.Rel R' x y := by
  cases h with
  | some hab => exact .some (hR _ _ hab)
  | none => exact .none

/-- Both sides are there, or neither is. -/
theorem rel_cases {α β : Type*} {R : α → β → Prop} {x : Option α} {y : Option β}
    (h : Option.Rel R x y) :
    (x = none ∧ y = none) ∨ ∃ a b, x = some a ∧ y = some b ∧ R a b := by
  cases h with
  | some hab => exact Or.inr ⟨_, _, rfl, rfl, hab⟩
  | none => exact Or.inl ⟨rfl, rfl⟩

theorem AcquirePc.like_mono (hP : ∀ a b, P a b → P' a b) (hG : ∀ a b, G a b → G' a b)
    (pc pc' : AcquirePc) (h : pc.Like σ P G key pc') : pc.Like σ P' G' key pc' := by
  cases h with
  | count => exact .count
  | gate => exact .gate
  | lookup g g' hg => exact .lookup g g' (hG _ _ hg)
  | enter g g' hg => exact .enter g g' (hG _ _ hg)
  | spawning g g' hg => exact .spawning g g' (hG _ _ hg)
  | leaveOk g g' handle handle' hg hhandle hkey =>
      exact .leaveOk g g' handle handle' (hG _ _ hg) (SessionHandle.like_mono hP _ _ hhandle) hkey
  | leaveError g g' error hg => exact .leaveError g g' error (hG _ _ hg)
  | publish handle handle' hhandle hkey =>
      exact .publish handle handle' (SessionHandle.like_mono hP _ _ hhandle) hkey
  | dropGate error => exact .dropGate error
  | waiting g g' epoch hg => exact .waiting g g' epoch (hG _ _ hg)
  | granted id => exact .granted id
  | failed error => exact .failed error

theorem ForwardPc.like_mono (hP : ∀ a b, P a b → P' a b) (pc pc' : ForwardPc)
    (h : pc.Like P key pc') : pc.Like P' key pc' := by
  cases h with
  | lease => exact .lease
  | session => exact .session
  | awaiting runtime runtime' hruntime => exact .awaiting runtime runtime' (hP _ _ hruntime)
  | touch response => exact .touch response
  | returned result => exact .returned result

theorem Frame.like_mono (hP : ∀ a b, P a b → P' a b) (hG : ∀ a b, G a b → G' a b)
    (frame frame' : Frame) (h : frame.Like key F σ P G frame') :
    frame.Like key F σ P' G' frame' := by
  cases h with
  | acquire clientKind pc pc' hpc =>
      exact .acquire clientKind pc pc' (AcquirePc.like_mono hP hG pc pc' hpc)
  | attached id handle handle' hhandle =>
      exact .attached id handle handle' (rel_mono (SessionHandle.like_mono hP) _ _ hhandle)
  | release id pc hid hpc => exact .release id pc hid hpc
  | remove pc => exact .remove pc
  | forward kind id message pc pc' hid hpc =>
      exact .forward kind id message pc pc' hid (ForwardPc.like_mono hP pc pc' hpc)
  | touch returned => exact .touch returned
  | mark notice returned => exact .mark notice returned
  | idle start => exact .idle start
  | candidates start handles handles' hhandles =>
      exact .candidates start handles handles' (hhandles.imp (SessionHandle.like_mono hP))
  | increment evictor returned => exact .increment evictor returned
  | crash returned => exact .crash returned

/-- The gates that are matched with none stay so. -/
theorem Frame.elsewhere_mono (hG : ∀ g, Stray G next g → Stray G' next' g) (frame : Frame)
    (h : frame.Elsewhere key F G next) : frame.Elsewhere key F G' next' := by
  cases frame with
  | acquire k clientKind pc =>
      refine ⟨h.1, ?_⟩
      have hpc := h.2
      cases pc with
      | returned result =>
          cases result with
          | ok lease => exact hpc
          | error error => trivial
      | lookup g | enter g | spawning g | leave g result | waiting g epoch => exact hG g hpc
      | _ => trivial
  | _ => exact h

end Monotone

/-! ### The tables -/

/-- The sessions agree on the key, and the second table has no other. -/
structure SessionsLike (key : SessionKey) (P : RuntimeId → RuntimeId → Prop)
    (sessions sessions' : Table SessionKey SessionRecord) : Prop where
  here : Option.Rel (SessionRecord.Like P) (sessions.get? key) (sessions'.get? key)
  only : ∀ k, k ≠ key → sessions'.get? k = none

/-- The leases on the key are the same up to their ids, and the second table has
    no other. The ids tell which leases are on the key. -/
structure LeasesLike (key : SessionKey) (F : String → Bool) (σ : String → String)
    (leases leases' : Table String LeaseRecord) : Prop where
  keyed : ∀ id lease, leases.get? id = some lease → (lease.key = key ↔ F id = false)
  here : ∀ id lease, leases.get? id = some lease → lease.key = key →
    leases'.get? (σ id) = some lease
  only : ∀ id' lease, leases'.get? id' = some lease →
    ∃ id, σ id = id' ∧ leases.get? id = some lease ∧ lease.key = key

/-- The gates that the key's callers hold stand for the same, and so does the
    one registered for the key. The others are matched with none. -/
structure GatesLike (key : SessionKey) (G : GateId → GateId → Prop)
    (gates gates' : Table SessionKey GateId) (heap heap' : GateId → SpawnGate)
    (next next' : GateId) : Prop where
  pairing : Pairing G next next'
  heap : Agree G heap heap'
  here : Option.Rel G (gates.get? key) (gates'.get? key)
  others : ∀ k g, k ≠ key → gates.get? k = some g → Stray G next g

/-- The registries agree on the key. -/
structure AlikeOn (key : SessionKey) (F : String → Bool) (σ : String → String)
    (P : RuntimeId → RuntimeId → Prop) (G : GateId → GateId → Prop)
    (r r' : SessionRegistry) : Prop where
  sessions : SessionsLike key P r.sessions r'.sessions
  leases : LeasesLike key F σ r.leases r'.leases
  gates : GatesLike key G r.spawnGates r'.spawnGates r.gateHeap r'.gateHeap r.nextGate r'.nextGate
  idleTtl : r'.idleTtl = r.idleTtl

/-- More runtimes may be matched. -/
theorem alike_mono {key : SessionKey} {F : String → Bool} {σ : String → String}
    {P P' : RuntimeId → RuntimeId → Prop} {G : GateId → GateId → Prop} {r r' : SessionRegistry}
    (hP : ∀ a b, P a b → P' a b) (h : AlikeOn key F σ P G r r') : AlikeOn key F σ P' G r r' where
  sessions := ⟨rel_mono (SessionRecord.like_mono hP) _ _ h.sessions.here, h.sessions.only⟩
  leases := h.leases
  gates := h.gates
  idleTtl := h.idleTtl

section Tables

variable {key : SessionKey} {F : String → Bool} {σ : String → String}
  {P : RuntimeId → RuntimeId → Prop} {G : GateId → GateId → Prop}

section Sessions

variable {sessions sessions' : Table SessionKey SessionRecord}

/-- Records of the same session are written back under the key. -/
theorem sessions_set (h : SessionsLike key P sessions sessions') (record record' : SessionRecord)
    (hrecord : record.Like P record') :
    SessionsLike key P (sessions.set key record) (sessions'.set key record') where
  here := by
    rw [Table.get?_set_self, Table.get?_set_self]
    exact .some hrecord
  only := by
    intro k hk
    rw [Table.get?_set_ne _ _ _ _ hk]
    exact h.only k hk

theorem sessions_erase (h : SessionsLike key P sessions sessions') :
    SessionsLike key P (sessions.erase key) (sessions'.erase key) where
  here := by
    rw [Table.get?_erase_self, Table.get?_erase_self]
    exact .none
  only := by
    intro k hk
    rw [Table.get?_erase_ne _ _ _ hk]
    exact h.only k hk

/-- What happens to the sessions of other keys is not seen. -/
theorem sessions_other (h : SessionsLike key P sessions sessions')
    (sessions₂ : Table SessionKey SessionRecord)
    (hsame : sessions₂.get? key = sessions.get? key) : SessionsLike key P sessions₂ sessions' where
  here := by
    rw [hsame]
    exact h.here
  only := h.only

end Sessions

section Leases

variable {leases leases' : Table String LeaseRecord}

/-- A lease of the key is found under its new id. -/
theorem LeasesLike.lookup (h : LeasesLike key F σ leases leases')
    (hσ : Set.InjOn σ {id | F id = false}) (id : String) (hid : F id = false) :
    leases'.get? (σ id) = leases.get? id := by
  cases hget : leases.get? id with
  | some lease => exact h.here id lease hget ((h.keyed id lease hget).mpr hid)
  | none =>
      cases hget' : leases'.get? (σ id) with
      | none => rfl
      | some lease =>
          rcases h.only (σ id) lease hget' with ⟨id₂, heq, hget₂, hkey⟩
          have hsame : id₂ = id := hσ ((h.keyed id₂ lease hget₂).mp hkey) hid heq
          rw [hsame, hget] at hget₂
          exact absurd hget₂ (by simp)

theorem leases_grant (h : LeasesLike key F σ leases leases')
    (hσ : Set.InjOn σ {id | F id = false}) (id : String) (hid : F id = false)
    (lease : LeaseRecord) (hkey : lease.key = key) :
    LeasesLike key F σ (leases.set id lease) (leases'.set (σ id) lease) where
  keyed := by
    intro i l hget
    rcases (Table.get?_set_eq_some _ _ _ _ _).mp hget with ⟨rfl, rfl⟩ | ⟨-, hold⟩
    · exact iff_of_true hkey hid
    · exact h.keyed i l hold
  here := by
    intro i l hget hl
    rw [Table.get?_set_eq_some]
    rcases (Table.get?_set_eq_some _ _ _ _ _).mp hget with ⟨rfl, rfl⟩ | ⟨hne, hold⟩
    · exact Or.inl ⟨rfl, rfl⟩
    · refine Or.inr ⟨fun heq => hne ?_, h.here i l hold hl⟩
      exact hσ ((h.keyed i l hold).mp hl) hid heq
  only := by
    intro i' l hget
    rcases (Table.get?_set_eq_some _ _ _ _ _).mp hget with ⟨rfl, rfl⟩ | ⟨hne, hold⟩
    · exact ⟨id, rfl, Table.get?_set_self _ _ _, hkey⟩
    · rcases h.only i' l hold with ⟨i, rfl, hget', hl⟩
      refine ⟨i, rfl, ?_, hl⟩
      rw [Table.get?_set_ne _ _ _ _ (fun heq => hne (congrArg σ heq))]
      exact hget'

/-- A lease granted on another key has an id of its own. -/
theorem leases_grantOther (h : LeasesLike key F σ leases leases') (id : String)
    (hid : F id = true) (lease : LeaseRecord) (hkey : lease.key ≠ key) :
    LeasesLike key F σ (leases.set id lease) leases' where
  keyed := by
    intro i l hget
    rcases (Table.get?_set_eq_some _ _ _ _ _).mp hget with ⟨rfl, rfl⟩ | ⟨-, hold⟩
    · exact iff_of_false hkey (by rw [hid]; exact Bool.true_eq_false.mp)
    · exact h.keyed i l hold
  here := by
    intro i l hget hl
    rcases (Table.get?_set_eq_some _ _ _ _ _).mp hget with ⟨-, rfl⟩ | ⟨-, hold⟩
    · exact absurd hl hkey
    · exact h.here i l hold hl
  only := by
    intro i' l hget
    rcases h.only i' l hget with ⟨i, rfl, hold, hl⟩
    refine ⟨i, rfl, ?_, hl⟩
    have hne : i ≠ id := by
      rintro rfl
      rw [(h.keyed i l hold).mp hl] at hid
      exact absurd hid (by simp)
    rw [Table.get?_set_ne _ _ _ _ hne]
    exact hold

theorem leases_erase (h : LeasesLike key F σ leases leases')
    (hσ : Set.InjOn σ {id | F id = false}) (id : String) (hid : F id = false) :
    LeasesLike key F σ (leases.erase id) (leases'.erase (σ id)) where
  keyed := by
    intro i l hget
    rw [Table.get?_erase] at hget
    split at hget
    · exact absurd hget (by simp)
    · exact h.keyed i l hget
  here := by
    intro i l hget hl
    rw [Table.get?_erase] at hget
    split at hget
    · exact absurd hget (by simp)
    · rename_i hne
      have hne' : σ i ≠ σ id := fun heq => hne (hσ ((h.keyed i l hget).mp hl) hid heq)
      rw [Table.get?_erase_ne _ _ _ hne']
      exact h.here i l hget hl
  only := by
    intro i' l hget
    rw [Table.get?_erase] at hget
    split at hget
    · exact absurd hget (by simp)
    · rename_i hne
      rcases h.only i' l hget with ⟨i, rfl, hold, hl⟩
      refine ⟨i, rfl, ?_, hl⟩
      rw [Table.get?_erase_ne _ _ _ (fun heq => hne (congrArg σ heq))]
      exact hold

theorem leases_eraseOther (h : LeasesLike key F σ leases leases') (id : String)
    (hid : F id = true) : LeasesLike key F σ (leases.erase id) leases' where
  keyed := by
    intro i l hget
    rw [Table.get?_erase] at hget
    split at hget
    · exact absurd hget (by simp)
    · exact h.keyed i l hget
  here := by
    intro i l hget hl
    rw [Table.get?_erase] at hget
    split at hget
    · exact absurd hget (by simp)
    · exact h.here i l hget hl
  only := by
    intro i' l hget
    rcases h.only i' l hget with ⟨i, rfl, hold, hl⟩
    refine ⟨i, rfl, ?_, hl⟩
    have hne : i ≠ id := by
      rintro rfl
      rw [(h.keyed i l hold).mp hl] at hid
      exact absurd hid (by simp)
    rw [Table.get?_erase_ne _ _ _ hne]
    exact hold

/-- The leases on the key are dropped, and none is left in the second table. -/
theorem leases_retain (h : LeasesLike key F σ leases leases') :
    LeasesLike key F σ (leases.retain fun _ lease => decide (lease.key ≠ key))
      (leases'.retain fun _ lease => decide (lease.key ≠ key)) where
  keyed := fun i l hget => h.keyed i l ((Table.get?_retain_eq_some _ _ _ _).mp hget).1
  here := by
    intro i l hget hl
    exact absurd hl (of_decide_eq_true ((Table.get?_retain_eq_some _ _ _ _).mp hget).2)
  only := by
    intro i' l hget
    rcases (Table.get?_retain_eq_some _ _ _ _).mp hget with ⟨hold, hne⟩
    rcases h.only i' l hold with ⟨-, -, -, hl⟩
    exact absurd hl (of_decide_eq_true hne)

theorem leases_retainOther (h : LeasesLike key F σ leases leases') (k : SessionKey)
    (hk : k ≠ key) :
    LeasesLike key F σ (leases.retain fun _ lease => decide (lease.key ≠ k)) leases' where
  keyed := fun i l hget => h.keyed i l ((Table.get?_retain_eq_some _ _ _ _).mp hget).1
  here := fun i l hget hl => h.here i l ((Table.get?_retain_eq_some _ _ _ _).mp hget).1 hl
  only := by
    intro i' l hget
    rcases h.only i' l hget with ⟨i, rfl, hold, hl⟩
    refine ⟨i, rfl, (Table.get?_retain_eq_some _ _ _ _).mpr ⟨hold, ?_⟩, hl⟩
    rw [hl]
    exact decide_eq_true (Ne.symm hk)

end Leases

section Gates

variable {gates gates' : Table SessionKey GateId} {heap heap' : GateId → SpawnGate}
  {next next' : GateId}

/-- A gate is made for the key on both sides. -/
theorem gates_new (h : GatesLike key G gates gates' heap heap' next next') :
    GatesLike key (Pairing.extend G next next') (gates.set key next) (gates'.set key next')
      (Function.update heap next SpawnGate.new) (Function.update heap' next' SpawnGate.new)
      (next + 1) (next' + 1) where
  pairing := pairing_extend h.pairing
  heap := agree_extend h.pairing h.heap SpawnGate.new
  here := by
    rw [Table.get?_set_self, Table.get?_set_self]
    exact .some (Or.inr ⟨rfl, rfl⟩)
  others := by
    intro k g hk hget
    rw [Table.get?_set_ne _ _ _ _ hk] at hget
    exact stray_extend g (h.others k g hk hget)

/-- A gate is made for another key. -/
theorem gates_newOther (h : GatesLike key G gates gates' heap heap' next next') (k : SessionKey)
    (hk : k ≠ key) :
    GatesLike key G (gates.set k next) gates' (Function.update heap next SpawnGate.new) heap'
      (next + 1) next' where
  pairing := pairing_left h.pairing
  heap := agree_stray h.heap next SpawnGate.new (stray_new h.pairing).2
  here := by
    rw [Table.get?_set_ne _ _ _ _ (Ne.symm hk)]
    exact h.here
  others := by
    intro j g hj hget
    rcases (Table.get?_set_eq_some _ _ _ _ _).mp hget with ⟨-, rfl⟩ | ⟨-, hold⟩
    · exact stray_new h.pairing
    · exact stray_left g (h.others j g hj hold)

/-- A gate that callers of the key hold is written on both sides. -/
theorem gates_update (h : GatesLike key G gates gates' heap heap' next next') (g g' : GateId)
    (hg : G g g') (gate : SpawnGate) :
    GatesLike key G gates gates' (Function.update heap g gate) (Function.update heap' g' gate)
      next next' :=
  ⟨h.pairing, agree_update h.pairing h.heap g g' gate hg, h.here, h.others⟩

theorem gates_updateOther (h : GatesLike key G gates gates' heap heap' next next') (g : GateId)
    (hg : Stray G next g) (gate : SpawnGate) :
    GatesLike key G gates gates' (Function.update heap g gate) heap' next next' :=
  ⟨h.pairing, agree_stray h.heap g gate hg.2, h.here, h.others⟩

theorem gates_drop (h : GatesLike key G gates gates' heap heap' next next') :
    GatesLike key G (gates.erase key) (gates'.erase key) heap heap' next next' where
  pairing := h.pairing
  heap := h.heap
  here := by
    rw [Table.get?_erase_self, Table.get?_erase_self]
    exact .none
  others := by
    intro k g hk hget
    rw [Table.get?_erase_ne _ _ _ hk] at hget
    exact h.others k g hk hget

theorem gates_dropOther (h : GatesLike key G gates gates' heap heap' next next')
    (k : SessionKey) (hk : k ≠ key) :
    GatesLike key G (gates.erase k) gates' heap heap' next next' where
  pairing := h.pairing
  heap := h.heap
  here := by
    rw [Table.get?_erase_ne _ _ _ (Ne.symm hk)]
    exact h.here
  others := by
    intro j g hj hget
    rw [Table.get?_erase] at hget
    split at hget
    · exact absurd hget (by simp)
    · exact h.others j g hj hget

end Gates

end Tables

end Lspee
