import Lspee.Theory.Binding

/-!
# How Long a Lease Is Recorded

A lease is recorded in the registry from its grant until a step withdraws it:
the first section of a release that names it, or the second section of a removal
of its key. Nothing else takes a lease out (`lease_kept`), and once it is out it
does not come back, as long as its id is not given out a second time
(`lease_gone`).

These are facts about single steps of the world and about one lease. A process
of the daemon that makes its calls in the world is a machine that `Hosts` the
world, and inherits them for its own runs.

## Main definitions

* `Withdraws`: The step takes the lease out.
* `AttachedGranted`: The leases that attaches have returned were granted.
* `LeaseSound`: What every run keeps of the leases.
* `Hosts`: A process of the daemon, with the world around it.
* `WithdrawsIn`, `NewIdIn`: What its steps do to the leases.

## Theorems

* `lease_kept`: A lease that is not withdrawn stays recorded.
* `lease_withdrawn`: A lease that is withdrawn is out.
* `lease_gone`: A lease that is out stays out.
* `granted_recorded`: A lease is recorded from its grant.
* `leaseSound_step`: The invariant.
* `release_step`: What a release does to its lease.
* `recorded_run`, `gone_run`: The same over the runs of a process.
-/

namespace Lspee

open Transition

namespace World

/-- The step takes the recorded lease out: it is the first section of a release
    of its id, or the second section of a removal of its key. -/
def Withdraws (w : World) (a : Action) (id : String) : Prop :=
  ∃ call lease, a.mover = some call ∧ w.reg.leases.get? id = some lease ∧
    (w.calls.get? call = some (.release id .take) ∨
      w.calls.get? call = some (.remove lease.key .leases))

theorem lease_kept (w w' : World) (a : Action) (id : String) (hstep : w.step a = some w')
    (h : w.reg.leases.get? id ≠ none) (hnot : ¬w.Withdraws a id) :
    w'.reg.leases.get? id ≠ none := by
  rcases Option.ne_none_iff_exists'.mp h with ⟨lease₀, hlease₀⟩
  cases step_effect w w' a hstep with
  | tick span => exact h
  | start call method hfree => exact h
  | spawnOk call key clientKind g initializeResult hcall => exact h
  | move _ call frame frame' r' events hmover hcall heffect =>
      -- A grant may write the id a second time, and never erases it.
      have hset : ∀ i lease, ((w.reg.leases.set i lease).get? id) ≠ none := by
        intro i lease
        rw [Table.get?_set]
        split
        · simp
        · exact h
      cases heffect with
      | quiet _ _ _ _ hkept hleases hseq hlog hrel hrel' hclear hclear' hpend hroute =>
          change r'.leases.get? id ≠ none
          rw [hleases]
          exact h
      | grant key clientKind pc record counters hrecord hpc => exact hset _ _
      | register key clientKind handle counters hnone => exact hset _ _
      | take id' lease hlease =>
          have hne : id ≠ id' := by
            intro heq
            rw [← heq] at hcall
            exact hnot ⟨call, lease₀, hmover, hlease₀, Or.inl hcall⟩
          change (w.reg.leases.erase id').get? id ≠ none
          rw [Table.get?_erase_ne _ _ _ hne]
          exact h
      | decrement id' key =>
          change (w.reg.releaseSession key w.now).1.leases.get? id ≠ none
          unfold SessionRegistry.releaseSession
          split <;> exact h
      | removeSession key => exact h
      | removeLeases key =>
          have hne : lease₀.key ≠ key := by
            intro heq
            rw [← heq] at hcall
            exact hnot ⟨call, lease₀, hmover, hlease₀, Or.inr hcall⟩
          change (w.reg.leases.retain _).get? id ≠ none
          rw [(Table.get?_retain_eq_some _ _ _ lease₀).mpr ⟨hlease₀, decide_eq_true hne⟩]
          simp

theorem lease_withdrawn (w w' : World) (a : Action) (id : String) (hstep : w.step a = some w')
    (h : w.Withdraws a id) : w'.reg.leases.get? id = none := by
  rcases h with ⟨call, lease, hmover, hlease, hcall | hcall⟩
  · rcases sect_of_mover w w' a call _ hmover hcall (by simp) (by simp) hstep with
      ⟨r', frame', events, hsec, hw'⟩
    simp only [Frame.section, ReleasePc.section, SessionRegistry.takeLease, hlease,
      Option.map_some, Option.some.injEq, Prod.mk.injEq] at hsec
    rw [hw']
    change r'.leases.get? id = none
    rw [← hsec.1]
    exact Table.get?_erase_self _ _
  · rcases sect_of_mover w w' a call _ hmover hcall (by simp) (by simp) hstep with
      ⟨r', frame', events, hsec, hw'⟩
    simp only [Frame.section, RemovePc.section, Option.map_some, Option.some.injEq,
      Prod.mk.injEq] at hsec
    rw [hw']
    change r'.leases.get? id = none
    rw [← hsec.1]
    cases hget : (w.reg.removeLeases lease.key).leases.get? id with
    | none => exact hget
    | some lease' =>
        rcases (Table.get?_retain_eq_some _ _ _ _).mp hget with ⟨hold, hne⟩
        rw [hlease, Option.some.injEq] at hold
        exact absurd (congrArg LeaseRecord.key hold.symm) (of_decide_eq_true hne)

/-- A lease that was granted and is out stays out, unless its id is given out
    again. -/
theorem lease_gone (w w' : World) (a : Action) (id : String) (hids : LeaseIds w)
    (hstep : w.step a = some w') (hnew : w.NewIdCond a)
    (hgranted : ∃ runtime, grantedOn id w.log = some runtime)
    (h : w.reg.leases.get? id = none) : w'.reg.leases.get? id = none := by
  cases step_effect w w' a hstep with
  | tick span => exact h
  | start call method hfree => exact h
  | spawnOk call key clientKind g initializeResult hcall => exact h
  | move _ call frame frame' r' events hmover hcall heffect =>
      rw [NewIdCond, hmover, Option.bind_some, hcall] at hnew
      -- A grant writes an id that has not been granted.
      have hset : grantCount w.log < 2 ^ 64 → ∀ lease,
          (w.reg.leases.set (leaseId w.reg.leaseSeq) lease).get? id = none := by
        intro hcount lease
        have hne : id ≠ leaseId w.reg.leaseSeq := by
          intro heq
          rcases hgranted with ⟨runtime, hid⟩
          rw [heq, nextId_new w hids hcount] at hid
          exact absurd hid (by simp)
        rw [Table.get?_set_ne _ _ _ _ hne, h]
      cases heffect with
      | quiet _ _ _ _ hkept hleases hseq hlog hrel hrel' hclear hclear' hpend hroute =>
          change r'.leases.get? id = none
          rw [hleases]
          exact h
      | grant key clientKind pc record counters hrecord hpc =>
          have hcount : grantCount w.log < 2 ^ 64 := by
            rcases hpc with ⟨g, rfl⟩ | ⟨handle, rfl⟩ <;> exact hnew
          exact hset hcount _
      | register key clientKind handle counters hnone => exact hset hnew _
      | take id' lease hlease =>
          change (w.reg.leases.erase id').get? id = none
          rw [Table.get?_erase]
          split
          · rfl
          · exact h
      | decrement id' key =>
          change (w.reg.releaseSession key w.now).1.leases.get? id = none
          unfold SessionRegistry.releaseSession
          split <;> exact h
      | removeSession key => exact h
      | removeLeases key =>
          cases hget : (w.reg.removeLeases key).leases.get? id with
          | none => exact hget
          | some lease =>
              have hold := ((Table.get?_retain_eq_some _ _ _ _).mp hget).1
              rw [h] at hold
              exact absurd hold (by simp)

/-- A lease whose grant a step records is recorded after the step. -/
theorem granted_recorded (w w' : World) (a : Action) (hstep : w.step a = some w') (id : String)
    (h : ∃ runtime, grantedOn id w'.log = some runtime) :
    (∃ runtime, grantedOn id w.log = some runtime) ∨ w'.reg.leases.get? id ≠ none := by
  cases step_effect w w' a hstep with
  | tick span => exact Or.inl h
  | start call method hfree => exact Or.inl h
  | spawnOk call key clientKind g initializeResult hcall => exact Or.inl h
  | move _ call frame frame' r' events hmover hcall heffect =>
      rcases h with ⟨runtime, hid⟩
      cases heffect with
      | quiet _ _ _ _ hkept hleases hseq hlog hrel hrel' hclear hclear' hpend hroute =>
          exact Or.inl ⟨runtime, (grantedOn_append id events w.log hlog).symm.trans hid⟩
      -- The two grants record the lease in the table as they log it.
      | grant key clientKind pc record counters hrecord hpc =>
          by_cases hid' : id = leaseId w.reg.leaseSeq
          · right
            change (w.reg.leases.set _ _).get? id ≠ none
            rw [hid', Table.get?_set_self]
            simp
          · left
            have hskip := grantedOn_grant w.log [] call { id := leaseId w.reg.leaseSeq, key := key }
              record.handle.runtime (by simp) id
            rw [if_neg hid'] at hskip
            exact ⟨runtime, hskip.symm.trans hid⟩
      | register key clientKind handle counters hnone =>
          by_cases hid' : id = leaseId w.reg.leaseSeq
          · right
            change (w.reg.leases.set _ _).get? id ≠ none
            rw [hid', Table.get?_set_self]
            simp
          · left
            have hskip := grantedOn_grant w.log [.registered key handle.runtime] call
              { id := leaseId w.reg.leaseSeq, key := key } handle.runtime
              (by simp [Event.isGranted]) id
            rw [if_neg hid'] at hskip
            exact ⟨runtime, hskip.symm.trans hid⟩
      | take id' lease hlease => exact Or.inl ⟨runtime, hid⟩
      | decrement id' key => exact Or.inl ⟨runtime, hid⟩
      | removeSession key => exact Or.inl ⟨runtime, hid⟩
      | removeLeases key => exact Or.inl ⟨runtime, hid⟩

/-! ### The leases of attaches -/

/-- A lease that an attach has returned was granted. -/
def AttachedGranted (w : World) : Prop :=
  ∀ call lease handle, w.calls.get? call = some (.attached lease handle) →
    ∃ runtime, grantedOn lease.id w.log = some runtime

/-- Only an acquire that has its lease becomes an attach. -/
theorem section_attached (call : CallId) (now : Instant) (r r' : SessionRegistry) (frame : Frame)
    (lease : Lease) (handle : Option SessionHandle) (events : List Event)
    (h : frame.section call now r = some (r', .attached lease handle, events)) :
    ∃ key clientKind, frame = .acquire key clientKind (.returned (.ok lease)) := by
  cases frame with
  | acquire key clientKind pc =>
      rcases section_acquire call now r r' key clientKind pc _ events h with
        ⟨lease', hpc, _, hframe, _⟩ | ⟨pc', _, hframe⟩
      · rw [Frame.attached.injEq] at hframe
        exact ⟨key, clientKind, by rw [hpc, hframe.1]⟩
      · exact absurd hframe (by simp)
  | attached lease' handle' => simp [Frame.section] at h
  | release id pc => simp [Frame.section] at h
  | remove key pc => simp [Frame.section] at h
  | forward kind id message pc => simp [Frame.section] at h
  | touch key returned => simp [Frame.section] at h
  | mark key notice returned => simp [Frame.section] at h
  | idle start result => cases result <;> simp [Frame.section] at h
  | increment evictor returned => simp [Frame.section] at h
  | crash returned => simp [Frame.section] at h

theorem attached_step (w w' : World) (a : Action) (hstep : w.step a = some w') (c : CallId)
    (lease : Lease) (handle : Option SessionHandle)
    (h : w'.calls.get? c = some (.attached lease handle)) :
    w.calls.get? c = some (.attached lease handle) ∨
      ∃ key clientKind,
        w.calls.get? c = some (.acquire key clientKind (.returned (.ok lease))) := by
  cases a with
  | tick span =>
      simp only [step, Option.some.injEq] at hstep
      rw [← hstep] at h
      exact Or.inl h
  | start call method =>
      simp only [step] at hstep
      split at hstep
      · exact absurd hstep (by simp)
      · rw [Option.some.injEq] at hstep
        rw [← hstep] at h
        rcases (Table.get?_set_eq_some _ _ _ _ _).mp h with ⟨_, hnew⟩ | ⟨_, hold⟩
        · cases method <;> simp [Method.frame] at hnew
        · exact Or.inl hold
  | sect call =>
      simp only [step] at hstep
      split at hstep
      · exact absurd hstep (by simp)
      · rename_i frame hcall
        rcases Option.map_eq_some_iff.mp hstep with ⟨⟨r', frame', events⟩, hsec, hw'⟩
        rw [← hw'] at h
        -- The one section that ends in an attach is the `get` after the acquire.
        rcases (Table.get?_set_eq_some _ _ _ _ _).mp h with ⟨hc, hnew⟩ | ⟨_, hold⟩
        · rw [show frame' = .attached lease handle from hnew] at hsec
          rcases section_attached _ _ _ _ _ _ _ _ hsec with ⟨key, clientKind, hframe⟩
          exact Or.inr ⟨key, clientKind, by rw [hc, hcall, hframe]⟩
        · exact Or.inl hold
  | spawnReturns call result =>
      simp only [step] at hstep
      split at hstep
      · rw [Option.some.injEq] at hstep
        rw [← hstep] at h
        cases result with
        | ok initializeResult =>
            rcases (Table.get?_set_eq_some _ _ _ _ _).mp h with ⟨_, hnew⟩ | ⟨_, hold⟩
            · exact absurd hnew (by simp)
            · exact Or.inl hold
        | error error =>
            rcases (Table.get?_set_eq_some _ _ _ _ _).mp h with ⟨_, hnew⟩ | ⟨_, hold⟩
            · exact absurd hnew (by simp)
            · exact Or.inl hold
      · exact absurd hstep (by simp)
  | runtimeReturns call result =>
      simp only [step] at hstep
      split at hstep
      · rw [Option.some.injEq] at hstep
        rw [← hstep] at h
        cases result with
        | ok response =>
            rcases (Table.get?_set_eq_some _ _ _ _ _).mp h with ⟨_, hnew⟩ | ⟨_, hold⟩
            · exact absurd hnew (by simp)
            · exact Or.inl hold
        | error error =>
            rcases (Table.get?_set_eq_some _ _ _ _ _).mp h with ⟨_, hnew⟩ | ⟨_, hold⟩
            · exact absurd hnew (by simp)
            · exact Or.inl hold
      · exact absurd hstep (by simp)

/-- What every run keeps of the leases. -/
structure LeaseSound (w : World) : Prop where
  ids : LeaseIds w
  held : HeldGranted w
  attached : AttachedGranted w

theorem leaseSound_init (idleTtl : Duration) : LeaseSound (init idleTtl) where
  ids := leaseIds_init idleTtl
  held := heldGranted_init idleTtl
  attached := fun call lease handle hcall => absurd hcall (by simp [init])

theorem leaseSound_step (w w' : World) (a : Action) (h : LeaseSound w)
    (hstep : w.step a = some w') : LeaseSound w' where
  ids := leaseIds_step w w' a h.ids hstep
  held := heldGranted_step w w' a h.held hstep
  attached := by
    intro call lease handle hcall
    refine wasGranted_step w w' a hstep lease.id ?_
    rcases attached_step w w' a hstep call lease handle hcall with hold | ⟨key, clientKind, hold⟩
    · exact h.attached call lease handle hold
    · exact h.held lease.id key (Or.inr ⟨call, _, hold, rfl⟩)

/-- A recorded lease was granted. -/
theorem granted_of_recorded (w : World) (h : LeaseSound w) (id : String)
    (hid : w.reg.leases.get? id ≠ none) : ∃ runtime, grantedOn id w.log = some runtime := by
  rcases Option.ne_none_iff_exists'.mp hid with ⟨lease, hlease⟩
  exact h.held id lease.key (Or.inl ⟨lease, hlease, rfl⟩)

/-! ### The release of a lease -/

/-- A release that is past its first section stays so, and after its first
    section the lease is out. -/
theorem release_step (w w' : World) (a : Action) (hstep : w.step a = some w') (call : CallId)
    (id : String) (pc : ReleasePc) (hcall : w.calls.get? call = some (.release id pc)) :
    ∃ pc', w'.calls.get? call = some (.release id pc') ∧
      (pc = .take → pc' = .take ∨ w'.reg.leases.get? id = none) ∧ (pc ≠ .take → pc' ≠ .take) := by
  by_cases hmover : a.mover = some call
  · rcases sect_of_mover w w' a call _ hmover hcall (by simp) (by simp) hstep with
      ⟨r', frame', events, hsec, hw'⟩
    rcases Option.map_eq_some_iff.mp hsec with ⟨⟨r₁, pc'⟩, hpc', heq⟩
    simp only [Prod.mk.injEq] at heq
    have hget : w'.calls.get? call = some (.release id pc') := by
      rw [hw', heq.2.1]
      exact Table.get?_set_self _ _ _
    refine ⟨pc', hget, fun htake => Or.inr ?_, fun htake => ?_⟩
    · rw [hw']
      change r'.leases.get? id = none
      rw [← heq.1]
      rw [htake, ReleasePc.section, SessionRegistry.takeLease] at hpc'
      cases hlease : w.reg.leases.get? id with
      | none =>
          simp only [hlease, Option.some.injEq, Prod.mk.injEq] at hpc'
          rw [← hpc'.1, hlease]
      | some lease =>
          simp only [hlease, Option.some.injEq, Prod.mk.injEq] at hpc'
          rw [← hpc'.1]
          exact Table.get?_erase_self _ _
    · cases pc with
      | take => exact absurd rfl htake
      | decrement key =>
          simp only [ReleasePc.section, Option.some.injEq, Prod.mk.injEq] at hpc'
          rw [← hpc'.2]
          simp
      | returned result => simp [ReleasePc.section] at hpc'
  · exact ⟨pc, calls_step w w' a hstep call _ hcall hmover, Or.inl, fun h => h⟩

end World

/-! ### Processes that live in the world -/

section Host

variable {σ α : Type} (machine : σ → α → Option σ) (world : σ → World)
  (inner : α → Option Action)

/-- A machine that contains the world: its steps are the steps of the world that
    `inner` names, or leave the world alone, or begin a call in it. -/
structure Hosts : Prop where
  inside : ∀ s a s' b, machine s a = some s' → inner a = some b →
    (world s).step b = some (world s')
  outside : ∀ s a s', machine s a = some s' → inner a = none → world s' = world s ∨
    ∃ call method, (world s).step (.start call method) = some (world s')

/-- The step of the machine takes the lease out. -/
def WithdrawsIn (id : String) (s : σ) (a : α) : Prop :=
  ∃ b, inner a = some b ∧ (world s).Withdraws b id

/-- The step of the machine gives out no id a second time. -/
def NewIdIn (s : σ) (a : α) : Prop :=
  ∀ b, inner a = some b → (world s).NewIdCond b

instance decidableNewIdIn (s : σ) (a : α) : Decidable (NewIdIn world inner s a) :=
  match h : inner a with
  | none => isTrue (fun b hb => by rw [h] at hb; exact absurd hb (by simp))
  | some b =>
    decidable_of_iff ((world s).NewIdCond b)
      ⟨fun hnew b' hb => by rw [h, Option.some.injEq] at hb; rw [← hb]; exact hnew,
        fun hnew => hnew b h⟩

variable {machine world inner}

theorem newIdCond_of_mover_none (w : World) (b : Action) (h : b.mover = none) :
    w.NewIdCond b := by
  rw [World.NewIdCond, h, Option.bind_none]
  trivial

theorem not_withdraws_of_mover_none (w : World) (b : Action) (id : String) (h : b.mover = none) :
    ¬w.Withdraws b id := by
  rintro ⟨call, lease, hmover, _⟩
  rw [h] at hmover
  exact absurd hmover (by simp)

/-- A step changes nothing in the world, or is a step of the world that `inner`
    names or that moves no call. -/
theorem host_step (hhost : Hosts machine world inner) (s s' : σ) (a : α)
    (hstep : machine s a = some s') : world s' = world s ∨
      ∃ b, (world s).step b = some (world s') ∧ (inner a = some b ∨ b.mover = none) := by
  cases hinner : inner a with
  | some b => exact Or.inr ⟨b, hhost.inside s a s' b hstep hinner, Or.inl rfl⟩
  | none =>
      rcases hhost.outside s a s' hstep hinner with hsame | ⟨call, method, hb⟩
      · exact Or.inl hsame
      · exact Or.inr ⟨_, hb, Or.inr rfl⟩

theorem leaseSound_host (hhost : Hosts machine world inner) (s s' : σ) (a : α)
    (hsound : World.LeaseSound (world s)) (hstep : machine s a = some s') :
    World.LeaseSound (world s') := by
  rcases host_step hhost s s' a hstep with hsame | ⟨b, hb, _⟩
  · rw [hsame]
    exact hsound
  · exact World.leaseSound_step _ _ b hsound hb

/-- A granted lease that no step withdraws stays recorded. -/
theorem recorded_step (hhost : Hosts machine world inner) (id : String) (s s' : σ) (a : α)
    (hrec : (∃ runtime, grantedOn id (world s).log = some runtime) →
      (world s).reg.leases.get? id ≠ none)
    (hstep : machine s a = some s') (hnot : ¬WithdrawsIn world inner id s a)
    (hgranted : ∃ runtime, grantedOn id (world s').log = some runtime) :
    (world s').reg.leases.get? id ≠ none := by
  rcases host_step hhost s s' a hstep with hsame | ⟨b, hb, hinner⟩
  · rw [hsame] at hgranted ⊢
    exact hrec hgranted
  · have hnotb : ¬(world s).Withdraws b id := by
      rcases hinner with hinner | hmover
      · exact fun hw => hnot ⟨b, hinner, hw⟩
      · exact not_withdraws_of_mover_none _ b id hmover
    rcases World.granted_recorded _ _ b hb id hgranted with hbefore | hnow
    · exact World.lease_kept _ _ b id hb (hrec hbefore) hnotb
    · exact hnow

theorem recorded_run (hhost : Hosts machine world inner) (id : String) (as : List α) (s t : σ)
    (hrun : run machine s as = some t)
    (hrec : (∃ runtime, grantedOn id (world s).log = some runtime) →
      (world s).reg.leases.get? id ≠ none)
    (hnot : Along machine (fun s a => ¬WithdrawsIn world inner id s a) s as) :
    (∃ runtime, grantedOn id (world t).log = some runtime) →
      (world t).reg.leases.get? id ≠ none :=
  run_invariant (I := fun s => (∃ runtime, grantedOn id (world s).log = some runtime) →
      (world s).reg.leases.get? id ≠ none)
    (fun s a s' hs hstep hC => recorded_step hhost id s s' a hs hstep hC) as s t hrun hrec hnot

/-- A granted lease that is out stays out, if no id is given out twice. -/
theorem gone_step (hhost : Hosts machine world inner) (id : String) (s s' : σ) (a : α)
    (hsound : World.LeaseSound (world s))
    (hgranted : ∃ runtime, grantedOn id (world s).log = some runtime)
    (hgone : (world s).reg.leases.get? id = none) (hstep : machine s a = some s')
    (hnew : NewIdIn world inner s a) :
    (∃ runtime, grantedOn id (world s').log = some runtime) ∧
      (world s').reg.leases.get? id = none := by
  rcases host_step hhost s s' a hstep with hsame | ⟨b, hb, hinner⟩
  · rw [hsame]
    exact ⟨hgranted, hgone⟩
  · have hnewb : (world s).NewIdCond b := by
      rcases hinner with hinner | hmover
      · exact hnew b hinner
      · exact newIdCond_of_mover_none _ b hmover
    exact ⟨wasGranted_step _ _ b hb id hgranted,
      World.lease_gone _ _ b id hsound.ids hb hnewb hgranted hgone⟩

/-- A lease that some step of a run withdrew is out at its end. -/
theorem gone_run (hhost : Hosts machine world inner) (id : String) (as : List α) (s t : σ)
    (hrun : run machine s as = some t) (hsound : World.LeaseSound (world s))
    (hnew : Along machine (NewIdIn world inner) s as)
    (hsome : ¬Along machine (fun s a => ¬WithdrawsIn world inner id s a) s as) :
    (world t).reg.leases.get? id = none := by
  rcases exists_of_not_along as s hsome with ⟨bs, a, cs, u, u', has, hbs, hstep, hnot⟩
  rcases not_not.mp hnot with ⟨b, hinner, hw⟩
  have hsoundu : World.LeaseSound (world u) :=
    run_invariant (fun s a s' hs hstep _ => leaseSound_host hhost s s' a hs hstep) bs s u hbs
      hsound (along_true bs s)
  rw [has] at hnew hrun
  rw [run_append bs (a :: cs) s u hbs, run_cons a cs u u' hstep] at hrun
  have hnewcs := ((along_append bs (a :: cs) s u hbs).mp hnew).2 u' hstep
  have hb := hhost.inside u a u' b hstep hinner
  -- The lease was recorded when it was withdrawn, so it had been granted.
  have hgranted : ∃ runtime, grantedOn id (world u).log = some runtime := by
    rcases hw with ⟨call, lease, _, hlease, _⟩
    exact World.granted_of_recorded (world u) hsoundu id (by rw [hlease]; simp)
  have hgone := World.lease_withdrawn _ _ b id hb hw
  have hend := run_invariant (I := fun s => World.LeaseSound (world s) ∧
      (∃ runtime, grantedOn id (world s).log = some runtime) ∧
      (world s).reg.leases.get? id = none)
    (fun s a s' hs hstep hC => ⟨leaseSound_host hhost s s' a hs.1 hstep,
      gone_step hhost id s s' a hs.1 hs.2.1 hs.2.2 hstep hC⟩)
    cs u' t hrun ⟨leaseSound_host hhost u u' a hsoundu hstep,
      wasGranted_step _ _ b hb id hgranted, hgone⟩ hnewcs.2
  exact hend.2.2

end Host

end Lspee
