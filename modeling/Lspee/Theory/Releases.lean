import Lspee.Theory.Counters
import Lspee.Theory.Leases
import Mathlib.Data.List.Nodup

/-!
# A Lease Is Released Once

The ids of the leases are the values of one counter, so that they are all
different until the counter has gone around. A lease is in the table from its
grant until somebody takes it out, and an id that is out never comes back. Three
places release leases, and they may release the same one, at the same time. The
first section of a release decides: it finds the lease and takes it out, or it
finds nothing and returns.

So of all the releases of one id at most one gets past its first section
(`TakenOnce`), and only that one counts the lease off and returns a number. All
the others return `None` and leave the registry as it is.

## Main definitions

* `grantedIds`: The ids of the leases granted so far.
* `GrantsNew`: A grant inserts its lease under an id that has none.
* `Frame.took`: The release has found its lease.
* `TakenOnce`: At most one release of each id has.
* `decrements`: How often the leases of an id are counted off in a run.
* `ReturnsNone`: The releases of an id, but for one, return nothing and do
  nothing.

## Theorems

* `firstIds_nodup`: The counter's ids are distinct.
* `release_moved`: What a step does to a release.
* `takenOnce_step`: A lease is taken once.
* `decrements_le`: Each decrement ends a release with a number.
* `granted_nextId`: Leases are named by the counter.
* `released_once`: All of it, over whole runs.
-/

namespace Lspee

open Transition

/-! ### Ids are distinct -/

/-- The ids of the leases granted so far, newest first. -/
def grantedIds (log : List Event) : List String :=
  log.filterMap fun
    | .granted _ lease _ => some lease.id
    | _ => none

/-- The ids the counter gives out first. -/
def firstIds (n : Nat) : List String :=
  (List.range n).reverse.map fun j => leaseId ((1 + j) % 2 ^ 64)

theorem firstIds_succ (n : Nat) :
    firstIds (n + 1) = leaseId ((1 + n) % 2 ^ 64) :: firstIds n := by
  unfold firstIds
  rw [List.range_succ, List.reverse_append, List.reverse_singleton, List.singleton_append,
    List.map_cons]

/-- Until the counter has gone around, its ids are distinct. -/
theorem firstIds_nodup (n : Nat) (h : n ≤ 2 ^ 64) : (firstIds n).Nodup := by
  unfold firstIds
  refine List.Nodup.map_on (fun i hi j hj heq => ?_) (List.nodup_reverse.mpr List.nodup_range)
  rw [List.mem_reverse, List.mem_range] at hi hj
  have hmod := leaseId_injective _ _ heq
  omega

theorem grantedIds_append (events log : List Event) :
    grantedIds (events ++ log) = grantedIds events ++ grantedIds log :=
  List.filterMap_append

/-- Events that grant nothing name no lease. -/
theorem grantedIds_of_quiet (events : List Event)
    (h : ∀ event ∈ events, event.isGranted = false) : grantedIds events = [] := by
  refine List.filterMap_eq_nil_iff.mpr fun event hmem => ?_
  have hevent := h event hmem
  cases event with
  | granted call lease runtime => exact absurd hevent (by simp [Event.isGranted])
  | _ => rfl

namespace World

/-- The leases have been named in the order of the counter. -/
def NamedInOrder (w : World) : Prop :=
  grantedIds w.log = firstIds (grantCount w.log)

theorem namedInOrder_quiet (w w' : World) (h : NamedInOrder w) (events : List Event)
    (hlog : w'.log = events ++ w.log) (hevents : ∀ event ∈ events, event.grants = false) :
    NamedInOrder w' := by
  have hquiet : ∀ event ∈ events, event.isGranted = false :=
    fun event hmem => isGranted_of_grants event (hevents event hmem)
  unfold NamedInOrder
  rw [hlog, grantCount_append events w.log hevents, grantedIds_append,
    grantedIds_of_quiet events hquiet, List.nil_append]
  exact h

theorem namedInOrder_grant (w w' : World) (h : NamedInOrder w) (hids : LeaseIds w)
    (call : CallId) (key : SessionKey) (runtime : RuntimeId) (events : List Event)
    (hlog : w'.log = .granted call { id := leaseId w.reg.leaseSeq, key := key } runtime ::
      (events ++ w.log)) (hevents : ∀ event ∈ events, event.isGranted = false) :
    NamedInOrder w' := by
  have hzero : grantCount events = 0 := by
    rw [grantCount, List.countP_eq_zero]
    intro event hmem
    rw [hevents event hmem]
    exact Bool.false_ne_true
  have hcount : grantCount w'.log = grantCount w.log + 1 := by
    have happend : grantCount (events ++ w.log) = grantCount events + grantCount w.log :=
      List.countP_append
    have hcons : grantCount w'.log = grantCount (events ++ w.log) + 1 := by
      rw [hlog]
      exact List.countP_cons_of_pos rfl
    omega
  have hgranted : grantedIds w'.log = leaseId w.reg.leaseSeq :: grantedIds w.log := by
    have hrest : grantedIds (events ++ w.log) = grantedIds w.log := by
      rw [grantedIds_append, grantedIds_of_quiet events hevents, List.nil_append]
    rw [hlog, ← hrest]
    exact List.filterMap_cons_some rfl
  unfold NamedInOrder
  rw [hgranted, hcount, firstIds_succ, ← hids.seq, h]

theorem namedInOrder_step (w w' : World) (a : Action) (h : NamedInOrder w) (hids : LeaseIds w)
    (hstep : w.step a = some w') : NamedInOrder w' := by
  cases step_effect w w' a hstep with
  | tick span | start call method hfree => exact h
  | spawnOk call key clientKind g initializeResult hcall =>
      exact namedInOrder_quiet w _ h [_] rfl (by simp [Event.grants])
  | move _ call frame frame' r' events hmover hcall heffect =>
      cases heffect with
      | quiet _ _ _ _ hkept hleases hseq hlog hrel hrel' hclear hclear' hpend hroute =>
          exact namedInOrder_quiet w _ h events rfl hlog
      | grant key clientKind pc record counters hrecord hpc =>
          exact namedInOrder_grant w _ h hids call key record.handle.runtime [] rfl (by simp)
      | register key clientKind handle counters hnone =>
          exact namedInOrder_grant w _ h hids call key handle.runtime [_] rfl
            (by simp [Event.isGranted])
      | take | decrement | removeSession | removeLeases => exact h

end World

/-! ### What a release does -/

namespace Frame

/-- The release of this id has found its lease and taken it out. -/
def took (id : String) : Frame → Bool
  | .release i (.decrement _) => i == id
  | .release i (.returned (some _)) => i == id
  | _ => false

/-- The release of this id has counted its lease off. -/
def countedOff (id : String) : Frame → Bool
  | .release i (.returned (some _)) => i == id
  | _ => false

theorem took_of_countedOff (id : String) (frame : Frame) (h : frame.countedOff id = true) :
    frame.took id = true := by
  unfold countedOff at h
  split at h
  · exact h
  · exact absurd h (by simp)

end Frame

namespace World

/-- What a step of a release does: it finds the lease or finds nothing, and then
    counts it off. -/
inductive ReleaseMoved (w w' : World) (c : CallId) (id : String) : ReleasePc → Prop where
  | found (lease : LeaseRecord) (hlease : w.reg.leases.get? id = some lease)
      (hcall : w'.calls.get? c = some (.release id (.decrement lease.key))) :
      ReleaseMoved w w' c id .take
  | missing (hlease : w.reg.leases.get? id = none) (hreg : w'.reg = w.reg)
      (hcall : w'.calls.get? c = some (.release id (.returned none))) :
      ReleaseMoved w w' c id .take
  | counted (key : SessionKey) (n : Nat)
      (hcall : w'.calls.get? c = some (.release id (.returned (some n)))) :
      ReleaseMoved w w' c id (.decrement key)

theorem release_moved (w w' : World) (a : Action) (hstep : w.step a = some w') (c : CallId)
    (id : String) (pc : ReleasePc) (hmover : a.mover = some c)
    (hcall : w.calls.get? c = some (.release id pc)) : ReleaseMoved w w' c id pc := by
  rcases sect_of_mover w w' a c _ hmover hcall (by simp) (by simp) hstep with
    ⟨r', frame', events, hsec, hw'⟩
  rcases Option.map_eq_some_iff.mp hsec with ⟨⟨r₁, pc'⟩, hpc', heq⟩
  simp only [Prod.mk.injEq] at heq
  have hget : w'.calls.get? c = some (.release id pc') := by
    rw [hw', heq.2.1]
    exact Table.get?_set_self _ _ _
  have hreg : w'.reg = r₁ := by rw [hw', heq.1]; rfl
  cases pc with
  | take =>
      cases hlease : w.reg.leases.get? id with
      | some lease =>
          simp only [ReleasePc.section, SessionRegistry.takeLease, hlease, Option.some.injEq,
            Prod.mk.injEq] at hpc'
          exact .found lease hlease (by rw [hpc'.2]; exact hget)
      | none =>
          simp only [ReleasePc.section, SessionRegistry.takeLease, hlease, Option.some.injEq,
            Prod.mk.injEq] at hpc'
          exact .missing hlease (by rw [hpc'.1]; exact hreg) (by rw [hpc'.2]; exact hget)
  | decrement key =>
      simp only [ReleasePc.section, Option.some.injEq, Prod.mk.injEq] at hpc'
      exact .counted key _ (by rw [hpc'.2]; exact hget)
  | returned result => exact absurd hpc' (by simp [ReleasePc.section])

/-- A section leads to a release that has its lease only from such a release, or
    by taking the lease out. -/
theorem section_took (call : CallId) (now : Instant) (r r' : SessionRegistry)
    (frame frame' : Frame) (events : List Event) (id : String)
    (h : frame.section call now r = some (r', frame', events)) (htook : frame'.took id = true) :
    frame.took id = true ∨ frame = .release id .take := by
  cases frame with
  | acquire key clientKind pc =>
      rcases section_acquire call now r r' key clientKind pc frame' events h with
        ⟨lease, _, _, rfl, _⟩ | ⟨pc', _, rfl⟩
      · exact absurd htook (by simp [Frame.took])
      · exact absurd htook (by simp [Frame.took])
  | release i pc =>
      rw [Frame.section, Option.map_eq_some_iff] at h
      rcases h with ⟨⟨r₁, pc'⟩, hpc', heq⟩
      simp only [Prod.mk.injEq] at heq
      rw [← heq.2.1] at htook
      have hid : i = id := by
        cases pc' with
        | take => exact absurd htook (by simp [Frame.took])
        | decrement key => exact beq_iff_eq.mp htook
        | returned result =>
            cases result with
            | none => exact absurd htook (by simp [Frame.took])
            | some n => exact beq_iff_eq.mp htook
      cases pc with
      | take => exact Or.inr (by rw [hid])
      | decrement key => exact Or.inl (beq_iff_eq.mpr hid)
      | returned result => exact absurd hpc' (by simp [ReleasePc.section])
  | attached lease handle => exact absurd h (by simp [Frame.section])
  | remove | forward =>
      rw [Frame.section, Option.map_eq_some_iff] at h
      rcases h with ⟨_, _, heq⟩
      simp only [Prod.mk.injEq] at heq
      rw [← heq.2.1] at htook
      exact absurd htook (by simp [Frame.took])
  | touch | mark | increment | crash =>
      simp only [Frame.section, Option.ite_none_left_eq_some, Option.some.injEq,
        Prod.mk.injEq] at h
      rw [← h.2.2.1] at htook
      exact absurd htook (by simp [Frame.took])
  | idle start result =>
      cases result with
      | some handles => exact absurd h (by simp [Frame.section])
      | none =>
          simp only [Frame.section, Option.some.injEq, Prod.mk.injEq] at h
          rw [← h.2.1] at htook
          exact absurd htook (by simp [Frame.took])

/-- A release that has found its lease goes on with it. -/
theorem took_kept (w w' : World) (a : Action) (hstep : w.step a = some w') (c : CallId)
    (id : String) (frame : Frame) (hcall : w.calls.get? c = some frame)
    (htook : frame.took id = true) :
    ∃ frame', w'.calls.get? c = some frame' ∧ frame'.took id = true := by
  by_cases hmover : a.mover = some c
  · cases frame with
    | release i pc =>
        have hmoved := release_moved w w' a hstep c i pc hmover hcall
        cases hmoved with
        | found | missing => exact absurd htook (by simp [Frame.took])
        | counted key n hcall' => exact ⟨_, hcall', htook⟩
    | _ => exact absurd htook (by simp [Frame.took])
  · exact ⟨frame, calls_step w w' a hstep c frame hcall hmover, htook⟩

/-- A release that has found its lease has had it before the step, or takes it out
    in the step. -/
theorem took_step (w w' : World) (a : Action) (hstep : w.step a = some w') (c : CallId)
    (id : String) (frame' : Frame) (hcall' : w'.calls.get? c = some frame')
    (htook : frame'.took id = true) :
    (∃ frame, w.calls.get? c = some frame ∧ frame.took id = true) ∨
      a.mover = some c ∧ w.calls.get? c = some (.release id .take) ∧
        w.reg.leases.get? id ≠ none := by
  -- Where the step writes another frame, or none that has a lease, there is nothing to show.
  have hset : ∀ (call : CallId) (frame : Frame), frame.took id = false →
      (w.calls.set call frame).get? c = some frame' →
      ∃ frame, w.calls.get? c = some frame ∧ frame.took id = true := by
    intro call frame hnot hget
    rcases (Table.get?_set_eq_some _ _ _ _ _).mp hget with ⟨_, heq⟩ | ⟨_, hold⟩
    · rw [← heq, hnot] at htook
      exact absurd htook (by simp)
    · exact ⟨frame', hold, htook⟩
  cases a with
  | tick span =>
      simp only [step, Option.some.injEq] at hstep
      rw [← hstep] at hcall'
      exact Or.inl ⟨frame', hcall', htook⟩
  | start call method =>
      simp only [step] at hstep
      cases hfree : w.calls.get? call with
      | some frame => simp only [hfree, reduceCtorEq] at hstep
      | none =>
          simp only [hfree, Option.some.injEq] at hstep
          rw [← hstep] at hcall'
          exact Or.inl (hset call (method.frame w.now) (by cases method <;> rfl) hcall')
  | spawnReturns call result =>
      simp only [step] at hstep
      split at hstep
      · rw [Option.some.injEq] at hstep
        rw [← hstep] at hcall'
        cases result <;> exact Or.inl (hset call _ rfl hcall')
      · exact absurd hstep (by simp)
  | runtimeReturns call result =>
      simp only [step] at hstep
      split at hstep
      · rw [Option.some.injEq] at hstep
        rw [← hstep] at hcall'
        cases result <;> exact Or.inl (hset call _ rfl hcall')
      · exact absurd hstep (by simp)
  | sect call =>
      cases hframe : w.calls.get? call with
      | none => simp only [step, hframe, reduceCtorEq] at hstep
      | some frame =>
          have hsect := hstep
          simp only [step, hframe, Option.map_eq_some_iff] at hsect
          rcases hsect with ⟨⟨r', frame₁, events⟩, hsec, heq⟩
          have hget : (w.calls.set call frame₁).get? c = some frame' := by
            rw [← heq] at hcall'
            exact hcall'
          rcases (Table.get?_set_eq_some _ _ _ _ _).mp hget with ⟨hc, heq₁⟩ | ⟨_, hold⟩
          · rw [heq₁] at hsec
            rcases section_took call w.now w.reg r' frame frame' events id hsec htook with
              hbefore | htake
            · exact Or.inl ⟨frame, by rw [hc]; exact hframe, hbefore⟩
            · right
              rw [htake] at hframe
              have hmoved := release_moved w w' (.sect call) hstep call id .take rfl hframe
              refine ⟨by rw [hc]; rfl, by rw [hc]; exact hframe, ?_⟩
              cases hmoved with
              | found lease hlease => rw [hlease]; simp
              | missing _ _ hnone =>
                  rw [hc, hnone, Option.some.injEq] at hcall'
                  rw [← hcall'] at htook
                  exact absurd htook (by simp [Frame.took])
          · exact Or.inl ⟨frame', hold, htook⟩

/-! ### A lease is taken once -/

/-- At most one release of each id has found its lease, and then the lease is
    out. -/
structure TakenOnce (w : World) : Prop where
  once : ∀ id c c' frame frame', w.calls.get? c = some frame → frame.took id = true →
    w.calls.get? c' = some frame' → frame'.took id = true → c = c'
  out : ∀ id c frame, w.calls.get? c = some frame → frame.took id = true →
    w.reg.leases.get? id = none ∧ ∃ runtime, grantedOn id w.log = some runtime

theorem takenOnce_init (idleTtl : Duration) : TakenOnce (init idleTtl) where
  once := fun _ _ _ _ _ hcall => absurd hcall (by simp [init])
  out := fun _ _ _ hcall => absurd hcall (by simp [init])

theorem takenOnce_step (w w' : World) (a : Action) (hsound : LeaseSound w) (h : TakenOnce w)
    (hstep : w.step a = some w') (hnew : w.NewIdCond a) : TakenOnce w' := by
  constructor
  · intro id c c' frame frame' hcall htook hcall' htook'
    rcases took_step w w' a hstep c id frame hcall htook with
      ⟨f, hf, hft⟩ | ⟨hmover, _, hlease⟩ <;>
    rcases took_step w w' a hstep c' id frame' hcall' htook' with
      ⟨f', hf', hft'⟩ | ⟨hmover', _, hlease'⟩
    · exact h.once id c c' f f' hf hft hf' hft'
    -- Once a release has the lease, the next one does not find it.
    · exact absurd (h.out id c f hf hft).1 hlease'
    · exact absurd (h.out id c' f' hf' hft').1 hlease
    · rw [hmover, Option.some.injEq] at hmover'
      exact hmover'
  · intro id c frame hcall htook
    rcases took_step w w' a hstep c id frame hcall htook with
      ⟨f, hf, hft⟩ | ⟨hmover, htake, hlease⟩
    · rcases h.out id c f hf hft with ⟨hout, hgranted⟩
      exact ⟨lease_gone w w' a id hsound.ids hstep hnew hgranted hout,
        wasGranted_step w w' a hstep id hgranted⟩
    · have hgranted := granted_of_recorded w hsound id hlease
      refine ⟨?_, wasGranted_step w w' a hstep id hgranted⟩
      rcases Option.ne_none_iff_exists'.mp hlease with ⟨lease, hsome⟩
      exact lease_withdrawn w w' a id hstep ⟨c, lease, hmover, hsome, Or.inl htake⟩

/-! ### How often a lease is counted off -/

/-- The step counts a lease of this id off. -/
def countsOff (id : String) (w : World) (a : Action) : Bool :=
  match a.mover.bind w.calls.get? with
  | some (.release i (.decrement _)) => i == id
  | _ => false

/-- How often leases of this id are counted off in a run. -/
def decrements (id : String) : World → List Action → Nat
  | _, [] => 0
  | w, a :: as =>
    (if w.countsOff id a then 1 else 0) +
      match w.step a with
      | none => 0
      | some w' => decrements id w' as

/-- How many releases of this id have counted their lease off. -/
def countedOffCount (id : String) (w : World) : Nat :=
  w.calls.count fun _ frame => frame.countedOff id

/-- A call that has counted its lease off has nothing left to do. -/
theorem section_countedOff (call : CallId) (now : Instant) (r r' : SessionRegistry)
    (frame frame' : Frame) (events : List Event) (id : String)
    (h : frame.section call now r = some (r', frame', events)) :
    frame.countedOff id = false := by
  cases frame with
  | release i pc =>
      cases pc with
      | returned result => exact absurd h (by simp [Frame.section, ReleasePc.section])
      | _ => rfl
  | _ => rfl

theorem countedOff_set (id : String) (calls : Table CallId Frame) (call : CallId)
    (frame frame' : Frame) (hcall : calls.get? call = some frame)
    (hnot : frame.countedOff id = false) :
    (calls.set call frame').count (fun _ frame => frame.countedOff id) =
      calls.count (fun _ frame => frame.countedOff id) +
        if frame'.countedOff id then 1 else 0 := by
  have hcount := Table.count_set_of_get? calls (fun _ frame => frame.countedOff id) call frame
    frame' hcall
  rw [hnot, if_neg Bool.false_ne_true, Nat.add_zero] at hcount
  exact hcount

theorem countedOff_step (id : String) (w w' : World) (a : Action) (hstep : w.step a = some w') :
    w.countedOffCount id + (if w.countsOff id a then 1 else 0) ≤ w'.countedOffCount id := by
  cases a with
  | tick span =>
      simp only [step, Option.some.injEq] at hstep
      rw [← hstep]
      exact Nat.le_refl _
  | start call method =>
      simp only [step] at hstep
      cases hfree : w.calls.get? call with
      | some frame => simp only [hfree, reduceCtorEq] at hstep
      | none =>
          simp only [hfree, Option.some.injEq] at hstep
          have hcount := Table.count_set_of_get?_none w.calls
            (fun _ frame => frame.countedOff id) call (method.frame w.now) hfree
          rw [← hstep]
          exact Nat.le.intro hcount.symm
  | spawnReturns call result =>
      simp only [step] at hstep
      split at hstep
      · next key clientKind g hcall =>
        have hnot : w.countsOff id (.spawnReturns call result) = false := by
          simp only [countsOff, Action.mover, Option.bind_some, hcall]
        rw [Option.some.injEq] at hstep
        rw [← hstep, hnot]
        cases result <;> exact Nat.le.intro (countedOff_set id w.calls call _ _ hcall rfl).symm
      · exact absurd hstep (by simp)
  | runtimeReturns call result =>
      simp only [step] at hstep
      split at hstep
      · next kind i message key runtime hcall =>
        have hnot : w.countsOff id (.runtimeReturns call result) = false := by
          simp only [countsOff, Action.mover, Option.bind_some, hcall]
        rw [Option.some.injEq] at hstep
        rw [← hstep, hnot]
        cases result <;> exact Nat.le.intro (countedOff_set id w.calls call _ _ hcall rfl).symm
      · exact absurd hstep (by simp)
  | sect call =>
      cases hframe : w.calls.get? call with
      | none => simp only [step, hframe, reduceCtorEq] at hstep
      | some frame =>
          simp only [step, hframe, Option.map_eq_some_iff] at hstep
          rcases hstep with ⟨⟨r', frame', events⟩, hsec, heq⟩
          have hbefore := section_countedOff call w.now w.reg r' frame frame' events id hsec
          -- The section that counts the lease off is the last one of its call.
          have hafter : w.countsOff id (.sect call) = true → frame'.countedOff id = true := by
            intro hcounts
            simp only [countsOff, Action.mover, Option.bind_some, hframe] at hcounts
            split at hcounts
            · next i key heq₁ =>
              rw [Option.some.injEq] at heq₁
              simp only [heq₁, Frame.section, ReleasePc.section, Option.map_some,
                Option.some.injEq, Prod.mk.injEq] at hsec
              rw [← hsec.2.1]
              exact hcounts
            · exact absurd hcounts (by simp)
          rw [← heq]
          unfold countedOffCount moved
          simp only [countedOff_set id w.calls call frame frame' hframe hbefore]
          by_cases hcounts : w.countsOff id (.sect call) = true
          · rw [if_pos hcounts, if_pos (hafter hcounts)]
          · rw [if_neg hcounts]
            omega

/-- Each decrement ends a release with a number. -/
theorem decrements_le (id : String) (as : List Action) (w w' : World)
    (h : run step w as = some w') :
    w.countedOffCount id + decrements id w as ≤ w'.countedOffCount id := by
  induction as generalizing w with
  | nil =>
      rw [run, Option.some.injEq] at h
      rw [h]
      exact Nat.le_refl _
  | cons a as ih =>
      rcases exists_of_run_cons a as w w' h with ⟨u, hu, hrest⟩
      have hone := countedOff_step id w u a hu
      have hmany := ih u hrest
      simp only [decrements, hu]
      omega

/-! ### Fewer grants than ids -/

theorem grantCount_step (w w' : World) (a : Action) (hstep : w.step a = some w') :
    grantCount w.log ≤ grantCount w'.log := by
  rcases log_step w w' a hstep with ⟨events, hlog⟩
  have happend : grantCount (events ++ w.log) = grantCount events + grantCount w.log :=
    List.countP_append
  rw [hlog, happend]
  omega

/-- A run that ends with fewer leases than there are ids has fewer in every
    state. -/
theorem few_along (as : List Action) (w w' : World) (h : run step w as = some w')
    (hfew : grantCount w'.log < 2 ^ 64) :
    grantCount w.log < 2 ^ 64 ∧ Along step (fun w _ => grantCount w.log < 2 ^ 64) w as := by
  induction as generalizing w with
  | nil =>
      rw [run, Option.some.injEq] at h
      exact ⟨by rw [h]; exact hfew, trivial⟩
  | cons a as ih =>
      rcases exists_of_run_cons a as w w' h with ⟨u, hu, hrest⟩
      rcases ih u hrest with ⟨hcount, halong⟩
      have hle := grantCount_step w u a hu
      have hnow : grantCount w.log < 2 ^ 64 := by omega
      refine ⟨hnow, fun u' hu' => ?_⟩
      rw [hu, Option.some.injEq] at hu'
      rw [← hu']
      exact ⟨hnow, halong⟩

theorem newIdCond_of_few (w : World) (a : Action) (h : grantCount w.log < 2 ^ 64) :
    w.NewIdCond a := by
  unfold NewIdCond
  split
  · exact h
  · exact h
  · trivial

/-! ### Grants and releases over whole runs -/

/-- A grant inserts its lease under an id that has none, and that no lease had
    before. -/
def GrantsNew (w : World) (a : Action) : Prop :=
  ∀ w' call lease runtime events, w.step a = some w' → w'.log = events ++ w.log →
    .granted call lease runtime ∈ events →
    w.reg.leases.get? lease.id = none ∧ lease.id ∉ grantedIds w.log

/-- A release of this id by any other call than this one returns nothing, and leaves
    the registry as it is. -/
def ReturnsNone (id : String) (c : CallId) (w : World) (a : Action) : Prop :=
  ∀ d pc, a.mover = some d → w.calls.get? d = some (.release id pc) → d ≠ c →
    ∀ w', w.step a = some w' →
      w'.reg = w.reg ∧ w'.calls.get? d = some (.release id (.returned none))

theorem not_mem_grantedIds (id : String) (log : List Event) (h : grantedOn id log = none) :
    id ∉ grantedIds log := by
  intro hmem
  rcases List.mem_filterMap.mp hmem with ⟨event, hevent, hid⟩
  cases event with
  | granted call lease runtime =>
      rcases grantedOn_isSome log call lease runtime hevent with ⟨runtime', hsome⟩
      rw [Option.some.inj hid, h] at hsome
      exact absurd hsome (by simp)
  | _ => exact absurd hid (by simp)

/-- The ids that a step grants are the counter's next one. -/
theorem granted_nextId (w w' : World) (a : Action) (hstep : w.step a = some w') (call : CallId)
    (lease : Lease) (runtime : RuntimeId) (events : List Event)
    (hlog : w'.log = events ++ w.log) (hmem : .granted call lease runtime ∈ events) :
    lease.id = leaseId w.reg.leaseSeq := by
  have hevents : ∀ more, w'.log = more ++ w.log → .granted call lease runtime ∈ more := by
    intro more hmore
    rw [hlog, List.append_cancel_right_eq] at hmore
    rw [← hmore]
    exact hmem
  cases step_effect w w' a hstep with
  | tick span => exact absurd (hevents [] rfl) List.not_mem_nil
  | start c method hfree => exact absurd (hevents [] rfl) List.not_mem_nil
  | spawnOk c key clientKind g initializeResult hcall =>
      exact absurd (hevents [_] rfl) (by simp)
  | move _ c frame frame' r' evs hmover hcall heffect =>
      have hevs := hevents evs rfl
      cases heffect with
      | quiet _ _ _ _ hkept hleases hseq hquiet hrel hrel' hclear hclear' hpend hroute =>
          exact absurd (hquiet _ hevs) (by simp [Event.grants])
      | grant key clientKind pc record counters hrecord hpc =>
          rw [List.mem_singleton, Event.granted.injEq] at hevs
          rw [hevs.2.1]
      | register key clientKind handle counters hnone =>
          rcases List.mem_cons.mp hevs with heq | hrest
          · rw [Event.granted.injEq] at heq
            rw [heq.2.1]
          · exact absurd (List.mem_singleton.mp hrest) (by simp)
      | take | decrement | removeSession | removeLeases => exact absurd hevs List.not_mem_nil

theorem grantsNew_of_sound (w : World) (a : Action) (h : LeaseSound w)
    (hcount : grantCount w.log < 2 ^ 64) : GrantsNew w a := by
  intro w' call lease runtime events hstep hlog hmem
  have hid := granted_nextId w w' a hstep call lease runtime events hlog hmem
  have hnew := nextId_new w h.ids hcount
  rw [← hid] at hnew
  refine ⟨?_, not_mem_grantedIds lease.id w.log hnew⟩
  by_contra hsome
  -- A lease in the table was granted.
  rcases granted_of_recorded w h lease.id hsome with ⟨runtime', hgranted⟩
  rw [hnew] at hgranted
  exact absurd hgranted (by simp)

/-- A release that has its lease in some state has it in all later ones. -/
theorem took_run (id : String) (c : CallId) (as : List Action) (w w' : World)
    (h : run step w as = some w') (frame : Frame) (hcall : w.calls.get? c = some frame)
    (htook : frame.took id = true) :
    ∃ frame', w'.calls.get? c = some frame' ∧ frame'.took id = true := by
  induction as generalizing w frame with
  | nil =>
      rw [run, Option.some.injEq] at h
      exact ⟨frame, by rw [← h]; exact hcall, htook⟩
  | cons a as ih =>
      rcases exists_of_run_cons a as w w' h with ⟨u, hu, hrest⟩
      rcases took_kept w u a hu c id frame hcall htook with ⟨frame', hcall', htook'⟩
      exact ih u hrest frame' hcall' htook'

/-- Where no other release of the id has its lease at the end of the run, all the
    others return nothing and do nothing. -/
theorem returnsNone_along (id : String) (c : CallId) (as : List Action) (w w' : World)
    (h : run step w as = some w')
    (honly : ∀ d frame, w'.calls.get? d = some frame → frame.took id = true → d = c) :
    Along step (ReturnsNone id c) w as := by
  induction as generalizing w with
  | nil => trivial
  | cons a as ih =>
      intro u hu
      have hrest : run step u as = some w' := by
        rw [run_cons a as w u hu] at h
        exact h
      refine ⟨?_, ih u hrest⟩
      intro d pc hmover hcall hne u' hu'
      rw [hu, Option.some.injEq] at hu'
      rw [← hu']
      -- A release that has its lease would have it at the end.
      have hnot : ∀ frame, u.calls.get? d = some frame → frame.took id = false := by
        intro frame hframe
        rw [← Bool.not_eq_true]
        intro htook
        rcases took_run id d as u w' hrest frame hframe htook with ⟨frame', hlast, htook'⟩
        exact hne (honly d frame' hlast htook')
      cases release_moved w u a hu d id pc hmover hcall with
      | found lease hlease hcall' => exact absurd (hnot _ hcall') (by simp [Frame.took])
      | missing hlease hreg hcall' => exact ⟨hreg, hcall'⟩
      | counted key n hcall' => exact absurd (hnot _ hcall') (by simp [Frame.took])

/-- What the leases are known to be at each state of a run with few grants. -/
theorem takenOnce_run (idleTtl : Duration) (as : List Action) (w : World)
    (h : run step (init idleTtl) as = some w) (hnew : Along step NewIdCond (init idleTtl) as) :
    LeaseSound w ∧ TakenOnce w := by
  refine run_invariant (I := fun w => LeaseSound w ∧ TakenOnce w) (C := NewIdCond) ?_ as _ w h
    ⟨leaseSound_init idleTtl, takenOnce_init idleTtl⟩ hnew
  rintro u a u' ⟨hsound, honce⟩ hstep hcond
  exact ⟨leaseSound_step u u' a hsound hstep, takenOnce_step u u' a hsound honce hstep hcond⟩

theorem namedInOrder_run (idleTtl : Duration) (as : List Action) (w : World)
    (h : run step (init idleTtl) as = some w) : NamedInOrder w := by
  have hboth : NamedInOrder w ∧ LeaseIds w := by
    refine run_invariant (I := fun w => NamedInOrder w ∧ LeaseIds w) (C := fun _ _ => True) ?_ as
      _ w h ⟨rfl, leaseIds_init idleTtl⟩ (along_true as _)
    rintro u a u' ⟨hnamed, hids⟩ hstep _
    exact ⟨namedInOrder_step u u' a hnamed hids hstep, leaseIds_step u u' a hids hstep⟩
  exact hboth.1

/-- In every run with fewer acquires than there are ids, the leases have distinct
    ids, and none is inserted over another. Of the releases of each id at most
    one returns a number, a lease is counted off at most once, and every other
    release returns nothing and changes nothing. -/
theorem released_once (idleTtl : Duration) (as : List Action) (w : World)
    (h : run step (init idleTtl) as = some w) (hfew : as.countP acquires < 2 ^ 64) :
    (grantedIds w.log).Nodup ∧ Along step GrantsNew (init idleTtl) as ∧
      ∀ id, decrements id (init idleTtl) as ≤ 1 ∧
        ∃ c, (∀ d n, w.calls.get? d = some (.release id (.returned (some n))) → d = c) ∧
          Along step (ReturnsNone id c) (init idleTtl) as := by
  have hcount : grantCount w.log < 2 ^ 64 :=
    Nat.lt_of_le_of_lt (grantCount_le_acquires idleTtl as w h) hfew
  have halong := (few_along as (init idleTtl) w h hcount).2
  have hnew := along_mono newIdCond_of_few as (init idleTtl) halong
  rcases takenOnce_run idleTtl as w h hnew with ⟨hsound, honce⟩
  refine ⟨?_, ?_, fun id => ⟨?_, ?_⟩⟩
  · rw [namedInOrder_run idleTtl as w h]
    exact firstIds_nodup _ (Nat.le_of_lt hcount)
  · refine along_of_invariant (I := LeaseSound) ?_ as _ (leaseSound_init idleTtl) halong
    intro u a u' hu hstep hnow
    exact ⟨leaseSound_step u u' a hu hstep, grantsNew_of_sound u a hu hnow⟩
  · have hle := decrements_le id as (init idleTtl) w h
    have hone : w.countedOffCount id ≤ 1 := by
      refine Table.count_le_one _ _ fun c d frame frame' hc hoff hd hoff' => ?_
      exact honce.once id c d frame frame' hc (Frame.took_of_countedOff id frame hoff) hd
        (Frame.took_of_countedOff id frame' hoff')
    omega
  · by_cases hsome : ∃ c frame, w.calls.get? c = some frame ∧ frame.took id = true
    · rcases hsome with ⟨c, frame, hc, htook⟩
      have honly : ∀ d frame, w.calls.get? d = some frame → frame.took id = true → d = c :=
        fun d frame' hd htook' => honce.once id d c frame' frame hd htook' hc htook
      refine ⟨c, fun d n hd => honly d _ hd ?_, returnsNone_along id c as _ w h honly⟩
      exact beq_self_eq_true id
    · have hnone : ∀ d frame, w.calls.get? d = some frame → frame.took id = true → d = 0 :=
        fun d frame hd htook => absurd ⟨d, frame, hd, htook⟩ hsome
      refine ⟨0, fun d n hd => hnone d _ hd ?_, returnsNone_along id 0 as _ w h hnone⟩
      exact beq_self_eq_true id

/-- Two clients share a session, one lease is released by three calls, and two of
    these run at the same time. -/
def releasedThreeTimes : List Action :=
  acquireFresh 0 ++ acquireReuse 1 ++
    [.start 2 (.releaseByLeaseId "lease_1"), .start 3 (.releaseByLeaseId "lease_1"), .sect 3,
      .sect 2, .sect 3] ++ releaseAll 4 "lease_2" ++
    [.start 5 (.releaseByLeaseId "lease_1"), .sect 5]

theorem releasedThreeTimes_isSome : (run step (init 5) releasedThreeTimes).isSome = true := by
  decide

theorem released_once_releasedThreeTimes :
    decrements "lease_1" (init 5) releasedThreeTimes ≤ 1 :=
  ((released_once 5 releasedThreeTimes _ (Option.some_get releasedThreeTimes_isSome).symm
    (by decide)).2.2 "lease_1").1

end World

end Lspee
