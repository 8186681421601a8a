import Lspee.Core.Evictors
import Lspee.Theory.Identity

/-!
# What an Evictor Removes

Whether the session an evictor removes is the one it has shut down.

An evictor chooses its victims, and then evicts them one after another by key,
with seconds in between. The other evictor is at work at the same time. If both
have chosen the same session, both evict it: it is counted twice, and the second
one removes whatever the key has been given since.

That is the only way. As long as nobody chooses a session that an evictor has
chosen before (`NewVictimsCond`), every victim stays registered under its key
until its own evictor removes it, since clients remove nothing, and every
removal drops the session just shut down. The condition is exact for finished
rounds: once neither evictor has a victim left, a session chosen twice has been
counted twice (`evicts_exact`).

It can fail both ways (`evicted_twice`). A snapshot does not exclude sessions
that are being terminated, and takes time to measure; and a session the monitor
has chosen and not come to is not marked yet.

## Main definitions

* `EvictorView`, `Daemon.view`: What an evictor is up to.
* `Daemon.claims`: How often a session was chosen.
* `EvictsVictims`: Removals drop what was shut down, and no session is counted
  twice.
* `NewVictimsCond`: Nobody chooses a session chosen before.
* `ViewStep`, `DaemonEffect`: What a step does to an evictor, and to the daemon.
* `Owning`: The evictors' calls are their own.
* `Evicting`: The invariant under the condition.

## Theorems

* `daemon_effect`: Every step of the daemon has an effect.
* `claims_step`: No choice is forgotten.
* `owning_init`, `owning_step`: The calls of the evictors, in every run.
* `evicting_init`, `evicting_step`: The invariant.
* `evicts_exact`: The condition over whole runs.
* `evicted_twice`: A run in which both evictors evict one session.
-/

namespace Lspee

open Transition

/-- A session somebody has chosen: its key and its runtime. -/
abbrev Victim := SessionKey × RuntimeId

/-- What an evictor is up to: the victims it has chosen and not counted, those
    among them it has not removed, the registry call it is in, and the victim
    that call removes. -/
structure EvictorView where
  pending : List Victim
  unremoved : List Victim
  frame : Option (CallId × Frame)
  removing : Option Victim

namespace EvictorView

/-- The view of an evictor without victims. -/
def quiet (frame : Option (CallId × Frame)) : EvictorView := ⟨[], [], frame, none⟩

end EvictorView

/-- The key and the runtime of a victim. -/
def VictimKind.victim {V : Type} (kind : VictimKind V) (v : V) : Victim :=
  (kind.key v, kind.runtime v)

/-- What an evictor that evicts a list of victims is up to. -/
def Evictions.view {V : Type} (kind : VictimKind V) (e : Evictions V) : EvictorView :=
  let rest := e.rest.map kind.victim
  match e.current with
  | none => ⟨rest, rest, none, none⟩
  | some (v, pc) =>
    let all := kind.victim v :: rest
    match pc with
    | .marking c => ⟨all, all, some (c, .mark (kind.key v) (kind.notice v) false), none⟩
    | .shutdown => ⟨all, all, none, none⟩
    | .removeSession c =>
      ⟨all, all, some (c, .remove (kind.key v) .session), some (kind.victim v)⟩
    | .removeLeases c => ⟨all, rest, some (c, .remove (kind.key v) .leases), none⟩
    | .removed => ⟨all, rest, none, none⟩
    | .counting c => ⟨all, rest, some (c, .increment kind.evictor false), none⟩

def EvictionPc.view : EvictionPc → EvictorView
  | .selecting c start => .quiet (some (c, .idle start none))
  | .evicting victims => victims.view idleVictims
  | _ => .quiet none

def MonitorPc.view (settings : MemoryBudgetSettings) : MonitorPc → EvictorView
  | .evicting victims => victims.view (memoryVictims settings)
  | _ => .quiet none

/-- The sessions the monitor has in its snapshot. -/
def MonitorPc.sampled : MonitorPc → List Victim
  | .sampling todo samples =>
    todo.map (fun snapshot => (snapshot.handle.key, snapshot.handle.runtime)) ++
      samples.map (fun sample => (sample.key, sample.handle.runtime))
  | _ => []

/-- How many of the victims are this runtime's session. -/
def countVictim (runtime : RuntimeId) (victims : List Victim) : Nat :=
  victims.countP (fun victim => decide (victim.2 = runtime))

/-- The event counts this runtime's session. -/
def DaemonEvent.counts (runtime : RuntimeId) : DaemonEvent → Bool
  | .counted _ rt => decide (rt = runtime)
  | _ => false

/-- The runtime an evictor has shut down last. -/
def lastShutDown (evictor : Evictor) : List DaemonEvent → Option RuntimeId
  | [] => none
  | .shutDown e runtime :: log => if e = evictor then some runtime else lastShutDown evictor log
  | _ :: log => lastShutDown evictor log

/-- Every removal dropped the session of the runtime that its evictor had just
    shut down, or none. -/
def RemovesShutDown : List DaemonEvent → Prop
  | [] => True
  | .removed e dropped :: log =>
    (∀ runtime ∈ dropped, lastShutDown e log = some runtime) ∧ RemovesShutDown log
  | _ :: log => RemovesShutDown log

instance decidableRemovesShutDown : ∀ log, Decidable (RemovesShutDown log)
  | [] => isTrue trivial
  | event :: log => by
    have := decidableRemovesShutDown log
    cases event <;> unfold RemovesShutDown <;> infer_instance

/-- Every removal dropped the session its evictor had just shut down, or none,
    and no session was counted twice. -/
structure EvictsVictims (log : List DaemonEvent) : Prop where
  removes : RemovesShutDown log
  counts : ∀ runtime, log.countP (DaemonEvent.counts runtime) ≤ 1

namespace Daemon

def view (d : Daemon) : Evictor → EvictorView
  | .idle => d.eviction.view
  | .memory => d.monitor.view d.settings

/-- How often a session was chosen by an evictor: it is still pending, or it was
    counted. -/
def claims (d : Daemon) (runtime : RuntimeId) : Nat :=
  countVictim runtime (d.view .idle).pending + countVictim runtime (d.view .memory).pending
    + d.log.countP (DaemonEvent.counts runtime)

/-- Nobody chooses a session that an evictor has chosen before. -/
def NewVictimsCond (d : Daemon) (a : DaemonAction) : Prop :=
  match a with
  | .evictionLoop _ =>
    match d.eviction with
    | .selecting _ start =>
      ∀ candidate ∈ (d.world.reg.idleCandidates start).2, d.claims candidate.runtime = 0
    | _ => True
  | .memoryMonitor _ _ =>
    match d.monitor with
    | .sampling [] samples =>
      ∀ sample ∈ selectEvictions samples d.settings, d.claims sample.handle.runtime = 0
    | _ => True
  | _ => True

end Daemon

namespace Daemon

instance (d : Daemon) (a : DaemonAction) : Decidable (d.NewVictimsCond a) := by
  unfold NewVictimsCond
  split
  · split <;> infer_instance
  · split <;> infer_instance
  · infer_instance

end Daemon

/-! ### What a step does to one evictor -/

/-- What a step of an evictor that has its victims does. -/
inductive ViewStep (evictor : Evictor) (w : World) (v : EvictorView) :
    World → EvictorView → List DaemonEvent → Prop where
  /-- It goes on to something else. -/
  | still (v' : EvictorView) (hpending : v'.pending = v.pending)
      (hunremoved : v'.unremoved = v.unremoved) (hframe : v'.frame = none)
      (hremoving : v'.removing = none) : ViewStep evictor w v w v' []
  /-- It calls a registry method, which removes the victim it has shut down or
      nothing. -/
  | start (call : CallId) (method : Method) (w' : World) (v' : EvictorView)
      (events : List DaemonEvent) (hstep : w.step (.start call method) = some w')
      (hpending : v'.pending = v.pending) (hunremoved : v'.unremoved = v.unremoved)
      (hframe : v'.frame = some (call, method.frame w.now))
      (hclient : (method.frame w.now).ofClient = false)
      (hevents : (events = [] ∧ v'.removing = none) ∨
        ∃ victim, events = [.shutDown evictor victim.2] ∧ v'.removing = some victim) :
      ViewStep evictor w v w' v' events
  /-- A call of it ends that removes no session. -/
  | sect (call : CallId) (frame : Frame) (w' : World) (v' : EvictorView)
      (hcall : v.frame = some (call, frame)) (hstep : w.step (.sect call) = some w')
      (hkeeps : ∀ key, frame ≠ .remove key .session) (hpending : v'.pending = v.pending)
      (hunremoved : v'.unremoved = v.unremoved) (hframe : v'.frame = none)
      (hremoving : v'.removing = none) : ViewStep evictor w v w' v' []
  /-- It removes the session it has shut down. -/
  | drop (call : CallId) (victim : Victim) (w' : World) (v' : EvictorView)
      (hcall : v.frame = some (call, .remove victim.1 .session))
      (hvictim : v.removing = some victim) (hstep : w.step (.sect call) = some w')
      (hpending : v'.pending = v.pending) (hunremoved : v.unremoved = victim :: v'.unremoved)
      (hframe : v'.frame = some (call, .remove victim.1 .leases))
      (hremoving : v'.removing = none) :
      ViewStep evictor w v w' v' [.removed evictor (w.reg.instanceOf victim.1)]
  /-- It counts a victim it has removed. -/
  | count (call : CallId) (frame : Frame) (victim : Victim) (w' : World) (v' : EvictorView)
      (hcall : v.frame = some (call, frame)) (hstep : w.step (.sect call) = some w')
      (hkeeps : ∀ key, frame ≠ .remove key .session)
      (hpending : v.pending = victim :: v'.pending) (hunremoved : v'.unremoved = v.unremoved)
      (hframe : v'.frame = none) (hremoving : v'.removing = none) :
      ViewStep evictor w v w' v' [.counted evictor victim.2]

theorem evictions_step {V : Type} (kind : VictimKind V) (call : CallId) (w w' : World)
    (e e' : Evictions V) (events : List DaemonEvent)
    (h : e.step kind call w = some (w', e', events)) :
    ViewStep kind.evictor w (e.view kind) w' (e'.view kind) events := by
  rcases e with ⟨current, rest⟩
  cases current with
  | none =>
      cases rest with
      | nil => exact absurd h (by simp [Evictions.step])
      | cons v rest =>
          -- Only the memory monitor tells the clients why before it shuts down.
          cases hnotice : kind.notice v with
          | none =>
              simp only [Evictions.step, hnotice, Option.some.injEq, Prod.mk.injEq] at h
              rcases h with ⟨rfl, rfl, rfl⟩
              exact .still _ rfl rfl rfl rfl
          | some notice =>
              simp only [Evictions.step, hnotice, Option.map_eq_some_iff, Prod.mk.injEq] at h
              rcases h with ⟨w₁, hstep, rfl, rfl, rfl⟩
              refine .start call _ _ _ _ hstep rfl rfl ?_ rfl (Or.inl ⟨rfl, rfl⟩)
              simp only [Evictions.view, hnotice]
              rfl
  | some current =>
      rcases current with ⟨v, pc⟩
      cases pc with
      | marking c =>
          simp only [Evictions.step, Option.map_eq_some_iff, Prod.mk.injEq] at h
          rcases h with ⟨w₁, hstep, rfl, rfl, rfl⟩
          exact .sect c _ _ _ rfl hstep (by simp) rfl rfl rfl rfl
      | shutdown =>
          simp only [Evictions.step, Option.map_eq_some_iff, Prod.mk.injEq] at h
          rcases h with ⟨w₁, hstep, rfl, rfl, rfl⟩
          exact .start call _ _ _ _ hstep rfl rfl rfl rfl (Or.inr ⟨kind.victim v, rfl, rfl⟩)
      | removeSession c =>
          simp only [Evictions.step, Option.map_eq_some_iff, Prod.mk.injEq] at h
          rcases h with ⟨w₁, hstep, rfl, rfl, rfl⟩
          exact .drop c (kind.victim v) _ _ rfl rfl hstep rfl rfl rfl rfl
      | removeLeases c =>
          simp only [Evictions.step, Option.map_eq_some_iff, Prod.mk.injEq] at h
          rcases h with ⟨w₁, hstep, rfl, rfl, rfl⟩
          exact .sect c _ _ _ rfl hstep (by simp) rfl rfl rfl rfl
      | removed =>
          simp only [Evictions.step, Option.map_eq_some_iff, Prod.mk.injEq] at h
          rcases h with ⟨w₁, hstep, rfl, rfl, rfl⟩
          exact .start call _ _ _ _ hstep rfl rfl rfl rfl (Or.inl ⟨rfl, rfl⟩)
      | counting c =>
          simp only [Evictions.step, Option.map_eq_some_iff, Prod.mk.injEq] at h
          rcases h with ⟨w₁, hstep, rfl, rfl, rfl⟩
          exact .count c _ (kind.victim v) _ _ rfl hstep (by simp) rfl rfl rfl rfl

/-! ### What a step does to the daemon -/

/-- The victims among the idle sessions. -/
def idleVictimsOf (r : SessionRegistry) (start : Instant) : List Victim :=
  (r.idleCandidates start).2.map idleVictims.victim

/-- The victims of the memory monitor. -/
def memoryVictimsOf (samples : List MemorySample) (settings : MemoryBudgetSettings) :
    List Victim :=
  (selectEvictions samples settings).map (memoryVictims settings).victim

/-- What a step of the daemon does. -/
inductive DaemonEffect (d : Daemon) : DaemonAction → Daemon → Prop where
  /-- A client takes a step, or time passes. -/
  | client (a : Action) (d' : Daemon) (hclient : a.ofClient d.world = true)
      (hstep : d.world.step a = some d'.world) (hviews : ∀ e, d'.view e = d.view e)
      (hsampled : d'.monitor.sampled = d.monitor.sampled) (hlog : d'.log = d.log) :
      DaemonEffect d (.client a) d'
  /-- An evictor looks at the registry, or at nothing. -/
  | read (a : DaemonAction) (d' : Daemon) (hworld : d'.world = d.world)
      (hviews : ∀ e, d'.view e = d.view e)
      (hsampled : ∀ victim ∈ d'.monitor.sampled, victim ∈ d.monitor.sampled ∨
        ∃ key record, d.world.reg.sessions.get? key = some record ∧
          victim = (record.handle.key, record.handle.runtime))
      (hlog : d'.log = d.log) (hcond : d.NewVictimsCond a) : DaemonEffect d a d'
  /-- An evictor takes a step with its victims. -/
  | evictor (a : DaemonAction) (e : Evictor) (d' : Daemon) (events : List DaemonEvent)
      (hview : ViewStep e d.world (d.view e) d'.world (d'.view e) events)
      (hother : ∀ e', e' ≠ e → d'.view e' = d.view e')
      (hsampled : d'.monitor.sampled = d.monitor.sampled) (hlog : d'.log = events ++ d.log)
      (hcond : d.NewVictimsCond a) : DaemonEffect d a d'
  /-- The eviction loop chooses the idle sessions. -/
  | selectIdle (call c : CallId) (start : Instant) (d' : Daemon)
      (heviction : d.eviction = .selecting c start) (hstep : d.world.step (.sect c) = some d'.world)
      (hview : d'.view .idle
        = ⟨idleVictimsOf d.world.reg start, idleVictimsOf d.world.reg start, none, none⟩)
      (hother : d'.view .memory = d.view .memory)
      (hsampled : d'.monitor.sampled = d.monitor.sampled) (hlog : d'.log = d.log) :
      DaemonEffect d (.evictionLoop call) d'
  /-- The memory monitor chooses among its samples. -/
  | selectMemory (call : CallId) (rssBytes : Nat) (samples : List MemorySample) (d' : Daemon)
      (hmonitor : d.monitor = .sampling [] samples) (hworld : d'.world = d.world)
      (hview : d'.view .memory
        = ⟨memoryVictimsOf samples d.settings, memoryVictimsOf samples d.settings, none, none⟩)
      (hother : d'.view .idle = d.view .idle) (hsampled : d'.monitor.sampled = [])
      (hlog : d'.log = d.log) : DaemonEffect d (.memoryMonitor call rssBytes) d'

/-- The end of a round leaves everything but the eviction loop alone, which waits
    for its next round or stops. -/
theorem finishRound_parts (d : Daemon) :
    d.finishRound.world = d.world ∧ d.finishRound.monitor = d.monitor ∧
      d.finishRound.settings = d.settings ∧ d.finishRound.log = d.log ∧
      (d.finishRound.eviction = .ticker ∨ d.finishRound.eviction = .stopped) := by
  unfold Daemon.finishRound
  split
  · exact ⟨rfl, rfl, rfl, rfl, Or.inl rfl⟩
  · split
    · dsimp only
      split
      · exact ⟨rfl, rfl, rfl, rfl, Or.inr rfl⟩
      · exact ⟨rfl, rfl, rfl, rfl, Or.inl rfl⟩
    · exact ⟨rfl, rfl, rfl, rfl, Or.inl rfl⟩

/-- An eviction with no victim left. -/
theorem evictions_eq_nil {V : Type} (e : Evictions V) (hcurrent : e.current = none)
    (hrest : e.rest = []) : e = ⟨none, []⟩ := by
  rcases e with ⟨current, rest⟩
  rw [Evictions.mk.injEq]
  exact ⟨hcurrent, hrest⟩

theorem finishRound_effect (d : Daemon) (call : CallId)
    (h : d.eviction = .evicting ⟨none, []⟩) :
    DaemonEffect d (.evictionLoop call) d.finishRound := by
  rcases finishRound_parts d with ⟨hworld, hmonitor, hsettings, hlog, heviction⟩
  have hview : d.finishRound.eviction.view = .quiet none := by
    rcases heviction with hpc | hpc <;>
      rw [hpc] <;>
      rfl
  refine .read _ _ hworld ?_ ?_ hlog ?_
  · intro e
    cases e with
    | idle =>
        rw [Daemon.view, Daemon.view, hview, h]
        rfl
    | memory => rw [Daemon.view, Daemon.view, hmonitor, hsettings]
  · rw [hmonitor]
    exact fun victim hmem => Or.inl hmem
  · rw [Daemon.NewVictimsCond, h]
    trivial

theorem evictionStep_effect (d d' : Daemon) (call : CallId)
    (h : d.evictionStep call = some d') : DaemonEffect d (.evictionLoop call) d' := by
  unfold Daemon.evictionStep at h
  split at h
  · rename_i hpc
    rw [Option.map_eq_some_iff] at h
    rcases h with ⟨w', hstep, rfl⟩
    refine .evictor _ .idle _ [] ?_ ?_ rfl rfl ?_
    · simp only [Daemon.view, hpc]
      exact .start call _ _ _ _ hstep rfl rfl rfl rfl (Or.inl ⟨rfl, rfl⟩)
    · intro e he
      cases e with
      | idle => exact absurd rfl he
      | memory => rfl
    · rw [Daemon.NewVictimsCond, hpc]
      trivial
  · -- The candidates are read and made the round's victims in one section.
    rename_i c start hpc
    rw [Option.map_eq_some_iff] at h
    rcases h with ⟨w', hstep, rfl⟩
    exact .selectIdle call c start _ hpc hstep rfl rfl rfl rfl
  · rename_i victims hpc
    split at h
    · rename_i hcurrent hrest
      rw [Option.some.injEq] at h
      rw [← h]
      exact finishRound_effect d call (by rw [hpc, evictions_eq_nil victims hcurrent hrest])
    · rw [Option.map_eq_some_iff] at h
      rcases h with ⟨⟨w', victims', events⟩, hstep, rfl⟩
      refine .evictor _ .idle _ events ?_ ?_ rfl rfl ?_
      · simp only [Daemon.view, hpc]
        exact evictions_step idleVictims call d.world w' _ victims' events hstep
      · intro e he
        cases e with
        | idle => exact absurd rfl he
        | memory => rfl
      · rw [Daemon.NewVictimsCond, hpc]
        trivial
  · exact absurd h (by simp)

theorem monitorStep_effect (d d' : Daemon) (call : CallId) (rssBytes : Nat)
    (h : d.monitorStep call rssBytes = some d') :
    DaemonEffect d (.memoryMonitor call rssBytes) d' := by
  -- Before it has chosen, the monitor only reads.
  have hread : ∀ monitor' : MonitorPc, d.monitor.view d.settings = .quiet none →
      monitor'.view d.settings = .quiet none → d.NewVictimsCond (.memoryMonitor call rssBytes) →
      (∀ victim ∈ monitor'.sampled, victim ∈ d.monitor.sampled ∨
        ∃ key record, d.world.reg.sessions.get? key = some record ∧
          victim = (record.handle.key, record.handle.runtime)) →
      DaemonEffect d (.memoryMonitor call rssBytes) { d with monitor := monitor' } := by
    intro monitor' hview hview' hcond hsampled
    refine .read _ _ rfl (fun e => ?_) hsampled rfl hcond
    cases e with
    | idle => rfl
    | memory => exact hview'.trans hview.symm
  unfold Daemon.monitorStep at h
  split at h
  · rename_i hpc
    have hcond : d.NewVictimsCond (.memoryMonitor call rssBytes) := by
      rw [Daemon.NewVictimsCond, hpc]
      trivial
    split at h
    · rw [Option.some.injEq] at h
      rw [← h]
      exact hread _ (by rw [hpc]; rfl) rfl hcond (by simp [MonitorPc.sampled])
    · rw [Option.some.injEq] at h
      rw [← h]
      exact hread d.monitor (by rw [hpc]; rfl) (by rw [hpc]; rfl) hcond
        (fun victim hmem => Or.inl hmem)
  · rename_i start hpc
    rw [Option.some.injEq] at h
    rw [← h]
    refine hread _ (by rw [hpc]; rfl) rfl (by rw [Daemon.NewVictimsCond, hpc]; trivial) ?_
    intro victim hmem
    rw [MonitorPc.sampled, List.map_nil, List.append_nil, SessionRegistry.memorySnapshots,
      List.map_map] at hmem
    rcases List.mem_map.mp hmem with ⟨record, hrecord, rfl⟩
    -- What is sampled next is registered at this moment.
    rcases (Table.mem_values_iff _ _).mp hrecord with ⟨key, hkey⟩
    exact Or.inr ⟨key, record, hkey, rfl⟩
  · rename_i samples hpc
    rw [Option.some.injEq] at h
    rw [← h]
    exact .selectMemory call rssBytes samples _ hpc rfl rfl rfl rfl rfl
  · rename_i snapshot todo samples hpc
    rw [Option.some.injEq] at h
    rw [← h]
    refine hread _ (by rw [hpc]; rfl) rfl (by rw [Daemon.NewVictimsCond, hpc]; trivial) ?_
    intro victim hmem
    rw [hpc]
    refine Or.inl ?_
    simp only [MonitorPc.sampled, List.map_append, List.map_cons, List.map_nil,
      List.mem_append, List.mem_cons, List.not_mem_nil, or_false] at hmem ⊢
    rcases hmem with hmem | hmem | hmem
    · exact Or.inl (Or.inr hmem)
    · exact Or.inr hmem
    · exact Or.inl (Or.inl hmem)
  · rename_i victims hpc
    have hcond : d.NewVictimsCond (.memoryMonitor call rssBytes) := by
      rw [Daemon.NewVictimsCond, hpc]
      trivial
    split at h
    · rename_i hcurrent hrest
      rw [Option.some.injEq] at h
      rw [← h]
      have hview : d.monitor.view d.settings = .quiet none := by
        rw [hpc, evictions_eq_nil victims hcurrent hrest]
        rfl
      exact hread _ hview rfl hcond (by simp [MonitorPc.sampled])
    · rw [Option.map_eq_some_iff] at h
      rcases h with ⟨⟨w', victims', events⟩, hstep, rfl⟩
      refine .evictor _ .memory _ events ?_ ?_ (by rw [hpc]; rfl) rfl hcond
      · simp only [Daemon.view, hpc]
        exact evictions_step (memoryVictims d.settings) call d.world w' _ victims' events hstep
      · intro e he
        cases e with
        | idle => rfl
        | memory => exact absurd rfl he
  · exact absurd h (by simp)

/-- Every step of the daemon has an effect. -/
theorem daemon_effect (d d' : Daemon) (a : DaemonAction) (h : d.step a = some d') :
    DaemonEffect d a d' := by
  cases a with
  | client a =>
      simp only [Daemon.step] at h
      split at h
      · rename_i hclient
        rw [Option.map_eq_some_iff] at h
        rcases h with ⟨w', hstep, rfl⟩
        exact .client a _ hclient hstep (fun e => by cases e <;> rfl) rfl rfl
      · exact absurd h (by simp)
  | evictionLoop call => exact evictionStep_effect d d' call h
  | memoryMonitor call rssBytes => exact monitorStep_effect d d' call rssBytes h
  | stopEvictionLoop =>
      simp only [Daemon.step] at h
      split at h
      · rename_i hpc
        rw [Option.some.injEq] at h
        rw [← h]
        refine .read _ _ rfl (fun e => ?_) (fun victim hmem => Or.inl hmem) rfl trivial
        cases e with
        | idle =>
            rw [Daemon.view, Daemon.view, hpc]
            rfl
        | memory => rfl
      · exact absurd h (by simp)
  | stopMemoryMonitor =>
      simp only [Daemon.step] at h
      split at h
      · rename_i hpc
        rw [Option.some.injEq] at h
        rw [← h]
        refine .read _ _ rfl (fun e => ?_) (by simp [MonitorPc.sampled]) rfl trivial
        cases e with
        | idle => rfl
        | memory =>
            rw [Daemon.view, Daemon.view, hpc]
            rfl
      · exact absurd h (by simp)

/-! ### No choice is forgotten -/

theorem countVictim_cons (runtime : RuntimeId) (victim : Victim) (victims : List Victim) :
    countVictim runtime (victim :: victims)
      = countVictim runtime victims + if victim.2 = runtime then 1 else 0 := by
  simp only [countVictim, List.countP_cons, decide_eq_true_eq]

theorem countVictim_pos (runtime : RuntimeId) (victims : List Victim) :
    0 < countVictim runtime victims ↔ ∃ victim ∈ victims, victim.2 = runtime := by
  simp only [countVictim, List.countP_pos_iff, decide_eq_true_eq]

/-- An evictor counts a victim when it stops being pending. -/
theorem view_claims (e : Evictor) (w w' : World) (v v' : EvictorView)
    (events : List DaemonEvent) (h : ViewStep e w v w' v' events) (runtime : RuntimeId) :
    countVictim runtime v'.pending + events.countP (DaemonEvent.counts runtime)
      = countVictim runtime v.pending := by
  cases h with
  | still _ hpending => rw [hpending, List.countP_nil, Nat.add_zero]
  | start call method _ _ _ hstep hpending hunremoved hframe hclient hevents =>
      rw [hpending]
      rcases hevents with ⟨rfl, _⟩ | ⟨victim, rfl, _⟩ <;> rfl
  | sect call frame _ _ hcall hstep hkeeps hpending => rw [hpending, List.countP_nil, Nat.add_zero]
  | drop call victim _ _ hcall hvictim hstep hpending =>
      rw [hpending]
      rfl
  | count call frame victim _ _ hcall hstep hkeeps hpending =>
      rw [hpending, countVictim_cons]
      simp only [List.countP_cons, List.countP_nil, Nat.zero_add, DaemonEvent.counts,
        decide_eq_true_eq]

namespace Daemon

/-- What one evictor does leaves the number of choices. -/
theorem claims_evictor (d d' : Daemon) (e : Evictor) (events : List DaemonEvent)
    (hview : ViewStep e d.world (d.view e) d'.world (d'.view e) events)
    (hother : ∀ e', e' ≠ e → d'.view e' = d.view e') (hlog : d'.log = events ++ d.log)
    (runtime : RuntimeId) : d'.claims runtime = d.claims runtime := by
  have hclaims := view_claims e _ _ _ _ events hview runtime
  unfold claims
  rw [hlog, List.countP_append]
  cases e with
  | idle =>
      rw [hother .memory (by simp)]
      omega
  | memory =>
      rw [hother .idle (by simp)]
      omega

/-- A choice adds its victims to the claims. -/
theorem claims_select (d d' : Daemon) (chooser : Evictor) (victims : List Victim)
    (hnone : (d.view chooser).pending = [])
    (hview : d'.view chooser = ⟨victims, victims, none, none⟩)
    (hother : ∀ e, e ≠ chooser → d'.view e = d.view e) (hlog : d'.log = d.log)
    (runtime : RuntimeId) :
    d'.claims runtime = d.claims runtime + countVictim runtime victims := by
  unfold claims
  cases chooser with
  | idle =>
      rw [hview, hother .memory (by simp), hlog, hnone]
      simp only [countVictim, List.countP_nil]
      omega
  | memory =>
      rw [hview, hother .idle (by simp), hlog, hnone]
      simp only [countVictim, List.countP_nil]
      omega

theorem pending_of_selecting (d : Daemon) (c : CallId) (start : Instant)
    (h : d.eviction = .selecting c start) : (d.view .idle).pending = [] := by
  rw [view, h]
  rfl

theorem pending_of_sampled (d : Daemon) (samples : List MemorySample)
    (h : d.monitor = .sampling [] samples) : (d.view .memory).pending = [] := by
  rw [view, h]
  rfl

/-- What holds of the one other evictor holds of every other. -/
theorem eq_of_ne_idle (d d' : Daemon) (h : d'.view .memory = d.view .memory) :
    ∀ e, e ≠ Evictor.idle → d'.view e = d.view e := by
  intro e he
  cases e with
  | idle => exact absurd rfl he
  | memory => exact h

theorem eq_of_ne_memory (d d' : Daemon) (h : d'.view .idle = d.view .idle) :
    ∀ e, e ≠ Evictor.memory → d'.view e = d.view e := by
  intro e he
  cases e with
  | idle => exact h
  | memory => exact absurd rfl he

theorem claims_same (d d' : Daemon) (hviews : ∀ e, d'.view e = d.view e)
    (hlog : d'.log = d.log) (runtime : RuntimeId) : d'.claims runtime = d.claims runtime := by
  unfold claims
  rw [hviews, hviews, hlog]

/-- No choice is forgotten, and one that the condition forbids makes a second
    claim on a session. -/
theorem claims_step (d d' : Daemon) (a : DaemonAction) (h : d.step a = some d') :
    (∀ runtime, d.claims runtime ≤ d'.claims runtime) ∧
      (¬ d.NewVictimsCond a → ∃ runtime, 2 ≤ d'.claims runtime) := by
  cases daemon_effect d d' a h with
  | client b _ hclient hstep hviews hsampled hlog =>
      exact ⟨fun rt => Nat.le_of_eq (claims_same d d' hviews hlog rt).symm,
        fun hcond => absurd trivial hcond⟩
  | read _ _ hworld hviews hsampled hlog hcond =>
      exact ⟨fun rt => Nat.le_of_eq (claims_same d d' hviews hlog rt).symm,
        fun hnot => absurd hcond hnot⟩
  | evictor _ e _ events hview hother hsampled hlog hcond =>
      exact ⟨fun rt => Nat.le_of_eq (claims_evictor d d' e events hview hother hlog rt).symm,
        fun hnot => absurd hcond hnot⟩
  | selectIdle call c start _ heviction hstep hview hother hsampled hlog =>
      have hclaims := claims_select d d' .idle _ (pending_of_selecting d c start heviction) hview
        (eq_of_ne_idle d d' hother) hlog
      refine ⟨fun rt => by rw [hclaims]; exact Nat.le_add_right _ _, fun hnot => ?_⟩
      simp only [NewVictimsCond, heviction, not_forall] at hnot
      rcases hnot with ⟨candidate, hmem, hclaimed⟩
      have hpos : 0 < countVictim candidate.runtime (idleVictimsOf d.world.reg start) :=
        (countVictim_pos _ _).mpr ⟨_, List.mem_map_of_mem hmem, rfl⟩
      exact ⟨candidate.runtime, by rw [hclaims]; omega⟩
  | selectMemory call rssBytes samples _ hmonitor hworld hview hother hsampled hlog =>
      have hclaims := claims_select d d' .memory _ (pending_of_sampled d samples hmonitor) hview
        (eq_of_ne_memory d d' hother) hlog
      refine ⟨fun rt => by rw [hclaims]; exact Nat.le_add_right _ _, fun hnot => ?_⟩
      simp only [NewVictimsCond, hmonitor, not_forall] at hnot
      rcases hnot with ⟨sample, hmem, hclaimed⟩
      have hpos : 0 < countVictim sample.handle.runtime (memoryVictimsOf samples d.settings) :=
        (countVictim_pos _ _).mpr ⟨_, List.mem_map_of_mem hmem, rfl⟩
      exact ⟨sample.handle.runtime, by rw [hclaims]; omega⟩

/-- A run that chose a session twice has two claims on it for good. -/
theorem claims_of_not_along (as : List DaemonAction) (d d' : Daemon)
    (h : run step d as = some d') :
    (∀ runtime, d.claims runtime ≤ d'.claims runtime) ∧
      (¬ Along step NewVictimsCond d as → ∃ runtime, 2 ≤ d'.claims runtime) := by
  induction as generalizing d with
  | nil =>
      simp only [run, Option.some.injEq] at h
      rw [h]
      exact ⟨fun _ => Nat.le_refl _, fun hnot => absurd trivial hnot⟩
  | cons a as ih =>
      rcases exists_of_run_cons a as d d' h with ⟨d₁, hstep, hrest⟩
      rcases claims_step d d₁ a hstep with ⟨hmono, htwice⟩
      rcases ih d₁ hrest with ⟨hmono', htwice'⟩
      refine ⟨fun rt => Nat.le_trans (hmono rt) (hmono' rt), fun hnot => ?_⟩
      by_cases hcond : d.NewVictimsCond a
      · refine htwice' (fun hrest' => hnot ?_)
        intro d₂ hstep₂
        rw [hstep, Option.some.injEq] at hstep₂
        rw [← hstep₂]
        exact ⟨hcond, hrest'⟩
      · rcases htwice hcond with ⟨rt, hrt⟩
        exact ⟨rt, Nat.le_trans hrt (hmono' rt)⟩

/-! ### Victims stay registered until they are removed -/

/-- What holds of every reachable state as long as no session is chosen
    twice. -/
structure Evicting (d : Daemon) : Prop where
  fresh : Fresh d.world
  owned : ∀ e c f, (d.view e).frame = some (c, f) →
    d.world.calls.get? c = some f ∧ f.ofClient = false
  apart : ∀ c f f', (d.view .idle).frame = some (c, f) → (d.view .memory).frame ≠ some (c, f')
  registered : ∀ e, ∀ victim ∈ (d.view e).unremoved,
    d.world.reg.instanceOf victim.1 = some victim.2
  sampled : ∀ victim ∈ d.monitor.sampled,
    d.world.reg.instanceOf victim.1 = some victim.2 ∨ 0 < d.claims victim.2
  single : ∀ runtime, d.claims runtime ≤ 1
  shutDown : ∀ e victim, (d.view e).removing = some victim →
    lastShutDown e d.log = some victim.2
  removes : RemovesShutDown d.log

theorem evicting_init (idleTtl : Duration) (settings : MemoryBudgetSettings)
    (daemonIdleTtl : Option Duration) : Evicting (init idleTtl settings daemonIdleTtl) := by
  have hview : ∀ e, (init idleTtl settings daemonIdleTtl).view e = .quiet none := by
    intro e
    cases e <;> rfl
  exact {
    fresh := fresh_init idleTtl
    owned := fun e c f h => by rw [hview] at h; exact absurd h (by simp [EvictorView.quiet])
    apart := fun c f f' h => by rw [hview] at h; exact absurd h (by simp [EvictorView.quiet])
    registered := fun e v h => by rw [hview] at h; exact absurd h (by simp [EvictorView.quiet])
    sampled := fun v h => absurd h (by simp [init, MonitorPc.sampled])
    single := fun rt => by
      unfold claims
      rw [hview, hview]
      simp [EvictorView.quiet, countVictim, init]
    shutDown := fun e v h => by rw [hview] at h; exact absurd h (by simp [EvictorView.quiet])
    removes := trivial }

/-- Two sessions registered for one runtime are one session. -/
theorem key_of_instance (w : World) (h : Fresh w) (key key' : SessionKey) (runtime : RuntimeId)
    (hkey : w.reg.instanceOf key = some runtime) (hkey' : w.reg.instanceOf key' = some runtime) :
    key = key' := by
  rcases Option.map_eq_some_iff.mp hkey with ⟨u, hu, hrt⟩
  rcases Option.map_eq_some_iff.mp hkey' with ⟨u', hu', hrt'⟩
  have hreg := h.registered key u hu
  have hreg' := h.registered key' u' hu'
  rw [hrt] at hreg
  rw [hrt'] at hreg'
  exact h.single key key' runtime hreg hreg'

/-- Registered victims with different keys are different sessions. -/
theorem countVictim_le_one (w : World) (h : Fresh w) (victims : List Victim)
    (hreg : ∀ victim ∈ victims, w.reg.instanceOf victim.1 = some victim.2)
    (hkeys : (victims.map Prod.fst).Nodup) (runtime : RuntimeId) :
    countVictim runtime victims ≤ 1 := by
  induction victims with
  | nil => exact Nat.zero_le 1
  | cons victim victims ih =>
      rw [List.map_cons, List.nodup_cons] at hkeys
      have hrest := ih (fun v hv => hreg v (List.mem_cons_of_mem _ hv)) hkeys.2
      rw [countVictim_cons]
      split
      · rename_i hrt
        have hzero : ¬ 0 < countVictim runtime victims := by
          rw [countVictim_pos]
          rintro ⟨v, hv, hvrt⟩
          have hreg₁ := hreg victim List.mem_cons_self
          have hreg₂ := hreg v (List.mem_cons_of_mem _ hv)
          rw [hrt] at hreg₁
          rw [hvrt] at hreg₂
          refine hkeys.1 (List.mem_map.mpr ⟨v, hv, ?_⟩)
          exact key_of_instance w h v.1 victim.1 runtime hreg₂ hreg₁
        omega
      · omega

/-- The idle sessions are registered, under keys of their own. -/
theorem idleVictims_registered (w : World) (h : Fresh w) (start : Instant) :
    (∀ victim ∈ idleVictimsOf w.reg start, w.reg.instanceOf victim.1 = some victim.2) ∧
      ((idleVictimsOf w.reg start).map Prod.fst).Nodup := by
  constructor
  · intro victim hmem
    rcases List.mem_map.mp hmem with ⟨candidate, hcand, rfl⟩
    rcases List.mem_map.mp hcand with ⟨record, hrecord, rfl⟩
    rcases (Table.mem_values_iff _ _).mp (List.mem_filter.mp hrecord).1 with ⟨key, hkey⟩
    change w.reg.instanceOf record.handle.key = some record.handle.runtime
    rw [h.handleKey key record hkey, SessionRegistry.instanceOf, hkey, Option.map_some]
  · have hkeys : (w.reg.sessions.values.map (fun record => record.handle.key)).Nodup := by
      have heq : w.reg.sessions.values.map (fun record => record.handle.key)
          = w.reg.sessions.entries.map (fun entry => entry.1) := by
        rw [Table.values, List.map_map]
        refine List.map_congr_left (fun entry hmem => ?_)
        exact h.handleKey entry.1 entry.2 ((Table.mem_entries_iff _ _ _).mp hmem)
      rw [heq]
      exact w.reg.sessions.toAList.nodupKeys
    rw [idleVictimsOf, SessionRegistry.idleCandidates, List.map_map, List.map_map]
    exact hkeys.sublist (List.filter_sublist.map _)

/-- The victims of the memory monitor are among its samples. -/
theorem mem_selectEvictions (samples : List MemorySample) (settings : MemoryBudgetSettings)
    (sample : MemorySample) (h : sample ∈ selectEvictions samples settings) :
    sample ∈ samples := by
  have hdedupe : ∀ (l : List MemorySample) s, s ∈ dedupeByKey l → s ∈ l := by
    intro l
    induction l with
    | nil => exact fun s hs => hs
    | cons first l ih =>
        intro s hs
        rcases List.mem_cons.mp hs with rfl | hs
        · exact List.mem_cons_self
        · exact List.mem_cons_of_mem _ (ih s (List.mem_filter.mp hs).1)
  have htake : ∀ (max : Nat) (l : List MemorySample) (total : Nat) s,
      s ∈ takeOverTotal max total l → s ∈ l := by
    intro max l
    induction l with
    | nil => exact fun _ s hs => hs
    | cons first l ih =>
        intro total s hs
        rw [takeOverTotal] at hs
        split at hs
        · exact absurd hs (by simp)
        · rcases List.mem_cons.mp hs with rfl | hs
          · exact List.mem_cons_self
          · exact List.mem_cons_of_mem _ (ih _ s hs)
  rcases List.mem_append.mp (hdedupe _ _ h) with h | h
  · unfold overSessionLimit at h
    split at h
    · exact absurd h (by simp)
    · exact (List.mem_filter.mp ((List.perm_insertionSort _ _).mem_iff.mp h)).1
  · unfold overTotalLimit at h
    split at h
    · exact absurd h (by simp)
    · have hmem := (List.perm_insertionSort _ _).mem_iff.mp (htake _ _ _ _ h)
      exact (List.mem_filter.mp hmem).1

theorem dedupeByKey_nodup (samples : List MemorySample) :
    ((dedupeByKey samples).map (fun sample => sample.key)).Nodup := by
  induction samples with
  | nil => exact List.nodup_nil
  | cons sample samples ih =>
      rw [dedupeByKey, List.map_cons, List.nodup_cons]
      refine ⟨fun hmem => ?_, ih.sublist (List.filter_sublist.map _)⟩
      rcases List.mem_map.mp hmem with ⟨other, hother, hkey⟩
      have := (List.mem_filter.mp hother).2
      rw [decide_eq_true_eq] at this
      exact this hkey

/-- What is still to be removed is pending. -/
theorem view_sublist (d : Daemon) (e : Evictor) :
    (d.view e).unremoved.Sublist (d.view e).pending := by
  have hvictims : ∀ {V : Type} (kind : VictimKind V) (victims : Evictions V),
      (victims.view kind).unremoved.Sublist (victims.view kind).pending := by
    intro V kind victims
    rcases victims with ⟨current, rest⟩
    cases current with
    | none => exact List.Sublist.refl _
    | some current =>
        rcases current with ⟨v, pc⟩
        cases pc <;>
          first
            | exact List.Sublist.refl _
            | exact List.sublist_cons_self _ _
  cases e with
  | idle =>
      rw [view]
      cases d.eviction with
      | evicting victims => exact hvictims idleVictims victims
      | _ => exact List.Sublist.refl _
  | memory =>
      rw [view]
      cases d.monitor with
      | evicting victims => exact hvictims (memoryVictims d.settings) victims
      | _ => exact List.Sublist.refl _

theorem countVictim_unremoved (d : Daemon) (e : Evictor) (runtime : RuntimeId) :
    countVictim runtime (d.view e).unremoved ≤ countVictim runtime (d.view e).pending :=
  (view_sublist d e).countP_le

/-! ### The calls of an evictor are its own -/

/-- The calls that an action of a client moves are calls of clients. -/
theorem mover_ofClient (w w' : World) (a : Action) (hclient : a.ofClient w = true)
    (hstep : w.step a = some w') (c : CallId) (f : Frame) (hmover : a.mover = some c)
    (hget : w.calls.get? c = some f) : f.ofClient = true := by
  cases a with
  | tick span => exact absurd hmover (by simp [Action.mover])
  | start call method => exact absurd hmover (by simp [Action.mover])
  | sect call =>
      rw [Action.mover, Option.some.injEq] at hmover
      rw [Action.ofClient, hmover, hget, Option.all_some] at hclient
      exact hclient
  | spawnReturns call result =>
      rw [Action.mover, Option.some.injEq] at hmover
      rw [hmover, World.step, hget] at hstep
      split at hstep
      · rename_i key clientKind g heq
        rw [Option.some.inj heq]
        rfl
      · exact absurd hstep (by simp)
  | runtimeReturns call result =>
      rw [Action.mover, Option.some.injEq] at hmover
      rw [hmover, World.step, hget] at hstep
      split at hstep
      · rename_i kind id message key runtime heq
        rw [Option.some.inj heq]
        rfl
      · exact absurd hstep (by simp)

/-- What the step of an evictor does to the world, when the evictor's calls are
    its own. -/
structure OwnStep (w w' : World) (v v' : EvictorView) : Prop where
  fresh : Fresh w → Fresh w'
  instances : ∀ key runtime, w.reg.instanceOf key = some runtime →
    w'.reg.instanceOf key = some runtime ∨
      ∃ victim, v.unremoved = victim :: v'.unremoved ∧ victim.1 = key
  owned : ∀ c f, v'.frame = some (c, f) → w'.calls.get? c = some f ∧ f.ofClient = false
  others : ∀ c f, w.calls.get? c = some f → (∀ f', v.frame ≠ some (c, f')) →
    w'.calls.get? c = some f ∧ ∀ f', v'.frame ≠ some (c, f')

/-- The step of an evictor whose call ends, or begins, and drops no session. -/
theorem ownStep_of_keeps (w w' : World) (v v' : EvictorView) (a : Action)
    (hstep : w.step a = some w')
    (hkeeps : ∀ call key, a.mover = some call → w.calls.get? call ≠ some (.remove key .session))
    (howned : ∀ c f, v'.frame = some (c, f) → w'.calls.get? c = some f ∧ f.ofClient = false)
    (hmover : ∀ c, a.mover = some c → ∃ f, v.frame = some (c, f))
    (hnew : ∀ c f f', w.calls.get? c = some f → v'.frame ≠ some (c, f')) : OwnStep w w' v v' where
  fresh := fun hf => fresh_step w w' a hf hstep
  instances := fun key rt hget => Or.inl (instance_step w w' a hstep key rt
    (fun call hm => hkeeps call key hm) hget)
  owned := howned
  others := by
    intro c f hget hother
    refine ⟨calls_step w w' a hstep c f hget (fun hm => ?_), fun f' => hnew c f f' hget⟩
    rcases hmover c hm with ⟨f', hf'⟩
    exact hother f' hf'

theorem view_world (e : Evictor) (w w' : World) (v v' : EvictorView)
    (events : List DaemonEvent) (h : ViewStep e w v w' v' events)
    (howned : ∀ c f, v.frame = some (c, f) → w.calls.get? c = some f ∧ f.ofClient = false) :
    OwnStep w w' v v' := by
  cases h with
  | still _ hpending hunremoved hframe hremoving =>
      exact ⟨fun hf => hf, fun key rt hget => Or.inl hget,
        fun c f hf => absurd hf (by rw [hframe]; simp),
        fun c f hget _ => ⟨hget, fun f' => by rw [hframe]; simp⟩⟩
  | start call method _ _ _ hstep hpending hunremoved hframe hclient hevents =>
      have hfree : w.calls.get? call = none := by
        cases hget : w.calls.get? call with
        | none => rfl
        | some f => exact absurd hstep (by simp [World.step, hget])
      have hcalls : w'.calls = w.calls.set call (method.frame w.now) := by
        simp only [World.step, hfree, Option.some.injEq] at hstep
        rw [← hstep]
      refine ownStep_of_keeps w w' v v' _ hstep (by simp [Action.mover]) ?_
        (by simp [Action.mover]) ?_
      · intro c f hf
        rw [hframe, Option.some.injEq, Prod.mk.injEq] at hf
        rw [← hf.1, ← hf.2, hcalls]
        exact ⟨Table.get?_set_self _ _ _, hclient⟩
      · intro c f f' hget hf'
        rw [hframe, Option.some.injEq, Prod.mk.injEq] at hf'
        rw [← hf'.1, hfree] at hget
        exact absurd hget (by simp)
  | sect call frame _ _ hcall hstep hkeeps hpending hunremoved hframe hremoving =>
      refine ownStep_of_keeps w w' v v' _ hstep ?_ (by rw [hframe]; simp) ?_
        (fun c f f' _ => by rw [hframe]; simp)
      · intro c key hm
        rw [Action.mover, Option.some.injEq] at hm
        rw [← hm, (howned call frame hcall).1]
        exact fun heq => hkeeps key (Option.some.inj heq)
      · intro c hm
        rw [Action.mover, Option.some.injEq] at hm
        exact ⟨frame, by rw [← hm]; exact hcall⟩
  | count call frame victim _ _ hcall hstep hkeeps hpending hunremoved hframe hremoving =>
      refine ownStep_of_keeps w w' v v' _ hstep ?_ (by rw [hframe]; simp) ?_
        (fun c f f' _ => by rw [hframe]; simp)
      · intro c key hm
        rw [Action.mover, Option.some.injEq] at hm
        rw [← hm, (howned call frame hcall).1]
        exact fun heq => hkeeps key (Option.some.inj heq)
      · intro c hm
        rw [Action.mover, Option.some.injEq] at hm
        exact ⟨frame, by rw [← hm]; exact hcall⟩
  | drop call victim _ _ hcall hvictim hstep hpending hunremoved hframe hremoving =>
      -- The one section that takes a record away, and it is the victim's.
      have hget := (howned call _ hcall).1
      rcases sect_of_mover w w' (.sect call) call _ rfl hget (by simp) (by simp) hstep
        with ⟨r', frame', evs, hsec, rfl⟩
      simp only [Frame.section, RemovePc.section, Option.map_some, Option.some.injEq,
        Prod.mk.injEq] at hsec
      rcases hsec with ⟨rfl, rfl, rfl⟩
      refine ⟨fun hf => fresh_step w _ _ hf hstep, fun key rt hinst => ?_, fun c f hf => ?_,
        fun c f hc hother => ?_⟩
      · by_cases hkey : victim.1 = key
        · exact Or.inr ⟨victim, hunremoved, hkey⟩
        · refine Or.inl (instance_step w _ _ hstep key rt (fun c hm hc => ?_) hinst)
          rw [Action.mover, Option.some.injEq] at hm
          rw [← hm, hget, Option.some.injEq, Frame.remove.injEq] at hc
          exact hkey hc.1
      · rw [hframe, Option.some.injEq, Prod.mk.injEq] at hf
        rw [← hf.1, ← hf.2]
        exact ⟨Table.get?_set_self _ _ _, rfl⟩
      · have hne : c ≠ call := fun heq => hother _ (by rw [heq]; exact hcall)
        refine ⟨(Table.get?_set_ne _ _ _ _ hne).trans hc, fun f' hf' => ?_⟩
        rw [hframe, Option.some.injEq, Prod.mk.injEq] at hf'
        exact hne hf'.1.symm

/-- The calls of the evictors are under way, are nobody else's and are told
    apart. -/
structure Owning (d : Daemon) : Prop where
  fresh : Fresh d.world
  owned : ∀ e c f, (d.view e).frame = some (c, f) →
    d.world.calls.get? c = some f ∧ f.ofClient = false
  apart : ∀ c f f', (d.view .idle).frame = some (c, f) → (d.view .memory).frame ≠ some (c, f')

theorem owning_init (idleTtl : Duration) (settings : MemoryBudgetSettings)
    (daemonIdleTtl : Option Duration) : Owning (init idleTtl settings daemonIdleTtl) := by
  have hview : ∀ e, ((init idleTtl settings daemonIdleTtl).view e).frame = none := by
    intro e
    cases e <;> rfl
  exact ⟨fresh_init idleTtl, fun e c f h => by rw [hview] at h; exact absurd h (by simp),
    fun c f f' h => by rw [hview] at h; exact absurd h (by simp)⟩

/-- The step of one evictor leaves the other one's call alone. -/
theorem owning_evictor (d d' : Daemon) (e : Evictor) (h : Owning d)
    (hown : OwnStep d.world d'.world (d.view e) (d'.view e))
    (hother : ∀ e', e' ≠ e → d'.view e' = d.view e') : Owning d' where
  fresh := hown.fresh h.fresh
  owned := by
    intro e' c f hf
    by_cases he : e' = e
    · rw [he] at hf
      exact hown.owned c f hf
    · rw [hother e' he] at hf
      rcases h.owned e' c f hf with ⟨hget, hforeign⟩
      refine ⟨(hown.others c f hget (fun f' hf' => ?_)).1, hforeign⟩
      cases e <;> cases e'
      · exact he rfl
      · exact h.apart c f' f hf' hf
      · exact h.apart c f f' hf hf'
      · exact he rfl
  apart := by
    intro c f f' hf hf'
    cases e with
    | idle =>
        rw [hother .memory (by simp)] at hf'
        refine (hown.others c f' (h.owned .memory c f' hf').1 (fun g hg => ?_)).2 f hf
        exact h.apart c g f' hg hf'
    | memory =>
        rw [hother .idle (by simp)] at hf
        refine (hown.others c f (h.owned .idle c f hf).1 (fun g hg => ?_)).2 f' hf'
        exact h.apart c f g hf hg

theorem owning_step (d d' : Daemon) (a : DaemonAction) (h : Owning d)
    (hstep : d.step a = some d') : Owning d' := by
  cases daemon_effect d d' a hstep with
  | client b _ hclient hstep hviews hsampled hlog =>
      refine ⟨fresh_step d.world d'.world b h.fresh hstep, fun e c f hf => ?_, ?_⟩
      · rw [hviews] at hf
        rcases h.owned e c f hf with ⟨hget, hforeign⟩
        refine ⟨calls_step d.world d'.world b hstep c f hget (fun hmover => ?_), hforeign⟩
        rw [mover_ofClient d.world d'.world b hclient hstep c f hmover hget] at hforeign
        exact absurd hforeign (by simp)
      · rw [hviews, hviews]
        exact h.apart
  | read _ _ hworld hviews hsampled hlog hcond =>
      refine ⟨by rw [hworld]; exact h.fresh, fun e c f hf => ?_, ?_⟩
      · rw [hviews] at hf
        rw [hworld]
        exact h.owned e c f hf
      · rw [hviews, hviews]
        exact h.apart
  | evictor _ e _ events hview hother hsampled hlog hcond =>
      exact owning_evictor d d' e h (view_world e _ _ _ _ events hview (h.owned e)) hother
  | selectIdle call c start _ heviction hstep hview hother hsampled hlog =>
      -- The call of `idle_candidates` ends, and it removes nothing.
      have hframe : (d.view .idle).frame = some (c, .idle start none) := by
        rw [view, heviction]
        rfl
      refine owning_evictor d d' .idle h
        (ownStep_of_keeps _ _ _ _ _ hstep ?_ (by rw [hview]; simp) ?_ (by rw [hview]; simp)) ?_
      · intro call key hm
        rw [Action.mover, Option.some.injEq] at hm
        rw [← hm, (h.owned .idle c _ hframe).1]
        simp
      · intro call hm
        rw [Action.mover, Option.some.injEq] at hm
        exact ⟨_, by rw [← hm]; exact hframe⟩
      · intro e he
        cases e with
        | idle => exact absurd rfl he
        | memory => exact hother
  | selectMemory call rssBytes samples _ hmonitor hworld hview hother hsampled hlog =>
      have hnone : (d'.view .memory).frame = none := by rw [hview]
      refine ⟨by rw [hworld]; exact h.fresh, fun e c f hf => ?_, fun c f f' _ hf' => ?_⟩
      · cases e with
        | idle =>
            rw [hother] at hf
            rw [hworld]
            exact h.owned .idle c f hf
        | memory =>
            rw [hnone] at hf
            exact absurd hf (by simp)
      · rw [hnone] at hf'
        exact absurd hf' (by simp)

theorem Evicting.owning (d : Daemon) (h : Evicting d) : Owning d := ⟨h.fresh, h.owned, h.apart⟩

/-! ### Steps of clients -/

theorem evicting_client (d d' : Daemon) (a : Action) (h : Evicting d) (hown : Owning d')
    (hclient : a.ofClient d.world = true) (hstep : d.world.step a = some d'.world)
    (hviews : ∀ e, d'.view e = d.view e) (hsampled : d'.monitor.sampled = d.monitor.sampled)
    (hlog : d'.log = d.log) : Evicting d' := by
  -- Clients remove nothing.
  have hinstance : ∀ key runtime, d.world.reg.instanceOf key = some runtime →
      d'.world.reg.instanceOf key = some runtime := by
    intro key runtime hget
    refine instance_step d.world d'.world a hstep key runtime (fun call hmover hcall => ?_) hget
    have := mover_ofClient d.world d'.world a hclient hstep call _ hmover hcall
    exact absurd this (by simp [Frame.ofClient])
  exact {
    fresh := hown.fresh
    owned := hown.owned
    apart := hown.apart
    registered := by
      intro e v hv
      rw [hviews] at hv
      exact hinstance _ _ (h.registered e v hv)
    sampled := by
      intro v hv
      rw [hsampled] at hv
      rw [claims_same d d' hviews hlog]
      exact (h.sampled v hv).imp_left (hinstance _ _)
    single := fun rt => by
      rw [claims_same d d' hviews hlog]
      exact h.single rt
    shutDown := by
      intro e v hv
      rw [hviews] at hv
      rw [hlog]
      exact h.shutDown e v hv
    removes := by
      rw [hlog]
      exact h.removes }

/-! ### Steps of evictors -/

/-- What the step of an evictor does to the log. -/
theorem view_log (e : Evictor) (w w' : World) (v v' : EvictorView)
    (events log : List DaemonEvent) (h : ViewStep e w v w' v' events)
    (hshut : ∀ victim, v.removing = some victim → lastShutDown e log = some victim.2)
    (hreg : ∀ victim ∈ v.unremoved, w.reg.instanceOf victim.1 = some victim.2)
    (hremoves : RemovesShutDown log) :
    (∀ e', e' ≠ e → lastShutDown e' (events ++ log) = lastShutDown e' log) ∧
      (∀ victim, v'.removing = some victim →
        lastShutDown e (events ++ log) = some victim.2) ∧
      RemovesShutDown (events ++ log) := by
  cases h with
  | still _ hpending hunremoved hframe hremoving =>
      exact ⟨fun _ _ => rfl, by rw [hremoving]; simp, hremoves⟩
  | start call method _ _ _ hstep hpending hunremoved hframe hclient hevents =>
      rcases hevents with ⟨rfl, hnone⟩ | ⟨victim, rfl, hsome⟩
      · exact ⟨fun _ _ => rfl, by rw [hnone]; simp, hremoves⟩
      · refine ⟨fun e' hne => if_neg (fun heq => hne heq.symm), fun victim' hv => ?_, hremoves⟩
        rw [hsome, Option.some.injEq] at hv
        rw [← hv]
        exact if_pos rfl
  | sect call frame _ _ hcall hstep hkeeps hpending hunremoved hframe hremoving =>
      exact ⟨fun _ _ => rfl, by rw [hremoving]; simp, hremoves⟩
  | drop call victim _ _ hcall hvictim hstep hpending hunremoved hframe hremoving =>
      refine ⟨fun _ _ => rfl, by rw [hremoving]; simp, fun runtime hdropped => ?_, hremoves⟩
      rw [hreg victim (by rw [hunremoved]; exact List.mem_cons_self), Option.mem_some_iff]
        at hdropped
      change lastShutDown e log = some runtime
      rw [hshut victim hvictim, hdropped]
  | count call frame victim _ _ hcall hstep hkeeps hpending hunremoved hframe hremoving =>
      exact ⟨fun _ _ => rfl, by rw [hremoving]; simp, hremoves⟩

/-- An evictor does not choose while it evicts. -/
theorem view_unremoved (e : Evictor) (w w' : World) (v v' : EvictorView)
    (events : List DaemonEvent) (h : ViewStep e w v w' v' events) :
    ∀ victim ∈ v'.unremoved, victim ∈ v.unremoved := by
  cases h with
  | still _ hpending hunremoved => rw [hunremoved]; exact fun _ hv => hv
  | start call method _ _ _ hstep hpending hunremoved => rw [hunremoved]; exact fun _ hv => hv
  | sect call frame _ _ hcall hstep hkeeps hpending hunremoved =>
      rw [hunremoved]
      exact fun _ hv => hv
  | drop call victim _ _ hcall hvictim hstep hpending hunremoved =>
      rw [hunremoved]
      exact fun _ hv => List.mem_cons_of_mem _ hv
  | count call frame victim _ _ hcall hstep hkeeps hpending hunremoved =>
      rw [hunremoved]
      exact fun _ hv => hv

/-- A victim that is pending is claimed, and one that both evictors have is
    claimed twice. -/
theorem claims_pending (d : Daemon) (e : Evictor) (runtime : RuntimeId) :
    countVictim runtime (d.view e).pending ≤ d.claims runtime := by
  unfold claims
  cases e <;> omega

theorem claims_both (d : Daemon) (e e' : Evictor) (hne : e' ≠ e) (runtime : RuntimeId) :
    countVictim runtime (d.view e).pending + countVictim runtime (d.view e').pending
      ≤ d.claims runtime := by
  unfold claims
  cases e <;> cases e' <;> first | exact absurd rfl hne | omega

theorem evicting_evictor (d d' : Daemon) (e : Evictor) (events : List DaemonEvent)
    (h : Evicting d) (howning : Owning d')
    (hview : ViewStep e d.world (d.view e) d'.world (d'.view e) events)
    (hother : ∀ e', e' ≠ e → d'.view e' = d.view e')
    (hsampled : d'.monitor.sampled = d.monitor.sampled) (hlog : d'.log = events ++ d.log) :
    Evicting d' := by
  have hown := view_world e _ _ _ _ events hview (h.owned e)
  have hevents := view_log e _ _ _ _ events d.log hview (h.shutDown e) (h.registered e) h.removes
  have hclaims := claims_evictor d d' e events hview hother hlog
  -- The victim that is dropped is claimed once, so it is nobody else's.
  have hdropped : ∀ victim, (d.view e).unremoved = victim :: (d'.view e).unremoved →
      ∀ e', ∀ u ∈ (d'.view e').unremoved, u.2 ≠ victim.2 := by
    intro victim hcons e' u hu heq
    have hle := h.single victim.2
    have hcount := countVictim_unremoved d e victim.2
    rw [hcons, countVictim_cons, if_pos rfl] at hcount
    by_cases he : e' = e
    · rw [he] at hu
      have hpos : 0 < countVictim victim.2 (d'.view e).unremoved :=
        (countVictim_pos _ _).mpr ⟨u, hu, heq⟩
      have := claims_pending d e victim.2
      omega
    · rw [hother e' he] at hu
      have hpos : 0 < countVictim victim.2 (d.view e').unremoved :=
        (countVictim_pos _ _).mpr ⟨u, hu, heq⟩
      have hcount' := countVictim_unremoved d e' victim.2
      have := claims_both d e e' he victim.2
      omega
  -- No evictor gets a victim from an eviction.
  have hregistered : ∀ e', ∀ u ∈ (d'.view e').unremoved, u ∈ (d.view e').unremoved := by
    intro e' u hu
    by_cases he : e' = e
    · rw [he] at hu ⊢
      exact view_unremoved e _ _ _ _ events hview u hu
    · rw [hother e' he] at hu
      exact hu
  -- The session under the key of a dropped victim is the victim's.
  have hsession : ∀ victim, (d.view e).unremoved = victim :: (d'.view e).unremoved →
      ∀ u : Victim, victim.1 = u.1 → d.world.reg.instanceOf u.1 = some u.2 →
        u.2 = victim.2 := by
    intro victim hcons u hkey hinst
    have hvictim := h.registered e victim (by rw [hcons]; exact List.mem_cons_self)
    rw [hkey, hinst, Option.some.injEq] at hvictim
    exact hvictim
  exact {
    fresh := howning.fresh
    owned := howning.owned
    apart := howning.apart
    registered := by
      intro e' u hu
      have hinst := h.registered e' u (hregistered e' u hu)
      -- What an eviction drops is the session of its own victim.
      rcases hown.instances u.1 u.2 hinst with hkept | ⟨victim, hcons, hkey⟩
      · exact hkept
      · exact absurd (hsession victim hcons u hkey hinst) (hdropped victim hcons e' u hu)
    sampled := by
      intro u hu
      rw [hsampled] at hu
      rw [hclaims]
      rcases h.sampled u hu with hinst | hclaimed
      · rcases hown.instances u.1 u.2 hinst with hkept | ⟨victim, hcons, hkey⟩
        · exact Or.inl hkept
        · refine Or.inr (Nat.lt_of_lt_of_le ?_ (claims_pending d e u.2))
          refine Nat.lt_of_lt_of_le ?_ (countVictim_unremoved d e u.2)
          rw [hcons]
          exact (countVictim_pos _ _).mpr ⟨victim, List.mem_cons_self,
            (hsession victim hcons u hkey hinst).symm⟩
      · exact Or.inr hclaimed
    single := fun rt => by
      rw [hclaims]
      exact h.single rt
    shutDown := by
      intro e' victim hv
      rw [hlog]
      by_cases he : e' = e
      · rw [he] at hv ⊢
        exact hevents.2.1 victim hv
      · rw [hother e' he] at hv
        rw [hevents.1 e' he]
        exact h.shutDown e' victim hv
    removes := by
      rw [hlog]
      exact hevents.2.2 }

/-- An evictor reads. What the monitor takes into its snapshot is registered. -/
theorem evicting_read (d d' : Daemon) (h : Evicting d) (hown : Owning d')
    (hworld : d'.world = d.world)
    (hviews : ∀ e, d'.view e = d.view e)
    (hsampled : ∀ victim ∈ d'.monitor.sampled, victim ∈ d.monitor.sampled ∨
      ∃ key record, d.world.reg.sessions.get? key = some record ∧
        victim = (record.handle.key, record.handle.runtime))
    (hlog : d'.log = d.log) : Evicting d' where
  fresh := hown.fresh
  owned := hown.owned
  apart := hown.apart
  registered := by
    intro e v hv
    rw [hviews] at hv
    rw [hworld]
    exact h.registered e v hv
  sampled := by
    intro v hv
    rw [hworld, claims_same d d' hviews hlog]
    rcases hsampled v hv with hold | ⟨key, record, hrecord, rfl⟩
    · exact h.sampled v hold
    · refine Or.inl ?_
      rw [h.fresh.handleKey key record hrecord, SessionRegistry.instanceOf, hrecord,
        Option.map_some]
  single := fun rt => by
    rw [claims_same d d' hviews hlog]
    exact h.single rt
  shutDown := by
    intro e v hv
    rw [hviews] at hv
    rw [hlog]
    exact h.shutDown e v hv
  removes := by
    rw [hlog]
    exact h.removes

/-- An evictor chooses registered sessions that nobody has chosen. -/
theorem evicting_select (d d' : Daemon) (h : Evicting d) (hown : Owning d') (chooser : Evictor)
    (victims : List Victim) (hnone : (d.view chooser).pending = [])
    (hview : d'.view chooser = ⟨victims, victims, none, none⟩)
    (hother : ∀ e, e ≠ chooser → d'.view e = d.view e)
    (hsampled : ∀ victim ∈ d'.monitor.sampled, victim ∈ d.monitor.sampled)
    (hlog : d'.log = d.log)
    (hinstance : ∀ key runtime, d.world.reg.instanceOf key = some runtime →
      d'.world.reg.instanceOf key = some runtime)
    (hregistered : ∀ victim ∈ victims, d.world.reg.instanceOf victim.1 = some victim.2)
    (hkeys : (victims.map Prod.fst).Nodup)
    (hnew : ∀ victim ∈ victims, d.claims victim.2 = 0) : Evicting d' := by
  have hclaims := claims_select d d' chooser victims hnone hview hother hlog
  refine ⟨hown.fresh, hown.owned, hown.apart, ?_, ?_, ?_, ?_, ?_⟩
  · intro e v hv
    by_cases he : e = chooser
    · rw [he, hview] at hv
      exact hinstance _ _ (hregistered v hv)
    · rw [hother e he] at hv
      exact hinstance _ _ (h.registered e v hv)
  · intro v hv
    rw [hclaims]
    exact (h.sampled v (hsampled v hv)).imp (hinstance _ _)
      (fun hpos => Nat.lt_of_lt_of_le hpos (Nat.le_add_right _ _))
  · -- A session chosen now had no claim on it, and is chosen once.
    intro rt
    have hone := countVictim_le_one d.world h.fresh _ hregistered hkeys rt
    rw [hclaims]
    by_cases hpos : 0 < countVictim rt victims
    · rcases (countVictim_pos _ _).mp hpos with ⟨v, hv, rfl⟩
      rw [hnew v hv, Nat.zero_add]
      exact hone
    · have hsingle := h.single rt
      omega
  · intro e v hv
    rw [hlog]
    by_cases he : e = chooser
    · rw [he, hview] at hv
      exact absurd hv (by simp)
    · rw [hother e he] at hv
      exact h.shutDown e v hv
  · rw [hlog]
    exact h.removes

/-- The eviction loop chooses among the sessions it finds registered. -/
theorem evicting_selectIdle (d d' : Daemon) (h : Evicting d) (hown : Owning d')
    (c : CallId) (start : Instant) (heviction : d.eviction = .selecting c start)
    (hstep : d.world.step (.sect c) = some d'.world)
    (hview : d'.view .idle
      = ⟨idleVictimsOf d.world.reg start, idleVictimsOf d.world.reg start, none, none⟩)
    (hother : d'.view .memory = d.view .memory) (hsampled : d'.monitor.sampled = d.monitor.sampled)
    (hlog : d'.log = d.log)
    (hnew : ∀ candidate ∈ (d.world.reg.idleCandidates start).2, d.claims candidate.runtime = 0) :
    Evicting d' := by
  have hframe : (d.view .idle).frame = some (c, .idle start none) := by
    rw [view, heviction]
    rfl
  have hget := (h.owned .idle c _ hframe).1
  rcases idleVictims_registered d.world h.fresh start with ⟨hregistered, hkeys⟩
  refine evicting_select d d' h hown .idle _ (pending_of_selecting d c start heviction) hview
    (eq_of_ne_idle d d' hother) ?_ hlog ?_ hregistered hkeys ?_
  · intro v hv
    rw [hsampled] at hv
    exact hv
  · -- Its own call drops no record.
    intro key runtime hinst
    refine instance_step d.world d'.world _ hstep key runtime (fun call hm hc => ?_) hinst
    rw [Action.mover, Option.some.injEq] at hm
    rw [← hm, hget] at hc
    exact absurd hc (by simp)
  · intro v hv
    rcases List.mem_map.mp hv with ⟨candidate, hcand, rfl⟩
    exact hnew candidate hcand

/-- The memory monitor chooses among the sessions it has sampled. Those that
    nobody has chosen since are still registered. -/
theorem evicting_selectMemory (d d' : Daemon) (h : Evicting d) (hown : Owning d')
    (samples : List MemorySample)
    (hmonitor : d.monitor = .sampling [] samples) (hworld : d'.world = d.world)
    (hview : d'.view .memory
      = ⟨memoryVictimsOf samples d.settings, memoryVictimsOf samples d.settings, none, none⟩)
    (hother : d'.view .idle = d.view .idle) (hsampled : d'.monitor.sampled = [])
    (hlog : d'.log = d.log)
    (hnew : ∀ sample ∈ selectEvictions samples d.settings,
      d.claims sample.handle.runtime = 0) : Evicting d' := by
  refine evicting_select d d' h hown .memory _ (pending_of_sampled d samples hmonitor) hview
    (eq_of_ne_memory d d' hother) ?_ hlog ?_ ?_ ?_ ?_
  · intro v hv
    rw [hsampled] at hv
    exact absurd hv (by simp)
  · rw [hworld]
    exact fun key runtime hinst => hinst
  · intro victim hmem
    rcases List.mem_map.mp hmem with ⟨sample, hsample, rfl⟩
    have hin : (memoryVictims d.settings).victim sample ∈ d.monitor.sampled := by
      rw [hmonitor]
      exact List.mem_map_of_mem (mem_selectEvictions samples d.settings sample hsample)
    rcases h.sampled _ hin with hinst | hclaimed
    · exact hinst
    · exact absurd (hnew sample hsample) (Nat.ne_of_gt hclaimed)
  · rw [memoryVictimsOf, List.map_map]
    exact dedupeByKey_nodup _
  · intro v hv
    rcases List.mem_map.mp hv with ⟨sample, hsample, rfl⟩
    exact hnew sample hsample

theorem evicting_step (d d' : Daemon) (a : DaemonAction) (h : Evicting d)
    (hstep : d.step a = some d') (hcond : d.NewVictimsCond a) : Evicting d' := by
  have hown := owning_step d d' a h.owning hstep
  cases daemon_effect d d' a hstep with
  | client b _ hclient hstep hviews hsampled hlog =>
      exact evicting_client d d' b h hown hclient hstep hviews hsampled hlog
  | read _ _ hworld hviews hsampled hlog _ =>
      exact evicting_read d d' h hown hworld hviews hsampled hlog
  | evictor _ e _ events hview hother hsampled hlog _ =>
      exact evicting_evictor d d' e events h hown hview hother hsampled hlog
  | selectIdle call c start _ heviction hstep hview hother hsampled hlog =>
      rw [NewVictimsCond, heviction] at hcond
      exact evicting_selectIdle d d' h hown c start heviction hstep hview hother hsampled hlog hcond
  | selectMemory call rssBytes samples _ hmonitor hworld hview hother hsampled hlog =>
      rw [NewVictimsCond, hmonitor] at hcond
      exact evicting_selectMemory d d' h hown samples hmonitor hworld hview hother hsampled hlog
        hcond

theorem evictsVictims_of_evicting (d : Daemon) (h : Evicting d) : EvictsVictims d.log where
  removes := h.removes
  counts := fun rt => Nat.le_trans (Nat.le_add_left _ _) (h.single rt)

/-- In every run that chooses no session twice, evictors remove what they have
    shut down and count no session twice. And when a run in which they did so is
    over, so that no evictor has a victim left, it has chosen no session
    twice. -/
theorem evicts_exact (idleTtl : Duration) (settings : MemoryBudgetSettings)
    (daemonIdleTtl : Option Duration) (as : List DaemonAction) (d : Daemon)
    (h : run step (init idleTtl settings daemonIdleTtl) as = some d) :
    (Along step NewVictimsCond (init idleTtl settings daemonIdleTtl) as → EvictsVictims d.log) ∧
    ((∀ e, (d.view e).pending = []) → EvictsVictims d.log →
      Along step NewVictimsCond (init idleTtl settings daemonIdleTtl) as) := by
  constructor
  · intro hcond
    exact evictsVictims_of_evicting d (run_invariant
      (fun s a s' hs hstep hc => evicting_step s s' a hs hstep hc) as _ d h
      (evicting_init idleTtl settings daemonIdleTtl) hcond)
  · intro hidle hevicts
    by_contra hnot
    rcases (claims_of_not_along as _ d h).2 hnot with ⟨rt, htwice⟩
    have hcounts := hevicts.counts rt
    rw [claims, hidle, hidle] at htwice
    simp only [countVictim, List.countP_nil] at htwice
    omega

/-- One session may use 10 bytes. -/
def demoSettings : MemoryBudgetSettings := ⟨some 10, none, 1⟩

/-- A client has attached and released, and the session is idle. -/
def idleSession : List DaemonAction :=
  (acquireFresh 0 ++ releaseAll 1 "lease_1" ++ [Action.tick 5]).map .client

/-- The eviction loop evicts the one session it has chosen. -/
def evictIdle : List DaemonAction :=
  [.evictionLoop 11, .evictionLoop 11, .evictionLoop 11, .evictionLoop 11, .evictionLoop 12,
    .evictionLoop 12]

/-- A round of the eviction loop that evicts an idle session. -/
def idleRound : List DaemonAction :=
  idleSession ++ [.evictionLoop 10, .evictionLoop 10] ++ evictIdle ++ [.evictionLoop 13]

theorem idleRound_isSome : (run step (init 5 demoSettings none) idleRound).isSome = true := by
  decide

theorem evicts_idleRound :
    EvictsVictims ((run step (init 5 demoSettings none) idleRound).get idleRound_isSome).log :=
  (evicts_exact 5 demoSettings none idleRound _ (Option.some_get _).symm).1 (by decide)

/-- The eviction loop has chosen a session when the memory monitor takes its
    snapshot, chooses the session as well, and is overtaken by the end of the
    first eviction and by a new client. -/
def evictTwice : List DaemonAction :=
  idleSession ++ [.evictionLoop 10, .evictionLoop 10] ++
    [.memoryMonitor 20 0, .memoryMonitor 20 0, .memoryMonitor 20 100, .memoryMonitor 20 0] ++
    evictIdle ++ (acquireFresh 30).map .client ++
    [.memoryMonitor 21 0, .memoryMonitor 21 0, .memoryMonitor 22 0, .memoryMonitor 22 0,
      .memoryMonitor 22 0, .memoryMonitor 23 0, .memoryMonitor 23 0]

theorem evictTwice_isSome : (run step (init 5 demoSettings none) evictTwice).isSome = true := by
  decide

/-- Evictors do not always remove what they have shut down, and may count a
    session twice: the monitor removes the new client's session, and counts the
    one the eviction loop has counted. -/
theorem evicted_twice :
    (¬ ∀ (idleTtl : Duration) (settings : MemoryBudgetSettings)
        (daemonIdleTtl : Option Duration) (as : List DaemonAction) (d : Daemon),
      run step (init idleTtl settings daemonIdleTtl) as = some d → RemovesShutDown d.log) ∧
    ¬ ∀ (idleTtl : Duration) (settings : MemoryBudgetSettings)
        (daemonIdleTtl : Option Duration) (as : List DaemonAction) (d : Daemon),
      run step (init idleTtl settings daemonIdleTtl) as = some d →
        ∀ runtime, d.log.countP (DaemonEvent.counts runtime) ≤ 1 := by
  constructor
  · intro hall
    have := hall 5 demoSettings none evictTwice
      ((run step (init 5 demoSettings none) evictTwice).get evictTwice_isSome)
      (Option.some_get _).symm
    exact absurd this (by decide)
  · intro hall
    have := hall 5 demoSettings none evictTwice
      ((run step (init 5 demoSettings none) evictTwice).get evictTwice_isSome)
      (Option.some_get _).symm 0
    exact absurd this (by decide)

end Daemon

end Lspee
