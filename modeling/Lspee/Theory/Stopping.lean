import Lspee.Theory.Custody

/-!
# What a Stop Leaves Behind

Whether the registry is empty and every process has been stopped when `run`
returns.

`Accounted` says of a state that this can still come true: no process is without
a handle for good, and every runtime has been stopped or is held by somebody who
will come to stop it. Before the sessions are listed that is the world or an
evictor. Afterwards it is `shutdown_all_sessions` alone, for the sessions it has
listed, and a closure that still has a process is too late.

No step makes up for what another has lost, so the daemon leaves nothing behind
exactly when no step of the run loses anything (`leavesNothing_iff`). What a
step loses is said by `StopCond` in terms of the state before it. A spawn in
progress while the sessions are listed, an attach after that, a bootstrap that
fails, two acquires that spawn for one key, and an evictor that removes a
session which is not the one it has stopped all break it.

The registry is then empty as well: every session there is was listed, and its
key is removed after the others.

## Main definitions

* `DaemonRun.Has`, `Accounted`: Who is to stop a runtime, and that there is
  somebody for each.
* `StopCond`: The step loses nothing.
* `RunEffect`: What a step does.
* `Stopping`: The invariant of every run.
* `Cleared`: What the sweep has removed.

## Theorems

* `run_effect`: Every step has an effect.
* `accounted_step`: The condition at one step.
* `stopping_init`, `stopping_step`, `cleared_step`: The invariants.
* `leavesNothing_iff`: The condition is exact over whole runs.
* `late_attach`: Runs that leave something behind.
-/

namespace Lspee

open Transition

/-- `run` has waited for the memory monitor. -/
def RunPc.monitorJoined : RunPc → Bool
  | .serving => false
  | .stoppingMonitor => false
  | _ => true

/-- `run` has waited for the eviction loop. -/
def RunPc.evictionJoined : RunPc → Bool
  | .stoppingEviction => false
  | pc => pc.monitorJoined

/-- The keys `shutdown_all_sessions` has listed and not removed. -/
def RunPc.unremoved : RunPc → List SessionKey
  | .sweeping todo => todo.map (fun handle => handle.key)
  | .removeSession key _ todo => key :: todo.map (fun handle => handle.key)
  | .removeLeases _ todo => todo.map (fun handle => handle.key)
  | _ => []

/-- The call of `remove` that `shutdown_all_sessions` is in. -/
def RunPc.Calling (calls : Table CallId Frame) : RunPc → Prop
  | .removeSession key c _ => calls.get? c = some (.remove key .session)
  | .removeLeases c _ => ∃ key, calls.get? c = some (.remove key .leases)
  | _ => True

namespace DaemonRun

/-- Somebody who has the runtime will come to stop it: anybody before the
    sessions are listed, then only `shutdown_all_sessions`. -/
def Has (s : DaemonRun) (runtime : RuntimeId) : Prop :=
  match s.pc.todo with
  | none => s.daemon.Has runtime
  | some todo => runtime ∈ todo.map (fun handle => handle.runtime)

/-- Nothing is lost yet. -/
structure Accounted (s : DaemonRun) : Prop where
  orphans : s.orphans = []
  runtimes : ∀ runtime < s.daemon.world.nextRuntime, runtime ∈ s.stopped ∨ s.Has runtime
  starting : s.pc.todo ≠ none → s.starting = []

/-- A spawn closure that fails has no process. -/
def ClosesCond (s : DaemonRun) : DaemonAction → Prop
  | .client (.spawnReturns call (.error _)) => call ∉ s.starting
  | _ => True

/-- The step loses nothing. Nobody lets go of a runtime that has not been
    stopped, unless somebody else has it; when the sessions are listed no spawn
    is in progress; and none begins afterwards. -/
def StopCond (s : DaemonRun) : RunAction → Prop
  | .daemon a stops => s.ClosesCond a ∧ (s.pc.todo = none →
      ∀ runtime ∈ s.daemon.loses a, runtime ∈ s.stoppedBy (s.daemon.stops a) stops)
  | .process _ => s.pc.todo = none
  | .allHandles => s.starting = [] ∧ s.daemon.world.unpublished = []
  | .sweep _ stops =>
    match s.pc with
    | .sweeping (handle :: todo) => handle.runtime ∈ s.stoppedBy (some handle.runtime) stops ∨
        handle.runtime ∈ todo.map (fun other => other.runtime)
    | _ => True
  | _ => True

instance (s : DaemonRun) (a : DaemonAction) : Decidable (s.ClosesCond a) := by
  unfold ClosesCond
  split <;> infer_instance

instance (s : DaemonRun) (a : RunAction) : Decidable (s.StopCond a) := by
  unfold StopCond
  split
  · have : Decidable (s.pc.todo = none) := decidable_of_iff (s.pc.todo.isNone = true)
      Option.isNone_iff_eq_none
    infer_instance
  · exact decidable_of_iff (s.pc.todo.isNone = true) Option.isNone_iff_eq_none
  · infer_instance
  · split <;> infer_instance
  · infer_instance

/-! ### What a step does -/

/-- What a step does while `run` has not returned. -/
inductive RunEffect (s : DaemonRun) : RunAction → DaemonRun → Prop where
  /-- A client or a task takes a step. -/
  | daemon (a : DaemonAction) (stops : Bool) (d' : Daemon) (hpermits : s.permits a = true)
      (hstep : s.daemon.step a = some d') :
      RunEffect s (.daemon a stops) { s with
        daemon := d'
        starting := (s.closes a).1
        orphans := (s.closes a).2
        stopped := s.stoppedBy (s.daemon.stops a) stops }
  /-- A spawn closure has its process. -/
  | process (call : CallId) :
      RunEffect s (.process call) { s with starting := call :: s.starting }
  /-- `run` goes on to what comes before the sessions are listed. -/
  | signal (hpc : s.pc = .serving) : RunEffect s .signal { s with pc := .stoppingMonitor }
  | monitorJoined (hpc : s.pc = .stoppingMonitor) (hmonitor : s.daemon.monitor = .stopped) :
      RunEffect s .joined { s with pc := .stoppingEviction }
  | evictionJoined (hpc : s.pc = .stoppingEviction) (heviction : s.daemon.eviction = .stopped) :
      RunEffect s .joined { s with pc := .listing }
  /-- The sessions are listed. -/
  | lists (hpc : s.pc = .listing) :
      RunEffect s .allHandles { s with pc := .sweeping s.daemon.world.reg.allHandles }
  /-- No session is left on the list. -/
  | returns (call : CallId) (stops : Bool) (hpc : s.pc = .sweeping []) :
      RunEffect s (.sweep call stops) { s with pc := .returned }
  /-- A runtime is shut down, or stopped by force. -/
  | tries (call : CallId) (stops : Bool) (handle : SessionHandle) (todo : List SessionHandle)
      (w' : World) (hpc : s.pc = .sweeping (handle :: todo))
      (hstep : s.daemon.world.step (.start call (.remove handle.key)) = some w') :
      RunEffect s (.sweep call stops) (s.withWorld w' (.removeSession handle.key call todo)
        (s.stoppedBy (some handle.runtime) stops))
  /-- Its session is removed. -/
  | removes (call : CallId) (stops : Bool) (key : SessionKey) (c : CallId)
      (todo : List SessionHandle) (w' : World) (hpc : s.pc = .removeSession key c todo)
      (hstep : s.daemon.world.step (.sect c) = some w') :
      RunEffect s (.sweep call stops) (s.withWorld w' (.removeLeases c todo) s.stopped)
  /-- Its leases are. -/
  | clears (call : CallId) (stops : Bool) (c : CallId) (todo : List SessionHandle) (w' : World)
      (hpc : s.pc = .removeLeases c todo) (hstep : s.daemon.world.step (.sect c) = some w') :
      RunEffect s (.sweep call stops) (s.withWorld w' (.sweeping todo) s.stopped)

theorem sweepStep_effect (s s' : DaemonRun) (call : CallId) (stops : Bool)
    (h : s.sweepStep call stops = some s') : RunEffect s (.sweep call stops) s' := by
  unfold sweepStep at h
  split at h
  · rename_i hpc
    rw [Option.some.injEq] at h
    rw [← h]
    exact .returns call stops hpc
  · rename_i handle todo hpc
    rcases Option.map_eq_some_iff.mp h with ⟨w', hstep, rfl⟩
    exact .tries call stops handle todo w' hpc hstep
  · rename_i key c todo hpc
    rcases Option.map_eq_some_iff.mp h with ⟨w', hstep, rfl⟩
    exact .removes call stops key c todo w' hpc hstep
  · rename_i c todo hpc
    rcases Option.map_eq_some_iff.mp h with ⟨w', hstep, rfl⟩
    exact .clears call stops c todo w' hpc hstep
  · exact absurd h (by simp)

theorem run_effect (s s' : DaemonRun) (a : RunAction) (h : s.step a = some s') :
    RunEffect s a s' := by
  unfold step at h
  split at h
  · -- `run` has returned, and nothing takes a step any more.
    exact absurd h (by simp)
  · cases a with
    | daemon a stops =>
        simp only [daemonStep] at h
        split at h
        · rename_i hpermits
          rcases Option.map_eq_some_iff.mp h with ⟨d', hstep, rfl⟩
          exact .daemon a stops d' hpermits hstep
        · exact absurd h (by simp)
    | process call =>
        simp only [processStep] at h
        split at h
        · split at h
          · exact absurd h (by simp)
          · rw [Option.some.injEq] at h
            rw [← h]
            exact .process call
        · exact absurd h (by simp)
    | signal =>
        simp only at h
        split at h
        · rename_i hpc
          rw [Option.some.injEq] at h
          rw [← h]
          exact .signal hpc
        · exact absurd h (by simp)
    | joined =>
        simp only at h
        split at h
        · rename_i hpc hmonitor
          rw [Option.some.injEq] at h
          rw [← h]
          exact .monitorJoined hpc hmonitor
        · rename_i hpc heviction
          rw [Option.some.injEq] at h
          rw [← h]
          exact .evictionJoined hpc heviction
        · exact absurd h (by simp)
    | allHandles =>
        simp only at h
        split at h
        · rename_i hpc
          rw [Option.some.injEq] at h
          rw [← h]
          exact .lists hpc
        · exact absurd h (by simp)
    | sweep call stops => exact sweepStep_effect s s' call stops h

/-! ### What one step loses -/

/-- A state in which the same runtimes are held, stopped and starting. -/
theorem accounted_congr (s s' : DaemonRun)
    (hnext : s'.daemon.world.nextRuntime = s.daemon.world.nextRuntime)
    (horphans : s'.orphans = s.orphans) (hstarting : s'.starting = s.starting)
    (hstopped : s'.stopped = s.stopped) (hhas : ∀ runtime, s'.Has runtime ↔ s.Has runtime)
    (htodo : s'.pc.todo = none ↔ s.pc.todo = none) : Accounted s' ↔ Accounted s := by
  constructor
  · intro h
    refine ⟨by rw [← horphans]; exact h.orphans, fun runtime hlt => ?_, fun hne => ?_⟩
    · rw [← hstopped, ← hhas]
      exact h.runtimes runtime (by rw [hnext]; exact hlt)
    · rw [← hstarting]
      exact h.starting (fun hnone => hne (htodo.mp hnone))
  · intro h
    refine ⟨by rw [horphans]; exact h.orphans, fun runtime hlt => ?_, fun hne => ?_⟩
    · rw [hstopped, hhas]
      exact h.runtimes runtime (by rw [← hnext]; exact hlt)
    · rw [hstarting]
      exact h.starting (fun hnone => hne (htodo.mpr hnone))

/-- The invariant. Whoever has a runtime got it from the registry, except for the
    closures and acquires that bring new ones; the tasks that `run` has waited
    for have stopped, and the call of `remove` is its own. -/
structure Stopping (s : DaemonRun) : Prop where
  owning : s.daemon.Owning
  stopped : ∀ runtime ∈ s.stopped, s.daemon.world.Known runtime
  held : ∀ runtime ∈ s.daemon.held, s.daemon.world.Known runtime
  listed : ∀ todo, s.pc.todo = some todo →
    ∀ handle ∈ todo, s.daemon.world.Known handle.runtime
  monitor : s.pc.monitorJoined = true → s.daemon.monitor = .stopped
  eviction : s.pc.evictionJoined = true → s.daemon.eviction = .stopped
  calling : s.pc.Calling s.daemon.world.calls

theorem mem_stoppedBy (s : DaemonRun) (tried : Option RuntimeId) (stops : Bool)
    (runtime : RuntimeId) : runtime ∈ s.stoppedBy tried stops ↔
      (stops = true ∧ tried = some runtime) ∨ runtime ∈ s.stopped := by
  cases stops with
  | true =>
      simp only [stoppedBy, if_true, List.mem_append, Option.mem_toList, true_and]
  | false => simp only [stoppedBy, Bool.false_eq_true, if_false, false_and, false_or]

/-- What becomes of the closures of spawns. -/
theorem closes_orphans (s : DaemonRun) (a : DaemonAction) :
    (s.closes a).2 = [] ↔ s.orphans = [] ∧ s.ClosesCond a := by
  unfold closes ClosesCond
  split
  · simp
  · rename_i call error
    by_cases hmem : call ∈ s.starting
    · simp [hmem]
    · simp [hmem]
  · rename_i hok herror
    split
    · rename_i call error
      exact absurd rfl (herror call error)
    · simp

/-- Both tasks have stopped, so only clients take steps. -/
theorem client_of_joined (d d' : Daemon) (a : DaemonAction) (hmonitor : d.monitor = .stopped)
    (heviction : d.eviction = .stopped) (hstep : d.step a = some d') :
    ∃ b w', a = .client b ∧ b.ofClient d.world = true ∧ d.world.step b = some w' ∧
      d' = { d with world := w' } := by
  cases a with
  | client b =>
      simp only [Daemon.step] at hstep
      split at hstep
      · rename_i hclient
        rcases Option.map_eq_some_iff.mp hstep with ⟨w', hb, rfl⟩
        exact ⟨b, w', rfl, hclient, hb, rfl⟩
      · exact absurd hstep (by simp)
  | evictionLoop call => exact absurd hstep (by simp [Daemon.step, Daemon.evictionStep, heviction])
  | memoryMonitor call rssBytes =>
      exact absurd hstep (by simp [Daemon.step, Daemon.monitorStep, hmonitor])
  | stopEvictionLoop => exact absurd hstep (by simp [Daemon.step, heviction])
  | stopMemoryMonitor => exact absurd hstep (by simp [Daemon.step, hmonitor])

/-- The sessions are listed after both tasks have stopped. -/
theorem joined_of_todo (s : DaemonRun) (h : Stopping s) (todo : List SessionHandle)
    (htodo : s.pc.todo = some todo) :
    s.daemon.monitor = .stopped ∧ s.daemon.eviction = .stopped := by
  have hpc : s.pc.monitorJoined = true ∧ s.pc.evictionJoined = true := by
    cases hpc : s.pc with
    | serving => exact absurd htodo (by simp [hpc, RunPc.todo])
    | stoppingMonitor => exact absurd htodo (by simp [hpc, RunPc.todo])
    | stoppingEviction => exact absurd htodo (by simp [hpc, RunPc.todo])
    | listing => exact absurd htodo (by simp [hpc, RunPc.todo])
    | sweeping todo => exact ⟨rfl, rfl⟩
    | removeSession key c todo => exact ⟨rfl, rfl⟩
    | removeLeases c todo => exact ⟨rfl, rfl⟩
    | returned => exact ⟨rfl, rfl⟩
  exact ⟨h.monitor hpc.1, h.eviction hpc.2⟩

/-- Evictors that have stopped hold nothing. -/
theorem held_of_joined (d : Daemon) (hmonitor : d.monitor = .stopped)
    (heviction : d.eviction = .stopped) : d.held = [] := by
  rw [Daemon.held, hmonitor, heviction]
  rfl

/-- After the sessions are listed, a new runtime is in nobody's hands. -/
theorem not_accounted_of_new (s : DaemonRun) (h : Stopping s) (todo : List SessionHandle)
    (htodo : s.pc.todo = some todo) :
    s.daemon.world.nextRuntime ∉ s.stopped ∧ ¬ s.Has s.daemon.world.nextRuntime := by
  have hfresh := h.owning.fresh
  constructor
  · intro hmem
    exact absurd (World.bound_of_known _ hfresh _ (h.stopped _ hmem)) (Nat.lt_irrefl _)
  · intro hhas
    rw [Has, htodo] at hhas
    rcases List.mem_map.mp hhas with ⟨handle, hmem, hrt⟩
    have hknown := h.listed todo htodo handle hmem
    rw [hrt] at hknown
    exact absurd (World.bound_of_known _ hfresh _ hknown) (Nat.lt_irrefl _)

theorem accounted_serving (s : DaemonRun) (h : Stopping s) (a : DaemonAction) (stops : Bool)
    (d' : Daemon) (hstep : s.daemon.step a = some d') (htodo : s.pc.todo = none) :
    Accounted { s with
        daemon := d'
        starting := (s.closes a).1
        orphans := (s.closes a).2
        stopped := s.stoppedBy (s.daemon.stops a) stops } ↔
      Accounted s ∧ s.StopCond (.daemon a stops) := by
  have hkeeps : ∀ runtime ∈ s.stopped, runtime ∈ s.stoppedBy (s.daemon.stops a) stops :=
    fun runtime hmem => (mem_stoppedBy s _ stops runtime).mpr (Or.inr hmem)
  have htries : ∀ runtime ∈ s.stoppedBy (s.daemon.stops a) stops,
      runtime ∈ s.stopped ∨ s.daemon.stops a = some runtime := by
    intro runtime hmem
    rcases (mem_stoppedBy s _ stops runtime).mp hmem with ⟨_, htried⟩ | hold
    · exact Or.inr htried
    · exact Or.inl hold
  have hruntimes := Daemon.heldOrStopped_step s.daemon d' a h.owning h.held hstep s.stopped
    (s.stoppedBy (s.daemon.stops a) stops) hkeeps htries
  have hhas : ∀ runtime, s.Has runtime ↔ s.daemon.Has runtime := by
    intro runtime
    rw [Has, htodo]
  -- Before the sessions are listed, the daemon itself is all that has a runtime.
  constructor
  · intro hacc
    rcases (closes_orphans s a).mp hacc.orphans with ⟨horphans, hcloses⟩
    rcases hruntimes.mp (fun runtime hlt => by
      have := hacc.runtimes runtime hlt
      rw [Has, htodo] at this
      exact this) with ⟨hall, hloses⟩
    refine ⟨⟨horphans, fun runtime hlt => ?_, fun hne => absurd htodo hne⟩, hcloses,
      fun _ => hloses⟩
    rw [hhas]
    exact hall runtime hlt
  · rintro ⟨hacc, hcloses, hloses⟩
    refine ⟨(closes_orphans s a).mpr ⟨hacc.orphans, hcloses⟩, fun runtime hlt => ?_,
      fun hne => absurd htodo hne⟩
    rw [Has, htodo]
    refine hruntimes.mpr ⟨fun rt hrt => ?_, hloses htodo⟩ runtime hlt
    rw [← hhas]
    exact hacc.runtimes rt hrt

/-- After the sessions are listed, a client loses nothing only if no closure comes
    to its end with a process. -/
theorem accounted_sweeping (s s' : DaemonRun) (h : Stopping s) (a : DaemonAction)
    (stops : Bool) (d' : Daemon) (hpermits : s.permits a = true)
    (hstep : s.daemon.step a = some d') (todo : List SessionHandle)
    (htodo : s.pc.todo = some todo)
    (hs' : s' = { s with
        daemon := d'
        starting := (s.closes a).1
        orphans := (s.closes a).2
        stopped := s.stoppedBy (s.daemon.stops a) stops }) :
    Accounted s' ↔ Accounted s ∧ s.StopCond (.daemon a stops) := by
  -- Both tasks have ended, so the step is a client's.
  rcases joined_of_todo s h todo htodo with ⟨hmonitor, heviction⟩
  rcases client_of_joined s.daemon d' a hmonitor heviction hstep with ⟨b, w', rfl, _, hb, rfl⟩
  have htodo' : s'.pc.todo = some todo := by rw [hs']; exact htodo
  have hhas : ∀ runtime, s'.Has runtime ↔ s.Has runtime := by
    intro runtime
    rw [Has, Has, htodo, htodo']
  -- A client stops nothing.
  have hstopped : s'.stopped = s.stopped := by
    rw [hs']
    change s.stoppedBy none stops = s.stopped
    cases stops <;> rfl
  have horphans : s'.orphans = [] ↔ s.orphans = [] ∧ s.ClosesCond (.client b) := by
    rw [hs']
    exact closes_orphans s (.client b)
  have hnext : s'.daemon.world.nextRuntime = w'.nextRuntime := by rw [hs']
  have hstarting : s'.starting = (s.closes (.client b)).1 := by rw [hs']
  -- A handle of a new runtime comes too late for the list.
  have hlate : Accounted s' → w'.nextRuntime = s.daemon.world.nextRuntime := by
    intro hacc
    rcases World.nextRuntime_step _ _ b hb with hsame | ⟨_, _, _, hmore⟩
    · exact hsame
    · rcases not_accounted_of_new s h todo htodo with ⟨hno, hnobody⟩
      have hnew := hacc.runtimes s.daemon.world.nextRuntime
        (by rw [hnext, hmore]; exact Nat.lt_succ_self _)
      rw [hstopped, hhas] at hnew
      exact absurd hnew (not_or.mpr ⟨hno, hnobody⟩)
  constructor
  · intro hacc
    rcases horphans.mp hacc.orphans with ⟨hnone, hcloses⟩
    have hsame := hlate hacc
    refine ⟨⟨hnone, fun runtime hlt => ?_, fun _ => ?_⟩, hcloses,
      fun hserving => absurd hserving (by rw [htodo]; simp)⟩
    · rw [← hstopped, ← hhas]
      exact hacc.runtimes runtime (by rw [hnext, hsame]; exact hlt)
    · have hempty := hacc.starting (by rw [htodo']; simp)
      rw [hstarting] at hempty
      cases b with
      | spawnReturns call result =>
          cases result with
          | ok value =>
              rw [World.spawned_step _ _ call value hb] at hsame
              exact absurd hsame (Nat.succ_ne_self _)
          | error error =>
              rw [closes, List.erase_of_not_mem hcloses] at hempty
              exact hempty
      | _ => exact hempty
  · rintro ⟨hacc, hcloses, _⟩
    -- No closure had a process to return a handle for.
    have hempty := hacc.starting (by rw [htodo]; simp)
    have hsame : w'.nextRuntime = s.daemon.world.nextRuntime := by
      rcases World.nextRuntime_step _ _ b hb with hsame | ⟨call, result, rfl, _⟩
      · exact hsame
      · rw [permits, hempty] at hpermits
        exact absurd hpermits (by simp)
    refine ⟨horphans.mpr ⟨hacc.orphans, hcloses⟩, fun runtime hlt => ?_, fun _ => ?_⟩
    · rw [hstopped, hhas]
      exact hacc.runtimes runtime (by rw [← hsame, ← hnext]; exact hlt)
    · rw [hstarting]
      unfold closes
      split
      · rw [hempty]
        rfl
      · rw [hempty]
        rfl
      · exact hempty

/-- The handles on the list are those of the registered sessions. -/
theorem listed_runtimes (r : SessionRegistry) :
    r.allHandles.map (fun handle => handle.runtime) = r.runtimes := by
  rw [SessionRegistry.allHandles, List.map_map]
  rfl

/-- Listing the sessions loses what is not registered. -/
theorem accounted_lists (s : DaemonRun) (h : Stopping s) (hpc : s.pc = .listing) :
    Accounted { s with pc := .sweeping s.daemon.world.reg.allHandles } ↔
      Accounted s ∧ s.StopCond .allHandles := by
  have hheld : s.daemon.held = [] :=
    held_of_joined s.daemon (h.monitor (by rw [hpc]; rfl)) (h.eviction (by rw [hpc]; rfl))
  have hfresh := h.owning.fresh
  have hhas : ∀ runtime, s.Has runtime ↔ s.daemon.world.Has runtime := by
    intro runtime
    rw [Has, hpc]
    change s.daemon.Has runtime ↔ _
    rw [Daemon.Has, hheld]
    simp only [List.not_mem_nil, or_false]
  have hlisted : ∀ runtime,
      Has { s with pc := .sweeping s.daemon.world.reg.allHandles } runtime ↔
        runtime ∈ s.daemon.world.reg.runtimes := by
    intro runtime
    rw [← listed_runtimes]
    rfl
  constructor
  · intro hacc
    refine ⟨⟨hacc.orphans, fun runtime hlt => ?_, fun hne => ?_⟩,
      hacc.starting (by simp [RunPc.todo]), ?_⟩
    · rw [hhas]
      refine (hacc.runtimes runtime hlt).imp_right (fun hmem => Or.inl ?_)
      exact (hlisted runtime).mp hmem
    · rw [hpc] at hne
      exact absurd rfl hne
    · -- What waits to be published has not been registered, nor stopped.
      refine List.eq_nil_iff_forall_not_mem.mpr (fun runtime hmem => ?_)
      have hnot := World.not_known_of_unpublished _ hfresh runtime hmem
      rcases hacc.runtimes runtime (World.bound_of_has _ hfresh runtime (Or.inr hmem))
        with hstopped | hhas'
      · exact hnot (h.stopped runtime hstopped)
      · exact hnot (World.known_of_mem _ hfresh runtime ((hlisted runtime).mp hhas'))
  · rintro ⟨hacc, hstarting, hunpublished⟩
    refine ⟨hacc.orphans, fun runtime hlt => ?_, fun _ => hstarting⟩
    rw [hlisted]
    refine (hacc.runtimes runtime hlt).imp_right (fun hhad => ?_)
    rcases (hhas runtime).mp hhad with hmem | hmem
    · exact hmem
    · rw [hunpublished] at hmem
      exact absurd hmem (by simp)

/-- Trying to stop a runtime on the list loses it when that fails. -/
theorem accounted_tries (s : DaemonRun) (h : Stopping s) (call : CallId) (stops : Bool)
    (handle : SessionHandle) (todo : List SessionHandle) (w' : World)
    (hpc : s.pc = .sweeping (handle :: todo))
    (hstep : s.daemon.world.step (.start call (.remove handle.key)) = some w') :
    Accounted (s.withWorld w' (.removeSession handle.key call todo)
        (s.stoppedBy (some handle.runtime) stops)) ↔
      Accounted s ∧ s.StopCond (.sweep call stops) := by
  have hnext : w'.nextRuntime = s.daemon.world.nextRuntime :=
    (World.nextRuntime_step _ _ _ hstep).resolve_right (by simp)
  have htodo : s.pc.todo = some (handle :: todo) := by rw [hpc]; rfl
  have hhas : ∀ runtime, s.Has runtime ↔ runtime = handle.runtime ∨
      runtime ∈ todo.map (fun other => other.runtime) := by
    intro runtime
    rw [Has, htodo]
    change runtime ∈ (handle :: todo).map (fun other => other.runtime) ↔ _
    rw [List.map_cons, List.mem_cons]
  have hcond : s.StopCond (.sweep call stops) ↔
      handle.runtime ∈ s.stoppedBy (some handle.runtime) stops ∨
        handle.runtime ∈ todo.map (fun other => other.runtime) := by
    simp only [StopCond, hpc]
  rw [hcond]
  constructor
  · intro hacc
    have hstarting : s.starting = [] := hacc.starting (by simp [withWorld, RunPc.todo])
    refine ⟨⟨hacc.orphans, fun runtime hlt => ?_, fun _ => hstarting⟩,
      hacc.runtimes handle.runtime ?_⟩
    · rw [hhas]
      rcases hacc.runtimes runtime (by rw [← hnext] at hlt; exact hlt) with hmem | hmem
      · rcases (mem_stoppedBy s _ stops runtime).mp hmem with ⟨_, heq⟩ | hold
        · exact Or.inr (Or.inl (Option.some.inj heq).symm)
        · exact Or.inl hold
      · exact Or.inr (Or.inr hmem)
    · have hknown := h.listed _ htodo handle List.mem_cons_self
      exact hnext ▸ World.bound_of_known _ h.owning.fresh _ hknown
  · -- The one runtime off the list is the one tried; a second entry of it would do as well.
    rintro ⟨hacc, hcond⟩
    refine ⟨hacc.orphans, fun runtime hlt => ?_, fun _ => hacc.starting (by rw [htodo]; simp)⟩
    rcases hacc.runtimes runtime (by rw [← hnext]; exact hlt) with hmem | hmem
    · exact Or.inl ((mem_stoppedBy s _ stops runtime).mpr (Or.inr hmem))
    · rcases (hhas runtime).mp hmem with rfl | hmem
      · exact hcond
      · exact Or.inr hmem

/-- What a step of the run loses is what the condition forbids. -/
theorem accounted_step (s s' : DaemonRun) (a : RunAction) (h : Stopping s)
    (heffect : RunEffect s a s') : Accounted s' ↔ Accounted s ∧ s.StopCond a := by
  have hsection : ∀ (c : CallId) (w' : World), s.daemon.world.step (.sect c) = some w' →
      w'.nextRuntime = s.daemon.world.nextRuntime := fun c w' hb =>
    (World.nextRuntime_step _ _ _ hb).resolve_right (by simp)
  -- Where nothing is asked, nothing is lost.
  have hfree : (Accounted s' ↔ Accounted s) → s.StopCond a →
      (Accounted s' ↔ Accounted s ∧ s.StopCond a) := fun hcongr hcond =>
    hcongr.trans (and_iff_left hcond).symm
  cases heffect with
  | daemon a stops d' hpermits hstep =>
      cases htodo : s.pc.todo with
      | none => exact accounted_serving s h a stops d' hstep htodo
      | some todo =>
          exact accounted_sweeping s _ h a stops d' hpermits hstep todo htodo rfl
  | process call =>
      constructor
      · intro hacc
        have hserving : s.pc.todo = none := by
          by_contra hne
          exact absurd (hacc.starting hne) (by simp)
        exact ⟨⟨hacc.orphans, hacc.runtimes, fun hne => absurd hserving hne⟩, hserving⟩
      · rintro ⟨hacc, hserving⟩
        exact ⟨hacc.orphans, hacc.runtimes, fun hne => absurd hserving hne⟩
  | signal hpc =>
      exact hfree (accounted_congr s _ rfl rfl rfl rfl (by simp [Has, hpc, RunPc.todo])
        (by simp [hpc, RunPc.todo])) trivial
  | monitorJoined hpc hmonitor =>
      exact hfree (accounted_congr s _ rfl rfl rfl rfl (by simp [Has, hpc, RunPc.todo])
        (by simp [hpc, RunPc.todo])) trivial
  | evictionJoined hpc heviction =>
      exact hfree (accounted_congr s _ rfl rfl rfl rfl (by simp [Has, hpc, RunPc.todo])
        (by simp [hpc, RunPc.todo])) trivial
  | lists hpc => exact accounted_lists s h hpc
  | returns call stops hpc =>
      exact hfree (accounted_congr s _ rfl rfl rfl rfl (by simp [Has, hpc, RunPc.todo])
        (by simp [hpc, RunPc.todo])) (by simp [StopCond, hpc])
  | tries call stops handle todo w' hpc hstep =>
      exact accounted_tries s h call stops handle todo w' hpc hstep
  | removes call stops key c todo w' hpc hstep =>
      exact hfree (accounted_congr s _ (hsection c w' hstep) rfl rfl rfl
        (by simp [Has, hpc, withWorld, RunPc.todo]) (by simp [hpc, withWorld, RunPc.todo]))
        (by simp [StopCond, hpc])
  | clears call stops c todo w' hpc hstep =>
      exact hfree (accounted_congr s _ (hsection c w' hstep) rfl rfl rfl
        (by simp [Has, hpc, withWorld, RunPc.todo]) (by simp [hpc, withWorld, RunPc.todo]))
        (by simp [StopCond, hpc])

/-! ### The invariant -/

theorem stopping_init (idleTtl : Duration) (settings : MemoryBudgetSettings)
    (daemonIdleTtl : Option Duration) : Stopping (init idleTtl settings daemonIdleTtl) where
  owning := Daemon.owning_init idleTtl settings daemonIdleTtl
  stopped := by simp [init]
  held := by simp [init, Daemon.init, Daemon.held, EvictionPc.held, MonitorPc.held]
  listed := by simp [init, RunPc.todo]
  monitor := by simp [init, RunPc.monitorJoined]
  eviction := by simp [init, RunPc.evictionJoined, RunPc.monitorJoined]
  calling := trivial

/-- The eviction loop leaves the memory monitor alone. -/
theorem monitor_evictionStep (d d' : Daemon) (call : CallId)
    (hstep : d.evictionStep call = some d') : d'.monitor = d.monitor := by
  unfold Daemon.evictionStep at hstep
  split at hstep
  · rcases Option.map_eq_some_iff.mp hstep with ⟨w', hb, rfl⟩
    rfl
  · rcases Option.map_eq_some_iff.mp hstep with ⟨w', hb, rfl⟩
    rfl
  · split at hstep
    · rw [Option.some.injEq] at hstep
      rw [← hstep]
      exact (finishRound_parts d).2.1
    · rcases Option.map_eq_some_iff.mp hstep with ⟨_, hb, rfl⟩
      rfl
  · exact absurd hstep (by simp)

/-- And the memory monitor the eviction loop. -/
theorem eviction_monitorStep (d d' : Daemon) (call : CallId) (rssBytes : Nat)
    (hstep : d.monitorStep call rssBytes = some d') : d'.eviction = d.eviction := by
  unfold Daemon.monitorStep at hstep
  split at hstep
  · split at hstep <;>
      rw [Option.some.injEq] at hstep <;>
      rw [← hstep]
  · rw [Option.some.injEq] at hstep
    rw [← hstep]
  · rw [Option.some.injEq] at hstep
    rw [← hstep]
  · rw [Option.some.injEq] at hstep
    rw [← hstep]
  · split at hstep
    · rw [Option.some.injEq] at hstep
      rw [← hstep]
    · rcases Option.map_eq_some_iff.mp hstep with ⟨_, hb, rfl⟩
      rfl
  · exact absurd hstep (by simp)

/-- A task that has stopped does not start again. -/
theorem joined_step (d d' : Daemon) (a : DaemonAction) (hstep : d.step a = some d') :
    (d.monitor = .stopped → d'.monitor = .stopped) ∧
      (d.eviction = .stopped → d'.eviction = .stopped) := by
  cases a with
  | client b =>
      simp only [Daemon.step] at hstep
      split at hstep
      · rcases Option.map_eq_some_iff.mp hstep with ⟨w', hb, rfl⟩
        exact ⟨fun h => h, fun h => h⟩
      · exact absurd hstep (by simp)
  | evictionLoop call =>
      refine ⟨fun h => ?_, fun h => absurd hstep (by simp [Daemon.step, Daemon.evictionStep, h])⟩
      rw [monitor_evictionStep d d' call hstep, h]
  | memoryMonitor call rssBytes =>
      refine ⟨fun h => absurd hstep (by simp [Daemon.step, Daemon.monitorStep, h]), fun h => ?_⟩
      rw [eviction_monitorStep d d' call rssBytes hstep, h]
  | stopEvictionLoop =>
      simp only [Daemon.step] at hstep
      split at hstep
      · rw [Option.some.injEq] at hstep
        rw [← hstep]
        exact ⟨fun h => h, fun _ => rfl⟩
      · exact absurd hstep (by simp)
  | stopMemoryMonitor =>
      simp only [Daemon.step] at hstep
      split at hstep
      · rw [Option.some.injEq] at hstep
        rw [← hstep]
        exact ⟨fun _ => rfl, fun h => h⟩
      · exact absurd hstep (by simp)

/-- Evictors that have stopped are in no call. -/
theorem owning_of_joined (d : Daemon) (hmonitor : d.monitor = .stopped)
    (heviction : d.eviction = .stopped) (hfresh : Fresh d.world) : d.Owning := by
  have hframe : ∀ e, (d.view e).frame = none := by
    intro e
    cases e with
    | idle =>
        rw [Daemon.view, heviction]
        rfl
    | memory =>
        rw [Daemon.view, hmonitor]
        rfl
  refine ⟨hfresh, fun e c f hf => ?_, fun c f f' hf => ?_⟩
  · rw [hframe] at hf
    exact absurd hf (by simp)
  · rw [hframe] at hf
    exact absurd hf (by simp)

/-- The sweep takes a step of the world. -/
theorem stopping_withWorld (s : DaemonRun) (h : Stopping s) (todo todo' : List SessionHandle)
    (htodo : s.pc.todo = some todo) (b : Action) (w' : World)
    (hstep : s.daemon.world.step b = some w') (pc' : RunPc) (stopped' : List RuntimeId)
    (hstopped : ∀ runtime ∈ stopped', s.daemon.world.Known runtime)
    (htodo' : pc'.todo = some todo') (hrest : ∀ handle ∈ todo', handle ∈ todo)
    (hcalling : pc'.Calling w'.calls) : Stopping (s.withWorld w' pc' stopped') := by
  rcases joined_of_todo s h todo htodo with ⟨hmonitor, heviction⟩
  have hknown := fun runtime hk => World.known_step _ w' b hstep runtime hk
  constructor
  · exact owning_of_joined _ hmonitor heviction (fresh_step _ w' b h.owning.fresh hstep)
  · exact fun runtime hmem => hknown runtime (hstopped runtime hmem)
  · intro runtime hmem
    exact hknown runtime (h.held runtime hmem)
  · intro todo₁ htodo₁ handle hmem
    change pc'.todo = some todo₁ at htodo₁
    rw [htodo', Option.some.injEq] at htodo₁
    rw [← htodo₁] at hmem
    exact hknown _ (h.listed todo htodo handle (hrest handle hmem))
  · exact fun _ => hmonitor
  · exact fun _ => heviction
  · exact hcalling

/-- Clients leave the call of the sweep alone. -/
theorem calling_client (s : DaemonRun) (h : Stopping s) (b : Action) (w' : World)
    (hclient : b.ofClient s.daemon.world = true) (hstep : s.daemon.world.step b = some w') :
    s.pc.Calling w'.calls := by
  have hkeep : ∀ c frame, s.daemon.world.calls.get? c = some frame → frame.ofClient = false →
      w'.calls.get? c = some frame := by
    intro c frame hget hforeign
    refine calls_step _ w' b hstep c frame hget (fun hmover => ?_)
    rw [Daemon.mover_ofClient _ w' b hclient hstep c frame hmover hget] at hforeign
    exact absurd hforeign (by simp)
  have hcalling := h.calling
  cases hpc : s.pc with
  | removeSession key c todo =>
      rw [hpc] at hcalling
      exact hkeep c _ hcalling rfl
  | removeLeases c todo =>
      rw [hpc] at hcalling
      rcases hcalling with ⟨key, hget⟩
      exact ⟨key, hkeep c _ hget rfl⟩
  | _ => trivial

theorem stopping_daemon (s : DaemonRun) (h : Stopping s) (a : DaemonAction) (stops : Bool)
    (d' : Daemon) (hstep : s.daemon.step a = some d') :
    Stopping { s with
        daemon := d'
        starting := (s.closes a).1
        orphans := (s.closes a).2
        stopped := s.stoppedBy (s.daemon.stops a) stops } := by
  have hknown := Daemon.known_step s.daemon d' a h.owning hstep
  have hjoined := joined_step s.daemon d' a hstep
  constructor
  · exact Daemon.owning_step s.daemon d' a h.owning hstep
  · intro runtime hmem
    rcases (mem_stoppedBy s _ stops runtime).mp hmem with ⟨_, htried⟩ | hold
    · exact hknown runtime (h.held runtime
        (Daemon.mem_held_of_stops s.daemon d' a h.owning hstep runtime htried))
    · exact hknown runtime (h.stopped runtime hold)
  · exact Daemon.held_known_step s.daemon d' a h.owning h.held hstep
  · exact fun todo htodo handle hmem => hknown _ (h.listed todo htodo handle hmem)
  · exact fun hpc => hjoined.1 (h.monitor hpc)
  · exact fun hpc => hjoined.2 (h.eviction hpc)
  · change s.pc.Calling d'.world.calls
    cases htodo : s.pc.todo with
    | none =>
        cases hpc : s.pc with
        | removeSession key c todo => exact absurd htodo (by simp [hpc, RunPc.todo])
        | removeLeases c todo => exact absurd htodo (by simp [hpc, RunPc.todo])
        | _ => trivial
    | some todo =>
        rcases joined_of_todo s h todo htodo with ⟨hmonitor, heviction⟩
        rcases client_of_joined s.daemon d' a hmonitor heviction hstep
          with ⟨b, w', rfl, hclient, hb, rfl⟩
        exact calling_client s h b w' hclient hb

theorem stopping_step (s s' : DaemonRun) (a : RunAction) (h : Stopping s)
    (heffect : RunEffect s a s') : Stopping s' := by
  cases heffect with
  | daemon a stops d' hpermits hstep => exact stopping_daemon s h a stops d' hstep
  | process call =>
      exact ⟨h.owning, h.stopped, h.held, h.listed, h.monitor, h.eviction, h.calling⟩
  | signal hpc =>
      exact ⟨h.owning, h.stopped, h.held, by simp [RunPc.todo], by simp [RunPc.monitorJoined],
        by simp [RunPc.evictionJoined, RunPc.monitorJoined], trivial⟩
  | monitorJoined hpc hmonitor =>
      exact ⟨h.owning, h.stopped, h.held, by simp [RunPc.todo], fun _ => hmonitor,
        by simp [RunPc.evictionJoined], trivial⟩
  | evictionJoined hpc heviction =>
      refine ⟨h.owning, h.stopped, h.held, by simp [RunPc.todo], fun _ => h.monitor ?_,
        fun _ => heviction, trivial⟩
      rw [hpc]
      rfl
  | lists hpc =>
      -- The list is taken from the registry, whose runtimes are known.
      refine ⟨h.owning, h.stopped, h.held, fun todo htodo handle hmem => ?_,
        fun _ => h.monitor (by rw [hpc]; rfl), fun _ => h.eviction (by rw [hpc]; rfl), trivial⟩
      change some s.daemon.world.reg.allHandles = some todo at htodo
      rw [Option.some.injEq] at htodo
      rw [← htodo] at hmem
      refine World.known_of_mem _ h.owning.fresh _ ?_
      rw [← listed_runtimes]
      exact List.mem_map_of_mem hmem
  | returns call stops hpc =>
      refine ⟨h.owning, h.stopped, h.held, fun todo htodo handle hmem => ?_,
        fun _ => h.monitor (by rw [hpc]; rfl), fun _ => h.eviction (by rw [hpc]; rfl), trivial⟩
      change some [] = some todo at htodo
      rw [Option.some.injEq] at htodo
      rw [← htodo] at hmem
      exact absurd hmem (by simp)
  | tries call stops handle todo w' hpc hstep =>
      have htodo : s.pc.todo = some (handle :: todo) := by rw [hpc]; rfl
      refine stopping_withWorld s h _ todo htodo _ w' hstep _ _ (fun runtime hmem => ?_) rfl
        (fun other hmem => List.mem_cons_of_mem _ hmem) ?_
      · rcases (mem_stoppedBy s _ stops runtime).mp hmem with ⟨_, heq⟩ | hold
        · rw [← Option.some.inj heq]
          exact h.listed _ htodo handle List.mem_cons_self
        · exact h.stopped runtime hold
      · change w'.calls.get? call = _
        simp only [World.step] at hstep
        split at hstep
        · exact absurd hstep (by simp)
        · rw [Option.some.injEq] at hstep
          rw [← hstep]
          exact Table.get?_set_self _ _ _
  | removes call stops key c todo w' hpc hstep =>
      have hcalling := h.calling
      rw [hpc] at hcalling
      exact stopping_withWorld s h todo todo (by rw [hpc]; rfl) _ w' hstep _ _ h.stopped rfl
        (fun _ hmem => hmem) ⟨key, (World.removed_step _ w' _ hstep c key rfl hcalling).2⟩
  | clears call stops c todo w' hpc hstep =>
      exact stopping_withWorld s h todo todo (by rw [hpc]; rfl) _ w' hstep _ _ h.stopped rfl
        (fun _ hmem => hmem) trivial

/-! ### The registry is emptied -/

/-- As long as nothing is lost, every session still registered once the sessions
    are listed is still to be removed. -/
def Cleared (s : DaemonRun) : Prop :=
  Accounted s → ∀ todo, s.pc.todo = some todo → ∀ key runtime,
    s.daemon.world.reg.instanceOf key = some runtime → key ∈ s.pc.unremoved

/-- Nothing is published once the sessions are listed: what is published then
    would be lost. -/
theorem instance_listed (s : DaemonRun) (h : Stopping s) (hacc : Accounted s)
    (todo : List SessionHandle) (htodo : s.pc.todo = some todo) (b : Action) (w' : World)
    (hstep : s.daemon.world.step b = some w') (key : SessionKey) (runtime : RuntimeId)
    (hinst : w'.reg.instanceOf key = some runtime) :
    s.daemon.world.reg.instanceOf key = some runtime := by
  have hfresh := h.owning.fresh
  rcases Option.map_eq_some_iff.mp hinst with ⟨u, hu, hrt⟩
  rcases handle_step _ w' b hstep key u hu with
    ⟨u₀, hu₀, hhandle⟩ | ⟨call, clientKind, hmover, hcall, hnone⟩
  · rw [SessionRegistry.instanceOf, hu₀, Option.map_some, hhandle, hrt]
  · have hmem : u.handle.runtime ∈ s.daemon.world.unpublished :=
      World.mem_of_publishes _ b _ ⟨call, key, clientKind, u.handle, hmover, hcall, rfl⟩
    have hnot := World.not_known_of_unpublished _ hfresh _ hmem
    rcases hacc.runtimes _ (World.bound_of_has _ hfresh _ (Or.inr hmem)) with hstopped | hhas
    · exact absurd (h.stopped _ hstopped) hnot
    · rw [Has, htodo] at hhas
      rcases List.mem_map.mp hhas with ⟨handle, hlisted, heq⟩
      have hknown := h.listed todo htodo handle hlisted
      rw [heq] at hknown
      exact absurd hknown hnot

theorem cleared_step (s s' : DaemonRun) (a : RunAction) (h : Stopping s) (hcleared : Cleared s)
    (heffect : RunEffect s a s') : Cleared s' := by
  intro hacc' todo' htodo' key runtime hinst
  have hacc := ((accounted_step s s' a h heffect).mp hacc').1
  cases heffect with
  | daemon a stops d' hpermits hstep =>
      change s.pc.todo = some todo' at htodo'
      rcases joined_of_todo s h todo' htodo' with ⟨hmonitor, heviction⟩
      rcases client_of_joined s.daemon d' a hmonitor heviction hstep with ⟨b, w', _, _, hb, rfl⟩
      exact hcleared hacc todo' htodo' key runtime
        (instance_listed s h hacc todo' htodo' b w' hb key runtime hinst)
  | process call => exact hcleared hacc todo' htodo' key runtime hinst
  | signal hpc => exact absurd htodo' (by simp [RunPc.todo])
  | monitorJoined hpc hmonitor => exact absurd htodo' (by simp [RunPc.todo])
  | evictionJoined hpc heviction => exact absurd htodo' (by simp [RunPc.todo])
  | lists hpc =>
      rcases Option.map_eq_some_iff.mp hinst with ⟨record, hget, hrt⟩
      refine List.mem_map.mpr ⟨record.handle, List.mem_map.mpr ⟨record, ?_, rfl⟩,
        h.owning.fresh.handleKey key record hget⟩
      exact (Table.mem_values_iff _ _).mpr ⟨key, hget⟩
  | returns call stops hpc =>
      have hmem := hcleared hacc [] (by rw [hpc]; rfl) key runtime hinst
      rw [hpc] at hmem
      exact hmem
  | tries call stops handle todo w' hpc hstep =>
      have htodo : s.pc.todo = some (handle :: todo) := by rw [hpc]; rfl
      have hmem := hcleared hacc _ htodo key runtime
        (instance_listed s h hacc _ htodo _ w' hstep key runtime hinst)
      rw [hpc] at hmem
      exact hmem
  | removes call stops key' c todo w' hpc hstep =>
      have htodo : s.pc.todo = some todo := by rw [hpc]; rfl
      have hmem := hcleared hacc _ htodo key runtime
        (instance_listed s h hacc _ htodo _ w' hstep key runtime hinst)
      have hcalling := h.calling
      rw [hpc] at hmem hcalling
      rcases List.mem_cons.mp hmem with rfl | hmem
      · -- The key has just been removed.
        change w'.reg.instanceOf key = some runtime at hinst
        rw [(World.removed_step _ w' _ hstep c key rfl hcalling).1, SessionRegistry.instanceOf,
          SessionRegistry.removeSession, Table.get?_erase_self] at hinst
        exact absurd hinst (by simp)
      · exact hmem
  | clears call stops c todo w' hpc hstep =>
      have htodo : s.pc.todo = some todo := by rw [hpc]; rfl
      have hmem := hcleared hacc _ htodo key runtime
        (instance_listed s h hacc _ htodo _ w' hstep key runtime hinst)
      rw [hpc] at hmem
      exact hmem

/-- When `run` has returned, nobody will come to stop anything. -/
theorem leavesNothing_iff_accounted (s : DaemonRun) (hcleared : Cleared s)
    (hreturned : s.pc = .returned) : LeavesNothing s ↔ Accounted s := by
  have htodo : s.pc.todo = some [] := by rw [hreturned]; rfl
  constructor
  · intro hleaves
    exact ⟨hleaves.orphans, fun runtime hlt => Or.inl (hleaves.stopped runtime hlt),
      fun _ => hleaves.starting⟩
  · intro hacc
    refine ⟨fun key => ?_, hacc.starting (by rw [htodo]; simp), hacc.orphans,
      fun runtime hlt => ?_⟩
    · cases hget : s.daemon.world.reg.sessions.get? key with
      | none => rfl
      | some record =>
          have hmem := hcleared hacc [] htodo key record.handle.runtime
            (by rw [SessionRegistry.instanceOf, hget, Option.map_some])
          rw [hreturned] at hmem
          exact absurd hmem (by simp [RunPc.unremoved])
    · refine (hacc.runtimes runtime hlt).resolve_right (fun hhas => ?_)
      rw [Has, htodo] at hhas
      exact absurd hhas (by simp)

/-- When `run` returns, no session is registered and every process has been
    stopped exactly if no step of the run has lost one. -/
theorem leavesNothing_iff (idleTtl : Duration) (settings : MemoryBudgetSettings)
    (daemonIdleTtl : Option Duration) (as : List RunAction) (s : DaemonRun)
    (h : run step (init idleTtl settings daemonIdleTtl) as = some s)
    (hreturned : s.pc = .returned) :
    LeavesNothing s ↔ Along step StopCond (init idleTtl settings daemonIdleTtl) as := by
  have hinit : Stopping (init idleTtl settings daemonIdleTtl) ∧
      Cleared (init idleTtl settings daemonIdleTtl) :=
    ⟨stopping_init idleTtl settings daemonIdleTtl,
      fun _ todo htodo => absurd htodo (by simp [init, RunPc.todo])⟩
  have hstep : ∀ s a s', (Stopping s ∧ Cleared s) → step s a = some s' →
      (Stopping s' ∧ Cleared s') ∧ (Accounted s' ↔ Accounted s ∧ s.StopCond a) := by
    rintro s a s' ⟨hstopping, hcleared⟩ hstep
    have heffect := run_effect s s' a hstep
    exact ⟨⟨stopping_step s s' a hstopping heffect, cleared_step s s' a hstopping hcleared heffect⟩,
      accounted_step s s' a hstopping heffect⟩
  have hcleared := (run_invariant (C := fun _ _ => True)
    (fun s a s' hs hstep' _ => (hstep s a s' hs hstep').1) as _ s h hinit (along_true as _)).2
  have hacc : Accounted (init idleTtl settings daemonIdleTtl) :=
    ⟨rfl, fun runtime hlt => absurd hlt (Nat.not_lt_zero runtime), fun _ => rfl⟩
  rw [leavesNothing_iff_accounted s hcleared hreturned, last_iff_along hstep as _ s h hinit]
  exact and_iff_right hacc

/-- Steps of clients. -/
def clients (as : List Action) : List RunAction := as.map (fun a => .daemon (.client a) true)

/-- An attach whose spawn closure has its process. -/
def attachStarts : List RunAction := clients (acquireUntilSpawn 0) ++ [.process 0]

/-- The closure returns, and the attach registers its session. -/
def attachEnds : List RunAction := clients [.spawnReturns 0 (.ok .null), .sect 0, .sect 0]

/-- The stop sequence up to the list of the sessions. -/
def stopsTasks : List RunAction :=
  [.signal, .daemon .stopMemoryMonitor true, .joined, .daemon .stopEvictionLoop true, .joined,
    .allHandles]

/-- The daemon stops with one session. -/
def stopWithSession : List RunAction :=
  attachStarts ++ attachEnds ++ stopsTasks ++
    [.sweep 1 true, .sweep 1 true, .sweep 1 true, .sweep 1 true]

theorem stopWithSession_isSome :
    (run step (init 5 Daemon.demoSettings none) stopWithSession).isSome = true := by
  decide

theorem leavesNothing_stopWithSession :
    LeavesNothing ((run step (init 5 Daemon.demoSettings none) stopWithSession).get
      stopWithSession_isSome) :=
  (leavesNothing_iff 5 Daemon.demoSettings none stopWithSession _ (Option.some_get _).symm rfl).mpr
    (by decide)

/-- A spawn is in progress when the daemon is told to stop, and ends when the
    sessions have been listed. -/
def stopWhileSpawning : List RunAction :=
  attachStarts ++ stopsTasks ++ attachEnds ++ [.sweep 1 true]

theorem stopWhileSpawning_isSome :
    (run step (init 5 Daemon.demoSettings none) stopWhileSpawning).isSome = true := by
  decide

/-- `run` may return with a session registered, and with a language server that
    nobody has stopped: the session is registered after the list was taken. -/
theorem late_attach :
    (¬ ∀ (idleTtl : Duration) (settings : MemoryBudgetSettings)
        (daemonIdleTtl : Option Duration) (as : List RunAction) (s : DaemonRun),
      run step (init idleTtl settings daemonIdleTtl) as = some s → s.pc = .returned →
        ∀ key, s.daemon.world.reg.sessions.get? key = none) ∧
    ¬ ∀ (idleTtl : Duration) (settings : MemoryBudgetSettings)
        (daemonIdleTtl : Option Duration) (as : List RunAction) (s : DaemonRun),
      run step (init idleTtl settings daemonIdleTtl) as = some s → s.pc = .returned →
        ∀ runtime < s.daemon.world.nextRuntime, runtime ∈ s.stopped := by
  constructor
  · intro hall
    have := hall 5 Daemon.demoSettings none stopWhileSpawning
      ((run step (init 5 Daemon.demoSettings none) stopWhileSpawning).get stopWhileSpawning_isSome)
      (Option.some_get _).symm rfl demoKey
    exact absurd this (by decide)
  · intro hall
    have := hall 5 Daemon.demoSettings none stopWhileSpawning
      ((run step (init 5 Daemon.demoSettings none) stopWhileSpawning).get stopWhileSpawning_isSome)
      (Option.some_get _).symm rfl 0 (by decide)
    exact absurd this (by decide)

end DaemonRun

end Lspee
