import Lspee.Core.AutoShutdown
import Lspee.Theory.Stopping

/-!
# When the Daemon Stops by Itself

Two statements about the signal of the eviction loop: when it is sent at all, and
what has been the case for how long when it is.

A limit of zero is documented to disable the signal. It arrives at the loop as a
limit like any other, and a timer that has run for no time has reached it. So the
loop sends the signal at the first round that ends without sessions, and what
keeps the daemon alive is that there is no such round (`disabled_iff`). A daemon
that has just started ends its first round so (`zero_stops`).

With a limit above zero the loop keeps the time since when the registry has been
empty, as far as it knows: it looks at the end of each round and only counts
sessions. That is the time since the first of the rounds that have found none
(`Timely.timer`). What comes and goes between two rounds, and an attach that has not
registered its session, are not seen. So the signal is sent in time as long as whatever
comes to its end has been found by the round before, and no attach is in progress at the
round that ends the wait (`punctual_of_rounds`). A spawn that takes as long as the limit
breaks it (`stops_during_attach`).

## Main definitions

* `Unstopped`, `RoundCond`: The daemon is not stopped by the loop, and the
  condition.
* `Punctual`, `RoundsCond`: The signal is sent in time, and the condition.
* `Steady`: Time passes, or does not.
* `Timely`: What the times kept beside the daemon say.

## Theorems

* `daemon_cases`: A step ends a round, or leaves the timer alone.
* `finishRound_used`, `finishRound_idle`: What the end of a round does.
* `disabled_iff`: The condition is exact for a limit of zero.
* `timely_kept`, `timely_round`: The invariant of the times.
* `punctual_round`: What a round sends.
* `punctual_of_rounds`: The condition is enough for a limit above zero.
* `stops_during_attach`: A run that does not meet it.
-/

namespace Lspee

open Transition

/-! ### What a step does -/

/-- No time passes, or nothing else happens. -/
def Steady (w w' : World) : Prop := w'.now = w.now ∨ w'.busy = w.busy ∧ w.now ≤ w'.now

theorem steady_refl (w : World) : Steady w w := Or.inl rfl

theorem steady_step (w w' : World) (a : Action) (h : w.step a = some w') : Steady w w' := by
  cases a with
  | tick span =>
      rw [World.step, Option.some.injEq] at h
      rw [← h]
      -- Time may pass, and then nothing else happens.
      exact Or.inr ⟨rfl, Nat.le_add_right _ _⟩
  | start call method =>
      simp only [World.step] at h
      split at h
      · exact absurd h (by simp)
      · rw [← Option.some.inj h]
        exact Or.inl rfl
  | sect call =>
      simp only [World.step] at h
      split at h
      · exact absurd h (by simp)
      · rcases Option.map_eq_some_iff.mp h with ⟨_, _, rfl⟩
        exact Or.inl rfl
  | spawnReturns call result =>
      simp only [World.step] at h
      split at h
      · rw [← Option.some.inj h]
        cases result <;> exact Or.inl rfl
      · exact absurd h (by simp)
  | runtimeReturns call result =>
      simp only [World.step] at h
      split at h
      · rw [← Option.some.inj h]
        cases result <;> exact Or.inl rfl
      · exact absurd h (by simp)

/-- Evicting makes calls of the registry, or nothing. -/
theorem steady_evictions {V : Type} (kind : VictimKind V) (call : CallId) (w w' : World)
    (e e' : Evictions V) (events : List DaemonEvent)
    (h : e.step kind call w = some (w', e', events)) : Steady w w' := by
  unfold Evictions.step at h
  split at h
  · exact absurd h (by simp)
  · split at h
    · rcases Option.map_eq_some_iff.mp h with ⟨u, hu, heq⟩
      rw [← (Prod.mk.inj heq).1]
      exact steady_step w u _ hu
    · rw [← (Prod.mk.inj (Option.some.inj h)).1]
      exact steady_refl w
  all_goals
    rcases Option.map_eq_some_iff.mp h with ⟨u, hu, heq⟩
    rw [← (Prod.mk.inj heq).1]
    exact steady_step w u _ hu

/-- What every step but the end of a round leaves as it is. -/
structure TimerKept (d d' : Daemon) : Prop where
  idleSince : d'.daemonIdleSince = d.daemonIdleSince
  ttl : d'.daemonIdleTtl = d.daemonIdleTtl
  signalled : d'.shutdownSignalled = d.shutdownSignalled
  stopped : d.eviction = .stopped → d'.eviction = .stopped
  steady : Steady d.world d'.world

/-- A step ends a round, or leaves the timer alone. -/
theorem daemon_cases (d d' : Daemon) (a : DaemonAction) (h : d.step a = some d') :
    ((∃ call, a = .evictionLoop call) ∧ d.roundEnds = true ∧ d' = d.finishRound) ∨
      ((∀ call, a = .evictionLoop call → d.roundEnds = false) ∧ TimerKept d d') := by
  cases a with
  | client a =>
      simp only [Daemon.step, Option.ite_none_right_eq_some] at h
      rcases Option.map_eq_some_iff.mp h.2 with ⟨w', hw', rfl⟩
      exact Or.inr ⟨by simp, rfl, rfl, rfl, id, steady_step _ _ _ hw'⟩
  | evictionLoop call =>
      simp only [Daemon.step, Daemon.evictionStep] at h
      split at h
      · rename_i hpc
        rcases Option.map_eq_some_iff.mp h with ⟨w', hw', rfl⟩
        exact Or.inr ⟨by simp [Daemon.roundEnds, hpc], rfl, rfl, rfl, by simp [hpc],
          steady_step _ _ _ hw'⟩
      · rename_i hpc
        rcases Option.map_eq_some_iff.mp h with ⟨w', hw', rfl⟩
        exact Or.inr ⟨by simp [Daemon.roundEnds, hpc], rfl, rfl, rfl, by simp [hpc],
          steady_step _ _ _ hw'⟩
      · rename_i victims hpc
        split at h
        · rename_i hcurrent hrest
          -- Nothing left to evict: this is the end of the round.
          left
          refine ⟨⟨call, rfl⟩, ?_, (Option.some.inj h).symm⟩
          rcases victims with ⟨current, rest⟩
          simp only at hcurrent hrest
          rw [hcurrent, hrest] at hpc
          simp [Daemon.roundEnds, hpc]
        · rename_i hne
          right
          -- A victim is left, so the round goes on.
          rcases Option.map_eq_some_iff.mp h with ⟨⟨w', victims', events⟩, hv, rfl⟩
          refine ⟨fun _ _ => ?_, rfl, rfl, rfl, by simp [hpc],
            steady_evictions _ _ _ _ _ _ _ hv⟩
          rcases victims with ⟨current, rest⟩
          unfold Daemon.roundEnds
          rw [hpc]
          split
          · rename_i heq
            simp only [EvictionPc.evicting.injEq, Evictions.mk.injEq] at heq
            exact absurd heq.2 (hne heq.1)
          · rfl
      · exact absurd h (by simp)
  -- The monitor never touches the timer, wherever it is.
  | memoryMonitor call rssBytes =>
      right
      refine ⟨by simp, ?_⟩
      simp only [Daemon.step, Daemon.monitorStep] at h
      split at h
      · split at h
        · rw [← Option.some.inj h]
          exact ⟨rfl, rfl, rfl, id, steady_refl _⟩
        · rw [← Option.some.inj h]
          exact ⟨rfl, rfl, rfl, id, steady_refl _⟩
      · rw [← Option.some.inj h]
        exact ⟨rfl, rfl, rfl, id, steady_refl _⟩
      · rw [← Option.some.inj h]
        exact ⟨rfl, rfl, rfl, id, steady_refl _⟩
      · rw [← Option.some.inj h]
        exact ⟨rfl, rfl, rfl, id, steady_refl _⟩
      · split at h
        · rw [← Option.some.inj h]
          exact ⟨rfl, rfl, rfl, id, steady_refl _⟩
        · rcases Option.map_eq_some_iff.mp h with ⟨⟨w', victims', events⟩, hv, rfl⟩
          exact ⟨rfl, rfl, rfl, id, steady_evictions _ _ _ _ _ _ _ hv⟩
      · exact absurd h (by simp)
  | stopEvictionLoop =>
      right
      refine ⟨by simp, ?_⟩
      simp only [Daemon.step] at h
      split at h
      · rw [← Option.some.inj h]
        exact ⟨rfl, rfl, rfl, fun _ => rfl, steady_refl _⟩
      · exact absurd h (by simp)
  | stopMemoryMonitor =>
      right
      refine ⟨by simp, ?_⟩
      simp only [Daemon.step] at h
      split at h
      · rw [← Option.some.inj h]
        exact ⟨rfl, rfl, rfl, id, steady_refl _⟩
      · exact absurd h (by simp)

/-- At the end of a round with sessions the timer is reset. -/
theorem finishRound_used (d : Daemon) (ttl : Duration) (httl : d.daemonIdleTtl = some ttl)
    (h : d.world.reg.sessionCount ≠ 0) :
    d.finishRound = { d with eviction := .ticker, daemonIdleSince := none } := by
  simp only [Daemon.finishRound, httl, h, if_false]

/-- At the end of a round without, it is started, or runs on, or has reached the
    limit. -/
theorem finishRound_idle (d : Daemon) (ttl : Duration) (httl : d.daemonIdleTtl = some ttl)
    (h : d.world.reg.sessionCount = 0) :
    d.finishRound.world = d.world ∧ d.finishRound.daemonIdleTtl = some ttl ∧
      d.finishRound.daemonIdleSince = some (d.daemonIdleSince.getD d.world.now) ∧
      d.finishRound.shutdownSignalled =
        (decide (ttl ≤ d.world.now - d.daemonIdleSince.getD d.world.now) ||
          d.shutdownSignalled) ∧
      (ttl ≤ d.world.now - d.daemonIdleSince.getD d.world.now →
        d.finishRound.eviction = .stopped) := by
  simp only [Daemon.finishRound, httl, h, if_true, ge_iff_le]
  by_cases hreached : ttl ≤ d.world.now - d.daemonIdleSince.getD d.world.now
  · simp [hreached]
  · simp [hreached]

theorem finishRound_kept (d : Daemon) :
    d.finishRound.world = d.world ∧ d.finishRound.daemonIdleTtl = d.daemonIdleTtl := by
  unfold Daemon.finishRound
  split
  · exact ⟨rfl, rfl⟩
  · split
    · simp only
      split <;> exact ⟨rfl, rfl⟩
    · exact ⟨rfl, rfl⟩

/-! ### A limit of zero -/

namespace Serving

/-- The eviction loop has not sent the signal, and if `run` is no longer serving,
    somebody has asked for that. -/
structure Unstopped (s : Serving) : Prop where
  signal : s.run.daemon.shutdownSignalled = false
  asked : s.run.pc ≠ .serving → s.requested = true

/-- A round ends with a session. -/
def RoundCond (s : Serving) : ServingAction → Prop
  | .run (.daemon (.evictionLoop _) _) =>
      s.run.daemon.roundEnds = true → s.run.daemon.world.reg.sessionCount ≠ 0
  | _ => True

instance (s : Serving) (a : ServingAction) : Decidable (s.RoundCond a) := by
  unfold RoundCond
  split <;> infer_instance

/-- What `run` does itself leaves the timer alone. -/
theorem run_cases (r r' : DaemonRun) (a : RunAction) (h : r.step a = some r') :
    (∃ b stops, a = .daemon b stops ∧ r.daemon.step b = some r'.daemon ∧ r'.pc = r.pc) ∨
      (∀ b stops, a ≠ .daemon b stops) ∧ TimerKept r.daemon r'.daemon ∧
        (a ≠ .signal → r'.pc ≠ .serving → r.pc ≠ .serving) := by
  have hkept : TimerKept r.daemon r.daemon := ⟨rfl, rfl, rfl, id, steady_refl _⟩
  cases DaemonRun.run_effect r r' a h with
  | daemon b stops d' hpermits hstep => exact Or.inl ⟨b, stops, rfl, hstep, rfl⟩
  | process call => exact Or.inr ⟨by simp, hkept, fun _ hpc => hpc⟩
  | signal hpc => exact Or.inr ⟨by simp, hkept, by simp⟩
  | monitorJoined hpc _ => exact Or.inr ⟨by simp, hkept, fun _ _ => by simp [hpc]⟩
  | evictionJoined hpc _ => exact Or.inr ⟨by simp, hkept, fun _ _ => by simp [hpc]⟩
  | lists hpc => exact Or.inr ⟨by simp, hkept, fun _ _ => by simp [hpc]⟩
  | returns _ _ hpc => exact Or.inr ⟨by simp, hkept, fun _ _ => by simp [hpc]⟩
  | tries call stops handle todo w' hpc hstep =>
      exact Or.inr ⟨by simp, ⟨rfl, rfl, rfl, id, steady_step _ _ _ hstep⟩, fun _ _ => by simp [hpc]⟩
  | removes call stops key c todo w' hpc hstep =>
      exact Or.inr ⟨by simp, ⟨rfl, rfl, rfl, id, steady_step _ _ _ hstep⟩, fun _ _ => by simp [hpc]⟩
  | clears call stops c todo w' hpc hstep =>
      exact Or.inr ⟨by simp, ⟨rfl, rfl, rfl, id, steady_step _ _ _ hstep⟩, fun _ _ => by simp [hpc]⟩

theorem ttl_step (s s' : Serving) (a : ServingAction) (h : s.step a = some s') :
    s'.run.daemon.daemonIdleTtl = s.run.daemon.daemonIdleTtl := by
  cases a with
  | run a =>
      simp only [step, Option.ite_none_right_eq_some] at h
      rcases Option.map_eq_some_iff.mp h.2 with ⟨r, hr, rfl⟩
      rcases run_cases s.run r a hr with ⟨b, stops, _, hb, _⟩ | ⟨_, hkept, _⟩
      · rcases daemon_cases s.run.daemon r.daemon b hb with ⟨_, _, hround⟩ | ⟨_, hkept⟩
        · rw [hround]
          exact (finishRound_kept _).2
        · exact hkept.ttl
      · exact hkept.ttl
  | shutdownRequest =>
      simp only [step] at h
      split at h
      · exact absurd h (by simp)
      · rw [← Option.some.inj h]

/-- A round that ends with a session does not stop the daemon. -/
theorem unstopped_keep (s s' : Serving) (a : ServingAction)
    (httl : s.run.daemon.daemonIdleTtl = some 0) (h : Unstopped s) (hstep : s.step a = some s')
    (hcond : RoundCond s a) : Unstopped s' := by
  cases a with
  | run a =>
      simp only [step, Option.ite_none_right_eq_some] at hstep
      rcases Option.map_eq_some_iff.mp hstep.2 with ⟨r, hr, rfl⟩
      rcases run_cases s.run r a hr with ⟨b, stops, rfl, hb, hpc⟩ | ⟨_, hkept, hpc⟩
      · refine ⟨?_, fun hserving => h.asked (by rw [← hpc]; exact hserving)⟩
        rcases daemon_cases s.run.daemon r.daemon b hb with
          ⟨⟨call, rfl⟩, hends, hround⟩ | ⟨_, hkept⟩
        · have hround' : r.daemon.shutdownSignalled = s.run.daemon.shutdownSignalled := by
            -- The round has found a session, so the timer is reset.
            rw [hround, finishRound_used _ 0 httl (hcond hends)]
          exact hround'.trans h.signal
        · exact hkept.signalled.trans h.signal
      · refine ⟨hkept.signalled.trans h.signal, fun hserving => ?_⟩
        by_cases ha : a = .signal
        · -- the loop has not sent, so a request has
          have hpermits := hstep.1
          rw [ha, permits, h.signal, Bool.false_or] at hpermits
          exact hpermits
        · exact h.asked (hpc ha hserving)
  | shutdownRequest =>
      simp only [step] at hstep
      split at hstep
      · exact absurd hstep (by simp)
      · rw [← Option.some.inj hstep]
        exact ⟨h.signal, fun _ => rfl⟩

/-- A round that ends without one does. -/
theorem unstopped_need (s s' : Serving) (a : ServingAction)
    (httl : s.run.daemon.daemonIdleTtl = some 0) (hstep : s.step a = some s')
    (h : Unstopped s') : RoundCond s a := by
  unfold RoundCond
  split
  · rename_i call stops
    intro hends hnone
    simp only [step, Option.ite_none_right_eq_some] at hstep
    rcases Option.map_eq_some_iff.mp hstep.2 with ⟨r, hr, rfl⟩
    rcases run_cases s.run r _ hr with ⟨b, stops', hb, hd, _⟩ | ⟨hne, _⟩
    · rw [RunAction.daemon.injEq] at hb
      rw [← hb.1] at hd
      rcases daemon_cases s.run.daemon r.daemon _ hd with ⟨_, _, hround⟩ | ⟨hnot, _⟩
      · have hsignal := (finishRound_idle _ 0 httl hnone).2.2.2.1
        rw [← hround, h.signal] at hsignal
        exact absurd hsignal (by simp)
      · rw [hnot call rfl] at hends
        exact absurd hends (by simp)
    · exact hne _ stops rfl
  · trivial

/-- With a merged limit of zero the eviction loop stays silent, and only a request
    stops `run`, if and only if every round of the loop ends with a session. -/
theorem disabled_iff (ps : List PartialConfig)
    (hzero : (ps.foldl applyPartial defaultConfig).session.daemonIdleTtlSecs = some 0)
    (as : List ServingAction) :
    Always step Unstopped (ofConfig (ps.foldl applyPartial defaultConfig)) as ↔
      Along step RoundCond (ofConfig (ps.foldl applyPartial defaultConfig)) as := by
  have httl : (ofConfig (ps.foldl applyPartial defaultConfig)).run.daemon.daemonIdleTtl =
      some 0 := by
    simp only [ofConfig, DaemonRun.ofConfig, DaemonRun.init, Daemon.init, hzero, Option.map_some]
    rfl
  refine always_iff_along (I := fun s => s.run.daemon.daemonIdleTtl = some 0) ?_ ?_ as _ httl
    ⟨rfl, fun h => absurd rfl h⟩ (along_true as _)
  · intro s a s' hs h hstep _ hcond
    exact ⟨(ttl_step s s' a hstep).trans hs, unstopped_keep s s' a hs h hstep hcond⟩
  · intro s a s' hs _ hstep _ h
    exact unstopped_need s s' a hs hstep h

/-- A file that disables the signal. -/
def zeroLimit : PartialConfig where
  lsp := []
  rootMarkers := none
  workspaceMode := none
  transportFlags := none
  memory := none
  session := some ⟨none, some 0⟩

/-- A round of the eviction loop without victims. -/
def emptyRound (call : CallId) : List ServingAction :=
  List.replicate 3 (.run (.daemon (.evictionLoop call) true))

/-- A client attaches before the first round. -/
def attachThenRound : List ServingAction :=
  (acquireUntilSpawn 0).map (fun a => .run (.daemon (.client a) true)) ++ [.run (.process 0)] ++
    ([.spawnReturns 0 (.ok .null), .sect 0, .sect 0] : List Action).map
      (fun a => .run (.daemon (.client a) true)) ++ emptyRound 1

theorem disabled_iff_attachThenRound :
    Always step Unstopped (ofConfig ([zeroLimit].foldl applyPartial defaultConfig))
      attachThenRound :=
  (disabled_iff [zeroLimit] rfl attachThenRound).mpr (by decide)

/-- The first round of a daemon that nobody has attached to stops it. -/
theorem zero_stops :
    ¬ ∀ ps : List PartialConfig,
      (ps.foldl applyPartial defaultConfig).session.daemonIdleTtlSecs = some 0 →
      ∀ as, Always step Unstopped (ofConfig (ps.foldl applyPartial defaultConfig)) as := by
  intro hall
  have hround := hall [zeroLimit] rfl (emptyRound 0)
  have hlast := always_last (emptyRound 0) _ _ rfl hround
  exact absurd hlast.signal (by decide)

end Serving

/-! ### A limit above zero -/

namespace Timed

/-- When the signal was sent the daemon had not been busy for as long as the
    limit. -/
def Punctual (s : Timed) : Prop :=
  ∀ t b ttl, s.signal = some (t, some b) → s.daemon.daemonIdleTtl = some ttl → b + ttl ≤ t

/-- What the rounds find. When a round ends without a session, and the first round that
    found none, since the last that found one, ended as long ago as the limit, no attach is
    in progress. And when the daemon ceases to be busy, while the loop runs, the last round
    that ended has found a session, or the first that found none ends only now. -/
def RoundsCond (s : Timed) (a : DaemonAction) : Prop :=
  (s.daemon.endsRound a = true → s.daemon.world.reg.sessionCount = 0 →
    ∀ ttl ∈ s.daemon.daemonIdleTtl, ∀ since ∈ s.emptySince, ttl ≤ s.daemon.world.now - since →
      s.daemon.world.calls.values.any Frame.attachInProgress = false) ∧
  ∀ d' ∈ s.daemon.step a, s.daemon.world.busy = true → d'.world.busy = false →
    s.daemon.evicts = true → ∀ since ∈ s.emptySince, s.daemon.world.now ≤ since

instance (s : Timed) (a : DaemonAction) : Decidable (RoundsCond s a) :=
  inferInstanceAs (Decidable (_ ∧ _))

/-- What the times kept beside the daemon say. -/
structure Timely (ttl : Duration) (s : Timed) : Prop where
  limit : s.daemon.daemonIdleTtl = some ttl
  /-- The loop's timer has run since the first of the rounds that found no session. -/
  timer : s.daemon.daemonIdleSince = s.emptySince
  stopped : s.daemon.shutdownSignalled = true → s.daemon.eviction = .stopped
  busy : s.daemon.world.busy = true → s.lastBusy = some s.daemon.world.now
  past : ∀ b, s.lastBusy = some b → b ≤ s.daemon.world.now
  quiet : s.daemon.evicts = true → s.daemon.world.busy = false →
    ∀ since, s.emptySince = some since → ∀ b, s.lastBusy = some b → b ≤ since

theorem timely_init (idleTtl : Duration) (settings : MemoryBudgetSettings) (ttl : Duration) :
    Timely ttl (init idleTtl settings ttl) where
  limit := rfl
  timer := rfl
  stopped := fun h => absurd (show false = true from h) Bool.false_ne_true
  busy := fun h => absurd (show false = true from h) Bool.false_ne_true
  past := fun b h => absurd h (by simp [init])
  quiet := fun _ _ _ _ b h => absurd h (by simp [init])

/-- What is kept of a step that ends no round. -/
theorem timely_kept (ttl : Duration) (s : Timed) (a : DaemonAction) (d' : Daemon)
    (h : Timely ttl s) (hd : s.daemon.step a = some d') (hkept : TimerKept s.daemon d')
    (hends : s.daemon.endsRound a = false) (hcond : RoundsCond s a) :
    Timely ttl (s.observe a d') := by
  have hnow : s.daemon.world.now ≤ d'.world.now := by
    rcases hkept.steady with hsame | ⟨_, hle⟩
    · exact Nat.le_of_eq hsame.symm
    · exact hle
  have hempty : (s.observe a d').emptySince = s.emptySince := by
    simp only [observe, hends, Bool.false_eq_true, if_false]
  have hevicts : d'.evicts = true → s.daemon.evicts = true := by
    intro hruns
    cases hpc : s.daemon.eviction with
    | stopped =>
        rw [Daemon.evicts, hkept.stopped hpc] at hruns
        cases hruns
    | _ => simp only [Daemon.evicts, hpc]
  constructor
  · exact hkept.ttl.trans h.limit
  · rw [hempty]
    exact hkept.idleSince.trans h.timer
  · exact fun hs => hkept.stopped (h.stopped (hkept.signalled ▸ hs))
  · intro hbusy
    simp only [observe] at hbusy ⊢
    rw [if_pos hbusy]
  · intro b hb
    simp only [observe] at hb ⊢
    split at hb
    · rw [Option.some.injEq] at hb
      exact Nat.le_of_eq hb.symm
    · exact Nat.le_trans (h.past b hb) hnow
  · intro hruns hquiet since hsince b hb
    rw [hempty] at hsince
    simp only [observe] at hruns hquiet hb
    rw [hquiet, if_neg (by simp)] at hb
    cases hbusy : s.daemon.world.busy with
    | false => exact h.quiet (hevicts hruns) hbusy since hsince b hb
    | true =>
        -- It ceases now, and no round has missed it.
        rw [h.busy hbusy, Option.some.injEq] at hb
        rw [← hb]
        exact hcond.2 d' hd hbusy hquiet (hevicts hruns) since hsince

/-- What is kept of the end of a round. -/
theorem timely_round (ttl : Duration) (s : Timed) (a : DaemonAction) (h : Timely ttl s)
    (hends : s.daemon.endsRound a = true) (hruns : s.daemon.evicts = true) :
    Timely ttl (s.observe a s.daemon.finishRound) := by
  rcases finishRound_kept s.daemon with ⟨hworld, httl⟩
  have hlast : (s.observe a s.daemon.finishRound).lastBusy = s.lastBusy := by
    simp only [observe, hworld]
    split
    · exact (h.busy ‹_›).symm
    · rfl
  -- A loop that has sent the signal has stopped.
  have hunsent : s.daemon.shutdownSignalled = false := by
    refine Bool.not_eq_true _ ▸ fun hsent => ?_
    rw [Daemon.evicts, h.stopped hsent] at hruns
    cases hruns
  constructor
  · exact httl.trans h.limit
  · -- the timer goes by what the rounds find
    by_cases hcount : s.daemon.world.reg.sessionCount = 0
    · rw [show (s.observe a s.daemon.finishRound).daemon = s.daemon.finishRound from rfl,
        (finishRound_idle s.daemon ttl h.limit hcount).2.2.1, h.timer]
      simp only [observe, hends, hcount, if_true]
    · simp only [observe, hends, hcount, if_true, if_false,
        finishRound_used s.daemon ttl h.limit hcount]
  · intro hsent
    simp only [observe] at hsent ⊢
    by_cases hcount : s.daemon.world.reg.sessionCount = 0
    · rcases finishRound_idle s.daemon ttl h.limit hcount with ⟨_, _, _, hsignalled, hstopped⟩
      -- The signal is sent now, and the loop stops with it.
      rw [hsent, hunsent, Bool.or_false] at hsignalled
      exact hstopped (of_decide_eq_true hsignalled.symm)
    · rw [finishRound_used s.daemon ttl h.limit hcount] at hsent
      exact absurd (hunsent.symm.trans hsent) (by simp)
  · intro hbusy
    rw [hlast]
    simp only [observe, hworld] at hbusy ⊢
    exact h.busy hbusy
  · intro b hb
    rw [hlast] at hb
    simp only [observe, hworld]
    exact h.past b hb
  · intro _ hquiet since hsince b hb
    rw [hlast] at hb
    simp only [observe, hworld, hends, if_true] at hquiet hsince
    split at hsince
    swap
    · cases hsince
    rw [Option.some.injEq] at hsince
    -- The quiet begins with this round, or has begun before.
    cases hempty : s.emptySince with
    | none =>
        rw [hempty, Option.getD_none] at hsince
        rw [← hsince]
        exact h.past b hb
    | some first =>
        rw [hempty, Option.getD_some] at hsince
        rw [← hsince]
        exact h.quiet hruns hquiet first hempty b hb

/-- A step that sends no signal leaves what was kept of it. -/
theorem punctual_kept (s : Timed) (a : DaemonAction) (d' : Daemon) (h : Punctual s)
    (hsignalled : d'.shutdownSignalled = s.daemon.shutdownSignalled)
    (httl : d'.daemonIdleTtl = s.daemon.daemonIdleTtl) : Punctual (s.observe a d') := by
  intro t b ttl hsignal hlimit
  simp only [observe, hsignalled, Bool.and_not_self, Bool.false_eq_true, if_false] at hsignal
  exact h t b ttl hsignal (httl ▸ hlimit)

/-- A round that sends the signal sends it in time. -/
theorem punctual_round (ttl : Duration) (httl : 0 < ttl) (s : Timed) (a : DaemonAction)
    (h : Timely ttl s) (hpunctual : Punctual s) (hends : s.daemon.endsRound a = true)
    (hruns : s.daemon.evicts = true) (hcond : RoundsCond s a) :
    Punctual (s.observe a s.daemon.finishRound) := by
  rcases finishRound_kept s.daemon with ⟨hworld, hkept⟩
  by_cases hcount : s.daemon.world.reg.sessionCount = 0
  swap
  · refine punctual_kept s a _ hpunctual ?_ hkept
    rw [finishRound_used s.daemon ttl h.limit hcount]
  rcases finishRound_idle s.daemon ttl h.limit hcount with ⟨_, _, _, hsignalled, _⟩
  by_cases hreached : ttl ≤ s.daemon.world.now - s.daemon.daemonIdleSince.getD s.daemon.world.now
  swap
  · refine punctual_kept s a _ hpunctual ?_ hkept
    rw [hsignalled, decide_eq_false hreached, Bool.false_or]
  rw [h.timer] at hreached
  cases hsince : s.emptySince with
  | none =>
      -- The timer would start now, which is not the limit.
      rw [hsince, Option.getD_none, Nat.sub_self] at hreached
      exact absurd hreached (Nat.not_le.mpr httl)
  | some since =>
      rw [hsince, Option.getD_some] at hreached
      have hattach := hcond.1 hends hcount ttl h.limit since hsince hreached
      have hquiet : s.daemon.world.busy = false := by
        rw [World.busy, hattach, hcount]
        rfl
      intro t b ttl' hsignal hlimit
      have hl : ttl' = ttl :=
        Option.some.inj (hlimit.symm.trans (hkept.trans h.limit))
      simp only [observe] at hsignal
      split at hsignal
      · rw [Option.some.injEq, Prod.mk.injEq, hworld] at hsignal
        have hle := h.quiet hruns hquiet since hsince b hsignal.2
        have hsince' : since ≤ s.daemon.world.now :=
          Nat.le_of_lt (Nat.lt_of_sub_pos (Nat.lt_of_lt_of_le httl hreached))
        have hlimit' : since + ttl ≤ s.daemon.world.now := by
          rw [Nat.add_comm]
          exact Nat.add_le_of_le_sub hsince' hreached
        rw [hl, ← hsignal.1]
        exact Nat.le_trans (Nat.add_le_add_right hle ttl) hlimit'
      · exact hpunctual t b ttl' hsignal (hl ▸ h.limit)

theorem timely_step (ttl : Duration) (httl : 0 < ttl) (s s' : Timed) (a : DaemonAction)
    (h : Timely ttl s ∧ Punctual s) (hstep : s.step a = some s') (hcond : RoundsCond s a) :
    Timely ttl s' ∧ Punctual s' := by
  rcases Option.map_eq_some_iff.mp hstep with ⟨d', hd, rfl⟩
  rcases daemon_cases s.daemon d' a hd with ⟨⟨call, ha⟩, hround, hd'⟩ | ⟨hnot, hkept⟩
  · have hends : s.daemon.endsRound a = true := by
      rw [ha]
      exact hround
    have hruns : s.daemon.evicts = true := by
      unfold Daemon.roundEnds at hround
      unfold Daemon.evicts
      split at hround
      · rename_i hpc
        rw [hpc]
      · cases hround
    rw [hd']
    exact ⟨timely_round ttl s a h.1 hends hruns,
      punctual_round ttl httl s a h.1 h.2 hends hruns hcond⟩
  · have hends : s.daemon.endsRound a = false := by
      cases a with
      | evictionLoop call => exact hnot call rfl
      | _ => rfl
    exact ⟨timely_kept ttl s a d' h.1 hd hkept hends hcond,
      punctual_kept s a d' h.2 hkept.signalled hkept.ttl⟩

/-- The signal is sent in time in every run in which the rounds find what there is: no
    attach is in progress when a round ends without a session, the limit after the first
    that did; and when nothing is left of what was there, the last round has found a
    session. -/
theorem punctual_of_rounds (idleTtl : Duration) (settings : MemoryBudgetSettings)
    (ttl : Duration) (httl : 0 < ttl) (as : List DaemonAction)
    (hcond : Along step RoundsCond (init idleTtl settings ttl) as) :
    Always step Punctual (init idleTtl settings ttl) as := by
  have hpunctual : Punctual (init idleTtl settings ttl) := by
    intro t b ttl' h
    exact absurd h (by simp [init])
  exact always_of_invariant (I := fun s => Timely ttl s ∧ Punctual s)
    (fun s a s' h hstep hC => timely_step ttl httl s s' a h hstep hC) (fun s h => h.2) as _
    ⟨timely_init idleTtl settings ttl, hpunctual⟩ hcond

/-- No limit on memory. -/
def unlimited : MemoryBudgetSettings := ⟨none, none, 1⟩

/-- A round of the eviction loop without victims. -/
def idleRound (call : CallId) : List DaemonAction := List.replicate 3 (.evictionLoop call)

/-- A round that evicts one session. -/
def evictingRound : List DaemonAction :=
  [3, 3, 4, 4, 4, 4, 5, 5, 6].map .evictionLoop

/-- A client attaches, a round finds its session, the client releases its lease, and a
    round evicts the session. The next round comes the limit after it, and sends the
    signal. -/
def foundAndEvicted : List DaemonAction :=
  (acquireFresh 0 ++ [Action.sect 0, Action.tick 1]).map .client ++ idleRound 1 ++
    (releaseAll 2 "lease_1" ++ [Action.tick 300]).map .client ++ evictingRound ++
    .client (.tick 5) :: idleRound 7

theorem foundAndEvicted_isSome :
    (run step (init 300 unlimited 5) foundAndEvicted).isSome = true := by
  decide

theorem punctual_of_rounds_foundAndEvicted :
    Always step Punctual (init 300 unlimited 5) foundAndEvicted ∧
      ((run step (init 300 unlimited 5) foundAndEvicted).get foundAndEvicted_isSome).signal =
        some (306, some 301) :=
  ⟨punctual_of_rounds 300 unlimited 5 (by decide) foundAndEvicted (by decide), by decide⟩

/-- A client attaches, and the spawn takes as long as the limit. -/
def attachForLong : List DaemonAction :=
  (acquireUntilSpawn 0).map .client ++ [.client (.tick 5)] ++ idleRound 1

theorem attachForLong_isSome :
    (run step (init 300 unlimited 5) attachForLong).isSome = true := by
  decide

/-- The daemon stops in the middle of an attach. -/
theorem stops_during_attach :
    ¬ ∀ (idleTtl : Duration) (settings : MemoryBudgetSettings) (ttl : Duration), 0 < ttl →
      ∀ as, Always step Punctual (init idleTtl settings ttl) as := by
  intro hall
  have halways := hall 300 unlimited 5 (by decide) attachForLong
  have hlast := always_last _ _ _ (Option.some_get attachForLong_isSome).symm halways
  exact absurd (hlast 5 5 5 rfl rfl) (by decide)

end Timed

end Lspee
