import Lspee.Lib.Reaching
import Lspee.Theory.Gates
import Lspee.Theory.Identity

/-!
# Registry Calls Come to Their End

Whether the calls of the registry can all be brought to their end. A call goes on by
its own sections and by what it awaits outside the registry, the spawn closure and the
answer of the runtime. These need not come: a server that has exited answers nobody. An
`Outside` says what comes, and nothing else returns in the runs below. The one thing
that holds up a call beside that is another acquire: one that has started the gate and
not yet cleared it.

The invariant of the gates says that such an acquire is there whenever a gate is
started. It is brought to clear the gate first (`clears`), and from then on nothing
is in the way of the call (`finishes_lookup`). So if the closures return, every call
can be finished whose own answer comes, with the help of at most one other
(`finishes`); and if all that is awaited comes, one after the other all of them can
(`comes_to_rest`).

## Main definitions

* `Outside`: What comes from outside the registry.
* `CallKind`, `Frame.kind`: The methods that a connection awaits.
* `Frame.settled`: The call has returned what its caller awaits.
* `Helped`: The action moves one of two calls.
* `Finishes`: The call can be brought to its end.

## Theorems

* `kind_step`: A call stays one of its method.
* `clears`: A started gate can be cleared.
* `finishes_behind`: An acquire that has its gate can be finished.
* `finishes`: Every call can be finished.
* `comes_to_rest`: From every reachable state the registry can come to rest.
-/

namespace Lspee

open Transition

/-- The call has returned what its caller awaits. -/
def Frame.settled : Frame → Bool
  | .acquire _ _ (.returned (.error _)) => true
  | .acquire _ _ _ => false
  | .attached _ _ => true
  | .release _ (.returned _) => true
  | .release _ _ => false
  | .remove _ .returned => true
  | .remove _ _ => false
  | .forward _ _ _ (.returned _) => true
  | .forward _ _ _ _ => false
  | .touch _ returned => returned
  | .mark _ _ returned => returned
  | .idle _ result => result.isSome
  | .increment _ returned => returned
  | .crash returned => returned

theorem Frame.inFlight_of_settled (frame : Frame) (h : frame.settled = true) :
    frame.inFlight = false := by
  cases frame with
  | acquire key clientKind pc =>
      cases pc with
      | returned result => rfl
      | _ => cases h
  | release id pc => cases pc <;> first | rfl | cases h
  | remove key pc => cases pc <;> first | rfl | cases h
  | forward kind id message pc => cases pc <;> first | rfl | cases h
  | attached lease handle => rfl
  | idle start result => cases result <;> first | rfl | cases h
  | _ => simp_all [settled, inFlight]

/-! ### What is awaited outside the registry -/

/-- What the calls get from outside the registry: the result of the spawn closure, and what
    the runtime answers. None is what never comes. -/
structure Outside where
  spawned : CallId → Option (Except String Json)
  answered : CallId → Option (Except String Json)

namespace Outside

/-- Nothing returns in the step but what comes. -/
def Permits (o : Outside) : Action → Prop
  | .spawnReturns call result => o.spawned call = some result
  | .runtimeReturns call result => o.answered call = some result
  | _ => True

/-- What the call awaits comes. -/
def Serves (o : Outside) (call : CallId) : Frame → Prop
  | .acquire _ _ _ => (o.spawned call).isSome = true
  | .forward _ _ _ _ => (o.answered call).isSome = true
  | _ => True

/-- The spawn closures return. -/
def Spawns (o : Outside) (w : World) : Prop :=
  ∀ call key clientKind pc, w.calls.get? call = some (.acquire key clientKind pc) →
    (o.spawned call).isSome = true

end Outside

/-- The methods that a connection awaits, and all others. -/
inductive CallKind where
  | attach
  | release
  | forward
  | other
deriving DecidableEq

def Frame.kind : Frame → CallKind
  | .acquire _ _ _ => .attach
  | .attached _ _ => .attach
  | .release _ _ => .release
  | .forward _ _ _ _ => .forward
  | _ => .other

namespace World

@[simp] theorem moved_calls (w : World) (call : CallId) (r : SessionRegistry) (frame : Frame)
    (events : List Event) : (w.moved call r frame events).calls.get? call = some frame :=
  Table.get?_set_self _ _ _

/-! ### What a call stays -/

theorem kind_section (call : CallId) (now : Instant) (r r' : SessionRegistry)
    (frame frame' : Frame) (events : List Event)
    (h : frame.section call now r = some (r', frame', events)) : frame'.kind = frame.kind := by
  cases frame with
  | acquire key clientKind pc =>
      rcases section_acquire call now r r' key clientKind pc frame' events h with
        ⟨lease, _, _, hframe, _⟩ | ⟨pc', _, hframe⟩
      · rw [hframe]
        rfl
      · rw [hframe]
        rfl
  | attached lease handle => cases h
  | release id pc =>
      rcases Option.map_eq_some_iff.mp h with ⟨⟨r₁, pc'⟩, _, heq⟩
      simp only [Prod.mk.injEq] at heq
      rw [← heq.2.1]
      rfl
  | remove key pc =>
      rcases Option.map_eq_some_iff.mp h with ⟨⟨r₁, pc'⟩, _, heq⟩
      simp only [Prod.mk.injEq] at heq
      rw [← heq.2.1]
      rfl
  | forward kind id message pc =>
      rcases Option.map_eq_some_iff.mp h with ⟨⟨r₁, pc', events'⟩, _, heq⟩
      simp only [Prod.mk.injEq] at heq
      rw [← heq.2.1]
      rfl
  | idle start result =>
      cases result with
      | none => simp only [Frame.section, Option.some.injEq, Prod.mk.injEq] at h; rw [← h.2.1]; rfl
      | some result => cases h
  -- The others have one section.
  | touch key returned => cases returned <;> cases h; rfl
  | mark key notice returned => cases returned <;> cases h; rfl
  | increment evictor returned => cases returned <;> cases h; rfl
  | crash returned => cases returned <;> cases h; rfl

/-- A call stays a call of its method. -/
theorem kind_step (w w' : World) (a : Action) (hstep : w.step a = some w') (call : CallId)
    (frame : Frame) (hcall : w.calls.get? call = some frame) :
    ∃ frame', w'.calls.get? call = some frame' ∧ frame'.kind = frame.kind := by
  -- Another call's step leaves this one where it is.
  by_cases hmover : a.mover = some call
  · cases a with
    | tick span => cases hmover
    | start c method => cases hmover
    | sect c =>
        rw [Action.mover, Option.some.injEq] at hmover
        simp only [step, hmover, hcall, Option.map_eq_some_iff, Prod.exists] at hstep
        rcases hstep with ⟨r', frame', events, hsec, rfl⟩
        exact ⟨frame', moved_calls .., kind_section call w.now w.reg r' frame frame' events hsec⟩
    | spawnReturns c result =>
        rw [Action.mover, Option.some.injEq] at hmover
        simp only [step, hmover, hcall] at hstep
        split at hstep
        · rename_i key clientKind g heq
          rw [Option.some.injEq] at heq hstep
          rw [← hstep, heq]
          cases result with
          | ok initializeResult => exact ⟨_, Table.get?_set_self _ _ _, rfl⟩
          | error error => exact ⟨_, Table.get?_set_self _ _ _, rfl⟩
        · cases hstep
    | runtimeReturns c result =>
        rw [Action.mover, Option.some.injEq] at hmover
        simp only [step, hmover, hcall] at hstep
        split at hstep
        · rename_i kind id message key runtime heq
          rw [Option.some.injEq] at heq hstep
          rw [← hstep, heq]
          cases result with
          | ok response => exact ⟨_, Table.get?_set_self _ _ _, rfl⟩
          | error error => exact ⟨_, Table.get?_set_self _ _ _, rfl⟩
        · cases hstep
  · exact ⟨frame, calls_step w w' a hstep call frame hcall hmover, rfl⟩

theorem kind_reaches {A : Action → Prop} (w w' : World) (hreach : Reaches step A w w')
    (call : CallId) (frame : Frame) (hcall : w.calls.get? call = some frame) :
    ∃ frame', w'.calls.get? call = some frame' ∧ frame'.kind = frame.kind :=
  reaches_invariant
    (I := fun u => ∃ frame', u.calls.get? call = some frame' ∧ frame'.kind = frame.kind)
    (fun u a u' ⟨frame', hframe', hkind'⟩ hstep _ => by
      rcases kind_step u u' a hstep call frame' hframe' with ⟨frame'', hframe'', hkind''⟩
      exact ⟨frame'', hframe'', hkind''.trans hkind'⟩)
    w w' hreach ⟨frame, hcall, rfl⟩

theorem section_settled (call : CallId) (now : Instant) (r : SessionRegistry) (frame : Frame)
    (h : frame.settled = true) : frame.section call now r = none := by
  cases frame with
  | acquire key clientKind pc =>
      cases pc with
      | returned result =>
          cases result with
          | error error => rfl
          | ok lease => cases h
      | _ => cases h
  | attached lease handle => rfl
  | release id pc => cases pc <;> first | rfl | cases h
  | remove key pc => cases pc <;> first | rfl | cases h
  | forward kind id message pc => cases pc <;> first | rfl | cases h
  | idle start result => cases result <;> first | rfl | cases h
  | _ => simp_all [Frame.settled, Frame.section]

/-- A call that is at its end stays there. -/
theorem settled_step (w w' : World) (a : Action) (hstep : w.step a = some w') (call : CallId)
    (frame : Frame) (hcall : w.calls.get? call = some frame) (h : frame.settled = true) :
    w'.calls.get? call = some frame := by
  by_cases hmover : a.mover = some call
  · rcases sect_of_mover w w' a call frame hmover hcall
      (by rintro key clientKind g rfl; cases h) (by rintro kind id message key runtime rfl; cases h)
      hstep with ⟨r', frame', events, hsec, _⟩
    rw [section_settled call w.now w.reg frame h] at hsec
    cases hsec
  · exact calls_step w w' a hstep call frame hcall hmover

/-- A step that moves a call begins none. -/
theorem begun_step (w w' : World) (a : Action) (hstep : w.step a = some w')
    (hmoves : a.mover.isSome = true) (call : CallId) (frame : Frame)
    (hcall : w'.calls.get? call = some frame) : ∃ frame', w.calls.get? call = some frame' := by
  rcases Option.isSome_iff_exists.mp hmoves with ⟨c, hmover⟩
  by_cases hc : c = call
  · rw [← hc]
    exact mover_isSome w w' a hstep c hmover
  · -- another call is left as it was
    cases hold : w.calls.get? call with
    | some frame' => exact ⟨frame', rfl⟩
    | none =>
        have hkept : w'.calls.get? call = none := by
          cases step_effect w w' a hstep with
          | tick span => exact hold
          | start c' method hfree => cases hmover
          | spawnOk c' key clientKind g initializeResult hcall' =>
              rw [Action.mover, Option.some.injEq] at hmover
              exact (Table.get?_set_ne _ _ _ _ (hmover ▸ Ne.symm hc)).trans hold
          | move _ c' frame₀ frame' r' events hmover' hcall' heffect =>
              rw [hmover, Option.some.injEq] at hmover'
              exact (Table.get?_set_ne _ _ _ _ (hmover' ▸ Ne.symm hc)).trans hold
        rw [hkept] at hcall
        cases hcall

/-- A call that is an acquire now was one before. -/
theorem acquire_before (w w' : World) (a : Action) (hstep : w.step a = some w')
    (hmoves : a.mover.isSome = true) (call : CallId) (key : SessionKey)
    (clientKind : Option ClientKind) (pc : AcquirePc)
    (hcall : w'.calls.get? call = some (.acquire key clientKind pc)) :
    ∃ key' clientKind' pc', w.calls.get? call = some (.acquire key' clientKind' pc') := by
  rcases begun_step w w' a hstep hmoves call _ hcall with ⟨frame, hold⟩
  rcases kind_step w w' a hstep call frame hold with ⟨frame', hframe', hkind⟩
  rw [hcall, Option.some.injEq] at hframe'
  rw [← hframe'] at hkind
  cases frame with
  | acquire key' clientKind' pc' => exact ⟨key', clientKind', pc', hold⟩
  | attached lease handle =>
      rw [settled_step w w' a hstep call _ hold rfl] at hcall
      cases hcall
  | _ => cases hkind

theorem spawns_step (w w' : World) (a : Action) (hstep : w.step a = some w')
    (hmoves : a.mover.isSome = true) (o : Outside) (h : o.Spawns w) : o.Spawns w' := by
  intro call key clientKind pc hcall
  rcases acquire_before w w' a hstep hmoves call key clientKind pc hcall with ⟨_, _, _, hold⟩
  exact h call _ _ _ hold

/-- What a call awaits is the same all along. -/
theorem serves_step (w w' : World) (a : Action) (hstep : w.step a = some w')
    (hmoves : a.mover.isSome = true) (o : Outside)
    (h : ∀ call frame, w.calls.get? call = some frame → o.Serves call frame) :
    ∀ call frame, w'.calls.get? call = some frame → o.Serves call frame := by
  intro call frame' hcall
  rcases begun_step w w' a hstep hmoves call frame' hcall with ⟨frame, hold⟩
  rcases kind_step w w' a hstep call frame hold with ⟨frame'', hframe'', hkind⟩
  rw [hcall, Option.some.injEq] at hframe''
  subst hframe''
  cases frame' with
  | acquire key clientKind pc =>
      rcases acquire_before w w' a hstep hmoves call key clientKind pc hcall with ⟨_, _, _, hbefore⟩
      have hserved := h call _ hbefore
      exact hserved
  | forward kind id message pc =>
      cases frame with
      | forward kind' id' message' pc' =>
          have hserved := h call _ hold
          exact hserved
      | _ => cases hkind
  | _ => trivial

/-! ### Calls that can be finished -/

/-- The action moves the call, or the one that helps it. -/
def Helped (o : Outside) (call helper : CallId) (a : Action) : Prop :=
  (a.mover = some call ∨ a.mover = some helper) ∧ o.Permits a

/-- The call can be brought to its end, by steps of its own and of one other call. -/
def Finishes (w : World) (o : Outside) (call helper : CallId) : Prop :=
  ∃ w' frame, Reaches step (Helped o call helper) w w' ∧ w'.calls.get? call = some frame ∧
    frame.settled = true

variable {o : Outside}

theorem finishes_settled (w : World) (call helper : CallId) (frame : Frame)
    (hcall : w.calls.get? call = some frame) (h : frame.settled = true) :
    w.Finishes o call helper :=
  ⟨w, frame, reaches_refl w, hcall, h⟩

theorem finishes_trans (w w' : World) (call helper : CallId)
    (hreach : Reaches step (Helped o call helper) w w') (h : w'.Finishes o call helper) :
    w.Finishes o call helper := by
  rcases h with ⟨w'', frame, hreach', hcall, hsettled⟩
  exact ⟨w'', frame, reaches_trans w w' w'' hreach hreach', hcall, hsettled⟩

theorem step_sect (w : World) (call : CallId) (frame frame' : Frame) (r' : SessionRegistry)
    (events : List Event) (hcall : w.calls.get? call = some frame)
    (hsec : frame.section call w.now w.reg = some (r', frame', events)) :
    w.step (.sect call) = some (w.moved call r' frame' events) := by
  simp only [step, hcall, hsec, Option.map_some]

/-- A call runs its next section, and is finished from there. -/
theorem finishes_sect (w : World) (call helper : CallId) (frame frame' : Frame)
    (r' : SessionRegistry) (events : List Event) (hcall : w.calls.get? call = some frame)
    (hsec : frame.section call w.now w.reg = some (r', frame', events))
    (h : (w.moved call r' frame' events).Finishes o call helper) : w.Finishes o call helper :=
  finishes_trans w _ call helper
    (reaches_step w _ (.sect call) ⟨.inl rfl, trivial⟩
      (step_sect w call frame frame' r' events hcall hsec))
    h

/-- A closure that has returned leaves its gate next, and touches nothing else. -/
theorem spawnReturn_leaves (w : World) (call : CallId) (key : SessionKey)
    (clientKind : Option ClientKind) (g : GateId) (result : Except String Json) :
    ∃ result', (w.spawnReturn call key clientKind g result).calls =
        w.calls.set call (.acquire key clientKind (.leave g result')) ∧
      (w.spawnReturn call key clientKind g result).reg = w.reg := by
  cases result with
  | ok initializeResult => exact ⟨_, rfl, rfl⟩
  | error error => exact ⟨_, rfl, rfl⟩

/-! ### An acquire whose gate is free -/

section Acquire

variable (w : World) (call helper : CallId) (key : SessionKey) (clientKind : Option ClientKind)

theorem finishes_returned (result : Except String Lease)
    (hcall : w.calls.get? call = some (.acquire key clientKind (.returned result))) :
    w.Finishes o call helper := by
  cases result with
  | error error => exact finishes_settled w call helper _ hcall rfl
  | ok lease =>
      exact finishes_sect w call helper _ _ _ _ hcall rfl
        (finishes_settled _ call helper _ (moved_calls ..) rfl)

theorem finishes_publish (handle : SessionHandle)
    (hcall : w.calls.get? call = some (.acquire key clientKind (.publish handle))) :
    w.Finishes o call helper :=
  finishes_sect w call helper _ _ _ _ hcall rfl
    (finishes_returned _ call helper key clientKind _ (moved_calls ..))

theorem finishes_leave (g : GateId) (result : Except String SessionHandle)
    (hcall : w.calls.get? call = some (.acquire key clientKind (.leave g result))) :
    w.Finishes o call helper := by
  cases result with
  | ok handle =>
      exact finishes_sect w call helper _ _ _ _ hcall rfl
        (finishes_publish _ call helper key clientKind handle (moved_calls ..))
  | error error =>
      refine finishes_sect w call helper _ _ _ _ hcall rfl ?_
      exact finishes_sect _ call helper _ _ _ _ (moved_calls ..) rfl
        (finishes_returned _ call helper key clientKind _ (moved_calls ..))

theorem finishes_spawning (hspawned : (o.spawned call).isSome = true) (g : GateId)
    (hcall : w.calls.get? call = some (.acquire key clientKind (.spawning g))) :
    w.Finishes o call helper := by
  rcases Option.isSome_iff_exists.mp hspawned with ⟨result, hresult⟩
  have hstep : w.step (.spawnReturns call result) =
      some (w.spawnReturn call key clientKind g result) := by
    simp only [step, hcall]
  rcases spawnReturn_leaves w call key clientKind g result with ⟨result', hcalls, _⟩
  refine finishes_trans w _ call helper
    (reaches_step w _ (.spawnReturns call result) ⟨.inl rfl, hresult⟩ hstep)
    (finishes_leave _ call helper key clientKind g result' ?_)
  rw [hcalls]
  exact Table.get?_set_self _ _ _

theorem finishes_enter (hspawned : (o.spawned call).isSome = true) (g : GateId)
    (hfree : (w.reg.gateHeap g).started = false)
    (hcall : w.calls.get? call = some (.acquire key clientKind (.enter g))) :
    w.Finishes o call helper := by
  have hsec : (Frame.acquire key clientKind (.enter g)).section call w.now w.reg =
      some ((w.reg.enterGate g).1, .acquire key clientKind (.spawning g),
        [.spawnCalled call key]) := by
    simp [Frame.section, AcquirePc.section, SessionRegistry.enterGate, hfree]
  exact finishes_sect w call helper _ _ _ _ hcall hsec
    (finishes_spawning _ call helper key clientKind hspawned g (moved_calls ..))

/-- An acquire that looks the session up while its gate is free: it takes the
    session, or spawns one. -/
theorem finishes_lookup (hspawned : (o.spawned call).isSome = true) (g : GateId)
    (hfree : (w.reg.gateHeap g).started = false)
    (hcall : w.calls.get? call = some (.acquire key clientKind (.lookup g))) :
    w.Finishes o call helper := by
  cases hsession : w.reg.sessions.get? key with
  | some record =>
      have hsec : (Frame.acquire key clientKind (.lookup g)).section call w.now w.reg =
          some ((w.reg.reuseSession key clientKind record w.now).1,
            .acquire key clientKind
              (.returned (.ok (w.reg.reuseSession key clientKind record w.now).2)),
            [.granted call (w.reg.reuseSession key clientKind record w.now).2
              record.handle.runtime]) := by
        simp [Frame.section, AcquirePc.section, hsession]
      exact finishes_sect w call helper _ _ _ _ hcall hsec
        (finishes_returned _ call helper key clientKind _ (moved_calls ..))
  | none =>
      have hsec : (Frame.acquire key clientKind (.lookup g)).section call w.now w.reg =
          some (w.reg, .acquire key clientKind (.enter g), []) := by
        simp [Frame.section, AcquirePc.section, hsession]
      exact finishes_sect w call helper _ _ _ _ hcall hsec
        (finishes_enter _ call helper key clientKind hspawned g hfree (moved_calls ..))

/-- So is one that has waited and been woken. -/
theorem finishes_waiting (hspawned : (o.spawned call).isSome = true) (g : GateId) (epoch : Nat)
    (hfree : (w.reg.gateHeap g).started = false) (hwoken : epoch < (w.reg.gateHeap g).notify)
    (hcall : w.calls.get? call = some (.acquire key clientKind (.waiting g epoch))) :
    w.Finishes o call helper := by
  have hsec : (Frame.acquire key clientKind (.waiting g epoch)).section call w.now w.reg =
      some (w.reg, .acquire key clientKind (.lookup g), []) := by
    simp [Frame.section, AcquirePc.section, hwoken]
  exact finishes_sect w call helper _ _ _ _ hcall hsec
    (finishes_lookup _ call helper key clientKind hspawned g hfree (moved_calls ..))

end Acquire

/-! ### The other acquire -/

/-- The gate is cleared, and nothing else is done to those who have it. -/
structure Cleared (w w' : World) (g : GateId) : Prop where
  free : (w'.reg.gateHeap g).started = false
  woken : (w.reg.gateHeap g).notify < (w'.reg.gateHeap g).notify
  others : ∀ call frame, w.calls.get? call = some frame → frame.busy = none →
    w'.calls.get? call = some frame

theorem cleared_leave (w : World) (spawner : CallId) (key : SessionKey)
    (clientKind : Option ClientKind) (g : GateId) (result : Except String SessionHandle)
    (hcall : w.calls.get? spawner = some (.acquire key clientKind (.leave g result))) :
    ∃ w', w.step (.sect spawner) = some w' ∧ w.Cleared w' g := by
  have hothers : ∀ (frame' : Frame) call frame, w.calls.get? call = some frame →
      frame.busy = none → (w.calls.set spawner frame').get? call = some frame := by
    intro frame' call frame hget hbusy
    refine (Table.get?_set_ne _ _ _ _ ?_).trans hget
    rintro rfl
    rw [hcall, Option.some.injEq] at hget
    rw [← hget] at hbusy
    cases hbusy
  have hsec : ∃ frame', (Frame.acquire key clientKind (.leave g result)).section spawner w.now
      w.reg = some (w.reg.leaveGate g, frame', []) := by
    cases result with
    | ok handle => exact ⟨_, rfl⟩
    | error error => exact ⟨_, rfl⟩
  rcases hsec with ⟨frame', hsec⟩
  refine ⟨_, step_sect w spawner _ frame' _ _ hcall hsec, ?_, ?_, hothers frame'⟩
  · simp [moved, SessionRegistry.leaveGate]
  · simp [moved, SessionRegistry.leaveGate]

/-- A gate that is started can be cleared, by the one acquire that has started it. -/
theorem clears (w : World) (h : GateInv w) (hspawns : o.Spawns w) (g : GateId)
    (hstarted : (w.reg.gateHeap g).started = true) :
    ∃ spawner w', Reaches step (fun a => a.mover = some spawner ∧ o.Permits a) w w' ∧
      w.Cleared w' g := by
  rcases h.watched g hstarted with ⟨spawner, frame, key, hcall, hbusy⟩
  unfold Frame.busy at hbusy
  split at hbusy
  · -- the closure is in progress: it returns, and the gate is cleared
    rename_i key' clientKind g'
    simp only [Option.some.injEq, Prod.mk.injEq] at hbusy
    rcases hbusy with ⟨rfl, rfl⟩
    rcases Option.isSome_iff_exists.mp (hspawns spawner _ _ _ hcall) with ⟨result, hresult⟩
    have hstep : w.step (.spawnReturns spawner result) =
        some (w.spawnReturn spawner key' clientKind g' result) := by
      simp only [step, hcall]
    rcases spawnReturn_leaves w spawner key' clientKind g' result with ⟨result', hcalls, hreg⟩
    rcases cleared_leave _ spawner key' clientKind g' result'
      (by rw [hcalls]; exact Table.get?_set_self _ _ _) with ⟨w', hleave, hcleared⟩
    refine ⟨spawner, w', reaches_trans _ _ _
      (reaches_step _ _ (.spawnReturns spawner result) ⟨rfl, hresult⟩ hstep)
      (reaches_step _ _ (.sect spawner) ⟨rfl, trivial⟩ hleave), hcleared.free,
      hreg ▸ hcleared.woken, ?_⟩
    intro call frame hget hnone
    refine hcleared.others call frame ?_ hnone
    rw [hcalls]
    refine (Table.get?_set_ne _ _ _ _ ?_).trans hget
    rintro rfl
    rw [hcall, Option.some.injEq] at hget
    rw [← hget] at hnone
    cases hnone
  -- The closure has returned, and the gate is cleared next.
  · rename_i key' clientKind g' result
    simp only [Option.some.injEq, Prod.mk.injEq] at hbusy
    rcases hbusy with ⟨rfl, rfl⟩
    rcases cleared_leave w spawner key' clientKind g' result hcall with ⟨w', hleave, hcleared⟩
    exact ⟨spawner, w', reaches_step _ _ (.sect spawner) ⟨rfl, trivial⟩ hleave, hcleared⟩
  · cases hbusy

/-- A gate is free, or is made so. -/
theorem frees (w : World) (h : GateInv w) (hspawns : o.Spawns w) (g : GateId) :
    ∃ spawner w', Reaches step (fun a => a.mover = some spawner ∧ o.Permits a) w w' ∧
      (w'.reg.gateHeap g).started = false ∧
      ((w.reg.gateHeap g).started = true → (w.reg.gateHeap g).notify < (w'.reg.gateHeap g).notify) ∧
      (w.reg.gateHeap g).notify ≤ (w'.reg.gateHeap g).notify ∧
      ∀ call frame, w.calls.get? call = some frame → frame.busy = none →
        w'.calls.get? call = some frame := by
  cases hstarted : (w.reg.gateHeap g).started with
  | false =>
      exact ⟨0, w, reaches_refl w, hstarted, fun hc => (by cases hc), Nat.le_refl _,
        fun call frame hget _ => hget⟩
  | true =>
      rcases clears w h hspawns g hstarted with ⟨spawner, w', hreach, hcleared⟩
      exact ⟨spawner, w', hreach, hcleared.free, fun _ => hcleared.woken,
        Nat.le_of_lt hcleared.woken, hcleared.others⟩

/-- An acquire that has its gate and is not behind it can be finished. -/
theorem finishes_behind (w : World) (h : GateInv w) (hspawns : o.Spawns w) (call : CallId)
    (frame : Frame) (key : SessionKey) (g : GateId) (hcall : w.calls.get? call = some frame)
    (hgate : frame.gate = some (key, g)) (hbusy : frame.busy = none) :
    ∃ helper, w.Finishes o call helper := by
  rcases frees w h hspawns g with ⟨spawner, w', hreach, hfree, hwoken, hle, hothers⟩
  have hcall' := hothers call frame hcall hbusy
  refine ⟨spawner, finishes_trans w w' call spawner
    (reaches_mono (fun a ha => ⟨.inr ha.1, ha.2⟩) w w' hreach) ?_⟩
  unfold Frame.gate at hgate
  split at hgate
  · rename_i key' clientKind g'
    cases hgate
    exact finishes_lookup w' call spawner key clientKind (hspawns call _ _ _ hcall) g hfree hcall'
  · rename_i key' clientKind g'
    cases hgate
    exact finishes_enter w' call spawner key clientKind (hspawns call _ _ _ hcall) g hfree hcall'
  · cases hbusy
  · cases hbusy
  · rename_i key' clientKind g' epoch
    cases hgate
    refine finishes_waiting w' call spawner key clientKind (hspawns call _ _ _ hcall) g epoch hfree
      ?_ hcall'
    -- It has been woken, or the gate was started and is woken now.
    rcases h.woken call _ g epoch hcall rfl with hold | hstarted
    · exact Nat.lt_of_lt_of_le hold hle
    · exact Nat.lt_of_le_of_lt (h.epochs call _ g epoch hcall rfl) (hwoken hstarted)
  · cases hgate

/-! ### Every call -/

theorem finishes_acquire (w : World) (h : GateInv w) (hspawns : o.Spawns w) (call : CallId)
    (key : SessionKey) (clientKind : Option ClientKind) (pc : AcquirePc)
    (hcall : w.calls.get? call = some (.acquire key clientKind pc)) :
    ∃ helper, w.Finishes o call helper := by
  -- From its gate on a caller may need the help of the one who holds it.
  have hgate : ∀ u, GateInv u → o.Spawns u →
      u.calls.get? call = some (.acquire key clientKind .gate) →
      ∃ helper, u.Finishes o call helper := by
    intro u hu hspawnsu hget
    have hsec : (Frame.acquire key clientKind .gate).section call u.now u.reg =
        some ((u.reg.gateEntry key).1, .acquire key clientKind (.lookup (u.reg.gateEntry key).2),
          []) := rfl
    have hstep := step_sect u call _ _ _ _ hget hsec
    have hinv := gateInv_step _ _ _ hu hstep
    rcases finishes_behind _ hinv (spawns_step u _ _ hstep rfl o hspawnsu) call _ key _
      (moved_calls ..) rfl rfl with ⟨helper, hfinishes⟩
    exact ⟨helper, finishes_sect u call helper _ _ _ _ hget hsec hfinishes⟩
  cases pc with
  | count =>
      have hsec : (Frame.acquire key clientKind .count).section call w.now w.reg =
          some (w.reg.countAttach, .acquire key clientKind .gate, []) := rfl
      have hstep := step_sect w call _ _ _ _ hcall hsec
      rcases hgate _ (gateInv_step _ _ _ h hstep) (spawns_step w _ _ hstep rfl o hspawns)
        (moved_calls ..) with ⟨helper, hfinishes⟩
      exact ⟨helper, finishes_sect w call helper _ _ _ _ hcall hsec hfinishes⟩
  | gate => exact hgate w h hspawns hcall
  | lookup g => exact finishes_behind w h hspawns call _ key g hcall rfl rfl
  | enter g => exact finishes_behind w h hspawns call _ key g hcall rfl rfl
  | waiting g epoch => exact finishes_behind w h hspawns call _ key g hcall rfl rfl
  | spawning g =>
      -- Past the gate no help is needed, and any name will do for the helper.
      exact ⟨0, finishes_spawning w call 0 key clientKind (hspawns call _ _ _ hcall) g hcall⟩
  | leave g result => exact ⟨0, finishes_leave w call 0 key clientKind g result hcall⟩
  | publish handle => exact ⟨0, finishes_publish w call 0 key clientKind handle hcall⟩
  | dropGate error =>
      exact ⟨0, finishes_sect w call 0 _ _ _ _ hcall rfl
        (finishes_returned _ call 0 key clientKind _ (moved_calls ..))⟩
  | returned result => exact ⟨0, finishes_returned w call 0 key clientKind result hcall⟩

theorem finishes_release (w : World) (call helper : CallId) (id : String) (pc : ReleasePc)
    (hcall : w.calls.get? call = some (.release id pc)) : w.Finishes o call helper := by
  have hdecrement : ∀ (u : World) key, u.calls.get? call = some (.release id (.decrement key)) →
      u.Finishes o call helper := by
    intro u key hget
    exact finishes_sect u call helper _ _ _ _ hget rfl
      (finishes_settled _ call helper _ (moved_calls ..) rfl)
  cases pc with
  | take =>
      cases htake : w.reg.takeLease id with
      | none =>
          have hsec : (Frame.release id .take).section call w.now w.reg =
              some (w.reg, .release id (.returned none), []) := by
            simp [Frame.section, ReleasePc.section, htake]
          exact finishes_sect w call helper _ _ _ _ hcall hsec
            (finishes_settled _ call helper _ (moved_calls ..) rfl)
      | some taken =>
          have hsec : (Frame.release id .take).section call w.now w.reg =
              some (taken.1, .release id (.decrement taken.2), []) := by
            simp [Frame.section, ReleasePc.section, htake]
          exact finishes_sect w call helper _ _ _ _ hcall hsec (hdecrement _ _ (moved_calls ..))
  | decrement key => exact hdecrement w key hcall
  | returned result => exact finishes_settled w call helper _ hcall rfl

theorem finishes_forward (w : World) (call helper : CallId) (kind : ForwardKind) (id : String)
    (message : Json) (pc : ForwardPc) (hanswered : (o.answered call).isSome = true)
    (hcall : w.calls.get? call = some (.forward kind id message pc)) :
    w.Finishes o call helper := by
  rcases Option.isSome_iff_exists.mp hanswered with ⟨result, hresult⟩
  -- Backwards from the answer, so that each section hands over to the next.
  have hawaiting : ∀ (u : World) key runtime,
      u.calls.get? call = some (.forward kind id message (.awaiting key runtime)) →
        u.Finishes o call helper := by
    intro u key runtime hget
    have hstep : u.step (.runtimeReturns call result) =
        some (u.runtimeReturn call kind id message key result) := by
      simp only [step, hget]
    refine finishes_trans u _ call helper
      (reaches_step u _ (.runtimeReturns call result) ⟨.inl rfl, hresult⟩ hstep) ?_
    -- An error ends the method at once, an answer after one more touch.
    cases result with
    | ok response =>
        exact finishes_sect _ call helper _ _ _ _ (moved_calls ..) rfl
          (finishes_settled _ call helper _ (moved_calls ..) rfl)
    | error error => exact finishes_settled _ call helper _ (moved_calls ..) rfl
  have hsession : ∀ (u : World) key,
      u.calls.get? call = some (.forward kind id message (.session key)) →
        u.Finishes o call helper := by
    intro u key hget
    cases hlookup : u.reg.lookupRuntime key u.now with
    | missing =>
        have hsec : (Frame.forward kind id message (.session key)).section call u.now u.reg =
            some (u.reg, .forward kind id message (.returned (.ok none)), []) := by
          simp [Frame.section, ForwardPc.section, hlookup]
        exact finishes_sect u call helper _ _ _ _ hget hsec
          (finishes_settled _ call helper _ (moved_calls ..) rfl)
    | rejected error =>
        have hsec : (Frame.forward kind id message (.session key)).section call u.now u.reg =
            some (u.reg, .forward kind id message (.returned (.error error)), []) := by
          simp [Frame.section, ForwardPc.section, hlookup]
        exact finishes_sect u call helper _ _ _ _ hget hsec
          (finishes_settled _ call helper _ (moved_calls ..) rfl)
    | found r' handle =>
        have hsec : (Frame.forward kind id message (.session key)).section call u.now u.reg =
            some (r', .forward kind id message (.awaiting key handle.runtime),
              [.forwarded call id handle.runtime message]) := by
          simp [Frame.section, ForwardPc.section, hlookup]
        exact finishes_sect u call helper _ _ _ _ hget hsec (hawaiting _ _ _ (moved_calls ..))
  cases pc with
  | lease =>
      cases hkey : w.reg.leaseKey id with
      | none =>
          have hsec : (Frame.forward kind id message .lease).section call w.now w.reg =
              some (w.reg, .forward kind id message (.returned (.ok none)), []) := by
            simp [Frame.section, ForwardPc.section, hkey]
          exact finishes_sect w call helper _ _ _ _ hcall hsec
            (finishes_settled _ call helper _ (moved_calls ..) rfl)
      | some key =>
          have hsec : (Frame.forward kind id message .lease).section call w.now w.reg =
              some (w.reg, .forward kind id message (.session key), []) := by
            simp [Frame.section, ForwardPc.section, hkey]
          exact finishes_sect w call helper _ _ _ _ hcall hsec (hsession _ _ (moved_calls ..))
  | session key => exact hsession w key hcall
  | awaiting key runtime => exact hawaiting w key runtime hcall
  | touch key response =>
      exact finishes_sect w call helper _ _ _ _ hcall rfl
        (finishes_settled _ call helper _ (moved_calls ..) rfl)
  | returned result => exact finishes_settled w call helper _ hcall rfl

/-- Every call can be finished, by steps of its own and of one other call, if what it awaits
    comes. -/
theorem finishes (w : World) (h : GateInv w) (hspawns : o.Spawns w) (call : CallId)
    (frame : Frame) (hcall : w.calls.get? call = some frame) (hserves : o.Serves call frame) :
    ∃ helper, w.Finishes o call helper := by
  -- A call of one section runs it.
  have hone : ∀ r' frame' events, frame.section call w.now w.reg = some (r', frame', events) →
      frame'.settled = true → ∃ helper, w.Finishes o call helper := by
    intro r' frame' events hsec hsettled
    exact ⟨0, finishes_sect w call 0 _ _ _ _ hcall hsec
      (finishes_settled _ call 0 _ (moved_calls ..) hsettled)⟩
  have hdone : frame.settled = true → ∃ helper, w.Finishes o call helper :=
    fun hsettled => ⟨0, finishes_settled w call 0 frame hcall hsettled⟩
  cases frame with
  | acquire key clientKind pc => exact finishes_acquire w h hspawns call key clientKind pc hcall
  | attached lease handle => exact hdone rfl
  | release id pc => exact ⟨0, finishes_release w call 0 id pc hcall⟩
  | remove key pc =>
      have hleases : ∀ (u : World), u.calls.get? call = some (.remove key .leases) →
          u.Finishes o call 0 := fun u hget => finishes_sect u call 0 _ _ _ _ hget rfl
        (finishes_settled _ call 0 _ (moved_calls ..) rfl)
      cases pc with
      | session =>
          exact ⟨0, finishes_sect w call 0 _ _ _ _ hcall rfl (hleases _ (moved_calls ..))⟩
      | leases => exact ⟨0, hleases w hcall⟩
      | returned => exact hdone rfl
  | forward kind id message pc => 
      exact ⟨0, finishes_forward w call 0 kind id message pc hserves hcall⟩
  | touch key returned =>
      cases returned with
      | true => exact hdone rfl
      | false => exact hone _ _ _ rfl rfl
  | mark key notice returned =>
      cases returned with
      | true => exact hdone rfl
      | false => exact hone _ _ _ rfl rfl
  | idle start result =>
      cases result with
      | some result => exact hdone rfl
      | none => exact hone _ _ _ rfl rfl
  | increment evictor returned =>
      cases returned with
      | true => exact hdone rfl
      | false => exact hone _ _ _ rfl rfl
  | crash returned =>
      cases returned with
      | true => exact hdone rfl
      | false => exact hone _ _ _ rfl rfl

/-! ### All calls -/

/-- The registry cannot get stuck. In every reachable state in which the spawn closures
    return that calls await, every call whose answer comes can be brought to its end, by
    steps of its own and of one other call. And if what they await comes to all of them,
    all together can: there is a run that begins no call, and after which none is in
    flight. Nothing returns in these runs but what comes. -/
theorem comes_to_rest (idleTtl : Duration) (as : List Action) (w : World)
    (hrun : run step (init idleTtl) as = some w) (o : Outside) (hspawns : o.Spawns w) :
    (∀ call frame, w.calls.get? call = some frame → o.Serves call frame →
      ∃ helper, w.Finishes o call helper) ∧
    ((∀ call frame, w.calls.get? call = some frame → o.Serves call frame) →
      ∃ bs w', run step w bs = some w' ∧ (∀ a ∈ bs, a.mover.isSome = true ∧ o.Permits a) ∧
        w'.Quiescent) := by
  have h := gateInv_run idleTtl as w hrun
  refine ⟨finishes w h hspawns, fun hserves => ?_⟩
  -- Only calls that have begun move on, with what the outside provides.
  let Moves : Action → Prop := fun a => a.mover.isSome = true ∧ o.Permits a
  let Kept : World → Prop := fun u => GateInv u ∧ o.Spawns u ∧
    ∀ call frame, u.calls.get? call = some frame → o.Serves call frame
  let Done : CallId → World → Prop := fun call u =>
    ∀ frame, u.calls.get? call = some frame → frame.settled = true
  have hkept : ∀ u a v, Kept u → u.step a = some v → Moves a → Kept v := by
    rintro u a v ⟨hinv, hspawnsu, hservesu⟩ hstep ⟨hmoves, _⟩
    exact ⟨gateInv_step u v a hinv hstep, spawns_step u v a hstep hmoves o hspawnsu,
      serves_step u v a hstep hmoves o hservesu⟩
  -- Each call can be brought to its end.
  have hgoal : ∀ call u, Kept u → ∃ v, Reaches step Moves u v ∧ Done call v := by
    rintro call u ⟨hinv, hspawnsu, hservesu⟩
    cases hcall : u.calls.get? call with
    | none => exact ⟨u, reaches_refl u, fun frame hframe => by rw [hcall] at hframe; cases hframe⟩
    | some frame =>
        rcases finishes u hinv hspawnsu call frame hcall (hservesu call frame hcall) with
          ⟨helper, v, frame', hreach, hv, hsettled⟩
        refine ⟨v, reaches_mono (fun a ha => ?_) u v hreach, fun frame'' hframe => ?_⟩
        · refine ⟨?_, ha.2⟩
          rcases ha.1 with hmover | hmover <;> simp [hmover]
        · rw [hv, Option.some.injEq] at hframe
          rw [← hframe]
          exact hsettled
  -- And stays there while the others are.
  have hstays : ∀ call u a v, Done call u → u.step a = some v → Moves a → Done call v := by
    intro call u a v hdone hstep hmoves frame hframe
    rcases begun_step u v a hstep hmoves.1 call frame hframe with ⟨frame', hold⟩
    have hsame := settled_step u v a hstep call frame' hold (hdone frame' hold)
    rw [hsame, Option.some.injEq] at hframe
    rw [← hframe]
    exact hdone frame' hold
  rcases reaches_all hkept hgoal hstays (w.calls.entries.map fun entry => entry.1) w
    ⟨h, hspawns, hserves⟩ with ⟨w', hreach, hall⟩
  -- No call begins on the way.
  have hknown := reaches_invariant (I := fun u => ∀ call frame, u.calls.get? call = some frame →
      ∃ frame', w.calls.get? call = some frame')
    (fun u a v hu hstep hmoves call frame hframe => by
      rcases begun_step u v a hstep hmoves.1 call frame hframe with ⟨frame', hold⟩
      exact hu call frame' hold) w w' hreach fun call frame hframe => ⟨frame, hframe⟩
  rcases hreach with ⟨bs, hbs, hmoves⟩
  refine ⟨bs, w', hbs, hmoves, fun call frame hframe => Frame.inFlight_of_settled frame ?_⟩
  rcases hknown call frame hframe with ⟨frame', hold⟩
  have hmem : call ∈ w.calls.entries.map fun entry => entry.1 :=
    List.mem_map.mpr ⟨⟨call, frame'⟩, (Table.mem_entries_iff _ _ _).mpr hold, rfl⟩
  exact hall call hmem frame hframe

/-- Everything that is awaited fails. -/
def allFail : Outside := ⟨fun _ => some (.error "gone"), fun _ => some (.error "gone")⟩

theorem allFail_serves (call : CallId) (frame : Frame) : allFail.Serves call frame := by
  cases frame with
  | acquire key clientKind pc => rfl
  | forward kind id message pc => rfl
  | _ => trivial

theorem comes_to_rest_waitForSpawn :
    ∃ bs w', run step ((run step (init 5) waitForSpawn).get waitForSpawn_isSome) bs = some w' ∧
      (∀ a ∈ bs, a.mover.isSome = true ∧ allFail.Permits a) ∧ w'.Quiescent :=
  (comes_to_rest 5 waitForSpawn _ (Option.some_get waitForSpawn_isSome).symm allFail
    fun _ _ _ _ _ => rfl).2 fun call frame _ => allFail_serves call frame

end World

end Lspee
