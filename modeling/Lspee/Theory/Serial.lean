import Lspee.Core.Serial

/-!
# Operations as Runs

An operation made alone is a run of the concurrent registry: a call is started
when no other is in flight, its sections run one after the other, and what it
awaits comes back in between. So a sequence of operations is one of the
schedules of `Core.Tasks`, the one in which no two calls overlap.

`Leads` follows one call from one point to another in any world, whatever other
calls there are. It composes, so an operation is followed section by section.

## Main definitions

* `Point`: The registry, the clock, the next runtime, and how far a call is.
* `Leads`: A call gets from one point to another without another call moving.
* `Alone`: A call is started only when no other is in flight.
* `Alike`: A world with the registry of a state, and no call in flight.

## Theorems

* `leads_trans`, `leads_section`, `leads_tick`, `leads_spawnOk`, `leads_answer`:
  What a call does, piece by piece.
* `acquire_returns`, `release_returns`, `forward_returns`: The operations of more
  than one section.
* `alike_step`, `serial_run`: A sequence of operations is a run in which every
  call is made alone.
-/

namespace Lspee

open Transition

namespace Serial

/-- The registry, the clock, the next runtime, and how far a call is. -/
structure Point where
  reg : SessionRegistry
  now : Instant
  nextRuntime : RuntimeId
  frame : Frame

/-- A world in which a call is at a point. -/
structure At (w : World) (call : CallId) (p : Point) : Prop where
  reg : w.reg = p.reg
  now : w.now = p.now
  nextRuntime : w.nextRuntime = p.nextRuntime
  frame : w.calls.get? call = some p.frame

/-- A call is started only when no other is in flight. -/
def Alone (w : World) (a : Action) : Prop :=
  match a with
  | .start _ _ => w.Quiescent
  | _ => True

/-- A call gets from one point to another, and no other call moves. -/
def Leads (call : CallId) (p q : Point) : Prop :=
  ∀ w : World, At w call p → ∃ actions w', run World.step w actions = some w' ∧
    At w' call q ∧ (∀ c, c ≠ call → w'.calls.get? c = w.calls.get? c) ∧
    Along World.step Alone w actions

theorem leads_trans (call : CallId) (p q t : Point) (hpq : Leads call p q)
    (hqt : Leads call q t) : Leads call p t := by
  intro w hw
  rcases hpq w hw with ⟨as, w₁, hrun₁, hat₁, hother₁, halone₁⟩
  rcases hqt w₁ hat₁ with ⟨bs, w₂, hrun₂, hat₂, hother₂, halone₂⟩
  refine ⟨as ++ bs, w₂, ?_, hat₂, fun c hc => ?_, ?_⟩
  · rw [run_append as bs w w₁ hrun₁, hrun₂]
  · rw [hother₂ c hc, hother₁ c hc]
  · exact (along_append as bs w w₁ hrun₁).mpr ⟨halone₁, halone₂⟩

/-- One action that moves no other call and starts none. -/
theorem leads_action (call : CallId) (p q : Point) (a : Action)
    (hstart : ∀ c m, a ≠ .start c m)
    (h : ∀ w : World, At w call p → ∃ w', w.step a = some w' ∧ At w' call q ∧
      ∀ c, c ≠ call → w'.calls.get? c = w.calls.get? c) : Leads call p q := by
  intro w hw
  rcases h w hw with ⟨w', hstep, hat, hother⟩
  refine ⟨[a], w', by rw [run_cons a [] w w' hstep]; rfl, hat, hother, fun _ _ => ⟨?_, trivial⟩⟩
  unfold Alone
  cases a with
  | start c m => exact absurd rfl (hstart c m)
  | tick span => trivial
  | sect c => trivial
  | spawnReturns c result => trivial
  | runtimeReturns c result => trivial

theorem leads_section (call : CallId) (p : Point) (r : SessionRegistry) (frame : Frame)
    (events : List Event) (h : p.frame.section call p.now p.reg = some (r, frame, events)) :
    Leads call p { p with reg := r, frame := frame } := by
  refine leads_action call p _ (.sect call) (fun _ _ => by simp) fun w hw => ?_
  refine ⟨w.moved call r frame events, ?_, ⟨rfl, hw.now, hw.nextRuntime, ?_⟩, fun c hc => ?_⟩
  · simp only [World.step, hw.frame, hw.now, hw.reg, h, Option.map_some]
  · exact Table.get?_set_self _ _ _
  · exact Table.get?_set_ne _ _ _ _ hc

theorem leads_tick (call : CallId) (p : Point) (span : Duration) :
    Leads call p { p with now := p.now + span } := by
  refine leads_action call p _ (.tick span) (fun _ _ => by simp) fun w hw => ?_
  refine ⟨{ w with now := w.now + span }, rfl, ⟨hw.reg, ?_, hw.nextRuntime, hw.frame⟩,
    fun _ _ => rfl⟩
  simp only [hw.now]

theorem leads_spawnOk (call : CallId) (p : Point) (key : SessionKey)
    (clientKind : Option ClientKind) (g : GateId) (initializeResult : Json)
    (hframe : p.frame = .acquire key clientKind (.spawning g)) :
    Leads call p
      { p with
        nextRuntime := p.nextRuntime + 1
        frame := .acquire key clientKind (.leave g (.ok
          { key := key, runtime := p.nextRuntime, initializeResult := initializeResult })) } := by
  refine leads_action call p _ (.spawnReturns call (.ok initializeResult)) (fun _ _ => by simp)
    fun w hw => ?_
  refine ⟨w.spawnReturn call key clientKind g (.ok initializeResult), ?_,
    ⟨hw.reg, hw.now, ?_, ?_⟩, fun c hc => ?_⟩
  · simp only [World.step, hw.frame, hframe]
  · simp only [World.spawnReturn, hw.nextRuntime]
  · simp only [World.spawnReturn, World.moved, Table.get?_set_self, hw.nextRuntime]
  · exact Table.get?_set_ne _ _ _ _ hc

theorem leads_spawnError (call : CallId) (p : Point) (key : SessionKey)
    (clientKind : Option ClientKind) (g : GateId) (error : String)
    (hframe : p.frame = .acquire key clientKind (.spawning g)) :
    Leads call p { p with frame := .acquire key clientKind (.leave g (.error error)) } := by
  refine leads_action call p _ (.spawnReturns call (.error error)) (fun _ _ => by simp)
    fun w hw => ?_
  refine ⟨w.spawnReturn call key clientKind g (.error error), ?_,
    ⟨hw.reg, hw.now, hw.nextRuntime, ?_⟩, fun c hc => ?_⟩
  · simp only [World.step, hw.frame, hframe]
  · exact Table.get?_set_self _ _ _
  · exact Table.get?_set_ne _ _ _ _ hc

theorem leads_answer (call : CallId) (p : Point) (kind : ForwardKind) (id : String)
    (message : Json) (key : SessionKey) (runtime : RuntimeId) (answer : Except String Json)
    (hframe : p.frame = .forward kind id message (.awaiting key runtime)) :
    Leads call p { p with frame := .forward kind id message (match answer with
      | .ok response => .touch key response
      | .error error => .returned (.error error)) } := by
  refine leads_action call p _ (.runtimeReturns call answer) (fun _ _ => by simp) fun w hw => ?_
  refine ⟨w.runtimeReturn call kind id message key answer, ?_, ?_, fun c hc => ?_⟩
  · simp only [World.step, hw.frame, hframe]
  · cases answer with
    | ok response =>
        exact ⟨hw.reg, hw.now, hw.nextRuntime, Table.get?_set_self _ _ _⟩
    | error error =>
        exact ⟨hw.reg, hw.now, hw.nextRuntime, Table.get?_set_self _ _ _⟩
  · cases answer with
    | ok response => exact Table.get?_set_ne _ _ _ _ hc
    | error error => exact Table.get?_set_ne _ _ _ _ hc

/-! ### The operations -/

/-- A call of the method, begun in one state, returns in the other. -/
def Returns (call : CallId) (method : Method) (s s' : Serial) : Prop :=
  ∃ frame, frame.inFlight = false ∧
    Leads call
      { reg := s.reg, now := s.now, nextRuntime := s.nextRuntime, frame := method.frame s.now }
      { reg := s'.reg, now := s'.now, nextRuntime := s'.nextRuntime, frame := frame }

/-- A method of one section. -/
theorem returns_section (call : CallId) (method : Method) (s s' : Serial) (frame : Frame)
    (events : List Event) (hreturned : frame.inFlight = false) (hnow : s'.now = s.now)
    (hruntime : s'.nextRuntime = s.nextRuntime)
    (h : (method.frame s.now).section call s.now s.reg = some (s'.reg, frame, events)) :
    Returns call method s s' := by
  refine ⟨frame, hreturned, ?_⟩
  rw [hnow, hruntime]
  exact leads_section call _ s'.reg frame events h

theorem acquire_returns (call : CallId) (s s' : Serial) (key : SessionKey)
    (clientKind : Option ClientKind) (span : Duration) (result : Except String Json)
    (h : s.acquireOrSpawn key clientKind span result = some s') :
    Returns call (.acquireOrSpawn key clientKind) s s' := by
  have hcount := leads_section call
    { reg := s.reg, now := s.now, nextRuntime := s.nextRuntime,
      frame := .acquire key clientKind .count } s.reg.countAttach
    (.acquire key clientKind .gate) [] rfl
  have hgate := leads_section call
    { reg := s.reg.countAttach, now := s.now, nextRuntime := s.nextRuntime,
      frame := .acquire key clientKind .gate } _ _ [] rfl
  have hentered := leads_trans call _ _ _ hcount hgate
  -- Both ways through the acquire begin with the counter and the gate.
  unfold acquireOrSpawn at h
  simp only [] at h
  generalize s.reg.countAttach.gateEntry key = entered at h hentered
  cases hget : entered.1.sessions.get? key with
  | some record =>
      simp only [hget, Option.some.injEq] at h
      rw [← h]
      refine ⟨.acquire key clientKind (.returned (.ok
        (entered.1.reuseSession key clientKind record s.now).2)), rfl, ?_⟩
      refine leads_trans call _ _ _ hentered (leads_section call _ _ _
        [.granted call (entered.1.reuseSession key clientKind record s.now).2
          record.handle.runtime] ?_)
      simp only [Frame.section, AcquirePc.section, hget, Option.map_some, after]
  | none =>
      simp only [hget] at h
      have hlook := leads_section call
        { reg := entered.1, now := s.now, nextRuntime := s.nextRuntime,
          frame := .acquire key clientKind (.lookup entered.2) } entered.1
        (.acquire key clientKind (.enter entered.2)) []
        (by simp only [Frame.section, AcquirePc.section, hget, Option.map_some])
      have hlooked := leads_trans call _ _ _ hentered hlook
      cases henter : entered.1.enterGate entered.2 with
      | mk r waits =>
          cases waits with
          -- Alone, nobody holds the gate.
          | some epoch =>
              simp only [henter, reduceCtorEq] at h
          | none =>
              simp only [henter, Option.some.injEq] at h
              have hspawn := leads_section call
                { reg := entered.1, now := s.now, nextRuntime := s.nextRuntime,
                  frame := .acquire key clientKind (.enter entered.2) } r
                (.acquire key clientKind (.spawning entered.2)) [.spawnCalled call key]
                (by simp only [Frame.section, AcquirePc.section, henter, Option.map_some])
              have hspawning := leads_trans call _ _ _ hlooked hspawn
              have hwaited := leads_trans call _ _ _ hspawning (leads_tick call _ span)
              rw [← h]
              cases result with
              | ok initializeResult =>
                  have hok := leads_trans call _ _ _ hwaited
                    (leads_spawnOk call _ key clientKind entered.2 initializeResult rfl)
                  have hleft := leads_trans call _ _ _ hok (leads_section call _ _ _ [] rfl)
                  exact ⟨_, rfl, leads_trans call _ _ _ hleft (leads_section call _ _ _ _ rfl)⟩
              | error error =>
                  have herr := leads_trans call _ _ _ hwaited
                    (leads_spawnError call _ key clientKind entered.2 error rfl)
                  have hleft := leads_trans call _ _ _ herr (leads_section call _ _ _ [] rfl)
                  exact ⟨_, rfl, leads_trans call _ _ _ hleft (leads_section call _ _ _ [] rfl)⟩

theorem release_returns (call : CallId) (s : Serial) (id : String) :
    Returns call (.releaseByLeaseId id) s (s.releaseByLeaseId id) := by
  unfold releaseByLeaseId
  cases htake : s.reg.takeLease id with
  | none =>
      refine returns_section call _ s _ (.release id (.returned none)) [] rfl rfl rfl ?_
      simp only [Method.frame, Frame.section, ReleasePc.section, htake, Option.map_some, after]
  | some taken =>
      rcases taken with ⟨r, key⟩
      have hfirst := leads_section call
        { reg := s.reg, now := s.now, nextRuntime := s.nextRuntime, frame := .release id .take } r
        (.release id (.decrement key)) []
        (by simp only [Frame.section, ReleasePc.section, htake, Option.map_some])
      exact ⟨_, rfl, leads_trans call _ _ _ hfirst (leads_section call _ _ _ [] rfl)⟩

theorem forward_returns (call : CallId) (s : Serial) (kind : ForwardKind) (id : String)
    (message : Json) (span : Duration) (answer : Except String Json) :
    Returns call (.forwardByLeaseId kind id message) s (s.forwardByLeaseId id span answer) := by
  unfold forwardByLeaseId
  cases hlease : s.reg.leaseKey id with
  | none =>
      refine returns_section call _ s _ (.forward kind id message (.returned (.ok none))) [] rfl
        rfl rfl ?_
      simp only [Method.frame, Frame.section, ForwardPc.section, hlease, Option.map_some, after]
  | some key =>
      -- The lease, the session, the answer and the touch, one after another.
      have hfirst := leads_section call
        { reg := s.reg, now := s.now, nextRuntime := s.nextRuntime,
          frame := .forward kind id message .lease } s.reg
        (.forward kind id message (.session key)) []
        (by simp only [Frame.section, ForwardPc.section, hlease, Option.map_some])
      simp only []
      cases hlook : s.reg.lookupRuntime key s.now with
      | missing =>
          refine ⟨.forward kind id message (.returned (.ok none)), rfl,
            leads_trans call _ _ _ hfirst (leads_section call _ _ _ [] ?_)⟩
          simp only [Frame.section, ForwardPc.section, hlook, Option.map_some, after]
      | rejected error =>
          refine ⟨.forward kind id message (.returned (.error error)), rfl,
            leads_trans call _ _ _ hfirst (leads_section call _ _ _ [] ?_)⟩
          simp only [Frame.section, ForwardPc.section, hlook, Option.map_some, after]
      | found r handle =>
          have hsecond := leads_section call
            { reg := s.reg, now := s.now, nextRuntime := s.nextRuntime,
              frame := .forward kind id message (.session key) } r
            (.forward kind id message (.awaiting key handle.runtime))
            [.forwarded call id handle.runtime message]
            (by simp only [Frame.section, ForwardPc.section, hlook, Option.map_some])
          have hwaited := leads_trans call _ _ _ (leads_trans call _ _ _ hfirst hsecond)
            (leads_tick call _ span)
          have hanswered := leads_trans call _ _ _ hwaited
            (leads_answer call _ kind id message key handle.runtime answer rfl)
          cases answer with
          | error error => exact ⟨_, rfl, hanswered⟩
          | ok response =>
              exact ⟨_, rfl, leads_trans call _ _ _ hanswered
                (leads_section call _ _ _ [] rfl)⟩

/-! ### Sequences of operations -/

/-- A world with the registry, the clock and the next runtime of a state, and
    no call in flight. -/
structure Alike (s : Serial) (w : World) : Prop where
  reg : w.reg = s.reg
  now : w.now = s.now
  nextRuntime : w.nextRuntime = s.nextRuntime
  quiescent : w.Quiescent

/-- A call that returns is a run in which it is made alone. -/
theorem alike_of_returns (s s' : Serial) (method : Method) (w : World) (halike : Alike s w)
    (h : ∀ call, Returns call method s s') :
    ∃ actions w', run World.step w actions = some w' ∧ Alike s' w' ∧
      Along World.step Alone w actions := by
  -- The operation is a call under a name that is free.
  rcases w.calls.exists_get?_none with ⟨call, hfree⟩
  rcases h call with ⟨frame, hreturned, hleads⟩
  have hstart : w.step (.start call method) =
      some { w with calls := w.calls.set call (method.frame w.now) } := by
    simp only [World.step, hfree]
  have hat : At { w with calls := w.calls.set call (method.frame w.now) } call
      { reg := s.reg, now := s.now, nextRuntime := s.nextRuntime,
        frame := method.frame s.now } := by
    refine ⟨halike.reg, halike.now, halike.nextRuntime, ?_⟩
    simp only [Table.get?_set_self, halike.now]
  rcases hleads _ hat with ⟨actions, w', hrun, hat', hother, halone⟩
  refine ⟨.start call method :: actions, w', ?_, ⟨hat'.reg, hat'.now, hat'.nextRuntime, ?_⟩, ?_⟩
  · rw [run_cons _ actions w _ hstart, hrun]
  · -- the other calls are where they were, and this one has returned
    intro c frame' hc
    by_cases hcc : c = call
    · rw [hcc, hat'.frame, Option.some.injEq] at hc
      rw [← hc]
      exact hreturned
    · rw [hother c hcc, Table.get?_set_ne _ _ _ _ hcc] at hc
      exact halike.quiescent c frame' hc
  · intro w₁ hw₁
    rw [hstart, Option.some.injEq] at hw₁
    rw [← hw₁]
    exact ⟨halike.quiescent, halone⟩

theorem alike_step (s s' : Serial) (operation : Operation) (w : World) (halike : Alike s w)
    (h : s.step operation = some s') :
    ∃ actions w', run World.step w actions = some w' ∧ Alike s' w' ∧
      Along World.step Alone w actions := by
  cases operation with
  | wait span =>
      simp only [step, Option.some.injEq] at h
      rw [← h]
      refine ⟨[.tick span], { w with now := w.now + span }, rfl, ⟨halike.reg, ?_,
        halike.nextRuntime, halike.quiescent⟩, fun _ _ => ⟨trivial, trivial⟩⟩
      simp only [halike.now]
  | acquireOrSpawn key clientKind span result =>
      exact alike_of_returns s s' _ w halike
        (fun call => acquire_returns call s s' key clientKind span result h)
  | releaseByLeaseId id =>
      simp only [step, Option.some.injEq] at h
      rw [← h]
      exact alike_of_returns s _ _ w halike (fun call => release_returns call s id)
  | forwardByLeaseId kind id message span answer =>
      simp only [step, Option.some.injEq] at h
      rw [← h]
      exact alike_of_returns s _ _ w halike
        (fun call => forward_returns call s kind id message span answer)
  | markTerminatingWithNotice key notice =>
      simp only [step, Option.some.injEq] at h
      rw [← h]
      exact alike_of_returns s _ (.markTerminatingWithNotice key notice) w halike
        (fun call => returns_section call _ s _ (.mark key notice true) _ rfl rfl rfl rfl)
  | remove key =>
      simp only [step, Option.some.injEq] at h
      rw [← h]
      -- Two sections, with nobody in between.
      refine alike_of_returns s _ (.remove key) w halike fun call => ?_
      have hfirst := leads_section call
        { reg := s.reg, now := s.now, nextRuntime := s.nextRuntime, frame := .remove key .session }
        (s.reg.removeSession key) (.remove key .leases) [] rfl
      exact ⟨_, rfl, leads_trans call _ _ _ hfirst (leads_section call _ _ _ [] rfl)⟩
  | idleCandidates =>
      simp only [step, Option.some.injEq] at h
      rw [← h]
      exact alike_of_returns s _ .idleCandidates w halike
        (fun call => returns_section call _ s _ (.idle s.now (some (s.reg.idleCandidates s.now).2))
          _ rfl rfl rfl rfl)

/-- A sequence of operations is a run of the concurrent registry in which every
    call is made alone. -/
theorem serial_run (idleTtl : Duration) (operations : List Operation) (s : Serial)
    (h : run step (init idleTtl) operations = some s) :
    ∃ actions w, run World.step (World.init idleTtl) actions = some w ∧ Alike s w ∧
      Along World.step Alone (World.init idleTtl) actions := by
  have hinit : Alike (init idleTtl) (World.init idleTtl) := by
    refine ⟨rfl, rfl, rfl, fun call frame hcall => ?_⟩
    simp only [World.init, Table.get?_empty, reduceCtorEq] at hcall
  refine run_invariant (I := fun s => ∃ actions w,
    run World.step (World.init idleTtl) actions = some w ∧ Alike s w ∧
      Along World.step Alone (World.init idleTtl) actions) (C := fun _ _ => True) ?_ operations
    (init idleTtl) s h ⟨[], World.init idleTtl, rfl, hinit, trivial⟩ (along_true _ _)
  rintro s₁ operation s₂ ⟨actions, w, hrun, halike, halone⟩ hstep -
  rcases alike_step s₁ s₂ operation w halike hstep with ⟨more, w', hmore, halike', halone'⟩
  refine ⟨actions ++ more, w', ?_, halike', ?_⟩
  · rw [run_append actions more _ w hrun, hmore]
  · exact (along_append actions more _ w hrun).mpr ⟨halone, halone'⟩

end Serial

end Lspee
