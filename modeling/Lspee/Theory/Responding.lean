import Lspee.Lib.Execution
import Lspee.Theory.Awaiting
import Lspee.Theory.Responses

/-!
# Every Line Gets Its Response

`Theory.Responses` says which responses are written, and this that they are. A
connection works on one line at a time, and it reads the next when the response is
written; so a line is without its response only as long as the connection waits for
something. What it gets from the system comes: a dedicated endpoint is bound or is not,
the memory is measured, a write ends. A call of the registry is another matter. A `Call`
whose language server has exited never returns, and then the connection waits for ever.

An execution goes on without an end, and the steps of the connection are not put off
for ever in it. `Responds` asks of it that no response is out of its place, and that for
every moment there is a later one at which the lines read by then, and no more, have
all got their responses. This is so exactly if every line that is read is accepted, and
every call that the connection waits for returns (`responses_iff`). A client that waits
for its id never gets the answer to `{"v":1,"id":"7"}` (`malformed_unanswered`).

## Main definitions

* `IsOwn`: The steps of the connection itself.
* `awaitsLeft`: How many of them there are at most before it reads on.
* `Responds`: Every line gets its response.
* `Returns`: Every call that is awaited returns.

## Theorems

* `other_step`, `own_step`: What the steps of the others and its own do.
* `can_move`: The connection can move when it gets what it waits for.
* `comes_of_returns`, `returns_of_responds`: Responses and calls that return.
* `responses_iff`: When every line gets its response, with its id.
* `malformed_unanswered`: A line that does not.
-/

namespace Lspee

open Transition Utf8

namespace Connection

/-- The steps of the connection itself, but for reading on. -/
def IsOwn : ConnectionAction → Prop
  | .resume | .bound _ _ | .sampled _ | .wrote _ => True
  | .world _ | .read _ => False

/-- How many steps the connection makes at most before it reads on. -/
def awaitsLeft : ControlPc → Nat
  | .reading | .returned _ => 0
  | .writing _ _ => 1
  | .sampling _ _ _ _ | .releasing _ _ _ | .calling _ _ _ | .notifying _ _ _
  | .unattaching _ _ _ => 2
  | .binding _ _ _ => 3
  | .attaching _ _ _ => 4

variable {fromStr : List Char → Option Json}

/-! ### What the steps do -/

/-- While the connection waits, the others leave it where it is. -/
theorem other_step (s s' : Connection) (a : ConnectionAction) (hstep : s.step fromStr a = some s')
    (hbusy : awaitsLeft s.control.pc ≠ 0) (hother : ¬IsOwn a) :
    s'.control.pc = s.control.pc ∧ s'.lines = s.lines := by
  cases a with
  | world a =>
      rcases Option.map_eq_some_iff.mp hstep with ⟨c, hc, rfl⟩
      rcases Option.map_eq_some_iff.mp hc with ⟨w, _, rfl⟩
      exact ⟨rfl, rfl⟩
  | read call =>
      rw [(read_cases s s' call hstep).1] at hbusy
      exact absurd rfl hbusy
  | _ => exact absurd trivial hother

theorem awaitsLeft_write (s s' : Control) (response : ControlEnvelope) (stop : Bool)
    (h : some (s.write response stop) = some s') : awaitsLeft s'.pc = 1 := by
  rw [← Option.some.inj h]
  rfl

theorem awaitsLeft_attached (s : Control) (id : Option String) (mode : StreamMode) (lease : Lease)
    (handle : Option SessionHandle) : awaitsLeft (s.attached id mode lease handle).pc < 4 := by
  unfold Control.attached
  cases handle with
  | none => exact Nat.one_lt_succ_succ 2
  | some handle => cases mode <;> simp [awaitsLeft, Control.write]

theorem awaitsLeft_resume (s s' : Control) (h : s.resume = some s') :
    awaitsLeft s'.pc < awaitsLeft s.pc := by
  unfold Control.resume at h
  split at h
  · rename_i hpc
    rw [hpc]
    split at h
    · rw [awaitsLeft_write s s' _ _ h]
      exact Nat.one_lt_succ_succ 2
    · rw [← Option.some.inj h]
      exact awaitsLeft_attached s _ _ _ _
    · cases h
  case h_6 => cases h
  all_goals
    rename_i hpc
    rw [hpc]
    split at h
    all_goals
      first
      | rw [awaitsLeft_write s s' _ _ h]
        exact Nat.one_lt_two
      | cases h

/-- A step of its own brings the connection closer to reading on. -/
theorem own_step (s s' : Connection) (a : ConnectionAction) (hstep : s.step fromStr a = some s')
    (hown : IsOwn a) :
    s'.lines = s.lines ∧ awaitsLeft s'.control.pc < awaitsLeft s.control.pc := by
  cases a with
  | world a => exact absurd hown not_false
  | read call => exact absurd hown not_false
  | resume =>
      rcases Option.map_eq_some_iff.mp hstep with ⟨c, hc, rfl⟩
      exact ⟨rfl, awaitsLeft_resume s.control c hc⟩
  | bound endpoint call =>
      rcases Option.map_eq_some_iff.mp hstep with ⟨c, hc, rfl⟩
      refine ⟨rfl, ?_⟩
      simp only [Control.step, Control.bound] at hc
      split at hc
      · rename_i hpc
        rw [hpc, awaitsLeft_write _ c _ _ hc]
        exact Nat.one_lt_succ_succ 1
      · rename_i hpc
        show awaitsLeft c.pc < _
        rw [hpc, carried_await _ c call _ _ hc]
        exact Nat.lt_succ_self 2
      · cases hc
  | sampled memoryTotal =>
      rcases Option.map_eq_some_iff.mp hstep with ⟨c, hc, rfl⟩
      refine ⟨rfl, ?_⟩
      simp only [Control.step, Control.sampled] at hc
      split at hc
      · rename_i hpc
        rw [hpc, awaitsLeft_write _ c _ _ hc]
        exact Nat.one_lt_two
      · cases hc
  | wrote ok =>
      rcases Option.map_eq_some_iff.mp hstep with ⟨c, hc, rfl⟩
      refine ⟨rfl, ?_⟩
      simp only [Control.step, Control.wrote] at hc
      split at hc
      · rename_i response stop hpc
        rw [hpc]
        cases ok <;> cases stop <;> simp at hc <;> rw [← hc] <;> exact Nat.zero_lt_one
      · cases hc

/-- A step of the connection is one of the world, or none. -/
theorem settled_connection (s s' : Connection) (a : ConnectionAction)
    (hstep : s.step fromStr a = some s') (call : CallId) (frame : Frame)
    (hcall : s.control.world.calls.get? call = some frame) (h : frame.settled = true) :
    s'.control.world.calls.get? call = some frame := by
  rcases control_step s s' a hstep with ⟨b, hb, _⟩
  rcases host_step Control.hosts_world s.control s'.control b hb with hsame | ⟨c, hc, _⟩
  · rw [hsame]
    exact hcall
  · exact World.settled_step _ _ c hc call frame hcall h

theorem awaits_connection (s s' : Connection) (a : ConnectionAction)
    (hstep : s.step fromStr a = some s') (h : s.control.Awaits) : s'.control.Awaits := by
  rcases control_step s s' a hstep with ⟨b, hb, _⟩
  exact Control.awaits_step s.control s'.control b hb h

/-! ### Waiting, and being answered -/

/-- A connection that waits can move, if the call that it waits for, if it waits for one,
    has returned. -/
theorem can_move (s : Connection) (hawaits : s.control.Awaits)
    (hbusy : awaitsLeft s.control.pc ≠ 0)
    (hreturned : ∀ call kind, s.control.pc.awaitedKind = some (call, kind) →
      ∃ frame, s.control.world.calls.get? call = some frame ∧ frame.settled = true) :
    ∃ a s', IsOwn a ∧ s.step fromStr a = some s' := by
  cases hawaited : s.control.pc.awaitedKind with
  | some awaited =>
      rcases awaited with ⟨call, kind⟩
      rcases hawaits call kind hawaited with ⟨frame, hcall, hkind⟩
      rcases hreturned call kind hawaited with ⟨frame', hcall', hsettled⟩
      rw [hcall, Option.some.injEq] at hcall'
      rw [← hcall'] at hsettled
      rcases Control.resume_settled s.control call kind frame hawaited hcall hkind hsettled with
        ⟨c, hc⟩
      exact ⟨.resume, _, trivial, Option.map_eq_some_iff.mpr ⟨c, hc, rfl⟩⟩
  | none =>
      cases hpc : s.control.pc with
      | reading => rw [hpc] at hbusy; exact absurd rfl hbusy
      | returned ok => rw [hpc] at hbusy; exact absurd rfl hbusy
      | binding id lease handle =>
          rcases Control.bound_writes s.control id lease handle "" 0 hpc with ⟨c, _, hc, _⟩
          exact ⟨.bound (.ok "") 0, _, trivial, Option.map_eq_some_iff.mpr ⟨c, hc, rfl⟩⟩
      | sampling id sessions leases counters =>
          rcases Control.sampled_writes s.control id sessions leases counters 0 hpc with
            ⟨c, _, hc, _⟩
          exact ⟨.sampled 0, _, trivial, Option.map_eq_some_iff.mpr ⟨c, hc, rfl⟩⟩
      | writing response stop =>
          rcases wrote_writing fromStr s response stop true hpc with ⟨s', hs'⟩
          exact ⟨.wrote true, s', trivial, hs'⟩
      | _ => rw [hpc] at hawaited; cases hawaited

/-- A connection that waits for a call which has not returned makes no step of its own. -/
theorem stuck_of_unsettled (s s' : Connection) (a : ConnectionAction)
    (hstep : s.step fromStr a = some s') (call : CallId) (kind : CallKind)
    (hpc : s.control.pc.awaitedKind = some (call, kind)) (hown : IsOwn a) :
    ∃ frame, s.control.world.calls.get? call = some frame ∧ frame.settled = true := by
  cases a with
  | world a => exact absurd hown not_false
  | read call => exact absurd hown not_false
  | resume =>
      rcases Option.map_eq_some_iff.mp hstep with ⟨c, hc, rfl⟩
      exact Control.settled_of_resume s.control c call kind hc hpc
  | bound endpoint call' =>
      rcases Option.map_eq_some_iff.mp hstep with ⟨c, hc, rfl⟩
      simp only [Control.step, Control.bound] at hc
      split at hc
      · rename_i hat; rw [hat] at hpc; cases hpc
      · rename_i hat; rw [hat] at hpc; cases hpc
      · cases hc
  | sampled memoryTotal =>
      rcases Option.map_eq_some_iff.mp hstep with ⟨c, hc, rfl⟩
      simp only [Control.step, Control.sampled] at hc
      split at hc
      · rename_i hat; rw [hat] at hpc; cases hpc
      · cases hc
  | wrote ok =>
      rcases Option.map_eq_some_iff.mp hstep with ⟨c, hc, rfl⟩
      simp only [Control.step, Control.wrote] at hc
      split at hc
      · rename_i hat; rw [hat] at hpc; cases hpc
      · cases hc

theorem awaitsLeft_of_awaited (pc : ControlPc) (call : CallId) (kind : CallKind)
    (h : pc.awaitedKind = some (call, kind)) : awaitsLeft pc ≠ 0 := by
  cases pc with
  | reading => cases h
  | returned ok => cases h
  | _ => exact Nat.succ_ne_zero _

/-- While it waits for a call, the last line has no response yet. -/
theorem answered_awaiting (s : Connection) (call : CallId) (kind : CallKind)
    (hpc : s.control.pc.awaitedKind = some (call, kind)) (h : Answered fromStr s) :
    s.lines.length = s.responses.length + 1 := by
  unfold Answered at h
  cases hat : s.control.pc with
  | reading => rw [hat] at hpc; cases hpc
  | returned ok => rw [hat] at hpc; cases hpc
  | writing response stop => rw [hat] at hpc; cases hpc
  | _ =>
      rw [hat] at h
      rcases h with ⟨line, earlier, hlines, hforall⟩
      rw [hlines, List.length_cons, hforall.length_eq]

/-! ### Executions -/

/-- No response is out of its place, and for every moment there is a later one at which
    the lines that have been read by then, and no others, each have their response. -/
structure Responds (e : Execution (step fromStr)) : Prop where
  inPlace : ∀ n, Answered fromStr (e.state n)
  comes : ∀ n, ∃ m ≥ n, (e.state m).lines = (e.state n).lines ∧
    List.Forall₂ (Answers fromStr) (e.state m).lines (e.state m).responses

/-- Whenever the connection waits for a call of the registry, the call returns. -/
def Returns (e : Execution (step fromStr)) : Prop :=
  ∀ n call kind, (e.state n).control.pc.awaitedKind = some (call, kind) →
    ∃ m ≥ n, ∃ frame, (e.state m).control.world.calls.get? call = some frame ∧
      frame.settled = true

variable {e : Execution (step fromStr)}

/-- The connection reads on, when its calls return. -/
theorem reads_on (hfair : e.Fair IsOwn) (hreturns : Returns e)
    (hawaits : ∀ n, (e.state n).control.Awaits) (n : Nat) :
    ∃ m ≥ n, (e.state m).lines = (e.state n).lines ∧
      awaitsLeft (e.state m).control.pc = 0 := by
  induction hleft : awaitsLeft (e.state n).control.pc using Nat.strongRecOn generalizing n with
  | ind left ih =>
      by_cases hbusy : awaitsLeft (e.state n).control.pc = 0
      · exact ⟨n, le_refl n, rfl, hbusy⟩
      -- From some moment on it can move, as long as it is where it is.
      have hcan : ∃ k, ∀ m ≥ k, (e.state m).control.pc = (e.state n).control.pc ∧
          (e.state m).lines = (e.state n).lines →
            ∃ a s', IsOwn a ∧ (e.state m).step fromStr a = some s' := by
        cases hawaited : (e.state n).control.pc.awaitedKind with
        | none =>
            refine ⟨n, fun m _ hsame => can_move _ (hawaits m) (hsame.1 ▸ hbusy) ?_⟩
            intro call kind hcall
            rw [hsame.1, hawaited] at hcall
            cases hcall
        | some awaited =>
            rcases awaited with ⟨call, kind⟩
            rcases hreturns n call kind hawaited with ⟨k, _, frame, hcall, hsettled⟩
            refine ⟨k, fun m hm hsame => can_move _ (hawaits m) (hsame.1 ▸ hbusy) ?_⟩
            intro call' kind' hcall'
            rw [hsame.1, hawaited, Option.some.injEq, Prod.mk.injEq] at hcall'
            rw [← hcall'.1]
            exact ⟨frame, e.persists (P := fun s => s.control.world.calls.get? call = some frame)
              (fun s a s' hs hstep => settled_connection s s' a hstep call frame hs hsettled) k
              hcall m hm, hsettled⟩
      rcases hcan with ⟨k, hcan⟩
      rcases Execution.takes_of_fair hfair (P := fun s =>
          s.control.pc = (e.state n).control.pc ∧ s.lines = (e.state n).lines)
        (fun s a s' hs hstep hother => by
          rcases other_step s s' a hstep (hs.1 ▸ hbusy) hother with ⟨hpc, hlines⟩
          exact ⟨hpc.trans hs.1, hlines.trans hs.2⟩) n k ⟨rfl, rfl⟩ hcan with
        ⟨m, hm, ⟨hpc, hlines⟩, a, haction, hown⟩
      rcases own_step _ _ a (e.next_some m a haction) hown with ⟨hsame, hless⟩
      rw [hpc, hleft] at hless
      rcases ih _ hless (m + 1) rfl with ⟨j, hj, hlines', hdone⟩
      exact ⟨j, le_trans hm (le_trans (Nat.le_succ m) hj),
        hlines'.trans (hsame.trans hlines), hdone⟩

/-- Nothing is missing where the connection reads on, or has ended. -/
theorem forall₂_of_done (s : Connection) (h : Answered fromStr s)
    (hdone : awaitsLeft s.control.pc = 0) :
    List.Forall₂ (Answers fromStr) s.lines s.responses := by
  unfold Answered at h
  cases hpc : s.control.pc with
  | reading => rw [hpc] at h; exact h
  | returned ok => rw [hpc] at h; exact h
  | _ => rw [hpc] at hdone; cases hdone

/-- A call that never returns keeps its line from being answered. -/
theorem returns_of_responds (h : Responds e) : Returns e := by
  intro n call kind hpc
  by_contra hnever
  -- Nothing moves the connection.
  have hstays : ∀ m ≥ n, (e.state m).control.pc = (e.state n).control.pc := by
    intro m hm
    induction m, hm using Nat.le_induction with
    | base => rfl
    | succ m hm ih =>
        cases haction : e.action m with
        | none => rw [e.next_none m haction, ih]
        | some a =>
            have hstep := e.next_some m a haction
            have hpc' := hpc
            rw [← ih] at hpc'
            refine (other_step _ _ a hstep (awaitsLeft_of_awaited _ call kind hpc') ?_).1.trans ih
            intro hown
            exact hnever ⟨m, hm, stuck_of_unsettled _ _ a hstep call kind hpc' hown⟩
  rcases h.comes n with ⟨m, hm, _, hforall⟩
  rw [← hstays m hm] at hpc
  have hlength := answered_awaiting _ call kind hpc (h.inPlace m)
  rw [hforall.length_eq] at hlength
  exact absurd hlength (Nat.ne_of_lt (Nat.lt_succ_self _))

/-- In every execution of a connection that does not put off the steps of the
    connection for ever, every line gets its response, in order and with its id, if and
    only if every line that is read is accepted, and every call of the registry that the
    connection waits for returns. -/
theorem responses_iff (fromStr : List Char → Option Json) (world : World)
    (settings : MemoryBudgetSettings) (startedAt : Instant) (bytes : List UInt8) (ending : Ending)
    (e : Execution (step fromStr))
    (hstart : e.state 0 = accept world settings startedAt bytes ending) (hfair : e.Fair IsOwn) :
    Responds e ↔ e.Steps (ReadCond fromStr) ∧ Returns e := by
  have hplace : (∀ n, Answered fromStr (e.state n)) ↔ e.Steps (ReadCond fromStr) := by
    rw [e.forall_iff_always, e.steps_iff_along, hstart]
    exact forall_congr' fun n =>
      answered_iff_along fromStr world settings startedAt bytes ending (e.before n)
  constructor
  · exact fun h => ⟨hplace.mp h.inPlace, returns_of_responds h⟩
  · intro ⟨hread, hreturns⟩
    have hawaits : ∀ n, (e.state n).control.Awaits := by
      intro n
      refine e.persists (P := fun s => s.control.Awaits)
        (fun s a s' hs hstep => awaits_connection s s' a hstep hs) 0 ?_ n (Nat.zero_le n)
      rw [hstart]
      exact Control.awaits_of_none _ rfl
    refine ⟨hplace.mpr hread, fun n => ?_⟩
    rcases reads_on hfair hreturns hawaits n with ⟨m, hm, hlines, hdone⟩
    exact ⟨m, hm, hlines, forall₂_of_done _ (hplace.mpr hread m) hdone⟩

/-! ### Two executions -/

/-- No step of its own is left to a connection that reads on or has ended. -/
theorem own_none (s : Connection) (hdone : awaitsLeft s.control.pc = 0) (a : ConnectionAction)
    (hown : IsOwn a) : s.step fromStr a = none := by
  cases hstep : s.step fromStr a with
  | none => rfl
  | some s' =>
      have hless := (own_step s s' a hstep hown).2
      rw [hdone] at hless
      exact absurd hless (Nat.not_lt_zero _)

/-- A request to release a lease. -/
def releaseText : List Char :=
  ("\x7b\"v\":1,\"id\":\"7\",\"type\":\"Release\"," ++
    "\"payload\":\x7b\"lease_id\":\"lease_1\"\x7d\x7d").toList

/-- A request that says neither its type nor its payload. -/
def untypedText : List Char := "\x7b\"v\":1,\"id\":\"7\"\x7d".toList

/-- What is read in these requests, and in nothing else. -/
def readRequests (text : List Char) : Option Json :=
  if text = releaseText then
    some (.obj [("id", .str "7"), ("payload", .obj [("lease_id", .str "lease_1")]),
      ("type", .str "Release"), ("v", .num 1)])
  else if text = untypedText then some (.obj [("id", .str "7"), ("v", .num 1)])
  else none

/-- A connection whose client sends a request. -/
def requesting (text : List Char) : Connection :=
  accept (World.init 5) ⟨none, none, 5⟩ 0 (asciiBytes text ++ [newline]) .eof

/-- The lease is not there, and the client is told so. -/
def releaseSteps : List ConnectionAction :=
  [.read 0, .world (.sect 0), .resume]

theorem release_isSome :
    (run (step readRequests) (requesting releaseText) (releaseSteps ++ [.wrote true])).isSome =
      true := by
  decide +kernel

/-- The request and its answer, and nothing more. -/
def releaseExecution : Execution (step readRequests) :=
  Execution.ofRun _ _ _ (Option.some_get release_isSome).symm

theorem release_done :
    awaitsLeft ((run (step readRequests) (requesting releaseText)
      (releaseSteps ++ [.wrote true])).get release_isSome).control.pc = 0 := by
  decide +kernel

/-- A lease that is not there is released, and the client is told so. -/
theorem responses_iff_release :
    Responds releaseExecution ∧
      (releaseExecution.state 4).responses.map ControlEnvelope.id = [some "7"] := by
  have hfair : releaseExecution.Fair IsOwn :=
    Execution.fair_ofRun _ _ _ _ _ trivial fun a hown => own_none _ release_done a hown
  refine ⟨(responses_iff readRequests (World.init 5) ⟨none, none, 5⟩ 0 _ .eof releaseExecution
    rfl hfair).mpr ⟨?_, ?_⟩, by decide +kernel⟩
  · intro n a ha
    rcases n with _ | _ | _ | _ | n
    · cases ha
      intro line hline
      have hread : lineRead (requesting releaseText).bytes (requesting releaseText).ending =
          some (some releaseText) := by decide +kernel
      rw [← Option.some.inj (hread.symm.trans hline)]
      have hparsed : readRequests releaseText = some (.obj [("id", .str "7"),
          ("payload", .obj [("lease_id", .str "lease_1")]), ("type", .str "Release"),
          ("v", .num 1)]) := by
        decide +kernel
      simp only [Accepted, hparsed]
      exact Or.inr ⟨by decide +kernel, fun _ => by decide⟩
    · cases ha
      trivial
    · cases ha
      trivial
    · cases ha
      trivial
    · cases ha
  · -- only the call of the release is awaited, and it has returned at the second moment
    have hawaited : ∀ n, (releaseExecution.state n).control.pc.awaitedKind = none ∨
        n ≤ 2 ∧ (releaseExecution.state n).control.pc.awaitedKind = some (0, .release) := by
      intro n
      rcases n with _ | _ | _ | _ | n
      · decide +kernel
      · decide +kernel
      · decide +kernel
      · decide +kernel
      · have hend : (releaseExecution.state (n + 4)) = _ :=
          Execution.state_ofRun_end _ _ _ _ (n + 4) (Nat.le_add_left 4 n)
        rw [hend]
        exact Or.inl (by decide +kernel)
    have hreturned : ((releaseExecution.state 2).control.world.calls.get? 0).any
        Frame.settled = true := by
      decide +kernel
    intro n call kind hpc
    rcases hawaited n with hnone | ⟨hn, hsome⟩
    · cases hnone.symm.trans hpc
    · cases hsome.symm.trans hpc
      rcases (Option.any_eq_true _ _).mp hreturned with ⟨frame, hframe, hsettled⟩
      exact ⟨2, hn, frame, hframe, hsettled⟩

theorem untyped_isSome :
    (run (step readRequests) (requesting untypedText) ([.read 0] ++ [.wrote true])).isSome =
      true := by
  decide +kernel

/-- A request without a type is answered without its id. -/
theorem malformed_unanswered :
    ¬∀ (fromStr : List Char → Option Json) (world : World) (settings : MemoryBudgetSettings)
      (startedAt : Instant) (bytes : List UInt8) (ending : Ending)
      (e : Execution (step fromStr)),
      e.state 0 = accept world settings startedAt bytes ending → e.Fair IsOwn → Responds e := by
  intro hall
  have hrun := (Option.some_get untyped_isSome).symm
  have hdone : awaitsLeft ((run (step readRequests) (requesting untypedText)
      ([.read 0] ++ [.wrote true])).get untyped_isSome).control.pc = 0 := by decide +kernel
  have hresponds := hall readRequests (World.init 5) ⟨none, none, 5⟩ 0 _ .eof
    (Execution.ofRun _ (requesting untypedText) _ hrun) rfl
    (Execution.fair_ofRun _ _ _ _ hrun trivial fun a hown => own_none _ hdone a hown)
  have hcond := answered_need _ _ (.read 0) (hresponds.inPlace 0)
    (Execution.next_some _ 0 (ConnectionAction.read 0) rfl) (hresponds.inPlace 1)
  have hread : lineRead (requesting untypedText).bytes (requesting untypedText).ending =
      some (some untypedText) := by decide +kernel
  have haccepted : Accepted readRequests (some untypedText) := hcond _ hread
  have hparsed : readRequests untypedText = some (.obj [("id", .str "7"), ("v", .num 1)]) := by
    decide +kernel
  simp only [Accepted, hparsed] at haccepted
  exact absurd haccepted (by decide)

end Connection

end Lspee
