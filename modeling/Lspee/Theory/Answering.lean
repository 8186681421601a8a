import Lspee.Theory.Awaiting
import Lspee.Theory.Conversation

/-!
# Commands Can Be Answered

Whether a command that waits can be answered. It waits for the daemon; the daemon's
side of the connection waits for the command, for a registry call, or for the system;
and the registry call waits for others like it, and for what is outside the registry:
spawn closures and language servers, which may keep it waiting for ever.

No two of them wait for each other. The request is where `Turn` says it is, and it
can be moved on from each of the places: a line that has been written can be read, a
call that has been awaited can be finished (`World.finishes`), and one that has
returned is answered. What it needs is that the connection finds the call it awaits
among the calls of the registry, which is `Control.Awaits`. So from every state in which a
command waits, and what is awaited for it outside the registry comes (`Provides`),
steps of the daemon alone lead to one in which the answer is there to be read, or in
which the connection is closed because the frame was too large (`answer_reachable`).

## Main definitions

* `Conversation.IsDaemon`: A step of the daemon, or of the world around it.
* `Conversation.Provides`: What is awaited for a command comes.

## Theorems

* `hosts_conversation`: The daemon's side makes its calls in the world.
* `reaches_world`: What the world reaches.
* `serves_held`: A request that is with the daemon can be answered.
* `provides_read`: What comes still comes when a line has been read.
* `answer_reachable`: So can every one.
-/

namespace Lspee

open Transition Utf8

/-! ### The daemon's side in the world -/

namespace Conversation

variable {toString : Json → List Char} {fromStr : List Char → Option Json}

/-- The world around the daemon's side. -/
def world (s : Conversation) : World := s.connection.control.world

def putWorld (s : Conversation) (w : World) : Conversation :=
  { s with connection := { s.connection with control := { s.connection.control with world := w } } }

/-- The step of the world an action is. -/
def inner : ConversationAction → Option Action
  | .daemon a => Connection.inner a
  | _ => none

/-- A step of the daemon, or of the world around it, in which nothing returns that does not
    come. -/
def IsDaemon (o : Outside) (a : ConversationAction) : Prop :=
  ∃ b, a = .daemon b ∧ ∀ c, b = .world c → o.Permits c

/-- A command does nothing to the daemon's side but write to it. -/
theorem control_of_client (s s' : Conversation) (a : ConversationAction)
    (h : s.step toString fromStr a = some s') (hclient : ∀ b, a ≠ .daemon b) :
    s'.connection.control = s.connection.control := by
  rcases step_cases s s' a h with ⟨b, _, hdaemon, _⟩ | ⟨_, ⟨u, hmoved, _, hconnection⟩ |
    ⟨_, hconnection⟩⟩
  · exact absurd hdaemon (hclient b)
  · rw [← hconnection]
    cases hmoved with
    | ends result h => rw [h]
    | sends frame pc id hopen hv hid hpc htype hattach h => rw [h]
  · rw [hconnection]

theorem hosts_conversation : Hosts (step toString fromStr) Conversation.world inner where
  inside := by
    intro s a s' w hstep hinner
    rcases step_cases s s' a hstep with ⟨b, c, rfl, _, hc, rfl⟩ | ⟨hclient, _⟩
    · rcases Connection.control_step _ c b hc with ⟨ca, hca, hinner'⟩
      exact Control.hosts_world.inside _ ca _ w hca (hinner'.trans hinner)
    · cases a with
      | daemon b => exact absurd rfl (hclient b)
      | _ => cases hinner
  outside := by
    intro s a s' hstep hinner
    rcases step_cases s s' a hstep with ⟨b, c, rfl, _, hc, rfl⟩ | ⟨hclient, _⟩
    · rcases Connection.control_step _ c b hc with ⟨ca, hca, hinner'⟩
      exact Control.hosts_world.outside _ ca _ hca (hinner'.trans hinner)
    · exact .inl (congrArg Control.world (control_of_client s s' a hstep hclient))

theorem gateInv_conversation (s s' : Conversation) (a : ConversationAction)
    (hstep : s.step toString fromStr a = some s') (h : GateInv s.world) : GateInv s'.world := by
  rcases host_step hosts_conversation s s' a hstep with hsame | ⟨b, hb, _⟩
  · rw [hsame]
    exact h
  · exact gateInv_step _ _ b h hb

theorem awaits_conversation (s s' : Conversation) (a : ConversationAction)
    (hstep : s.step toString fromStr a = some s') (h : s.connection.control.Awaits) :
    s'.connection.control.Awaits := by
  rcases step_cases s s' a hstep with ⟨b, c, _, _, hc, rfl⟩ | ⟨hclient, _⟩
  · rcases Connection.control_step _ c b hc with ⟨ca, hca, _⟩
    exact Control.awaits_step _ _ ca hca h
  · rw [control_of_client s s' a hstep hclient]
    exact h

variable {o : Outside}

/-- What the world reaches, it reaches around the connection. -/
theorem reaches_world {A : Action → Prop} (hA : ∀ a, A a → o.Permits a) (s : Conversation)
    (w : World) (h : Reaches World.step A s.world w) :
    Reaches (step toString fromStr) (IsDaemon o) s (s.putWorld w) := by
  have hkind : ∀ a, A a → IsDaemon o (.daemon (.world a)) := by
    intro a ha
    refine ⟨_, rfl, fun c hc => ?_⟩
    cases hc
    exact hA a ha
  refine reaches_lift putWorld (fun a => .daemon (.world a)) hkind ?_ s s.world w h
  intro t u a u' _ hstep
  have hconnection : (t.putWorld u).connection.step fromStr (.world a) =
      some (t.putWorld u').connection := by
    simp only [Connection.step, Control.step, putWorld, hstep, Option.map_some]
  simp only [step, mayMove, hconnection, written, List.append_nil, Option.map_some, if_true]
  rfl

/-! ### A request that is with the daemon -/

/-- What is awaited for the command comes: the spawn closures return that are in progress,
    and so does what the call awaits that the daemon has made for the command, or is
    still to make. -/
structure Provides (o : Outside) (s : Conversation) : Prop where
  spawns : o.Spawns s.world
  awaited : ∀ call kind frame, s.connection.control.pc.awaitedKind = some (call, kind) →
    s.world.calls.get? call = some frame → o.Serves call frame
  begun : ∀ call frame, s.world.calls.get? call = none → o.Serves call frame

theorem isDaemon_of_own (b : ConnectionAction) (h : ∀ c, b ≠ .world c) :
    IsDaemon o (.daemon b) :=
  ⟨b, rfl, fun c hc => absurd hc (h c)⟩

theorem step_daemon (s : Conversation) (b : ConnectionAction) (c : Connection)
    (hmay : s.mayMove b = true) (hc : s.connection.step fromStr b = some c) :
    s.step toString fromStr (.daemon b) =
      some { s with connection := c, toClient := s.toClient ++ s.written toString b } := by
  simp only [step, hmay, if_true, hc, Option.map_some]

/-- The answer to the request is there to be read. -/
def Served (toString : Json → List Char) (id : String) (s t : Conversation) : Prop :=
  t.pc = s.pc ∧ ∃ r : ControlEnvelope, r.id = some id ∧ t.toClient = writeEnvelope toString r

theorem serves_writing (s : Conversation) (id : String) (r : ControlEnvelope) (stop : Bool)
    (hgone : s.pc.gone = false) (hout : s.toClient = [])
    (hpc : s.connection.control.pc = .writing r stop) (hid : r.id = some id) :
    ∃ t, Reaches (step toString fromStr) (IsDaemon o) s t ∧ Served toString id s t := by
  have hc : ∃ c, s.connection.step fromStr (.wrote true) = some c := by
    simp [Connection.step, Control.step, Control.wrote, hpc]
  rcases hc with ⟨c, hc⟩
  refine ⟨_, reaches_step _ _ _ (isDaemon_of_own _ (by simp)) (step_daemon s (.wrote true) c
    (by simp [mayMove, hgone]) hc), rfl, r, hid, ?_⟩
  simp [written, Connection.written, hpc, hout]

/-- The daemon moves by itself, and the request is answered from there. -/
theorem serves_trans (s : Conversation) (id : String) (b : ConnectionAction) (control : Control)
    (hown : ∀ c, b ≠ .world c) (hmay : s.mayMove b = true)
    (hc : s.connection.step fromStr b = some { s.connection with control := control })
    (hwritten : s.written toString b = [])
    (h : ∃ t, Reaches (step toString fromStr) (IsDaemon o)
      { s with connection := { s.connection with control := control } } t ∧
        Served toString id s t) :
    ∃ t, Reaches (step toString fromStr) (IsDaemon o) s t ∧ Served toString id s t := by
  rcases h with ⟨t, hreach, hserved⟩
  have hstep := @step_daemon toString fromStr s b _ hmay hc
  rw [hwritten, List.append_nil] at hstep
  have hfirst := reaches_step _ _ _ (isDaemon_of_own (o := o) b hown) hstep
  exact ⟨t, reaches_trans _ _ _ hfirst hreach, hserved⟩

/-- A connection that works on a request and awaits no call. -/
theorem serves_unawaited (s : Conversation) (id : String) (hgone : s.pc.gone = false)
    (hout : s.toClient = [])
    (hcarried : Connection.carried s.connection.control.pc = some (some id))
    (hnone : s.connection.control.pc.awaitedKind = none) :
    ∃ t, Reaches (step toString fromStr) (IsDaemon o) s t ∧ Served toString id s t := by
  cases hpc : s.connection.control.pc with
  | writing r stop =>
      rw [hpc] at hcarried
      exact serves_writing s id r stop hgone hout hpc (Option.some.inj hcarried)
  | binding id' lease handle =>
      rw [hpc] at hcarried
      rcases Control.bound_writes s.connection.control id' lease handle "" 0 hpc with
        ⟨control, r, hbound, hwriting, hid⟩
      refine serves_trans s id (.bound (.ok "") 0) control (by simp) rfl
        (by simp only [Connection.step, Control.step, hbound, Option.map_some]) rfl ?_
      exact serves_writing _ id r false hgone hout hwriting (hid.trans (Option.some.inj hcarried))
  | sampling id' sessions leases counters =>
      rw [hpc] at hcarried
      rcases Control.sampled_writes s.connection.control id' sessions leases counters 0 hpc with
        ⟨control, r, hsampled, hwriting, hid⟩
      refine serves_trans s id (.sampled 0) control (by simp) rfl
        (by simp only [Connection.step, Control.step, hsampled, Option.map_some]) rfl ?_
      exact serves_writing _ id r false hgone hout hwriting (hid.trans (Option.some.inj hcarried))
  | reading => rw [hpc] at hcarried; cases hcarried
  | returned ok => rw [hpc] at hcarried; cases hcarried
  | _ => rw [hpc] at hnone; cases hnone

/-- A request that is with the daemon can be answered: the call it awaits can be
    finished. -/
theorem serves_held (s : Conversation) (id : String) (hgates : GateInv s.world)
    (hprovides : Provides o s) (hawaits : s.connection.control.Awaits)
    (hgone : s.pc.gone = false) (hout : s.toClient = [])
    (hcarried : Connection.carried s.connection.control.pc = some (some id)) :
    ∃ t, Reaches (step toString fromStr) (IsDaemon o) s t ∧ Served toString id s t := by
  cases hawaited : s.connection.control.pc.awaitedKind with
  | none => exact serves_unawaited s id hgone hout hcarried hawaited
  | some awaited =>
      rcases awaited with ⟨call, kind⟩
      rcases hawaits call kind hawaited with ⟨frame, hcall, hkind⟩
      -- The registry call finishes, perhaps after another has left the gate.
      rcases World.finishes s.world hgates hprovides.spawns call frame hcall
        (hprovides.awaited call kind frame hawaited hcall) with
        ⟨helper, w, frame', hreach, hcall', hsettled⟩
      have hkind' := World.kind_reaches s.world w hreach call frame hcall
      rcases hkind' with ⟨frame'', hframe'', hkind'⟩
      rw [hcall', Option.some.injEq] at hframe''
      rw [← hframe'', hkind] at hkind'
      -- Then the connection can go on.
      rcases Control.resume_settled (s.putWorld w).connection.control call kind frame' hawaited
        hcall' hkind' hsettled with ⟨control, hresume⟩
      -- And from there on it waits for nothing.
      have hrest := @serves_trans toString fromStr o (s.putWorld w) id
        .resume control (by simp) rfl
        (by simp only [Connection.step, Control.step, hresume, Option.map_some]) rfl
        (serves_unawaited _ id hgone hout
          ((Connection.carried_resume _ control hresume).trans hcarried)
          (Control.awaitedKind_resume _ control hresume))
      rcases hrest with ⟨t, hreach', hserved⟩
      exact ⟨t, reaches_trans _ _ _ (reaches_world (fun a ha => ha.2) s w hreach) hreach', hserved⟩

/-! ### Every request -/

theorem splitLine_isSome (bytes : List UInt8) (h : newline ∈ bytes) :
    (splitLine bytes).2.isSome = true := by
  rcases splitLine_spec bytes with ⟨hnot, hbytes⟩
  cases hrest : (splitLine bytes).2 with
  | some rest => rfl
  | none =>
      rw [hrest, Option.elim_none, List.append_nil] at hbytes
      exact absurd (hbytes ▸ h) hnot

/-- A frame that has been written can be read. -/
theorem reads_frame (hcompact : Json.PrintsCompact toString) (s : Conversation)
    (q : ControlEnvelope) (hreading : s.connection.control.pc = .reading)
    (hbytes : s.connection.bytes = writeFrame toString q) (hv : q.v = protocolVersion)
    (hback : fromStr (toString q.toValue) = some q.toValue) :
    ∃ call c, s.world.calls.get? call = none ∧ s.mayMove (.read call) = true ∧
      s.connection.step fromStr (.read call) = some c := by
  rcases Table.exists_get?_none s.connection.control.world.calls with ⟨call, hfree⟩
  have hnext := nextLine_frame toString hcompact q [] s.connection.ending
  rw [List.append_nil, ← hbytes] at hnext
  have hline : ∃ control, s.connection.control.handleLine
      (Connection.lineOf fromStr (toString q.toValue)) call = some control := by
    rw [handleLine_frame s.connection.control q call hv hback]
    split
    · exact ⟨_, rfl⟩
    · exact Control.dispatch_fresh s.connection.control q call hfree
  rcases hline with ⟨control, hline⟩
  have hreadable : (splitLine s.connection.bytes).2.isSome = true := by
    refine splitLine_isSome _ ?_
    rw [hbytes, writeFrame, writeLine]
    exact List.mem_append_right _ List.mem_cons_self
  have hread : ∃ c, s.connection.step fromStr (.read call) = some c := by
    simp only [Connection.step, Connection.read, hreading, hnext, Control.step, hline,
      Option.map_some]
    exact ⟨_, rfl⟩
  rcases hread with ⟨c, hc⟩
  exact ⟨call, c, hfree, by simp [mayMove, readable, hreadable], hc⟩

/-- A connection that has read a line awaits at most the call it has made for it. -/
theorem awaitsOnly_read (s c : Connection) (call : CallId)
    (h : s.step fromStr (.read call) = some c) : c.control.AwaitsOnly call := by
  simp only [Connection.step, Connection.read] at h
  split at h
  · rename_i hpc
    split at h
    · rename_i text rest _
      rcases Option.map_eq_some_iff.mp h with ⟨control, hcontrol, rfl⟩
      simp only [Control.step, hpc] at hcontrol
      exact Control.awaitsOnly_handleLine _ control _ call hcontrol
    · rcases Option.map_eq_some_iff.mp h with ⟨control, hcontrol, rfl⟩
      simp only [Control.step, hpc, Option.some.injEq] at hcontrol
      rw [← hcontrol]
      exact Control.awaitsOnly_of_none _ call rfl
    · rcases Option.map_eq_some_iff.mp h with ⟨control, hcontrol, rfl⟩
      simp only [Control.step, hpc, Option.some.injEq] at hcontrol
      rw [← hcontrol]
      exact Control.awaitsOnly_of_none _ call rfl
  · cases h

/-- What comes still comes when a line has been read. -/
theorem provides_read (s s' : Conversation) (call : CallId)
    (hstep : s.step toString fromStr (.daemon (.read call)) = some s')
    (hfree : s.world.calls.get? call = none) (honly : s'.connection.control.AwaitsOnly call)
    (h : Provides o s) : Provides o s' := by
  -- The calls that are there stay as they are.
  have hkept : ∀ c frame, s.world.calls.get? c = some frame →
      s'.world.calls.get? c = some frame := by
    intro c frame hcall
    rcases host_step hosts_conversation s s' _ hstep with hsame | ⟨b, hb, hinner | hmover⟩
    · rw [hsame]
      exact hcall
    · cases hinner
    · exact Lspee.calls_step _ _ b hb c frame hcall (by rw [hmover]; simp)
  have hserves : ∀ c frame, (∀ old, s.world.calls.get? c = some old → o.Serves c old) →
      s'.world.calls.get? c = some frame → o.Serves c frame := by
    intro c frame hold hcall
    cases hbefore : s.world.calls.get? c with
    | none => exact h.begun c frame hbefore
    | some old =>
        have hsame := hkept c old hbefore
        rw [hcall, Option.some.injEq] at hsame
        rw [hsame]
        exact hold old hbefore
  refine ⟨fun c key clientKind pc hcall => ?_, fun c kind frame hawaited hcall => ?_,
    fun c frame hcall => ?_⟩
  · cases hbefore : s.world.calls.get? c with
    | none => exact h.begun c (.acquire key clientKind pc) hbefore
    | some old =>
        have hsame := hkept c old hbefore
        rw [hcall, Option.some.injEq] at hsame
        rw [← hsame] at hbefore
        exact h.spawns c key clientKind pc hbefore
  · refine hserves c frame (fun old hold => ?_) hcall
    rw [honly.2 c kind hawaited, hfree] at hold
    cases hold
  · cases hbefore : s.world.calls.get? c with
    | none => exact h.begun c frame hbefore
    | some old =>
        rw [hkept c old hbefore] at hcall
        cases hcall

/-- The answer to the request is there to be read, or the frame was too large, and the
    connection is closed. -/
def Decided (toString : Json → List Char) (q : ControlEnvelope) (s t : Conversation) : Prop :=
  t.pc = s.pc ∧ ((∃ r : ControlEnvelope, r.id = q.id ∧ t.toClient = writeEnvelope toString r) ∨
    byteLen (toString q.toValue) > maxFrameSizeBytes ∧ t.daemonClosed = true)

theorem decides_held (s : Conversation) (q : ControlEnvelope) (id : String) (hqid : q.id = some id)
    (hgates : GateInv s.world) (hprovides : Provides o s)
    (hawaits : s.connection.control.Awaits) (hgone : s.pc.gone = false) (hout : s.toClient = [])
    (hcarried : Connection.carried s.connection.control.pc = some q.id) :
    ∃ t, Reaches (step toString fromStr) (IsDaemon o) s t ∧ Decided toString q s t := by
  rw [hqid] at hcarried
  rcases @serves_held toString fromStr o s id hgates hprovides hawaits hgone hout
    hcarried with ⟨t, hreach, hpc, r, hid, hr⟩
  exact ⟨t, hreach, hpc, .inl ⟨r, hid.trans hqid.symm, hr⟩⟩

theorem decides_refused (s : Conversation) (q r : ControlEnvelope)
    (hlong : byteLen (toString q.toValue) > maxFrameSizeBytes) (hgone : s.pc.gone = false)
    (hwriting : s.connection.control.pc = .writing r true) :
    ∃ t, Reaches (step toString fromStr) (IsDaemon o) s t ∧ Decided toString q s t := by
  have hc : ∃ c, s.connection.step fromStr (.wrote true) = some c := by
    simp [Connection.step, Control.step, Control.wrote, hwriting]
  rcases hc with ⟨c, hc⟩
  rcases wrote_cases _ _ hc with ⟨response, stop, hpc, rfl, _⟩
  rw [hwriting, ControlPc.writing.injEq] at hpc
  rcases hpc with ⟨rfl, rfl⟩
  exact ⟨_, reaches_step _ _ _ (isDaemon_of_own _ (by simp)) (step_daemon s (.wrote true) _
    (by simp [mayMove, hgone]) hc), rfl, .inr ⟨hlong, rfl⟩⟩

/-- From every place where a request can be, it can be brought to the next. -/
theorem decides (hcompact : Json.PrintsCompact toString) (s : Conversation)
    (q : ControlEnvelope) (earlier : List ControlEnvelope) (id : String)
    (hid : s.pc.expectedId = some id) (hqid : q.id = some id) (hv : q.v = protocolVersion)
    (hback : fromStr (toString q.toValue) = some q.toValue) (hgates : GateInv s.world)
    (hprovides : Provides o s) (hawaits : s.connection.control.Awaits)
    (hturn : s.Turn toString q earlier) :
    ∃ t, Reaches (step toString fromStr) (IsDaemon o) s t ∧ Decided toString q s t := by
  have hgone := expectedId_waiting s.pc id hid
  cases hturn with
  | asked hreading hbytes hout hsettled =>
      rcases reads_frame hcompact s q hreading hbytes hv hback with ⟨call, c, hfree, hmay, hc⟩
      have hstep := @step_daemon toString fromStr s (.read call) c hmay hc
      have hturn' := turn_asked hcompact s c (.read call) q earlier hv hback hc hreading hbytes hout
        hsettled
      have hgates' := gateInv_conversation s _ _ hstep hgates
      have hawaits' := awaits_conversation s _ _ hstep hawaits
      have hprovides' := provides_read s _ call hstep hfree (awaitsOnly_read _ c call hc) hprovides
      have hfirst := reaches_step s _ _ (isDaemon_of_own (o := o) (.read call) (by simp)) hstep
      -- The daemon now has the request, or refuses it.
      cases hturn' with
      | asked hreading' hbytes' hout' hsettled' =>
          rw [(read_frame hcompact s.connection c call q hbytes hc).2] at hbytes'
          exact absurd hbytes'.symm (by simp [writeFrame, writeLine])
      | held hcarried' hbytes' hout' hsettled' =>
          rcases @decides_held toString fromStr o _ q id hqid hgates' hprovides'
            hawaits' hgone hout' hcarried' with ⟨t, hreach, hdecided⟩
          exact ⟨t, reaches_trans _ _ _ hfirst hreach, hdecided⟩
      | answered r responses hcarried' hbytes' hrid hresponses hout' hsettled' =>
          exact ⟨_, hfirst, rfl, .inl ⟨r, hrid, hout'⟩⟩
      | refused r hlong hwriting hrid hbytes' hout' hsettled' =>
          rcases @decides_refused toString fromStr o
            { s with
              connection := c
              toClient := s.toClient ++ s.written toString (.read call) } q r hlong hgone
            hwriting with ⟨t, hreach, hdecided⟩
          exact ⟨t, reaches_trans _ _ _ hfirst hreach, hdecided⟩
      | lost hlong hclosed hbytes' hout' => exact ⟨_, hfirst, rfl, .inr ⟨hlong, hclosed⟩⟩
  | held hcarried hbytes hout hsettled =>
      exact decides_held s q id hqid hgates hprovides hawaits hgone hout hcarried
  | answered r responses hcarried hbytes hrid hresponses hout hsettled =>
      exact ⟨s, reaches_refl s, rfl, .inl ⟨r, hrid, hout⟩⟩
  | refused r hlong hwriting hrid hbytes hout hsettled =>
      exact decides_refused s q r hlong hgone hwriting
  | lost hlong hclosed hbytes hout => exact ⟨s, reaches_refl s, rfl, .inr ⟨hlong, hclosed⟩⟩

/-- A command that waits can be answered, if what the daemon awaits for it outside the
    registry comes. Whatever the other tasks have done before it and do beside it: from
    the state it is in, steps of the daemon and of the world around it, in which nothing
    returns but what comes, lead to one in which the response to its request is there to
    be read, or in which the connection is closed because its frame was too large. -/
theorem answer_reachable (hcompact : Json.PrintsCompact toString) (idleTtl : Duration)
    (ws : List Action) (world : World)
    (hworld : run World.step (World.init idleTtl) ws = some world) (command : Command)
    (caller : Caller) (settings : MemoryBudgetSettings) (startedAt : Instant)
    (as : List ConversationAction) (s : Conversation)
    (hrun : run (step toString fromStr) (start command caller world settings startedAt) as =
      some s) (hback : s.ReadsBack toString fromStr) (id : String)
    (hid : s.pc.expectedId = some id) (o : Outside) (hprovides : Provides o s) :
    ∃ q earlier, s.sent = q :: earlier ∧ q.id = some id ∧
      ∃ bs t, run (step toString fromStr) s bs = some t ∧ (∀ b ∈ bs, IsDaemon o b) ∧
        Decided toString q s t := by
  have hinv := run_invariant (I := fun u => GateInv (Conversation.world u) ∧
      u.connection.control.Awaits) (C := fun _ _ => True)
    (fun u a u' hu hstep _ => ⟨gateInv_conversation u u' a hstep hu.1,
      awaits_conversation u u' a hstep hu.2⟩) as _ s hrun
    ⟨gateInv_run idleTtl ws world hworld, Control.awaits_of_none _ rfl⟩ (along_true as _)
  have horderly := orderly_run hcompact command caller world settings startedAt as s hrun hback
  rcases horderly.turn id hid with ⟨q, earlier, hsent, hqid, hturn⟩
  have hmem : q ∈ s.sent ++ s.connection.sent := by
    rw [hsent]
    exact List.mem_append_left _ List.mem_cons_self
  rcases decides hcompact s q earlier id hid hqid (horderly.version q hmem) (hback q hmem) hinv.1
    hprovides hinv.2 hturn with ⟨t, ⟨bs, hbs, hdaemon⟩, hdecided⟩
  exact ⟨q, earlier, hsent, hqid, bs, t, hbs, hdaemon, hdecided⟩

open Connection (plainText plain_compact)

theorem capabilitiesAsks_isSome :
    (run (step plainText readCapabilities) capabilitiesStart [.begin 1]).isSome = true := by
  decide +kernel

theorem answer_reachable_capabilities : ∃ s,
    run (step plainText readCapabilities) capabilitiesStart [.begin 1] = some s ∧
      ∃ q earlier, s.sent = q :: earlier ∧ q.id = some "attach-1" ∧
        ∃ bs t, run (step plainText readCapabilities) s bs = some t ∧
          (∀ b ∈ bs, IsDaemon World.allFail b) ∧ Decided plainText q s t := by
  have hrun := (Option.some_get capabilitiesAsks_isSome).symm
  refine ⟨_, hrun, answer_reachable plain_compact 5 [] (World.init 5) rfl .capabilities _
    ⟨none, none, 5⟩ 0 [.begin 1] _ hrun ?_ "attach-1" (by decide +kernel) World.allFail
    ⟨fun _ _ _ _ _ => rfl, fun call _ frame _ _ => World.allFail_serves call frame,
      fun call frame _ => World.allFail_serves call frame⟩⟩
  unfold ReadsBack
  decide +kernel

end Conversation

end Lspee
