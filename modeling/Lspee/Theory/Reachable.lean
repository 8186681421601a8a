import Lspee.Core.Socket

/-!
# One Daemon for a Project

Whether a daemon can take the socket away from another. A daemon that starts
asks whether there is a file, not whether somebody listens on it. Two clients
that both find nobody both start a daemon, and the second removes the file of
the first, which goes on serving where nobody can reach it, and which removes
the file of whoever is there once it stops.

A daemon in its stop sequence may be counted as live or not: it still has the
file, but takes no connections. `socket_exact` is for either way of counting.

Between the check of the path and the removal anything may happen. So there are
three ways to remove the file of somebody who is live, and the condition is that
none is taken (`StartCond`): a daemon that starts sees the file of a live one, a
daemon that stops sees the file of another live one, or somebody binds while one of
them is between its check and its removal. Then whoever is about to remove the file
is in nobody's way (`Guarded`), and one live daemon is all there ever is. Once one of
the ways has been taken, the removal may be next.

## Main definitions

* `live`, `Live`: The daemons that count as live.
* `Safe`: No daemon removes the file of another live one, and a live daemon is
  the only one and the one that is reached.
* `StartCond`: What a daemon finds when it checks the path and when it binds.
* `Guarded`: Nobody is in the way of a removal.
* `Effect`: What a step does to the file and to the daemons.

## Theorems

* `step_effect`: Every step is one of these.
* `safe_setDaemon`: A daemon goes on without becoming live.
* `safe_step`, `guarded_step`: What one step keeps.
* `removes_live`: A removal that is on its way hits a live daemon.
* `socket_exact`: When a daemon only unlinks its own socket.
* `second_daemon`: Two clients that start two daemons.
-/

namespace Lspee

open Transition

namespace Socket

/-- The daemon serves, or, if that is counted, is in its stop sequence. -/
def live (counted : Bool) : DaemonPc → Bool
  | .serving => true
  | .stopping => counted
  | .unlinking => counted
  | _ => false

/-- The daemon is live. -/
def Live (counted : Bool) (s : Socket) (daemon : DaemonId) : Prop :=
  ∃ pc, s.daemons.get? daemon = some pc ∧ live counted pc = true

/-- No daemon has removed the file of another live one, at most one daemon is
    live, and it is the one that clients reach. -/
structure Safe (counted : Bool) (s : Socket) : Prop where
  ownFile : ∀ removal ∈ s.removals, live counted removal.ownerPc = true →
    removal.owner = removal.remover
  unique : ∀ daemon other, Live counted s daemon → Live counted s other → daemon = other
  reachable : ∀ daemon, Live counted s daemon → s.reach = some daemon

/-- A daemon that starts sees no file of a live daemon, one that stops sees none of
    another live daemon, and nobody binds while another daemon is between its check of
    the path and its removal. -/
def StartCond (counted : Bool) (s : Socket) : SocketAction → Prop
  | .check _ => ∀ owner, s.path = some owner → ¬Live counted s owner
  | .swept daemon => ∀ owner, s.path = some owner → owner ≠ daemon → ¬Live counted s owner
  | .bind _ => s.path = none → ∀ other, s.daemons.get? other ≠ some .clearing ∧
      s.daemons.get? other ≠ some .unlinking
  | _ => True

/-- Nobody is live when a starting daemon is about to remove the file, and nobody else when
    a stopping one is. -/
structure Guarded (counted : Bool) (s : Socket) : Prop where
  clearing : ∀ daemon, s.daemons.get? daemon = some .clearing → ∀ other, ¬Live counted s other
  unlinking : ∀ daemon, s.daemons.get? daemon = some .unlinking →
    ∀ other, other ≠ daemon → ¬Live counted s other

/-- When a starting daemon removes the file it found, no daemon is live; when a
    daemon removes the file at its end, no other is. -/
def AloneCond (counted : Bool) (s : Socket) : SocketAction → Prop
  | .clear _ true => ∀ other, ¬Live counted s other
  | .unlink daemon true => ∀ other, other ≠ daemon → ¬Live counted s other
  | _ => True

/-! ### What a step does -/

/-- What a step does to the file and to the daemons. -/
inductive Effect (s : Socket) : SocketAction → Socket → Prop where
  | clients (a : SocketAction) (s' : Socket) (hpath : s'.path = s.path)
      (hdaemons : s'.daemons = s.daemons) (hremovals : s'.removals = s.removals) : Effect s a s'
  | started (a : SocketAction) (s' : Socket) (daemon : DaemonId) (hpath : s'.path = s.path)
      (hdaemons : s'.daemons = s.daemons.set daemon .starting)
      (hremovals : s'.removals = s.removals) : Effect s a s'
  | checked (daemon : DaemonId) (hget : s.daemons.get? daemon = some .starting) :
      Effect s (.check daemon)
        (s.setDaemon daemon (if s.path.isSome then .clearing else .binding))
  | cleared (daemon : DaemonId) (ok : Bool) (hget : s.daemons.get? daemon = some .clearing) :
      Effect s (.clear daemon ok)
        ((if ok then s.removeFile daemon else s).setDaemon daemon .binding)
  | bound (daemon : DaemonId) (hget : s.daemons.get? daemon = some .binding)
      (hpath : s.path = none) :
      Effect s (.bind daemon) ({ s with path := some daemon }.setDaemon daemon .serving)
  | occupied (daemon : DaemonId) : Effect s (.bind daemon) (s.setDaemon daemon .exited)
  | signalled (daemon : DaemonId) (hget : s.daemons.get? daemon = some .serving) :
      Effect s (.signal daemon) (s.setDaemon daemon .stopping)
  | swept (daemon : DaemonId) (hget : s.daemons.get? daemon = some .stopping) :
      Effect s (.swept daemon)
        (s.setDaemon daemon (if s.path.isSome then .unlinking else .exited))
  | unlinked (daemon : DaemonId) (ok : Bool) (hget : s.daemons.get? daemon = some .unlinking) :
      Effect s (.unlink daemon ok)
        ((if ok then s.removeFile daemon else s).setDaemon daemon .exited)
  | died (daemon : DaemonId) : Effect s (.die daemon) (s.setDaemon daemon .exited)

theorem attempt_effect (s : Socket) (a : SocketAction) (client : ClientId) (pc : ClientPc) :
    Effect s a (s.attempt client pc) := by
  unfold attempt
  cases s.reach with
  | none => exact .clients a _ rfl rfl rfl
  | some daemon => exact .clients a _ rfl rfl rfl

theorem startDaemon_eq_some (s s' : Socket) (daemon : DaemonId)
    (h : s.startDaemon daemon = some s') : s' = s.setDaemon daemon .starting := by
  unfold startDaemon at h
  split at h
  · cases h
  · exact (Option.some.inj h).symm

theorem step_effect (s s' : Socket) (a : SocketAction) (hstep : s.step a = some s') :
    Effect s a s' := by
  cases a with
  | serve daemon =>
      rw [startDaemon_eq_some s s' daemon hstep]
      exact .started _ _ daemon rfl rfl rfl
  | check daemon =>
      simp only [step] at hstep
      split at hstep
      · rename_i hget
        rw [← Option.some.inj hstep]
        exact .checked daemon hget
      · cases hstep
  -- The daemon goes on to bind whether or not the file could be removed.
  | clear daemon ok =>
      simp only [step] at hstep
      split at hstep
      · rename_i hget
        rw [← Option.some.inj hstep]
        exact .cleared daemon ok hget
      · cases hstep
  | bind daemon =>
      simp only [step] at hstep
      split at hstep
      · rename_i hget
        split at hstep
        · rename_i hpath
          rw [← Option.some.inj hstep]
          exact .bound daemon hget hpath
        · rw [← Option.some.inj hstep]
          -- The path is taken: the daemon exits without having listened.
          exact .occupied daemon
      · cases hstep
  | signal daemon =>
      simp only [step] at hstep
      split at hstep
      · rename_i hget
        rw [← Option.some.inj hstep]
        exact .signalled daemon hget
      · cases hstep
  | swept daemon =>
      simp only [step] at hstep
      split at hstep
      · rename_i hget
        rw [← Option.some.inj hstep]
        exact .swept daemon hget
      · cases hstep
  | unlink daemon ok =>
      simp only [step] at hstep
      split at hstep
      · rename_i hget
        rw [← Option.some.inj hstep]
        exact .unlinked daemon ok hget
      · cases hstep
  | die daemon =>
      simp only [step] at hstep
      split at hstep
      · rw [← Option.some.inj hstep]
        exact .died daemon
      · cases hstep
  | arrive client autoStart =>
      simp only [step] at hstep
      split at hstep
      · cases hstep
      · rw [← Option.some.inj hstep]
        exact .clients _ _ rfl rfl rfl
  | connect client =>
      simp only [step] at hstep
      split at hstep
      · rw [← Option.some.inj hstep]
        exact attempt_effect s _ client _
      · rw [← Option.some.inj hstep]
        exact attempt_effect s _ client _
      · cases hstep
  | connectError client =>
      simp only [step] at hstep
      split at hstep
      · rw [← Option.some.inj hstep]
        exact .clients _ _ rfl rfl rfl
      · rw [← Option.some.inj hstep]
        exact .clients _ _ rfl rfl rfl
      · cases hstep
  | spawn client daemon =>
      simp only [step] at hstep
      split at hstep
      · rcases Option.map_eq_some_iff.mp hstep with ⟨u, hu, rfl⟩
        rw [startDaemon_eq_some s u daemon hu]
        exact .started _ _ daemon rfl rfl rfl
      · cases hstep
  | spawnError client =>
      simp only [step] at hstep
      split at hstep
      · rw [← Option.some.inj hstep]
        exact .clients _ _ rfl rfl rfl
      · cases hstep

/-! ### Nobody else's file -/

theorem safe_init (counted : Bool) : Safe counted init := by
  have hnone : ∀ daemon, ¬Live counted init daemon := by
    rintro daemon ⟨pc, hget, -⟩
    simp only [init, Table.get?_empty, reduceCtorEq] at hget
  refine ⟨fun removal hmem => ?_, fun daemon _ hlive => absurd hlive (hnone daemon),
    fun daemon hlive => absurd hlive (hnone daemon)⟩
  exact absurd hmem List.not_mem_nil

theorem listening_of_live (counted : Bool) (pc : DaemonPc) (h : live counted pc = true) :
    listening pc = true := by
  cases pc with
  | serving => rfl
  | stopping => rfl
  | unlinking => rfl
  | starting => exact absurd h Bool.false_ne_true
  | clearing => exact absurd h Bool.false_ne_true
  | binding => exact absurd h Bool.false_ne_true
  | exited => exact absurd h Bool.false_ne_true

/-- A daemon is reached where the file is its own and its listener is open. -/
theorem reach_eq_some (s : Socket) (daemon : DaemonId) :
    s.reach = some daemon ↔ s.path = some daemon ∧
      ∃ pc, s.daemons.get? daemon = some pc ∧ listening pc = true := by
  unfold reach
  cases hpath : s.path with
  | none => simp only [reduceCtorEq, false_and]
  | some owner =>
      simp only [Option.some.injEq]
      constructor
      · intro h
        cases hget : s.daemons.get? owner with
        | none =>
            rw [hget] at h
            exact absurd h (by simp only [reduceCtorEq, not_false_eq_true])
        | some pc =>
            rw [hget] at h
            by_cases hlisten : listening pc = true
            · simp only [hlisten, if_true, Option.some.injEq] at h
              rw [← h]
              exact ⟨rfl, pc, hget, hlisten⟩
            · simp only [hlisten, if_false, Bool.false_eq_true, reduceCtorEq] at h
      · rintro ⟨rfl, pc, hget, hlisten⟩
        simp only [hget, hlisten, if_true]

theorem live_setDaemon (counted : Bool) (s : Socket) (daemon other : DaemonId) (pc : DaemonPc) :
    Live counted (s.setDaemon daemon pc) other ↔
      if other = daemon then live counted pc = true else Live counted s other := by
  unfold Live setDaemon
  simp only [Table.get?_set]
  by_cases h : other = daemon
  · rw [if_pos h]
    simp only [if_pos h, Option.some.injEq, exists_eq_left']
  · rw [if_neg h]
    simp only [if_neg h]

/-- A daemon goes on without becoming live. -/
theorem safe_setDaemon (counted : Bool) (s : Socket) (h : Safe counted s) (daemon : DaemonId)
    (pc : DaemonPc) (hpc : live counted pc = true → Live counted s daemon) :
    Safe counted (s.setDaemon daemon pc) := by
  have hlive : ∀ other, Live counted (s.setDaemon daemon pc) other → Live counted s other := by
    intro other hother
    rw [live_setDaemon] at hother
    by_cases heq : other = daemon
    · rw [if_pos heq] at hother
      rw [heq]
      exact hpc hother
    · rw [if_neg heq] at hother
      exact hother
  refine ⟨h.ownFile, fun a b ha hb => h.unique a b (hlive a ha) (hlive b hb),
    fun other hother => ?_⟩
  rcases (reach_eq_some s other).mp (h.reachable other (hlive other hother)) with ⟨hpath, -⟩
  rcases hother with ⟨pc', hget, hlive'⟩
  exact (reach_eq_some _ other).mpr ⟨hpath, pc', hget, listening_of_live counted pc' hlive'⟩

/-- Only the file, the daemons and the removals matter. -/
theorem safe_same (counted : Bool) (s s' : Socket) (h : Safe counted s)
    (hpath : s'.path = s.path) (hdaemons : s'.daemons = s.daemons)
    (hremovals : s'.removals = s.removals) : Safe counted s' := by
  have hlive : ∀ daemon, Live counted s' daemon ↔ Live counted s daemon := by
    intro daemon
    unfold Live
    rw [hdaemons]
  refine ⟨fun removal hmem => h.ownFile removal (hremovals ▸ hmem),
    fun a b ha hb => h.unique a b ((hlive a).mp ha) ((hlive b).mp hb), fun daemon hd => ?_⟩
  rw [← h.reachable daemon ((hlive daemon).mp hd), reach, reach, hpath, hdaemons]

theorem removeFile_daemons (s : Socket) (daemon : DaemonId) :
    (s.removeFile daemon).daemons = s.daemons ∧ (s.removeFile daemon).path = none := by
  unfold removeFile
  split
  · exact ⟨rfl, rfl⟩
  · exact ⟨rfl, rfl⟩

/-- Once a daemon has removed the file and no other is live, nobody is. -/
theorem safe_removed (counted : Bool) (s : Socket) (h : Safe counted s) (daemon : DaemonId)
    (pc : DaemonPc) (hpc : live counted pc = false)
    (halone : ∀ other, other ≠ daemon → ¬Live counted s other) :
    Safe counted ((s.removeFile daemon).setDaemon daemon pc) := by
  rcases removeFile_daemons s daemon with ⟨hdaemons, -⟩
  -- The one that removes is not live after it, and nobody else was.
  have hnone : ∀ other, ¬Live counted ((s.removeFile daemon).setDaemon daemon pc) other := by
    intro other hother
    rw [live_setDaemon] at hother
    by_cases heq : other = daemon
    · rw [if_pos heq, hpc] at hother
      exact absurd hother Bool.false_ne_true
    · rw [if_neg heq] at hother
      refine halone other heq ?_
      unfold Live at hother ⊢
      rw [hdaemons] at hother
      exact hother
  refine ⟨fun removal hmem hlive => ?_, fun other _ hother => absurd hother (hnone other),
    fun other hother => absurd hother (hnone other)⟩
  simp only [setDaemon, removeFile] at hmem
  split at hmem
  · rename_i owner ownerPc hfile
    rcases List.mem_cons.mp hmem with hnew | hold
    -- The removal just made: its owner was live only if it was the remover.
    · rw [hnew] at hlive ⊢
      rcases Option.bind_eq_some_iff.mp hfile with ⟨owner', -, hmap⟩
      rcases Option.map_eq_some_iff.mp hmap with ⟨pc', hget, hpair⟩
      rw [Prod.mk.injEq] at hpair
      by_contra hne
      refine halone owner hne ⟨ownerPc, ?_, hlive⟩
      rw [← hpair.1, ← hpair.2, hget]
    · exact h.ownFile removal hold hlive
  · exact h.ownFile removal hmem hlive

theorem safe_step (counted : Bool) (s s' : Socket) (a : SocketAction) (h : Safe counted s)
    (hstep : s.step a = some s') (hC : AloneCond counted s a) : Safe counted s' := by
  -- A daemon that is not live afterwards makes nobody live.
  have hgoes : ∀ (u : Socket) daemon pc, Safe counted u → live counted pc = false →
      Safe counted (u.setDaemon daemon pc) := fun u daemon pc hu hpc =>
    safe_setDaemon counted u hu daemon pc fun hlive =>
      absurd (hpc.symm.trans hlive) Bool.false_ne_true
  cases step_effect s s' a hstep with
  | clients a s' hpath hdaemons hremovals =>
      exact safe_same counted s s' h hpath hdaemons hremovals
  | started a s' daemon hpath hdaemons hremovals =>
      exact safe_same counted _ s' (hgoes s daemon .starting h rfl) hpath hdaemons hremovals
  | checked daemon hget =>
      refine hgoes s daemon _ h ?_
      split <;> rfl
  | cleared daemon ok hget =>
      cases ok with
      | true => exact safe_removed counted s h daemon .binding rfl (fun other _ => hC other)
      | false => exact hgoes s daemon .binding h rfl
  | bound daemon hget hpath =>
      -- Without a file nobody is live.
      have hnone : ∀ other, ¬Live counted s other := by
        intro other hother
        rcases (reach_eq_some s other).mp (h.reachable other hother) with ⟨hsome, -⟩
        rw [hpath] at hsome
        exact absurd hsome (by simp only [reduceCtorEq, not_false_eq_true])
      have honly : ∀ other,
          Live counted ({ s with path := some daemon }.setDaemon daemon .serving) other →
            other = daemon := by
        intro other hother
        by_contra hne
        rw [live_setDaemon, if_neg hne] at hother
        exact hnone other hother
      refine ⟨h.ownFile, fun a b ha hb => by rw [honly a ha, honly b hb],
        fun other hother => ?_⟩
      rw [honly other hother, reach_eq_some]
      exact ⟨rfl, .serving, Table.get?_set_self _ _ _, rfl⟩
  | occupied daemon => exact hgoes s daemon .exited h rfl
  | signalled daemon hget =>
      exact safe_setDaemon counted s h daemon .stopping (fun _ => ⟨.serving, hget, rfl⟩)
  | swept daemon hget =>
      refine safe_setDaemon counted s h daemon _ fun hlive => ⟨.stopping, hget, ?_⟩
      split at hlive
      · exact hlive
      · exact absurd hlive Bool.false_ne_true
  | unlinked daemon ok hget =>
      cases ok with
      | true => exact safe_removed counted s h daemon .exited rfl hC
      | false => exact hgoes s daemon .exited h rfl
  | died daemon => exact hgoes s daemon .exited h rfl

/-! ### Who is in the way -/

theorem guarded_init (counted : Bool) : Guarded counted init := by
  refine ⟨fun daemon hget => ?_, fun daemon hget => ?_⟩
  · simp only [init, Table.get?_empty, reduceCtorEq] at hget
  · simp only [init, Table.get?_empty, reduceCtorEq] at hget

/-- Whoever is about to remove the file is alone. -/
theorem alone_of_guarded (counted : Bool) (s s' : Socket) (a : SocketAction)
    (h : Guarded counted s) (hstep : s.step a = some s') : AloneCond counted s a := by
  cases a with
  | clear daemon ok =>
      cases ok with
      | false => trivial
      | true =>
          simp only [step] at hstep
          split at hstep
          · rename_i hget
            exact h.clearing daemon hget
          · cases hstep
  | unlink daemon ok =>
      cases ok with
      | false => trivial
      | true =>
          simp only [step] at hstep
          split at hstep
          · rename_i hget
            exact h.unlinking daemon hget
          · cases hstep
  | _ => trivial

/-- A daemon goes on without becoming live. If it is to remove the file next, it is in
    nobody's way. -/
theorem guarded_setDaemon (counted : Bool) (s : Socket) (h : Guarded counted s)
    (daemon : DaemonId) (pc : DaemonPc) (hpc : live counted pc = true → Live counted s daemon)
    (hclearing : pc = .clearing → ∀ other, ¬Live counted s other)
    (hunlinking : pc = .unlinking → ∀ other, other ≠ daemon → ¬Live counted s other) :
    Guarded counted (s.setDaemon daemon pc) := by
  -- No daemon becomes live by this.
  have hlive : ∀ other, Live counted (s.setDaemon daemon pc) other → Live counted s other := by
    intro other hother
    rw [live_setDaemon] at hother
    by_cases heq : other = daemon
    · rw [if_pos heq] at hother
      rw [heq]
      exact hpc hother
    · rw [if_neg heq] at hother
      exact hother
  refine ⟨fun d hget other hother => ?_, fun d hget other hne hother => ?_⟩
  · rw [setDaemon, Table.get?_set] at hget
    by_cases hd : d = daemon
    · rw [if_pos hd, Option.some.injEq] at hget
      exact hclearing hget other (hlive other hother)
    · rw [if_neg hd] at hget
      exact h.clearing d hget other (hlive other hother)
  · rw [setDaemon, Table.get?_set] at hget
    by_cases hd : d = daemon
    · rw [if_pos hd, Option.some.injEq] at hget
      exact hunlinking hget other (hd ▸ hne) (hlive other hother)
    · rw [if_neg hd] at hget
      exact h.unlinking d hget other hne (hlive other hother)

/-- A daemon goes on to where it removes nothing. -/
theorem guarded_goes (counted : Bool) (s : Socket) (h : Guarded counted s) (daemon : DaemonId)
    (pc : DaemonPc) (hpc : live counted pc = true → Live counted s daemon)
    (hclearing : pc ≠ .clearing) (hunlinking : pc ≠ .unlinking) :
    Guarded counted (s.setDaemon daemon pc) :=
  guarded_setDaemon counted s h daemon pc hpc (fun heq => absurd heq hclearing)
    (fun heq => absurd heq hunlinking)

theorem guarded_same (counted : Bool) (s s' : Socket) (h : Guarded counted s)
    (hsame : s'.daemons = s.daemons) : Guarded counted s' := by
  refine ⟨fun daemon hget other hother => ?_, fun daemon hget other hne hother => ?_⟩
  · rw [hsame] at hget
    unfold Live at hother
    rw [hsame] at hother
    exact h.clearing daemon hget other hother
  · rw [hsame] at hget
    unfold Live at hother
    rw [hsame] at hother
    exact h.unlinking daemon hget other hne hother

/-- A live daemon is the owner of the file. -/
theorem path_of_live (counted : Bool) (s : Socket) (h : Safe counted s) (daemon : DaemonId)
    (hlive : Live counted s daemon) : s.path = some daemon :=
  ((reach_eq_some s daemon).mp (h.reachable daemon hlive)).1

theorem guarded_step (counted : Bool) (s s' : Socket) (a : SocketAction) (hsafe : Safe counted s)
    (h : Guarded counted s) (hstep : s.step a = some s') (hC : StartCond counted s a) :
    Guarded counted s' := by
  -- A daemon that is not live afterwards, and removes nothing next.
  have hgoes : ∀ (u : Socket) daemon pc, Guarded counted u → live counted pc = false →
      pc ≠ .clearing → pc ≠ .unlinking → Guarded counted (u.setDaemon daemon pc) :=
    fun u daemon pc hu hpc => guarded_goes counted u hu daemon pc fun hlive =>
      absurd (hpc.symm.trans hlive) Bool.false_ne_true
  have hremoved : ∀ (daemon : DaemonId) (ok : Bool),
      Guarded counted (if ok then s.removeFile daemon else s) := by
    intro daemon ok
    cases ok with
    | true => exact guarded_same counted s _ h (removeFile_daemons s daemon).1
    | false => exact h
  cases step_effect s s' a hstep with
  | clients a s' hpath hdaemons hremovals => exact guarded_same counted s s' h hdaemons
  | started a s' daemon hpath hdaemons hremovals =>
      exact guarded_same counted _ s' (hgoes s daemon .starting h rfl (by simp) (by simp)) hdaemons
  | checked daemon hget =>
      cases hpath : s.path with
      | none => exact hgoes s daemon .binding h rfl (by simp) (by simp)
      | some owner =>
          -- The file it has seen is nobody's who is live.
          refine guarded_setDaemon counted s h daemon .clearing
            (fun hlive => absurd hlive Bool.false_ne_true) (fun _ other hlive => ?_) (by simp)
          exact hC other (path_of_live counted s hsafe other hlive) hlive
  | cleared daemon ok hget =>
      exact hgoes _ daemon .binding (hremoved daemon ok) rfl (by simp) (by simp)
  | bound daemon hget hpath =>
      -- Nobody is between its check and its removal, so nobody need be alone.
      have hnobody : ∀ d pc, (pc = .clearing ∨ pc = .unlinking) →
          ({ s with path := some daemon }.setDaemon daemon .serving).daemons.get? d ≠
            some pc := by
        intro d pc hpc hget
        rw [setDaemon, Table.get?_set] at hget
        by_cases hd : d = daemon
        · rw [if_pos hd, Option.some.injEq] at hget
          rcases hpc with rfl | rfl <;> cases hget
        · rw [if_neg hd] at hget
          rcases hpc with rfl | rfl
          · exact (hC hpath d).1 hget
          · exact (hC hpath d).2 hget
      exact ⟨fun d hget => absurd hget (hnobody d _ (.inl rfl)),
        fun d hget => absurd hget (hnobody d _ (.inr rfl))⟩
  | occupied daemon => exact hgoes s daemon .exited h rfl (by simp) (by simp)
  | signalled daemon hget =>
      exact guarded_goes counted s h daemon .stopping (fun _ => ⟨.serving, hget, rfl⟩)
        (by simp) (by simp)
  | swept daemon hget =>
      cases hpath : s.path with
      | none => exact hgoes s daemon .exited h rfl (by simp) (by simp)
      | some owner =>
          -- The file it has seen is its own, or nobody's who is live.
          refine guarded_setDaemon counted s h daemon .unlinking
            (fun hlive => ⟨.stopping, hget, hlive⟩) (by simp) fun _ other hne hlive => ?_
          exact hC other (path_of_live counted s hsafe other hlive) hne hlive
  | unlinked daemon ok hget =>
      exact hgoes _ daemon .exited (hremoved daemon ok) rfl (by simp) (by simp)
  | died daemon => exact hgoes s daemon .exited h rfl (by simp) (by simp)

/-! ### The removal that is next -/

/-- A daemon that is between its check and its removal, when the file is that of another
    live one, removes it. -/
theorem removes_live (counted : Bool) (s : Socket) (daemon owner : DaemonId) (hne : owner ≠ daemon)
    (hpc : s.daemons.get? daemon = some .clearing ∨ s.daemons.get? daemon = some .unlinking)
    (hpath : s.path = some owner) (hlive : Live counted s owner) :
    ∃ b s', s.step b = some s' ∧ ¬Safe counted s' := by
  rcases hlive with ⟨pc, hget, hlive⟩
  have hremoved : (s.removeFile daemon).removals = ⟨daemon, owner, pc⟩ :: s.removals := by
    simp only [removeFile, hpath, Option.bind_some, hget, Option.map_some]
  have hunsafe : ∀ pc', ¬Safe counted ((s.removeFile daemon).setDaemon daemon pc') := by
    intro pc' hsafe
    refine hne (hsafe.ownFile ⟨daemon, owner, pc⟩ ?_ hlive)
    change _ ∈ (s.removeFile daemon).removals
    rw [hremoved]
    exact List.mem_cons_self
  rcases hpc with hpc | hpc
  · exact ⟨.clear daemon true, _, by simp only [step, hpc, if_true], hunsafe .binding⟩
  · exact ⟨.unlink daemon true, _, by simp only [step, hpc, if_true], hunsafe .exited⟩

/-- Once a step has not met the condition, the file of a live daemon may be removed in the
    next one. -/
theorem removes_next (counted : Bool) (s s' : Socket) (a : SocketAction)
    (hstep : s.step a = some s') (hC : ¬StartCond counted s a) :
    ∃ b s'', s'.step b = some s'' ∧ ¬Safe counted s'' := by
  -- A daemon sees the file of another one that is live.
  have hsees : ∀ daemon owner pc pc', s.daemons.get? daemon = some pc → owner ≠ daemon →
      s.path = some owner → Live counted s owner → (pc' = .clearing ∨ pc' = .unlinking) →
      s' = s.setDaemon daemon pc' → ∃ b s'', s'.step b = some s'' ∧ ¬Safe counted s'' := by
    rintro daemon owner pc pc' _ hne hpath hlive hpc' rfl
    refine removes_live counted _ daemon owner hne ?_ hpath ?_
    · rcases hpc' with rfl | rfl
      · exact .inl (Table.get?_set_self _ _ _)
      · exact .inr (Table.get?_set_self _ _ _)
    · rw [live_setDaemon, if_neg hne]
      exact hlive
  cases a with
  | check daemon =>
      simp only [StartCond, not_forall, not_not] at hC
      rcases hC with ⟨owner, hpath, hlive⟩
      simp only [step] at hstep
      split at hstep
      · rename_i hget
        refine hsees daemon owner _ .clearing hget ?_ hpath hlive (.inl rfl) ?_
        · -- a daemon that starts is not live
          rintro rfl
          rcases hlive with ⟨pc, hpc, hlive⟩
          rw [hget, Option.some.injEq] at hpc
          rw [← hpc] at hlive
          cases hlive
        · simpa [hpath] using hstep.symm
      · cases hstep
  | swept daemon =>
      simp only [StartCond, not_forall, not_not] at hC
      rcases hC with ⟨owner, hpath, hne, hlive⟩
      simp only [step] at hstep
      split at hstep
      · rename_i hget
        exact hsees daemon owner _ .unlinking hget hne hpath hlive (.inr rfl)
          (by simpa [hpath] using hstep.symm)
      · cases hstep
  | bind daemon =>
      simp only [StartCond, not_forall] at hC
      rcases hC with ⟨hpath, other, hother⟩
      simp only [step, hpath] at hstep
      split at hstep
      · rename_i hbinding
        rw [Option.some.injEq] at hstep
        rw [← hstep]
        have hpc : s.daemons.get? other = some .clearing ∨
            s.daemons.get? other = some .unlinking := by
          by_contra hneither
          exact hother (not_or.mp hneither)
        have hne : daemon ≠ other := by
          rintro rfl
          rw [hbinding] at hpc
          simp at hpc
        -- The file that is removed is the new one.
        refine removes_live counted _ other daemon hne ?_ rfl
          ⟨.serving, Table.get?_set_self _ _ _, rfl⟩
        rw [setDaemon, Table.get?_set_ne _ _ _ _ hne.symm]
        exact hpc
      · cases hstep
  | _ => exact absurd trivial hC

/-- Daemons only ever unlink their own sockets, and the one live daemon is the one that
    clients reach, in every run in which no daemon checks the path when the file of
    another live one is there, and nobody binds while another is between its check and
    its removal. A step that does so may be followed at once by one that takes the file
    of a live daemon. This is so whether or not a daemon in its stop sequence counts. -/
theorem socket_exact (counted : Bool) (as : List SocketAction) :
    (Along step (StartCond counted) init as → Always step (Safe counted) init as) ∧
      ∀ s a s', run step init as = some s → s.step a = some s' → ¬StartCond counted s a →
        ∃ b s'', s'.step b = some s'' ∧ ¬Safe counted s'' := by
  refine ⟨fun hcond => ?_, fun s a s' _ hstep hC => removes_next counted s s' a hstep hC⟩
  exact always_of_invariant (I := fun s => Safe counted s ∧ Guarded counted s)
    (fun s a s' hs hstep hC => ⟨safe_step counted s s' a hs.1 hstep
      (alone_of_guarded counted s s' a hs.2 hstep),
      guarded_step counted s s' a hs.1 hs.2 hstep hC⟩)
    (fun s hs => hs.1) as init ⟨safe_init counted, guarded_init counted⟩ hcond

/-- Two clients find nobody and each start a daemon. The first daemon binds and
    serves before the second looks at the path. -/
def twoDaemons : List SocketAction :=
  [.arrive 0 true, .arrive 1 true, .connect 0, .connect 1, .spawn 0 0, .spawn 1 1,
    .check 0, .bind 0, .check 1, .clear 1 true, .bind 1]

theorem twoDaemons_isSome : (run step init twoDaemons).isSome = true := by decide

/-- The second daemon takes the place of the first, which still serves. -/
theorem second_daemon : ¬∀ (counted : Bool) (as : List SocketAction),
    Always step (Safe counted) init as := by
  intro hall
  have hsafe := always_last twoDaemons init _ (Option.some_get twoDaemons_isSome).symm
    (hall false twoDaemons)
  have hfirst : Live false ((run step init twoDaemons).get twoDaemons_isSome) 0 :=
    ⟨.serving, by decide, rfl⟩
  have hsecond : Live false ((run step init twoDaemons).get twoDaemons_isSome) 1 :=
    ⟨.serving, by decide, rfl⟩
  exact absurd (hsafe.unique 0 1 hfirst hsecond) (by decide)

end Socket

end Lspee
