import Lspee.Core.Stream
import Lspee.Theory.Leases

/-!
# The End of a Dedicated Stream

Whether a dedicated stream releases its lease and stops its tasks when it ends.

`run_stream_connection` does so after its loop. But the loop can also be left
from within: when a line cannot be read, when it is no frame, and when the
runtime does not take a payload. Each of these returns at once, and then the
lease stays, and the forwarding tasks go on without anybody to stop them.

So the stream is torn down exactly if the client sends nothing but readable
frames up to a clean end, and the runtime takes all that is meant for it
(`tornDown_iff`). One malformed line is enough to leave the lease behind
(`stream_abandoned`).

## Main definitions

* `Readable`: The client sends readable frames up to a clean end.
* `taken`: A payload is taken.
* `TornDown`: The lease is released and the tasks are stopped.
* `Progress`: What the loop has seen so far.
* `Releasing`: What the release has done so far.

## Theorems

* `readable_line`, `not_readable_of_failed`: Reading on.
* `hosts_world`: The stream makes its calls in the world.
* `progress_step`, `releasing_step`: The invariants.
* `tornDown_iff`: The condition is exact.
* `stream_abandoned`: A run that breaks it.
-/

namespace Lspee

open Transition Utf8

variable (fromStr : List Char → Option StreamFrame)

/-- Every line is text and a frame, and the client closes its side. -/
inductive Readable : List UInt8 → Ending → Prop where
  | eof (bytes : List UInt8) (ending : Ending) (h : nextLine bytes ending = .eof) :
      Readable bytes ending
  | line (bytes rest : List UInt8) (ending : Ending) (text : List Char) (frame : StreamFrame)
      (h : nextLine bytes ending = .line text rest) (hframe : fromStr text = some frame)
      (hrest : Readable rest ending) : Readable bytes ending

theorem readable_line (bytes rest : List UInt8) (ending : Ending) (text : List Char)
    (h : nextLine bytes ending = .line text rest) :
    Readable fromStr bytes ending ↔ fromStr text ≠ none ∧ Readable fromStr rest ending := by
  constructor
  · intro hreadable
    cases hreadable with
    | eof _ _ heof =>
        rw [h] at heof
        exact absurd heof (by simp)
    | line _ rest' _ text' frame hline hframe hrest =>
        rw [h, NextLine.line.injEq] at hline
        rw [hline.1, hline.2, hframe]
        exact ⟨by simp, hrest⟩
  · rintro ⟨hframe, hrest⟩
    rcases Option.ne_none_iff_exists'.mp hframe with ⟨frame, hframe⟩
    exact .line bytes rest ending text frame h hframe hrest

theorem not_readable_of_failed (bytes : List UInt8) (ending : Ending)
    (h : nextLine bytes ending = .failed) : ¬Readable fromStr bytes ending := by
  intro hreadable
  cases hreadable with
  | eof _ _ heof =>
      rw [h] at heof
      exact absurd heof (by simp)
  | line _ rest _ text frame hline hframe hrest =>
      rw [h] at hline
      exact absurd hline (by simp)

namespace Stream

/-- The step of the world an action is. -/
def inner : StreamAction → Option Action
  | .world a => some a
  | _ => none

/-- The runtime takes the payload, if the action is about one. -/
def taken : StreamAction → Bool
  | .sent ok => ok
  | _ => true

theorem eq_of_not_taken (a : StreamAction) (h : taken a ≠ true) : a = .sent false := by
  cases a with
  | sent ok =>
      cases ok with
      | true => exact absurd rfl h
      | false => rfl
  | _ => exact absurd rfl h

/-- The connection has released its lease once, the lease is out, and the tasks
    that forward to the client are stopped. -/
structure TornDown (s : Stream) : Prop where
  releases : s.releases = 1
  gone : s.world.reg.leases.get? s.leaseId = none
  runtimeTask : s.runtimeTask = .stopped
  eventTask : s.eventTask = .stopped

/-! ### The stream in the world -/

theorem step_cases (s s' : Stream) (a : StreamAction) (h : s.step fromStr a = some s') :
    s'.leaseId = s.leaseId ∧ ((∃ b, a = .world b ∧ s.world.step b = some s'.world) ∨
      inner a = none ∧ (s'.world = s.world ∨
        ∃ call, s.pc = .draining ∧ s'.pc = .releasing call ∧
          s.world.step (.start call (.releaseByLeaseId s.leaseId)) = some s'.world)) := by
  cases a with
  | world b =>
      rcases Option.map_eq_some_iff.mp h with ⟨w, hw, hs'⟩
      rw [← hs']
      exact ⟨rfl, Or.inl ⟨b, rfl, hw⟩⟩
  | read =>
      simp only [step] at h
      split at h
      · rw [← Option.some.inj h]
        unfold handleLine
        split
        · exact ⟨rfl, Or.inr ⟨rfl, Or.inl rfl⟩⟩
        · split
          · exact ⟨rfl, Or.inr ⟨rfl, Or.inl rfl⟩⟩
          · split <;> exact ⟨rfl, Or.inr ⟨rfl, Or.inl rfl⟩⟩
      · rw [← Option.some.inj h]
        exact ⟨rfl, Or.inr ⟨rfl, Or.inl rfl⟩⟩
      · rw [← Option.some.inj h]
        exact ⟨rfl, Or.inr ⟨rfl, Or.inl rfl⟩⟩
      · exact absurd h (by simp)
  | sent ok =>
      simp only [step] at h
      split at h
      · split at h
        · rw [← Option.some.inj h]
          exact ⟨rfl, Or.inr ⟨rfl, Or.inl rfl⟩⟩
        · rw [← Option.some.inj h]
          exact ⟨rfl, Or.inr ⟨rfl, Or.inl rfl⟩⟩
      · exact absurd h (by simp)
  | runtimeTaskEnds =>
      rw [← Option.some.inj h]
      exact ⟨rfl, Or.inr ⟨rfl, Or.inl rfl⟩⟩
  | eventTaskEnds =>
      rw [← Option.some.inj h]
      exact ⟨rfl, Or.inr ⟨rfl, Or.inl rfl⟩⟩
  | writeFails =>
      rw [← Option.some.inj h]
      exact ⟨rfl, Or.inr ⟨rfl, Or.inl rfl⟩⟩
  | writerDrained =>
      simp only [step, Option.ite_none_right_eq_some, Option.some.injEq] at h
      rw [← h.2]
      exact ⟨rfl, Or.inr ⟨rfl, Or.inl rfl⟩⟩
  | join call =>
      -- The one action of the stream's own that moves the registry: it calls the release.
      simp only [step] at h
      split at h
      · rename_i hpc _
        rcases Option.map_eq_some_iff.mp h with ⟨w, hw, hs'⟩
        rw [← hs']
        exact ⟨rfl, Or.inr ⟨rfl, Or.inr ⟨call, hpc, rfl, hw⟩⟩⟩
      · exact absurd h (by simp)
  | finish =>
      simp only [step] at h
      split at h
      · split at h
        · rw [← Option.some.inj h]
          exact ⟨rfl, Or.inr ⟨rfl, Or.inl rfl⟩⟩
        · exact absurd h (by simp)
      · exact absurd h (by simp)

theorem hosts_world : Hosts (step fromStr) Stream.world inner where
  inside := by
    intro s a s' b hstep hinner
    rcases (step_cases fromStr s s' a hstep).2 with ⟨b', ha, hb'⟩ | ⟨hnone, _⟩
    · rw [ha, inner, Option.some.injEq] at hinner
      rw [← hinner]
      exact hb'
    · rw [hnone] at hinner
      exact absurd hinner (by simp)
  outside := by
    intro s a s' hstep hinner
    rcases (step_cases fromStr s s' a hstep).2 with ⟨b', ha, _⟩ | ⟨_, hsame | ⟨call, _, _, hb⟩⟩
    · rw [ha] at hinner
      exact absurd hinner (by simp [inner])
    · exact Or.inl hsame
    · exact Or.inr ⟨call, _, hb⟩

/-! ### What the loop has seen -/

/-- While the loop runs, the bytes still to be read are readable if all were.
    After it, all were; after an early return they were not, or, unless
    `allSent`, a payload was not taken. -/
def Progress (allSent : Prop) (bytes : List UInt8) (ending : Ending) (s : Stream) : Prop :=
  s.ending = ending ∧
    match s.pc with
    | .reading => s.releases = 0 ∧
        (Readable fromStr bytes ending ↔ Readable fromStr s.bytes ending)
    | .sending _ => s.releases = 0 ∧
        (Readable fromStr bytes ending ↔ Readable fromStr s.bytes ending)
    | .draining => s.releases = 0 ∧ Readable fromStr bytes ending ∧
        s.runtimeTask = .stopped ∧ s.eventTask = .stopped
    | .releasing _ => s.releases = 0 ∧ Readable fromStr bytes ending ∧
        s.runtimeTask = .stopped ∧ s.eventTask = .stopped
    | .returned true => s.releases = 1 ∧ Readable fromStr bytes ending ∧
        s.runtimeTask = .stopped ∧ s.eventTask = .stopped
    | .returned false => s.releases = 0 ∧ (allSent → ¬Readable fromStr bytes ending)

theorem progress_accept (allSent : Prop) (w : World) (leaseId : String) (bytes : List UInt8)
    (ending : Ending) : Progress fromStr allSent bytes ending (accept w leaseId bytes ending) :=
  ⟨rfl, rfl, Iff.rfl⟩

/-- A step that changes no more than the world and the state of tasks, and only
    stops tasks. -/
theorem progress_of_same (allSent : Prop) (bytes : List UInt8) (ending : Ending) (s s' : Stream)
    (h : Progress fromStr allSent bytes ending s) (hpc : s'.pc = s.pc)
    (hending : s'.ending = s.ending) (hbytes : s'.bytes = s.bytes)
    (hreleases : s'.releases = s.releases)
    (hruntime : s.runtimeTask = .stopped → s'.runtimeTask = .stopped)
    (hevent : s.eventTask = .stopped → s'.eventTask = .stopped) :
    Progress fromStr allSent bytes ending s' := by
  unfold Progress at *
  refine ⟨hending.trans h.1, ?_⟩
  have hmatch := h.2
  rw [hpc, hreleases, hbytes]
  split at hmatch
  · exact hmatch
  · exact hmatch
  · exact ⟨hmatch.1, hmatch.2.1, hruntime hmatch.2.2.1, hevent hmatch.2.2.2⟩
  · exact ⟨hmatch.1, hmatch.2.1, hruntime hmatch.2.2.1, hevent hmatch.2.2.2⟩
  · exact ⟨hmatch.1, hmatch.2.1, hruntime hmatch.2.2.1, hevent hmatch.2.2.2⟩
  · exact hmatch

/-- A line keeps the account of the loop. -/
theorem progress_handleLine (allSent : Prop) (bytes : List UInt8) (ending : Ending) (s : Stream)
    (text : List Char) (rest : List UInt8) (h : Progress fromStr allSent bytes ending s)
    (hpc : s.pc = .reading) (hline : nextLine s.bytes s.ending = .line text rest) :
    Progress fromStr allSent bytes ending (s.handleLine fromStr text rest) := by
  have hending := h.1
  have hmatch := h.2
  simp only [hpc] at hmatch
  rcases hmatch with ⟨hreleases, hreadable⟩
  rw [hending] at hline
  rw [readable_line fromStr s.bytes rest ending text hline] at hreadable
  unfold handleLine
  cases hframe : fromStr text with
  | none =>
      refine ⟨hending, hreleases, fun _ hread => ?_⟩
      exact (hreadable.mp hread).1 hframe
  | some frame =>
      -- The line is a frame, so what is readable is what follows it.
      have hrest : Readable fromStr bytes ending ↔ Readable fromStr rest ending := by
        rw [hreadable]
        simp [hframe]
      simp only
      by_cases hlease : frame.leaseId ≠ s.leaseId
      · rw [if_pos hlease]
        refine ⟨hending, ?_⟩
        simp only [hpc]
        exact ⟨hreleases, hrest⟩
      · rw [if_neg hlease]
        cases frame.frameType with
        | lspIn => exact ⟨hending, hreleases, hrest⟩
        | lspOut =>
            refine ⟨hending, ?_⟩
            simp only [hpc]
            exact ⟨hreleases, hrest⟩
        | streamError =>
            refine ⟨hending, ?_⟩
            simp only [hpc]
            exact ⟨hreleases, hrest⟩

theorem progress_step (allSent : Prop) (bytes : List UInt8) (ending : Ending) (s s' : Stream)
    (a : StreamAction) (h : Progress fromStr allSent bytes ending s)
    (hstep : s.step fromStr a = some s') (hsent : allSent → taken a = true) :
    Progress fromStr allSent bytes ending s' := by
  cases a with
  | world b =>
      rcases Option.map_eq_some_iff.mp hstep with ⟨w, hw, hs'⟩
      rw [← hs']
      exact progress_of_same fromStr allSent bytes ending s _ h rfl rfl rfl rfl (fun h => h)
        (fun h => h)
  | read =>
      have hending := h.1
      have hmatch := h.2
      simp only [step] at hstep
      split at hstep
      · rename_i hpc hline
        rw [← Option.some.inj hstep]
        exact progress_handleLine fromStr allSent bytes ending s _ _ h hpc hline
      · rename_i hpc hline
        rw [← Option.some.inj hstep]
        simp only [hpc] at hmatch
        rw [hending] at hline
        exact ⟨hending, hmatch.1, hmatch.2.mpr (.eof _ _ hline), rfl, rfl⟩
      · rename_i hpc hline
        rw [← Option.some.inj hstep]
        simp only [hpc] at hmatch
        rw [hending] at hline
        -- Where a line fails, the text is not readable to its end.
        refine ⟨hending, hmatch.1, fun _ hread => ?_⟩
        exact not_readable_of_failed fromStr s.bytes ending hline (hmatch.2.mp hread)
      · exact absurd hstep (by simp)
  -- The loop waits inside the line it has read.
  | sent ok =>
      have hmatch := h.2
      simp only [step] at hstep
      split at hstep
      · rename_i payload hpc
        simp only [hpc] at hmatch
        cases ok with
        | true =>
            rw [← Option.some.inj hstep]
            exact ⟨h.1, hmatch⟩
        | false =>
            -- A payload that was not taken ends the loop, so not all were.
            rw [← Option.some.inj hstep]
            exact ⟨h.1, hmatch.1, fun hall _ => Bool.false_ne_true (hsent hall)⟩
      · exact absurd hstep (by simp)
  | runtimeTaskEnds =>
      rw [← Option.some.inj hstep]
      exact progress_of_same fromStr allSent bytes ending s _ h rfl rfl rfl rfl (fun _ => rfl)
        (fun h => h)
  | eventTaskEnds =>
      rw [← Option.some.inj hstep]
      exact progress_of_same fromStr allSent bytes ending s _ h rfl rfl rfl rfl (fun h => h)
        (fun _ => rfl)
  | writeFails =>
      rw [← Option.some.inj hstep]
      exact progress_of_same fromStr allSent bytes ending s _ h rfl rfl rfl rfl (fun h => h)
        (fun h => h)
  | writerDrained =>
      simp only [step, Option.ite_none_right_eq_some, Option.some.injEq] at hstep
      rw [← hstep.2]
      exact progress_of_same fromStr allSent bytes ending s _ h rfl rfl rfl rfl (fun h => h)
        (fun h => h)
  | join call =>
      have hmatch := h.2
      simp only [step] at hstep
      split at hstep
      · rename_i hpc _
        rcases Option.map_eq_some_iff.mp hstep with ⟨w, hw, hs'⟩
        rw [← hs']
        simp only [hpc] at hmatch
        exact ⟨h.1, hmatch⟩
      · exact absurd hstep (by simp)
  | finish =>
      have hmatch := h.2
      simp only [step] at hstep
      split at hstep
      · rename_i call hpc
        simp only [hpc] at hmatch
        split at hstep
        · rw [← Option.some.inj hstep]
          -- One release more, and the end of the run.
          refine ⟨h.1, ?_⟩
          simp only
          exact ⟨by rw [hmatch.1], hmatch.2⟩
        · exact absurd hstep (by simp)
      · exact absurd hstep (by simp)

/-! ### What the release has done -/

/-- The lease was granted. Once the release is past its first section, the lease
    is out. -/
def Releasing (s : Stream) : Prop :=
  (∃ runtime, grantedOn s.leaseId s.world.log = some runtime) ∧
    match s.pc with
    | .releasing call => ∃ pc, s.world.calls.get? call = some (.release s.leaseId pc) ∧
        (pc ≠ .take → s.world.reg.leases.get? s.leaseId = none)
    | .returned true => s.world.reg.leases.get? s.leaseId = none
    | _ => True

/-- A step that leaves the connection and the registry where they are. -/
theorem releasing_of_same (s s' : Stream) (h : Releasing s) (hpc : s'.pc = s.pc)
    (hlease : s'.leaseId = s.leaseId) (hworld : s'.world = s.world) : Releasing s' := by
  unfold Releasing at *
  rw [hpc, hlease, hworld]
  exact h

theorem releasing_world (s s' : Stream) (b : Action) (hsound : World.LeaseSound s.world)
    (h : Releasing s) (hstep : s.step fromStr (.world b) = some s')
    (hnew : s.world.NewIdCond b) : Releasing s' := by
  rcases Option.map_eq_some_iff.mp hstep with ⟨w, hw, hs'⟩
  rw [← hs']
  rcases h with ⟨hgranted, hmatch⟩
  have hgone : s.world.reg.leases.get? s.leaseId = none → w.reg.leases.get? s.leaseId = none :=
    World.lease_gone s.world w b s.leaseId hsound.ids hw hnew hgranted
  refine ⟨wasGranted_step s.world w b hw s.leaseId hgranted, ?_⟩
  cases hpc : s.pc with
  | releasing call =>
      simp only [hpc] at hmatch ⊢
      rcases hmatch with ⟨pc, hcall, hout⟩
      rcases World.release_step s.world w b hw call s.leaseId pc hcall with
        ⟨pc', hcall', htake, hpast⟩
      refine ⟨pc', hcall', fun hne => ?_⟩
      by_cases hpc' : pc = .take
      · rcases htake hpc' with heq | hnow
        · exact absurd heq hne
        · exact hnow
      · exact hgone (hout hpc')
  | returned ok =>
      simp only [hpc] at hmatch ⊢
      cases ok with
      | true => exact hgone hmatch
      | false => trivial
  | _ => trivial

theorem releasing_step (s s' : Stream) (a : StreamAction) (hsound : World.LeaseSound s.world)
    (h : Releasing s) (hstep : s.step fromStr a = some s')
    (hnew : NewIdIn Stream.world inner s a) : Releasing s' := by
  cases a with
  | world b => exact releasing_world fromStr s s' b hsound h hstep (hnew b rfl)
  | read =>
      -- Reading a line begins no release.
      have hworld : s'.leaseId = s.leaseId ∧ s'.world = s.world ∧
          (∀ call, s'.pc ≠ .releasing call) ∧ s'.pc ≠ .returned true := by
        simp only [step] at hstep
        split at hstep
        · rename_i hpc _
          rw [← Option.some.inj hstep]
          unfold handleLine
          split
          · exact ⟨rfl, rfl, by simp [fail], by simp [fail]⟩
          · split
            · exact ⟨rfl, rfl, by simp [hpc], by simp [hpc]⟩
            · split
              · exact ⟨rfl, rfl, by simp, by simp⟩
              · exact ⟨rfl, rfl, by simp [hpc], by simp [hpc]⟩
              · exact ⟨rfl, rfl, by simp [hpc], by simp [hpc]⟩
        · rw [← Option.some.inj hstep]
          exact ⟨rfl, rfl, by simp [abortTasks], by simp [abortTasks]⟩
        · rw [← Option.some.inj hstep]
          exact ⟨rfl, rfl, by simp [fail], by simp [fail]⟩
        · exact absurd hstep (by simp)
      rcases hworld with ⟨hlease, hworld, hreleasing, hreturned⟩
      refine ⟨by rw [hlease, hworld]; exact h.1, ?_⟩
      split
      · exact absurd ‹_› (hreleasing _)
      · exact absurd ‹_› hreturned
      · trivial
  | sent ok =>
      simp only [step] at hstep
      split at hstep
      · cases ok with
        | true =>
            rw [← Option.some.inj hstep]
            exact ⟨h.1, trivial⟩
        | false =>
            rw [← Option.some.inj hstep]
            exact ⟨h.1, trivial⟩
      · exact absurd hstep (by simp)
  | runtimeTaskEnds =>
      rw [← Option.some.inj hstep]
      exact releasing_of_same s _ h rfl rfl rfl
  | eventTaskEnds =>
      rw [← Option.some.inj hstep]
      exact releasing_of_same s _ h rfl rfl rfl
  | writeFails =>
      rw [← Option.some.inj hstep]
      exact releasing_of_same s _ h rfl rfl rfl
  | writerDrained =>
      simp only [step, Option.ite_none_right_eq_some, Option.some.injEq] at hstep
      rw [← hstep.2]
      exact releasing_of_same s _ h rfl rfl rfl
  | join call =>
      simp only [step] at hstep
      split at hstep
      · rcases Option.map_eq_some_iff.mp hstep with ⟨w, hw, hs'⟩
        rw [← hs']
        -- The call has only begun, so nothing has returned yet.
        refine ⟨wasGranted_step s.world w _ hw s.leaseId h.1, .take, ?_, fun hne => absurd rfl hne⟩
        simp only [World.step] at hw
        split at hw
        · exact absurd hw (by simp)
        · rw [← Option.some.inj hw]
          exact Table.get?_set_self _ _ _
      · exact absurd hstep (by simp)
  | finish =>
      have hmatch := h.2
      simp only [step] at hstep
      split at hstep
      · rename_i call hpc
        simp only [hpc] at hmatch
        split at hstep
        · rename_i id result hcall
          rw [← Option.some.inj hstep]
          rcases hmatch with ⟨pc, hcall', hout⟩
          rw [hcall, Option.some.injEq, Frame.release.injEq] at hcall'
          -- The release of a lease that was granted finds it, or it was taken before.
          exact ⟨h.1, hout (by rw [← hcall'.2]; simp)⟩
        · exact absurd hstep (by simp)
      · exact absurd hstep (by simp)

/-! ### The whole run -/

theorem failed_of_sent (s s' : Stream) (h : s.step fromStr (.sent false) = some s') :
    s'.pc = .returned false := by
  simp only [step] at h
  split at h
  · rw [← Option.some.inj h]
    rfl
  · exact absurd h (by simp)

/-- A connection that has returned does nothing more. -/
theorem returned_step (s s' : Stream) (a : StreamAction) (ok : Bool) (hpc : s.pc = .returned ok)
    (h : s.step fromStr a = some s') : s'.pc = .returned ok := by
  cases a with
  | world b =>
      rcases Option.map_eq_some_iff.mp h with ⟨w, _, hs'⟩
      rw [← hs']
      exact hpc
  | writerDrained =>
      simp only [step, Option.ite_none_right_eq_some, Option.some.injEq] at h
      rw [← h.2]
      exact hpc
  | runtimeTaskEnds | eventTaskEnds | writeFails =>
      rw [← Option.some.inj h]
      exact hpc
  | _ => simp [step, hpc] at h

/-- However the stream has ended, it is torn down if all lines were readable up
    to a clean end and the runtime took every payload, and only then. -/
theorem tornDown_iff (idleTtl : Duration) (bs : List Action) (w : World) (call : CallId)
    (lease : Lease) (handle : Option SessionHandle) (bytes : List UInt8) (ending : Ending)
    (as : List StreamAction) (s : Stream) (ok : Bool)
    (hworld : run World.step (World.init idleTtl) bs = some w)
    (hattached : w.calls.get? call = some (.attached lease handle))
    (hrun : run (step fromStr) (accept w lease.id bytes ending) as = some s)
    (hreturned : s.pc = .returned ok) :
    (Along (step fromStr) (NewIdIn Stream.world inner) (accept w lease.id bytes ending) as →
      Readable fromStr bytes ending →
      Along (step fromStr) (fun _ a => taken a = true) (accept w lease.id bytes ending) as →
      TornDown s) ∧
    (TornDown s → Readable fromStr bytes ending ∧
      Along (step fromStr) (fun _ a => taken a = true) (accept w lease.id bytes ending) as) := by
  have hsound : World.LeaseSound w :=
    run_invariant (fun w a w' hw hstep _ => World.leaseSound_step w w' a hw hstep) bs _ w hworld
      (World.leaseSound_init idleTtl) (along_true bs _)
  constructor
  · intro hnew hreadable hsent
    have hprogress := run_invariant (I := Progress fromStr True bytes ending)
      (fun s a s' hs hstep hC => progress_step fromStr True bytes ending s s' a hs hstep
        (fun _ => hC)) as _ s hrun (progress_accept fromStr True w lease.id bytes ending) hsent
    have hreleasing := run_invariant
      (I := fun s => World.LeaseSound s.world ∧ Releasing s)
      (fun s a s' hs hstep hC => ⟨leaseSound_host (hosts_world fromStr) s s' a hs.1 hstep,
        releasing_step fromStr s s' a hs.1 hs.2 hstep hC⟩) as _ s hrun
      ⟨hsound, hsound.attached call lease handle hattached, trivial⟩ hnew
    have hmatch := hprogress.2
    have hout := hreleasing.2.2
    rw [hreturned] at hmatch hout
    cases ok with
    | true => exact ⟨hmatch.1, hout, hmatch.2.2.1, hmatch.2.2.2⟩
    | false => exact absurd hreadable (hmatch.2 trivial)
  · intro htorn
    have hprogress := run_invariant (I := Progress fromStr False bytes ending)
      (fun s a s' hs hstep _ => progress_step fromStr False bytes ending s s' a hs hstep
        (fun hf => absurd hf not_false)) as _ s hrun
      (progress_accept fromStr False w lease.id bytes ending) (along_true as _)
    have hmatch := hprogress.2
    rw [hreturned] at hmatch
    refine ⟨?_, ?_⟩
    · cases ok with
      | true => exact hmatch.2.1
      | false =>
          rw [htorn.releases] at hmatch
          exact absurd hmatch.1 (by simp)
    · by_contra hnot
      rcases exists_of_not_along as _ hnot with ⟨cs, a, ds, u, u', has, hcs, hstep, ha⟩
      rw [eq_of_not_taken a ha] at hstep
      -- After a payload that is not taken, nothing is released any more.
      have hfailed := failed_of_sent fromStr u u' hstep
      have hstep' : u.step fromStr a = some u' := by rw [eq_of_not_taken a ha, hstep]
      rw [has, run_append cs _ _ u hcs, run_cons a ds u u' hstep'] at hrun
      have hend := run_invariant (I := fun s => s.pc = .returned false)
        (fun s a s' hs hstep _ => returned_step fromStr s s' a false hs hstep) ds u' s hrun hfailed
        (along_true ds u')
      rw [hend, StreamPc.returned.injEq] at hreturned
      rw [← hreturned] at hmatch
      rw [htorn.releases] at hmatch
      exact absurd hmatch.1 (by simp)

/-! ### Two clients -/

/-- An attach has its lease. -/
def attachedRun : List Action := acquireFresh 0 ++ [.sect 0]

theorem attachedRun_isSome : (run World.step (World.init 5) attachedRun).isSome = true := by
  decide

/-- A frame with an empty notification. -/
def frameText : String :=
  "\x7b\"v\":1,\"type\":\"LspIn\",\"lease_id\":\"lease_1\",\"seq\":1,\"payload\":null\x7d"

/-- What the decoder makes of that frame, and of everything else. -/
def readFrame (text : List Char) : Option StreamFrame :=
  if text = frameText.toList then some ⟨1, .lspIn, "lease_1", 1, .null⟩ else none

/-- The client sends one frame and closes the stream. -/
def frameThenClose : List StreamAction :=
  [.read, .sent true, .read, .writerDrained, .join 1, .world (.sect 1), .world (.sect 1), .finish]

/-- The stream of the lease, in the world of the attach. -/
def attachedStream (bytes : List UInt8) : Stream :=
  accept ((run World.step (World.init 5) attachedRun).get attachedRun_isSome) "lease_1" bytes .eof

theorem frameThenClose_isSome :
    (run (step readFrame) (attachedStream (asciiBytes frameText.toList ++ [10]))
      frameThenClose).isSome = true := by
  decide

theorem readable_frameText : Readable readFrame (asciiBytes frameText.toList ++ [10]) .eof :=
  .line _ [] .eof frameText.toList ⟨1, .lspIn, "lease_1", 1, .null⟩ (by decide) (by decide)
    (.eof [] .eof rfl)

theorem tornDown_frameThenClose :
    TornDown ((run (step readFrame) (attachedStream (asciiBytes frameText.toList ++ [10]))
      frameThenClose).get frameThenClose_isSome) :=
  (tornDown_iff readFrame 5 attachedRun _ 0 ⟨"lease_1", demoKey⟩ (some ⟨demoKey, 0, .null⟩)
    (asciiBytes frameText.toList ++ [10]) .eof frameThenClose _ true (Option.some_get _).symm rfl
    (Option.some_get _).symm (by decide)).1 (by decide) readable_frameText (by decide)

/-- The client sends a line that is no frame. -/
def malformedLine : List StreamAction := [.read]

theorem malformedLine_isSome :
    (run (step readFrame) (attachedStream (asciiBytes "hello\n".toList))
      malformedLine).isSome = true := by
  decide

/-- A stream is not always torn down: after a malformed line the lease is still
    in the registry, was not released, and the tasks still run. -/
theorem stream_abandoned :
    ¬ ∀ (idleTtl : Duration) (bs : List Action) (w : World) (call : CallId) (lease : Lease)
      (handle : Option SessionHandle) (bytes : List UInt8) (ending : Ending)
      (as : List StreamAction) (s : Stream) (ok : Bool),
      run World.step (World.init idleTtl) bs = some w →
      w.calls.get? call = some (.attached lease handle) →
      run (step readFrame) (accept w lease.id bytes ending) as = some s →
      s.pc = .returned ok → TornDown s := by
  intro hall
  have htorn := hall 5 attachedRun _ 0 ⟨"lease_1", demoKey⟩ (some ⟨demoKey, 0, .null⟩)
    (asciiBytes "hello\n".toList) .eof malformedLine
    ((run (step readFrame) (attachedStream (asciiBytes "hello\n".toList)) malformedLine).get
      malformedLine_isSome) false (Option.some_get _).symm rfl (Option.some_get _).symm rfl
  have hnone : ((run (step readFrame) (attachedStream (asciiBytes "hello\n".toList))
      malformedLine).get malformedLine_isSome).releases = 0 := by decide
  rw [htorn.releases] at hnone
  exact absurd hnone (by simp)

end Stream

end Lspee
