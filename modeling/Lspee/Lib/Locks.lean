import Lspee.Lib.Transition
import Mathlib.Data.List.Nodup
import Mathlib.Data.Set.Basic
import Mathlib.Logic.Function.Basic

/-!
# Locks in Order

Callers that take locks and wait for them. A lock has holders and a queue: any
number of readers, or one writer. Whoever asks for a lock queues behind those who
asked before, and the queue is admitted from its front as far as the holders
permit; so a reader waits behind a writer that waits. A mutex is a lock that is
only asked for to write.

What a caller does with locks is a script: locks to acquire and to release, in
this order. Asking is one step of the caller and going on another, which is there
once it has been admitted. Scripts are given to idle callers, and where they come
from is somebody else's matter.

Callers are deadlocked when each of them waits for a lock that another of them
holds, or asked for earlier. Where every script asks only for locks that rank
above all it holds, no callers ever are (`not_deadlocked`). Among those that wait
for a lock of the highest rank, the first in the queue can only wait for a holder,
and a holder waits for nothing that ranks higher.

## Main definitions

* `Mode`, `Op`, `guarded`: What a script does.
* `Lock`, `Lock.serve`, `Lock.ask`, `Lock.giveBack`: A lock with its queue.
* `State`, `Action`, `step`: The callers and the locks.
* `Lock.Before`, `Deadlocked`: Who waits for whom.
* `Ordered`: A script that takes locks in the order of their ranks.
* `Nests`: A part of one.
* `Disciplined`: What such scripts keep.

## Theorems

* `serve_perm`, `serve_suffix`: What admission does to the queue.
* `nests_guarded`, `nests_append`: Guards inside and after each other.
* `disciplined_step`: Every step keeps the discipline.
* `not_deadlocked`: Nobody waits in a circle.
-/

namespace Locks

open Transition

variable {L C : Type*}

inductive Mode where
  | read
  | write
deriving DecidableEq, Repr

/-- What a script does next. -/
inductive Op (L : Type*) where
  | acquire (l : L) (mode : Mode)
  | release (l : L)
deriving DecidableEq, Repr

/-- A guard and what is done while it is held. -/
def guarded (l : L) (mode : Mode) (inner : List (Op L)) : List (Op L) :=
  .acquire l mode :: (inner ++ [.release l])

/-- Who holds a lock, and who waits for it, the first in front. -/
structure Lock (C : Type*) where
  holders : List (C × Mode)
  queue : List (C × Mode)

/-- Whether the holders permit another. -/
def Mode.admitted (mode : Mode) (holders : List (C × Mode)) : Bool :=
  match mode with
  | .read => holders.all fun holder => holder.2 == .read
  | .write => holders.isEmpty

namespace Lock

def free : Lock C := ⟨[], []⟩

/-- The queue is admitted from its front. -/
def serve (holders : List (C × Mode)) : List (C × Mode) → Lock C
  | [] => ⟨holders, []⟩
  | next :: rest =>
    if next.2.admitted holders then serve (next :: holders) rest else ⟨holders, next :: rest⟩

/-- Whoever asks is the last in the queue. -/
def ask (lock : Lock C) (c : C) (mode : Mode) : Lock C :=
  serve lock.holders (lock.queue ++ [(c, mode)])

def giveBack [DecidableEq C] (lock : Lock C) (c : C) : Lock C :=
  serve (lock.holders.filter fun holder => holder.1 ≠ c) lock.queue

def Held (lock : Lock C) (c : C) : Prop := c ∈ lock.holders.map Prod.fst

def Queued (lock : Lock C) (c : C) : Prop := c ∈ lock.queue.map Prod.fst

instance [DecidableEq C] (lock : Lock C) (c : C) : Decidable (lock.Held c) :=
  inferInstanceAs (Decidable (_ ∈ _))

/-- `c` waits for the lock, and `d` holds it or asked for it earlier. -/
def Before (lock : Lock C) (d c : C) : Prop :=
  ∃ ahead mode behind, lock.queue = ahead ++ (c, mode) :: behind ∧
    (lock.Held d ∨ d ∈ ahead.map Prod.fst)

end Lock

/-- What a caller has left to do, and the lock it has asked for. -/
structure Caller (L : Type*) where
  script : List (Op L)
  awaits : Option L

structure State (L C : Type*) where
  locks : L → Lock C
  callers : C → Caller L

/-- A caller begins a script, or goes on with it. -/
inductive Action (L C : Type*) where
  | begin (c : C) (script : List (Op L))
  | go (c : C)

/-- Nobody does anything. -/
def init : State L C where
  locks := fun _ => .free
  callers := fun _ => ⟨[], none⟩

/-- Callers each of which waits for a lock that another of them holds or asked for
    earlier. -/
def Deadlocked (s : State L C) (callers : Set C) : Prop :=
  callers.Nonempty ∧ ∀ c ∈ callers, ∃ l, ∃ d ∈ callers, d ≠ c ∧ (s.locks l).Before d c

section Steps

variable [DecidableEq L] [DecidableEq C]

def go (s : State L C) (c : C) : Option (State L C) :=
  match s.callers c with
  | ⟨script, some l⟩ =>
    if (s.locks l).Held c then
      some { s with callers := Function.update s.callers c ⟨script, none⟩ }
    else none
  | ⟨.acquire l mode :: script, none⟩ =>
    some {
      locks := Function.update s.locks l ((s.locks l).ask c mode)
      callers := Function.update s.callers c ⟨script, some l⟩ }
  | ⟨.release l :: script, none⟩ =>
    some {
      locks := Function.update s.locks l ((s.locks l).giveBack c)
      callers := Function.update s.callers c ⟨script, none⟩ }
  | ⟨[], none⟩ => none

def step (s : State L C) : Action L C → Option (State L C)
  | .begin c script =>
    match s.callers c with
    | ⟨[], none⟩ => some { s with callers := Function.update s.callers c ⟨script, none⟩ }
    | _ => none
  | .go c => go s c

end Steps

/-! ### Admission -/

/-- Nobody comes, goes or is lost. -/
theorem serve_perm (holders queue : List (C × Mode)) :
    ((Lock.serve holders queue).holders ++ (Lock.serve holders queue).queue).Perm
      (holders ++ queue) := by
  induction queue generalizing holders with
  | nil => exact List.Perm.refl _
  | cons next rest ih =>
      unfold Lock.serve
      split
      · exact (ih (next :: holders)).trans List.perm_middle.symm
      · exact List.Perm.refl _

theorem serve_suffix (holders queue : List (C × Mode)) :
    (Lock.serve holders queue).queue <:+ queue := by
  induction queue generalizing holders with
  | nil => exact List.suffix_refl _
  | cons next rest ih =>
      unfold Lock.serve
      split
      · exact (ih (next :: holders)).trans (List.suffix_cons next rest)
      · exact List.suffix_refl _

theorem queued_of_serve (holders queue : List (C × Mode)) (c : C)
    (h : (Lock.serve holders queue).Queued c) : c ∈ queue.map Prod.fst := by
  rcases List.mem_map.mp h with ⟨entry, hentry, heq⟩
  exact List.mem_map.mpr ⟨entry, (serve_suffix holders queue).subset hentry, heq⟩

theorem held_of_serve (holders queue : List (C × Mode)) (c : C)
    (h : (Lock.serve holders queue).Held c) :
    c ∈ holders.map Prod.fst ∨ c ∈ queue.map Prod.fst := by
  rcases List.mem_map.mp h with ⟨entry, hentry, heq⟩
  have hmem := (serve_perm holders queue).mem_iff.mp (List.mem_append_left _ hentry)
  rcases List.mem_append.mp hmem with hmem | hmem
  · exact Or.inl (List.mem_map.mpr ⟨entry, hmem, heq⟩)
  · exact Or.inr (List.mem_map.mpr ⟨entry, hmem, heq⟩)

/-- Everybody is there once. -/
def Lock.Apart (lock : Lock C) : Prop := ((lock.holders ++ lock.queue).map Prod.fst).Nodup

theorem apart_serve (holders queue : List (C × Mode))
    (h : ((holders ++ queue).map Prod.fst).Nodup) : (Lock.serve holders queue).Apart :=
  ((serve_perm holders queue).map Prod.fst).nodup_iff.mpr h

/-- Nobody waits for what he holds. -/
theorem not_queued_of_held (lock : Lock C) (h : lock.Apart) (c : C) (hheld : lock.Held c) :
    ¬lock.Queued c := by
  unfold Lock.Apart at h
  rw [List.map_append] at h
  exact fun hqueued => (List.disjoint_of_nodup_append h) hheld hqueued

/-! ### The discipline -/

section Order

variable [DecidableEq L] (rank : L → Nat)

/-- A script that starts with these locks asks only for locks that rank above all it
    holds, and holds none at its end. -/
def Ordered : List L → List (Op L) → Prop
  | held, [] => held = []
  | held, .acquire l _ :: script => (∀ k ∈ held, rank k < rank l) ∧ Ordered (l :: held) script
  | held, .release l :: script => Ordered (held.filter fun k => k ≠ l) script

/-- A part of a script that gives back what it takes. -/
def Nests (held : List L) (part : List (Op L)) : Prop :=
  ∀ script, Ordered rank held script → Ordered rank held (part ++ script)

theorem nests_nil (held : List L) : Nests rank held [] := fun _ h => h

theorem nests_append (held : List L) (part more : List (Op L)) (h : Nests rank held part)
    (hmore : Nests rank held more) : Nests rank held (part ++ more) := by
  intro script hscript
  rw [List.append_assoc]
  exact h _ (hmore script hscript)

/-- A guard nests where its lock ranks above all that are held. -/
theorem nests_guarded (held : List L) (l : L) (mode : Mode) (inner : List (Op L))
    (hl : ∀ k ∈ held, rank k < rank l) (hinner : Nests rank (l :: held) inner) :
    Nests rank held (guarded l mode inner) := by
  intro script hscript
  refine ⟨hl, ?_⟩
  change Ordered rank (l :: held) ((inner ++ [.release l]) ++ script)
  rw [List.append_assoc]
  refine hinner _ ?_
  have hback : (l :: held).filter (fun k => k ≠ l) = held := by
    rw [List.filter_cons_of_neg (by simp), List.filter_eq_self]
    intro k hk
    have hless := hl k hk
    exact decide_eq_true fun heq => absurd hless (by rw [heq]; exact Nat.lt_irrefl _)
  change Ordered rank ((l :: held).filter fun k => k ≠ l) script
  rw [hback]
  exact hscript

theorem ordered_of_nests (script : List (Op L)) (h : Nests rank [] script) :
    Ordered rank [] script := by
  have hordered := h [] rfl
  rw [List.append_nil] at hordered
  exact hordered

/-- A caller that may hold these locks. The one it has asked for is among them. -/
structure Follows (s : State L C) (c : C) (held : List L) : Prop where
  ordered : Ordered rank held (s.callers c).script
  holds : ∀ l, (s.locks l).Held c → l ∈ held
  queued : ∀ l, (s.locks l).Queued c → (s.callers c).awaits = some l
  awaits : ∀ l, (s.callers c).awaits = some l → l ∈ held ∧ ∀ k ∈ held, k = l ∨ rank k < rank l

/-- What callers keep that take locks in order. -/
structure Disciplined (s : State L C) : Prop where
  apart : ∀ l, (s.locks l).Apart
  follows : ∀ c, ∃ held, Follows rank s c held

theorem disciplined_init : Disciplined rank (init : State L C) where
  apart := fun _ => List.nodup_nil
  follows := fun c => ⟨[], rfl, fun l h => absurd h List.not_mem_nil,
    fun l h => absurd h List.not_mem_nil, fun l h => absurd h (by simp [init])⟩

variable {rank}

/-- Who waits for a lock holds only locks below it. -/
theorem held_below (s : State L C) (h : Disciplined rank s) (c : C) (l k : L)
    (hqueued : (s.locks l).Queued c) (hheld : (s.locks k).Held c) : rank k < rank l := by
  rcases h.follows c with ⟨held, hfollows⟩
  rcases (hfollows.awaits l (hfollows.queued l hqueued)).2 k (hfollows.holds k hheld) with
    hk | hless
  · rw [hk] at hheld
    exact absurd hqueued (not_queued_of_held _ (h.apart l) c hheld)
  · exact hless

/-! ### Every step keeps it -/

/-- Whoever holds a lock or waits for it afterwards did so before, unless it is the
    one that asks. -/
theorem follows_other (s s' : State L C) (h : Disciplined rank s) (c : C) (l : L)
    (holders queue : List (C × Mode)) (hlocks : s'.locks =
      Function.update s.locks l (Lock.serve holders queue))
    (hcallers : ∀ d, d ≠ c → s'.callers d = s.callers d)
    (hholders : ∀ d, d ≠ c → d ∈ holders.map Prod.fst → (s.locks l).Held d)
    (hqueue : ∀ d, d ≠ c → d ∈ queue.map Prod.fst → (s.locks l).Queued d) (d : C) (hd : d ≠ c) :
    ∃ held, Follows rank s' d held := by
  rcases h.follows d with ⟨held, hfollows⟩
  refine ⟨held, ?_, ?_, ?_, ?_⟩
  · rw [hcallers d hd]
    exact hfollows.ordered
  · intro k hheld
    rw [hlocks] at hheld
    by_cases hk : k = l
    · rw [hk, Function.update_self] at hheld
      rw [hk]
      rcases held_of_serve holders queue d hheld with hold | hwaited
      · exact hfollows.holds l (hholders d hd hold)
      · -- it has been admitted, and had asked for the lock
        exact (hfollows.awaits l (hfollows.queued l (hqueue d hd hwaited))).1
    · rw [Function.update_of_ne hk] at hheld
      exact hfollows.holds k hheld
  · intro k hqueued
    rw [hcallers d hd]
    rw [hlocks] at hqueued
    by_cases hk : k = l
    · rw [hk, Function.update_self] at hqueued
      rw [hk]
      exact hfollows.queued l (hqueue d hd (queued_of_serve holders queue d hqueued))
    · rw [Function.update_of_ne hk] at hqueued
      exact hfollows.queued k hqueued
  · rw [hcallers d hd]
    exact hfollows.awaits

/-- A caller that runs waits for nothing. -/
theorem not_queued_of_running (s : State L C) (h : Disciplined rank s) (c : C)
    (hcaller : (s.callers c).awaits = none) (l : L) : ¬(s.locks l).Queued c := by
  rcases h.follows c with ⟨held, hfollows⟩
  intro hqueued
  rw [hfollows.queued l hqueued] at hcaller
  exact absurd hcaller (by simp)

variable [DecidableEq C]

theorem disciplined_begin (s s' : State L C) (h : Disciplined rank s) (c : C)
    (script : List (Op L)) (hscript : Ordered rank [] script)
    (hstep : step s (.begin c script) = some s') : Disciplined rank s' := by
  simp only [step] at hstep
  split at hstep
  swap
  · exact absurd hstep (by simp)
  rename_i hidle
  rw [← Option.some.inj hstep]
  refine ⟨h.apart, fun d => ?_⟩
  rcases h.follows d with ⟨held, hfollows⟩
  by_cases hd : d = c
  · -- an idle caller holds nothing
    have hnone : held = [] := by
      have hordered := hfollows.ordered
      rw [hd, hidle] at hordered
      exact hordered
    rw [hnone] at hfollows
    refine ⟨[], ?_, hfollows.holds, ?_, ?_⟩
    · simp only [hd, Function.update_self]
      exact hscript
    · intro l hqueued
      have hawaits := hfollows.queued l hqueued
      rw [hd, hidle] at hawaits
      exact absurd hawaits (by simp)
    · intro l hawaits
      simp only [hd, Function.update_self, reduceCtorEq] at hawaits
  · refine ⟨held, ?_, hfollows.holds, ?_, ?_⟩ <;> simp only [Function.update_of_ne hd]
    · exact hfollows.ordered
    · exact hfollows.queued
    · exact hfollows.awaits

/-- A caller that has been admitted goes on. -/
theorem disciplined_admitted (s : State L C) (h : Disciplined rank s) (c : C)
    (script : List (Op L)) (l : L) (hcaller : s.callers c = ⟨script, some l⟩)
    (hheld : (s.locks l).Held c) :
    Disciplined rank { s with callers := Function.update s.callers c ⟨script, none⟩ } := by
  refine ⟨h.apart, fun d => ?_⟩
  rcases h.follows d with ⟨held, hfollows⟩
  by_cases hd : d = c
  · refine ⟨held, ?_, hfollows.holds, ?_, ?_⟩
    · have hordered := hfollows.ordered
      rw [hd, hcaller] at hordered
      simp only [hd, Function.update_self]
      exact hordered
    · intro k hqueued
      -- It could only wait for the lock it holds.
      have hawaits := hfollows.queued k hqueued
      rw [hd, hcaller, Option.some.injEq] at hawaits
      rw [hd, ← hawaits] at hqueued
      exact absurd hqueued (not_queued_of_held _ (h.apart l) c hheld)
    · intro k hawaits
      simp only [hd, Function.update_self, reduceCtorEq] at hawaits
  · refine ⟨held, ?_, hfollows.holds, ?_, ?_⟩ <;> simp only [Function.update_of_ne hd]
    · exact hfollows.ordered
    · exact hfollows.queued
    · exact hfollows.awaits

theorem disciplined_ask (s : State L C) (h : Disciplined rank s) (c : C) (script : List (Op L))
    (l : L) (mode : Mode) (hcaller : s.callers c = ⟨.acquire l mode :: script, none⟩) :
    Disciplined rank {
      locks := Function.update s.locks l ((s.locks l).ask c mode)
      callers := Function.update s.callers c ⟨script, some l⟩ } := by
  have hrunning : ∀ k, ¬(s.locks k).Queued c :=
    not_queued_of_running s h c (by rw [hcaller])
  rcases h.follows c with ⟨held, hfollows⟩
  have hordered := hfollows.ordered
  rw [hcaller] at hordered
  have hnot : ¬(s.locks l).Held c := fun hheld =>
    absurd (hordered.1 l (hfollows.holds l hheld)) (Nat.lt_irrefl _)
  have hqueue : ∀ d, d ≠ c → d ∈ ((s.locks l).queue ++ [(c, mode)]).map Prod.fst →
      (s.locks l).Queued d := by
    intro d hd hmem
    rw [List.map_append] at hmem
    rcases List.mem_append.mp hmem with hold | hnew
    · exact hold
    · exact absurd (List.mem_singleton.mp hnew) hd
  constructor
  · intro k
    by_cases hk : k = l
    · rw [hk]
      simp only [Function.update_self]
      refine apart_serve _ _ ?_
      rw [← List.append_assoc, List.map_append, List.nodup_append']
      refine ⟨h.apart l, List.nodup_singleton _, ?_⟩
      intro d hd hc
      rw [List.map_singleton, List.mem_singleton] at hc
      rw [hc, List.map_append] at hd
      rcases List.mem_append.mp hd with hheld | hqueued
      · exact hnot hheld
      · exact hrunning l hqueued
    · simp only [Function.update_of_ne hk]
      exact h.apart k
  · intro d
    by_cases hd : d = c
    swap
    · exact follows_other s _ h c l _ _ rfl (fun d hd => Function.update_of_ne hd _ _)
        (fun _ _ hmem => hmem) hqueue d hd
    rw [hd]
    refine ⟨l :: held, ?_, ?_, ?_, ?_⟩
    · simp only [Function.update_self]
      exact hordered.2
    · intro k hheld
      by_cases hk : k = l
      · rw [hk]
        exact List.mem_cons_self
      · simp only [Function.update_of_ne hk] at hheld
        exact List.mem_cons_of_mem _ (hfollows.holds k hheld)
    · intro k hqueued
      by_cases hk : k = l
      · simp only [hk, Function.update_self]
      · simp only [Function.update_of_ne hk] at hqueued
        exact absurd hqueued (hrunning k)
    · intro k hawaits
      simp only [Function.update_self, Option.some.injEq] at hawaits
      rw [← hawaits]
      refine ⟨List.mem_cons_self, fun j hj => ?_⟩
      rcases List.mem_cons.mp hj with hj | hj
      · exact Or.inl hj
      · exact Or.inr (hordered.1 j hj)

theorem disciplined_giveBack (s : State L C) (h : Disciplined rank s) (c : C)
    (script : List (Op L)) (l : L) (hcaller : s.callers c = ⟨.release l :: script, none⟩) :
    Disciplined rank {
      locks := Function.update s.locks l ((s.locks l).giveBack c)
      callers := Function.update s.callers c ⟨script, none⟩ } := by
  have hrunning : ∀ k, ¬(s.locks k).Queued c :=
    not_queued_of_running s h c (by rw [hcaller])
  rcases h.follows c with ⟨held, hfollows⟩
  have hordered := hfollows.ordered
  rw [hcaller] at hordered
  constructor
  · intro k
    by_cases hk : k = l
    · rw [hk]
      simp only [Function.update_self]
      refine apart_serve _ _ ((h.apart l).sublist ?_)
      exact (List.filter_sublist.append (List.Sublist.refl _)).map Prod.fst
    · simp only [Function.update_of_ne hk]
      exact h.apart k
  · intro d
    by_cases hd : d = c
    swap
    · refine follows_other s _ h c l _ _ rfl (fun d hd => Function.update_of_ne hd _ _) ?_
        (fun _ _ hmem => hmem) d hd
      intro e _ hmem
      exact (List.filter_sublist.map Prod.fst).subset hmem
    rw [hd]
    refine ⟨held.filter fun k => k ≠ l, ?_, ?_, ?_, ?_⟩
    · simp only [Function.update_self]
      exact hordered
    · intro k hheld
      by_cases hk : k = l
      · -- it has given this one back
        simp only [hk, Function.update_self] at hheld
        rcases held_of_serve _ _ c hheld with hold | hwaited
        · rcases List.mem_map.mp hold with ⟨holder, hholder, heq⟩
          exact absurd heq (by simpa using (List.mem_filter.mp hholder).2)
        · exact absurd hwaited (hrunning l)
      · simp only [Function.update_of_ne hk] at hheld
        exact List.mem_filter.mpr ⟨hfollows.holds k hheld, by simpa using hk⟩
    · intro k hqueued
      by_cases hk : k = l
      · simp only [hk, Function.update_self] at hqueued
        exact absurd (queued_of_serve _ _ c hqueued) (hrunning l)
      · simp only [Function.update_of_ne hk] at hqueued
        exact absurd hqueued (hrunning k)
    · intro k hawaits
      simp only [Function.update_self, reduceCtorEq] at hawaits

/-- Every step keeps the discipline, if every script that is begun has it. -/
theorem disciplined_step (s s' : State L C) (a : Action L C) (h : Disciplined rank s)
    (ha : ∀ c script, a = .begin c script → Ordered rank [] script) (hstep : step s a = some s') :
    Disciplined rank s' := by
  cases a with
  | begin c script => exact disciplined_begin s s' h c script (ha c script rfl) hstep
  | go c =>
      simp only [step, go] at hstep
      split at hstep
      · rename_i script l hcaller
        rw [Option.ite_none_right_eq_some, Option.some.injEq] at hstep
        rw [← hstep.2]
        exact disciplined_admitted s h c script l hcaller hstep.1
      · rename_i l mode script hcaller
        rw [← Option.some.inj hstep]
        exact disciplined_ask s h c script l mode hcaller
      · rename_i l script hcaller
        rw [← Option.some.inj hstep]
        exact disciplined_giveBack s h c script l hcaller
      · exact absurd hstep (by simp)

end Order

/-! ### Nobody waits in a circle -/

section Deadlock

variable [DecidableEq L] {rank : L → Nat}

theorem queued_of_before (lock : Lock C) (c d : C) (h : lock.Before d c) : lock.Queued c := by
  rcases h with ⟨ahead, mode, behind, hqueue, _⟩
  unfold Lock.Queued
  rw [hqueue]
  exact List.mem_map.mpr ⟨(c, mode), List.mem_append_right _ List.mem_cons_self, rfl⟩

/-- Of those that wait for a lock, one of some callers is the first. Whoever of them
    it waits for holds the lock. -/
theorem exists_first (lock : Lock C) (hapart : lock.Apart) (callers : Set C) (c : C)
    (hc : c ∈ callers) (hqueued : lock.Queued c) :
    ∃ first ∈ callers, lock.Queued first ∧ ∀ d ∈ callers, lock.Before d first → lock.Held d := by
  classical
  rcases List.mem_map.mp hqueued with ⟨entry, hentry, heq⟩
  have hfound : (lock.queue.find? fun e => decide (e.1 ∈ callers)).isSome = true := by
    rw [List.find?_isSome]
    exact ⟨entry, hentry, by rw [heq]; exact decide_eq_true hc⟩
  rcases Option.isSome_iff_exists.mp hfound with ⟨first, hfirst⟩
  rcases List.find?_eq_some_iff_append.mp hfirst with ⟨hmem, ahead, behind, hqueue, hnone⟩
  refine ⟨first.1, of_decide_eq_true hmem, ?_, ?_⟩
  · unfold Lock.Queued
    rw [hqueue]
    exact List.mem_map.mpr ⟨first, List.mem_append_right _ List.mem_cons_self, rfl⟩
  · rintro d hd ⟨ahead', mode, behind', hqueue', hheld | hahead⟩
    · exact hheld
    -- Its place in the queue is the only one.
    have hnodup : (lock.queue.map Prod.fst).Nodup := by
      unfold Lock.Apart at hapart
      rw [List.map_append] at hapart
      exact hapart.of_append_right
    have hsplit : ahead.map Prod.fst ++ first.1 :: behind.map Prod.fst =
        ahead'.map Prod.fst ++ first.1 :: behind'.map Prod.fst := by
      have hboth := hqueue.symm.trans hqueue'
      have hmap := congrArg (List.map Prod.fst) hboth
      simpa only [List.map_append, List.map_cons] using hmap
    have hsame : ahead.map Prod.fst = ahead'.map Prod.fst := by
      rw [hqueue, List.map_append, List.map_cons] at hnodup
      have hbehind := (List.nodup_cons.mp hnodup.of_append_right).1
      have hbefore := fun hmem => (List.disjoint_of_nodup_append hnodup) hmem List.mem_cons_self
      exact ((List.append_cons_inj_of_notMem hbefore hbehind).mp hsplit).1
    rw [← hsame] at hahead
    rcases List.mem_map.mp hahead with ⟨other, hother, heq'⟩
    have hnot := hnone other hother
    rw [heq', decide_eq_true hd] at hnot
    exact absurd hnot (by simp)

/-- Where every caller takes its locks in order, no callers wait for each other, as
    long as the ranks are bounded. -/
theorem not_deadlocked (top : Nat) (htop : ∀ l, rank l ≤ top) (s : State L C)
    (h : Disciplined rank s) (callers : Set C) : ¬Deadlocked s callers := by
  rintro ⟨⟨c₀, hc₀⟩, hwaits⟩
  -- By the ranks, from the top.
  have hnone : ∀ n l, top - rank l < n → ∀ c ∈ callers, ¬(s.locks l).Queued c := by
    intro n
    induction n with
    | zero => exact fun l hn => absurd hn (Nat.not_lt_zero _)
    | succ n ih =>
        intro l hn c hc hqueued
        rcases exists_first (s.locks l) (h.apart l) callers c hc hqueued with
          ⟨first, hfirst, hfirstQueued, hheld⟩
        rcases hwaits first hfirst with ⟨k, d, hd, _, hbefore⟩
        have hk : k = l := by
          rcases h.follows first with ⟨held, hfollows⟩
          have hawaits := hfollows.queued l hfirstQueued
          rw [hfollows.queued k (queued_of_before _ first d hbefore), Option.some.injEq] at hawaits
          exact hawaits
        rw [hk] at hbefore
        have hholds := hheld d hd hbefore
        -- The holder waits for a lock of a higher rank.
        rcases hwaits d hd with ⟨j, e, _, _, hbefore'⟩
        have hqueued' := queued_of_before _ d e hbefore'
        have hless := held_below s h d j l hqueued' hholds
        have hbound := htop j
        exact ih j (by omega) d hd hqueued'
  rcases hwaits c₀ hc₀ with ⟨l, d, _, _, hbefore⟩
  exact hnone (top - rank l + 1) l (Nat.lt_succ_self _) c₀ hc₀ (queued_of_before _ c₀ d hbefore)

end Deadlock

end Locks
