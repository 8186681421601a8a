import Lspee.Core.Memory
import Lspee.Core.Tasks
import Lspee.Lib.Ranking
import Mathlib.Data.Prod.Lex
import Mathlib.Order.OrderDual

/-!
# Choosing the Sessions to Evict

What the memory monitor evicts, said without the loops that choose it. Every
session over the limit of one session goes. The rest are ranked: sessions of
agents before those of editors, unused ones before used ones, then those idle
for longest, then the largest; and the shortest prefix of that order is taken
that brings the total down to the limit of all.

The samples come from a table without an order of its own. Where no two of them
rank the same, the choice does not depend on the order they came in.

## Main definitions

* `evictionRank`: What sessions are ordered by.
* `OverSession`: A session over the limit of one session.
* `WithinTotal`: Sessions that together are within the limit of all.
* `survivors`: The samples that are not evicted.

## Theorems

* `compareCandidates_ne_gt`: The comparator orders by rank.
* `stableOrder_sortCandidates`: The candidates are put in stable order.
* `shortestPrefix_takeOverTotal`: The loop takes the shortest prefix.
* `selectEvictions_groups`: The selection is the two groups, one after the
  other.
* `selectEvictions_spec`: The whole choice.
-/

namespace Lspee

open Ranking

/-- What sessions are ordered by: not in an editor first, not in use first,
    idle for longest first, largest first. -/
def evictionRank (sample : MemorySample) : Bool ×ₗ Bool ×ₗ Natᵒᵈ ×ₗ Natᵒᵈ :=
  toLex (decide (ClientKind.editor ∈ sample.clientKinds), toLex (decide (sample.refCount > 0),
    toLex (OrderDual.toDual sample.idleFor, OrderDual.toDual sample.rssBytes)))

/-- The sample is over the limit of one session, if there is one. -/
def OverSession (settings : MemoryBudgetSettings) (sample : MemorySample) : Prop :=
  ∃ limit, settings.maxSessionBytes = some limit ∧ limit < sample.rssBytes

instance (settings : MemoryBudgetSettings) (sample : MemorySample) :
    Decidable (OverSession settings sample) :=
  match h : settings.maxSessionBytes with
  | none => isFalse (fun ⟨_, hsome, _⟩ => by rw [h] at hsome; exact absurd hsome (by simp))
  | some limit => decidable_of_iff (limit < sample.rssBytes)
      ⟨fun hover => ⟨limit, h, hover⟩, fun ⟨limit', hsome, hover⟩ => by
        rw [h, Option.some.injEq] at hsome
        rw [hsome]
        exact hover⟩

/-- The sizes of the samples, added up. -/
def sumBytes (samples : List MemorySample) : Nat :=
  (samples.map (fun sample => sample.rssBytes)).sum

/-- The samples together are within the limit of all, if there is one. -/
def WithinTotal (settings : MemoryBudgetSettings) (samples : List MemorySample) : Prop :=
  ∀ limit, settings.maxTotalBytes = some limit → sumBytes samples ≤ limit

/-- The samples that are left once some of them are evicted. -/
def survivors (samples victims : List MemorySample) : List MemorySample :=
  samples.filter (fun sample => decide (sample ∉ victims))

/-! ### The order -/

theorem leftEditor_eq (sample : MemorySample) :
    leftEditor sample = decide (ClientKind.editor ∈ sample.clientKinds) := by
  rw [leftEditor, List.contains_eq_mem]

theorem compareCandidates_eq_gt (left right : MemorySample) :
    compareCandidates left right = .gt ↔ evictionRank right < evictionRank left := by
  unfold compareCandidates evictionRank
  rw [leftEditor_eq, leftEditor_eq]
  simp only [Ordering.then_eq_gt, compare_gt_iff_gt, compare_eq_iff_eq, gt_iff_lt,
    Prod.Lex.toLex_lt_toLex, OrderDual.toDual_lt_toDual, OrderDual.toDual_inj]
  simp only [eq_comm]

/-- The comparator orders by rank. -/
theorem compareCandidates_ne_gt (left right : MemorySample) :
    compareCandidates left right ≠ .gt ↔ evictionRank left ≤ evictionRank right := by
  rw [ne_eq, compareCandidates_eq_gt, not_lt]

theorem stableOrder_sortCandidates (samples : List MemorySample) :
    StableOrder evictionRank samples (sortCandidates samples) :=
  stableOrder_insertionSort _ compareCandidates_ne_gt samples

/-! ### The total -/

theorem sumBytes_cons (sample : MemorySample) (samples : List MemorySample) :
    sumBytes (sample :: samples) = sample.rssBytes + sumBytes samples := by
  simp only [sumBytes, List.map_cons, List.sum_cons]

theorem sumBytes_perm (samples samples' : List MemorySample) (h : samples.Perm samples') :
    sumBytes samples = sumBytes samples' := (h.map _).sum_nat

theorem sumBytes_filter_le (samples : List MemorySample) (p : MemorySample → Bool) :
    sumBytes (samples.filter p) ≤ sumBytes samples := by
  induction samples with
  | nil => exact le_refl _
  | cons sample samples ih =>
      rw [List.filter_cons, sumBytes_cons]
      by_cases h : p sample = true
      · rw [if_pos h, sumBytes_cons]
        omega
      · rw [if_neg h]
        omega

/-- The loop takes the shortest prefix after which the sum is within the
    limit. -/
theorem shortestPrefix_takeOverTotal (limit : Nat) (ordered : List MemorySample) :
    ShortestPrefix (fun left => sumBytes left ≤ limit) ordered
      (takeOverTotal limit (sumBytes ordered) ordered) := by
  induction ordered with
  | nil => exact shortestPrefix_nil [] (Nat.zero_le _)
  | cons sample ordered ih =>
      rw [takeOverTotal]
      by_cases h : sumBytes (sample :: ordered) ≤ limit
      · rw [if_pos h]
        exact shortestPrefix_nil _ h
      · rw [if_neg h]
        -- What is left of the total is the total of what is left.
        have htotal : sumBytes (sample :: ordered) - sample.rssBytes = sumBytes ordered := by
          rw [sumBytes_cons]
          omega
        rw [htotal]
        exact shortestPrefix_cons sample ordered _ h ih

/-! ### The two groups -/

/-- The samples over the session limit, as a list in the given order. -/
def overGroup (samples : List MemorySample) (settings : MemoryBudgetSettings) :
    List MemorySample :=
  samples.filter (fun sample => decide (OverSession settings sample))

/-- The samples within the session limit, as a list in the given order. -/
def restGroup (samples : List MemorySample) (settings : MemoryBudgetSettings) :
    List MemorySample :=
  samples.filter (fun sample => decide (¬OverSession settings sample))

theorem mem_overGroup (samples : List MemorySample) (settings : MemoryBudgetSettings)
    (sample : MemorySample) :
    sample ∈ overGroup samples settings ↔ sample ∈ samples ∧ OverSession settings sample := by
  simp only [overGroup, List.mem_filter, decide_eq_true_eq]

theorem mem_restGroup (samples : List MemorySample) (settings : MemoryBudgetSettings)
    (sample : MemorySample) :
    sample ∈ restGroup samples settings ↔ sample ∈ samples ∧ ¬OverSession settings sample := by
  simp only [restGroup, List.mem_filter, decide_eq_true_eq]

theorem overSessionLimit_stableOrder (samples : List MemorySample)
    (settings : MemoryBudgetSettings) :
    StableOrder evictionRank (overGroup samples settings) (overSessionLimit samples settings) := by
  unfold overSessionLimit
  cases hlimit : settings.maxSessionBytes with
  | none =>
      have hempty : overGroup samples settings = [] := by
        refine List.filter_eq_nil_iff.mpr fun sample _ => ?_
        simp only [OverSession, hlimit, reduceCtorEq, false_and, exists_false, decide_false,
          Bool.false_eq_true, not_false_eq_true]
      rw [hempty]
      exact ⟨List.Perm.refl [], List.Pairwise.nil, fun _ _ _ hsub => hsub⟩
  | some limit =>
      have hgroup : overGroup samples settings =
          samples.filter (fun sample => decide (sample.rssBytes > limit)) := by
        refine List.filter_congr fun sample _ => ?_
        simp only [OverSession, hlimit, Option.some.injEq, exists_eq_left', gt_iff_lt]
      rw [hgroup]
      exact stableOrder_sortCandidates _

theorem mem_overSessionLimit (samples : List MemorySample) (settings : MemoryBudgetSettings)
    (sample : MemorySample) :
    sample ∈ overSessionLimit samples settings ↔
      sample ∈ samples ∧ OverSession settings sample := by
  rw [(overSessionLimit_stableOrder samples settings).perm.mem_iff, mem_overGroup]

/-- Samples of distinct keys are told apart by their keys. -/
theorem eq_of_key_eq (samples : List MemorySample)
    (hkeys : (samples.map (fun sample => sample.key)).Nodup) (sample other : MemorySample)
    (hsample : sample ∈ samples) (hother : other ∈ samples) (h : sample.key = other.key) :
    sample = other := List.inj_on_of_nodup_map hkeys hsample hother h

/-- What the first group leaves are the samples within the session limit. -/
theorem remainingAfter_overSessionLimit (samples : List MemorySample)
    (settings : MemoryBudgetSettings)
    (hkeys : (samples.map (fun sample => sample.key)).Nodup) :
    remainingAfter samples (overSessionLimit samples settings) = restGroup samples settings := by
  refine List.filter_congr fun candidate hcandidate => ?_
  rw [eq_comm, Bool.eq_iff_iff]
  simp only [decide_eq_true_eq, List.all_eq_true, mem_overSessionLimit, ne_eq]
  constructor
  · intro hwithin sample hsample hkey
    have heq := eq_of_key_eq samples hkeys candidate sample hcandidate hsample.1 hkey
    exact hwithin (heq ▸ hsample.2)
  · intro hother hover
    exact hother candidate ⟨hcandidate, hover⟩ rfl

theorem overTotalLimit_shortestPrefix (settings : MemoryBudgetSettings)
    (remaining : List MemorySample) (hsum : sumBytes remaining < 2 ^ 64) :
    ShortestPrefix (WithinTotal settings) (sortCandidates remaining)
      (overTotalLimit remaining settings) := by
  unfold overTotalLimit
  cases hlimit : settings.maxTotalBytes with
  | none =>
      refine shortestPrefix_nil _ fun limit hsome => ?_
      rw [hlimit] at hsome
      exact absurd hsome (by simp only [reduceCtorEq, not_false_eq_true])
  | some limit =>
      have htotal : totalBytes remaining = sumBytes (sortCandidates remaining) := by
        have hperm := (stableOrder_sortCandidates remaining).perm
        rw [sumBytes_perm _ _ hperm]
        exact Nat.mod_eq_of_lt hsum
      have hwithin : WithinTotal settings = fun left => sumBytes left ≤ limit := by
        funext left
        simp only [WithinTotal, hlimit, Option.some.injEq, forall_eq']
      rw [htotal, hwithin]
      exact shortestPrefix_takeOverTotal limit (sortCandidates remaining)

/-- A list without a repeated key is left as it is. -/
theorem dedupeByKey_of_nodup (samples : List MemorySample)
    (hkeys : (samples.map (fun sample => sample.key)).Nodup) :
    dedupeByKey samples = samples := by
  induction samples with
  | nil => rfl
  | cons sample samples ih =>
      rw [List.map_cons, List.nodup_cons] at hkeys
      rw [dedupeByKey, ih hkeys.2, List.filter_eq_self.mpr]
      intro other hother
      refine decide_eq_true fun hkey => hkeys.1 ?_
      rw [← hkey]
      exact List.mem_map_of_mem hother

theorem selectEvictions_eq (samples : List MemorySample) (settings : MemoryBudgetSettings)
    (hkeys : (samples.map (fun sample => sample.key)).Nodup) :
    selectEvictions samples settings = dedupeByKey (overSessionLimit samples settings ++
      overTotalLimit (restGroup samples settings) settings) := by
  rw [← remainingAfter_overSessionLimit samples settings hkeys]
  rfl

/-- The selection is the samples over the session limit and after them the
    candidates taken for the total. -/
theorem selectEvictions_groups (samples : List MemorySample) (settings : MemoryBudgetSettings)
    (hkeys : (samples.map (fun sample => sample.key)).Nodup)
    (hsum : sumBytes samples < 2 ^ 64) :
    ∃ taken left,
      sortCandidates (restGroup samples settings) = taken ++ left ∧
      ShortestPrefix (WithinTotal settings) (sortCandidates (restGroup samples settings)) taken ∧
      WithinTotal settings left ∧
      (overSessionLimit samples settings ++ taken ++ left).Perm samples ∧
      selectEvictions samples settings = overSessionLimit samples settings ++ taken := by
  have hsumRest : sumBytes (restGroup samples settings) < 2 ^ 64 :=
    lt_of_le_of_lt (sumBytes_filter_le samples _) hsum
  have hshort := overTotalLimit_shortestPrefix settings (restGroup samples settings) hsumRest
  rcases hshort.enough with ⟨left, hsplit, hleft⟩
  -- The two groups and what is left are the samples in another order.
  have hperm : (overSessionLimit samples settings ++
      overTotalLimit (restGroup samples settings) settings ++ left).Perm samples := by
    rw [List.append_assoc, ← hsplit]
    have hover := (overSessionLimit_stableOrder samples settings).perm
    have hordered := (stableOrder_sortCandidates (restGroup samples settings)).perm
    refine (hover.append hordered).trans ?_
    unfold overGroup restGroup
    simp only [decide_not]
    exact List.filter_append_perm _ samples
  refine ⟨_, left, hsplit, hshort, hleft, hperm, ?_⟩
  rw [selectEvictions_eq samples settings hkeys]
  refine dedupeByKey_of_nodup _ ?_
  have hnodup := ((hperm.map (fun sample => sample.key)).nodup_iff).mpr hkeys
  rw [List.map_append] at hnodup
  exact (List.nodup_append.mp hnodup).1

/-- The survivors of the selection, whatever has been taken so far of it, are
    what is left of the two groups. -/
theorem survivors_perm (samples taken left : List MemorySample)
    (hkeys : (samples.map (fun sample => sample.key)).Nodup)
    (hperm : (taken ++ left).Perm samples) : (survivors samples taken).Perm left := by
  have hnodup : (taken ++ left).Nodup := hperm.nodup_iff.mpr hkeys.of_map
  have hdisjoint := (List.nodup_append.mp hnodup).2.2
  have hleft : (taken ++ left).filter (fun sample => decide (sample ∉ taken)) = left := by
    rw [List.filter_append, List.filter_eq_nil_iff.mpr, List.nil_append,
      List.filter_eq_self.mpr]
    · intro sample hsample
      exact decide_eq_true fun htaken => hdisjoint sample htaken sample hsample rfl
    · intro sample hsample hkept
      exact of_decide_eq_true hkept hsample
  have hfilter := hperm.symm.filter (fun sample => decide (sample ∉ taken))
  rw [hleft] at hfilter
  exact hfilter

theorem withinTotal_perm (settings : MemoryBudgetSettings) (samples samples' : List MemorySample)
    (h : samples.Perm samples') :
    WithinTotal settings samples ↔ WithinTotal settings samples' := by
  unfold WithinTotal
  rw [sumBytes_perm samples samples' h]

/-- Without ties in rank the selection does not depend on the order in which
    the samples come. -/
theorem selectEvictions_perm (samples samples' : List MemorySample)
    (settings : MemoryBudgetSettings)
    (hkeys : (samples.map (fun sample => sample.key)).Nodup)
    (hperm : samples'.Perm samples)
    (hties : samples.Pairwise (fun a b => evictionRank a ≠ evictionRank b)) :
    selectEvictions samples' settings = selectEvictions samples settings := by
  have hkeys' : (samples'.map (fun sample => sample.key)).Nodup :=
    ((hperm.map (fun sample => sample.key)).nodup_iff).mpr hkeys
  have hrestPerm : (restGroup samples' settings).Perm (restGroup samples settings) :=
    hperm.filter _
  have hover : overSessionLimit samples settings = overSessionLimit samples' settings :=
    (overSessionLimit_stableOrder samples settings).eq_of_perm
      (overSessionLimit_stableOrder samples' settings) (hperm.filter _) (hties.filter _)
  have hrest : sortCandidates (restGroup samples settings) =
      sortCandidates (restGroup samples' settings) :=
    (stableOrder_sortCandidates (restGroup samples settings)).eq_of_perm
      (stableOrder_sortCandidates (restGroup samples' settings)) hrestPerm (hties.filter _)
  rw [selectEvictions_eq samples settings hkeys, selectEvictions_eq samples' settings hkeys', hover]
  unfold overTotalLimit totalBytes
  rw [hrest, (hrestPerm.map (fun sample => sample.rssBytes)).sum_nat]

/-- What is selected: no key twice; the samples over the session limit, in
    stable order, and after them the shortest prefix of the others, in stable
    order, that brings the total within its limit. So those that survive are
    within both limits, none was taken for a total that was already within its
    limit, none that survives ranks before one taken for the total, and without
    ties in rank the selection is the same for every order of the samples. -/
theorem selectEvictions_spec (samples : List MemorySample) (settings : MemoryBudgetSettings)
    (hkeys : (samples.map (fun sample => sample.key)).Nodup)
    (hsum : sumBytes samples < 2 ^ 64) :
    ((selectEvictions samples settings).map (fun sample => sample.key)).Nodup ∧
    (∃ first second ordered,
      selectEvictions samples settings = first ++ second ∧
      StableOrder evictionRank (overGroup samples settings) first ∧
      StableOrder evictionRank (restGroup samples settings) ordered ∧
      ShortestPrefix (WithinTotal settings) ordered second ∧
      (∀ earlier victim later, second = earlier ++ victim :: later →
        ¬WithinTotal settings (survivors samples (first ++ earlier))) ∧
      (∀ victim ∈ second, ∀ survivor ∈ survivors samples (selectEvictions samples settings),
        ¬evictionRank survivor < evictionRank victim)) ∧
    (∀ survivor ∈ survivors samples (selectEvictions samples settings),
      ¬OverSession settings survivor) ∧
    WithinTotal settings (survivors samples (selectEvictions samples settings)) ∧
    (samples.Pairwise (fun a b => evictionRank a ≠ evictionRank b) →
      ∀ samples', samples'.Perm samples → ∀ sample,
        sample ∈ selectEvictions samples' settings ↔
          sample ∈ selectEvictions samples settings) := by
  rcases selectEvictions_groups samples settings hkeys hsum with
    ⟨taken, left, hsplit, hshort, hwithin, hperm, hselect⟩
  have hsurvive : (survivors samples (selectEvictions samples settings)).Perm left := by
    rw [hselect]
    exact survivors_perm samples _ left hkeys hperm
  have hordered := stableOrder_sortCandidates (restGroup samples settings)
  have hleft : ∀ sample ∈ left, sample ∈ restGroup samples settings := by
    intro sample hsample
    rw [← hordered.perm.mem_iff, hsplit]
    exact List.mem_append_right taken hsample
  refine ⟨?_, ⟨overSessionLimit samples settings, taken, _, hselect,
    overSessionLimit_stableOrder samples settings, hordered, hshort, ?_, ?_⟩, ?_, ?_, ?_⟩
  · have hnodup := ((hperm.map (fun sample => sample.key)).nodup_iff).mpr hkeys
    rw [List.map_append, ← hselect] at hnodup
    exact (List.nodup_append.mp hnodup).1
  · -- Were the victims before it enough, a shorter prefix would do.
    intro earlier victim later htaken hbefore
    have hrestSplit : (overSessionLimit samples settings ++ earlier ++
        (victim :: later ++ left)).Perm samples := by
      rw [htaken] at hperm
      simpa only [List.append_assoc] using hperm
    have hpart := survivors_perm samples _ _ hkeys hrestSplit
    rw [withinTotal_perm settings _ _ hpart] at hbefore
    refine hshort.not_of_taken htaken (victim :: later ++ left) ?_ hbefore
    rw [hsplit, htaken, List.append_assoc]
  · intro victim hvictim survivor hsurvivor
    rw [hsplit] at hordered
    exact hordered.not_lt_of_append victim survivor hvictim (hsurvive.mem_iff.mp hsurvivor)
  · intro survivor hsurvivor
    have hmem := hleft survivor (hsurvive.mem_iff.mp hsurvivor)
    exact ((mem_restGroup samples settings survivor).mp hmem).2
  · exact (withinTotal_perm settings _ _ hsurvive).mpr hwithin
  · intro hties samples' hperm' sample
    rw [selectEvictions_perm samples samples' settings hkeys hperm' hties]

/-- A session of the demonstration project with the given server. -/
def demoSample (lspId : String) (rssBytes refCount idleFor : Nat) (clientKinds : List ClientKind) :
    MemorySample where
  key := { demoKey with lspId := lspId }
  root := demoKey.root
  rssBytes := rssBytes
  refCount := refCount
  idleFor := idleFor
  clientKinds := clientKinds
  handle := { key := { demoKey with lspId := lspId }, runtime := 0, initializeResult := .null }

/-- A session in an editor, one of an agent, and one over the limit of 1000
    bytes. -/
def demoSamples : List MemorySample :=
  [demoSample "editor" 800 1 90 [.editor], demoSample "agent" 800 0 120 [.agent],
    demoSample "huge" 2000 1 10 [.editor]]

/-- A limit of 1000 bytes for one session and for all together. -/
def demoBudget : MemoryBudgetSettings where
  maxSessionBytes := some 1000
  maxTotalBytes := some 1000
  checkInterval := 1

theorem selectEvictions_spec_demoSamples :
    selectEvictions demoSamples demoBudget =
      [demoSample "huge" 2000 1 10 [.editor], demoSample "agent" 800 0 120 [.agent]] ∧
    WithinTotal demoBudget (survivors demoSamples (selectEvictions demoSamples demoBudget)) :=
  ⟨by decide,
    (selectEvictions_spec demoSamples demoBudget (by decide) (by decide)).2.2.2.1⟩

end Lspee
