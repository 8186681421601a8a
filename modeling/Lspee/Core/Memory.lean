import Lspee.Core.Registry
import Mathlib.Data.List.Sort

/-!
# Memory Budget

How the memory monitor chooses the sessions to evict: those over the limit of
one session first, and then as many of the rest as bring the total down to the
limit of all. Within each group the sessions of editors come last, sessions in
use come after idle ones, and otherwise the one idle for longest comes first,
the largest of several first.

Sorting is stable, so sessions that compare equal keep the order in which the
registry lists them. The total is a `u64` and wraps around.

## Main definitions

* `MemoryBudgetSettings`, `MemorySample`: The limits, and what was measured.
* `memorySampleFromSnapshot`: A snapshot with its measured size.
* `sortCandidates`, `dedupeByKey`, `selectEvictions`: The choice.
* `evictionNotice`: The error the clients of an evicted session are sent.
-/

namespace Lspee

structure MemoryBudgetSettings where
  maxSessionBytes : Option Nat
  maxTotalBytes : Option Nat
  checkInterval : Duration
deriving DecidableEq, Repr

/-- Whether there is any limit. -/
def MemoryBudgetSettings.enabled (settings : MemoryBudgetSettings) : Bool :=
  settings.maxSessionBytes.isSome || settings.maxTotalBytes.isSome

structure MemorySample where
  key : SessionKey
  root : PathBuf
  rssBytes : Nat
  refCount : Nat
  idleFor : Duration
  clientKinds : List ClientKind
  handle : SessionHandle
deriving DecidableEq

def memorySampleFromSnapshot (snapshot : MemorySessionSnapshot) (rssBytes : Nat) :
    MemorySample where
  key := snapshot.handle.key
  root := snapshot.handle.key.root
  rssBytes := rssBytes
  refCount := snapshot.refCount
  idleFor := snapshot.idleFor
  clientKinds := snapshot.clientKinds
  handle := snapshot.handle

def leftEditor (sample : MemorySample) : Bool := sample.clientKinds.contains .editor

/-- The order in which sessions are evicted. -/
def compareCandidates (left right : MemorySample) : Ordering :=
  (compare (leftEditor left) (leftEditor right)).then <|
  (compare (decide (left.refCount > 0)) (decide (right.refCount > 0))).then <|
  (compare right.idleFor left.idleFor).then <|
  compare right.rssBytes left.rssBytes

def sortCandidates (samples : List MemorySample) : List MemorySample :=
  samples.insertionSort (fun left right => compareCandidates left right ≠ .gt)

/-- The first sample of each key. -/
def dedupeByKey : List MemorySample → List MemorySample
  | [] => []
  | sample :: samples =>
    sample :: (dedupeByKey samples).filter (fun other => decide (other.key ≠ sample.key))

/-- The sum of the sizes, in a `u64`. -/
def totalBytes (samples : List MemorySample) : Nat :=
  (samples.map (fun sample => sample.rssBytes)).sum % 2 ^ 64

/-- The candidates taken, in order, until the total is within the limit. -/
def takeOverTotal (maxTotalBytes : Nat) : Nat → List MemorySample → List MemorySample
  | _, [] => []
  | total, sample :: samples =>
    if total ≤ maxTotalBytes then []
    else sample :: takeOverTotal maxTotalBytes (total - sample.rssBytes) samples

/-- The samples over the limit of one session, in order of eviction. -/
def overSessionLimit (samples : List MemorySample) (settings : MemoryBudgetSettings) :
    List MemorySample :=
  match settings.maxSessionBytes with
  | none => []
  | some maxSessionBytes =>
    sortCandidates (samples.filter (fun sample => decide (sample.rssBytes > maxSessionBytes)))

/-- The samples that are not of a key already selected. -/
def remainingAfter (samples selected : List MemorySample) : List MemorySample :=
  samples.filter (fun candidate => selected.all (fun sample => decide (candidate.key ≠ sample.key)))

/-- Of the remaining samples, those evicted for the total, in order of
    eviction. -/
def overTotalLimit (remaining : List MemorySample) (settings : MemoryBudgetSettings) :
    List MemorySample :=
  match settings.maxTotalBytes with
  | none => []
  | some maxTotalBytes =>
    takeOverTotal maxTotalBytes (totalBytes remaining) (sortCandidates remaining)

def selectEvictions (samples : List MemorySample) (settings : MemoryBudgetSettings) :
    List MemorySample :=
  let overLimit := overSessionLimit samples settings
  dedupeByKey (overLimit ++ overTotalLimit (remainingAfter samples overLimit) settings)

/-- A limit as it is written into the notice. -/
def limitJson : Option Nat → Json
  | none => .null
  | some bytes => .num bytes

/-- The error the clients of a session evicted for its memory are sent. -/
def evictionNotice (sample : MemorySample) (settings : MemoryBudgetSettings) :
    StreamErrorPayload where
  code := "E_SESSION_EVICTED_MEMORY"
  message := "Session evicted due to memory budget pressure (rss=" ++ toString sample.rssBytes ++
    " bytes). Re-attach or retry the request to resume."
  retryable := true
  details := some (.obj [
    ("eviction_policy", .str "idle_lru"),
    ("lsp_id", .str sample.key.lspId),
    ("max_session_bytes", limitJson settings.maxSessionBytes),
    ("max_total_bytes", limitJson settings.maxTotalBytes),
    ("project_root", .str sample.root.display),
    ("resume_hint", .str ("Re-attach or retry the request. For Helix, restart the language " ++
      "server if it does not reconnect automatically.")),
    ("rss_bytes", .num sample.rssBytes)])

end Lspee
