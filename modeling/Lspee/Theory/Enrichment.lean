import Lspee.Core.Enrichment
import Lspee.Lib.Record

/-!
# A Context Line Is the Line the Location Starts At

What enriching a result changes, against what it is for: a location that starts at
a line of a local file gets the text of that line as its `context_line`, and nothing
else in the result changes. The reading of a file is right for every number it is
given (`nthLine_eq_iff`). The number of a location is cut down to 32 bits before it
is given to the reader, so from 2³² on another line is read; whether that shows in
the result depends on the two lines, and the condition that it does not is exact
(`enrichment_faithful_iff`).

A line of a file is said without the reader: there are as many lines before it as its
number, and a newline or the end of the file behind it.

## Main definitions

* `OpenFile.IsLine`: The text of a line of a file.
* `IsLocation`, `IsLocationLink`, `PointsTo`: The line a value points to.
* `Faithful`, `FaithfulResult`: The intended change.
* `Unwrapped`: Cutting the number down makes no difference.

## Theorems

* `nthLine_eq_iff`: The reader finds the line.
* `enriched_says`: What a location says afterwards.
* `enrichment_faithful_iff`: The condition is exact.
* `wrapped_line`: A location with the text of another line.
-/

namespace Lspee

open Utf8

/-! ### The lines of a file -/

/-- The file has this text as the line with this number. It ends with a newline, perhaps
    with a carriage return before, or it is what is left at the end of the file. -/
def OpenFile.IsLine (file : OpenFile) (n : Nat) (text : List Char) : Prop :=
  ∃ (earlier : List (List UInt8)) (line rest : List UInt8),
    earlier.length = n ∧ (∀ other ∈ earlier, newline ∉ other) ∧ newline ∉ line ∧
    file.bytes = earlier.flatMap (· ++ [newline]) ++ (line ++ rest) ∧
    ((∃ behind, rest = newline :: behind ∧
        (decode line).map stripCarriageReturn = some text) ∨
      rest = [] ∧ line ≠ [] ∧ file.ending = .eof ∧ decode line = some text)

theorem nextFileLine_newline (line rest : List UInt8) (ending : Ending) (h : newline ∉ line) :
    nextFileLine ⟨line ++ newline :: rest, ending⟩ =
      some ((decode line).map stripCarriageReturn, ⟨rest, ending⟩) := by
  rw [nextFileLine, splitLine_append line rest h]

theorem nextFileLine_last (line : List UInt8) (h : newline ∉ line) (hne : line ≠ []) :
    nextFileLine ⟨line, .eof⟩ = some (decode line, ⟨[], .eof⟩) := by
  rw [nextFileLine, splitLine_of_not_mem line h]
  exact if_neg hne

/-- Behind the last newline reading goes on with nothing. -/
theorem nextFileLine_cases (file : OpenFile) :
    (∃ line rest, newline ∉ line ∧ file.bytes = line ++ newline :: rest) ∨
    newline ∉ file.bytes ∧ ∀ text file', nextFileLine file = some (text, file') →
      file'.bytes = [] ∧ ∀ t, text = some t →
        file.ending = .eof ∧ file.bytes ≠ [] ∧ decode file.bytes = some t := by
  rcases splitLine_spec file.bytes with ⟨hnot, hbytes⟩
  cases hrest : (splitLine file.bytes).2 with
  | some rest =>
      rw [hrest, Option.elim_some] at hbytes
      exact Or.inl ⟨_, rest, hnot, hbytes⟩
  | none =>
      rw [hrest, Option.elim_none, List.append_nil] at hbytes
      rw [← hbytes] at hnot
      refine Or.inr ⟨hnot, fun text file' hnext => ?_⟩
      rw [nextFileLine, splitLine_of_not_mem file.bytes hnot] at hnext
      cases hending : file.ending with
      | error =>
          simp only [hending, Option.some.injEq, Prod.mk.injEq] at hnext
          rw [← hnext.1, ← hnext.2]
          exact ⟨rfl, fun t ht => nomatch ht⟩
      | eof =>
          simp only [hending] at hnext
          by_cases hempty : file.bytes = []
          · rw [if_pos hempty] at hnext
            cases hnext
          · rw [if_neg hempty, Option.some.injEq, Prod.mk.injEq] at hnext
            rw [← hnext.1, ← hnext.2]
            exact ⟨rfl, fun t ht => ⟨rfl, hempty, ht⟩⟩

theorem not_isLine_empty (ending : Ending) (n : Nat) (text : List Char) :
    ¬ OpenFile.IsLine ⟨[], ending⟩ n text := by
  rintro ⟨earlier, line, rest, -, -, -, hbytes, hend⟩
  have hnil := List.append_eq_nil_iff.mp (List.append_eq_nil_iff.mp hbytes.symm).2
  rcases hend with ⟨behind, hrest, -⟩ | ⟨-, hline, -⟩
  · exact List.cons_ne_nil _ _ (hrest.symm.trans hnil.2)
  · exact hline hnil.1

/-- One line further, behind the first newline. -/
theorem OpenFile.IsLine.behind (line rest : List UInt8) (ending : Ending) (n : Nat)
    (text : List Char) (hnot : newline ∉ line) (h : OpenFile.IsLine ⟨rest, ending⟩ n text) :
    OpenFile.IsLine ⟨line ++ newline :: rest, ending⟩ (n + 1) text := by
  rcases h with ⟨earlier, line', rest', hlen, hearlier, hline', hbytes, hend⟩
  refine ⟨line :: earlier, line', rest', by rw [List.length_cons, hlen], ?_, hline', ?_, hend⟩
  · intro other hmem
    rcases List.mem_cons.mp hmem with rfl | hmem
    · exact hnot
    · exact hearlier other hmem
  · change rest = _ at hbytes
    change line ++ newline :: rest = _
    rw [hbytes, List.flatMap_cons, List.append_assoc, List.append_assoc, List.singleton_append]

theorem isLine_of_nthLine (n : Nat) (file : OpenFile) (text : List Char)
    (h : nthLine n file = some (some text)) : file.IsLine n text := by
  -- The bytes behind the first line are a file of their own, one line shorter.
  induction n generalizing file with
  | zero =>
      rw [nthLine] at h
      rcases Option.map_eq_some_iff.mp h with ⟨⟨t, file'⟩, hnext, rfl : t = some text⟩
      rcases nextFileLine_cases file with ⟨line, rest, hnot, hbytes⟩ | ⟨hnot, hlast⟩
      · rcases file with ⟨bytes, ending⟩
        subst hbytes
        rw [nextFileLine_newline line rest ending hnot, Option.some.injEq, Prod.mk.injEq] at hnext
        exact ⟨[], line, newline :: rest, rfl, fun _ hmem => absurd hmem List.not_mem_nil, hnot,
          rfl, Or.inl ⟨rest, rfl, hnext.1⟩⟩
      · rcases (hlast _ _ hnext).2 text rfl with ⟨hending, hne, hdecode⟩
        exact ⟨[], file.bytes, [], rfl, fun _ hmem => absurd hmem List.not_mem_nil, hnot,
          by simp, Or.inr ⟨rfl, hne, hending, hdecode⟩⟩
  | succ n ih =>
      rw [nthLine] at h
      cases hnext : nextFileLine file with
      | none => rw [hnext] at h; cases h
      | some taken =>
          rcases taken with ⟨t, file'⟩
          rw [hnext] at h
          have hbehind := ih file' h
          rcases nextFileLine_cases file with ⟨line, rest, hnot, hbytes⟩ | ⟨-, hlast⟩
          · rcases file with ⟨bytes, ending⟩
            subst hbytes
            rw [nextFileLine_newline line rest ending hnot, Option.some.injEq,
              Prod.mk.injEq] at hnext
            rw [← hnext.2] at hbehind
            exact hbehind.behind line rest ending n text hnot
          · -- no newline is left, and there is no further line
            rcases file' with ⟨bytes', ending'⟩
            have hempty : bytes' = [] := (hlast _ _ hnext).1
            rw [hempty] at hbehind
            exact absurd hbehind (not_isLine_empty ending' n text)

theorem nthLine_of_isLine (earlier : List (List UInt8)) (line rest : List UInt8)
    (ending : Ending) (text : List Char) (hearlier : ∀ other ∈ earlier, newline ∉ other)
    (hline : newline ∉ line)
    (hend : (∃ behind, rest = newline :: behind ∧
        (decode line).map stripCarriageReturn = some text) ∨
      rest = [] ∧ line ≠ [] ∧ ending = .eof ∧ decode line = some text) :
    nthLine earlier.length ⟨earlier.flatMap (· ++ [newline]) ++ (line ++ rest), ending⟩ =
      some (some text) := by
  induction earlier with
  | nil =>
      rw [List.flatMap_nil, List.nil_append, List.length_nil, nthLine]
      rcases hend with ⟨behind, rfl, htext⟩ | ⟨rfl, hne, rfl, htext⟩
      · rw [nextFileLine_newline line behind ending hline, Option.map_some, htext]
      · rw [List.append_nil, nextFileLine_last line hline hne, Option.map_some, htext]
  | cons first earlier ih =>
      have hfirst := hearlier first List.mem_cons_self
      have hrun := ih (fun other hmem => hearlier other (List.mem_cons_of_mem _ hmem))
      rw [List.flatMap_cons, List.append_assoc, List.append_assoc, List.singleton_append,
        List.length_cons, nthLine, nextFileLine_newline first _ ending hfirst]
      exact hrun

/-- The reader finds a line with text exactly where the file has one. -/
theorem nthLine_eq_iff (n : Nat) (file : OpenFile) (text : List Char) :
    nthLine n file = some (some text) ↔ file.IsLine n text := by
  constructor
  · exact isLine_of_nthLine n file text
  · rintro ⟨earlier, line, rest, rfl, hearlier, hline, hbytes, hend⟩
    rcases file with ⟨bytes, ending⟩
    subst hbytes
    exact nthLine_of_isLine earlier line rest ending text hearlier hline hend

theorem OpenFile.IsLine.unique (file : OpenFile) (n : Nat) (a b : List Char)
    (ha : file.IsLine n a) (hb : file.IsLine n b) : a = b := by
  have heq := ((nthLine_eq_iff n file a).mpr ha).symm.trans ((nthLine_eq_iff n file b).mpr hb)
  exact Option.some_inj.mp (Option.some_inj.mp heq)

/-! ### The line a value points to -/

/-- There is a URI under the one key, and the range under the other starts at the line. -/
def Json.Names (v : Json) (uriKey rangeKey uri : String) (line : Nat) : Prop :=
  v.get uriKey = some (.str uri) ∧ ∃ range start, v.get rangeKey = some range ∧
    range.get "start" = some start ∧ start.get "line" = some (.num line)

def IsLocation (v : Json) (uri : String) (line : Nat) : Prop :=
  v.Names "uri" "range" uri line

def IsLocationLink (v : Json) (uri : String) (line : Nat) : Prop :=
  v.Names "targetUri" "targetRange" uri line

/-- A location, or a location link that is no location. -/
def PointsTo (v : Json) (uri : String) (line : Nat) : Prop :=
  IsLocation v uri line ∨ (∀ uri' line', ¬ IsLocation v uri' line') ∧ IsLocationLink v uri line

theorem asStr_eq_iff (v : Json) (s : String) : v.asStr = some s ↔ v = .str s := by
  cases v <;> simp [Json.asStr]

theorem asU64_eq_iff (v : Json) (n : Nat) : v.asU64 = some n ↔ v = .num n := by
  cases v with
  | num i =>
      by_cases hi : 0 ≤ i
      · simp only [Json.asU64, if_pos hi, Option.some.injEq, Json.num.injEq]
        omega
      · simp only [Json.asU64, if_neg hi, Json.num.injEq]
        exact ⟨(nomatch ·), fun h => absurd (h ▸ Int.natCast_nonneg n) hi⟩
  | _ => simp [Json.asU64]

theorem startLine_eq_iff (v : Json) (rangeKey : String) (line : Nat) :
    startLine v rangeKey = some line ↔ ∃ range start, v.get rangeKey = some range ∧
      range.get "start" = some start ∧ start.get "line" = some (.num line) := by
  constructor
  · intro h
    rcases Option.bind_eq_some_iff.mp h with ⟨number, hnumber, hline⟩
    rcases Option.bind_eq_some_iff.mp hnumber with ⟨start, hstart, hget⟩
    rcases Option.bind_eq_some_iff.mp hstart with ⟨range, hrange, hget'⟩
    rw [(asU64_eq_iff number line).mp hline] at hget
    exact ⟨range, start, hrange, hget', hget⟩
  · rintro ⟨range, start, hrange, hstart, hline⟩
    rw [startLine, hrange, Option.bind_some, hstart, Option.bind_some, hline, Option.bind_some]
    exact (asU64_eq_iff _ line).mpr rfl

theorem names_iff (v : Json) (uriKey rangeKey uri : String) (line : Nat) :
    v.Names uriKey rangeKey uri line ↔
      (v.get uriKey).bind Json.asStr = some uri ∧ startLine v rangeKey = some line := by
  rw [Json.Names, startLine_eq_iff]
  refine and_congr_left fun _ => ?_
  rw [Option.bind_eq_some_iff]
  constructor
  · exact fun h => ⟨_, h, rfl⟩
  · rintro ⟨text, hget, htext⟩
    rw [hget, (asStr_eq_iff text uri).mp htext]

theorem Json.Names.unique (v : Json) (uriKey rangeKey uri uri' : String) (line line' : Nat)
    (h : v.Names uriKey rangeKey uri line) (h' : v.Names uriKey rangeKey uri' line') :
    uri = uri' ∧ line = line' := by
  rcases (names_iff v uriKey rangeKey uri line).mp h with ⟨huri, hline⟩
  rcases (names_iff v uriKey rangeKey uri' line').mp h' with ⟨huri', hline'⟩
  exact ⟨Option.some_inj.mp (huri.symm.trans huri'), Option.some_inj.mp (hline.symm.trans hline')⟩

theorem PointsTo.unique (v : Json) (uri uri' : String) (line line' : Nat)
    (h : PointsTo v uri line) (h' : PointsTo v uri' line') : uri = uri' ∧ line = line' := by
  rcases h with h | ⟨hnot, h⟩ <;> rcases h' with h' | ⟨hnot', h'⟩
  · exact Json.Names.unique v _ _ _ _ _ _ h h'
  · exact absurd h (hnot' _ _)
  · exact absurd h' (hnot _ _)
  · exact Json.Names.unique v _ _ _ _ _ _ h h'

/-! ### What a value says -/

section Files

variable {Url Path : Type} (x : UrlCrate Url Path) (files : Path → Option OpenFile)

/-- The URI is one of a local file. -/
def UrlCrate.IsLocal (uri : String) (path : Path) : Prop :=
  ∃ url, x.parse uri = some url ∧ x.scheme url = "file" ∧ x.toFilePath url = some path

theorem uriToPath_eq_iff (uri : String) (path : Path) :
    uriToPath x uri = some path ↔ x.IsLocal uri path := by
  rw [uriToPath, UrlCrate.IsLocal]
  cases x.parse uri with
  | none => exact ⟨(nomatch ·), fun ⟨_, h, _⟩ => nomatch h⟩
  | some url =>
      by_cases hscheme : x.scheme url = "file"
      · simp [hscheme]
      · simp [hscheme]

/-- The value points to this line of this file, which can be opened. -/
def PointsAt (v : Json) (file : OpenFile) (line : Nat) : Prop :=
  ∃ uri path, PointsTo v uri line ∧ x.IsLocal uri path ∧ files path = some file

/-- The text of the line that the value points to. -/
def HasContext (v : Json) (text : List Char) : Prop :=
  ∃ file line, PointsAt x files v file line ∧ file.IsLine line text

/-- A value without its context line. -/
def Json.others : Json → Json
  | .obj fields => .obj (fields.filter (fun field => field.1 ≠ "context_line"))
  | other => other

/-- The intended change of one value. -/
structure Faithful (before after : Json) : Prop where
  others : after.others = before.others
  set : ∀ text, HasContext x files before text →
    after.get "context_line" = some (.str (String.ofList text))
  unset : (∀ text, ¬ HasContext x files before text) →
    after.get "context_line" = before.get "context_line"

/-- The intended change of a result. -/
def FaithfulResult (before after : Json) : Prop :=
  match before with
  | .arr items => ∃ enriched, after = .arr enriched ∧ List.Forall₂ (Faithful x files) items enriched
  | .obj fields => Faithful x files (.obj fields) after
  | other => after = other

/-- What the value says when its context is the line with this number, if there is one. -/
def Says (v : Json) (file : OpenFile) (n : Nat) (said : Option Json) : Prop :=
  (∃ text, file.IsLine n text ∧ said = some (.str (String.ofList text))) ∨
    (∀ text, ¬ file.IsLine n text) ∧ said = v.get "context_line"

/-- Where the value points to a line, it says the same of the line whose number is cut
    down to 32 bits. -/
def Unwrapped (v : Json) : Prop :=
  ∀ file line, PointsAt x files v file line →
    ∀ said, Says v file (line % 2 ^ 32) said ↔ Says v file line said

/-- The values of a result that may be locations. -/
def locations : Json → List Json
  | .arr items => items
  | .obj fields => [.obj fields]
  | _ => []

theorem Says.unique (v : Json) (file : OpenFile) (n : Nat) (said said' : Option Json)
    (h : Says v file n said) (h' : Says v file n said') : said = said' := by
  rcases h with ⟨text, hline, rfl⟩ | ⟨hnone, rfl⟩ <;>
    rcases h' with ⟨text', hline', rfl⟩ | ⟨hnone', rfl⟩
  · rw [hline.unique file n text text' hline']
  · exact absurd hline (hnone' text)
  · exact absurd hline' (hnone text')
  · rfl

theorem PointsAt.unique (v : Json) (file file' : OpenFile) (line line' : Nat)
    (h : PointsAt x files v file line) (h' : PointsAt x files v file' line') :
    file = file' ∧ line = line' := by
  rcases h with ⟨uri, path, hpoints, hlocal, hfile⟩
  rcases h' with ⟨uri', path', hpoints', hlocal', hfile'⟩
  rcases hpoints.unique v uri uri' line line' hpoints' with ⟨rfl, rfl⟩
  have hpath := ((uriToPath_eq_iff x uri path).mpr hlocal).symm.trans
    ((uriToPath_eq_iff x uri path').mpr hlocal')
  cases hpath
  exact ⟨Option.some_inj.mp (hfile.symm.trans hfile'), rfl⟩

/-! ### What enriching does -/

theorem lookup_insertField (key : String) (value : Json) (fields : List (String × Json)) :
    (insertField key value fields).lookup key = some value := by
  induction fields with
  | nil => rw [insertField, Record.lookup_cons_eq, if_pos rfl]
  | cons first rest ih =>
      rcases first with ⟨other, field⟩
      rw [insertField]
      by_cases heq : key = other
      · rw [if_pos heq, Record.lookup_cons_eq, if_pos rfl]
      · rw [if_neg heq]
        by_cases hlt : key < other
        · rw [if_pos hlt, Record.lookup_cons_eq, if_pos rfl]
        · rw [if_neg hlt, Record.lookup_cons_eq, if_neg heq, ih]

theorem filter_insertField (key : String) (value : Json) (fields : List (String × Json)) :
    (insertField key value fields).filter (fun field => field.1 ≠ key) =
      fields.filter (fun field => field.1 ≠ key) := by
  induction fields with
  | nil => simp [insertField]
  | cons first rest ih =>
      rcases first with ⟨other, field⟩
      rw [insertField]
      by_cases heq : key = other
      · simp [← heq]
      · rw [if_neg heq]
        by_cases hlt : key < other
        · rw [if_pos hlt]
          exact List.filter_cons_of_neg (by simp)
        · rw [if_neg hlt, List.filter_cons, List.filter_cons, ih]

/-- Only an object points to a line. -/
theorem PointsTo.isObject (v : Json) (uri : String) (line : Nat) (h : PointsTo v uri line) :
    ∃ fields, v = .obj fields := by
  have hget : ∃ key field, v.get key = some field := by
    rcases h with ⟨h, -⟩ | ⟨-, h, -⟩
    · exact ⟨_, _, h⟩
    · exact ⟨_, _, h⟩
  rcases hget with ⟨key, field, hget⟩
  cases v with
  | obj fields => exact ⟨fields, rfl⟩
  | _ => cases hget

/-- A value that points to a line goes through the shared body with it. -/
theorem enrichSingleLocation_of_points (v : Json) (uri : String) (line : Nat)
    (h : PointsTo v uri line) :
    enrichSingleLocation x files v = setContextLine x files v uri line := by
  rcases h with h | ⟨hnot, h⟩
  · rcases (names_iff v _ _ uri line).mp h with ⟨huri, hline⟩
    rw [enrichSingleLocation, huri, hline]
  · rcases (names_iff v _ _ uri line).mp h with ⟨huri, hline⟩
    rw [enrichSingleLocation, huri, hline]
    -- A link is looked at only when the value is no location.
    cases huri' : (v.get "uri").bind Json.asStr with
    | none => rfl
    | some uri' =>
        cases hline' : startLine v "range" with
        | none => rfl
        | some line' => exact absurd ((names_iff v _ _ uri' line').mpr ⟨huri', hline'⟩) (hnot _ _)

/-- A value that points to none is left as it is. -/
theorem enrichSingleLocation_of_not_points (v : Json) (h : ∀ uri line, ¬ PointsTo v uri line) :
    enrichSingleLocation x files v = v := by
  have hnot : ∀ uri line, ¬ IsLocation v uri line := fun uri line hloc => h uri line (Or.inl hloc)
  rw [enrichSingleLocation]
  split
  next uri line huri hline =>
    exact absurd ((names_iff v _ _ uri line).mpr ⟨huri, hline⟩) (hnot uri line)
  next =>
    split
    next uri line huri hline =>
      have hlink := (names_iff v _ _ uri line).mpr ⟨huri, hline⟩
      exact absurd (Or.inr ⟨hnot, hlink⟩) (h uri line)
    next => rfl

theorem setContextLine_others (v : Json) (uri : String) (line : Nat) (h : PointsTo v uri line) :
    (setContextLine x files v uri line).others = v.others := by
  rcases h.isObject with ⟨fields, rfl⟩
  unfold setContextLine
  split
  next => rfl
  next =>
    split
    next => rfl
    next => exact congrArg Json.obj (filter_insertField _ _ fields)

/-- Whatever the value is, nothing but its context line changes. -/
theorem enrichSingleLocation_others (v : Json) :
    (enrichSingleLocation x files v).others = v.others := by
  by_cases h : ∃ uri line, PointsTo v uri line
  · rcases h with ⟨uri, line, h⟩
    rw [enrichSingleLocation_of_points x files v uri line h]
    exact setContextLine_others x files v uri line h
  · push Not at h
    rw [enrichSingleLocation_of_not_points x files v h]

/-- A location says afterwards what it is to say of the line with the number cut down. -/
theorem enriched_says (v : Json) (file : OpenFile) (line : Nat) (h : PointsAt x files v file line) :
    Says v file (line % 2 ^ 32) ((enrichSingleLocation x files v).get "context_line") := by
  rcases h with ⟨uri, path, hpoints, hlocal, hfile⟩
  rcases hpoints.isObject with ⟨fields, rfl⟩
  rw [enrichSingleLocation_of_points x files _ uri line hpoints, setContextLine,
    (uriToPath_eq_iff x uri path).mpr hlocal]
  simp only [readContextLine, hfile, castU32]
  cases hread : (nthLine (line % 2 ^ 32) file).join with
  | some text =>
      have hline := (nthLine_eq_iff _ file text).mp (Option.join_eq_some_iff.mp hread)
      exact Or.inl ⟨text, hline, lookup_insertField _ _ fields⟩
  | none =>
      -- Nothing is read, so the file has no such line.
      refine Or.inr ⟨fun text hline => ?_, rfl⟩
      rw [(nthLine_eq_iff _ file text).mpr hline] at hread
      cases hread

/-- A value that points to no file that opens is left as it is. -/
theorem enrichSingleLocation_of_not_pointsAt (v : Json)
    (h : ∀ file line, ¬ PointsAt x files v file line) :
    enrichSingleLocation x files v = v := by
  by_cases hpoints : ∃ uri line, PointsTo v uri line
  · rcases hpoints with ⟨uri, line, hpoints⟩
    rw [enrichSingleLocation_of_points x files v uri line hpoints, setContextLine]
    cases hpath : uriToPath x uri with
    | none => rfl
    | some path =>
        cases hfile : files path with
        | none => simp only [readContextLine, hfile]
        | some file =>
            have hlocal := (uriToPath_eq_iff x uri path).mp hpath
            exact absurd ⟨uri, path, hpoints, hlocal, hfile⟩ (h file line)
  · push Not at hpoints
    exact enrichSingleLocation_of_not_points x files v hpoints

/-! ### Faithfulness -/

/-- For a location, the intended change is about what it says of its line. -/
theorem faithful_says_iff (v after : Json) (file : OpenFile) (line : Nat)
    (h : PointsAt x files v file line) :
    Faithful x files v after ↔
      after.others = v.others ∧ Says v file line (after.get "context_line") := by
  have hcontext : ∀ text, HasContext x files v text ↔ file.IsLine line text := by
    intro text
    constructor
    · rintro ⟨file', line', hpoints, hline⟩
      rcases h.unique x files v file file' line line' hpoints with ⟨rfl, rfl⟩
      exact hline
    · exact fun hline => ⟨file, line, h, hline⟩
  constructor
  · intro hfaithful
    refine ⟨hfaithful.others, ?_⟩
    by_cases hline : ∃ text, file.IsLine line text
    · rcases hline with ⟨text, hline⟩
      exact Or.inl ⟨text, hline, hfaithful.set text ((hcontext text).mpr hline)⟩
    · push Not at hline
      exact Or.inr ⟨hline, hfaithful.unset fun text ht => hline text ((hcontext text).mp ht)⟩
  · rintro ⟨hothers, hsays⟩
    refine ⟨hothers, fun text ht => ?_, fun hnone => ?_⟩
    · exact hsays.unique v file line _ _ (Or.inl ⟨text, (hcontext text).mp ht, rfl⟩)
    · refine hsays.unique v file line _ _ (Or.inr ⟨fun text hline => ?_, rfl⟩)
      exact hnone text ((hcontext text).mpr hline)

/-- One value is changed as intended exactly when cutting the number down does not show. -/
theorem faithful_iff_unwrapped (v : Json) :
    Faithful x files v (enrichSingleLocation x files v) ↔ Unwrapped x files v := by
  have hothers := enrichSingleLocation_others x files v
  constructor
  · intro hfaithful file line hpoints said
    -- What is said afterwards is all that is said of either number.
    have hwrapped := enriched_says x files v file line hpoints
    have hexact := ((faithful_says_iff x files v _ file line hpoints).mp hfaithful).2
    constructor
    · intro h
      rw [h.unique v file _ _ _ hwrapped]
      exact hexact
    · intro h
      rw [h.unique v file _ _ _ hexact]
      exact hwrapped
  · intro hunwrapped
    -- A value that points to no file that opens is left alone.
    by_cases h : ∃ file line, PointsAt x files v file line
    · rcases h with ⟨file, line, hpoints⟩
      have hwrapped := enriched_says x files v file line hpoints
      have hexact := (hunwrapped file line hpoints _).mp hwrapped
      exact (faithful_says_iff x files v _ file line hpoints).mpr ⟨hothers, hexact⟩
    · push Not at h
      rw [enrichSingleLocation_of_not_pointsAt x files v h]
      refine ⟨rfl, fun text ht => ?_, fun _ => rfl⟩
      rcases ht with ⟨file, line, hpoints, -⟩
      exact absurd hpoints (h file line)

theorem faithful_map_iff (items : List Json) :
    List.Forall₂ (Faithful x files) items (items.map (enrichSingleLocation x files)) ↔
      ∀ v ∈ items, Unwrapped x files v := by
  induction items with
  | nil => simp
  | cons v items ih =>
      rw [List.map_cons, List.forall₂_cons, ih, faithful_iff_unwrapped, List.forall_mem_cons]

/-- A result is changed as intended exactly when cutting the line numbers down shows
    in none of its locations. -/
theorem enrichment_faithful_iff (result : Json) :
    FaithfulResult x files result (enrichLocations x files result) ↔
      ∀ v ∈ locations result, Unwrapped x files v := by
  cases result with
  | arr items =>
      have hitems := faithful_map_iff x files items
      constructor
      · rintro ⟨enriched, heq, hfaithful⟩
        cases heq
        exact hitems.mp hfaithful
      · exact fun h => ⟨_, rfl, hitems.mpr h⟩
  | obj fields =>
      have hobj := faithful_iff_unwrapped x files (.obj fields)
      rw [locations, List.forall_mem_singleton]
      exact hobj
  | _ => simp [FaithfulResult, enrichLocations, locations]

end Files

/-! ### A line that is not the one -/

theorem length_le_ended (lines : List (List UInt8)) :
    lines.length ≤ (lines.flatMap (· ++ [newline])).length := by
  induction lines with
  | nil => exact Nat.le_refl 0
  | cons first lines ih =>
      rw [List.flatMap_cons, List.length_append, List.length_append, List.length_cons,
        List.length_singleton]
      omega

/-- A file has no more lines than bytes. -/
theorem OpenFile.IsLine.le_length (file : OpenFile) (n : Nat) (text : List Char)
    (h : file.IsLine n text) : n ≤ file.bytes.length := by
  rcases h with ⟨earlier, line, rest, rfl, -, -, hbytes, -⟩
  have hearlier := length_le_ended earlier
  rw [hbytes, List.length_append]
  omega

/-- A file of one line. -/
def oneLineFile : OpenFile := ⟨encode "fn main() {}\n".toList, .eof⟩

/-- The URI of the file, and no other. -/
def oneLineUrls : UrlCrate String String where
  parse := fun uri => if uri = "file:///main.rs" then some "/main.rs" else none
  scheme := fun _ => "file"
  toFilePath := some

def oneLineFiles (path : String) : Option OpenFile :=
  if path = "/main.rs" then some oneLineFile else none

/-- A location at line 2³², which the file does not have. -/
def pastTheEnd : Json := .obj
  [("range", .obj [("start", .obj [("line", .num 4294967296)])]), ("uri", .str "file:///main.rs")]

theorem pastTheEnd_pointsTo : PointsTo pastTheEnd "file:///main.rs" 4294967296 :=
  Or.inl ⟨rfl, _, _, rfl, rfl, rfl⟩

theorem pastTheEnd_reads :
    (enrichLocations oneLineUrls oneLineFiles pastTheEnd).get "context_line" =
      some (.str "fn main() {}") := by decide +kernel

/-- The location gets the text of the first line of the file. -/
theorem wrapped_line : ¬ FaithfulResult oneLineUrls oneLineFiles pastTheEnd
    (enrichLocations oneLineUrls oneLineFiles pastTheEnd) := by
  intro hfaithful
  have hnone : ∀ text, ¬ HasContext oneLineUrls oneLineFiles pastTheEnd text := by
    rintro text ⟨file, line, ⟨uri, path, hpoints, -, hfile⟩, hline⟩
    rcases hpoints.unique _ _ _ _ _ pastTheEnd_pointsTo with ⟨-, rfl⟩
    have hlen : file.bytes.length = 13 := by
      rw [oneLineFiles] at hfile
      split at hfile
      next => cases hfile; decide +kernel
      next => cases hfile
    have hle := hline.le_length file _ text
    omega
  have hunset := Faithful.unset hfaithful hnone
  rw [pastTheEnd_reads] at hunset
  cases hunset

end Lspee
