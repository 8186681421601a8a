import Lspee.Theory.Framing
import Mathlib.Data.List.DropRight

/-!
# Frames That Are Cut Off

What `read_lsp_frame` makes of a stream that ends within a frame. A body that is
cut off is an error. A header is read line by line, and the end of the stream
looks like the end of a line: what is there of the line is looked at as if it
were all of it, and if nothing is wrong with it, the next line is the end of the
stream. So a frame that is cut off in its header is taken for no frame at all,
unless what is left of the last line gives it away.

## Main definitions

* `FramedValue.header`: A frame up to the empty line.
* `cutLine`: What is there of the last line.
* `lineRejected`: What is there of a line is not a line.
* `FailsAfter`: Calls of `read_lsp_frame` that end with an error.
* `Detected`: The cut is in the body, or the line gives it away.

## Theorems

* `finishFrame_header`: The end of the stream in a header.
* `poll_lines`, `poll_within_body`: How far reading comes.
* `truncated_iff`: When a cut is an error.
* `truncated_header`: A cut that is none.
-/

namespace Lspee

open Utf8

variable (fromSlice : List UInt8 → Option Json)

/-! ### The end of the stream in a header -/

/-- What is there of the last line. -/
def cutLine (input : List UInt8) : List UInt8 := input.rtakeWhile (· ≠ newline)

/-- What is there of a line is not UTF-8, or is taken for the empty line, or for
    a length that is no number. -/
def lineRejected (line : List UInt8) : Bool :=
  match decode line with
  | none => true
  | some text =>
    (line ≠ [] && trimEnd isLineEnd text = []) ||
      (contentLengthHeader <+: trimEnd isLineEnd text &&
        (parseUsize (trim ((trimEnd isLineEnd text).drop contentLengthHeader.length))).isNone)

theorem cutLine_append (before line : List UInt8) (h : newline ∉ line) :
    cutLine (before ++ [newline] ++ line) = line := by
  induction line using List.reverseRecOn with
  | nil =>
      rw [List.append_nil]
      exact List.rtakeWhile_concat_neg _ _ _ (by simp)
  | append_singleton line b ih =>
      have hb : b ≠ newline := fun heq => h (by rw [heq]; simp)
      have hrest : newline ∉ line := fun hmem => h (List.mem_append_left _ hmem)
      rw [← List.append_assoc, cutLine, List.rtakeWhile_concat_pos _ _ _ (by simpa using hb)]
      exact congrArg (· ++ [b]) (ih hrest)

theorem cutLine_of_not_mem (line : List UInt8) (h : newline ∉ line) : cutLine line = line := by
  rw [cutLine, List.rtakeWhile_eq_self_iff]
  intro b hb
  have hne : b ≠ newline := fun heq => h (heq ▸ hb)
  simpa using hne

/-- A line that is rejected is no line of a header, and one that is not leaves
    the header open. -/
theorem endLine_rejected (hempty : fromSlice [] = none) (line : List UInt8)
    (contentLength : Option Nat) (h : lineRejected line = true) :
    endLine fromSlice line contentLength = .failed ∨
      ∃ n, endLine fromSlice line contentLength = .more (.body [] n) := by
  unfold lineRejected at h
  unfold endLine
  cases hdecode : decode line with
  | none => exact Or.inl rfl
  | some text =>
      simp only [hdecode, Bool.or_eq_true, Bool.and_eq_true, decide_eq_true_eq] at h
      rcases h with ⟨_, htrim⟩ | ⟨hname, hlength⟩
      · simp only [htrim, if_true]
        cases contentLength with
        | none => exact Or.inl rfl
        | some n =>
            cases n with
            | zero => exact Or.inl (by simp only [decodeBody, hempty])
            | succ n => exact Or.inr ⟨n + 1, rfl⟩
      · have htrim : trimEnd isLineEnd text ≠ [] := by
          intro htrim
          rw [htrim] at hname
          exact absurd hname (by decide)
        rw [Option.isNone_iff_eq_none] at hlength
        simp only [if_neg htrim, if_pos hname, hlength]
        exact Or.inl trivial

theorem endLine_accepted (line : List UInt8) (hline : line ≠ []) (contentLength : Option Nat)
    (h : lineRejected line = false) :
    ∃ contentLength', endLine fromSlice line contentLength = .more (.header [] contentLength') := by
  unfold lineRejected at h
  unfold endLine
  cases hdecode : decode line with
  | none =>
      simp only [hdecode] at h
      exact absurd h (by simp)
  | some text =>
      simp only [hdecode, Bool.or_eq_false_iff, Bool.and_eq_false_iff, decide_eq_false_iff_not,
        not_not] at h
      have htrim : trimEnd isLineEnd text ≠ [] := h.1.resolve_left hline
      simp only [if_neg htrim]
      by_cases hname : contentLengthHeader <+: trimEnd isLineEnd text
      · have hlength := h.2.resolve_left (fun hnot => hnot hname)
        rw [Option.isNone_eq_false_iff, Option.isSome_iff_exists] at hlength
        rcases hlength with ⟨n, hn⟩
        simp only [if_pos hname, hn]
        exact ⟨_, rfl⟩
      · simp only [if_neg hname]
        exact ⟨_, rfl⟩

/-- A stream that ends within a header fails exactly when what is there of the
    last line is rejected. An empty body is no JSON value. -/
theorem finishFrame_header (hempty : fromSlice [] = none) (line : List UInt8)
    (contentLength : Option Nat) :
    finishFrame fromSlice (.header line contentLength) =
      if lineRejected line then none else some [] := by
  cases line with
  | nil => rfl
  | cons b line =>
      by_cases hrejected : lineRejected (b :: line) = true
      · rw [if_pos hrejected]
        rcases endLine_rejected fromSlice hempty (b :: line) contentLength hrejected with
          hend | ⟨n, hend⟩
        · simp only [finishFrame, hend]
        · simp only [finishFrame, hend]
      · rw [if_neg hrejected]
        rcases endLine_accepted fromSlice (b :: line) (by simp) contentLength
          (Bool.eq_false_iff.mpr hrejected) with ⟨contentLength', hend⟩
        simp only [finishFrame, hend]

/-! ### How far reading comes -/

/-- A line that leaves the header open. -/
def Passes (line : List UInt8) : Prop :=
  ∀ contentLength, ∃ contentLength',
    endLine fromSlice (line ++ [newline]) contentLength = .more (.header [] contentLength')

theorem poll_lines (lines : List (List UInt8)) (contentLength : Option Nat)
    (hlines : ∀ line ∈ lines, newline ∉ line ∧ Passes fromSlice line) :
    ∃ contentLength', (frameReader fromSlice).poll (.header [] contentLength)
      (lines.flatMap (· ++ [newline])) = .pending (.header [] contentLength') := by
  induction lines generalizing contentLength with
  | nil => exact ⟨contentLength, rfl⟩
  | cons line lines ih =>
      rcases hlines line List.mem_cons_self with ⟨hnot, hpasses⟩
      rcases hpasses contentLength with ⟨contentLength₁, hend⟩
      have hfirst := poll_line fromSlice [] line contentLength hnot
      rw [List.nil_append, hend] at hfirst
      rcases ih contentLength₁ fun line' hmem => hlines line' (List.mem_cons_of_mem _ hmem) with
        ⟨contentLength', hrest⟩
      refine ⟨contentLength', ?_⟩
      rw [List.flatMap_cons, Reader.poll_of_pending _ _ _ _ _ hfirst, hrest]

theorem poll_within_body (taken xs : List UInt8) (missing : Nat) (h : xs.length < missing) :
    (frameReader fromSlice).poll (.body taken missing) xs
      = .pending (.body (taken ++ xs) (missing - xs.length)) := by
  induction xs generalizing taken missing with
  | nil => rw [List.append_nil, Reader.poll, List.length_nil, Nat.sub_zero]
  | cons b xs ih =>
      rw [List.length_cons] at h
      have hlong : ¬missing ≤ 1 := by omega
      have hrest := ih (taken ++ [b]) (missing - 1) (by omega)
      rw [List.append_assoc, List.singleton_append, Nat.sub_sub, Nat.add_comm 1] at hrest
      rw [Reader.poll]
      simp only [frameReader, feedByte, if_neg hlong, List.length_cons]
      exact hrest

/-! ### Frames -/

/-- The lines of a frame's header, but for the empty one. -/
def FramedValue.lines (toVec : Json → List UInt8) (frame : FramedValue) : List (List UInt8) :=
  frame.before.map (· ++ [13]) ++ [asciiBytes (lengthLine (toVec frame.value).length) ++ [13]] ++
    frame.after.map (· ++ [13])

/-- A frame up to the empty line. -/
def FramedValue.header (toVec : Json → List UInt8) (frame : FramedValue) : List UInt8 :=
  frameHeader frame.before (toVec frame.value).length frame.after

variable (toVec : Json → List UInt8)

theorem encode_eq (frame : FramedValue) :
    frame.encode toVec = frame.header toVec ++ toVec frame.value :=
  frameBytes_eq frame.before (toVec frame.value) frame.after

theorem otherLines_eq (lines : List (List UInt8)) :
    otherLines lines = (lines.map (· ++ [13])).flatMap (· ++ [newline]) := by
  unfold otherLines
  rw [List.flatMap_map]
  refine congrArg (fun f => lines.flatMap f) (funext fun line => ?_)
  rw [List.append_assoc]
  rfl

/-- A header is its lines and the empty one. -/
theorem header_eq (frame : FramedValue) :
    frame.header toVec = (frame.lines toVec ++ [[13]]).flatMap (· ++ [newline]) := by
  unfold FramedValue.header frameHeader FramedValue.lines
  rw [otherLines_eq, otherLines_eq]
  simp [headerLine, asciiBytes, newline]

theorem passes_lines (frame : FramedValue) (h : frame.WellFormed fromSlice toVec) :
    ∀ line ∈ frame.lines toVec, newline ∉ line ∧ Passes fromSlice line := by
  have hother : ∀ line, IsOtherLine line →
      newline ∉ line ++ [13] ∧ Passes fromSlice (line ++ [13]) := by
    intro line hline
    refine ⟨fun hmem => ?_, fun contentLength => ⟨contentLength, ?_⟩⟩
    · rcases List.mem_append.mp hmem with hmem | hmem
      · exact hline.newline_not_mem hmem
      · exact absurd (List.mem_singleton.mp hmem) (by decide)
    · rw [List.append_assoc]
      exact endLine_otherLine fromSlice line contentLength hline
  intro line hmem
  unfold FramedValue.lines at hmem
  rcases List.mem_append.mp hmem with hmem | hmem
  · rcases List.mem_append.mp hmem with hmem | hmem
    · rcases List.mem_map.mp hmem with ⟨other, hother', rfl⟩
      exact hother other (h.before other hother')
    · rw [List.mem_singleton.mp hmem]
      refine ⟨newline_not_mem _ (isLineText_lengthLine _), fun contentLength =>
        ⟨some (toVec frame.value).length, ?_⟩⟩
      rw [List.append_assoc]
      exact endLine_length fromSlice _ contentLength h.length
  · rcases List.mem_map.mp hmem with ⟨other, hother', rfl⟩
    exact hother other (h.after other hother')

/-- A cut in the header: the reader is in one of the lines. -/
theorem poll_cut (frame : FramedValue) (h : frame.WellFormed fromSlice toVec)
    (before after : List (List UInt8)) (line a b : List UInt8)
    (hlines : frame.lines toVec ++ [[13]] = before ++ line :: after)
    (hpiece : a ++ b = line ++ [newline]) (hb : b ≠ []) :
    newline ∉ a ∧ ∃ contentLength, (frameReader fromSlice).poll (frameReader fromSlice).start
      (before.flatMap (· ++ [newline]) ++ a) = .pending (.header a contentLength) := by
  have hpasses := passes_lines fromSlice toVec frame h
  -- The lines before the cut are no empty ones.
  have hbefore : ∀ line' ∈ before, line' ∈ frame.lines toVec := by
    intro line' hmem
    rcases List.append_eq_append_iff.mp hlines with ⟨c, hc, hrest⟩ | ⟨c, hc, _⟩
    · cases c with
      | nil =>
          rw [List.append_nil] at hc
          rw [← hc]
          exact hmem
      | cons x c =>
          rw [List.cons_append, List.cons.injEq] at hrest
          exact absurd hrest.2.symm (by simp)
    · rw [hc]
      exact List.mem_append_left _ hmem
  have hline : newline ∉ line := by
    have hmem : line ∈ frame.lines toVec ++ [[13]] := by
      rw [hlines]
      simp
    rcases List.mem_append.mp hmem with hmem | hmem
    · exact (hpasses line hmem).1
    · rw [List.mem_singleton.mp hmem]
      decide
  have ha : newline ∉ a := by
    have hinitial : a <+: line := by
      rcases List.append_eq_append_iff.mp hpiece with ⟨c, hc, _⟩ | ⟨c, hc, hrest⟩
      · exact ⟨c, hc.symm⟩
      · cases c with
        | nil => exact ⟨[], by rw [hc, List.append_nil, List.append_nil]⟩
        | cons x c =>
            rw [List.cons_append, List.cons.injEq] at hrest
            have hempty := (List.append_eq_nil_iff.mp hrest.2.symm).2
            exact absurd hempty hb
    exact fun hmem => hline (hinitial.subset hmem)
  rcases poll_lines fromSlice before none fun line' hmem => hpasses line' (hbefore line' hmem) with
    ⟨contentLength, hpoll⟩
  refine ⟨ha, contentLength, ?_⟩
  rw [frameReader_start, Reader.poll_of_pending _ _ _ _ _ hpoll,
    poll_within_line fromSlice [] a contentLength ha, List.nil_append]

/-- Calls of `read_lsp_frame`, one for each piece of the input, and one that
    fails on the rest. -/
def FailsAfter (rest : List UInt8) : List (List UInt8 × Json) → Prop
  | [] => readLspFrame fromSlice rest = .failed
  | (piece, value) :: pieces =>
    readLspFrame fromSlice (piece ++ (pieces.flatMap Prod.fst ++ rest))
        = .message value (pieces.flatMap Prod.fst ++ rest) ∧
      FailsAfter rest pieces

/-- The cut is in the body, or what is there of the last line gives it away. -/
def FramedValue.Detected (frame : FramedValue) (taken : List UInt8) : Prop :=
  (frame.header toVec).length ≤ taken.length ∨ lineRejected (cutLine taken) = true

instance (frame : FramedValue) (taken : List UInt8) :
    Decidable (frame.Detected toVec taken) := inferInstanceAs (Decidable (_ ∨ _))

/-- What one call makes of a frame that is cut off. -/
theorem readLspFrame_cut (hempty : fromSlice [] = none) (frame : FramedValue)
    (h : frame.WellFormed fromSlice toVec) (taken left : List UInt8)
    (hcut : taken ++ left = frame.encode toVec) (hleft : left ≠ []) :
    readLspFrame fromSlice taken = .failed ↔ frame.Detected toVec taken := by
  rw [encode_eq, header_eq] at hcut
  cases cut_flatMap _ _ _ _ _ hcut with
  | within before line after a b hitems htaken hrest hpiece hb =>
      rcases poll_cut fromSlice toVec frame h before after line a b hitems hpiece hb with
        ⟨ha, contentLength, hpoll⟩
      have hline : cutLine taken = a := by
        rw [htaken]
        rcases List.eq_nil_or_concat before with hnil | ⟨before', last, hlast⟩
        · rw [hnil]
          exact cutLine_of_not_mem a ha
        · rw [hlast, List.concat_eq_append, List.flatMap_append, List.flatMap_singleton,
            ← List.append_assoc]
          exact cutLine_append _ a ha
      have hshort : ¬(frame.header toVec).length ≤ taken.length := by
        have hlength : 0 < b.length := List.length_pos_iff.mpr hb
        have hpiece' := congrArg List.length hpiece
        simp only [List.length_append] at hpiece'
        rw [header_eq, hitems, htaken]
        simp only [List.flatMap_append, List.flatMap_cons, List.length_append]
        omega
      rw [FramedValue.Detected, hline, or_iff_right hshort, readLspFrame, htaken, hpoll]
      simp only [frameReader, finishFrame_header fromSlice hempty a contentLength]
      by_cases hrejected : lineRejected a = true
      · simp only [hrejected, if_true]
      · simp only [hrejected, Bool.false_eq_true, if_false, reduceCtorEq]
  | behind more htaken htail =>
      have hlong : (frame.header toVec).length ≤ taken.length := by
        rw [htaken, ← header_eq, List.length_append]
        exact Nat.le_add_right _ _
      have hless : more.length < (toVec frame.value).length := by
        have hlength : 0 < left.length := List.length_pos_iff.mpr hleft
        rw [htail, List.length_append]
        omega
      have hheader := poll_frameHeader fromSlice frame.before (toVec frame.value).length frame.after
        h.before h.after h.length
      rw [if_neg (by omega : (toVec frame.value).length ≠ 0)] at hheader
      have hpoll : (frameReader fromSlice).poll (frameReader fromSlice).start taken =
          .pending (.body more ((toVec frame.value).length - more.length)) := by
        rw [htaken, ← header_eq, FramedValue.header, Reader.poll_of_pending _ _ _ _ _ hheader,
          poll_within_body fromSlice [] more _ hless, List.nil_append]
      refine iff_of_true ?_ (Or.inl hlong)
      rw [readLspFrame, hpoll]
      rfl

/-- The frames before the cut are read. -/
theorem failsAfter_iff (frames : List FramedValue) (rest : List UInt8)
    (h : ∀ frame ∈ frames, frame.WellFormed fromSlice toVec) :
    FailsAfter fromSlice rest (frames.map fun frame => (frame.encode toVec, frame.value)) ↔
      readLspFrame fromSlice rest = .failed := by
  induction frames with
  | nil => exact Iff.rfl
  | cons frame frames ih =>
      have hframe := h frame List.mem_cons_self
      have hread := readLspFrame_encoded fromSlice _
        ((frames.map fun frame => (frame.encode toVec, frame.value)).flatMap Prod.fst ++ rest)
        _ (encodes_frame fromSlice _ _ _ _ hframe.before hframe.after hframe.length hframe.decodes)
      exact (and_iff_right hread).trans
        (ih fun frame' hmem => h frame' (List.mem_cons_of_mem _ hmem))

/-- A stream of frames that ends within a further one is read up to that one,
    which is an error exactly when the cut is in its body or when what is there
    of a line of its header gives it away. Otherwise it is the end. -/
theorem truncated_iff (hempty : fromSlice [] = none) (frames : List FramedValue)
    (h : ∀ frame ∈ frames, frame.WellFormed fromSlice toVec) (frame : FramedValue)
    (hframe : frame.WellFormed fromSlice toVec) (taken left : List UInt8)
    (hcut : taken ++ left = frame.encode toVec) (hleft : left ≠ []) :
    FailsAfter fromSlice taken (frames.map fun frame => (frame.encode toVec, frame.value)) ↔
      frame.Detected toVec taken := by
  rw [failsAfter_iff fromSlice toVec frames taken h]
  exact readLspFrame_cut fromSlice toVec hempty frame hframe taken left hcut hleft

/-- A stream that ends in the body of its third frame. -/
theorem truncated_iff_twoFrames :
    FailsAfter readEmptyArray (asciiBytes "Content-Length: 2\r\n\r\n[".toList)
      (twoFrames.map fun frame => (frame.encode (fun _ => [91, 93]), frame.value)) :=
  (truncated_iff readEmptyArray (fun _ => [91, 93]) (by decide) twoFrames twoFrames_wellFormed
    ⟨[], .arr [], []⟩ ⟨by simp, by simp, by decide, by decide⟩ _ [93] (by decide)
    (by decide)).mpr (by decide)

/-- A header that is cut off is taken for the end of the stream. -/
theorem truncated_header :
    ¬∀ (frames : List FramedValue) (frame : FramedValue) (taken left : List UInt8),
      (∀ frame ∈ frames, frame.WellFormed readEmptyArray (fun _ => [91, 93])) →
      frame.WellFormed readEmptyArray (fun _ => [91, 93]) →
      taken ++ left = frame.encode (fun _ => [91, 93]) → taken ≠ [] → left ≠ [] →
      FailsAfter readEmptyArray taken
        (frames.map fun frame => (frame.encode (fun _ => [91, 93]), frame.value)) := by
  intro hall
  have hread := hall [] ⟨[], .arr [], []⟩ (asciiBytes "Content-Length: 2\r\n".toList)
    (asciiBytes "\r\n[]".toList) (by simp) ⟨by simp, by simp, by decide, by decide⟩ (by decide)
    (by decide) (by decide)
  have hends : readLspFrame readEmptyArray (asciiBytes "Content-Length: 2\r\n".toList)
      = .endOfInput := by decide
  exact absurd (hread.symm.trans hends) (by simp)

end Lspee
