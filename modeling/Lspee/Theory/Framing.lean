import Lspee.Core.Framing

/-!
# Reading Frames

What `read_lsp_frame` makes of frames. A header may have other lines beside the
length, before or after it; they are skipped. A frame is taken exactly, whatever
its body holds and whatever follows it, so that a sequence of frames is read as
the sequence of its values (`frames_roundTrip`).

A line that is skipped must have something else than carriage returns in it.
`read_lsp_frame` takes all of them off the end of a line, so that a line of
carriage returns is the end of the header to it (`carriageReturn_line`).

## Main definitions

* `IsLineText`, `IsOtherLine`: The lines of a header.
* `frameBytes`: A frame with its header lines.
* `FramedValue`, `ReadsAs`: Frames, and the calls that read them.

## Theorems

* `endLine_headerLine`, `endLine_otherLine`: What follows a line.
* `poll_line`, `poll_otherLines`, `poll_body`: Taking a line, a header, and a body.
* `poll_frameHeader`, `encodes_frame`: A frame is read as its payload.
* `frames_roundTrip`: A sequence of frames is read as its values.
-/

namespace Lspee

open Utf8

variable (fromSlice : List UInt8 → Option Json)

/-! ### Numbers -/

theorem isDigit_digits (n : Nat) (c : Char) (h : c ∈ Nat.toDigits 10 n) : c.isDigit = true :=
  Nat.isDigit_of_mem_toDigits (by decide) (by decide) h

theorem toNat_of_isDigit (c : Char) (h : c.isDigit = true) : 48 ≤ c.toNat ∧ c.toNat ≤ 57 := by
  simp only [Char.isDigit, Bool.and_eq_true, decide_eq_true_eq] at h
  exact h

theorem parseUsize_digits (n : Nat) (h : n < 2 ^ 64) :
    parseUsize (Nat.toDigits 10 n) = some n := by
  have hplus : (Nat.toDigits 10 n).head? ≠ some '+' := by
    intro hhead
    have hdigit := isDigit_digits n '+' (List.mem_of_mem_head? hhead)
    exact absurd hdigit (by decide)
  have hall : (Nat.toDigits 10 n).all Char.isDigit = true :=
    List.all_eq_true.mpr (fun c hc => isDigit_digits n c hc)
  unfold parseUsize
  simp only [if_neg hplus, hall, Nat.toDigits_ne_nil, ne_eq, not_false_eq_true, and_self, if_true,
    Nat.ofDigitChars_ten_toDigits, if_pos h]

/-- A text with a character that is neither a digit nor a sign is no number. -/
theorem parseUsize_none (text : List Char) (c : Char) (hdigit : c.isDigit = false)
    (hplus : c ≠ '+') (h : c ∈ text) : parseUsize text = none := by
  unfold parseUsize
  simp only
  have hmem : c ∈ (if text.head? = some '+' then text.tail else text) := by
    split
    · rename_i hhead
      cases text with
      | nil => exact absurd h (by simp)
      | cons d rest =>
          rw [List.head?_cons, Option.some.injEq] at hhead
          rcases List.mem_cons.mp h with heq | hrest
          · exact absurd (heq.trans hhead) hplus
          · exact hrest
    · exact h
  refine if_neg fun hall => ?_
  have hc := List.all_eq_true.mp hall.2 c hmem
  rw [hdigit] at hc
  exact absurd hc Bool.false_ne_true

/-! ### The lines of a header -/

/-- A text that fits on a header line: ASCII, without a line end. -/
def IsLineText (text : List Char) : Prop := ∀ c ∈ text, c.toNat < 128 ∧ isLineEnd c = false

def headerLine (text : List Char) : List UInt8 := asciiBytes text ++ [13, 10]

/-- The bytes of a header line that is not the length: UTF-8, without a newline,
    with something else than carriage returns. -/
structure IsOtherLine (line : List UInt8) : Prop where
  newline_not_mem : newline ∉ line
  text : ∃ text, decode line = some text ∧ (∃ c ∈ text, isLineEnd c = false) ∧
    ¬contentLengthHeader <+: text

theorem isLineText_lengthLine (n : Nat) : IsLineText (lengthLine n) := by
  intro c hc
  have hname : ∀ c ∈ contentLengthHeader ++ [' '], c.toNat < 128 ∧ isLineEnd c = false := by
    have hall : (contentLengthHeader ++ [' ']).all
        (fun c => decide (c.toNat < 128 ∧ isLineEnd c = false)) = true := by decide
    exact fun c hc => of_decide_eq_true (List.all_eq_true.mp hall c hc)
  unfold lengthLine at hc
  rcases List.mem_append.mp hc with hc | hc
  · exact hname c (List.mem_append_left _ hc)
  · rcases List.mem_cons.mp hc with heq | hdigit
    · exact hname c (List.mem_append_right _ (by rw [heq]; exact List.mem_singleton.mpr rfl))
    · have hrange := toNat_of_isDigit c (isDigit_digits n c hdigit)
      refine ⟨by omega, ?_⟩
      unfold isLineEnd
      have hr : c ≠ '\r' := fun heq => by rw [heq] at hrange; exact absurd hrange (by decide)
      have hn : c ≠ '\n' := fun heq => by rw [heq] at hrange; exact absurd hrange (by decide)
      simp [hr, hn]

theorem trim_digits (n : Nat) : trim (' ' :: Nat.toDigits 10 n) = Nat.toDigits 10 n := by
  have hspace : ∀ c ∈ Nat.toDigits 10 n, isWhitespace c = false := by
    intro c hc
    have hrange := toNat_of_isDigit c (isDigit_digits n c hc)
    unfold isWhitespace
    simp only [Bool.or_eq_false_iff, Bool.and_eq_false_iff, decide_eq_false_iff_not]
    omega
  unfold trim
  rw [List.dropWhile_cons, if_pos (by decide), dropWhile_of_none _ _ hspace,
    trimEnd_of_none _ _ hspace]

theorem headerLine_lt (text : List Char) (h : IsLineText text) :
    ∀ b ∈ headerLine text, b < 0x80 := by
  intro b hb
  unfold headerLine at hb
  rcases List.mem_append.mp hb with hb | hb
  · exact asciiBytes_lt text (fun c hc => (h c hc).1) b hb
  · rcases List.mem_pair.mp hb with heq | heq <;> rw [heq] <;> decide

theorem asciiChars_headerLine (text : List Char) (h : IsLineText text) :
    asciiChars (headerLine text) = text ++ ['\r', '\n'] := by
  have htext := asciiChars_asciiBytes text (fun c hc => (h c hc).1)
  unfold asciiChars at htext
  unfold headerLine asciiChars
  rw [List.map_append, htext]
  rfl

/-- Trimming takes the line end off, and no more. -/
theorem trimEnd_line (text : List Char) (h : IsLineText text) :
    trimEnd isLineEnd (text ++ ['\r', '\n']) = text := by
  rw [trimEnd_append_of_all isLineEnd text _ (by simp [isLineEnd]),
    trimEnd_of_none isLineEnd text (fun c hc => (h c hc).2)]

theorem newline_not_mem (text : List Char) (h : IsLineText text) :
    newline ∉ asciiBytes text ++ [13] := by
  intro hmem
  rcases List.mem_append.mp hmem with hmem | hmem
  · rcases List.mem_map.mp hmem with ⟨c, hc, heq⟩
    have hlt := (h c hc).1
    have hnat : c.toNat % 2 ^ 8 = 10 := by
      rw [← UInt8.toNat_ofNat', heq]
      rfl
    have hchar : c = '\n' := by
      rw [← Char.ofNat_toNat c, show c.toNat = 10 by omega]
    have hend := (h c hc).2
    rw [hchar] at hend
    exact absurd hend (by decide)
  · exact absurd (List.mem_singleton.mp hmem) (by decide)

/-! ### What follows a line -/

theorem endLine_headerLine (text : List Char) (contentLength : Option Nat)
    (h : IsLineText text) :
    endLine fromSlice (headerLine text) contentLength =
      if text = [] then
        match contentLength with
        | none => .failed
        | some 0 => decodeBody fromSlice []
        | some n => .more (.body [] n)
      else if contentLengthHeader <+: text then
        match parseUsize (trim (text.drop contentLengthHeader.length)) with
        | none => .failed
        | some n => .more (.header [] (some n))
      else .more (.header [] contentLength) := by
  unfold endLine
  rw [decode_ascii _ (headerLine_lt text h), asciiChars_headerLine text h]
  dsimp only
  have htrim := trimEnd_line text h
  generalize trimEnd isLineEnd (text ++ ['\r', '\n']) = trimmed at htrim ⊢
  subst htrim
  rfl

theorem endLine_length (n : Nat) (contentLength : Option Nat) (h : n < 2 ^ 64) :
    endLine fromSlice (headerLine (lengthLine n)) contentLength
      = .more (.header [] (some n)) := by
  have hpre : contentLengthHeader <+: lengthLine n := List.prefix_append _ _
  have hvalue : (lengthLine n).drop contentLengthHeader.length = ' ' :: Nat.toDigits 10 n :=
    List.drop_left
  rw [endLine_headerLine fromSlice _ _ (isLineText_lengthLine n), if_neg (by simp [lengthLine]),
    if_pos hpre, hvalue, trim_digits, parseUsize_digits n h]

theorem endLine_other (text : List Char) (contentLength : Option Nat) (h : IsLineText text)
    (hne : text ≠ []) (hname : ¬contentLengthHeader <+: text) :
    endLine fromSlice (headerLine text) contentLength = .more (.header [] contentLength) := by
  rw [endLine_headerLine fromSlice text _ h, if_neg hne, if_neg hname]

theorem endLine_otherLine (line : List UInt8) (contentLength : Option Nat)
    (h : IsOtherLine line) :
    endLine fromSlice (line ++ [13, 10]) contentLength = .more (.header [] contentLength) := by
  rcases h.text with ⟨text, htext, ⟨c, hc, hend⟩, hname⟩
  have hdecode : decode (line ++ [13, 10]) = some (text ++ ['\r', '\n']) := by
    rw [decode_append line [13, 10] text htext]
    rfl
  have htrim : trimEnd isLineEnd (text ++ ['\r', '\n']) = trimEnd isLineEnd text :=
    trimEnd_append_of_all isLineEnd text _ (by simp [isLineEnd])
  have hne : trimEnd isLineEnd text ≠ [] := by
    have hmem := mem_trimEnd isLineEnd text c hend hc
    intro heq
    rw [heq] at hmem
    exact absurd hmem (by simp)
  have hname' : ¬contentLengthHeader <+: trimEnd isLineEnd text :=
    fun hpre => hname (hpre.trans (trimEnd_initial isLineEnd text))
  unfold endLine
  simp only [hdecode, htrim]
  rw [if_neg hne, if_neg hname']

/-! ### Taking a line, a header, and a body -/

theorem frameReader_start : (frameReader fromSlice).start = .header [] none := rfl

theorem poll_within_line (line xs : List UInt8) (contentLength : Option Nat)
    (h : newline ∉ xs) :
    (frameReader fromSlice).poll (.header line contentLength) xs
      = .pending (.header (line ++ xs) contentLength) := by
  induction xs generalizing line with
  | nil => rw [List.append_nil, Reader.poll]
  | cons b xs ih =>
      have hb : b ≠ newline := fun heq => h (heq ▸ List.mem_cons_self)
      have hrest := ih (line ++ [b]) (fun hmem => h (List.mem_cons_of_mem _ hmem))
      rw [List.append_assoc, List.singleton_append] at hrest
      rw [Reader.poll]
      simp only [frameReader, feedByte, if_neg hb]
      exact hrest

theorem poll_line (line xs : List UInt8) (contentLength : Option Nat) (h : newline ∉ xs) :
    (frameReader fromSlice).poll (.header line contentLength) (xs ++ [newline])
      = match endLine fromSlice (line ++ (xs ++ [newline])) contentLength with
        | .more s => .pending s
        | .done v => .ready v []
        | .failed => .failed := by
  rw [Reader.poll_of_pending _ _ _ _ _ (poll_within_line fromSlice line xs contentLength h),
    Reader.poll, ← List.append_assoc]
  simp only [frameReader, feedByte, if_true]
  cases endLine fromSlice (line ++ xs ++ [newline]) contentLength <;> rfl

theorem poll_headerLine (text : List Char) (contentLength : Option Nat) (h : IsLineText text) :
    (frameReader fromSlice).poll (.header [] contentLength) (headerLine text)
      = match endLine fromSlice (headerLine text) contentLength with
        | .more s => .pending s
        | .done v => .ready v []
        | .failed => .failed := by
  have hline := poll_line fromSlice [] (asciiBytes text ++ [13]) contentLength
    (newline_not_mem text h)
  rw [List.nil_append, List.append_assoc] at hline
  exact hline

/-- The lines of a header that are not the length. -/
def otherLines (lines : List (List UInt8)) : List UInt8 := lines.flatMap (· ++ [13, 10])

theorem poll_otherLines (lines : List (List UInt8)) (contentLength : Option Nat)
    (h : ∀ line ∈ lines, IsOtherLine line) :
    (frameReader fromSlice).poll (.header [] contentLength) (otherLines lines)
      = .pending (.header [] contentLength) := by
  unfold otherLines
  induction lines with
  | nil => rfl
  | cons line lines ih =>
      have hline := h line List.mem_cons_self
      have hnot : newline ∉ line ++ [13] := by
        intro hmem
        rcases List.mem_append.mp hmem with hmem | hmem
        · exact hline.newline_not_mem hmem
        · exact absurd (List.mem_singleton.mp hmem) (by decide)
      have hfirst := poll_line fromSlice [] (line ++ [13]) contentLength hnot
      have hend : line ++ [13] ++ [newline] = line ++ [13, 10] := by
        rw [List.append_assoc]
        rfl
      rw [hend, List.nil_append, endLine_otherLine fromSlice line contentLength hline] at hfirst
      rw [List.flatMap_cons, Reader.poll_of_pending _ _ _ _ _ hfirst]
      exact ih (fun line' hmem => h line' (List.mem_cons_of_mem _ hmem))

/-- A body is taken when all of it has arrived. -/
theorem poll_body (taken xs : List UInt8) (payload : Json) (hne : xs ≠ [])
    (hpayload : fromSlice (taken ++ xs) = some payload) :
    (frameReader fromSlice).poll (.body taken xs.length) xs = .ready payload [] := by
  induction xs generalizing taken with
  | nil => exact absurd rfl hne
  | cons b xs ih =>
      rw [Reader.poll]
      simp only [frameReader, feedByte, List.length_cons]
      cases xs with
      | nil =>
          simp only [List.length_nil, Nat.zero_add, Nat.le_refl, if_true, decodeBody, hpayload]
      | cons b' xs =>
          have hlong : ¬(b' :: xs).length + 1 ≤ 1 := by
            rw [List.length_cons]
            omega
          simp only [if_neg hlong, Nat.add_sub_cancel]
          exact ih (taken ++ [b]) (by simp) (by rw [List.append_assoc]; exact hpayload)

/-! ### Frames -/

/-- A frame with other lines before and after the length. -/
def frameBytes (before : List (List UInt8)) (body : List UInt8) (after : List (List UInt8)) :
    List UInt8 :=
  otherLines before ++ (headerLine (lengthLine body.length) ++
    (otherLines after ++ (headerLine [] ++ body)))

/-- Without other lines, this is the frame `encode_lsp_frame` makes. -/
theorem frameBytes_plain (body : List UInt8) : frameBytes [] body [] = encodeLspFrame body := by
  unfold frameBytes encodeLspFrame headerLine otherLines
  simp [asciiBytes]

/-- A header with other lines before and after the length. -/
def frameHeader (before : List (List UInt8)) (n : Nat) (after : List (List UInt8)) : List UInt8 :=
  otherLines before ++ (headerLine (lengthLine n) ++ (otherLines after ++ headerLine []))

theorem frameBytes_eq (before : List (List UInt8)) (body : List UInt8)
    (after : List (List UInt8)) :
    frameBytes before body after = frameHeader before body.length after ++ body := by
  simp only [frameBytes, frameHeader, List.append_assoc]

/-- A header leads to what follows its empty line. -/
theorem poll_frameHeader (before : List (List UInt8)) (n : Nat) (after : List (List UInt8))
    (hbefore : ∀ line ∈ before, IsOtherLine line) (hafter : ∀ line ∈ after, IsOtherLine line)
    (hn : n < 2 ^ 64) :
    (frameReader fromSlice).poll (frameReader fromSlice).start (frameHeader before n after)
      = if n = 0 then
          match fromSlice [] with
          | some payload => .ready payload []
          | none => .failed
        else .pending (.body [] n) := by
  have hline := poll_headerLine fromSlice (lengthLine n) none (isLineText_lengthLine _)
  rw [endLine_length fromSlice _ _ hn] at hline
  unfold frameHeader
  rw [frameReader_start,
    Reader.poll_of_pending _ _ _ _ _ (poll_otherLines fromSlice before _ hbefore),
    Reader.poll_of_pending _ _ _ _ _ hline,
    Reader.poll_of_pending _ _ _ _ _ (poll_otherLines fromSlice after _ hafter),
    poll_headerLine fromSlice [] _ (by simp [IsLineText]),
    endLine_headerLine fromSlice [] _ (by simp [IsLineText]), if_pos rfl]
  cases n with
  | zero =>
      simp only [decodeBody]
      cases fromSlice [] <;> rfl
  | succ n => rfl

/-- A frame is read as its payload. -/
theorem encodes_frame (before : List (List UInt8)) (body : List UInt8)
    (after : List (List UInt8)) (payload : Json) (hbefore : ∀ line ∈ before, IsOtherLine line)
    (hafter : ∀ line ∈ after, IsOtherLine line) (hlength : body.length < 2 ^ 64)
    (hpayload : fromSlice body = some payload) :
    (frameReader fromSlice).Encodes (frameBytes before body after) payload := by
  have hheader := poll_frameHeader fromSlice before body.length after hbefore hafter hlength
  unfold Reader.Encodes
  rw [frameBytes_eq, Reader.poll_append, hheader]
  by_cases hbody : body = []
  · have hempty : fromSlice [] = some payload := by rw [← hbody, hpayload]
    simp only [hbody, List.length_nil, if_true, hempty, List.append_nil]
  · have hne : body.length ≠ 0 := fun hzero => hbody (List.length_eq_zero_iff.mp hzero)
    rw [if_neg hne]
    exact poll_body fromSlice [] body payload hbody hpayload

/-- A value with the other lines its header has. -/
structure FramedValue where
  before : List (List UInt8)
  value : Json
  after : List (List UInt8)

variable (toVec : Json → List UInt8)

def FramedValue.encode (frame : FramedValue) : List UInt8 :=
  frameBytes frame.before (toVec frame.value) frame.after

/-- The other lines are lines, and the encoding of the value is what it is decoded
    from. -/
structure FramedValue.WellFormed (frame : FramedValue) : Prop where
  before : ∀ line ∈ frame.before, IsOtherLine line
  after : ∀ line ∈ frame.after, IsOtherLine line
  length : (toVec frame.value).length < 2 ^ 64
  decodes : fromSlice (toVec frame.value) = some frame.value

/-- Calls of `read_lsp_frame`, one for each piece of the input and one at its end:
    each takes its own piece and gives its value, and the last gives nothing. -/
def ReadsAs : List (List UInt8 × Json) → Prop
  | [] => readLspFrame fromSlice [] = .endOfInput
  | (piece, value) :: pieces =>
    readLspFrame fromSlice (piece ++ pieces.flatMap Prod.fst)
        = .message value (pieces.flatMap Prod.fst) ∧
      ReadsAs pieces

theorem readLspFrame_encoded (piece rest : List UInt8) (value : Json)
    (h : (frameReader fromSlice).Encodes piece value) :
    readLspFrame fromSlice (piece ++ rest) = .message value rest := by
  unfold Reader.Encodes at h
  unfold readLspFrame
  rw [Reader.poll_append, h]
  rfl

theorem readsAs_frames (frames : List FramedValue)
    (h : ∀ frame ∈ frames, frame.WellFormed fromSlice toVec) :
    ReadsAs fromSlice (frames.map (fun frame => (frame.encode toVec, frame.value))) := by
  induction frames with
  | nil => rfl
  | cons frame frames ih =>
      have hframe := h frame List.mem_cons_self
      exact ⟨readLspFrame_encoded fromSlice _ _ _ (encodes_frame fromSlice _ _ _ _ hframe.before
        hframe.after hframe.length hframe.decodes),
        ih (fun frame' hmem => h frame' (List.mem_cons_of_mem _ hmem))⟩

/-- Reading a sequence of frames gives their values in order, each call taking
    exactly the bytes of its own frame, and then the end of the input. A frame without
    other lines is what `encode_lsp_frame` makes of the value. -/
theorem frames_roundTrip (frames : List FramedValue)
    (h : ∀ frame ∈ frames, frame.WellFormed fromSlice toVec) :
    ReadsAs fromSlice (frames.map (fun frame => (frame.encode toVec, frame.value))) ∧
      ∀ value, FramedValue.encode toVec ⟨[], value, []⟩ = encodeLspFrame (toVec value) :=
  ⟨readsAs_frames fromSlice toVec frames h, fun value => frameBytes_plain (toVec value)⟩

/-! ### Examples -/

/-- A decoder that knows one text, an array without items. -/
def readEmptyArray (body : List UInt8) : Option Json :=
  if body = [91, 93] then some (.arr []) else none

/-- Two frames, the second one with a type. -/
def twoFrames : List FramedValue :=
  [⟨[], .arr [], []⟩, ⟨[asciiBytes "Content-Type: text".toList], .arr [], []⟩]

theorem twoFrames_wellFormed :
    ∀ frame ∈ twoFrames, frame.WellFormed readEmptyArray (fun _ => [91, 93]) := by
  intro frame hmem
  have hline : IsOtherLine (asciiBytes "Content-Type: text".toList) :=
    ⟨by decide, "Content-Type: text".toList, by decide, ⟨'C', by decide, by decide⟩, by decide⟩
  rcases List.mem_pair.mp hmem with rfl | rfl
  · exact ⟨by simp, by simp, by decide, by decide⟩
  · refine ⟨fun line hline' => ?_, by simp, by decide, by decide⟩
    rw [List.mem_singleton.mp hline']
    exact hline

theorem frames_roundTrip_twoFrames :
    ReadsAs readEmptyArray (twoFrames.map (fun frame => (frame.encode (fun _ => [91, 93]),
      frame.value))) :=
  (frames_roundTrip readEmptyArray (fun _ => [91, 93]) twoFrames twoFrames_wellFormed).1

/-- A line is not skipped for not being empty: one of carriage returns ends the
    header. -/
theorem carriageReturn_line :
    ¬ ∀ frames : List FramedValue,
      (∀ frame ∈ frames, readEmptyArray [91, 93] = some frame.value ∧
        ∀ line ∈ frame.before ++ frame.after, line ≠ [] ∧ newline ∉ line ∧
          ∃ text, decode line = some text ∧ ¬contentLengthHeader <+: text) →
      ReadsAs readEmptyArray (frames.map (fun frame =>
        (frame.encode (fun _ => [91, 93]), frame.value))) := by
  intro hall
  have hread := hall [⟨[[13]], .arr [], []⟩] (by
    intro frame hmem
    rw [List.mem_singleton.mp hmem]
    refine ⟨by decide, fun line hline => ?_⟩
    rw [List.mem_singleton.mp hline]
    exact ⟨by decide, by decide, ['\r'], by decide, by decide⟩)
  have hfails : readLspFrame readEmptyArray
      (FramedValue.encode (fun _ => [91, 93]) ⟨[[13]], .arr [], []⟩ ++ []) = .failed := by
    decide
  exact absurd (hread.1.symm.trans hfails) (by simp)

end Lspee
