import Lspee.Theory.Framing

/-!
# What Is Left of a Frame

What a reader makes of a frame whose first bytes it has not seen, with other
frames behind it.

It depends on the bytes. If they end in a field before the length, what is left
is a frame with a shorter header. Everywhere else a message is lost
(`cut_message`): the reader comes to the empty line without having seen a length,
or takes what is left of the body for header lines, and the length line of the
next frame with it.

For the body this rests on what a JSON text cannot have: a `C` stands in a
string, and the string is closed on the same line.

## Main definitions

* `IsField`: The text of a header field.
* `EditorMessage`: A message with its frame.
* `ClosesStrings`: What is assumed of the JSON decoder.
* `Lost`: What is left of a frame holds no message.

## Theorems

* `endLine_closed`: What follows a line that may be a line of a body.
* `encodes_message`: A frame is read as its message.
* `readAll_headless`: A header without its length.
* `readAll_tail`: What is left of a body.
* `cut_message`: What is left of a frame.
-/

namespace Lspee

open Utf8

variable (fromSlice : List UInt8 → Option Json)

/-! ### Fields -/

/-- The text of a field that is not the length. -/
structure IsField (text : List Char) : Prop where
  ne_nil : text ≠ []
  line : IsLineText text
  noLength : ¬contentLengthHeader <:+: text

theorem IsLineText.of_append (front back : List Char) (h : IsLineText (front ++ back)) :
    IsLineText back :=
  fun c hc => h c (List.mem_append_right _ hc)

theorem IsField.not_contentLength (front back : List Char) (h : IsField (front ++ back)) :
    ¬contentLengthHeader <+: back :=
  fun hpre => h.noLength (hpre.isInfix.trans (List.suffix_append front back).isInfix)

/-- What is left of a field, if anything is, is a field. -/
theorem IsField.of_append (front back : List Char) (h : IsField (front ++ back))
    (hne : back ≠ []) : IsField back where
  ne_nil := hne
  line := IsLineText.of_append front back h.line
  noLength := fun hinf => h.noLength (hinf.trans (List.suffix_append front back).isInfix)

theorem IsField.otherLine (text : List Char) (h : IsField text) :
    IsOtherLine (asciiBytes text) where
  newline_not_mem := fun hmem => newline_not_mem text h.line (List.mem_append_left _ hmem)
  text := by
    refine ⟨text, ?_, ?_, h.not_contentLength [] text⟩
    · rw [decode_ascii _ (asciiBytes_lt text (fun c hc => (h.line c hc).1)),
        asciiChars_asciiBytes text (fun c hc => (h.line c hc).1)]
    · cases text with
      | nil => exact absurd rfl h.ne_nil
      | cons c text => exact ⟨c, List.mem_cons_self, (h.line c List.mem_cons_self).2⟩

/-- The lines of fields. -/
theorem otherLines_fields (texts : List (List Char)) :
    otherLines (texts.map asciiBytes) = texts.flatMap headerLine := by
  unfold otherLines
  rw [List.flatMap_map]
  rfl

theorem otherLines_of_fields (texts : List (List Char)) (h : ∀ text ∈ texts, IsField text) :
    ∀ line ∈ texts.map asciiBytes, IsOtherLine line := by
  intro line hline
  rcases List.mem_map.mp hline with ⟨text, htext, rfl⟩
  exact IsField.otherLine text (h text htext)

theorem poll_fields (texts : List (List Char)) (contentLength : Option Nat)
    (h : ∀ text ∈ texts, IsField text) :
    (frameReader fromSlice).poll (.header [] contentLength) (texts.flatMap headerLine)
      = .pending (.header [] contentLength) := by
  rw [← otherLines_fields]
  exact poll_otherLines fromSlice _ contentLength (otherLines_of_fields texts h)

/-! ### The length line -/

/-- Only the first character of a length line is a `C`. -/
theorem not_mem_tail_lengthLine (n : Nat) : 'C' ∉ (lengthLine n).tail := by
  have hname : (lengthLine n).tail = contentLengthHeader.tail ++ ' ' :: Nat.toDigits 10 n := rfl
  rw [hname]
  intro h
  rcases List.mem_append.mp h with hname | hrest
  · exact absurd hname (by decide)
  · rcases List.mem_cons.mp hrest with heq | hdigit
    · exact absurd heq (by decide)
    · exact absurd (isDigit_digits n 'C' hdigit) (by decide)

theorem head_of_contentLength (text : List Char) (h : contentLengthHeader <+: text) :
    text.head? = some 'C' := by
  rcases h with ⟨rest, rfl⟩
  rfl

/-- What is left of a length line that has lost its first characters is not
    taken for one. -/
theorem not_contentLength_of_lengthLine (n : Nat) (front back : List Char) (hne : front ≠ [])
    (h : lengthLine n = front ++ back) : ¬contentLengthHeader <+: back := by
  intro hpre
  have hmem : 'C' ∈ back := List.mem_of_mem_head? (head_of_contentLength back hpre)
  refine not_mem_tail_lengthLine n ?_
  cases front with
  | nil => exact absurd rfl hne
  | cons c front =>
      rw [h, List.cons_append, List.tail_cons]
      exact List.mem_append_right _ hmem

/-! ### Lines that give no length -/

/-- Without a length, a line leads to the next line or to a failure. -/
theorem endLine_none (line : List UInt8) :
    endLine fromSlice line none = .failed ∨
      ∃ contentLength, endLine fromSlice line none = .more (.header [] contentLength) := by
  unfold endLine
  cases decode line with
  | none => exact Or.inl rfl
  | some text =>
      simp only
      by_cases hblank : trimEnd isLineEnd text = []
      · exact Or.inl (if_pos hblank)
      · rw [if_neg hblank]
        by_cases hname : contentLengthHeader <+: trimEnd isLineEnd text
        · rw [if_pos hname]
          cases parseUsize (trim ((trimEnd isLineEnd text).drop contentLengthHeader.length)) with
          | none => exact Or.inl rfl
          | some n => exact Or.inr ⟨some n, rfl⟩
        · exact Or.inr ⟨none, if_neg hname⟩

/-- A line that has a quote if it begins with a `C` does not give a length. -/
theorem endLine_closed (line : List UInt8) (text : List Char) (htext : decode line = some text)
    (hclosed : text.head? = some 'C' → '"' ∈ text) :
    endLine fromSlice line none = .failed ∨
      endLine fromSlice line none = .more (.header [] none) := by
  unfold endLine
  rw [htext]
  simp only
  by_cases hblank : trimEnd isLineEnd text = []
  · exact Or.inl (if_pos hblank)
  · rw [if_neg hblank]
    by_cases hname : contentLengthHeader <+: trimEnd isLineEnd text
    · -- the quote is part of the value, which is no number then
      have hquote : '"' ∈ trimEnd isLineEnd text :=
        mem_trimEnd isLineEnd text '"' (by decide)
          (hclosed (head_of_contentLength text (hname.trans (trimEnd_initial isLineEnd text))))
      have hvalue : '"' ∈ (trimEnd isLineEnd text).drop contentLengthHeader.length := by
        rcases hname with ⟨value, heq⟩
        rw [← heq] at hquote ⊢
        rw [List.drop_left]
        rcases List.mem_append.mp hquote with habsurd | hvalue
        · exact absurd habsurd (by decide)
        · exact hvalue
      have hparse := parseUsize_none _ '"' (by decide) (by decide)
        (mem_trim _ '"' (by decide) hvalue)
      rw [if_pos hname, hparse]
      exact Or.inl rfl
    · exact Or.inr (if_neg hname)

/-! ### Messages -/

/-- A message as an editor frames it: with fields before and after the length. -/
structure EditorMessage where
  before : List (List Char)
  after : List (List Char)
  body : List UInt8
  payload : Json

namespace EditorMessage

/-- The frame. -/
def encode (m : EditorMessage) : List UInt8 :=
  m.before.flatMap headerLine ++ ((lengthLine m.body.length :: m.after).flatMap headerLine ++
    (headerLine [] ++ m.body))

/-- The fields are none of them the length, and the body is the JSON text of the
    message. -/
structure WellFormed (m : EditorMessage) : Prop where
  before : ∀ text ∈ m.before, IsField text
  after : ∀ text ∈ m.after, IsField text
  length : m.body.length < 2 ^ 64
  payload : fromSlice m.body = some m.payload

theorem encode_eq (m : EditorMessage) : m.encode =
    frameBytes (m.before.map asciiBytes) m.body (m.after.map asciiBytes) := by
  simp only [encode, frameBytes, otherLines_fields, List.flatMap_cons, List.append_assoc]

end EditorMessage

/-- A frame is read as its message. -/
theorem encodes_message (m : EditorMessage) (h : m.WellFormed fromSlice) :
    (frameReader fromSlice).Encodes m.encode m.payload := by
  rw [EditorMessage.encode_eq]
  exact encodes_frame fromSlice _ _ _ _ (otherLines_of_fields m.before h.before)
    (otherLines_of_fields m.after h.after) h.length h.payload

theorem readAll_messages (messages : List EditorMessage)
    (h : ∀ m ∈ messages, m.WellFormed fromSlice) :
    (frameReader fromSlice).readAll (frameReader fromSlice).start
        (messages.flatMap EditorMessage.encode)
      = some (messages.map EditorMessage.payload) :=
  Reader.readAll_encoded _ _ _ messages (fun m hm => encodes_message fromSlice m (h m hm)) rfl

/-! ### What is left of a header -/

theorem readAll_blank (rest : List UInt8) :
    (frameReader fromSlice).readAll (.header [] none) (newline :: rest) = none := by
  have htext : decode [newline] = some ['\n'] := by decide
  have htrim : trimEnd isLineEnd ['\n'] = [] := by decide
  rw [Reader.readAll]
  simp only [frameReader, feedByte, if_true, List.nil_append, endLine, htext, htrim]

/-- A header without a length ends at its empty line. -/
theorem readAll_headless (texts : List (List Char)) (rest : List UInt8)
    (h : ∀ text ∈ texts, IsLineText text ∧ ¬contentLengthHeader <+: text) :
    (frameReader fromSlice).readAll (.header [] none)
      (texts.flatMap headerLine ++ (headerLine [] ++ rest)) = none := by
  -- An empty line is the end, wherever it comes.
  have hblank : ∀ xs, (frameReader fromSlice).readAll (.header [] none)
      (headerLine [] ++ xs) = none := by
    intro xs
    refine Reader.readAll_of_failed _ _ _ _ ?_
    rw [poll_headerLine fromSlice [] none (by simp [IsLineText]),
      endLine_headerLine fromSlice [] none (by simp [IsLineText]), if_pos rfl]
  induction texts with
  | nil => exact hblank rest
  | cons text texts ih =>
      rcases h text List.mem_cons_self with ⟨hline, hname⟩
      rw [List.flatMap_cons, List.append_assoc]
      by_cases hne : text = []
      · rw [hne]
        exact hblank _
      · have hfirst := poll_headerLine fromSlice text none hline
        rw [endLine_other fromSlice text none hline hne hname] at hfirst
        rw [Reader.readAll_of_pending _ _ _ _ _ hfirst]
        exact ih (fun text' hmem => h text' (List.mem_cons_of_mem _ hmem))

/-- A cut through a header line is a cut through its text, or between the two
    bytes of its end. -/
theorem cut_headerLine (text : List Char) (a b : List UInt8) (h : a ++ b = headerLine text)
    (hb : b ≠ []) :
    (∃ front back, text = front ++ back ∧ a = asciiBytes front ∧ b = headerLine back) ∨
      b = [newline] := by
  unfold headerLine at h
  rcases List.append_eq_append_iff.mp h with ⟨left, htext, hleft⟩ | ⟨more, htaken, hover⟩
  · left
    unfold asciiBytes at htext
    rcases List.map_eq_append_iff.mp htext with ⟨front, back, hcut, hfront, hback⟩
    refine ⟨front, back, hcut, hfront.symm, ?_⟩
    rw [hleft, headerLine, asciiBytes, hback]
  · rcases List.cons_eq_append_iff.mp hover with ⟨hnil, hall⟩ | ⟨more', hover', hrest⟩
    · left
      refine ⟨text, [], (List.append_nil text).symm, ?_, hall⟩
      rw [htaken, hnil, List.append_nil]
    · right
      rcases List.append_eq_singleton_iff.mp hrest.symm with ⟨_, hb'⟩ | ⟨_, hb'⟩
      · exact hb'
      · exact absurd hb' hb

/-! ### What is left of a body -/

/-- What a JSON decoder that accepts a text rests on: a `C` stands in a string,
    and strings are closed on their line. What is left of a line and begins with
    a `C` has a quote. -/
def ClosesStrings : Prop :=
  ∀ body payload, fromSlice body = some payload →
    ∀ front line back text, body = front ++ line ++ back →
      (back = [] ∨ ∃ rest, back = newline :: rest) → decode line = some text →
      text.head? = some 'C' → '"' ∈ text

/-- A line of the body, or its last line with the header line behind it, gives
    no length. -/
theorem endLine_tail (line ascii : List UInt8) (hne : line ≠ [])
    (hascii : ∀ b ∈ ascii, b < 0x80)
    (hclosed : ∀ text, decode line = some text → text.head? = some 'C' → '"' ∈ text) :
    endLine fromSlice (line ++ ascii) none = .failed ∨
      endLine fromSlice (line ++ ascii) none = .more (.header [] none) := by
  cases htext : decode (line ++ ascii) with
  | none =>
      left
      unfold endLine
      rw [htext]
  | some text =>
      rcases decode_append_ascii line ascii text hascii htext with ⟨front, hfront, hcut⟩
      refine endLine_closed fromSlice _ text htext fun hhead => ?_
      rw [hcut] at hhead ⊢
      refine List.mem_append_left _ (hclosed front hfront ?_)
      cases front with
      | nil => exact absurd (decodeFrom_eq_nil .start line hfront).2 hne
      | cons c front => exact hhead

/-- Behind the fields before the length, what is left of a frame has no length
    if its first line does not give it. -/
theorem readAll_tail_header (m : EditorMessage) (rest : List UInt8)
    (h : m.WellFormed fromSlice) :
    (frameReader fromSlice).readAll (.header [] none)
      (m.after.flatMap headerLine ++ (headerLine [] ++ rest)) = none :=
  readAll_headless fromSlice m.after rest
    (fun text hmem => ⟨(h.after text hmem).line, (h.after text hmem).not_contentLength [] text⟩)

/-- A header line that is taken for the end of the line before it is lost. -/
theorem readAll_merged (line : List UInt8) (text : List Char) (hne : line ≠ [])
    (htext : IsLineText text)
    (hclosed : ∀ text', decode line = some text' → text'.head? = some 'C' → '"' ∈ text')
    (rest : List UInt8) (values : List Json)
    (h : (frameReader fromSlice).readAll (.header line none) (headerLine text ++ rest)
      = some values) :
    (frameReader fromSlice).readAll (.header [] none) rest = some values := by
  have hsplit : headerLine text = asciiBytes text ++ [13] ++ [newline] := by
    rw [headerLine, List.append_assoc]
    rfl
  have hpoll := poll_line fromSlice line (asciiBytes text ++ [13]) none (newline_not_mem text htext)
  rw [← hsplit] at hpoll
  rcases endLine_tail fromSlice line (headerLine text) hne (headerLine_lt text htext) hclosed with
    hend | hend
  · rw [hend] at hpoll
    rw [Reader.readAll_of_failed _ _ _ _ hpoll] at h
    exact absurd h (by simp)
  · rw [hend] at hpoll
    rw [Reader.readAll_of_pending _ _ _ _ _ hpoll] at h
    exact h

/-- The end of a body that is taken for the beginning of a header line. -/
theorem readAll_last_line (line : List UInt8) (hne : line ≠ []) (hnot : newline ∉ line)
    (hclosed : ∀ text, decode line = some text → text.head? = some 'C' → '"' ∈ text)
    (messages : List EditorMessage) (hmessages : ∀ m ∈ messages, m.WellFormed fromSlice)
    (values : List Json)
    (h : (frameReader fromSlice).readAll (.header [] none)
      (line ++ messages.flatMap EditorMessage.encode) = some values) :
    values.length ≤ messages.length := by
  have hline := poll_within_line fromSlice [] line none hnot
  rw [List.nil_append] at hline
  rw [Reader.readAll_of_pending _ _ _ _ _ hline] at h
  cases messages with
  | nil =>
      -- The input ends in a header line.
      rw [List.flatMap_nil, Reader.readAll] at h
      cases line with
      | nil => exact absurd rfl hne
      | cons b line =>
          simp only [frameReader, finishFrame] at h
          rcases endLine_none fromSlice (b :: line) with hend | ⟨contentLength, hend⟩
          · rw [hend] at h
            exact absurd h (by simp)
          · rw [hend, Option.some.injEq] at h
            rw [← h]
            exact Nat.zero_le _
  | cons m messages =>
      have hm := hmessages m List.mem_cons_self
      rw [List.flatMap_cons, EditorMessage.encode] at h
      simp only [List.append_assoc] at h
      cases hbefore : m.before with
      | nil =>
          rw [hbefore, List.flatMap_nil, List.nil_append, List.flatMap_cons,
            List.append_assoc] at h
          have hrest := readAll_merged fromSlice line _ hne (isLineText_lengthLine _) hclosed _ _ h
          rw [readAll_tail_header fromSlice m _ hm] at hrest
          exact absurd hrest (by simp)
      | cons text before =>
          have hfields : ∀ text' ∈ text :: before, IsField text' := by
            rw [← hbefore]
            exact hm.before
          rw [hbefore, List.flatMap_cons, List.append_assoc] at h
          have hrest := readAll_merged fromSlice line text hne
            (hfields text List.mem_cons_self).line hclosed _ _ h
          -- Without that field it is still the frame of its message.
          have hall := readAll_messages fromSlice ({ m with before := before } :: messages) ?_
          · rw [List.flatMap_cons, EditorMessage.encode] at hall
            simp only [List.append_assoc] at hall
            rw [frameReader_start, hrest, Option.some.injEq] at hall
            rw [hall, List.length_map]
            rfl
          · intro m' hmem
            rcases List.mem_cons.mp hmem with heq | hmem
            · rw [heq]
              exact ⟨fun text' hmem' => hfields text' (List.mem_cons_of_mem _ hmem'),
                hm.after, hm.length, hm.payload⟩
            · exact hmessages m' (List.mem_cons_of_mem _ hmem)

/-- What is left of a body, with the frames behind it, holds no more messages
    than these frames do. -/
theorem readAll_tail (hjson : ClosesStrings fromSlice) (body : List UInt8) (payload : Json)
    (hpayload : fromSlice body = some payload) (messages : List EditorMessage)
    (hmessages : ∀ m ∈ messages, m.WellFormed fromSlice) (front left : List UInt8)
    (hbody : body = front ++ left) (values : List Json)
    (h : (frameReader fromSlice).readAll (.header [] none)
      (left ++ messages.flatMap EditorMessage.encode) = some values) :
    values.length ≤ messages.length := by
  induction hn : left.length using Nat.strong_induction_on generalizing front left with
  | _ n ih =>
    by_cases hline : newline ∈ left
    · rcases List.eq_append_cons_of_mem hline with ⟨line, back, hleft, hnot⟩
      by_cases hne : line = []
      · rw [hleft, hne, List.nil_append, List.cons_append, readAll_blank] at h
        exact absurd h (by simp)
      · -- one more line of the body, which is skipped
        have hpoll := poll_line fromSlice [] line none hnot
        rw [List.nil_append] at hpoll
        rw [hleft, ← List.singleton_append, ← List.append_assoc, List.append_assoc] at h
        have hclosed := hjson body payload hpayload front line (newline :: back)
        rcases endLine_tail fromSlice line [newline] hne (by simp [newline])
          (fun text htext => hclosed text (by rw [hbody, hleft, List.append_assoc])
            (Or.inr ⟨back, rfl⟩) htext) with hend | hend
        · rw [hend] at hpoll
          rw [Reader.readAll_of_failed _ _ _ _ hpoll] at h
          exact absurd h (by simp)
        · rw [hend] at hpoll
          rw [Reader.readAll_of_pending _ _ _ _ _ hpoll] at h
          have hlength : back.length < n := by
            rw [← hn, hleft, List.length_append, List.length_cons]
            omega
          exact ih back.length hlength (front ++ line ++ [newline]) back
            (by rw [hbody, hleft]; simp) h rfl
    · by_cases hne : left = []
      · have hall := readAll_messages fromSlice messages hmessages
        rw [hne, List.nil_append, ← frameReader_start fromSlice, hall, Option.some.injEq] at h
        rw [← h, List.length_map]
      · exact readAll_last_line fromSlice left hne hline
          (fun text htext => hjson body payload hpayload front left [] text
            (by rw [hbody, List.append_nil]) (Or.inl rfl) htext) messages hmessages values h

/-! ### What is left of a frame -/

/-- What is left of a frame holds no message, and the frames behind it no more
    than they did. -/
def Lost (left : List UInt8) : Prop :=
  ∀ messages : List EditorMessage, (∀ m ∈ messages, m.WellFormed fromSlice) → ∀ values,
    (frameReader fromSlice).readAll (.header [] none)
      (left ++ messages.flatMap EditorMessage.encode) = some values →
    values.length ≤ messages.length

theorem lost_of_none (left : List UInt8)
    (h : ∀ rest, (frameReader fromSlice).readAll (.header [] none) (left ++ rest) = none) :
    Lost fromSlice left := by
  intro messages _ values hread
  rw [h] at hread
  exact absurd hread (by simp)

theorem lost_newline (rest : List UInt8) : Lost fromSlice (newline :: rest) :=
  lost_of_none fromSlice _ (fun _ => readAll_blank fromSlice _)

theorem lost_header (texts : List (List Char)) (body : List UInt8)
    (h : ∀ text ∈ texts, IsLineText text ∧ ¬contentLengthHeader <+: text) :
    Lost fromSlice (texts.flatMap headerLine ++ (headerLine [] ++ body)) := by
  refine lost_of_none fromSlice _ fun rest => ?_
  simp only [List.append_assoc]
  exact readAll_headless fromSlice texts (body ++ rest) h

theorem lost_blank (rest : List UInt8) : Lost fromSlice (headerLine [] ++ rest) :=
  lost_header fromSlice [] rest (by simp)

theorem lost_body (hjson : ClosesStrings fromSlice) (m : EditorMessage)
    (hm : m.WellFormed fromSlice) (front left : List UInt8) (h : m.body = front ++ left) :
    Lost fromSlice left :=
  fun messages hmessages => readAll_tail fromSlice hjson m.body m.payload hm.payload messages
    hmessages front left h

/-- The cut is in a field before the length. What is left is a frame of the same
    message, unless nothing is left of the field's text. -/
theorem cut_before (m : EditorMessage) (hm : m.WellFormed fromSlice)
    (before : List (List Char)) (text : List Char) (after : List (List Char))
    (hbefore : m.before = before ++ text :: after) (a b : List UInt8)
    (hpiece : a ++ b = headerLine text) (hb : b ≠ []) :
    (∃ front back, a = asciiBytes front ∧ IsField (front ++ back) ∧ back ≠ [] ∧
      EditorMessage.WellFormed fromSlice { m with before := back :: after } ∧
      b ++ (after.flatMap headerLine ++ ((lengthLine m.body.length :: m.after).flatMap headerLine ++
        (headerLine [] ++ m.body))) = EditorMessage.encode { m with before := back :: after }) ∨
    ∀ rest, Lost fromSlice (b ++ rest) := by
  have hfields : ∀ text' ∈ text :: after, IsField text' := by
    intro text' hmem
    refine hm.before text' ?_
    rw [hbefore]
    exact List.mem_append_right _ hmem
  rcases cut_headerLine text a b hpiece hb with ⟨front, back, hcut, ha, hback⟩ | hnewline
  · by_cases hne : back = []
    · right
      rw [hback, hne]
      exact lost_blank fromSlice
    · left
      have htext : IsField (front ++ back) := by
        rw [← hcut]
        exact hfields text List.mem_cons_self
      refine ⟨front, back, ha, htext, hne, ⟨?_, hm.after, hm.length, hm.payload⟩, ?_⟩
      · intro text' hmem
        rcases List.mem_cons.mp hmem with heq | hmem
        · rw [heq]
          exact IsField.of_append front back htext hne
        · exact hfields text' (List.mem_cons_of_mem _ hmem)
      · simp only [EditorMessage.encode, hback, List.flatMap_cons, List.append_assoc]
  · right
    rw [hnewline]
    exact lost_newline fromSlice

/-- The cut is in the length line, behind its first character, or in a field
    after it. -/
theorem cut_after (m : EditorMessage) (hm : m.WellFormed fromSlice)
    (before : List (List Char)) (text : List Char) (after : List (List Char))
    (hlines : lengthLine m.body.length :: m.after = before ++ text :: after) (a b : List UInt8)
    (hpiece : a ++ b = headerLine text) (hb : b ≠ []) (hbegun : before ≠ [] ∨ a ≠ []) :
    Lost fromSlice (b ++ (after.flatMap headerLine ++ (headerLine [] ++ m.body))) := by
  have hafter : ∀ text' ∈ m.after, IsLineText text' ∧ ¬contentLengthHeader <+: text' :=
    fun text' hmem => ⟨(hm.after text' hmem).line, (hm.after text' hmem).not_contentLength [] text'⟩
  rcases cut_headerLine text a b hpiece hb with ⟨front, back, hcut, ha, hback⟩ | hnewline
  · have hlost := lost_header fromSlice (back :: after) m.body
    rw [List.flatMap_cons, List.append_assoc, ← hback] at hlost
    refine hlost fun text' hmem => ?_
    cases before with
    | nil =>
        rw [List.nil_append, List.cons.injEq] at hlines
        rcases List.mem_cons.mp hmem with heq | hmem
        · -- The cut is in the length line itself: without its first character, the
          -- Rest does not read `Content-Length:` any more.
          have hfront : front ≠ [] := by
            rintro rfl
            rcases hbegun with habsurd | habsurd
            · exact habsurd rfl
            · exact habsurd ha
          have hline := isLineText_lengthLine m.body.length
          rw [hlines.1, hcut] at hline
          rw [heq]
          exact ⟨IsLineText.of_append front back hline,
            not_contentLength_of_lengthLine m.body.length front back hfront (hlines.1.trans hcut)⟩
        · rw [← hlines.2] at hmem
          exact hafter text' hmem
    | cons line before =>
        rw [List.cons_append, List.cons.injEq] at hlines
        rcases List.mem_cons.mp hmem with heq | hmem
        · have htext : IsField (front ++ back) := by
            rw [← hcut]
            refine hm.after text ?_
            rw [hlines.2]
            exact List.mem_append_right _ List.mem_cons_self
          rw [heq]
          exact ⟨IsLineText.of_append front back htext.line, htext.not_contentLength front back⟩
        · refine hafter text' ?_
          rw [hlines.2]
          exact List.mem_append_right _ (List.mem_cons_of_mem _ hmem)
  · rw [hnewline]
    exact lost_newline fromSlice _

/-- What is left of a frame when the reader has taken its first bytes and waits.
    Either the reader is at the start of a header; or it is in a field before
    the length, and what is left is a frame of the same message; or the message
    is lost. -/
theorem cut_message (hjson : ClosesStrings fromSlice) (m : EditorMessage)
    (hm : m.WellFormed fromSlice) (taken left : List UInt8) (s : FrameState)
    (hcut : taken ++ left = m.encode)
    (hpending : (frameReader fromSlice).poll (.header [] none) taken = .pending s) :
    s = .header [] none ∨
    (∃ front back after, s = .header (asciiBytes front) none ∧ IsField (front ++ back) ∧
      back ≠ [] ∧ EditorMessage.WellFormed fromSlice { m with before := back :: after } ∧
      left = EditorMessage.encode { m with before := back :: after }) ∨
    Lost fromSlice left := by
  unfold EditorMessage.encode at hcut
  cases cut_flatMap headerLine m.before _ taken left hcut with
  | within before text after a b hbefore htaken hleft hpiece hb =>
      rcases cut_before fromSlice m hm before text after hbefore a b hpiece hb with
        ⟨front, back, ha, htext, hne, hm', hencode⟩ | hlost
      · right
        left
        refine ⟨front, back, after, ?_, htext, hne, hm', by rw [hleft, hencode]⟩
        have hfields := poll_fields fromSlice before none
          (fun text' hmem => hm.before text' (by rw [hbefore]; exact List.mem_append_left _ hmem))
        have hfront : newline ∉ asciiBytes front := by
          intro hmem
          refine newline_not_mem front (fun c hc => htext.line c (List.mem_append_left _ hc)) ?_
          exact List.mem_append_left _ hmem
        rw [htaken, Reader.poll_of_pending _ _ _ _ _ hfields, ha,
          poll_within_line fromSlice [] _ none hfront, List.nil_append,
          ReadPoll.pending.injEq] at hpending
        exact hpending.symm
      · right
        right
        rw [hleft]
        exact hlost _
  | behind more htaken htail =>
      have hfields := poll_fields fromSlice m.before none hm.before
      rw [htaken, Reader.poll_of_pending _ _ _ _ _ hfields] at hpending
      cases cut_flatMap headerLine _ _ more left htail.symm with
      | within before text after a b hlines hover hleft hpiece hb =>
          by_cases hbegun : before ≠ [] ∨ a ≠ []
          · right
            right
            rw [hleft]
            exact cut_after fromSlice m hm before text after hlines a b hpiece hb hbegun
          · left
            rw [not_or, not_not, not_not] at hbegun
            rw [hover, hbegun.1, hbegun.2, List.flatMap_nil, List.append_nil, Reader.poll,
              ReadPoll.pending.injEq] at hpending
            exact hpending.symm
      | behind more' hover hblank =>
          right
          right
          -- The cut is in the empty line or in the body.
          rcases List.append_eq_append_iff.mp hblank with ⟨front, hfront, hbody⟩ | ⟨b, hb, hleft⟩
          · exact lost_body fromSlice hjson m hm front left hbody
          · by_cases hne : b = []
            · rw [hne, List.nil_append] at hleft
              rw [hleft]
              exact lost_body fromSlice hjson m hm [] m.body rfl
            · rcases cut_headerLine [] more' b hb.symm hne with ⟨_, back, hnil, _, hback⟩ | hnewline
              · rw [hleft, hback, (List.append_eq_nil_iff.mp hnil.symm).2]
                exact lost_blank fromSlice _
              · rw [hleft, hnewline]
                exact lost_newline fromSlice _

end Lspee
