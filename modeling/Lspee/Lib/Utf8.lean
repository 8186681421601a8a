import Mathlib.Algebra.Order.Ring.Nat
import Mathlib.Data.List.Basic

/-!
# UTF-8 Text in a Stream of Bytes

Decoding and encoding of UTF-8, and the first line of a stream of bytes. Decoding fails on a
byte sequence that is no encoding of a scalar value: a stray continuation byte,
an overlong form, a surrogate, a value past the last code point, or a character
that is cut off.

## Main definitions

* `decode`: The characters a byte sequence encodes.
* `encode`: The bytes of a text.
* `asciiChars`, `asciiBytes`: ASCII, byte by byte.
* `trim`, `trimEnd`: Texts without what is around them.
* `splitLine`: The first line, and what follows it.

## Theorems

* `decode_ascii`: ASCII bytes decode to themselves.
* `decode_append_ascii`: ASCII bytes at the end are characters of their own.
* `decode_append`: Decoding behind a whole number of characters.
* `decodeFrom_eq_nil`: Only no bytes encode no character.
* `trimEnd_append_of_all`, `mem_trim`: What trimming leaves.
* `decode_encode`: A text is read back from its bytes.
* `newline_mem_encode`, `splitLine_append`: The lines of what was encoded.
* `splitLine_spec`: The first line and what follows it are the bytes.
-/

namespace Utf8

/-- The newline. -/
def newline : UInt8 := 10

/-- A continuation byte. -/
def isContinuation (b : UInt8) : Bool := 0x80 ≤ b && b ≤ 0xBF

/-- Where a decoder stands: between characters, or in one, with the bits so far,
    the number of continuation bytes to come, and the range of the next one. -/
inductive Pending where
  | start
  | more (bits need : Nat) (lo hi : UInt8)
deriving DecidableEq

/-- What a first byte that is not ASCII begins. The range of the second byte
    keeps overlong forms, surrogates and values that are too large out. -/
def lead (b : UInt8) : Option Pending :=
  if 0xC2 ≤ b && b ≤ 0xDF then some (.more (b.toNat % 32) 1 0x80 0xBF)
  else if b = 0xE0 then some (.more 0 2 0xA0 0xBF)
  else if b = 0xED then some (.more 13 2 0x80 0x9F)
  else if 0xE1 ≤ b && b ≤ 0xEF then some (.more (b.toNat % 16) 2 0x80 0xBF)
  else if b = 0xF0 then some (.more 0 3 0x90 0xBF)
  else if 0xF1 ≤ b && b ≤ 0xF3 then some (.more (b.toNat % 8) 3 0x80 0xBF)
  else if b = 0xF4 then some (.more 4 3 0x80 0x8F)
  else none

/-- The characters the bytes encode, from where the decoder stands. -/
def decodeFrom : Pending → List UInt8 → Option (List Char)
  | .start, [] => some []
  | .more _ _ _ _, [] => none
  | .start, b :: rest =>
    if b < 0x80 then (decodeFrom .start rest).map (Char.ofNat b.toNat :: ·)
    else match lead b with
      | some pending => decodeFrom pending rest
      | none => none
  | .more bits need lo hi, b :: rest =>
    if isContinuation b && lo ≤ b && b ≤ hi then
      let bits := bits * 64 + b.toNat % 64
      if need = 1 then (decodeFrom .start rest).map (Char.ofNat bits :: ·)
      else decodeFrom (.more bits (need - 1) 0x80 0xBF) rest
    else none

/-- The characters a byte sequence encodes, or `none` when it is no encoding. -/
def decode (bytes : List UInt8) : Option (List Char) := decodeFrom .start bytes

/-- The bytes of a text. -/
def encode (text : List Char) : List UInt8 := text.flatMap String.utf8EncodeChar

/-- The characters of ASCII bytes. -/
def asciiChars (bytes : List UInt8) : List Char := bytes.map (fun b => Char.ofNat b.toNat)

/-- The bytes of ASCII characters. -/
def asciiBytes (text : List Char) : List UInt8 := text.map (fun c => UInt8.ofNat c.toNat)

theorem asciiBytes_lt (text : List Char) (h : ∀ c ∈ text, c.toNat < 128) :
    ∀ b ∈ asciiBytes text, b < 0x80 := by
  intro b hb
  rcases List.mem_map.mp hb with ⟨c, hc, rfl⟩
  have hlt := h c hc
  rw [UInt8.lt_iff_toNat_lt, UInt8.toNat_ofNat']
  change c.toNat % 256 < 128
  omega

theorem asciiChars_asciiBytes (text : List Char) (h : ∀ c ∈ text, c.toNat < 128) :
    asciiChars (asciiBytes text) = text := by
  unfold asciiChars asciiBytes
  rw [List.map_map]
  refine (List.map_congr_left fun c hc => ?_).trans (List.map_id text)
  have hlt := h c hc
  have hmod : c.toNat % 2 ^ 8 = c.toNat := Nat.mod_eq_of_lt (by omega)
  simp only [Function.comp_apply, UInt8.toNat_ofNat', hmod, Char.ofNat_toNat, id_eq]

theorem decode_ascii (bytes : List UInt8) (h : ∀ b ∈ bytes, b < 0x80) :
    decode bytes = some (asciiChars bytes) := by
  induction bytes with
  | nil => rfl
  | cons b bytes ih =>
      have hrest := ih (fun b' hb' => h b' (List.mem_cons_of_mem _ hb'))
      unfold decode at hrest ⊢
      rw [decodeFrom, if_pos (h b List.mem_cons_self), hrest]
      rfl

theorem not_continuation_ascii (b : UInt8) (h : b < 0x80) : isContinuation b = false := by
  simp only [isContinuation, Bool.and_eq_false_iff, decide_eq_false_iff_not]
  exact Or.inl (UInt8.not_le.mpr h)

theorem decodeFrom_append_ascii (pending : Pending) (xs ys : List UInt8) (cs : List Char)
    (hys : ∀ b ∈ ys, b < 0x80) (h : decodeFrom pending (xs ++ ys) = some cs) :
    ∃ ds, decodeFrom pending xs = some ds ∧ cs = ds ++ asciiChars ys := by
  induction xs generalizing pending cs with
  | nil =>
      cases pending with
      | start =>
          have hascii := decode_ascii ys hys
          rw [List.nil_append] at h
          rw [decode, h, Option.some.injEq] at hascii
          exact ⟨[], rfl, hascii⟩
      | more bits need lo hi =>
          -- An ASCII byte does not continue a character.
          cases ys with
          | nil => exact absurd h (by simp [decodeFrom])
          | cons b ys =>
              simp only [List.nil_append, decodeFrom,
                not_continuation_ascii b (hys b List.mem_cons_self), Bool.false_and,
                Bool.false_eq_true, if_false] at h
              exact absurd h (by simp)
  | cons b xs ih =>
      -- One more character in front of what the rest decodes to.
      have hcons : ∀ c, (decodeFrom .start (xs ++ ys)).map (c :: ·) = some cs →
          ∃ ds, (decodeFrom .start xs).map (c :: ·) = some ds ∧ cs = ds ++ asciiChars ys := by
        intro c hc
        rcases Option.map_eq_some_iff.mp hc with ⟨cs', hcs', heq⟩
        rcases ih .start cs' hcs' with ⟨ds, hds, hcat⟩
        refine ⟨c :: ds, by rw [hds, Option.map_some], ?_⟩
        rw [← heq, hcat, List.cons_append]
      cases pending with
      | start =>
          rw [List.cons_append] at h
          simp only [decodeFrom] at h ⊢
          by_cases hb : b < 0x80
          · rw [if_pos hb] at h ⊢
            exact hcons _ h
          · rw [if_neg hb] at h ⊢
            cases hlead : lead b with
            | none =>
                rw [hlead] at h
                exact absurd h (by simp)
            | some pending =>
                rw [hlead] at h
                exact ih pending cs h
      | more bits need lo hi =>
          rw [List.cons_append] at h
          simp only [decodeFrom] at h ⊢
          by_cases hb : (isContinuation b && lo ≤ b && b ≤ hi) = true
          · rw [if_pos hb] at h ⊢
            by_cases hneed : need = 1
            · rw [if_pos hneed] at h ⊢
              exact hcons _ h
            · rw [if_neg hneed] at h ⊢
              exact ih _ cs h
          · rw [if_neg hb] at h
            exact absurd h (by simp)

/-- Decoding goes on behind a whole number of characters. -/
theorem decodeFrom_append (pending : Pending) (xs ys : List UInt8) (cs : List Char)
    (h : decodeFrom pending xs = some cs) :
    decodeFrom pending (xs ++ ys) = (decode ys).map (cs ++ ·) := by
  induction xs generalizing pending cs with
  | nil =>
      cases pending with
      | start =>
          rw [decodeFrom, Option.some.injEq] at h
          rw [← h]
          exact (Option.map_id' (x := decode ys)).symm
      | more bits need lo hi => exact absurd h (by simp [decodeFrom])
  | cons b xs ih =>
      -- A character that is complete is put in front of what follows it.
      have hcons : ∀ c, (decodeFrom .start xs).map (c :: ·) = some cs →
          (decodeFrom .start (xs ++ ys)).map (c :: ·) = (decode ys).map (cs ++ ·) := by
        intro c hc
        rcases Option.map_eq_some_iff.mp hc with ⟨cs', hcs', heq⟩
        rw [ih .start cs' hcs', ← heq, Option.map_map]
        rfl
      cases pending with
      | start =>
          rw [List.cons_append]
          simp only [decodeFrom] at h ⊢
          by_cases hb : b < 0x80
          · rw [if_pos hb] at h ⊢
            exact hcons _ h
          · rw [if_neg hb] at h ⊢
            cases hlead : lead b with
            | none =>
                rw [hlead] at h
                exact absurd h (by simp)
            | some pending =>
                rw [hlead] at h
                exact ih pending cs h
      | more bits need lo hi =>
          rw [List.cons_append]
          simp only [decodeFrom] at h ⊢
          by_cases hb : (isContinuation b && lo ≤ b && b ≤ hi) = true
          · rw [if_pos hb] at h ⊢
            by_cases hneed : need = 1
            · rw [if_pos hneed] at h ⊢
              exact hcons _ h
            · rw [if_neg hneed] at h ⊢
              exact ih _ cs h
          · rw [if_neg hb] at h
            exact absurd h (by simp)

theorem decode_append (xs ys : List UInt8) (cs : List Char) (h : decode xs = some cs) :
    decode (xs ++ ys) = (decode ys).map (cs ++ ·) :=
  decodeFrom_append .start xs ys cs h

theorem lead_ne_start (b : UInt8) : lead b ≠ some .start := by
  unfold lead
  split_ifs <;> simp

/-- Only the empty byte sequence encodes no character. -/
theorem decodeFrom_eq_nil (pending : Pending) (bytes : List UInt8)
    (h : decodeFrom pending bytes = some []) : pending = .start ∧ bytes = [] := by
  induction bytes generalizing pending with
  | nil =>
      cases pending with
      | start => exact ⟨rfl, rfl⟩
      | more bits need lo hi => exact absurd h (by simp [decodeFrom])
  | cons b bytes ih =>
      -- A character that is complete is one more.
      have hmap : ∀ c, (decodeFrom .start bytes).map (c :: ·) ≠ some [] := by
        intro c hc
        rcases Option.map_eq_some_iff.mp hc with ⟨cs, _, heq⟩
        exact List.cons_ne_nil c cs heq
      cases pending with
      | start =>
          simp only [decodeFrom] at h
          by_cases hb : b < 0x80
          · rw [if_pos hb] at h
            exact absurd h (hmap _)
          · rw [if_neg hb] at h
            cases hlead : lead b with
            | none =>
                rw [hlead] at h
                exact absurd h (by simp)
            | some pending =>
                rw [hlead] at h
                rw [(ih pending h).1] at hlead
                exact absurd hlead (lead_ne_start b)
      | more bits need lo hi =>
          simp only [decodeFrom] at h
          by_cases hb : (isContinuation b && lo ≤ b && b ≤ hi) = true
          · rw [if_pos hb] at h
            by_cases hneed : need = 1
            · rw [if_pos hneed] at h
              exact absurd h (hmap _)
            · rw [if_neg hneed] at h
              exact absurd (ih _ h).1 (by simp)
          · rw [if_neg hb] at h
            exact absurd h (by simp)

/-- ASCII bytes at the end are characters of their own. -/
theorem decode_append_ascii (xs ys : List UInt8) (cs : List Char) (hys : ∀ b ∈ ys, b < 0x80)
    (h : decode (xs ++ ys) = some cs) : ∃ ds, decode xs = some ds ∧ cs = ds ++ asciiChars ys :=
  decodeFrom_append_ascii .start xs ys cs hys h

/-! ### Texts -/

/-- The white space of Unicode. -/
def isWhitespace (c : Char) : Bool :=
  let n := c.toNat
  (9 ≤ n && n ≤ 13) || n = 0x20 || n = 0x85 || n = 0xA0 || n = 0x1680 ||
    (0x2000 ≤ n && n ≤ 0x200A) || n = 0x2028 || n = 0x2029 || n = 0x202F || n = 0x205F ||
    n = 0x3000

/-- A text without the characters at its end that pass the test. -/
def trimEnd (p : Char → Bool) (text : List Char) : List Char :=
  (text.reverse.dropWhile p).reverse

/-- A text without the white space around it. -/
def trim (text : List Char) : List Char :=
  trimEnd isWhitespace (text.dropWhile isWhitespace)

theorem dropWhile_of_none (p : Char → Bool) (text : List Char) (h : ∀ c ∈ text, p c = false) :
    text.dropWhile p = text := by
  cases text with
  | nil => rfl
  | cons c text =>
      rw [List.dropWhile_cons, h c List.mem_cons_self, if_neg Bool.false_ne_true]

theorem trimEnd_of_none (p : Char → Bool) (text : List Char) (h : ∀ c ∈ text, p c = false) :
    trimEnd p text = text := by
  unfold trimEnd
  rw [dropWhile_of_none p _ (fun c hc => h c (List.mem_reverse.mp hc)), List.reverse_reverse]

/-- Characters at the end that pass the test are trimmed first. -/
theorem trimEnd_append_of_all (p : Char → Bool) (xs ys : List Char)
    (hys : ∀ d ∈ ys, p d = true) : trimEnd p (xs ++ ys) = trimEnd p xs := by
  unfold trimEnd
  rw [List.reverse_append,
    List.dropWhile_append_of_pos (fun d hd => hys d (List.mem_reverse.mp hd))]

theorem mem_dropWhile (p : Char → Bool) (text : List Char) (c : Char) (hc : p c = false)
    (h : c ∈ text) : c ∈ text.dropWhile p := by
  induction text with
  | nil => exact h
  | cons d text ih =>
      by_cases hd : p d = true
      · rw [List.dropWhile_cons, if_pos hd]
        rcases List.mem_cons.mp h with heq | hrest
        · rw [heq, hd] at hc
          exact absurd hc (by simp)
        · exact ih hrest
      · rw [List.dropWhile_cons, if_neg hd]
        exact h

/-- Trimming keeps the characters that do not pass the test. -/
theorem mem_trimEnd (p : Char → Bool) (text : List Char) (c : Char) (hc : p c = false)
    (h : c ∈ text) : c ∈ trimEnd p text := by
  unfold trimEnd
  rw [List.mem_reverse]
  exact mem_dropWhile p _ c hc (List.mem_reverse.mpr h)

theorem mem_trim (text : List Char) (c : Char) (hc : isWhitespace c = false) (h : c ∈ text) :
    c ∈ trim text :=
  mem_trimEnd isWhitespace _ c hc (mem_dropWhile isWhitespace text c hc h)

theorem trimEnd_initial (p : Char → Bool) (text : List Char) : trimEnd p text <+: text := by
  have hsuffix := List.reverse_prefix.mpr (List.dropWhile_suffix p (l := text.reverse))
  rw [List.reverse_reverse] at hsuffix
  exact hsuffix

/-! ### Encoding -/

/-- A byte in the middle of a character. -/
theorem decodeFrom_more (bits need v : Nat) (lo hi : UInt8) (rest : List UInt8) (hv : v < 64)
    (hlo : lo.toNat ≤ v + 128) (hhi : v + 128 ≤ hi.toNat) :
    decodeFrom (.more bits need lo hi) (UInt8.ofNat (v + 0x80) :: rest) =
      if need = 1 then (decodeFrom .start rest).map (Char.ofNat (bits * 64 + v) :: ·)
      else decodeFrom (.more (bits * 64 + v) (need - 1) 0x80 0xBF) rest := by
  have hnat : (UInt8.ofNat (v + 0x80)).toNat = v + 128 := by
    rw [UInt8.toNat_ofNat']
    omega
  have hcont : isContinuation (UInt8.ofNat (v + 0x80)) = true := by
    simp only [isContinuation, Bool.and_eq_true, decide_eq_true_eq, UInt8.le_iff_toNat_le, hnat]
    exact ⟨by simp, by simp; omega⟩
  have hmod : (v + 128) % 64 = v := by omega
  have hcond : (isContinuation (UInt8.ofNat (v + 0x80)) && decide (lo ≤ UInt8.ofNat (v + 0x80)) &&
      decide (UInt8.ofNat (v + 0x80) ≤ hi)) = true := by
    simp only [hcont, Bool.true_and, Bool.and_eq_true, decide_eq_true_eq, UInt8.le_iff_toNat_le,
      hnat]
    exact ⟨hlo, hhi⟩
  rw [decodeFrom, if_pos hcond, hnat, hmod]

theorem lead_two : ∀ x < 32, 2 ≤ x →
    lead (UInt8.ofNat (x + 0xC0)) = some (.more x 1 0x80 0xBF) := by
  decide

theorem lead_three : ∀ x < 16, lead (UInt8.ofNat (x + 0xE0)) =
    some (.more x 2 (if x = 0 then 0xA0 else 0x80) (if x = 13 then 0x9F else 0xBF)) := by
  decide

theorem lead_four : ∀ x < 5, lead (UInt8.ofNat (x + 0xF0)) =
    some (.more x 3 (if x = 0 then 0x90 else 0x80) (if x = 4 then 0x8F else 0xBF)) := by
  decide

theorem decodeFrom_lead (b : UInt8) (rest : List UInt8) (pending : Pending) (hb : 0xC0 ≤ b.toNat)
    (h : lead b = some pending) :
    decodeFrom .start (b :: rest) = decodeFrom pending rest := by
  have hlt : ¬ b < 0x80 := by
    rw [UInt8.lt_iff_toNat_lt]
    simp
    omega
  rw [decodeFrom, if_neg hlt, h]

theorem lead_toNat (x base : Nat) (hbase : 0xC0 ≤ base) (hx : x + base < 256) :
    0xC0 ≤ (UInt8.ofNat (x + base)).toNat := by
  rw [UInt8.toNat_ofNat']
  omega

theorem decodeFrom_char (c : Char) (rest : List UInt8) :
    decodeFrom .start (String.utf8EncodeChar c ++ rest) =
      (decodeFrom .start rest).map (c :: ·) := by
  have hback : Char.ofNat c.val.toNat = c := Char.ofNat_toNat c
  have hvalid : c.val.toNat < 0xd800 ∨ 0xdfff < c.val.toNat ∧ c.val.toNat < 0x110000 := c.valid
  rw [String.utf8EncodeChar]
  generalize hv : c.val.toNat = v at hback hvalid
  by_cases h1 : v ≤ 0x7f
  · have hnat : (UInt8.ofNat v).toNat = v := by
      rw [UInt8.toNat_ofNat']
      omega
    have hascii : UInt8.ofNat v < 0x80 := by
      rw [UInt8.lt_iff_toNat_lt, hnat]
      simp
      omega
    rw [if_pos h1, List.cons_append, List.nil_append, decodeFrom, if_pos hascii, hnat, hback]
  by_cases h2 : v ≤ 0x7ff
  · -- two bytes
    have hval : v / 64 % 0x20 * 64 + v % 0x40 = v := by omega
    rw [if_neg h1, if_pos h2, List.cons_append, List.cons_append, List.nil_append,
      decodeFrom_lead _ _ _ (lead_toNat _ _ (by omega) (by omega))
        (lead_two (v / 64 % 0x20) (by omega) (by omega)),
      decodeFrom_more _ _ _ _ _ _ (by omega) (by simp) (by simp; omega), if_pos rfl, hval, hback]
  by_cases h3 : v ≤ 0xffff
  · -- three bytes; the surrogates are no characters
    have hlead := lead_three (v / 4096 % 0x10) (by omega)
    have hval : (v / 4096 % 0x10 * 64 + v / 64 % 0x40) * 64 + v % 0x40 = v := by omega
    rw [if_neg h1, if_neg h2, if_pos h3]
    simp only [List.cons_append, List.nil_append]
    rw [decodeFrom_lead _ _ _ (lead_toNat _ _ (by omega) (by omega)) hlead,
      decodeFrom_more _ _ _ _ _ _ (by omega) (by split <;> simp; omega)
        (by split <;> simp <;> omega), if_neg (by omega),
      decodeFrom_more _ _ _ _ _ _ (by omega) (by simp) (by simp; omega), if_pos rfl, hval, hback]
  · -- four bytes, up to the last code point
    have hlead := lead_four (v / 262144 % 8) (by omega)
    have hval : ((v / 262144 % 8 * 64 + v / 4096 % 0x40) * 64 + v / 64 % 0x40) * 64 + v % 0x40
        = v := by omega
    rw [if_neg h1, if_neg h2, if_neg h3]
    simp only [List.cons_append, List.nil_append]
    rw [decodeFrom_lead _ _ _ (lead_toNat _ _ (by omega) (by omega)) hlead,
      decodeFrom_more _ _ _ _ _ _ (by omega) (by split <;> simp; omega)
        (by split <;> simp <;> omega), if_neg (by omega),
      decodeFrom_more _ _ _ _ _ _ (by omega) (by simp) (by simp; omega), if_neg (by omega),
      decodeFrom_more _ _ _ _ _ _ (by omega) (by simp) (by simp; omega), if_pos rfl, hval, hback]

/-- A text is read back from its bytes. -/
theorem decode_encode (text : List Char) : decode (encode text) = some text := by
  unfold decode encode
  induction text with
  | nil => rfl
  | cons c text ih => rw [List.flatMap_cons, decodeFrom_char, ih, Option.map_some]

/-- Only the newline has a newline among its bytes. -/
theorem newline_mem_encode (text : List Char) (h : newline ∈ encode text) : '\n' ∈ text := by
  rcases List.mem_flatMap.mp h with ⟨c, hc, hmem⟩
  have hval : c.val.toNat = 10 := by
    rw [String.utf8EncodeChar] at hmem
    have hnat : ∀ n, newline = UInt8.ofNat n → n % 256 = 10 := by
      intro n hn
      have heq := congrArg UInt8.toNat hn
      rw [UInt8.toNat_ofNat'] at heq
      simpa [newline] using heq.symm
    split at hmem
    · have heq := hnat _ (List.mem_singleton.mp hmem)
      omega
    -- Every other byte of a character is at least 128.
    · split at hmem
      · simp only [List.mem_cons, List.not_mem_nil, or_false] at hmem
        rcases hmem with hb | hb <;> exact absurd (hnat _ hb) (by omega)
      split at hmem
      · simp only [List.mem_cons, List.not_mem_nil, or_false] at hmem
        rcases hmem with hb | hb | hb <;> exact absurd (hnat _ hb) (by omega)
      · simp only [List.mem_cons, List.not_mem_nil, or_false] at hmem
        rcases hmem with hb | hb | hb | hb <;> exact absurd (hnat _ hb) (by omega)
  have heq : c = '\n' := Char.ext (UInt32.toNat_inj.mp hval)
  rw [← heq]
  exact hc

/-! ### Lines -/

/-- The first line without its newline, and what follows it; `none` for what
    follows when there is no newline. -/
def splitLine : List UInt8 → List UInt8 × Option (List UInt8)
  | [] => ([], none)
  | b :: rest =>
    if b = newline then ([], some rest)
    else (b :: (splitLine rest).1, (splitLine rest).2)

theorem splitLine_append (line rest : List UInt8) (h : newline ∉ line) :
    splitLine (line ++ newline :: rest) = (line, some rest) := by
  induction line with
  | nil => rw [List.nil_append, splitLine, if_pos rfl]
  | cons b line ih =>
      have hne : b ≠ newline := fun heq => h (heq ▸ List.mem_cons_self)
      have hline := ih (fun hmem => h (List.mem_cons_of_mem _ hmem))
      rw [List.cons_append, splitLine, if_neg hne, hline]

theorem splitLine_of_not_mem (line : List UInt8) (h : newline ∉ line) :
    splitLine line = (line, none) := by
  induction line with
  | nil => rfl
  | cons b line ih =>
      have hne : b ≠ newline := fun heq => h (heq ▸ List.mem_cons_self)
      have hline := ih (fun hmem => h (List.mem_cons_of_mem _ hmem))
      rw [splitLine, if_neg hne, hline]

/-- What splitting off the first line says of the bytes. -/
theorem splitLine_spec (bytes : List UInt8) :
    newline ∉ (splitLine bytes).1 ∧
      bytes = (splitLine bytes).1 ++ (splitLine bytes).2.elim [] (newline :: ·) := by
  induction bytes with
  | nil => exact ⟨List.not_mem_nil, rfl⟩
  | cons b bytes ih =>
      rcases ih with ⟨hnot, hbytes⟩
      rw [splitLine]
      by_cases hb : b = newline
      · rw [if_pos hb, hb]
        exact ⟨List.not_mem_nil, rfl⟩
      · rw [if_neg hb]
        refine ⟨fun hmem => ?_, congrArg (b :: ·) hbytes⟩
        rcases List.mem_cons.mp hmem with heq | hmem
        · exact hb heq.symm
        · exact hnot hmem

end Utf8
