import Lspee.Lib.Utf8

/-!
# Bytes Read as Text with Losses

What becomes of a byte sequence that need not be UTF-8 when it is read as text all
the same. What encodes characters is kept, byte by byte, and each longest piece
that begins a character and is not finished, like each byte that begins none, gives
way to the replacement character.

The bytes of a character are held back until it is complete. So an encoding of a
text is kept as it is (`lossy_of_decode`), and no byte is made up besides those of
the replacement character (`mem_lossy`). That is enough to find a separator again
that neither has (`lossy_separated`). Two sequences that are no encodings may well
become the same.

## Main definitions

* `replacement`: The replacement character.
* `lossyFrom`, `lossy`: The reading.

## Theorems

* `lossyFrom_of_decodeFrom`, `lossy_of_decode`: What is UTF-8 is kept.
* `mem_lossyFrom`, `mem_lossy`: Where the bytes come from.
* `lossy_separated`: Two readings before a separator.
-/

namespace Utf8

/-- U+FFFD, in UTF-8. -/
def replacement : List UInt8 := [0xEF, 0xBF, 0xBD]

/-- A byte between characters: what is read, what is held back, and where the decoder
    stands then. -/
def lossyStart (b : UInt8) : List UInt8 × List UInt8 × Pending :=
  if b < 0x80 then ([b], [], .start)
  else match lead b with
    | some pending => ([], [b], pending)
    | none => (replacement, [], .start)

/-- One more byte. A byte that does not continue the character ends it, and is looked
    at again as a byte between characters. -/
def lossyStep (held : List UInt8) : Pending → UInt8 → List UInt8 × List UInt8 × Pending
  | .start, b => lossyStart b
  | .more bits need lo hi, b =>
    if isContinuation b && lo ≤ b && b ≤ hi then
      if need = 1 then (held ++ [b], [], .start)
      else ([], held ++ [b], .more (bits * 64 + b.toNat % 64) (need - 1) 0x80 0xBF)
    else (replacement ++ (lossyStart b).1, (lossyStart b).2)

/-- The reading, with the bytes held back and from where the decoder stands. -/
def lossyFrom (held : List UInt8) : Pending → List UInt8 → List UInt8
  | .start, [] => []
  | .more _ _ _ _, [] => replacement
  | pending, b :: rest =>
    let next := lossyStep held pending b
    next.1 ++ lossyFrom next.2.1 next.2.2 rest

/-- `String::from_utf8_lossy`, as bytes. -/
def lossy (bytes : List UInt8) : List UInt8 := lossyFrom [] .start bytes

theorem lossyFrom_cons (held : List UInt8) (pending : Pending) (b : UInt8) (rest : List UInt8) :
    lossyFrom held pending (b :: rest) = (lossyStep held pending b).1 ++
      lossyFrom (lossyStep held pending b).2.1 (lossyStep held pending b).2.2 rest := by
  cases pending <;> rfl

/-! ### What is UTF-8 -/

/-- Nothing is held back between characters. -/
def Held (held : List UInt8) (pending : Pending) : Prop := pending = .start → held = []

theorem lossyFrom_of_decodeFrom (held : List UInt8) (pending : Pending) (bytes : List UInt8)
    (cs : List Char) (hheld : Held held pending) (h : decodeFrom pending bytes = some cs) :
    lossyFrom held pending bytes = held ++ bytes := by
  induction bytes generalizing held pending cs with
  | nil =>
      cases pending with
      | start =>
          rw [hheld rfl]
          rfl
      | more bits need lo hi => exact absurd h (by simp [decodeFrom])
  | cons b bytes ih =>
      -- Where a character is complete, nothing is held back for the rest.
      have hdone : ∀ c, (decodeFrom .start bytes).map (c :: ·) = some cs →
          lossyFrom [] .start bytes = bytes := by
        intro c hc
        rcases Option.map_eq_some_iff.mp hc with ⟨ds, hds, _⟩
        exact ih [] .start ds (fun _ => rfl) hds
      rw [lossyFrom_cons]
      cases pending with
      | start =>
          simp only [decodeFrom] at h
          rw [hheld rfl, lossyStep, lossyStart]
          by_cases hb : b < 0x80
          · rw [if_pos hb] at h ⊢
            rw [hdone _ h]
            rfl
          · rw [if_neg hb] at h ⊢
            cases hlead : lead b with
            | none =>
                rw [hlead] at h
                exact absurd h (by simp)
            | some pending =>
                rw [hlead] at h
                refine ih [b] pending cs (fun hstart => ?_) h
                rw [hstart] at hlead
                exact absurd hlead (lead_ne_start b)
      | more bits need lo hi =>
          simp only [decodeFrom] at h
          rw [lossyStep]
          by_cases hb : (isContinuation b && lo ≤ b && b ≤ hi) = true
          · rw [if_pos hb] at h ⊢
            by_cases hneed : need = 1
            · rw [if_pos hneed] at h ⊢
              rw [hdone _ h, List.append_assoc]
              rfl
            · rw [if_neg hneed] at h ⊢
              rw [ih (held ++ [b]) _ cs (fun hstart => by cases hstart) h, List.append_assoc]
              rfl
          · rw [if_neg hb] at h
            exact absurd h (by simp)

/-- The encoding of a text is read as itself. -/
theorem lossy_of_decode (bytes : List UInt8) (cs : List Char) (h : decode bytes = some cs) :
    lossy bytes = bytes :=
  lossyFrom_of_decodeFrom [] .start bytes cs (fun _ => rfl) h

theorem lossy_encode (text : List Char) : lossy (encode text) = encode text :=
  lossy_of_decode _ text (decode_encode text)

/-! ### Where the bytes come from -/

theorem mem_lossyStart (b a : UInt8)
    (h : a ∈ (lossyStart b).1 ∨ a ∈ (lossyStart b).2.1) : a = b ∨ a ∈ replacement := by
  unfold lossyStart at h
  by_cases hb : b < 0x80
  · simp only [if_pos hb, List.mem_singleton, List.not_mem_nil, or_false] at h
    exact .inl h
  · rw [if_neg hb] at h
    cases hlead : lead b with
    | none =>
        simp only [hlead, List.not_mem_nil, or_false] at h
        exact .inr h
    | some pending =>
        simp only [hlead, List.not_mem_nil, List.mem_singleton, false_or] at h
        exact .inl h

theorem mem_lossyStep (held : List UInt8) (pending : Pending) (b a : UInt8)
    (h : a ∈ (lossyStep held pending b).1 ∨ a ∈ (lossyStep held pending b).2.1) :
    a ∈ held ∨ a = b ∨ a ∈ replacement := by
  cases pending with
  | start => exact .inr (mem_lossyStart b a h)
  | more bits need lo hi =>
      simp only [lossyStep] at h
      by_cases hb : (isContinuation b && lo ≤ b && b ≤ hi) = true
      · by_cases hneed : need = 1
        · simp only [if_pos hb, if_pos hneed, List.mem_append, List.mem_singleton,
            List.not_mem_nil, or_false] at h
          rcases h with h | h
          · exact .inl h
          · exact .inr (.inl h)
        · simp only [if_pos hb, if_neg hneed, List.mem_append, List.mem_singleton,
            List.not_mem_nil, false_or] at h
          rcases h with h | h
          · exact .inl h
          · exact .inr (.inl h)
      · simp only [if_neg hb, List.mem_append, or_assoc] at h
        rcases h with h | h
        · exact .inr (.inr h)
        · exact .inr (mem_lossyStart b a h)

/-- A byte that is read was there, or is one of the replacement character. -/
theorem mem_lossyFrom (held : List UInt8) (pending : Pending) (bytes : List UInt8) (a : UInt8)
    (h : a ∈ lossyFrom held pending bytes) : a ∈ held ∨ a ∈ bytes ∨ a ∈ replacement := by
  -- The bytes held back and the state change with each byte.
  induction bytes generalizing held pending with
  | nil =>
      cases pending with
      | start => exact absurd h List.not_mem_nil
      | more bits need lo hi => exact .inr (.inr h)
  | cons b bytes ih =>
      rw [lossyFrom_cons, List.mem_append] at h
      have hstep : a ∈ (lossyStep held pending b).1 ∨ a ∈ (lossyStep held pending b).2.1 →
          a ∈ held ∨ a ∈ b :: bytes ∨ a ∈ replacement := by
        intro hmem
        rcases mem_lossyStep held pending b a hmem with hheld | hb | hreplaced
        · exact .inl hheld
        · exact .inr (.inl (hb ▸ List.mem_cons_self))
        · exact .inr (.inr hreplaced)
      rcases h with h | h
      · exact hstep (.inl h)
      · rcases ih _ _ h with hheld | hrest | hreplaced
        · exact hstep (.inr hheld)
        · exact .inr (.inl (List.mem_cons_of_mem _ hrest))
        · exact .inr (.inr hreplaced)

theorem mem_lossy (bytes : List UInt8) (a : UInt8) (h : a ∈ lossy bytes) :
    a ∈ bytes ∨ a ∈ replacement := by
  rcases mem_lossyFrom [] .start bytes a h with hheld | hrest
  · exact absurd hheld List.not_mem_nil
  · exact hrest

/-! ### A separator -/

/-- Two sequences before a separator that neither has are the same if the whole is. -/
theorem append_separated {α : Type*} (sep : α) (xs xs' ys ys' : List α) (h : sep ∉ xs)
    (h' : sep ∉ xs') (heq : xs ++ sep :: ys = xs' ++ sep :: ys') : xs = xs' ∧ ys = ys' := by
  induction xs generalizing xs' with
  | nil =>
      cases xs' with
      | nil => exact ⟨rfl, (List.cons.inj heq).2⟩
      | cons x' xs' => exact absurd ((List.cons.inj heq).1 ▸ List.mem_cons_self) h'
  | cons x xs ih =>
      cases xs' with
      | nil => exact absurd ((List.cons.inj heq).1 ▸ List.mem_cons_self) h
      | cons x' xs' =>
          rcases List.cons.inj heq with ⟨hx, hrest⟩
          have htail := ih xs' (fun hmem => h (List.mem_cons_of_mem _ hmem))
            (fun hmem => h' (List.mem_cons_of_mem _ hmem)) hrest
          exact ⟨by rw [hx, htail.1], htail.2⟩

/-- Two readings of sequences without a zero byte, before a zero byte. -/
theorem lossy_separated (xs xs' ys ys' : List UInt8) (h : 0 ∉ xs) (h' : 0 ∉ xs')
    (heq : lossy xs ++ 0 :: ys = lossy xs' ++ 0 :: ys') : lossy xs = lossy xs' ∧ ys = ys' := by
  -- The replacement character has no zero byte.
  have hzero : ∀ bytes : List UInt8, 0 ∉ bytes → 0 ∉ lossy bytes := by
    intro bytes hbytes hmem
    rcases mem_lossy bytes 0 hmem with hmem | hmem
    · exact hbytes hmem
    · exact absurd hmem (by decide)
  exact append_separated 0 _ _ ys ys' (hzero xs h) (hzero xs' h') heq

end Utf8
