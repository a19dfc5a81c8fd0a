import RemoteCache.Bytes.Hex

/-!
# Hexadecimal text reads back

The text that is written for some bytes reads back as these bytes (`decodeFrom_encode`), wherever the text starts.
Hence different bytes are written differently.

Which texts are read is told by a grammar of pairs (`Paired`). A text of pairs is read as bytes that are written like
it, up to blanks and case, and any other text is refused where it stops being the start of a text of pairs (`Breaks`).
Reading goes pair by pair, so one induction over it shows both (`decodeFrom_outcome`).
-/

namespace RemoteCache

/-- What each code below 128 satisfies holds of every ASCII character. -/
@[elab_as_elim]
theorem of_ascii {P : Char → Prop} (c : Char) (hc : c.toNat < 128) (h : ∀ k < 128, P (Char.ofNat k)) : P c := by
  have hcode := h c.toNat hc
  rwa [Char.ofNat_toNat] at hcode

namespace Hex

theorem value_digit {n : Nat} (hn : n < 16) : value? (digit n) = some n := by
  revert n
  decide

theorem isBlank_digit {n : Nat} (hn : n < 16) : isBlank (digit n) = false := by
  revert n
  decide

/-- A pair reads back as its byte, before what follows it. -/
theorem decodeFrom_pair (pos : Nat) (b : UInt8) (rest : List Char) :
    decodeFrom pos (pair b ++ rest) = (decodeFrom (pos + 2) rest).map (b :: ·) := by
  have hb : b.toNat < 256 := b.toNat_lt
  have hhigh : b.toNat / 16 < 16 := by omega
  have hlow : b.toNat % 16 < 16 := by omega
  have hjoin : UInt8.ofNat (16 * (b.toNat / 16) + b.toNat % 16) = b := by
    rw [Nat.div_add_mod]
    exact UInt8.ofNat_toNat
  rw [pair, List.cons_append, List.cons_append, List.nil_append, decodeFrom.eq_def]
  simp only [isBlank_digit hhigh, value_digit hhigh, value_digit hlow, hjoin, Bool.false_eq_true, if_false]

theorem decodeFrom_encode (pos : Nat) (bytes : Bytes) : decodeFrom pos (encode bytes) = .ok bytes := by
  induction bytes generalizing pos with
  | nil => rfl
  | cons b bytes ih =>
    rw [encode, List.flatMap_cons, decodeFrom_pair]
    rw [show bytes.flatMap pair = encode bytes from rfl, ih]
    rfl

theorem encode_inj {a b : Bytes} : encode a = encode b ↔ a = b := by
  constructor
  · intro h
    have ha := decodeFrom_encode 0 a
    rw [h, decodeFrom_encode] at ha
    exact (Except.ok.inj ha).symm
  · intro h
    rw [h]

variable {text more : List Char} {bytes : Bytes} {c d : Char} {n m pos i j : Nat}

/-! ## Texts of pairs -/

/-- A text of some number of pairs; blanks may stand before, between and behind the pairs. -/
inductive Paired : Nat → List Char → Prop
  | nil : Paired 0 []
  | blank {n : Nat} {c : Char} {text : List Char} : isBlank c = true → Paired n text → Paired n (c :: text)
  | pair {n : Nat} {high low : Char} {text : List Char} : isDigit high = true → isDigit low = true →
      Paired n text → Paired (n + 1) (high :: low :: text)

/-- The digits of a text without the blanks, in lower case. -/
def condensed (text : List Char) : List Char := (text.filter (!isBlank ·)).map Char.toLower

/-- A text that goes on to a text of pairs. -/
def Starts (text : List Char) : Prop := ∃ more n, Paired n (text ++ more)

/-- A text stops being the start of a text of pairs at the character of this index. At its end it does so if the last
pair lacks its second digit. -/
structure Breaks (text : List Char) (i : Nat) : Prop where
  le_length : i ≤ text.length
  starts : Starts (text.take i)
  breaks : i < text.length → ¬ Starts (text.take (i + 1))
  half : i = text.length → ∃ n front c, text = front ++ [c] ∧ Paired n front ∧ isDigit c = true
  unpaired : ∀ n, ¬ Paired n text

/-- The value of a digit is below sixteen, and its digit is the same in lower case. -/
theorem digit_of_value? (h : value? c = some n) : n < 16 ∧ digit n = c.toLower := by
  have hascii : c.toNat < 128 := by
    unfold value? at h
    have h0 : c ≤ '9' → c.toNat ≤ 57 := id
    have h1 : c ≤ 'f' → c.toNat ≤ 102 := id
    have h2 : c ≤ 'F' → c.toNat ≤ 70 := id
    grind
  have hc : (value? c).all (fun n => n < 16 && digit n = c.toLower) = true := of_ascii c hascii (by decide)
  rw [h] at hc
  simpa using hc

theorem isDigit_of_isBlank (h : isBlank c = true) : isDigit c = false := by
  have hascii : c.toNat < 128 := by
    have hr : c ≤ '\r' → c.toNat ≤ 13 := id
    simp only [isBlank, Bool.or_eq_true, Bool.and_eq_true, decide_eq_true_eq] at h
    rcases h with rfl | ⟨-, h⟩
    · decide
    · have := hr h
      omega
  have hc : isBlank c = true → isDigit c = false := of_ascii c hascii (by decide)
  exact hc h

theorem isBlank_of_isDigit (h : isDigit c = true) : isBlank c = false :=
  Bool.eq_false_iff.2 fun hblank => by simp [isDigit_of_isBlank hblank] at h

theorem paired_cons_iff : Paired n (c :: text) ↔ isBlank c = true ∧ Paired n text ∨
    ∃ m d rest, n = m + 1 ∧ text = d :: rest ∧ isDigit c = true ∧ isDigit d = true ∧ Paired m rest := by
  constructor
  · intro h
    cases h with
    | blank hc h => exact .inl ⟨hc, h⟩
    | pair hc hd h => exact .inr ⟨_, _, _, rfl, rfl, hc, hd, h⟩
  · rintro (⟨hc, h⟩ | ⟨m, d, rest, rfl, rfl, hc, hd, h⟩)
    · exact .blank hc h
    · exact .pair hc hd h

theorem paired_blank_iff (hc : isBlank c = true) : Paired n (c :: text) ↔ Paired n text := by
  simp [paired_cons_iff, hc, isDigit_of_isBlank hc]

theorem paired_pair_iff (hc : isDigit c = true) (hd : isDigit d = true) :
    Paired n (c :: d :: text) ↔ ∃ m, n = m + 1 ∧ Paired m text := by
  rw [paired_cons_iff, isBlank_of_isDigit hc]
  constructor
  · rintro (⟨⟨⟩, -⟩ | ⟨m, d, rest, rfl, ⟨⟩, -, -, h⟩)
    exact ⟨m, rfl, h⟩
  · rintro ⟨m, rfl, h⟩
    exact .inr ⟨m, d, text, rfl, rfl, hc, hd, h⟩

/-- What is neither a blank nor a digit stands in no pair. -/
theorem not_paired_stray (hblank : isBlank c = false) (hc : isDigit c = false) : ¬ Paired n (c :: text) := by
  simp [paired_cons_iff, hblank, hc]

/-- Behind the first digit of a pair comes its second one. -/
theorem not_paired_half (hc : isDigit c = true) : ¬ Paired n [c] := by
  simp [paired_cons_iff, isBlank_of_isDigit hc]

theorem not_paired_broken (hc : isDigit c = true) (hd : isDigit d = false) : ¬ Paired n (c :: d :: text) := by
  simp [paired_cons_iff, isBlank_of_isDigit hc, hd]

/-- A text holds two digits for each pair. -/
theorem Paired.length_condensed (h : Paired n text) : (condensed text).length = 2 * n := by
  induction h with
  | nil => rfl
  | blank hc _ ih => simpa [condensed, hc] using ih
  | pair hc hd _ ih =>
    simp only [condensed, List.length_map] at ih ⊢
    simp [isBlank_of_isDigit hc, isBlank_of_isDigit hd, ih]
    omega

theorem Paired.unique (h : Paired n text) (hm : Paired m text) : n = m := by
  have hlength := h.length_condensed.symm.trans hm.length_condensed
  omega

/-! ## Starts of texts of pairs -/

theorem starts_nil : Starts [] := ⟨[], 0, .nil⟩

theorem Starts.of_append (h : Starts (text ++ more)) : Starts text := by
  obtain ⟨rest, n, hrest⟩ := h
  exact ⟨more ++ rest, n, by rwa [← List.append_assoc]⟩

theorem starts_blank_iff (hc : isBlank c = true) : Starts (c :: text) ↔ Starts text := by
  simp only [Starts, List.cons_append, paired_blank_iff hc]

theorem starts_pair_iff (hc : isDigit c = true) (hd : isDigit d = true) : Starts (c :: d :: text) ↔ Starts text := by
  simp only [Starts, List.cons_append, paired_pair_iff hc hd]
  constructor
  · rintro ⟨more, n, m, -, h⟩
    exact ⟨more, m, h⟩
  · rintro ⟨more, m, h⟩
    exact ⟨more, m + 1, m, rfl, h⟩

theorem starts_half (hc : isDigit c = true) : Starts [c] := ⟨[c], 1, .pair hc hc .nil⟩

/-- There is one place at most at which a text stops being a start. -/
theorem Breaks.unique (hi : Breaks text i) (hj : Breaks text j) : i = j := by
  have hle {i j : Nat} (hi : Breaks text i) (hj : Breaks text j) : j ≤ i := by
    refine Nat.le_of_not_lt fun hlt => hi.breaks (Nat.lt_of_lt_of_le hlt hj.le_length) ?_
    have htake : text.take j = text.take (i + 1) ++ (text.drop (i + 1)).take (j - (i + 1)) := by
      rw [← List.take_add, Nat.add_sub_cancel' hlt]
    exact (htake ▸ hj.starts).of_append
  exact Nat.le_antisymm (hle hj hi) (hle hi hj)

theorem Breaks.blank (hc : isBlank c = true) (h : Breaks text i) : Breaks (c :: text) (i + 1) where
  le_length := Nat.succ_le_succ h.le_length
  starts := (starts_blank_iff hc).2 h.starts
  breaks hi := fun hs => h.breaks (Nat.lt_of_succ_lt_succ hi) ((starts_blank_iff hc).1 hs)
  half hi := by
    obtain ⟨n, front, e, rfl, hfront, he⟩ := h.half (Nat.succ.inj hi)
    exact ⟨n, c :: front, e, rfl, .blank hc hfront, he⟩
  unpaired n := fun hn => h.unpaired n ((paired_blank_iff hc).1 hn)

theorem Breaks.pair (hc : isDigit c = true) (hd : isDigit d = true) (h : Breaks text i) :
    Breaks (c :: d :: text) (i + 2) where
  le_length := Nat.succ_le_succ (Nat.succ_le_succ h.le_length)
  starts := (starts_pair_iff hc hd).2 h.starts
  breaks hi := fun hs => h.breaks (by simpa using hi) ((starts_pair_iff hc hd).1 hs)
  half hi := by
    obtain ⟨n, front, e, rfl, hfront, he⟩ := h.half (by simpa using hi)
    exact ⟨n + 1, c :: d :: front, e, rfl, .pair hc hd hfront, he⟩
  unpaired n := fun hn => by
    obtain ⟨m, -, hm⟩ := (paired_pair_iff hc hd).1 hn
    exact h.unpaired m hm

theorem breaks_stray (hblank : isBlank c = false) (hc : isDigit c = false) : Breaks (c :: text) 0 where
  le_length := Nat.zero_le _
  starts := starts_nil
  breaks _ := fun ⟨_, _, hn⟩ => not_paired_stray hblank hc hn
  half h := by cases h
  unpaired _ := not_paired_stray hblank hc

theorem breaks_half (hc : isDigit c = true) : Breaks [c] 1 where
  le_length := Nat.le_refl 1
  starts := starts_half hc
  breaks h := absurd h (Nat.lt_irrefl 1)
  half _ := ⟨0, [], c, rfl, .nil, hc⟩
  unpaired _ := not_paired_half hc

theorem breaks_broken (hc : isDigit c = true) (hd : isDigit d = false) : Breaks (c :: d :: text) 1 where
  le_length := Nat.succ_le_succ (Nat.zero_le _)
  starts := starts_half hc
  breaks _ := fun ⟨_, _, hn⟩ => not_paired_broken hc hd hn
  half h := by cases h
  unpaired _ := not_paired_broken hc hd

/-! ## What is read -/

/-- The byte of two digits is written with the same digits in lower case. -/
theorem pair_of_value? {high low : Nat} (hc : value? c = some high) (hd : value? d = some low) :
    pair (UInt8.ofNat (16 * high + low)) = [c.toLower, d.toLower] := by
  obtain ⟨hhigh, hc⟩ := digit_of_value? hc
  obtain ⟨hlow, hd⟩ := digit_of_value? hd
  have hbyte : (UInt8.ofNat (16 * high + low)).toNat = 16 * high + low := by
    rw [UInt8.toNat_ofNat']
    exact Nat.mod_eq_of_lt (by omega)
  rw [pair, hbyte, ← hc, ← hd]
  congr 2
  · omega
  · congr 1
    omega

/-- What comes of reading a text whose first character has some index. -/
def Outcome (pos : Nat) (text : List Char) : Except Nat Bytes → Prop
  | .ok bytes => Paired bytes.length text ∧ encode bytes = condensed text
  | .error i => ∃ k, i = pos + k ∧ Breaks text k

theorem decodeFrom_outcome (pos : Nat) (text : List Char) : Outcome pos text (decodeFrom pos text) := by
  fun_induction decodeFrom pos text with
  | case1 pos => exact ⟨.nil, rfl⟩
  | case2 pos c rest hc ih =>
    -- blank
    cases hread : decodeFrom (pos + 1) rest with
    | ok bytes =>
      rw [hread] at ih
      exact ⟨.blank hc ih.1, by simpa [condensed, hc] using ih.2⟩
    | error i =>
      rw [hread] at ih
      obtain ⟨k, rfl, hk⟩ := ih
      exact ⟨k + 1, by omega, hk.blank hc⟩
  | case3 pos c rest hblank hc =>
    exact ⟨0, rfl, breaks_stray (by simpa using hblank) (by simp [isDigit, hc])⟩
  | case4 pos c hblank high hc => exact ⟨1, rfl, breaks_half (by simp [isDigit, hc])⟩
  | case5 pos c hblank high d rest hc hd =>
    exact ⟨1, rfl, breaks_broken (by simp [isDigit, hc]) (by simp [isDigit, hd])⟩
  | case6 pos c hblank high d rest hc low hd ih =>
    have hc' : isDigit c = true := by simp [isDigit, hc]
    have hd' : isDigit d = true := by simp [isDigit, hd]
    cases hread : decodeFrom (pos + 2) rest with
    | ok bytes =>
      rw [hread] at ih
      refine ⟨.pair hc' hd' ih.1, ?_⟩
      have hrest : bytes.flatMap pair = condensed rest := ih.2
      rw [encode, List.flatMap_cons, hrest, pair_of_value? hc hd]
      simp [condensed, isBlank_of_isDigit hc', isBlank_of_isDigit hd']
    | error i =>
      rw [hread] at ih
      obtain ⟨k, rfl, hk⟩ := ih
      exact ⟨k + 2, by omega, hk.pair hc' hd'⟩

end Hex
end RemoteCache
