import RemoteCache.Proofs.Number.Decimals
import RemoteCache.Proofs.Yaml.Nested
import Mathlib.Algebra.Group.Nat.Defs
import Mathlib.Data.List.Induction

/-!
# Integers in documents

An integer that is written with nothing but a minus and its digits is the value of this text in a document, as long as
it has no more digits than are read at all (`read_integer`).
-/

namespace RemoteCache

open Validation (minus)

/-! ## The digits of an integer -/

namespace Digits

theorem natOf_lt_pow {cs : List Char} (hcs : ∀ c ∈ cs, c.isDigit = true) : natOf cs < 10 ^ cs.length := by
  induction cs using List.reverseRecOn with
  | nil => exact Nat.one_pos
  | append_singleton cs c ih =>
    have hlast : natOf (cs ++ [c]) = 10 * natOf cs + (c.toNat - 48) := by simp [natOf]
    have hlt := ih fun d hd => hcs d (List.mem_append_left _ hd)
    have hc := toNat_of_isDigit (hcs c (by simp))
    rw [hlast, List.length_append, List.length_singleton, Nat.pow_succ]
    omega

/-- A number needs no more digits than it is written with. -/
theorem length_digitsOf_natOf {cs : List Char} (hne : cs ≠ []) (hcs : ∀ c ∈ cs, c.isDigit = true) :
    (digitsOf (natOf cs)).length ≤ cs.length :=
  (Nat.length_toDigits_le_iff (by decide) (List.length_pos_iff.2 hne)).2 (natOf_lt_pow hcs)

/-- A number is written without zeros in front. -/
theorem head?_digitsOf (n : Nat) : digitsOf n = ['0'] ∨ ∀ c ∈ (digitsOf n).head?, c ≠ '0' := by
  by_cases hn : n = 0
  · subst hn
    exact .inl (Nat.toDigits_zero 10)
  · refine .inr ?_
    induction n using Nat.strongRecOn with
    | _ n ih =>
      rw [digitsOf, Nat.toDigits_eq_if (by decide)]
      by_cases hlt : n < 10
      · simpa [hlt] using hn
      · have hhead := ih (n / 10) (by omega) (by omega)
        have hne : digitsOf (n / 10) ≠ [] := Nat.toDigits_ne_nil
        obtain ⟨c, rest, hdigits⟩ := List.exists_cons_of_ne_nil hne
        rw [hdigits] at hhead
        rw [digitsOf] at hdigits
        rw [if_neg hlt, hdigits]
        exact hhead

theorem toList_toString (n : Int) : (toString n).toList = minus (n < 0) ++ digitsOf n.natAbs := by
  cases n with
  | ofNat m => simp [Int.repr, minus, digitsOf]
  | negSucc m => simp [Int.repr, minus, digitsOf]

theorem signed_natAbs (n : Int) : signed (n < 0) n.natAbs = n := by
  by_cases h : n < 0
  · rw [decide_eq_true h, signed, if_pos rfl]
    omega
  · rw [decide_eq_false h, signed, if_neg Bool.false_ne_true]
    omega

end Digits

namespace Yaml

variable {cs : List Char} {c : Char}

/-! ## Characters -/

theorem isPlainChar_of_isDigit (hc : c.isDigit = true) : IsPlainChar c := by
  have hrange := toNat_of_isDigit hc
  refine ⟨?_, ?_, ne_of_isDigit hc (by decide), by omega⟩
  · simp [isAllowed]
    omega
  · have hspace : c ≠ ' ' := ne_of_isDigit hc (by decide)
    have htab : c ≠ '\t' := ne_of_isDigit hc (by decide)
    have hfeed : c ≠ '\n' := ne_of_isDigit hc (by decide)
    simp [isGapChar, isBlank, isBreak, hspace, htab, hfeed]
    omega

theorem isPlainChar_hyphen : IsPlainChar '-' := ⟨by decide, by decide, by decide, by decide⟩

theorem isPlainChar_of_mem (negative : Bool) (hcs : ∀ c ∈ cs, c.isDigit = true) :
    ∀ c ∈ minus negative ++ cs, IsPlainChar c := by
  intro c hc
  rcases List.mem_append.1 hc with hminus | hdigit
  · cases negative <;> simp [minus] at hminus
    exact hminus ▸ isPlainChar_hyphen
  · exact isPlainChar_of_isDigit (hcs c hdigit)

theorem startsText_minus (negative : Bool) (hne : cs ≠ []) (hcs : ∀ c ∈ cs, c.isDigit = true) (rest : List Char) :
    Reading.StartsText (minus negative ++ cs ++ rest) := by
  obtain ⟨c, more, rfl⟩ := List.exists_cons_of_ne_nil hne
  have hc := hcs c List.mem_cons_self
  have hplain := isPlainChar_of_isDigit hc
  have hgap := hplain.noGap
  have hbreak := hplain.isInner.1
  cases negative with
  | true => exact ⟨⟨by decide, by decide, rfl⟩, .inr ⟨rfl, hgap⟩⟩
  | false =>
    refine ⟨⟨ne_of_isDigit hc (by decide), ne_of_isDigit hc (by decide), hbreak⟩, .inl ⟨hgap, ?_⟩⟩
    have hsigns : ('.' :: Reading.signs).all (!·.isDigit) = true := by decide
    have hnot : c ∉ '.' :: Reading.signs := fun hmem => by
      have hsign := List.all_eq_true.1 hsigns c hmem
      rw [hc] at hsign
      cases hsign
    simpa [Reading.isSign, and_comm] using hnot

theorem splitSign_minus (negative : Bool) (hcs : ∀ c ∈ cs, c.isDigit = true) :
    Digits.splitSign (minus negative ++ cs) = (negative, cs) := by
  cases negative with
  | true => rfl
  | false => exact Digits.splitSign_of_digits hcs

/-! ## Tags -/

/-- The words with a meaning of their own have no digits. -/
theorem not_isDigit_of_word {word : String} (hword : word ∈ Tag.boolWords ++ Tag.nullWords ++ ["<<", "="]) :
    ∀ c ∈ word.toList, c.isDigit = false := by
  have hall : (Tag.boolWords ++ Tag.nullWords ++ ["<<", "="]).all (·.toList.all (!·.isDigit)) = true := by
    decide +kernel
  intro c hc
  simpa using List.all_eq_true.1 (List.all_eq_true.1 hall word hword) c hc

theorem isReal_of_digits (negative : Bool) (hcs : ∀ c ∈ cs, c.isDigit = true) :
    Tag.isReal (minus negative ++ cs) = false := by
  have hbody : (Digits.splitSign (minus negative ++ cs)).2 = cs := congrArg Prod.snd (splitSign_minus negative hcs)
  have hdrop : cs.dropWhile (· ≠ '.') = [] := by
    rw [List.dropWhile_eq_nil_iff]
    exact fun c hc => decide_eq_true (ne_of_isDigit (hcs c hc) (by decide))
  simp only [Tag.isReal, hbody, hdrop]

theorem isInteger_of_digits (negative : Bool) (hne : cs ≠ []) (hcs : ∀ c ∈ cs, c.isDigit = true)
    (hplain : cs = ['0'] ∨ ∀ c ∈ cs.head?, c ≠ '0') : Tag.isInteger (minus negative ++ cs) = true := by
  have hbody : (Digits.splitSign (minus negative ++ cs)).2 = cs := congrArg Prod.snd (splitSign_minus negative hcs)
  unfold Tag.isInteger
  rw [hbody]
  rcases hplain with rfl | hhead
  · rfl
  · have hall : cs.all Tag.isDigitOrGap = true :=
      List.all_eq_true.2 fun d hd => by simp [Tag.isDigitOrGap, hcs d hd]
    have hfirst : cs.head?.any Char.isDigit = true := by
      obtain ⟨c, rest, rfl⟩ := List.exists_cons_of_ne_nil hne
      exact hcs c List.mem_cons_self
    split
    · exact absurd rfl (hhead '0' rfl)
    · exact absurd rfl (hhead '0' rfl)
    · exact absurd rfl (hhead '0' rfl)
    · simp [Tag.isNumber, hfirst, hall]

theorem ofPlain_integer (negative : Bool) (hne : cs ≠ []) (hcs : ∀ c ∈ cs, c.isDigit = true)
    (hplain : cs = ['0'] ∨ ∀ c ∈ cs.head?, c ≠ '0') : Tag.ofPlain (minus negative ++ cs) = .int := by
  have hinteger := isInteger_of_digits negative hne hcs hplain
  obtain ⟨c, rest, rfl⟩ := List.exists_cons_of_ne_nil hne
  have hword : String.ofList (minus negative ++ c :: rest) ∉ Tag.boolWords ++ Tag.nullWords ++ ["<<", "="] := by
    intro hmem
    have hnot := not_isDigit_of_word hmem c (by simp)
    rw [hcs c List.mem_cons_self] at hnot
    cases hnot
  have hlast : (minus negative ++ c :: rest).getLast? ≠ some '\n' := by
    intro heq
    have hlast : (c :: rest).getLast? = some '\n' := by simpa [List.getLast?_append] using heq
    exact absurd (hcs '\n' (List.mem_of_getLast? hlast)) (by decide)
  have hempty : minus negative ++ c :: rest ≠ [] := by simp
  simp only [List.mem_append, List.mem_cons, List.not_mem_nil, or_false, not_or] at hword
  obtain ⟨⟨hbool, hnull⟩, hmerge, hcontent⟩ := hword
  simp only [Tag.ofPlain, if_neg hlast, if_neg hempty, if_neg hbool, if_neg hnull, if_neg hmerge, if_neg hcontent,
    isReal_of_digits negative hcs, hinteger, Bool.false_eq_true, if_false, if_true]

/-! ## Values -/

theorem toAscii_of_isDigit (hc : c.isDigit = true) : Text.Numeral.toAscii c = c := by
  have hrange := toNat_of_isDigit hc
  have hnoughts : Text.Numeral.noughts = 0x30 :: Text.Numeral.noughts.tail := rfl
  have hvalue : Text.Numeral.value? c = some (c.toNat - 48) := by
    rw [Text.Numeral.value?, hnoughts, List.find?_cons_of_pos (by simp; omega)]
    rfl
  have hnat : 48 + (c.toNat - 48) = c.toNat := by omega
  rw [Text.Numeral.toAscii, hvalue]
  simp [hnat]

theorem ofText_digits (hne : cs ≠ []) (hcs : ∀ c ∈ cs, c.isDigit = true) (hlength : cs.length ≤ Digits.limit) :
    Integer.ofText 10 cs = .ok (Digits.natOf cs : Nat) := by
  have htrim : Text.trim Text.isBlank ([] ++ cs ++ []) = cs :=
    Validation.trim_between (List.forall_mem_nil _) (List.forall_mem_nil _) hne
      (fun c hc => Validation.not_isBlank_of_isDigit (hcs c (List.mem_of_head? hc)))
      (fun c hc => Validation.not_isBlank_of_isDigit (hcs c (List.mem_of_getLast? hc)))
  have hascii : cs.map Text.Numeral.toAscii = cs :=
    (List.map_congr_left fun c hc => toAscii_of_isDigit (hcs c hc)).trans (List.map_id cs)
  rw [List.nil_append, List.append_nil] at htrim
  rw [Integer.ofText, htrim, hascii, Integer.read_of_digits hne hcs hlength]
  rfl

theorem integerSize_digits (hne : cs ≠ []) (hcs : ∀ c ∈ cs, c.isDigit = true)
    (hplain : cs = ['0'] ∨ ∀ c ∈ cs.head?, c ≠ '0') (hlength : cs.length ≤ Digits.limit) :
    Leaf.integerSize cs = .ok (Digits.natOf cs : Nat) := by
  rcases hplain with rfl | hhead
  · rfl
  · have hcolon : ':' ∉ cs := fun hmem => absurd (hcs ':' hmem) (by decide)
    unfold Leaf.integerSize
    split
    · exact absurd rfl hne
    · exact absurd rfl (hhead '0' rfl)
    · exact absurd rfl (hhead '0' rfl)
    · exact absurd rfl (hhead '0' rfl)
    · exact absurd rfl (hhead '0' rfl)
    · rw [if_neg hcolon, ofText_digits hne hcs hlength]
      rfl

theorem integer_digits (negative : Bool) (hne : cs ≠ []) (hcs : ∀ c ∈ cs, c.isDigit = true)
    (hplain : cs = ['0'] ∨ ∀ c ∈ cs.head?, c ≠ '0') (hlength : cs.length ≤ Digits.limit) :
    Leaf.integer (minus negative ++ cs) = .ok (.int (Digits.signed negative (Digits.natOf cs))) := by
  have hungroup : Digits.ungroup (minus negative ++ cs) = minus negative ++ cs := by
    refine Digits.ungroup_of_digits fun c hc => ?_
    rcases List.mem_append.1 hc with hminus | hdigit
    · cases negative <;> simp [minus] at hminus
      rw [hminus]
      decide
    · exact ne_of_isDigit (hcs c hdigit) (by decide)
  rw [Leaf.integer, hungroup, splitSign_minus negative hcs]
  dsimp only
  rw [integerSize_digits hne hcs hplain hlength]
  rfl

/-- **An integer is read from a document that has nothing but it behind three nested keys.** -/
theorem read_integer {a b c : List Char} (ha : IsTextKey a) (hb : IsTextKey b) (hc : IsTextKey c) {n : Int}
    (hlength : (Digits.digitsOf n.natAbs).length ≤ Digits.limit) :
    read (String.ofList (nested a b c (toString n).toList)) =
      .ok (.dict [(.text (String.ofList a), .dict [(.text (String.ofList b),
        .dict [(.text (String.ofList c), .int n)])])]) := by
  have hdigits (c : Char) (hc : c ∈ Digits.digitsOf n.natAbs) : c.isDigit = true := Digits.isDigit_of_mem_digitsOf hc
  have hne : Digits.digitsOf n.natAbs ≠ [] := Nat.toDigits_ne_nil
  have hplain := Digits.head?_digitsOf n.natAbs
  have hread : Leaf.read .int (.ofChars (minus (n < 0) ++ Digits.digitsOf n.natAbs)) = .ok (.int n) := by
    simp only [Leaf.read, Text.Points.chars?_ofChars, Leaf.ofChars]
    rw [integer_digits _ hne hdigits hplain hlength, Digits.natOf_digitsOf, Digits.signed_natAbs]
  rw [Digits.toList_toString]
  exact read_nested ha hb hc (isPlainChar_of_mem _ hdigits) (startsText_minus _ hne hdigits _) (by simp [hne])
    (ofPlain_integer _ hne hdigits hplain) hread

end Yaml
end RemoteCache
