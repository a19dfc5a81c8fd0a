import RemoteCache.Proofs.Text.Utf8
import RemoteCache.Resp

/-!
# Numbers in the protocol

A number is written with decimal digits, each in a byte of its own. What is read from these bytes is the number again
(`integerOf_toString`), unless it has more digits than are read at all.
-/

namespace RemoteCache

/-! ## Bytes of a text -/

theorem Resp.ascii_append (s t : String) : ascii (s ++ t) = ascii s ++ ascii t := by
  show (s ++ t).toByteArray.toList = s.toByteArray.toList ++ t.toByteArray.toList
  simp [toList_eq]

theorem ascii_ofList {cs : List Char} (hcs : ∀ c ∈ cs, c.toNat < 128) :
    Resp.ascii (String.ofList cs) = cs.map fun c => c.val.toUInt8 :=
  Text.Utf8.encode_ascii hcs

/-! ## Digits -/

namespace Digits

variable {cs : List Char}

theorem isGrouped_of_digits {isDigit : Char → Bool} (hnone : isDigit '_' = false) (hne : cs ≠ [])
    (hcs : ∀ c ∈ cs, isDigit c = true) : isGrouped isDigit cs = true := by
  induction cs with
  | nil => exact absurd rfl hne
  | cons c cs ih =>
    have hc : isDigit c = true := hcs c List.mem_cons_self
    cases cs with
    | nil => exact hc
    | cons d rest =>
      have hrest : isGrouped isDigit (d :: rest) = true :=
        ih (List.cons_ne_nil d rest) fun e he => hcs e (List.mem_cons_of_mem c he)
      have hd : d ≠ '_' := by
        intro heq
        have hdigit := hcs d (by simp)
        rw [heq, hnone] at hdigit
        cases hdigit
      rw [isGrouped, hc, hrest, Bool.and_self]
      · exact nofun
      · intro more heq
        exact hd (List.cons.inj heq).1

theorem ungroup_of_digits (hcs : ∀ c ∈ cs, c ≠ '_') : ungroup cs = cs := by
  rw [ungroup, List.filter_eq_self]
  simpa using hcs

/-- Digits have no sign. -/
theorem splitSign_of_digits (hcs : ∀ c ∈ cs, c.isDigit = true) : splitSign cs = (false, cs) := by
  unfold splitSign
  split
  · exact absurd (hcs '-' List.mem_cons_self) (by decide)
  · exact absurd (hcs '+' List.mem_cons_self) (by decide)
  · rfl

theorem isDigit_of_mem_digitsOf {n : Nat} {c : Char} (hc : c ∈ digitsOf n) : c.isDigit = true :=
  Nat.isDigit_of_mem_toDigits (by decide) (by decide) hc

theorem natOf_digitsOf (n : Nat) : natOf (digitsOf n) = n := Nat.ofDigitChars_toDigits (by decide) (by decide)

end Digits

section

variable {cs : List Char} {c : Char}

theorem toNat_of_isDigit (hc : c.isDigit = true) : 48 ≤ c.toNat ∧ c.toNat ≤ 57 := by
  simpa [Char.isDigit, UInt32.le_iff_toNat_le] using hc

theorem ne_of_isDigit {d : Char} (hc : c.isDigit = true) (hd : d.isDigit = false) : c ≠ d := by
  intro heq
  rw [heq, hd] at hc
  cases hc

theorem value_eq (hc : c.isDigit = true) : Hex.value? c = some (c.toNat - 48) := by
  rw [Hex.value?, if_pos]
  simpa [Char.isDigit, Char.le_def] using hc

namespace Integer

theorem isDigit_of_isDigit (hc : c.isDigit = true) : isDigit 10 c = true := by
  have hrange := toNat_of_isDigit hc
  simp only [isDigit, value_eq hc, Option.any_some, decide_eq_true_eq]
  omega

theorem natOf_eq (hcs : ∀ c ∈ cs, c.isDigit = true) : natOf 10 cs = Nat.ofDigitChars 10 cs 0 := by
  have hfold (n : Nat) : cs.foldl (fun n c => 10 * n + (Hex.value? c).getD 0) n = Nat.ofDigitChars 10 cs n := by
    induction cs generalizing n with
    | nil => rfl
    | cons c cs ih =>
      rw [List.foldl_cons, ih fun d hd => hcs d (List.mem_cons_of_mem c hd), value_eq (hcs c List.mem_cons_self)]
      rfl
  exact hfold 0

/-- Digits alone are read as the number that they stand for. -/
theorem read_of_digits (hne : cs ≠ []) (hcs : ∀ c ∈ cs, c.isDigit = true) (hlength : cs.length ≤ Digits.limit) :
    read 10 cs = .ok (Nat.ofDigitChars 10 cs 0 : Nat) := by
  have hsign : Digits.splitSign cs = (false, cs) := Digits.splitSign_of_digits hcs
  have hmark : dropMark 10 cs = cs := by
    unfold dropMark
    split
    · rw [if_neg (by simp [markOf?])]
    · rfl
  have hrun : cs.takeWhile (fun c => c = '_' || isDigit 10 c) = cs := by
    have hall : ∀ c ∈ cs, (c = '_' || isDigit 10 c) = true := fun c hc => by simp [isDigit_of_isDigit (hcs c hc)]
    have htake : (cs ++ []).takeWhile (fun c => c = '_' || isDigit 10 c) = cs ++ [] :=
      List.takeWhile_append_of_pos hall
    rwa [List.append_nil] at htake
  have hungroup : Digits.ungroup cs = cs := Digits.ungroup_of_digits fun c hc => ne_of_isDigit (hcs c hc) (by decide)
  have hgrouped : Digits.isGrouped (isDigit 10) cs = true :=
    Digits.isGrouped_of_digits (by decide) hne fun c hc => isDigit_of_isDigit (hcs c hc)
  unfold read
  simp only [hsign, hmark, hrun, hungroup, hgrouped]
  rw [if_neg (by simp), if_neg (by simp [isUnlimited]; omega), if_neg (Nat.lt_irrefl _), natOf_eq hcs]
  rfl

end Integer
end

/-! ## Numbers -/

namespace Resp

theorem ascii_of_isDigit {c : Char} (hc : c.isDigit = true) : c.toNat < 128 :=
  Nat.lt_of_le_of_lt (toNat_of_isDigit hc).2 (by decide)

theorem ascii_of_digits {cs : List Char} (hcs : ∀ c ∈ cs, c.isDigit = true) :
    ascii (String.ofList cs) = cs.map fun c => c.val.toUInt8 :=
  ascii_ofList fun c hc => ascii_of_isDigit (hcs c hc)

/-- The bytes of digits are read back one by one. -/
theorem characters_of_digits {cs : List Char} (hcs : ∀ c ∈ cs, c.isDigit = true) :
    (ascii (String.ofList cs)).map (fun b => Char.ofNat b.toNat) = cs := by
  rw [ascii_of_digits hcs, List.map_map]
  refine (List.map_congr_left fun c hc => ?_).trans (List.map_id cs)
  exact ofNat_toUInt8 (ascii_of_isDigit (hcs c hc))

theorem not_isBlank_of_isDigit {c : Char} (hc : c.isDigit = true) : Hex.isBlank c = false := by
  have hrange := toNat_of_isDigit hc
  have hreturn : ¬ c ≤ '\r' := by
    intro hle
    have hnat : c.toNat ≤ 13 := hle
    omega
  simp [Hex.isBlank, ne_of_isDigit (d := ' ') hc (by decide), hreturn]

theorem dropWhile_of_digits {cs : List Char} (hcs : ∀ c ∈ cs, c.isDigit = true) : cs.dropWhile Hex.isBlank = cs := by
  cases cs with
  | nil => rfl
  | cons c cs => rw [List.dropWhile_cons_of_neg (by simp [not_isBlank_of_isDigit (hcs c List.mem_cons_self)])]

theorem trim_of_digits {cs : List Char} (hcs : ∀ c ∈ cs, c.isDigit = true) : Text.trim Hex.isBlank cs = cs := by
  rw [Text.trim, dropWhile_of_digits hcs, dropWhile_of_digits (by simpa using hcs), List.reverse_reverse]

/-- **A number is read from its digits.** -/
theorem integerOf_toString {n : Nat} (hlength : (Nat.toDigits 10 n).length ≤ Digits.limit) :
    integerOf (ascii (toString n)) = .ok (n : Int) := by
  have hdigits (c : Char) (hc : c ∈ Nat.toDigits 10 n) : c.isDigit = true :=
    Nat.isDigit_of_mem_toDigits (by decide) (by decide) hc
  rw [integerOf, Integer.ofBytes, Nat.toString_eq_ofList_toDigits, characters_of_digits hdigits,
    trim_of_digits hdigits, Integer.read_of_digits (by simp) hdigits hlength,
    Nat.ofDigitChars_toDigits (by decide) (by decide)]
  rfl

/-- A number is written with the bytes of digits. -/
theorem toNat_of_mem_toString {n : Nat} {b : UInt8} (hb : b ∈ ascii (toString n)) : 48 ≤ b.toNat ∧ b.toNat ≤ 57 := by
  have hdigits (c : Char) (hc : c ∈ Nat.toDigits 10 n) : c.isDigit = true :=
    Nat.isDigit_of_mem_toDigits (by decide) (by decide) hc
  rw [Nat.toString_eq_ofList_toDigits, ascii_of_digits hdigits, List.mem_map] at hb
  obtain ⟨c, hc, rfl⟩ := hb
  rw [toNat_toUInt8 (ascii_of_isDigit (hdigits c hc))]
  exact toNat_of_isDigit (hdigits c hc)

end Resp

end RemoteCache
