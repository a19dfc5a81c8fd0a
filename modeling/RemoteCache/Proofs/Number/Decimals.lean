import RemoteCache.Proofs.Endpoint.Parts
import RemoteCache.Proofs.Resp.Numbers
import RemoteCache.Validation
import Mathlib.Data.List.TakeWhile

/-!
# Integers written in decimal

A decimal text has blanks around it, a sign, digits with single underscores between them, and a fraction of zeros, of
which only the digits must be there (`Decimal`). Reading takes these off one after the other: blanks, the sign, zeros
in front, the fraction and the underscores. What is left are the digits, behind a minus if there was one, and these are
the integer that the text is for (`integerOfText_decimal`).
-/

namespace RemoteCache.Validation

/-! ## Grouped digits -/

/-- Digits with single underscores between them. -/
inductive Grouped : List Char → Prop
  | last {c : Char} : c.isDigit = true → Grouped [c]
  | next {c : Char} {cs : List Char} : c.isDigit = true → Grouped cs → Grouped (c :: cs)
  | gap {c : Char} {cs : List Char} : c.isDigit = true → Grouped cs → Grouped (c :: '_' :: cs)

variable {cs before after : List Char} {c : Char}

theorem Grouped.exists_cons (h : Grouped cs) : ∃ c rest, cs = c :: rest ∧ c.isDigit = true := by
  cases h with
  | last hc | next hc _ | gap hc _ => exact ⟨_, _, rfl, hc⟩

theorem Grouped.mem (h : Grouped cs) : ∀ c ∈ cs, c.isDigit = true ∨ c = '_' := by
  induction h with
  | last hc => simpa using .inl hc
  | next hc _ ih => exact List.forall_mem_cons.2 ⟨.inl hc, ih⟩
  | gap hc _ ih => exact List.forall_mem_cons.2 ⟨.inl hc, List.forall_mem_cons.2 ⟨.inr rfl, ih⟩⟩

theorem Grouped.getLast? (h : Grouped cs) : ∃ c, cs.getLast? = some c ∧ c.isDigit = true := by
  induction h with
  | last hc => exact ⟨_, rfl, hc⟩
  | next _ _ ih | gap _ _ ih =>
    obtain ⟨d, hd, hdigit⟩ := ih
    exact ⟨d, by simp [List.getLast?_cons, hd], hdigit⟩

/-- What starts with a digit and ends grouped digits is grouped. -/
theorem Grouped.suffix (h : Grouped (before ++ c :: after)) (hc : c.isDigit = true) : Grouped (c :: after) := by
  generalize hcs : before ++ c :: after = cs at h
  induction h generalizing before with
  | last hd =>
    cases before with
    | nil =>
      cases hcs
      exact .last hc
    | cons _ before => simp at hcs
  | next hd hgrouped ih =>
    cases before with
    | nil =>
      cases hcs
      exact .next hc hgrouped
    | cons _ before => exact ih (List.cons.inj hcs).2
  | gap hd hgrouped ih =>
    cases before with
    | nil =>
      cases hcs
      exact .gap hc hgrouped
    | cons _ before =>
      cases before with
      | nil =>
        have hgap : c = '_' := (List.cons.inj (List.cons.inj hcs).2).1
        rw [hgap] at hc
        cases hc
      | cons _ before => exact ih (List.cons.inj (List.cons.inj hcs).2).2

theorem hasDoubleGap_cons (hc : c ≠ '_') (cs : List Char) : hasDoubleGap (c :: cs) = hasDoubleGap cs := by
  rw [hasDoubleGap]
  exact fun _ heq _ => hc heq

theorem hasDoubleGap_gap (hc : c ≠ '_') (cs : List Char) : hasDoubleGap ('_' :: c :: cs) = hasDoubleGap (c :: cs) := by
  rw [hasDoubleGap]
  exact fun _ _ heq => hc (List.cons.inj heq).1

theorem Grouped.hasDoubleGap (h : Grouped cs) : hasDoubleGap cs = false := by
  induction h with
  | last hc => rw [hasDoubleGap_cons (ne_of_isDigit hc (by decide))]; rfl
  | next hc _ ih => rw [hasDoubleGap_cons (ne_of_isDigit hc (by decide)), ih]
  | gap hc hgrouped ih =>
    obtain ⟨d, rest, rfl, hd⟩ := hgrouped.exists_cons
    rw [hasDoubleGap_cons (ne_of_isDigit hc (by decide)), hasDoubleGap_gap (ne_of_isDigit hd (by decide)), ih]

theorem Grouped.dropGaps (h : Grouped cs) : dropGaps cs = Digits.ungroup cs := by
  obtain ⟨c, rest, rfl, hc⟩ := h.exists_cons
  obtain ⟨d, hlast, hd⟩ := h.getLast?
  have hc' : c ≠ '_' := ne_of_isDigit hc (by decide)
  have hd' : d ≠ '_' := ne_of_isDigit hd (by decide)
  simp [Validation.dropGaps, hlast, h.hasDoubleGap, hc', hd']

theorem Grouped.isDigit_of_mem_ungroup (h : Grouped cs) : ∀ c ∈ Digits.ungroup cs, c.isDigit = true := by
  intro c hc
  have hmem := List.mem_filter.1 hc
  rcases h.mem c hmem.1 with hdigit | rfl
  · exact hdigit
  · simp at hmem

theorem ungroup_cons (hc : c.isDigit = true) (cs : List Char) :
    Digits.ungroup (c :: cs) = c :: Digits.ungroup cs := by
  have hgap : c ≠ '_' := ne_of_isDigit hc (by decide)
  simp [Digits.ungroup, hgap]

/-! ## Blanks and signs -/

/-- What stands between blanks is left if it starts and ends with none. -/
theorem trim_between {p : Char → Bool} {core : List Char} (hbefore : ∀ c ∈ before, p c = true)
    (hafter : ∀ c ∈ after, p c = true) (hne : core ≠ []) (hhead : ∀ c ∈ core.head?, p c = false)
    (hlast : ∀ c ∈ core.getLast?, p c = false) : Text.trim p (before ++ core ++ after) = core := by
  have hfront : (before ++ core ++ after).dropWhile p = core ++ after := by
    rw [List.append_assoc]
    refine dropWhile_part hbefore ?_
    obtain ⟨c, rest, rfl⟩ := List.exists_cons_of_ne_nil hne
    exact hhead
  rw [Text.trim, hfront, List.reverse_append, dropWhile_part (by simpa using hafter) (by simpa using hlast),
    List.reverse_reverse]

theorem not_isBlank_of_isDigit (hc : c.isDigit = true) : Text.isBlank c = false := by
  have hrange := toNat_of_isDigit hc
  simp [Text.isBlank, Text.blankRanges, Text.Ranges.has]
  omega

/-! ## Zeros in front -/

/-- Zeros and the underscores between them. -/
def isPadding (c : Char) : Bool := c = '0' || c = '_'

/-- Grouped digits without the zeros in front, of which one is kept if there is nothing else. -/
def unpadded (cs : List Char) : List Char :=
  match cs.dropWhile isPadding with
  | [] => ['0']
  | c :: rest => c :: rest

theorem startsNumber_of_isDigit (hc : c.isDigit = true) (hzero : c ≠ '0') : '1' ≤ c ∧ c ≤ '9' := by
  have hrange := toNat_of_isDigit hc
  have hne : c.toNat ≠ 48 := fun heq => hzero (Char.toNat_inj.1 heq)
  constructor
  · show 49 ≤ c.toNat
    omega
  · show c.toNat ≤ 57
    omega

/-- A fraction of zeros, or nothing. -/
def IsFraction (cs : List Char) : Prop := cs = [] ∨ ∃ k, cs = '.' :: List.replicate (k + 1) '0'

theorem IsFraction.head? (h : IsFraction cs) : ∀ c ∈ cs.head?, c = '.' := by
  rcases h with rfl | ⟨k, rfl⟩ <;> simp

theorem isDigit_of_not_isPadding (h : Grouped cs) (hc : c ∈ cs) (hpadding : isPadding c = false) :
    c.isDigit = true ∧ c ≠ '0' := by
  simp only [isPadding, Bool.or_eq_false_iff, decide_eq_false_iff_not] at hpadding
  exact ⟨(h.mem c hc).resolve_right hpadding.2, hpadding.1⟩

/-- Digits that are zeros end in a zero. -/
theorem Grouped.drop_of_isPadding (h : Grouped cs) (hcs : ∀ c ∈ cs, isPadding c = true) :
    cs.drop (cs.length - 1) = ['0'] := by
  obtain ⟨c, hlast, hc⟩ := h.getLast?
  have hzero : c = '0' := by
    have hpadding := hcs c (List.mem_of_getLast? hlast)
    simp only [isPadding, Bool.or_eq_true, decide_eq_true_eq] at hpadding
    exact hpadding.resolve_right (ne_of_isDigit hc (by decide))
  obtain ⟨before, rfl⟩ := List.getLast?_eq_some_iff.1 hlast
  simp [hzero]

/-- What is left behind all elements of a class starts with none of them. -/
theorem head?_dropWhile (p : Char → Bool) (cs : List Char) : ∀ c ∈ (cs.dropWhile p).head?, p c = false := by
  intro c hc
  have hnot := List.head?_dropWhile_not p cs
  rwa [Option.mem_def.1 hc] at hnot

theorem dropZeros?_grouped {fraction : List Char} (h : Grouped cs) (hfraction : IsFraction fraction) :
    dropZeros? (cs ++ fraction) = some (unpadded cs ++ fraction) := by
  obtain ⟨c, rest, rfl, hc⟩ := h.exists_cons
  by_cases hzero : c = '0'
  · subst hzero
    -- The zeros in front end where `more` starts.
    obtain ⟨zeros, more, hrest, hzeros, hmore⟩ : ∃ zeros more, rest = zeros ++ more ∧
        (∀ c ∈ zeros, isPadding c = true) ∧ ∀ c ∈ more.head?, isPadding c = false :=
      ⟨_, _, rest.takeWhile_append_dropWhile.symm, fun _ => List.mem_takeWhile_imp, head?_dropWhile isPadding rest⟩
    subst hrest
    have hhead : ∀ c ∈ (more ++ fraction).head?, isPadding c = false := by
      cases more with
      | nil =>
        intro c hc
        rw [hfraction.head? c hc]
        rfl
      | cons d more => exact hmore
    have htake : (zeros ++ (more ++ fraction)).takeWhile (fun c => c = '0' || c = '_') = zeros :=
      takeWhile_part hzeros hhead
    have hfront : ∀ c ∈ '0' :: zeros, isPadding c = true := List.forall_mem_cons.2 ⟨rfl, hzeros⟩
    have hunpadded : ('0' :: zeros ++ more).dropWhile isPadding = more := dropWhile_part hfront hmore
    rw [← List.cons_append, unpadded, hunpadded, List.cons_append, List.cons_append, List.append_assoc]
    simp only [dropZeros?, htake]
    cases more with
    | nil =>
      have hlast := h.drop_of_isPadding (by simpa using ⟨rfl, hzeros⟩)
      simp at hlast
      rcases hfraction with rfl | ⟨k, rfl⟩ <;> simp [hlast]
    | cons d more =>
      obtain ⟨hdigit, hzero⟩ := isDigit_of_not_isPadding (c := d) h (by simp) (hmore d rfl)
      have hstarts := startsNumber_of_isDigit hdigit hzero
      -- The case of a point is ruled out by what is known of `d`.
      have hpoint : d ≠ '.' := ne_of_isDigit hdigit (by decide)
      simp [hstarts]
  · have hstarts := startsNumber_of_isDigit hc hzero
    have hgap : c ≠ '_' := ne_of_isDigit hc (by decide)
    have hunpadded : unpadded (c :: rest) = c :: rest := by simp [unpadded, isPadding, hzero, hgap]
    simp [dropZeros?, hunpadded, hstarts]

theorem Grouped.unpadded (h : Grouped cs) : Grouped (unpadded cs) := by
  have hhead := head?_dropWhile isPadding cs
  have hsplit : cs = cs.takeWhile isPadding ++ cs.dropWhile isPadding := cs.takeWhile_append_dropWhile.symm
  unfold Validation.unpadded
  cases hrest : cs.dropWhile isPadding with
  | nil => exact .last rfl
  | cons c rest =>
    rw [hrest] at hhead hsplit
    have hc : c ∈ cs := by
      rw [hsplit]
      simp
    rw [hsplit] at h
    exact h.suffix (isDigit_of_not_isPadding h (hsplit ▸ hc) (hhead c rfl)).1

/-- Digits that are not padded start with no zero, unless it is the only one. -/
theorem unpadded_eq (cs : List Char) : unpadded cs = ['0'] ∨ ∀ c ∈ (unpadded cs).head?, c ≠ '0' := by
  have hhead := head?_dropWhile isPadding cs
  unfold unpadded
  cases hrest : cs.dropWhile isPadding with
  | nil => exact .inl rfl
  | cons c rest =>
    refine .inr ?_
    rw [hrest] at hhead
    rintro _ ⟨⟩ rfl
    cases hhead _ rfl

theorem natOf_padding (hbefore : ∀ c ∈ before, isPadding c = true) :
    Digits.natOf (Digits.ungroup (before ++ cs)) = Digits.natOf (Digits.ungroup cs) := by
  induction before with
  | nil => rfl
  | cons c before ih =>
    obtain ⟨hc, hbefore⟩ := List.forall_mem_cons.1 hbefore
    rw [← ih hbefore]
    simp only [isPadding, Bool.or_eq_true, decide_eq_true_eq] at hc
    rcases hc with rfl | rfl <;> simp [Digits.ungroup, Digits.natOf]

theorem natOf_unpadded (cs : List Char) :
    Digits.natOf (Digits.ungroup (unpadded cs)) = Digits.natOf (Digits.ungroup cs) := by
  have hsplit : cs = cs.takeWhile isPadding ++ cs.dropWhile isPadding := cs.takeWhile_append_dropWhile.symm
  have hpadding : ∀ c ∈ cs.takeWhile isPadding, isPadding c = true := fun _ => List.mem_takeWhile_imp
  have hrest : Digits.natOf (Digits.ungroup (unpadded cs)) =
      Digits.natOf (Digits.ungroup (cs.dropWhile isPadding)) := by
    unfold unpadded
    cases cs.dropWhile isPadding <;> rfl
  rw [hrest, ← natOf_padding hpadding, ← hsplit]

theorem length_unpadded (h : cs ≠ []) : (unpadded cs).length ≤ cs.length := by
  have hlength : (cs.dropWhile isPadding).length ≤ cs.length := (List.dropWhile_sublist _).length_le
  have hpos : 0 < cs.length := List.length_pos_iff.2 h
  unfold unpadded
  cases hrest : cs.dropWhile isPadding with
  | nil => exact hpos
  | cons c rest => rwa [hrest] at hlength

/-! ## What is left -/

theorem dropZeroFraction_append {fraction : List Char} (hcs : ∀ c ∈ cs, c ≠ '.') (hfraction : IsFraction fraction) :
    dropZeroFraction (cs ++ fraction) = cs := by
  have hhead : ∀ c ∈ fraction.head?, decide (c ≠ '.') = false := by
    intro c hc
    simp [hfraction.head? c hc]
  have hpart : ∀ c ∈ cs, decide (c ≠ '.') = true := fun c hc => decide_eq_true (hcs c hc)
  unfold dropZeroFraction
  rw [dropWhile_part hpart hhead, takeWhile_part hpart hhead]
  rcases hfraction with rfl | ⟨k, rfl⟩
  · simp
  · simp [List.replicate_succ]

theorem takeWhile_of_digits (hcs : ∀ c ∈ cs, c.isDigit = true) : cs.takeWhile Char.isDigit = cs :=
  List.takeWhile_eq_self_iff.2 hcs

theorem takeMinus_minus (negative : Bool) (hc : c.isDigit = true) (cs : List Char) :
    takeMinus (minus negative ++ c :: cs) = (negative, c :: cs) := by
  cases negative with
  | true => rfl
  | false =>
    have hne : c ≠ '-' := ne_of_isDigit hc (by decide)
    simp [minus, takeMinus, hne]

theorem integerOfDigits_minus (negative : Bool) (hne : cs ≠ []) (hcs : ∀ c ∈ cs, c.isDigit = true) :
    integerOfDigits (minus negative ++ cs) =
      if cs.head? = some '0' ∧ cs ≠ ['0'] then .error .integerText
      else if Digits.limit < cs.length + (minus negative).length then .error .integerSize
      else .ok (Digits.signed negative (Digits.natOf cs)) := by
  have htake := takeWhile_of_digits hcs
  have hminus : takeMinus (minus negative ++ cs) = (negative, cs) := by
    obtain ⟨c, rest, rfl⟩ := List.exists_cons_of_ne_nil hne
    exact takeMinus_minus negative (hcs c List.mem_cons_self) rest
  simp [integerOfDigits, hminus, htake, hne, Nat.add_comm]

/-! ## Decimal texts -/

/-- A decimal text, in its parts. -/
structure Decimal where
  before : List Char
  sign : List Char
  digits : List Char
  fraction : List Char
  after : List Char
  blank_before : ∀ c ∈ before, Text.isBlank c = true
  sign_eq : sign = [] ∨ sign = ['+'] ∨ sign = ['-']
  grouped : Grouped digits
  isFraction : IsFraction fraction
  blank_after : ∀ c ∈ after, Text.isBlank c = true

namespace Decimal

variable (d : Decimal)

def chars : List Char := d.before ++ (d.sign ++ (d.digits ++ d.fraction)) ++ d.after

def text : String := String.ofList d.chars

def isNegative : Bool := d.sign = ['-']

/-- The integer that is written. -/
def value : Int := Digits.signed d.isNegative (Digits.natOf (Digits.ungroup d.digits))

end Decimal

variable {d : Decimal}

/-- The first character of a decimal text, and the last one, are no blanks. -/
theorem Decimal.trim_chars (d : Decimal) :
    Text.trim Text.isBlank d.chars = d.sign ++ (d.digits ++ d.fraction) := by
  obtain ⟨c, rest, hdigits, hc⟩ := d.grouped.exists_cons
  obtain ⟨e, hlast, he⟩ := d.grouped.getLast?
  refine trim_between d.blank_before d.blank_after (by simp [hdigits]) ?_ ?_
  · rcases d.sign_eq with h | h | h <;> simp [h, hdigits, not_isBlank_of_isDigit hc]
    · decide
    · decide
  · have hne : d.digits ≠ [] := by simp [hdigits]
    rcases d.isFraction with h | ⟨k, h⟩
    · simp [h, List.getLast?_append, hlast, not_isBlank_of_isDigit he]
    · have hreplicate : ('.' :: List.replicate (k + 1) '0').getLast? = some '0' := by
        simp [List.getLast?_cons, List.getLast?_replicate]
      simp [h, List.getLast?_append, hreplicate]
      decide

/-- A plus is dropped. -/
theorem Decimal.dropPlus_eq (d : Decimal) :
    dropPlus (d.sign ++ (d.digits ++ d.fraction)) = minus d.isNegative ++ (d.digits ++ d.fraction) := by
  obtain ⟨c, rest, hdigits, hc⟩ := d.grouped.exists_cons
  have hplus : c ≠ '+' := ne_of_isDigit hc (by decide)
  have hminus : c ≠ '-' := ne_of_isDigit hc (by decide)
  rcases d.sign_eq with h | h | h <;> simp [h, hdigits, Decimal.isNegative, minus, dropPlus, hminus, hplus]

/-- The digits that are read, behind a minus or nothing. -/
theorem Decimal.integerOfText_eq (d : Decimal) :
    integerOfText d.chars = integerOfDigits (minus d.isNegative ++ Digits.ungroup (unpadded d.digits)) := by
  have hpoint : ∀ c ∈ unpadded d.digits, c ≠ '.' := by
    intro c hc
    rcases d.grouped.unpadded.mem c hc with hdigit | rfl
    · exact ne_of_isDigit hdigit (by decide)
    · decide
  have hminus : takeMinus (minus d.isNegative ++ (d.digits ++ d.fraction)) =
      (d.isNegative, d.digits ++ d.fraction) := by
    obtain ⟨c, rest, hdigits, hc⟩ := d.grouped.exists_cons
    rw [hdigits]
    exact takeMinus_minus d.isNegative hc (rest ++ d.fraction)
  rw [integerOfText, d.trim_chars, d.dropPlus_eq, hminus]
  simp only [dropZeros?_grouped d.grouped d.isFraction, dropZeroFraction_append hpoint d.isFraction,
    d.grouped.unpadded.dropGaps]

theorem Grouped.ungroup_ne_nil (h : Grouped cs) : Digits.ungroup cs ≠ [] := by
  obtain ⟨c, rest, rfl, hc⟩ := h.exists_cons
  rw [ungroup_cons hc]
  exact List.cons_ne_nil _ _

/-- Digits are padded if they are with the underscores. -/
theorem Grouped.ungroup_padded (h : Grouped cs) :
    (Digits.ungroup cs).head? = some '0' ∧ Digits.ungroup cs ≠ ['0'] ↔ cs.head? = some '0' ∧ cs ≠ ['0'] := by
  obtain ⟨c, rest, rfl, hc⟩ := h.exists_cons
  have hnil : Digits.ungroup rest = [] ↔ rest = [] := by
    constructor
    · intro hrest
      cases h with
      | last _ => rfl
      | next _ hgrouped => exact absurd hrest hgrouped.ungroup_ne_nil
      | gap _ hgrouped =>
        refine absurd ?_ hgrouped.ungroup_ne_nil
        simpa [Digits.ungroup] using hrest
    · rintro rfl
      rfl
  rw [ungroup_cons hc]
  simp [hnil]

theorem length_ungroup (cs : List Char) : (Digits.ungroup cs).length ≤ cs.length := List.length_filter_le _ _

theorem Decimal.length_le_chars (d : Decimal) :
    (minus d.isNegative).length + d.digits.length ≤ d.chars.length := by
  have hsign : (minus d.isNegative).length ≤ d.sign.length := by
    rcases d.sign_eq with h | h | h <;> simp [Decimal.isNegative, minus, h]
  simp only [Decimal.chars, List.length_append]
  omega

/-- **A decimal text is read as the integer that is written.** -/
theorem integerOfText_decimal (hlength : d.chars.length ≤ Digits.limit) : integerOfText d.chars = .ok d.value := by
  have hdigits : d.digits ≠ [] := by
    obtain ⟨c, rest, h, -⟩ := d.grouped.exists_cons
    simp [h]
  have hgrouped := d.grouped.unpadded
  have hplain : ¬ ((unpadded d.digits).head? = some '0' ∧ unpadded d.digits ≠ ['0']) := by
    rintro ⟨hhead, hne⟩
    exact (unpadded_eq d.digits).elim hne fun h => h '0' hhead rfl
  have hfits : (Digits.ungroup (unpadded d.digits)).length + (minus d.isNegative).length ≤ Digits.limit := by
    have hchars := d.length_le_chars
    have hlong := length_ungroup (unpadded d.digits)
    have hshort := length_unpadded hdigits
    omega
  rw [d.integerOfText_eq, integerOfDigits_minus d.isNegative hgrouped.ungroup_ne_nil hgrouped.isDigit_of_mem_ungroup,
    if_neg (mt hgrouped.ungroup_padded.1 hplain), if_neg (by omega), natOf_unpadded, Decimal.value]

end RemoteCache.Validation
