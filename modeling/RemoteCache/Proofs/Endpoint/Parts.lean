import RemoteCache.Endpoint.Url

/-!
# The parts of a URL

A URL that is put together from a scheme, an authority and a rest falls into these parts again (`parse_assembled`), and
so does an authority that is put together from user information, a host and a port (`hostAndPort_assembled`). Each part
ends at the first or the last character that may not stand in it, so all that is needed is that none stands there.

A tab or the end of a line is dropped wherever it stands, so only the rest may hold any.
-/

namespace RemoteCache

/-! ## Where a part ends -/

section

variable {α : Type} {p : α → Bool} {part rest : List α}

/-- A part is all that comes before the first element that ends it. -/
theorem takeWhile_part (hpart : ∀ a ∈ part, p a = true) (hrest : ∀ a ∈ rest.head?, p a = false) :
    (part ++ rest).takeWhile p = part := by
  rw [List.takeWhile_append_of_pos hpart]
  cases rest with
  | nil => simp
  | cons a rest => simp [hrest a rfl]

theorem dropWhile_part (hpart : ∀ a ∈ part, p a = true) (hrest : ∀ a ∈ rest.head?, p a = false) :
    (part ++ rest).dropWhile p = rest := by
  rw [List.dropWhile_append_of_pos hpart]
  cases rest with
  | nil => rfl
  | cons a rest => simp [hrest a rfl]

end

/-! ## Characters -/

/-- A text of ASCII characters is brought to lower case character by character. -/
theorem Text.lower_ascii {cs : List Char} (hcs : ∀ c ∈ cs, c.toNat < 128) : lower cs = cs.map Char.toLower := by
  have hafter (before : List Char) : Case.lowerAfter before cs = cs.map Char.toLower := by
    induction cs generalizing before with
    | nil => rfl
    | cons c cs ih =>
      have hc : c.toNat < 128 := hcs c List.mem_cons_self
      have hsigma : c ≠ 'Σ' := by
        rintro rfl
        exact absurd hc (by decide)
      simp only [Case.lowerAfter, hsigma, hc, if_false, if_true]
      rw [ih fun d hd => hcs d (List.mem_cons_of_mem c hd)]
      rfl
  exact hafter []

/-- A character of a class is none that is not of the class. -/
theorem ne_of_class {p : Char → Bool} {c d : Char} (hc : p c = true) (hd : p d = false) : c ≠ d := by
  rintro rfl
  rw [hc] at hd
  cases hd

theorem isAlpha_of_toLower {c : Char} (hc : c.toLower.isAlpha = true) : c.isAlpha = true := by
  unfold Char.toLower at hc
  split at hc
  · next hrange =>
    have hupper : c.isUpper = true := decide_eq_true hrange
    exact Bool.or_eq_true_iff.2 (.inl hupper)
  · exact hc

/-- The codes of letters and digits. -/
theorem isAlphanum_iff {c : Char} : c.isAlphanum = true ↔
    65 ≤ c.toNat ∧ c.toNat ≤ 90 ∨ 97 ≤ c.toNat ∧ c.toNat ≤ 122 ∨ 48 ≤ c.toNat ∧ c.toNat ≤ 57 := by
  have hupper : c.isUpper = true ↔ 65 ≤ c.toNat ∧ c.toNat ≤ 90 := decide_eq_true_iff
  have hlower : c.isLower = true ↔ 97 ≤ c.toNat ∧ c.toNat ≤ 122 :=
    Bool.and_eq_true_iff.trans (and_congr decide_eq_true_iff decide_eq_true_iff)
  have hdigit : c.isDigit = true ↔ 48 ≤ c.toNat ∧ c.toNat ≤ 57 :=
    Bool.and_eq_true_iff.trans (and_congr decide_eq_true_iff decide_eq_true_iff)
  rw [← hupper, ← hlower, ← hdigit, ← or_assoc]
  show (c.isUpper || c.isLower || c.isDigit) = true ↔ _
  rw [Bool.or_eq_true_iff, Bool.or_eq_true_iff]

namespace Url

/-! ## Classes of characters -/

/-- Whether a character is not dropped. -/
def isKept (c : Char) : Bool := c ≠ '\t' && c ≠ '\r' && c ≠ '\n'

/-- The characters of an authority without brackets. -/
def isPlain (c : Char) : Bool := c.toNat < 128 && c ∉ ['/', '?', '#', '[', ']'] && isKept c

/-- The characters that stand for nothing but themselves wherever they are. -/
def isUnreserved (c : Char) : Bool := c.isAlphanum || c ∈ ['-', '.', '_', '~']

section

variable {c : Char}

/-- A class that none of the dropped characters is of. -/
theorem isKept_of_class {p : Char → Bool} (hp : ['\t', '\r', '\n'].any p = false) (hc : p c = true) :
    isKept c = true := by
  have hne {d : Char} (hd : d ∈ ['\t', '\r', '\n']) : c ≠ d :=
    ne_of_class hc (Bool.eq_false_iff.2 (List.any_eq_false.1 hp d hd))
  simp [isKept, hne]

theorem isKept_of_isPlain (hc : isPlain c = true) : isKept c = true := (Bool.and_eq_true _ _ ▸ hc).2

theorem ascii_of_isPlain (hc : isPlain c = true) : c.toNat < 128 := by
  simp only [isPlain, Bool.and_eq_true, decide_eq_true_eq] at hc
  exact hc.1.1

theorem endsAuthority_of_isPlain (hc : isPlain c = true) : endsAuthority c = false := by
  simp [endsAuthority, ne_of_class hc (d := '/') (by decide), ne_of_class hc (d := '?') (by decide),
    ne_of_class hc (d := '#') (by decide)]

theorem ascii_of_isUnreserved (hc : isUnreserved c = true) : c.toNat < 128 := by
  simp only [isUnreserved, Bool.or_eq_true, decide_eq_true_eq, isAlphanum_iff] at hc
  rcases hc with hc | hc
  · omega
  · have hcodes : ['-', '.', '_', '~'].all (·.toNat < 128) = true := by decide
    exact of_decide_eq_true (List.all_eq_true.1 hcodes c hc)

theorem isPlain_of_isUnreserved (hc : isUnreserved c = true) : isPlain c = true := by
  have hreserved : ['/', '?', '#', '[', ']'].any isUnreserved = false := by decide
  have hseparate : c ∉ ['/', '?', '#', '[', ']'] := fun hmem => List.any_eq_false.1 hreserved c hmem hc
  have hkept : isKept c = true := isKept_of_class (by decide) hc
  simp [isPlain, ascii_of_isUnreserved hc, hkept, hseparate]

/-- A letter is neither a control nor a space. -/
theorem not_le_space_of_isAlpha (hc : c.isAlpha = true) : ¬ c ≤ ' ' := by
  intro hle
  have hspace : c.toNat ≤ 32 := hle
  have hrange := isAlphanum_iff.1 (show c.isAlphanum = true by simp [Char.isAlphanum, hc])
  omega

theorem isUnreserved_of_isAlpha (hc : c.isAlpha = true) : isUnreserved c = true := by
  simp [isUnreserved, Char.isAlphanum, hc]

end

/-! ## The parts of a text -/

variable {scheme authority rest : List Char}

/-- A scheme made of letters. -/
structure IsWord (scheme : List Char) : Prop where
  ne_nil : scheme ≠ []
  isAlpha : ∀ c ∈ scheme, c.isAlpha = true

theorem clean_assembled (hscheme : IsWord scheme) (hauthority : ∀ c ∈ authority, isPlain c = true)
    (rest : List Char) : clean (scheme ++ ':' :: '/' :: '/' :: (authority ++ rest)) =
      scheme ++ ':' :: '/' :: '/' :: (authority ++ rest.filter isKept) := by
  have hscheme' : scheme.filter isKept = scheme := List.filter_eq_self.2 fun c hc =>
    isKept_of_isPlain (isPlain_of_isUnreserved (isUnreserved_of_isAlpha (hscheme.isAlpha c hc)))
  have hauthority' : authority.filter isKept = authority :=
    List.filter_eq_self.2 fun c hc => isKept_of_isPlain (hauthority c hc)
  obtain ⟨c, scheme, rfl⟩ := List.exists_cons_of_ne_nil hscheme.ne_nil
  have hfirst := not_le_space_of_isAlpha (hscheme.isAlpha c List.mem_cons_self)
  rw [clean, List.cons_append, List.dropWhile_cons_of_neg (by simpa using hfirst), ← List.cons_append]
  show List.filter isKept _ = _
  simp only [List.filter_append, hscheme', List.filter_cons, hauthority']
  rfl

theorem splitScheme_assembled (hscheme : IsWord scheme) (rest : List Char) :
    splitScheme (scheme ++ ':' :: rest) = (scheme.map Char.toLower, rest) := by
  have hcolon : ∀ c ∈ scheme, decide (c ≠ ':') = true := fun c hc => by
    simp [ne_of_class (d := ':') (hscheme.isAlpha c hc) (by decide)]
  have htake : (scheme ++ ':' :: rest).takeWhile (· ≠ ':') = scheme := takeWhile_part hcolon (by simp)
  have hdrop : (scheme ++ ':' :: rest).dropWhile (· ≠ ':') = ':' :: rest := dropWhile_part hcolon (by simp)
  have hall : scheme.all isSchemeChar = true :=
    List.all_eq_true.2 fun c hc => by simp [isSchemeChar, Char.isAlphanum, hscheme.isAlpha c hc]
  unfold splitScheme
  simp only [htake, hdrop]
  obtain ⟨c, scheme, rfl⟩ := List.exists_cons_of_ne_nil hscheme.ne_nil
  simp only [hscheme.isAlpha c List.mem_cons_self, hall, Bool.and_self, if_true]

theorem splitAuthority_assembled (hauthority : ∀ c ∈ authority, isPlain c = true)
    (hrest : ∀ c ∈ rest.head?, endsAuthority c = true) :
    splitAuthority ('/' :: '/' :: (authority ++ rest)) = (authority, rest) := by
  have hinside : ∀ c ∈ authority, (!endsAuthority c) = true := fun c hc => by
    simp [endsAuthority_of_isPlain (hauthority c hc)]
  have hends : ∀ c ∈ rest.head?, (!endsAuthority c) = false := fun c hc => by simp [hrest c hc]
  rw [splitAuthority, takeWhile_part hinside hends, dropWhile_part hinside hends]

theorem checkBrackets_of_isPlain (hauthority : ∀ c ∈ authority, isPlain c = true) :
    checkBrackets authority = .ok () := by
  have hopen : '[' ∉ authority := fun hmem => ne_of_class (hauthority _ hmem) (d := '[') (by decide) rfl
  have hclose : ']' ∉ authority := fun hmem => ne_of_class (hauthority _ hmem) (d := ']') (by decide) rfl
  simp [checkBrackets, hopen, hclose]

theorem checkCompatibility_of_isPlain (hauthority : ∀ c ∈ authority, isPlain c = true) :
    checkCompatibility authority = .ok () := by
  have hnone : (authority.any fun c => c.toNat ∈ compatibilitySeparators) = false := by
    rw [List.any_eq_false]
    intro c hc
    have hseparators : ∀ n ∈ compatibilitySeparators, 128 ≤ n := by decide
    simp only [decide_eq_true_eq]
    exact fun hmem => Nat.not_lt.2 (hseparators _ hmem) (ascii_of_isPlain (hauthority c hc))
  rw [checkCompatibility, hnone]
  rfl

/-- What begins with a character that is not dropped still does when others are dropped. -/
theorem head?_filter_isKept (hrest : ∀ c ∈ rest.head?, isKept c = true) :
    (rest.filter isKept).head? = rest.head? := by
  cases rest with
  | nil => rfl
  | cons c rest => rw [List.filter_cons_of_pos (hrest c rfl), List.head?_cons, List.head?_cons]

theorem isKept_of_endsAuthority {c : Char} (hc : endsAuthority c = true) : isKept c = true := by
  simp only [endsAuthority, Bool.or_eq_true, decide_eq_true_eq] at hc
  rcases hc with (rfl | rfl) | rfl <;> rfl

/-- **A text that is put together from the parts of a URL falls into these parts.** -/
theorem parse_assembled (hscheme : IsWord scheme) (hauthority : ∀ c ∈ authority, isPlain c = true)
    (hrest : ∀ c ∈ rest.head?, endsAuthority c = true) :
    parse (scheme ++ ':' :: '/' :: '/' :: (authority ++ rest)) =
      .ok ⟨scheme.map Char.toLower, authority, (rest.filter isKept).takeWhile (!endsPath ·)⟩ := by
  have hrest' : ∀ c ∈ (rest.filter isKept).head?, endsAuthority c = true := by
    rw [head?_filter_isKept fun c hc => isKept_of_endsAuthority (hrest c hc)]
    exact hrest
  unfold parse
  simp only [clean_assembled hscheme hauthority, splitScheme_assembled hscheme,
    splitAuthority_assembled hauthority hrest', checkBrackets_of_isPlain hauthority,
    checkCompatibility_of_isPlain hauthority]
  rfl

/-! ## The parts of an authority -/

variable {sep : Char} {before behind : List Char}

theorem ne_of_not_mem {cs : List Char} (hcs : sep ∉ cs) : ∀ c ∈ cs, decide (c ≠ sep) = true := by
  intro c hc
  simp only [ne_eq, decide_eq_true_eq]
  rintro rfl
  exact hcs hc

/-- Behind the last separator, or all if there is none. -/
theorem afterLast_append (hbefore : ∀ c ∈ before.getLast?, c = sep) (hbehind : sep ∉ behind) :
    afterLast sep (before ++ behind) = behind := by
  have hends : ∀ c ∈ before.reverse.head?, decide (c ≠ sep) = false := by
    intro c hc
    rw [List.head?_reverse] at hc
    simp [hbefore c hc]
  rw [afterLast, List.reverse_append, takeWhile_part (ne_of_not_mem (by simpa using hbehind)) hends,
    List.reverse_reverse]

/-- Before the first separator and behind it, or all and nothing if there is none. -/
theorem cut_append (hbefore : sep ∉ before) (hbehind : ∀ c ∈ behind.head?, c = sep) :
    cut sep (before ++ behind) = (before, behind.drop 1) := by
  have hends : ∀ c ∈ behind.head?, decide (c ≠ sep) = false := by
    intro c hc
    simp [hbehind c hc]
  rw [cut, takeWhile_part (ne_of_not_mem hbefore) hends, dropWhile_part (ne_of_not_mem hbefore) hends]

/-- **A place without brackets falls into its host and its port, whatever user information comes before it.** -/
theorem hostAndPort_assembled {host port : List Char} (hbefore : ∀ c ∈ before.getLast?, c = '@')
    (hplace : ∀ c ∈ host ++ port, c ≠ '@' ∧ c ≠ '[') (hhost : ':' ∉ host) (hport : ∀ c ∈ port.head?, c = ':') :
    hostAndPort (before ++ (host ++ port)) = (host, port.drop 1) := by
  have hat : '@' ∉ host ++ port := fun hmem => (hplace _ hmem).1 rfl
  have hbracket : '[' ∉ host ++ port := fun hmem => (hplace _ hmem).2 rfl
  unfold hostAndPort
  simp only [afterLast_append hbefore hat, hbracket, if_false]
  exact cut_append hhost hport

end Url
end RemoteCache
