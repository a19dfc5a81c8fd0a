import RemoteCache.Entries
import RemoteCache.Proofs.Json
import Mathlib.Tactic.SplitIfs

/-!
# Objects that are read back

An object of texts is written in printable ASCII alone (`isPrintable_writeObject`), and the reader gives back what was
written (`read_writeObject`).

A text is followed character by character. Whatever stands behind an escape, the reader takes exactly the escape and
gives the code point of its character (`readTextWithin?_escape`): a character up to the last plane's end is one UTF-16
unit that is no half of a pair, or two units that the reader joins. Entries are read one by one, and setting entries of
texts is setting the texts, so what is said of texts in order carries over to what is read.
-/

namespace RemoteCache.Text.Quoted

/-- The last digit of a number comes behind the digits of all the rest. -/
theorem hexDigits_succ {width : Nat} (hwidth : 0 < width) (n : Nat) :
    hexDigits (width + 1) n = hexDigits width (n / 16) ++ [Nat.digitChar (n % 16)] := by
  unfold hexDigits
  rw [Nat.toDigits_eq_if (by decide)]
  by_cases hn : n < 16
  · have hzero : n / 16 = 0 := by omega
    obtain ⟨w, rfl⟩ : ∃ w, width = w + 1 := ⟨width - 1, by omega⟩
    simp [hn, hzero, Nat.mod_eq_of_lt, List.replicate_succ']
  · simp [hn]

/-- Four digits are those of the four places. -/
theorem hexDigits_four {n : Nat} (hn : n < 0x10000) :
    hexDigits 4 n = [n / 16 / 16 / 16, n / 16 / 16 % 16, n / 16 % 16, n % 16].map Nat.digitChar := by
  have hone : hexDigits 1 (n / 16 / 16 / 16) = [Nat.digitChar (n / 16 / 16 / 16)] := by
    rw [hexDigits, Nat.toDigits_of_lt_base (by omega)]
    rfl
  simp [hexDigits_succ, hone]

end RemoteCache.Text.Quoted

namespace RemoteCache.Json

open Text

/-! ## Escapes -/

theorem value?_digitChar {n : Nat} (hn : n < 16) : Hex.value? n.digitChar = some n := by
  revert n
  decide

/-- A unit is read back from its digits. -/
theorem readUnit?_hexDigits {n : Nat} (hn : n < 0x10000) (rest : List Char) :
    readUnit? (Quoted.hexDigits 4 n ++ rest) = some (n, rest) := by
  have hfirst : n / 16 / 16 / 16 < 16 := by omega
  rw [Quoted.hexDigits_four hn]
  simp [readUnit?, value?_digitChar, Nat.mod_lt, hfirst]
  omega

/-- A code point in front of what a reader gives. -/
def behind (point : Nat) : Option (Points × List Char) → Option (Points × List Char) :=
  Option.map fun (text, rest) => (point :: text, rest)

/-- A letter behind a backslash. -/
theorem readTextWithin?_letter {letter c : Char} (hletter : escapeLetter? letter = some c) (fuel : Nat)
    (rest : List Char) :
    readTextWithin? (fuel + 1) ('\\' :: letter :: rest) = behind c.toNat (readTextWithin? fuel rest) := by
  have hu : letter ≠ 'u' := by
    rintro rfl
    cases hletter
  rw [readTextWithin?, hletter]
  · cases readTextWithin? fuel rest <;> rfl
  · simpa using hu

/-- A character that stands for itself. -/
theorem readTextWithin?_self {c : Char} (hquote : c ≠ '"') (hslash : c ≠ '\\') (hc : 32 ≤ c.toNat) (fuel : Nat)
    (rest : List Char) :
    readTextWithin? (fuel + 1) (c :: rest) = behind c.toNat (readTextWithin? fuel rest) := by
  rw [readTextWithin?, if_neg (by omega)]
  · rfl
  all_goals simp [hquote, hslash]

theorem readTextWithin?_unit {n : Nat} (hn : n < 0x10000) (fuel : Nat) (rest : List Char) :
    readTextWithin? (fuel + 1) (unitEscape n ++ rest) =
      behind (joinUnits n rest).1 (readTextWithin? fuel (joinUnits n rest).2) := by
  rw [unitEscape, List.cons_append, List.cons_append, readTextWithin?, readUnit?_hexDigits hn]
  show ((readTextWithin? fuel (joinUnits n rest).2).bind fun r => some ((joinUnits n rest).1 :: r.1, r.2)) = _
  cases readTextWithin? fuel (joinUnits n rest).2 <;> rfl

/-- A unit that is no half of a pair stands for itself. -/
theorem joinUnits_self {n : Nat} (hn : n < 0xd800 ∨ 0xdc00 ≤ n) (rest : List Char) : joinUnits n rest = (n, rest) :=
  if_neg (by omega)

theorem joinUnits_pair {high low : Nat} (hhigh : high < 0x400) (hlow : low < 0x400) (rest : List Char) :
    joinUnits (0xd800 + high) (unitEscape (0xdc00 + low) ++ rest) = (0x10000 + high * 0x400 + low, rest) := by
  have hread : readUnit? (Quoted.hexDigits 4 (0xdc00 + low) ++ rest) = some (0xdc00 + low, rest) :=
    readUnit?_hexDigits (by omega) rest
  have hhalf : 0xdc00 ≤ 0xdc00 + low ∧ 0xdc00 + low < 0xe000 := by omega
  unfold joinUnits unitEscape
  rw [if_pos ⟨Nat.le_add_right _ _, by omega⟩]
  simp only [List.cons_append, hread, hhalf, and_self, if_true, Nat.add_sub_cancel_left]

/-- A character is read back from its escape. -/
theorem readTextWithin?_escape (c : Char) (fuel : Nat) (rest : List Char) :
    readTextWithin? (fuel + 1) (escape c ++ rest) = behind c.toNat (readTextWithin? fuel rest) := by
  have hvalid : c.toNat < 0xd800 ∨ 0xdfff < c.toNat ∧ c.toNat < 0x110000 := c.valid
  unfold escape
  split_ifs with hmark hfeed hreturn htab hback hform hself hunit
  · obtain rfl | rfl := hmark <;> exact readTextWithin?_letter rfl fuel rest
  · exact readTextWithin?_letter (hfeed ▸ rfl) fuel rest
  · exact readTextWithin?_letter (hreturn ▸ rfl) fuel rest
  · exact readTextWithin?_letter (htab ▸ rfl) fuel rest
  · exact readTextWithin?_letter (hback ▸ rfl) fuel rest
  · exact readTextWithin?_letter (hform ▸ rfl) fuel rest
  · have hc : ' '.toNat ≤ c.toNat := hself.1
    simp only [not_or] at hmark
    exact readTextWithin?_self hmark.1 hmark.2 hc fuel rest
  · rw [readTextWithin?_unit hunit, joinUnits_self (by omega)]
  · have hhigh : (c.toNat - 0x10000) / 0x400 < 0x400 := by omega
    have hlow : (c.toNat - 0x10000) % 0x400 < 0x400 := Nat.mod_lt _ (by decide)
    have hcode : 0x10000 + (c.toNat - 0x10000) / 0x400 * 0x400 + (c.toNat - 0x10000) % 0x400 = c.toNat := by omega
    rw [List.append_assoc, readTextWithin?_unit (by omega), joinUnits_pair hhigh hlow, hcode]

theorem escape_ne_nil (c : Char) : escape c ≠ [] := by
  unfold escape
  split_ifs <;> exact List.cons_ne_nil _ _

theorem length_le_escaped (cs : List Char) : cs.length ≤ (cs.flatMap escape).length := by
  induction cs with
  | nil => exact Nat.le_refl 0
  | cons c cs ih =>
    have hc : 0 < (escape c).length := List.length_pos_iff.2 (escape_ne_nil c)
    rw [List.flatMap_cons, List.length_append, List.length_cons]
    omega

/-- **A text is read back from between its quotes.** -/
theorem readText?_writeText (cs rest : List Char) :
    readText? (cs.flatMap escape ++ '"' :: rest) = some (Points.ofChars cs, rest) := by
  -- Each character takes one unit of fuel, and an escape has a sign at least.
  have hread (fuel : Nat) : readTextWithin? (fuel + cs.length + 1) (cs.flatMap escape ++ '"' :: rest) =
      some (Points.ofChars cs, rest) := by
    induction cs with
    | nil => rfl
    | cons c cs ih =>
      rw [List.flatMap_cons, List.append_assoc, List.length_cons, ← Nat.add_assoc, readTextWithin?_escape, ih]
      rfl
  have hlength : cs.length ≤ (cs.flatMap escape).length := length_le_escaped cs
  obtain ⟨fuel, hfuel⟩ : ∃ fuel, (cs.flatMap escape ++ '"' :: rest).length + 1 = fuel + cs.length + 1 :=
    ⟨(cs.flatMap escape ++ '"' :: rest).length - cs.length, by
      rw [List.length_append]
      omega⟩
  rw [readText?, hfuel, hread]

/-! ## Objects -/

/-- Texts under names, as the entries of a mapping. -/
def ofTexts (texts : List (String × String)) : List (Value × Value) :=
  texts.map fun (name, text) => (.text name, .text text)

theorem setEntry_ofTexts (texts : List (String × String)) (name text : String) :
    Value.setEntry (ofTexts texts) (.text name) (.text text) = ofTexts (Entries.put texts name text) := by
  induction texts with
  | nil => rfl
  | cons e texts ih =>
    obtain ⟨first, old⟩ := e
    unfold ofTexts at ih ⊢
    rw [List.map_cons, Value.setEntry, Entries.put]
    by_cases hfirst : first = name
    · rw [if_pos (Value.sameKey_text.2 (congrArg Value.text hfirst)), if_pos hfirst, List.map_cons, hfirst]
    · have hkey : ¬ (Value.text first).sameKey (.text name) = true := by
        rw [Value.sameKey_text, Value.text.injEq]
        exact hfirst
      rw [if_neg hkey, if_neg hfirst, ih, List.map_cons]

theorem ofPoints_ofChars (cs : List Char) : Value.ofPoints (Points.ofChars cs) = .text (String.ofList cs) := by
  rw [Value.ofPoints, Points.chars?_ofChars]

/-- A quote starts no word, no list and no object. -/
theorem readValue_writeText (depth fuel : Nat) (cs rest : List Char) :
    readValue depth (fuel + 1) (writeText cs ++ rest) = .ok (.text (String.ofList cs), rest) := by
  have hword : readWord? ('"' :: (cs.flatMap escape ++ '"' :: rest)) = none := rfl
  have hscalar : readScalar? ('"' :: (cs.flatMap escape ++ '"' :: rest)) = some (.text (String.ofList cs), rest) := by
    unfold readScalar?
    rw [hword]
    show (readText? _).map _ = _
    rw [readText?_writeText, Option.map_some]
    exact congrArg (fun v => some (v, rest)) (ofPoints_ofChars cs)
  rw [writeText, List.cons_append, List.append_assoc, List.singleton_append, readValue, if_neg (by decide),
    if_neg (by decide), hscalar]
  rfl

/-- What a reader of entries does behind one of them. -/
def afterEntry (depth fuel : Nat) (entries : List (Value × Value)) :
    List Char → Except Fault (List (Value × Value) × List Char)
  | ',' :: rest => readEntries depth fuel entries (skipBlanks rest)
  | c :: rest => if c = closeBrace then .ok (entries, rest) else .error .malformed
  | [] => .error .malformed

theorem readEntries_writeEntry (depth fuel : Nat) (texts : List (String × String)) (name text : String)
    (rest : List Char) :
    readEntries depth (fuel + 2) (ofTexts texts) (writeEntry (name, text) ++ rest) =
      afterEntry depth (fuel + 1) (ofTexts (Entries.put texts name text)) (skipBlanks rest) := by
  have hentry : writeEntry (name, text) ++ rest =
      '"' :: (name.toList.flatMap escape ++ '"' :: ':' :: (writeText text.toList ++ rest)) := by
    simp [writeEntry, writeText]
  rw [hentry, readEntries, readText?_writeText]
  show (readValue depth (fuel + 1) (writeText text.toList ++ rest) >>= _) = _
  rw [readValue_writeText]
  show (match skipBlanks rest with
      | ',' :: rest => _
      | c :: rest => _
      | [] => _) = _
  rw [ofPoints_ofChars, String.ofList_toList, String.ofList_toList, setEntry_ofTexts]
  rfl

theorem length_writeMore (texts : List (String × String)) : texts.length ≤ (writeMore texts).length := by
  induction texts with
  | nil => exact Nat.le_refl 0
  | cons e texts ih =>
    rw [writeMore, List.flatMap_cons, ← writeMore, List.length_append, List.length_cons, List.length_cons]
    omega

/-- Entries are read back one by one. -/
theorem readEntries_writeMore (depth fuel : Nat) (old more : List (String × String)) (e : String × String)
    (rest : List Char) :
    readEntries depth (fuel + more.length + 2) (ofTexts old) (writeEntry e ++ (writeMore more ++ closeBrace :: rest)) =
      .ok (ofTexts (Entries.putAll old (e :: more)), rest) := by
  induction more generalizing old e with
  | nil => exact readEntries_writeEntry depth fuel old e.1 e.2 (closeBrace :: rest)
  | cons next more ih =>
    have hmore : writeMore (next :: more) ++ closeBrace :: rest =
        ',' :: (writeEntry next ++ (writeMore more ++ closeBrace :: rest)) := by
      simp [writeMore]
    rw [hmore, readEntries_writeEntry]
    exact ih (Entries.put old e.1 e.2) next

/-- An object with an entry at least is read entry by entry. -/
theorem readValue_entries (depth fuel : Nat) {e : String × String} {rest rest' : List Char} {entries : List (Value × Value)}
    (hdepth : depth ≠ depthLimit) (h : readEntries (depth + 1) fuel [] (writeEntry e ++ rest) = .ok (entries, rest')) :
    readValue depth (fuel + 1) (openBrace :: (writeEntry e ++ rest)) = .ok (.dict entries, rest') := by
  have hquote : writeEntry e ++ rest = '"' :: (writeEntry e ++ rest).tail := rfl
  rw [hquote] at h ⊢
  have hskip (cs : List Char) : skipBlanks ('"' :: cs) = '"' :: cs := rfl
  rw [readValue, if_neg (by decide), if_pos rfl, if_neg hdepth, hskip]
  dsimp only
  rw [if_neg (by decide), h]
  rfl

/-- **An object is read back as it was written**: of entries of one name the last one counts, in the first one's place. -/
theorem read_writeObject (texts : List (String × String)) :
    read (String.ofList (writeObject texts)) = .ok (.dict (ofTexts (Entries.putAll [] texts))) := by
  have hread (fuel : Nat) (hfuel : texts.length + 2 ≤ fuel) :
      readValue 0 fuel (writeObject texts) = .ok (.dict (ofTexts (Entries.putAll [] texts)), []) := by
    cases texts with
    | nil =>
      obtain ⟨fuel, rfl⟩ : ∃ n, fuel = n + 1 := ⟨fuel - 1, by omega⟩
      rfl
    | cons e more =>
      obtain ⟨fuel, rfl⟩ : ∃ n, fuel = n + more.length + 2 + 1 := ⟨fuel - more.length - 3, by
        rw [List.length_cons] at hfuel
        omega⟩
      have hobject : writeObject (e :: more) = openBrace :: (writeEntry e ++ (writeMore more ++ [closeBrace])) := by
        simp [writeObject]
      rw [hobject]
      exact readValue_entries 0 _ (by decide) (readEntries_writeMore 1 fuel [] more e [])
  have hlength : texts.length ≤ (writeObject texts).length := by
    cases texts with
    | nil => exact Nat.zero_le _
    | cons e more =>
      have hmore := length_writeMore more
      simp only [writeObject, List.length_cons, List.length_append]
      omega
  have hskip : skipBlanks (writeObject texts) = writeObject texts := rfl
  unfold read
  rw [String.toList_ofList, hskip]
  show (readValue 0 (2 * (writeObject texts).length + 2) (writeObject texts) >>= _) = _
  rw [hread _ (by omega)]
  rfl

/-! ## Printable signs -/

/-- A character from space to tilde. -/
def IsPrintable (c : Char) : Prop := ' ' ≤ c ∧ c ≤ '~'

instance (c : Char) : Decidable (IsPrintable c) := inferInstanceAs (Decidable (_ ∧ _))

theorem isPrintable_digitChar {n : Nat} (hn : n < 16) : IsPrintable n.digitChar := by
  revert n
  decide

theorem isPrintable_unitEscape {n : Nat} (hn : n < 0x10000) : ∀ c ∈ unitEscape n, IsPrintable c := by
  have hmarks : IsPrintable '\\' ∧ IsPrintable 'u' := by decide
  have hfirst : n / 16 / 16 / 16 < 16 := by omega
  rw [unitEscape, Quoted.hexDigits_four hn]
  simp [hmarks, isPrintable_digitChar, Nat.mod_lt, hfirst]

theorem isPrintable_pair {a b : Char} (ha : IsPrintable a) (hb : IsPrintable b) : ∀ c ∈ [a, b], IsPrintable c :=
  List.forall_mem_cons.2 ⟨ha, List.forall_mem_singleton.2 hb⟩

/-- An escape has printable signs alone. -/
theorem isPrintable_escape (c : Char) : ∀ d ∈ escape c, IsPrintable d := by
  have hvalid : c.toNat < 0xd800 ∨ 0xdfff < c.toNat ∧ c.toNat < 0x110000 := c.valid
  unfold escape
  split_ifs with hmark hfeed hreturn htab hback hform hself hunit
  · obtain rfl | rfl := hmark
    · exact isPrintable_pair (by decide) (by decide)
    · exact isPrintable_pair (by decide) (by decide)
  · exact isPrintable_pair (by decide) (by decide)
  · exact isPrintable_pair (by decide) (by decide)
  · exact isPrintable_pair (by decide) (by decide)
  · exact isPrintable_pair (by decide) (by decide)
  · exact isPrintable_pair (by decide) (by decide)
  · exact List.forall_mem_singleton.2 hself
  · exact isPrintable_unitEscape hunit
  · exact List.forall_mem_append.2 ⟨isPrintable_unitEscape (by omega), isPrintable_unitEscape (by omega)⟩

theorem isPrintable_writeText (cs : List Char) : ∀ c ∈ writeText cs, IsPrintable c := by
  have hcs : ∀ c ∈ cs.flatMap escape, IsPrintable c := by
    intro c hc
    obtain ⟨d, -, hd⟩ := List.mem_flatMap.1 hc
    exact isPrintable_escape d c hd
  have hquote : IsPrintable '"' := by decide
  exact List.forall_mem_cons.2 ⟨hquote, List.forall_mem_append.2 ⟨hcs, List.forall_mem_singleton.2 hquote⟩⟩

theorem isPrintable_writeEntry (e : String × String) : ∀ c ∈ writeEntry e, IsPrintable c :=
  List.forall_mem_append.2 ⟨isPrintable_writeText _, List.forall_mem_cons.2 ⟨by decide, isPrintable_writeText _⟩⟩

/-- **An object is written in printable signs alone.** -/
theorem isPrintable_writeObject (texts : List (String × String)) : ∀ c ∈ writeObject texts, IsPrintable c := by
  have hmore (more : List (String × String)) : ∀ c ∈ writeMore more, IsPrintable c := by
    intro c hc
    obtain ⟨e, -, he⟩ := List.mem_flatMap.1 hc
    exact List.forall_mem_cons.2 ⟨by decide, isPrintable_writeEntry e⟩ c he
  have hopen : IsPrintable openBrace := by decide
  have hclose : IsPrintable closeBrace := by decide
  cases texts with
  | nil => exact isPrintable_pair hopen hclose
  | cons e more =>
    have hentries := List.forall_mem_append.2 ⟨isPrintable_writeEntry e, hmore more⟩
    exact List.forall_mem_append.2 ⟨List.forall_mem_cons.2 ⟨hopen, hentries⟩, List.forall_mem_singleton.2 hclose⟩

end RemoteCache.Json
