import RemoteCache.Text.Quoted
import RemoteCache.Text.Utf8

/-!
# Texts with halves of surrogate pairs

An escape in a document can name half of a surrogate pair, which is no character. A text that may hold such halves is
kept as its code points. One without them is an ordinary text (`Points.chars?`); one with them has no encoding, and
is shown with replacement characters for each byte that a half would take (`Points.lossy`).
-/

namespace RemoteCache.Text

/-- Code points, halves of surrogate pairs among them. -/
abbrev Points := List Nat

namespace Points

def isHalf (n : Nat) : Bool := 0xd800 ≤ n && n < 0xe000

def ofChars (cs : List Char) : Points := cs.map Char.toNat

/-- The characters of a text without halves. -/
def chars? (p : Points) : Option (List Char) := if p.any isHalf then none else some (p.map Char.ofNat)

/-- The characters of a text, each half replaced. -/
def lossy (p : Points) : List Char :=
  p.flatMap fun n => if isHalf n then List.replicate 3 Utf8.replacement else [Char.ofNat n]

/-- A text between quotes. -/
def quote (p : Points) : String :=
  let mark := Quoted.markFor p.lossy
  String.ofList (mark :: (p.flatMap fun n =>
    if isHalf n then Quoted.codeEscape n else Quoted.escape isPrintable mark (Char.ofNat n)) ++ [mark])

theorem isHalf_toNat (c : Char) : isHalf c.toNat = false := by
  have h : c.toNat < 0xd800 ∨ 0xdfff < c.toNat ∧ c.toNat < 0x110000 := c.valid
  unfold isHalf
  simp only [Bool.and_eq_false_iff, decide_eq_false_iff_not]
  omega

/-- Characters are read back from their code points. -/
theorem chars?_ofChars (cs : List Char) : chars? (ofChars cs) = some cs := by
  simp [chars?, ofChars, Function.comp_def, isHalf_toNat]

end Points
end RemoteCache.Text
