import RemoteCache.Text.Case.Table

/-!
# Upper and lower case

Full case mapping: a character may map to several, and a capital sigma at the end of a word becomes the final
form. A sigma ends a word when the nearest character before it that casing does not look through has a case
and the nearest one after it has none.
-/

namespace RemoteCache.Text

namespace Case

def Shift.image? (c : Char) : Shift → Option Char
  | (first, last, step, offset) =>
    if first ≤ c.toNat ∧ c.toNat ≤ last ∧ (c.toNat - first) % step = 0 then
      some (Char.ofNat (Int.toNat (c.toNat + offset)))
    else none

/-- The mapping of one character beyond ASCII. -/
def mapped (expansions : List (Nat × List Nat)) (shifts : List Shift) (c : Char) : List Char :=
  match expansions.lookup c.toNat with
  | some codes => codes.map Char.ofNat
  | none => [(shifts.findSome? (Shift.image? c)).getD c]

/-- Whether the nearest character that casing does not look through has a case. -/
def nextIsCased (cs : List Char) : Bool :=
  match cs.dropWhile ignorable.has with
  | [] => false
  | c :: _ => cased.has c

/-- `before` is what stands before, the nearest character first. -/
def lowerAfter (before : List Char) : List Char → List Char
  | [] => []
  | c :: rest =>
    let form :=
      if c = 'Σ' then [if nextIsCased before && !nextIsCased rest then 'ς' else 'σ']
      else if c.toNat < 128 then [c.toLower]
      else mapped lowerExpansions lowerShifts c
    form ++ lowerAfter (c :: before) rest

end Case

/-- The lower-case form of a text. -/
def lower (cs : List Char) : List Char := Case.lowerAfter [] cs

/-- The upper-case form of a text. -/
def upper (cs : List Char) : List Char := cs.flatMap fun c =>
  if c.toNat < 128 then [c.toUpper] else Case.mapped Case.upperExpansions Case.upperShifts c

end RemoteCache.Text
