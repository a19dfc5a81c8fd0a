import RemoteCache.Bytes.Hex

/-!
# Bytes from base 64

Four digits stand for three bytes, and padding fills up the last four. Characters that are no digits are passed over,
and so is padding that comes too early. Padding that completes four digits ends the text, whatever follows.
-/

namespace RemoteCache.Base64

/-- The value of a digit. -/
def value? (c : Char) : Option Nat :=
  if 'A' ≤ c ∧ c ≤ 'Z' then some (c.toNat - 65)
  else if 'a' ≤ c ∧ c ≤ 'z' then some (c.toNat - 71)
  else if '0' ≤ c ∧ c ≤ '9' then some (c.toNat + 4)
  else if c = '+' then some 62
  else if c = '/' then some 63
  else none

/-- How far four digits have been read: how many of them, the bits that have made no byte yet, and the padding since
the last digit. -/
structure State where
  digits : Nat := 0
  bits : Nat := 0
  padding : Nat := 0

/-- Adds a digit; from the second one on, each completes a byte. -/
def State.add (s : State) (value : Nat) : Option UInt8 × State :=
  match s.digits with
  | 0 => (none, ⟨1, value, 0⟩)
  | 1 => (some (UInt8.ofNat (s.bits * 4 + value / 16)), ⟨2, value % 16, 0⟩)
  | 2 => (some (UInt8.ofNat (s.bits * 16 + value / 4)), ⟨3, value % 4, 0⟩)
  | _ => (some (UInt8.ofNat (s.bits * 64 + value)), {})

def decodeFrom (s : State) : List Char → Option Bytes
  | [] => if s.digits = 0 then some [] else none
  | c :: rest =>
    if c = '=' then
      if s.digits < 2 then decodeFrom s rest
      else if 4 ≤ s.digits + s.padding + 1 then some []
      else decodeFrom { s with padding := s.padding + 1 } rest
    else match value? c with
      | none => decodeFrom s rest
      | some value =>
        let (byte, s) := s.add value
        (decodeFrom s rest).map (byte.toList ++ ·)

/-- The bytes of a text; none if its last digits are not padded. -/
def decode? (cs : List Char) : Option Bytes := decodeFrom {} cs

end RemoteCache.Base64
