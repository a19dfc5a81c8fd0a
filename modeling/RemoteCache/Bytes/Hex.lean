/-!
# Bytes and their hexadecimal text

**Writing** (`Hex.encode`) gives two lower-case digits a byte, the high half first.

**Reading** (`Hex.decode`) takes digits of either case, and ASCII blanks before, between and after the
pairs but not inside one. A text that is no sequence of pairs is refused with the index of the first
character that does not fit; a pair that lacks its second digit is refused at the index where the digit
should stand. A text with a character beyond ASCII is refused at that character, whatever comes before it.
-/

namespace RemoteCache

/-- A string of bytes. -/
abbrev Bytes := List UInt8

namespace Hex

/-! ## Digits -/

/-- The lower-case digit of a value below sixteen. -/
def digit (n : Nat) : Char := if n < 10 then Char.ofNat (48 + n) else Char.ofNat (87 + n)

/-- The value of a digit of either case. -/
def value? (c : Char) : Option Nat :=
  if '0' ≤ c ∧ c ≤ '9' then some (c.toNat - 48)
  else if 'a' ≤ c ∧ c ≤ 'f' then some (c.toNat - 87)
  else if 'A' ≤ c ∧ c ≤ 'F' then some (c.toNat - 55)
  else none

def isDigit (c : Char) : Bool := (value? c).isSome

/-- Space, tab, line feed, vertical tab, form feed and carriage return. -/
def isBlank (c : Char) : Bool := c = ' ' || ('\t' ≤ c && c ≤ '\r')

/-! ## Pairs -/

/-- The two digits of a byte. -/
def pair (b : UInt8) : List Char := [digit (b.toNat / 16), digit (b.toNat % 16)]

def encode (bytes : Bytes) : List Char := bytes.flatMap pair

/-- Reads pairs from a text whose first character has index `pos`. -/
def decodeFrom (pos : Nat) : List Char → Except Nat Bytes
  | [] => .ok []
  | c :: rest =>
    if isBlank c then decodeFrom (pos + 1) rest
    else match value? c, rest with
      | none, _ => .error pos
      | some _, [] => .error (pos + 1)
      | some high, d :: rest => match value? d with
        | none => .error (pos + 1)
        | some low => (decodeFrom (pos + 2) rest).map (UInt8.ofNat (16 * high + low) :: ·)

/-- Reads pairs of digits; an error is the index of the first character that does not fit. -/
def decode (text : List Char) : Except Nat Bytes :=
  match text.findIdx? (fun c => 128 ≤ c.toNat) with
  | some i => .error i
  | none => decodeFrom 0 text

end Hex
end RemoteCache
