/-!
# Decimal digits

Digits and the numbers that they stand for, signs, and digits grouped by underscores.
-/

namespace RemoteCache.Digits

/-- The decimal digits of a number. -/
def digitsOf (n : Nat) : List Char := Nat.toDigits 10 n

/-- The value of decimal digits. -/
def natOf (digits : List Char) : Nat := digits.foldl (fun n c => 10 * n + (c.toNat - 48)) 0

/-- Splits a sign off; no sign is a plus. -/
def splitSign : List Char → Bool × List Char
  | '-' :: rest => (true, rest)
  | '+' :: rest => (false, rest)
  | cs => (false, cs)

/-- Puts a sign to a size. -/
def signed (negative : Bool) (size : Nat) : Int := if negative then -(size : Int) else size

/-- Whether single underscores stand between digits and all else are digits. -/
def isGrouped (isDigit : Char → Bool) : List Char → Bool
  | [] => false
  | [c] => isDigit c
  | c :: '_' :: rest => isDigit c && isGrouped isDigit rest
  | c :: rest => isDigit c && isGrouped isDigit rest

/-- The digits of a grouped number. -/
def ungroup (cs : List Char) : List Char := cs.filter (· ≠ '_')

/-- The most digits that an integer is read from. -/
def limit : Nat := 4300

end RemoteCache.Digits
