import RemoteCache.Number.Digits
import RemoteCache.Number.Shortest

/-!
# Binary numbers as text

Writing (`Binary64.display`) gives the shortest decimal, positional while the point falls inside or near the
digits and with an exponent beyond, always marked as no integer by a point or an exponent. Reading
(`Binary64.read?`) takes an optional sign, digits with an optional point and an optional exponent, or one of the
names of infinity and of no number.
-/

namespace RemoteCache.Binary64

open Digits

/-- An exponent with its sign and at least two digits. -/
def exponentText (e : Int) : List Char :=
  let digits := digitsOf e.natAbs
  (if e < 0 then '-' else '+') :: (if digits.length < 2 then '0' :: digits else digits)

/-- Digits with the point after the first `point` of them, zeros filling the gap, and at least one digit on
each side. -/
def positional (digits : List Char) (point : Int) : List Char :=
  match point with
  | .ofNat p =>
    let whole := digits.take p ++ List.replicate (p - digits.length) '0'
    let rest := digits.drop p
    (if whole.isEmpty then ['0'] else whole) ++ '.' :: (if rest.isEmpty then ['0'] else rest)
  | .negSucc k => '0' :: '.' :: (List.replicate (k + 1) '0' ++ digits)

/-- Digits with the point after the first of them and an exponent. -/
def scientific (digits : List Char) (exponent : Int) : List Char :=
  match digits with
  | [] => []
  | d :: rest => (d :: (if rest.isEmpty then [] else '.' :: rest)) ++ 'e' :: exponentText exponent

/-- A finite number is positional from `0.0001` up to below `10^16`. -/
def displayChars : Binary64 → List Char
  | .nan => "nan".toList
  | .infinite negative => if negative then "-inf".toList else "inf".toList
  | .finite negative m e =>
    let body :=
      if m = 0 then "0.0".toList
      else
        let d := (shortest m e).trimmed
        let digits := digitsOf d.digits
        let point := digits.length + d.exponent
        if -4 < point ∧ point ≤ 16 then positional digits point else scientific digits (point - 1)
    if negative then '-' :: body else body

def display (x : Binary64) : String := String.ofList x.displayChars

/-! ## Reading -/

/-- An exponent mark, an optional sign and digits up to the end, or nothing at all. -/
def readExponent? : List Char → Option Int
  | [] => some 0
  | c :: rest =>
    let (negative, digits) := splitSign rest
    if (c = 'e' ∨ c = 'E') ∧ digits ≠ [] ∧ digits.all Char.isDigit then
      some (if negative then -(natOf digits : Int) else natOf digits)
    else none

def readUnsigned? (negative : Bool) (cs : List Char) : Option Binary64 :=
  let whole := cs.takeWhile Char.isDigit
  let (fraction, rest) := match cs.dropWhile Char.isDigit with
    | '.' :: rest => (rest.takeWhile Char.isDigit, rest.dropWhile Char.isDigit)
    | rest => ([], rest)
  if whole = [] ∧ fraction = [] then none
  else (readExponent? rest).map fun e =>
    ofDecimal negative (natOf (whole ++ fraction)) (e - fraction.length)

def readChars? (cs : List Char) : Option Binary64 :=
  let (negative, body) := splitSign cs
  match String.ofList (body.map Char.toLower) with
  | "inf" | "infinity" => some (.infinite negative)
  | "nan" => some .nan
  | _ => readUnsigned? negative body

def read? (s : String) : Option Binary64 := readChars? s.toList

end RemoteCache.Binary64
