/-!
# Binary floating point numbers

The numbers of the 64-bit binary format as data: a sign, a mantissa below `2^53` and an exponent, with the
largest mantissa that the exponent's range allows. `ofRatio` rounds a ratio to the nearest such number, a tie
going to the even mantissa, so that reading a decimal is exact arithmetic and one rounding.
-/

namespace RemoteCache

/-- A number of the 64-bit binary format: `finite s m e` is `± m · 2^e`. -/
inductive Binary64
  | nan
  | infinite (negative : Bool)
  | finite (negative : Bool) (mantissa : Nat) (exponent : Int)
deriving DecidableEq, Repr

namespace Binary64

/-- The exponent of the smallest numbers. -/
def minExponent : Int := -1074

/-- The exponent of the largest numbers. -/
def maxExponent : Int := 971

/-- The smallest mantissa of 53 bits. -/
def leastMantissa : Nat := 1 <<< 52

def zero (negative : Bool) : Binary64 := .finite negative 0 minExponent

/-! ## Rounding -/

/-- A quotient rounded to the nearest integer, a tie going to the even one. -/
def roundDiv (num den : Nat) : Nat :=
  let q := num / den
  let r := num % den
  if 2 * r < den then q else if 2 * r = den ∧ q % 2 = 0 then q else q + 1

/-- `num / den` over `2^exponent`, as numerator and denominator. -/
def scaled (num den : Nat) (exponent : Int) : Nat × Nat :=
  match exponent with
  | .ofNat k => (num, den <<< k)
  | .negSucc k => (num <<< (k + 1), den)

/-- The exponent at which a positive ratio has a mantissa of 53 bits, no less than the smallest one. -/
def exponentFor (num den : Nat) : Int :=
  let guess : Int := (Nat.log2 num : Int) - Nat.log2 den - 52
  let (n, d) := scaled num den guess
  let exact := if n / d < leastMantissa then guess - 1 else guess
  max exact minExponent

/-- The number nearest to `± num / den`. -/
def ofRatio (negative : Bool) (num den : Nat) : Binary64 :=
  if num = 0 then zero negative
  else
    let e := exponentFor num den
    let (n, d) := scaled num den e
    let m := roundDiv n d
    let (m, e) := if m = 2 * leastMantissa then (leastMantissa, e + 1) else (m, e)
    if e > maxExponent then .infinite negative else .finite negative m e

/-- The number nearest to `± digits · 10^exponent`. Exponents past the range of the format are cut off
before the power of ten is formed. -/
def ofDecimal (negative : Bool) (digits : Nat) (exponent : Int) : Binary64 :=
  if digits = 0 then zero negative
  else
    let top : Int := (Nat.log2 digits : Int) / 4 + exponent
    if top > 400 then .infinite negative
    else if (Nat.log2 digits : Int) + exponent < -400 then zero negative
    else match exponent with
      | .ofNat k => ofRatio negative (digits * Nat.pow 10 k) 1
      | .negSucc k => ofRatio negative digits (Nat.pow 10 (k + 1))

def ofInt (n : Int) : Binary64 := ofRatio (n < 0) n.natAbs 1

/-! ## Exact values -/

/-- The size of a finite number as a ratio. -/
def ratio (mantissa : Nat) : Int → Nat × Nat
  | .ofNat k => (mantissa <<< k, 1)
  | .negSucc k => (mantissa, 1 <<< (k + 1))

/-- The integer that a number equals. -/
def toInt? : Binary64 → Option Int
  | .finite negative m e =>
    let (n, d) := ratio m e
    if n % d = 0 then some (if negative then -(n / d : Nat) else (n / d : Nat)) else none
  | _ => none

/-- The integer nearest to a finite number on the side of zero. -/
def truncate? : Binary64 → Option Int
  | .finite negative m e =>
    let (n, d) := ratio m e
    some (if negative then -(n / d : Nat) else (n / d : Nat))
  | _ => none

end Binary64
end RemoteCache
