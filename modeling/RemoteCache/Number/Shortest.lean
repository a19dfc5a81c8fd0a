import RemoteCache.Number.Binary64

/-!
# Shortest decimals

The fewest decimal digits that read back as a given binary number, and of those the nearest to it. For 1, 2, …
17 digits the two neighbours of the number on that decimal grid are tested against the interval of reals that
round to the number; the first grid with a hit wins. All arithmetic is exact.
-/

namespace RemoteCache.Binary64

/-- A positive decimal `digits · 10^exponent`. -/
structure Decimal where
  digits : Nat
  exponent : Int
deriving DecidableEq, Repr

/-- The reals that round to a number, over a common denominator: `low / den` to `high / den` around
`mid / den`, the ends taken with an even mantissa only. -/
structure Interval where
  low : Nat
  mid : Nat
  high : Nat
  den : Nat
  closed : Bool

/-- The interval of `mantissa · 2^exponent`. The gap below the first mantissa of a binade is half as wide. -/
def interval (mantissa : Nat) (exponent : Int) : Interval :=
  let below := if mantissa = leastMantissa ∧ minExponent < exponent then 1 else 2
  let (unit, den) := ratio 1 (exponent - 2)
  ⟨(4 * mantissa - below) * unit, 4 * mantissa * unit, (4 * mantissa + 2) * unit, den, mantissa % 2 = 0⟩

/-- `digits · 10^exponent` times a denominator, as a ratio of integers. -/
def Decimal.over (d : Decimal) (den : Nat) : Nat × Nat :=
  match d.exponent with
  | .ofNat k => (d.digits * Nat.pow 10 k * den, 1)
  | .negSucc k => (d.digits * den, Nat.pow 10 (k + 1))

def Interval.has (i : Interval) (d : Decimal) : Bool :=
  let (n, q) := d.over i.den
  if i.closed then i.low * q ≤ n && n ≤ i.high * q else i.low * q < n && n < i.high * q

/-- The distance of a decimal to the middle of the interval, over the interval's denominator. -/
def Interval.distance (i : Interval) (d : Decimal) : Nat :=
  let (n, q) := d.over i.den
  if n ≤ i.mid * q then i.mid * q - n else n - i.mid * q

/-- The neighbours of the interval's middle among the multiples of `10^exponent`. -/
def Interval.neighbours (i : Interval) (exponent : Int) : Decimal × Decimal :=
  let floor := match exponent with
    | .ofNat k => i.mid / (i.den * Nat.pow 10 k)
    | .negSucc k => i.mid * Nat.pow 10 (k + 1) / i.den
  (⟨floor, exponent⟩, ⟨floor + 1, exponent⟩)

/-- The hit on one decimal grid, the nearer one of two; of two equally near the even one. -/
def Interval.hit? (i : Interval) (exponent : Int) : Option Decimal :=
  let (lower, upper) := i.neighbours exponent
  match decide (0 < lower.digits) && i.has lower, i.has upper with
  | true, true =>
    let a := i.distance lower
    let b := i.distance upper
    some (if a < b ∨ (a = b ∧ lower.digits % 2 = 0) then lower else upper)
  | true, false => some lower
  | false, true => some upper
  | false, false => none

/-- The number of decimal places before the point of a ratio of at least one tenth, zero or less below it. -/
def magnitude (num den : Nat) : Int :=
  if den ≤ num then (Nat.toDigits 10 (num / den)).length
  else 1 - (Nat.toDigits 10 ((den - 1) / num)).length

/-- The shortest decimal of a positive number. -/
def shortest (mantissa : Nat) (exponent : Int) : Decimal :=
  let i := interval mantissa exponent
  let top := magnitude i.mid i.den
  ((List.range 18).findSome? fun (n : Nat) => i.hit? (top - 1 - n)).getD ⟨mantissa, 0⟩

/-- Moves the zeros at the end of the digits into the exponent. -/
def Decimal.trimmed (d : Decimal) : Decimal :=
  if h : d.digits % 10 = 0 ∧ d.digits ≠ 0 then Decimal.trimmed ⟨d.digits / 10, d.exponent + 1⟩ else d
termination_by d.digits
decreasing_by omega

end RemoteCache.Binary64
