import RemoteCache.Number.Binary64

/-!
# Sums and products of binary numbers

Each result is the exact one, rounded once. A sum that is exactly nought is negative only if both terms are; an
infinity less itself, or times nought, is no number.
-/

namespace RemoteCache.Binary64

def neg : Binary64 → Binary64
  | .nan => .nan
  | .infinite negative => .infinite !negative
  | .finite negative m e => .finite (!negative) m e

/-- The number nearest to `n · 2^exponent`, which is not nought. -/
def ofScaled (n : Int) (exponent : Int) : Binary64 :=
  let (num, den) := ratio n.natAbs exponent
  ofRatio (n < 0) num den

/-- A signed mantissa in units of `2^unit`, where `unit` is no more than its exponent. -/
def inUnits (negative : Bool) (mantissa : Nat) (exponent unit : Int) : Int :=
  let n : Int := (mantissa <<< (exponent - unit).toNat : Nat)
  if negative then -n else n

def add : Binary64 → Binary64 → Binary64
  | .nan, _ | _, .nan => .nan
  | .infinite a, .infinite b => if a = b then .infinite a else .nan
  | .infinite a, .finite .. => .infinite a
  | .finite .., .infinite b => .infinite b
  | .finite a m e, .finite b n f =>
    let unit := min e f
    let sum := inUnits a m e unit + inUnits b n f unit
    if sum = 0 then zero (a && b) else ofScaled sum unit

def mul : Binary64 → Binary64 → Binary64
  | .nan, _ | _, .nan => .nan
  | .infinite a, .infinite b => .infinite (a != b)
  | .infinite a, .finite b m _ | .finite b m _, .infinite a => if m = 0 then .nan else .infinite (a != b)
  | .finite a m e, .finite b n f =>
    if m * n = 0 then zero (a != b)
    else
      let (num, den) := ratio (m * n) (e + f)
      ofRatio (a != b) num den

end RemoteCache.Binary64
