import RemoteCache.Bytes.Base64
import RemoteCache.Number.Arithmetic
import RemoteCache.Number.Integer
import RemoteCache.Text.Case
import RemoteCache.Yaml.Scalar
import RemoteCache.Yaml.Tag

/-!
# Values of tagged texts

What a text stands for under its tag. A tag that is written out asks more of a text than the spelling of plain texts
does: any case for truth values, digits of any script, binary numbers without a point. Underscores between the digits
of numbers mean nothing.
-/

namespace RemoteCache.Yaml.Leaf

/-! ## Integers -/

def ofInteger (r : Except Integer.Fault Int) : Except Error Int := r.mapError fun _ => .noValue

/-- The value of parts in base sixty. -/
def inSixtieths (parts : List Int) : Int := parts.foldl (fun n part => 60 * n + part) 0

/-- The size of an integer: the mark of a base, a zero for base eight, or colons for base sixty. -/
def integerSize (cs : List Char) : Except Error Int :=
  match cs with
  | [] => .error .noDigits
  | ['0'] => .ok 0
  | '0' :: 'b' :: digits => ofInteger (Integer.ofText 2 digits)
  | '0' :: 'x' :: digits => ofInteger (Integer.ofText 16 digits)
  | '0' :: _ => ofInteger (Integer.ofText 8 cs)
  | _ =>
    if ':' ∈ cs then ((Address.splitOn ':' cs).mapM fun part => ofInteger (Integer.ofText 10 part)).map inSixtieths
    else ofInteger (Integer.ofText 10 cs)

def integer (cs : List Char) : Except Error Value :=
  let (negative, body) := Digits.splitSign (Digits.ungroup cs)
  (integerSize body).map fun n => .int (if negative then -n else n)

/-! ## Binary numbers -/

def realPart (cs : List Char) : Except Error Binary64 :=
  Scalar.orMalformed (Binary64.readChars? ((Text.trim Text.isBlank cs).map Text.Numeral.toAscii))
    |>.mapError fun _ => .noValue

/-- Adds up parts in base sixty, the last part first, each step rounded; `base` is what the next part counts. -/
def sumSixtieths (sum : Binary64) (base : Int) : List Binary64 → Except Error Binary64
  | [] => .ok sum
  | part :: parts => match Binary64.ofInt base with
    | .infinite _ => .error (.outOfRange "int too large to convert to float")
    | factor => sumSixtieths (sum.add (part.mul factor)) (60 * base) parts

def realSize (cs : List Char) : Except Error Binary64 := do
  if cs = ".inf".toList then return .infinite false
  else if cs = ".nan".toList then return .nan
  else if ':' ∈ cs then sumSixtieths (.zero false) 1 (← (Address.splitOn ':' cs).mapM realPart).reverse
  else realPart cs

def real (cs : List Char) : Except Error Value :=
  let digits := Text.lower (Digits.ungroup cs)
  let (negative, body) := Digits.splitSign digits
  if digits = [] then .error .noDigits
  else (realSize body).map fun x => .real (if negative then x.neg else x)

/-! ## Other values -/

def boolWords : List (String × Bool) := [
  ("yes", true), ("no", false), ("true", true), ("false", false), ("on", true), ("off", false)]

def bool (cs : List Char) : Except Error Value :=
  let word := Text.lower cs
  match boolWords.lookup (String.ofList word) with
  | some b => .ok (.bool b)
  | none => .error (.noTruthValue (.ofChars word))

/-- Bytes in base 64, which has no characters beyond ASCII. -/
def binary (cs : List Char) : Except Error Value :=
  if cs.all (·.toNat < 128) then (Scalar.orMalformed (Base64.decode? cs)).map .bytes else .error .malformed

/-- A point in time; a line feed at the end does not count. -/
def time (cs : List Char) : Except Error Value :=
  match TimeText.parse? (if cs.getLast? = some '\n' then cs.dropLast else cs) with
  | none => .error .noTime
  | some t => match t.value? with
    | some v => .ok v
    | none => .error .noValue

/-- A text of characters under its tag. -/
def ofChars (tag : Tag) (cs : List Char) : Except Error Value :=
  match tag with
  | .null => .ok .null
  | .bool => bool cs
  | .int => integer cs
  | .real => real cs
  | .binary => binary cs
  | .time => time cs
  | .text => .ok (.text (String.ofList cs))
  | .sequence | .mapping | .set | .pairs | .merge | .content | .unknown => .error .malformed

/-- A text under its tag. Halves of surrogate pairs have a place in texts only. -/
def read (tag : Tag) (text : Text.Points) : Except Error Value :=
  match text.chars?, tag with
  | some cs, tag => ofChars tag cs
  | none, .null => .ok .null
  | none, .text => .ok (.broken text)
  | none, .bool => .error (.noTruthValue text)
  | none, .int | none, .real => .error .noValue
  | none, .time => .error .noTime
  | none, _ => .error .malformed

end RemoteCache.Yaml.Leaf
