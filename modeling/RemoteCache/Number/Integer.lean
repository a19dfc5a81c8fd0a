import RemoteCache.Bytes.Hex
import RemoteCache.Number.Digits
import RemoteCache.Text.Blank
import RemoteCache.Text.Numeral
import RemoteCache.Text.Quoted

/-!
# Integers as text

An integer in some base is read from a sign, the mark of the base, and digits that may be grouped by single
underscores (`Integer.read`). In a text (`Integer.ofText`) blanks may stand around it and the digits may be those of
any script; in bytes (`Integer.ofBytes`) both are those of ASCII. A base that is no power of two has a longest
number of digits.
-/

namespace RemoteCache.Integer

/-- Why a text is no integer. -/
inductive Fault
  | malformed
  | tooLong (digits : Nat)
deriving DecidableEq, Repr

/-- The part of a refused text that a message shows. -/
def shownLength : Nat := 200

/-- What is said about a refused text, which comes between quotes. -/
def Fault.message (base : Nat) (quoted : String) : Fault → String
  | .malformed => "invalid literal for int() with base " ++ toString base ++ ": " ++
    String.ofList (quoted.toList.take shownLength)
  | .tooLong digits => "Exceeds the limit (" ++ toString Digits.limit ++
    " digits) for integer string conversion: value has " ++ toString digits ++
    " digits; use sys.set_int_max_str_digits() to increase the limit"

/-- The letter of the mark that may stand before the digits of a base. -/
def markOf? (base : Nat) : Option Char :=
  if base = 2 then some 'b' else if base = 8 then some 'o' else if base = 16 then some 'x' else none

/-- Drops the mark of a base, behind which an underscore may stand. -/
def dropMark (base : Nat) (cs : List Char) : List Char :=
  match cs with
  | '0' :: letter :: rest =>
    if some letter.toLower = markOf? base then
      match rest with
      | '_' :: rest => rest
      | rest => rest
    else cs
  | cs => cs

def isDigit (base : Nat) (c : Char) : Bool := (Hex.value? c).any (· < base)

/-- The value of digits in a base. -/
def natOf (base : Nat) (digits : List Char) : Nat :=
  digits.foldl (fun n c => base * n + (Hex.value? c).getD 0) 0

/-- Whether the number of digits in a base has no limit. -/
def isUnlimited (base : Nat) : Bool := base ∈ [2, 4, 8, 16]

/-- Reads an integer around which no blanks stand. -/
def read (base : Nat) (cs : List Char) : Except Fault Int :=
  let (negative, signless) := Digits.splitSign cs
  let body := dropMark base signless
  let run := body.takeWhile fun c => c = '_' || isDigit base c
  let digits := Digits.ungroup run
  if !Digits.isGrouped (isDigit base) run then .error .malformed
  else if !isUnlimited base && Digits.limit < digits.length then .error (.tooLong digits.length)
  else if run.length < body.length then .error .malformed
  else .ok (Digits.signed negative (natOf base digits))

/-- Reads an integer from a text. -/
def ofText (base : Nat) (cs : List Char) : Except Fault Int :=
  read base ((Text.trim Text.isBlank cs).map Text.Numeral.toAscii)

/-- Reads a decimal integer from bytes. -/
def ofBytes (bytes : Bytes) : Except Fault Int :=
  read 10 (Text.trim Hex.isBlank (bytes.map fun b => Char.ofNat b.toNat))

end RemoteCache.Integer
