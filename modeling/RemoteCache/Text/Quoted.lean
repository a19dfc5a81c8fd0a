import RemoteCache.Bytes.Hex
import RemoteCache.Text.Printable

/-!
# Quoted text

A text or a byte string between quotes, with a backslash escape for each character that is not printable.
The quotes are single unless the text holds a single quote and no double one. In a byte string the printable
characters are those of ASCII.
-/

namespace RemoteCache.Text.Quoted

/-- The lower-case hexadecimal digits of a number, padded to a width. -/
def hexDigits (width n : Nat) : List Char :=
  let digits := Nat.toDigits 16 n
  List.replicate (width - digits.length) '0' ++ digits

def markFor (cs : List Char) : Char := if '\'' ∈ cs ∧ '"' ∉ cs then '"' else '\''

def codeEscape (n : Nat) : List Char :=
  if n < 0x100 then '\\' :: 'x' :: hexDigits 2 n
  else if n < 0x10000 then '\\' :: 'u' :: hexDigits 4 n
  else '\\' :: 'U' :: hexDigits 8 n

/-- One character between quotes of a given kind. -/
def escape (printable : Char → Bool) (mark c : Char) : List Char :=
  if c = mark ∨ c = '\\' then ['\\', c]
  else if c = '\n' then ['\\', 'n']
  else if c = '\r' then ['\\', 'r']
  else if c = '\t' then ['\\', 't']
  else if printable c then [c]
  else codeEscape c.toNat

def quoteWith (printable : Char → Bool) (cs : List Char) : List Char :=
  let mark := markFor cs
  mark :: (cs.flatMap (escape printable mark) ++ [mark])

def quote (s : String) : String := String.ofList (quoteWith isPrintable s.toList)

/-- A byte string between quotes, behind a `b`. -/
def quoteBytes (bytes : Bytes) : String :=
  String.ofList ('b' :: quoteWith (fun c => ' ' ≤ c && c ≤ '~') (bytes.map fun b => Char.ofNat b.toNat))

end RemoteCache.Text.Quoted
