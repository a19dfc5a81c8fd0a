import RemoteCache.Value
import RemoteCache.Json.Writer

/-!
# Reading JSON

A reader for JSON texts, wider than the standard in three points: `NaN`, `Infinity` and `-Infinity` are numbers.
An object's last entry of a name counts, in the place of its first. Integers of more than 4300 digits are
refused, and so is what is nested too deeply. An escape that names half a surrogate pair stays half of one unless the
other half follows.

Each reader takes the characters that are left and gives a value with what remains behind it. Nesting and
repetition are bounded by the length of the text, since every step takes a character.
-/

namespace RemoteCache.Json

/-- Why a text is refused. -/
inductive Fault
  | malformed
  | deepList
  | deepObject
deriving DecidableEq, Repr

def Fault.message : Fault → String
  | .malformed => "malformed text"
  | .deepList => "maximum recursion depth exceeded while decoding a JSON array from a unicode string"
  | .deepObject => "maximum recursion depth exceeded while decoding a JSON object from a unicode string"

/-- How deep lists and objects may be nested. -/
def depthLimit : Nat := 980

def isBlank (c : Char) : Bool := c ∈ [' ', '\t', '\n', '\r']

def skipBlanks (cs : List Char) : List Char := cs.dropWhile isBlank

/-! ## Texts -/

/-- Four hexadecimal digits. -/
def readUnit? : List Char → Option (Nat × List Char)
  | a :: b :: c :: d :: rest => do
    let a ← Hex.value? a
    let b ← Hex.value? b
    let c ← Hex.value? c
    let d ← Hex.value? d
    return (((a * 16 + b) * 16 + c) * 16 + d, rest)
  | _ => none

/-- The character of a letter behind a backslash. -/
def escapeLetter? : Char → Option Char
  | '"' => some '"'
  | '\\' => some '\\'
  | '/' => some '/'
  | 'b' => some (Char.ofNat 8)
  | 'f' => some (Char.ofNat 12)
  | 'n' => some '\n'
  | 'r' => some '\r'
  | 't' => some '\t'
  | _ => none

/-- The code point that one unit stands for, or a unit and the escape of its other half behind it. -/
def joinUnits (unit : Nat) (rest : List Char) : Nat × List Char :=
  if 0xd800 ≤ unit ∧ unit < 0xdc00 then
    match rest with
    | '\\' :: 'u' :: after => match readUnit? after with
      | some (low, after) =>
        if 0xdc00 ≤ low ∧ low < 0xe000 then (0x10000 + (unit - 0xd800) * 0x400 + (low - 0xdc00), after)
        else (unit, rest)
      | none => (unit, rest)
    | _ => (unit, rest)
  else (unit, rest)

/-- The code points up to the closing quote. -/
def readTextWithin? : Nat → List Char → Option (Text.Points × List Char)
  | 0, _ => none
  | _, [] => none
  | _ + 1, '"' :: rest => some ([], rest)
  | fuel + 1, '\\' :: 'u' :: rest => do
    let (unit, rest) ← readUnit? rest
    let (point, rest) := joinUnits unit rest
    let (text, rest) ← readTextWithin? fuel rest
    return (point :: text, rest)
  | fuel + 1, '\\' :: c :: rest => do
    let c ← escapeLetter? c
    let (text, rest) ← readTextWithin? fuel rest
    return (c.toNat :: text, rest)
  | fuel + 1, c :: rest =>
    if c.toNat < 32 then none
    else (readTextWithin? fuel rest).map fun (text, rest) => (c.toNat :: text, rest)

/-- A text whose opening quote has been read. -/
def readText? (cs : List Char) : Option (Text.Points × List Char) := readTextWithin? (cs.length + 1) cs

/-! ## Numbers -/

/-- A run of digits, at least one. -/
def digits? (cs : List Char) : Option (List Char × List Char) :=
  let digits := cs.takeWhile Char.isDigit
  if digits = [] then none else some (digits, cs.dropWhile Char.isDigit)

/-- A run of digits that starts with no zero unless it is one. -/
def wholeDigits? : List Char → Option (List Char × List Char)
  | '0' :: rest => some (['0'], rest)
  | cs => digits? cs

/-- The fraction, if a point and digits stand here. -/
def splitFraction (cs : List Char) : Option (List Char) × List Char :=
  match cs with
  | '.' :: rest => match digits? rest with
    | some (digits, rest) => (some digits, rest)
    | none => (none, cs)
  | cs => (none, cs)

/-- The exponent, if a mark, a sign or none, and digits stand here. -/
def splitExponent (cs : List Char) : Option Int × List Char :=
  match cs with
  | c :: rest =>
    if c = 'e' ∨ c = 'E' then
      let (negative, body) := Digits.splitSign rest
      match digits? body with
      | some (digits, rest) =>
        (some (Digits.signed negative (Digits.natOf digits)), rest)
      | none => (none, cs)
    else (none, cs)
  | [] => (none, cs)

def readNumber? (negative : Bool) (cs : List Char) : Option (Value × List Char) := do
  let (whole, rest) ← wholeDigits? cs
  let (fraction, rest) := splitFraction rest
  let (exponent, rest) := splitExponent rest
  match fraction, exponent with
  | none, none =>
    if whole.length > Digits.limit then none
    else return (.int (Digits.signed negative (Digits.natOf whole)), rest)
  | fraction, exponent =>
    let fraction := fraction.getD []
    let x := Binary64.ofDecimal negative (Digits.natOf (whole ++ fraction)) (exponent.getD 0 - fraction.length)
    return (.real x, rest)

/-! ## Values -/

/-- Names that stand for values. -/
def words : List (List Char × Value) := [
  ("null".toList, .null), ("true".toList, .bool true), ("false".toList, .bool false),
  ("NaN".toList, .real .nan), ("Infinity".toList, .real (.infinite false)),
  ("-Infinity".toList, .real (.infinite true))]

/-- What remains behind a word, if the text starts with it. -/
def dropWord? : List Char → List Char → Option (List Char)
  | [], cs => some cs
  | w :: ws, c :: cs => if w = c then dropWord? ws cs else none
  | _ :: _, [] => none

def readWord? (cs : List Char) : Option (Value × List Char) :=
  words.findSome? fun (word, v) => (dropWord? word cs).map fun rest => (v, rest)

/-- A value that is no list and no object. -/
def readScalar? (cs : List Char) : Option (Value × List Char) :=
  match readWord? cs with
  | some r => some r
  | none => match cs with
    | '"' :: rest => (readText? rest).map fun (text, rest) => (.ofPoints text, rest)
    | '-' :: rest => readNumber? true rest
    | cs => readNumber? false cs

/-- The result of a reader for which every failure is the same. -/
def orMalformed {α : Type} : Option α → Except Fault α
  | some a => .ok a
  | none => .error .malformed

mutual
/-- One value, inside of `depth` lists and objects; no blank stands before it. -/
def readValue (depth : Nat) : Nat → List Char → Except Fault (Value × List Char)
  | 0, _ => .error .malformed
  | fuel + 1, cs =>
    match cs with
    | [] => .error .malformed
    | c :: rest =>
      if c = '[' then
        if depth = depthLimit then .error .deepList
        else match skipBlanks rest with
          | ']' :: rest => .ok (.list [], rest)
          | rest => (readItems (depth + 1) fuel rest).map fun (items, rest) => (.list items, rest)
      else if c = openBrace then
        if depth = depthLimit then .error .deepObject
        else match skipBlanks rest with
          | [] => .error .malformed
          | d :: rest' =>
            if d = closeBrace then .ok (.dict [], rest')
            else (readEntries (depth + 1) fuel [] (d :: rest')).map fun (entries, rest) => (.dict entries, rest)
      else orMalformed (readScalar? (c :: rest))

/-- The items from here to the closing bracket. -/
def readItems (depth : Nat) : Nat → List Char → Except Fault (List Value × List Char)
  | 0, _ => .error .malformed
  | fuel + 1, cs => do
    let (v, rest) ← readValue depth fuel cs
    match skipBlanks rest with
    | ',' :: rest =>
      let (items, rest) ← readItems depth fuel (skipBlanks rest)
      return (v :: items, rest)
    | ']' :: rest => return ([v], rest)
    | _ => throw .malformed

/-- The entries from here to the closing brace, set one after the other. -/
def readEntries (depth : Nat) : Nat → List (Value × Value) → List Char →
    Except Fault (List (Value × Value) × List Char)
  | 0, _, _ => .error .malformed
  | fuel + 1, entries, cs =>
    match cs with
    | '"' :: rest => do
      let (key, rest) ← orMalformed (readText? rest)
      match skipBlanks rest with
      | ':' :: rest =>
        let (v, rest) ← readValue depth fuel (skipBlanks rest)
        let entries := Value.setEntry entries (.ofPoints key) v
        match skipBlanks rest with
        | ',' :: rest => readEntries depth fuel entries (skipBlanks rest)
        | c :: rest => if c = closeBrace then return (entries, rest) else throw .malformed
        | [] => throw .malformed
      | _ => throw .malformed
    | _ => .error .malformed
end

/-- The value of a whole text. -/
def read (text : String) : Except Fault Value := do
  let cs := skipBlanks text.toList
  let (v, rest) ← readValue 0 (2 * cs.length + 2) cs
  if skipBlanks rest = [] then return v else throw .malformed

end RemoteCache.Json
