import RemoteCache.Value
import RemoteCache.Text.Blank

/-!
# Faults in input values

Reading a record from input values reports every fault, not only the first one. An *issue* is a fault with its
place, and the issues of a record come in the order of their places.

Readers are lax: bytes may stand for the text that they encode, and an integer may come as a truth value, as a binary
number without a fraction or as a text. A text that is an integer reads as that integer, whatever blanks, zeros and
underscores it is written with.
-/

namespace RemoteCache.Validation

/-- What is wrong with a value. -/
inductive Fault
  | integerType | integerText | integerSize | integerFraction | notFinite
  | belowOne | notPositive | above (limit : Nat)
  | textType | textEncoding | boolType | boolText | mappingType
  | recordType (name : String)
  | level | missing | extra
deriving DecidableEq, Repr

namespace Fault

def code : Fault → String
  | .integerType => "int_type"
  | .integerText => "int_parsing"
  | .integerSize => "int_parsing_size"
  | .integerFraction => "int_from_float"
  | .notFinite => "finite_number"
  | .belowOne => "greater_than_equal"
  | .notPositive => "greater_than"
  | .above _ => "less_than_equal"
  | .textType => "string_type"
  | .textEncoding => "string_unicode"
  | .boolType => "bool_type"
  | .boolText => "bool_parsing"
  | .mappingType => "dict_type"
  | .recordType _ => "model_type"
  | .level => "literal_error"
  | .missing => "missing"
  | .extra => "extra_forbidden"

def message : Fault → String
  | .integerType => "Input should be a valid integer"
  | .integerText => "Input should be a valid integer, unable to parse string as an integer"
  | .integerSize => "Unable to parse input string as an integer, exceeded maximum size"
  | .integerFraction => "Input should be a valid integer, got a number with a fractional part"
  | .notFinite => "Input should be a finite number"
  | .belowOne => "Input should be greater than or equal to 1"
  | .notPositive => "Input should be greater than 0"
  | .above limit => "Input should be less than or equal to " ++ toString limit
  | .textType => "Input should be a valid string"
  | .textEncoding => "Input should be a valid string, unable to parse raw data as a unicode string"
  | .boolType => "Input should be a valid boolean"
  | .boolText => "Input should be a valid boolean, unable to interpret input"
  | .mappingType => "Input should be a valid dictionary"
  | .recordType name => "Input should be a valid dictionary or instance of " ++ name
  | .level => "Input should be 'DEBUG', 'INFO', 'WARNING', 'ERROR' or 'CRITICAL'"
  | .missing => "Field required"
  | .extra => "Extra inputs are not permitted"

end Fault

/-- A step of the way to a value: the name of an entry, or a number that is its key. -/
inductive Step
  | name (s : String)
  | number (n : Int)
deriving DecidableEq, Repr

def Step.text : Step → String
  | .name s => s
  | .number n => toString n

/-- A fault and its place. -/
structure Issue where
  fault : Fault
  place : List Step
deriving DecidableEq, Repr

namespace Issue

/-- Places come in the order of their steps' texts; at one place the codes decide. -/
def le (a b : Issue) : Bool :=
  let a' := a.place.map Step.text
  let b' := b.place.map Step.text
  a' < b' || (a' = b' && a.fault.code ≤ b.fault.code)

def sort (issues : List Issue) : List Issue := issues.mergeSort le

/-- Issues of an entry, as issues of the mapping that holds it. -/
def inside (step : Step) (issues : List Issue) : List Issue :=
  issues.map fun i => { i with place := step :: i.place }

/-- The messages of some issues in a row. -/
def messages (issues : List Issue) : String := "; ".intercalate (issues.map (·.fault.message))

end Issue

/-- What reading gives: a value, or all issues that the input has. -/
inductive Checked (α : Type)
  | valid (value : α)
  | faulty (issues : List Issue)
deriving DecidableEq, Repr

namespace Checked

variable {α β : Type}

/-- Reads a further part: the issues of both parts are kept. -/
def also (f : Checked (α → β)) (x : Checked α) : Checked β :=
  match f, x with
  | .valid f, .valid x => .valid (f x)
  | .valid _, .faulty issues => .faulty issues
  | .faulty issues, .valid _ => .faulty issues
  | .faulty before, .faulty after => .faulty (before ++ after)

def issues : Checked α → List Issue
  | .valid _ => []
  | .faulty issues => issues

/-- The value of an entry of some name. -/
def entry (name : String) (read : Value → Except Fault α) (v : Value) : Checked α :=
  match read v with
  | .ok a => .valid a
  | .error fault => .faulty [⟨fault, [.name name]⟩]

/-- An entry that must be there. -/
def required (entries : List (String × Value)) (name : String) (read : Value → Except Fault α) : Checked α :=
  match entries.lookup name with
  | some v => entry name read v
  | none => .faulty [⟨.missing, [.name name]⟩]

/-- An entry that has a default. -/
def optional (entries : List (String × Value)) (name : String) (read : Value → Except Fault α)
    (default : α) : Checked α :=
  match entries.lookup name with
  | some v => entry name read v
  | none => .valid default

/-- The same, with the place of each issue inside a further step. -/
def inside (step : Step) : Checked α → Checked α
  | .valid a => .valid a
  | .faulty issues => .faulty (Issue.inside step issues)

/-- The issues in their order. -/
def sorted : Checked α → Checked α
  | .valid a => .valid a
  | .faulty issues => .faulty (Issue.sort issues)

end Checked

/-! ## Texts -/

def text : Value → Except Fault String
  | .text s => .ok s
  | .broken points => .ok (String.ofList points.lossy)
  | .bytes b => match Text.Utf8.decode? b with
    | some cs => .ok (String.ofList cs)
    | none => .error .textEncoding
  | _ => .error .textType

/-- A text or nothing. -/
def optionalText : Value → Except Fault (Option String)
  | .null => .ok none
  | v => (text v).map some

/-! ## Integers -/

/-- Drops a plus, unless a minus follows it. -/
def dropPlus : List Char → List Char
  | '+' :: rest => if rest.head? = some '-' then '+' :: rest else rest
  | cs => cs

/-- A minus, or nothing. -/
def minus (negative : Bool) : List Char := if negative then ['-'] else []

/-- Takes a minus off. -/
def takeMinus : List Char → Bool × List Char
  | '-' :: rest => (true, rest)
  | cs => (false, cs)

/-- Drops the zeros and underscores that stand before a number. The number starts with a digit other than zero or
with a minus, or is the last of what stands before a point or the end. -/
def dropZeros? (cs : List Char) : Option (List Char) :=
  let startsNumber (c : Char) := c = '-' || ('1' ≤ c && c ≤ '9')
  match cs with
  | '0' :: rest =>
    let zeros := '0' :: rest.takeWhile fun c => c = '0' || c = '_'
    let last := zeros.drop (zeros.length - 1)
    match cs.drop zeros.length with
    | [] => some last
    | '.' :: more => some (last ++ '.' :: more)
    | c :: more => if startsNumber c then some (c :: more) else none
  | c :: rest => if startsNumber c then some (c :: rest) else none
  | [] => none

/-- Drops a point and the zeros behind it, of which there is at least one. -/
def dropZeroFraction (cs : List Char) : List Char :=
  match cs.dropWhile (· ≠ '.') with
  | '.' :: '0' :: zeros => if zeros.all (· = '0') then cs.takeWhile (· ≠ '.') else cs
  | _ => cs

/-- Whether two underscores stand side by side. -/
def hasDoubleGap : List Char → Bool
  | '_' :: '_' :: _ => true
  | _ :: rest => hasDoubleGap rest
  | [] => false

/-- Drops the underscores inside a number if no two of them stand side by side. -/
def dropGaps (cs : List Char) : List Char :=
  if cs.head? = some '_' || cs.getLast? = some '_' || hasDoubleGap cs then cs else Digits.ungroup cs

/-- An integer as a minus and digits, of which only a single one may be zero at the front. -/
def integerOfDigits (cs : List Char) : Except Fault Int :=
  let (negative, body) := takeMinus cs
  let digits := body.takeWhile Char.isDigit
  if digits = [] || (digits.head? = some '0' && digits ≠ ['0']) then .error .integerText
  else if Digits.limit < digits.length + (cs.length - body.length) then .error .integerSize
  else if digits.length < body.length then .error .integerText
  else .ok (Digits.signed negative (Digits.natOf digits))

/-- An integer in a text: blanks around it, a sign, zeros in front, digits grouped by underscores, and a fraction of
zeros. A minus is put back before the digits that are left. -/
def integerOfText (cs : List Char) : Except Fault Int :=
  let (negative, unsigned) := takeMinus (dropPlus (Text.trim Text.isBlank cs))
  match dropZeros? unsigned with
  | none => .error .integerText
  | some number => integerOfDigits (minus negative ++ dropGaps (dropZeroFraction number))

/-- The first number too large for a signed integer of sixty-four bits. -/
def wordLimit : Int := 0x8000000000000000

/-- Whether an integer fits in sixty-four bits. -/
def fitsWord (n : Int) : Bool := -wordLimit ≤ n && n < wordLimit

/-- An integer that a binary number equals, if it fits in sixty-four bits. -/
def integerOfReal (x : Binary64) : Except Fault Int :=
  match x with
  | .nan | .infinite _ => .error .notFinite
  | x => match x.toInt? with
    | none => .error .integerFraction
    | some n => if -wordLimit < n ∧ n < wordLimit then .ok n else .error .integerSize

def integer : Value → Except Fault Int
  | .int n => .ok n
  | .bool b => .ok (if b then 1 else 0)
  | .real x => integerOfReal x
  | .text s => integerOfText s.toList
  | .broken _ => .error .textEncoding
  | .bytes b => match Text.Utf8.decode? b with
    | some cs => integerOfText cs
    | none => .error .integerText
  | _ => .error .integerType

/-! ## Truth values -/

def falseWords : List String := ["0", "off", "f", "false", "n", "no"]

def trueWords : List String := ["1", "on", "t", "true", "y", "yes"]

def boolOfInteger (n : Int) : Except Fault Bool :=
  if n = 0 then .ok false else if n = 1 then .ok true else .error .boolText

def boolOfText (cs : List Char) : Except Fault Bool :=
  let word := String.ofList (cs.map Char.toLower)
  if word ∈ falseWords then .ok false
  else if word ∈ trueWords then .ok true
  else .error .boolText

def bool : Value → Except Fault Bool
  | .bool b => .ok b
  | .text s => boolOfText s.toList
  | .broken _ => .error .textEncoding
  | .bytes b => match Text.Utf8.decode? b with
    | some cs => boolOfText cs
    | none => .error .boolText
  | .int n => if fitsWord n then boolOfInteger n else .error .boolType
  | .real x => match integerOfReal x with
    | .ok n => boolOfInteger n
    | .error _ => .error .boolType
  | _ => .error .boolType

end RemoteCache.Validation
