import RemoteCache.Endpoint.Address
import RemoteCache.Yaml.Time

/-!
# Tags

What a node stands for. A plain text without a tag has the tag that its spelling gives it: truth values and nothing
by a few words, integers in base two, eight, ten, sixteen or sixty, binary numbers by a point, dates by their
hyphens; all others are texts.
-/

namespace RemoteCache.Yaml

inductive Tag
  | null | bool | int | real | binary | time
  | text | sequence | mapping | set | pairs
  /-- A key whose value is merged into the mapping. -/
  | merge
  /-- A key whose value stands for the whole mapping. -/
  | content
  | unknown
deriving DecidableEq, Repr

namespace Tag

/-- What the names of all known tags start with. -/
def home : String := "tag:yaml.org,2002:"

def names : List (String × Tag) := [
  ("null", .null), ("bool", .bool), ("int", .int), ("float", .real), ("binary", .binary), ("timestamp", .time),
  ("str", .text), ("seq", .sequence), ("map", .mapping), ("set", .set), ("omap", .pairs), ("pairs", .pairs),
  ("merge", .merge), ("value", .content)]

def ofUri (uri : String) : Tag := ((names.find? fun (name, _) => home ++ name = uri).map (·.2)).getD .unknown

/-- Whether nodes with this tag hold other nodes. -/
def isCollection (t : Tag) : Bool := t ∈ [Tag.sequence, .mapping, .set, .pairs]

/-! ## Plain texts -/

def boolWords : List String := [
  "yes", "Yes", "YES", "no", "No", "NO", "true", "True", "TRUE", "false", "False", "FALSE", "on", "On", "ON", "off",
  "Off", "OFF"]

def nullWords : List String := ["~", "null", "Null", "NULL"]

def isDigitOrGap (c : Char) : Bool := c.isDigit || c = '_'

/-- Digits and gaps, of which the first is a digit. -/
def isNumber (cs : List Char) : Bool := cs.head?.any Char.isDigit && cs.all isDigitOrGap

/-- A part of a number in base sixty: one digit, or two of which the first is below six. -/
def isSixtieth : List Char → Bool
  | [c] => c.isDigit
  | [c, d] => '0' ≤ c && c ≤ '5' && d.isDigit
  | _ => false

/-- Whether a number in base sixty has more parts than one. -/
def isSixtieths (cs : List Char) : Bool :=
  match Address.splitOn ':' cs with
  | first :: part :: parts => isNumber first && (part :: parts).all isSixtieth
  | _ => false

def isInteger (cs : List Char) : Bool :=
  match (Digits.splitSign cs).2 with
  | '0' :: 'b' :: digits => digits ≠ [] && digits.all (· ∈ ['0', '1', '_'])
  | '0' :: 'x' :: digits => digits ≠ [] && digits.all fun c => Hex.isDigit c || c = '_'
  | '0' :: digits => digits.all fun c => ('0' ≤ c && c ≤ '7') || c = '_'
  | body => isNumber body || isSixtieths body

/-- An exponent with its mark and its sign, or nothing. -/
def isExponent : List Char → Bool
  | [] => true
  | mark :: sign :: digits =>
    (mark = 'e' || mark = 'E') && (sign = '-' || sign = '+') && digits ≠ [] && digits.all Char.isDigit
  | _ => false

def isReal (cs : List Char) : Bool :=
  let body := (Digits.splitSign cs).2
  let whole := body.takeWhile (· ≠ '.')
  match body.dropWhile (· ≠ '.') with
  | [] => false
  | _ :: rest =>
    let isFraction := isExponent (rest.dropWhile isDigitOrGap)
    if whole = [] then
      String.ofList rest ∈ ["inf", "Inf", "INF"] ||
        (body = cs && (String.ofList rest ∈ ["nan", "NaN", "NAN"] || (rest.head?.any Char.isDigit && isFraction)))
    else if ':' ∈ whole then isSixtieths whole && rest.all isDigitOrGap
    else isNumber whole && isFraction

/-- The tag of a plain text. A line feed at its end does not count, unless there is nothing else. -/
def ofPlain (cs : List Char) : Tag :=
  let body := if cs.getLast? = some '\n' then cs.dropLast else cs
  let word := String.ofList body
  if cs = [] then .null
  else if word ∈ boolWords then .bool
  else if word ∈ nullWords then .null
  else if word = "<<" then .merge
  else if word = "=" then .content
  else if isReal body then .real
  else if isInteger body then .int
  else if (TimeText.parse? body).any TimeText.isPlain then .time
  else .text

end Tag
end RemoteCache.Yaml
