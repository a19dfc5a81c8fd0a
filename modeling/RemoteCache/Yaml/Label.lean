import RemoteCache.Number.Digits
import RemoteCache.Yaml.Scalar

/-!
# Labels in a document

Anchors and aliases name a node, tags say what a node stands for, and directives come before a document and say how
tags are abbreviated. A tag is written out between angle brackets, or as a handle and what follows it; a lone
exclamation mark is a tag of its own. Each reader gives what it has read and what is left.
-/

namespace RemoteCache.Yaml

/-- A tag as it is written. Without a handle the suffix is the whole tag. -/
structure TagText where
  handle : Option String
  suffix : String
deriving DecidableEq, Repr

inductive Directive
  | version (major : Nat)
  | handle (name uri : String)
  | other
deriving DecidableEq, Repr

namespace Label

/-! ## Words -/

def isWordChar (c : Char) : Bool := c.isAlphanum || c = '-' || c = '_'

def word (cs : List Char) : List Char × List Char := (cs.takeWhile isWordChar, cs.dropWhile isWordChar)

/-- Whether a space, a line break or the end comes next. -/
def atSpace (cs : List Char) : Bool := cs.head?.all fun c => c = ' ' || isBreak c

def skipSpaces (cs : List Char) : List Char := cs.dropWhile (· = ' ')

/-- The signs that may follow a name. -/
def nameEnds : List Char := ['?', ':', ',', ']', '\x7d', '%', '@', '\x60']

/-- The name of an anchor or an alias. -/
def name? (cs : List Char) : Option (String × List Char) :=
  let (name, rest) := word cs
  if name = [] || !(atGap rest || rest.head?.any (· ∈ nameEnds)) then none else some (String.ofList name, rest)

/-! ## Tags -/

/-- Bytes behind percent signs, two digits each. -/
def percentBytes? : List Char → Option (Bytes × List Char)
  | '%' :: a :: b :: rest => do
    let high ← Hex.value? a
    let low ← Hex.value? b
    let (more, rest) ← percentBytes? rest
    return (UInt8.ofNat (16 * high + low) :: more, rest)
  | '%' :: _ => none
  | cs => some ([], cs)

def isUriChar (c : Char) : Bool := c.isAlphanum || c ∈ "-;/?:@&=+$,_.!~*'()[]".toList

def uriWithin? (fuel : Nat) (cs : List Char) : Option (List Char × List Char) :=
  match fuel, cs with
  | fuel + 1, '%' :: rest => do
    let (bytes, rest) ← percentBytes? ('%' :: rest)
    let here ← Text.Utf8.decode? bytes
    let (more, rest) ← uriWithin? fuel rest
    return (here ++ more, rest)
  | fuel + 1, c :: rest =>
    if isUriChar c then (uriWithin? fuel rest).map fun (more, rest) => (c :: more, rest) else some ([], c :: rest)
  | _, cs => some ([], cs)

/-- The characters of a URI, at least one; some may come as the bytes of their encoding behind percent signs. -/
def uri? (cs : List Char) : Option (String × List Char) := do
  let (uri, rest) ← uriWithin? cs.length cs
  if uri = [] then none else some (String.ofList uri, rest)

/-- A handle: an exclamation mark, or a word between two of them. -/
def handle? : List Char → Option (String × List Char)
  | '!' :: rest =>
    if rest.head? = some ' ' then some ("!", rest)
    else match word rest with
      | (name, '!' :: rest) => some (String.ofList ('!' :: name ++ ['!']), rest)
      | _ => none
  | _ => none

/-- The handle and the suffix of a tag that is not written out. -/
def shortTag? (cs : List Char) : Option (TagText × List Char) := do
  let inWord := (cs.drop 1).takeWhile fun c => c ≠ ' ' && !isBreak c
  let (handle, rest) ← if '!' ∈ inWord then handle? cs else some ("!", cs.drop 1)
  let (suffix, rest) ← uri? rest
  return (⟨some handle, suffix⟩, rest)

/-- A tag from its exclamation mark on. -/
def tag? (cs : List Char) : Option (TagText × List Char) := do
  let (tag, rest) ← match cs.drop 1 with
    | '<' :: rest => match uri? rest with
      | some (suffix, '>' :: rest) => some (⟨none, suffix⟩, rest)
      | _ => none
    | rest => if atGap rest then some (⟨none, "!"⟩, rest) else shortTag? cs
  if atSpace rest then some (tag, rest) else none

/-! ## Directives -/

/-- A number of the version, which has a longest form. -/
def versionPart (cs : List Char) : Except Error (Nat × List Char) :=
  let digits := cs.takeWhile Char.isDigit
  if digits = [] then .error .malformed
  else if Digits.limit < digits.length then .error .noValue
  else .ok (Digits.natOf digits, cs.drop digits.length)

/-- The value of a version directive: two numbers with a point between them. -/
def version (cs : List Char) : Except Error (Directive × List Char) := do
  let (major, rest) ← versionPart (skipSpaces cs)
  match rest with
  | '.' :: rest =>
    let (_, rest) ← versionPart rest
    return (.version major, rest)
  | _ => throw .malformed

/-- The value of a tag directive: a handle, and what it stands for. -/
def tagHandle? (cs : List Char) : Option (Directive × List Char) := do
  let (name, rest) ← handle? (skipSpaces cs)
  if rest.head? = some ' ' then
    let (uri, rest) ← uri? (skipSpaces rest)
    return (.handle name uri, rest)
  else none

/-- What is left behind the line of a directive, on which only a comment may follow. -/
def lineEnd? (cs : List Char) : Option (List Char) :=
  let rest := skipSpaces cs
  match if rest.head? = some '#' then rest.dropWhile (!isBreak ·) else rest with
  | [] => some []
  | c :: rest => if isBreak c then some rest else none

/-- A directive after its percent sign, and the rest of its line. -/
def directive (cs : List Char) : Except Error (Directive × List Char) := do
  let (name, rest) := word cs
  if name = [] || !atSpace rest then throw .malformed
  let (directive, rest) ← match String.ofList name with
    | "YAML" => version rest
    | "TAG" => Scalar.orMalformed (tagHandle? rest)
    | _ => pure (Directive.other, rest.dropWhile (!isBreak ·))
  if !atSpace rest then throw .malformed
  return (directive, ← Scalar.orMalformed (lineEnd? rest))

end Label
end RemoteCache.Yaml
