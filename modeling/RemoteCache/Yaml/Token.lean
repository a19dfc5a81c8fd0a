import RemoteCache.Entries
import RemoteCache.Yaml.Label

/-!
# Tokens of a document

The signs, labels and texts of a document in a row, with a token for each place where a block of some indentation
starts or ends. A text, a label or a flow collection may turn out to be a key only when a colon comes behind it on the
same line; its place is kept until then, and the colon puts the key's tokens in there.

Where no token can be read the row ends with a fault. It counts once all tokens before it are used. Tokens from the
place of a possible key on cannot be used before it is settled, so those are left out.
-/

namespace RemoteCache.Yaml

inductive Token
  | documentStart | documentEnd
  | blockSequence | blockMapping | blockEnd
  | flowSequence | flowSequenceEnd | flowMapping | flowMappingEnd
  | blockEntry | flowEntry | key | value
  | scalar (text : Text.Points) (isPlain : Bool)
  | anchor (name : String)
  | alias (name : String)
  | tag (tag : TagText)
  | directive (d : Directive)
  | fault (e : Error)
deriving DecidableEq, Repr

/-- A place in a document. -/
structure Cursor where
  rest : List Char
  index : Nat := 0
  line : Nat := 0
  column : Nat := 0

namespace Cursor

/-- Goes past one character; a byte order mark takes no column. -/
def step (c : Cursor) : Cursor :=
  match c.rest with
  | [] => c
  | ch :: rest =>
    if isBreak ch then ⟨rest, c.index + 1, c.line + 1, 0⟩
    else ⟨rest, c.index + 1, c.line, if ch.toNat = 0xfeff then c.column else c.column + 1⟩

def forward (c : Cursor) (n : Nat) : Cursor := Nat.repeat step n c

/-- Goes to where only `rest` is left. -/
def goTo (c : Cursor) (rest : List Char) : Cursor := c.forward (c.rest.length - rest.length)

end Cursor

/-- Where a key may have started. -/
structure KeyPlace where
  /-- How many tokens stand before it. -/
  position : Nat
  /-- Whether a colon has to follow. -/
  required : Bool
  index : Nat
  line : Nat
  column : Nat

/-- How far a document has been read. -/
structure Reading where
  cursor : Cursor
  /-- The tokens so far. -/
  tokens : List Token := []
  /-- How many flow collections are open. -/
  flow : Nat := 0
  /-- The column of the innermost open block, and those of the blocks around it. -/
  indent : Int := -1
  outer : List Int := []
  /-- Whether a key may start here. -/
  keyAllowed : Bool := true
  /-- Where keys may have started, by the number of open flow collections. -/
  places : List (Nat × KeyPlace) := []

namespace Reading

def column (s : Reading) : Int := s.cursor.column

def emit (s : Reading) (token : Token) : Reading := { s with tokens := s.tokens ++ [token] }

/-- Emits the token of a sign and goes past it. -/
def sign (s : Reading) (token : Token) (length : Nat := 1) : Reading :=
  { s.emit token with cursor := s.cursor.forward length }

def insert (s : Reading) (position : Nat) (token : Token) : Reading :=
  { s with tokens := s.tokens.take position ++ token :: s.tokens.drop position }

/-! ## Indentation -/

/-- Closes the blocks whose column lies beyond `column`, given the columns of all open blocks. -/
def closed (column : Int) : Int → List Int → Nat × Int × List Int
  | indent, [] => if column < indent then (1, -1, []) else (0, indent, [])
  | indent, next :: outer =>
    if column < indent then
      let (n, rest) := closed column next outer
      (n + 1, rest)
    else (0, indent, next :: outer)

/-- Closes the blocks whose column lies beyond the given one. Inside a flow collection indentation means nothing. -/
def unwind (s : Reading) (column : Int) : Reading :=
  if s.flow ≠ 0 then s
  else
    let (n, indent, outer) := closed column s.indent s.outer
    { s with tokens := s.tokens ++ List.replicate n .blockEnd, indent, outer }

/-- Opens a block at a column beyond that of the innermost one; the flag tells whether it did. -/
def openBlock (s : Reading) (column : Int) : Bool × Reading :=
  if s.indent < column then (true, { s with outer := s.indent :: s.outer, indent := column }) else (false, s)

/-! ## Keys -/

/-- Forgets the key's place in the innermost flow collection. -/
def dropPlace (s : Reading) : Except Error Reading :=
  match s.places.lookup s.flow with
  | some place =>
    if place.required then .error .malformed else .ok { s with places := Entries.drop s.places s.flow }
  | none => .ok s

/-- Notes that a key may start here. -/
def notePlace (s : Reading) : Except Error Reading :=
  if s.keyAllowed then do
    let s ← s.dropPlace
    let place : KeyPlace := {
      position := s.tokens.length
      required := s.flow = 0 && s.indent = s.column
      index := s.cursor.index, line := s.cursor.line, column := s.cursor.column }
    return { s with places := Entries.put s.places s.flow place }
  else .ok s

/-- The longest key. -/
def keyLimit : Nat := 1024

/-- Whether a place is too far behind: keys end on their line. -/
def isStale (s : Reading) (place : KeyPlace) : Bool :=
  place.line ≠ s.cursor.line || keyLimit < s.cursor.index - place.index

/-- Forgets the places that are too far behind. -/
def dropStale (s : Reading) : Except Error Reading :=
  if s.places.any fun (_, place) => s.isStale place && place.required then .error .malformed
  else .ok { s with places := s.places.filter fun (_, place) => !s.isStale place }

/-- The tokens that can be used before more is read. -/
def usable (s : Reading) : List Token :=
  let open_ := s.places.filter fun (_, place) => !s.isStale place
  s.tokens.take (open_.foldl (fun n (_, place) => min n place.position) s.tokens.length)

/-! ## Steps -/

/-- Goes past spaces, comments and line breaks. -/
def skipGaps (fuel : Nat) (s : Reading) : Reading :=
  match fuel with
  | 0 => s
  | fuel + 1 =>
    let rest := s.cursor.rest.dropWhile (· = ' ')
    let rest := if rest.head? = some '#' then rest.dropWhile (!isBreak ·) else rest
    match rest with
    | [] => { s with cursor := s.cursor.goTo [] }
    | c :: after =>
      if isBreak c then
        skipGaps fuel { s with cursor := s.cursor.goTo after, keyAllowed := s.keyAllowed || s.flow = 0 }
      else { s with cursor := s.cursor.goTo rest }

def documentMarker (s : Reading) (token : Token) : Except Error Reading := do
  let s ← (s.unwind (-1)).dropPlace
  return { s with keyAllowed := false }.sign token 3

def flowStart (s : Reading) (token : Token) : Except Error Reading := do
  let s ← s.notePlace
  return { s with flow := s.flow + 1, keyAllowed := true }.sign token

def flowEnd (s : Reading) (token : Token) : Except Error Reading :=
  if s.flow = 0 then .error .malformed
  else do
    let s ← s.dropPlace
    return { s with flow := s.flow - 1, keyAllowed := false }.sign token

def flowEntry (s : Reading) : Except Error Reading := do
  let s ← { s with keyAllowed := true }.dropPlace
  return s.sign .flowEntry

/-- An entry or an explicit key in a block; it may open the block. -/
def blockSign (s : Reading) (opening token : Token) (keyAllowed : Bool) : Except Error Reading := do
  let s ← if s.flow ≠ 0 then pure s
    else if !s.keyAllowed then throw .malformed
    else match s.openBlock s.column with
      | (true, s) => pure (s.emit opening)
      | (false, s) => pure s
  let s ← { s with keyAllowed }.dropPlace
  return s.sign token

/-- The colon between a key and its value. -/
def valueSign (s : Reading) : Except Error Reading :=
  match s.places.lookup s.flow with
  | some place =>
    let s := { s with places := Entries.drop s.places s.flow, keyAllowed := false }.insert place.position .key
    let s := if s.flow ≠ 0 then s
      else match s.openBlock place.column with
        | (true, s) => s.insert place.position .blockMapping
        | (false, s) => s
    .ok (s.sign .value)
  | none => s.blockSign .blockMapping .value (s.flow = 0)

/-- A text or a label that may be a key. -/
def word (s : Reading) (token : Token) (keyAllowed : Bool) (rest : List Char) : Except Error Reading := do
  let s ← s.notePlace
  return { s with keyAllowed, cursor := s.cursor.goTo rest }.emit token

def block (s : Reading) (isFolded : Bool) (cs : List Char) : Except Error Reading := do
  let s ← { s with keyAllowed := true }.dropPlace
  let (text, rest) ← Scalar.orMalformed (Scalar.block isFolded s.indent cs)
  return { s with cursor := s.cursor.goTo rest }.emit (.scalar (.ofChars text) false)

def directive (s : Reading) (cs : List Char) : Except Error Reading := do
  let s ← (s.unwind (-1)).dropPlace
  let (directive, rest) ← Label.directive cs
  return { s with keyAllowed := false, cursor := s.cursor.goTo rest }.emit (.directive directive)

/-- The signs that cannot start a plain text. -/
def signs : List Char := [
  '-', '?', ':', ',', '[', ']', '\x7b', '\x7d', '#', '&', '*', '!', '|', '>', '\'', '"', '%', '@', '\x60']

/-- Whether a plain text starts with a character; `rest` follows it. -/
def startsPlain (s : Reading) (c : Char) (rest : List Char) : Bool :=
  !(isGapChar c || c ∈ signs) || (!atGap rest && (c = '-' || (s.flow = 0 && (c = '?' || c = ':'))))

/-- Reads what starts with a character; `rest` follows it. -/
def token (s : Reading) (c : Char) (rest : List Char) : Except Error Reading :=
  let here := c :: rest
  if s.cursor.column = 0 && c = '%' then s.directive rest
  else if s.cursor.column = 0 && c = '-' && atMarker here then s.documentMarker .documentStart
  else if s.cursor.column = 0 && c = '.' && atMarker here then s.documentMarker .documentEnd
  else if c = '[' then s.flowStart .flowSequence
  else if c = '\x7b' then s.flowStart .flowMapping
  else if c = ']' then s.flowEnd .flowSequenceEnd
  else if c = '\x7d' then s.flowEnd .flowMappingEnd
  else if c = ',' then s.flowEntry
  else if c = '-' && atGap rest then s.blockSign .blockSequence .blockEntry true
  else if c = '?' && (s.flow ≠ 0 || atGap rest) then s.blockSign .blockMapping .key (s.flow = 0)
  else if c = ':' && (s.flow ≠ 0 || atGap rest) then s.valueSign
  else if c = '*' then do
    let (name, rest) ← Scalar.orMalformed (Label.name? rest)
    s.word (.alias name) false rest
  else if c = '&' then do
    let (name, rest) ← Scalar.orMalformed (Label.name? rest)
    s.word (.anchor name) false rest
  else if c = '!' then do
    let (tag, rest) ← Scalar.orMalformed (Label.tag? here)
    s.word (.tag tag) false rest
  else if c = '|' && s.flow = 0 then s.block false rest
  else if c = '>' && s.flow = 0 then s.block true rest
  else if c = '\'' then do
    let (text, rest) ← Scalar.orMalformed (Scalar.singleQuoted rest)
    s.word (.scalar (.ofChars text) false) false rest
  else if c = '"' then do
    let (text, rest) ← Scalar.doubleQuoted rest
    s.word (.scalar text false) false rest
  else if s.startsPlain c rest then
    let (text, rest, passed) := Scalar.plain (s.flow ≠ 0) (s.indent + 1) here
    s.word (.scalar (.ofChars text) true) passed rest
  else .error .malformed

/-- Reads one token, or to the end, where the flag is false. -/
def next (s : Reading) : Except Error (Bool × Reading) := do
  let s ← (s.skipGaps (s.cursor.rest.length + 1)).dropStale
  let s := s.unwind s.column
  match s.cursor.rest with
  | [] => return (false, ← (s.unwind (-1)).dropPlace)
  | c :: rest => return (true, ← s.token c rest)

/-- Reads to the end. Each token takes a character at least. -/
def run (fuel : Nat) (s : Reading) : List Token :=
  match fuel, s.next with
  | _, .error e => s.usable ++ [.fault e]
  | _, .ok (false, s) => s.tokens
  | 0, .ok (true, _) => s.usable ++ [.fault .malformed]
  | fuel + 1, .ok (true, s) => run fuel s

end Reading

/-- The tokens of a document; a byte order mark may come first. -/
def tokens (cs : List Char) : List Token :=
  let start : Cursor := { rest := cs }
  let start := if cs.head?.any (·.toNat = 0xfeff) then start.step else start
  Reading.run cs.length { cursor := start }

end RemoteCache.Yaml
