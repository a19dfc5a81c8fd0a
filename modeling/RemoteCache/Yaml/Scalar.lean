import RemoteCache.Yaml.Error

/-!
# Scalars in a document

The five ways to write a text: plain, between single quotes, between double quotes, and as a literal or folded block
of indented lines. Each reader starts behind the mark that announces the text and gives the text and what is left.

A single line break inside a text is folded to a space, and of several ones all but the first are kept. A literal
block keeps its breaks, a folded one keeps those next to indented lines.
-/

namespace RemoteCache.Yaml

/-! ## Characters -/

/-- Next line, line separator and paragraph separator end lines too. -/
def isBreak (c : Char) : Bool := c = '\n' || c.toNat = 0x85 || c.toNat = 0x2028 || c.toNat = 0x2029

/-- What a line break adds to a text: the separators stand for themselves. -/
def breakText (c : Char) : Char := if c.toNat = 0x85 then '\n' else c

def isBlank (c : Char) : Bool := c = ' ' || c = '\t'

def isGapChar (c : Char) : Bool := isBlank c || isBreak c

/-- Whether a blank, a line break or the end comes next. -/
def atGap (cs : List Char) : Bool := cs.head?.all isGapChar

/-- Whether a document marker stands here. -/
def atMarker (cs : List Char) : Bool :=
  (cs.take 3 = ['-', '-', '-'] || cs.take 3 = ['.', '.', '.']) && atGap (cs.drop 3)

namespace Scalar

/-- What the line breaks between two words are folded to: the first one, and the ones after it. -/
def folded (first : Char) (breaks : List Char) : List Char :=
  (if first ≠ '\n' then [first] else if breaks = [] then [' '] else []) ++ breaks

/-! ## Plain texts -/

/-- Whether a plain text stops before a character; `rest` follows it. In a flow collection its signs stop it. -/
def stopsPlain (inFlow : Bool) (c : Char) (rest : List Char) : Bool :=
  isGapChar c ||
    (c = ':' && (atGap rest || (inFlow && rest.head?.any (· ∈ [',', '[', ']', '\x7b', '\x7d'])))) ||
    (inFlow && c ∈ [',', '?', '[', ']', '\x7b', '\x7d'])

def plainWord (inFlow : Bool) : List Char → List Char × List Char
  | [] => ([], [])
  | c :: rest =>
    if stopsPlain inFlow c rest then ([], c :: rest)
    else
      let (word, rest) := plainWord inFlow rest
      (c :: word, rest)

/-- What stands between two words of a plain text. -/
structure Gap where
  text : List Char
  rest : List Char
  /-- The column after the last line break, if there was one. -/
  column : Option Nat
  /-- Whether a document marker ends the text here. -/
  atMarker : Bool

/-- The line breaks that follow a first one, with the column reached. -/
def gapLines (column : Nat) : List Char → List Char × List Char × Nat × Bool
  | [] => ([], [], column, false)
  | c :: rest =>
    if c = ' ' then gapLines (column + 1) rest
    else if isBreak c then
      if Yaml.atMarker rest then ([breakText c], rest, 0, true)
      else
        let (breaks, more) := gapLines 0 rest
        (breakText c :: breaks, more)
    else ([], c :: rest, column, false)

def gap (cs : List Char) : Gap :=
  let spaces := cs.takeWhile (· = ' ')
  match cs.dropWhile (· = ' ') with
  | c :: rest =>
    if isBreak c then
      if Yaml.atMarker rest then ⟨[], rest, some 0, true⟩
      else
        let (breaks, rest, column, atMarker) := gapLines 0 rest
        ⟨folded (breakText c) breaks, rest, some column, atMarker⟩
    else ⟨spaces, c :: rest, none, false⟩
  | [] => ⟨spaces, [], none, false⟩

/-- Whether a plain text ends behind a gap: its lines are indented by `indent` at least. -/
def Gap.endsPlain (g : Gap) (inFlow : Bool) (indent : Int) : Bool :=
  g.text = [] || g.atMarker || g.rest.head? = some '#' || (!inFlow && g.column.any fun n => (n : Int) < indent)

/-- Reads words; the flag tells whether a line break was passed behind the last one. -/
def plainWords (fuel : Nat) (inFlow : Bool) (indent : Int) (before : Gap) : List Char × List Char × Bool :=
  match fuel, plainWord inFlow before.rest with
  | fuel + 1, (c :: word, rest) =>
    let g := gap rest
    if g.endsPlain inFlow indent then (before.text ++ c :: word, g.rest, g.column.isSome)
    else
      let (more, rest, passed) := plainWords fuel inFlow indent g
      (before.text ++ c :: word ++ more, rest, passed)
  | _, _ => ([], before.rest, before.column.isSome)

/-- A plain text and whether a line break follows it. -/
def plain (inFlow : Bool) (indent : Int) (cs : List Char) : List Char × List Char × Bool :=
  plainWords (cs.length + 1) inFlow indent ⟨[], cs, none, false⟩

/-! ## Quoted texts -/

/-- The line breaks that follow a first one, blanks around them dropped; none before a document marker. -/
def quotedBreaks (fuel : Nat) (cs : List Char) : Option (List Char × List Char) :=
  if Yaml.atMarker cs then none
  else match fuel, cs.dropWhile isBlank with
    | fuel + 1, c :: rest =>
      if isBreak c then (quotedBreaks fuel rest).map fun (breaks, rest) => (breakText c :: breaks, rest)
      else some ([], c :: rest)
    | _, rest => some ([], rest)

/-- Blanks and line breaks inside quotes. -/
def quotedGap (cs : List Char) : Option (List Char × List Char) :=
  let blanks := cs.takeWhile isBlank
  match cs.dropWhile isBlank with
  | [] => none
  | c :: rest =>
    if isBreak c then
      (quotedBreaks rest.length rest).map fun (breaks, rest) => (folded (breakText c) breaks, rest)
    else some (blanks, c :: rest)

def singleQuotedWithin (fuel : Nat) (cs : List Char) : Option (List Char × List Char) :=
  match fuel, cs with
  | fuel + 1, '\'' :: '\'' :: rest => (singleQuotedWithin fuel rest).map fun (t, rest) => ('\'' :: t, rest)
  | _ + 1, '\'' :: rest => some ([], rest)
  | fuel + 1, c :: rest =>
    if isGapChar c then do
      let (text, rest) ← quotedGap (c :: rest)
      let (more, rest) ← singleQuotedWithin fuel rest
      return (text ++ more, rest)
    else (singleQuotedWithin fuel rest).map fun (t, rest) => (c :: t, rest)
  | _, _ => none

/-- The text after a single quote, up to the next one that is not doubled. -/
def singleQuoted (cs : List Char) : Option (List Char × List Char) := singleQuotedWithin (cs.length + 1) cs

/-- The characters with an escape of one letter. -/
def escapes : List (Char × Nat) := [
  ('0', 0), ('a', 7), ('b', 8), ('t', 9), ('\t', 9), ('n', 10), ('v', 11), ('f', 12), ('r', 13), ('e', 27),
  (' ', 32), ('"', 34), ('\\', 92), ('/', 47), ('N', 0x85), ('_', 0xa0), ('L', 0x2028), ('P', 0x2029)]

/-- How many hexadecimal digits follow the letter of a code. -/
def codeLengths : List (Char × Nat) := [('x', 2), ('u', 4), ('U', 8)]

def hexOf (digits : List Char) : Nat := digits.foldl (fun n c => 16 * n + (Hex.value? c).getD 0) 0

/-- The code point of an escape, if there is one of that number. -/
def point (n : Nat) : Except Error Nat :=
  if n < 0x110000 then .ok n
  else if n < 0x80000000 then .error .noValue
  else .error (.outOfRange "Python int too large to convert to C int")

/-- Something read, or a malformed document. -/
def orMalformed {α : Type} : Option α → Except Error α
  | some a => .ok a
  | none => .error .malformed

/-- The text of an escape, after the backslash. -/
def escape (cs : List Char) : Except Error (Text.Points × List Char) :=
  match cs with
  | [] => .error .malformed
  | c :: rest =>
    match escapes.lookup c, codeLengths.lookup c with
    | some code, _ => .ok ([code], rest)
    | none, some n =>
      let digits := rest.take n
      if digits.length = n && digits.all Hex.isDigit then
        (point (hexOf digits)).map fun code => ([code], rest.drop n)
      else .error .malformed
    | none, none =>
      if isBreak c then
        (orMalformed (quotedBreaks rest.length rest)).map fun (breaks, rest) => (.ofChars breaks, rest)
      else .error .malformed

def doubleQuotedWithin (fuel : Nat) (cs : List Char) : Except Error (Text.Points × List Char) :=
  match fuel, cs with
  | _ + 1, '"' :: rest => .ok ([], rest)
  | fuel + 1, '\\' :: rest => do
    let (text, rest) ← escape rest
    let (more, rest) ← doubleQuotedWithin fuel rest
    return (text ++ more, rest)
  | fuel + 1, c :: rest =>
    if isGapChar c then do
      let (text, rest) ← orMalformed (quotedGap (c :: rest))
      let (more, rest) ← doubleQuotedWithin fuel rest
      return (.ofChars text ++ more, rest)
    else (doubleQuotedWithin fuel rest).map fun (t, rest) => (c.toNat :: t, rest)
  | _, _ => .error .malformed

/-- The text after a double quote, up to the next one that is not escaped. -/
def doubleQuoted (cs : List Char) : Except Error (Text.Points × List Char) := doubleQuotedWithin (cs.length + 1) cs

/-! ## Blocks -/

/-- What becomes of the line breaks at the end of a block. -/
inductive Chomping
  | clip | strip | keep
deriving DecidableEq, Repr

def chomping? : Char → Option Chomping
  | '+' => some .keep
  | '-' => some .strip
  | _ => none

/-- A digit from one to nine. -/
def indentDigit? (c : Char) : Option Nat :=
  if '1' ≤ c ∧ c ≤ '9' then some (c.toNat - 48) else none

/-- The indicators of a block, in either order: what becomes of its end, and how far it is indented. -/
def blockIndicators (cs : List Char) : Chomping × Option Nat × List Char :=
  match cs with
  | [] => (.clip, none, [])
  | c :: rest => match chomping? c, indentDigit? c with
    | some chomping, _ => match rest.head?.bind indentDigit? with
      | some n => (chomping, some n, rest.drop 1)
      | none => (chomping, none, rest)
    | none, some n => match rest.head?.bind chomping? with
      | some chomping => (chomping, some n, rest.drop 1)
      | none => (.clip, some n, rest)
    | none, none => (.clip, none, c :: rest)

/-- The rest of the line with the indicators: blanks, a comment and the line break. -/
def blockHeaderEnd? (cs : List Char) : Option (List Char) :=
  if (cs.head?.all fun c => c = ' ' || isBreak c) then
    let rest := cs.dropWhile (· = ' ')
    let rest := if rest.head? = some '#' then rest.dropWhile (!isBreak ·) else rest
    match rest with
    | [] => some []
    | c :: rest => if isBreak c then some rest else none
  else none

/-- Blank lines before a block: the breaks, the widest indentation, the column reached, and the rest. -/
def blockStart (column widest : Nat) : List Char → List Char × Nat × Nat × List Char
  | [] => ([], widest, column, [])
  | c :: rest =>
    if c = ' ' then blockStart (column + 1) (max widest (column + 1)) rest
    else if isBreak c then
      let (breaks, more) := blockStart 0 widest rest
      (breakText c :: breaks, more)
    else ([], widest, column, c :: rest)

/-- Blank lines inside a block of some indentation: the breaks, the column reached, and the rest. -/
def blockBreaks (indent column : Nat) : List Char → List Char × Nat × List Char
  | [] => ([], column, [])
  | c :: rest =>
    if c = ' ' && column < indent then blockBreaks indent (column + 1) rest
    else if isBreak c then
      let (breaks, more) := blockBreaks indent 0 rest
      (breakText c :: breaks, more)
    else ([], column, c :: rest)

def startsBlank (cs : List Char) : Bool := cs.head?.any isBlank

/-- What a line break between two lines becomes when `breaks` follow it. -/
def blockJoint (isFolded : Bool) (line next lineBreak breaks : List Char) : List Char :=
  if isFolded && lineBreak = ['\n'] && !startsBlank line && !startsBlank next then
    if breaks = [] then [' '] else []
  else lineBreak

/-- The lines of a block, behind some breaks and at a column: the text, its last break, the breaks after that, and
the rest. -/
def blockLines (fuel : Nat) (isFolded : Bool) (indent column : Nat) (breaks cs : List Char) :
    List Char × List Char × List Char × List Char :=
  match fuel with
  | 0 => ([], [], breaks, cs)
  | fuel + 1 =>
    if column = indent && cs ≠ [] then
      let line := cs.takeWhile (!isBreak ·)
      let (lineBreak, after) := match cs.dropWhile (!isBreak ·) with
        | [] => ([], [])
        | c :: rest => ([breakText c], rest)
      let (breaks', column', next) := blockBreaks indent 0 after
      if column' = indent && next ≠ [] then
        let (text, ending) := blockLines fuel isFolded indent column' breaks' next
        (breaks ++ line ++ blockJoint isFolded cs next lineBreak breaks' ++ text, ending)
      else (breaks ++ line, lineBreak, breaks', next)
    else ([], [], breaks, cs)

/-- The text of a block after its sign; `indent` is the indentation of the lines around it. -/
def block (isFolded : Bool) (indent : Int) (cs : List Char) : Option (List Char × List Char) := do
  let (chomping, width, rest) := blockIndicators cs
  let rest ← blockHeaderEnd? rest
  let least := (max (indent + 1) 1).toNat
  let (indent, breaks, column, rest) := match width with
    | some n =>
      let indent := least + n - 1
      (indent, blockBreaks indent 0 rest)
    | none =>
      let (breaks, widest, column, rest) := blockStart 0 0 rest
      (max least widest, breaks, column, rest)
  let (text, lineBreak, breaks, rest) := blockLines (rest.length + 1) isFolded indent column breaks rest
  let ending := match chomping with
    | .strip => []
    | .clip => lineBreak
    | .keep => lineBreak ++ breaks
  return (text ++ ending, rest)

end Scalar
end RemoteCache.Yaml
