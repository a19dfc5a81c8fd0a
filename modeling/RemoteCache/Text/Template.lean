import RemoteCache.Value

/-!
# Message templates

A template is a text with directives and with doubled percent signs, which stand for one. A directive is a percent
sign, then optionally a name in brackets, flags, a width, a precision and a length letter that changes nothing, and
at last a conversion. `Template.parse?` splits a template into pieces; `Template.fill?` puts arguments in. Arguments
come either in a row, each used exactly once, or as a mapping, from which a directive picks by name and of which not
every entry need be used.

There is no partial result: a directive that its argument does not fit, a missing argument or one too many
leaves no text at all.
-/

namespace RemoteCache

namespace Template

/-- What the directives take their values from. -/
inductive Arguments
  | row (values : List Value)
  | mapping (entries : List (Value × Value))

structure Flags where
  left : Bool
  sign : Bool
  blank : Bool
  alternate : Bool
  zero : Bool

/-- A width or precision: absent, written out, or taken from the arguments. -/
inductive Size
  | absent
  | fixed (n : Nat)
  | taken

structure Directive where
  key : Option String
  flags : Flags
  width : Size
  precision : Size
  conversion : Char

inductive Piece
  | literal (c : Char)
  | directive (d : Directive)

/-! ## Reading a template -/

/-- The name up to the bracket that closes it; `depth` brackets are open inside. -/
def closeKey? (depth : Nat) (acc : List Char) : List Char → Option (List Char × List Char)
  | [] => none
  | ')' :: rest =>
    match depth with
    | 0 => some (acc.reverse, rest)
    | depth + 1 => closeKey? depth (')' :: acc) rest
  | '(' :: rest => closeKey? (depth + 1) ('(' :: acc) rest
  | c :: rest => closeKey? depth (c :: acc) rest

def splitKey? : List Char → Option (Option String × List Char)
  | '(' :: rest => (closeKey? 0 [] rest).map fun (key, rest) => (some (String.ofList key), rest)
  | cs => some (none, cs)

def isFlag (c : Char) : Bool := c ∈ ['-', '+', ' ', '#', '0']

def Flags.ofChars (cs : List Char) : Flags :=
  ⟨'-' ∈ cs, '+' ∈ cs, ' ' ∈ cs, '#' ∈ cs, '0' ∈ cs⟩

def splitWidth : List Char → Size × List Char
  | '*' :: rest => (.taken, rest)
  | cs =>
    let digits := cs.takeWhile Char.isDigit
    (if digits = [] then .absent else .fixed (Digits.natOf digits), cs.dropWhile Char.isDigit)

def splitPrecision : List Char → Size × List Char
  | '.' :: '*' :: rest => (.taken, rest)
  | '.' :: rest => (.fixed (Digits.natOf (rest.takeWhile Char.isDigit)), rest.dropWhile Char.isDigit)
  | cs => (.absent, cs)

def dropLength : List Char → List Char
  | c :: rest => if c ∈ ['h', 'l', 'L'] then rest else c :: rest
  | [] => []

/-- What stands after a percent sign, and the rest of the template. -/
def directive? (cs : List Char) : Option (Directive × List Char) :=
  match splitKey? cs with
  | none => none
  | some (key, cs) =>
    let flags := Flags.ofChars (cs.takeWhile isFlag)
    let (width, cs) := splitWidth (cs.dropWhile isFlag)
    let (precision, cs) := splitPrecision cs
    match dropLength cs with
    | [] => none
    | conversion :: rest => some (⟨key, flags, width, precision, conversion⟩, rest)

theorem length_closeKey? {depth : Nat} {acc cs key rest : List Char}
    (h : closeKey? depth acc cs = some (key, rest)) : rest.length < cs.length := by
  fun_induction closeKey? depth acc cs with
  | case1 => simp at h
  | case2 acc rest => simp_all
  | case3 acc rest depth ih => have := ih h; simp; omega
  | case4 depth acc rest ih => have := ih h; simp; omega
  | case5 depth acc c rest _ _ ih => have := ih h; simp; omega

theorem length_splitKey? {cs rest : List Char} {key : Option String}
    (h : splitKey? cs = some (key, rest)) : rest.length ≤ cs.length := by
  unfold splitKey? at h
  split at h
  · obtain ⟨⟨k, r⟩, hk, he⟩ := Option.map_eq_some_iff.1 h
    have := length_closeKey? hk
    simp_all
    omega
  · simp_all

theorem length_splitWidth (cs : List Char) : (splitWidth cs).2.length ≤ cs.length := by
  unfold splitWidth
  split
  · simp
  · exact (List.dropWhile_sublist _).length_le

theorem length_splitPrecision (cs : List Char) : (splitPrecision cs).2.length ≤ cs.length := by
  unfold splitPrecision
  split
  · simp; omega
  · have := (List.dropWhile_sublist (l := ‹List Char›) Char.isDigit).length_le
    simp
    omega
  · simp

theorem length_dropLength (cs : List Char) : (dropLength cs).length ≤ cs.length := by
  unfold dropLength
  split
  · split <;> simp
  · simp

theorem length_directive? {cs rest : List Char} {d : Directive}
    (h : directive? cs = some (d, rest)) : rest.length < cs.length := by
  unfold directive? at h
  split at h
  · simp at h
  · rename_i key cs' hk
    have h1 := length_splitKey? hk
    have h2 := (List.dropWhile_sublist (l := cs') isFlag).length_le
    have h3 := length_splitWidth (cs'.dropWhile isFlag)
    have h4 := length_splitPrecision (splitWidth (cs'.dropWhile isFlag)).2
    have h5 := length_dropLength (splitPrecision (splitWidth (cs'.dropWhile isFlag)).2).2
    simp only at h
    split at h
    · simp at h
    · rename_i conversion rest' hr
      simp only [Option.some.injEq, Prod.mk.injEq] at h
      rw [hr] at h5
      simp only [List.length_cons] at h5
      rw [← h.2]
      omega

/-- Splits a template into its pieces. -/
def parse? : List Char → Option (List Piece)
  | [] => some []
  | '%' :: '%' :: rest => (parse? rest).map (.literal '%' :: ·)
  | '%' :: rest =>
    match _h : directive? rest with
    | none => none
    | some (d, rest') => (parse? rest').map (.directive d :: ·)
  | c :: rest => (parse? rest).map (.literal c :: ·)
termination_by cs => cs.length
decreasing_by
  · simp only [List.length_cons]
    omega
  · have := length_directive? _h
    simp only [List.length_cons]
    omega
  · simp

/-! ## Numbers -/

/-- A number in a base, with its marker, at least `precision` digits long. -/
def integerText (conversion : Char) (flags : Flags) (precision : Option Nat) (n : Int) : List Char :=
  let base := if conversion = 'o' then 8 else if conversion = 'x' ∨ conversion = 'X' then 16 else 10
  let digits := Nat.toDigits base n.natAbs
  let digits := List.replicate (precision.getD 0 - digits.length) '0' ++ digits
  let marker := if flags.alternate ∧ base ≠ 10 then ['0', if base = 8 then 'o' else 'x'] else []
  let body := marker ++ digits
  let body := if conversion = 'X' then body.map Char.toUpper else body
  if n < 0 then '-' :: body else body

/-- A positive ratio to a number of significant digits: the digits and the place of the point. -/
def significant (count num den : Nat) : List Char × Int :=
  if num = 0 then ('0' :: List.replicate (count - 1) '0', 1)
  else
    let point := Binary64.magnitude num den
    let shift := (count : Int) - point
    let rounded := match shift with
      | .ofNat k => Binary64.roundDiv (num * Nat.pow 10 k) den
      | .negSucc k => Binary64.roundDiv num (den * Nat.pow 10 (k + 1))
    let digits := Nat.toDigits 10 rounded
    if digits.length > count then (digits.take count, point + 1) else (digits, point)

/-- Digits with a point after the first `whole` of them; no point without a fraction unless it is forced. -/
def withPoint (forced : Bool) (digits : List Char) (whole : Nat) : List Char :=
  let fraction := digits.drop whole
  digits.take whole ++ (if fraction = [] ∧ ¬ forced then [] else '.' :: fraction)

def fixedText (forced : Bool) (precision num den : Nat) : List Char :=
  let digits := Nat.toDigits 10 (Binary64.roundDiv (num * Nat.pow 10 precision) den)
  let digits := List.replicate (precision + 1 - digits.length) '0' ++ digits
  withPoint forced digits (digits.length - precision)

def exponentText (forced : Bool) (precision num den : Nat) : List Char :=
  let (digits, point) := significant (precision + 1) num den
  withPoint forced digits 1 ++ 'e' :: Binary64.exponentText (point - 1)

/-- Positional for exponents from -4 up to below the precision, and without zeros at the end unless forced. -/
def generalText (forced : Bool) (precision num den : Nat) : List Char :=
  let count := max precision 1
  let (digits, point) := significant count num den
  let digits := if forced then digits else
    match (digits.reverse.dropWhile (· = '0')).reverse with
    | [] => ['0']
    | digits => digits
  if -4 < point ∧ point ≤ count then
    match point with
    | .ofNat p =>
      let digits := digits ++ List.replicate (p - digits.length) '0'
      if p = 0 then '0' :: '.' :: digits else withPoint forced digits p
    | .negSucc k => '0' :: '.' :: (List.replicate (k + 1) '0' ++ digits)
  else withPoint forced digits 1 ++ 'e' :: Binary64.exponentText (point - 1)

def realText (conversion : Char) (flags : Flags) (precision : Option Nat) (x : Binary64) : List Char :=
  let p := precision.getD 6
  let body := match x with
    | .nan => "nan".toList
    | .infinite negative => (if negative then "-inf" else "inf").toList
    | .finite negative m e =>
      let (num, den) := Binary64.ratio m e
      let size := match conversion.toLower with
        | 'e' => exponentText flags.alternate p num den
        | 'f' => fixedText flags.alternate p num den
        | _ => generalText flags.alternate p num den
      if negative then '-' :: size else size
  if conversion.isUpper then body.map Char.toUpper else body

/-! ## Filling -/

/-- Pads a converted value to a width. A number's sign and marker stay in front of zeros, and zeros go to the
left only. -/
def pad (d : Directive) (left : Bool) (width : Nat) (numeric : Bool) (body : List Char) : List Char :=
  let (sign, body) := match numeric, body with
    | true, '-' :: rest => (['-'], rest)
    | true, body => (if d.flags.sign then ['+'] else if d.flags.blank then [' '] else [], body)
    | false, body => ([], body)
  let marked := numeric ∧ d.flags.alternate ∧ d.conversion ∈ ['o', 'x', 'X']
  let marker := if marked then body.take 2 else []
  let body := if marked then body.drop 2 else body
  let gap := width - (sign.length + marker.length + body.length)
  if left then sign ++ marker ++ body ++ List.replicate gap ' '
  else if numeric ∧ d.flags.zero then sign ++ marker ++ List.replicate gap '0' ++ body
  else List.replicate gap ' ' ++ sign ++ marker ++ body

/-- A text in which the characters beyond ASCII are escaped. -/
def asciiOnly (cs : List Char) : List Char :=
  cs.flatMap fun c => if c.toNat < 128 then [c] else Text.Quoted.codeEscape c.toNat

/-- A value by a conversion, and whether the result counts as a number. -/
def convert? (d : Directive) (precision : Option Nat) (v : Value) : Option (List Char × Bool) :=
  let cut (cs : List Char) := match precision with | some p => cs.take p | none => cs
  match d.conversion with
  | 's' => some (cut v.display.toList, false)
  | 'r' => some (cut v.quoted.toList, false)
  | 'a' => some (cut (asciiOnly v.quoted.toList), false)
  | 'c' => match v with
    | .text s => match s.toList with
      | [c] => some ([c], false)
      | _ => none
    | .int n => if h : n.toNat.isValidChar ∧ 0 ≤ n then some ([Char.ofNatAux n.toNat h.1], false) else none
    | .bool b => some ([Char.ofNat b.toNat], false)
    | _ => none
  | c =>
    if c ∈ ['d', 'i', 'u'] then
      match v with
      | .int n => some (integerText c d.flags precision n, true)
      | .bool b => some (integerText c d.flags precision b.toNat, true)
      | .real x => x.truncate?.map fun n => (integerText c d.flags precision n, true)
      | _ => none
    else if c ∈ ['o', 'x', 'X'] then
      match v with
      | .int n => some (integerText c d.flags precision n, true)
      | .bool b => some (integerText c d.flags precision b.toNat, true)
      | _ => none
    else if c ∈ ['e', 'E', 'f', 'F', 'g', 'G'] then
      match v with
      | .real x => some (realText c d.flags precision x, true)
      | .int n => match Binary64.ofInt n with
        | .infinite _ => none
        | x => some (realText c d.flags precision x, true)
      | .bool b => some (realText c d.flags precision (.ofInt b.toNat), true)
      | _ => none
    else none

/-- The arguments still to be used, and whether those left over at the end are let pass. -/
structure Supply where
  values : List Value
  named : Option (List (Value × Value))

def Supply.ofArguments : Arguments → Supply
  | .row values => ⟨values, none⟩
  | .mapping entries => ⟨[.dict entries], some entries⟩

def Supply.next? (s : Supply) : Option (Value × Supply) :=
  match s.values with
  | [] => none
  | v :: rest => some (v, { s with values := rest })

/-- A named directive leaves the entry of that name as the one value to use. -/
def Supply.select? (s : Supply) : Option String → Option Supply
  | none => some s
  | some key => s.named.bind fun entries =>
    (Value.get? entries key).map fun v => { s with values := [v] }

/-- The largest width or precision. -/
def sizeLimit : Nat := 0x7fffffff

/-- A width or precision, perhaps taken from the arguments. -/
def Supply.size? (s : Supply) : Size → Option (Option Int × Supply)
  | .absent => some (none, s)
  | .fixed n => if n ≤ sizeLimit then some (some n, s) else none
  | .taken => s.next?.bind fun
    | (.int n, s) => if n.natAbs ≤ sizeLimit then some (some n, s) else none
    | (.bool b, s) => some (some b.toNat, s)
    | _ => none

def fillDirective? (d : Directive) (s : Supply) : Option (List Char × Supply) := do
  let s ← s.select? d.key
  let (width, s) ← s.size? d.width
  let (precision, s) ← s.size? d.precision
  let (v, s) ← s.next?
  let (body, numeric) ← convert? d (precision.map Int.toNat) v
  let width := width.getD 0
  return (pad d (d.flags.left || width < 0) width.natAbs numeric body, s)

def fillPieces? (s : Supply) : List Piece → Option (List Char)
  | [] => if s.values.isEmpty ∨ s.named.isSome then some [] else none
  | .literal c :: rest => (fillPieces? s rest).map (c :: ·)
  | .directive d :: rest =>
    (fillDirective? d s).bind fun (text, s) => (fillPieces? s rest).map (text ++ ·)

end Template

/-- The template with its arguments put in. -/
def Template.fill? (template : String) (arguments : Template.Arguments) : Option String :=
  (Template.parse? template.toList).bind fun pieces =>
    (Template.fillPieces? (.ofArguments arguments) pieces).map String.ofList

end RemoteCache
