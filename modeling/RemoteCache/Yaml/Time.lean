import RemoteCache.Value

/-!
# Points in time in a document

A date, or a date with a time of day and perhaps an offset: `2001-12-14`, `2001-12-14T21:59:43.10-05:00`. A month or
a day may have one digit. Seconds may have a fraction, of which six digits count.
-/

namespace RemoteCache.Yaml

/-- A point in time as it is written. -/
structure TimeText where
  date : Date
  /-- Whether month and day have two digits each. -/
  isPadded : Bool
  /-- Hour, minute, second and microsecond, and the offset in minutes if there is one. -/
  clock : Option (Nat × Nat × Nat × Nat × Option Int)

namespace TimeText

/-- Between `least` and `most` digits. -/
def digits? (least most : Nat) (cs : List Char) : Option (Nat × List Char) :=
  let digits := (cs.take most).takeWhile Char.isDigit
  if digits.length < least then none else some (Digits.natOf digits, cs.drop digits.length)

/-- What is left behind a sign. -/
def behind? (sign : Char) (cs : List Char) : Option (List Char) :=
  match cs with
  | c :: rest => if c = sign then some rest else none
  | [] => none

def isBlank (c : Char) : Bool := c = ' ' || c = '\t'

/-- The fraction of a second in microseconds. -/
def fraction (cs : List Char) : Nat × List Char :=
  match cs with
  | '.' :: rest =>
    let digits := (rest.takeWhile Char.isDigit).take 6
    (Digits.natOf (digits ++ List.replicate (6 - digits.length) '0'), rest.dropWhile Char.isDigit)
  | cs => (0, cs)

/-- An offset with its sign, in minutes. -/
def signedOffset? (negative : Bool) (cs : List Char) : Option Int := do
  let (hours, rest) ← digits? 1 2 cs
  match rest with
  | [] => return Digits.signed negative (60 * hours)
  | rest =>
    let (minutes, rest) ← digits? 2 2 (← behind? ':' rest)
    if rest = [] then return Digits.signed negative (60 * hours + minutes) else none

/-- The offset at the end of a text, if there is one. -/
def offset? (cs : List Char) : Option (Option Int) :=
  if cs = [] then some none
  else match cs.dropWhile isBlank with
    | ['Z'] => some (some 0)
    | '-' :: rest => (signedOffset? true rest).map some
    | '+' :: rest => (signedOffset? false rest).map some
    | _ => none

/-- The time of day behind a date and what separates them. -/
def clock? (cs : List Char) : Option (Nat × Nat × Nat × Nat × Option Int) := do
  let (hour, rest) ← digits? 1 2 cs
  let (minute, rest) ← digits? 2 2 (← behind? ':' rest)
  let (second, rest) ← digits? 2 2 (← behind? ':' rest)
  let (microsecond, rest) := fraction rest
  return (hour, minute, second, microsecond, ← offset? rest)

/-- What is left behind the letter or the blanks that separate a time of day from its date. -/
def separated? : List Char → Option (List Char)
  | c :: rest =>
    if c = 'T' || c = 't' then some rest else if isBlank c then some (rest.dropWhile isBlank) else none
  | [] => none

def parse? (cs : List Char) : Option TimeText := do
  let (year, afterYear) ← digits? 4 4 cs
  let (month, afterMonth) ← digits? 1 2 (← behind? '-' afterYear)
  let (day, rest) ← digits? 1 2 (← behind? '-' afterMonth)
  let isPadded := afterYear.length - rest.length = 6
  if rest = [] then return ⟨⟨year, month, day⟩, isPadded, none⟩
  else return ⟨⟨year, month, day⟩, isPadded, some (← clock? (← separated? rest))⟩

/-- Whether a text is a point in time without being called one: a lone date has to have two digits for its month and
its day. -/
def isPlain (t : TimeText) : Bool := t.isPadded || t.clock.isSome

/-- The date or moment, if there is one in the calendar. -/
def value? (t : TimeText) : Option Value :=
  match t.clock with
  | none => if t.date.isValid then some (.date t.date) else none
  | some (hour, minute, second, microsecond, offset) =>
    let m : Moment := { date := t.date, hour, minute, second, microsecond, offset }
    if m.isValid then some (.moment m) else none

end TimeText
end RemoteCache.Yaml
