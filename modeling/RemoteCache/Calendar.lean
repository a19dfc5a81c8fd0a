import RemoteCache.Number.Digits

/-!
# Dates and moments

Days of the Gregorian calendar, from the year 1 to the year 9999, and times of day on them, with or without the
offset of a time zone. Two moments with offsets are the same if they are the same instant, whatever their offsets; a
moment without one is never the same as a moment with one.
-/

namespace RemoteCache

/-! ## Dates -/

structure Date where
  year : Nat
  month : Nat
  day : Nat
deriving DecidableEq, Repr

namespace Date

def isLeap (year : Nat) : Bool := year % 4 = 0 && (year % 100 ≠ 0 || year % 400 = 0)

def monthLength (year month : Nat) : Nat :=
  if month = 2 then (if isLeap year then 29 else 28)
  else if month ∈ [4, 6, 9, 11] then 30 else 31

def isValid (d : Date) : Bool :=
  1 ≤ d.year && d.year ≤ 9999 && 1 ≤ d.month && d.month ≤ 12 && 1 ≤ d.day && d.day ≤ monthLength d.year d.month

/-- The days before a year. -/
def daysBeforeYear (year : Nat) : Nat :=
  let y := year - 1
  365 * y + y / 4 - y / 100 + y / 400

/-- The number of a day, the first of all being one. -/
def ordinal (d : Date) : Nat :=
  daysBeforeYear d.year + (List.range (d.month - 1)).foldl (fun days m => days + monthLength d.year (m + 1)) d.day

end Date

/-! ## Moments -/

structure Moment where
  date : Date
  hour : Nat
  minute : Nat
  second : Nat
  microsecond : Nat
  /-- The minutes that a time zone is ahead of universal time. -/
  offset : Option Int
deriving DecidableEq, Repr

namespace Moment

/-- Offsets are smaller than a day. -/
def isValid (m : Moment) : Bool :=
  m.date.isValid && m.hour < 24 && m.minute < 60 && m.second < 60 && m.offset.all (·.natAbs < 24 * 60)

/-- The microseconds since the start of the calendar, in universal time if there is an offset. -/
def instant (m : Moment) : Int :=
  let minutes : Int := (m.date.ordinal * 24 + m.hour) * 60 + m.minute
  ((minutes - m.offset.getD 0) * 60 + m.second) * 1000000 + m.microsecond

def isSame (a b : Moment) : Bool := a.offset.isSome == b.offset.isSome && a.instant == b.instant

end Moment

/-! ## Text -/

/-- Numbers in a row. -/
def Date.listed (numbers : List Nat) : String := ", ".intercalate (numbers.map toString)

def Date.display (d : Date) : String := "datetime.date(" ++ listed [d.year, d.month, d.day] ++ ")"

/-- An offset as a number of whole days and the seconds beyond them. -/
def Moment.offsetText (minutes : Int) : String :=
  if minutes = 0 then "datetime.timezone.utc"
  else
    let days := minutes / (24 * 60)
    let rest := "seconds=" ++ toString (minutes % (24 * 60) * 60)
    "datetime.timezone(datetime.timedelta(" ++
      (if days = 0 then rest else "days=" ++ toString days ++ ", " ++ rest) ++ "))"

/-- Microseconds are left out if there are none, and so are then the seconds. -/
def Moment.display (m : Moment) : String :=
  let numbers := [m.date.year, m.date.month, m.date.day, m.hour, m.minute] ++
    (if m.microsecond ≠ 0 then [m.second, m.microsecond] else if m.second ≠ 0 then [m.second] else [])
  "datetime.datetime(" ++ Date.listed numbers ++
    (match m.offset with
      | none => ""
      | some minutes => ", tzinfo=" ++ offsetText minutes) ++ ")"

end RemoteCache
