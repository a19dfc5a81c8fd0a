import RemoteCache.Calendar
import RemoteCache.Number.Display
import RemoteCache.Text.Points

/-!
# Data trees

The values that arguments, environment, files, log calls and failures carry: nothing, truth values, integers of
any size, binary numbers, texts, bytes, dates and moments, lists, sets, and mappings in the order in which their keys
were first set.

A value has two texts. `display` is the text itself for a text; `quoted` puts quotes around it. They differ in
nothing else, and the parts of a list or mapping are always quoted.
-/

namespace RemoteCache

inductive Value
  | null
  | bool (b : Bool)
  | int (n : Int)
  | real (x : Binary64)
  | text (s : String)
  /-- A text with halves of surrogate pairs. -/
  | broken (points : Text.Points)
  | bytes (b : Bytes)
  | date (d : Date)
  | moment (m : Moment)
  | list (items : List Value)
  | set (items : List Value)
  | dict (entries : List (Value × Value))
deriving Repr, Inhabited

namespace Value

/-- The text of some code points. -/
def ofPoints (p : Text.Points) : Value :=
  match p.chars? with
  | some cs => .text (String.ofList cs)
  | none => .broken p

/-! ## Text -/

/-- Joins texts with a separator. -/
def joined (sep : String) : List String → String
  | [] => ""
  | [s] => s
  | s :: rest => s ++ sep ++ joined sep rest

mutual
def quoted : Value → String
  | .null => "None"
  | .bool b => if b then "True" else "False"
  | .int n => toString n
  | .real x => x.display
  | .text s => Text.Quoted.quote s
  | .broken points => points.quote
  | .bytes b => Text.Quoted.quoteBytes b
  | .date d => d.display
  | .moment m => m.display
  | .list items => "[" ++ joined ", " (quotedItems items) ++ "]"
  | .set [] => "set()"
  | .set (item :: rest) => "\x7b" ++ joined ", " (quoted item :: quotedItems rest) ++ "\x7d"
  | .dict entries => "\x7b" ++ joined ", " (quotedEntries entries) ++ "\x7d"

def quotedItems : List Value → List String
  | [] => []
  | v :: rest => quoted v :: quotedItems rest

def quotedEntries : List (Value × Value) → List String
  | [] => []
  | (k, v) :: rest => (quoted k ++ ": " ++ quoted v) :: quotedEntries rest
end

def display : Value → String
  | .text s => s
  | .broken points => String.ofList points.lossy
  | v => quoted v

/-! ## Keys -/

/-- The number that a key counts as: truth values count as one and zero. -/
def asNumber? : Value → Option (Int ⊕ Binary64)
  | .bool b => some (.inl (if b then 1 else 0))
  | .int n => some (.inl n)
  | .real x => some (match x.toInt? with | some n => .inl n | none => .inr x)
  | _ => none

/-- The integer that a value is; truth values are one and zero. -/
def asInt? : Value → Option Int
  | .bool b => some (if b then 1 else 0)
  | .int n => some n
  | _ => none

def isNull : Value → Bool
  | .null => true
  | _ => false

/-- Whether a value counts as true: nothing, noughts and what is empty do not. -/
def isTruthy : Value → Bool
  | .null | .bool false | .int 0 | .text "" | .broken [] | .bytes [] | .list [] | .set [] | .dict [] => false
  | .real x => x.toInt? != some 0
  | _ => true

/-- Whether two keys name the same entry. -/
def sameKey : Value → Value → Bool
  | .null, .null => true
  | .text a, .text b => a == b
  | .broken a, .broken b => a == b
  | .bytes a, .bytes b => a == b
  | .date a, .date b => a == b
  | .moment a, .moment b => a.isSame b
  | a, b => match a.asNumber?, b.asNumber? with
    | some x, some y => x == y
    | _, _ => false

/-- Sets an entry: a key that is there already keeps its place. -/
def setEntry {α : Type} (entries : List (Value × α)) (key : Value) (value : α) : List (Value × α) :=
  match entries with
  | [] => [(key, value)]
  | (k, v) :: rest => if k.sameKey key then (k, value) :: rest else (k, v) :: setEntry rest key value

def find? (entries : List (Value × Value)) (key : Value) : Option Value :=
  (entries.find? (·.1.sameKey key)).map (·.2)

/-- Whether a value can be a key: collections cannot. -/
def isKey : Value → Bool
  | .list _ | .set _ | .dict _ => false
  | _ => true

/-- The entry under a text. -/
def get? (entries : List (Value × Value)) (name : String) : Option Value := find? entries (.text name)

end Value
end RemoteCache
