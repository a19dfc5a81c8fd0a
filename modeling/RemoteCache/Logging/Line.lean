import RemoteCache.Json.Writer
import RemoteCache.Logging.Record

/-!
# Log lines

A record is written in one of two formats. The JSON line is an object with the four core fields, then the
context, then the failure; a name that comes again replaces the text in its first place. The plain line is the
core fields in a row, the failure on lines of its own, and the context in the order of its names. A record that
cannot be written in a format gives no line.
-/

namespace RemoteCache.Logging

inductive Format
  | json | plain
deriving DecidableEq, Repr

namespace Record

/-! ## JSON lines -/

/-- The core fields of a line, the time first. -/
def core (r : Record) (timestamp message : String) : Context :=
  [("timestamp", timestamp), ("level", r.levelName), ("logger", r.logger), ("message", message)]

/-- The entries of a JSON line. -/
def payload? (r : Record) (timestamp : String) : Option Context := do
  let message ← r.message?
  let failure ← r.failureText?
  let entries := Context.overlay (r.core timestamp message) r.visible
  return match failure with
    | none => entries
    | some text => entries.set "exception" text

def jsonLine? (r : Record) (timestamp : String) : Option String :=
  (r.payload? timestamp).map fun entries => String.ofList (Json.writeObject entries)

/-! ## Plain lines -/

/-- A text on a line of its own behind another one; an empty text adds nothing. -/
def below (line text : String) : String :=
  if text = "" then line else if line.endsWith "\n" then line ++ text else line ++ "\n" ++ text

/-- The failure's text in a plain line: a text bound in the context stands in for the failure. -/
def plainFailure? (r : Record) : Option String :=
  match r.shadowed "exc_text" "" with
  | "" => r.failureText?.map fun t => t.getD ""
  | text => some text

/-- The context in the order of its names. -/
def suffix (r : Record) : String :=
  let sorted := r.visible.mergeSort fun a b => a.1 ≤ b.1
  String.join (sorted.map fun (name, text) => " " ++ name ++ "=" ++ text)

def plainLine? (r : Record) (timestamp : String) : Option String := do
  let message ← r.message?
  if (r.context.get? "created").isSome then none
  let failure ← r.plainFailure?
  let head := timestamp ++ " " ++ r.levelName ++ " " ++ r.logger ++ " " ++ message
  return below (below head failure) (r.shadowed "stack_info" "") ++ r.suffix

def line? (r : Record) (timestamp : String) : Format → Option String
  | .json => r.jsonLine? timestamp
  | .plain => r.plainLine? timestamp

end Record
end RemoteCache.Logging
