import RemoteCache.Failure
import RemoteCache.Logging.Context
import RemoteCache.Logging.Level
import RemoteCache.Text.Template

/-!
# Log records

A log call (`Entry`) names a logger and a level and has a message template with its arguments, perhaps also a
failure. A record is a call together with the context at the moment of the call.

Context entries shadow the record's own attributes of the same name: an entry `msg` replaces the template, `name`
the logger's name, and so on (`Record.shadowed`). An entry `context` hides the context from the writers. Four
entries make a record unwritable for one writer or for both, and three names are refused as soon as the record is
made.
-/

namespace RemoteCache.Logging

/-- One log call. -/
structure Entry where
  logger : String
  level : Level
  message : String
  args : List Value := []
  failure : Option Failure := none

/-- The name of a logger; a call without a name is the root's. -/
def loggerName : Option String → String
  | none | some "" => "root"
  | some name => name

/-- A log call with the context it was made in. -/
structure Record where
  entry : Entry
  context : Context

namespace Record

/-- The text of an attribute: what the context says, else the record's own. -/
def shadowed (r : Record) (name own : String) : String := (r.context.get? name).getD own

def logger (r : Record) : String := r.shadowed "name" r.entry.logger

def levelName (r : Record) : String := r.shadowed "levelname" r.entry.level.name

def template (r : Record) : String := r.shadowed "msg" r.entry.message

/-- What the template is filled with; nothing when there are no arguments. A text bound in the context is the
one argument, and a single mapping that is not empty is picked from by name. -/
def arguments (r : Record) : Option Template.Arguments :=
  match r.context.get? "args" with
  | some "" => none
  | some s => some (.row [.text s])
  | none => match r.entry.args with
    | [] => none
    | [.dict (e :: rest)] => some (.mapping (e :: rest))
    | args => some (.row args)

/-- The message, if the arguments fit the template. -/
def message? (r : Record) : Option String :=
  if (r.context.get? "getMessage").isSome then none
  else match r.arguments with
    | none => some r.template
    | some args => Template.fill? r.template args

/-- The context as the writers see it. -/
def visible (r : Record) : Context :=
  if (r.context.get? "context").isSome then [] else r.context

/-- The text of the record's failure, if there is one; nothing at all when the context has put a text in the
failure's place, which cannot be written. -/
def failureText? (r : Record) : Option (Option String) :=
  match r.context.get? "exc_info" with
  | some "" => some none
  | some _ => none
  | none => some (r.entry.failure.map (·.summary))

/-- The failure that the first refused name of the context raises. -/
def refusal? (r : Record) : Option Failure :=
  r.context.findSome? fun (name, _) =>
    if name = "__class__" then
      some (.foreign "TypeError" "__class__ must be set to a class, not 'str' object")
    else if name = "__dict__" then
      some (.foreign "TypeError" "__dict__ must be set to a dictionary, not a 'str'")
    else if name = "__weakref__" then
      some (.foreign "AttributeError" "attribute '__weakref__' of 'LogRecord' objects is not writable")
    else none

end Record
end RemoteCache.Logging
