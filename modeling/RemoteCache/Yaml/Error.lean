import RemoteCache.Text.Points

/-!
# Why a document cannot be read

A document is malformed if its signs fit no rule or if a tag does not fit what it stands at, and it may be nested too
deeply. All other errors are about a text that has the spelling of a tagged value, or that of an escape, but no value.
-/

namespace RemoteCache.Yaml

inductive Error
  | malformed
  /-- A number, a date or a character that there is none of. -/
  | noValue
  /-- A text without characters where a number should be. -/
  | noDigits
  /-- A number past the range in which it is kept. -/
  | outOfRange (message : String)
  /-- A text that is no truth value. -/
  | noTruthValue (word : Text.Points)
  /-- A text that is no point in time. -/
  | noTime
  /-- A collection that stands in for a point in time. -/
  | noTimeText
  /-- Collections that are nested too deeply. -/
  | tooDeep
deriving DecidableEq, Repr

def Error.message : Error → String
  | .malformed => "malformed document"
  | .noValue => "a text has no value"
  | .noDigits => "string index out of range"
  | .outOfRange message => message
  | .noTruthValue word => word.quote
  | .noTime => "a text is no point in time"
  | .noTimeText => "a collection is no point in time"
  | .tooDeep => "maximum recursion depth exceeded"

end RemoteCache.Yaml
