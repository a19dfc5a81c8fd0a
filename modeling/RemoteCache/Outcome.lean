import RemoteCache.Failure

/-!
# Outcomes

Every operation on a remote store ends in a value or in a detail of what went wrong, never in both. A detail's
category tells callers how to react: a *timeout* or anything else. Its code tells operators what happened, and
its metadata what the operation saw.
-/

namespace RemoteCache

/-- What happened. `other` leaves room for the codes of other backends. -/
inductive Code
  | connectTimeout | operationTimeout | connectionFailed | invalidEndpoint | authRejected | backendInvalid
  | errorReply | unexpectedReply
  | other (name : String)
deriving DecidableEq, Repr

namespace Code

def name : Code → String
  | .connectTimeout => "CONNECT_TIMEOUT"
  | .operationTimeout => "OPERATION_TIMEOUT"
  | .connectionFailed => "CONNECTION_FAILED"
  | .invalidEndpoint => "INVALID_ENDPOINT"
  | .authRejected => "AUTH_REJECTED"
  | .backendInvalid => "BACKEND_INVALID"
  | .errorReply => "ERROR_REPLY"
  | .unexpectedReply => "UNEXPECTED_REPLY"
  | .other name => name

/-- The codes of this library. -/
def all : List Code := [
  .connectTimeout, .operationTimeout, .connectionFailed, .invalidEndpoint, .authRejected, .backendInvalid,
  .errorReply, .unexpectedReply]

def ofName? (name : String) : Option Code := all.find? (·.name = name)

end Code

/-- How a caller should react. -/
inductive Category
  | timeout | error
deriving DecidableEq, Repr

namespace Category

def name : Category → String
  | .timeout => "timeout"
  | .error => "error"

def ofName? (name : String) : Option Category := [Category.timeout, .error].find? (·.name = name)

end Category

/-- What went wrong. -/
structure ErrorDetail where
  code : Code
  message : String
  category : Category
  metadata : List (String × String)
deriving DecidableEq, Repr

namespace ErrorDetail

def isTimeout (d : ErrorDetail) : Bool := d.category == .timeout

def timeout (message : String) (code : Code := .operationTimeout) (metadata : List (String × String) := []) :
    ErrorDetail := ⟨code, message, .timeout, metadata⟩

def error (message : String) (code : Code := .connectionFailed) (metadata : List (String × String) := []) :
    ErrorDetail := ⟨code, message, .error, metadata⟩

/-- What a failed attempt to connect means. -/
def ofConnectFailure (f : Failure) : ErrorDetail :=
  let metadata := [("exception_type", f.kind.name)]
  if f.isTimeout then .timeout "timed out connecting to redis" .connectTimeout metadata
  else if f.isAuthentication then .error "redis rejected the credentials" .authRejected metadata
  else .error (if f.text = "" then "redis connection failed" else f.text) .connectionFailed metadata

/-- A detail whose code and category are given by name. -/
def ofNames (code category message : String) (metadata : List (String × String)) : Except Failure ErrorDetail :=
  match Code.ofName? code, Category.ofName? category with
  | none, _ => .error (.foreign "AttributeError"
      ("module 'packages.cache_shared.errors.codes' has no attribute '" ++ code ++ "'"))
  | some _, none => .error (.value (Text.Quoted.quote category ++ " is not a valid ErrorCategory"))
  | some code, some category => .ok ⟨code, message, category, metadata⟩

end ErrorDetail

/-- A value, or the detail of what went wrong. -/
inductive Outcome (α : Type)
  | success (value : α)
  | failure (detail : ErrorDetail)
deriving DecidableEq, Repr

end RemoteCache
