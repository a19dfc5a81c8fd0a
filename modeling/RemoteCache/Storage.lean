import RemoteCache.Digest
import RemoteCache.Session

/-!
# Storage operations

Artifacts are kept under the keys of their digests. Each operation makes the session ready, sends its commands and
looks at the tags of the replies. What goes wrong at the store or on the way comes back as a failed outcome.

A write that must not replace a value asks first whether there is one. If the question gets an answer that is no
number, the write goes ahead; if it gets none at all, the operation ends.
-/

namespace RemoteCache.Storage

open RemoteCache.Action

/-! ## Opening -/

/-- Why no store can be opened. -/
inductive Error
  | scheme (name : String)
  | endpoint (e : Endpoint.Error)
  | settings (issues : List Validation.Issue)
deriving DecidableEq, Repr

def Error.message : Error → String
  | .scheme name => "unsupported secondary storage scheme: " ++ Text.Quoted.quote name
  | .endpoint e => e.message
  | .settings issues => Validation.Issue.messages issues

/-- The session for an endpoint's URL and the attributes of the store. -/
def ofUrl (url : String) (attributes : Attributes) : Except Error Session :=
  match Endpoint.ofUrl url with
  | .error e => .error (.endpoint e)
  | .ok endpoint => match BackendSettings.ofAttributes attributes with
    | .faulty issues => .error (.settings issues)
    | .valid settings => .ok { endpoint, settings }

/-- The session for a configured store. Only the supported scheme is looked at further. -/
def build (url : String) (attributes : Attributes) : Except Error Session :=
  match Url.parse url.toList with
  | .error e => .error (.endpoint (.url e))
  | .ok parts =>
    let scheme := String.ofList parts.scheme
    if scheme = Endpoint.supportedScheme then ofUrl url attributes else .error (.scheme scheme)

/-! ## Operations -/

variable {σ α : Type} [Peer σ]

def logger : String := "resources.secondary_storage.redis.redis_storage"

/-- The logging context of an operation. -/
def operationContext (operation key : String) : List (String × String) :=
  [("backend", "redis"), ("operation", operation), ("key", key)]

/-- Sends a command on the session's handle; without an answer the session becomes stale. -/
def issue (command : Command) : Action σ Reply := do
  let h ← Session.readyHandle
  let reply ← onLine (Line.exchange h command)
  match reply.tag with
  | .null => Session.markStale
  | _ => pure ()
  return reply

/-- The outcome of a command whose reply does not fit. -/
def failed (action key : String) (reply : Reply) : Action σ (Outcome α) := do
  let detail := ErrorDetail.ofReply reply
  within [("error_code", detail.code.name)] do
    log logger .warning ("Failed to " ++ action ++ " " ++ key ++ " in redis: " ++ reply.describe)
  return .failure detail

/-- Runs the commands of an operation once the session is ready. -/
def operation (name key : String) (commands : Action σ (Outcome α)) : Action σ (Outcome α) := do
  match ← Session.ensureConnected with
  | some detail => return .failure detail
  | none => within (operationContext name key) commands

/-- Sends a command after a log line with its word and key. -/
def announced (command : Command) (key : String) : Action σ Reply := do
  log logger .debug ("Redis " ++ command.word.display ++ " " ++ key)
  issue command

/-- The value of an artifact, if there is one. -/
def get (d : Digest) : Action σ (Outcome (Option Bytes)) :=
  operation "get" d.key do
    let reply ← announced (.get d.key) d.key
    match reply.tag with
    | .string b => return .success (some b)
    | .nil => return .success none
    | _ => failed "get" d.key reply

/-- Writes a value. -/
def set (d : Digest) (value : Bytes) : Action σ (Outcome Bool) := do
  let reply ← announced (.set d.key value) d.key
  match reply.tag with
  | .status _ => return .success true
  | _ => failed "set" d.key reply

/-- Writes a value unless there is one. -/
def setIfMissing (d : Digest) (value : Bytes) : Action σ (Outcome Bool) := do
  let reply ← announced (.exists? d.key) d.key
  match reply.tag with
  | .integer n => if 0 < n then return .success false else set d value
  | .null => failed "check" d.key reply
  | _ =>
    log logger .warning ("Failed to check " ++ d.key ++ " in redis: " ++ reply.describe)
    set d value

/-- Stores the value of an artifact. The outcome is false if a value was there and was to be kept. -/
def put (d : Digest) (value : Bytes) (onlyIfMissing : Bool := false) : Action σ (Outcome Bool) :=
  operation "put" d.key (if onlyIfMissing then setIfMissing d value else set d value)

/-- Removes an artifact. The outcome is false if there was none. -/
def remove (d : Digest) : Action σ (Outcome Bool) :=
  operation "remove" d.key do
    let reply ← announced (.del d.key) d.key
    match reply.tag with
    | .integer n => return .success (0 < n)
    | _ => failed "del" d.key reply

end RemoteCache.Storage
