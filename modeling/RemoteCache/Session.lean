import RemoteCache.Session.Scene

/-!
# Sessions

A session connects when it is first needed, logs in if a password is set, and reconnects its handle after the
connection was lost. A connection attempt that fails, a rejected login and closing make it invalid for good:
later operations get an answer at once and never wait for a dead endpoint.

A failure that is no connect failure passes through and leaves the session connecting, from where the next
operation starts like from unconnected.
-/

namespace RemoteCache.Session

open RemoteCache.Action

variable {σ : Type} [Peer σ]

def logger : String := "resources.secondary_storage.redis.session"

/-- The name shown for a login without a user name. -/
def defaultUsername : String := "default"

/-- Stands for every password in log lines. -/
def mask : String := "*******"

/-- The user name that a login sends. -/
def loginName? (s : Session) : Option String :=
  match s.settings.username with
  | none | some "" => none
  | some name => some name

/-- The logging context while connecting. -/
def connectContext (s : Session) : List (String × String) :=
  [("backend", "redis"),
   ("endpoint", if s.endpoint.describe = "" then s.endpoint.url else s.endpoint.describe)]

/-! ## Details -/

def backendInvalid : ErrorDetail := .error "redis backend is invalid" .backendInvalid

def invalidEndpoint (url : String) : ErrorDetail :=
  .error ("redis URL has neither host nor socket path: " ++ url) .invalidEndpoint

def authRejected (username : String) (reply : Reply) : ErrorDetail :=
  .error ("redis authentication failed for " ++ username) .authRejected [("reply_kind", reply.kind)]

/-- Whether a login was refused or got no answer. -/
def rejects (reply : Reply) : Bool :=
  match reply.tag with
  | .null | .error _ => true
  | _ => false

/-! ## Steps -/

/-- The handle that is held. -/
def held : Action σ Handle := do
  match (← session).handle with
  | some h => return h
  | none => throw (.assertion [])

/-- Disconnects and drops the handle, if there is one, and makes the session invalid. -/
def invalidate (detail : ErrorDetail) : Action σ ErrorDetail := do
  match (← session).handle with
  | some h =>
    onLine (Line.disconnect h)
    setHandle none
  | none => pure ()
  setPhase .invalid
  return detail

/-- Logs in if a password is set. -/
def authenticate : Action σ (Option ErrorDetail) := do
  let h ← held
  let s ← session
  match s.settings.password with
  | none =>
    setPhase .ready
    return none
  | some password =>
    let shown := s.loginName?.getD defaultUsername
    log logger .info ("Redis AUTH " ++ shown ++ " " ++ mask)
    let reply ← onLine (Line.exchange h (.auth s.loginName? password))
    if rejects reply then
      log logger .warning ("Failed to auth " ++ shown ++ " in redis: " ++ reply.describe)
      return some (← invalidate (authRejected shown reply))
    else
      setPhase .ready
      return none

/-- Connects the handle that is held once more; if that fails it is dropped. -/
def reconnect : Action σ Bool := do
  let h ← held
  onLine (Line.disconnect h)
  match ← catchingConnect (onLine (Line.connect h)) with
  | .ok () => return true
  | .error f =>
    log logger .warning ("Redis reconnection error: " ++ f.text)
    onLine (Line.disconnect h)
    setHandle none
    return false

/-- Connects a new handle to where the endpoint is, and logs in. -/
def connectNew (place : String) : Action σ (Option ErrorDetail) := do
  let s ← session
  log logger .info
    ("Redis connecting to " ++ place ++ " (timeout " ++ toString s.settings.connectTimeoutMs ++ " ms)")
  let h ← onLine (Line.create (.of s.endpoint s.settings))
  match ← catchingConnect (onLine (Line.connect h)) with
  | .ok () =>
    log logger .info ("Redis connection to " ++ s.endpoint.describe ++ " OK")
    setHandle (some h)
    authenticate
  | .error f =>
    log logger .warning ("Redis connection error: " ++ f.text)
    onLine (Line.disconnect h)
    return some (← invalidate (.ofConnectFailure f))

def connect : Action σ (Option ErrorDetail) := do
  let s ← session
  require (s.endpoint.scheme = Endpoint.supportedScheme) [.text s.endpoint.scheme]
  if s.endpoint.isTcp || s.endpoint.isUnix then connectNew s.endpoint.describe
  else
    log logger .warning ("Invalid Redis URL: " ++ s.endpoint.url)
    return some (← invalidate (invalidEndpoint s.endpoint.url))

/-! ## Operations -/

/-- Makes the session ready, or tells why it cannot be. -/
def ensureConnected : Action σ (Option ErrorDetail) := do
  let s ← session
  match s.phase with
  | .ready => return none
  | .invalid => return some backendInvalid
  | .unconnected | .connecting =>
    setPhase .connecting
    within s.connectContext do
      if s.handle.isSome then
        if ← reconnect then authenticate else connect
      else connect

/-- Notes that the connection was lost. -/
def markStale : Action σ Unit := do
  let s ← session
  if s.phase = .ready then
    log logger .debug ("Redis connection lost: endpoint=" ++ s.endpoint.describe)
    setPhase .unconnected

/-- Lets go of the handle, if there is one, and refuses further operations. -/
def close : Action σ Unit := do
  match (← session).handle with
  | some h =>
    log logger .debug "Redis disconnect"
    onLine (Line.disconnect h)
    setHandle none
  | none => pure ()
  setPhase .invalid

/-- The handle of a ready session. -/
def readyHandle : Action σ Handle := do
  require ((← session).phase = .ready)
  held

end RemoteCache.Session
