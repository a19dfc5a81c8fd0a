import RemoteCache.Line
import RemoteCache.Logging.State

/-!
# Sessions and their scene

A session has at most one handle and is in one of four phases. Its *scene* is everything that an operation can see
and change: the session, the line, and the logging with the records emitted so far.

An action on a scene may fail, and then keeps the scene that it has reached. `Action.within` runs an action with
more names bound in the logging context and restores the context however the action ends.
-/

namespace RemoteCache

/-- The phases of a session: `invalid` is final. -/
inductive Session.Phase
  | unconnected | connecting | ready | invalid
deriving DecidableEq, Repr

def Session.Phase.name : Session.Phase → String
  | .unconnected => "unconnected"
  | .connecting => "connecting"
  | .ready => "ready"
  | .invalid => "invalid"

structure Session where
  endpoint : Endpoint
  settings : BackendSettings
  phase : Session.Phase := .unconnected
  handle : Option Handle := none
deriving DecidableEq, Repr

structure Scene (σ : Type) where
  session : Session
  line : Line σ
  logging : Logging.State := {}
  /-- The emitted records, the latest first. -/
  records : List Logging.Record := []

/-- Something done in a scene, which may fail. -/
abbrev Action (σ α : Type) := EStateM Failure (Scene σ) α

namespace Action

variable {σ α : Type}

/-! ## The parts of a scene -/

def session : Action σ Session := fun s => .ok s.session s

def setPhase (phase : Session.Phase) : Action σ Unit := fun s =>
  .ok () { s with session := { s.session with phase } }

def setHandle (handle : Option Handle) : Action σ Unit := fun s =>
  .ok () { s with session := { s.session with handle } }

/-- Acts on the line. -/
def onLine (act : Line.Action σ α) : Action σ α := fun s =>
  match act s.line with
  | .ok a line => .ok a { s with line }
  | .error f line => .error f { s with line }

/-! ## Failing -/

/-- Fails unless a condition holds that always should. -/
def require (condition : Bool) (args : List Value := []) : Action σ Unit := fun s =>
  if condition then .ok () s else .error (.assertion args) s

/-- Runs an action and hands over a connect failure as a value; other failures pass. -/
def catchingConnect (act : Action σ α) : Action σ (Except Failure α) := fun s =>
  match act s with
  | .ok a s => .ok (.ok a) s
  | .error f s => if f.isConnectFailure then .ok (.error f) s else .error f s

/-! ## Logging -/

def log (logger : String) (level : Logging.Level) (message : String) : Action σ Unit := fun s =>
  match s.logging.record? { logger, level, message } with
  | some record => .ok () { s with records := record :: s.records }
  | none => .ok () s

/-- Replaces the logging context. -/
def withContext (s : Scene σ) (context : Logging.Context) : Scene σ :=
  { s with logging := { s.logging with context } }

/-- Runs an action with texts bound in the logging context. -/
def within (texts : List (String × String)) (act : Action σ α) : Action σ α := fun s =>
  let outer := s.logging.context
  match act (withContext s (outer.overlay texts)) with
  | .ok a s => .ok a (withContext s outer)
  | .error f s => .error f (withContext s outer)

end Action
end RemoteCache
