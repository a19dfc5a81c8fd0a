import RemoteCache.Logging.Line

/-!
# The state of logging

What a process keeps between log calls: the bound context and the contexts that open blocks will restore, the
threshold, and the sinks that records go to. Configuring clears the sinks and adds one, sets the threshold of the
process and of this sink, and binds the names of the service and its environment. A configuration with an unknown
level stops halfway, when the old sinks are already gone.
-/

namespace RemoteCache.Logging

/-- Where records go: those of a severity and above, in a format. -/
structure Sink where
  level : Level
  format : Format
deriving DecidableEq, Repr

structure State where
  context : Context := []
  /-- The contexts outside the open blocks, the innermost block's first. -/
  outer : List Context := []
  level : Level := .warning
  /-- In the order in which they were added. -/
  sinks : List Sink := []
deriving Repr

/-- How a process wants to log. -/
structure Config where
  level : String := "INFO"
  json : Bool := true
  service : Option String := none
  environment : Option String := none

namespace State

/-- The names that a configuration binds; empty ones are left out. -/
def seeds (config : Config) : List (String × String) :=
  [("service", config.service), ("environment", config.environment)].filterMap fun (name, value) =>
    match value with
    | none | some "" => none
    | some text => some (name, text)

def unknownLevel (name : String) : Failure := .value ("Unknown level: " ++ Text.Quoted.quote name)

/-- Configures; a failure comes with the state that it leaves. -/
def configure (s : State) (config : Config) : Except Failure Unit × State :=
  let cleared := { s with sinks := [] }
  match Level.ofText config.level with
  | .error name => (.error (unknownLevel name), cleared)
  | .ok level =>
    (.ok (), { cleared with
      level := level
      sinks := cleared.sinks ++ [⟨level, if config.json then .json else .plain⟩]
      context := s.context.overlay (seeds config) })

def bind (s : State) (values : List (String × Value)) : State :=
  { s with context := s.context.bind values }

/-- Opens a block with values of its own. -/
def push (s : State) (values : List (String × Value)) : State :=
  { s with context := s.context.bind values, outer := s.context :: s.outer }

/-- Leaves the innermost block. -/
def pop (s : State) : State :=
  match s.outer with
  | [] => s
  | context :: outer => { s with context, outer }

/-- The sinks that take a record of a level. -/
def takers (s : State) (level : Level) : List Sink := s.sinks.filter fun sink => sink.level.rank ≤ level.rank

/-- Whether a record of a level reaches a sink. A record without a level never does. -/
def emits (s : State) (level : Level) : Bool :=
  0 < level.rank && s.level.rank ≤ level.rank && s.takers level ≠ []

/-- The record of a log call, if it is emitted. -/
def record? (s : State) (entry : Entry) : Option Record :=
  if s.emits entry.level then some ⟨entry, s.context⟩ else none

/-- What a log call writes: each sink that takes its record writes the line, if there is one. -/
def write (s : State) (timestamp : String) (entry : Entry) : Except Failure String :=
  match s.record? entry with
  | none => .ok ""
  | some r => match r.refusal? with
    | some f => .error f
    | none => .ok (String.join ((s.takers entry.level).map fun sink =>
        (r.line? timestamp sink.format).elim "" (· ++ "\n")))

end State
end RemoteCache.Logging
