import RemoteCache.Entries
import RemoteCache.Line

/-!
# A store in memory

A store that keeps its values in memory and executes one command at a time, behind connections that can be made to
fail: a connect failure stands until it is cleared, a failure for a command is raised once and breaks the
connection, and a fixed answer for a command stands until it is cleared and keeps the command from being executed.
-/

namespace RemoteCache

structure Server where
  /-- Values by key; no key comes twice. -/
  values : List (String × Bytes) := []
  password : Option String := none
  username : String := "default"
  connectFailure : Option Failure := none
  /-- Failures that are raised once, by the command's name. -/
  commandFailures : List (String × Failure) := []
  /-- Fixed answers, by the command's name. -/
  fixedAnswers : List (String × Answer) := []
  /-- The handles that are connected. -/
  connected : List Handle := []
  /-- Answers that have not been received yet. -/
  waiting : List (Handle × Answer) := []

namespace Server

/-! ## Commands -/

/-- Whether the arguments of a login are the user name and password. -/
def accepts (s : Server) : List Argument → Bool
  | [.text password] => s.username = "default" && s.password = some password
  | [.text username, .text password] => s.username = username && s.password = some password
  | _ => false

def login (s : Server) (credentials : List Argument) : Answer :=
  if s.password = none then
    .failure (.store .response "AUTH <password> called without any password configured")
  else if s.accepts credentials then .bytes "OK".toUTF8.toList
  else .failure (.store .authentication "WRONGPASS invalid username-password pair")

/-- Executes a command on the values. -/
def execute (s : Server) (command : Command) : Answer × Server :=
  match s.fixedAnswers.lookup command.name with
  | some answer => (answer, s)
  | none => match command.name, command.args with
    | "AUTH", credentials => (s.login credentials, s)
    | "GET", .text key :: _ => (match s.values.lookup key with
      | some value => .bytes value
      | none => .nil, s)
    | "SET", .text key :: value :: _ =>
      (.bytes "OK".toUTF8.toList, { s with values := Entries.put s.values key value.toBytes })
    | "EXISTS", .text key :: _ => (.int (if (s.values.lookup key).isSome then 1 else 0), s)
    | "DEL", .text key :: _ =>
      (.int (if (s.values.lookup key).isSome then 1 else 0), { s with values := Entries.drop s.values key })
    | name, _ => (.failure (.store .response ("unknown command '" ++ name ++ "'")), s)

/-! ## Connections -/

def connect (s : Server) (h : Handle) : Except Failure Unit × Server :=
  match s.connectFailure with
  | some f => (.error f, s)
  | none => (.ok (), { s with connected := h :: s.connected.filter (· ≠ h) })

def disconnect (s : Server) (h : Handle) : Server := { s with connected := s.connected.filter (· ≠ h) }

def send (s : Server) (h : Handle) (command : Command) : Except Failure Unit × Server :=
  if h ∉ s.connected then (.error (.store .connection "Connection closed by server."), s)
  else match s.commandFailures.lookup command.name with
    | some f => (.error f, { s.disconnect h with commandFailures := Entries.drop s.commandFailures command.name })
    | none =>
      let (answer, s) := s.execute command
      (.ok (), { s with waiting := Entries.put s.waiting h answer })

def receive (s : Server) (h : Handle) : Except Failure Answer × Server :=
  (((s.waiting.lookup h).getD .nil).raised, { s with waiting := Entries.drop s.waiting h })

instance : Peer Server where
  create s _ _ := s
  connect := connect
  disconnect := disconnect
  send := send
  receive := receive

end Server
end RemoteCache
