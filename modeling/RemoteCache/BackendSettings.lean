import RemoteCache.Endpoint

/-!
# Backend settings

The timeouts and credentials of a store, read from its attributes. A timeout has two names, with hyphens and with
underscores, and the hyphenated one shadows the other: whatever stands under the other name is not looked at.
Attributes of other names are not looked at either.
-/

namespace RemoteCache

open Validation (Checked)

/-- Names with their values. -/
abbrev Attributes := List (String × Value)

structure BackendSettings where
  connectTimeoutMs : Nat
  operationTimeoutMs : Nat
  username : Option String
  password : Option String
deriving DecidableEq, Repr

namespace BackendSettings

def defaultConnectTimeoutMs : Nat := 100

def defaultOperationTimeoutMs : Nat := 10000

/-- One hour. -/
def maxTimeoutMs : Nat := 3600000

/-- A timeout in milliseconds. -/
def readTimeout (v : Value) : Except Validation.Fault Nat := do
  let n ← Validation.integer v
  if n < 1 then throw .belowOne
  if maxTimeoutMs < n then throw (.above maxTimeoutMs)
  return n.toNat

/-- The timeout under one of two names, the first of which shadows the other. -/
def timeout (attributes : Attributes) (name other : String) (default : Nat) : Checked Nat :=
  if (attributes.lookup name).isSome then .optional attributes name readTimeout default
  else .optional attributes other readTimeout default

def ofAttributes (attributes : Attributes) : Checked BackendSettings :=
  Checked.valid BackendSettings.mk
    |>.also (timeout attributes "connect-timeout" "connect_timeout_ms" defaultConnectTimeoutMs)
    |>.also (timeout attributes "operation-timeout" "operation_timeout_ms" defaultOperationTimeoutMs)
    |>.also (.optional attributes "username" Validation.optionalText none)
    |>.also (.optional attributes "password" Validation.optionalText none)
    |>.sorted

/-- Milliseconds as seconds, with as many decimals as needed but at least one. -/
def secondsText (ms : Nat) : String :=
  let decimals := (toString (1000 + ms % 1000)).toList.drop 1
  let kept := (decimals.reverse.dropWhile (· = '0')).reverse
  toString (ms / 1000) ++ "." ++ String.ofList (if kept = [] then ['0'] else kept)

/-- The settings as a text without the password: it only shows whether the password is empty. -/
def display (s : BackendSettings) : String :=
  let username := match s.username with
    | none => "None"
    | some name => Text.Quoted.quote name
  let password := match s.password with
    | none => "None"
    | some "" => "SecretStr('')"
    | some _ => "SecretStr('**********')"
  "RedisStorageSettings(connect_timeout_ms=" ++ toString s.connectTimeoutMs ++
    ", operation_timeout_ms=" ++ toString s.operationTimeoutMs ++
    ", username=" ++ username ++ ", password=" ++ password ++ ")"

end BackendSettings

/-! ## Connection options -/

/-- What a connection is opened to. -/
inductive Target
  | tcp (host : String) (port : Nat)
  | socket (path : String)
deriving DecidableEq, Repr

namespace Target

def describe : Target → String
  | .tcp host port => host ++ ":" ++ toString port
  | .socket path => path

end Target

/-- What a connection is created with. Connections speak the second version of the protocol, hand answers over as
bytes, and never try again on their own. -/
structure ConnectionOptions where
  target : Target
  connectTimeoutMs : Nat
  operationTimeoutMs : Nat
  retries : Nat := 0
  protocol : Nat := 2
  decodesAnswers : Bool := false
deriving DecidableEq, Repr

def Endpoint.target (e : Endpoint) : Target :=
  if e.isTcp then .tcp e.host e.port else .socket e.socketPath

def ConnectionOptions.of (endpoint : Endpoint) (settings : BackendSettings) : ConnectionOptions where
  target := endpoint.target
  connectTimeoutMs := settings.connectTimeoutMs
  operationTimeoutMs := settings.operationTimeoutMs

end RemoteCache
