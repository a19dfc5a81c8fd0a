import RemoteCache.Endpoint.Percent
import RemoteCache.Endpoint.Url
import RemoteCache.Validation

/-!
# Endpoints

An endpoint says where a store lives: at a host and port, at a local socket path, or nowhere. It is read from a
URL. A URL with a host names a port and no socket path; one without a host names its path, percent escapes
resolved; one with neither is read all the same, and only connecting to it fails.
-/

namespace RemoteCache

open Validation (Issue Checked)

structure Endpoint where
  url : String
  scheme : String
  host : String
  port : Nat
  socketPath : String
deriving DecidableEq, Repr

namespace Endpoint

/-- Why a text names no endpoint. -/
inductive Error
  | url (e : Url.Error)
  | port (text : String)
  | invalid (issues : List Issue)
deriving DecidableEq, Repr

def Error.message : Error → String
  | .url e => e.message
  | .port text => "invalid port in Redis URL " ++ Text.Quoted.quote text
  | .invalid issues => Validation.Issue.messages issues

def defaultPort : Nat := 6379

def maxPort : Nat := 65535

/-- The scheme that sessions connect to. -/
def supportedScheme : String := "redis"

/-- A port number. -/
def readPort (v : Value) : Except Validation.Fault Nat := do
  let n ← Validation.integer v
  if n ≤ 0 then throw .notPositive
  if maxPort < n then throw (.above maxPort)
  return n.toNat

/-- The port that an authority names: none for an empty text, an error for one that is no port number. -/
def portOfText? (text : List Char) : Option (Option Nat) :=
  if text = [] then some none
  else if text.all Char.isDigit && text.length ≤ Digits.limit && Digits.natOf text ≤ maxPort then
    some (some (Digits.natOf text))
  else none

def fieldNames : List String := ["url", "scheme", "host", "port", "socket_path"]

/-- Entries of other names are faults. -/
def checkNames (entries : List (String × Value)) : Checked Unit :=
  match (entries.map (·.1)).filter (· ∉ fieldNames) with
  | [] => .valid ()
  | names => .faulty (names.map fun name => ⟨.extra, [.name name]⟩)

/-- Reads an endpoint from its fields. -/
def ofFields (entries : List (String × Value)) : Checked Endpoint :=
  (Checked.valid fun () url scheme host port socketPath => { url, scheme, host, port, socketPath })
    |>.also (checkNames entries)
    |>.also (.required entries "url" Validation.text)
    |>.also (.required entries "scheme" Validation.text)
    |>.also (.optional entries "host" Validation.text "")
    |>.also (.optional entries "port" readPort defaultPort)
    |>.also (.optional entries "socket_path" Validation.text "")
    |>.sorted

/-- Reads an endpoint from a URL. -/
def ofUrl (text : String) : Except Error Endpoint :=
  match Url.parse text.toList with
  | .error e => .error (.url e)
  | .ok u =>
    match portOfText? u.portText with
    | none => .error (.port text)
    | some port =>
      let host := u.host
      match readPort (.int (port.getD defaultPort)) with
      | .error fault => .error (.invalid [⟨fault, [.name "port"]⟩])
      | .ok port => .ok {
          url := text
          scheme := String.ofList u.scheme
          host := String.ofList host
          port
          socketPath := if host = [] then String.ofList (Percent.decode u.path) else "" }

def isTcp (e : Endpoint) : Bool := e.host ≠ ""

def isUnix (e : Endpoint) : Bool := !e.isTcp && e.socketPath ≠ ""

/-- A short text for people; empty if the endpoint is nowhere. -/
def describe (e : Endpoint) : String :=
  if e.isTcp then e.host ++ ":" ++ toString e.port else e.socketPath

end Endpoint
end RemoteCache
