import RemoteCache.BackendSettings
import RemoteCache.Reply

/-!
# The line to a store

A session reaches its store through handles. A handle is created once, and then connected, disconnected, sent to
and received from in any order. What the store and the network do is up to a *peer*: any state with one function
for each of these calls.

A *line* is a peer together with the record of all calls made so far and of what came back. `Line.exchange` sends
one command and receives its tagged reply: it makes one `send`, and one `receive` unless the `send` failed.
-/

namespace RemoteCache

/-- Handles are numbered in the order of their creation. -/
abbrev Handle := Nat

/-- How a store and the network behave. -/
class Peer (σ : Type) where
  create : σ → Handle → ConnectionOptions → σ
  connect : σ → Handle → Except Failure Unit × σ
  disconnect : σ → Handle → σ
  send : σ → Handle → Command → Except Failure Unit × σ
  receive : σ → Handle → Except Failure Answer × σ

/-- A peer that does the same at every call. -/
structure Steady where
  connecting : Except Failure Unit := .ok ()
  sending : Except Failure Unit := .ok ()
  receiving : Except Failure Answer := .ok .nil

instance : Peer Steady where
  create s _ _ := s
  connect s _ := (s.connecting, s)
  disconnect s _ := s
  send s _ _ := (s.sending, s)
  receive s _ := (s.receiving, s)

/-- One call on a handle, with what came back. -/
inductive Call
  | create (h : Handle) (options : ConnectionOptions)
  | connect (h : Handle) (result : Except Failure Unit)
  | disconnect (h : Handle)
  | send (h : Handle) (command : Command) (result : Except Failure Unit)
  | receive (h : Handle) (result : Except Failure Answer)

namespace Call

def isConnect : Call → Bool
  | .connect .. => true
  | _ => false

def isDisconnect : Call → Bool
  | .disconnect _ => true
  | _ => false

def isReceive : Call → Bool
  | .receive .. => true
  | _ => false

/-- The command of a send. -/
def command? : Call → Option Command
  | .send _ c _ => some c
  | _ => none

/-- The options of a creation. -/
def options? : Call → Option ConnectionOptions
  | .create _ options => some options
  | _ => none

end Call

/-- A peer and what was done with it. -/
structure Line (σ : Type) where
  peer : σ
  /-- How many handles there are. -/
  created : Nat := 0
  /-- All calls, the latest first. -/
  calls : List Call := []

namespace Line

/-- Something done on a line, which may fail. -/
abbrev Action (σ α : Type) := EStateM Failure (Line σ) α

variable {σ : Type} [Peer σ]

/-- Hands over what came back. -/
def finish {τ α : Type} (result : Except Failure α) (s : τ) : EStateM.Result Failure τ α :=
  match result with
  | .ok a => .ok a s
  | .error f => .error f s

/-- A new handle. -/
def create (options : ConnectionOptions) : Action σ Handle := fun l =>
  .ok l.created {
    peer := Peer.create l.peer l.created options
    created := l.created + 1
    calls := .create l.created options :: l.calls }

def connect (h : Handle) : Action σ Unit := fun l =>
  let (result, peer) := Peer.connect l.peer h
  finish result { l with peer, calls := .connect h result :: l.calls }

def disconnect (h : Handle) : Action σ Unit := fun l =>
  .ok () { l with peer := Peer.disconnect l.peer h, calls := .disconnect h :: l.calls }

def send (h : Handle) (command : Command) : Action σ Unit := fun l =>
  let (result, peer) := Peer.send l.peer h command
  finish result { l with peer, calls := .send h command result :: l.calls }

def receive (h : Handle) : Action σ Answer := fun l =>
  let (result, peer) := Peer.receive l.peer h
  finish result { l with peer, calls := .receive h result :: l.calls }

/-- Sends a command and receives what comes back. -/
def ask (h : Handle) (command : Command) : Action σ Answer := do
  send h command
  receive h

/-- Sends a command and receives the tagged reply. -/
def exchange (h : Handle) (command : Command) : Action σ Reply := fun l =>
  match ask h command l with
  | .ok answer l => finish (Reply.ofExchange command.name (.ok answer)) l
  | .error f l => finish (Reply.ofExchange command.name (.error f)) l

end Line
end RemoteCache
