import RemoteCache.Entries
import RemoteCache.Line
import RemoteCache.Resp

/-!
# Connections over sockets

A peer that speaks the store's protocol over sockets. What the network does is a script: for each opening of a
socket whether it fails, and for each send over it what arrives in return.

A handle has at most one socket. Sending on a handle without one opens one first. A failure while sending or while
reading closes the socket, except for an error that the store has sent as its whole answer; the errors that count as
connection failures close it all the same.
-/

namespace RemoteCache

namespace Wire

/-- What happens at one send: a failure, or the chunks that arrive in return. -/
structure Delivery where
  failure : Option Failure := none
  chunks : List Resp.Chunk := []

/-- What happens at one opening: a failure, or what happens at each send. -/
inductive Opening
  | refused (f : Failure)
  | accepted (deliveries : List Delivery)

structure Socket where
  /-- Which opening the socket comes from, counted from one. -/
  number : Nat := 0
  deliveries : List Delivery
  stream : Resp.Stream := {}

/-- What goes over a socket. -/
inductive Transfer
  | command (c : Command)
  | answer (result : Except Failure Answer)

/-- What can be seen of the sockets. -/
inductive Event
  | opened | refused
  | sent (b : Bytes)
  | sendFailed | closed
deriving DecidableEq, Repr

end Wire

structure Wire where
  /-- The openings to come; further ones are refused. -/
  script : List Wire.Opening
  targets : List (Handle × Target) := []
  sockets : List (Handle × Wire.Socket) := []
  /-- How often a socket was to be opened. -/
  openings : Nat := 0
  /-- All events, the latest first. -/
  events : List Wire.Event := []
  /-- All that went over sockets, the latest first, with the numbers of the sockets. -/
  traffic : List (Nat × Wire.Transfer) := []

namespace Wire

def refusal : Failure := { kind := .system .connectionRefused, args := [.int 111, .text "Connection refused"] }

/-- The handle's target as a text. -/
def place (w : Wire) (h : Handle) : String := ((w.targets.lookup h).map Target.describe).getD ""

/-- Whether the handle's target is a socket path. -/
def isLocal (w : Wire) (h : Handle) : Bool :=
  match w.targets.lookup h with
  | some (.socket _) => true
  | _ => false

def note (w : Wire) (event : Event) : Wire := { w with events := event :: w.events }

def carry (w : Wire) (socket : Socket) (transfer : Transfer) : Wire :=
  { w with traffic := (socket.number, transfer) :: w.traffic }

/-! ## Failures as sessions see them -/

/-- A timeout is reported with the port, which a socket path lacks. -/
def openFailure (isLocal : Bool) (place : String) (f : Failure) : Failure :=
  match f.kind with
  | .system .timeout =>
    if isLocal then .foreign "AttributeError" "'UnixDomainSocketConnection' object has no attribute 'port'"
    else .store .timeout "Timeout connecting to server"
  | .system _ => .store .connection (match f.args with
    | [] => "Error connecting to " ++ place ++ "."
    | [a] => "Error " ++ a.display ++ " connecting to " ++ place ++ "."
    | a :: b :: _ => "Error " ++ a.display ++ " connecting to " ++ place ++ ". " ++ b.display ++ ".")
  | _ => f

def sendFailure (f : Failure) : Failure :=
  match f.kind with
  | .system .timeout => .store .timeout "Timeout writing to socket"
  | .system _ => match f.args with
    | [] => .foreign "IndexError" "tuple index out of range"
    | [a] => .store .connection ("Error UNKNOWN while writing to socket. " ++ a.display ++ ".")
    | a :: b :: _ =>
      .store .connection ("Error " ++ a.display ++ " while writing to socket. " ++ b.display ++ ".")
  | _ => f

def readFailure (place : String) (f : Failure) : Failure :=
  match f.kind with
  | .system _ => .store .connection ("Error while reading from " ++ place ++ " : " ++ Failure.tuple f.args)
  | _ => f

/-! ## Calls -/

def disconnect (w : Wire) (h : Handle) : Wire :=
  if (w.sockets.lookup h).isSome then { w with sockets := Entries.drop w.sockets h }.note .closed else w

/-- Opens a socket unless there is one. -/
def connect (w : Wire) (h : Handle) : Except Failure Unit × Wire :=
  if (w.sockets.lookup h).isSome then (.ok (), w)
  else
    let opening := w.script.head?.getD (.refused refusal)
    let w := { w with script := w.script.drop 1, openings := w.openings + 1 }
    match opening with
    | .refused f => (.error (openFailure (w.isLocal h) (w.place h) f), w.note .refused)
    | .accepted deliveries =>
      (.ok (), { w with sockets := Entries.put w.sockets h { number := w.openings, deliveries } }.note .opened)

/-- Sends over a socket; what arrives in return waits behind what has not been read yet. -/
def sendOver (w : Wire) (h : Handle) (socket : Socket) (command : Command) : Except Failure Unit × Wire :=
  let delivery := socket.deliveries.head?.getD {}
  match delivery.failure with
  | some f => (.error (sendFailure f), (w.note .sendFailed).disconnect h)
  | none =>
    let stream := { socket.stream with queue := socket.stream.queue ++ delivery.chunks }
    let sockets := Entries.put w.sockets h { socket with deliveries := socket.deliveries.drop 1, stream }
    (.ok (), ({ w with sockets }.note (.sent (Resp.writeCommand command))).carry socket (.command command))

def send (w : Wire) (h : Handle) (command : Command) : Except Failure Unit × Wire :=
  match w.connect h with
  | (.error f, w) => (.error f, w)
  | (.ok (), w) => match w.sockets.lookup h with
    | some socket => w.sendOver h socket command
    | none => (.ok (), w)

def receive (w : Wire) (h : Handle) : Except Failure Answer × Wire :=
  let socket := (w.sockets.lookup h).getD { deliveries := [] }
  let (result, w) : Except Failure Answer × Wire := match Resp.readAnswer socket.stream with
    | .error f _ => (.error (readFailure (w.place h) f), w.disconnect h)
    | .ok answer stream => (answer.raised, { w with sockets := Entries.put w.sockets h { socket with stream } })
  (result, w.carry socket (.answer result))

instance : Peer Wire where
  create w h options := { w with targets := Entries.put w.targets h options.target }
  connect := connect
  disconnect := disconnect
  send := send
  receive := receive

end Wire
end RemoteCache
