import RemoteCache.Endpoint.Address
import RemoteCache.Number.Integer
import RemoteCache.Reply
import RemoteCache.Text.Utf8

/-!
# The store's protocol

A command is written as an array of byte strings. An answer starts with a byte for its shape and a line, which ends
with a carriage return and a line feed; a byte string gives its length in the line and follows it.

Answers are read from a *stream*: bytes that have arrived, and the chunks that the network will deliver. Reading
asks for the next chunk only when more bytes are needed, and times out when no chunk is left. Where the chunks are
cut makes no difference to what a whole answer reads as.
-/

namespace RemoteCache.Resp

def cr : UInt8 := 13

def lf : UInt8 := 10

def lineEnd : Bytes := [cr, lf]

def ascii (s : String) : Bytes := s.toUTF8.toList

/-! ## Writing -/

/-- A byte string behind its length. -/
def bulk (b : Bytes) : Bytes := ascii ("$" ++ toString b.length) ++ lineEnd ++ b ++ lineEnd

def writeCommand (c : Command) : Bytes :=
  ascii ("*" ++ toString (c.args.length + 1)) ++ lineEnd ++ (c.word :: c.args).flatMap fun a => bulk a.toBytes

/-! ## Streams -/

/-- One delivery of the network: bytes, none of them for the end, or a failure. -/
inductive Chunk
  | bytes (b : Bytes)
  | failure (f : Failure)

structure Stream where
  /-- Bytes that have arrived. -/
  buffer : Bytes := []
  /-- What arrives next. -/
  queue : List Chunk := []

def closed : Failure := .store .connection "Connection closed by server."

def timedOut : Failure := .store .timeout "Timeout reading from socket"

/-- The bytes of a chunk, or the failure that it is to a reader. -/
def Chunk.arrive : Chunk → Except Failure Bytes
  | .bytes [] => .error closed
  | .bytes b => .ok b
  | .failure f =>
    if f.kind = .system .timeout then .error timedOut
    else if f.kind = .system .wouldBlock then
      .error (.store .connection ("Error while reading from socket: " ++ Failure.tuple f.args))
    else .error f

/-- Something read from a stream. -/
abbrev Reader (α : Type) := EStateM Failure Stream α

/-! ## Lines -/

/-- Splits behind the first line feed. -/
def splitLine : Bytes → Bytes × Bytes
  | [] => ([], [])
  | b :: rest =>
    if b = lf then ([b], rest)
    else
      let (line, rest) := splitLine rest
      (b :: line, rest)

/-- Completes a line: `line` has been read, and `buffer` follows it. -/
def fillLine (line buffer : Bytes) (queue : List Chunk) : EStateM.Result Failure Stream Bytes :=
  if lineEnd <:+ line then .ok (line.take (line.length - 2)) ⟨buffer, queue⟩
  else match queue with
    | [] => .error timedOut ⟨buffer, []⟩
    | chunk :: queue => match chunk.arrive with
      | .error f => .error f ⟨buffer, queue⟩
      | .ok b =>
        let (more, buffer) := splitLine (buffer ++ b)
        fillLine (line ++ more) buffer queue

/-- Reads a line without its end. -/
def readLine : Reader Bytes := fun s =>
  let (line, buffer) := splitLine s.buffer
  fillLine line buffer s.queue

/-! ## Byte strings -/

/-- Waits until `missing` bytes have arrived behind `got`. -/
def fillBytes (missing : Nat) (got : Bytes) (queue : List Chunk) : EStateM.Result Failure Stream Bytes :=
  match queue with
  | [] => .error timedOut ⟨got, []⟩
  | chunk :: queue => match chunk.arrive with
    | .error f => .error f ⟨got, queue⟩
    | .ok b =>
      let got := got ++ b
      if missing ≤ got.length then .ok (got.take missing) ⟨got.drop missing, queue⟩
      else fillBytes missing got queue

/-- Reads a number of bytes. -/
def takeBytes (n : Nat) : Reader Bytes := fun s =>
  let here := s.buffer.take n
  if here.length = n then .ok here { s with buffer := s.buffer.drop n }
  else match fillBytes (n - here.length) [] s.queue with
    | .ok more s => .ok (here ++ more) s
    | .error f s => .error f s

/-- Reads everything that has arrived and one chunk more. -/
def takeAll : Reader Bytes := fun s =>
  match fillBytes 0 [] s.queue with
  | .ok _ rest => .ok (s.buffer ++ rest.buffer) { rest with buffer := [] }
  | .error f s => .error f s

/-- Numbers beyond this limit are no lengths. -/
def lengthLimit : Int := 0x8000000000000000

/-- Reads a byte string of a length and the line end behind it, which may be any two bytes. A negative length
stands for all that arrives with the next chunk. -/
def readBulk (length : Int) : Reader Bytes := do
  let total := length + 2
  if lengthLimit ≤ total ∨ total < -lengthLimit then
    throw (.foreign "OverflowError" "cannot fit 'int' into an index-sized integer")
  let data ← if 0 ≤ total then takeBytes total.toNat else takeAll
  return data.take (data.length - 2)

/-! ## Numbers -/

/-- The integer of a line. -/
def integerOf (line : Bytes) : Except Failure Int :=
  (Integer.ofBytes line).mapError fun fault => .value (fault.message 10 (Text.Quoted.quoteBytes line))

/-- The integer of a part of an error line. -/
def integerOfPart (part : List Char) : Except Failure Int :=
  (Integer.ofText 10 part).mapError fun fault => .value (fault.message 10 (Text.Quoted.quote (String.ofList part)))

/-- What a line stands for, or the failure to read it. -/
def lift {α : Type} (result : Except Failure α) : Reader α := fun s =>
  match result with
  | .ok a => .ok a s
  | .error f => .error f s

def number (line : Bytes) : Reader Int := lift (integerOf line)

/-! ## Error lines -/

/-- The kinds of error that a code alone decides. -/
def codes : List (String × Failure.StoreKind) := [
  ("OOM", .outOfMemory), ("WRONGPASS", .authentication), ("NOAUTH", .authentication), ("EXECABORT", .execAbort),
  ("LOADING", .busyLoading), ("NOSCRIPT", .noScript), ("READONLY", .readOnly), ("NOPERM", .noPermission),
  ("TRYAGAIN", .tryAgain), ("CLUSTERDOWN", .clusterDown), ("MASTERDOWN", .masterDown),
  ("MOVED", .moved), ("ASK", .ask), ("CROSSSLOT", .crossSlot)]

/-- The kinds of error that the text behind the general code decides. -/
def generalTexts : List (String × Failure.StoreKind) := [
  ("max number of clients reached", .connection),
  ("invalid password", .authentication),
  ("wrong number of arguments for 'auth' command", .authenticationArguments),
  ("wrong number of arguments for 'AUTH' command", .authenticationArguments),
  ("Error loading the extension. Please check the server logs.", .moduleLoad),
  ("Error unloading module: the module exports one or more module-side data types, can't unload", .moduleLoad),
  ("Error unloading module: no such module with that name", .moduleLoad),
  ("Error unloading module: operation not possible.", .moduleLoad),
  ("AUTH <password> called without any password configured for the default user. Are you sure " ++
    "your configuration is correct?", .authentication),
  ("Client sent AUTH, but no password is set", .authentication),
  ("problem with LDAP service", .externalAuthProvider),
  ("no such fieldset", .noSuchFieldset)]

/-- The parts of a text around its last separator, if there is one. -/
def splitLast? (sep : Char) (cs : List Char) : Option (List Char × List Char) :=
  let after := (cs.reverse.takeWhile (· ≠ sep)).reverse
  if after.length < cs.length then some (cs.take (cs.length - after.length - 1), after) else none

/-- Something else than two parts. -/
def partsFailure (count : Nat) : Failure :=
  .value (if count < 2 then "not enough values to unpack (expected 2, got " ++ toString count ++ ")"
    else "too many values to unpack (expected 2)")

/-- Checks a redirection, which names a slot and, behind a blank, a host and a port. -/
def checkRedirection (text : List Char) : Except Failure Unit := do
  match Address.splitOn ' ' text with
  | [slot, place] => match splitLast? ':' place with
    | none => throw (partsFailure 1)
    | some (_, port) =>
      let _ ← integerOfPart slot
      let _ ← integerOfPart port
  | parts => throw (partsFailure parts.length)

def isRedirection (kind : Failure.StoreKind) : Bool := kind = .moved || kind = .ask

/-- The error that a line stands for: its first word may be a code, and is then no part of the text. A redirection
that names no place cannot be read. -/
def errorOf (line : List Char) : Except Failure Failure := do
  let code := String.ofList (line.takeWhile (· ≠ ' '))
  let rest := (line.dropWhile (· ≠ ' ')).drop 1
  let text := String.ofList rest
  if code = "ERR" then return .store ((generalTexts.lookup text).getD .response) text
  else match codes.lookup code with
    | some kind =>
      if isRedirection kind then checkRedirection rest
      return .store kind text
    | none => return .store .response (String.ofList line)

/-! ## Answers -/

/-- Reads one thing after the other. -/
def times {α : Type} (n : Nat) (read : Reader α) : Reader (List α) :=
  match n with
  | 0 => pure []
  | n + 1 => do
    let a ← read
    let more ← times n read
    return a :: more

/-- How deep arrays may be nested. -/
def depthLimit : Nat := 485

/-- Reads an answer in which arrays are nested less than `depth` deep. -/
def readWithin (depth : Nat) : Reader Answer :=
  match depth with
  | 0 => throw (.foreign "RecursionError" "maximum recursion depth exceeded")
  | depth + 1 => do
    let line ← readLine
    match line with
    | [] => throw closed
    | mark :: rest =>
      if mark = '-'.toUInt8 then
        let f ← lift (errorOf (Text.Utf8.decode rest))
        if f.isConnection then throw f else return .failure f
      else if mark = '+'.toUInt8 then return .bytes rest
      else if mark = ':'.toUInt8 then return .int (← number rest)
      else if mark = '$'.toUInt8 then
        if rest = ascii "-1" then return .nil
        else return .bytes (← readBulk (← number rest))
      else if mark = '*'.toUInt8 then
        if rest = ascii "-1" then return .nil
        else return .list (← times (← number rest).toNat (readWithin depth))
      else throw (.store .invalidResponse ("Protocol Error: " ++ Text.Quoted.quoteBytes line))

/-- Reads an answer. -/
def readAnswer : Reader Answer := readWithin (depthLimit + 1)

end RemoteCache.Resp
