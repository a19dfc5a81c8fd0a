import RemoteCache.Value

/-!
# Failures

What a connection raises when it gives no answer, and what a store sends instead of one. A failure has a kind
and arguments, which make up its text.

The kinds fall into families, and callers react to the family alone:

- *store failures* know the store's protocol; among them are the *error replies*, which the store itself sent,
  and the *connection failures*, after which the connection is of no use;
- *system failures* come from the operating system, and may name the files that they are about;
- *value failures* come from a text that cannot be read or encoded;
- all others belong to no family.

A rejected login is a connection failure and counts as an error reply all the same.
-/

namespace RemoteCache

namespace Failure

/-- Failures that know the store's protocol. -/
inductive StoreKind
  | general | connection | timeout | authentication | authorization | busyLoading | maxConnections
  | externalAuthProvider | invalidResponse | badData | pubSub | watch | lock | lockNotOwned | cluster | response
  | readOnly | noPermission | noScript | execAbort | moduleLoad | outOfMemory | tryAgain
  | authenticationArguments | clusterDown | masterDown | ask | moved | crossSlot | noSuchFieldset
deriving DecidableEq, Repr

/-- Failures of the operating system. -/
inductive SystemKind
  | general | timeout | connection | connectionRefused | connectionReset | connectionAborted | brokenPipe
  | fileNotFound | fileExists | isADirectory | notADirectory | permission | interrupted | wouldBlock
  | childProcess | processLookup | addressInfo | hostLookup
deriving DecidableEq, Repr

/-- Failures to encode or to decode a text. -/
inductive CodecKind
  | general | encoding | decoding | mapping
deriving DecidableEq, Repr

inductive Kind
  | store (kind : StoreKind)
  | system (kind : SystemKind)
  | value
  | codec (kind : CodecKind)
  /-- A failure of no family, with the name of its home, if it has one, and its own name. -/
  | foreign (home name : String)
deriving DecidableEq, Repr

end Failure

/-- A failure of some kind and the arguments it was raised with. -/
structure Failure where
  kind : Failure.Kind
  args : List Value := []
  /-- The files that a system failure is about, at most two. -/
  files : List Value := []
deriving Repr

namespace Failure

/-! ## Names -/

def StoreKind.name : StoreKind → String
  | .general => "RedisError"
  | .connection => "ConnectionError"
  | .timeout => "TimeoutError"
  | .authentication => "AuthenticationError"
  | .authorization => "AuthorizationError"
  | .busyLoading => "BusyLoadingError"
  | .maxConnections => "MaxConnectionsError"
  | .externalAuthProvider => "ExternalAuthProviderError"
  | .invalidResponse => "InvalidResponse"
  | .badData => "DataError"
  | .pubSub => "PubSubError"
  | .watch => "WatchError"
  | .lock => "LockError"
  | .lockNotOwned => "LockNotOwnedError"
  | .cluster => "ClusterError"
  | .response => "ResponseError"
  | .readOnly => "ReadOnlyError"
  | .noPermission => "NoPermissionError"
  | .noScript => "NoScriptError"
  | .execAbort => "ExecAbortError"
  | .moduleLoad => "ModuleError"
  | .outOfMemory => "OutOfMemoryError"
  | .tryAgain => "TryAgainError"
  | .authenticationArguments => "AuthenticationWrongNumberOfArgsError"
  | .clusterDown => "ClusterDownError"
  | .masterDown => "MasterDownError"
  | .ask => "AskError"
  | .moved => "MovedError"
  | .crossSlot => "ClusterCrossSlotError"
  | .noSuchFieldset => "NoSuchFieldsetError"

def StoreKind.all : List StoreKind := [
  .general, .connection, .timeout, .authentication, .authorization, .busyLoading, .maxConnections,
  .externalAuthProvider, .invalidResponse, .badData, .pubSub, .watch, .lock, .lockNotOwned, .cluster, .response,
  .readOnly, .noPermission, .noScript, .execAbort, .moduleLoad, .outOfMemory, .tryAgain,
  .authenticationArguments, .clusterDown, .masterDown, .ask, .moved, .crossSlot, .noSuchFieldset]

def SystemKind.name : SystemKind → String
  | .general => "OSError"
  | .timeout => "TimeoutError"
  | .connection => "ConnectionError"
  | .connectionRefused => "ConnectionRefusedError"
  | .connectionReset => "ConnectionResetError"
  | .connectionAborted => "ConnectionAbortedError"
  | .brokenPipe => "BrokenPipeError"
  | .fileNotFound => "FileNotFoundError"
  | .fileExists => "FileExistsError"
  | .isADirectory => "IsADirectoryError"
  | .notADirectory => "NotADirectoryError"
  | .permission => "PermissionError"
  | .interrupted => "InterruptedError"
  | .wouldBlock => "BlockingIOError"
  | .childProcess => "ChildProcessError"
  | .processLookup => "ProcessLookupError"
  | .addressInfo => "gaierror"
  | .hostLookup => "herror"

def SystemKind.all : List SystemKind := [
  .general, .timeout, .connection, .connectionRefused, .connectionReset, .connectionAborted, .brokenPipe,
  .fileNotFound, .fileExists, .isADirectory, .notADirectory, .permission, .interrupted, .wouldBlock,
  .childProcess, .processLookup, .addressInfo, .hostLookup]

/-- Names that other names have taken over. -/
def SystemKind.aliases : List (String × SystemKind) := [
  ("IOError", .general), ("EnvironmentError", .general), ("error", .general), ("timeout", .timeout)]

def SystemKind.ofName? (name : String) : Option SystemKind :=
  match aliases.lookup name with
  | some k => some k
  | none => all.find? (·.name = name)

def CodecKind.name : CodecKind → String
  | .general => "UnicodeError"
  | .encoding => "UnicodeEncodeError"
  | .decoding => "UnicodeDecodeError"
  | .mapping => "UnicodeTranslateError"

def CodecKind.all : List CodecKind := [.general, .encoding, .decoding, .mapping]

def Kind.name : Kind → String
  | .store k => k.name
  | .system k => k.name
  | .value => "ValueError"
  | .codec k => k.name
  | .foreign _ name => name

/-- The home that a kind's full name starts with, empty for the built-in kinds. -/
def Kind.home : Kind → String
  | .store _ => "redis.exceptions"
  | .system .addressInfo | .system .hostLookup => "socket"
  | .foreign home _ => home
  | _ => ""

def Kind.fullName (k : Kind) : String :=
  if k.home = "" then k.name else k.home ++ "." ++ k.name

/-- The kind of a full name. -/
def Kind.ofName (home name : String) : Kind :=
  if home = "redis.exceptions" then
    match StoreKind.all.find? (·.name = name) with
    | some k => .store k
    | none => .foreign home name
  else match SystemKind.ofName? name, CodecKind.all.find? (·.name = name) with
    | some k, _ => .system k
    | none, some k => .codec k
    | none, none => if name = "ValueError" then .value else .foreign home name

/-- The kind of system failure that an error number stands for. -/
def SystemKind.ofNumber (n : Int) : SystemKind :=
  if n ∈ [11, 114, 115] then .wouldBlock
  else if n ∈ [32, 108] then .brokenPipe
  else if n = 10 then .childProcess
  else if n = 103 then .connectionAborted
  else if n = 111 then .connectionRefused
  else if n = 104 then .connectionReset
  else if n = 17 then .fileExists
  else if n = 2 then .fileNotFound
  else if n = 21 then .isADirectory
  else if n = 20 then .notADirectory
  else if n = 4 then .interrupted
  else if n ∈ [1, 13] then .permission
  else if n = 3 then .processLookup
  else if n = 110 then .timeout
  else .general

/-- The kind of a failure with some arguments: a general system failure with an error number and a text, and up to
three arguments more, is of the kind that the number stands for. -/
def Kind.withArgs (k : Kind) (args : List Value) : Kind :=
  match k, args with
  | .system .general, number :: _ :: rest => match number.asInt? with
    | some n => if rest.length ≤ 3 then .system (.ofNumber n) else k
    | none => k
  | k, _ => k

/-- The files among the arguments of a system failure: the third one, and with it the fifth. A failure to go on at
once has a count of bytes in that place. -/
def filesOf (k : SystemKind) (args : List Value) : List Value :=
  match args with
  | _ :: _ :: file :: rest =>
    if 2 < rest.length || file.isNull || (k = .wouldBlock && file.asNumber?.isSome) then []
    else file :: (rest.drop 1).filter (!·.isNull)
  | _ => []

/-- A failure from its full name and arguments. A system failure that names files keeps its first two arguments. -/
def make (home name : String) (args : List Value) : Failure :=
  let kind := (Kind.ofName home name).withArgs args
  match kind with
  | .system k => match filesOf k args with
    | [] => { kind, args }
    | files => { kind, args := args.take 2, files }
  | kind => { kind, args }

/-! ## Text -/

/-- The arguments between round brackets; a single one is followed by a comma. -/
def tuple : List Value → String
  | [v] => "(" ++ v.quoted ++ ",)"
  | vs => "(" ++ Value.joined ", " (vs.map Value.quoted) ++ ")"

/-- The text of some arguments: none give no text, and one gives its own. -/
def textOfArgs : List Value → String
  | [] => ""
  | [v] => v.display
  | vs => tuple vs

/-- A system failure shows its number in front, and the files behind its text. -/
def systemText (args files : List Value) : String :=
  match args with
  | number :: v :: rest =>
    if 3 < rest.length then textOfArgs args
    else
      let named := match files with
        | [] => ""
        | files => ": " ++ Value.joined " -> " (files.map Value.quoted)
      "[Errno " ++ number.display ++ "] " ++ v.display ++ named
  | args => textOfArgs args

/-- The characters of a text from one index to before another: a single one is shown. -/
def placeText (s : String) (start stop : Int) : String :=
  match s.toList[start.toNat]? with
  | some c =>
    if stop = start + 1 then
      "character '" ++ String.ofList (Text.Quoted.codeEscape c.toNat) ++ "' in position " ++ toString start
    else "characters in position " ++ toString start ++ "-" ++ toString (stop - 1)
  | none => "characters in position " ++ toString start ++ "-" ++ toString (stop - 1)

def codecText (kind : CodecKind) (args : List Value) : String :=
  match kind, args with
  | .encoding, [codec, .text s, .int start, .int stop, reason] =>
    "'" ++ codec.display ++ "' codec can't encode " ++ placeText s start stop ++ ": " ++ reason.display
  | .mapping, [.text s, .int start, .int stop, reason] =>
    "can't translate " ++ placeText s start stop ++ ": " ++ reason.display
  | _, args => textOfArgs args

/-- Failures about the form of a program. -/
def syntaxNames : List String := ["SyntaxError", "IndentationError", "TabError"]

def isSyntax (f : Failure) : Bool :=
  match f.kind with
  | .foreign "" name => name ∈ syntaxNames
  | _ => false

/-- What follows a file's folders in its name. -/
def baseName (cs : List Char) : List Char := (cs.reverse.takeWhile (· ≠ '/')).reverse

/-- The text of a failure about the form of a program: its first argument, and behind it the file and the line that a
second one names. -/
def syntaxText (args : List Value) : String :=
  let place := match args with
    | [_, .list (.text file :: .int line :: _)] =>
      " (" ++ String.ofList (baseName file.toList) ++ ", line " ++ toString line ++ ")"
    | [_, .list (.text file :: _)] => " (" ++ String.ofList (baseName file.toList) ++ ")"
    | [_, .list (_ :: .int line :: _)] => " (line " ++ toString line ++ ")"
    | _ => ""
  (args.headD .null).display ++ place

/-- The text of a failure. A missing key comes between quotes, and a lock shows its first argument alone. -/
def text (f : Failure) : String :=
  match f.kind, f.args with
  | .store .lock, args | .store .lockNotOwned, args => (args.headD .null).display
  | .system _, args => systemText args f.files
  | .codec kind, args => codecText kind args
  | .foreign "" "KeyError", [key] => key.quoted
  | _, args => if f.isSyntax then syntaxText args else textOfArgs args

/-- A failure as one part of a list: its kind with its arguments. -/
def quoted (f : Failure) : String :=
  f.kind.name ++ "(" ++ Value.joined ", " (f.args.map Value.quoted) ++ ")"

/-- A failure as a line of a log: its full name and its text, if there is one. -/
def summary (f : Failure) : String :=
  if f.isSyntax then
    let detail := f.args.headD .null
    f.kind.fullName ++ ": " ++ (if detail.isTruthy then detail.display else "<no detail available>")
  else if f.text = "" then f.kind.fullName
  else f.kind.fullName ++ ": " ++ f.text

/-! ## Families -/

/-- The kinds that the store itself sends. -/
def StoreKind.isErrorReply : StoreKind → Bool
  | .response | .readOnly | .noPermission | .noScript | .execAbort | .moduleLoad | .outOfMemory | .tryAgain
  | .authenticationArguments | .clusterDown | .masterDown | .ask | .moved | .crossSlot | .noSuchFieldset => true
  | _ => false

/-- The kinds after which a connection is of no use. -/
def StoreKind.isConnection : StoreKind → Bool
  | .connection | .authentication | .authorization | .busyLoading | .maxConnections | .externalAuthProvider => true
  | _ => false

def isStore (f : Failure) : Bool := match f.kind with | .store _ => true | _ => false

def isErrorReply (f : Failure) : Bool := match f.kind with | .store k => k.isErrorReply | _ => false

def isConnection (f : Failure) : Bool := match f.kind with | .store k => k.isConnection | _ => false

def isAuthentication (f : Failure) : Bool := f.kind == .store .authentication

/-- A timeout of the store's protocol or of the operating system. -/
def isTimeout (f : Failure) : Bool := f.kind == .store .timeout || f.kind == .system .timeout

/-- The failures of a connection attempt that a session deals with; all others pass through it. -/
def isConnectFailure (f : Failure) : Bool :=
  match f.kind with
  | .store _ | .system _ | .value | .codec _ => true
  | .foreign _ _ => false

/-! ## Construction -/

def store (kind : StoreKind) (text : String) : Failure := { kind := .store kind, args := [.text text] }

def value (text : String) : Failure := { kind := .value, args := [.text text] }

/-- A failure of no family, from its own name and its text. -/
def foreign (name text : String) : Failure := { kind := .foreign "" name, args := [.text text] }

def assertion (args : List Value) : Failure := { kind := .foreign "" "AssertionError", args }

end Failure
end RemoteCache
