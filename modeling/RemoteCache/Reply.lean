import RemoteCache.Outcome
import RemoteCache.Text.Case

/-!
# Commands, answers and replies

A command is a word and its arguments. An *answer* is what comes back on a connection, of any shape. A *reply*
is the answer once tagged with what it means for the command, and the operations on a store look at the tag
alone: `Reply.ofExchange` gives each behaviour of a connection its tag, or lets a failure of no store family pass.

The store writes a status line and a byte string alike, so the command decides which of the two it was.
-/

namespace RemoteCache

/-- An argument of a command. -/
inductive Argument
  | text (s : String)
  | bytes (b : Bytes)
deriving DecidableEq, Repr

namespace Argument

def display : Argument → String
  | .text s => s
  | .bytes b => Text.Quoted.quoteBytes b

def toBytes : Argument → Bytes
  | .text s => s.toUTF8.toList
  | .bytes b => b

end Argument

/-- A command to a store. -/
structure Command where
  word : Argument
  args : List Argument
deriving DecidableEq, Repr

namespace Command

def ofWord (word : String) (args : List Argument) : Command := ⟨.text word, args⟩

def get (key : String) : Command := ofWord "GET" [.text key]

def set (key : String) (value : Bytes) : Command := ofWord "SET" [.text key, .bytes value]

def exists? (key : String) : Command := ofWord "EXISTS" [.text key]

def del (key : String) : Command := ofWord "DEL" [.text key]

/-- The login; a user name comes first if there is one. -/
def auth (username : Option String) (password : String) : Command :=
  ofWord "AUTH" (username.toList.map .text ++ [.text password])

/-- A command from a word and what follows it. -/
def ofArguments : List Argument → Except Failure Command
  | [] => .error (.foreign "IndexError" "tuple index out of range")
  | word :: args => .ok ⟨word, args⟩

/-- The word in upper case. -/
def name (c : Command) : String := String.ofList (Text.upper c.word.display.toList)

end Command

/-- What comes back on a connection. -/
inductive Answer
  | nil
  | bytes (b : Bytes)
  | buffer (b : Bytes)
  | int (n : Int)
  | bool (b : Bool)
  | text (s : String)
  | real (x : Binary64)
  | list (items : List Answer)
  /-- A failure handed over as a value, not raised. -/
  | failure (f : Failure)
deriving Repr, Inhabited

namespace Answer

mutual
/-- An answer as a text, with quotes around texts. -/
def quoted : Answer → String
  | .nil => Value.quoted .null
  | .bytes b => Value.quoted (.bytes b)
  | .buffer b => "bytearray(" ++ Value.quoted (.bytes b) ++ ")"
  | .int n => Value.quoted (.int n)
  | .bool b => Value.quoted (.bool b)
  | .text s => Value.quoted (.text s)
  | .real x => Value.quoted (.real x)
  | .list items => "[" ++ Value.joined ", " (quotedItems items) ++ "]"
  | .failure f => f.quoted

def quotedItems : List Answer → List String
  | [] => []
  | a :: rest => quoted a :: quotedItems rest
end

/-- An answer as a text: a text is itself, and a failure is its own text. -/
def display : Answer → String
  | .text s => s
  | .failure f => f.text
  | a => quoted a

/-- A failure that makes up a whole answer is raised when the answer is received. -/
def raised : Answer → Except Failure Answer
  | .failure f => .error f
  | a => .ok a

end Answer

/-- What an answer means for its command. -/
inductive Reply.Tag
  | string (b : Bytes)
  | integer (n : Int)
  | status (b : Bytes)
  | nil
  | error (content : Answer)
  /-- No answer arrived at all. -/
  | null
  | other
deriving Repr

/-- A tagged answer, with the failure that came instead of one. -/
structure Reply where
  tag : Reply.Tag
  failure : Option Failure := none
deriving Repr

namespace Reply

def Tag.name : Tag → String
  | .string _ => "string"
  | .integer _ => "integer"
  | .status _ => "status"
  | .nil => "nil"
  | .error _ => "error"
  | .null => "null"
  | .other => "other"

def kind (r : Reply) : String := r.tag.name

def isTimeout (r : Reply) : Bool := r.failure.any (·.isTimeout)

/-- The text for a log line. -/
def describe (r : Reply) : String :=
  match r.tag with
  | .null => "no reply (" ++ (match r.failure with | some f => f.text | none => "None") ++ ")"
  | .error content => content.display
  | tag => "unexpected " ++ tag.name ++ " reply"

/-- What a reply was tagged from, as far as its tag tells. -/
def content (r : Reply) : Answer :=
  match r.tag with
  | .string b | .status b => .bytes b
  | .integer n => .int n
  | .error content => content
  | .nil | .null | .other => .nil

/-- The bytes of an answer, if it is bytes. -/
def contentOf : Answer → Bytes
  | .bytes b => b
  | _ => []

def numberOf : Answer → Int
  | .int n => n
  | _ => 0

/-- The tag of a name, with what an answer holds. -/
def Tag.ofName? (name : String) (content : Answer) : Option Tag :=
  match name with
  | "string" => some (.string (contentOf content))
  | "integer" => some (.integer (numberOf content))
  | "status" => some (.status (contentOf content))
  | "nil" => some .nil
  | "error" => some (.error content)
  | "null" => some .null
  | "other" => some .other
  | _ => none

/-- A reply of a named kind. -/
def ofName (name : String) (content : Answer) (failure : Option Failure) : Except Failure Reply :=
  match Tag.ofName? name content with
  | some tag => .ok ⟨tag, failure⟩
  | none => .error (.value (Text.Quoted.quote name ++ " is not a valid ReplyKind"))

/-! ## Tagging -/

/-- The commands whose byte answers are status lines. -/
def statusCommands : List String := ["SET", "AUTH"]

def error (f : Failure) : Reply := ⟨.error (.text f.text), none⟩

def null (f : Failure) : Reply := ⟨.null, some f⟩

/-- Tags an answer to the command of a name. -/
def ofAnswer (command : String) : Answer → Reply
  | .nil => ⟨.nil, none⟩
  | .failure f => if f.isErrorReply then error f else ⟨.other, none⟩
  | .bytes b => ⟨if command ∈ statusCommands then .status b else .string b, none⟩
  | .int n => ⟨.integer n, none⟩
  | .buffer _ | .bool _ | .text _ | .real _ | .list _ => ⟨.other, none⟩

/-- Tags the outcome of an exchange: an error reply is a reply whether it was raised or handed over, any other
store failure is no reply, and a failure of another family passes. -/
def ofExchange (command : String) : Except Failure Answer → Except Failure Reply
  | .ok answer => .ok (ofAnswer command answer)
  | .error f =>
    if f.isErrorReply || f.isAuthentication then .ok (error f)
    else if f.isStore then .ok (null f)
    else .error f

end Reply

/-- What a reply means that fits none of a command's outcomes. -/
def ErrorDetail.ofReply (r : Reply) : ErrorDetail :=
  let metadata := [("reply_kind", r.kind)]
  match r.tag with
  | .null =>
    let metadata := metadata ++
      [("exception_type", match r.failure with | some f => f.kind.name | none => "NoneType")]
    if r.isTimeout then .timeout "redis operation timed out" .operationTimeout metadata
    else .error "redis connection lost" .connectionFailed metadata
  | .error content => .error content.display .errorReply metadata
  | tag => .error ("unexpected " ++ tag.name ++ " reply from redis") .unexpectedReply metadata

end RemoteCache
