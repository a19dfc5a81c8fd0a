import RemoteCache.Yaml.Contents

/-!
# Reading documents

A document is read as a data tree. A key that comes twice keeps its first place and its last value, and entries that
are merged in come before a mapping's own. A document without content reads as nothing.
-/

namespace RemoteCache.Yaml

/-- Whether a character may stand in a document. -/
def isAllowed (c : Char) : Bool :=
  let n := c.toNat
  c = '\t' || c = '\n' || (0x20 ≤ n && n ≤ 0x7e) || n = 0x85 || (0xa0 ≤ n && n ≤ 0xfffd) || 0x10000 ≤ n

/-- Turns every way to end a line into a line feed. -/
def lineFeeds : List Char → List Char
  | [] => []
  | '\r' :: '\n' :: rest => '\n' :: lineFeeds rest
  | '\r' :: rest => '\n' :: lineFeeds rest
  | c :: rest => c :: lineFeeds rest

/-- Reads a document. -/
def read (text : String) : Except Error Value := do
  let cs := lineFeeds text.toList
  if !cs.all isAllowed then throw .malformed
  match ← Document.ofTokens (tokens cs) with
  | none => return .null
  | some document => return (← Contents.ofDocument document).tree document

end RemoteCache.Yaml
