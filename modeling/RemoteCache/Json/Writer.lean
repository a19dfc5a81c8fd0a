import RemoteCache.Text.Quoted

/-!
# Writing JSON objects of texts

Texts are written in printable ASCII alone: quotes and backslashes behind a backslash, the common controls by
their letters, and every other character outside the range from space to tilde by the hexadecimal code of its
UTF-16 units. Objects are written without blanks, the entries in their order.
-/

namespace RemoteCache.Json

/-- The signs that open and close an object. -/
def openBrace : Char := Char.ofNat 123

def closeBrace : Char := Char.ofNat 125

/-- The escape of one UTF-16 unit. -/
def unitEscape (n : Nat) : List Char := '\\' :: 'u' :: Text.Quoted.hexDigits 4 n

/-- One character of a text. -/
def escape (c : Char) : List Char :=
  if c = '"' ∨ c = '\\' then ['\\', c]
  else if c = '\n' then ['\\', 'n']
  else if c = '\r' then ['\\', 'r']
  else if c = '\t' then ['\\', 't']
  else if c = Char.ofNat 8 then ['\\', 'b']
  else if c = Char.ofNat 12 then ['\\', 'f']
  else if ' ' ≤ c ∧ c ≤ '~' then [c]
  else if c.toNat < 0x10000 then unitEscape c.toNat
  else unitEscape (0xd800 + (c.toNat - 0x10000) / 0x400) ++ unitEscape (0xdc00 + (c.toNat - 0x10000) % 0x400)

def writeText (cs : List Char) : List Char := '"' :: (cs.flatMap escape ++ ['"'])

def writeEntry (entry : String × String) : List Char :=
  writeText entry.1.toList ++ ':' :: writeText entry.2.toList

/-- The entries behind the first one, each after a comma. -/
def writeMore (entries : List (String × String)) : List Char :=
  entries.flatMap fun e => ',' :: writeEntry e

def writeObject (entries : List (String × String)) : List Char :=
  openBrace :: (match entries with
    | [] => []
    | e :: rest => writeEntry e ++ writeMore rest) ++ [closeBrace]

end RemoteCache.Json
