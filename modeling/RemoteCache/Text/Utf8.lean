import RemoteCache.Bytes.Hex

/-!
# Reading UTF-8 without refusing anything

Each byte sequence that is not well formed is read as one replacement character: a sequence that starts well is
given up at the first byte that cannot continue it, and that byte is looked at afresh. So a character's own bytes
are read back whatever comes before them.
-/

namespace RemoteCache.Text.Utf8

/-- Stands for what cannot be read. -/
def replacement : Char := Char.ofNat 0xfffd

/-- How far a character has been read. -/
inductive State
  | idle
  /-- `more + 1` bytes are missing, the next one between `low` and `high`; `code` holds the bits so far. -/
  | within (more code low high : Nat)
deriving DecidableEq, Repr

/-- Looks at a byte where a character may start. -/
def start (b : Nat) : State × List Char :=
  if b < 0x80 then (.idle, [Char.ofNat b])
  else if b < 0xc2 then (.idle, [replacement])
  else if b < 0xe0 then (.within 0 (b - 0xc0) 0x80 0xbf, [])
  else if b < 0xf0 then
    (.within 1 (b - 0xe0) (if b = 0xe0 then 0xa0 else 0x80) (if b = 0xed then 0x9f else 0xbf), [])
  else if b < 0xf5 then
    (.within 2 (b - 0xf0) (if b = 0xf0 then 0x90 else 0x80) (if b = 0xf4 then 0x8f else 0xbf), [])
  else (.idle, [replacement])

def step (state : State) (b : Nat) : State × List Char :=
  match state with
  | .idle => start b
  | .within more code low high =>
    if low ≤ b ∧ b ≤ high then
      let code := 64 * code + (b - 0x80)
      match more with
      | 0 => (.idle, [Char.ofNat code])
      | more + 1 => (.within more code 0x80 0xbf, [])
    else
      let (state, cs) := start b
      (state, replacement :: cs)

def decodeFrom (state : State) : Bytes → List Char
  | [] => match state with
    | .idle => []
    | .within .. => [replacement]
  | b :: rest =>
    let (state, cs) := step state b.toNat
    cs ++ decodeFrom state rest

/-- The text of some bytes. -/
def decode (bytes : Bytes) : List Char := decodeFrom .idle bytes

/-- The bytes of some characters. -/
def encode (cs : List Char) : Bytes := (String.ofList cs).toUTF8.toList

/-- The text of some bytes that are well formed as a whole. -/
def decode? (bytes : Bytes) : Option (List Char) :=
  let cs := decode bytes
  if encode cs = bytes then some cs else none

end RemoteCache.Text.Utf8
