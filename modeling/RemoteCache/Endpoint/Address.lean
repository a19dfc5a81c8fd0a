import RemoteCache.Bytes.Hex
import RemoteCache.Number.Digits

/-!
# Numeric addresses

Which texts are IPv4 or IPv6 addresses. An IPv4 address is four octets without leading zeros. An IPv6 address is
eight groups of one to four hexadecimal digits, of which one run may be left out between two colons, and of which
the last two may be written as an IPv4 address; behind a percent sign it may name a zone.
-/

namespace RemoteCache.Address

/-- Splits a text at each separator. There is always a first part, which is empty if nothing comes before. -/
def splitOn (sep : Char) : List Char → List (List Char)
  | [] => [[]]
  | c :: rest =>
    if c = sep then [] :: splitOn sep rest
    else match splitOn sep rest with
      | [] => [[c]]
      | part :: parts => (c :: part) :: parts

def isOctet (cs : List Char) : Bool :=
  cs ≠ [] && cs.all Char.isDigit && cs.length ≤ 3 && (cs = ['0'] || cs.head? ≠ some '0') &&
    Digits.natOf cs ≤ 255

def isIPv4 (cs : List Char) : Bool :=
  let octets := splitOn '.' cs
  octets.length = 4 && octets.all isOctet

def isGroup (cs : List Char) : Bool := cs ≠ [] && cs.all Hex.isDigit && cs.length ≤ 4

/-- The groups of an IPv6 address, an IPv4 address at the end counted as the two groups that it stands for. -/
def groups? (cs : List Char) : Option (List (List Char)) :=
  let parts := splitOn ':' cs
  match parts.getLast? with
  | some last =>
    if '.' ∈ last then
      if isIPv4 last then some (parts.dropLast ++ [['0'], ['0']]) else none
    else some parts
  | none => none

/-- Whether some parts, none of which may be empty, are groups: all of them, or those before and after a gap. -/
def areGroups (parts : List (List Char)) : Bool :=
  let inner := (parts.drop 1).dropLast
  match inner.findIdx? (· = []) with
  | none => parts.length = 8 && parts.all isGroup
  | some i =>
    let before := parts.take (i + 1)
    let after := parts.drop (i + 2)
    let before := if before = [[]] then [] else before
    let after := if after = [[]] then [] else after
    before.all isGroup && after.all isGroup && before.length + after.length ≤ 7

def isIPv6 (cs : List Char) : Bool :=
  let address := cs.takeWhile (· ≠ '%')
  let zone := cs.dropWhile (· ≠ '%')
  (zone = [] || (zone.length ≠ 1 && '%' ∉ zone.drop 1)) &&
    match groups? address with
    | some parts => 3 ≤ (splitOn ':' address).length && areGroups parts
    | none => false

end RemoteCache.Address
