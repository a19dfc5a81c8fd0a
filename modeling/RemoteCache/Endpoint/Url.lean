import RemoteCache.Endpoint.Address
import RemoteCache.Text.Blank
import RemoteCache.Text.Case
import RemoteCache.Text.Quoted

/-!
# URLs

A URL is split in three: the scheme before the first colon, the authority after two slashes, and the path, which
ends before a query or fragment. Every text is a URL except when its authority has brackets out of place, brackets
around something other than a numeric IPv6 address, or characters that a compatibility normalization would turn
into separators.

An authority names a host and perhaps a port, behind user information that is skipped.
-/

namespace RemoteCache

structure Url where
  scheme : List Char
  authority : List Char
  path : List Char
deriving DecidableEq, Repr

namespace Url

/-- Why a text is no URL. -/
inductive Error
  | brackets
  | notAddress (host : List Char)
  | ipv4InBrackets
  | futureAddress
  | compatibility (authority : List Char)
deriving DecidableEq, Repr

def Error.message : Error → String
  | .brackets => "Invalid IPv6 URL"
  | .notAddress host =>
    Text.Quoted.quote (String.ofList host) ++ " does not appear to be an IPv4 or IPv6 address"
  | .ipv4InBrackets => "An IPv4 address cannot be in brackets"
  | .futureAddress => "IPvFuture address is invalid"
  | .compatibility authority =>
    "netloc '" ++ String.ofList authority ++ "' contains invalid characters under NFKC normalization"

/-! ## The parts of a text -/

/-- Without the controls and spaces in front, and without tabs and line ends anywhere. -/
def clean (cs : List Char) : List Char :=
  (cs.dropWhile (· ≤ ' ')).filter fun c => c ≠ '\t' && c ≠ '\r' && c ≠ '\n'

def isSchemeChar (c : Char) : Bool := c.isAlphanum || c = '+' || c = '.' || c = '-'

/-- The scheme, in lower case, and what follows its colon. A text without a scheme gives an empty one. -/
def splitScheme (cs : List Char) : List Char × List Char :=
  let name := cs.takeWhile (· ≠ ':')
  match name, cs.dropWhile (· ≠ ':') with
  | c :: _, _ :: rest =>
    if c.isAlpha && name.all isSchemeChar then (name.map Char.toLower, rest) else ([], cs)
  | _, _ => ([], cs)

/-- Whether a character ends an authority. -/
def endsAuthority (c : Char) : Bool := c = '/' || c = '?' || c = '#'

def splitAuthority : List Char → List Char × List Char
  | '/' :: '/' :: rest => (rest.takeWhile (!endsAuthority ·), rest.dropWhile (!endsAuthority ·))
  | cs => ([], cs)

def endsPath (c : Char) : Bool := c = '?' || c = '#'

/-! ## The parts of an authority -/

/-- What comes behind the last character of a kind; everything if there is none. -/
def afterLast (sep : Char) (cs : List Char) : List Char := (cs.reverse.takeWhile (· ≠ sep)).reverse

/-- What comes before the first character of a kind and what comes behind it. -/
def cut (sep : Char) (cs : List Char) : List Char × List Char :=
  (cs.takeWhile (· ≠ sep), (cs.dropWhile (· ≠ sep)).drop 1)

/-- The host and the text of the port; a host between brackets may hold colons. -/
def hostAndPort (authority : List Char) : List Char × List Char :=
  let place := afterLast '@' authority
  if '[' ∈ place then
    let (host, rest) := cut ']' (cut '[' place).2
    (host, (cut ':' rest).2)
  else cut ':' place

/-- The host in lower case, except from a percent sign on. -/
def host (u : Url) : List Char :=
  let name := (hostAndPort u.authority).1
  Text.lower (name.takeWhile (· ≠ '%')) ++ name.dropWhile (· ≠ '%')

def portText (u : Url) : List Char := (hostAndPort u.authority).2

/-! ## Checks -/

/-- An address of a future kind: a `v`, hexadecimal digits, a point, and anything. -/
def isFutureAddress (cs : List Char) : Bool :=
  let rest := (cs.drop 1).dropWhile Hex.isDigit
  cs.head? = some 'v' && (cs.drop 1).head?.any Hex.isDigit && rest.head? = some '.' && 2 ≤ rest.length

/-- Checks a host that stands between brackets. -/
def checkHost (host : List Char) : Except Error Unit :=
  if host.head? = some 'v' then
    if isFutureAddress host then .ok () else .error .futureAddress
  else if Address.isIPv4 host then .error .ipv4InBrackets
  else if Address.isIPv6 host then .ok ()
  else .error (.notAddress host)

/-- Brackets come in pairs, nothing stands before them and only a port after them. -/
def checkBrackets (authority : List Char) : Except Error Unit :=
  if '[' ∈ authority && ']' ∈ authority then
    let place := afterLast '@' authority
    let (before, bracketed) := cut '[' place
    if '[' ∈ place then
      if before ≠ [] then .error .brackets
      else
        let (host, after) := cut ']' bracketed
        if after.head?.any (· ≠ ':') then .error .brackets else checkHost host
    else checkHost (cut ':' place).1
  else if '[' ∈ authority || ']' ∈ authority then .error .brackets
  else .ok ()

/-- The characters whose compatibility form holds a separator of URLs. -/
def compatibilitySeparators : List Nat := [
  0x2047, 0x2048, 0x2049, 0x2100, 0x2101, 0x2105, 0x2106, 0x2a74, 0xfe13, 0xfe16, 0xfe55, 0xfe56, 0xfe5f, 0xfe6b,
  0xff03, 0xff0f, 0xff1a, 0xff1f, 0xff20]

def checkCompatibility (authority : List Char) : Except Error Unit :=
  if authority.any fun c => c.toNat ∈ compatibilitySeparators then .error (.compatibility authority) else .ok ()

def parse (text : List Char) : Except Error Url := do
  let (scheme, rest) := splitScheme (clean text)
  let (authority, rest) := splitAuthority rest
  checkBrackets authority
  checkCompatibility authority
  return ⟨scheme, authority, rest.takeWhile (!endsPath ·)⟩

end Url
end RemoteCache
