import RemoteCache.Digest.Blake2b

/-!
# Digests and store keys

A digest is the twenty-byte fingerprint that addresses an artifact. Its text is forty lower-case
hexadecimal digits, and its key in the store is that text behind a fixed name and a colon, so that
different digests have different keys.
-/

namespace RemoteCache

/-- The fingerprint of an artifact. -/
structure Digest where
  bytes : Bytes
  length_eq : bytes.length = 20
deriving DecidableEq

namespace Digest

/-- Why a text or a byte string is no digest. -/
inductive Error
  | length (found : Nat)
  | notHex (index : Nat)
deriving DecidableEq, Repr

def Error.message : Error → String
  | .length n => s!"digest must be 20 bytes, got {n}"
  | .notHex i => s!"non-hexadecimal number found in fromhex() arg at position {i}"

def ofBytes (bytes : Bytes) : Except Error Digest :=
  if h : bytes.length = 20 then .ok ⟨bytes, h⟩ else .error (.length bytes.length)

/-- The digest of an artifact's content. -/
def ofContent (content : Bytes) : Digest :=
  ⟨Blake2b.hash 20 content, Blake2b.length_hash (by decide) content⟩

def ofHex (text : String) : Except Error Digest :=
  match Hex.decode text.toList with
  | .error i => .error (.notHex i)
  | .ok bytes => ofBytes bytes

def toHex (d : Digest) : String := String.ofList (Hex.encode d.bytes)

/-- The name under which the store keeps the artifact. -/
def key (d : Digest) : String := "ccache:" ++ d.toHex

end Digest
end RemoteCache
