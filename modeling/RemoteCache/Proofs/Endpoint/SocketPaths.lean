import RemoteCache.BackendSettings
import RemoteCache.Endpoint
import RemoteCache.Proofs.Bytes.Hex
import RemoteCache.Proofs.Endpoint.Parts
import RemoteCache.Proofs.Text.Utf8

/-!
# Endpoints at a socket path

A socket path is written into a URL byte by byte: the bytes of letters, digits, slashes and some punctuation as the
characters that they are, and all others as percent escapes (`Percent.Escaped`). There are several such texts for a
path, since the digits of an escape are of either case.

**Theorem (`socket_path_is_read_back`).** Whatever path begins with a slash, each of its texts is read back as the path,
with any query or fragment behind it, and a connection is made to the socket of that path.

The way back is in two steps. The text stands for the bytes that it was made from (`Percent.Escaped.bytes_eq`), and the
bytes for the characters (`Text.Utf8.decode_encode`). No delimiter and nothing that is dropped stands in the text
(`Percent.Escaped.chars`), so all of it is the path of the URL, also where it begins with two slashes (`parse_path`).
-/

namespace RemoteCache

/-! ## Percent escapes -/

namespace Percent

/-- The characters that need no escape in a path. -/
def isPathChar (c : Char) : Bool := Url.isUnreserved c || c = '/'

/-- A text that stands for some bytes: each byte as a character that needs no escape, or else as an escape with digits
of either case. -/
inductive Escaped : Bytes → List Char → Prop
  | nil : Escaped [] []
  | plain {b : UInt8} {c : Char} {bytes : Bytes} {text : List Char} : isPathChar c = true → c.toNat = b.toNat →
      Escaped bytes text → Escaped (b :: bytes) (c :: text)
  | escape {b : UInt8} {high low : Char} {bytes : Bytes} {text : List Char} :
      isPathChar (Char.ofNat b.toNat) = false → Hex.value? high = some (b.toNat / 16) →
      Hex.value? low = some (b.toNat % 16) → Escaped bytes text → Escaped (b :: bytes) ('%' :: high :: low :: text)

theorem ascii_of_isPathChar {c : Char} (hc : isPathChar c = true) : c.toNat < 128 := by
  simp only [isPathChar, Bool.or_eq_true, decide_eq_true_eq] at hc
  rcases hc with hc | rfl
  · exact Url.ascii_of_isUnreserved hc
  · decide

theorem bytes_plain {c : Char} (hc : c ≠ '%') (text : List Char) :
    bytes (c :: text) = Text.Utf8.encode [c] ++ bytes text := by
  rw [bytes]
  intro a b rest heq
  exact absurd heq hc

theorem Escaped.bytes_eq {bytes : Bytes} {text : List Char} (h : Escaped bytes text) : Percent.bytes text = bytes := by
  induction h with
  | nil => rfl
  | @plain b c bytes text hc hb _ ih =>
    have hascii := ascii_of_isPathChar hc
    have hbyte : c.val.toUInt8 = b := UInt8.toNat_inj.1 ((toNat_toUInt8 hascii).trans hb)
    rw [bytes_plain (ne_of_class hc (by decide)), ih, Text.Utf8.encode_ascii (by simpa using hascii),
      List.map_singleton, hbyte]
    rfl
  | @escape b high low bytes text _ hhigh hlow _ ih =>
    have hjoin : UInt8.ofNat (16 * (b.toNat / 16) + b.toNat % 16) = b := by
      rw [Nat.div_add_mod]
      exact UInt8.ofNat_toNat
    rw [Percent.bytes, hhigh, hlow, ih]
    simp only [hjoin]

theorem isUnreserved_of_value? {c : Char} {n : Nat} (h : Hex.value? c = some n) : Url.isUnreserved c = true := by
  have hcases : '0' ≤ c ∧ c ≤ '9' ∨ 'a' ≤ c ∧ c ≤ 'f' ∨ 'A' ≤ c ∧ c ≤ 'F' := by
    unfold Hex.value? at h
    split at h
    · next hc => exact .inl hc
    · split at h
      · next hc => exact .inr (.inl hc)
      · split at h
        · next hc => exact .inr (.inr hc)
        · cases h
  have hcodes : 48 ≤ c.toNat ∧ c.toNat ≤ 57 ∨ 97 ≤ c.toNat ∧ c.toNat ≤ 102 ∨ 65 ≤ c.toNat ∧ c.toNat ≤ 70 := hcases
  have halphanum : c.isAlphanum = true := isAlphanum_iff.2 (by omega)
  rw [Url.isUnreserved, halphanum, Bool.true_or]

/-- What may stand in an escaped text. -/
def isEscapedChar (c : Char) : Bool := isPathChar c || c = '%'

theorem Escaped.chars {bytes : Bytes} {text : List Char} (h : Escaped bytes text) :
    ∀ c ∈ text, isEscapedChar c = true := by
  have hdigit {c : Char} {n : Nat} (hc : Hex.value? c = some n) : isEscapedChar c = true := by
    simp [isEscapedChar, isPathChar, isUnreserved_of_value? hc]
  induction h with
  | nil => simp
  | plain hc _ _ ih => exact List.forall_mem_cons.2 ⟨by simp [isEscapedChar, hc], ih⟩
  | escape _ hhigh hlow _ ih =>
    exact List.forall_mem_cons.2 ⟨by decide, List.forall_mem_cons.2 ⟨hdigit hhigh,
      List.forall_mem_cons.2 ⟨hdigit hlow, ih⟩⟩⟩

/-- Every byte string is escaped by some text. -/
theorem exists_escaped (bytes : Bytes) : ∃ text, Escaped bytes text := by
  induction bytes with
  | nil => exact ⟨[], .nil⟩
  | cons b bytes ih =>
    obtain ⟨text, htext⟩ := ih
    have hb : b.toNat < 256 := b.toNat_lt
    cases hc : isPathChar (Char.ofNat b.toNat) with
    | true =>
      have hvalid : b.toNat.isValidChar := .inl (by omega)
      have hcode : (Char.ofNat b.toNat).toNat = b.toNat := by
        rw [Char.ofNat, dif_pos hvalid]
        rfl
      exact ⟨_, .plain hc hcode htext⟩
    | false =>
      exact ⟨_, .escape hc (Hex.value_digit (by omega)) (Hex.value_digit (by omega)) htext⟩

end Percent

/-! ## Paths -/

namespace Endpoint

open Percent

variable {path text suffix : List Char}

/-- An escaped path that starts with a slash starts with one itself. -/
theorem head_escaped (hpath : path.head? = some '/') (h : Escaped (Text.Utf8.encode path) text) :
    text.head? = some '/' := by
  obtain ⟨rest, rfl⟩ := List.head?_eq_some_iff.1 hpath
  have hslash : String.utf8EncodeChar '/' = [47] := by decide
  rw [Text.Utf8.encode_eq, List.flatMap_cons, hslash, List.singleton_append] at h
  cases h with
  | @plain _ c _ _ hc hb =>
    have hchar : c = '/' := Char.toNat_inj.1 hb
    rw [hchar, List.head?_cons]
  | escape hreserved => exact absurd hreserved (by decide)

/-- The path of a URL without an authority is all up to a query or a fragment. -/
theorem parse_path (htext : ∀ c ∈ text, isEscapedChar c = true) (hhead : text.head? = some '/')
    (hsuffix : ∀ c ∈ suffix.head?, c = '?' ∨ c = '#') :
    Url.parse ("redis://".toList ++ (text ++ suffix)) = .ok ⟨supportedScheme.toList, [], text⟩ := by
  have hscheme : Url.IsWord supportedScheme.toList := ⟨by decide, List.all_eq_true.1 (by decide)⟩
  have hrest : ∀ c ∈ (text ++ suffix).head?, Url.endsAuthority c = true := by
    rw [List.head?_append, hhead]
    simp [Url.endsAuthority]
  have hparse : Url.parse (supportedScheme.toList ++ ':' :: '/' :: '/' :: ([] ++ (text ++ suffix))) = _ :=
    Url.parse_assembled hscheme (by simp) hrest
  have hkept : text.filter Url.isKept = text :=
    List.filter_eq_self.2 fun c hc => Url.isKept_of_class (by decide) (htext c hc)
  have hinside : ∀ c ∈ text, (!Url.endsPath c) = true := fun c hc => by
    simp [Url.endsPath, ne_of_class (htext c hc) (d := '?') (by decide),
      ne_of_class (htext c hc) (d := '#') (by decide)]
  have hkept' : ∀ c ∈ suffix.head?, Url.isKept c = true := by
    intro c hc
    rcases hsuffix c hc with rfl | rfl <;> rfl
  have hends : ∀ c ∈ (suffix.filter Url.isKept).head?, (!Url.endsPath c) = false := by
    rw [Url.head?_filter_isKept hkept']
    intro c hc
    rcases hsuffix c hc with rfl | rfl <;> rfl
  rw [List.filter_append, hkept, takeWhile_part hinside hends] at hparse
  exact hparse

/-- **A socket path is read from its escaped form**, whatever it holds and whatever query or fragment follows. -/
theorem socket_path_is_read_back (path : String) (hpath : path.toList.head? = some '/') :
    (∃ text, Escaped (Text.Utf8.encode path.toList) text) ∧
    ∀ text suffix, Escaped (Text.Utf8.encode path.toList) text → (∀ c ∈ suffix.head?, c = '?' ∨ c = '#') →
      ∃ e, Endpoint.ofUrl (String.ofList ("redis://".toList ++ (text ++ suffix))) = .ok e ∧
        e.host = "" ∧ e.isUnix = true ∧ e.isTcp = false ∧ e.port = 6379 ∧ e.socketPath = path ∧ e.describe = path ∧
        ∀ settings, (ConnectionOptions.of e settings).target = .socket path := by
  refine ⟨exists_escaped _, fun text suffix htext hsuffix => ?_⟩
  have hdecode : Percent.decode text = path.toList := by
    rw [Percent.decode, htext.bytes_eq, Text.Utf8.decode_encode]
  have hne : path ≠ "" := by
    rintro rfl
    cases hpath
  let e : Endpoint := {
    url := String.ofList ("redis://".toList ++ (text ++ suffix)), scheme := supportedScheme, host := "",
    port := defaultPort, socketPath := path }
  have htcp : e.isTcp = false := rfl
  have hunix : e.isUnix = true := by
    rw [isUnix, htcp]
    simpa using hne
  have hread : Endpoint.ofUrl e.url = .ok e := by
    have hparse := parse_path htext.chars (head_escaped hpath htext) hsuffix
    have hhost : Url.host ⟨supportedScheme.toList, [], text⟩ = [] := rfl
    have hport : Url.portText ⟨supportedScheme.toList, [], text⟩ = [] := rfl
    unfold ofUrl
    rw [String.toList_ofList, hparse]
    simp only [hport, hhost, hdecode, String.ofList_toList]
    rfl
  refine ⟨e, hread, rfl, hunix, htcp, rfl, rfl, ?_, fun settings => ?_⟩
  · rw [describe, htcp]
    rfl
  · show e.target = _
    rw [target, htcp]
    rfl

/-- Two slashes in front, a character of two bytes, and escaped delimiters; the escapes have digits of both cases. -/
theorem crowded_socket_path_is_read_back :
    let path := "//ü %?"
    Escaped (Text.Utf8.encode path.toList) "//%c3%BC%20%25%3f".toList ∧
      ∃ e, Endpoint.ofUrl "redis:////%c3%BC%20%25%3f?db=1#?" = .ok e ∧ e.socketPath = path ∧ e.describe = path ∧
        ∀ settings, (ConnectionOptions.of e settings).target = .socket path := by
  intro path
  have hbytes : Text.Utf8.encode path.toList = [0x2f, 0x2f, 0xc3, 0xbc, 0x20, 0x25, 0x3f] := by decide +kernel
  have hescaped : Escaped (Text.Utf8.encode path.toList) "//%c3%BC%20%25%3f".toList := by
    rw [hbytes]
    exact .plain (by decide) (by decide) (.plain (by decide) (by decide)
      (.escape (by decide) (by decide) (by decide) (.escape (by decide) (by decide) (by decide)
        (.escape (by decide) (by decide) (by decide) (.escape (by decide) (by decide) (by decide)
          (.escape (by decide) (by decide) (by decide) .nil))))))
  obtain ⟨-, hread⟩ := socket_path_is_read_back path (by decide)
  obtain ⟨e, he, -, -, -, -, hpath, hdescribe, htarget⟩ := hread _ "?db=1#?".toList hescaped (by
    rintro _ ⟨⟩
    decide)
  exact ⟨hescaped, e, he, hpath, hdescribe, htarget⟩

end Endpoint
end RemoteCache
