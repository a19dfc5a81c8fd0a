import RemoteCache.Digest
import RemoteCache.Proofs.Bytes.Hex
import RemoteCache.Proofs.Results

/-!
# Texts and keys of digests

Different digests have different texts, and so different keys in the store.

**Theorem (`texts_tell_digests`).** A digest is read back from its text, and from its key without the name in front.
Any other ASCII text is read as the digest that is written like it, up to blanks and case, if it has twenty pairs of
digits; it is refused for the number of its pairs if there are more or less, and where it stops being a text of pairs
if it is none (`Reads`).

The cases are those of the outcome of reading pairs (`Hex.Outcome`), and no two of them hold of one text.
-/

namespace RemoteCache.Digest

open Hex (Paired Breaks condensed)

theorem toHex_inj {d e : Digest} : d.toHex = e.toHex ↔ d = e := by
  cases d
  cases e
  rw [toHex, toHex, String.ofList_inj, Hex.encode_inj, Digest.mk.injEq]

/-- Different digests have different keys. -/
theorem key_inj {d e : Digest} : d.key = e.key ↔ d = e := by
  rw [key, key, String.append_right_inj, toHex_inj]

/-! ## What is read -/

/-- What comes of reading a digest from an ASCII text. -/
structure Reads (text : List Char) (r : Except Error Digest) : Prop where
  succeeds : (∃ d, r = .ok d) ↔ Paired 20 text
  toHex_eq : ∀ d, r = .ok d → d.toHex = String.ofList (condensed text)
  length : ∀ n, r = .error (.length n) ↔ Paired n text ∧ n ≠ 20
  lengthText : ∀ n, Paired n text → n ≠ 20 →
    r.mapError Error.message = .error ("digest must be 20 bytes, got " ++ toString n)
  notHex : ∀ i, r = .error (.notHex i) ↔ Breaks text i
  notHexText : ∀ i, Breaks text i → r.mapError Error.message =
    .error ("non-hexadecimal number found in fromhex() arg at position " ++ toString i)

theorem decode_ascii {text : List Char} (h : ∀ c ∈ text, c.toNat < 128) : Hex.decode text = Hex.decodeFrom 0 text := by
  have hnone : text.findIdx? (fun c => 128 ≤ c.toNat) = none := by
    simpa [List.findIdx?_eq_none_iff] using h
  rw [Hex.decode, hnone]

/-- A byte is written with two ASCII digits. -/
theorem ascii_of_mem_encode {bytes : Bytes} : ∀ c ∈ Hex.encode bytes, c.toNat < 128 := by
  have hdigit : ∀ n < 16, (Hex.digit n).toNat < 128 := by decide
  intro c hc
  obtain ⟨b, -, hb⟩ := List.mem_flatMap.1 hc
  have hbyte : b.toNat < 256 := b.toNat_lt
  simp only [Hex.pair, List.mem_cons, List.not_mem_nil, or_false] at hb
  rcases hb with rfl | rfl
  · exact hdigit _ (by omega)
  · exact hdigit _ (by omega)

theorem ofBytes_bytes (d : Digest) : ofBytes d.bytes = .ok d := dif_pos d.length_eq

theorem ofHex_toHex (d : Digest) : ofHex d.toHex = .ok d := by
  rw [ofHex, toHex, String.toList_ofList, decode_ascii ascii_of_mem_encode, Hex.decodeFrom_encode]
  exact ofBytes_bytes d

section

variable {text : List Char} {d : Digest} {n i : Nat}

/-- What is read from twenty pairs. -/
theorem reads_digest (hpaired : Paired 20 text) (htext : Hex.encode d.bytes = condensed text) :
    Reads text (.ok d) where
  succeeds := iff_of_true ⟨d, rfl⟩ hpaired
  toHex_eq e he := by
    cases he
    rw [toHex, htext]
  length n := ⟨nofun, fun ⟨hn, hne⟩ => absurd (hn.unique hpaired) hne⟩
  lengthText n hn hne := absurd (hn.unique hpaired) hne
  notHex i := ⟨nofun, fun h => absurd hpaired (h.unpaired 20)⟩
  notHexText i h := absurd hpaired (h.unpaired 20)

/-- What is read from any other number of pairs. -/
theorem reads_length (hpaired : Paired n text) (hne : n ≠ 20) : Reads text (.error (.length n)) where
  succeeds := iff_of_false nofun fun h => hne (hpaired.unique h)
  toHex_eq _ := nofun
  length m := by
    constructor
    · rintro ⟨⟩
      exact ⟨hpaired, hne⟩
    · rintro ⟨hm, -⟩
      rw [hm.unique hpaired]
  lengthText m hm _ := by
    rw [hm.unique hpaired]
    rfl
  notHex i := ⟨nofun, fun h => absurd hpaired (h.unpaired n)⟩
  notHexText i h := absurd hpaired (h.unpaired n)

/-- What is read from a text that is none of pairs. -/
theorem reads_notHex (h : Breaks text i) : Reads text (.error (.notHex i)) where
  succeeds := iff_of_false nofun (h.unpaired 20)
  toHex_eq _ := nofun
  length n := ⟨nofun, fun hn => absurd hn.1 (h.unpaired n)⟩
  lengthText n hn := absurd hn (h.unpaired n)
  notHex j := by
    constructor
    · rintro ⟨⟩
      exact h
    · intro hj
      rw [hj.unique h]
  notHexText j hj := by
    rw [hj.unique h]
    rfl

end

theorem reads_ofHex {text : String} (h : ∀ c ∈ text.toList, c.toNat < 128) : Reads text.toList (ofHex text) := by
  have houtcome := Hex.decodeFrom_outcome 0 text.toList
  rw [ofHex, decode_ascii h]
  cases hread : Hex.decodeFrom 0 text.toList with
  | error i =>
    rw [hread] at houtcome
    obtain ⟨k, rfl, hk⟩ := houtcome
    rw [Nat.zero_add]
    exact reads_notHex hk
  | ok bytes =>
    rw [hread] at houtcome
    obtain ⟨hpaired, hcondensed⟩ := houtcome
    show Reads text.toList (ofBytes bytes)
    by_cases hlength : bytes.length = 20
    · rw [ofBytes, dif_pos hlength]
      exact reads_digest (hlength ▸ hpaired) hcondensed
    · rw [ofBytes, dif_neg hlength]
      exact reads_length hpaired hlength

theorem ascii_of_ofHex {text : String} {d : Digest} (h : ofHex text = .ok d) : ∀ c ∈ text.toList, c.toNat < 128 := by
  intro c hc
  refine Nat.lt_of_not_le fun hle => ?_
  have hfound : (text.toList.findIdx? fun c => 128 ≤ c.toNat) ≠ none := by
    rw [ne_eq, List.findIdx?_eq_none_iff]
    exact fun hnone => by simpa [hle] using hnone c hc
  obtain ⟨i, hi⟩ := Option.ne_none_iff_exists'.1 hfound
  rw [ofHex, Hex.decode, hi] at h
  cases h

/-- **A digest is read back from its text and from its key**, and an ASCII text is read as the digest that is written
like it, or refused for what is wrong with it. -/
theorem texts_tell_digests :
    (∀ d : Digest, ofHex d.toHex = .ok d) ∧
    (∀ d : Digest, ∃ rest, d.key = "ccache:" ++ rest ∧ ofHex rest = .ok d) ∧
    (∀ d e : Digest, d.key = e.key → d = e) ∧
    (∀ text : String, (∀ c ∈ text.toList, c.toNat < 128) → Reads text.toList (ofHex text)) ∧
    ∀ (text other : String) (d e : Digest), ofHex text = .ok d → ofHex other = .ok e →
      (d = e ↔ condensed text.toList = condensed other.toList) := by
  refine ⟨ofHex_toHex, fun d => ⟨d.toHex, rfl, ofHex_toHex d⟩, fun d e => key_inj.1, fun _ => reads_ofHex, ?_⟩
  intro text other d e hd he
  have htext := (reads_ofHex (ascii_of_ofHex hd)).toHex_eq d hd
  have hother := (reads_ofHex (ascii_of_ofHex he)).toHex_eq e he
  rw [← toHex_inj, htext, hother, String.ofList_inj]

/-- Blanks and letters of both cases; a pair with a blank inside, and too few pairs. -/
theorem texts_tell_digests_with_blanks :
    let text := "\t0011 2233 4455 6677 8899aAbBcCdDeEfF 00 11 22 33\n"
    (∃ d, ofHex text = .ok d ∧ d.toHex = "00112233445566778899aabbccddeeff00112233") ∧
      ofHex "00 1 1" = .error (.notHex 4) ∧ ofHex "00 11" = .error (.length 2) := by
  intro text
  obtain ⟨-, -, -, hreads, -⟩ := texts_tell_digests
  have hascii (text : String) (h : text.toList.all (·.toNat < 128) = true) : ∀ c ∈ text.toList, c.toNat < 128 := by
    simpa using h
  have htext := hreads text (hascii text (by decide))
  have hbroken : Breaks "00 1 1".toList 4 :=
    .pair (by decide) (by decide) (.blank (by decide) (Hex.breaks_broken (by decide) (by decide)))
  have hpaired : Paired 2 "00 11".toList :=
    .pair (by decide) (by decide) (.blank (by decide) (.pair (by decide) (by decide) .nil))
  have hread : (ofHex text).toOption.isSome = true := by decide +kernel
  obtain ⟨d, hd⟩ := Option.isSome_iff_exists.1 hread
  have hd' : ofHex text = .ok d := Results.toOption_eq_some.1 hd
  refine ⟨⟨d, hd', (htext.toHex_eq d hd').trans (by decide +kernel)⟩, ?_, ?_⟩
  · exact ((hreads "00 1 1" (hascii _ (by decide))).notHex 4).2 hbroken
  · exact ((hreads "00 11" (hascii _ (by decide))).length 2).2 ⟨hpaired, by decide⟩

end RemoteCache.Digest
