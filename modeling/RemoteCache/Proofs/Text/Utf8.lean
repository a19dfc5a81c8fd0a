import RemoteCache.Text.Utf8

/-!
# Text is read back from its bytes

The bytes of a character lead the reader from between two characters to between two characters, and give the character
itself (`decodeFrom_utf8EncodeChar`). So what was written as UTF-8 is read as it was, whatever comes behind it
(`decode_encode_append`).

There is one case for each number of bytes. A byte that goes on with a character (`decodeFrom_next`, `decodeFrom_last`)
has six bits of its code; that these bits are put together again is division by powers of two.
-/

namespace RemoteCache

/-! ## Bytes of a text -/

theorem toList_loop (b : ByteArray) (i : Nat) (read : List UInt8) :
    ByteArray.toList.loop b i read = read.reverse ++ b.data.toList.drop i := by
  fun_induction ByteArray.toList.loop b i read with
  | case1 i read hi ih =>
    have hlength : i < b.data.toList.length := by simpa using hi
    have hdrop : b.data.toList.drop i = b.get! i :: b.data.toList.drop (i + 1) := by
      rw [List.drop_eq_getElem_cons hlength]
      simp [ByteArray.get!, hi]
    rw [ih, hdrop]
    simp
  | case2 i read hi =>
    rw [List.drop_eq_nil_of_le (by simpa using hi), List.append_nil]

theorem toList_eq (b : ByteArray) : b.toList = b.data.toList := by
  rw [ByteArray.toList, toList_loop]
  rfl

/-- An ASCII character is encoded in a byte of its own. -/
theorem utf8EncodeChar_ascii {c : Char} (hc : c.toNat < 128) : String.utf8EncodeChar c = [c.val.toUInt8] := by
  refine String.utf8EncodeChar_eq_singleton ?_
  have hval : c.val ≤ 127 := by
    rw [UInt32.le_iff_toNat_le]
    exact Nat.le_of_lt_succ hc
  simp [Char.utf8Size, hval]

theorem toNat_toUInt8 {c : Char} (hc : c.toNat < 128) : c.val.toUInt8.toNat = c.toNat := by
  rw [UInt32.toNat_toUInt8]
  exact Nat.mod_eq_of_lt (Nat.lt_trans hc (by decide))

/-- The character of such a byte is the one that was written. -/
theorem ofNat_toUInt8 {c : Char} (hc : c.toNat < 128) : Char.ofNat c.val.toUInt8.toNat = c := by
  rw [toNat_toUInt8 hc, Char.ofNat_toNat]

namespace Text.Utf8

theorem encode_eq (cs : List Char) : encode cs = cs.flatMap String.utf8EncodeChar := by
  show (String.ofList cs).toByteArray.toList = _
  rw [String.toByteArray_ofList, List.utf8Encode, toList_eq, List.toList_data_toByteArray]

/-- A text of ASCII characters has a byte for each of them. -/
theorem encode_ascii {cs : List Char} (hcs : ∀ c ∈ cs, c.toNat < 128) : encode cs = cs.map fun c => c.val.toUInt8 := by
  rw [encode_eq]
  induction cs with
  | nil => rfl
  | cons c cs ih =>
    rw [List.flatMap_cons, List.map_cons, utf8EncodeChar_ascii (hcs c List.mem_cons_self),
      ih fun d hd => hcs d (List.mem_cons_of_mem c hd)]
    rfl

/-! ## Characters -/

variable {n more code low high : Nat} {rest : Bytes}

theorem toNat_ofNat_byte (hn : n < 256) : (UInt8.ofNat n).toNat = n := by
  rw [UInt8.toNat_ofNat']
  exact Nat.mod_eq_of_lt hn

theorem decodeFrom_of_one (hn : n < 0x80) :
    decodeFrom .idle (UInt8.ofNat n :: rest) = Char.ofNat n :: decodeFrom .idle rest := by
  rw [decodeFrom, toNat_ofNat_byte (by omega), step, start, if_pos hn]
  rfl

theorem decodeFrom_of_two (hlow : 0xc2 ≤ n) (hhigh : n < 0xe0) :
    decodeFrom .idle (UInt8.ofNat n :: rest) = decodeFrom (.within 0 (n - 0xc0) 0x80 0xbf) rest := by
  rw [decodeFrom, toNat_ofNat_byte (by omega), step, start, if_neg (by omega), if_neg (by omega), if_pos hhigh]
  rfl

theorem decodeFrom_of_three (hlow : 0xe0 ≤ n) (hhigh : n < 0xf0) :
    decodeFrom .idle (UInt8.ofNat n :: rest) = decodeFrom
      (.within 1 (n - 0xe0) (if n = 0xe0 then 0xa0 else 0x80) (if n = 0xed then 0x9f else 0xbf)) rest := by
  rw [decodeFrom, toNat_ofNat_byte (by omega), step, start, if_neg (by omega), if_neg (by omega), if_neg (by omega),
    if_pos hhigh]
  rfl

theorem decodeFrom_of_four (hlow : 0xf0 ≤ n) (hhigh : n < 0xf5) :
    decodeFrom .idle (UInt8.ofNat n :: rest) = decodeFrom
      (.within 2 (n - 0xf0) (if n = 0xf0 then 0x90 else 0x80) (if n = 0xf4 then 0x8f else 0xbf)) rest := by
  rw [decodeFrom, toNat_ofNat_byte (by omega), step, start, if_neg (by omega), if_neg (by omega), if_neg (by omega),
    if_neg (by omega), if_pos hhigh]
  rfl

/-- A byte in the middle of a character has six more bits of it. -/
theorem decodeFrom_next (hlow : low ≤ n) (hhigh : n ≤ high) (hn : n < 256) :
    decodeFrom (.within (more + 1) code low high) (UInt8.ofNat n :: rest) =
      decodeFrom (.within more (64 * code + (n - 0x80)) 0x80 0xbf) rest := by
  rw [decodeFrom, toNat_ofNat_byte hn, step, if_pos ⟨hlow, hhigh⟩]
  rfl

/-- The last byte of a character has the last six bits. -/
theorem decodeFrom_last (hlow : low ≤ n) (hhigh : n ≤ high) (hn : n < 256) :
    decodeFrom (.within 0 code low high) (UInt8.ofNat n :: rest) =
      Char.ofNat (64 * code + (n - 0x80)) :: decodeFrom .idle rest := by
  rw [decodeFrom, toNat_ofNat_byte hn, step, if_pos ⟨hlow, hhigh⟩]
  rfl

/-- **The bytes of a character are read back as this character.** -/
theorem decodeFrom_utf8EncodeChar (c : Char) (rest : Bytes) :
    decodeFrom .idle (String.utf8EncodeChar c ++ rest) = c :: decodeFrom .idle rest := by
  have hvalid : c.val.toNat < 0xd800 ∨ 0xdfff < c.val.toNat ∧ c.val.toNat < 0x110000 := c.valid
  -- It is enough to read the code of the character.
  obtain ⟨v, hv, hc⟩ : ∃ v, c.val.toNat = v ∧ Char.ofNat v = c := ⟨_, rfl, Char.ofNat_toNat c⟩
  rw [hv] at hvalid
  rw [String.utf8EncodeChar, hv, ← hc]
  by_cases hone : v ≤ 0x7f
  · rw [if_pos hone, List.singleton_append, decodeFrom_of_one (by omega)]
  by_cases htwo : v ≤ 0x7ff
  · have hcode : 64 * (v / 64 % 32 + 192 - 0xc0) + (v % 64 + 128 - 0x80) = v := by omega
    rw [if_neg hone, if_pos htwo, List.cons_append, decodeFrom_of_two (by omega) (by omega), List.singleton_append,
      decodeFrom_last (by omega) (by omega) (by omega), hcode]
  by_cases hthree : v ≤ 0xffff
  · have hcode : 64 * (64 * (v / 4096 % 16 + 224 - 0xe0) + (v / 64 % 64 + 128 - 0x80)) + (v % 64 + 128 - 0x80) = v := by
      omega
    rw [if_neg hone, if_neg htwo, if_pos hthree]
    simp only [List.cons_append, List.nil_append]
    rw [decodeFrom_of_three (by omega) (by omega), decodeFrom_next (by split <;> omega) (by split <;> omega) (by omega),
      decodeFrom_last (by omega) (by omega) (by omega), hcode]
  · have hcode : 64 * (64 * (64 * (v / 262144 % 8 + 240 - 0xf0) + (v / 4096 % 64 + 128 - 0x80)) +
        (v / 64 % 64 + 128 - 0x80)) + (v % 64 + 128 - 0x80) = v := by omega
    rw [if_neg hone, if_neg htwo, if_neg hthree]
    simp only [List.cons_append, List.nil_append]
    rw [decodeFrom_of_four (by omega) (by omega), decodeFrom_next (by split <;> omega) (by split <;> omega) (by omega),
      decodeFrom_next (by omega) (by omega) (by omega), decodeFrom_last (by omega) (by omega) (by omega), hcode]

/-- What was written is read as it was, whatever comes behind it. -/
theorem decode_encode_append (cs : List Char) (rest : Bytes) : decode (encode cs ++ rest) = cs ++ decode rest := by
  rw [encode_eq, decode, decode]
  induction cs with
  | nil => rfl
  | cons c cs ih =>
    rw [List.flatMap_cons, List.append_assoc, decodeFrom_utf8EncodeChar, ih, List.cons_append]

theorem decode_encode (cs : List Char) : decode (encode cs) = cs := by
  have happend := decode_encode_append cs []
  have hnil : decode [] = [] := rfl
  rwa [hnil, List.append_nil, List.append_nil] at happend

end Text.Utf8
end RemoteCache
