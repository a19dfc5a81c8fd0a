import RemoteCache.Proofs.Reply
import RemoteCache.Proofs.Resp.Numbers

/-!
# Answers read from their frames

An answer arrives in a frame, and the frame in chunks that are cut anyhow: within a number, between the two bytes of a
line end, or within a value whose own bytes look like the end of a line.

A stream is therefore taken for the bytes that it holds (`Stream.Holds`), whatever has arrived of them. A reader
*reads* a value from some bytes if it takes just these off every stream that starts with them (`Reads`), so that
readers which follow one another read their bytes one behind the other (`Reads.bind`). A line is read up to its first
line end, and a byte string up to its length.

**Theorem (`readAnswer_reads`).** Every answer that is no failure is read from its frame (`Frames`), and what is behind
the frame is left for the next answer. The one failure with a frame is a refused login, which is read as a failure to
authenticate (`readAnswer_refused`).
-/

namespace RemoteCache.Resp

variable {α β : Type} {s : Stream} {queue : List Chunk} {line buffer text later rest got front : Bytes}

/-! ## Streams -/

/-- The chunks are these bytes, cut anyhow. -/
inductive Cut : List Chunk → Bytes → Prop
  | nil : Cut [] []
  | cons {b rest : Bytes} {queue : List Chunk} : b ≠ [] → Cut queue rest → Cut (.bytes b :: queue) (b ++ rest)

/-- What has arrived on a stream, and what will arrive, are these bytes. -/
def Stream.Holds (s : Stream) (b : Bytes) : Prop := ∃ later, Cut s.queue later ∧ b = s.buffer ++ later

theorem Cut.eq_of_nil (h : Cut queue []) : queue = [] := by
  generalize hb : ([] : Bytes) = b at h
  cases h with
  | nil => rfl
  | cons hne => exact absurd (List.append_eq_nil_iff.1 hb.symm).1 hne

theorem Stream.Holds.eq_of_nil (h : s.Holds []) : s = {} := by
  obtain ⟨later, hcut, heq⟩ := h
  obtain ⟨hbuffer, rfl⟩ := List.append_eq_nil_iff.1 heq.symm
  obtain ⟨buffer, queue⟩ := s
  rw [Stream.mk.injEq]
  exact ⟨hbuffer, hcut.eq_of_nil⟩

/-- From a stream that starts with `front` the reader takes just this, and reads `a`. -/
def Reads (read : Reader α) (front : Bytes) (a : α) : Prop :=
  ∀ (s : Stream) (rest : Bytes), s.Holds (front ++ rest) → ∃ t, read s = .ok a t ∧ t.Holds rest

theorem reads_pure (a : α) : Reads (pure a) [] a := fun s _ hs => ⟨s, rfl, hs⟩

theorem Reads.bind {read : Reader α} {next : α → Reader β} {more : Bytes} {a : α} {b : β} (hread : Reads read front a)
    (hnext : Reads (next a) more b) : Reads (read >>= next) (front ++ more) b := by
  intro s rest hs
  rw [List.append_assoc] at hs
  obtain ⟨t, ht, hholds⟩ := hread s _ hs
  obtain ⟨u, hu, hrest⟩ := hnext t rest hholds
  refine ⟨u, ?_, hrest⟩
  simp only [Bind.bind, EStateM.bind, ht, hu]

theorem Reads.map {read : Reader α} {a : α} (f : α → β) (hread : Reads read front a) :
    Reads (read >>= fun a => pure (f a)) front (f a) := by
  intro s rest hs
  obtain ⟨t, ht, hholds⟩ := hread s rest hs
  refine ⟨t, ?_, hholds⟩
  simp only [Bind.bind, EStateM.bind, ht]
  rfl

/-! ## Lines -/

theorem splitLine_of_not_mem (h : lf ∉ buffer) : splitLine buffer = (buffer, []) := by
  induction buffer with
  | nil => rfl
  | cons b rest ih =>
    rw [List.mem_cons, not_or] at h
    rw [splitLine, if_neg (Ne.symm h.1), ih h.2]

theorem splitLine_append (h : lf ∉ front) (rest : Bytes) : splitLine (front ++ lf :: rest) = (front ++ [lf], rest) := by
  induction front with
  | nil => rfl
  | cons b front ih =>
    rw [List.mem_cons, not_or] at h
    rw [List.cons_append, splitLine, if_neg (Ne.symm h.1), ih h.2]
    rfl

theorem not_suffix (h : lf ∉ line) : ¬ lineEnd <:+ line :=
  fun hsuffix => h (hsuffix.subset (by simp [lineEnd]))

theorem arrive_bytes {b : Bytes} (hne : b ≠ []) : (Chunk.bytes b).arrive = .ok b := by
  cases b with
  | nil => exact absurd rfl hne
  | cons _ _ => rfl

/-- A line whose last byte has arrived is complete. -/
theorem fillLine_arrived {back : Bytes} (hcut : Cut queue later) (hline : lf ∉ line) (hfront : lf ∉ front)
    (htext : lf ∉ text) (heq : line ++ (front ++ lf :: back) ++ later = text ++ lineEnd ++ rest) :
    ∃ t, fillLine (line ++ (front ++ [lf])) back queue = .ok text t ∧ t.Holds rest := by
  have hboth : line ++ front ++ lf :: (back ++ later) = text ++ [cr] ++ lf :: rest := by simpa [lineEnd] using heq
  have hsplit := congrArg splitLine hboth
  rw [splitLine_append (by simp [hline, hfront]), splitLine_append (by simpa [lf, cr] using htext),
    Prod.mk.injEq] at hsplit
  obtain ⟨hhead, hrest⟩ := hsplit
  refine ⟨⟨back, queue⟩, ?_, later, hcut, hrest.symm⟩
  rw [← List.append_assoc, hhead]
  unfold fillLine
  rw [if_pos ⟨text, by simp [lineEnd]⟩]
  simp

/-- A line is completed from the chunks up to its end. -/
theorem fillLine_reads (hcut : Cut queue later) (hline : lf ∉ line) (htext : lf ∉ text)
    (heq : line ++ buffer ++ later = text ++ lineEnd ++ rest) :
    ∃ t, fillLine (line ++ (splitLine buffer).1) (splitLine buffer).2 queue = .ok text t ∧ t.Holds rest := by
  induction hcut generalizing line buffer with
  | nil =>
    have hmem : lf ∈ line ++ buffer ++ [] := by simp [heq, lineEnd]
    have hbuffer : lf ∈ buffer := by simpa [hline] using hmem
    obtain ⟨front, back, rfl, hfront⟩ := List.eq_append_cons_of_mem hbuffer
    rw [splitLine_append hfront]
    exact fillLine_arrived .nil hline hfront htext heq
  | @cons b later queue hne hcut ih =>
    by_cases hbuffer : lf ∈ buffer
    · obtain ⟨front, back, rfl, hfront⟩ := List.eq_append_cons_of_mem hbuffer
      rw [splitLine_append hfront]
      exact fillLine_arrived (.cons hne hcut) hline hfront htext heq
    · have hnone : lf ∉ line ++ buffer := by simp [hline, hbuffer]
      rw [splitLine_of_not_mem hbuffer]
      unfold fillLine
      rw [if_neg (not_suffix hnone)]
      simp only [arrive_bytes hne, List.nil_append]
      exact ih hnone (by simpa using heq)

theorem readLine_reads (htext : lf ∉ text) : Reads readLine (text ++ lineEnd) text := by
  intro s rest hs
  obtain ⟨later, hcut, heq⟩ := hs
  have hstart : [] ++ s.buffer ++ later = text ++ lineEnd ++ rest := heq.symm
  exact fillLine_reads hcut List.not_mem_nil htext hstart

/-! ## Byte strings -/

theorem fillBytes_reads (hcut : Cut queue later) (hlength : got.length < front.length)
    (heq : got ++ later = front ++ rest) :
    ∃ t, fillBytes front.length got queue = .ok front t ∧ t.Holds rest := by
  induction hcut generalizing got with
  | nil =>
    have hlengths := congrArg List.length heq
    simp only [List.length_append, List.length_nil] at hlengths
    omega
  | @cons b later queue hne hcut ih =>
    unfold fillBytes
    simp only [arrive_bytes hne]
    rw [← List.append_assoc] at heq
    by_cases hdone : front.length ≤ (got ++ b).length
    · rw [if_pos hdone]
      have htake : (got ++ b).take front.length = front := by
        rw [← List.take_append_of_le_length hdone, heq, List.take_left]
      refine ⟨_, by rw [htake], later, hcut, ?_⟩
      rw [← List.drop_append_of_le_length hdone, heq, List.drop_left]
    · rw [if_neg hdone]
      exact ih (by omega) heq

theorem takeBytes_reads (front : Bytes) : Reads (takeBytes front.length) front front := by
  intro s rest hs
  obtain ⟨later, hcut, heq⟩ := hs
  unfold takeBytes
  by_cases hdone : front.length ≤ s.buffer.length
  · have htake : s.buffer.take front.length = front := by
      rw [← List.take_append_of_le_length hdone, ← heq, List.take_left]
    simp only [htake, if_true]
    refine ⟨_, rfl, later, hcut, ?_⟩
    rw [← List.drop_append_of_le_length hdone, ← heq, List.drop_left]
  · obtain ⟨more, rfl⟩ : s.buffer <+: front := by
      refine List.prefix_of_prefix_length_le ⟨later, heq.symm⟩ ⟨rest, rfl⟩ (by omega)
    have hmore : ([] : Bytes).length < more.length := by
      rw [List.length_append] at hdone
      rw [List.length_nil]
      omega
    have hhere : s.buffer.take (s.buffer ++ more).length = s.buffer := List.take_of_length_le (by simp)
    have hmissing : (s.buffer ++ more).length - s.buffer.length = more.length := by simp
    have hstart : [] ++ later = more ++ rest := by simpa using heq.symm
    obtain ⟨t, ht, hholds⟩ := fillBytes_reads hcut hmore hstart
    refine ⟨t, ?_, hholds⟩
    simp only [hhere, hmissing, ht]
    rw [if_neg (by rw [List.length_append]; omega)]

/-- A byte string is read up to the line end behind it. -/
theorem readBulk_reads {b : Bytes} (hb : (b.length : Int) + 2 < lengthLimit) :
    Reads (readBulk b.length) (b ++ lineEnd) b := by
  have hlength : ((b.length : Int) + 2).toNat = (b ++ lineEnd).length := by simp [lineEnd]; omega
  have hlimit : ¬ (lengthLimit ≤ (b.length : Int) + 2 ∨ (b.length : Int) + 2 < -lengthLimit) := by
    unfold lengthLimit at hb ⊢
    omega
  unfold readBulk
  simp only [if_neg hlimit, if_pos (show 0 ≤ (b.length : Int) + 2 by omega), hlength]
  have htake : (b ++ lineEnd).take ((b ++ lineEnd).length - 2) = b := by simp [lineEnd]
  have hmap := (takeBytes_reads (b ++ lineEnd)).map fun data => data.take (data.length - 2)
  rw [htake] at hmap
  exact hmap

/-! ## Frames -/

/-- How an answer to a command is framed, if its numbers are below the limit of the reader. A status is written without
its length, and a refused login is an error of some text. -/
inductive Frames (c : Command) : Answer → Bytes → Prop
  | status : c.name ∈ Reply.statusCommands → Frames c (.bytes (ascii "OK")) (ascii "+OK" ++ lineEnd)
  | bulk {b : Bytes} : c.name ∉ Reply.statusCommands → (b.length : Int) + 2 < lengthLimit →
      Frames c (.bytes b) (bulk b)
  | nil : Frames c .nil (ascii "$-1" ++ lineEnd)
  | number {n : Nat} : (n : Int) < lengthLimit → Frames c (.int n) (ascii (":" ++ toString n) ++ lineEnd)
  | refused {f : Failure} {text : Bytes} : c.isAuth = true → lf ∉ text →
      Frames c (.failure f) (ascii "-WRONGPASS " ++ text ++ lineEnd)

theorem not_mem_toString {n : Nat} {b : UInt8} (hb : b.toNat < 48) : b ∉ ascii (toString n) := by
  intro hmem
  have hrange := toNat_of_mem_toString hmem
  omega

theorem number_reads {n : Nat} (hn : (n : Int) < lengthLimit) : Reads (number (ascii (toString n))) [] (n : Int) := by
  have hpow : 10 ^ 19 ≤ 10 ^ Digits.limit := Nat.pow_le_pow_right (by decide) (by decide)
  have hdigits : (Nat.toDigits 10 n).length ≤ Digits.limit := by
    refine (Nat.length_toDigits_le_iff (by decide) (by decide)).2 (Nat.lt_of_lt_of_le ?_ hpow)
    unfold lengthLimit at hn
    omega
  intro s rest hs
  refine ⟨s, ?_, hs⟩
  rw [number, integerOf_toString hdigits]
  rfl

/-- A number behind the mark of an answer makes up its line. -/
theorem numbered_line {mark : String} {b : UInt8} (hmark : ascii mark = [b]) (hb : b ≠ lf) (n : Nat) :
    ascii (mark ++ toString n) = b :: ascii (toString n) ∧ lf ∉ b :: ascii (toString n) := by
  refine ⟨by rw [ascii_append, hmark]; rfl, ?_⟩
  rw [List.mem_cons, not_or]
  exact ⟨Ne.symm hb, not_mem_toString (by decide)⟩

/-- No length is written as that of nothing. -/
theorem ascii_toString_ne (n : Nat) : ascii (toString n) ≠ ascii "-1" := by
  intro heq
  have hmem : (45 : UInt8) ∈ ascii (toString n) := by
    rw [heq]
    decide +kernel
  exact not_mem_toString (by decide) hmem

/-- A byte string is read from its frame, within arrays or not. -/
theorem bulk_reads {b : Bytes} {depth : Nat} (hb : (b.length : Int) + 2 < lengthLimit) :
    Reads (readWithin (depth + 1)) (bulk b) (.bytes b) := by
  have hmark : ascii "$" = [36] := by decide +kernel
  obtain ⟨hline, hlf⟩ := numbered_line hmark (by decide) b.length
  rw [readWithin, bulk, List.append_assoc, hline]
  refine (readLine_reads hlf).bind ?_
  show Reads (if ascii (toString b.length) = ascii "-1" then _ else _) _ _
  rw [if_neg (ascii_toString_ne b.length)]
  exact (number_reads (by omega)).bind ((readBulk_reads hb).map Answer.bytes)

/-- **An answer is read from its frame**, however this is cut. -/
theorem readAnswer_reads {c : Command} {a : Answer} {frame : Bytes} (hframe : Frames c a frame)
    (ha : ∀ f, a ≠ .failure f) : Reads readAnswer frame a := by
  rw [readAnswer]
  cases hframe with
  | status =>
    rw [readWithin]
    have hline : ascii "+OK" = 43 :: ascii "OK" := by decide +kernel
    rw [← List.append_nil (_ ++ _)]
    refine (readLine_reads (by decide +kernel)).bind ?_
    rw [hline]
    exact reads_pure _
  | nil =>
    rw [readWithin]
    have hline : ascii "$-1" = 36 :: ascii "-1" := by decide +kernel
    rw [← List.append_nil (_ ++ _)]
    refine (readLine_reads (by decide +kernel)).bind ?_
    rw [hline]
    show Reads (if ascii "-1" = ascii "-1" then _ else _) _ _
    rw [if_pos rfl]
    exact reads_pure _
  | @number n hn =>
    rw [readWithin]
    have hmark : ascii ":" = [58] := by decide +kernel
    obtain ⟨hline, hlf⟩ := numbered_line hmark (by decide) n
    rw [← List.append_nil (_ ++ _), hline]
    exact (readLine_reads hlf).bind ((number_reads hn).map Answer.int)
  | bulk _ hb => exact bulk_reads hb
  | refused => exact absurd rfl (ha _)

/-- The error that a refused login is framed as. -/
theorem errorOf_refused (text : Bytes) :
    errorOf (Text.Utf8.decode (ascii "WRONGPASS " ++ text)) =
      .ok (.store .authentication (String.ofList (Text.Utf8.decode text))) := by
  have hdecode : Text.Utf8.decode (ascii "WRONGPASS " ++ text) = "WRONGPASS ".toList ++ Text.Utf8.decode text :=
    Text.Utf8.decode_encode_append "WRONGPASS ".toList text
  rw [hdecode]
  rfl

/-- Nothing but a login is refused. -/
theorem Frames.isAuth {c : Command} {f : Failure} {frame : Bytes} (hframe : Frames c (.failure f) frame) :
    c.isAuth = true := by
  cases hframe with
  | refused hc => exact hc

/-- **A refused login is read from its frame as a failure to authenticate.** -/
theorem readAnswer_refused {c : Command} {f : Failure} {frame : Bytes} (hframe : Frames c (.failure f) frame)
    {s : Stream} (hs : s.Holds frame) :
    ∃ text t, readAnswer s = .error (.store .authentication text) t := by
  cases hframe with
  | @refused _ text hc htext =>
    have hline : ascii "-WRONGPASS " ++ text = 45 :: (ascii "WRONGPASS " ++ text) := by
      have hmark : ascii "-WRONGPASS " = 45 :: ascii "WRONGPASS " := by decide +kernel
      rw [hmark]
      rfl
    have hlf : lf ∉ ascii "-WRONGPASS " ++ text := by
      rw [List.mem_append, not_or]
      exact ⟨by decide +kernel, htext⟩
    rw [← List.append_nil (_ ++ _)] at hs
    obtain ⟨t, ht, -⟩ := readLine_reads hlf s [] hs
    refine ⟨String.ofList (Text.Utf8.decode text), t, ?_⟩
    rw [readAnswer, readWithin]
    simp only [Bind.bind, EStateM.bind, ht, hline]
    show (lift (errorOf (Text.Utf8.decode (ascii "WRONGPASS " ++ text))) >>= fun f : Failure =>
      if f.isConnection then throw f else pure (Answer.failure f) : Reader Answer) t = _
    rw [errorOf_refused]
    rfl

end RemoteCache.Resp
