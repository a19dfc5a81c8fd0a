import RemoteCache.Entries
import RemoteCache.Resp
import RemoteCache.Proofs.Results

/-!
# What reading an answer raises

A stream is *plain* if it delivers what a network can deliver: bytes, and failures of the operating system. Reading
an answer from a plain stream leaves a plain stream. What it raises is no error reply: the stream ends or times out,
the bytes are no answer, or the answer is an error after which the connection is of no use. And where the answer
itself is a failure, it is an error reply (`readAnswer_careful`).

So whoever reads can tell from a failure whether the answer has been read to its end.
-/

namespace RemoteCache

/-- A failure of the operating system. -/
inductive Failure.IsSystem : Failure → Prop
  | intro {k : Failure.SystemKind} {args files : List Value} : IsSystem ⟨.system k, args, files⟩

namespace Resp

open Results

variable {α β : Type}

/-! ## Plain streams and careful readers -/

/-- A chunk that a network can deliver. -/
inductive Chunk.Plain : Chunk → Prop
  | bytes (b : Bytes) : Plain (.bytes b)
  | failure {f : Failure} : f.IsSystem → Plain (.failure f)

def Plain (queue : List Chunk) : Prop := ∀ chunk ∈ queue, chunk.Plain

theorem Plain.tail {chunk : Chunk} {queue : List Chunk} (h : Plain (chunk :: queue)) : Plain queue :=
  fun c hc => h c (List.mem_cons_of_mem _ hc)

theorem Plain.append {queue more : List Chunk} (h₁ : Plain queue) (h₂ : Plain more) : Plain (queue ++ more) :=
  fun c hc => (List.mem_append.1 hc).elim (h₁ c) (h₂ c)

/-- What is left is plain, what is read is as `Q` says, and what is raised is no error reply. -/
def Tame (Q : α → Prop) : EStateM.Result Failure Stream α → Prop
  | .ok a s => Plain s.queue ∧ Q a
  | .error f s => Plain s.queue ∧ f.isErrorReply = false

/-- A reader that is tame on plain streams. -/
def Careful (Q : α → Prop) (read : Reader α) : Prop := ∀ s, Plain s.queue → Tame Q (read s)

theorem careful_pure {Q : α → Prop} {a : α} (h : Q a) : Careful Q (pure a) := fun _ hs => ⟨hs, h⟩

theorem careful_throw {Q : α → Prop} {f : Failure} (h : f.isErrorReply = false) : Careful Q (throw f) :=
  fun _ hs => ⟨hs, h⟩

theorem Careful.bind {P : α → Prop} {Q : β → Prop} {read : Reader α} {next : α → Reader β} (hread : Careful P read)
    (hnext : ∀ a, P a → Careful Q (next a)) : Careful Q (read >>= next) := by
  intro s hs
  have h := hread s hs
  simp only [Bind.bind, EStateM.bind]
  cases hr : read s with
  | ok a t =>
    rw [hr] at h
    exact hnext a h.2 t h.1
  | error f t =>
    rw [hr] at h
    exact h

theorem careful_lift {Q : α → Prop} {result : Except Failure α} (hok : ∀ a, result = .ok a → Q a)
    (herror : ∀ f, result = .error f → f.isErrorReply = false) : Careful Q (lift result) := by
  intro s hs
  cases result with
  | ok a => exact ⟨hs, hok a rfl⟩
  | error f => exact ⟨hs, herror f rfl⟩

/-! ## Lines and byte strings -/

theorem Chunk.Plain.arrive {chunk : Chunk} (h : chunk.Plain) {f : Failure} (hf : chunk.arrive = .error f) :
    f.isErrorReply = false := by
  cases h with
  | bytes b =>
    cases b with
    | nil =>
      cases hf
      rfl
    | cons _ _ => cases hf
  | failure hsystem =>
    cases hsystem
    simp only [Chunk.arrive] at hf
    split at hf
    · cases hf
      rfl
    · split at hf
      · cases hf
        rfl
      · cases hf
        rfl

theorem tame_fillLine (queue : List Chunk) (hqueue : Plain queue) (line buffer : Bytes) :
    Tame (fun _ => True) (fillLine line buffer queue) := by
  induction queue generalizing line buffer with
  | nil =>
    unfold fillLine
    split
    · exact ⟨hqueue, trivial⟩
    · exact ⟨hqueue, rfl⟩
  | cons chunk queue ih =>
    unfold fillLine
    split
    · exact ⟨hqueue, trivial⟩
    · cases harrive : chunk.arrive with
      | error f =>
        simp only [harrive]
        exact ⟨hqueue.tail, (hqueue chunk List.mem_cons_self).arrive harrive⟩
      | ok b =>
        simp only [harrive]
        exact ih hqueue.tail _ _

theorem readLine_careful : Careful (fun _ => True) readLine := fun s hs => tame_fillLine s.queue hs _ _

theorem tame_fillBytes (queue : List Chunk) (hqueue : Plain queue) (missing : Nat) (got : Bytes) :
    Tame (fun _ => True) (fillBytes missing got queue) := by
  induction queue generalizing got with
  | nil => exact ⟨hqueue, rfl⟩
  | cons chunk queue ih =>
    unfold fillBytes
    cases harrive : chunk.arrive with
    | error f => exact ⟨hqueue.tail, (hqueue chunk List.mem_cons_self).arrive harrive⟩
    | ok b =>
      simp only
      split
      · exact ⟨hqueue.tail, trivial⟩
      · exact ih hqueue.tail _

theorem takeBytes_careful (n : Nat) : Careful (fun _ => True) (takeBytes n) := by
  intro s hs
  unfold takeBytes
  simp only
  split
  · exact ⟨hs, trivial⟩
  · have h := tame_fillBytes s.queue hs (n - (s.buffer.take n).length) []
    cases hr : fillBytes (n - (s.buffer.take n).length) [] s.queue with
    | ok more t =>
      rw [hr] at h
      exact h
    | error f t =>
      rw [hr] at h
      exact h

theorem takeAll_careful : Careful (fun _ => True) takeAll := by
  intro s hs
  unfold takeAll
  have h := tame_fillBytes s.queue hs 0 []
  cases hr : fillBytes 0 [] s.queue with
  | ok more t =>
    rw [hr] at h
    exact h
  | error f t =>
    rw [hr] at h
    exact h

theorem readBulk_careful (length : Int) : Careful (fun _ => True) (readBulk length) := by
  have hrest {read : Reader Bytes} (hread : Careful (fun _ => True) read) :
      Careful (fun _ => True) (read >>= fun data => pure (data.take (data.length - 2))) :=
    hread.bind fun _ _ => careful_pure trivial
  unfold readBulk
  simp only
  split
  · refine (careful_throw (Q := fun _ => True) rfl).bind fun _ _ => ?_
    split
    · exact hrest (takeBytes_careful _)
    · exact hrest takeAll_careful
  · split
    · exact hrest (takeBytes_careful _)
    · exact hrest takeAll_careful

/-! ## Error lines -/

/-- The kinds that error lines stand for: what is no error reply is a connection failure. -/
theorem isErrorReply_codes : ∀ entry ∈ codes, entry.2.isErrorReply = !entry.2.isConnection := by decide

theorem isErrorReply_generalTexts : ∀ entry ∈ generalTexts, entry.2.isErrorReply = !entry.2.isConnection := by decide

/-- The failure that an error line stands for is an error reply or a connection failure, and never both. -/
theorem errorOf_ok {line : List Char} {f : Failure} (h : errorOf line = .ok f) :
    f.isErrorReply = !f.isConnection := by
  unfold errorOf at h
  simp only at h
  split at h
  · cases h
    generalize htext : generalTexts.lookup _ = found
    cases found with
    | none => rfl
    | some kind => exact isErrorReply_generalTexts _ (Entries.mem_of_lookup htext)
  · split at h
    case h_1 kind hcode =>
      have hkind := isErrorReply_codes _ (Entries.mem_of_lookup hcode)
      split at h
      · obtain ⟨_, -, h⟩ := bind_eq_ok.1 h
        cases h
        exact hkind
      · cases h
        exact hkind
    case h_2 =>
      cases h
      rfl

theorem integerOfPart_error {part : List Char} {f : Failure} (h : integerOfPart part = .error f) :
    f.isErrorReply = false := by
  unfold integerOfPart at h
  cases hread : Integer.ofText 10 part with
  | ok n =>
    rw [hread] at h
    cases h
  | error fault =>
    rw [hread] at h
    cases h
    rfl

theorem integerOf_error {line : Bytes} {f : Failure} (h : integerOf line = .error f) : f.isErrorReply = false := by
  unfold integerOf at h
  cases hread : Integer.ofBytes line with
  | ok n =>
    rw [hread] at h
    cases h
  | error fault =>
    rw [hread] at h
    cases h
    rfl

theorem checkRedirection_error {text : List Char} {f : Failure} (h : checkRedirection text = .error f) :
    f.isErrorReply = false := by
  unfold checkRedirection at h
  split at h
  · split at h
    · cases h
      rfl
    · rcases bind_eq_error.1 h with hslot | ⟨_, -, h⟩
      · exact integerOfPart_error hslot
      · rcases bind_eq_error.1 h with hport | ⟨_, -, h⟩
        · exact integerOfPart_error hport
        · cases h
  · cases h
    rfl

theorem errorOf_error {line : List Char} {f : Failure} (h : errorOf line = .error f) : f.isErrorReply = false := by
  unfold errorOf at h
  simp only at h
  split at h
  · cases h
  · split at h
    · split at h
      · rcases bind_eq_error.1 h with hcheck | ⟨_, -, h⟩
        · exact checkRedirection_error hcheck
        · cases h
      · cases h
    · cases h

/-! ## Answers -/

theorem times_careful {read : Reader α} {Q : α → Prop} (hread : Careful Q read) (n : Nat) :
    Careful (fun _ => True) (times n read) := by
  induction n with
  | zero => exact careful_pure trivial
  | succ n ih => exact hread.bind fun _ _ => ih.bind fun _ _ => careful_pure trivial

/-- An answer is a failure only if that is an error reply. -/
def Proper (a : Answer) : Prop := ∀ f, a = .failure f → f.isErrorReply = true

theorem number_careful (line : Bytes) : Careful (fun _ => True) (number line) :=
  careful_lift (fun _ _ => trivial) fun _ h => integerOf_error h

theorem readWithin_careful (depth : Nat) : Careful Proper (readWithin depth) := by
  induction depth with
  | zero => exact careful_throw rfl
  | succ depth ih =>
    refine readLine_careful.bind ?_
    intro line _
    cases line with
    | nil => exact careful_throw rfl
    | cons mark rest =>
      simp only
      split
      · refine Careful.bind (P := fun f => f.isErrorReply = !f.isConnection) ?_ ?_
        · exact careful_lift (fun _ h => errorOf_ok h) fun _ h => errorOf_error h
        · intro f hf
          split
          case isTrue hconnection => exact careful_throw (by simpa [hconnection] using hf)
          case isFalse hconnection =>
            refine careful_pure ?_
            rintro _ ⟨⟩
            simpa [hconnection] using hf
      split
      · exact careful_pure (by rintro _ ⟨⟩)
      split
      · exact (number_careful _).bind fun _ _ => careful_pure (by rintro _ ⟨⟩)
      split
      · split
        · exact careful_pure (by rintro _ ⟨⟩)
        · exact (number_careful _).bind fun _ _ => (readBulk_careful _).bind fun _ _ => careful_pure (by rintro _ ⟨⟩)
      split
      · split
        · exact careful_pure (by rintro _ ⟨⟩)
        · exact (number_careful _).bind fun _ _ => (times_careful ih _).bind fun _ _ => careful_pure (by rintro _ ⟨⟩)
      · exact careful_throw rfl

/-- **Reading an answer raises no error reply, and an answer that is a failure is one.** -/
theorem readAnswer_careful : Careful Proper readAnswer := readWithin_careful _

end Resp
end RemoteCache
