import RemoteCache.Proofs.Results
import RemoteCache.Proofs.Storage.Runs

/-!
# Found, missing and failed are told apart

`heard` lists the commands in some calls that got an answer, each with its answer. From the answers to its own commands
alone it can be told what an operation succeeds with (`Finding`): a read with the bytes that answered it, or with
nothing if the answer was nil, a removal with whether the number that answered it is positive.

**Theorem (`found_missing_or_failed`).** Whatever the peer does and from every scene, an operation succeeds with a value
exactly if its session is made ready and the value is a finding of the answers heard in this operation. Where there is
no finding and the operation returns, it returns a failure.

A command that got an answer has a reply that is tagged from this answer, and any other reply `Fails`
(`Issuing.heard_eq`). Neither a read nor a removal succeeds from a reply that fails, so the success of an operation
comes down to the one answer of its latest command (`Issuing.finds`). What is heard before the session is ready does not
count, for it answers no data command (`Session.Readying.not_heard`).
-/

namespace RemoteCache

namespace Line

/-! ## Answers -/

/-- The commands in some calls that got an answer, on the handle that they were sent on, with their answers. -/
def heard : List Call → List (Command × Answer)
  | [] => []
  | .receive k (.ok a) :: .send h c (.ok ()) :: before => if k = h then (c, a) :: heard before else heard before
  | _ :: before => heard before

variable {calls before : List Call} {h : Handle} {c : Command} {a : Answer}

/-- Only a command that was sent gets an answer. -/
theorem sent_of_mem_heard (hmem : (c, a) ∈ heard calls) : ∃ h, Call.send h c (.ok ()) ∈ calls := by
  fun_induction heard calls with
  | case1 => simp at hmem
  | case2 a' h c' before ih =>
    by_cases heq : (c, a) = (c', a')
    · cases heq
      exact ⟨h, by simp⟩
    · obtain ⟨k, hk⟩ := ih (List.mem_of_ne_of_mem heq hmem)
      exact ⟨k, by simp [hk]⟩
  | case3 k a' h c' before _ ih =>
    obtain ⟨k, hk⟩ := ih hmem
    exact ⟨k, by simp [hk]⟩
  | case4 call before _ ih =>
    obtain ⟨k, hk⟩ := ih hmem
    exact ⟨k, by simp [hk]⟩

theorem not_heard_of_sends {P : Command → Prop} (hcalls : Sends P calls) (hc : ¬ P c) : (c, a) ∉ heard calls := by
  intro hmem
  obtain ⟨h, hsent⟩ := sent_of_mem_heard hmem
  exact hc (hcalls _ hsent c rfl)

/-- A command got an answer, and the reply is the answer once tagged; or it got none, and the reply fails. -/
theorem Exchange.heard_eq {r : Except Failure Reply} (hex : Exchange h c calls r) :
    (∃ a, r = .ok (Reply.ofAnswer c.name a) ∧ ∀ before, heard (calls ++ before) = (c, a) :: heard before) ∨
    (∀ reply, r = .ok reply → reply.Fails) ∧ ∀ before, heard (calls ++ before) = heard before := by
  cases hex with
  | unsent f => exact .inr ⟨fun reply hreply => Reply.fails_ofExchange hreply, fun before => rfl⟩
  | answered result =>
    cases result with
    | error f => exact .inr ⟨fun reply hreply => Reply.fails_ofExchange hreply, fun before => rfl⟩
    | ok a => exact .inl ⟨a, rfl, fun before => by simp [heard]⟩

end Line

open RemoteCache.Action Line

/-! ## Replies -/

namespace Reply

variable {name : String} {a : Answer} {reply : Reply}

theorem asValue_ofAnswer_some (hname : name ∉ statusCommands) (v : Bytes) :
    (ofAnswer name a).asValue = .success (some v) ↔ a = .bytes v := by
  cases a with
  | failure f => by_cases hf : f.isErrorReply = true <;> simp [ofAnswer, asValue, error, hf]
  | bytes | nil | buffer | int | bool | text | real | list => simp [ofAnswer, asValue, hname]

theorem asValue_ofAnswer_none (hname : name ∉ statusCommands) :
    (ofAnswer name a).asValue = .success none ↔ a = .nil := by
  cases a with
  | failure f => by_cases hf : f.isErrorReply = true <;> simp [ofAnswer, asValue, error, hf]
  | bytes | nil | buffer | int | bool | text | real | list => simp [ofAnswer, asValue, hname]

theorem asRemoved_ofAnswer (removed : Bool) :
    (ofAnswer name a).asRemoved = .success removed ↔ ∃ n, a = .int n ∧ decide (0 < n) = removed := by
  cases a with
  | failure f => by_cases hf : f.isErrorReply = true <;> simp [ofAnswer, asRemoved, error, hf]
  | bytes b => by_cases hname : name ∈ statusCommands <;> simp [ofAnswer, asRemoved, hname]
  | nil | buffer | int | bool | text | real | list => simp [ofAnswer, asRemoved]

theorem asWritten_ofAnswer (hname : name ∈ statusCommands) (written : Bool) :
    (ofAnswer name a).asWritten = .success written ↔ (∃ b, a = .bytes b) ∧ written = true := by
  cases a with
  | failure f => by_cases hf : f.isErrorReply = true <;> simp [ofAnswer, asWritten, error, hf]
  | bytes | nil | buffer | int | bool | text | real | list => simp [ofAnswer, asWritten, hname, eq_comm]

/-- A number that answers the question for an earlier value. -/
theorem tag_ofAnswer_integer {n : Int} : (ofAnswer name a).tag = .integer n ↔ a = .int n := by
  cases a with
  | failure f => by_cases hf : f.isErrorReply = true <;> simp [ofAnswer, error, hf]
  | bytes b => by_cases hname : name ∈ statusCommands <;> simp [ofAnswer, hname]
  | nil | buffer | int | bool | text | real | list => simp [ofAnswer]

namespace Fails

theorem asValue_ne (hf : reply.Fails) (value : Option Bytes) : reply.asValue ≠ .success value := by
  cases hf <;> simp [asValue]

theorem asRemoved_ne (hf : reply.Fails) (removed : Bool) : reply.asRemoved ≠ .success removed := by
  cases hf <;> simp [asRemoved]

theorem asWritten_ne (hf : reply.Fails) (written : Bool) : reply.asWritten ≠ .success written := by
  cases hf <;> simp [asWritten]

theorem tag_ne_integer (hf : reply.Fails) (n : Int) : reply.tag ≠ .integer n := by
  cases hf <;> simp

end Fails
end Reply

namespace Session

variable {s t : Session} {n : Handle} {calls : List Call} {c : Command} {a : Answer}

/-- What is heard before a session is ready answers no data command. -/
theorem Readying.not_heard {r : Answered} (hr : Readying s n calls r t) (hc : c.isData = true) :
    (c, a) ∉ heard calls :=
  not_heard_of_sends hr.sends_no_data (by simp [hc])

theorem Login.phase_of_none {h : Handle} (hl : Login s h calls (.ok none) t) : t.phase = .ready := by
  cases hl with
  | needless | accepted => rfl

theorem Opening.phase_of_none (ho : Opening s n calls (.ok none) t) : t.phase = .ready := by
  cases ho with
  | opened _ hl => exact hl.phase_of_none

theorem Readying.phase_of_none (hr : Readying s n calls (.ok none) t) : t.phase = .ready := by
  cases hr with
  | ready hphase => exact hphase
  | fresh _ _ _ ho | replaced _ _ _ _ ho => exact ho.phase_of_none
  | reopened _ _ _ hl => exact hl.phase_of_none

end Session

namespace Storage

/-! ## Findings -/

/-- What an operation succeeds with, from the answers to its own commands. -/
inductive Finding (answers : List (Command × Answer)) : (op : Operation) → op.Value → Prop
  | found {d : Digest} {v : Bytes} : (.get d.key, .bytes v) ∈ answers → Finding answers (.get d) (some v)
  | missing {d : Digest} : (.get d.key, .nil) ∈ answers → Finding answers (.get d) none
  | removed {d : Digest} {n : Int} : (.del d.key, .int n) ∈ answers → 0 < n → Finding answers (.remove d) true
  | absent {d : Digest} {n : Int} : (.del d.key, .int n) ∈ answers → n ≤ 0 → Finding answers (.remove d) false
  | written {d : Digest} {value : Bytes} {onlyIfMissing : Bool} {b : Bytes} :
      (.set d.key value, .bytes b) ∈ answers → Finding answers (.put d value onlyIfMissing) true
  | kept {d : Digest} {value : Bytes} {n : Int} : (.exists? d.key, .int n) ∈ answers → 0 < n →
      Finding answers (.put d value true) false
  | closed : Finding answers .close ()

variable {s t : Session} {c : Command} {op : Operation} {calls before : List Call} {n : Handle}
  {r : Except Failure Reply}

theorem Issuing.heard_eq (hi : Issuing s c calls r t) :
    (∃ a, r = .ok (Reply.ofAnswer c.name a) ∧ ∀ before, heard (calls ++ before) = (c, a) :: heard before) ∨
    (∀ reply, r = .ok reply → reply.Fails) ∧ ∀ before, heard (calls ++ before) = heard before := by
  cases hi with
  | idle => exact .inr ⟨nofun, fun before => rfl⟩
  | answered _ _ hex | lost _ _ hex | interrupted _ _ hex => exact hex.heard_eq

/-- Whether a command ends an operation with a success comes down to the answer that is heard to it. -/
theorem Issuing.finds {α : Type} {as : Reply → Outcome α} {value : α} {P : Answer → Prop}
    (has : ∀ a, as (Reply.ofAnswer c.name a) = .success value ↔ P a)
    (hfails : ∀ reply : Reply, reply.Fails → as reply ≠ .success value) (hi : Issuing s c calls r t)
    (hbefore : ∀ a, (c, a) ∉ heard before) :
    r.map as = .ok (.success value) ↔ ∃ a, P a ∧ (c, a) ∈ heard (calls ++ before) := by
  rcases hi.heard_eq with ⟨a, rfl, heard_eq⟩ | ⟨hfail, heard_eq⟩
  · have hmem (b : Answer) : (c, b) ∈ heard (calls ++ before) ↔ b = a := by
      rw [heard_eq, List.mem_cons, Prod.mk.injEq, eq_self c, true_and, or_iff_left (hbefore b)]
    simp only [Except.map, Except.ok.injEq, has, hmem, exists_eq_right]
  · rw [heard_eq]
    constructor
    · intro hsuccess
      obtain ⟨reply, hreply, hvalue⟩ := Results.map_eq_ok.1 hsuccess
      exact absurd hvalue (hfails reply (hfail reply hreply))
    · rintro ⟨a, -, hmem⟩
      exact absurd hmem (hbefore a)

/-- A question is answered by a number exactly if that is what is heard. -/
theorem Issuing.counts {reply : Reply} {k : Int} (hi : Issuing s c calls (.ok reply) t)
    (hbefore : ∀ a, (c, a) ∉ heard before) : reply.tag = .integer k ↔ (c, .int k) ∈ heard (calls ++ before) := by
  rcases hi.heard_eq with ⟨a, hreply, heard_eq⟩ | ⟨hfail, heard_eq⟩
  · obtain rfl := Except.ok.inj hreply
    rw [Reply.tag_ofAnswer_integer, heard_eq, List.mem_cons, Prod.mk.injEq, or_iff_left (hbefore _)]
    simp [eq_comm]
  · rw [heard_eq]
    exact iff_of_false ((hfail reply rfl).tag_ne_integer k) (hbefore _)

/-- A command leaves what was heard to other ones. -/
theorem Issuing.mem_heard_of_ne {c' : Command} {a : Answer} (hi : Issuing s c calls r t) (hne : c' ≠ c) :
    (c', a) ∈ heard (calls ++ before) ↔ (c', a) ∈ heard before := by
  rcases hi.heard_eq with ⟨b, -, heard_eq⟩ | ⟨-, heard_eq⟩
  · simp [heard_eq, hne]
  · rw [heard_eq]

theorem set_ne_exists (key : String) (value : Bytes) : Command.set key value ≠ .exists? key := by
  intro heq
  have hname := congrArg Command.name heq
  simp at hname

variable {answers : List (Command × Answer)} {d : Digest}

theorem finding_get_some {v : Bytes} :
    Finding answers (.get d) (some v) ↔ ∃ a, a = .bytes v ∧ (.get d.key, a) ∈ answers := by
  constructor
  · intro h
    cases h with
    | found hmem => exact ⟨_, rfl, hmem⟩
  · rintro ⟨_, rfl, hmem⟩
    exact .found hmem

theorem finding_get_none : Finding answers (.get d) none ↔ ∃ a, a = .nil ∧ (.get d.key, a) ∈ answers := by
  constructor
  · intro h
    cases h with
    | missing hmem => exact ⟨_, rfl, hmem⟩
  · rintro ⟨_, rfl, hmem⟩
    exact .missing hmem

theorem finding_remove {removed : Bool} : Finding answers (.remove d) removed ↔
    ∃ a, (∃ n, a = .int n ∧ decide (0 < n) = removed) ∧ (.del d.key, a) ∈ answers := by
  constructor
  · intro h
    cases h with
    | removed hmem hn => exact ⟨_, ⟨_, rfl, by simpa using hn⟩, hmem⟩
    | absent hmem hn => exact ⟨_, ⟨_, rfl, by simpa using hn⟩, hmem⟩
  · rintro ⟨_, ⟨n, rfl, rfl⟩, hmem⟩
    by_cases hn : 0 < n
    · rw [decide_eq_true hn]
      exact .removed hmem hn
    · rw [decide_eq_false hn]
      exact .absent hmem (by omega)

/-- A write finds what it wrote, or a value that it keeps. -/
theorem finding_put {value : Bytes} {onlyIfMissing written : Bool} :
    Finding answers (.put d value onlyIfMissing) written ↔
      (∃ a, ((∃ b, a = .bytes b) ∧ written = true) ∧ (.set d.key value, a) ∈ answers) ∨
      onlyIfMissing = true ∧ written = false ∧ ∃ n : Int, 0 < n ∧ (.exists? d.key, .int n) ∈ answers := by
  constructor
  · intro h
    cases h with
    | written hmem => exact .inl ⟨_, ⟨⟨_, rfl⟩, rfl⟩, hmem⟩
    | kept hmem hn => exact .inr ⟨rfl, rfl, _, hn, hmem⟩
  · rintro (⟨_, ⟨⟨b, rfl⟩, rfl⟩, hmem⟩ | ⟨rfl, rfl, n, hn, hmem⟩)
    · exact .written hmem
    · exact .kept hmem hn

/-- After a question alone the one finding is that a value is kept. -/
theorem Issuing.asks {value : Bytes} (hi : Issuing s (.exists? d.key) calls r t)
    (hbefore : ∀ c a, c.isData = true → (c, a) ∉ heard before) (written : Bool) :
    Finding (heard (calls ++ before)) (.put d value true) written ↔
      written = false ∧ ∃ reply k, r = .ok reply ∧ reply.tag = .integer k ∧ 0 < k := by
  have hunset (a : Answer) : (Command.set d.key value, a) ∉ heard (calls ++ before) := by
    rw [hi.mem_heard_of_ne (set_ne_exists _ _)]
    exact hbefore _ a (by simp)
  have hnone (a : Answer) : (Command.exists? d.key, a) ∉ heard before := hbefore _ a (by simp)
  rw [finding_put, or_iff_right (fun ⟨a, _, hmem⟩ => hunset a hmem)]
  cases r with
  | error f =>
    rcases hi.heard_eq with ⟨_, hreply, -⟩ | ⟨-, heard_eq⟩
    · cases hreply
    · simp [heard_eq, hnone]
  | ok reply =>
    constructor
    · rintro ⟨-, hwritten, k, hk, hmem⟩
      exact ⟨hwritten, reply, k, rfl, (hi.counts hnone).2 hmem, hk⟩
    · rintro ⟨hwritten, _, k, ⟨⟩, htag, hk⟩
      exact ⟨rfl, hwritten, k, hk, (hi.counts hnone).1 htag⟩

/-! ## Operations -/

/-- **What the commands of an operation succeed with is the finding of what is heard to them.** -/
theorem Serving.finds {r : op.Result} (hserve : Serving s op calls r t)
    (hbefore : ∀ c a, c.isData = true → (c, a) ∉ heard before) (value : op.Value) :
    r = .ok (.success value) ↔ Finding (heard (calls ++ before)) op value := by
  have hget (d : Digest) : (Command.get d.key).name ∉ Reply.statusCommands := by simp [Reply.statusCommands]
  have hset (d : Digest) (v : Bytes) : (Command.set d.key v).name ∈ Reply.statusCommands := by
    simp [Reply.statusCommands]
  cases hserve with
  | @get d _ _ _ hi =>
    have hnone (a : Answer) : (Command.get d.key, a) ∉ heard before := hbefore _ a (by simp)
    cases value with
    | none =>
      rw [finding_get_none]
      exact hi.finds (fun a => Reply.asValue_ofAnswer_none (hget d)) (fun _ hf => hf.asValue_ne none) hnone
    | some v =>
      rw [finding_get_some]
      exact hi.finds (fun a => Reply.asValue_ofAnswer_some (hget d) v) (fun _ hf => hf.asValue_ne (some v)) hnone
  | @remove d _ _ _ hi =>
    rw [finding_remove]
    exact hi.finds (fun a => Reply.asRemoved_ofAnswer value) (fun _ hf => hf.asRemoved_ne value)
      fun a => hbefore _ a (by simp)
  | @put d v _ _ _ hi =>
    rw [finding_put, or_iff_left (by simp)]
    exact hi.finds (fun a => Reply.asWritten_ofAnswer (hset d v) value) (fun _ hf => hf.asWritten_ne value)
      fun a => hbefore _ a (by simp)
  | unasked hi =>
    rw [hi.asks hbefore]
    simp
  | unanswered hi hnull =>
    rw [hi.asks hbefore]
    simp [hnull]
  | kept hi htag hk =>
    rw [hi.asks hbefore]
    simp [htag, hk, eq_comm]
  | @written d v calls more reply _ _ _ hi hlets hi' =>
    rw [List.append_assoc, finding_put, or_iff_left]
    · refine hi'.finds (fun a => Reply.asWritten_ofAnswer (hset d v) value) (fun _ hf => hf.asWritten_ne value) ?_
      intro a
      rw [hi.mem_heard_of_ne (set_ne_exists _ _)]
      exact hbefore _ a (by simp)
    · rintro ⟨-, -, k, hk, hmem⟩
      -- A question that is answered by a positive number lets no write go ahead.
      rw [hi'.mem_heard_of_ne (set_ne_exists _ _).symm, ← hi.counts fun a => hbefore _ a (by simp)] at hmem
      simp only [Reply.letsWrite, hmem, decide_eq_true_eq] at hlets
      omega

/-- A finding is in the answer to a data command. -/
theorem Finding.heard {value : op.Value} (hf : Finding answers op value) (hop : op ≠ .close) :
    ∃ c a, c.isData = true ∧ (c, a) ∈ answers := by
  cases hf with
  | found hmem | missing hmem | removed hmem | absent hmem | written hmem | kept hmem => exact ⟨_, _, by simp, hmem⟩
  | closed => exact absurd rfl hop

theorem Operating.finds {r : op.Result} (ho : Operating s n op calls r t) (value : op.Value) :
    r = .ok (.success value) ↔ Finding (heard calls) op value := by
  have hunready {r : Session.Answered} {u : Session} (hop : op ≠ .close) (hr : Session.Readying s n calls r u) :
      ¬ Finding (heard calls) op value := by
    intro hfinding
    obtain ⟨c, a, hc, hmem⟩ := hfinding.heard hop
    exact hr.not_heard hc hmem
  cases ho with
  | closed => exact iff_of_true rfl .closed
  | interrupted hop hr => exact iff_of_false (by simp) (hunready hop hr)
  | unready hop hr => exact iff_of_false (by simp) (hunready hop hr)
  | served hr hserve => exact hserve.finds (fun _ _ hc => hr.not_heard hc) value

variable {σ : Type} [Peer σ]

/-- An operation on this scene finds its session ready, or makes it ready. -/
def Readied (x : Scene σ) : Prop :=
  ∃ y, run Session.ensureConnected x = (.ok none, y) ∧ y.session.phase = .ready

/-- An operation succeeds only once its session is ready. -/
theorem operation_readied {α : Type} (x : Scene σ) (name key : String) (commands : Action σ (Outcome α)) :
    Ends (operation name key commands) x fun r _ => ∀ value, r = .ok (.success value) → Readied x := by
  unfold operation
  rw [ends_bind]
  refine ends_of_run ?_
  intro r y hrun
  obtain ⟨calls, hready, -⟩ := (Session.ensureConnected_course x).of_run hrun
  match r with
  | .error f => exact nofun
  | .ok (some detail) => exact nofun
  | .ok none => exact fun _ _ => ⟨y, hrun, hready.phase_of_none⟩

theorem Operation.readied {x : Scene σ} (hop : op ≠ .close) {value : op.Value}
    (h : (op.perform x).1 = .ok (.success value)) : Readied x := by
  cases op with
  | get d | put d v onlyIfMissing | remove d => exact operation_readied x _ _ _ value h
  | close => exact absurd rfl hop

/-- **Found, missing and failed are told apart**: an operation succeeds exactly with the finding of what was answered to
its own commands, once its session is ready, and anything else that it returns is a failure. -/
theorem found_missing_or_failed (x : Scene σ) (op : Operation) :
    ∃ calls, (op.perform x).2.line.calls = calls ++ x.line.calls ∧
      (∀ value, (op.perform x).1 = .ok (.success value) ↔
        (op = .close ∨ Readied x) ∧ Finding (heard calls) op value) ∧
      ∀ outcome, (op.perform x).1 = .ok outcome → (¬ ∃ value, Finding (heard calls) op value) →
        ∃ detail, outcome = .failure detail := by
  obtain ⟨calls, hcourse, hcalls⟩ := op.course x
  refine ⟨calls, hcalls.calls_eq, ?_, ?_⟩
  · intro value
    rw [← hcourse.finds value, iff_and_self]
    intro hsuccess
    by_cases hop : op = .close
    · exact .inl hop
    · exact .inr (Operation.readied hop hsuccess)
  · intro outcome hreturn hnone
    cases outcome with
    | failure detail => exact ⟨detail, rfl⟩
    | success value => exact absurd ⟨value, (hcourse.finds value).1 hreturn⟩ hnone

/-- A read that is answered by a mutable buffer has found nothing, and is not taken for a miss either. -/
theorem found_missing_or_failed_for_buffer :
    let x := Scene.onHost ({ receiving := .ok (.buffer [1]) } : Steady)
    let get : Operation := .get ⟨List.replicate 20 0, rfl⟩
    (∃ detail, (get.perform x).1 = .ok (.failure detail)) ∧ ∀ value, (get.perform x).1 ≠ .ok (.success value) := by
  intro x get
  obtain ⟨calls, hcalls, hsuccess, hfailure⟩ := found_missing_or_failed x get
  have hheard : heard calls = [(.get (Digest.key ⟨List.replicate 20 0, rfl⟩), .buffer [1])] := by
    rw [← List.append_nil calls]
    exact congrArg heard hcalls.symm
  have hnone : ¬ ∃ value, Finding (heard calls) get value := by
    rw [hheard]
    rintro ⟨value, hfinding⟩
    cases value with
    | none => simpa using finding_get_none.1 hfinding
    | some v => simpa using finding_get_some.1 hfinding
  refine ⟨?_, fun value h => hnone ⟨value, ((hsuccess value).1 h).2⟩⟩
  obtain ⟨detail, hdetail⟩ := hfailure (.failure _) rfl hnone
  exact ⟨detail, congrArg _ hdetail⟩

end Storage
end RemoteCache
