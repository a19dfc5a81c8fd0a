import RemoteCache.Proofs.Digest
import RemoteCache.Proofs.Server
import RemoteCache.Proofs.Storage.Runs

/-!
# A store in memory refines a map

**Theorem (`refines_map`).** Run any operations on a store in memory without fixed answers, and let failures be
injected between them: connect failures set or cleared, failures armed for commands. Then the results are those of a
map from keys to values. What succeeds is what the map says, and what fails or raises leaves the map as it is
(`Contents.Step`).

The run is followed operation by operation. Making the session ready sends logins at most, which a store in memory
executes without a change (`Server.agrees_of_sends_auth`). A command is lost or executed (`Issued`), and one that is
lost has lost its handle, too. This is what a write needs that must not replace a value: if the question for an
earlier value is lost, then so is the write behind it, and no value is replaced unasked.
-/

namespace RemoteCache

namespace Reply

theorem Fails.asValue_eq {r : Reply} (h : r.Fails) : r.asValue = .failure (.ofReply r) := by
  cases h <;> rfl

theorem Fails.asWritten_eq {r : Reply} (h : r.Fails) : r.asWritten = .failure (.ofReply r) := by
  cases h <;> rfl

theorem Fails.asRemoved_eq {r : Reply} (h : r.Fails) : r.asRemoved = .failure (.ofReply r) := by
  cases h <;> rfl

end Reply

/-! ## The map and its steps -/

/-- The digest that an operation is about. -/
def Storage.Operation.digest? : Storage.Operation → Option Digest
  | .get d | .put d _ _ | .remove d => some d
  | .close => none

open Storage (Attempt)

namespace Contents

theorem set_of_ne (M : Contents) {key other : String} (h : other ≠ key) (value : Option Bytes) :
    M.set key value other = M other := if_neg h

/-- What an attempt tells of the map before it and of the map after it. -/
def Step (M : Contents) (a : Attempt) (N : Contents) : Prop :=
  match a with
  | ⟨.get d, .ok (.success value)⟩ => value = M d.key ∧ N = M
  | ⟨.put d value onlyIfMissing, .ok (.success written)⟩ =>
    (written = false ↔ onlyIfMissing = true ∧ (M d.key).isSome = true) ∧
      N = if written then M.set d.key (some value) else M
  | ⟨.remove d, .ok (.success removed)⟩ => removed = (M d.key).isSome ∧ N = M.set d.key none
  | ⟨.close, .ok (.success ())⟩ => N = M
  | ⟨_, .ok (.failure _)⟩ => N = M
  | ⟨_, .error _⟩ => N = M

theorem step_failure (M : Contents) (op : Storage.Operation) (detail : ErrorDetail) :
    M.Step ⟨op, .ok (.failure detail)⟩ M := by
  cases op <;> exact rfl

theorem step_error (M : Contents) (op : Storage.Operation) (f : Failure) : M.Step ⟨op, .error f⟩ M := by
  cases op <;> exact rfl

/-- An operation changes the value of no key but its own. -/
theorem Step.frame {M N : Contents} {a : Attempt} {key : String} (h : M.Step a N)
    (hkey : ∀ d, a.op.digest? = some d → key ≠ d.key) : N key = M key := by
  unfold Step at h
  split at h
  · rw [h.2]
  · rw [h.2]
    split
    · exact set_of_ne M (hkey _ rfl) _
    · rfl
  · rw [h.2]
    exact set_of_ne M (hkey _ rfl) _
  all_goals rw [h]

/-- The attempts, the latest first, lead from one map to another. -/
inductive Runs (M : Contents) : List Attempt → Contents → Prop
  | start : Runs M [] M
  | operate {attempts : List Attempt} {a : Attempt} {N O : Contents} : Runs M attempts N → N.Step a O →
      Runs M (a :: attempts) O

end Contents

namespace Storage

open Line Server

variable {s t : Session} {c : Command} {op : Operation} {calls : List Call} {n : Handle} {l m : Line Server}

/-! ## Commands on a store in memory -/

/-- What comes of a command: a failure that passes, a loss, or the reply to what was executed. -/
inductive Issued (p : Server) (handle : Option Handle) (c : Command) : Except Failure Reply → Server → Prop
  | raised {f : Failure} {q : Server} : p.Agrees q → Issued p handle c (.error f) q
  | lost {h : Handle} {reply : Reply} {q : Server} : p.Agrees q → handle = some h → h ∉ q.connected →
      reply.Fails → Issued p handle c (.ok reply) q
  | executed {h : Handle} {q : Server} : handle = some h → h ∈ p.connected → (p.execute c).2.Agrees q →
      Issued p handle c (Reply.ofExchange c.name (p.execute c).1.raised) q

theorem issued_of_exchange {h : Handle} {r : Except Failure Reply} (hh : s.handle = some h)
    (hex : Exchange h c calls r) (hcalls : Leads l calls m) : Issued l.peer s.handle c r m.peer := by
  cases exchange_on_server hex hcalls with
  | @lost f _ hagrees hlost =>
    generalize hr : Reply.ofExchange c.name (.error f) = r
    cases r with
    | error f => exact .raised hagrees
    | ok reply => exact .lost hagrees hh hlost (Reply.fails_ofExchange hr)
  | executed hconnected hagrees => exact .executed hh hconnected hagrees

theorem Issuing.issued {r : Except Failure Reply} (hi : Issuing s c calls r t) (hcalls : Leads l calls m) :
    Issued l.peer s.handle c r m.peer := by
  cases hi with
  | idle =>
    rw [hcalls.eq_of_nil]
    exact .raised (.refl _)
  | answered _ hh hex | lost _ hh hex | interrupted _ hh hex => exact issued_of_exchange hh hex hcalls

variable {p q : Server} {handle : Option Handle} {r : Except Failure Reply} {d : Digest}

/-- A read is what the map says. -/
theorem Issued.step_get (hp : p.Honest) (hi : Issued p handle (.get d.key) r q) :
    p.contents.Step ⟨.get d, r.map Reply.asValue⟩ q.contents := by
  cases hi with
  | raised hagrees =>
    rw [hagrees.contents_eq]
    exact Contents.step_error _ _ _
  | lost hagrees _ _ hfails =>
    rw [hagrees.contents_eq, Except.map, hfails.asValue_eq]
    exact Contents.step_failure _ _ _
  | executed _ _ hagrees =>
    rw [execute_get hp] at hagrees ⊢
    rw [hagrees.contents_eq, Command.name_get]
    cases hvalue : p.contents d.key with
    | none => exact ⟨hvalue.symm, rfl⟩
    | some value => exact ⟨hvalue.symm, rfl⟩

/-- A removal removes what the map has, and tells whether that was anything. -/
theorem Issued.step_remove (hp : p.Honest) (hi : Issued p handle (.del d.key) r q) :
    p.contents.Step ⟨.remove d, r.map Reply.asRemoved⟩ q.contents := by
  cases hi with
  | raised hagrees =>
    rw [hagrees.contents_eq]
    exact Contents.step_error _ _ _
  | lost hagrees _ _ hfails =>
    rw [hagrees.contents_eq, Except.map, hfails.asRemoved_eq]
    exact Contents.step_failure _ _ _
  | executed _ _ hagrees =>
    rw [execute_del hp] at hagrees ⊢
    rw [hagrees.contents_eq, contents_drop, Command.name_del]
    refine ⟨?_, rfl⟩
    cases (p.contents d.key).isSome <;> rfl

/-- A write that is not executed writes nothing. -/
theorem step_unwritten (M : Contents) (value : Bytes) (onlyIfMissing : Bool)
    (hr : ∀ reply, r = .ok reply → reply.Fails) :
    M.Step ⟨.put d value onlyIfMissing, r.map Reply.asWritten⟩ M := by
  cases r with
  | error f => exact Contents.step_error _ _ _
  | ok reply =>
    rw [Except.map, (hr reply rfl).asWritten_eq]
    exact Contents.step_failure _ _ _

/-- A write goes into the map. -/
theorem Issued.step_put {value : Bytes} {onlyIfMissing : Bool} (hp : p.Honest)
    (hmissing : onlyIfMissing = true → p.contents d.key = none) (hi : Issued p handle (.set d.key value) r q) :
    p.contents.Step ⟨.put d value onlyIfMissing, r.map Reply.asWritten⟩ q.contents := by
  cases hi with
  | raised hagrees =>
    rw [hagrees.contents_eq]
    exact step_unwritten _ _ _ (by simp)
  | lost hagrees _ _ hfails =>
    rw [hagrees.contents_eq]
    exact step_unwritten _ _ _ (by simpa using hfails)
  | executed _ _ hagrees =>
    rw [execute_set hp] at hagrees ⊢
    rw [hagrees.contents_eq, contents_put, Command.name_set]
    refine ⟨?_, rfl⟩
    simpa using hmissing

/-- A command on a handle that is not connected is not executed. -/
theorem Issued.unexecuted {h : Handle} (hi : Issued p handle c r q) (hh : handle = some h) (hlost : h ∉ p.connected) :
    p.Agrees q ∧ ∀ reply, r = .ok reply → reply.Fails := by
  cases hi with
  | raised hagrees => exact ⟨hagrees, by simp⟩
  | lost hagrees _ _ hfails => exact ⟨hagrees, by simpa using hfails⟩
  | executed hsome hconnected =>
    rw [hh] at hsome
    cases hsome
    exact absurd hconnected hlost

/-- The question for an earlier value changes nothing. -/
theorem Issued.agrees_of_exists (hp : p.Honest) (hi : Issued p handle (.exists? d.key) r q) : p.Agrees q := by
  cases hi with
  | raised hagrees | lost hagrees => exact hagrees
  | executed _ _ hagrees =>
    rw [execute_exists hp] at hagrees
    exact hagrees

/-- The question for an earlier value is answered by the map, or it is lost with its handle. -/
theorem Issued.exists_cases {reply : Reply} (hp : p.Honest) (hi : Issued p handle (.exists? d.key) (.ok reply) q) :
    reply.tag = .integer (if (p.contents d.key).isSome then 1 else 0) ∨
      reply.Fails ∧ ∃ h, handle = some h ∧ h ∉ q.connected := by
  generalize hr : (Except.ok reply : Except Failure Reply) = r at hi
  cases hi with
  | raised => cases hr
  | lost _ hh hlost hfails =>
    cases hr
    exact .inr ⟨hfails, _, hh, hlost⟩
  | executed =>
    rw [Command.name_exists, execute_exists hp] at hr
    cases hr
    exact .inl rfl

/-- A value that must not be replaced is there if the answer to the question for it is positive. -/
theorem Issued.step_kept {reply : Reply} {value : Bytes} {count : Int} (hp : p.Honest)
    (hi : Issued p handle (.exists? d.key) (.ok reply) q) (htag : reply.tag = .integer count) (hpos : 0 < count) :
    p.contents.Step ⟨.put d value true, .ok (.success false)⟩ q.contents := by
  rw [(hi.agrees_of_exists hp).contents_eq]
  refine ⟨?_, rfl⟩
  rcases hi.exists_cases hp with hreply | ⟨hfails, -⟩
  · rw [htag, Reply.Tag.integer.injEq] at hreply
    have hsome : (p.contents d.key).isSome = true := by
      rw [← Bool.not_eq_false]
      intro hnone
      rw [hnone, if_neg (by simp)] at hreply
      omega
    simp [hsome]
  · cases hfails <;> cases htag

/-- A value that must not be replaced is not there if the question for it lets the write pass, or else the question
is lost with its handle, and nothing is written behind it. -/
theorem Issued.step_written {reply : Reply} {value : Bytes} {handle' : Option Handle} {q' : Server} (hp : p.Honest)
    (hask : Issued p handle (.exists? d.key) (.ok reply) q) (hlets : reply.letsWrite = true)
    (hholds : handle' = handle) (hset : Issued q handle' (.set d.key value) r q') :
    p.contents.Step ⟨.put d value true, r.map Reply.asWritten⟩ q'.contents := by
  have hagrees : p.Agrees q := hask.agrees_of_exists hp
  rw [← hagrees.contents_eq]
  rcases hask.exists_cases hp with hreply | ⟨-, h, hh, hlost⟩
  · refine hset.step_put (hagrees.honest hp) ?_
    intro _
    have hnone : ¬ (p.contents d.key).isSome = true := by
      intro hsome
      rw [if_pos hsome] at hreply
      simp [Reply.letsWrite, hreply] at hlets
    rw [hagrees.contents_eq]
    simpa using hnone
  · obtain ⟨hkept, hunheard⟩ := hset.unexecuted (hholds.trans hh) hlost
    rw [hkept.contents_eq]
    exact step_unwritten _ _ _ hunheard

/-! ## Operations on a store in memory -/

/-- The commands of an operation do with the map what the operation says. -/
theorem Serving.step {r : op.Result} (hl : l.peer.Honest) (hs : Serving s op calls r t) (hcalls : Leads l calls m) :
    l.peer.contents.Step ⟨op, r⟩ m.peer.contents := by
  cases hs with
  | get hi => exact (hi.issued hcalls).step_get hl
  | remove hi => exact (hi.issued hcalls).step_remove hl
  | put hi => exact (hi.issued hcalls).step_put hl (by simp)
  | unasked hi =>
    rw [((hi.issued hcalls).agrees_of_exists hl).contents_eq]
    exact Contents.step_error _ _ _
  | unanswered hi =>
    rw [((hi.issued hcalls).agrees_of_exists hl).contents_eq]
    exact Contents.step_failure _ _ _
  | kept hi htag hpos => exact (hi.issued hcalls).step_kept hl htag hpos
  | written hi hlets hi' =>
    obtain ⟨k, hask, hset⟩ := hcalls.split
    refine (hi.issued hask).step_written hl hlets ?_ (hi'.issued hset)
    rcases hi.session_eq with rfl | rfl <;> rfl

theorem Operating.step {r : op.Result} (hl : l.peer.Honest) (ho : Operating s n op calls r t)
    (hcalls : Leads l calls m) : l.peer.contents.Step ⟨op, r⟩ m.peer.contents := by
  have hready {calls : List Call} {r : Session.Answered} {t : Session} {m : Line Server}
      (hr : Session.Readying s n calls r t) (hcalls : Leads l calls m) : l.peer.Agrees m.peer :=
    agrees_of_sends_auth hl hcalls hr.sends_auth
  cases ho with
  | closed hc =>
    rw [(agrees_of_sends_auth hl hcalls (hc.sends _)).contents_eq]
    exact rfl
  | interrupted _ hr =>
    rw [(hready hr hcalls).contents_eq]
    exact Contents.step_error _ _ _
  | unready _ hr =>
    rw [(hready hr hcalls).contents_eq]
    exact Contents.step_failure _ _ _
  | served hr hserve =>
    obtain ⟨k, hbefore, hafter⟩ := hcalls.split
    have hagrees := hready hr hbefore
    rw [← hagrees.contents_eq]
    exact hserve.step (hagrees.honest hl) hafter

/-! ## Runs on a store in memory -/

/-- The map that the store of a scene holds. -/
def contents (x : Scene Server) : Contents := x.line.peer.contents

theorem Operation.step (op : Operation) {x : Scene Server} (hx : x.line.peer.Honest) :
    (contents x).Step ⟨op, (op.perform x).1⟩ (contents (op.perform x).2) := by
  obtain ⟨calls, hcourse, hcalls⟩ := op.course x
  exact hcourse.step hx hcalls

/-- What a test can do to a store in memory between two operations. -/
inductive Injected (p : Server) : Server → Prop
  | connectFailure (f : Option Failure) : Injected p { p with connectFailure := f }
  | commandFailure (name : String) (f : Failure) :
      Injected p { p with commandFailures := Entries.put p.commandFailures name f }

theorem Injected.agrees (h : Injected p q) : p.Agrees q := by
  cases h with
  | connectFailure | commandFailure => exact ⟨rfl, rfl⟩

theorem Run.honest {x y : Scene Server} {attempts : List Attempt} (hrun : Run Injected x attempts y)
    (hx : x.line.peer.Honest) : y.line.peer.Honest :=
  hrun.preserves_peer hx kept_honest fun _ _ hpeer hp => hpeer.agrees.honest hp

theorem Run.refines {x y : Scene Server} {attempts : List Attempt} (hrun : Run Injected x attempts y)
    (hx : x.line.peer.Honest) : (contents x).Runs attempts (contents y) := by
  induction hrun with
  | start => exact .start
  | operate op hrun ih => exact .operate ih (op.step (hrun.honest hx))
  | @change _ y peer hpeer _ ih =>
    rw [show contents (y.withPeer peer) = contents y from hpeer.agrees.contents_eq]
    exact ih

/-- **A store in memory refines a map**, whatever failures are injected: every result is the map's, and no operation
touches another key, nor the key of another digest. -/
theorem refines_map {endpoint : Endpoint} {settings : BackendSettings} {server : Server} {logging : Logging.State}
    {attempts : List Attempt} {x : Scene Server} (hserver : server.fixedAnswers = [])
    (hrun : Run Injected (Scene.fresh endpoint settings server logging) attempts x) :
    server.contents.Runs attempts (contents x) ∧
    (∀ op : Operation, (contents x).Step ⟨op, (op.perform x).1⟩ (contents (op.perform x).2)) ∧
    (∀ (op : Operation) (key : String), (∀ d, op.digest? = some d → key ≠ d.key) →
      contents (op.perform x).2 key = contents x key) ∧
    (∀ d e : Digest, d ≠ e → d.key ≠ e.key) := by
  have hx : x.line.peer.Honest := hrun.honest hserver
  refine ⟨hrun.refines hserver, ?_, ?_, ?_⟩
  · intro op
    exact op.step hx
  · intro op key hkey
    exact (op.step hx).frame hkey
  · intro d e hne
    rw [Ne, Digest.key_inj]
    exact hne

/-- A write that must not replace a value does nothing when the question for one fails. -/
theorem refines_map_when_the_question_fails :
    let d : Digest := ⟨List.replicate 20 0, rfl⟩
    let put : Operation := .put d [1] false
    let again : Operation := .put d [2] true
    let x := (put.perform (Scene.onHost ({} : Server))).2
    let y := x.withPeer { x.line.peer with
      commandFailures := Entries.put x.line.peer.commandFailures "EXISTS" (.store .response "busy") }
    (contents y).Step ⟨again, (again.perform y).1⟩ (contents (again.perform y).2) := by
  intro d put again x y
  have hx : Run Injected (Scene.onHost ({} : Server)) [⟨put, _⟩] x := .operate put .start
  have hy : Run Injected (Scene.onHost ({} : Server)) [⟨put, _⟩] y :=
    .change _ (.commandFailure "EXISTS" (.store .response "busy")) hx
  exact (refines_map rfl hy).2.1 again

end Storage
end RemoteCache
