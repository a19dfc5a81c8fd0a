import RemoteCache.Proofs.Session.Courses
import RemoteCache.Storage

/-!
# The courses of an operation

An operation first makes its session ready (`Session.Readying`) and then sends its commands one after the other, each
in one exchange on the handle of the session (`Issuing`). A command that gets no reply leaves the session stale.
Reading and removing send one command, and so does a plain write; a write that must not replace a value sends one or
two (`Serving`).

`Operation.course` says that these are all courses that an operation can take (`Operating`), for every peer and from
every scene.
-/

namespace RemoteCache.Storage

open RemoteCache.Action Line

/-! ## Operations as data -/

/-- What a caller can ask of a store. -/
inductive Operation
  | get (d : Digest)
  | put (d : Digest) (value : Bytes) (onlyIfMissing : Bool)
  | remove (d : Digest)
  | close

namespace Operation

/-- What an operation hands over when it succeeds. -/
abbrev Value : Operation → Type
  | .get _ => Option Bytes
  | .put .. => Bool
  | .remove _ => Bool
  | .close => Unit

/-- What comes of an operation: an outcome, or a failure that passes. -/
abbrev Result (op : Operation) : Type := Except Failure (Outcome op.Value)

variable {σ : Type} [Peer σ]

/-- An operation as an action. Closing always succeeds. -/
def act : (op : Operation) → Action σ (Outcome op.Value)
  | .get d => Storage.get d
  | .put d value onlyIfMissing => Storage.put d value onlyIfMissing
  | .remove d => Storage.remove d
  | .close => do
    Session.close
    return .success ()

/-- What comes of an operation, and the scene that it leaves. -/
def perform (op : Operation) (x : Scene σ) : op.Result × Scene σ := Action.run op.act x

end Operation

/-! ## Replies as outcomes -/

end Storage

namespace Reply

/-- What a reply to a read comes to. -/
def asValue (r : Reply) : Outcome (Option Bytes) :=
  match r.tag with
  | .string b => .success (some b)
  | .nil => .success none
  | _ => .failure (.ofReply r)

/-- What a reply to a write comes to. -/
def asWritten (r : Reply) : Outcome Bool :=
  match r.tag with
  | .status _ => .success true
  | _ => .failure (.ofReply r)

/-- What a reply to a removal comes to. -/
def asRemoved (r : Reply) : Outcome Bool :=
  match r.tag with
  | .integer n => .success (0 < n)
  | _ => .failure (.ofReply r)

/-- Whether a write goes ahead after this reply to the question for an earlier value. -/
def letsWrite (r : Reply) : Bool :=
  match r.tag with
  | .integer n => n ≤ 0
  | .null => false
  | _ => true

end Reply

namespace Storage

open RemoteCache.Action Line

/-! ## The courses -/

/-- One command on the handle of a session, which is to be ready. -/
inductive Issuing (s : Session) (c : Command) : List Call → Except Failure Reply → Session → Prop
  | idle : s.phase ≠ .ready ∨ s.handle = none → Issuing s c [] (.error (.assertion [])) s
  | answered {h : Handle} {calls : List Call} {reply : Reply} : s.phase = .ready → s.handle = some h →
      Exchange h c calls (.ok reply) → reply.tag ≠ .null → Issuing s c calls (.ok reply) s
  | lost {h : Handle} {calls : List Call} {reply : Reply} : s.phase = .ready → s.handle = some h →
      Exchange h c calls (.ok reply) → reply.tag = .null →
      Issuing s c calls (.ok reply) { s with phase := .unconnected }
  | interrupted {h : Handle} {calls : List Call} {f : Failure} : s.phase = .ready → s.handle = some h →
      Exchange h c calls (.error f) → Issuing s c calls (.error f) s

/-- The commands of an operation. -/
inductive Serving (s : Session) : (op : Operation) → List Call → op.Result → Session → Prop
  | get {d : Digest} {calls : List Call} {r : Except Failure Reply} {t : Session} :
      Issuing s (.get d.key) calls r t → Serving s (.get d) calls (r.map Reply.asValue) t
  | remove {d : Digest} {calls : List Call} {r : Except Failure Reply} {t : Session} :
      Issuing s (.del d.key) calls r t → Serving s (.remove d) calls (r.map Reply.asRemoved) t
  | put {d : Digest} {value : Bytes} {calls : List Call} {r : Except Failure Reply} {t : Session} :
      Issuing s (.set d.key value) calls r t →
      Serving s (.put d value false) calls (r.map Reply.asWritten) t
  | unasked {d : Digest} {value : Bytes} {calls : List Call} {f : Failure} {t : Session} :
      Issuing s (.exists? d.key) calls (.error f) t → Serving s (.put d value true) calls (.error f) t
  | unanswered {d : Digest} {value : Bytes} {calls : List Call} {reply : Reply} {t : Session} :
      Issuing s (.exists? d.key) calls (.ok reply) t → reply.tag = .null →
      Serving s (.put d value true) calls (.ok (.failure (.ofReply reply))) t
  | kept {d : Digest} {value : Bytes} {calls : List Call} {reply : Reply} {n : Int} {t : Session} :
      Issuing s (.exists? d.key) calls (.ok reply) t → reply.tag = .integer n → 0 < n →
      Serving s (.put d value true) calls (.ok (.success false)) t
  | written {d : Digest} {value : Bytes} {calls more : List Call} {reply : Reply} {r : Except Failure Reply}
      {t u : Session} : Issuing s (.exists? d.key) calls (.ok reply) t → reply.letsWrite = true →
      Issuing t (.set d.key value) more r u →
      Serving s (.put d value true) (more ++ calls) (r.map Reply.asWritten) u

/-- An operation as a whole; `n` is the next handle. -/
inductive Operating (s : Session) (n : Handle) : (op : Operation) → List Call → op.Result → Session → Prop
  | closed {calls : List Call} {t : Session} : Session.Closing s calls t →
      Operating s n .close calls (.ok (.success ())) t
  | interrupted {op : Operation} {calls : List Call} {f : Failure} {t : Session} : op ≠ .close →
      Session.Readying s n calls (.error f) t → Operating s n op calls (.error f) t
  | unready {op : Operation} {calls : List Call} {detail : ErrorDetail} {t : Session} : op ≠ .close →
      Session.Readying s n calls (.ok (some detail)) t → Operating s n op calls (.ok (.failure detail)) t
  | served {op : Operation} {calls more : List Call} {r : op.Result} {t u : Session} :
      Session.Readying s n calls (.ok none) t → Serving t op more r u → Operating s n op (more ++ calls) r u

/-! ## There are no other courses -/

variable {σ : Type} [Peer σ]

open Session (Takes)

theorem issue_course (x : Scene σ) (c : Command) : Takes (issue c) x (Issuing x.session c) := by
  unfold Takes issue Session.readyHandle Session.held
  simp only [ends_bind, ends_session, ends_require, decide_eq_true_eq]
  by_cases hready : x.session.phase = .ready
  · simp only [hready, if_true]
    cases hh : x.session.handle with
    | none => exact ⟨[], .idle (.inr hh), .refl⟩
    | some h =>
      simp only [ends_pure]
      rw [ends_onLine]
      refine ends_exchange ?_
      intro calls r m hex hm
      cases r with
      | error f => exact ⟨calls, .interrupted hready hh hex, hm⟩
      | ok reply =>
        obtain ⟨tag, failure⟩ := reply
        cases tag with
        | null =>
          unfold Session.markStale
          simp only [ends_bind, ends_session, hready, if_true]
          refine ends_log _ fun _ => ?_
          exact ⟨calls, .lost hready hh hex rfl, hm⟩
        | _ => exact ⟨calls, .answered hready hh hex (by simp), hm⟩
  · simp only [hready, if_false]
    exact ⟨[], .idle (.inl hready), .refl⟩

theorem announced_course (x : Scene σ) (c : Command) (key : String) :
    Takes (announced c key) x (Issuing x.session c) := by
  unfold Takes announced
  rw [ends_bind]
  exact ends_log _ fun _ => issue_course _ c

/-- A reply is looked at, and the outcome is as `as` says; only log lines may be written on the way. -/
def Looks {α : Type} (look : Reply → Action σ (Outcome α)) (as : Reply → Outcome α) : Prop :=
  ∀ (reply : Reply) (y : Scene σ) (Q : Except Failure (Outcome α) → Scene σ → Prop),
    (∀ logging records, Q (.ok (as reply)) { y with logging, records }) → Ends (look reply) y Q

/-- A reply that does not fit ends an operation with what the reply means. -/
theorem failed_looks {σ α : Type} (action key : String) :
    Looks (σ := σ) (α := α) (failed action key) fun reply => .failure (.ofReply reply) := by
  intro reply y Q hQ
  unfold failed
  rw [ends_bind]
  refine ends_within _ fun _ => ends_log _ fun records logging => ?_
  exact hQ logging records

theorem get_looks {σ : Type} (key : String) :
    Looks (σ := σ) (fun reply => match reply.tag with
      | .string b => return .success (some b)
      | .nil => return .success none
      | _ => failed "get" key reply) Reply.asValue := by
  rintro ⟨tag, failure⟩ y Q hQ
  cases tag with
  | string b => exact hQ _ _
  | nil => exact hQ _ _
  | _ => exact failed_looks _ _ _ y Q hQ

theorem set_looks {σ : Type} (key : String) :
    Looks (σ := σ) (fun reply => match reply.tag with
      | .status _ => return .success true
      | _ => failed "set" key reply) Reply.asWritten := by
  rintro ⟨tag, failure⟩ y Q hQ
  cases tag with
  | status b => exact hQ _ _
  | _ => exact failed_looks _ _ _ y Q hQ

theorem remove_looks {σ : Type} (key : String) :
    Looks (σ := σ) (fun reply => match reply.tag with
      | .integer n => return .success (decide (0 < n))
      | _ => failed "del" key reply) Reply.asRemoved := by
  rintro ⟨tag, failure⟩ y Q hQ
  cases tag with
  | integer n => exact hQ _ _
  | _ => exact failed_looks _ _ _ y Q hQ

/-- A command and a look at its reply. -/
theorem announced_looks {α : Type} {look : Reply → Action σ (Outcome α)} (as : Reply → Outcome α)
    (hlook : Looks look as) (x : Scene σ) (c : Command) (key : String) :
    Takes (announced c key >>= look) x fun calls r t =>
      ∃ reply, Issuing x.session c calls reply t ∧ r = reply.map as := by
  unfold Takes
  rw [ends_bind]
  refine Ends.mono (announced_course x c key) ?_
  rintro r y ⟨calls, hissue, hcalls⟩
  cases r with
  | error f => exact ⟨calls, ⟨_, hissue, rfl⟩, hcalls⟩
  | ok reply => exact hlook reply y _ fun _ _ => ⟨calls, ⟨_, hissue, rfl⟩, hcalls⟩

theorem set_course (x : Scene σ) (d : Digest) (value : Bytes) :
    Takes (set d value) x fun calls r t =>
      ∃ reply, Issuing x.session (.set d.key value) calls reply t ∧ r = reply.map Reply.asWritten :=
  announced_looks Reply.asWritten (set_looks d.key) x _ _

theorem setIfMissing_course (x : Scene σ) (d : Digest) (value : Bytes) :
    Takes (setIfMissing d value) x (Serving x.session (.put d value true)) := by
  unfold Takes setIfMissing
  rw [ends_bind]
  refine Ends.mono (announced_course x _ _) ?_
  rintro r y ⟨calls, hissue, hcalls⟩
  -- A write that goes ahead starts where the question ended.
  have hwrite {reply : Reply} (hissue : Issuing x.session (.exists? d.key) calls (.ok reply) y.session)
      (hlets : reply.letsWrite = true) (records) : Ends (set d value) { y with records } fun r z =>
        ∃ all, Serving x.session (.put d value true) all r z.session ∧ Leads x.line all z.line := by
    refine Ends.mono (set_course _ d value) ?_
    rintro _ z ⟨more, ⟨reply', hissue', rfl⟩, hmore⟩
    exact ⟨_, .written hissue hlets hissue', hcalls.trans hmore⟩
  cases r with
  | error f => exact ⟨calls, .unasked hissue, hcalls⟩
  | ok reply =>
    obtain ⟨tag, failure⟩ := reply
    cases tag with
    | integer n =>
      by_cases hn : 0 < n
      · simp only [hn, if_true]
        exact ⟨calls, .kept hissue rfl hn, hcalls⟩
      · simp only [hn, if_false]
        exact hwrite hissue (by simpa [Reply.letsWrite] using hn) y.records
    | null => exact failed_looks _ _ _ y _ fun _ _ => ⟨calls, .unanswered hissue rfl, hcalls⟩
    | _ =>
      simp only [ends_bind]
      exact ends_log _ fun records => hwrite hissue rfl records

/-- Commands that serve an operation make up the operation. -/
theorem operation_course {op : Operation} {name key : String} {commands : Action σ (Outcome op.Value)}
    (hop : op ≠ .close) (hcommands : ∀ y : Scene σ, Takes commands y (Serving y.session op)) (x : Scene σ) :
    Takes (operation name key commands) x (Operating x.session x.line.created op) := by
  unfold Takes operation
  rw [ends_bind]
  refine Ends.mono (Session.ensureConnected_course x) ?_
  rintro r y ⟨calls, hready, hcalls⟩
  match r with
  | .error f => exact ⟨calls, .interrupted hop hready, hcalls⟩
  | .ok (some detail) => exact ⟨calls, .unready hop hready, hcalls⟩
  | .ok none =>
    refine ends_within _ fun logging => Ends.mono (hcommands _) ?_
    rintro r z ⟨more, hserve, hmore⟩ _
    exact ⟨_, .served hready hserve, hcalls.trans hmore⟩

theorem get_course (x : Scene σ) (d : Digest) :
    Takes (get d) x (Operating x.session x.line.created (.get d)) := by
  refine operation_course (by simp) (fun y => (announced_looks Reply.asValue (get_looks d.key) y _ _).mono ?_) x
  rintro calls _ t ⟨reply, hissue, rfl⟩
  exact .get hissue

/-- Both kinds of writes, once the session is ready. -/
theorem writing_course (x : Scene σ) (d : Digest) (value : Bytes) (onlyIfMissing : Bool) :
    Takes (if onlyIfMissing then setIfMissing d value else set d value) x
      (Serving x.session (.put d value onlyIfMissing)) := by
  cases onlyIfMissing with
  | true => exact setIfMissing_course x d value
  | false =>
    refine (set_course x d value).mono ?_
    rintro calls _ t ⟨reply, hissue, rfl⟩
    exact .put hissue

theorem put_course (x : Scene σ) (d : Digest) (value : Bytes) (onlyIfMissing : Bool) :
    Takes (put d value onlyIfMissing) x (Operating x.session x.line.created (.put d value onlyIfMissing)) :=
  operation_course (by simp) (fun y => writing_course y d value onlyIfMissing) x

theorem remove_course (x : Scene σ) (d : Digest) :
    Takes (remove d) x (Operating x.session x.line.created (.remove d)) := by
  refine operation_course (by simp) (fun y => (announced_looks Reply.asRemoved (remove_looks d.key) y _ _).mono ?_) x
  rintro calls _ t ⟨reply, hissue, rfl⟩
  exact .remove hissue

/-- **Every operation takes one of the courses of `Operating`.** -/
theorem Operation.course (op : Operation) (x : Scene σ) :
    ∃ calls, Operating x.session x.line.created op calls (op.perform x).1 (op.perform x).2.session ∧
      Leads x.line calls (op.perform x).2.line := by
  cases op with
  | get d => exact get_course x d
  | put d value onlyIfMissing => exact put_course x d value onlyIfMissing
  | remove d => exact remove_course x d
  | close =>
    have hclose : Takes Operation.close.act x (Operating x.session x.line.created .close) := by
      unfold Takes Operation.act
      rw [ends_bind]
      refine Ends.mono (Session.close_course x) ?_
      rintro r y ⟨calls, ⟨rfl, hclosing⟩, hcalls⟩
      exact ⟨calls, .closed hclosing, hcalls⟩
    exact hclose

end RemoteCache.Storage
