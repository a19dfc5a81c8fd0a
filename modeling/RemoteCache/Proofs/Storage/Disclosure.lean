import RemoteCache.Proofs.Storage.MapRefinement

/-!
# What log records can disclose

A store writes its log lines from what it knows itself, its `Vocabulary`: the endpoint, the user name, the timeout,
the keys that it is asked for, and fixed words. Three things come from elsewhere: the text of a failure to connect,
which is a line's end (`Vocabulary.Says`), the context that is bound around the store (`Vocabulary.Binds`), and what
a reply is described as, which is quoted behind an introduction (`Vocabulary.Introduces`).

**Theorem (`password_hidden`).** Whatever the peer does in a run from a fresh scene: a password that occurs in none of
the store's own lines and bound texts, and in no quotation of a reply that came back, occurs in no log record.

The quotations cannot be left out. What a reply is described as is up to the peer, which has been sent the password.
A store that repeats a rejected login in its error text has the password written to the log
(`password_quoted_when_repeated`).

The invariant is `Vocabulary.Discreet`: all records so far are in the store's own words or quote a reply that has come
back, and so will be the next one. Every program leads from a discreet scene to a discreet one
(`Vocabulary.Covers`). Calls are only added, so a reply that has come back stays one.
-/

namespace RemoteCache.Storage

open RemoteCache.Action Line

/-- One text occurs in another one. -/
def Occurs (text inside : String) : Prop := text.toList <:+: inside.toList

instance (text inside : String) : Decidable (Occurs text inside) :=
  inferInstanceAs (Decidable (text.toList <:+: inside.toList))

/-! ## The words of a store -/

/-- A reply to a command has come back in some calls. -/
inductive CameBack (calls : List Call) (reply : Reply) : Prop
  | send {h : Handle} {c : Command} {f : Failure} : Call.send h c (.error f) ∈ calls →
      Reply.ofExchange c.name (.error f) = .ok reply → CameBack calls reply
  | receive {h : Handle} {name : String} {r : Except Failure Answer} : Call.receive h r ∈ calls →
      Reply.ofExchange name r = .ok reply → CameBack calls reply

/-- What a store can talk about. -/
structure Vocabulary where
  session : Session
  /-- The logging context around the store. -/
  outer : Logging.Context
  /-- The keys that the store is asked for. -/
  keys : List String

namespace Vocabulary

variable (v : Vocabulary)

/-- The user name in log lines. -/
def user : String := v.session.loginName?.getD Session.defaultUsername

/-- The lines that are the store's own. -/
inductive Says (calls : List Call) : String → Prop
  | connecting : Says calls ("Redis connecting to " ++ v.session.endpoint.describe ++ " (timeout " ++
      toString v.session.settings.connectTimeoutMs ++ " ms)")
  | connected : Says calls ("Redis connection to " ++ v.session.endpoint.describe ++ " OK")
  | unconnected {h : Handle} {f : Failure} : Call.connect h (.error f) ∈ calls →
      Says calls ("Redis connection error: " ++ f.text)
  | unreconnected {h : Handle} {f : Failure} : Call.connect h (.error f) ∈ calls →
      Says calls ("Redis reconnection error: " ++ f.text)
  | nowhere : Says calls ("Invalid Redis URL: " ++ v.session.endpoint.url)
  | login : Says calls ("Redis AUTH " ++ v.user ++ " " ++ Session.mask)
  | lost : Says calls ("Redis connection lost: endpoint=" ++ v.session.endpoint.describe)
  | closing : Says calls "Redis disconnect"
  | command {word key : String} : word ∈ ["GET", "SET", "EXISTS", "DEL"] → key ∈ v.keys →
      Says calls ("Redis " ++ word ++ " " ++ key)

/-- The texts in front of a reply that is quoted. -/
inductive Introduces : String → Prop
  | login : Introduces ("Failed to auth " ++ v.user ++ " in redis: ")
  | command {action key : String} : action ∈ ["get", "set", "check", "del"] → key ∈ v.keys →
      Introduces ("Failed to " ++ action ++ " " ++ key ++ " in redis: ")

/-- The texts in the contexts of records. -/
inductive Binds : String → Prop
  | outer {name text : String} : (name, text) ∈ v.outer → Binds text
  | connecting {name text : String} : (name, text) ∈ v.session.connectContext → Binds text
  | operating {operation key name text : String} : operation ∈ ["get", "put", "remove"] → key ∈ v.keys →
      (name, text) ∈ operationContext operation key → Binds text
  | failed (reply : Reply) : Binds (ErrorDetail.ofReply reply).code.name

/-- A line is the store's own, or quotes a reply that has come back. -/
def Utters (calls : List Call) (line : String) : Prop :=
  v.Says calls line ∨ ∃ front reply, v.Introduces front ∧ CameBack calls reply ∧ line = front ++ reply.describe

/-- A record is in the store's words. -/
structure Words (calls : List Call) (record : Logging.Record) : Prop where
  message : v.Utters calls record.entry.message
  context : ∀ e ∈ record.context, v.Binds e.2

variable {σ : Type}

/-- The records so far are in the store's words, and so is what is bound for the next one. -/
structure Discreet (x : Scene σ) : Prop where
  continues : v.session.Continues x.session
  context : ∀ e ∈ x.logging.context, v.Binds e.2
  records : ∀ record ∈ x.records, v.Words x.line.calls record

/-- From a discreet scene an action leads to a discreet one. -/
def Covers {α : Type} (act : Action σ α) : Prop :=
  ∀ x : Scene σ, v.Discreet x → Ends act x fun _ y => v.Discreet y

end Vocabulary

variable {v : Vocabulary}

/-! ### Going on -/

theorem CameBack.mono {calls more : List Call} {reply : Reply} (h : CameBack calls reply) (hsub : calls ⊆ more) :
    CameBack more reply := by
  cases h with
  | send hcall hreply => exact .send (hsub hcall) hreply
  | receive hcall hreply => exact .receive (hsub hcall) hreply

theorem CameBack.of_exchange {h : Handle} {c : Command} {calls : List Call} {reply : Reply}
    (hex : Exchange h c calls (.ok reply)) : CameBack calls reply := by
  generalize hr : Except.ok reply = r at hex
  cases hex with
  | unsent => exact .send List.mem_cons_self hr.symm
  | answered => exact .receive List.mem_cons_self hr.symm

namespace Vocabulary

theorem Utters.mono {calls more : List Call} {line : String} (h : v.Utters calls line) (hsub : calls ⊆ more) :
    v.Utters more line := by
  rcases h with hsays | ⟨front, reply, hfront, hreply, rfl⟩
  · left
    cases hsays with
    | unconnected hcall => exact .unconnected (hsub hcall)
    | unreconnected hcall => exact .unreconnected (hsub hcall)
    | connecting => exact .connecting
    | connected => exact .connected
    | nowhere => exact .nowhere
    | login => exact .login
    | lost => exact .lost
    | closing => exact .closing
    | command hword hkey => exact .command hword hkey
  · exact .inr ⟨front, reply, hfront, hreply.mono hsub, rfl⟩

variable {σ α β : Type} {x : Scene σ}

/-- Calls leave a scene discreet. -/
theorem Discreet.leads [Peer σ] (hx : v.Discreet x) {calls : List Call} {m : Line σ}
    (hm : Leads x.line calls m) : v.Discreet { x with line := m } where
  continues := hx.continues
  context := hx.context
  records record hrecord :=
    ⟨(hx.records record hrecord).message.mono (by rw [hm.calls_eq]; exact List.subset_append_right _ _),
      (hx.records record hrecord).context⟩

theorem Discreet.log (hx : v.Discreet x) {logger : String} {level : Logging.Level} {message : String}
    (hmessage : v.Utters x.line.calls message) {Q : Except Failure Unit → Scene σ → Prop}
    (hQ : ∀ records, v.Discreet { x with records } → Q (.ok ()) { x with records }) :
    Ends (log logger level message) x Q := by
  rw [Ends, run_log]
  refine hQ _ ⟨hx.continues, hx.context, ?_⟩
  intro record hrecord
  rcases List.mem_append.1 hrecord with hnew | hold
  · unfold Logging.State.record? at hnew
    split at hnew
    · obtain rfl : record = _ := by simpa using hnew
      exact ⟨hmessage, hx.context⟩
    · simp at hnew
  · exact hx.records record hold

/-! ### Rules -/

theorem covers_pure (a : α) : v.Covers (pure a : Action σ α) := fun _ hx => hx

theorem covers_throw (f : Failure) : v.Covers (throw f : Action σ α) := fun _ hx => hx

theorem Covers.bind {act : Action σ α} {k : α → Action σ β} (h : v.Covers act) (hk : ∀ a, v.Covers (k a)) :
    v.Covers (act >>= k) := by
  intro x hx
  rw [ends_bind]
  refine (h x hx).mono ?_
  intro r y hy
  cases r with
  | error f => exact hy
  | ok a => exact hk a y hy

theorem covers_session_bind {k : Session → Action σ α} (hk : ∀ s, v.session.Continues s → v.Covers (k s)) :
    v.Covers (Action.session >>= k) := by
  intro x hx
  rw [ends_bind, ends_session]
  exact hk x.session hx.continues x hx

theorem covers_ite {c : Prop} [Decidable c] {yes no : Action σ α} (hyes : v.Covers yes) (hno : v.Covers no) :
    v.Covers (if c then yes else no) := by
  by_cases hc : c
  · rw [if_pos hc]
    exact hyes
  · rw [if_neg hc]
    exact hno

theorem covers_setPhase (phase : Session.Phase) : v.Covers (setPhase phase : Action σ Unit) := fun _ hx =>
  ⟨⟨hx.continues.endpoint_eq, hx.continues.settings_eq⟩, hx.context, hx.records⟩

theorem covers_setHandle (handle : Option Handle) : v.Covers (setHandle handle : Action σ Unit) := fun _ hx =>
  ⟨⟨hx.continues.endpoint_eq, hx.continues.settings_eq⟩, hx.context, hx.records⟩

theorem covers_require (condition : Bool) (args : List Value) :
    v.Covers (require condition args : Action σ Unit) := by
  cases condition with
  | true => exact covers_pure ()
  | false => exact covers_throw _

theorem covers_log {logger : String} {level : Logging.Level} {message : String}
    (hmessage : ∀ calls, v.Utters calls message) : v.Covers (Action.log logger level message : Action σ Unit) :=
  fun _ hx => hx.log (hmessage _) fun _ hy => hy

theorem Discreet.within (hx : v.Discreet x) {act : Action σ α} {texts : List (String × String)}
    (htexts : ∀ e ∈ texts, v.Binds e.2)
    (hact : ∀ logging, v.Discreet { x with logging } → Ends act { x with logging } fun _ y => v.Discreet y) :
    Ends (within texts act) x fun _ y => v.Discreet y := by
  rw [Ends, run_within]
  have hinside : v.Discreet (withContext x (x.logging.context.overlay texts)) := by
    refine ⟨hx.continues, ?_, hx.records⟩
    intro e he
    rcases Entries.mem_putAll he with hnew | hold
    · exact htexts e hnew
    · exact hx.context e hold
  have hy := hact _ hinside
  exact ⟨hy.continues, hx.context, hy.records⟩

theorem Covers.within {act : Action σ α} {texts : List (String × String)} (h : v.Covers act)
    (htexts : ∀ e ∈ texts, v.Binds e.2) : v.Covers (within texts act) :=
  fun _ hx => hx.within htexts fun _ hinside => h _ hinside

/-! ### Sessions -/

theorem covers_held : v.Covers (Session.held : Action σ Handle) := by
  refine covers_session_bind fun s _ => ?_
  cases s.handle with
  | none => exact covers_throw _
  | some h => exact covers_pure h

theorem covers_readyHandle : v.Covers (Session.readyHandle : Action σ Handle) :=
  covers_session_bind fun _ _ => (covers_require _ _).bind fun _ => covers_held

theorem Discreet.markStale (hx : v.Discreet x) :
    Ends Session.markStale x fun r y => r = .ok () ∧ v.Discreet y ∧ y.line = x.line := by
  unfold Session.markStale
  simp only [ends_bind, ends_session]
  by_cases hready : x.session.phase = .ready
  · rw [if_pos hready, ends_bind, hx.continues.endpoint_eq]
    exact hx.log (.inl .lost) fun _ hy => ⟨rfl, covers_setPhase _ _ hy, rfl⟩
  · rw [if_neg hready]
    exact ⟨rfl, hx, rfl⟩

/-- A reply that has come back is quoted where it does not fit. -/
theorem Discreet.failed (hx : v.Discreet x) {action key : String} (hkey : key ∈ v.keys)
    (haction : action ∈ ["get", "set", "check", "del"]) {reply : Reply} (hreply : CameBack x.line.calls reply) :
    Ends (Storage.failed (α := α) action key reply) x fun _ y => v.Discreet y := by
  unfold Storage.failed
  rw [ends_bind]
  refine (hx.within ?_ fun _ hinside => ?_).mono fun r y hy => ?_
  · intro e he
    obtain rfl := List.mem_singleton.1 he
    exact .failed reply
  · exact hinside.log (.inr ⟨_, reply, .command haction hkey, hreply, rfl⟩) fun _ hy => hy
  · cases r with
    | ok _ => exact hy
    | error _ => exact hy

/-! ### Calls -/

variable [Peer σ]

theorem covers_create (options : ConnectionOptions) : v.Covers (onLine (Line.create options) : Action σ Handle) := by
  intro x hx
  rw [ends_onLine]
  exact ends_create fun _ hm => hx.leads hm.leads

theorem covers_disconnect (h : Handle) : v.Covers (onLine (Line.disconnect h) : Action σ Unit) := by
  intro x hx
  rw [ends_onLine]
  exact ends_disconnect fun _ hm => hx.leads hm.leads

/-- Where a connection is refused, the failure may be told. -/
theorem covers_attempt_bind {h : Handle} {k : Except Failure Unit → Action σ α} (hok : v.Covers (k (.ok ())))
    (hrefused : ∀ f x, v.Discreet x → Call.connect h (.error f) ∈ x.line.calls →
      Ends (k (.error f)) x fun _ y => v.Discreet y) :
    v.Covers (catchingConnect (onLine (Line.connect h)) >>= k) := by
  intro x hx
  rw [ends_bind]
  refine Session.ends_attempt ?_ ?_ ?_
  · exact fun m hm => hok _ (hx.leads hm.leads)
  · exact fun f m _ hm => hrefused f _ (hx.leads hm.leads) (by rw [hm.calls_eq]; exact List.mem_cons_self)
  · exact fun f m _ hm => hx.leads hm.leads

/-- A reply that has come back may be quoted. -/
theorem covers_exchange_bind {h : Handle} {c : Command} {k : Reply → Action σ α}
    (hk : ∀ reply x, v.Discreet x → CameBack x.line.calls reply → Ends (k reply) x fun _ y => v.Discreet y) :
    v.Covers (onLine (Line.exchange h c) >>= k) := by
  intro x hx
  rw [ends_bind, ends_onLine]
  refine ends_exchange ?_
  intro calls r m hex hm
  cases r with
  | error f => exact hx.leads hm
  | ok reply =>
    refine hk reply _ (hx.leads hm) ((CameBack.of_exchange hex).mono ?_)
    rw [hm.calls_eq]
    exact List.subset_append_left _ _

theorem covers_invalidate (detail : ErrorDetail) : v.Covers (Session.invalidate detail : Action σ ErrorDetail) := by
  refine covers_session_bind fun s _ => ?_
  cases s.handle with
  | none => exact (covers_setPhase _).bind fun _ => covers_pure _
  | some h =>
    refine (covers_disconnect h).bind fun _ => (covers_setHandle none).bind fun _ => ?_
    exact (covers_setPhase _).bind fun _ => covers_pure _

/-- **Logging in writes the mask in place of the password**, and quotes the reply that rejects it. -/
theorem covers_authenticate : v.Covers (Session.authenticate : Action σ (Option ErrorDetail)) := by
  refine covers_held.bind fun h => covers_session_bind fun s hs => ?_
  have huser : s.loginName?.getD Session.defaultUsername = v.user := by
    simp only [Session.loginName?, user, hs.settings_eq]
  cases s.settings.password with
  | none => exact (covers_setPhase _).bind fun _ => covers_pure _
  | some password =>
    simp only [huser]
    refine (covers_log fun _ => .inl .login).bind fun _ => covers_exchange_bind fun reply x hx hreply => ?_
    by_cases hr : Session.rejects reply = true
    · rw [if_pos hr, ends_bind]
      refine hx.log (.inr ⟨_, reply, .login, hreply, rfl⟩) fun _ hy => ?_
      exact (covers_invalidate _).bind (fun _ => covers_pure _) _ hy
    · rw [if_neg hr]
      exact (covers_setPhase _).bind (fun _ => covers_pure _) x hx

theorem covers_reconnect : v.Covers (Session.reconnect : Action σ Bool) := by
  refine covers_held.bind fun h => (covers_disconnect h).bind fun _ => ?_
  refine covers_attempt_bind (covers_pure true) fun f x hx hcall => ?_
  rw [ends_bind]
  refine hx.log (.inl (.unreconnected hcall)) fun _ hy => ?_
  exact (covers_disconnect h).bind (fun _ => (covers_setHandle none).bind fun _ => covers_pure false) _ hy

theorem covers_connectNew :
    v.Covers (Session.connectNew v.session.endpoint.describe : Action σ (Option ErrorDetail)) := by
  refine covers_session_bind fun s hs => ?_
  rw [hs.endpoint_eq, hs.settings_eq]
  refine (covers_log fun _ => .inl .connecting).bind fun _ => (covers_create _).bind fun h => ?_
  refine covers_attempt_bind ?_ fun f x hx hcall => ?_
  · refine (covers_log fun _ => .inl .connected).bind fun _ => ?_
    exact (covers_setHandle _).bind fun _ => covers_authenticate
  · rw [ends_bind]
    refine hx.log (.inl (.unconnected hcall)) fun _ hy => ?_
    refine (covers_disconnect h).bind (fun _ => ?_) _ hy
    exact (covers_invalidate _).bind fun _ => covers_pure _

theorem covers_connect : v.Covers (Session.connect : Action σ (Option ErrorDetail)) := by
  refine covers_session_bind fun s hs => (covers_require _ _).bind fun _ => ?_
  rw [hs.endpoint_eq]
  refine covers_ite covers_connectNew ?_
  refine (covers_log fun _ => .inl .nowhere).bind fun _ => ?_
  exact (covers_invalidate _).bind fun _ => covers_pure _

theorem covers_ensureConnected : v.Covers (Session.ensureConnected : Action σ (Option ErrorDetail)) := by
  refine covers_session_bind fun s hs => ?_
  have hcontext : s.connectContext = v.session.connectContext := by
    simp only [Session.connectContext, hs.endpoint_eq]
  cases s.phase with
  | ready | invalid => exact covers_pure _
  | unconnected | connecting =>
    refine (covers_setPhase _).bind fun _ => Covers.within ?_ fun e he => .connecting (hcontext ▸ he)
    refine covers_ite (covers_reconnect.bind fun _ => ?_) covers_connect
    exact covers_ite covers_authenticate covers_connect

theorem covers_close : v.Covers (Session.close : Action σ Unit) := by
  refine covers_session_bind fun s _ => ?_
  cases s.handle with
  | none => exact covers_setPhase _
  | some h =>
    refine (covers_log fun _ => .inl .closing).bind fun _ => (covers_disconnect h).bind fun _ => ?_
    exact (covers_setHandle none).bind fun _ => covers_setPhase _

/-! ### Operations -/

variable {d : Digest}

theorem covers_issue_bind {c : Command} {k : Reply → Action σ α}
    (hk : ∀ reply x, v.Discreet x → CameBack x.line.calls reply → Ends (k reply) x fun _ y => v.Discreet y) :
    v.Covers (issue c >>= k) := by
  unfold issue
  simp only [bind_assoc]
  refine covers_readyHandle.bind fun h => covers_exchange_bind fun reply x hx hreply => ?_
  cases reply.tag with
  | null =>
    simp only [ends_bind, ends_pure]
    refine hx.markStale.mono ?_
    rintro _ y ⟨rfl, hy, hline⟩
    exact hk reply y hy (hline ▸ hreply)
  | _ => exact hk reply x hx hreply

/-- The reply to a command that was announced may be quoted. -/
theorem covers_announced_bind {c : Command} {key : String} (hkey : key ∈ v.keys)
    (hword : c.word.display ∈ ["GET", "SET", "EXISTS", "DEL"]) {k : Reply → Action σ α}
    (hk : ∀ reply x, v.Discreet x → CameBack x.line.calls reply → Ends (k reply) x fun _ y => v.Discreet y) :
    v.Covers (announced c key >>= k) := by
  unfold announced
  rw [bind_assoc]
  exact (covers_log fun _ => .inl (.command hword hkey)).bind fun _ => covers_issue_bind hk

theorem covers_set (hkey : d.key ∈ v.keys) (value : Bytes) : v.Covers (set d value : Action σ (Outcome Bool)) := by
  refine covers_announced_bind hkey (by simp [Command.set, Command.ofWord, Argument.display])
    fun reply x hx hreply => ?_
  cases reply.tag with
  | status b => exact hx
  | _ => exact hx.failed hkey (by simp) hreply

theorem covers_setIfMissing (hkey : d.key ∈ v.keys) (value : Bytes) :
    v.Covers (setIfMissing d value : Action σ (Outcome Bool)) := by
  refine covers_announced_bind hkey (by simp [Command.exists?, Command.ofWord, Argument.display])
    fun reply x hx hreply => ?_
  cases reply.tag with
  | integer n => exact covers_ite (covers_pure _) (covers_set hkey value) x hx
  | null => exact hx.failed hkey (by simp) hreply
  | _ =>
    have hfront : v.Introduces ("Failed to " ++ "check" ++ " " ++ d.key ++ " in redis: ") := .command (by simp) hkey
    rw [ends_bind]
    exact hx.log (.inr ⟨_, reply, hfront, hreply, rfl⟩) fun _ hy => covers_set hkey value _ hy

theorem covers_operation {name key : String} (hkey : key ∈ v.keys) (hname : name ∈ ["get", "put", "remove"])
    {commands : Action σ (Outcome α)} (hcommands : v.Covers commands) :
    v.Covers (operation name key commands) := by
  refine covers_ensureConnected.bind fun detail => ?_
  cases detail with
  | none => exact hcommands.within fun e he => .operating hname hkey he
  | some detail => exact covers_pure _

/-- **An operation leads from a discreet scene to a discreet one.** -/
theorem covers_act (op : Operation) (hkeys : ∀ d, op.digest? = some d → d.key ∈ v.keys) :
    v.Covers (op.act : Action σ (Outcome op.Value)) := by
  cases op with
  | get d =>
    have hkey : d.key ∈ v.keys := hkeys d rfl
    refine covers_operation hkey (by simp) (covers_announced_bind hkey ?_ fun reply x hx hreply => ?_)
    · simp [Command.get, Command.ofWord, Argument.display]
    · cases reply.tag with
      | string _ => exact hx
      | nil => exact hx
      | _ => exact hx.failed hkey (by simp) hreply
  | put d value onlyIfMissing =>
    have hkey : d.key ∈ v.keys := hkeys d rfl
    exact covers_operation hkey (by simp) (covers_ite (covers_setIfMissing hkey value) (covers_set hkey value))
  | remove d =>
    have hkey : d.key ∈ v.keys := hkeys d rfl
    refine covers_operation hkey (by simp) (covers_announced_bind hkey ?_ fun reply x hx hreply => ?_)
    · simp [Command.del, Command.ofWord, Argument.display]
    · cases reply.tag with
      | integer _ => exact hx
      | _ => exact hx.failed hkey (by simp) hreply
  | close => exact covers_close.bind fun _ => covers_pure _

end Vocabulary

/-! ## Runs -/

variable {σ : Type} [Peer σ] {changes : σ → σ → Prop} {x y : Scene σ} {attempts : List Attempt}

/-- What a store can talk about in a run from a scene. -/
def Vocabulary.of (x : Scene σ) (attempts : List Attempt) : Vocabulary where
  session := x.session
  outer := x.logging.context
  keys := attempts.filterMap fun a => a.op.digest?.map Digest.key

/-- **All records of a run are in the words of the store.** -/
theorem Run.discreet (hrun : Run changes x attempts y) (hx : v.Discreet x)
    (hkeys : ∀ a ∈ attempts, ∀ d, a.op.digest? = some d → d.key ∈ v.keys) : v.Discreet y := by
  induction hrun with
  | start => exact hx
  | change peer _ _ ih => exact ⟨(ih hkeys).continues, (ih hkeys).context, (ih hkeys).records⟩
  | operate op _ ih =>
    have hy := ih fun a ha => hkeys a (List.mem_cons_of_mem _ ha)
    exact Vocabulary.covers_act op (hkeys _ List.mem_cons_self) _ hy

/-- A password is in nothing that a store writes on its own. -/
structure Vocabulary.Conceals (v : Vocabulary) (calls : List Call) (password : String) : Prop where
  lines : ∀ line, v.Says calls line → ¬ Occurs password line
  texts : ∀ text, v.Binds text → ¬ Occurs password text

/-! ## Passwords that are words -/

/-- The characters between the parts of a log line. -/
def seams : List Char := [' ', '=', '(', ')']

def startsInSeam (text : String) : Bool := text.toList.head?.any (· ∈ seams)

def endsInSeam (text : String) : Bool := text.toList.getLast?.any (· ∈ seams)

theorem endsInSeam_append (a : String) {b : String} (hb : endsInSeam b = true) : endsInSeam (a ++ b) = true := by
  unfold endsInSeam at hb ⊢
  rw [String.toList_append, List.getLast?_append]
  cases hlast : b.toList.getLast? with
  | none => simp [hlast] at hb
  | some c => simpa [hlast] using hb

/-- What contains no seam and stands in front of one ends before it. -/
theorem prefix_of_seam {p a b : List Char} {c : Char} (hc : c ∉ p) (h : p <+: a ++ c :: b) : p <+: a := by
  induction a generalizing p with
  | nil =>
    rcases List.prefix_cons_iff.1 h with rfl | ⟨p', rfl, -⟩
    · exact List.nil_prefix
    · exact absurd List.mem_cons_self hc
  | cons x a ih =>
    rcases List.prefix_cons_iff.1 h with rfl | ⟨p', rfl, hp'⟩
    · exact List.nil_prefix
    · exact List.prefix_cons_iff.2 (.inr ⟨p', rfl, ih (mt (List.mem_cons_of_mem x) hc) hp'⟩)

/-- What contains no seam and occurs around one occurs on one side of it. -/
theorem infix_of_seam {p a b : List Char} {c : Char} (hc : c ∉ p) (h : p <:+: a ++ c :: b) :
    p <:+: a ∨ p <:+: b := by
  induction a with
  | nil =>
    rcases List.infix_cons_iff.1 h with hprefix | hb
    · exact .inl (prefix_of_seam (a := []) hc hprefix).isInfix
    · exact .inr hb
  | cons x a ih =>
    rcases List.infix_cons_iff.1 h with hprefix | hrest
    · exact .inl (prefix_of_seam (a := x :: a) hc hprefix).isInfix
    · exact (ih hrest).imp List.infix_cons id

section

variable {p a b : String}

theorem not_occurs_before (hp : ∀ c ∈ seams, c ∉ p.toList) (ha : ¬ Occurs p a) (hend : endsInSeam a = true)
    (hb : ¬ Occurs p b) : ¬ Occurs p (a ++ b) := by
  intro h
  obtain ⟨c, hlast, hc⟩ := (Option.any_eq_true _ _).1 hend
  obtain ⟨front, hfront⟩ := List.getLast?_eq_some_iff.1 hlast
  rw [Occurs, String.toList_append, hfront, List.append_assoc] at h
  rcases infix_of_seam (hp c (by simpa using hc)) h with hin | hin
  · apply ha
    rw [Occurs, hfront]
    exact hin.trans (List.prefix_append _ _).isInfix
  · exact hb hin

theorem not_occurs_behind (hp : ∀ c ∈ seams, c ∉ p.toList) (ha : ¬ Occurs p a) (hb : ¬ Occurs p b)
    (hstart : startsInSeam b = true) : ¬ Occurs p (a ++ b) := by
  intro h
  obtain ⟨c, hhead, hc⟩ := (Option.any_eq_true _ _).1 hstart
  obtain ⟨rest, hrest⟩ := List.head?_eq_some_iff.1 hhead
  rw [Occurs, String.toList_append, hrest] at h
  rcases infix_of_seam (hp c (by simpa using hc)) h with hin | hin
  · exact ha hin
  · apply hb
    rw [Occurs, hrest]
    exact hin.trans (List.suffix_cons _ _).isInfix

end

namespace Vocabulary

/-- The fixed texts in the lines and contexts of a store. -/
def fixed : List String := [
  "Redis connecting to ", " (timeout ", " ms)", "Redis connection to ", " OK", "Redis connection error: ",
  "Redis reconnection error: ", "Invalid Redis URL: ", "Redis AUTH ", " ", Session.mask,
  "Redis connection lost: endpoint=", "Redis disconnect", "Redis ", "GET", "SET", "EXISTS", "DEL",
  "Failed to auth ", "Failed to ", " in redis: ", "get", "set", "check", "del", "put", "remove", "redis",
  "ERROR_REPLY", "UNEXPECTED_REPLY", "OPERATION_TIMEOUT", "CONNECTION_FAILED"]

/-- A password without seams is in no part of what a store writes on its own. -/
structure Lacks (v : Vocabulary) (calls : List Call) (password : String) : Prop where
  word : ∀ c ∈ seams, c ∉ password.toList
  fixed : ∀ text ∈ fixed, ¬ Occurs password text
  url : ¬ Occurs password v.session.endpoint.url
  place : ¬ Occurs password v.session.endpoint.describe
  timeout : ¬ Occurs password (toString v.session.settings.connectTimeoutMs)
  user : ¬ Occurs password v.user
  keys : ∀ key ∈ v.keys, ¬ Occurs password key
  outer : ∀ e ∈ v.outer, ¬ Occurs password e.2
  failures : ∀ h f, Call.connect h (.error f) ∈ calls → ¬ Occurs password f.text

variable {calls : List Call} {password : String}

theorem code_name_mem_fixed (reply : Reply) : (ErrorDetail.ofReply reply).code.name ∈ Vocabulary.fixed := by
  obtain ⟨tag, failure⟩ := reply
  cases tag with
  | null =>
    simp only [ErrorDetail.ofReply]
    split <;> simp [ErrorDetail.timeout, ErrorDetail.error, Code.name, fixed]
  | _ => simp [ErrorDetail.ofReply, ErrorDetail.error, Code.name, fixed]

/-- **A word that is in no part of a store's lines is in none of them.** -/
theorem Lacks.conceals (hv : v.Lacks calls password) : v.Conceals calls password where
  lines := by
    intro line hsays
    cases hsays with
    | connecting =>
      have hplace := not_occurs_before hv.word (hv.fixed "Redis connecting to " (by decide)) rfl hv.place
      have htimeout := not_occurs_behind hv.word hplace (hv.fixed " (timeout " (by decide)) rfl
      have hms := not_occurs_before hv.word htimeout (endsInSeam_append _ rfl) hv.timeout
      exact not_occurs_behind hv.word hms (hv.fixed " ms)" (by decide)) rfl
    | connected =>
      have hplace := not_occurs_before hv.word (hv.fixed "Redis connection to " (by decide)) rfl hv.place
      exact not_occurs_behind hv.word hplace (hv.fixed " OK" (by decide)) rfl
    | unconnected hcall => exact not_occurs_before hv.word (hv.fixed _ (by decide)) rfl (hv.failures _ _ hcall)
    | unreconnected hcall => exact not_occurs_before hv.word (hv.fixed _ (by decide)) rfl (hv.failures _ _ hcall)
    | nowhere => exact not_occurs_before hv.word (hv.fixed _ (by decide)) rfl hv.url
    | login =>
      have huser := not_occurs_before hv.word (hv.fixed "Redis AUTH " (by decide)) rfl hv.user
      have hblank := not_occurs_behind hv.word huser (hv.fixed " " (by decide)) rfl
      exact not_occurs_before hv.word hblank (endsInSeam_append _ rfl) (hv.fixed _ (by decide))
    | lost => exact not_occurs_before hv.word (hv.fixed _ (by decide)) rfl hv.place
    | closing => exact hv.fixed _ (by decide)
    | @command word key hword hkey =>
      have hwords : ∀ word ∈ ["GET", "SET", "EXISTS", "DEL"], word ∈ Vocabulary.fixed := by decide
      have hcommand := not_occurs_before hv.word (hv.fixed "Redis " (by decide)) rfl (hv.fixed _ (hwords word hword))
      have hblank := not_occurs_behind hv.word hcommand (hv.fixed " " (by decide)) rfl
      exact not_occurs_before hv.word hblank (endsInSeam_append _ rfl) (hv.keys key hkey)
  texts := by
    intro text hbinds
    cases hbinds with
    | outer hmem => exact hv.outer _ hmem
    | connecting hmem =>
      simp only [Session.connectContext, List.mem_cons, Prod.mk.injEq, List.not_mem_nil, or_false] at hmem
      rcases hmem with ⟨-, rfl⟩ | ⟨-, rfl⟩
      · exact hv.fixed _ (by decide)
      · split
        · exact hv.url
        · exact hv.place
    | @operating operation _ _ _ hoperation hkey hmem =>
      have hoperations : ∀ name ∈ ["get", "put", "remove"], name ∈ Vocabulary.fixed := by decide
      simp only [operationContext, List.mem_cons, Prod.mk.injEq, List.not_mem_nil, or_false] at hmem
      rcases hmem with ⟨-, rfl⟩ | ⟨-, rfl⟩ | ⟨-, rfl⟩
      · exact hv.fixed _ (by decide)
      · exact hv.fixed _ (hoperations _ hoperation)
      · exact hv.keys _ hkey
    | failed reply => exact hv.fixed _ (code_name_mem_fixed reply)

/-- Behind an introduction a word only occurs in what is quoted. -/
theorem Lacks.quotes (hv : v.Lacks calls password) {front text : String} (hfront : v.Introduces front)
    (htext : ¬ Occurs password text) : ¬ Occurs password (front ++ text) := by
  cases hfront with
  | login =>
    have huser := not_occurs_before hv.word (hv.fixed "Failed to auth " (by decide)) rfl hv.user
    have hredis := not_occurs_behind hv.word huser (hv.fixed " in redis: " (by decide)) rfl
    exact not_occurs_before hv.word hredis (endsInSeam_append _ rfl) htext
  | @command action key haction hkey =>
    have hactions : ∀ action ∈ ["get", "set", "check", "del"], action ∈ Vocabulary.fixed := by decide
    have hfailed :=
      not_occurs_before hv.word (hv.fixed "Failed to " (by decide)) rfl (hv.fixed _ (hactions action haction))
    have hblank := not_occurs_behind hv.word hfailed (hv.fixed " " (by decide)) rfl
    have hkeys := not_occurs_before hv.word hblank (endsInSeam_append _ rfl) (hv.keys key hkey)
    have hredis := not_occurs_behind hv.word hkeys (hv.fixed " in redis: " (by decide)) rfl
    exact not_occurs_before hv.word hredis (endsInSeam_append _ rfl) htext

end Vocabulary

/-- **A password that is in none of a store's own words gets into its log by quotations only**, and not at all if no
quotation of a reply that has come back contains it. -/
theorem password_hidden {endpoint : Endpoint} {settings : BackendSettings} {password : String} {peer : σ}
    {logging : Logging.State}
    (hrun : Run (fun _ _ => True) (Scene.fresh endpoint { settings with password := some password } peer logging)
      attempts x) :
    let v := Vocabulary.of (Scene.fresh endpoint { settings with password := some password } peer logging) attempts
    v.Conceals x.line.calls password →
    (∀ record ∈ x.records, (∀ e ∈ record.context, ¬ Occurs password e.2) ∧
      (Occurs password record.entry.message → ∃ front reply, v.Introduces front ∧ CameBack x.line.calls reply ∧
        record.entry.message = front ++ reply.describe)) ∧
    ((∀ front reply, v.Introduces front → CameBack x.line.calls reply →
        ¬ Occurs password (front ++ reply.describe)) →
      ∀ record ∈ x.records, ¬ Occurs password record.entry.message ∧
        ∀ e ∈ record.context, ¬ Occurs password e.2) := by
  intro v hown
  have hx : v.Discreet x := by
    refine hrun.discreet ⟨.refl _, fun e he => .outer he, by simp [Scene.fresh]⟩ ?_
    intro a ha d hd
    exact List.mem_filterMap.2 ⟨a, ha, by rw [hd]; rfl⟩
  have hwords : ∀ record ∈ x.records, (∀ e ∈ record.context, ¬ Occurs password e.2) ∧
      (Occurs password record.entry.message → ∃ front reply, v.Introduces front ∧ CameBack x.line.calls reply ∧
        record.entry.message = front ++ reply.describe) := by
    intro record hrecord
    obtain ⟨hmessage, hcontext⟩ := hx.records record hrecord
    refine ⟨fun e he => hown.texts e.2 (hcontext e he), fun hoccurs => ?_⟩
    rcases hmessage with hsays | hquotes
    · exact absurd hoccurs (hown.lines _ hsays)
    · exact hquotes
  refine ⟨hwords, fun hquoted record hrecord => ⟨?_, (hwords record hrecord).1⟩⟩
  intro hoccurs
  obtain ⟨front, reply, hfront, hreply, heq⟩ := (hwords record hrecord).2 hoccurs
  rw [heq] at hoccurs
  exact hquoted front reply hfront hreply hoccurs

/-- `hunter2` is a word that is in no part of what a store on this host writes when it reads a certain artifact. -/
theorem lacks_on_host {calls : List Call} (hcalls : ∀ h f, Call.connect h (.error f) ∉ calls) :
    Vocabulary.Lacks {
      session := (Scene.onHost ({} : Steady) (some "hunter2")).session
      outer := []
      keys := [Digest.key ⟨List.replicate 20 0, rfl⟩] } calls "hunter2" where
  word := by simp [seams]
  fixed := by decide +kernel
  url := by decide +kernel
  place := by decide +kernel
  timeout := by decide +kernel
  user := by decide +kernel
  keys := by decide +kernel
  outer := by decide
  failures h f hcall := absurd hcall (hcalls h f)

/-- A login that is rejected politely shows the password in none of its four log records. -/
theorem password_hidden_when_rejected :
    let wrong : Failure := .store .response "WRONGPASS invalid username-password pair"
    let host := (Scene.onHost ({} : Steady)).session
    let loud : Logging.State := { level := .debug, sinks := [⟨.debug, .json⟩] }
    let store : Scene Steady :=
      Scene.fresh host.endpoint { host.settings with password := some "hunter2" } { receiving := .error wrong } loud
    let x := (Operation.perform (.get ⟨List.replicate 20 0, rfl⟩) store).2
    x.records.length = 4 ∧ ∀ record ∈ x.records, ¬ Occurs "hunter2" record.entry.message ∧
      ∀ e ∈ record.context, ¬ Occurs "hunter2" e.2 := by
  intro wrong host loud store x
  have hx : Run (fun _ _ => True) store [⟨.get ⟨List.replicate 20 0, rfl⟩, _⟩] x := .operate _ .start
  have hcalls : x.line.calls = [.disconnect 0, .receive 0 (.error wrong), .send 0 (.auth none "hunter2") (.ok ()),
    .connect 0 (.ok ()), .create 0 (.of host.endpoint host.settings)] := rfl
  have hlacks := lacks_on_host (show ∀ h f, Call.connect h (.error f) ∉ x.line.calls by simp [hcalls])
  refine ⟨rfl, (password_hidden hx hlacks.conceals).2 fun front reply hfront hreply => hlacks.quotes hfront ?_⟩
  rw [hcalls] at hreply
  cases hreply with
  | send hcall => simp at hcall
  | receive hcall hreply =>
    simp only [List.mem_cons, reduceCtorEq, Call.receive.injEq, List.not_mem_nil, or_false, false_or] at hcall
    obtain ⟨-, rfl⟩ := hcall
    cases hreply
    decide +kernel

/-- A store that repeats the rejected login in its error text has the password written to the log. -/
theorem password_quoted_when_repeated :
    let repeated : Failure := .store .response "unknown command 'AUTH', with args beginning with: 'hunter2' "
    let host := (Scene.onHost ({} : Steady)).session
    let loud : Logging.State := { level := .debug, sinks := [⟨.debug, .json⟩] }
    let store : Scene Steady :=
      Scene.fresh host.endpoint { host.settings with password := some "hunter2" } { receiving := .error repeated } loud
    let get := Operation.perform (.get ⟨List.replicate 20 0, rfl⟩) store
    (Vocabulary.of store [⟨.get ⟨List.replicate 20 0, rfl⟩, get.1⟩]).Conceals get.2.line.calls "hunter2" ∧
      ∃ record ∈ get.2.records, Occurs "hunter2" record.entry.message := by
  intro repeated host loud store get
  have hcalls : get.2.line.calls = [.disconnect 0, .receive 0 (.error repeated),
    .send 0 (.auth none "hunter2") (.ok ()), .connect 0 (.ok ()), .create 0 (.of host.endpoint host.settings)] := rfl
  have hlacks := lacks_on_host (show ∀ h f, Call.connect h (.error f) ∉ get.2.line.calls by simp [hcalls])
  have hmessage : "Failed to auth default in redis: " ++ repeated.text ∈ get.2.records.map (·.entry.message) :=
    List.mem_cons_self
  obtain ⟨record, hrecord, heq⟩ := List.mem_map.1 hmessage
  refine ⟨hlacks.conceals, record, hrecord, ?_⟩
  rw [heq]
  decide +kernel

end RemoteCache.Storage
