import RemoteCache.Proofs.Histories
import RemoteCache.Proofs.Reply
import RemoteCache.Proofs.Storage.Runs

/-!
# Data commands come after the login

**Theorem (`data_is_admitted`).** Whatever the peer does in a run from a fresh scene, whenever a data command is sent
on a handle, then this handle was connected successfully before and not touched since. If there is a password, then
the first thing sent since is the login, it was accepted, and no other login was sent. If a command before was not
answered at all, then the handle has been disconnected and connected since. Without a password no login is ever sent.

The proof looks at the calls of a run from the latest to the first. `Clear b h calls` says that after these calls a
data command may be sent on `h`, and `Orderly b calls` that every data command was sent on a clear handle. The
invariant `Guarded` has the calls orderly, and the handle of a ready session clear:

* a session becomes ready by logging in only, on a handle that was connected just before (`readying_guarded`);
* a command that is not answered leaves the session stale, and one that is answered leaves the handle clear
  (`Issuing.guarded`).

A handle is connected right after it is disconnected or created, and a handle that is created has no calls yet. So
a call before the last connection is also before the disconnection in front of it (`Clear.recovered`).
-/

namespace RemoteCache

/-- The login with a password: a user name comes first unless it is empty. -/
def BackendSettings.login (b : BackendSettings) (password : String) : Command :=
  match b.username with
  | none => .ofWord "AUTH" [.text password]
  | some name =>
    if name = "" then .ofWord "AUTH" [.text password] else .ofWord "AUTH" [.text name, .text password]

theorem Session.auth_eq_login (s : Session) (password : String) :
    Command.auth s.loginName? password = s.settings.login password := by
  unfold loginName? BackendSettings.login
  cases s.settings.username with
  | none => rfl
  | some name =>
    by_cases hname : name = ""
    · subst hname
      rfl
    · simp [hname, Command.auth]

/-- There was no reply to a command on `h`. -/
inductive Call.Lost (h : Handle) : Call → Prop
  | send {c : Command} {f : Failure} {reply : Reply} : Reply.ofExchange c.name (.error f) = .ok reply →
      reply.tag = .null → Lost h (.send h c (.error f))
  | receive {name : String} {r : Except Failure Answer} {reply : Reply} : Reply.ofExchange name r = .ok reply →
      reply.tag = .null → Lost h (.receive h r)

theorem Line.Exchange.not_lost {h : Handle} {c : Command} {calls : List Call} {r : Except Failure Reply}
    (hex : Exchange h c calls r) (hr : ∀ reply, r = .ok reply → reply.tag ≠ .null) :
    ∀ call ∈ calls, ¬ call.Lost h := by
  cases hex with
  | unsent f =>
    intro call hcall hlost
    rw [List.mem_singleton] at hcall
    subst hcall
    cases hlost with
    | send hreply hnull => exact hr _ hreply hnull
  | answered r =>
    intro call hcall hlost
    rcases hcall with _ | ⟨_, _ | ⟨_, ⟨⟩⟩⟩
    · cases hlost with
      | receive hreply hnull => exact hr _ (Reply.ofExchange_of_null hreply hnull c.name) hnull
    · cases hlost

namespace Storage

open Line

variable {b : BackendSettings} {h : Handle} {c : Command} {calls before : List Call}

/-! ## Clear handles -/

/-- What the answer to an accepted login means. -/
def Accepted (a : Answer) : Prop :=
  (Reply.ofAnswer "AUTH" a).tag ≠ .null ∧ ∀ content, (Reply.ofAnswer "AUTH" a).tag ≠ .error content

/-- The calls since a handle was connected, the latest first: they have not connected or disconnected it, and start
with an accepted login if there is a password. -/
structure Admitted (b : BackendSettings) (h : Handle) (since : List Call) : Prop where
  undisturbed : ∀ call ∈ since, call.handle = h → call.isConnect = false ∧ call.isDisconnect = false
  loggedIn : ∀ password, b.password = some password → ∃ later a,
    since = later ++ [.receive h (.ok a), .send h (b.login password) (.ok ())] ∧ Accepted a ∧
      Sends (·.isAuth = false) later

/-- The calls before a handle is connected: it was disconnected or created just before. -/
inductive Begun (h : Handle) : List Call → Prop
  | disconnected {older : List Call} : Begun h (.disconnect h :: older)
  | created {options : ConnectionOptions} {older : List Call} : (∀ call ∈ older, call.handle ≠ h) →
      Begun h (.create h options :: older)

/-- After these calls a data command may be sent on the handle. -/
def Clear (b : BackendSettings) (h : Handle) (calls : List Call) : Prop :=
  ∃ since older, calls = since ++ .connect h (.ok ()) :: older ∧ Begun h older ∧ Admitted b h since ∧
    ∀ call ∈ since, ¬ call.Lost h

/-- A command that is no login and gets a reply leaves a handle clear. -/
theorem Clear.exchange {r : Except Failure Reply} (hclear : Clear b h before) (hex : Exchange h c calls r)
    (hc : c.isAuth = false) (hr : ∀ reply, r = .ok reply → reply.tag ≠ .null) : Clear b h (calls ++ before) := by
  obtain ⟨since, older, rfl, hbegun, hadmitted, hfound⟩ := hclear
  refine ⟨calls ++ since, older, by simp, hbegun, ⟨?_, ?_⟩, ?_⟩
  · intro call hcall
    rcases List.mem_append.1 hcall with hcall | hcall
    · exact fun _ => hex.undisturbed call hcall
    · exact hadmitted.undisturbed call hcall
  · intro password hpassword
    obtain ⟨later, a, rfl, haccepted, hlater⟩ := hadmitted.loggedIn password hpassword
    refine ⟨calls ++ later, a, by simp, haccepted, ?_⟩
    rw [sends_append]
    exact ⟨hex.sends.mono fun _ heq => heq ▸ hc, hlater⟩
  · intro call hcall
    rcases List.mem_append.1 hcall with hcall | hcall
    · exact hex.not_lost hr call hcall
    · exact hfound call hcall

/-- A call that got no reply is before the last time that a clear handle was disconnected and connected. -/
theorem Clear.recovered (hclear : Clear b h calls) {newer older : List Call} {call : Call}
    (hcalls : calls = newer ++ call :: older) (hlost : call.Lost h) :
    ∃ later earlier, newer = later ++ .connect h (.ok ()) :: .disconnect h :: earlier := by
  obtain ⟨since, before, rfl, hbegun, -, hfound⟩ := hclear
  rcases entry_cases hcalls with hmem | rfl | ⟨between, rfl, hbetween⟩
  · exact absurd hlost (hfound call hmem)
  · cases hlost
  refine ⟨since, ?_⟩
  cases hbegun with
  | disconnected =>
    rcases List.cons_eq_append_iff.1 hbetween with ⟨rfl, heq⟩ | ⟨earlier, rfl, -⟩
    · cases heq
      cases hlost
    · exact ⟨earlier, rfl⟩
  | created hnone =>
    have hhandle : call.handle = h := by cases hlost <;> rfl
    rcases List.cons_eq_append_iff.1 hbetween with ⟨rfl, heq⟩ | ⟨_, rfl, rfl⟩
    · cases heq
      cases hlost
    · exact absurd hhandle (hnone call (by simp))

/-! ## Orderly calls -/

/-- Every data command is sent on a clear handle. -/
def Orderly (b : BackendSettings) : List Call → Prop :=
  Throughout fun call before => ∀ h c r, call = .send h c r → c.isData = true → Clear b h before

/-- Calls that send no data command keep the calls orderly. -/
theorem Orderly.append (hbefore : Orderly b before) (hcalls : Sends (·.isData = false) calls) :
    Orderly b (calls ++ before) := by
  refine (throughout_append ?_).2 hbefore
  intro call hcall _
  rintro h c r rfl hdata
  rw [hcalls _ hcall c rfl] at hdata
  cases hdata

/-- A command on a clear handle keeps the calls orderly. -/
theorem Orderly.exchange {r : Except Failure Reply} (hbefore : Orderly b before) (hclear : Clear b h before)
    (hex : Exchange h c calls r) : Orderly b (calls ++ before) := by
  cases hex with
  | unsent f =>
    refine ⟨?_, hbefore⟩
    rintro _ _ _ ⟨⟩ _
    exact hclear
  | answered r =>
    refine ⟨?_, ?_, hbefore⟩
    · rintro _ _ _ ⟨⟩
    · rintro _ _ _ ⟨⟩ _
      exact hclear

/-! ## The invariant -/

variable {s t : Session} {op : Operation} {n : Handle}

/-- The calls are orderly, and the handle of a ready session is clear. -/
structure Guarded (b : BackendSettings) (s : Session) (calls : List Call) : Prop where
  orderly : Orderly b calls
  ready : s.phase = .ready → ∃ h, s.handle = some h ∧ Clear b h calls

theorem Issuing.guarded {r : Except Failure Reply} (hs : Guarded b s before) (hc : c.isData = true)
    (hi : Issuing s c calls r t) : Guarded b t (calls ++ before) := by
  have hclear {h : Handle} (hready : s.phase = .ready) (hh : s.handle = some h) : Clear b h before := by
    obtain ⟨k, hk, hclear⟩ := hs.ready hready
    rw [hh, Option.some.injEq] at hk
    exact hk ▸ hclear
  cases hi with
  | idle => exact hs
  | answered hready hh hex hfound =>
    refine ⟨hs.orderly.exchange (hclear hready hh) hex, fun _ => ⟨_, hh, ?_⟩⟩
    exact (hclear hready hh).exchange hex (Command.not_isAuth_of_isData hc) (by simpa using hfound)
  | lost hready hh hex => exact ⟨hs.orderly.exchange (hclear hready hh) hex, fun hstale => by cases hstale⟩
  | interrupted hready hh hex =>
    refine ⟨hs.orderly.exchange (hclear hready hh) hex, fun _ => ⟨_, hh, ?_⟩⟩
    exact (hclear hready hh).exchange hex (Command.not_isAuth_of_isData hc) (by simp)

theorem Serving.guarded {r : op.Result} (hs : Guarded b s before) (hserve : Serving s op calls r t) :
    Guarded b t (calls ++ before) := by
  cases hserve with
  | get hi | remove hi | put hi | unasked hi | unanswered hi | kept hi => exact hi.guarded hs (by simp)
  | written hi _ hi' =>
    rw [List.append_assoc]
    exact hi'.guarded (hi.guarded hs (by simp)) (by simp)

/-! ## Becoming ready -/

/-- A login that is accepted leaves a handle clear that was connected just before. -/
theorem clear_of_login {r : Session.Answered} (hl : Session.Login s h calls r t) (hh : s.handle = some h)
    (hphase : s.phase ≠ .ready) (hready : t.phase = .ready) {older : List Call} (hbegun : Begun h older) :
    ∃ k, t.handle = some k ∧ Clear s.settings k (calls ++ .connect h (.ok ()) :: older) := by
  cases hl with
  | needless hp => exact ⟨h, hh, [], older, rfl, hbegun, ⟨by simp, by simp [hp]⟩, by simp⟩
  | @accepted password _ reply hp hex hr =>
    have hnull : reply.tag ≠ .null := by
      intro hnull
      simp [Session.rejects, hnull] at hr
    have hfound : ∀ call ∈ calls, ¬ call.Lost h := hex.not_lost (by simpa using hnull)
    refine ⟨h, hh, calls, older, rfl, hbegun, ⟨fun call hcall _ => hex.undisturbed call hcall, ?_⟩, hfound⟩
    intro other hother
    obtain rfl : password = other := by simpa [hp] using hother
    obtain ⟨a, rfl, rfl⟩ := Session.answer_of_accepted hex hr
    rw [Command.name_auth] at hr hnull
    refine ⟨[], a, ?_, ⟨hnull, fun content herror => ?_⟩, sends_nil _⟩
    · rw [Session.auth_eq_login]
      rfl
    · simp [Session.rejects, herror] at hr
  | rejected => cases hready
  | interrupted => exact absurd hready hphase

theorem clear_of_opening {r : Session.Answered} (ho : Session.Opening s n calls r t) (hphase : s.phase = .connecting)
    (hready : t.phase = .ready) (hbefore : ∀ call ∈ before, call.handle ≠ n) :
    ∃ k, t.handle = some k ∧ Clear s.settings k (calls ++ before) := by
  cases ho with
  | unsupported | interrupted =>
    rw [hphase] at hready
    cases hready
  | nowhere | refused => cases hready
  | opened _ hl =>
    rw [List.append_assoc]
    exact clear_of_login hl rfl (by simp [hphase]) hready (.created hbefore)

/-- **A session becomes ready on a clear handle only.** -/
theorem readying_guarded {r : Session.Answered} (hr : Session.Readying s n calls r t)
    (hs : Guarded s.settings s before) (hbefore : ∀ call ∈ before, call.handle < n)
    (hheld : ∀ k, s.handle = some k → k < n) : Guarded s.settings t (calls ++ before) := by
  refine ⟨hs.orderly.append hr.sends_no_data, ?_⟩
  intro hready
  have hnew : ∀ call ∈ before, call.handle ≠ n := fun call hcall => Nat.ne_of_lt (hbefore call hcall)
  cases hr with
  | ready => exact hs.ready hready
  | invalid hphase =>
    rw [hphase] at hready
    cases hready
  | fresh _ _ _ ho =>
    obtain ⟨k, hk, hclear⟩ := clear_of_opening ho rfl hready hnew
    exact ⟨k, hk, hclear⟩
  | reopened _ _ hh hl =>
    rw [List.append_assoc]
    obtain ⟨k, hk, hclear⟩ := clear_of_login hl hh (by simp) hready .disconnected
    exact ⟨k, hk, hclear⟩
  | @replaced h f _ _ _ _ _ hh _ ho =>
    have hne : h ≠ n := Nat.ne_of_lt (hheld h hh)
    have hreplaced : ∀ call ∈ [.disconnect h, .connect h (.error f), .disconnect h] ++ before, call.handle ≠ n := by
      simpa [Call.handle, hne] using hnew
    rw [List.append_assoc]
    obtain ⟨k, hk, hclear⟩ := clear_of_opening ho rfl hready hreplaced
    exact ⟨k, hk, hclear⟩
  | interrupted => cases hready

theorem Operating.guarded {r : op.Result} (ho : Operating s n op calls r t) (hs : Guarded s.settings s before)
    (hbefore : ∀ call ∈ before, call.handle < n) (hheld : ∀ k, s.handle = some k → k < n) :
    Guarded s.settings t (calls ++ before) := by
  cases ho with
  | closed hc =>
    refine ⟨hs.orderly.append (hc.sends _), ?_⟩
    intro hready
    rw [hc.closed.1] at hready
    cases hready
  | interrupted _ hr | unready _ hr => exact readying_guarded hr hs hbefore hheld
  | served hr hserve =>
    rw [List.append_assoc]
    exact hserve.guarded (readying_guarded hr hs hbefore hheld)

/-! ## Commands of a run -/

/-- The only login that a store sends is that of its settings. -/
theorem everyCommand_isLogin (s : Session) : EveryCommand s fun c => c.isAuth = true → s.IsLogin c where
  login _ hlogin _ := hlogin
  get _ hauth := by simp [Command.not_isAuth_of_isData] at hauth
  set _ _ hauth := by simp [Command.not_isAuth_of_isData] at hauth
  exists? _ hauth := by simp [Command.not_isAuth_of_isData] at hauth
  del _ hauth := by simp [Command.not_isAuth_of_isData] at hauth

variable {σ : Type} [Peer σ] {changes : σ → σ → Prop} {x y : Scene σ} {attempts : List Attempt}

theorem Run.guarded (hrun : Run changes x attempts y) (hnumbered : Run.Numbered x)
    (hx : Guarded x.session.settings x.session x.line.calls) :
    Guarded x.session.settings y.session y.line.calls := by
  induction hrun with
  | start => exact hx
  | change _ _ _ ih => exact ih
  | @operate _ y op hrun ih =>
    obtain ⟨calls, hcourse, hcalls⟩ := op.course y
    have hy := hrun.numbered hnumbered
    rw [← hrun.continues.settings_eq] at ih ⊢
    rw [hcalls.calls_eq]
    exact hcourse.guarded ih hy.calls_lt hy.handle_lt

/-- **Data commands are sent on a connected handle and behind an accepted login**, whatever the peer does. -/
theorem data_is_admitted {endpoint : Endpoint} {settings : BackendSettings} {peer : σ} {logging : Logging.State}
    (hrun : Run (fun _ _ => True) (Scene.fresh endpoint settings peer logging) attempts x) :
    (∀ after before h c r, x.line.calls = after ++ .send h c r :: before → c.isData = true →
      (∃ since older, before = since ++ .connect h (.ok ()) :: older ∧ Admitted settings h since) ∧
      ∀ newer lost older, before = newer ++ lost :: older → lost.Lost h →
        ∃ later earlier, newer = later ++ .connect h (.ok ()) :: .disconnect h :: earlier) ∧
    (settings.password = none → Sends (·.isAuth = false) x.line.calls) := by
  have hnumbered : Run.Numbered (Scene.fresh endpoint settings peer logging) :=
    ⟨fun _ hcall => by simp [Scene.fresh] at hcall, fun _ hh => by simp [Scene.fresh] at hh⟩
  have hfresh : Guarded settings (Scene.fresh endpoint settings peer logging).session [] :=
    ⟨trivial, fun hready => by simp [Scene.fresh] at hready⟩
  constructor
  · intro after before h c r hcalls hdata
    have horderly : Orderly settings x.line.calls := (hrun.guarded hnumbered hfresh).orderly
    rw [hcalls] at horderly
    have hclear : Clear settings h before := horderly.entry h c r rfl hdata
    refine ⟨?_, fun newer lost older hbefore hlost => hclear.recovered hbefore hlost⟩
    obtain ⟨since, older, hbefore, -, hadmitted, -⟩ := hclear
    exact ⟨since, older, hbefore, hadmitted⟩
  · intro hnone
    refine (hrun.sends (everyCommand_isLogin _) (by simp [Scene.fresh])).mono ?_
    intro c hc
    by_cases hauth : c.isAuth = true
    · obtain ⟨password, hpassword, -⟩ := hc hauth
      rw [show (Scene.fresh endpoint settings peer logging).session.settings = settings from rfl, hnone] at hpassword
      cases hpassword
    · simpa using hauth

/-- A read with a password goes out behind the login. -/
theorem data_is_admitted_on_host :
    let get : Operation := .get ⟨List.replicate 20 0, rfl⟩
    let x := (get.perform (Scene.onHost ({} : Steady) (some "secret"))).2
    ∃ since older, x.line.calls.drop 2 = since ++ .connect 0 (.ok ()) :: older ∧
      Admitted x.session.settings 0 since := by
  intro get x
  have hx : Run (fun _ _ => True) (Scene.onHost ({} : Steady) (some "secret")) [⟨get, _⟩] x := .operate get .start
  have hcalls : x.line.calls = [.receive 0 (.ok .nil)] ++
      .send 0 (.get (Digest.key ⟨List.replicate 20 0, rfl⟩)) (.ok ()) :: x.line.calls.drop 2 := rfl
  exact ((data_is_admitted hx).1 _ _ _ _ _ hcalls (by simp)).1

end Storage
end RemoteCache
