import RemoteCache.Proofs.Reply
import RemoteCache.Proofs.Session.Courses

/-!
# What the courses of a session leave behind

Whatever course a session takes, its endpoint and its settings stay, and the only command that is sent is the login
of the settings. What is handed over *fits* the phase that is reached (`Fits`): nothing if the session is ready and
holds a handle, a final detail if it is invalid and holds none, and a failure if it is left connecting.

So phase and handle never disagree: a session that is `Sound` is sound after every course (`Readying.sound`).
-/

namespace RemoteCache

/-- The details that come with a session becoming invalid: no target, no connection or no login. -/
inductive ErrorDetail.Final (detail : ErrorDetail) : Prop
  | invalidEndpoint : detail.code = .invalidEndpoint → Final detail
  | connectTimeout : detail.code = .connectTimeout → Final detail
  | connectionFailed : detail.code = .connectionFailed → detail.metadata.lookup "reply_kind" = none → Final detail
  | authRejected : detail.code = .authRejected → Final detail

theorem ErrorDetail.final_ofConnectFailure (f : Failure) : (ErrorDetail.ofConnectFailure f).Final := by
  unfold ofConnectFailure
  by_cases htimeout : f.isTimeout = true
  · rw [if_pos htimeout]
    exact .connectTimeout rfl
  · rw [if_neg htimeout]
    by_cases hauth : f.isAuthentication = true
    · rw [if_pos hauth]
      exact .authRejected rfl
    · rw [if_neg hauth]
      exact .connectionFailed rfl rfl

namespace Session

open Line

variable {s t : Session} {h : Handle} {n : Handle} {calls : List Call} {r : Answered}

/-! ## Endpoint and settings -/

/-- One session is another one in a different phase or with a different handle. -/
structure Continues (s t : Session) : Prop where
  endpoint_eq : t.endpoint = s.endpoint
  settings_eq : t.settings = s.settings

namespace Continues

theorem refl (s : Session) : s.Continues s := ⟨rfl, rfl⟩

theorem trans {u : Session} (h₁ : s.Continues t) (h₂ : t.Continues u) : s.Continues u :=
  ⟨h₂.endpoint_eq.trans h₁.endpoint_eq, h₂.settings_eq.trans h₁.settings_eq⟩

end Continues

theorem Login.continues (hl : Login s h calls r t) : s.Continues t := by
  cases hl with
  | needless | accepted | rejected | interrupted => exact ⟨rfl, rfl⟩

theorem Opening.continues (ho : Opening s n calls r t) : s.Continues t := by
  cases ho with
  | opened _ hl => exact ⟨hl.continues.endpoint_eq, hl.continues.settings_eq⟩
  | unsupported | nowhere | refused | interrupted => exact ⟨rfl, rfl⟩

theorem Readying.continues (hr : Readying s n calls r t) : s.Continues t := by
  cases hr with
  | fresh _ _ _ ho | replaced _ _ _ _ ho => exact ⟨ho.continues.endpoint_eq, ho.continues.settings_eq⟩
  | reopened _ _ _ hl => exact ⟨hl.continues.endpoint_eq, hl.continues.settings_eq⟩
  | ready | invalid | interrupted => exact ⟨rfl, rfl⟩

/-! ## Commands -/

/-- The command that a session with these settings logs in with. -/
def IsLogin (s : Session) (c : Command) : Prop :=
  ∃ password, s.settings.password = some password ∧ c = .auth s.loginName? password

theorem Continues.isLogin_iff (hst : s.Continues t) (c : Command) : t.IsLogin c ↔ s.IsLogin c := by
  simp only [IsLogin, loginName?, hst.settings_eq]

theorem Login.sends (hl : Login s h calls r t) : Sends s.IsLogin calls := by
  cases hl with
  | needless => exact sends_nil _
  | accepted hp hex | interrupted hp hex => exact hex.sends.mono fun c hc => ⟨_, hp, hc⟩
  | rejected hp hex =>
    rw [sends_cons]
    exact ⟨by simp [Call.command?], hex.sends.mono fun c hc => ⟨_, hp, hc⟩⟩

theorem Opening.sends (ho : Opening s n calls r t) : Sends s.IsLogin calls := by
  cases ho with
  | opened _ hl =>
    rw [sends_append]
    exact ⟨hl.sends, by simp [Call.command?]⟩
  | unsupported | nowhere | refused | interrupted => simp [Call.command?]

/-- **Before a session is ready it sends nothing but its login.** -/
theorem Readying.sends (hr : Readying s n calls r t) : Sends s.IsLogin calls := by
  cases hr with
  | fresh _ _ _ ho => exact ho.sends
  | replaced _ _ _ _ ho =>
    rw [sends_append]
    exact ⟨ho.sends, by simp [Call.command?]⟩
  | reopened _ _ _ hl =>
    rw [sends_append]
    exact ⟨hl.sends, by simp [Call.command?]⟩
  | ready | invalid | interrupted => simp [Call.command?]

theorem Readying.sends_auth (hr : Readying s n calls r t) : Sends (·.isAuth = true) calls := by
  refine hr.sends.mono ?_
  rintro c ⟨_, _, rfl⟩
  exact Command.isAuth_auth _ _

theorem Readying.sends_no_data (hr : Readying s n calls r t) : Sends (·.isData = false) calls :=
  hr.sends_auth.mono fun _ hauth => Command.not_isData_of_isAuth hauth

/-- Closing sends nothing. -/
theorem Closing.sends (P : Command → Prop) (hc : Closing s calls t) : Sends P calls := by
  cases hc with
  | idle => exact sends_nil P
  | held => simp [Call.command?]

/-- A login that is not rejected has been answered. -/
theorem answer_of_accepted {c : Command} {reply : Reply} (hex : Exchange h c calls (.ok reply))
    (hr : rejects reply = false) :
    ∃ a, calls = [.receive h (.ok a), .send h c (.ok ())] ∧ reply = Reply.ofAnswer c.name a := by
  have hheard : ¬ reply.Fails := by
    intro hfails
    cases hfails <;> cases hr
  generalize hreply : (Except.ok reply : Except Failure Reply) = result at hex
  cases hex with
  | unsent f => exact absurd (Reply.fails_ofExchange hreply.symm) hheard
  | answered r =>
    cases r with
    | error f => exact absurd (Reply.fails_ofExchange hreply.symm) hheard
    | ok a =>
      cases hreply
      exact ⟨a, rfl, rfl⟩

/-! ## Handles -/

theorem Login.handle_eq (hl : Login s h calls r t) : ∀ call ∈ calls, call.handle = h := by
  cases hl with
  | needless => simp
  | accepted _ hex | interrupted _ hex => exact hex.handle_eq
  | rejected _ hex => simpa [Call.handle] using hex.handle_eq

/-- The handle that a login leaves is the one that it had. -/
theorem Login.held (hl : Login s h calls r t) {k : Handle} (hk : t.handle = some k) : s.handle = some k := by
  cases hl with
  | needless | accepted | interrupted => exact hk
  | rejected => cases hk

/-- Calls and handle of a session are on handles that it knows. -/
def Knows (s : Session) (calls : List Call) (t : Session) : Prop :=
  (∀ call ∈ calls, Known s.handle calls call.handle) ∧ ∀ k, t.handle = some k → Known s.handle calls k

/-- Connecting calls the new handle only. -/
theorem Opening.handle_eq (ho : Opening s n calls r t) : ∀ call ∈ calls, call.handle = n := by
  cases ho with
  | unsupported | nowhere | refused | interrupted => simp [Call.handle]
  | opened _ hl =>
    simp only [List.mem_append, List.mem_cons, List.not_mem_nil, or_false]
    rintro call (hcall | rfl | rfl)
    · exact hl.handle_eq call hcall
    · rfl
    · rfl

/-- Connecting creates the new handle before any other call. -/
theorem Opening.created (ho : Opening s n calls r t) :
    calls = [] ∨ Call.create n (.of s.endpoint s.settings) ∈ calls := by
  cases ho with
  | unsupported | nowhere => exact .inl rfl
  | opened | refused | interrupted => exact .inr (by simp)

/-- A session without a handle holds none but a new one after connecting. -/
theorem Opening.held (ho : Opening s n calls r t) (hh : s.handle = none) {k : Handle} (hk : t.handle = some k) :
    Call.create k (.of s.endpoint s.settings) ∈ calls := by
  cases ho with
  | unsupported | nowhere | refused | interrupted =>
    replace hk : s.handle = some k := hk
    rw [hh] at hk
    cases hk
  | opened _ hl =>
    have hn : some n = some k := hl.held hk
    cases hn
    simp

theorem Opening.knows (ho : Opening s n calls r t) (hh : s.handle = none) : s.Knows calls t := by
  refine ⟨?_, fun k hk => .inr ⟨_, ho.held hh hk⟩⟩
  intro call hcall
  rcases ho.created with rfl | hcreate
  · simp at hcall
  · rw [ho.handle_eq call hcall]
    exact .inr ⟨_, hcreate⟩

/-- Calls on a handle that is held come before others. -/
theorem Knows.append {u : Session} {more : List Call} (hk : u.Knows more t)
    (hu : ∀ k, u.handle = some k → Known s.handle calls k) (hcalls : ∀ call ∈ calls, Known s.handle calls call.handle) :
    s.Knows (more ++ calls) t := by
  have hmore {k : Handle} (h : Known u.handle more k) : Known s.handle (more ++ calls) k := by
    rcases h with hsome | ⟨options, hcreate⟩
    · exact (hu k hsome).mono (by simp)
    · exact .inr ⟨options, by simp [hcreate]⟩
  refine ⟨?_, fun k hh => hmore (hk.2 k hh)⟩
  intro call hcall
  rcases List.mem_append.1 hcall with hcall | hcall
  · exact hmore (hk.1 call hcall)
  · exact (hcalls call hcall).mono (by simp)

theorem Login.knows (hl : Login s h calls r t) (hh : s.handle = some h) : s.Knows calls t :=
  ⟨fun call hcall => .inl (hl.handle_eq call hcall ▸ hh), fun _ hk => .inl (hl.held hk)⟩

/-- Making a session ready takes the handle that it holds, or a new one. -/
theorem Readying.knows (hr : Readying s n calls r t) : s.Knows calls t := by
  cases hr with
  | ready | invalid => exact ⟨by simp, fun _ hk => .inl hk⟩
  | fresh _ _ hh ho => exact ho.knows hh
  | reopened _ _ hh hl =>
    exact (hl.knows hh).append (fun _ hk => .inl hk) (by simp [Call.handle, Known, hh])
  | replaced _ _ hh _ ho =>
    exact (ho.knows rfl).append (fun _ hk => by cases hk) (by simp [Call.handle, Known, hh])
  | interrupted _ _ hh => exact ⟨by simp [Call.handle, Known, hh], fun _ hk => .inl hk⟩

theorem Closing.knows (hc : Closing s calls t) : s.Knows calls t := by
  cases hc with
  | idle => exact ⟨by simp, fun _ hk => .inl hk⟩
  | held hh => exact ⟨by simp [Call.handle, Known, hh], fun _ hk => by cases hk⟩

/-! ## Phase and handle -/

/-- A session that is ready holds a handle, and one that is invalid holds none. -/
structure Sound (s : Session) : Prop where
  ready : s.phase = .ready → ∃ h, s.handle = some h
  invalid : s.phase = .invalid → s.handle = none

/-- What is handed over says which phase has been reached. -/
def Fits (r : Answered) (t : Session) : Prop :=
  match r with
  | .ok none => t.phase = .ready ∧ ∃ h, t.handle = some h
  | .ok (some detail) => t.phase = .invalid ∧ t.handle = none ∧ detail.Final
  | .error _ => t.phase = .connecting

theorem Fits.sound (hf : Fits r t) : t.Sound := by
  match r, hf with
  | .ok none, ⟨hphase, hh⟩ => exact ⟨fun _ => hh, fun hinvalid => by simp [hphase] at hinvalid⟩
  | .ok (some _), ⟨hphase, hh, _⟩ => exact ⟨fun hready => by simp [hphase] at hready, fun _ => hh⟩
  | .error _, hphase =>
    replace hphase : t.phase = .connecting := hphase
    exact ⟨fun hready => by simp [hphase] at hready, fun hinvalid => by simp [hphase] at hinvalid⟩

theorem Login.fits (hl : Login s h calls r t) (hh : s.handle = some h) (hphase : s.phase = .connecting) :
    Fits r t := by
  cases hl with
  | needless => exact ⟨rfl, h, hh⟩
  | accepted => exact ⟨rfl, h, hh⟩
  | rejected => exact ⟨rfl, rfl, .authRejected rfl⟩
  | interrupted => exact hphase

theorem Opening.fits (ho : Opening s n calls r t) (hh : s.handle = none) (hphase : s.phase = .connecting) :
    Fits r t := by
  cases ho with
  | unsupported => exact hphase
  | nowhere => exact ⟨rfl, hh, .invalidEndpoint rfl⟩
  | opened _ hl => exact hl.fits rfl hphase
  | refused => exact ⟨rfl, hh, ErrorDetail.final_ofConnectFailure _⟩
  | interrupted => exact hphase

/-- Unless a session was invalid before, what is handed over fits. -/
theorem Readying.fits (hs : s.Sound) (hinvalid : s.phase ≠ .invalid) (hr : Readying s n calls r t) : Fits r t := by
  cases hr with
  | ready hphase => exact ⟨hphase, hs.ready hphase⟩
  | invalid hphase => exact absurd hphase hinvalid
  | fresh _ _ hh ho => exact ho.fits hh rfl
  | reopened _ _ hh hl => exact hl.fits hh rfl
  | replaced _ _ _ _ ho => exact ho.fits rfl rfl
  | interrupted => exact rfl

/-- An invalid session makes no call. -/
theorem Readying.of_invalid (hinvalid : s.phase = .invalid) (hr : Readying s n calls r t) :
    calls = [] ∧ r = .ok (some backendInvalid) ∧ t = s := by
  cases hr with
  | invalid => exact ⟨rfl, rfl, rfl⟩
  | ready hphase => simp [hinvalid] at hphase
  | fresh _ hne | reopened _ hne | replaced _ hne | interrupted _ hne => exact absurd hinvalid hne

theorem Readying.sound (hs : s.Sound) (hr : Readying s n calls r t) : t.Sound := by
  by_cases hinvalid : s.phase = .invalid
  · obtain ⟨-, -, rfl⟩ := hr.of_invalid hinvalid
    exact hs
  · exact (hr.fits hs hinvalid).sound

/-- A session that can be made ready is ready then, with a handle. -/
theorem Readying.ready_of_none (hs : s.Sound) (hr : Readying s n calls (.ok none) t) :
    t.phase = .ready ∧ ∃ h, t.handle = some h := by
  by_cases hinvalid : s.phase = .invalid
  · obtain ⟨-, hr, -⟩ := hr.of_invalid hinvalid
    simp at hr
  · exact hr.fits hs hinvalid

theorem Closing.closed (hc : Closing s calls t) : t.phase = .invalid ∧ t.handle = none ∧ s.Continues t := by
  cases hc with
  | idle hh => exact ⟨rfl, hh, rfl, rfl⟩
  | held => exact ⟨rfl, rfl, rfl, rfl⟩

/-- Closing without a handle makes no call. -/
theorem Closing.of_none (hh : s.handle = none) (hc : Closing s calls t) :
    calls = [] ∧ t = { s with phase := .invalid } := by
  cases hc with
  | idle => exact ⟨rfl, rfl⟩
  | held hsome => simp [hh] at hsome

end Session
end RemoteCache
