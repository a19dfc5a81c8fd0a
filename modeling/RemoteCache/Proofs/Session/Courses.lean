import RemoteCache.Proofs.Calls
import RemoteCache.Session

/-!
# The courses of a session

Each step of a session can take a few courses, and which one it takes is up to the peer. A course is what can be
told about it afterwards: the calls made, the latest first, what was handed over, and the session left behind.

* `Login`: logging in over a connected handle.
* `Opening`: connecting a new handle.
* `Readying`: making a session ready (`ensureConnected`).
* `Closing`: closing it.

`ensureConnected_course` and `close_course` say that there are no other courses, for every peer and from every
scene: the call list leads from the line before to the line after. Everything else that is said about sessions is
read off the courses.
-/

namespace RemoteCache

/-- Whether a session can connect to an endpoint: its scheme is supported and it is somewhere. -/
def Endpoint.Connectable (e : Endpoint) : Prop := e.scheme = Endpoint.supportedScheme ∧ (e.isTcp ∨ e.isUnix)

namespace Session

open RemoteCache.Action Line

/-- What making a session ready hands over: nothing, or the detail of why it cannot be. -/
abbrev Answered := Except Failure (Option ErrorDetail)

/-! ## The courses -/

/-- Logging in over `h`. -/
inductive Login (s : Session) (h : Handle) : List Call → Answered → Session → Prop
  | needless : s.settings.password = none → Login s h [] (.ok none) { s with phase := .ready }
  | accepted {password : String} {calls : List Call} {reply : Reply} : s.settings.password = some password →
      Exchange h (.auth s.loginName? password) calls (.ok reply) → rejects reply = false →
      Login s h calls (.ok none) { s with phase := .ready }
  | rejected {password : String} {calls : List Call} {reply : Reply} : s.settings.password = some password →
      Exchange h (.auth s.loginName? password) calls (.ok reply) → rejects reply = true →
      Login s h (.disconnect h :: calls)
        (.ok (some (authRejected (s.loginName?.getD defaultUsername) reply)))
        { s with phase := .invalid, handle := none }
  | interrupted {password : String} {calls : List Call} {f : Failure} : s.settings.password = some password →
      Exchange h (.auth s.loginName? password) calls (.error f) → Login s h calls (.error f) s

/-- Connecting a new handle, `n`. -/
inductive Opening (s : Session) (n : Handle) : List Call → Answered → Session → Prop
  | unsupported : s.endpoint.scheme ≠ Endpoint.supportedScheme →
      Opening s n [] (.error (.assertion [.text s.endpoint.scheme])) s
  | nowhere : s.endpoint.isTcp = false → s.endpoint.isUnix = false → s.endpoint.scheme = Endpoint.supportedScheme →
      Opening s n [] (.ok (some (invalidEndpoint s.endpoint.url))) { s with phase := .invalid }
  | opened {calls : List Call} {r : Answered} {t : Session} : s.endpoint.Connectable →
      Login { s with handle := some n } n calls r t →
      Opening s n (calls ++ [.connect n (.ok ()), .create n (.of s.endpoint s.settings)]) r t
  | refused {f : Failure} : f.isConnectFailure = true → s.endpoint.Connectable →
      Opening s n [.disconnect n, .connect n (.error f), .create n (.of s.endpoint s.settings)]
        (.ok (some (.ofConnectFailure f))) { s with phase := .invalid }
  | interrupted {f : Failure} : f.isConnectFailure = false → s.endpoint.Connectable →
      Opening s n [.connect n (.error f), .create n (.of s.endpoint s.settings)] (.error f) s

/-- Making a session ready; `n` is the next handle. -/
inductive Readying (s : Session) (n : Handle) : List Call → Answered → Session → Prop
  | ready : s.phase = .ready → Readying s n [] (.ok none) s
  | invalid : s.phase = .invalid → Readying s n [] (.ok (some backendInvalid)) s
  | fresh {calls : List Call} {r : Answered} {t : Session} : s.phase ≠ .ready → s.phase ≠ .invalid →
      s.handle = none → Opening { s with phase := .connecting } n calls r t → Readying s n calls r t
  | reopened {h : Handle} {calls : List Call} {r : Answered} {t : Session} : s.phase ≠ .ready →
      s.phase ≠ .invalid → s.handle = some h → Login { s with phase := .connecting } h calls r t →
      Readying s n (calls ++ [.connect h (.ok ()), .disconnect h]) r t
  | replaced {h : Handle} {f : Failure} {calls : List Call} {r : Answered} {t : Session} : s.phase ≠ .ready →
      s.phase ≠ .invalid → s.handle = some h → f.isConnectFailure = true →
      Opening { s with phase := .connecting, handle := none } n calls r t →
      Readying s n (calls ++ [.disconnect h, .connect h (.error f), .disconnect h]) r t
  | interrupted {h : Handle} {f : Failure} : s.phase ≠ .ready → s.phase ≠ .invalid → s.handle = some h →
      f.isConnectFailure = false →
      Readying s n [.connect h (.error f), .disconnect h] (.error f) { s with phase := .connecting }

/-- Closing a session. -/
inductive Closing (s : Session) : List Call → Session → Prop
  | idle : s.handle = none → Closing s [] { s with phase := .invalid }
  | held {h : Handle} : s.handle = some h → Closing s [.disconnect h] { s with phase := .invalid, handle := none }

/-! ## There are no other courses -/

variable {σ : Type} [Peer σ]

/-- An action takes one of some courses: `C` tells which calls, result and session belong together. -/
def Takes {α : Type} (act : Action σ α) (x : Scene σ) (C : List Call → Except Failure α → Session → Prop) : Prop :=
  Ends act x fun r y => ∃ calls, C calls r y.session ∧ Leads x.line calls y.line

theorem Takes.mono {σ α : Type} [Peer σ] {act : Action σ α} {x : Scene σ}
    {C D : List Call → Except Failure α → Session → Prop} (h : Takes act x C)
    (hCD : ∀ calls r t, C calls r t → D calls r t) : Takes act x D :=
  let ⟨calls, hC, hcalls⟩ := h
  ⟨calls, hCD _ _ _ hC, hcalls⟩

theorem Takes.of_run {σ α : Type} [Peer σ] {act : Action σ α} {x y : Scene σ} {r : Except Failure α}
    {C : List Call → Except Failure α → Session → Prop} (h : Takes act x C) (hrun : run act x = (r, y)) :
    ∃ calls, C calls r y.session ∧ Leads x.line calls y.line := by
  rw [Takes, Ends, hrun] at h
  exact h

/-- A rejected login or a refused connection drops the handle, if there is one, and is final. -/
theorem ends_invalidate {x : Scene σ} {detail : ErrorDetail} {Q : Except Failure ErrorDetail → Scene σ → Prop}
    (hsome : ∀ h m, x.session.handle = some h → Step x.line (.disconnect h) m →
      Q (.ok detail) { x with session := { x.session with phase := .invalid, handle := none }, line := m })
    (hnone : x.session.handle = none →
      Q (.ok detail) { x with session := { x.session with phase := .invalid } }) :
    Ends (invalidate detail) x Q := by
  unfold invalidate
  simp only [ends_bind, ends_session]
  cases hh : x.session.handle with
  | none => exact hnone hh
  | some h =>
    simp only [ends_bind, ends_onLine]
    exact ends_disconnect fun m hm => hsome h m hh hm

theorem authenticate_course {x : Scene σ} {h : Handle} (hh : x.session.handle = some h) :
    Takes authenticate x (Login x.session h) := by
  unfold Takes authenticate held
  simp only [ends_bind, ends_session, hh, ends_pure]
  cases hp : x.session.settings.password with
  | none => exact ⟨[], .needless hp, .refl⟩
  | some password =>
    simp only [ends_bind]
    refine ends_log _ fun _ => ?_
    rw [ends_onLine]
    refine ends_exchange ?_
    intro calls r m hex hm
    cases r with
    | error f => exact ⟨calls, .interrupted hp hex, hm⟩
    | ok reply =>
      cases hr : rejects reply with
      | false =>
        simp only [hr, ends_bind, ends_setPhase, ends_pure, Bool.false_eq_true, if_false]
        exact ⟨calls, .accepted hp hex hr, hm⟩
      | true =>
        simp only [hr, ends_bind, if_true]
        refine ends_log _ fun _ => ends_invalidate ?_ ?_
        · intro k n hk hn
          obtain rfl : h = k := by simpa [hh] using hk
          exact ⟨_, .rejected hp hex hr, hm.step hn⟩
        · intro hnone
          simp [hh] at hnone

/-- An attempt to connect succeeds, is refused, or is interrupted by a failure that passes. -/
theorem ends_attempt {x : Scene σ} {h : Handle} {Q : Except Failure (Except Failure Unit) → Scene σ → Prop}
    (hok : ∀ m, Step x.line (.connect h (.ok ())) m → Q (.ok (.ok ())) { x with line := m })
    (hrefused : ∀ f m, f.isConnectFailure = true → Step x.line (.connect h (.error f)) m →
      Q (.ok (.error f)) { x with line := m })
    (hinterrupted : ∀ f m, f.isConnectFailure = false → Step x.line (.connect h (.error f)) m →
      Q (.error f) { x with line := m }) : Ends (catchingConnect (onLine (Line.connect h))) x Q := by
  rw [ends_catchingConnect, ends_onLine]
  refine ends_connect ?_
  intro r m hm
  cases r with
  | ok _ => exact hok m hm
  | error f =>
    by_cases hf : f.isConnectFailure = true
    · simpa [hf] using hrefused f m hf hm
    · simpa [hf] using hinterrupted f m (by simpa using hf) hm

theorem connectNew_course {x : Scene σ} (place : String) (hh : x.session.handle = none)
    (hplace : x.session.endpoint.Connectable) :
    Takes (connectNew place) x (Opening x.session x.line.created) := by
  unfold Takes connectNew
  simp only [ends_bind, ends_session]
  refine ends_log _ fun _ => ?_
  rw [ends_onLine]
  refine ends_create fun m hm => ends_attempt ?_ ?_ ?_
  · intro n hn
    simp only [ends_bind]
    refine ends_log _ fun _ => ?_
    simp only [ends_setHandle]
    refine Ends.mono (authenticate_course rfl) ?_
    rintro r y ⟨calls, hlogin, hcalls⟩
    exact ⟨_, .opened hplace hlogin, (hm.leads.step hn).trans hcalls⟩
  · intro f n hf hn
    simp only [ends_bind]
    refine ends_log _ fun _ => ?_
    rw [ends_onLine]
    refine ends_disconnect fun k hk => ends_invalidate (fun h _ hsome => ?_) fun _ => ?_
    · simp [hh] at hsome
    · exact ⟨_, .refused hf hplace, (hm.leads.step hn).step hk⟩
  · intro f n hf hn
    exact ⟨_, .interrupted hf hplace, hm.leads.step hn⟩

theorem connect_course {x : Scene σ} (hh : x.session.handle = none) :
    Takes connect x (Opening x.session x.line.created) := by
  unfold Takes connect
  simp only [ends_bind, ends_session, ends_require, decide_eq_true_eq]
  by_cases hscheme : x.session.endpoint.scheme = Endpoint.supportedScheme
  · by_cases hplace : (x.session.endpoint.isTcp || x.session.endpoint.isUnix) = true
    · simp only [hscheme, hplace, if_true]
      exact connectNew_course _ hh ⟨hscheme, by simpa using hplace⟩
    · simp only [hscheme, hplace, if_true, Bool.false_eq_true, if_false, ends_bind]
      refine ends_log _ fun _ => ends_invalidate (fun h _ hsome => ?_) fun _ => ?_
      · simp [hh] at hsome
      · simp only [Bool.or_eq_true, not_or, Bool.not_eq_true] at hplace
        exact ⟨[], .nowhere hplace.1 hplace.2 hscheme, .refl⟩
  · simp only [hscheme, if_false]
    exact ⟨[], .unsupported hscheme, .refl⟩

/-- Reconnecting keeps the handle if it succeeds, and drops it if it is refused. -/
theorem ends_reconnect {x : Scene σ} {h : Handle} (hh : x.session.handle = some h)
    {Q : Except Failure Bool → Scene σ → Prop}
    (hok : ∀ m, Leads x.line [.connect h (.ok ()), .disconnect h] m → Q (.ok true) { x with line := m })
    (hrefused : ∀ f m records, f.isConnectFailure = true →
      Leads x.line [.disconnect h, .connect h (.error f), .disconnect h] m →
      Q (.ok false) { x with session := { x.session with handle := none }, line := m, records })
    (hinterrupted : ∀ f m, f.isConnectFailure = false →
      Leads x.line [.connect h (.error f), .disconnect h] m → Q (.error f) { x with line := m }) :
    Ends reconnect x Q := by
  unfold reconnect held
  simp only [ends_bind, ends_session, hh, ends_pure]
  rw [ends_onLine]
  refine ends_disconnect fun m hm => ends_attempt ?_ ?_ ?_
  · intro n hn
    exact hok n (hm.leads.step hn)
  · intro f n hf hn
    simp only [ends_bind]
    refine ends_log _ fun records => ?_
    rw [ends_onLine]
    exact ends_disconnect fun k hk => hrefused f k records hf ((hm.leads.step hn).step hk)
  · intro f n hf hn
    exact hinterrupted f n hf (hm.leads.step hn)

/-- **Making a session ready takes one of the courses of `Readying`.** -/
theorem ensureConnected_course (x : Scene σ) :
    Takes ensureConnected x (Readying x.session x.line.created) := by
  unfold Takes ensureConnected
  simp only [ends_bind, ends_session]
  cases hphase : x.session.phase with
  | ready => exact ⟨[], .ready hphase, .refl⟩
  | invalid => exact ⟨[], .invalid hphase, .refl⟩
  | unconnected | connecting =>
    have hready : x.session.phase ≠ .ready := by simp [hphase]
    have hinvalid : x.session.phase ≠ .invalid := by simp [hphase]
    simp only [ends_bind, ends_setPhase]
    refine ends_within _ fun logging => ?_
    obtain hh | ⟨h, hh⟩ := Option.eq_none_or_eq_some x.session.handle
    · rw [if_neg (by simp [hh])]
      refine Ends.mono (connect_course (by exact hh)) ?_
      rintro r y ⟨calls, hopen, hcalls⟩ _
      exact ⟨calls, .fresh hready hinvalid hh hopen, hcalls⟩
    · rw [if_pos (by simp [hh]), ends_bind]
      refine ends_reconnect (by exact hh) ?_ ?_ ?_
      · intro m hm
        refine Ends.mono (authenticate_course (by exact hh)) ?_
        rintro r y ⟨calls, hlogin, hcalls⟩ _
        exact ⟨_, .reopened hready hinvalid hh hlogin, hm.trans hcalls⟩
      · intro f m _ hf hm
        refine Ends.mono (connect_course rfl) ?_
        rintro r y ⟨calls, hopen, hcalls⟩ _
        have hcreated : m.created = x.line.created := hm.created_eq (by simp [Call.options?])
        exact ⟨_, .replaced hready hinvalid hh hf (hcreated ▸ hopen), hm.trans hcalls⟩
      · intro f m hf hm _
        exact ⟨_, .interrupted hready hinvalid hh hf, hm⟩

theorem close_course (x : Scene σ) : Takes close x fun calls r t => r = .ok () ∧ Closing x.session calls t := by
  unfold Takes close
  simp only [ends_bind, ends_session]
  cases hh : x.session.handle with
  | none => exact ⟨[], ⟨rfl, .idle hh⟩, .refl⟩
  | some h =>
    simp only [ends_bind]
    refine ends_log _ fun _ => ?_
    rw [ends_onLine]
    exact ends_disconnect fun m hm => ⟨_, ⟨rfl, .held hh⟩, hm.leads⟩

end Session
end RemoteCache
