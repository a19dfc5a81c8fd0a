import RemoteCache.Proofs.Session.Shape
import RemoteCache.Proofs.Storage.Courses

/-!
# Runs of a store

A run is a list of operations, one after the other, each with what came of it (`Attempt`). Between two operations the
peer may change by itself in the ways that `changes` lets it, and the operations see what it has changed to. A run
goes on after an operation fails, whichever way it does.

What every operation and every change keeps holds at the end of a run (`Run.preserves`). The session that a run ends
with continues the one that it starts with, and its phase and its handle agree (`Run.sound`). Nothing is sent in a run
but the login of its session and four kinds of commands, so that what holds of these (`EveryCommand`) holds of all that
is sent (`Run.sends`).
-/

namespace RemoteCache

variable {σ : Type}

/-- A scene in which nothing has been done yet. -/
def Scene.fresh (endpoint : Endpoint) (settings : BackendSettings) (peer : σ) (logging : Logging.State := {}) :
    Scene σ where
  session := { endpoint, settings }
  line := { peer }
  logging := logging

/-- A fresh scene of a store on this host. -/
def Scene.onHost (peer : σ) (password : Option String := none) : Scene σ :=
  Scene.fresh
    { url := "redis://localhost", scheme := Endpoint.supportedScheme, host := "localhost",
      port := Endpoint.defaultPort, socketPath := "" }
    { connectTimeoutMs := BackendSettings.defaultConnectTimeoutMs,
      operationTimeoutMs := BackendSettings.defaultOperationTimeoutMs, username := none, password } peer

/-- A scene whose peer has changed. -/
def Scene.withPeer (x : Scene σ) (peer : σ) : Scene σ := { x with line := { x.line with peer } }

theorem Scene.sound_fresh (endpoint : Endpoint) (settings : BackendSettings) (peer : σ) (logging : Logging.State) :
    (Scene.fresh endpoint settings peer logging).session.Sound :=
  ⟨fun h => by simp [Scene.fresh] at h, fun h => by simp [Scene.fresh] at h⟩

namespace Storage

open Line

variable {s t : Session} {c : Command} {op : Operation} {calls : List Call} {n : Handle}

/-! ## Sessions after commands -/

theorem Issuing.session_eq {r : Except Failure Reply} (hi : Issuing s c calls r t) :
    t = s ∨ t = { s with phase := .unconnected } := by
  cases hi with
  | idle | answered | interrupted => exact .inl rfl
  | lost => exact .inr rfl

/-- Commands change nothing of a session but that it can become stale. -/
theorem Serving.session_eq {r : op.Result} (hs : Serving s op calls r t) :
    t = s ∨ t = { s with phase := .unconnected } := by
  cases hs with
  | get hi | remove hi | put hi | unasked hi | unanswered hi | kept hi => exact hi.session_eq
  | written hi _ hi' =>
    rcases hi.session_eq with rfl | rfl
    · exact hi'.session_eq
    · rcases hi'.session_eq with rfl | rfl <;> exact .inr rfl

theorem Serving.continues {r : op.Result} (hs : Serving s op calls r t) : s.Continues t := by
  rcases hs.session_eq with rfl | rfl <;> exact ⟨rfl, rfl⟩

theorem Operating.continues {r : op.Result} (ho : Operating s n op calls r t) : s.Continues t := by
  cases ho with
  | closed hc => exact hc.closed.2.2
  | interrupted _ hr | unready _ hr => exact hr.continues
  | served hr hserve => exact hr.continues.trans hserve.continues

theorem Serving.sound {r : op.Result} (hs : s.Sound) (hserve : Serving s op calls r t) : t.Sound := by
  rcases hserve.session_eq with rfl | rfl
  · exact hs
  · exact ⟨fun h => by simp at h, fun h => by simp at h⟩

theorem Operating.sound {r : op.Result} (hs : s.Sound) (ho : Operating s n op calls r t) : t.Sound := by
  cases ho with
  | closed hc => exact ⟨fun h => by simp [hc.closed.1] at h, fun _ => hc.closed.2.1⟩
  | interrupted _ hr | unready _ hr => exact hr.sound hs
  | served hr hserve => exact hserve.sound (hr.sound hs)

/-! ## Commands -/

/-- `P` holds of the login of a session and of every command to the data of a store. -/
structure EveryCommand (s : Session) (P : Command → Prop) : Prop where
  login : ∀ c, s.IsLogin c → P c
  get : ∀ key, P (.get key)
  set : ∀ key value, P (.set key value)
  exists? : ∀ key, P (.exists? key)
  del : ∀ key, P (.del key)

theorem EveryCommand.continues {P : Command → Prop} (hP : EveryCommand s P) (hst : s.Continues t) :
    EveryCommand t P :=
  { hP with login := fun c hc => hP.login c ((hst.isLogin_iff c).1 hc) }

theorem Issuing.sends {r : Except Failure Reply} (hi : Issuing s c calls r t) : Sends (· = c) calls := by
  cases hi with
  | idle => exact sends_nil _
  | answered _ _ hex | lost _ _ hex | interrupted _ _ hex => exact hex.sends

theorem Serving.sends {P : Command → Prop} {u : Session} {r : op.Result} (hP : EveryCommand u P)
    (hs : Serving s op calls r t) : Sends P calls := by
  have hcommand {s t : Session} {c : Command} {calls : List Call} {r : Except Failure Reply}
      (hi : Issuing s c calls r t) (hc : P c) : Sends P calls :=
    hi.sends.mono fun _ heq => heq ▸ hc
  cases hs with
  | get hi => exact hcommand hi (hP.get _)
  | remove hi => exact hcommand hi (hP.del _)
  | put hi => exact hcommand hi (hP.set _ _)
  | unasked hi | unanswered hi | kept hi => exact hcommand hi (hP.exists? _)
  | written hi _ hi' =>
    rw [sends_append]
    exact ⟨hcommand hi' (hP.set _ _), hcommand hi (hP.exists? _)⟩

/-- An operation sends nothing but the login of its session and commands to the data. -/
theorem Operating.sends {P : Command → Prop} {r : op.Result} (hP : EveryCommand s P)
    (ho : Operating s n op calls r t) : Sends P calls := by
  cases ho with
  | closed hc => exact hc.sends P
  | interrupted _ hr | unready _ hr => exact hr.sends.mono hP.login
  | served hr hserve =>
    rw [sends_append]
    exact ⟨hserve.sends hP, hr.sends.mono hP.login⟩

/-! ## Handles -/

theorem Issuing.knows {r : Except Failure Reply} (hi : Issuing s c calls r t) : s.Knows calls t := by
  have hheld : t.handle = s.handle := by rcases hi.session_eq with rfl | rfl <;> rfl
  refine ⟨?_, fun k hk => .inl (hheld ▸ hk)⟩
  intro call hcall
  cases hi with
  | idle => simp at hcall
  | answered _ hh hex | lost _ hh hex | interrupted _ hh hex => exact .inl (hex.handle_eq call hcall ▸ hh)

theorem Serving.knows {r : op.Result} (hs : Serving s op calls r t) : s.Knows calls t := by
  cases hs with
  | get hi | remove hi | put hi | unasked hi | unanswered hi | kept hi => exact hi.knows
  | written hi _ hi' => exact hi'.knows.append hi.knows.2 hi.knows.1

/-- An operation makes its calls on the handle of its session, or on a new one. -/
theorem Operating.knows {r : op.Result} (ho : Operating s n op calls r t) : s.Knows calls t := by
  cases ho with
  | closed hc => exact hc.knows
  | interrupted _ hr | unready _ hr => exact hr.knows
  | served hr hserve => exact hserve.knows.append hr.knows.2 hr.knows.1

/-! ## Runs -/

/-- An operation and what came of it. -/
structure Attempt where
  op : Operation
  result : op.Result

variable [Peer σ]

/-- The attempts, the latest first, lead from `x` to another scene. -/
inductive Run (changes : σ → σ → Prop) (x : Scene σ) : List Attempt → Scene σ → Prop
  | start : Run changes x [] x
  | operate {attempts : List Attempt} {y : Scene σ} (op : Operation) : Run changes x attempts y →
      Run changes x (⟨op, (op.perform y).1⟩ :: attempts) (op.perform y).2
  | change {attempts : List Attempt} {y : Scene σ} (peer : σ) : changes y.line.peer peer →
      Run changes x attempts y → Run changes x attempts (y.withPeer peer)

namespace Run

variable {changes : σ → σ → Prop} {x y : Scene σ} {attempts : List Attempt}

/-- What every operation and every change keeps holds at the end. -/
theorem preserves {P : Scene σ → Prop} (hrun : Run changes x attempts y) (hx : P x)
    (hoperate : ∀ (op : Operation) y, P y → P (op.perform y).2)
    (hchange : ∀ y peer, changes y.line.peer peer → P y → P (y.withPeer peer)) : P y := by
  induction hrun with
  | start => exact hx
  | operate op _ ih => exact hoperate op _ ih
  | change peer hpeer _ ih => exact hchange _ peer hpeer ih

/-- What every call and every change of the peer keeps holds at the end. -/
theorem preserves_peer {P : σ → Prop} (hrun : Run changes x attempts y) (hx : P x.line.peer) (hP : Line.Kept P)
    (hchange : ∀ p q, changes p q → P p → P q) : P y.line.peer := by
  refine hrun.preserves (P := fun y => P y.line.peer) hx (fun op y hy => ?_) fun _ _ hpeer hy => hchange _ _ hpeer hy
  obtain ⟨_, -, hcalls⟩ := op.course y
  exact hP.leads hcalls hy

/-- What no change touches and every course keeps holds at the end. -/
theorem preserves_session {P : Session → Prop} (hrun : Run changes x attempts y) (hx : P x.session)
    (hcourse : ∀ {s t n op calls} {r : Operation.Result op}, Operating s n op calls r t → P s → P t) :
    P y.session := by
  refine hrun.preserves (P := fun y => P y.session) hx (fun op y hy => ?_) fun _ _ _ hy => hy
  obtain ⟨_, hcourse', -⟩ := op.course y
  exact hcourse hcourse' hy

theorem continues (hrun : Run changes x attempts y) : x.session.Continues y.session :=
  hrun.preserves_session (.refl _) fun ho hy => hy.trans ho.continues

theorem sound (hrun : Run changes x attempts y) (hx : x.session.Sound) : y.session.Sound :=
  hrun.preserves_session hx fun ho hy => ho.sound hy

/-- A run sends nothing but the login of its session and commands to the data. -/
theorem sends {P : Command → Prop} (hrun : Run changes x attempts y) (hP : EveryCommand x.session P)
    (hx : Sends P x.line.calls) : Sends P y.line.calls := by
  induction hrun with
  | start => exact hx
  | change _ _ _ ih => exact ih
  | @operate _ y op hrun ih =>
    obtain ⟨calls, hcourse, hcalls⟩ := op.course y
    rw [hcalls.calls_eq, sends_append]
    exact ⟨hcourse.sends (hP.continues hrun.continues), ih⟩

/-- Every call has been made on a handle that was created before, and so was the one that is held. -/
structure Numbered (x : Scene σ) : Prop where
  calls_lt : ∀ call ∈ x.line.calls, call.handle < x.line.created
  handle_lt : ∀ h, x.session.handle = some h → h < x.line.created

theorem numbered (hrun : Run changes x attempts y) (hx : Numbered x) : Numbered y := by
  refine hrun.preserves hx (fun op y hy => ?_) fun _ _ _ hy => ⟨hy.calls_lt, hy.handle_lt⟩
  obtain ⟨calls, hcourse, hcalls⟩ := op.course y
  have hknown {k : Handle} (hk : Known y.session.handle calls k) : k < (op.perform y).2.line.created :=
    hk.lt_created hcalls hy.handle_lt
  refine ⟨?_, fun h hh => hknown (hcourse.knows.2 h hh)⟩
  intro call hcall
  rw [hcalls.calls_eq, List.mem_append] at hcall
  rcases hcall with hnew | hold
  · exact hknown (hcourse.knows.1 call hnew)
  · exact Nat.lt_of_lt_of_le (hy.calls_lt call hold) hcalls.created_le

end Run

end Storage
end RemoteCache
