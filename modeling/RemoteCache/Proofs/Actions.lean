import RemoteCache.Session.Scene

/-!
# How actions end

An action ends either way with a state: it hands over a value, or it fails and keeps what it has done so far.
`Action.run` puts the two ways side by side, and `Action.Ends act x Q` says that whatever `act` hands over from `x`,
and the state that it leaves, are as `Q` says.

Each step that actions are made of has its own equation for `Ends`. A program is followed by rewriting with them
from its first step to its last, and what is left are its calls on the line, which have rules of their own.
-/

namespace RemoteCache

namespace Action

variable {τ σ α β : Type}

/-- What an action hands over, and the state that it leaves. -/
def run (act : EStateM Failure τ α) (x : τ) : Except Failure α × τ :=
  match act x with
  | .ok a y => (.ok a, y)
  | .error f y => (.error f, y)

/-- However `act` ends from `x`, what it hands over and the state that it leaves are as `Q` says. -/
def Ends (act : EStateM Failure τ α) (x : τ) (Q : Except Failure α → τ → Prop) : Prop :=
  Q (run act x).1 (run act x).2

theorem Ends.mono {act : EStateM Failure τ α} {x : τ} {P Q : Except Failure α → τ → Prop} (h : Ends act x P)
    (hPQ : ∀ r y, P r y → Q r y) : Ends act x Q :=
  hPQ _ _ h

theorem ends_of_run {act : EStateM Failure τ α} {x : τ} {Q : Except Failure α → τ → Prop}
    (hQ : ∀ r y, run act x = (r, y) → Q r y) : Ends act x Q :=
  hQ _ _ rfl

/-! ## Programs -/

@[simp] theorem ends_pure (a : α) (x : τ) (Q : Except Failure α → τ → Prop) :
    Ends (pure a : EStateM Failure τ α) x Q ↔ Q (.ok a) x := Iff.rfl

/-- A program goes on from where its first part ends, unless that part fails. -/
theorem run_bind (act : EStateM Failure τ α) (k : α → EStateM Failure τ β) (x : τ) :
    run (act >>= k) x = match (run act x).1 with
      | .ok a => run (k a) (run act x).2
      | .error f => (.error f, (run act x).2) := by
  simp only [run, bind, EStateM.bind]
  cases act x <;> rfl

@[simp] theorem ends_bind (act : EStateM Failure τ α) (k : α → EStateM Failure τ β) (x : τ)
    (Q : Except Failure β → τ → Prop) :
    Ends (act >>= k) x Q ↔ Ends act x fun r y => match r with
      | .ok a => Ends (k a) y Q
      | .error f => Q (.error f) y := by
  simp only [Ends, run_bind]
  cases (run act x).1 <;> rfl

/-! ## Steps in a scene -/

variable (x : Scene σ)

@[simp] theorem ends_session (Q : Except Failure Session → Scene σ → Prop) :
    Ends session x Q ↔ Q (.ok x.session) x := Iff.rfl

/-- A program that looks at its session goes on with it. -/
theorem run_session_bind (k : Session → Action σ α) : run (session >>= k) x = run (k x.session) x := rfl

@[simp] theorem ends_setPhase (phase : Session.Phase) (Q : Except Failure Unit → Scene σ → Prop) :
    Ends (setPhase phase) x Q ↔ Q (.ok ()) { x with session := { x.session with phase } } := Iff.rfl

@[simp] theorem ends_setHandle (handle : Option Handle) (Q : Except Failure Unit → Scene σ → Prop) :
    Ends (setHandle handle) x Q ↔ Q (.ok ()) { x with session := { x.session with handle } } := Iff.rfl

theorem ends_require (condition : Bool) (args : List Value) (Q : Except Failure Unit → Scene σ → Prop) :
    Ends (require condition args) x Q ↔
      if condition then Q (.ok ()) x else Q (.error (.assertion args)) x := by
  cases condition <;> exact Iff.rfl

theorem ends_onLine (act : Line.Action σ α) (Q : Except Failure α → Scene σ → Prop) :
    Ends (onLine act) x Q ↔ Ends act x.line fun r line => Q r { x with line } := by
  simp only [Ends, run, onLine]
  cases act x.line <;> rfl

/-- Only what an action hands over changes where a connect failure is caught. -/
theorem run_catchingConnect (act : Action σ α) :
    run (catchingConnect act) x =
      (match (run act x).1 with
        | .ok a => .ok (.ok a)
        | .error f => if f.isConnectFailure then .ok (.error f) else .error f, (run act x).2) := by
  simp only [run, catchingConnect]
  cases act x with
  | ok a y => rfl
  | error f y => by_cases hf : f.isConnectFailure <;> simp [hf]

theorem ends_catchingConnect (act : Action σ α) (Q : Except Failure (Except Failure α) → Scene σ → Prop) :
    Ends (catchingConnect act) x Q ↔ Ends act x fun r y => match r with
      | .ok a => Q (.ok (.ok a)) y
      | .error f => if f.isConnectFailure then Q (.ok (.error f)) y else Q (.error f) y := by
  simp only [Ends, run_catchingConnect]
  cases (run act x).1 with
  | ok a => rfl
  | error f => by_cases hf : f.isConnectFailure <;> simp [hf]

/-! ## Steps that touch the logging alone -/

/-- A log line adds its record, if it is emitted. -/
theorem run_log (logger : String) (level : Logging.Level) (message : String) :
    run (log logger level message) x =
      (.ok (), { x with records := (x.logging.record? { logger, level, message }).toList ++ x.records }) := by
  simp only [run, log]
  cases x.logging.record? { logger, level, message } <;> rfl

/-- Texts are bound for an action, and the context is restored after it. -/
theorem run_within (texts : List (String × String)) (act : Action σ α) :
    run (within texts act) x =
      ((run act (withContext x (x.logging.context.overlay texts))).1,
        withContext (run act (withContext x (x.logging.context.overlay texts))).2 x.logging.context) := by
  simp only [run, within]
  cases act (withContext x (x.logging.context.overlay texts)) <;> rfl

/-- A log line leaves the session and the line as they are. -/
theorem ends_log {logger : String} {level : Logging.Level} {message : String}
    {Q : Except Failure Unit → Scene σ → Prop} (hQ : ∀ records, Q (.ok ()) { x with records }) :
    Ends (log logger level message) x Q := by
  rw [Ends, run_log]
  exact hQ _

/-- Bound texts are seen by log lines only. -/
theorem ends_within {texts : List (String × String)} {act : Action σ α} {Q : Except Failure α → Scene σ → Prop}
    (h : ∀ logging, Ends act { x with logging } fun r y => ∀ logging, Q r { y with logging }) :
    Ends (within texts act) x Q := by
  rw [Ends, run_within]
  exact h { x.logging with context := x.logging.context.overlay texts } _

end Action
end RemoteCache
