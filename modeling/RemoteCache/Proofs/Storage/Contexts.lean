import RemoteCache.Proofs.Storage.Runs

/-!
# The contexts of log records

While a session is made ready, the endpoint is bound over the context outside. While an operation's commands are sent,
its name and its key are. Where an operation fails on a reply, its last record has the error code besides.

**Theorem (`records_in_scope`).** Whatever the scene and its peer, the records of an operation are those that are
emitted while its session is made ready, and behind them those of its commands. The former carry exactly the context
outside with the endpoint, the latter exactly the context outside with the operation and its key. Only where the
operation returns the failure of a reply, its last record tells so, and carries the code of this failure. However the
operation ends, the logging is as it was.

Steps that open no scope are `Plain`: their records carry the context that they find. A scope around them shifts what
they find, so what its records carry can be read off the scope. The commands of an operation are plain but for their
last step (`Reports`).
-/

namespace RemoteCache

open RemoteCache.Action

variable {σ α β : Type}

/-! ## Plain actions -/

namespace Action

/-- All records that the action emits carry the context that it finds, and it leaves the logging as it is. -/
def Plain (act : Action σ α) : Prop :=
  ∀ x, Ends act x fun _ y => ∃ made, y.records = made ++ x.records ∧ y.logging = x.logging ∧
    ∀ r ∈ made, r.context = x.logging.context

/-- What emits nothing is plain. -/
theorem plain_of_silent {act : Action σ α}
    (h : ∀ x, (run act x).2.records = x.records ∧ (run act x).2.logging = x.logging) : Plain act := by
  intro x
  exact ⟨[], (h x).1, (h x).2, by simp⟩

theorem plain_pure (a : α) : Plain (pure a : Action σ α) := plain_of_silent fun _ => ⟨rfl, rfl⟩

theorem plain_throw (f : Failure) : Plain (throw f : Action σ α) := plain_of_silent fun _ => ⟨rfl, rfl⟩

theorem plain_session : Plain (session : Action σ Session) := plain_of_silent fun _ => ⟨rfl, rfl⟩

theorem plain_setPhase (phase : Session.Phase) : Plain (setPhase phase : Action σ Unit) :=
  plain_of_silent fun _ => ⟨rfl, rfl⟩

theorem plain_setHandle (handle : Option Handle) : Plain (setHandle handle : Action σ Unit) :=
  plain_of_silent fun _ => ⟨rfl, rfl⟩

theorem plain_require (condition : Bool) (args : List Value) : Plain (require condition args : Action σ Unit) := by
  cases condition with
  | true => exact plain_pure ()
  | false => exact plain_throw _

theorem plain_onLine (act : Line.Action σ α) : Plain (onLine act) := by
  apply plain_of_silent
  intro x
  show Ends (onLine act) x fun _ y => y.records = x.records ∧ y.logging = x.logging
  rw [ends_onLine]
  exact ⟨rfl, rfl⟩

theorem plain_log (logger : String) (level : Logging.Level) (message : String) :
    Plain (log logger level message : Action σ Unit) := by
  intro x
  rw [Ends, run_log]
  refine ⟨_, rfl, rfl, ?_⟩
  intro r hr
  rw [Option.mem_toList, Logging.State.record?, Option.ite_none_right_eq_some] at hr
  rw [← Option.some.inj hr.2]

theorem Plain.bind {act : Action σ α} {k : α → Action σ β} (h : Plain act) (hk : ∀ a, Plain (k a)) :
    Plain (act >>= k) := by
  intro x
  rw [ends_bind]
  refine (h x).mono ?_
  intro r y hy
  cases r with
  | error f => exact hy
  | ok a =>
    obtain ⟨made, hmade, hlogging, hcontext⟩ := hy
    refine (hk a y).mono ?_
    intro r z hz
    obtain ⟨more, hmore, hlogging', hcontext'⟩ := hz
    refine ⟨more ++ made, by rw [hmore, hmade, List.append_assoc], hlogging'.trans hlogging, ?_⟩
    intro r hr
    obtain hr | hr := List.mem_append.1 hr
    · rw [hcontext' r hr, hlogging]
    · exact hcontext r hr

theorem plain_ite {c : Prop} [Decidable c] {yes no : Action σ α} (hyes : Plain yes) (hno : Plain no) :
    Plain (if c then yes else no) := by
  by_cases hc : c
  · rw [if_pos hc]
    exact hyes
  · rw [if_neg hc]
    exact hno

theorem Plain.catchingConnect {act : Action σ α} (h : Plain act) : Plain (catchingConnect act) := by
  intro x
  rw [Ends, run_catchingConnect]
  exact h x

/-- A scope that leaves its logging as it is leaves the logging outside as it was. -/
theorem logging_outside {x y : Scene σ} {inner : Logging.Context} (h : y.logging = (withContext x inner).logging) :
    (withContext y x.logging.context).logging = x.logging := by
  unfold withContext
  rw [h]
  rfl

/-- Inside a scope, records carry its texts over the context outside. -/
theorem Plain.within {act : Action σ α} (h : Plain act) (texts : List (String × String)) (x : Scene σ) :
    Ends (within texts act) x fun _ y => ∃ made, y.records = made ++ x.records ∧ y.logging = x.logging ∧
      ∀ r ∈ made, r.context = x.logging.context.overlay texts := by
  rw [Ends, run_within]
  obtain ⟨made, hmade, hlogging, hcontext⟩ := h (withContext x (x.logging.context.overlay texts))
  exact ⟨made, hmade, logging_outside hlogging, hcontext⟩

end Action

/-! ## Sessions -/

namespace Session

theorem plain_held : Plain (held : Action σ Handle) := by
  refine plain_session.bind fun s => ?_
  cases s.handle with
  | none => exact plain_throw _
  | some h => exact plain_pure h

theorem plain_readyHandle : Plain (readyHandle : Action σ Handle) :=
  plain_session.bind fun _ => (plain_require _ _).bind fun _ => plain_held

theorem plain_markStale : Plain (markStale : Action σ Unit) :=
  plain_session.bind fun _ => plain_ite ((plain_log _ _ _).bind fun _ => plain_setPhase _) (plain_pure ())

variable [Peer σ]

theorem plain_invalidate (detail : ErrorDetail) : Plain (invalidate detail : Action σ ErrorDetail) := by
  refine plain_session.bind fun s => ?_
  cases s.handle with
  | none => exact (plain_setPhase _).bind fun _ => plain_pure _
  | some h =>
    refine (plain_onLine _).bind fun _ => (plain_setHandle none).bind fun _ => ?_
    exact (plain_setPhase _).bind fun _ => plain_pure _

theorem plain_authenticate : Plain (authenticate : Action σ (Option ErrorDetail)) := by
  refine plain_held.bind fun h => plain_session.bind fun s => ?_
  cases s.settings.password with
  | none => exact (plain_setPhase _).bind fun _ => plain_pure _
  | some password =>
    refine (plain_log _ _ _).bind fun _ => (plain_onLine _).bind fun reply => plain_ite ?_ ?_
    · exact (plain_log _ _ _).bind fun _ => (plain_invalidate _).bind fun _ => plain_pure _
    · exact (plain_setPhase _).bind fun _ => plain_pure _

theorem plain_reconnect : Plain (reconnect : Action σ Bool) := by
  refine plain_held.bind fun h => (plain_onLine _).bind fun _ => (plain_onLine _).catchingConnect.bind fun result => ?_
  cases result with
  | ok _ => exact plain_pure true
  | error f =>
    refine (plain_log _ _ _).bind fun _ => (plain_onLine _).bind fun _ => ?_
    exact (plain_setHandle none).bind fun _ => plain_pure false

theorem plain_connectNew (place : String) : Plain (connectNew place : Action σ (Option ErrorDetail)) := by
  refine plain_session.bind fun s => (plain_log _ _ _).bind fun _ => (plain_onLine _).bind fun h => ?_
  refine (plain_onLine _).catchingConnect.bind fun result => ?_
  cases result with
  | ok _ => exact (plain_log _ _ _).bind fun _ => (plain_setHandle _).bind fun _ => plain_authenticate
  | error f =>
    refine (plain_log _ _ _).bind fun _ => (plain_onLine _).bind fun _ => ?_
    exact (plain_invalidate _).bind fun _ => plain_pure _

theorem plain_connect : Plain (connect : Action σ (Option ErrorDetail)) := by
  refine plain_session.bind fun s => (plain_require _ _).bind fun _ => plain_ite (plain_connectNew _) ?_
  exact (plain_log _ _ _).bind fun _ => (plain_invalidate _).bind fun _ => plain_pure _

/-- **All records emitted while a session is made ready carry the endpoint.** -/
theorem ensureConnected_records (x : Scene σ) :
    Ends ensureConnected x fun _ y => ∃ made, y.records = made ++ x.records ∧ y.logging = x.logging ∧
      ∀ r ∈ made, r.context = x.logging.context.overlay x.session.connectContext := by
  unfold ensureConnected
  rw [Ends, run_session_bind]
  cases x.session.phase with
  | ready | invalid => exact ⟨[], rfl, rfl, by simp⟩
  | unconnected | connecting =>
    have hplain : Plain (σ := σ) (if x.session.handle.isSome then do
        if ← reconnect then authenticate else connect
      else connect) :=
      plain_ite (plain_reconnect.bind fun _ => plain_ite plain_authenticate plain_connect) plain_connect
    exact hplain.within _ { x with session := { x.session with phase := .connecting } }

end Session

namespace Storage

variable {key : String}

/-! ## Commands -/

/-- The logging with some texts over its context. -/
def bound (logging : Logging.State) (texts : List (String × String)) : Logging.State :=
  { logging with context := logging.context.overlay texts }

/-- The record that tells of a failure and the reply behind it, if it is emitted. It carries the failure's code. -/
def failureRecord? (logging : Logging.State) (detail : ErrorDetail) (action key : String) (reply : Reply) :
    Option Logging.Record :=
  (bound logging [("error_code", detail.code.name)]).record? {
    logger, level := .warning, message := "Failed to " ++ action ++ " " ++ key ++ " in redis: " ++ reply.describe }

/-- What commands emit, the latest first: where they return a failure, the latest record tells of its reply. All other
records carry the context that the commands find. -/
def Reported (logging : Logging.State) (key : String) : Except Failure (Outcome α) → List Logging.Record → Prop
  | .ok (.failure detail), made => ∃ action reply rest, detail = .ofReply reply ∧
      made = (failureRecord? logging detail action key reply).toList ++ rest ∧ ∀ r ∈ rest, r.context = logging.context
  | _, made => ∀ r ∈ made, r.context = logging.context

/-- Records that were emitted before, in the same context. -/
theorem Reported.append {logging : Logging.State} {result : Except Failure (Outcome α)}
    {made before : List Logging.Record} (h : Reported logging key result made)
    (hbefore : ∀ r ∈ before, r.context = logging.context) : Reported logging key result (made ++ before) := by
  have hall {made : List Logging.Record} (hmade : ∀ r ∈ made, r.context = logging.context) :
      ∀ r ∈ made ++ before, r.context = logging.context := by
    intro r hr
    obtain hr | hr := List.mem_append.1 hr
    · exact hmade r hr
    · exact hbefore r hr
  match result, h with
  | .error _, h => exact hall h
  | .ok (.success _), h => exact hall h
  | .ok (.failure _), h =>
    obtain ⟨action, reply, rest, hdetail, rfl, hrest⟩ := h
    exact ⟨action, reply, rest ++ before, hdetail, List.append_assoc .., hall hrest⟩

/-- The commands report as `Reported` says, and leave the logging as it is. -/
def Reports (key : String) (commands : Action σ (Outcome α)) : Prop :=
  ∀ x, Ends commands x fun result y => ∃ made, y.records = made ++ x.records ∧ y.logging = x.logging ∧
    Reported x.logging key result made

theorem reports_success (value : α) : Reports key (pure (.success value) : Action σ (Outcome α)) :=
  fun _ => ⟨[], rfl, rfl, List.forall_mem_nil _⟩

theorem reports_failed (action : String) (reply : Reply) :
    Reports key (failed action key reply : Action σ (Outcome α)) := by
  intro x
  unfold failed
  rw [ends_bind, Ends, run_within, run_log]
  exact ⟨_, rfl, rfl, action, reply, [], rfl, (List.append_nil _).symm, by simp⟩

theorem reports_bind {act : Action σ β} {k : β → Action σ (Outcome α)} (h : Plain act)
    (hk : ∀ b, Reports key (k b)) : Reports key (act >>= k) := by
  intro x
  rw [ends_bind]
  refine (h x).mono ?_
  intro r y hy
  cases r with
  | error f => exact hy
  | ok b =>
    obtain ⟨before, hbefore, hlogging, hcontext⟩ := hy
    refine (hk b y).mono ?_
    intro result z hz
    obtain ⟨made, hmade, hlogging', hreported⟩ := hz
    rw [hlogging] at hreported
    exact ⟨made ++ before, by rw [hmade, hbefore, List.append_assoc], hlogging'.trans hlogging,
      hreported.append hcontext⟩

/-- Inside the scope of an operation the commands report in its context. -/
theorem Reports.within {commands : Action σ (Outcome α)} (h : Reports key commands) (name : String) (x : Scene σ) :
    Ends (within (operationContext name key) commands) x fun result y => ∃ made, y.records = made ++ x.records ∧
      y.logging = x.logging ∧ Reported (bound x.logging (operationContext name key)) key result made := by
  rw [Ends, run_within]
  obtain ⟨made, hmade, hlogging, hreported⟩ := h (withContext x (x.logging.context.overlay (operationContext name key)))
  exact ⟨made, hmade, logging_outside hlogging, hreported⟩

variable [Peer σ]

theorem plain_announced (command : Command) (key : String) : Plain (announced command key : Action σ Reply) := by
  refine (plain_log _ _ _).bind fun _ => Session.plain_readyHandle.bind fun h => (plain_onLine _).bind fun reply => ?_
  cases reply.tag with
  | null => exact Session.plain_markStale.bind fun _ => plain_pure _
  | _ => exact plain_pure _

theorem reports_set (d : Digest) (value : Bytes) : Reports d.key (set d value : Action σ (Outcome Bool)) := by
  refine reports_bind (plain_announced _ _) fun reply => ?_
  cases reply.tag with
  | status _ => exact reports_success true
  | _ => exact reports_failed "set" reply

theorem reports_setIfMissing (d : Digest) (value : Bytes) :
    Reports d.key (setIfMissing d value : Action σ (Outcome Bool)) := by
  refine reports_bind (plain_announced _ _) fun reply => ?_
  cases reply.tag with
  | integer n =>
    show Reports d.key (if 0 < n then pure (.success false) else set d value)
    by_cases hn : 0 < n
    · rw [if_pos hn]
      exact reports_success false
    · rw [if_neg hn]
      exact reports_set d value
  | null => exact reports_failed "check" reply
  | _ => exact reports_bind (plain_log _ _ _) fun _ => reports_set d value

/-! ## Operations -/

/-- The name that an operation goes by, and the artifact that it is about. -/
def Operation.scope? : Operation → Option (String × Digest)
  | .get d => some ("get", d)
  | .put d _ _ => some ("put", d)
  | .remove d => some ("remove", d)
  | .close => none

theorem run_operation (name key : String) (commands : Action σ (Outcome α)) (x : Scene σ) :
    run (operation name key commands) x = match run Session.ensureConnected x with
      | (.ok none, y) => run (within (operationContext name key) commands) y
      | (.ok (some detail), y) => (.ok (.failure detail), y)
      | (.error f, y) => (.error f, y) := by
  unfold operation
  rw [run_bind]
  obtain ⟨ready, y⟩ := run Session.ensureConnected x
  cases ready with
  | error f => rfl
  | ok refused => cases refused <;> rfl

/-- The records of an operation, given what its commands report. -/
theorem operation_records {commands : Action σ (Outcome α)} (hcommands : Reports key commands) (name : String)
    (x : Scene σ) :
    let ready := run Session.ensureConnected x
    let done := run (operation name key commands) x
    ∃ connecting serving, ready.2.records = connecting ++ x.records ∧
      done.2.records = serving ++ connecting ++ x.records ∧
      (∀ r ∈ connecting, r.context = x.logging.context.overlay x.session.connectContext) ∧
      (ready.1 = .ok none → Reported (bound x.logging (operationContext name key)) key done.1 serving) ∧
      (ready.1 ≠ .ok none → serving = []) ∧ done.2.logging = x.logging := by
  dsimp only
  obtain ⟨connecting, hconnecting, hlogging, hcontext⟩ := Session.ensureConnected_records x
  rw [run_operation]
  generalize run Session.ensureConnected x = ready at hconnecting hlogging ⊢
  obtain ⟨result, y⟩ := ready
  dsimp only at hconnecting hlogging ⊢
  cases result with
  | error f => exact ⟨connecting, [], hconnecting, hconnecting, hcontext, nofun, fun _ => rfl, hlogging⟩
  | ok refused =>
    cases refused with
    | some detail => exact ⟨connecting, [], hconnecting, hconnecting, hcontext, nofun, fun _ => rfl, hlogging⟩
    | none =>
      obtain ⟨serving, hserving, hlogging', hreported⟩ := hcommands.within name y
      rw [hconnecting] at hserving
      rw [hlogging] at hlogging' hreported
      exact ⟨connecting, serving, hconnecting, by rw [hserving, List.append_assoc], hcontext, fun _ => hreported,
        fun hne => absurd rfl hne, hlogging'⟩

theorem Operation.reports (op : Operation) {name : String} {d : Digest} (hop : op.scope? = some (name, d)) :
    ∃ commands : Action σ (Outcome op.Value), op.act = operation name d.key commands ∧ Reports d.key commands := by
  cases op with
  | get d =>
    cases hop
    refine ⟨_, rfl, reports_bind (plain_announced _ _) fun reply => ?_⟩
    cases reply.tag with
    | string b => exact reports_success (some b)
    | nil => exact reports_success none
    | _ => exact reports_failed "get" reply
  | put d value onlyIfMissing =>
    cases hop
    refine ⟨_, rfl, ?_⟩
    cases onlyIfMissing with
    | true => exact reports_setIfMissing d value
    | false => exact reports_set d value
  | remove d =>
    cases hop
    refine ⟨_, rfl, reports_bind (plain_announced _ _) fun reply => ?_⟩
    cases reply.tag with
    | integer n => exact reports_success (decide (0 < n))
    | _ => exact reports_failed "del" reply
  | close => cases hop

/-- **Records carry the scopes that they are emitted in, and no scope is left open.** Those of the connection name the
endpoint, those of the commands the operation and its key. -/
theorem records_in_scope (op : Operation) {name : String} {d : Digest} (hop : op.scope? = some (name, d))
    (x : Scene σ) :
    let endpoint := x.session.endpoint
    let ready := run Session.ensureConnected x
    let done := op.perform x
    ∃ connecting serving, ready.2.records = connecting ++ x.records ∧
      done.2.records = serving ++ connecting ++ x.records ∧
      (∀ r ∈ connecting, r.context = x.logging.context.overlay [("backend", "redis"),
        ("endpoint", if endpoint.describe = "" then endpoint.url else endpoint.describe)]) ∧
      (ready.1 = .ok none → Reported (bound x.logging [("backend", "redis"), ("operation", name), ("key", d.key)])
        d.key done.1 serving) ∧
      (ready.1 ≠ .ok none → serving = []) ∧ done.2.logging = x.logging := by
  obtain ⟨commands, hact, hcommands⟩ := op.reports (σ := σ) hop
  have hperform : op.perform x = run (operation name d.key commands) x := by
    rw [Operation.perform, hact]
  intro endpoint ready done
  -- What is bound is `Session.connectContext` and `operationContext`, written out.
  rw [show done = _ from hperform]
  exact operation_records hcommands name x

/-- A read that is answered by an error: two records of the connection, then the command and the failure. -/
theorem records_in_scope_of_error :
    let logging : Logging.State :=
      { context := [("service", "cache")], level := .debug, sinks := [⟨.debug, .json⟩] }
    let host := (Scene.onHost ({} : Steady)).session
    let d : Digest := ⟨List.replicate 20 0, rfl⟩
    let store : Scene Steady :=
      Scene.fresh host.endpoint host.settings { receiving := .error (.store .response "LOADING") } logging
    let done := (Operation.get d).perform store
    let connecting := [("service", "cache"), ("backend", "redis"), ("endpoint", "localhost:6379")]
    let reading := [("service", "cache"), ("backend", "redis"), ("operation", "get"), ("key", d.key)]
    done.2.records.map (·.context) =
        [reading ++ [("error_code", "ERROR_REPLY")], reading, connecting, connecting] ∧
      done.2.logging = logging ∧ ∃ made before, done.2.records = made ++ before ∧
        (∀ r ∈ before, r.context = connecting) ∧
        Reported (bound logging [("backend", "redis"), ("operation", "get"), ("key", d.key)]) d.key done.1 made := by
  intro logging host d store done connecting reading
  have hconnecting : logging.context.overlay store.session.connectContext = connecting := by decide +kernel
  obtain ⟨before, made, -, hmade, hbefore, hreported, -, hlogging⟩ := records_in_scope (.get d) rfl store
  refine ⟨by decide +kernel, hlogging, made, before, ?_, ?_, hreported rfl⟩
  · rw [hmade]
    exact List.append_nil _
  · rw [← hconnecting]
    exact hbefore

end Storage

end RemoteCache
