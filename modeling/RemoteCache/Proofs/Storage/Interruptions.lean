import RemoteCache.Proofs.Storage.Agreement
import RemoteCache.Proofs.Storage.Assertions

/-!
# Failures that pass

A session deals with the failures of a connection that are store, system or value failures, and with the store failures
of a command. All others are *unhandled* (`Call.unhandled?`).

**Theorem (`failures_that_pass`).** Whatever the peer does in a run of a store with the supported scheme, from a fresh
scene: a failure passes out of the next operation exactly if it is the unhandled failure of one of the calls of this
operation, and no text stays bound in the logging context. A failure that passes was raised by the latest call, and
where it was raised tells what is left behind (`Escaped`):

* by a connection or by the login: no data command was sent, the session is connecting, and from there every operation
  goes as from an unconnected session and connects again (`StartsOver`), whatever the peer has become in the meantime;
* by a data command: the session is still ready, and holds the handle that the command was sent on.

Every course either returns, and then all its calls are handled, or its latest call raises the failure that passes and
the calls before it are handled (`Raises`). So there is at most one unhandled call, and nothing is called after it.
-/

namespace RemoteCache

/-- The failure of a call, if no session deals with it. -/
def Call.unhandled? : Call → Option Failure
  | .connect _ (.error f) => if f.isConnectFailure then none else some f
  | .send _ _ (.error f) | .receive _ (.error f) => if f.isStore then none else some f
  | _ => none

namespace Failure

variable {f : Failure}

theorem isStore_of_isErrorReply (h : f.isErrorReply = true) : f.isStore = true := by
  unfold isErrorReply at h
  unfold isStore
  cases hkind : f.kind <;> simp_all

theorem isStore_of_isAuthentication (h : f.isAuthentication = true) : f.isStore = true := by
  unfold isAuthentication at h
  unfold isStore
  cases hkind : f.kind <;> simp_all

end Failure

/-- A failure of a command passes exactly if it is no store failure. -/
theorem Reply.ofExchange_error (name : String) (f : Failure) :
    ofExchange name (.error f) = .error f ↔ f.isStore = false := by
  obtain ⟨hrefused, heq⟩ | ⟨⟨hstore, -⟩, heq⟩ | ⟨hstore, heq⟩ := ofExchange_cases name f
  · have hstore : f.isStore = true := hrefused.elim Failure.isStore_of_isErrorReply Failure.isStore_of_isAuthentication
    simp [heq, hstore]
  · simp [heq, hstore]
  · simp [heq, hstore]

namespace Line

/-! ## Calls and their failures -/

/-- Every failure of some calls is dealt with. -/
def Handled (calls : List Call) : Prop := ∀ call ∈ calls, call.unhandled? = none

@[simp] theorem handled_nil : Handled [] := by simp [Handled]

@[simp] theorem handled_cons (call : Call) (calls : List Call) :
    Handled (call :: calls) ↔ call.unhandled? = none ∧ Handled calls := by simp [Handled]

@[simp] theorem handled_append (calls before : List Call) :
    Handled (calls ++ before) ↔ Handled calls ∧ Handled before := by
  simp only [Handled, List.mem_append, or_imp, forall_and]

/-- The latest call on `h` raised a failure that is not dealt with: a connection, or a command or its answer. -/
inductive Raised (f : Failure) (h : Handle) : Option Command → List Call → Prop
  | connecting {before : List Call} : f.isConnectFailure = false → Raised f h none (.connect h (.error f) :: before)
  | sending {c : Command} {before : List Call} : f.isStore = false →
      Raised f h (some c) (.send h c (.error f) :: before)
  | receiving {c : Command} {before : List Call} : f.isStore = false →
      Raised f h (some c) (.receive h (.error f) :: .send h c (.ok ()) :: before)

/-- The latest call raised a failure, and the failures of the calls before it are dealt with. -/
structure Raises (f : Failure) (h : Handle) (origin : Option Command) (calls : List Call) : Prop where
  raised : Raised f h origin calls
  handled : Handled calls.tail

variable {f : Failure} {h : Handle} {c : Command} {origin : Option Command} {calls before : List Call}

theorem Raised.append (hraised : Raised f h origin calls) (before : List Call) :
    Raised f h origin (calls ++ before) := by
  cases hraised with
  | connecting hf => exact .connecting hf
  | sending hf => exact .sending hf
  | receiving hf => exact .receiving hf

theorem Raises.append (hraises : Raises f h origin calls) (hbefore : Handled before) :
    Raises f h origin (calls ++ before) := by
  refine ⟨hraises.raised.append before, ?_⟩
  obtain ⟨hraised, hhandled⟩ := hraises
  cases hraised with
  | connecting | sending | receiving => simpa [hbefore] using hhandled

/-- Where the latest call raised a failure and the others are dealt with, it is the one unhandled failure. -/
theorem Raises.unhandled_iff (hraises : Raises f h origin calls) (g : Failure) :
    (∃ call ∈ calls, call.unhandled? = some g) ↔ f = g := by
  obtain ⟨hraised, hhandled⟩ := hraises
  have hlatest {call : Call} {before : List Call} (hcall : call.unhandled? = some f) (hbefore : Handled before) :
      (∃ call' ∈ call :: before, call'.unhandled? = some g) ↔ f = g := by
    simp only [List.mem_cons, exists_eq_or_imp, hcall, Option.some.injEq, or_iff_left_iff_imp]
    rintro ⟨call', hmem, hg⟩
    rw [hbefore call' hmem] at hg
    cases hg
  cases hraised with
  | connecting hf => exact hlatest (by simp [Call.unhandled?, hf]) hhandled
  | sending hf | receiving hf => exact hlatest (by simp [Call.unhandled?, hf]) hhandled

theorem Handled.unhandled_iff (hhandled : Handled calls) (g : Failure) :
    ¬ ∃ call ∈ calls, call.unhandled? = some g := by
  rintro ⟨call, hmem, hg⟩
  rw [hhandled call hmem] at hg
  cases hg

/-- An exchange with a reply has no unhandled failure. -/
theorem Exchange.handled {reply : Reply} (hex : Exchange h c calls (.ok reply)) : Handled calls := by
  generalize hr : (Except.ok reply : Except Failure Reply) = r at hex
  have hstore {f : Failure} (hf : Except.ok reply = Reply.ofExchange c.name (.error f)) : f.isStore = true := by
    by_cases hstore : f.isStore = true
    · exact hstore
    · rw [(Reply.ofExchange_error c.name f).2 (by simpa using hstore)] at hf
      cases hf
  cases hex with
  | unsent f => simp [Call.unhandled?, hstore hr]
  | answered r =>
    cases r with
    | error f => simp [Call.unhandled?, hstore hr]
    | ok a => simp [Call.unhandled?]

theorem Exchange.raises (hex : Exchange h c calls (.error f)) : Raises f h (some c) calls := by
  generalize hr : (Except.error f : Except Failure Reply) = r at hex
  cases hex with
  | unsent g =>
    cases Reply.eq_error_of_ofExchange hr.symm
    exact ⟨.sending ((Reply.ofExchange_error c.name f).1 hr.symm), handled_nil⟩
  | answered r =>
    cases Reply.eq_error_of_ofExchange hr.symm
    exact ⟨.receiving ((Reply.ofExchange_error c.name f).1 hr.symm), by simp [Call.unhandled?]⟩

end Line

open RemoteCache.Action Line

namespace Session

variable {s t : Session} {h n : Handle} {calls : List Call} {refused : Option ErrorDetail} {f : Failure}

/-! ## Making a session ready -/

theorem Login.handled (hl : Login s h calls (.ok refused) t) : Handled calls := by
  cases hl with
  | needless => exact handled_nil
  | accepted _ hex => exact hex.handled
  | rejected _ hex => simpa [Call.unhandled?] using hex.handled

theorem Opening.handled (ho : Opening s n calls (.ok refused) t) : Handled calls := by
  cases ho with
  | nowhere => exact handled_nil
  | opened _ hl => simpa [Call.unhandled?] using hl.handled
  | refused hf => simp [Call.unhandled?, hf]

theorem Readying.handled (hr : Readying s n calls (.ok refused) t) : Handled calls := by
  cases hr with
  | ready | invalid => exact handled_nil
  | fresh _ _ _ ho => exact ho.handled
  | reopened _ _ _ hl => simpa [Call.unhandled?] using hl.handled
  | replaced _ _ _ hf ho => simpa [Call.unhandled?, hf] using ho.handled

/-- A failure passes from a connection or from the login. -/
def Interrupts (f : Failure) (calls : List Call) : Prop :=
  ∃ h origin, (∀ c, origin = some c → c.isAuth = true) ∧ Raises f h origin calls

theorem Interrupts.ne_nil (hi : Interrupts f calls) : calls ≠ [] := by
  rintro rfl
  obtain ⟨h, origin, -, hraised, -⟩ := hi
  cases hraised

theorem Interrupts.append {before : List Call} (hi : Interrupts f calls) (hbefore : Handled before) :
    Interrupts f (calls ++ before) := by
  obtain ⟨h, origin, horigin, hraises⟩ := hi
  exact ⟨h, origin, horigin, hraises.append hbefore⟩

theorem Login.interrupts (hl : Login s h calls (.error f) t) : Interrupts f calls := by
  cases hl with
  | interrupted _ hex =>
    refine ⟨h, some _, ?_, hex.raises⟩
    rintro _ ⟨⟩
    simp

theorem Opening.interrupts (ho : Opening s n calls (.error f) t)
    (hscheme : s.endpoint.scheme = Endpoint.supportedScheme) : Interrupts f calls := by
  cases ho with
  | unsupported hne => exact absurd hscheme hne
  | opened _ hl => exact hl.interrupts.append (by simp [Call.unhandled?])
  | interrupted hf => exact ⟨n, none, nofun, .connecting hf, by simp [Call.unhandled?]⟩

theorem Readying.interrupts (hr : Readying s n calls (.error f) t)
    (hscheme : s.endpoint.scheme = Endpoint.supportedScheme) : Interrupts f calls := by
  cases hr with
  | fresh _ _ _ ho => exact ho.interrupts hscheme
  | reopened _ _ _ hl => exact hl.interrupts.append (by simp [Call.unhandled?])
  | replaced _ _ _ hf ho => exact (ho.interrupts hscheme).append (by simp [Call.unhandled?, hf])
  | interrupted _ _ _ hf => exact ⟨_, none, nofun, .connecting hf, by simp [Call.unhandled?]⟩

theorem Readying.phase_of_error (hs : s.Sound) (hr : Readying s n calls (.error f) t) : t.phase = .connecting := by
  by_cases hinvalid : s.phase = .invalid
  · obtain ⟨-, herror, -⟩ := hr.of_invalid hinvalid
    cases herror
  · exact hr.fits hs hinvalid

theorem Opening.connects {r : Answered} (ho : Opening s n calls r t)
    (hplace : s.endpoint.Connectable) : ∃ result, Call.connect n result ∈ calls := by
  cases ho with
  | unsupported hne => exact absurd hplace.1 hne
  | nowhere htcp hunix => simp [Endpoint.Connectable, htcp, hunix] at hplace
  | opened => exact ⟨.ok (), by simp⟩
  | @refused f | @interrupted f => exact ⟨.error f, by simp⟩

/-- A session that is connecting connects again if it can. -/
theorem Readying.connects {r : Answered} (hr : Readying s n calls r t) (hphase : s.phase = .connecting)
    (hplace : s.endpoint.Connectable) : ∃ h result, Call.connect h result ∈ calls := by
  cases hr with
  | ready hready => simp [hphase] at hready
  | invalid hinvalid => simp [hphase] at hinvalid
  | fresh _ _ _ ho =>
    obtain ⟨result, hmem⟩ := ho.connects hplace
    exact ⟨n, result, hmem⟩
  | @reopened h => exact ⟨h, .ok (), by simp⟩
  | @replaced h f | @interrupted h f => exact ⟨h, .error f, by simp⟩

end Session

/-- The scene with its session unconnected. -/
def Scene.unconnected {σ : Type} (x : Scene σ) : Scene σ :=
  { x with session := { x.session with phase := .unconnected } }

namespace Storage

variable {s t : Session} {c : Command} {op : Operation} {calls : List Call} {n : Handle} {f : Failure}

/-! ## The commands -/

theorem Issuing.handled {reply : Reply} (hi : Issuing s c calls (.ok reply) t) : Handled calls := by
  cases hi with
  | answered _ _ hex | lost _ _ hex => exact hex.handled

/-- A failure passes from a data command; the session is ready, and holds the handle of the command. -/
def Breaks (f : Failure) (calls : List Call) (t : Session) : Prop :=
  ∃ h c, c.isData = true ∧ Raises f h (some c) calls ∧ t.phase = .ready ∧ t.handle = some h

theorem Breaks.append {before : List Call} (hb : Breaks f calls t) (hbefore : Handled before) :
    Breaks f (calls ++ before) t := by
  obtain ⟨h, c, hc, hraises, ht⟩ := hb
  exact ⟨h, c, hc, hraises.append hbefore, ht⟩

theorem Issuing.breaks (hi : Issuing s c calls (.error f) t) (hs : Issuable s) (hc : c.isData = true) :
    Breaks f calls t := by
  cases hi with
  | idle hidle =>
    obtain ⟨hready, h, hh⟩ := hs
    simp [hready, hh] at hidle
  | interrupted hready hh hex => exact ⟨_, c, hc, hex.raises, hready, hh⟩

theorem Serving.handled {outcome : Outcome op.Value} (hserve : Serving s op calls (.ok outcome) t) :
    Handled calls := by
  generalize hr : (Except.ok outcome : op.Result) = r at hserve
  cases hserve with
  | get hi | remove hi | put hi =>
    obtain ⟨reply, rfl, -⟩ := Results.map_eq_ok.1 hr.symm
    exact hi.handled
  | unasked => cases hr
  | unanswered hi | kept hi => exact hi.handled
  | written hi _ hi' =>
    obtain ⟨reply, rfl, -⟩ := Results.map_eq_ok.1 hr.symm
    rw [handled_append]
    exact ⟨hi'.handled, hi.handled⟩

theorem Serving.breaks (hserve : Serving s op calls (.error f) t) (hs : Issuable s) : Breaks f calls t := by
  generalize hr : (Except.error f : op.Result) = r at hserve
  cases hserve with
  | get hi | remove hi | put hi =>
    rw [Results.map_eq_error.1 hr.symm] at hi
    exact hi.breaks hs (by simp)
  | unasked hi =>
    cases hr
    exact hi.breaks hs (by simp)
  | unanswered | kept => cases hr
  | written hi hlets hi' =>
    rw [Results.map_eq_error.1 hr.symm] at hi'
    have hissuable := hi.issuable (Reply.tag_ne_null_of_letsWrite hlets)
    exact (hi'.breaks hissuable (by simp)).append hi.handled

/-! ## Operations -/

theorem Operating.handled {outcome : Outcome op.Value} (ho : Operating s n op calls (.ok outcome) t) :
    Handled calls := by
  cases ho with
  | closed hc =>
    cases hc with
    | idle => exact handled_nil
    | held => simp [Call.unhandled?]
  | unready _ hr => exact hr.handled
  | served hr hserve =>
    rw [handled_append]
    exact ⟨hserve.handled, hr.handled⟩

/-- How a failure passes out of an operation: before its session is ready, or from one of its commands. -/
theorem Operating.escapes {r : op.Result} (ho : Operating s n op calls r t) (hs : s.Sound) (hplaced : s.Placed)
    (hscheme : s.endpoint.scheme = Endpoint.supportedScheme) (hr : r = .error f) :
    (Session.Interrupts f calls ∧ Sends (·.isData = false) calls ∧ t.phase = .connecting ∧ t.endpoint.Connectable) ∨
      Breaks f calls t := by
  cases ho with
  | closed | unready => cases hr
  | interrupted _ hready =>
    cases hr
    have hinterrupts := hready.interrupts hscheme
    refine .inl ⟨hinterrupts, hready.sends_no_data, hready.phase_of_error hs, ?_⟩
    rw [hready.continues.endpoint_eq]
    exact hready.connectable hplaced hinterrupts.ne_nil
  | served hready hserve =>
    subst hr
    exact .inr ((hserve.breaks (hready.ready_of_none hs)).append hready.handled)

variable {σ : Type} [Peer σ]

/-! ## Starting over -/

/-- A connecting session is made ready as an unconnected one. -/
theorem ensureConnected_unconnected {x : Scene σ} (hphase : x.session.phase = .connecting) :
    run Session.ensureConnected x = run Session.ensureConnected x.unconnected := by
  unfold Session.ensureConnected
  rw [run_session_bind, run_session_bind, hphase]
  rfl

theorem operation_unconnected {α : Type} {x : Scene σ} (hphase : x.session.phase = .connecting) (name key : String)
    (commands : Action σ (Outcome α)) :
    run (operation name key commands) x = run (operation name key commands) x.unconnected := by
  unfold operation
  rw [run_bind, run_bind, ensureConnected_unconnected hphase]

theorem close_unconnected (x : Scene σ) : run Session.close x = run Session.close x.unconnected := by
  have hh : x.unconnected.session.handle = x.session.handle := rfl
  unfold Session.close
  rw [run_session_bind, run_session_bind]
  simp only [hh]
  cases x.session.handle with
  | none => rfl
  | some h =>
    simp only [run_bind (log _ _ _), run_log]
    rfl

theorem Operation.perform_unconnected {x : Scene σ} (hphase : x.session.phase = .connecting) (op : Operation) :
    op.perform x = op.perform x.unconnected := by
  cases op with
  | get d | put d value onlyIfMissing | remove d => exact operation_unconnected hphase _ _ _
  | close =>
    show run (Session.close >>= _) x = run (Session.close >>= _) x.unconnected
    rw [run_bind, run_bind, close_unconnected x]

/-- Whatever the peer has become, an operation goes as on an unconnected session, and it connects unless it closes. -/
def StartsOver (y : Scene σ) : Prop :=
  ∀ (peer : σ) (next : Operation), next.perform (y.withPeer peer) = next.perform (y.unconnected.withPeer peer) ∧
    (next ≠ .close → ∃ calls, (next.perform (y.withPeer peer)).2.line.calls = calls ++ y.line.calls ∧
      ∃ h result, Call.connect h result ∈ calls)

theorem startsOver {y : Scene σ} (hphase : y.session.phase = .connecting)
    (hplace : y.session.endpoint.Connectable) : StartsOver y := by
  intro peer next
  refine ⟨Operation.perform_unconnected (x := y.withPeer peer) hphase next, fun hnext => ?_⟩
  obtain ⟨calls, hcourse, hcalls⟩ := next.course (y.withPeer peer)
  refine ⟨calls, hcalls.calls_eq, ?_⟩
  generalize (next.perform (y.withPeer peer)).1 = r, (next.perform (y.withPeer peer)).2 = z at hcourse
  cases hcourse with
  | closed => exact absurd rfl hnext
  | interrupted _ hr | unready _ hr => exact hr.connects hphase hplace
  | served hr =>
    obtain ⟨h, result, hmem⟩ := hr.connects hphase hplace
    exact ⟨h, result, List.mem_append_right _ hmem⟩

/-! ## What stays bound -/

theorem within_restores {σ α : Type} (x : Scene σ) (texts : List (String × String)) (act : Action σ α) :
    Ends (within texts act) x fun _ y => y.logging.context = x.logging.context := by
  rw [Ends, run_within]
  rfl

theorem operation_restores {α : Type} (x : Scene σ) (name key : String) (commands : Action σ (Outcome α)) :
    Ends (operation name key commands) x fun _ y => y.logging.context = x.logging.context := by
  have hready : Ends Session.ensureConnected x fun _ y => y.logging.context = x.logging.context := by
    unfold Session.ensureConnected
    simp only [ends_bind, ends_session]
    cases x.session.phase with
    | ready | invalid => exact rfl
    | unconnected | connecting => exact within_restores _ _ _
  unfold operation
  rw [ends_bind]
  refine Ends.mono hready ?_
  intro r y hy
  cases r with
  | error f => exact hy
  | ok refused =>
    cases refused with
    | some detail => exact hy
    | none => exact Ends.mono (within_restores y _ _) fun _ _ hz => hz.trans hy

/-- No operation leaves a text bound in the logging context. -/
theorem Operation.restores (op : Operation) (x : Scene σ) :
    (op.perform x).2.logging.context = x.logging.context := by
  cases op with
  | get d | put d value onlyIfMissing | remove d => exact operation_restores x _ _ _
  | close =>
    have hclose : Ends Operation.close.act x fun _ y => y.logging.context = x.logging.context := by
      unfold Operation.act Session.close
      simp only [ends_bind, ends_session]
      cases x.session.handle with
      | none => exact rfl
      | some h =>
        simp only [ends_bind]
        refine ends_log _ fun _ => ?_
        rw [ends_onLine]
        exact ends_disconnect fun m hm => rfl
    exact hclose

/-! ## Runs -/

/-- How a failure passes out of an operation with these calls, and what it leaves behind. -/
inductive Escaped (f : Failure) (calls : List Call) (y : Scene σ) : Prop
  | connecting {h : Handle} {origin : Option Command} : (∀ c, origin = some c → c.isAuth = true) →
      Raised f h origin calls → Sends (·.isData = false) calls → y.session.phase = .connecting → StartsOver y →
      Escaped f calls y
  | serving {h : Handle} {c : Command} : c.isData = true → Raised f h (some c) calls → y.session.phase = .ready →
      y.session.handle = some h → Escaped f calls y

/-- **A failure passes exactly if it is raised and unhandled**, unchanged and with no text left bound, and where it was
raised tells what is left behind. -/
theorem failures_that_pass {endpoint : Endpoint} {settings : BackendSettings} {peer : σ} {logging : Logging.State}
    {attempts : List Attempt} {x : Scene σ} (hscheme : endpoint.scheme = Endpoint.supportedScheme)
    (hrun : Run (fun _ _ => True) (Scene.fresh endpoint settings peer logging) attempts x) (op : Operation) :
    ∃ calls, (op.perform x).2.line.calls = calls ++ x.line.calls ∧
      (∀ f, (op.perform x).1 = .error f ↔ ∃ call ∈ calls, call.unhandled? = some f) ∧
      (∀ f, (op.perform x).1 = .error f → Escaped f calls (op.perform x).2) ∧
      (op.perform x).2.logging.context = x.logging.context := by
  have hsound : x.session.Sound := hrun.sound (Scene.sound_fresh ..)
  have hplaced : x.session.Placed :=
    hrun.preserves_session (fun _ hh => by simp [Scene.fresh] at hh) fun ho hs => ho.placed hs
  have hx : x.session.endpoint.scheme = Endpoint.supportedScheme := by
    rw [hrun.continues.endpoint_eq]
    exact hscheme
  obtain ⟨calls, hcourse, hcalls⟩ := op.course x
  refine ⟨calls, hcalls.calls_eq, ?_, ?_, op.restores x⟩
  · intro f
    cases hr : (op.perform x).1 with
    | ok outcome =>
      rw [hr] at hcourse
      exact iff_of_false (by simp) (hcourse.handled.unhandled_iff f)
    | error g =>
      obtain ⟨h, origin, hraises⟩ : ∃ h origin, Raises g h origin calls := by
        rcases hcourse.escapes hsound hplaced hx hr with ⟨⟨h, origin, -, hraises⟩, -⟩ | ⟨h, c, -, hraises, -⟩
        · exact ⟨h, origin, hraises⟩
        · exact ⟨h, some c, hraises⟩
      rw [hraises.unhandled_iff f, Except.error.injEq]
  · intro f hf
    rcases hcourse.escapes hsound hplaced hx hf with
      ⟨⟨h, origin, horigin, hraises⟩, hsends, hphase, hplace⟩ | ⟨h, c, hc, hraises, hphase, hh⟩
    · exact .connecting horigin hraises.raised hsends hphase (startsOver hphase hplace)
    · exact .serving hc hraises.raised hphase hh

/-- A failure of no family in the login passes; the session is left connecting, and starts over. -/
theorem failures_that_pass_at_login :
    let stop : Failure := .foreign "RuntimeError" "stop"
    let get : Operation := .get ⟨List.replicate 20 0, rfl⟩
    let x := Scene.onHost ({ receiving := .error stop } : Steady) (some "secret")
    (get.perform x).1 = .error stop ∧ (get.perform x).2.session.phase = .connecting ∧
      StartsOver (get.perform x).2 := by
  intro stop get x
  have hx : Run (fun _ _ => True) (Scene.onHost ({ receiving := .error stop } : Steady) (some "secret")) [] x := .start
  obtain ⟨calls, -, -, hescaped, -⟩ := failures_that_pass rfl hx get
  have hstop : (get.perform x).1 = .error stop := rfl
  cases hescaped stop hstop with
  | connecting _ _ _ hphase hover => exact ⟨hstop, hphase, hover⟩
  | serving _ _ hphase =>
    have hconnecting : (get.perform x).2.session.phase = .connecting := rfl
    rw [hphase] at hconnecting
    cases hconnecting

end Storage
end RemoteCache
