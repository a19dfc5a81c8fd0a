import RemoteCache.Proofs.Histories
import RemoteCache.Proofs.Results
import RemoteCache.Proofs.Storage.Runs

/-!
# No assertion fails

Four places of a session assert what should always hold: a handle is held where the handle is reconnected or logs in,
the scheme is the supported one where a new handle is created, and the session is ready and holds a handle where an
operation issues a command.

**Theorem (`assertions_hold`).** A store that is opened has the supported scheme. Whatever the peer does in a run of a
store with this scheme from a fresh scene, a ready session holds a handle and an invalid one holds none. Wherever an
operation issues a command, its second one included, the session is ready and holds a handle. And a failure that
passes out of an operation is what the latest call of this very operation failed with, so it is no assertion's.

`Issues x op c y` says where the commands are issued: once the session has been made ready, and once more after a
question that lets the write go ahead. There are no other such places, for every data command in the calls of an
operation is sent on the handle of one of these scenes (`Operation.issued`).
-/

namespace RemoteCache

/-! ## Stores that can be opened -/

theorem Endpoint.scheme_ofUrl {text : String} {e : Endpoint} (h : ofUrl text = .ok e) :
    ∃ parts, Url.parse text.toList = .ok parts ∧ e.scheme = String.ofList parts.scheme := by
  unfold ofUrl at h
  cases hparse : Url.parse text.toList with
  | error => simp [hparse] at h
  | ok parts =>
    rw [hparse] at h
    cases hport : portOfText? parts.portText with
    | none => simp [hport] at h
    | some port =>
      cases hread : readPort (.int (port.getD defaultPort)) with
      | error => simp [hport, hread] at h
      | ok =>
        simp only [hport, hread, Except.ok.injEq] at h
        exact ⟨parts, rfl, by rw [← h]⟩

/-- A store that is opened has the supported scheme, and its session is as it was made. -/
theorem Storage.of_build {url : String} {attributes : Attributes} {s : Session}
    (h : Storage.build url attributes = .ok s) :
    s = { endpoint := s.endpoint, settings := s.settings } ∧ s.endpoint.scheme = Endpoint.supportedScheme := by
  unfold Storage.build at h
  cases hparse : Url.parse url.toList with
  | error => simp [hparse] at h
  | ok parts =>
    simp only [hparse] at h
    by_cases hscheme : String.ofList parts.scheme = Endpoint.supportedScheme
    · rw [if_pos hscheme, Storage.ofUrl] at h
      cases hendpoint : Endpoint.ofUrl url with
      | error => simp [hendpoint] at h
      | ok endpoint =>
        cases hsettings : BackendSettings.ofAttributes attributes with
        | faulty => simp [hendpoint, hsettings] at h
        | valid settings =>
          simp only [hendpoint, hsettings, Except.ok.injEq] at h
          subst h
          obtain ⟨parts', hparse', heq⟩ := Endpoint.scheme_ofUrl hendpoint
          obtain rfl : parts = parts' := by simpa [hparse] using hparse'
          exact ⟨rfl, heq.trans hscheme⟩
    · simp [hscheme] at h

theorem Reply.tag_ne_null_of_letsWrite {reply : Reply} (h : reply.letsWrite = true) : reply.tag ≠ .null := by
  intro hnull
  simp [letsWrite, hnull] at h

/-! ## Failures that pass -/

/-- What a call failed with. -/
def Call.failure? : Call → Option Failure
  | .connect _ (.error f) | .send _ _ (.error f) | .receive _ (.error f) => some f
  | _ => none

namespace Line

/-- What the latest of some calls failed with. -/
def latestFailure? (calls : List Call) : Option Failure := calls.head?.bind Call.failure?

variable {h : Handle} {c : Command} {calls before : List Call} {f : Failure}

theorem latestFailure?_append (hcalls : latestFailure? calls = some f) (before : List Call) :
    latestFailure? (calls ++ before) = some f := by
  cases calls with
  | nil => cases hcalls
  | cons => exact hcalls

/-- An exchange lets a failure pass only if its latest call failed with it. -/
theorem Exchange.raised (hex : Exchange h c calls (.error f)) : latestFailure? calls = some f := by
  generalize hr : Except.error f = r at hex
  cases hex with
  | unsent g =>
    cases Reply.eq_error_of_ofExchange hr.symm
    rfl
  | answered r =>
    cases Reply.eq_error_of_ofExchange hr.symm
    rfl

/-- What holds of a command that is sent, and of everything received, holds throughout an exchange. -/
theorem Exchange.throughout {P : Call → List Call → Prop} {r : Except Failure Reply} (hex : Exchange h c calls r)
    (hbefore : Throughout P before) (hsend : ∀ sent, P (.send h c sent) before)
    (hreceive : ∀ received older, P (.receive h received) older) : Throughout P (calls ++ before) := by
  cases hex with
  | unsent => exact ⟨hsend _, hbefore⟩
  | answered => exact ⟨hreceive _ _, hsend _, hbefore⟩

end Line

open RemoteCache.Action Line

namespace Session

variable {s t : Session} {h n : Handle} {calls : List Call} {f : Failure}

theorem Login.raised (hl : Login s h calls (.error f) t) : latestFailure? calls = some f := by
  cases hl with
  | interrupted _ hex => exact hex.raised

theorem Opening.raised (ho : Opening s n calls (.error f) t) (hscheme : s.endpoint.scheme = Endpoint.supportedScheme) :
    latestFailure? calls = some f := by
  cases ho with
  | unsupported hne => exact absurd hscheme hne
  | opened _ hl => exact latestFailure?_append hl.raised _
  | interrupted => rfl

theorem Readying.raised (hr : Readying s n calls (.error f) t)
    (hscheme : s.endpoint.scheme = Endpoint.supportedScheme) : latestFailure? calls = some f := by
  cases hr with
  | fresh _ _ _ ho => exact ho.raised hscheme
  | reopened _ _ _ hl => exact latestFailure?_append hl.raised _
  | replaced _ _ _ _ ho => exact latestFailure?_append (ho.raised hscheme) _
  | interrupted => rfl

end Session

namespace Storage

variable {s t : Session} {c : Command} {op : Operation} {calls before : List Call} {n : Handle} {f : Failure}

/-- What a session has to be for a command to be issued. -/
def Issuable (s : Session) : Prop := s.phase = .ready ∧ ∃ h, s.handle = some h

theorem Issuing.raised (hi : Issuing s c calls (.error f) t) (hs : Issuable s) : latestFailure? calls = some f := by
  cases hi with
  | idle hidle =>
    obtain ⟨hready, h, hh⟩ := hs
    simp [hready, hh] at hidle
  | interrupted _ _ hex => exact hex.raised

/-- A command that gets a reply leaves the session as it was. -/
theorem Issuing.issuable {reply : Reply} (hi : Issuing s c calls (.ok reply) t) (hreply : reply.tag ≠ .null) :
    Issuable t := by
  cases hi with
  | answered hready hh => exact ⟨hready, _, hh⟩
  | lost _ _ _ hnull => exact absurd hnull hreply

theorem Serving.raised (hserve : Serving s op calls (.error f) t) (hs : Issuable s) :
    latestFailure? calls = some f := by
  generalize hr : (Except.error f : op.Result) = r at hserve
  cases hserve with
  | get hi | remove hi | put hi =>
    rw [Results.map_eq_error.1 hr.symm] at hi
    exact hi.raised hs
  | unasked hi =>
    cases hr
    exact hi.raised hs
  | unanswered | kept => cases hr
  | written hi hlets hi' =>
    rw [Results.map_eq_error.1 hr.symm] at hi'
    exact latestFailure?_append (hi'.raised (hi.issuable (Reply.tag_ne_null_of_letsWrite hlets))) _

/-- **What passes out of an operation is what its latest call failed with.** -/
theorem Operating.raised {r : op.Result} (ho : Operating s n op calls r t) (hs : s.Sound)
    (hscheme : s.endpoint.scheme = Endpoint.supportedScheme) (hr : r = .error f) : latestFailure? calls = some f := by
  cases ho with
  | closed => cases hr
  | unready => cases hr
  | interrupted _ hready =>
    cases hr
    exact hready.raised hscheme
  | served hready hserve =>
    subst hr
    exact latestFailure?_append (hserve.raised (hready.ready_of_none hs)) _

/-! ## Where commands are issued -/

/-- The command that an operation issues first. -/
def Operation.first? : Operation → Option Command
  | .get d => some (.get d.key)
  | .put d _ true => some (.exists? d.key)
  | .put d value false => some (.set d.key value)
  | .remove d => some (.del d.key)
  | .close => none

variable {σ : Type} [Peer σ]

/-- A scene in which an operation on `x` issues a command. What has been logged is left open. -/
inductive Issues (x : Scene σ) (op : Operation) : Command → Scene σ → Prop
  | first {c : Command} {y : Scene σ} (logging : Logging.State) (records : List Logging.Record) :
      op.first? = some c → run Session.ensureConnected x = (.ok none, y) →
      Issues x op c { y with logging, records }
  | second {d : Digest} {value : Bytes} {reply : Reply} {y z : Scene σ} (logging : Logging.State)
      (records : List Logging.Record) : op = .put d value true → Issues x op (.exists? d.key) y →
      run (issue (.exists? d.key)) y = (.ok reply, z) → reply.letsWrite = true →
      Issues x op (.set d.key value) { z with logging, records }

variable {x y z : Scene σ}

/-- **Wherever a command is issued the session is ready and holds a handle.** -/
theorem Issues.issuable (hi : Issues x op c y) (hx : x.session.Sound) : Issuable y.session := by
  cases hi with
  | first _ _ _ hrun =>
    obtain ⟨calls, hready, -⟩ := (Session.ensureConnected_course x).of_run hrun
    exact hready.ready_of_none hx
  | @second d _ _ y _ _ _ _ _ hrun hlets =>
    obtain ⟨calls, hissue, -⟩ := (issue_course y (.exists? d.key)).of_run hrun
    exact hissue.issuable (Reply.tag_ne_null_of_letsWrite hlets)

/-- Every data command in calls that follow those of `x` was issued. -/
def DataIssued (x : Scene σ) (op : Operation) : List Call → Prop :=
  Throughout fun call before => ∀ h c r, call = .send h c r → c.isData = true →
    ∃ y, Issues x op c y ∧ y.session.handle = some h ∧ y.line.calls = before ++ x.line.calls

theorem DataIssued.append {r : Except Failure Reply} (hbefore : DataIssued x op before)
    (hcalls : y.line.calls = before ++ x.line.calls) (hi : Issues x op c y)
    (hissuing : Issuing y.session c calls r t) : DataIssued x op (calls ++ before) := by
  cases hissuing with
  | idle => exact hbefore
  | answered _ hh hex | lost _ hh hex | interrupted _ hh hex =>
    apply hex.throughout hbefore
    · rintro _ _ _ _ ⟨⟩ _
      exact ⟨y, hi, hh, hcalls⟩
    · rintro _ _ _ _ _ ⟨⟩

/-- The calls of `y` follow those of `x`, and the data commands among them were issued. -/
def Follows (x : Scene σ) (op : Operation) (y : Scene σ) : Prop :=
  ∃ new, y.line.calls = new ++ x.line.calls ∧ DataIssued x op new

theorem follows_of_leads (hcalls : Leads x.line calls y.line) (hdata : Sends (·.isData = false) calls) :
    Follows x op y := by
  refine ⟨calls, hcalls.calls_eq, ?_⟩
  rw [DataIssued, ← List.append_nil calls, throughout_append]
  · trivial
  · intro call hcall _
    rintro h c r rfl hc
    rw [hdata _ hcall c rfl] at hc
    cases hc

/-! ### Operations issue their commands there -/

theorem follows_issue (hy : Follows x op y) (hi : Issues x op c y) : Follows x op (run (issue c) y).2 := by
  obtain ⟨calls, hissuing, hcalls⟩ := issue_course y c
  obtain ⟨new, heq, hnew⟩ := hy
  refine ⟨calls ++ new, ?_, hnew.append heq hi hissuing⟩
  rw [hcalls.calls_eq, heq, List.append_assoc]

theorem announced_follows {key : String} (hy : Follows x op y)
    (hi : ∀ records, Issues x op c { y with records }) :
    Ends (announced c key) y fun r z => Follows x op z ∧ ∃ records, run (issue c) { y with records } = (r, z) := by
  unfold announced
  rw [ends_bind]
  refine ends_log _ fun records => ?_
  exact ⟨follows_issue hy (hi records), records, rfl⟩

theorem looked_follows {α : Type} {look : Reply → Action σ (Outcome α)} {as : Reply → Outcome α}
    (hlook : Looks look as) {key : String} (hy : Follows x op y) (hi : ∀ records, Issues x op c { y with records }) :
    Ends (announced c key >>= look) y fun _ z => Follows x op z := by
  rw [ends_bind]
  refine Ends.mono (announced_follows hy hi) ?_
  intro r z hz
  cases r with
  | error => exact hz.1
  | ok reply => exact hlook reply z _ fun _ _ => hz.1

theorem setIfMissing_follows {d : Digest} {value : Bytes} (hop : op = .put d value true) (hy : Follows x op y)
    (hi : ∀ records, Issues x op (.exists? d.key) { y with records }) :
    Ends (setIfMissing d value) y fun _ z => Follows x op z := by
  unfold setIfMissing
  rw [ends_bind]
  refine Ends.mono (announced_follows hy hi) ?_
  rintro r z ⟨hz, records, hrun⟩
  cases r with
  | error => exact hz
  | ok reply =>
    have hwrite (hlets : reply.letsWrite = true) (more) :
        Ends (set d value) { z with records := more } fun _ w => Follows x op w :=
      looked_follows (set_looks d.key) hz fun records' =>
        .second (z := z) z.logging records' hop (hi records) hrun hlets
    obtain ⟨tag, failure⟩ := reply
    cases tag with
    | integer n =>
      by_cases hn : 0 < n
      · simp only [hn, if_true]
        exact hz
      · simp only [hn, if_false]
        exact hwrite (by simpa [Reply.letsWrite] using hn) z.records
    | null => exact failed_looks _ _ _ z _ fun _ _ => hz
    | _ =>
      simp only [ends_bind]
      exact ends_log _ (hwrite rfl)

theorem operation_follows {α : Type} {name key : String} {commands : Action σ (Outcome α)} (hfirst : op.first? = some c)
    (hcommands : ∀ y, Follows x op y → (∀ records, Issues x op c { y with records }) →
      Ends commands y fun _ z => Follows x op z) : Ends (operation name key commands) x fun _ z => Follows x op z := by
  unfold operation
  rw [ends_bind]
  refine ends_of_run ?_
  intro r y hrun
  obtain ⟨calls, hready, hcalls⟩ := (Session.ensureConnected_course x).of_run hrun
  have hy : Follows x op y := follows_of_leads hcalls hready.sends_no_data
  cases r with
  | error f => exact hy
  | ok refused =>
    cases refused with
    | some e => exact hy
    | none =>
      refine ends_within _ fun logging => Ends.mono (hcommands _ hy fun records => ?_) fun _ _ hz _ => hz
      exact .first (y := y) logging records hfirst hrun

/-- **Every data command of an operation was issued.** -/
theorem Operation.issued (op : Operation) (x : Scene σ) : Follows x op (op.perform x).2 := by
  cases op with
  | get d => exact operation_follows rfl fun y hy hi => looked_follows (get_looks d.key) hy hi
  | remove d => exact operation_follows rfl fun y hy hi => looked_follows (remove_looks d.key) hy hi
  | put d value onlyIfMissing =>
    cases onlyIfMissing with
    | true => exact operation_follows rfl fun y hy hi => setIfMissing_follows rfl hy hi
    | false => exact operation_follows rfl fun y hy hi => looked_follows (set_looks d.key) hy hi
  | close =>
    obtain ⟨calls, hcourse, hcalls⟩ := Operation.close.course x
    generalize (Operation.close.perform x).1 = r, (Operation.close.perform x).2 = y at hcourse hcalls ⊢
    cases hcourse with
    | closed hc => exact follows_of_leads hcalls (hc.sends _)
    | interrupted hne | unready hne => exact absurd rfl hne
    | served _ hserve => cases hserve

/-! ## Runs -/

/-- **No assertion of a store fails**, whatever the peer does. -/
theorem assertions_hold :
    (∀ url attributes s, Storage.build url attributes = .ok s →
      s = { endpoint := s.endpoint, settings := s.settings } ∧ s.endpoint.scheme = Endpoint.supportedScheme) ∧
    ∀ {endpoint : Endpoint} {settings : BackendSettings} {peer : σ} {logging : Logging.State}
      {attempts : List Attempt} {x : Scene σ}, endpoint.scheme = Endpoint.supportedScheme →
      Run (fun _ _ => True) (Scene.fresh endpoint settings peer logging) attempts x →
      x.session.Sound ∧
      (∀ op c y, Issues x op c y → y.session.phase = .ready ∧ ∃ h, y.session.handle = some h) ∧
      ∀ op : Operation, ∃ new, (op.perform x).2.line.calls = new ++ x.line.calls ∧
        (∀ after h c r before, new = after ++ .send h c r :: before → c.isData = true →
          ∃ y, Issues x op c y ∧ y.session.handle = some h ∧ y.line.calls = before ++ x.line.calls) ∧
        ∀ f, (op.perform x).1 = .error f → latestFailure? new = some f := by
  refine ⟨fun _ _ _ => Storage.of_build, ?_⟩
  intro endpoint settings peer logging attempts x hscheme hrun
  have hsound : x.session.Sound := hrun.sound (Scene.sound_fresh ..)
  refine ⟨hsound, fun op c y hi => hi.issuable hsound, fun op => ?_⟩
  obtain ⟨new, hnew, hissued⟩ := op.issued x
  refine ⟨new, hnew, ?_, ?_⟩
  · intro after h c r before heq hdata
    rw [heq] at hissued
    exact hissued.entry h c r rfl hdata
  · intro f hf
    obtain ⟨calls, hcourse, hcalls⟩ := op.course x
    obtain rfl : calls = new := List.append_cancel_right (hcalls.calls_eq.symm.trans hnew)
    have hx : x.session.endpoint.scheme = Endpoint.supportedScheme := by
      rw [hrun.continues.endpoint_eq]
      exact hscheme
    exact hcourse.raised hsound hx hf

/-- Where a store writes after it has found no value, its session is ready for the second command. -/
theorem assertions_hold_for_second_command :
    let put : Operation := .put ⟨List.replicate 20 0, rfl⟩ [1] true
    let x := Scene.onHost ({ receiving := .ok (.int 0) } : Steady)
    ∃ y, Issues x put (.set (Digest.key ⟨List.replicate 20 0, rfl⟩) [1]) y ∧ y.session.phase = .ready ∧
      y.session.handle = some 0 := by
  intro put x
  have hx : Run (fun _ _ => True) (Scene.onHost ({ receiving := .ok (.int 0) } : Steady)) [] x := .start
  obtain ⟨-, hready, hcalls⟩ := assertions_hold.2 rfl hx
  obtain ⟨new, hnew, hissued, -⟩ := hcalls put
  have hsent : new = [.receive 0 (.ok (.int 0))] ++
      .send 0 (.set (Digest.key ⟨List.replicate 20 0, rfl⟩) [1]) (.ok ()) :: (put.perform x).2.line.calls.drop 2 := by
    rw [← List.append_nil new]
    exact hnew.symm
  obtain ⟨y, hissues, hh, -⟩ := hissued _ _ _ _ _ hsent (by simp)
  exact ⟨y, hissues, (hready _ _ y hissues).1, hh⟩

end Storage
end RemoteCache
