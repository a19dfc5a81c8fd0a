import RemoteCache.Proofs.Storage.Runs

/-!
# Outcomes agree with the session that they leave

**Theorem (`outcome_agrees`).** Whatever the peer does in a run from a fresh scene: the outcome of the next operation
tells the phase that its session is left in (`Outcome.phase?`), by the code alone where it is a failure, and by
whether there was a reply where the code is that of a lost connection. An invalid session holds no handle, and any
other one holds the handle that the latest data command was sent on. A timeout is told apart from an error, and it is
the latest data command or the latest connection of this very operation that timed out (`Agrees`).

An operation ends in one of two ways. It ends before its session is ready (`Session.Readying.agrees`), and then the
latest connection decides; for this a session must not hold a handle to an endpoint that is nowhere
(`Session.Placed`), or a timeout while reconnecting would be reported as a missing target. Or it ends with its
commands (`Serving.agrees`), and then the reply to the latest one decides (`agrees_of_reply`).
-/

namespace RemoteCache

/-! ## The phase of an outcome -/

/-- The phase that a detail tells of. There is none for the codes of other backends. -/
def ErrorDetail.phase? (detail : ErrorDetail) : Option Session.Phase :=
  match detail.code with
  | .errorReply | .unexpectedReply => some .ready
  | .operationTimeout => some .unconnected
  | .connectionFailed => some (if (detail.metadata.lookup "reply_kind").isSome then .unconnected else .invalid)
  | .invalidEndpoint | .connectTimeout | .authRejected | .backendInvalid => some .invalid
  | .other _ => none

namespace Outcome

variable {α : Type}

/-- The phase that an outcome tells of. -/
def phase? : Outcome α → Option Session.Phase
  | .success _ => some .ready
  | .failure detail => detail.phase?

/-- The code of a failed outcome. -/
def code? : Outcome α → Option Code
  | .success _ => none
  | .failure detail => some detail.code

end Outcome

/-- The phase that a reply leaves a ready session in. -/
def Reply.phase (r : Reply) : Session.Phase :=
  match r.tag with
  | .null => .unconnected
  | _ => .ready

namespace ErrorDetail

theorem phase?_ofReply (reply : Reply) : (ofReply reply).phase? = some reply.phase := by
  obtain ⟨tag, failure⟩ := reply
  cases tag with
  | null =>
    simp only [ofReply, Reply.phase]
    split <;> rfl
  | _ => rfl

/-- A reply means a timeout if there is none because of one. -/
theorem code_ofReply (reply : Reply) :
    (ofReply reply).code = .operationTimeout ↔ reply.tag = .null ∧ reply.isTimeout = true := by
  obtain ⟨tag, failure⟩ := reply
  cases tag with
  | null =>
    simp only [ofReply, true_and]
    split <;> simp_all [timeout, error]
  | _ => simp [ofReply, error]

theorem category_ofReply (reply : Reply) :
    (ofReply reply).category = .timeout ↔ (ofReply reply).code = .operationTimeout := by
  obtain ⟨tag, failure⟩ := reply
  cases tag with
  | null =>
    simp only [ofReply]
    split <;> simp [timeout, error]
  | _ => simp [ofReply, error]

theorem phase?_ofConnectFailure (f : Failure) : (ofConnectFailure f).phase? = some .invalid := by
  unfold ofConnectFailure
  split
  · rfl
  · split <;> rfl

theorem category_ofConnectFailure (f : Failure) :
    (ofConnectFailure f).category = .timeout ↔ (ofConnectFailure f).code = .connectTimeout := by
  unfold ofConnectFailure
  split
  · simp [timeout]
  · split <;> simp [error]

theorem code_ofConnectFailure (f : Failure) :
    (ofConnectFailure f).code = .connectTimeout ↔ f.isTimeout = true := by
  unfold ofConnectFailure
  by_cases htimeout : f.isTimeout = true
  · simp [htimeout, timeout]
  · simp only [htimeout, Bool.false_eq_true, if_false, iff_false]
    split <;> simp [error]

end ErrorDetail

/-! ## The latest calls of an operation -/

/-- What came of a call, if it connects. -/
def Call.connected? : Call → Option (Except Failure Unit)
  | .connect _ r => some r
  | _ => none

namespace Line

/-- What came of the latest connection in some calls. -/
def latestConnect? (calls : List Call) : Option (Except Failure Unit) := calls.findSome? Call.connected?

/-- The handle of the latest data command in some calls, and what was received for the command or why it could not
be sent. -/
def latestData? : List Call → Option (Handle × Except Failure Answer)
  | [] => none
  | .send h c (.error f) :: before => if c.isData then some (h, .error f) else latestData? before
  | .receive h r :: .send _ c (.ok ()) :: before => if c.isData then some (h, r) else latestData? before
  | _ :: before => latestData? before

variable {calls before : List Call} {h : Handle} {c : Command}

theorem Exchange.latestConnect?_eq {r : Except Failure Reply} (hex : Exchange h c calls r) (before : List Call) :
    latestConnect? (calls ++ before) = latestConnect? before := by
  cases hex with
  | unsent | answered => rfl

/-- The reply to a data command comes from the latest one. -/
theorem Exchange.latestData?_eq {r : Except Failure Reply} (hex : Exchange h c calls r) (hc : c.isData = true)
    (before : List Call) :
    ∃ result, latestData? (calls ++ before) = some (h, result) ∧ r = Reply.ofExchange c.name result := by
  cases hex with
  | unsent f => exact ⟨.error f, by simp [latestData?, hc], rfl⟩
  | answered result => exact ⟨result, by simp [latestData?, hc], rfl⟩

theorem latestData?_of_sends (hcalls : Sends (·.isData = false) calls) : latestData? calls = none := by
  fun_induction latestData? calls with
  | case1 => rfl
  | case2 h c f before hc => simp [hcalls _ List.mem_cons_self c rfl] at hc
  | case3 h c f before _ ih => exact ih ((sends_cons _ _ _).1 hcalls).2
  | case4 h r k c before hc => simp [hcalls (.send k c (.ok ())) (by simp) c rfl] at hc
  | case5 h r k c before _ ih => exact ih ((sends_cons _ _ _).1 ((sends_cons _ _ _).1 hcalls).2).2
  | case6 call before _ _ ih => exact ih ((sends_cons _ _ _).1 hcalls).2

end Line

/-! ## Agreement -/

open Line

/-- An outcome agrees with the calls of its operation and with the session that they leave. -/
structure Agrees {α : Type} (outcome : Outcome α) (calls : List Call) (t : Session) : Prop where
  phase : outcome.phase? = some t.phase
  dropped : t.phase = .invalid → t.handle = none
  held : t.phase ≠ .invalid → ∃ h r, t.handle = some h ∧ latestData? calls = some (h, r)
  category : ∀ detail, outcome = .failure detail →
    (detail.category = .timeout ↔ detail.code = .connectTimeout ∨ detail.code = .operationTimeout)
  operationTimeout : outcome.code? = some .operationTimeout ↔
    ∃ h f, latestData? calls = some (h, .error f) ∧ f.kind = .store .timeout
  connectTimeout : outcome.code? = some .connectTimeout ↔
    ∃ f, latestConnect? calls = some (.error f) ∧ f.isTimeout = true

namespace Reply

/-- A reply that is none because of a timeout comes from a timeout of the store's protocol. -/
theorem isTimeout_ofExchange {name : String} {r : Except Failure Answer} {reply : Reply}
    (hr : ofExchange name r = .ok reply) :
    reply.tag = .null ∧ reply.isTimeout = true ↔ ∃ f, r = .error f ∧ f.kind = .store .timeout := by
  cases r with
  | ok a =>
    cases hr
    simp [tag_ofAnswer_ne_null]
  | error f =>
    obtain ⟨hrefused, heq⟩ | ⟨⟨hstore, -⟩, heq⟩ | ⟨-, heq⟩ := ofExchange_cases name f
    · cases heq.symm.trans hr
      simp only [error, reduceCtorEq, false_and, false_iff, not_exists, not_and]
      rintro g ⟨⟩ hkind
      simp [Failure.isErrorReply, Failure.isAuthentication, Failure.StoreKind.isErrorReply, hkind] at hrefused
    · cases heq.symm.trans hr
      cases hkind : f.kind <;>
        simp [null, isTimeout, Failure.isTimeout, Failure.isStore, hkind] at hstore ⊢
    · cases heq.symm.trans hr

/-- What a reply comes to: a success, if there was a reply, or the detail of the reply. -/
def Gives {α : Type} (reply : Reply) (outcome : Outcome α) : Prop :=
  (∃ a, outcome = .success a ∧ reply.tag ≠ .null) ∨ outcome = .failure (.ofReply reply)

theorem gives_asValue (reply : Reply) : reply.Gives reply.asValue := by
  obtain ⟨tag, failure⟩ := reply
  cases tag with
  | string | nil => exact .inl ⟨_, rfl, by simp⟩
  | _ => exact .inr rfl

theorem gives_asWritten (reply : Reply) : reply.Gives reply.asWritten := by
  obtain ⟨tag, failure⟩ := reply
  cases tag with
  | status => exact .inl ⟨_, rfl, by simp⟩
  | _ => exact .inr rfl

theorem gives_asRemoved (reply : Reply) : reply.Gives reply.asRemoved := by
  obtain ⟨tag, failure⟩ := reply
  cases tag with
  | integer => exact .inl ⟨_, rfl, by simp⟩
  | _ => exact .inr rfl

end Reply

variable {α : Type} {calls before : List Call} {s t : Session} {h n : Handle}

/-- What comes of the reply to the latest data command agrees, if the session has been ready for the command. -/
theorem agrees_of_reply {outcome : Outcome α} {name : String} {r : Except Failure Answer} {reply : Reply}
    (hgives : reply.Gives outcome) (hr : Reply.ofExchange name r = .ok reply)
    (hdata : latestData? calls = some (h, r)) (hconnect : ∀ f, latestConnect? calls ≠ some (.error f))
    (hh : t.handle = some h) (hphase : t.phase = reply.phase) : Agrees outcome calls t := by
  have hvalid : t.phase ≠ .invalid := by
    rw [hphase, Reply.phase]
    split <;> simp
  have hnever : ¬ ∃ f, latestConnect? calls = some (.error f) ∧ f.isTimeout = true :=
    fun ⟨f, hf, _⟩ => hconnect f hf
  have htimeout : (∃ h f, latestData? calls = some (h, .error f) ∧ f.kind = .store .timeout) ↔
      reply.tag = .null ∧ reply.isTimeout = true := by
    rw [Reply.isTimeout_ofExchange hr, hdata]
    constructor
    · rintro ⟨_, f, ⟨⟩, hkind⟩
      exact ⟨f, rfl, hkind⟩
    · rintro ⟨f, rfl, hkind⟩
      exact ⟨h, f, rfl, hkind⟩
  rcases hgives with ⟨a, rfl, htag⟩ | rfl
  · have hready : reply.phase = .ready := by
      rw [Reply.phase]
      split
      · contradiction
      · rfl
    exact {
      phase := by rw [hphase, hready]; rfl
      dropped := fun hinvalid => absurd hinvalid hvalid
      held := fun _ => ⟨h, r, hh, hdata⟩
      category := by simp
      operationTimeout := by simp [Outcome.code?, htimeout, htag]
      connectTimeout := by simp [Outcome.code?, hnever] }
  · have hcode : (ErrorDetail.ofReply reply).code ≠ .connectTimeout := by
      intro hcode
      have hready := ErrorDetail.phase?_ofReply reply
      simp only [ErrorDetail.phase?, hcode, Option.some.injEq] at hready
      exact hvalid (hphase.trans hready.symm)
    exact {
      phase := by rw [hphase]; exact ErrorDetail.phase?_ofReply reply
      dropped := fun hinvalid => absurd hinvalid hvalid
      held := fun _ => ⟨h, r, hh, hdata⟩
      category := by
        rintro _ ⟨⟩
        rw [ErrorDetail.category_ofReply, or_iff_right hcode]
      operationTimeout := by rw [htimeout, ← ErrorDetail.code_ofReply, Outcome.code?, Option.some.injEq]
      connectTimeout := by simp [Outcome.code?, hnever, hcode] }

/-- A detail that comes before any data command and tells of an invalid session agrees, if the latest connection
says so of its timeout. -/
theorem agrees_of_final {detail : ErrorDetail} (hdetail : detail.phase? = some .invalid)
    (hcategory : detail.category = .timeout ↔ detail.code = .connectTimeout) (hphase : t.phase = .invalid)
    (hh : t.handle = none) (hdata : latestData? calls = none)
    (hconnect : detail.code = .connectTimeout ↔ ∃ f, latestConnect? calls = some (.error f) ∧ f.isTimeout = true) :
    Agrees (.failure detail : Outcome α) calls t := by
  have hcode : detail.code ≠ .operationTimeout := by
    intro hcode
    simp [ErrorDetail.phase?, hcode] at hdetail
  exact {
    phase := by rw [hphase]; exact hdetail
    dropped := fun _ => hh
    held := fun hvalid => absurd hphase hvalid
    category := by
      rintro _ ⟨⟩
      rw [hcategory, or_iff_left hcode]
    operationTimeout := by simp [Outcome.code?, hcode, hdata]
    connectTimeout := by rw [← hconnect, Outcome.code?, Option.some.injEq] }

/-! ## Before the session is ready -/

namespace Session

variable {r : Answered} {detail : ErrorDetail}

/-- A session holds a handle only if its endpoint can be connected to. -/
def Placed (s : Session) : Prop := ∀ h, s.handle = some h → s.endpoint.Connectable

theorem Placed.of_eq (hs : s.Placed) (hst : s.Continues t) (hh : ∀ h, t.handle = some h → s.handle = some h) :
    t.Placed := by
  intro h ht
  rw [hst.endpoint_eq]
  exact hs h (hh h ht)

theorem Login.placed (hs : s.Placed) (hl : Login s h calls r t) : t.Placed :=
  hs.of_eq hl.continues fun _ hk => hl.held hk

theorem Opening.placed (hs : s.Placed) (ho : Opening s n calls r t) : t.Placed := by
  cases ho with
  | unsupported | interrupted => exact hs
  | nowhere | refused => exact hs.of_eq ⟨rfl, rfl⟩ fun _ hk => hk
  | opened hplace hl =>
    refine Login.placed ?_ hl
    exact fun _ _ => hplace

theorem Readying.placed (hs : s.Placed) (hr : Readying s n calls r t) : t.Placed := by
  cases hr with
  | ready | invalid | interrupted => exact hs
  | fresh _ _ _ ho =>
    refine Opening.placed ?_ ho
    exact hs
  | reopened _ _ _ hl =>
    refine Login.placed ?_ hl
    exact hs
  | replaced _ _ _ _ ho =>
    refine Opening.placed ?_ ho
    exact fun _ hk => by cases hk

/-- Nothing is called for an endpoint that cannot be connected to. -/
theorem Opening.connectable (ho : Opening s n calls r t) (hcalls : calls ≠ []) : s.endpoint.Connectable := by
  cases ho with
  | unsupported | nowhere => exact absurd rfl hcalls
  | opened hplace | refused _ hplace | interrupted _ hplace => exact hplace

theorem Readying.connectable (hs : s.Placed) (hr : Readying s n calls r t) (hcalls : calls ≠ []) :
    s.endpoint.Connectable := by
  cases hr with
  | ready | invalid => exact absurd rfl hcalls
  | fresh _ _ _ ho => exact ho.connectable hcalls
  | reopened _ _ hh | replaced _ _ hh | interrupted _ _ hh => exact hs _ hh

/-- A rejected login comes after a connection that succeeded. -/
theorem Login.agrees (hl : Login s h calls (.ok (some detail)) t)
    (hconnect : latestConnect? before = some (.ok ())) (hdata : latestData? (calls ++ before) = none) :
    Agrees (.failure detail : Outcome α) (calls ++ before) t := by
  cases hl with
  | @rejected _ calls _ _ hex =>
    have hlatest : latestConnect? (.disconnect h :: calls ++ before) = some (.ok ()) :=
      (hex.latestConnect?_eq before).trans hconnect
    refine agrees_of_final rfl ?_ rfl rfl hdata ?_
    · simp [authRejected, ErrorDetail.error]
    · rw [hlatest]
      simp [authRejected, ErrorDetail.error]

/-- A refused connection is the latest one. If there is nowhere to connect to, then nothing was connected before. -/
theorem Opening.agrees (ho : Opening s n calls (.ok (some detail)) t) (hh : s.handle = none)
    (hplace : s.endpoint.isTcp = false → s.endpoint.isUnix = false → latestConnect? before = none)
    (hdata : latestData? (calls ++ before) = none) : Agrees (.failure detail : Outcome α) (calls ++ before) t := by
  cases ho with
  | nowhere htcp hunix =>
    refine agrees_of_final rfl ?_ rfl hh hdata ?_
    · simp [invalidEndpoint, ErrorDetail.error]
    · simp [invalidEndpoint, ErrorDetail.error, hplace htcp hunix]
  | opened _ hl =>
    rw [List.append_assoc] at hdata ⊢
    exact hl.agrees rfl hdata
  | @refused f =>
    refine agrees_of_final (ErrorDetail.phase?_ofConnectFailure f) ?_ rfl hh hdata ?_
    · exact ErrorDetail.category_ofConnectFailure f
    · rw [ErrorDetail.code_ofConnectFailure]
      constructor
      · exact fun htimeout => ⟨f, rfl, htimeout⟩
      · rintro ⟨_, ⟨⟩, htimeout⟩
        exact htimeout

/-- **What ends an operation before its session is ready agrees.** -/
theorem Readying.agrees (hs : s.Sound) (hplaced : s.Placed) (hr : Readying s n calls (.ok (some detail)) t) :
    Agrees (.failure detail : Outcome α) calls t := by
  have hdata : latestData? calls = none := latestData?_of_sends hr.sends_no_data
  cases hr with
  | invalid hphase =>
    refine agrees_of_final rfl ?_ hphase (hs.invalid hphase) hdata ?_
    · simp [backendInvalid, ErrorDetail.error]
    · simp [backendInvalid, ErrorDetail.error, latestConnect?]
  | fresh _ _ hh ho =>
    rw [← List.append_nil calls] at hdata ⊢
    exact ho.agrees hh (fun _ _ => rfl) hdata
  | reopened _ _ _ hl => exact hl.agrees rfl hdata
  | replaced _ _ hh _ ho =>
    refine ho.agrees rfl ?_ hdata
    intro htcp hunix
    have hplace := (hplaced _ hh).2
    simp_all

/-- A session that has become ready has not failed to connect since. -/
theorem Readying.connected (hr : Readying s n calls (.ok none) t) (f : Failure) :
    latestConnect? calls ≠ some (.error f) := by
  have hlogin {s : Session} {h : Handle} {calls before : List Call} (hl : Login s h calls (.ok none) t)
      (hconnect : latestConnect? before = some (.ok ())) : latestConnect? (calls ++ before) ≠ some (.error f) := by
    cases hl with
    | needless => simp [hconnect]
    | accepted _ hex => simp [hex.latestConnect?_eq, hconnect]
  cases hr with
  | ready => simp [latestConnect?]
  | fresh _ _ _ ho =>
    cases ho with
    | opened _ hl => exact hlogin hl rfl
  | reopened _ _ _ hl => exact hlogin hl rfl
  | replaced _ _ _ _ ho =>
    cases ho with
    | opened _ hl =>
      rw [List.append_assoc]
      exact hlogin hl rfl

end Session

/-! ## The commands -/

namespace Storage

variable {c : Command} {op : Operation}

/-- The reply to a data command comes from the latest one, and leaves its handle with the session. -/
theorem Issuing.latest {reply : Reply} (hi : Issuing s c calls (.ok reply) t) (hc : c.isData = true)
    (before : List Call) :
    ∃ h r, latestData? (calls ++ before) = some (h, r) ∧ Reply.ofExchange c.name r = .ok reply ∧
      t.handle = some h ∧ t.phase = reply.phase := by
  cases hi with
  | @answered h _ _ hready hh hex htag =>
    obtain ⟨r, hdata, hr⟩ := hex.latestData?_eq hc before
    refine ⟨h, r, hdata, hr.symm, hh, ?_⟩
    rw [hready, Reply.phase]
    split
    · contradiction
    · rfl
  | @lost h _ _ _ hh hex htag =>
    obtain ⟨r, hdata, hr⟩ := hex.latestData?_eq hc before
    refine ⟨h, r, hdata, hr.symm, hh, ?_⟩
    simp [Reply.phase, htag]

theorem Issuing.latestConnect?_eq {r : Except Failure Reply} (hi : Issuing s c calls r t) (before : List Call) :
    latestConnect? (calls ++ before) = latestConnect? before := by
  cases hi with
  | idle => rfl
  | answered _ _ hex | lost _ _ hex | interrupted _ _ hex => exact hex.latestConnect?_eq before

/-- What comes of a command that has got a reply agrees. -/
theorem Issuing.agrees {reply : Reply} {outcome : Outcome α} (hi : Issuing s c calls (.ok reply) t)
    (hc : c.isData = true) (hgives : reply.Gives outcome)
    (hconnect : ∀ f, latestConnect? before ≠ some (.error f)) : Agrees outcome (calls ++ before) t := by
  obtain ⟨h, r, hdata, hr, hh, hphase⟩ := hi.latest hc before
  refine agrees_of_reply hgives hr hdata ?_ hh hphase
  rw [hi.latestConnect?_eq before]
  exact hconnect

/-- **What comes of the commands of an operation agrees**, since the latest of them decides. -/
theorem Serving.agrees {outcome : Outcome op.Value} (hserve : Serving s op calls (.ok outcome) t)
    (hconnect : ∀ f, latestConnect? before ≠ some (.error f)) : Agrees outcome (calls ++ before) t := by
  have hreplied {α : Type} {as : Reply → Outcome α} {r : Except Failure Reply} {outcome : Outcome α}
      (has : ∀ reply : Reply, reply.Gives (as reply)) (hr : r.map as = .ok outcome) :
      ∃ reply, r = .ok reply ∧ reply.Gives outcome := by
    cases r with
    | error f => cases hr
    | ok reply =>
      cases hr
      exact ⟨reply, rfl, has reply⟩
  generalize hr : (Except.ok outcome : op.Result) = r at hserve
  cases hserve with
  | get hi =>
    obtain ⟨reply, rfl, hgives⟩ := hreplied Reply.gives_asValue hr.symm
    exact hi.agrees (by simp) hgives hconnect
  | remove hi =>
    obtain ⟨reply, rfl, hgives⟩ := hreplied Reply.gives_asRemoved hr.symm
    exact hi.agrees (by simp) hgives hconnect
  | put hi =>
    obtain ⟨reply, rfl, hgives⟩ := hreplied Reply.gives_asWritten hr.symm
    exact hi.agrees (by simp) hgives hconnect
  | unasked => cases hr
  | unanswered hi =>
    cases hr
    exact hi.agrees (by simp) (.inr rfl) hconnect
  | kept hi htag =>
    cases hr
    exact hi.agrees (by simp) (.inl ⟨false, rfl, by simp [htag]⟩) hconnect
  | written hi _ hi' =>
    obtain ⟨reply, rfl, hgives⟩ := hreplied Reply.gives_asWritten hr.symm
    rw [List.append_assoc]
    refine hi'.agrees (by simp) hgives ?_
    rw [hi.latestConnect?_eq before]
    exact hconnect

/-! ## Operations and runs -/

theorem Operating.placed {r : op.Result} (hs : s.Placed) (ho : Operating s n op calls r t) : t.Placed := by
  cases ho with
  | closed hc => exact hs.of_eq hc.closed.2.2 fun _ hk => by simp [hc.closed.2.1] at hk
  | interrupted _ hr | unready _ hr => exact hr.placed hs
  | served hr hserve =>
    rcases hserve.session_eq with rfl | rfl
    · exact hr.placed hs
    · exact (hr.placed hs).of_eq ⟨rfl, rfl⟩ fun _ hk => hk

theorem Operating.agrees {outcome : Outcome op.Value} (hs : s.Sound) (hplaced : s.Placed) (hop : op ≠ .close)
    (ho : Operating s n op calls (.ok outcome) t) : Agrees outcome calls t := by
  cases ho with
  | closed => exact absurd rfl hop
  | unready _ hr => exact hr.agrees hs hplaced
  | served hr hserve => exact hserve.agrees hr.connected

variable {σ : Type} [Peer σ]

/-- **The outcome of an operation agrees with its calls and with the session that they leave**, whatever the peer
does. -/
theorem outcome_agrees {endpoint : Endpoint} {settings : BackendSettings} {peer : σ} {logging : Logging.State}
    {attempts : List Attempt} {x : Scene σ}
    (hrun : Run (fun _ _ => True) (Scene.fresh endpoint settings peer logging) attempts x) {op : Operation}
    (hop : op ≠ .close) {outcome : Outcome op.Value} (hreturn : (op.perform x).1 = .ok outcome) :
    ∃ calls, (op.perform x).2.line.calls = calls ++ x.line.calls ∧ Agrees outcome calls (op.perform x).2.session := by
  have hsound : x.session.Sound := hrun.sound (Scene.sound_fresh ..)
  have hplaced : x.session.Placed :=
    hrun.preserves_session (fun _ hh => by simp [Scene.fresh] at hh) fun ho hs => ho.placed hs
  obtain ⟨calls, hcourse, hcalls⟩ := op.course x
  rw [hreturn] at hcourse
  exact ⟨calls, hcalls.calls_eq, hcourse.agrees hsound hplaced hop⟩

/-- After a late answer the handle is held, and when the store is late for the next connections, too, the session
becomes invalid: both are timeouts, the first one of the operation and the second one of the connection. -/
theorem outcome_agrees_when_late :
    let late : Failure := .store .timeout "late"
    let get : Operation := .get ⟨List.replicate 20 0, rfl⟩
    let x := (get.perform (Scene.onHost ({ receiving := .error late } : Steady))).2
    let y := x.withPeer { connecting := .error late }
    (∃ detail, detail.code = .operationTimeout ∧
      Agrees (.failure detail : Outcome get.Value) x.line.calls x.session) ∧
    ∃ detail calls, (get.perform y).2.line.calls = calls ++ y.line.calls ∧ detail.code = .connectTimeout ∧
      Agrees (.failure detail : Outcome get.Value) calls (get.perform y).2.session := by
  intro late get x y
  have hfresh : Run (fun _ _ => True) (Scene.onHost ({ receiving := .error late } : Steady)) [] _ := .start
  have hy : Run (fun _ _ => True) (Scene.onHost ({ receiving := .error late } : Steady)) [⟨get, _⟩] y :=
    .change _ trivial (.operate get .start)
  have hget : get ≠ .close := by simp [get]
  obtain ⟨calls, hcalls, hagrees⟩ := outcome_agrees hfresh hget rfl
  obtain ⟨calls', hcalls', hagrees'⟩ := outcome_agrees hy hget rfl
  rw [← hcalls.trans (List.append_nil calls)] at hagrees
  exact ⟨⟨_, rfl, hagrees⟩, _, calls', hcalls', rfl, hagrees'⟩

end Storage
end RemoteCache
