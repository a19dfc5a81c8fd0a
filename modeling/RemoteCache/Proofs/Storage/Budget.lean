import RemoteCache.Proofs.Storage.Findings

/-!
# How many calls an operation makes

An operation makes its calls along a route (`Route`): stage by stage, each stage with a few ways to go on, and each way
with its calls in the order in which they are made. A connected handle is given up for a new one only once, and each
command is sent only once. A failure that passes cuts the route short.

**Theorem (`operation_keeps_to_its_route`).** Whatever the peer does in a run from a fresh scene, the calls of the next
operation are those of a route from the start, and they keep to the budget (`Thrifty`): they create one handle at the
most and connect twice at the most, and what they send is the login, if there is a password, and the commands of the
operation, up to some point of this list. The handle that is created is a new one.

**Routes.** Each course of a session is a piece of a route (`Login.route`, `Opening.route`, `Readying.route`), and so
are the commands of an operation (`Serving.route`). A piece is put in front of any route that can follow it, so the
pieces come together without another look at the calls.

**Budgets.** Each stage has a budget of its own (`Stage.budget`), and a list of commands that may still be sent
(`Stage.plan`). By induction on the route, no stage spends more than its budget.
-/

namespace RemoteCache

open Line

/-! ## Plans -/

/-- The commands that a session logs in with. -/
def Session.logins (s : Session) : List Command := s.settings.password.toList.map (.auth s.loginName?)

/-- The session is to be connected before it can be used. -/
def Session.Waits (s : Session) : Prop := s.phase ≠ .ready ∧ s.phase ≠ .invalid

namespace Storage

/-- The commands of an operation on a ready session, the first one first. -/
def Operation.plan : Operation → List Command
  | .get d => [.get d.key]
  | .put d value false => [.set d.key value]
  | .put d value true => [.exists? d.key, .set d.key value]
  | .remove d => [.del d.key]
  | .close => []

/-! ## Routes -/

/-- How far an operation has come. -/
inductive Stage
  /-- Nothing has been done. -/
  | start
  /-- No handle is held. -/
  | opening
  /-- The handle is connected. -/
  | connected (h : Handle)
  /-- The session is ready, and these commands are left. -/
  | ready (h : Handle) (left : List Command)

/-- The calls that an operation goes on with from a stage, in the order in which they are made, and the failure that
cuts them short, if one does. `n` is the next handle. -/
inductive Route (s : Session) (n : Handle) (op : Operation) : Stage → List Call → Option Failure → Prop
  | invalid : s.phase = .invalid → Route s n op .start [] none
  | ready {h : Handle} {calls : List Call} {cut : Option Failure} : s.phase = .ready → s.handle = some h →
      Route s n op (.ready h op.plan) calls cut → Route s n op .start calls cut
  | fresh {calls : List Call} {cut : Option Failure} : s.Waits → s.handle = none →
      Route s n op .opening calls cut → Route s n op .start calls cut
  | reopened {h : Handle} {calls : List Call} {cut : Option Failure} : s.Waits → s.handle = some h →
      Route s n op (.connected h) calls cut → Route s n op .start (.disconnect h :: .connect h (.ok ()) :: calls) cut
  | replaced {h : Handle} {f : Failure} {calls : List Call} {cut : Option Failure} : s.Waits → s.handle = some h →
      f.isConnectFailure = true → Route s n op .opening calls cut →
      Route s n op .start (.disconnect h :: .connect h (.error f) :: .disconnect h :: calls) cut
  | unopened {h : Handle} {f : Failure} : s.Waits → s.handle = some h → f.isConnectFailure = false →
      Route s n op .start [.disconnect h, .connect h (.error f)] (some f)
  | nowhere : s.endpoint.isTcp = false → s.endpoint.isUnix = false → Route s n op .opening [] none
  | opened {calls : List Call} {cut : Option Failure} : s.endpoint.isTcp ∨ s.endpoint.isUnix →
      Route s n op (.connected n) calls cut →
      Route s n op .opening (.create n (.of s.endpoint s.settings) :: .connect n (.ok ()) :: calls) cut
  | refused {f : Failure} : s.endpoint.isTcp ∨ s.endpoint.isUnix → f.isConnectFailure = true →
      Route s n op .opening [.create n (.of s.endpoint s.settings), .connect n (.error f), .disconnect n] none
  | unconnected {f : Failure} : s.endpoint.isTcp ∨ s.endpoint.isUnix → f.isConnectFailure = false →
      Route s n op .opening [.create n (.of s.endpoint s.settings), .connect n (.error f)] (some f)
  | needless {h : Handle} {calls : List Call} {cut : Option Failure} : s.settings.password = none →
      Route s n op (.ready h op.plan) calls cut → Route s n op (.connected h) calls cut
  | accepted {h : Handle} {c : Command} {login calls : List Call} {reply : Reply} {cut : Option Failure} :
      s.IsLogin c → Exchange h c login (.ok reply) → Session.rejects reply = false →
      Route s n op (.ready h op.plan) calls cut → Route s n op (.connected h) (login.reverse ++ calls) cut
  | rejected {h : Handle} {c : Command} {login : List Call} {reply : Reply} : s.IsLogin c →
      Exchange h c login (.ok reply) → Session.rejects reply = true →
      Route s n op (.connected h) (login.reverse ++ [.disconnect h]) none
  | unadmitted {h : Handle} {c : Command} {login : List Call} {f : Failure} : s.IsLogin c →
      Exchange h c login (.error f) → Route s n op (.connected h) login.reverse (some f)
  | last {h : Handle} {c : Command} {left : List Command} {calls : List Call} {reply : Reply} :
      Exchange h c calls (.ok reply) → left = [] ∨ reply.letsWrite = false →
      Route s n op (.ready h (c :: left)) calls.reverse none
  | next {h : Handle} {c : Command} {left : List Command} {calls more : List Call} {reply : Reply}
      {cut : Option Failure} : Exchange h c calls (.ok reply) → reply.letsWrite = true →
      Route s n op (.ready h left) more cut → Route s n op (.ready h (c :: left)) (calls.reverse ++ more) cut
  | unserved {h : Handle} {c : Command} {left : List Command} {calls : List Call} {f : Failure} :
      Exchange h c calls (.error f) → Route s n op (.ready h (c :: left)) calls.reverse (some f)

/-- The failure that passes out of something done. -/
def passing? {α : Type} : Except Failure α → Option Failure
  | .ok _ => none
  | .error f => some f

theorem passing?_map {α β : Type} (g : α → β) (r : Except Failure α) : passing? (r.map g) = passing? r := by
  cases r <;> rfl

end Storage

/-! ## Courses as pieces of routes -/

open Storage

/-- What follows once a session has been made ready, or could not be: the commands, or nothing. -/
def Session.Followed (s : Session) (n : Handle) (op : Operation) (r : Session.Answered) (t : Session)
    (calls : List Call) (cut : Option Failure) : Prop :=
  match r with
  | .ok none => ∀ h, t.handle = some h → Route s n op (.ready h op.plan) calls cut
  | .ok (some _) => calls = [] ∧ cut = none
  | .error f => calls = [] ∧ cut = some f

namespace Session

variable {s t u : Session} {n h : Handle} {op : Operation} {calls more : List Call} {r : Answered}
  {cut : Option Failure}

theorem IsLogin.logins_eq {c : Command} (hc : s.IsLogin c) : s.logins = [c] := by
  obtain ⟨password, hp, rfl⟩ := hc
  simp [logins, hp]

theorem isAuth_of_mem_logins {c : Command} (hc : c ∈ s.logins) : c.isAuth = true := by
  obtain ⟨password, -, rfl⟩ := List.mem_map.1 hc
  exact Command.isAuth_auth _ _

theorem length_logins_le (s : Session) : s.logins.length ≤ 1 := by
  unfold logins
  cases s.settings.password <;> simp

theorem nodup_logins (s : Session) : s.logins.Nodup := by
  unfold logins
  cases s.settings.password <;> simp

theorem Login.route (hl : Login u h calls r t) (hu : s.Continues u) (hh : u.handle = some h)
    (hmore : s.Followed n op r t more cut) : Route s n op (.connected h) (calls.reverse ++ more) cut := by
  have hlogin {password : String} (hp : u.settings.password = some password) :
      s.IsLogin (.auth u.loginName? password) := (hu.isLogin_iff _).1 ⟨password, hp, rfl⟩
  cases hl with
  | needless hp => exact .needless (hu.settings_eq ▸ hp) (hmore h hh)
  | accepted hp hex hr => exact .accepted (hlogin hp) hex hr (hmore h hh)
  | rejected hp hex hr =>
    obtain ⟨rfl, rfl⟩ := hmore
    simpa using Route.rejected (hlogin hp) hex hr
  | interrupted hp hex =>
    obtain ⟨rfl, rfl⟩ := hmore
    simpa using Route.unadmitted (hlogin hp) hex

theorem Opening.route (ho : Opening u n calls r t) (hu : s.Continues u)
    (hscheme : s.endpoint.scheme = Endpoint.supportedScheme) (hmore : s.Followed n op r t more cut) :
    Route s n op .opening (calls.reverse ++ more) cut := by
  cases ho with
  | unsupported hne => exact absurd (hu.endpoint_eq ▸ hscheme) hne
  | nowhere htcp hunix =>
    obtain ⟨rfl, rfl⟩ := hmore
    exact .nowhere (hu.endpoint_eq ▸ htcp) (hu.endpoint_eq ▸ hunix)
  | opened hplace hl =>
    simpa [hu.endpoint_eq, hu.settings_eq] using
      Route.opened (hu.endpoint_eq ▸ hplace.2) (hl.route ⟨hu.endpoint_eq, hu.settings_eq⟩ rfl hmore)
  | refused hf hplace =>
    obtain ⟨rfl, rfl⟩ := hmore
    simpa [hu.endpoint_eq, hu.settings_eq] using Route.refused (hu.endpoint_eq ▸ hplace.2) hf
  | interrupted hf hplace =>
    obtain ⟨rfl, rfl⟩ := hmore
    simpa [hu.endpoint_eq, hu.settings_eq] using Route.unconnected (hu.endpoint_eq ▸ hplace.2) hf

theorem Readying.route (hr : Readying s n calls r t) (hs : s.Sound)
    (hscheme : s.endpoint.scheme = Endpoint.supportedScheme) (hmore : s.Followed n op r t more cut) :
    Route s n op .start (calls.reverse ++ more) cut := by
  cases hr with
  | ready hphase =>
    obtain ⟨h, hh⟩ := hs.ready hphase
    exact .ready hphase hh (hmore h hh)
  | invalid hphase =>
    obtain ⟨rfl, rfl⟩ := hmore
    exact .invalid hphase
  | fresh hready hinvalid hh ho => exact .fresh ⟨hready, hinvalid⟩ hh (ho.route ⟨rfl, rfl⟩ hscheme hmore)
  | reopened hready hinvalid hh hl =>
    simpa using Route.reopened ⟨hready, hinvalid⟩ hh (hl.route ⟨rfl, rfl⟩ hh hmore)
  | replaced hready hinvalid hh hf ho =>
    simpa using Route.replaced ⟨hready, hinvalid⟩ hh hf (ho.route ⟨rfl, rfl⟩ hscheme hmore)
  | interrupted hready hinvalid hh hf =>
    obtain ⟨rfl, rfl⟩ := hmore
    exact .unopened ⟨hready, hinvalid⟩ hh hf

end Session

namespace Storage

variable {s t u : Session} {n h : Handle} {op : Operation} {c : Command} {calls more : List Call}
  {cut : Option Failure} {stage : Stage}

/-- A command that is issued is one exchange on the handle of the session. -/
theorem Issuing.exchange {r : Except Failure Reply} (hi : Issuing u c calls r t) (hready : u.phase = .ready)
    (hh : u.handle = some h) : Exchange h c calls r := by
  cases hi with
  | idle hidle => simp [hready, hh] at hidle
  | answered _ hh' hex | lost _ hh' hex | interrupted _ hh' hex =>
    obtain rfl : _ = h := Option.some.inj (hh'.symm.trans hh)
    exact hex

theorem Issuing.route_last {r : Except Failure Reply} (hi : Issuing u c calls r t) (hready : u.phase = .ready)
    (hh : u.handle = some h) : Route s n op (.ready h [c]) calls.reverse (passing? r) := by
  have hex := hi.exchange hready hh
  cases r with
  | ok reply => exact .last hex (.inl rfl)
  | error f => exact .unserved hex

/-- The commands of an operation are the last piece of its route. -/
theorem Serving.route {r : op.Result} (hserve : Serving u op calls r t) (hready : u.phase = .ready)
    (hh : u.handle = some h) : Route s n op (.ready h op.plan) calls.reverse (passing? r) := by
  cases hserve with
  | get hi | remove hi | put hi =>
    rw [passing?_map]
    exact hi.route_last hready hh
  | unasked hi => exact .unserved (hi.exchange hready hh)
  | unanswered hi hnull => exact .last (hi.exchange hready hh) (.inr (by simp [Reply.letsWrite, hnull]))
  | kept hi htag hn => exact .last (hi.exchange hready hh) (.inr (by simpa [Reply.letsWrite, htag] using hn))
  | written hi hlets hi' =>
    -- A question that got a reply has left the session as it was.
    cases hi with
    | lost _ _ _ hnull => simp [Reply.letsWrite, hnull] at hlets
    | answered hready' hh' hex hreply =>
      obtain rfl : _ = h := Option.some.inj (hh'.symm.trans hh)
      rw [passing?_map, List.reverse_append]
      exact .next hex hlets (hi'.route_last hready hh)

theorem Operating.route {r : op.Result} (ho : Operating s n op calls r t) (hop : op ≠ .close) (hs : s.Sound)
    (hscheme : s.endpoint.scheme = Endpoint.supportedScheme) : Route s n op .start calls.reverse (passing? r) := by
  cases ho with
  | closed => exact absurd rfl hop
  | interrupted _ hr | unready _ hr => exact List.append_nil calls.reverse ▸ hr.route hs hscheme ⟨rfl, rfl⟩
  | served hr hserve =>
    rw [List.reverse_append]
    exact hr.route hs hscheme fun h hh => hserve.route (hr.ready_of_none hs).1 hh

/-! ## Budgets -/

end Storage

/-- What a call does to a handle, apart from what is sent over it. -/
inductive Handling
  | create (h : Handle)
  | connect (h : Handle)
  | disconnect (h : Handle)
deriving DecidableEq

namespace Handling

def isCreate : Handling → Bool
  | create _ => true
  | _ => false

def isConnect : Handling → Bool
  | connect _ => true
  | _ => false

end Handling

def Call.handling? : Call → Option Handling
  | .create h _ => some (.create h)
  | .connect h _ => some (.connect h)
  | .disconnect h => some (.disconnect h)
  | .send .. | .receive .. => none

namespace Line

/-- What some calls do to handles. -/
def handlings (calls : List Call) : List Handling := calls.filterMap Call.handling?

@[simp] theorem handlings_append (calls more : List Call) :
    handlings (calls ++ more) = handlings calls ++ handlings more := by simp [handlings]

theorem countP_isConnect (calls : List Call) :
    calls.countP Call.isConnect = (handlings calls).countP Handling.isConnect := by
  rw [handlings, List.countP_filterMap]
  refine List.countP_congr fun call _ => ?_
  cases call <;> rfl

theorem countP_isCreate (calls : List Call) :
    calls.countP (·.options?.isSome) = (handlings calls).countP Handling.isCreate := by
  rw [handlings, List.countP_filterMap]
  refine List.countP_congr fun call _ => ?_
  cases call <;> rfl

variable {h : Handle} {c : Command} {calls : List Call} {r : Except Failure Reply}

/-- An exchange does nothing to handles. -/
theorem Exchange.handlings_eq (hex : Exchange h c calls r) : handlings calls.reverse = [] := by
  cases hex with
  | unsent | answered => rfl

theorem Exchange.requests_eq (hex : Exchange h c calls r) : requests calls.reverse = [c] := by
  cases hex with
  | unsent | answered => rfl

end Line

namespace Storage

variable {s : Session} {n : Handle} {op : Operation} {calls : List Call} {cut : Option Failure} {stage : Stage}

/-- The commands that may be sent from a stage on. -/
def Stage.requests (s : Session) (op : Operation) : Stage → List Command
  | .start => if s.phase = .ready then op.plan else s.logins ++ op.plan
  | .opening | .connected _ => s.logins ++ op.plan
  | .ready _ left => left

/-- What may be done to handles from a stage on. `n` is the next handle. -/
def Stage.handlings (s : Session) (n : Handle) : Stage → List Handling
  | .start => (match s.handle with
      | some h => [.disconnect h, .connect h, .disconnect h]
      | none => []) ++ [.create n, .connect n, .disconnect n]
  | .opening => [.create n, .connect n, .disconnect n]
  | .connected h => [.disconnect h]
  | .ready .. => []

/-- **What is sent from a stage on is what may be sent, up to some point.** -/
theorem Route.requests_prefix (hroute : Route s n op stage calls cut) : requests calls <+: stage.requests s op := by
  induction hroute with
  | invalid | nowhere | unopened | refused | unconnected => exact List.nil_prefix
  | ready hphase _ _ ih => simpa [Stage.requests, hphase] using ih
  | fresh hwaits _ _ ih | reopened hwaits _ _ ih | replaced hwaits _ _ _ ih =>
    rw [Stage.requests, if_neg hwaits.1]
    exact ih
  | opened _ _ ih => exact ih
  | needless hp _ ih => simpa [Stage.requests, Session.logins, hp] using ih
  | accepted hc hex _ _ ih =>
    rw [requests_append, hex.requests_eq, Stage.requests, hc.logins_eq]
    exact (List.prefix_append_right_inj _).2 ih
  | rejected hc hex =>
    rw [requests_append, hex.requests_eq, Stage.requests, hc.logins_eq]
    exact List.prefix_append [_] _
  | unadmitted hc hex =>
    rw [hex.requests_eq, Stage.requests, hc.logins_eq]
    exact List.prefix_append [_] _
  | last hex | unserved hex =>
    rw [hex.requests_eq]
    exact List.prefix_append [_] _
  | next hex _ _ ih =>
    rw [requests_append, hex.requests_eq]
    exact (List.prefix_append_right_inj _).2 ih

/-- **What is done to handles from a stage on is at most what may be done, in this order.** -/
theorem Route.handlings_sublist (hroute : Route s n op stage calls cut) :
    (handlings calls).Sublist (stage.handlings s n) := by
  induction hroute with
  | invalid | nowhere => exact List.nil_sublist _
  | ready _ _ _ ih => exact ih.trans (List.nil_sublist _)
  | fresh _ hh _ ih => simpa [Stage.handlings, hh] using ih
  | reopened _ hh _ ih =>
    rw [Stage.handlings, hh]
    exact .cons_cons _ (.cons_cons _ (ih.trans (by simp [Stage.handlings])))
  | replaced _ hh _ _ ih =>
    rw [Stage.handlings, hh]
    exact .cons_cons _ (.cons_cons _ (.cons_cons _ ih))
  | unopened _ hh =>
    rw [Stage.handlings, hh]
    exact .cons_cons _ (.cons_cons _ (List.nil_sublist _))
  | opened _ _ ih => exact .cons_cons _ (.cons_cons _ ih)
  | refused => exact List.Sublist.refl _
  | unconnected => exact .cons_cons _ (.cons_cons _ (List.nil_sublist _))
  | needless _ _ ih => exact ih.trans (List.nil_sublist _)
  | accepted _ hex _ _ ih =>
    rw [handlings_append, hex.handlings_eq]
    exact ih.trans (List.nil_sublist _)
  | rejected _ hex =>
    rw [handlings_append, hex.handlings_eq]
    exact List.Sublist.refl _
  | unadmitted _ hex | last hex | unserved hex =>
    rw [hex.handlings_eq]
    exact List.nil_sublist _
  | next hex _ _ ih =>
    rw [handlings_append, hex.handlings_eq]
    exact ih

/-! ## What an operation costs -/

/-- The calls of an operation keep to its budget. -/
structure Thrifty (s : Session) (op : Operation) (calls : List Call) : Prop where
  creates_le : calls.countP (·.options?.isSome) ≤ 1
  connects_le : calls.countP Call.isConnect ≤ 2
  sent : requests calls <+: Stage.start.requests s op
  logins_le : (requests calls).countP Command.isAuth ≤ 1
  data_le : (requests calls).countP Command.isData ≤ 2
  once : (requests calls).Nodup

theorem Operation.isData_of_mem_plan {c : Command} (hc : c ∈ op.plan) : c.isData = true := by
  cases op with
  | get d | remove d =>
    obtain rfl := List.mem_singleton.1 hc
    simp
  | put d value onlyIfMissing =>
    cases onlyIfMissing with
    | false =>
      obtain rfl := List.mem_singleton.1 hc
      simp
    | true =>
      simp only [plan, List.mem_cons, List.not_mem_nil, or_false] at hc
      rcases hc with rfl | rfl
      · simp
      · simp
  | close => cases hc

theorem Operation.length_plan_le (op : Operation) : op.plan.length ≤ 2 := by
  unfold plan
  split <;> simp

theorem Operation.nodup_plan (op : Operation) : op.plan.Nodup := by
  unfold plan
  split
  case h_3 d value => simp [(set_ne_exists d.key value).symm]
  all_goals simp

theorem Stage.requests_sublist (s : Session) (op : Operation) :
    (Stage.start.requests s op).Sublist (s.logins ++ op.plan) := by
  simp only [requests]
  split
  · exact List.sublist_append_right _ _
  · exact List.Sublist.refl _

/-- What may be sent and done to handles from the start on keeps to the budget. -/
theorem thrifty_of_start (hsent : requests calls <+: Stage.start.requests s op)
    (hdone : (handlings calls).Sublist (Stage.start.handlings s n)) : Thrifty s op calls := by
  have hsub : (requests calls).Sublist (s.logins ++ op.plan) := hsent.sublist.trans (Stage.requests_sublist s op)
  have hdata {c : Command} (hc : c ∈ op.plan) : c.isAuth = false :=
    Command.not_isAuth_of_isData (Operation.isData_of_mem_plan hc)
  have hlogin {c : Command} (hc : c ∈ s.logins) : c.isData = false :=
    Command.not_isData_of_isAuth (Session.isAuth_of_mem_logins hc)
  exact {
    creates_le := by
      rw [countP_isCreate]
      refine Nat.le_trans hdone.countP_le ?_
      unfold Stage.handlings
      cases s.handle <;> simp [Handling.isCreate, List.countP_cons]
    connects_le := by
      rw [countP_isConnect]
      refine Nat.le_trans hdone.countP_le ?_
      unfold Stage.handlings
      cases s.handle <;> simp [Handling.isConnect, List.countP_cons]
    sent := hsent
    logins_le := by
      refine Nat.le_trans hsub.countP_le ?_
      rw [List.countP_append, List.countP_eq_zero.2 fun c (hc : c ∈ op.plan) => by simp [hdata hc]]
      exact Nat.le_trans List.countP_le_length (Session.length_logins_le s)
    data_le := by
      refine Nat.le_trans hsub.countP_le ?_
      rw [List.countP_append, List.countP_eq_zero.2 fun c hc => by simp [hlogin hc], Nat.zero_add]
      exact Nat.le_trans List.countP_le_length (Operation.length_plan_le op)
    once := by
      refine hsub.nodup (List.nodup_append.2 ⟨s.nodup_logins, op.nodup_plan, ?_⟩)
      rintro c hc _ hc' rfl
      have hauth := Session.isAuth_of_mem_logins hc
      rw [hdata hc'] at hauth
      cases hauth }

/-- **An operation that makes its session ready first keeps to its budget.** -/
theorem Route.thrifty (hroute : Route s n op .start calls cut) : Thrifty s op calls :=
  thrifty_of_start hroute.requests_prefix hroute.handlings_sublist

/-- Closing disconnects the handle that is held, if there is one. -/
theorem Operating.closing {r : op.Result} {t : Session} (ho : Operating s n op calls r t) (hop : op = .close) :
    calls.reverse = s.handle.toList.map .disconnect := by
  cases ho with
  | closed hc =>
    cases hc with
    | idle hh | held hh => simp [hh]
  | interrupted hne | unready hne => exact absurd hop hne
  | served _ hserve => cases hserve <;> cases hop

theorem thrifty_closing (s : Session) : Thrifty s .close (s.handle.toList.map .disconnect) := by
  have hdone (n : Handle) : (handlings (s.handle.toList.map .disconnect)).Sublist (Stage.start.handlings s n) := by
    unfold Stage.handlings
    cases s.handle with
    | none => exact List.nil_sublist _
    | some h => exact .cons_cons _ (List.nil_sublist _)
  refine thrifty_of_start ?_ (hdone 0)
  cases s.handle <;> exact List.nil_prefix

variable {σ : Type} [Peer σ]

/-- **An operation keeps to its route and to its budget**, whatever has happened before. -/
theorem operation_keeps_to_its_route (endpoint : Endpoint) (settings : BackendSettings) (peer : σ)
    (logging : Logging.State) (hscheme : endpoint.scheme = Endpoint.supportedScheme) {changes : σ → σ → Prop}
    {attempts : List Attempt} {x : Scene σ}
    (hrun : Run changes (Scene.fresh endpoint settings peer logging) attempts x) (op : Operation) :
    ∃ calls, (op.perform x).2.line.calls = calls.reverse ++ x.line.calls ∧
      (op ≠ .close → Route x.session x.line.created op .start calls (passing? (op.perform x).1)) ∧
      (op = .close → calls = x.session.handle.toList.map .disconnect) ∧
      Thrifty x.session op calls ∧ ∀ call ∈ x.line.calls, call.handle < x.line.created := by
  have hsound : x.session.Sound := hrun.sound (Scene.sound_fresh endpoint settings peer logging)
  have hnumbered : Run.Numbered x :=
    hrun.numbered ⟨fun call hcall => by simp [Scene.fresh] at hcall, fun h hh => by simp [Scene.fresh] at hh⟩
  have hscheme' : x.session.endpoint.scheme = Endpoint.supportedScheme := by
    rw [hrun.continues.endpoint_eq]
    exact hscheme
  obtain ⟨calls, hcourse, hcalls⟩ := op.course x
  refine ⟨calls.reverse, by rw [List.reverse_reverse, hcalls.calls_eq], fun hop => hcourse.route hop hsound hscheme',
    fun hop => hcourse.closing hop, ?_, hnumbered.calls_lt⟩
  by_cases hop : op = .close
  · rw [hcourse.closing hop, hop]
    exact thrifty_closing x.session
  · exact (hcourse.route hop hsound hscheme').thrifty

/-- A lost handle is given up for a new one, and that one is given up for good. -/
theorem lost_handle_spends_the_budget :
    let late : Failure := .store .timeout "late"
    let refused : Failure := .store .connection "refused"
    let d : Digest := ⟨List.replicate 20 0, rfl⟩
    let x := ((Operation.get d).perform (Scene.onHost ({ receiving := .error late } : Steady))).2
    let y := x.withPeer { connecting := .error refused }
    ∃ calls, ((Operation.put d [1] true).perform y).2.line.calls = calls.reverse ++ y.line.calls ∧
      handlings calls = [.disconnect 0, .connect 0, .disconnect 0, .create 1, .connect 1, .disconnect 1] ∧
      Route y.session 1 (.put d [1] true) .start calls none ∧ Thrifty y.session (.put d [1] true) calls := by
  intro late refused d x y
  have hy : Run (fun _ _ => True) (Scene.onHost ({ receiving := .error late } : Steady)) [⟨.get d, _⟩] y :=
    .change _ trivial (.operate (.get d) .start)
  obtain ⟨calls, hcalls, hroute, -, hthrifty, -⟩ := operation_keeps_to_its_route _ _ _ _ rfl hy (.put d [1] true)
  have hhandlings : handlings ((Operation.put d [1] true).perform y).2.line.calls.reverse =
      [.create 0, .connect 0, .disconnect 0, .connect 0, .disconnect 0, .create 1, .connect 1, .disconnect 1] := rfl
  have hbefore : handlings y.line.calls.reverse = [.create 0, .connect 0] := rfl
  rw [hcalls] at hhandlings
  refine ⟨calls, hcalls, ?_, hroute (by simp), hthrifty⟩
  simpa [hbefore] using hhandlings

end Storage
end RemoteCache
