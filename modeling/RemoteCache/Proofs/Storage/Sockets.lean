import RemoteCache.Proofs.Histories
import RemoteCache.Proofs.Resp.Commands
import RemoteCache.Proofs.Storage.Runs
import RemoteCache.Proofs.Wire

/-!
# Data commands over sockets

A handle that has no socket opens one when it is to send, and nobody logs in over that one. So it matters whether a
session that takes itself for ready still has its socket.

**Theorem (`authenticated_iff_unslipped`).** Let a store with a password run over sockets, from a plain script. Every
data command goes over a socket that a login was accepted on before, if and only if no data command is sent on a
handle after a failure that slips through: one that takes the socket away and leaves the session ready. These are
the authentication errors, which the session takes for replies, and the failures of no store family, which pass
through it (`Failure.Slips`).

The invariant `InStep` goes along with the run. As long as nothing has slipped, the handle of a ready session either
has a socket that a login was accepted on, or it has none and its last failure slipped (`Standing`).

What is said of commands is said of bytes: the frames that a run writes are those of the commands that it has sent, in
this order, and a store that reads what is written over a socket gets the commands back (`sent_commands_read`).
-/

namespace RemoteCache

/-- A failure that is neither a reply that keeps its socket nor the loss of one that makes a session stale. -/
def Failure.Slips (f : Failure) : Prop := f.isAuthentication = true ∨ f.isStore = false

theorem Failure.not_slips {f : Failure} (hf : f.isErrorReply = true) : ¬ f.Slips := by
  rintro (hauth | hstore)
  · have hkind : f.kind = .store .authentication := by simpa [isAuthentication] using hauth
    simp [isErrorReply, hkind, StoreKind.isErrorReply] at hf
  · cases hkind : f.kind <;> simp [isErrorReply, isStore, hkind] at hf hstore

/-- A failure that takes a socket slips through unless there is no reply. -/
theorem Failure.slips_of_reply {f : Failure} {name : String} (hf : f.isErrorReply = false)
    (hreply : ∀ reply, Reply.ofExchange name (.error f) = .ok reply → reply.tag ≠ .null) : f.Slips := by
  obtain ⟨hrefused, -⟩ | ⟨-, heq⟩ | ⟨hstore, -⟩ := Reply.ofExchange_cases name f
  · exact .inl (hrefused.resolve_left (by simp [hf]))
  · exact absurd rfl (hreply _ heq)
  · exact .inr hstore

namespace Call

/-- A call that connects or disconnects `h`. -/
inductive Renews (h : Handle) : Call → Prop
  | connect {r : Except Failure Unit} : Renews h (.connect h r)
  | disconnect : Renews h (.disconnect h)

/-- A failure on `h` that slips through. -/
inductive Slips (h : Handle) : Call → Prop
  | send {c : Command} {f : Failure} : f.Slips → Slips h (.send h c (.error f))
  | receive {f : Failure} : f.Slips → Slips h (.receive h (.error f))

end Call

/-- A failure has slipped through on `h` since it was connected or disconnected last. -/
inductive Dropped (h : Handle) : List Call → Prop
  | now {call : Call} {before : List Call} : call.Slips h → Dropped h (call :: before)
  | earlier {call : Call} {before : List Call} : ¬ call.Renews h → Dropped h before → Dropped h (call :: before)

/-- No data command is sent on a handle on which a failure has slipped through. -/
def Unslipped : List Call → Prop :=
  Throughout fun call before => ∀ h c, call = .send h c (.ok ()) → c.isData = true → ¬ Dropped h before

namespace Wire

/-- What went over one socket. -/
def onSocket (k : Nat) (traffic : Traffic) : List Transfer :=
  traffic.filterMap fun entry => if entry.1 = k then some entry.2 else none

/-- The commands that went over one socket. -/
def commandsOn (k : Nat) (traffic : Traffic) : List Command :=
  (commands traffic).filterMap fun entry => if entry.1 = k then some entry.2 else none

theorem mem_carried_of_mem_commandsOn {w : Wire} {k : Nat} {c : Command} (hc : c ∈ commandsOn k w.traffic) :
    c ∈ w.carried := by
  obtain ⟨entry, hentry, hsame⟩ := List.mem_filterMap.1 hc
  obtain ⟨-, hsnd⟩ := Option.ite_none_right_eq_some.1 hsame
  exact List.mem_map.2 ⟨entry, hentry, Option.some.inj hsnd⟩

/-- A login has gone over the socket, and what came back was no error. -/
def LoggedIn (k : Nat) (traffic : Traffic) : Prop :=
  ∃ later earlier login a, onSocket k traffic = later ++ .answer (.ok a) :: .command login :: earlier ∧
    login.isAuth = true

/-- Every data command has gone over a socket that a login was accepted on before. -/
def Authenticated : Traffic → Prop :=
  Throughout fun entry before => ∀ c, entry.2 = .command c → c.isData = true → LoggedIn entry.1 before

variable {k : Nat} {traffic : Traffic} {c : Command}

theorem LoggedIn.cons (h : LoggedIn k traffic) (entry : Nat × Transfer) : LoggedIn k (entry :: traffic) := by
  obtain ⟨later, earlier, login, a, hsent, hlogin⟩ := h
  by_cases hk : entry.1 = k
  · exact ⟨entry.2 :: later, earlier, login, a, by simp [onSocket, hk, ← hsent], hlogin⟩
  · exact ⟨later, earlier, login, a, by simp [onSocket, hk, ← hsent], hlogin⟩

theorem loggedIn_of_answer (hc : c.isAuth = true) (a : Answer) (traffic : Traffic) :
    LoggedIn k ((k, .answer (.ok a)) :: (k, .command c) :: traffic) :=
  ⟨[], onSocket k traffic, c, a, by simp [onSocket], hc⟩

/-- Nothing has gone over a new socket. -/
theorem not_loggedIn_of_new (hnew : ∀ entry ∈ traffic, entry.1 < k) : ¬ LoggedIn k traffic := by
  rintro ⟨later, earlier, login, a, hsent, -⟩
  have hempty : onSocket k traffic = [] := by
    rw [onSocket, List.filterMap_eq_nil_iff]
    intro entry hentry
    exact if_neg (Nat.ne_of_lt (hnew entry hentry))
  rw [hempty] at hsent
  simp at hsent

/-- Behind every data command there is a login on the same socket. -/
theorem Authenticated.login {after before : List (Nat × Command)} (h : Authenticated traffic)
    (hcommands : commands traffic = after ++ (k, c) :: before) (hc : c.isData = true) :
    ∃ login, (k, login) ∈ before ∧ login.isAuth = true := by
  induction traffic generalizing after with
  | nil => simp [commands] at hcommands
  | cons entry traffic ih =>
    obtain ⟨number, transfer⟩ := entry
    cases transfer with
    | answer r => exact ih h.2 hcommands
    | command c' =>
      cases after with
      | cons _ after => exact ih h.2 (List.cons.inj hcommands).2
      | nil =>
        obtain ⟨⟨⟩, rfl⟩ := List.cons.inj hcommands
        obtain ⟨later, earlier, login, a, hsent, hlogin⟩ := h.1 c rfl hc
        have hmem : Transfer.command login ∈ onSocket number traffic := by
          rw [show onSocket number traffic = _ from hsent]
          simp
        refine ⟨login, ?_, hlogin⟩
        simp only [onSocket, List.mem_filterMap] at hmem
        obtain ⟨⟨other, transfer⟩, hentry, hsame⟩ := hmem
        simp only [Option.ite_none_right_eq_some, Option.some.injEq] at hsame
        obtain ⟨rfl, rfl⟩ := hsame
        exact List.mem_filterMap.2 ⟨_, hentry, rfl⟩

theorem not_authenticated {after before : List (Nat × Command)}
    (hcommands : commands traffic = after ++ (k, c) :: before) (hc : c.isData = true)
    (hnone : ∀ login, (k, login) ∈ before → login.isAuth = false) : ¬ Authenticated traffic := by
  intro h
  obtain ⟨login, hmem, hlogin⟩ := h.login hcommands hc
  rw [hnone login hmem] at hlogin
  cases hlogin

end Wire

namespace Storage

open Line Wire

variable {s t : Session} {c : Command} {op : Operation} {calls before : List Call} {h : Handle} {n : Handle}
variable {l m : Line Wire}

/-! ## Calls that are not about data -/

theorem kept_sound : Kept Wire.Sound where
  create _ _ _ hw := ⟨hw.script, hw.sockets, hw.traffic⟩
  connect _ h hw := (connect_spec hw h).2
  disconnect _ h hw := hw.disconnect h
  send _ h c hw := (send_spec hw h c).2
  receive _ h hw := (receive_spec hw h).2

/-- What goes over sockets in one call: a command that is sent, or what is received. -/
inductive Carries (call : Call) (traffic : Traffic) : Traffic → Prop
  | nothing : Carries call traffic traffic
  | command {k : Nat} {c : Command} : call.command? = some c → Carries call traffic ((k, .command c) :: traffic)
  | answer {k : Nat} {r : Except Failure Answer} : Carries call traffic ((k, .answer r) :: traffic)

theorem carries_of_step {call : Call} (hs : Step l call m) (hl : l.peer.Sound) :
    Carries call l.peer.traffic m.peer.traffic := by
  cases hs with
  | create => exact .nothing
  | disconnect h =>
    rw [show (Peer.disconnect l.peer h).traffic = l.peer.traffic from traffic_disconnect l.peer h]
    exact .nothing
  | connect h =>
    obtain ⟨hconnected, -⟩ := connect_spec hl h
    show Carries _ l.peer.traffic (l.peer.connect h).2.traffic
    generalize l.peer.connect h = result at hconnected
    cases hconnected with
    | ok _ _ htraffic | refused _ _ htraffic =>
      rw [htraffic]
      exact .nothing
  | send h c =>
    obtain ⟨hsent, -⟩ := send_spec hl h c
    show Carries _ l.peer.traffic (l.peer.send h c).2.traffic
    generalize l.peer.send h c = result at hsent
    cases hsent with
    | ok _ _ htraffic =>
      rw [htraffic]
      exact .command rfl
    | failed _ _ htraffic =>
      rw [htraffic]
      exact .nothing
  | receive h =>
    obtain ⟨hreceived, -⟩ := receive_spec hl h
    show Carries _ l.peer.traffic (l.peer.receive h).2.traffic
    generalize l.peer.receive h = result at hreceived
    rw [hreceived.traffic_eq]
    exact .answer

/-- What goes over sockets comes after what has gone over them. -/
theorem Carries.authenticated {call : Call} {traffic traffic' : Traffic} (hc : Carries call traffic traffic')
    (h : Authenticated traffic') : Authenticated traffic := by
  cases hc with
  | nothing => exact h
  | command | answer => exact h.2

theorem Carries.keeps {call : Call} {traffic traffic' : Traffic} (hc : Carries call traffic traffic')
    (hdata : ∀ c, call.command? = some c → c.isData = false) (h : Authenticated traffic) : Authenticated traffic' := by
  cases hc with
  | nothing => exact h
  | answer => exact ⟨nofun, h⟩
  | command hcommand =>
    refine ⟨?_, h⟩
    intro _ heq hc
    cases heq
    rw [hdata _ hcommand] at hc
    cases hc

theorem authenticated_of_later (hcalls : Leads l calls m) (hl : l.peer.Sound) (h : Authenticated m.peer.traffic) :
    Authenticated l.peer.traffic := by
  have hback : m.peer.Sound ∧ (Authenticated m.peer.traffic → Authenticated l.peer.traffic) := by
    refine hcalls.preserves (P := fun k => k.peer.Sound ∧ (Authenticated k.peer.traffic → Authenticated l.peer.traffic))
      (fun _ hs hk => ⟨kept_sound.step hs hk.1, fun h => hk.2 ((carries_of_step hs hk.1).authenticated h)⟩) ⟨hl, id⟩
  exact hback.2 h

/-- Calls that send no data command leave it open whether data commands go over the right sockets. -/
theorem authenticated_of_sends (hcalls : Leads l calls m) (hl : l.peer.Sound)
    (hsends : Sends (·.isData = false) calls) (h : Authenticated l.peer.traffic) : Authenticated m.peer.traffic := by
  have hon : m.peer.Sound ∧ Authenticated m.peer.traffic := by
    refine hcalls.preserves (P := fun k => k.peer.Sound ∧ Authenticated k.peer.traffic)
      (fun hcall hs hk => ⟨kept_sound.step hs hk.1, ?_⟩) ⟨hl, h⟩
    exact (carries_of_step hs hk.1).keeps (hsends _ hcall) hk.2
  exact hon.2

theorem unslipped_of_sends (hsends : Sends (·.isData = false) calls) (h : Unslipped before) :
    Unslipped (calls ++ before) := by
  refine (throughout_append ?_).2 h
  intro call hcall _
  rintro h c rfl hdata
  rw [hsends _ hcall c rfl] at hdata
  cases hdata

/-! ## Commands on a handle in step -/

/-- A handle in step has a socket that a login was accepted on, or a failure on it has slipped through. -/
inductive Standing (w : Wire) (h : Handle) (calls : List Call) : Prop
  | connected {k : Nat} : w.number? h = some k → LoggedIn k w.traffic → ¬ Dropped h calls → Standing w h calls
  | dropped : w.number? h = none → Dropped h calls → Standing w h calls

/-- A command goes over a socket that serves its handle, and what is received comes over the same one. -/
theorem sent_and_received {r : Except Failure Answer} (hl : l.peer.Sound)
    (hcalls : Leads l [.receive h r, .send h c (.ok ())] m) :
    ∃ number w, l.peer.Serves h number ∧ w.traffic = (number, .command c) :: l.peer.traffic ∧
      Received w h number (r, m.peer) := by
  obtain ⟨k, hsend, hreceive⟩ := hcalls.last
  have hsent : Sent l.peer h c (.ok (), k.peer) := hsend.single.send_eq ▸ (send_spec hl h c).1
  have hk : k.peer.Sound := kept_sound.leads hsend hl
  have hreceived : Received k.peer h ((k.peer.number? h).getD 0) (r, m.peer) :=
    hreceive.receive_eq ▸ (receive_spec hk h).1
  cases hsent with
  | @ok number _ hserves hnumber htraffic =>
    rw [hnumber, Option.getD_some] at hreceived
    exact ⟨number, k.peer, hserves, htraffic, hreceived⟩

/-- A failure that takes the socket away leaves a handle in step unless there is no reply. -/
theorem standing_of_failure {f : Failure} {name : String} {call : Call} {w : Wire} (hf : f.isErrorReply = false)
    (hr : ∀ reply, Reply.ofExchange name (.error f) = .ok reply → reply.tag ≠ .null) (hnone : w.number? h = none)
    (hcall : f.Slips → call.Slips h) : Standing w h (call :: before) :=
  .dropped hnone (.now (hcall (Failure.slips_of_reply hf hr)))

/-- The calls of an exchange in which no failure slips through leave it open whether one has before. -/
theorem not_dropped_of_answer {r : Except Failure Answer} (hr : ∀ f, r = .error f → ¬ f.Slips)
    (h₀ : ¬ Dropped h before) : ¬ Dropped h (.receive h r :: .send h c (.ok ()) :: before) := by
  intro hdropped
  cases hdropped with
  | now hslips =>
    cases hslips with
    | receive hf => exact hr _ rfl hf
  | earlier _ hdropped =>
    cases hdropped with
    | now hslips => cases hslips
    | earlier _ hdropped => exact h₀ hdropped

/-- What is received over a socket with a login leaves the handle in step if there is a reply. -/
theorem standing_of_received {r : Except Failure Answer} {w v : Wire} {k : Nat} (hreceived : Received w h k (r, v))
    (hlogged : LoggedIn k w.traffic) (hdropped : ¬ Dropped h before)
    (hr : ∀ reply, Reply.ofExchange c.name r = .ok reply → reply.tag ≠ .null) :
    Standing v h (.receive h r :: .send h c (.ok ()) :: before) := by
  have hkept {result : Except Failure Answer} (htraffic : v.traffic = (k, .answer result) :: w.traffic) :
      LoggedIn k v.traffic := htraffic ▸ hlogged.cons _
  cases hreceived with
  | answered hnumber htraffic => exact .connected hnumber (hkept htraffic) (not_dropped_of_answer nofun hdropped)
  | @refused f _ hf hnumber htraffic =>
    refine .connected hnumber (hkept htraffic) (not_dropped_of_answer ?_ hdropped)
    intro g hg
    cases hg
    exact Failure.not_slips hf
  | dropped hf hnone _ => exact standing_of_failure hf hr hnone .receive

/-- A data command on a handle that has a socket with a login goes over that socket. -/
theorem exchange_with_socket {r : Except Failure Answer} {k : Nat} (hl : l.peer.Sound)
    (hheld : l.peer.number? h = some k) (hlogged : LoggedIn k l.peer.traffic) (hdropped : ¬ Dropped h before)
    (hauth : Authenticated l.peer.traffic) (hslip : Unslipped before)
    (hcalls : Leads l [.receive h r, .send h c (.ok ())] m) :
    Authenticated m.peer.traffic ∧ Unslipped (.receive h r :: .send h c (.ok ()) :: before) ∧
      ((∀ reply, Reply.ofExchange c.name r = .ok reply → reply.tag ≠ .null) →
        Standing m.peer h (.receive h r :: .send h c (.ok ()) :: before)) := by
  obtain ⟨number, w, hserves, htraffic, hreceived⟩ := sent_and_received hl hcalls
  obtain rfl : number = k := by
    rcases hserves with hsame | ⟨hnone, -⟩
    · exact Option.some.inj (hsame.symm.trans hheld)
    · rw [hheld] at hnone
      cases hnone
  refine ⟨?_, ⟨nofun, ?_, hslip⟩, fun hr => standing_of_received hreceived (htraffic ▸ hlogged.cons _) hdropped hr⟩
  · rw [hreceived.traffic_eq, htraffic]
    refine ⟨nofun, ?_, hauth⟩
    intro _ heq _
    cases heq
    exact hlogged
  · intro _ _ heq _
    cases heq
    exact hdropped

/-- A data command on a handle without a socket goes over a new one, which has no login. -/
theorem exchange_without_socket {r : Except Failure Answer} (hl : l.peer.Sound) (hnone : l.peer.number? h = none)
    (hc : c.isData = true) (hcalls : Leads l [.receive h r, .send h c (.ok ())] m) :
    ¬ Authenticated m.peer.traffic := by
  obtain ⟨number, w, hserves, htraffic, hreceived⟩ := sent_and_received hl hcalls
  have hnew : ∀ entry ∈ l.peer.traffic, entry.1 < number := by
    rcases hserves with hsome | ⟨-, hnew⟩
    · rw [hnone] at hsome
      cases hsome
    · exact hnew
  intro hauth
  rw [hreceived.traffic_eq, htraffic] at hauth
  exact not_loggedIn_of_new hnew (hauth.2.1 c rfl hc)

/-- A data command on a handle in step goes over a socket with a login, or it is sent after a failure that slipped
through and goes over a socket without one. The handle stays in step if there is a reply. -/
theorem exchange_in_step {r : Except Failure Reply} (hl : l.peer.Sound) (hstanding : Standing l.peer h before)
    (hauth : Authenticated l.peer.traffic) (hslip : Unslipped before) (hc : c.isData = true)
    (hex : Exchange h c calls r) (hcalls : Leads l calls m) :
    (Authenticated m.peer.traffic ↔ Unslipped (calls ++ before)) ∧
      (Authenticated m.peer.traffic → (∀ reply, r = .ok reply → reply.tag ≠ .null) →
        Standing m.peer h (calls ++ before)) := by
  cases hex with
  | unsent f =>
    have hsent : Sent l.peer h c (.error f, m.peer) := hcalls.single.send_eq ▸ (send_spec hl h c).1
    cases hsent with
    | failed hf hnone htraffic =>
      refine ⟨iff_of_true (htraffic ▸ hauth) ⟨nofun, hslip⟩, ?_⟩
      intro _ hr
      exact standing_of_failure hf hr hnone .send
  | answered r =>
    cases hstanding with
    | connected hheld hlogged hdropped =>
      obtain ⟨hm, hslip', hstanding⟩ := exchange_with_socket hl hheld hlogged hdropped hauth hslip hcalls
      exact ⟨iff_of_true hm hslip', fun _ => hstanding⟩
    | dropped hnone hdropped =>
      have hm : ¬ Authenticated m.peer.traffic := exchange_without_socket hl hnone hc hcalls
      have hslipped : ¬ Unslipped (.receive h r :: .send h c (.ok ()) :: before) :=
        fun hslip' => hslip'.2.1 h c rfl hc hdropped
      exact ⟨iff_of_false hm hslipped, fun hauth' => absurd hauth' hm⟩

/-! ## The invariant -/

/-- Data commands go over the right sockets as long as nothing has slipped, and until then the handle of a ready
session is in step. -/
structure InStep (w : Wire) (s : Session) (calls : List Call) : Prop where
  iff : Authenticated w.traffic ↔ Unslipped calls
  ready : Authenticated w.traffic → s.phase = .ready → ∃ h, s.handle = some h ∧ Standing w h calls

theorem InStep.standing {w : Wire} (hs : InStep w s calls) (hauth : Authenticated w.traffic)
    (hready : s.phase = .ready) (hh : s.handle = some h) : Standing w h calls := by
  obtain ⟨k, hk, hstanding⟩ := hs.ready hauth hready
  rw [hh, Option.some.injEq] at hk
  exact hk ▸ hstanding

/-- What has gone wrong stays wrong. -/
theorem inStep_of_not (hcalls : Leads l calls m) (hl : l.peer.Sound) (h : InStep l.peer s before)
    (hnot : ¬ Authenticated l.peer.traffic) : InStep m.peer t (calls ++ before) := by
  have hm : ¬ Authenticated m.peer.traffic := fun hauth => hnot (authenticated_of_later hcalls hl hauth)
  refine ⟨iff_of_false hm ?_, ?_⟩
  · intro hslip
    exact hnot (h.iff.2 hslip.earlier)
  · intro hauth
    exact absurd hauth hm

theorem Issuing.inStep {r : Except Failure Reply} (hl : l.peer.Sound) (h : InStep l.peer s before)
    (hc : c.isData = true) (hi : Issuing s c calls r t) (hcalls : Leads l calls m) :
    InStep m.peer t (calls ++ before) := by
  by_cases hauth : Authenticated l.peer.traffic
  case neg => exact inStep_of_not hcalls hl h hauth
  have hexchange {k : Handle} (hready : s.phase = .ready) (hh : s.handle = some k) (hex : Exchange k c calls r) :=
    exchange_in_step hl (h.standing hauth hready hh) hauth (h.iff.1 hauth) hc hex hcalls
  cases hi with
  | idle => exact hcalls.eq_of_nil ▸ h
  | answered hready hh hex hfound =>
    obtain ⟨hiff, hstanding⟩ := hexchange hready hh hex
    exact ⟨hiff, fun hm _ => ⟨_, hh, hstanding hm (by simpa using hfound)⟩⟩
  | lost hready hh hex =>
    obtain ⟨hiff, -⟩ := hexchange hready hh hex
    exact ⟨hiff, fun _ hstale => by cases hstale⟩
  | interrupted hready hh hex =>
    obtain ⟨hiff, hstanding⟩ := hexchange hready hh hex
    exact ⟨hiff, fun hm _ => ⟨_, hh, hstanding hm (by simp)⟩⟩

theorem Serving.inStep {r : op.Result} (hl : l.peer.Sound) (h : InStep l.peer s before)
    (hserve : Serving s op calls r t) (hcalls : Leads l calls m) : InStep m.peer t (calls ++ before) := by
  cases hserve with
  | get hi | remove hi | put hi | unasked hi | unanswered hi | kept hi =>
    exact hi.inStep hl h (by simp) hcalls
  | written hi _ hi' =>
    obtain ⟨k, hask, hset⟩ := hcalls.split
    have hasked := hi.inStep hl h (by simp) hask
    rw [List.append_assoc]
    exact hi'.inStep (kept_sound.leads hask hl) hasked (by simp) hset

/-! ## Becoming ready -/

/-- A login that is accepted puts a handle in step that has a socket. -/
theorem standing_of_login {r : Session.Answered} {password : String} (hl : l.peer.Sound)
    (hlogin : Session.Login s h calls r t) (hp : s.settings.password = some password) (hh : s.handle = some h)
    (hphase : s.phase ≠ .ready) (hready : t.phase = .ready) (hbefore : ¬ Dropped h before)
    (hcalls : Leads l calls m) : ∃ k, t.handle = some k ∧ Standing m.peer k (calls ++ before) := by
  cases hlogin with
  | needless hnone =>
    rw [hp] at hnone
    cases hnone
  | rejected => cases hready
  | interrupted => exact absurd hready hphase
  | @accepted password' _ reply _ hex hr =>
    refine ⟨h, hh, ?_⟩
    obtain ⟨a, rfl, -⟩ := Session.answer_of_accepted hex hr
    obtain ⟨number, w, -, htraffic, hreceived⟩ := sent_and_received hl hcalls
    cases hreceived with
    | answered hn ht =>
      refine .connected hn ?_ (not_dropped_of_answer nofun hbefore)
      rw [ht, htraffic]
      exact loggedIn_of_answer (Command.isAuth_auth _ _) a _

theorem not_dropped_of_connect {r : Except Failure Unit} : ¬ Dropped h (.connect h r :: before) := by
  intro hdropped
  cases hdropped with
  | now hslips => cases hslips
  | earlier hrenews => exact hrenews .connect

theorem standing_of_opening {r : Session.Answered} {password : String} (hl : l.peer.Sound)
    (ho : Session.Opening s n calls r t) (hp : s.settings.password = some password) (hphase : s.phase = .connecting)
    (hready : t.phase = .ready) (hcalls : Leads l calls m) :
    ∃ k, t.handle = some k ∧ Standing m.peer k (calls ++ before) := by
  cases ho with
  | unsupported | interrupted =>
    rw [hphase] at hready
    cases hready
  | nowhere | refused => cases hready
  | opened _ hlogin =>
    obtain ⟨k, hopen, hrest⟩ := hcalls.split
    rw [List.append_assoc]
    exact standing_of_login (kept_sound.leads hopen hl) hlogin hp rfl (by simp [hphase]) hready
      not_dropped_of_connect hrest

/-- **A session becomes ready in step.** -/
theorem readying_inStep {r : Session.Answered} {password : String} (hl : l.peer.Sound)
    (h : InStep l.peer s before) (hr : Session.Readying s n calls r t) (hp : s.settings.password = some password)
    (hcalls : Leads l calls m) : InStep m.peer t (calls ++ before) := by
  by_cases hauth : Authenticated l.peer.traffic
  case neg => exact inStep_of_not hcalls hl h hauth
  refine ⟨iff_of_true (authenticated_of_sends hcalls hl hr.sends_no_data hauth)
    (unslipped_of_sends hr.sends_no_data (h.iff.1 hauth)), ?_⟩
  intro _ hready
  cases hr with
  | ready => exact hcalls.eq_of_nil ▸ h.ready hauth hready
  | invalid hphase =>
    rw [hphase] at hready
    cases hready
  | fresh _ _ _ ho => exact standing_of_opening hl ho hp rfl hready hcalls
  | reopened _ _ hh hlogin =>
    obtain ⟨k, hreopen, hrest⟩ := hcalls.split
    rw [List.append_assoc]
    exact standing_of_login (kept_sound.leads hreopen hl) hlogin hp hh (by simp) hready not_dropped_of_connect hrest
  | replaced _ _ _ _ ho =>
    obtain ⟨k, hlost, hrest⟩ := hcalls.split
    rw [List.append_assoc]
    exact standing_of_opening (kept_sound.leads hlost hl) ho hp rfl hready hrest
  | interrupted => cases hready

theorem Operating.inStep {r : op.Result} {password : String} (hl : l.peer.Sound) (h : InStep l.peer s before)
    (ho : Operating s n op calls r t) (hp : s.settings.password = some password) (hcalls : Leads l calls m) :
    InStep m.peer t (calls ++ before) := by
  cases ho with
  | closed hc =>
    by_cases hauth : Authenticated l.peer.traffic
    case neg => exact inStep_of_not hcalls hl h hauth
    refine ⟨iff_of_true (authenticated_of_sends hcalls hl (hc.sends _) hauth)
      (unslipped_of_sends (hc.sends _) (h.iff.1 hauth)), ?_⟩
    intro _ hready
    rw [hc.closed.1] at hready
    cases hready
  | interrupted _ hr | unready _ hr => exact readying_inStep hl h hr hp hcalls
  | served hr hserve =>
    obtain ⟨k, hready, hrest⟩ := hcalls.split
    rw [List.append_assoc]
    exact hserve.inStep (kept_sound.leads hready hl) (readying_inStep hl h hr hp hready) hrest

/-! ## Runs over sockets -/

theorem kept_recorded : Kept Wire.Recorded where
  create _ _ _ hw := hw
  connect _ h hw := hw.connect h
  disconnect _ h hw := hw.disconnect h
  send _ h c hw := hw.send h c
  receive _ h hw := hw.receive h

/-- The traffic of a run is what was written. -/
theorem Run.recorded {x y : Scene Wire} {attempts : List Attempt} (hrun : Run (fun _ _ => False) x attempts y)
    (hx : x.line.peer.Recorded) : y.line.peer.Recorded :=
  hrun.preserves_peer hx kept_recorded fun _ _ hnever _ => hnever.elim

/-! ## What a store reads -/

/-- A call that delivers a command takes it over a socket, and no other call takes any. -/
theorem carried_of_step {call : Call} (hs : Step l call m) :
    m.peer.carried = call.delivered?.toList ++ l.peer.carried := by
  cases hs with
  | create => rfl
  | connect h => exact carried_connect l.peer h
  | disconnect h => exact carried_disconnect l.peer h
  | receive h => exact carried_receive l.peer h
  | send h c =>
    have hsend := carried_send l.peer h c
    show (l.peer.send h c).2.carried = (Call.send h c (l.peer.send h c).1).delivered?.toList ++ l.peer.carried
    rw [hsend]
    cases (l.peer.send h c).1 <;> rfl

theorem carried_of_leads (hcalls : Leads l calls m) : m.peer.carried = delivered calls ++ l.peer.carried := by
  induction hcalls with
  | refl => rfl
  | @step calls call m n _ hs ih =>
    rw [carried_of_step hs, ih, ← List.append_assoc]
    cases hcall : call.delivered? <;> simp [delivered, hcall]

/-- What has gone over the sockets of a run is what it has delivered. -/
theorem Run.carried_eq {x y : Scene Wire} {attempts : List Attempt} (hrun : Run (fun _ _ => False) x attempts y)
    (hx : x.line.peer.carried = delivered x.line.calls) : y.line.peer.carried = delivered y.line.calls := by
  refine hrun.preserves (P := fun y => y.line.peer.carried = delivered y.line.calls) hx (fun op y hy => ?_)
    fun _ _ hnever _ => hnever.elim
  obtain ⟨calls, -, hcalls⟩ := op.course y
  rw [hcalls.calls_eq, carried_of_leads hcalls, hy, delivered, delivered, delivered, List.filterMap_append]

/-- Every command that a store sends is told by its byte strings. -/
theorem everyCommand_spoken (s : Session) : EveryCommand s Command.Spoken where
  login c hlogin := by
    obtain ⟨password, -, rfl⟩ := hlogin
    exact Command.spoken_auth s.loginName? password
  get key := .texts [key] (by decide)
  set key value := .write key value
  exists? key := .texts [key] (by decide)
  del key := .texts [key] (by decide)

/-- **What a store reads off its sockets are the commands that were sent.** The frames that are written are those of
the commands, and a store that reads what is written over one socket, however it is cut, gets the commands that were
sent over it, one after the other. -/
theorem sent_commands_read {endpoint : Endpoint} {settings : BackendSettings} {script : List Opening}
    {logging : Logging.State} {attempts : List Attempt} {x : Scene Wire}
    (hrun : Run (fun _ _ => False) (Scene.fresh endpoint settings ({ script } : Wire) logging) attempts x)
    (hfits : ∀ c ∈ delivered x.line.calls, c.Fits) :
    x.line.peer.events.filterMap Event.sent? = (delivered x.line.calls).map Resp.writeCommand ∧
      ∀ k, let sent := (commandsOn k x.line.peer.traffic).reverse
        Resp.Reads (Resp.times sent.length Resp.readCommand) (sent.flatMap Resp.writeCommand) (sent.map some) := by
  have hcarried : x.line.peer.carried = delivered x.line.calls := hrun.carried_eq rfl
  have hspoken : Sends Command.Spoken x.line.calls := hrun.sends (everyCommand_spoken _) (sends_nil _)
  constructor
  · have hrecorded : x.line.peer.Recorded := hrun.recorded rfl
    rw [← hrecorded, ← hcarried, carried, List.map_map]
    rfl
  · intro k sent
    refine Resp.readCommands_read fun c hc => ?_
    have hdelivered : c ∈ delivered x.line.calls :=
      hcarried ▸ mem_carried_of_mem_commandsOn (List.mem_reverse.1 hc)
    exact ⟨mem_requests_of_sends hspoken (mem_requests_of_delivered hdelivered), hfits c hdelivered⟩

/-! ## Logins before data commands -/

theorem Run.inStep {x y : Scene Wire} {attempts : List Attempt} {password : String}
    (hrun : Run (fun _ _ => False) x attempts y) (hp : x.session.settings.password = some password)
    (hx : x.line.peer.Sound) (h : InStep x.line.peer x.session x.line.calls) :
    y.line.peer.Sound ∧ InStep y.line.peer y.session y.line.calls := by
  induction hrun with
  | start => exact ⟨hx, h⟩
  | change _ hnever => exact hnever.elim
  | @operate _ y op hrun ih =>
    obtain ⟨hy, hstep⟩ := ih
    obtain ⟨calls, hcourse, hcalls⟩ := op.course y
    have hpassword : y.session.settings.password = some password := by rw [hrun.continues.settings_eq, hp]
    rw [hcalls.calls_eq]
    exact ⟨kept_sound.leads hcalls hy, hcourse.inStep hy hstep hpassword hcalls⟩

/-- **Data commands are written to authenticated sockets exactly as long as no failure slips through before one.** -/
theorem authenticated_iff_unslipped {endpoint : Endpoint} {settings : BackendSettings} {password : String}
    {script : List Opening} {logging : Logging.State} {attempts : List Attempt} {x : Scene Wire}
    (hpassword : settings.password = some password) (hscript : ∀ opening ∈ script, opening.Plain)
    (hrun : Run (fun _ _ => False) (Scene.fresh endpoint settings ({ script } : Wire) logging) attempts x) :
    x.line.peer.Recorded ∧ (Authenticated x.line.peer.traffic ↔ Unslipped x.line.calls) := by
  have hfresh : InStep ({ script } : Wire) (Scene.fresh endpoint settings ({ script } : Wire) logging).session [] :=
    ⟨iff_of_true trivial trivial, fun _ hready => by simp [Scene.fresh] at hready⟩
  exact ⟨hrun.recorded rfl, (hrun.inStep hpassword (sound_of_script hscript) hfresh).2.iff⟩

/-- A read over one socket, with a login that is accepted. -/
theorem authenticated_iff_unslipped_on_one_socket :
    let script : List Opening := [.accepted [
      { chunks := [.bytes (Resp.ascii "+OK\r\n")] }, { chunks := [.bytes (Resp.ascii "$-1\r\n")] }]]
    let get : Operation := .get ⟨List.replicate 20 0, rfl⟩
    let x := (get.perform (Scene.onHost ({ script } : Wire) (some "secret"))).2
    x.line.peer.Recorded ∧ (Authenticated x.line.peer.traffic ↔ Unslipped x.line.calls) := by
  intro script get x
  have hscript : ∀ opening ∈ script, opening.Plain := by
    intro opening hopening
    rw [List.mem_singleton] at hopening
    rw [hopening]
    refine .accepted fun d hd => ⟨fun f hf => ?_, fun chunk hchunk => ?_⟩
    · simp only [List.mem_cons, List.not_mem_nil, or_false] at hd
      rcases hd with rfl | rfl <;> cases hf
    · simp only [List.mem_cons, List.not_mem_nil, or_false] at hd
      rcases hd with rfl | rfl <;> cases List.mem_singleton.1 hchunk <;> exact .bytes _
  exact authenticated_iff_unslipped rfl hscript (.operate get .start)

/-- Once a read is answered with an authentication error, the next one goes over a new socket without a login. -/
theorem unauthenticated_after_refusal :
    let script : List Opening := [
      .accepted [{ chunks := [.bytes (Resp.ascii "+OK\r\n")] },
        { chunks := [.bytes (Resp.ascii "-NOAUTH Authentication required.\r\n")] }],
      .accepted [{ chunks := [.bytes (Resp.ascii "$-1\r\n")] }]]
    let get : Operation := .get ⟨List.replicate 20 0, rfl⟩
    let start := Scene.onHost ({ script } : Wire) (some "secret")
    let x := (get.perform (get.perform start).2).2
    (∃ attempts, Run (fun _ _ => False) start attempts x) ∧ ¬ Authenticated x.line.peer.traffic := by
  intro script get start x
  have hcommands : commands x.line.peer.traffic = [] ++ (2, .get (Digest.key ⟨List.replicate 20 0, rfl⟩)) ::
      [(1, .get (Digest.key ⟨List.replicate 20 0, rfl⟩)), (1, .auth none "secret")] := by
    decide +kernel
  refine ⟨⟨_, .operate get (.operate get .start)⟩, not_authenticated hcommands ?_ (by simp)⟩
  simp

end Storage
end RemoteCache
