import RemoteCache.Proofs.Actions

/-!
# Calls on a line

What an action does to the line is a list of calls, the latest first: `Leads l calls m` says that these calls, each
with the result that the peer gave, lead from `l` to `m`. The peer is followed call by call, so a property of the
peer's state that every call keeps holds at the end (`Kept.leads`), and the record of the line grows by exactly
the calls made (`Leads.calls_eq`).

A command and its reply are one `Exchange`: the command could not be sent, or something was received for it.
-/

namespace RemoteCache

open RemoteCache.Action

namespace Call

/-- The handle that a call is made on. -/
def handle : Call → Handle
  | .create h _ | .connect h _ | .disconnect h | .send h _ _ | .receive h _ => h

/-- The command of a send that did not fail. -/
def delivered? : Call → Option Command
  | .send _ c (.ok _) => some c
  | _ => none

theorem command_of_delivered {call : Call} {c : Command} (h : call.delivered? = some c) : call.command? = some c := by
  unfold delivered? at h
  split at h
  · exact h
  · cases h

end Call

namespace Line

variable {σ : Type} [Peer σ]

/-! ## Lines and what leads from one to another -/

/-- One call leads from `l` to `m`. -/
inductive Step : Line σ → Call → Line σ → Prop
  | create (l : Line σ) (options : ConnectionOptions) : Step l (.create l.created options) {
      peer := Peer.create l.peer l.created options
      created := l.created + 1
      calls := .create l.created options :: l.calls }
  | connect (l : Line σ) (h : Handle) : Step l (.connect h (Peer.connect l.peer h).1) { l with
      peer := (Peer.connect l.peer h).2
      calls := .connect h (Peer.connect l.peer h).1 :: l.calls }
  | disconnect (l : Line σ) (h : Handle) : Step l (.disconnect h) { l with
      peer := Peer.disconnect l.peer h
      calls := .disconnect h :: l.calls }
  | send (l : Line σ) (h : Handle) (c : Command) : Step l (.send h c (Peer.send l.peer h c).1) { l with
      peer := (Peer.send l.peer h c).2
      calls := .send h c (Peer.send l.peer h c).1 :: l.calls }
  | receive (l : Line σ) (h : Handle) : Step l (.receive h (Peer.receive l.peer h).1) { l with
      peer := (Peer.receive l.peer h).2
      calls := .receive h (Peer.receive l.peer h).1 :: l.calls }

/-- The calls, the latest first, lead from `l` to another line. -/
inductive Leads (l : Line σ) : List Call → Line σ → Prop
  | refl : Leads l [] l
  | step {calls : List Call} {c : Call} {m n : Line σ} : Leads l calls m → Step m c n → Leads l (c :: calls) n

theorem Step.leads {l m : Line σ} {c : Call} (h : Step l c m) : Leads l [c] m := .step .refl h

theorem Step.calls_eq {l m : Line σ} {c : Call} (h : Step l c m) : m.calls = c :: l.calls := by
  cases h <;> rfl

/-- What came back from a call, and the peer behind it, are the peer's. -/
theorem Step.connect_eq {l m : Line σ} {h : Handle} {r : Except Failure Unit} (hs : Step l (.connect h r) m) :
    Peer.connect l.peer h = (r, m.peer) := by
  cases hs
  rfl

theorem Step.send_eq {l m : Line σ} {h : Handle} {c : Command} {r : Except Failure Unit}
    (hs : Step l (.send h c r) m) : Peer.send l.peer h c = (r, m.peer) := by
  cases hs
  rfl

theorem Step.receive_eq {l m : Line σ} {h : Handle} {r : Except Failure Answer} (hs : Step l (.receive h r) m) :
    Peer.receive l.peer h = (r, m.peer) := by
  cases hs
  rfl

/-- The latest call comes last. -/
theorem Leads.last {l n : Line σ} {calls : List Call} {c : Call} (h : Leads l (c :: calls) n) :
    ∃ m, Leads l calls m ∧ Step m c n := by
  cases h with
  | step h hs => exact ⟨_, h, hs⟩

/-- A single call is a step. -/
theorem Leads.single {l m : Line σ} {c : Call} (h : Leads l [c] m) : Step l c m := by
  obtain ⟨k, hk, hs⟩ := h.last
  obtain rfl : k = l := by cases hk; rfl
  exact hs

theorem Leads.trans {l m n : Line σ} {calls more : List Call} (h₁ : Leads l calls m) (h₂ : Leads m more n) :
    Leads l (more ++ calls) n := by
  induction h₂ with
  | refl => exact h₁
  | step _ hs ih => exact .step ih hs

theorem Leads.calls_eq {l m : Line σ} {calls : List Call} (h : Leads l calls m) : m.calls = calls ++ l.calls := by
  induction h with
  | refl => rfl
  | step _ hs ih => rw [hs.calls_eq, ih, List.cons_append]

/-- Nothing happens to a line on which no call is made. -/
theorem Leads.eq_of_nil {l m : Line σ} (h : Leads l [] m) : m = l := by cases h; rfl

/-- The way splits where the list of calls does. -/
theorem Leads.split {l n : Line σ} {calls : List Call} (more : List Call) (h : Leads l (more ++ calls) n) :
    ∃ m, Leads l calls m ∧ Leads m more n := by
  induction more generalizing n with
  | nil => exact ⟨n, h, .refl⟩
  | cons c more ih =>
    cases h with
    | step h hs =>
      obtain ⟨m, hm, hmore⟩ := ih h
      exact ⟨m, hm, .step hmore hs⟩

/-- What every call keeps holds at the end. -/
theorem Leads.preserves {P : Line σ → Prop} {l m : Line σ} {calls : List Call} (h : Leads l calls m)
    (hstep : ∀ {l c m}, c ∈ calls → Step l c m → P l → P m) (hl : P l) : P m := by
  induction h with
  | refl => exact hl
  | step _ hs ih => exact hstep List.mem_cons_self hs (ih fun hc => hstep (List.mem_cons_of_mem _ hc))

/-- A property of a peer's state that every call keeps. -/
structure Kept (P : σ → Prop) : Prop where
  create : ∀ peer h options, P peer → P (Peer.create peer h options)
  connect : ∀ peer h, P peer → P (Peer.connect peer h).2
  disconnect : ∀ peer h, P peer → P (Peer.disconnect peer h)
  send : ∀ peer h c, P peer → P (Peer.send peer h c).2
  receive : ∀ peer h, P peer → P (Peer.receive peer h).2

theorem Kept.step {P : σ → Prop} (hP : Kept P) {l m : Line σ} {c : Call} (hs : Step l c m) (hl : P l.peer) :
    P m.peer := by
  cases hs with
  | create => exact hP.create _ _ _ hl
  | connect => exact hP.connect _ _ hl
  | disconnect => exact hP.disconnect _ _ hl
  | send => exact hP.send _ _ _ hl
  | receive => exact hP.receive _ _ hl

theorem Kept.leads {P : σ → Prop} (hP : Kept P) {l m : Line σ} {calls : List Call} (h : Leads l calls m)
    (hl : P l.peer) : P m.peer :=
  h.preserves (P := fun n => P n.peer) (fun _ hs hk => hP.step hs hk) hl

/-- Handles are numbered on only where one is created. -/
theorem Leads.created_eq {l m : Line σ} {calls : List Call} (h : Leads l calls m)
    (hcalls : ∀ c ∈ calls, c.options? = none) : m.created = l.created := by
  refine h.preserves (P := fun n => n.created = l.created) (fun hc hs hl => ?_) rfl
  cases hs with
  | create => simpa [Call.options?] using hcalls _ hc
  | connect | disconnect | send | receive => exact hl

theorem Leads.created_le {l m : Line σ} {calls : List Call} (h : Leads l calls m) : l.created ≤ m.created := by
  refine h.preserves (P := fun n => l.created ≤ n.created) (fun _ hs hl => ?_) (Nat.le_refl _)
  cases hs with
  | create => exact Nat.le_succ_of_le hl
  | connect | disconnect | send | receive => exact hl

/-- A handle that has been created is below the next one. -/
theorem Leads.lt_created {l m : Line σ} {calls : List Call} {k : Handle} {options : ConnectionOptions}
    (h : Leads l calls m) (hk : Call.create k options ∈ calls) : k < m.created := by
  induction h with
  | refl => simp at hk
  | step _ hs ih =>
    rcases List.mem_cons.1 hk with rfl | hk
    · cases hs
      exact Nat.lt_succ_self _
    · exact Nat.lt_of_lt_of_le (ih hk) hs.leads.created_le

/-! ## The handles of some calls -/

/-- A handle that was held before some calls, or is created in them. -/
def Known (held : Option Handle) (calls : List Call) (h : Handle) : Prop :=
  held = some h ∨ ∃ options, Call.create h options ∈ calls

theorem Known.mono {held : Option Handle} {calls more : List Call} {h : Handle} (hk : Known held calls h)
    (hsub : calls ⊆ more) : Known held more h :=
  hk.imp id fun ⟨options, hcreate⟩ => ⟨options, hsub hcreate⟩

theorem Known.lt_created {l m : Line σ} {held : Option Handle} {calls : List Call} {h : Handle}
    (hk : Known held calls h) (hcalls : Leads l calls m) (hheld : ∀ k, held = some k → k < l.created) :
    h < m.created := by
  rcases hk with hsome | ⟨options, hcreate⟩
  · exact Nat.lt_of_lt_of_le (hheld h hsome) hcalls.created_le
  · exact hcalls.lt_created hcreate

/-! ## What is sent -/

/-- Every command sent in some calls is as `P` says. -/
def Sends (P : Command → Prop) (calls : List Call) : Prop :=
  ∀ call ∈ calls, ∀ c, call.command? = some c → P c

@[simp] theorem sends_nil (P : Command → Prop) : Sends P [] := by simp [Sends]

@[simp] theorem sends_cons (P : Command → Prop) (call : Call) (calls : List Call) :
    Sends P (call :: calls) ↔ (∀ c, call.command? = some c → P c) ∧ Sends P calls := by simp [Sends]

@[simp] theorem sends_append (P : Command → Prop) (calls more : List Call) :
    Sends P (calls ++ more) ↔ Sends P calls ∧ Sends P more := by
  simp only [Sends, List.mem_append, or_imp, forall_and]

theorem Sends.mono {P Q : Command → Prop} {calls : List Call} (hs : Sends P calls) (hPQ : ∀ c, P c → Q c) :
    Sends Q calls :=
  fun call hcall c hc => hPQ c (hs call hcall c hc)

/-- The commands sent in some calls, in the order of the calls. -/
def requests (calls : List Call) : List Command := calls.filterMap Call.command?

@[simp] theorem requests_append (calls more : List Call) :
    requests (calls ++ more) = requests calls ++ requests more := by simp [requests]

theorem mem_requests_of_sends {P : Command → Prop} {calls : List Call} {c : Command} (hcalls : Sends P calls)
    (hc : c ∈ requests calls) : P c := by
  obtain ⟨call, hcall, hcommand⟩ := List.mem_filterMap.1 hc
  exact hcalls call hcall c hcommand

/-- The commands whose sends did not fail, in the order of the calls. -/
def delivered (calls : List Call) : List Command := calls.filterMap Call.delivered?

theorem mem_requests_of_delivered {calls : List Call} {c : Command} (hc : c ∈ delivered calls) :
    c ∈ requests calls := by
  obtain ⟨call, hcall, hdelivered⟩ := List.mem_filterMap.1 hc
  exact List.mem_filterMap.2 ⟨call, hcall, Call.command_of_delivered hdelivered⟩

/-! ## Calls as actions end in them -/

theorem ends_create {options : ConnectionOptions} {l : Line σ} {Q : Except Failure Handle → Line σ → Prop}
    (hQ : ∀ m, Step l (.create l.created options) m → Q (.ok l.created) m) : Ends (create options) l Q :=
  hQ _ (.create l options)

theorem ends_disconnect {h : Handle} {l : Line σ} {Q : Except Failure Unit → Line σ → Prop}
    (hQ : ∀ m, Step l (.disconnect h) m → Q (.ok ()) m) : Ends (disconnect h) l Q :=
  hQ _ (.disconnect l h)

/-- `finish` hands a result over unchanged. -/
theorem ends_of_finish {τ α : Type} {act : EStateM Failure τ α} {x y : τ} {r : Except Failure α}
    {Q : Except Failure α → τ → Prop} (h : act x = finish r y) (hQ : Q r y) : Ends act x Q := by
  cases r <;> simpa [Ends, run, h, finish] using hQ

theorem ends_connect {h : Handle} {l : Line σ} {Q : Except Failure Unit → Line σ → Prop}
    (hQ : ∀ r m, Step l (.connect h r) m → Q r m) : Ends (connect h) l Q :=
  ends_of_finish rfl (hQ _ _ (.connect l h))

theorem ends_send {h : Handle} {c : Command} {l : Line σ} {Q : Except Failure Unit → Line σ → Prop}
    (hQ : ∀ r m, Step l (.send h c r) m → Q r m) : Ends (send h c) l Q :=
  ends_of_finish rfl (hQ _ _ (.send l h c))

theorem ends_receive {h : Handle} {l : Line σ} {Q : Except Failure Answer → Line σ → Prop}
    (hQ : ∀ r m, Step l (.receive h r) m → Q r m) : Ends (receive h) l Q :=
  ends_of_finish rfl (hQ _ _ (.receive l h))

/-! ## Exchanges -/

/-- The calls of one command on a handle, and the reply that they give or the failure that passes. -/
inductive Exchange (h : Handle) (c : Command) : List Call → Except Failure Reply → Prop
  | unsent (f : Failure) : Exchange h c [.send h c (.error f)] (Reply.ofExchange c.name (.error f))
  | answered (r : Except Failure Answer) :
      Exchange h c [.receive h r, .send h c (.ok ())] (Reply.ofExchange c.name r)

theorem ends_exchange {h : Handle} {c : Command} {l : Line σ} {Q : Except Failure Reply → Line σ → Prop}
    (hQ : ∀ calls r m, Exchange h c calls r → Leads l calls m → Q r m) : Ends (exchange h c) l Q := by
  have hask : Ends (ask h c) l fun r m => Q (Reply.ofExchange c.name r) m := by
    rw [ask, ends_bind]
    refine ends_send ?_
    intro r m hs
    cases r with
    | error f => exact hQ _ _ m (.unsent f) hs.leads
    | ok _ => exact ends_receive fun r n hr => hQ _ _ n (.answered r) (hs.leads.step hr)
  cases hl : ask h c l with
  | ok a m =>
    have hQ' : Q (Reply.ofExchange c.name (.ok a)) m := by simpa [Ends, run, hl] using hask
    exact ends_of_finish (by simp [exchange, hl]) hQ'
  | error f m =>
    have hQ' : Q (Reply.ofExchange c.name (.error f)) m := by simpa [Ends, run, hl] using hask
    exact ends_of_finish (by simp [exchange, hl]) hQ'

/-- An exchange sends its command and no other. -/
theorem Exchange.sends {h : Handle} {c : Command} {calls : List Call} {r : Except Failure Reply}
    (hex : Exchange h c calls r) : Sends (· = c) calls := by
  cases hex with
  | unsent | answered => simp [Call.command?]

theorem Exchange.handle_eq {h : Handle} {c : Command} {calls : List Call} {r : Except Failure Reply}
    (hex : Exchange h c calls r) : ∀ call ∈ calls, call.handle = h := by
  cases hex with
  | unsent | answered => simp [Call.handle]

/-- An exchange neither connects nor disconnects. -/
theorem Exchange.undisturbed {h : Handle} {c : Command} {calls : List Call} {r : Except Failure Reply}
    (hex : Exchange h c calls r) : ∀ call ∈ calls, call.isConnect = false ∧ call.isDisconnect = false := by
  cases hex with
  | unsent | answered => simp [Call.isConnect, Call.isDisconnect]

end Line
end RemoteCache
