import Mathlib.Data.List.ModifyLast
import RemoteCache.Proofs.Calls
import RemoteCache.Proofs.Histories
import RemoteCache.Proofs.Reply
import RemoteCache.Session

/-!
# Sessions with two passwords in lockstep

Two scenes are `Twins` if they differ in nothing that can be seen but the passwords of their sessions: a call shows a
password in the last argument of a login only, and there `Call.masked` puts a mask.

`Lockstep act act'` says that two actions, on lines whose peers may be of different types, lead from twins to twins
and hand over the same, provided both lines are answered alike. What "alike" means is up to a table (`Answers`) that
has one entry for the n-th connection and one for the n-th command, whatever its arguments are.

There is one rule for each step that actions are made of. The rule for sequences (`Lockstep.bind`) has to look back:
the answers to a whole run are those to its first part only because calls are never taken back. So lockstep includes
that both actions just add calls (`Adds`). Each program of a session is then followed by its rules, step by step.
-/

namespace RemoteCache

open RemoteCache.Action

/-! ## What can be seen of a call -/

/-- A command with its last argument masked if it is a login. -/
def Command.masked (c : Command) : Command :=
  if c.isAuth then { c with args := c.args.modifyLast fun _ => .text Session.mask } else c

/-- A call with the command that it sends masked. -/
def Call.masked : Call → Call
  | .send h c r => .send h c.masked r
  | call => call

def Call.isSend : Call → Bool
  | .send .. => true
  | _ => false

@[simp] theorem Call.isConnect_masked (call : Call) : call.masked.isConnect = call.isConnect := by
  cases call <;> rfl

@[simp] theorem Call.isSend_masked (call : Call) : call.masked.isSend = call.isSend := by
  cases call <;> rfl

theorem Call.options?_masked (call : Call) : call.masked.options? = call.options? := by
  cases call <;> rfl

/-- Masking keeps the word of a command. -/
theorem Command.name_masked (c : Command) : c.masked.name = c.name := by
  unfold masked
  split <;> rfl

/-- Logins look alike if they have the same user name. -/
theorem Command.masked_auth (username : Option String) (p q : String) :
    (auth username p).masked = (auth username q).masked := by
  rw [masked, masked, if_pos (isAuth_auth _ _), if_pos (isAuth_auth _ _)]
  simp [auth, ofWord, List.modifyLast_concat]

/-! ## Answers -/

/-- What comes back from the n-th connection, and from sending the n-th command and receiving its answer. -/
structure Answers where
  connection : Nat → Except Failure Unit
  sending : Nat → Except Failure Unit
  answer : Nat → Except Failure Answer

namespace Answers

/-- What comes back from a call, given the calls before. -/
def Fits (o : Answers) (call : Call) (before : List Call) : Prop :=
  match call with
  | .connect _ r => r = o.connection (before.countP Call.isConnect)
  | .send _ _ r => r = o.sending (before.countP Call.isSend)
  | .receive _ r => r = o.answer (before.countP Call.isSend - 1)
  | .create .. | .disconnect _ => True

/-- All calls are answered from the table. -/
def Gives (o : Answers) : List Call → Prop := Throughout o.Fits

theorem Gives.of_suffix {o : Answers} {calls before : List Call} (h : o.Gives calls) (hbefore : before <:+ calls) :
    o.Gives before := by
  obtain ⟨after, rfl⟩ := hbefore
  exact h.earlier

end Answers

/-! ## Twins -/

variable {σ τ α β : Type}

/-- Two lines on which the same can be seen. -/
structure Line.Alike (l : Line σ) (m : Line τ) : Prop where
  created_eq : l.created = m.created
  calls_eq : l.calls.map Call.masked = m.calls.map Call.masked

theorem Call.countP_masked {f : Call → Bool} (hf : ∀ call : Call, f call.masked = f call) (calls : List Call) :
    (calls.map Call.masked).countP f = calls.countP f := by
  rw [List.countP_map]
  congr 1
  funext call
  exact hf call

theorem Line.Alike.countP_eq {l : Line σ} {m : Line τ} (h : l.Alike m) {f : Call → Bool}
    (hf : ∀ call : Call, f call.masked = f call) : l.calls.countP f = m.calls.countP f := by
  rw [← Call.countP_masked hf l.calls, h.calls_eq, Call.countP_masked hf]

/-- Handles are numbered on once for each creation. -/
theorem Line.Leads.created_add [Peer σ] {l m : Line σ} {calls : List Call} (h : Leads l calls m) :
    m.created = l.created + calls.countP fun call => call.options?.isSome := by
  induction h with
  | refl => rfl
  | step _ hs ih =>
    cases hs with
    | create =>
      show _ + 1 = _
      rw [ih, List.countP_cons_of_pos (by simp [Call.options?]), Nat.add_assoc]
    | connect | disconnect | send | receive =>
      rw [List.countP_cons_of_neg (by simp [Call.options?])]
      exact ih

/-- Calls that look alike lead from lines that look alike to such lines. -/
theorem Line.Alike.leads [Peer σ] [Peer τ] {l l' : Line σ} {m m' : Line τ} {calls calls' : List Call}
    (h : l.Alike m) (hl : Leads l calls l') (hm : Leads m calls' m')
    (hcalls : calls.map Call.masked = calls'.map Call.masked) : l'.Alike m' where
  created_eq := by
    have hoptions (call : Call) : call.masked.options?.isSome = call.options?.isSome := by
      rw [Call.options?_masked]
    rw [hl.created_add, hm.created_add, h.created_eq, ← Call.countP_masked hoptions calls, hcalls,
      Call.countP_masked hoptions]
  calls_eq := by rw [hl.calls_eq, hm.calls_eq, List.map_append, List.map_append, hcalls, h.calls_eq]

/-- A session with another password. -/
def Session.withPassword (s : Session) (p : String) : Session :=
  { s with settings := { s.settings with password := some p } }

/-- Two scenes that differ in what their peers are, and in the passwords of their sessions. -/
structure Twins (p q : String) (x : Scene σ) (y : Scene τ) : Prop where
  session : ∃ s : Session, x.session = s.withPassword p ∧ y.session = s.withPassword q
  line : x.line.Alike y.line
  logging_eq : x.logging = y.logging
  records_eq : x.records = y.records

theorem Twins.withContext {p q : String} {x : Scene σ} {y : Scene τ} (h : Twins p q x y) (context : Logging.Context) :
    Twins p q (withContext x context) (withContext y context) where
  session := h.session
  line := h.line
  logging_eq := by
    show { x.logging with context } = { y.logging with context }
    rw [h.logging_eq]
  records_eq := h.records_eq

/-! ## Actions in lockstep -/

/-- From a scene with a password the action keeps the password, and just adds calls. -/
def Adds (p : String) (act : Action σ α) : Prop :=
  ∀ x : Scene σ, x.session.settings.password = some p →
    Ends act x fun _ y => x.line.calls <:+ y.line.calls ∧ y.session.settings.password = some p

/-- Two actions that hand over the same and lead from twins to twins, as long as they are answered alike. -/
structure Lockstep (o : Answers) (p q : String) (act : Action σ α) (act' : Action τ α) : Prop where
  left : Adds p act
  right : Adds q act'
  agrees : ∀ (x : Scene σ) (y : Scene τ), Twins p q x y →
    Ends act x fun r x' => Ends act' y fun r' y' =>
      o.Gives x'.line.calls → o.Gives y'.line.calls → r = r' ∧ Twins p q x' y'

section

variable {o : Answers} {p q : String}

/-! ### Adding calls -/

theorem Adds.bind {act : Action σ α} {k : α → Action σ β} (h : Adds p act) (hk : ∀ a, Adds p (k a)) :
    Adds p (act >>= k) := by
  intro x hx
  rw [ends_bind]
  refine (h x hx).mono ?_
  rintro r y ⟨hcalls, hy⟩
  cases r with
  | error f => exact ⟨hcalls, hy⟩
  | ok a => exact (hk a y hy).mono fun _ z hz => ⟨hcalls.trans hz.1, hz.2⟩

/-- What the first part of a sequence has called stays. -/
theorem Adds.suffix_bind {act : Action σ α} {k : α → Action σ β} (h : Adds p act) (hk : ∀ a, Adds p (k a))
    {x : Scene σ} (hx : x.session.settings.password = some p) :
    (run act x).2.line.calls <:+ (run (act >>= k) x).2.line.calls := by
  rw [run_bind]
  cases (run act x).1 with
  | error f => exact List.suffix_refl _
  | ok a => exact (hk a _ (h x hx).2).1

theorem adds_session_bind {k : Session → Action σ α} (hk : ∀ s : Session, Adds p (k (s.withPassword p))) :
    Adds p (session >>= k) := by
  intro x hx
  have hs : x.session = x.session.withPassword p := by rw [Session.withPassword, ← hx]
  rw [ends_bind, ends_session, hs]
  exact hk x.session x hx

theorem Adds.catchingConnect {act : Action σ α} (h : Adds p act) : Adds p (catchingConnect act) := by
  intro x hx
  rw [Ends, run_catchingConnect]
  exact h x hx

theorem Adds.within {act : Action σ α} {texts : List (String × String)} (h : Adds p act) :
    Adds p (within texts act) := by
  intro x hx
  exact ends_within _ fun logging => (h { x with logging } hx).mono fun _ _ hy _ => hy

/-! ### Values, failures and sequences -/

theorem lockstep_pure (a : α) : Lockstep o p q (pure a : Action σ α) (pure a : Action τ α) where
  left _ hx := ⟨List.suffix_refl _, hx⟩
  right _ hy := ⟨List.suffix_refl _, hy⟩
  agrees _ _ hxy _ _ := ⟨rfl, hxy⟩

theorem lockstep_throw (f : Failure) : Lockstep o p q (throw f : Action σ α) (throw f : Action τ α) where
  left _ hx := ⟨List.suffix_refl _, hx⟩
  right _ hy := ⟨List.suffix_refl _, hy⟩
  agrees _ _ hxy _ _ := ⟨rfl, hxy⟩

theorem Lockstep.bind {act : Action σ α} {act' : Action τ α} {k : α → Action σ β} {k' : α → Action τ β}
    (h : Lockstep o p q act act') (hk : ∀ a, Lockstep o p q (k a) (k' a)) :
    Lockstep o p q (act >>= k) (act' >>= k') where
  left := h.left.bind fun a => (hk a).left
  right := h.right.bind fun a => (hk a).right
  agrees := by
    intro x y hxy
    obtain ⟨s, hs, hs'⟩ := hxy.session
    have hleft := h.left.suffix_bind (fun a => (hk a).left) (x := x) (by rw [hs]; rfl)
    have hright := h.right.suffix_bind (fun a => (hk a).right) (x := y) (by rw [hs']; rfl)
    simp only [Ends]
    intro hx hy
    -- The first parts are answered alike, since the second ones just add calls.
    obtain ⟨heq, htwins⟩ := h.agrees x y hxy (hx.of_suffix hleft) (hy.of_suffix hright)
    rw [run_bind] at hx hy ⊢
    rw [run_bind, ← heq]
    rw [← heq] at hy
    cases hr : (run act x).1 with
    | error f => exact ⟨rfl, htwins⟩
    | ok a =>
      rw [hr] at hx hy
      exact (hk a).agrees _ _ htwins hx hy

theorem lockstep_ite {c d : Prop} [Decidable c] [Decidable d] {yes no : Action σ α} {yes' no' : Action τ α}
    (hcd : c ↔ d) (hyes : Lockstep o p q yes yes') (hno : Lockstep o p q no no') :
    Lockstep o p q (if c then yes else no) (if d then yes' else no') := by
  by_cases hc : c
  · rw [if_pos hc, if_pos (hcd.1 hc)]
    exact hyes
  · rw [if_neg hc, if_neg fun hd => hc (hcd.2 hd)]
    exact hno

/-- What an action reads of its session is the same but for the password. -/
theorem lockstep_session_bind {k : Session → Action σ α} {k' : Session → Action τ α}
    (hk : ∀ s : Session, Lockstep o p q (k (s.withPassword p)) (k' (s.withPassword q))) :
    Lockstep o p q (session >>= k) (session >>= k') where
  left := adds_session_bind fun s => (hk s).left
  right := adds_session_bind fun s => (hk s).right
  agrees := by
    intro x y hxy
    obtain ⟨s, hs, hs'⟩ := hxy.session
    simp only [ends_bind, ends_session, hs, hs']
    exact (hk s).agrees x y hxy

/-! ### Steps that make no call -/

theorem lockstep_setPhase (phase : Session.Phase) :
    Lockstep o p q (setPhase phase : Action σ Unit) (setPhase phase : Action τ Unit) where
  left _ hx := ⟨List.suffix_refl _, hx⟩
  right _ hy := ⟨List.suffix_refl _, hy⟩
  agrees := by
    intro x y hxy
    obtain ⟨s, hs, hs'⟩ := hxy.session
    simp only [ends_setPhase, hs, hs']
    exact fun _ _ => ⟨trivial, ⟨{ s with phase }, rfl, rfl⟩, hxy.line, hxy.logging_eq, hxy.records_eq⟩

theorem lockstep_setHandle (handle : Option Handle) :
    Lockstep o p q (setHandle handle : Action σ Unit) (setHandle handle : Action τ Unit) where
  left _ hx := ⟨List.suffix_refl _, hx⟩
  right _ hy := ⟨List.suffix_refl _, hy⟩
  agrees := by
    intro x y hxy
    obtain ⟨s, hs, hs'⟩ := hxy.session
    simp only [ends_setHandle, hs, hs']
    exact fun _ _ => ⟨trivial, ⟨{ s with handle }, rfl, rfl⟩, hxy.line, hxy.logging_eq, hxy.records_eq⟩

theorem lockstep_require (condition : Bool) (args : List Value) :
    Lockstep o p q (require condition args : Action σ Unit) (require condition args : Action τ Unit) := by
  cases condition with
  | true => exact lockstep_pure ()
  | false => exact lockstep_throw _

theorem lockstep_log (logger : String) (level : Logging.Level) (message : String) :
    Lockstep o p q (log logger level message : Action σ Unit) (log logger level message : Action τ Unit) where
  left _ hx := ends_log _ fun _ => ⟨List.suffix_refl _, hx⟩
  right _ hy := ends_log _ fun _ => ⟨List.suffix_refl _, hy⟩
  agrees := by
    intro x y hxy
    simp only [Ends, run_log]
    intro _ _
    refine ⟨trivial, hxy.session, hxy.line, hxy.logging_eq, ?_⟩
    rw [hxy.logging_eq, hxy.records_eq]

theorem Lockstep.within {act : Action σ α} {act' : Action τ α} (texts : List (String × String))
    (h : Lockstep o p q act act') : Lockstep o p q (within texts act) (within texts act') where
  left := h.left.within
  right := h.right.within
  agrees := by
    intro x y hxy
    simp only [Ends, run_within, ← hxy.logging_eq]
    intro hx hy
    obtain ⟨heq, htwins⟩ := h.agrees _ _ (hxy.withContext _) hx hy
    exact ⟨heq, htwins.withContext _⟩

theorem Lockstep.catchingConnect {act : Action σ α} {act' : Action τ α} (h : Lockstep o p q act act') :
    Lockstep o p q (catchingConnect act) (catchingConnect act') where
  left := h.left.catchingConnect
  right := h.right.catchingConnect
  agrees := by
    intro x y hxy
    simp only [Ends, run_catchingConnect]
    intro hx hy
    obtain ⟨heq, htwins⟩ := h.agrees x y hxy hx hy
    rw [heq]
    exact ⟨rfl, htwins⟩

/-! ### Calls -/

variable [Peer σ] [Peer τ]

theorem adds_onLine {act : Line.Action σ α}
    (h : ∀ l, Ends act l fun _ l' => ∃ calls, Line.Leads l calls l') : Adds p (onLine act) := by
  intro x hx
  rw [ends_onLine]
  refine (h x.line).mono ?_
  rintro _ l ⟨calls, hl⟩
  exact ⟨⟨calls, hl.calls_eq.symm⟩, hx⟩

/-- The calls of two actions and what they hand over, as `C` and `D` tell, are alike if the answers are. -/
theorem lockstep_onLine {act : Line.Action σ α} {act' : Line.Action τ α}
    {C : Line σ → List Call → Except Failure α → Prop} {D : Line τ → List Call → Except Failure α → Prop}
    (hact : ∀ l, Ends act l fun r l' => ∃ calls, C l calls r ∧ Line.Leads l calls l')
    (hact' : ∀ m, Ends act' m fun r m' => ∃ calls, D m calls r ∧ Line.Leads m calls m')
    (h : ∀ {l m calls calls' r r'}, l.Alike m → C l calls r → D m calls' r' → o.Gives (calls ++ l.calls) →
      o.Gives (calls' ++ m.calls) → r = r' ∧ calls.map Call.masked = calls'.map Call.masked) :
    Lockstep o p q (onLine act) (onLine act') where
  left := adds_onLine fun l => (hact l).mono fun _ _ ⟨calls, _, hl⟩ => ⟨calls, hl⟩
  right := adds_onLine fun m => (hact' m).mono fun _ _ ⟨calls, _, hm⟩ => ⟨calls, hm⟩
  agrees := by
    intro x y hxy
    simp only [ends_onLine]
    refine (hact x.line).mono ?_
    rintro r l ⟨calls, hC, hl⟩
    refine (hact' y.line).mono ?_
    rintro r' m ⟨calls', hD, hm⟩ hgives hgives'
    obtain ⟨heq, hcalls⟩ := h hxy.line hC hD (hl.calls_eq ▸ hgives) (hm.calls_eq ▸ hgives')
    exact ⟨heq, hxy.session, hxy.line.leads hl hm hcalls, hxy.logging_eq, hxy.records_eq⟩

theorem lockstep_create (options : ConnectionOptions) :
    Lockstep o p q (onLine (Line.create options) : Action σ Handle)
      (onLine (Line.create options) : Action τ Handle) := by
  refine lockstep_onLine (C := fun l calls r => calls = [.create l.created options] ∧ r = .ok l.created)
    (D := fun m calls r => calls = [.create m.created options] ∧ r = .ok m.created) ?_ ?_ ?_
  · exact fun l => Line.ends_create fun _ hl => ⟨_, ⟨rfl, rfl⟩, hl.leads⟩
  · exact fun m => Line.ends_create fun _ hm => ⟨_, ⟨rfl, rfl⟩, hm.leads⟩
  · rintro l m _ _ _ _ hlm ⟨rfl, rfl⟩ ⟨rfl, rfl⟩ _ _
    rw [hlm.created_eq]
    exact ⟨rfl, rfl⟩

theorem lockstep_disconnect (h : Handle) :
    Lockstep o p q (onLine (Line.disconnect h) : Action σ Unit) (onLine (Line.disconnect h) : Action τ Unit) := by
  refine lockstep_onLine (C := fun _ calls r => calls = [.disconnect h] ∧ r = .ok ())
    (D := fun _ calls r => calls = [.disconnect h] ∧ r = .ok ()) ?_ ?_ ?_
  · exact fun l => Line.ends_disconnect fun _ hl => ⟨_, ⟨rfl, rfl⟩, hl.leads⟩
  · exact fun m => Line.ends_disconnect fun _ hm => ⟨_, ⟨rfl, rfl⟩, hm.leads⟩
  · rintro l m _ _ _ _ _ ⟨rfl, rfl⟩ ⟨rfl, rfl⟩ _ _
    exact ⟨rfl, rfl⟩

theorem lockstep_connect (h : Handle) :
    Lockstep o p q (onLine (Line.connect h) : Action σ Unit) (onLine (Line.connect h) : Action τ Unit) := by
  refine lockstep_onLine (C := fun _ calls r => calls = [.connect h r])
    (D := fun _ calls r => calls = [.connect h r]) ?_ ?_ ?_
  · exact fun l => Line.ends_connect fun _ _ hl => ⟨_, rfl, hl.leads⟩
  · exact fun m => Line.ends_connect fun _ _ hm => ⟨_, rfl, hm.leads⟩
  · rintro l m _ _ r r' hlm rfl rfl ⟨hr, -⟩ ⟨hr', -⟩
    replace hr : r = o.connection (l.calls.countP Call.isConnect) := hr
    replace hr' : r' = o.connection (m.calls.countP Call.isConnect) := hr'
    obtain rfl : r = r' := by rw [hr, hr', hlm.countP_eq Call.isConnect_masked]
    exact ⟨rfl, rfl⟩

/-- Two commands that look alike are answered alike. -/
theorem lockstep_exchange (h : Handle) {c c' : Command} (hc : c.masked = c'.masked) :
    Lockstep o p q (onLine (Line.exchange h c) : Action σ Reply) (onLine (Line.exchange h c') : Action τ Reply) := by
  have hname : c.name = c'.name := by rw [← c.name_masked, hc, c'.name_masked]
  refine lockstep_onLine (C := fun _ => Line.Exchange h c) (D := fun _ => Line.Exchange h c') ?_ ?_ ?_
  · exact fun l => Line.ends_exchange fun calls _ _ hex hl => ⟨calls, hex, hl⟩
  · exact fun m => Line.ends_exchange fun calls _ _ hex hm => ⟨calls, hex, hm⟩
  · intro l m calls calls' r r' hlm hex hex' hgives hgives'
    have hsent := hlm.countP_eq Call.isSend_masked
    have hsending {sent sent' : Except Failure Unit} (hs : o.Fits (.send h c sent) l.calls)
        (hs' : o.Fits (.send h c' sent') m.calls) : sent = sent' := by
      replace hs : sent = o.sending (l.calls.countP Call.isSend) := hs
      replace hs' : sent' = o.sending (m.calls.countP Call.isSend) := hs'
      rw [hs, hs', hsent]
    cases hex with
    | unsent f =>
      cases hex' with
      | unsent g =>
        cases hsending hgives.1 hgives'.1
        exact ⟨by rw [hname], by simp [Call.masked, hc]⟩
      | answered => cases hsending hgives.1 hgives'.2.1
    | answered received =>
      cases hex' with
      | unsent g => cases hsending hgives.2.1 hgives'.1
      | answered received' =>
        have hr : received = o.answer (l.calls.countP Call.isSend) := by
          simpa [Answers.Fits, Call.isSend, List.countP_cons] using hgives.1
        have hr' : received' = o.answer (m.calls.countP Call.isSend) := by
          simpa [Answers.Fits, Call.isSend, List.countP_cons] using hgives'.1
        obtain rfl : received = received' := by rw [hr, hr', hsent]
        exact ⟨by rw [hname], by simp [Call.masked, hc]⟩

end

/-! ## Sessions in lockstep -/

namespace Session

@[simp] theorem phase_withPassword (s : Session) (p : String) : (s.withPassword p).phase = s.phase := rfl

@[simp] theorem handle_withPassword (s : Session) (p : String) : (s.withPassword p).handle = s.handle := rfl

@[simp] theorem password_withPassword (s : Session) (p : String) :
    (s.withPassword p).settings.password = some p := rfl

variable {σ τ : Type} {o : Answers} {p q : String}

theorem lockstep_held : Lockstep o p q (held : Action σ Handle) (held : Action τ Handle) := by
  refine lockstep_session_bind fun s => ?_
  simp only [handle_withPassword]
  cases s.handle with
  | none => exact lockstep_throw _
  | some h => exact lockstep_pure h

theorem lockstep_readyHandle : Lockstep o p q (readyHandle : Action σ Handle) (readyHandle : Action τ Handle) :=
  lockstep_session_bind fun _ => (lockstep_require _ _).bind fun _ => lockstep_held

theorem lockstep_markStale : Lockstep o p q (markStale : Action σ Unit) (markStale : Action τ Unit) := by
  refine lockstep_session_bind fun s => lockstep_ite Iff.rfl ?_ (lockstep_pure ())
  exact (lockstep_log _ _ _).bind fun _ => lockstep_setPhase _

variable [Peer σ] [Peer τ]

theorem lockstep_invalidate (detail : ErrorDetail) :
    Lockstep o p q (invalidate detail : Action σ ErrorDetail) (invalidate detail : Action τ ErrorDetail) := by
  refine lockstep_session_bind fun s => ?_
  simp only [handle_withPassword]
  cases s.handle with
  | none => exact (lockstep_setPhase _).bind fun _ => lockstep_pure _
  | some h =>
    refine (lockstep_disconnect h).bind fun _ => (lockstep_setHandle none).bind fun _ => ?_
    exact (lockstep_setPhase _).bind fun _ => lockstep_pure _

/-- **Logging in shows the password in its command only**, and there it is masked. -/
theorem lockstep_authenticate :
    Lockstep o p q (authenticate : Action σ (Option ErrorDetail)) (authenticate : Action τ (Option ErrorDetail)) := by
  refine lockstep_held.bind fun h => lockstep_session_bind fun s => ?_
  rw [password_withPassword, password_withPassword]
  refine (lockstep_log _ _ _).bind fun _ => ?_
  refine (lockstep_exchange h (Command.masked_auth _ _ _)).bind fun reply => lockstep_ite Iff.rfl ?_ ?_
  · refine (lockstep_log _ _ _).bind fun _ => (lockstep_invalidate _).bind fun _ => ?_
    exact lockstep_pure _
  · exact (lockstep_setPhase _).bind fun _ => lockstep_pure _

theorem lockstep_reconnect : Lockstep o p q (reconnect : Action σ Bool) (reconnect : Action τ Bool) := by
  refine lockstep_held.bind fun h => (lockstep_disconnect h).bind fun _ => ?_
  refine (lockstep_connect h).catchingConnect.bind fun r => ?_
  cases r with
  | ok _ => exact lockstep_pure true
  | error f =>
    refine (lockstep_log _ _ _).bind fun _ => (lockstep_disconnect h).bind fun _ => ?_
    exact (lockstep_setHandle none).bind fun _ => lockstep_pure false

theorem lockstep_connectNew (place : String) :
    Lockstep o p q (connectNew place : Action σ (Option ErrorDetail))
      (connectNew place : Action τ (Option ErrorDetail)) := by
  refine lockstep_session_bind fun s => ?_
  refine (lockstep_log _ _ _).bind fun _ => (lockstep_create _).bind fun h => ?_
  refine (lockstep_connect h).catchingConnect.bind fun r => ?_
  cases r with
  | ok _ => exact (lockstep_log _ _ _).bind fun _ => (lockstep_setHandle _).bind fun _ => lockstep_authenticate
  | error f =>
    refine (lockstep_log _ _ _).bind fun _ => (lockstep_disconnect h).bind fun _ => ?_
    exact (lockstep_invalidate _).bind fun _ => lockstep_pure _

theorem lockstep_connect :
    Lockstep o p q (connect : Action σ (Option ErrorDetail)) (connect : Action τ (Option ErrorDetail)) := by
  refine lockstep_session_bind fun s => (lockstep_require _ _).bind fun _ => ?_
  refine lockstep_ite Iff.rfl (lockstep_connectNew _) ?_
  exact (lockstep_log _ _ _).bind fun _ => (lockstep_invalidate _).bind fun _ => lockstep_pure _

theorem lockstep_ensureConnected :
    Lockstep o p q (ensureConnected : Action σ (Option ErrorDetail))
      (ensureConnected : Action τ (Option ErrorDetail)) := by
  refine lockstep_session_bind fun s => ?_
  simp only [phase_withPassword]
  cases s.phase with
  | ready | invalid => exact lockstep_pure _
  | unconnected | connecting =>
    refine (lockstep_setPhase _).bind fun _ => Lockstep.within _ ?_
    refine lockstep_ite Iff.rfl ?_ lockstep_connect
    refine lockstep_reconnect.bind fun _ => ?_
    exact lockstep_ite Iff.rfl lockstep_authenticate lockstep_connect

theorem lockstep_close : Lockstep o p q (close : Action σ Unit) (close : Action τ Unit) := by
  refine lockstep_session_bind fun s => ?_
  simp only [handle_withPassword]
  cases s.handle with
  | none => exact lockstep_setPhase _
  | some h =>
    refine (lockstep_log _ _ _).bind fun _ => (lockstep_disconnect h).bind fun _ => ?_
    exact (lockstep_setHandle none).bind fun _ => lockstep_setPhase _

end Session
end RemoteCache
