import Mathlib
import RemoteCache.Proofs.Storage.Agreement
import RemoteCache.Proofs.Storage.Findings

/-!
# When a value is written

A write that must not replace a value asks first whether there is one. It goes ahead if the answer is a number that is
not positive, but also if it is no number, or an error of the store: only a positive number, and no reply at all, keep
the value from being sent.

**Theorem (`put_writes_exactly_when_let`).** Whatever the peer does and from every scene, if a write returns then its
calls and its outcome are as `Wrote` says. The value is sent exactly if the session is made ready and the question, if
there is one, lets the write go ahead; the command is then the latest one, it holds the value as it was given, and the
question comes right before it. The outcome is true exactly if bytes came back for the value, false exactly if a
positive number came back for the question, and a failure otherwise; where the question got no reply the failure is
that of the question.

`exchanges` lists the commands in some calls, each with what came back for it. Once the session is ready, a write adds
one or two exchanges to those of the login (`Issuing.makes`), and there is one case for each way to go on after the
question (`Serving.wrote`).
-/

namespace RemoteCache

namespace Line

/-! ## Commands and what came back -/

/-- The commands in some calls, the latest first, each with what was received for it or why it could not be sent. -/
def exchanges : List Call → List (Command × Except Failure Answer)
  | [] => []
  | .send _ c (.error f) :: before => (c, .error f) :: exchanges before
  | .receive _ r :: .send _ c (.ok ()) :: before => (c, r) :: exchanges before
  | _ :: before => exchanges before

/-- In some calls a command got a reply. -/
def Replied (c : Command) (reply : Reply) (calls : List Call) : Prop :=
  ∃ r, (c, r) ∈ exchanges calls ∧ Reply.ofExchange c.name r = .ok reply

variable {calls before : List Call} {h : Handle} {c : Command}

/-- Only a command that was sent has had something come back. -/
theorem mem_requests_of_exchanged {r : Except Failure Answer} (hmem : (c, r) ∈ exchanges calls) :
    c ∈ requests calls := by
  fun_induction exchanges calls with
  | case1 => simp at hmem
  | case2 h c' f before ih =>
    rcases List.mem_cons.1 hmem with heq | hmem
    · cases heq
      exact List.mem_cons_self
    · exact List.mem_cons_of_mem c' (ih hmem)
  | case3 k r' h c' before ih =>
    rcases List.mem_cons.1 hmem with heq | hmem
    · cases heq
      exact List.mem_cons_self
    · exact List.mem_cons_of_mem c' (ih hmem)
  | case4 call before _ _ ih =>
    obtain ⟨call', hcall, hcommand⟩ := List.mem_filterMap.1 (ih hmem)
    exact List.mem_filterMap.2 ⟨call', List.mem_cons_of_mem _ hcall, hcommand⟩

/-- An exchange adds its command with what came back for it. -/
theorem Exchange.adds {r : Except Failure Reply} (hex : Exchange h c calls r) :
    requests calls = [c] ∧ ∃ result, r = Reply.ofExchange c.name result ∧
      ∀ before, exchanges (calls ++ before) = (c, result) :: exchanges before := by
  cases hex with
  | unsent f => exact ⟨rfl, .error f, rfl, fun _ => rfl⟩
  | answered result => exact ⟨rfl, result, rfl, fun _ => rfl⟩

end Line

open RemoteCache.Action Line

/-! ## Replies -/

namespace Reply

variable {name : String} {r : Except Failure Answer} {reply : Reply}

/-- A write has succeeded exactly if bytes came back for it. -/
theorem asWritten_ofExchange (hname : name ∈ statusCommands) (h : ofExchange name r = .ok reply) (written : Bool) :
    reply.asWritten = .success written ↔ (∃ b, r = .ok (.bytes b)) ∧ written = true := by
  cases r with
  | error f => simp [(fails_ofExchange h).asWritten_ne written]
  | ok a =>
    obtain rfl := Except.ok.inj h
    simp [asWritten_ofAnswer hname written]

theorem tag_ofExchange_integer (h : ofExchange name r = .ok reply) (n : Int) :
    reply.tag = .integer n ↔ r = .ok (.int n) := by
  cases r with
  | error f => simp [(fails_ofExchange h).tag_ne_integer n]
  | ok a =>
    obtain rfl := Except.ok.inj h
    simp [tag_ofAnswer_integer]

/-- Only no reply, and a positive number, keep a write from going ahead. -/
theorem letsWrite_iff (reply : Reply) :
    reply.letsWrite = true ↔ reply.tag ≠ .null ∧ ∀ n, reply.tag = .integer n → n ≤ 0 := by
  obtain ⟨tag, failure⟩ := reply
  cases tag with
  | integer n => simp [letsWrite]
  | _ => simp [letsWrite]

end Reply

namespace Storage

/-! ## Writes -/

/-- The commands of a write, the latest first: the value, behind the question if it must not replace another one. -/
def writing (d : Digest) (value : Bytes) (onlyIfMissing : Bool) : List Command :=
  .set d.key value :: if onlyIfMissing then [.exists? d.key] else []

/-- Bytes came back for the value. -/
def Landed (d : Digest) (value : Bytes) (calls : List Call) : Prop :=
  ∃ b, (.set d.key value, .ok (.bytes b)) ∈ exchanges calls

/-- A positive number came back for the question. -/
def Occupied (d : Digest) (calls : List Call) : Prop :=
  ∃ n : Int, 0 < n ∧ (.exists? d.key, .ok (.int n)) ∈ exchanges calls

/-- What a write that returned an outcome did in its calls, the latest first. -/
structure Wrote (d : Digest) (value : Bytes) (onlyIfMissing : Bool) (ready : Prop) (calls : List Call)
    (outcome : Outcome Bool) : Prop where
  /-- The value is sent exactly if the question, where there is one, lets the write go ahead. -/
  sent : .set d.key value ∈ requests calls ↔ ready ∧ (onlyIfMissing = true → ∃ reply,
    Replied (.exists? d.key) reply calls ∧ reply.tag ≠ .null ∧ ∀ n, reply.tag = .integer n → n ≤ 0)
  /-- After the login come the question and the value, or only the first of them, and nothing else. -/
  order : ∃ data logins, requests calls = data ++ logins ∧ data <:+ writing d value onlyIfMissing ∧
    ∀ c ∈ logins, c.isAuth = true
  written : outcome = .success true ↔ Landed d value calls
  kept : outcome = .success false ↔ onlyIfMissing = true ∧ Occupied d calls
  /-- A question without a reply ends the write with its own failure. -/
  unanswered : ∀ reply, Replied (.exists? d.key) reply calls → reply.tag = .null →
    .set d.key value ∉ requests calls ∧ outcome = .failure (.ofReply reply) ∧
      ((ErrorDetail.ofReply reply).code = .operationTimeout ↔
        ∃ f, (.exists? d.key, .error f) ∈ exchanges calls ∧ f.kind = .store .timeout)

variable {s t : Session} {c : Command} {calls before : List Call} {d : Digest} {value : Bytes}
  {onlyIfMissing : Bool} {outcome : Outcome Bool} {ready : Prop}

/-- What is about a data command is none of what is about logins. -/
theorem mem_append_logins {α : Type} {f : α → Command} {a : α} {data logins : List α} (ha : (f a).isData = true)
    (hlogins : ∀ b ∈ logins, (f b).isAuth = true) : a ∈ data ++ logins ↔ a ∈ data := by
  rw [List.mem_append, or_iff_left]
  intro hmem
  have hauth := hlogins a hmem
  rw [Command.not_isAuth_of_isData ha] at hauth
  cases hauth

/-- Some calls make these exchanges of data commands, the latest first, after those of a login. -/
structure Makes (made : List (Command × Except Failure Answer)) (calls : List Call) : Prop where
  requests_eq : ∃ logins, requests calls = made.map Prod.fst ++ logins ∧ ∀ c ∈ logins, c.isAuth = true
  exchanges_eq : ∃ logins, exchanges calls = made ++ logins ∧ ∀ e ∈ logins, e.1.isAuth = true

variable {made : List (Command × Except Failure Answer)}

theorem Makes.mem_requests (hm : Makes made calls) (hc : c.isData = true) :
    c ∈ requests calls ↔ c ∈ made.map Prod.fst := by
  obtain ⟨logins, heq, hlogins⟩ := hm.requests_eq
  rw [heq]
  exact mem_append_logins (f := id) hc hlogins

theorem Makes.mem_exchanges (hm : Makes made calls) (hc : c.isData = true) (r : Except Failure Answer) :
    (c, r) ∈ exchanges calls ↔ (c, r) ∈ made := by
  obtain ⟨logins, heq, hlogins⟩ := hm.exchanges_eq
  rw [heq]
  exact mem_append_logins (f := Prod.fst) hc hlogins

/-- The end of a write goes in front of the login. -/
theorem Makes.order (hm : Makes made calls) (hmade : made.map Prod.fst <:+ writing d value onlyIfMissing) :
    ∃ data logins, requests calls = data ++ logins ∧ data <:+ writing d value onlyIfMissing ∧
      ∀ c ∈ logins, c.isAuth = true := by
  obtain ⟨logins, heq, hlogins⟩ := hm.requests_eq
  exact ⟨_, logins, heq, hmade, hlogins⟩

theorem makes_nil (hcalls : Sends (·.isAuth = true) calls) : Makes [] calls where
  requests_eq := ⟨_, rfl, fun _ hc => mem_requests_of_sends hcalls hc⟩
  exchanges_eq := ⟨_, rfl, fun _ he => mem_requests_of_sends hcalls (mem_requests_of_exchanged he)⟩

/-- A command that gets a reply is one exchange more. -/
theorem Issuing.makes {reply : Reply} (hi : Issuing s c calls (.ok reply) t) (hm : Makes made before) :
    ∃ r, Reply.ofExchange c.name r = .ok reply ∧ Makes ((c, r) :: made) (calls ++ before) := by
  have hmakes {h : Handle} (hex : Exchange h c calls (.ok reply)) :
      ∃ r, Reply.ofExchange c.name r = .ok reply ∧ Makes ((c, r) :: made) (calls ++ before) := by
    obtain ⟨hrequests, r, hreply, hadds⟩ := hex.adds
    refine ⟨r, hreply.symm, ?_, ?_⟩
    · obtain ⟨logins, heq, hlogins⟩ := hm.requests_eq
      exact ⟨logins, by rw [requests_append, hrequests, heq]; rfl, hlogins⟩
    · obtain ⟨logins, heq, hlogins⟩ := hm.exchanges_eq
      exact ⟨logins, by rw [hadds, heq]; rfl, hlogins⟩
  cases hi with
  | answered _ _ hex | lost _ _ hex => exact hmakes hex

/-- Nothing is written where the session is not made ready. -/
theorem wrote_nothing (hm : Makes [] calls) (houtcome : ∀ written, outcome ≠ .success written) :
    Wrote d value onlyIfMissing False calls outcome where
  sent := by simp [hm.mem_requests]
  order := hm.order List.nil_suffix
  written := by simp [houtcome, Landed, hm.mem_exchanges]
  kept := by simp [houtcome, Occupied, hm.mem_exchanges]
  unanswered := by simp [Replied, hm.mem_exchanges]

/-- A plain write sends its value. -/
theorem wrote_plainly {r : Except Failure Answer} {reply : Reply} (hm : Makes [(.set d.key value, r)] calls)
    (hreply : Reply.ofExchange (Command.set d.key value).name r = .ok reply) :
    Wrote d value false True calls reply.asWritten where
  sent := by simp [hm.mem_requests]
  order := hm.order List.suffix_rfl
  written := by
    rw [Reply.asWritten_ofExchange (by simp [Reply.statusCommands]) hreply]
    simp [Landed, hm.mem_exchanges, eq_comm]
  kept := by
    rw [Reply.asWritten_ofExchange (by simp [Reply.statusCommands]) hreply]
    simp
  unanswered := by simp [Replied, hm.mem_exchanges, (set_ne_exists d.key value).symm]

/-- The one reply to a question is that to what came back for it. -/
theorem Makes.replied_iff {q : Except Failure Answer} {found : Reply} (hm : Makes made calls)
    (hmade : ∀ r, (.exists? d.key, r) ∈ made ↔ r = q)
    (hfound : Reply.ofExchange (Command.exists? d.key).name q = .ok found) (reply : Reply) :
    Replied (.exists? d.key) reply calls ↔ reply = found := by
  simp only [Replied, hm.mem_exchanges (Command.isData_exists _), hmade, exists_eq_left, hfound, Except.ok.injEq]
  exact eq_comm

/-- A question lets the value be sent right behind it. -/
theorem wrote_behind_question {q r : Except Failure Answer} {found reply : Reply}
    (hm : Makes [(.set d.key value, r), (.exists? d.key, q)] calls)
    (hfound : Reply.ofExchange (Command.exists? d.key).name q = .ok found) (hlets : found.letsWrite = true)
    (hreply : Reply.ofExchange (Command.set d.key value).name r = .ok reply) :
    Wrote d value true True calls reply.asWritten := by
  have hmade (r') : (Command.exists? d.key, r') ∈ [(Command.set d.key value, r), (.exists? d.key, q)] ↔ r' = q := by
    simp [(set_ne_exists d.key value).symm]
  obtain ⟨hnull, hfree⟩ := (Reply.letsWrite_iff found).1 hlets
  exact {
    sent := iff_of_true (by simp [hm.mem_requests])
      ⟨trivial, fun _ => ⟨found, (hm.replied_iff hmade hfound found).2 rfl, hnull, hfree⟩⟩
    order := hm.order List.suffix_rfl
    written := by
      rw [Reply.asWritten_ofExchange (by simp [Reply.statusCommands]) hreply]
      simp [Landed, hm.mem_exchanges, set_ne_exists, @eq_comm _ r]
    kept := by
      rw [Reply.asWritten_ofExchange (by simp [Reply.statusCommands]) hreply]
      refine iff_of_false (by simp) ?_
      rintro ⟨-, n, hn, hmem⟩
      rw [hm.mem_exchanges (Command.isData_exists _), hmade] at hmem
      have htag := (Reply.tag_ofExchange_integer hfound n).2 hmem.symm
      exact absurd (hfree n htag) (by omega)
    unanswered := by
      intro other hother hlost
      rw [(hm.replied_iff hmade hfound other).1 hother] at hlost
      exact absurd hlost hnull }

/-- A question that does not let the value be sent is the last command. Its reply decides about the outcome. -/
theorem wrote_only_question {q : Except Failure Answer} {found : Reply} (hm : Makes [(.exists? d.key, q)] calls)
    (hfound : Reply.ofExchange (Command.exists? d.key).name q = .ok found) (hlets : found.letsWrite = false)
    (hunwritten : outcome ≠ .success true)
    (hkept : outcome = .success false ↔ ∃ n : Int, 0 < n ∧ found.tag = .integer n)
    (hnull : found.tag = .null → outcome = .failure (.ofReply found)) :
    Wrote d value true True calls outcome := by
  have hmade (r) : (Command.exists? d.key, r) ∈ [(Command.exists? d.key, q)] ↔ r = q := by simp
  have hunsent : Command.set d.key value ∉ requests calls := by simp [hm.mem_requests, set_ne_exists]
  exact {
    sent := by
      refine iff_of_false hunsent ?_
      rintro ⟨-, hlet⟩
      obtain ⟨other, hother, hlets'⟩ := hlet rfl
      rw [(hm.replied_iff hmade hfound other).1 hother, ← Reply.letsWrite_iff, hlets] at hlets'
      cases hlets'
    order := hm.order (List.suffix_cons _ _)
    written := iff_of_false hunwritten (by simp [Landed, hm.mem_exchanges, set_ne_exists])
    kept := by
      simp only [hkept, true_and, Occupied, hm.mem_exchanges (Command.isData_exists _), hmade,
        Reply.tag_ofExchange_integer hfound, eq_comm]
    unanswered := by
      intro other hother hlost
      obtain rfl := (hm.replied_iff hmade hfound other).1 hother
      rw [ErrorDetail.code_ofReply, Reply.isTimeout_ofExchange hfound]
      refine ⟨hunsent, hnull hlost, ?_⟩
      simp [hm.mem_exchanges, @eq_comm _ q] }

/-- **A write that returns once its session is ready did what `Wrote` says.** -/
theorem Serving.wrote (hserve : Serving s (.put d value onlyIfMissing) calls (.ok outcome) t)
    (hbefore : Sends (·.isAuth = true) before) : Wrote d value onlyIfMissing True (calls ++ before) outcome := by
  have hnil : Makes [] before := makes_nil hbefore
  generalize hr : (Except.ok outcome : Operation.Result (.put d value onlyIfMissing)) = r at hserve
  cases hserve with
  | put hi =>
    obtain ⟨reply, rfl, rfl⟩ := Results.map_eq_ok.1 hr.symm
    obtain ⟨r, hreply, hm⟩ := hi.makes hnil
    exact wrote_plainly hm hreply
  | unasked => cases hr
  | unanswered hi hnull =>
    cases hr
    obtain ⟨q, hfound, hm⟩ := hi.makes hnil
    exact wrote_only_question hm hfound (by simp [Reply.letsWrite, hnull]) (by simp) (by simp [hnull]) fun _ => rfl
  | kept hi htag hn =>
    cases hr
    obtain ⟨q, hfound, hm⟩ := hi.makes hnil
    refine wrote_only_question hm hfound (by simpa [Reply.letsWrite, htag] using hn) (by simp) ?_ (by simp [htag])
    exact iff_of_true rfl ⟨_, hn, htag⟩
  | written hi hlets hi' =>
    obtain ⟨reply, rfl, rfl⟩ := Results.map_eq_ok.1 hr.symm
    obtain ⟨q, hfound, hm⟩ := hi.makes hnil
    obtain ⟨r, hreply, hm⟩ := hi'.makes hm
    rw [List.append_assoc]
    exact wrote_behind_question hm hfound hlets hreply

variable {σ : Type} [Peer σ]

/-- A write serves its commands behind a login exactly if its session is made ready. Otherwise it sends a login at the
most, and does not succeed. -/
theorem put_takes (x : Scene σ) (d : Digest) (value : Bytes) (onlyIfMissing : Bool) :
    Session.Takes (put d value onlyIfMissing) x fun calls r t =>
      (Readied x ∧ ∃ before more u, calls = more ++ before ∧ Sends (·.isAuth = true) before ∧
        Serving u (.put d value onlyIfMissing) more r t) ∨
      (¬ Readied x ∧ Sends (·.isAuth = true) calls ∧ ∀ written, r ≠ .ok (.success written)) := by
  unfold Session.Takes put operation
  rw [ends_bind]
  refine ends_of_run ?_
  intro r y hrun
  obtain ⟨calls, hready, hcalls⟩ := (Session.ensureConnected_course x).of_run hrun
  have hunready (hr : r ≠ .ok none) : ¬ Readied x := by
    rintro ⟨z, hz, -⟩
    exact hr (Prod.mk.inj (hrun.symm.trans hz)).1
  match r with
  | .error f => exact ⟨calls, .inr ⟨hunready (by simp), hready.sends_auth, nofun⟩, hcalls⟩
  | .ok (some detail) => exact ⟨calls, .inr ⟨hunready (by simp), hready.sends_auth, nofun⟩, hcalls⟩
  | .ok none =>
    refine ends_within _ fun logging => Ends.mono (writing_course _ d value onlyIfMissing) ?_
    rintro r z ⟨more, hserve, hmore⟩ _
    have hx : Readied x := ⟨y, hrun, hready.phase_of_none⟩
    exact ⟨_, .inl ⟨hx, calls, more, _, rfl, hready.sends_auth, hserve⟩, hcalls.trans hmore⟩

/-- A write that neither landed nor was kept has failed. -/
theorem Wrote.failed (hw : Wrote d value onlyIfMissing ready calls outcome) (hunwritten : ¬ Landed d value calls)
    (hunkept : ¬ (onlyIfMissing = true ∧ Occupied d calls)) : ∃ detail, outcome = .failure detail := by
  cases outcome with
  | failure detail => exact ⟨detail, rfl⟩
  | success result =>
    cases result with
    | true => exact absurd (hw.written.1 rfl) hunwritten
    | false => exact absurd (hw.kept.1 rfl) hunkept

/-- **A value is sent exactly if its session is ready and the question lets the write go ahead**, whatever the peer
does, and the outcome tells which answer decided. -/
theorem put_writes_exactly_when_let (x : Scene σ) (d : Digest) (value : Bytes) (onlyIfMissing : Bool)
    {outcome : Outcome Bool} (hreturn : ((Operation.put d value onlyIfMissing).perform x).1 = .ok outcome) :
    ∃ calls, ((Operation.put d value onlyIfMissing).perform x).2.line.calls = calls ++ x.line.calls ∧
      Wrote d value onlyIfMissing (Readied x) calls outcome ∧
      (¬ Landed d value calls → ¬ (onlyIfMissing = true ∧ Occupied d calls) → ∃ detail, outcome = .failure detail) := by
  have hrun : run (put d value onlyIfMissing) x =
      (.ok outcome, ((Operation.put d value onlyIfMissing).perform x).2) := Prod.ext hreturn rfl
  obtain ⟨calls, htakes, hcalls⟩ := (put_takes x d value onlyIfMissing).of_run hrun
  have hwrote : Wrote d value onlyIfMissing (Readied x) calls outcome := by
    rcases htakes with ⟨hready, before, more, u, rfl, hbefore, hserve⟩ | ⟨hunready, hbefore, hfails⟩
    · rw [eq_true hready]
      exact hserve.wrote hbefore
    · rw [eq_false hunready]
      exact wrote_nothing (makes_nil hbefore) fun written houtcome => hfails written (congrArg _ houtcome)
  exact ⟨calls, hcalls.calls_eq, hwrote, hwrote.failed⟩

/-- A question that is answered by bytes, and not by a number, lets the value be written. -/
theorem put_writes_after_odd_answer :
    let x := Scene.onHost ({ receiving := .ok (.bytes [79, 75]) } : Steady)
    let d : Digest := ⟨List.replicate 20 0, rfl⟩
    let put : Operation := .put d [1] true
    (put.perform x).1 = .ok (.success true) ∧ Landed d [1] (put.perform x).2.line.calls ∧
      Wrote d [1] true (Readied x) (put.perform x).2.line.calls (.success true) := by
  intro x d put
  have hreturn : (put.perform x).1 = .ok (.success true) := by cbv
  have hput : Operation.put d [1] true = put := rfl
  obtain ⟨calls, hcalls, hwrote, -⟩ := put_writes_exactly_when_let x d [1] true hreturn
  rw [hput] at hcalls
  rw [← hcalls.trans (List.append_nil calls)] at hwrote
  exact ⟨hreturn, hwrote.written.1 rfl, hwrote⟩

end Storage
end RemoteCache
