import Mathlib
import RemoteCache.Proofs.Histories
import RemoteCache.Proofs.Server
import RemoteCache.Proofs.Storage.Runs

/-!
# Interleaved writes that must not replace a value

Several instances share one store, which executes one command after the other and answers what is the case. Each
instance reads, removes and writes only where it finds no value. A history of the instances (`Interleaved`) has the
commands in the order in which the store executes them, and the ends of the operations; the part of each instance is
a `Story` of it, in which it gets the answers that the store has for it.

A write of this kind is two commands, and the store does not hold the key in between. So a value can be replaced: two
instances ask, both find nothing, and then both write (`only_if_missing_can_overwrite`). **Theorem
(`only_if_missing_spares`).** This is the only way in which it happens.

* A value that the store holds is replaced only by an instance that asked before it was written.
* A write that succeeds has found no value, and whatever was written before it asked had been removed by then.

In the part of an instance a write comes right behind its question (`Event.Follows`); each operation goes on in this
way (`Operating.follows`), and so does a story. What the store holds changes at a write or a removal only, so where it
holds something at one point and nothing at another, one of these lies between.
-/

namespace RemoteCache

/-- The call is neither refused nor lost. -/
def Call.Succeeds : Call → Prop
  | .connect _ result | .send _ _ result => result = .ok ()
  | _ => True

/-- The command changes nothing: a login, a read or a question. -/
inductive Command.Reads : Command → Prop
  | auth {c : Command} : c.isAuth = true → Reads c
  | get (key : String) : Reads (.get key)
  | question (key : String) : Reads (.exists? key)

theorem Command.not_reads_set (key : String) (value : Bytes) : ¬ (Command.set key value).Reads := by
  intro h
  generalize hc : Command.set key value = c at h
  have hname : c.name = "SET" := by rw [← hc, name_set]
  cases h with
  | auth hauth => simp [isAuth, hname] at hauth
  | get | question => simp at hname

theorem Server.execute_reads {s : Server} (hs : s.Honest) {c : Command} (hc : c.Reads) : (s.execute c).2 = s := by
  cases hc with
  | auth hauth => exact execute_auth hs hauth
  | get key => rw [execute_get hs]
  | question key => rw [execute_exists hs]

namespace Storage

open Line

variable {s t : Session} {c : Command} {op : Operation} {calls rest : List Call} {n : Handle}

/-! ## What an instance does -/

/-- What an attempt has written where it had found nothing. -/
def Attempt.written? : Attempt → Option (Digest × Bytes)
  | ⟨.put d value true, .ok (.success true)⟩ => some (d, value)
  | _ => none

/-- An entry of a history. -/
inductive Event
  /-- The store executes a command of an instance, which gets this answer. -/
  | asked (c : Command) (answer : Except Failure Answer)
  /-- An operation ends. -/
  | returned (a : Attempt)

/-- The commands of some calls, with what was received for them. -/
def asked : List Call → List Event
  | .receive _ answer :: .send _ c _ :: before => .asked c answer :: asked before
  | _ :: before => asked before
  | [] => []

/-- Whether an operation writes only where there is no value. -/
def Operation.Sparing (op : Operation) : Prop := ∀ d value, op ≠ .put d value false

/-- The events of an instance, the latest first: sparing operations one after the other, on connections that do not
fail. -/
inductive Story {σ : Type} [Peer σ] (x : Scene σ) : List Event → Scene σ → Prop
  | start : Story x [] x
  | operate {events : List Event} {y : Scene σ} {calls : List Call} (op : Operation) : Story x events y →
      op.Sparing → (op.perform y).2.line.calls = calls ++ y.line.calls → (∀ call ∈ calls, call.Succeeds) →
      Story x (.returned ⟨op, (op.perform y).1⟩ :: (asked calls ++ events)) (op.perform y).2

/-- How an event comes after the earlier ones of its instance: a write comes right behind a question whose answer lets
it go ahead, and an operation that has written ends right behind its write. -/
inductive Event.Follows : Event → List Event → Prop
  | read {c : Command} {answer : Except Failure Answer} {before : List Event} : c.Reads →
      Follows (.asked c answer) before
  | remove {key : String} {answer : Except Failure Answer} {before : List Event} :
      Follows (.asked (.del key) answer) before
  | write {key : String} {value : Bytes} {answer found : Except Failure Answer} {reply : Reply}
      {older : List Event} : Reply.ofExchange (Command.exists? key).name found = .ok reply →
      reply.letsWrite = true → Follows (.asked (.set key value) answer) (.asked (.exists? key) found :: older)
  | ended {a : Attempt} {before : List Event} :
      (∀ d value, a.written? = some (d, value) →
        ∃ answer older, before = .asked (.set d.key value) answer :: older) → Follows (.returned a) before

/-- A write comes right behind its question. -/
theorem Event.Follows.question {key : String} {value : Bytes} {answer : Except Failure Answer} {before : List Event}
    (h : (Event.asked (.set key value) answer).Follows before) :
    ∃ found reply older, before = .asked (.exists? key) found :: older ∧
      Reply.ofExchange (Command.exists? key).name found = .ok reply ∧ reply.letsWrite = true := by
  generalize he : Event.asked (.set key value) answer = e at h
  cases h with
  | read hc =>
    obtain ⟨rfl, -⟩ := Event.asked.inj he
    exact absurd hc (Command.not_reads_set key value)
  | remove =>
    have hname := congrArg Command.name (Event.asked.inj he).1
    simp at hname
  | write hreply hlets =>
    cases he
    exact ⟨_, _, _, rfl, hreply, hlets⟩
  | ended => cases he

/-! ## The commands of an operation -/

theorem mem_asked {e : Event} (he : e ∈ asked calls) :
    ∃ h c r answer, Call.send h c r ∈ calls ∧ e = .asked c answer := by
  induction calls using asked.induct with
  | case1 k answer h c r before ih =>
    rcases List.mem_cons.1 he with rfl | he
    · exact ⟨h, c, r, answer, by simp, rfl⟩
    · obtain ⟨h', c', r', answer', hcall, rfl⟩ := ih he
      exact ⟨h', c', r', answer', by simp [hcall], rfl⟩
  | case2 call before hcall ih =>
    rw [asked.eq_2 _ _ hcall] at he
    obtain ⟨h, c, r, answer, hmem, rfl⟩ := ih he
    exact ⟨h, c, r, answer, List.mem_cons_of_mem _ hmem, rfl⟩
  | case3 => simp [asked] at he

/-- A command that is not lost is executed, and its reply is for what was received. -/
theorem Issuing.asked {r : Except Failure Reply} (hi : Issuing s c calls r t)
    (hcalls : ∀ call ∈ calls, call.Succeeds) (rest : List Call) :
    calls = [] ∧ (∀ reply, r ≠ .ok reply) ∨
      ∃ answer, r = Reply.ofExchange c.name answer ∧ asked (calls ++ rest) = .asked c answer :: asked rest := by
  have hexchange {h : Handle} {r : Except Failure Reply} (hex : Exchange h c calls r) :
      ∃ answer, r = Reply.ofExchange c.name answer ∧
        Storage.asked (calls ++ rest) = .asked c answer :: Storage.asked rest := by
    cases hex with
    | unsent f =>
      have hsent : (Call.send h c (.error f)).Succeeds := hcalls _ List.mem_cons_self
      cases hsent
    | answered answer => exact ⟨answer, rfl, rfl⟩
  cases hi with
  | idle => exact .inl ⟨rfl, by simp⟩
  | answered _ _ hex | lost _ _ hex | interrupted _ _ hex => exact .inr (hexchange hex)

variable {before : List Event}

theorem Issuing.follows {r : Except Failure Reply} (hi : Issuing s c calls r t)
    (hcalls : ∀ call ∈ calls, call.Succeeds)
    (hc : ∀ answer, (Event.asked c answer).Follows (Storage.asked rest ++ before))
    (hrest : Throughout Event.Follows (Storage.asked rest ++ before)) :
    Throughout Event.Follows (Storage.asked (calls ++ rest) ++ before) := by
  rcases hi.asked hcalls rest with ⟨rfl, -⟩ | ⟨answer, -, heq⟩
  · exact hrest
  · rw [heq]
    exact ⟨hc answer, hrest⟩

/-- The commands of an operation, and its end, follow the earlier events. -/
theorem Serving.follows {r : op.Result} (hop : op.Sparing) (hs : Serving s op calls r t)
    (hcalls : ∀ call ∈ calls, call.Succeeds) (hrest : Throughout Event.Follows (asked rest ++ before)) :
    Throughout Event.Follows (.returned ⟨op, r⟩ :: (asked (calls ++ rest) ++ before)) := by
  cases hs with
  | get hi => exact ⟨.ended (by simp [Attempt.written?]), hi.follows hcalls (fun _ => .read (.get _)) hrest⟩
  | remove hi => exact ⟨.ended (by simp [Attempt.written?]), hi.follows hcalls (fun _ => .remove) hrest⟩
  | put => exact absurd rfl (hop _ _)
  | unasked hi | unanswered hi | kept hi =>
    exact ⟨.ended (by simp [Attempt.written?]), hi.follows hcalls (fun _ => .read (.question _)) hrest⟩
  | @written d value calls more reply r t u hi hlets hi' =>
    have hmore : ∀ call ∈ more, call.Succeeds := fun call hcall => hcalls call (List.mem_append_left _ hcall)
    have hasked : ∀ call ∈ calls, call.Succeeds := fun call hcall => hcalls call (List.mem_append_right _ hcall)
    have hquestion := hi.follows hasked (fun _ => .read (.question _)) hrest
    obtain ⟨found, hfound, heq⟩ : ∃ found, .ok reply = Reply.ofExchange (Command.exists? d.key).name found ∧
        asked (calls ++ rest) = .asked (.exists? d.key) found :: asked rest := by
      rcases hi.asked hasked rest with ⟨-, hnone⟩ | hsome
      · exact absurd rfl (hnone reply)
      · exact hsome
    rw [List.append_assoc]
    refine ⟨.ended ?_, hi'.follows hmore (fun answer => ?_) hquestion⟩
    · intro e v hwritten
      rcases hi'.asked hmore (calls ++ rest) with ⟨-, hnone⟩ | ⟨answer, -, heq'⟩
      · cases r with
        | error f => simp [Attempt.written?, Except.map] at hwritten
        | ok reply => exact absurd rfl (hnone reply)
      · have hsame : (d, value) = (e, v) := by
          unfold Attempt.written? at hwritten
          split at hwritten <;> simp_all
        obtain ⟨rfl, rfl⟩ := Prod.mk.inj hsame
        rw [heq']
        exact ⟨answer, _, rfl⟩
    · rw [heq]
      exact .write hfound.symm hlets

/-- Before a session is ready it sends logins, and those can be sent at any point. -/
theorem follows_of_sends_auth (hcalls : Sends (·.isAuth = true) calls) (hbefore : Throughout Event.Follows before) :
    Throughout Event.Follows (asked calls ++ before) := by
  rw [throughout_append]
  · exact hbefore
  · intro e he before
    obtain ⟨h, c, r, answer, hcall, rfl⟩ := mem_asked he
    exact .read (.auth (hcalls _ hcall c rfl))

theorem Operating.follows {r : op.Result} (hop : op.Sparing) (ho : Operating s n op calls r t)
    (hcalls : ∀ call ∈ calls, call.Succeeds) (hbefore : Throughout Event.Follows before) :
    Throughout Event.Follows (.returned ⟨op, r⟩ :: (asked calls ++ before)) := by
  cases ho with
  | closed hc => exact ⟨.ended (by simp [Attempt.written?]), follows_of_sends_auth (hc.sends _) hbefore⟩
  | interrupted _ hr | unready _ hr =>
    refine ⟨.ended ?_, follows_of_sends_auth hr.sends_auth hbefore⟩
    cases op with
    | put d value onlyIfMissing => cases onlyIfMissing <;> simp [Attempt.written?]
    | get | remove | close => simp [Attempt.written?]
  | served hr hserve =>
    exact hserve.follows hop (fun call hcall => hcalls call (List.mem_append_left _ hcall))
      (follows_of_sends_auth hr.sends_auth hbefore)

/-- **In the story of an instance every event follows the earlier ones.** -/
theorem Story.follows {σ : Type} [Peer σ] {x y : Scene σ} {events : List Event} (h : Story x events y) :
    Throughout Event.Follows events := by
  induction h with
  | start => trivial
  | @operate events y calls op _ hop hcalls hsucceeds ih =>
    obtain ⟨calls', hcourse, hleads⟩ := op.course y
    obtain rfl : calls = calls' := List.append_cancel_right (hcalls.symm.trans hleads.calls_eq)
    exact hcourse.follows hop hsucceeds ih

/-! ## Histories of several instances -/

/-- The instances' events, the latest first. -/
abbrev History (ι : Type) := List (ι × Event)

end Storage

open Storage

/-- The store after the commands of a history. -/
def Server.after {ι : Type} (s : Server) : History ι → Server
  | [] => s
  | (_, .asked c _) :: before => ((s.after before).execute c).2
  | (_, .returned _) :: before => s.after before

namespace Storage

variable {ι : Type}

namespace History

variable [DecidableEq ι]

/-- The events of one instance. -/
def of (i : ι) (history : History ι) : List Event := (history.filter (·.1 = i)).map (·.2)

theorem of_cons_self (i : ι) (e : Event) (before : History ι) : of i ((i, e) :: before) = e :: of i before := by
  simp [of]

theorem of_cons_of_ne {i j : ι} (h : j ≠ i) (e : Event) (before : History ι) :
    of i ((j, e) :: before) = of i before := by
  simp [of, h]

/-- The latest event of an instance, and what came after it from others. -/
theorem of_eq_cons {i : ι} {history : History ι} {e : Event} {events : List Event}
    (h : of i history = e :: events) :
    ∃ between older, history = between ++ (i, e) :: older ∧ (∀ other ∈ between, other.1 ≠ i) ∧
      of i older = events := by
  unfold of at h
  obtain ⟨⟨j, e'⟩, events', hfilter, rfl, rfl⟩ := List.map_eq_cons_iff.1 h
  obtain ⟨between, older, rfl, hbetween, hj, rfl⟩ := List.filter_eq_cons_iff.1 hfilter
  obtain rfl : j = i := by simpa using hj
  exact ⟨between, older, rfl, by simpa using hbetween, rfl⟩

end History

section

variable [DecidableEq ι]

/-- The answer of an event is what its command gives when it is executed. -/
def Truthful (s : Server) (entry : ι × Event) (before : History ι) : Prop :=
  ∀ c answer, entry.2 = .asked c answer → answer = ((s.after before).execute c).1.raised

/-- A history of instances that share the store `s`: no answer is fixed, every command is answered with what it gives
when it is executed, and the events of each instance are a story. -/
structure Interleaved (s : Server) (history : History ι) : Prop where
  honest : s.fixedAnswers = []
  truthful : Throughout (Truthful s) history
  story : ∀ i, ∃ (σ : Type) (_ : Peer σ) (endpoint : Endpoint) (settings : BackendSettings) (peer : σ)
    (logging : Logging.State) (y : Scene σ),
    Story (Scene.fresh endpoint settings peer logging) (history.of i) y

/-- Instance `i` asked for the key when the store held nothing for it, and has done nothing since. -/
structure AskedInVain (s : Server) (i : ι) (key : String) (before between older : History ι) : Prop where
  before_eq : before = between ++ (i, .asked (.exists? key) (.ok (.int 0))) :: older
  idle : ∀ other ∈ between, other.1 ≠ i
  absent : (s.after older).contents key = none

variable {s : Server} {history : History ι}

theorem follows_of_stories (h : ∀ i, Throughout Event.Follows (history.of i)) :
    Throughout (fun e before => e.2.Follows (History.of e.1 before)) history := by
  induction history with
  | nil => trivial
  | cons entry before ih =>
    obtain ⟨i, e⟩ := entry
    have hi : Throughout Event.Follows (e :: History.of i before) := by
      rw [← History.of_cons_self]
      exact h i
    refine ⟨hi.1, ih ?_⟩
    intro j
    by_cases hj : i = j
    · subst hj
      exact hi.2
    · rw [← History.of_cons_of_ne hj e]
      exact h j

/-- What is used of a history. Unlike the stories it is cut short with the history. -/
structure Lawful (s : Server) (history : History ι) : Prop where
  honest : s.Honest
  truthful : Throughout (Truthful s) history
  follows : Throughout (fun e before => e.2.Follows (History.of e.1 before)) history

theorem Interleaved.lawful (h : Interleaved s history) : Lawful s history := by
  refine ⟨h.honest, h.truthful, follows_of_stories ?_⟩
  intro i
  obtain ⟨σ, _, endpoint, settings, peer, logging, y, hstory⟩ := h.story i
  exact hstory.follows

theorem Lawful.earlier {after before : History ι} (h : Lawful s (after ++ before)) : Lawful s before :=
  ⟨h.honest, h.truthful.earlier, h.follows.earlier⟩

theorem Lawful.tail {entry : ι × Event} {before : History ι} (h : Lawful s (entry :: before)) : Lawful s before :=
  ⟨h.honest, h.truthful.2, h.follows.2⟩

end

/-! ## What the store holds -/

variable {s : Server} {key : String}

theorem honest_after (hs : s.Honest) (history : History ι) : (s.after history).Honest := by
  induction history with
  | nil => exact hs
  | cons entry before ih =>
    obtain ⟨i, e⟩ := entry
    cases e with
    | asked c answer =>
      show ((s.after before).execute c).2.Honest
      rw [Server.execute_eq]
      exact ih
    | returned a => exact ih

theorem contents_after_write (hs : s.Honest) (key : String) (i : ι) (value : Bytes)
    (answer : Except Failure Answer) (before : History ι) :
    (s.after ((i, .asked (.set key value) answer) :: before)).contents =
      (s.after before).contents.set key (some value) := by
  rw [← Server.contents_put, Server.after, Server.execute_set (honest_after hs before)]

theorem contents_after_removal (hs : s.Honest) (key : String) (i : ι) (answer : Except Failure Answer)
    (before : History ι) :
    (s.after ((i, .asked (.del key) answer) :: before)).contents = (s.after before).contents.set key none := by
  rw [← Server.contents_drop, Server.after, Server.execute_del (honest_after hs before)]

/-- A question leaves the key without a value if it finds none. -/
theorem AskedInVain.absent_after (hs : s.Honest) {i : ι} {before between older : History ι}
    (h : AskedInVain s i key before between older) :
    (s.after ((i, .asked (.exists? key) (.ok (.int 0))) :: older)).contents key = none := by
  rw [Server.after, Server.execute_reads (honest_after hs older) (.question key), h.absent]

/-- What an event makes of the value of a key. -/
inductive Event.Does (key : String) (e : Event) (old new : Option Bytes) : Prop
  | nothing : new = old → Does key e old new
  | removes (answer : Except Failure Answer) : e = .asked (.del key) answer → new = none → Does key e old new
  | writes (value : Bytes) (answer : Except Failure Answer) : e = .asked (.set key value) answer →
      new = some value → Does key e old new

/-- A value changes at a removal or at a write. -/
theorem Event.Follows.does {e : Event} {events : List Event} (he : e.Follows events) (hs : s.Honest) (key : String)
    (i : ι) (before : History ι) :
    e.Does key ((s.after before).contents key) ((s.after ((i, e) :: before)).contents key) := by
  cases he with
  | @read c answer _ hc =>
    refine .nothing ?_
    show ((s.after before).execute c).2.contents key = _
    rw [Server.execute_reads (honest_after hs before) hc]
  | @remove other answer =>
    have hnew := congrFun (contents_after_removal hs other i answer before) key
    by_cases hkey : key = other
    · subst hkey
      exact .removes answer rfl (by rw [hnew, Contents.set, if_pos rfl])
    · exact .nothing (by rw [hnew, Contents.set, if_neg hkey])
  | @write other value answer =>
    have hnew := congrFun (contents_after_write hs other i value answer before) key
    by_cases hkey : key = other
    · subst hkey
      exact .writes value answer rfl (by rw [hnew, Contents.set, if_pos rfl])
    · exact .nothing (by rw [hnew, Contents.set, if_neg hkey])
  | ended => exact .nothing rfl

section

variable [DecidableEq ι] {between older : History ι}

/-- Where there was nothing and there is something now, a write lies between. -/
theorem Lawful.write_between (h : Lawful s (between ++ older)) (hold : (s.after older).contents key = none)
    (hnew : (s.after (between ++ older)).contents key ≠ none) :
    ∃ j value answer, (j, .asked (.set key value) answer) ∈ between := by
  induction between with
  | nil => exact absurd hold hnew
  | cons entry between ih =>
    obtain ⟨i, e⟩ := entry
    cases h.follows.1.does h.honest key i (between ++ older) with
    | nothing hsame =>
      obtain ⟨j, value, answer, hmem⟩ := ih h.tail (hsame ▸ hnew)
      exact ⟨j, value, answer, List.mem_cons_of_mem _ hmem⟩
    | removes _ _ hnone => exact absurd hnone hnew
    | writes value answer he => exact ⟨i, value, answer, he ▸ List.mem_cons_self⟩

/-- Where there was something and there is nothing now, a removal lies between. -/
theorem Lawful.removal_between (h : Lawful s (between ++ older)) (hold : (s.after older).contents key ≠ none)
    (hnew : (s.after (between ++ older)).contents key = none) :
    ∃ j answer, (j, .asked (.del key) answer) ∈ between := by
  induction between with
  | nil => exact absurd hnew hold
  | cons entry between ih =>
    obtain ⟨i, e⟩ := entry
    cases h.follows.1.does h.honest key i (between ++ older) with
    | nothing hsame =>
      obtain ⟨j, answer, hmem⟩ := ih h.tail (hsame ▸ hnew)
      exact ⟨j, answer, List.mem_cons_of_mem _ hmem⟩
    | removes answer he => exact ⟨i, answer, he ▸ List.mem_cons_self⟩
    | writes _ _ _ hsome =>
      have hnew' : (s.after ((i, e) :: (between ++ older))).contents key = none := hnew
      rw [hsome] at hnew'
      cases hnew'

/-! ## Writes and what they had asked -/

variable {before : History ι} {i : ι} {value : Bytes} {answer : Except Failure Answer}

/-- A question whose answer lets a write go ahead was put when the store held nothing. -/
theorem absent_of_letsWrite (hs : s.Honest) {found : Except Failure Answer} {reply : Reply}
    (hfound : found = (s.execute (.exists? key)).1.raised)
    (hreply : Reply.ofExchange (Command.exists? key).name found = .ok reply) (hlets : reply.letsWrite = true) :
    found = .ok (.int 0) ∧ s.contents key = none := by
  rw [Server.execute_exists hs] at hfound
  cases hcontents : s.contents key with
  | none =>
    rw [hcontents] at hfound
    exact ⟨hfound, rfl⟩
  | some value =>
    rw [hfound, hcontents] at hreply
    cases hreply
    simp [Reply.ofAnswer, Reply.letsWrite] at hlets

/-- **A write had asked in vain**, and its instance has done nothing in between. -/
theorem Lawful.asked_in_vain (h : Lawful s ((i, .asked (.set key value) answer) :: before)) :
    ∃ between older, AskedInVain s i key before between older := by
  have hfollows : (Event.asked (.set key value) answer).Follows (before.of i) := h.follows.1
  obtain ⟨found, reply, events, hevents, hreply, hlets⟩ := hfollows.question
  obtain ⟨between, older, rfl, hidle, -⟩ := History.of_eq_cons hevents
  have htruthful := h.tail.earlier.truthful.1 _ _ rfl
  obtain ⟨rfl, habsent⟩ := absent_of_letsWrite (honest_after h.honest older) htruthful hreply hlets
  exact ⟨between, older, rfl, hidle, habsent⟩

/-- A write that replaces a value had asked before another instance wrote. -/
theorem Lawful.overtaken (h : Lawful s ((i, .asked (.set key value) answer) :: before))
    (hvalue : (s.after before).contents key ≠ none) :
    ∃ between older, AskedInVain s i key before between older ∧
      ∃ j other answer', j ≠ i ∧ (j, .asked (.set key other) answer') ∈ between := by
  obtain ⟨between, older, hasked⟩ := h.asked_in_vain
  have habsent := hasked.absent_after h.honest
  obtain ⟨rfl, hidle, -⟩ := id hasked
  obtain ⟨j, other, answer', hmem⟩ := h.tail.write_between habsent hvalue
  exact ⟨between, older, hasked, j, other, answer', hidle _ hmem, hmem⟩

/-- What was written before a question that found nothing had been removed by then. -/
theorem Lawful.removed {newer oldest : History ι}
    (h : Lawful s (newer ++ (i, .asked (.set key value) answer) :: oldest))
    (habsent : (s.after (newer ++ (i, .asked (.set key value) answer) :: oldest)).contents key = none) :
    ∃ j answer', (j, .asked (.del key) answer') ∈ newer := by
  refine h.removal_between ?_ habsent
  rw [contents_after_write h.honest, Contents.set, if_pos rfl]
  simp

/-- **A write that must not replace a value replaces one only if it was asked for before that one was written.**
What the store holds for a key changes at a removal, or else at a write whose question was answered when the store
held nothing, and then another instance has written in between. A write that succeeds had asked in vain, and whatever
was written before it asked had been removed by then. -/
theorem only_if_missing_spares {history : History ι} (h : Interleaved s history) (d : Digest) :
    (∀ after before i e value, history = after ++ (i, e) :: before → (s.after before).contents d.key = some value →
      (s.after ((i, e) :: before)).contents d.key = some value ∨
      (∃ answer, e = .asked (.del d.key) answer) ∨
      ∃ new answer between older, e = .asked (.set d.key new) answer ∧
        AskedInVain s i d.key before between older ∧
        ∃ j other answer', j ≠ i ∧ (j, .asked (.set d.key other) answer') ∈ between) ∧
    (∀ after before i value,
      history = after ++ (i, .returned ⟨.put d value true, .ok (.success true)⟩) :: before →
      ∃ later answer earlier between older, before = later ++ (i, .asked (.set d.key value) answer) :: earlier ∧
        (∀ other ∈ later, other.1 ≠ i) ∧ AskedInVain s i d.key earlier between older ∧
        ∀ newer j other answer' oldest, older = newer ++ (j, .asked (.set d.key other) answer') :: oldest →
          ∃ k answer'', (k, .asked (.del d.key) answer'') ∈ newer) := by
  have hlawful : Lawful s history := h.lawful
  constructor
  · rintro after before i e value rfl hvalue
    have hrest := hlawful.earlier
    cases hrest.follows.1.does h.honest d.key i before with
    | nothing hsame => exact .inl (hsame.trans hvalue)
    | removes answer he => exact .inr (.inl ⟨answer, he⟩)
    | writes new answer he =>
      subst he
      obtain ⟨between, older, hasked, hother⟩ := hrest.overtaken (by simp [hvalue])
      exact .inr (.inr ⟨new, answer, between, older, rfl, hasked, hother⟩)
  · rintro after before i value rfl
    have hended : (Event.returned ⟨.put d value true, .ok (.success true)⟩).Follows (History.of i before) :=
      hlawful.follows.entry
    obtain ⟨answer, events, hevents⟩ : ∃ answer events,
        History.of i before = .asked (.set d.key value) answer :: events := by
      cases hended with
      | ended hwritten => exact hwritten d value rfl
    obtain ⟨later, earlier, rfl, hlater, -⟩ := History.of_eq_cons hevents
    have hwrite := hlawful.earlier.tail.earlier
    obtain ⟨between, older, hasked⟩ := hwrite.asked_in_vain
    refine ⟨later, answer, earlier, between, older, rfl, hlater, hasked, ?_⟩
    rintro newer j other answer' oldest rfl
    obtain ⟨rfl, -, habsent⟩ := hasked
    exact hwrite.tail.earlier.tail.removed habsent

end

/-! ## A race -/

/-- An instance alone with its store asks and writes, and succeeds. -/
theorem story_of_put (value : Bytes) :
    let d : Digest := ⟨List.replicate 20 0, rfl⟩
    ∃ y, Story (Scene.onHost ({} : Server))
      [.returned ⟨.put d value true, .ok (.success true)⟩,
        .asked (.set d.key value) (.ok (.bytes "OK".toUTF8.toList)), .asked (.exists? d.key) (.ok (.int 0))] y := by
  intro d
  let put : Operation := .put d value true
  let x := Scene.onHost ({} : Server)
  have hresult : (put.perform x).1 = .ok (.success true) := by cbv
  have hcalls : (put.perform x).2.line.calls = [
      .receive 0 (.ok (.bytes "OK".toUTF8.toList)), .send 0 (.set d.key value) (.ok ()),
      .receive 0 (.ok (.int 0)), .send 0 (.exists? d.key) (.ok ()),
      .connect 0 (.ok ()), .create 0 (.of x.session.endpoint x.session.settings)] ++ x.line.calls := by cbv
  have hstory : Story x _ (put.perform x).2 := .operate put .start (by simp [put, Operation.Sparing]) hcalls
    (by simp [Call.Succeeds])
  rw [hresult] at hstory
  exact ⟨_, hstory⟩

/-- Two instances ask for the same key, one after the other, and then each of them writes. -/
def race : History Bool :=
  let d : Digest := ⟨List.replicate 20 0, rfl⟩
  let ok : Except Failure Answer := .ok (.bytes "OK".toUTF8.toList)
  [(true, .returned ⟨.put d [2] true, .ok (.success true)⟩), (true, .asked (.set d.key [2]) ok),
    (false, .returned ⟨.put d [1] true, .ok (.success true)⟩), (false, .asked (.set d.key [1]) ok),
    (true, .asked (.exists? d.key) (.ok (.int 0))), (false, .asked (.exists? d.key) (.ok (.int 0)))]

theorem race_interleaved : Interleaved ({} : Server) race := by
  refine ⟨rfl, ?_, ?_⟩
  · refine ⟨?_, ?_, ?_, ?_, ?_, ?_, trivial⟩ <;> intro c answer he <;> cases he <;> cbv
  · intro i
    cases i with
    | false =>
      obtain ⟨y, hstory⟩ := story_of_put [1]
      exact ⟨Server, inferInstance, _, _, _, _, y, hstory⟩
    | true =>
      obtain ⟨y, hstory⟩ := story_of_put [2]
      exact ⟨Server, inferInstance, _, _, _, _, y, hstory⟩

/-- The write that comes second in a race replaces the value of the other one, which had been asked for before. -/
theorem only_if_missing_spares_in_race :
    let d : Digest := ⟨List.replicate 20 0, rfl⟩
    ∃ between older, AskedInVain ({} : Server) true d.key (race.drop 2) between older ∧
      ∃ j value answer, j ≠ true ∧ (j, .asked (.set d.key value) answer) ∈ between := by
  intro d
  have hold : (Server.after {} (race.drop 2)).contents d.key = some [1] := by cbv
  have hnew : (Server.after {} (race.drop 1)).contents d.key = some [2] := by cbv
  rcases (only_if_missing_spares race_interleaved d).1 [race.head (by simp [race])] (race.drop 2) true _ [1] rfl hold
    with hsame | ⟨answer, he⟩ | ⟨value, answer, between, older, -, hasked, hother⟩
  · cases hnew.symm.trans hsame
  · have hname := congrArg Command.name (Event.asked.inj he).1
    simp at hname
  · exact ⟨between, older, hasked, hother⟩

/-- In a race a value is replaced without having been removed, and both writes succeed. -/
theorem only_if_missing_can_overwrite :
    let d : Digest := ⟨List.replicate 20 0, rfl⟩
    Interleaved ({} : Server) race ∧ (∀ i answer, (i, .asked (.del d.key) answer) ∉ race) ∧
      (Server.after {} (race.drop 2)).contents d.key = some [1] ∧
      (Server.after {} race).contents d.key = some [2] ∧
      (false, .returned ⟨.put d [1] true, .ok (.success true)⟩) ∈ race ∧
      (true, .returned ⟨.put d [2] true, .ok (.success true)⟩) ∈ race := by
  intro d
  refine ⟨race_interleaved, ?_, by cbv, by cbv, by simp [race, d], by simp [race, d]⟩
  intro i answer
  simp [race, Command.del, Command.set, Command.exists?, Command.ofWord]

end Storage
end RemoteCache
