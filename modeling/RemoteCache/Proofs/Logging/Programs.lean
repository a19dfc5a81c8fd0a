import RemoteCache.Proofs.Logging.Dictionaries
import RemoteCache.Proofs.Logging.Lines

/-!
# Programs that log in blocks

A program binds values, makes log calls, raises and catches failures, and runs parts of itself in blocks with values of
their own. It also reads the context, may go on as this says, and may change what it has read.

`Program.run` runs a program on dictionaries. A block is left on every exit: when its body has finished, when it has
raised, and when the block's own values could not be bound.

`Program.tell` says what this amounts to. It has the states of logging in place of dictionaries, and keeps account of the
texts that were bound since the start and are still in force (`Account.since`): binding adds to them, and after a block
they are what they were before it.

**Theorem (`blocks_restore`).** A program runs as it is told, from every sound memory. After each block the context is
the one before it. The context of each record is the one at the start, overlaid with what is in force. Changing a
dictionary that has been read never changes the context.

The proof is an induction over the program with the invariant `Tells`. In a block it holds for the state that has the
context at the block's entry among the contexts outside, so leaving the block finds it there.
-/

namespace RemoteCache.Logging

/-! ## Endings -/

/-- How something has ended, and what it has left. -/
abbrev Ending (σ : Type) := Except Failure Unit × σ

namespace Ending

variable {σ τ : Type}

/-- Goes on unless there was a failure. -/
def andThen : Ending σ → (σ → Ending σ) → Ending σ
  | (.ok (), s), next => next s
  | (.error f, s), _ => (.error f, s)

/-- Goes on with a failure only. -/
def orElse : Ending σ → (Failure → σ → Ending σ) → Ending σ
  | (.ok (), s), _ => (.ok (), s)
  | (.error f, s), handler => handler f s

/-- Two endings are of one kind, and what they leave is related. -/
def Agree (R : σ → τ → Prop) (e : Ending σ) (e' : Ending τ) : Prop := e.1 = e'.1 ∧ R e.2 e'.2

variable {R : σ → τ → Prop} {e : Ending σ} {e' : Ending τ}

theorem Agree.andThen (h : Agree R e e') {next : σ → Ending σ} {next' : τ → Ending τ}
    (hnext : ∀ s t, R s t → Agree R (next s) (next' t)) : Agree R (e.andThen next) (e'.andThen next') := by
  obtain ⟨outcome, s⟩ := e
  obtain ⟨outcome', t⟩ := e'
  obtain ⟨rfl, hleft⟩ := h
  cases outcome with
  | ok u => exact hnext s t hleft
  | error f => exact ⟨rfl, hleft⟩

theorem Agree.orElse (h : Agree R e e') {handler : Failure → σ → Ending σ} {handler' : Failure → τ → Ending τ}
    (hhandler : ∀ f s t, R s t → Agree R (handler f s) (handler' f t)) :
    Agree R (e.orElse handler) (e'.orElse handler') := by
  obtain ⟨outcome, s⟩ := e
  obtain ⟨outcome', t⟩ := e'
  obtain ⟨rfl, hleft⟩ := h
  cases outcome with
  | ok u => exact ⟨rfl, hleft⟩
  | error f => exact hhandler f s t hleft

end Ending

/-! ## Programs -/

inductive Program
  | bind (values : List (String × Given))
  | log (timestamp : String) (entry : Entry)
  | raise (f : Failure)
  | seq (first second : Program)
  | catching (body : Program) (handler : Failure → Program)
  /-- Runs its body in a block with values of its own. -/
  | block (values : List (String × Given)) (body : Program)
  /-- Reads the context and goes on as it says. -/
  | reading (next : Context → Program)
  /-- Changes the dictionary that was read `n` reads ago. -/
  | alter (n : Nat) (edit : Context → Context)

/-! ## Running on dictionaries -/

/-- A record may be refused. -/
def Record.outcome (r : Record) : Except Failure Unit :=
  match r.refusal? with
  | some f => .error f
  | none => .ok ()

/-- A memory, and what has happened: the latest comes first. -/
structure Process where
  memory : Memory
  records : List Record := []
  /-- The contexts before and after each block that was left. -/
  blocks : List (Context × Context) := []

namespace Process

def bind (p : Process) (values : List (String × Given)) : Ending Process :=
  ((p.memory.bind values).1, { p with memory := (p.memory.bind values).2 })

/-- The record of a log call has the context as it is read. -/
def log (p : Process) (entry : Entry) : Ending Process :=
  if p.memory.state.emits entry.level then
    let record : Record := ⟨entry, p.memory.read.contents p.memory.next⟩
    (record.outcome, { p with memory := p.memory.read, records := record :: p.records })
  else (.ok (), p)

def enter (p : Process) : Process := { p with memory := p.memory.enter }

/-- Leaves a block that was entered with a context. -/
def leave (p : Process) (before : Context) : Process :=
  { p with memory := p.memory.leave, blocks := (before, p.memory.leave.context) :: p.blocks }

end Process

def Program.run : Program → Process → Ending Process
  | .bind values, p => p.bind values
  | .log _ entry, p => p.log entry
  | .raise f, p => (.error f, p)
  | .seq first second, p => (first.run p).andThen fun p => second.run p
  | .catching body handler, p => (body.run p).orElse fun f p => (handler f).run p
  | .block values body, p =>
    let inner := (p.enter.bind values).andThen fun p => body.run p
    (inner.1, inner.2.leave p.memory.context)
  | .reading next, p => (next (p.memory.read.contents p.memory.next)).run { p with memory := p.memory.read }
  | .alter n edit, p => (.ok (), { p with memory := p.memory.alter n edit })

/-! ## What a run amounts to -/

/-- A state, and what is told of it. -/
structure Account where
  state : State
  /-- The texts that were bound since the start and are in force. -/
  since : List (String × String) := []
  /-- The records that were made, each with the texts that were in force; the latest comes first. -/
  records : List (Record × List (String × String)) := []

namespace Account

def bind (a : Account) (values : List (String × Value)) : Account :=
  { a with state := a.state.bind values, since := a.since ++ Context.texts values }

def log (a : Account) (entry : Entry) : Account :=
  match a.state.record? entry with
  | some r => { a with records := (r, a.since) :: a.records }
  | none => a

def push (a : Account) (values : List (String × Value)) : Account :=
  { a with state := a.state.push values, since := a.since ++ Context.texts values }

/-- Leaves a block before which these texts were in force. -/
def pop (a : Account) (before : List (String × String)) : Account :=
  { a with state := a.state.pop, since := before }

end Account

def Program.tell : Program → Account → Ending Account
  | .bind values, a => match values? values with
    | .ok vs => (.ok (), a.bind vs)
    | .error f => (.error f, a)
  | .log timestamp entry, a => ((a.state.write timestamp entry).map fun _ => (), a.log entry)
  | .raise f, a => (.error f, a)
  | .seq first second, a => (first.tell a).andThen fun a => second.tell a
  | .catching body handler, a => (body.tell a).orElse fun f a => (handler f).tell a
  | .block values body, a => match values? values with
    | .ok vs =>
      let inner := body.tell (a.push vs)
      (inner.1, inner.2.pop a.since)
    | .error f => (.error f, a)
  | .reading next, a => (next a.state.context).tell a
  | .alter _ _, a => (.ok (), a)

/-! ## The invariant -/

namespace Context

theorem overlay_append (ctx : Context) (texts texts' : List (String × String)) :
    ctx.overlay (texts ++ texts') = (ctx.overlay texts).overlay texts' :=
  List.foldl_append

theorem bind_overlay (ctx : Context) (since : List (String × String)) (values : List (String × Value)) :
    (ctx.overlay since).bind values = ctx.overlay (since ++ texts values) := by
  rw [bind_eq_overlay, overlay_append]

end Context

/-- An account tells of a process that has started in a state. -/
structure Tells (s : State) (p : Process) (a : Account) : Prop where
  sound : p.memory.Sound
  state : p.memory.state = a.state
  since : a.state = { s with context := s.context.overlay a.since }
  records : p.records = a.records.map (·.1)
  seen : ∀ e ∈ a.records, e.1.context = s.context.overlay e.2
  restored : ∀ block ∈ p.blocks, block.2 = block.1

variable {s : State} {p : Process} {a : Account}

theorem Tells.context (h : Tells s p a) : p.memory.context = s.context.overlay a.since :=
  congrArg State.context (h.state.trans h.since)

theorem Tells.of_spares (h : Tells s p a) {m : Memory} (hm : Memory.Spares p.memory m) :
    Tells s { p with memory := m } a where
  sound := hm.sound h.sound
  state := (hm.state_eq h.sound).trans h.state
  since := h.since
  records := h.records
  seen := h.seen
  restored := h.restored

/-- What a read hands out is the context. -/
theorem contents_read (m : Memory) : m.read.contents m.next = m.context := Memory.contents_copy_next m

/-- A log call fails as its record is refused. -/
theorem write_outcome (s : State) (timestamp : String) (entry : Entry) :
    ((s.write timestamp entry).map fun _ => ()) =
      if s.emits entry.level then Record.outcome ⟨entry, s.context⟩ else .ok () := by
  cases hemits : s.emits entry.level with
  | false =>
    rw [State.write_of_not_emits hemits]
    rfl
  | true =>
    rw [if_pos rfl, Record.outcome]
    cases hrefusal : Record.refusal? ⟨entry, s.context⟩ with
    | some f =>
      rw [State.write_of_refused hemits hrefusal]
      rfl
    | none =>
      rw [State.write_of_accepted hemits hrefusal]
      rfl

theorem Tells.bind (h : Tells s p a) (values : List (String × Given)) :
    Ending.Agree (Tells s) (p.bind values) ((Program.bind values).tell a) := by
  unfold Program.tell
  cases hvalues : values? values with
  | error f =>
    obtain ⟨houtcome, hspares⟩ := Memory.bind_of_error (m := p.memory) hvalues
    exact ⟨houtcome, h.of_spares hspares⟩
  | ok vs =>
    obtain ⟨houtcome, hsound, hstate⟩ := Memory.bind_of_ok h.sound hvalues
    have hbound := hstate.trans (congrArg (State.bind · vs) h.state)
    refine ⟨houtcome, hsound, hbound, ?_, h.records, h.seen, h.restored⟩
    show a.state.bind vs = { s with context := s.context.overlay (a.since ++ Context.texts vs) }
    rw [← Context.bind_overlay, h.since]
    rfl

theorem Tells.log (h : Tells s p a) (timestamp : String) (entry : Entry) :
    Ending.Agree (Tells s) (p.log entry) ((Program.log timestamp entry).tell a) := by
  have hcontext : p.memory.context = a.state.context := congrArg State.context h.state
  unfold Program.tell Process.log Account.log State.record?
  rw [write_outcome, contents_read, h.state, hcontext]
  cases a.state.emits entry.level with
  | false => exact ⟨rfl, h⟩
  | true =>
    have hread := h.of_spares (Memory.spares_read p.memory)
    refine ⟨rfl, hread.sound, hread.state, h.since, ?_, ?_, h.restored⟩
    · exact congrArg (_ :: ·) h.records
    · exact List.forall_mem_cons.2 ⟨hcontext.symm.trans h.context, h.seen⟩

/-! ## Blocks -/

/-- The account in a block that has just been entered. -/
def Account.enter (a : Account) : Account :=
  { a with state := { a.state with outer := a.state.context :: a.state.outer } }

/-- The state at the start as it is told in a block: the context at the entry is outside. -/
def inside (s : State) (p : Process) : State := { s with outer := p.memory.context :: s.outer }

theorem Tells.enter (h : Tells s p a) : Tells (inside s p) p.enter a.enter where
  sound := Memory.sound_enter h.sound
  state := by
    show p.memory.enter.state = _
    rw [Memory.state_enter h.sound, h.state, Account.enter, ← congrArg State.context h.state]
    rfl
  since := by
    show { a.state with outer := a.state.context :: a.state.outer } = _
    rw [inside, h.context, h.since]
    rfl
  records := h.records
  seen := h.seen
  restored := h.restored

/-- Leaving a block restores the context at its entry, however the block has come to its end. -/
theorem Tells.leave (h : Tells s p a) {p' : Process} {a' : Account} (hinner : Tells (inside s p) p' a') :
    Tells s (p'.leave p.memory.context) (a'.pop a.since) := by
  have hpop : a'.state.pop = { s with context := p.memory.context } := by
    rw [hinner.since]
    rfl
  have hstate : p'.memory.leave.state = a'.state.pop := by rw [Memory.state_leave, hinner.state]
  refine ⟨Memory.sound_leave hinner.sound, hstate, ?_, hinner.records, hinner.seen, ?_⟩
  · show a'.state.pop = _
    rw [hpop, h.context]
    rfl
  · refine List.forall_mem_cons.2 ⟨?_, hinner.restored⟩
    exact congrArg State.context (hstate.trans hpop)

/-! ## Runs -/

/-- **A program runs as it is told.** -/
theorem Tells.run (program : Program) (h : Tells s p a) :
    Ending.Agree (Tells s) (program.run p) (program.tell a) := by
  induction program generalizing s p a with
  | bind values => exact h.bind values
  | log timestamp entry => exact h.log timestamp entry
  | raise f => exact ⟨rfl, h⟩
  | seq first second ihfirst ihsecond => exact (ihfirst h).andThen fun _ _ => ihsecond
  | catching body handler ihbody ihhandler => exact (ihbody h).orElse fun f _ _ => ihhandler f
  | block values body ih =>
    -- The block's own values are bound inside: where this fails, the block is left at once.
    have hbody := (h.enter.bind values).andThen fun _ _ => ih
    unfold Program.tell at hbody ⊢
    cases hvalues : values? values with
    | error f =>
      rw [hvalues] at hbody
      exact ⟨hbody.1, h.leave hbody.2⟩
    | ok vs =>
      rw [hvalues] at hbody
      exact ⟨hbody.1, h.leave hbody.2⟩
  | reading next ih =>
    have hread := ih (p.memory.context) (h.of_spares (Memory.spares_read p.memory))
    unfold Program.run Program.tell
    rw [contents_read, ← congrArg State.context h.state]
    exact hread
  | alter n edit => exact ⟨rfl, h.of_spares (Memory.spares_alter p.memory n edit)⟩

theorem tells_start {m : Memory} (hm : m.Sound) : Tells m.state { memory := m } { state := m.state } :=
  ⟨hm, rfl, rfl, rfl, fun _ h => absurd h List.not_mem_nil, fun _ h => absurd h List.not_mem_nil⟩

/-- **Blocks restore the context.** Every program runs as it is told, and keeps the memory sound. In the end the context
is that of the start, overlaid with the texts in force, and each record has it as it was when the record was made. After
every block the context is the one before it: so it is if the whole program is run in a block. What has been read may
be changed at will. -/
theorem blocks_restore (program : Program) {m : Memory} (hm : m.Sound) :
    let ran := program.run { memory := m }
    let told := program.tell { state := m.state }
    let inForce : List (String × String) → Context := fun since => m.context.overlay since
    ran.1 = told.1 ∧ ran.2.memory.Sound ∧ ran.2.memory.state = told.2.state ∧
    told.2.state = { m.state with context := inForce told.2.since } ∧
    ran.2.records = told.2.records.map (·.1) ∧ (∀ e ∈ told.2.records, e.1.context = inForce e.2) ∧
    (∀ block ∈ ran.2.blocks, block.2 = block.1) ∧
    (∀ values, ((Program.block values program).run { memory := m }).2.memory.state = m.state) ∧
    ∀ n edit, (ran.2.memory.alter n edit).state = ran.2.memory.state := by
  intro ran told inForce
  obtain ⟨houtcome, hran⟩ := Tells.run program (tells_start hm)
  refine ⟨houtcome, hran.sound, hran.state, hran.since, hran.records, hran.seen, hran.restored, ?_, ?_⟩
  · intro values
    obtain ⟨-, hblock⟩ := Tells.run (.block values program) (tells_start hm)
    have hsince : ((Program.block values program).tell { state := m.state }).2.since = [] := by
      unfold Program.tell
      cases values? values <;> rfl
    rw [hblock.state, hblock.since, hsince]
    rfl
  · intro n edit
    exact (Memory.spares_alter ran.2.memory n edit).state_eq hran.sound

/-- A block's body logs, empties what it has read, and fails at a value without a text. The failure is caught outside,
where the next record has the old context. -/
theorem blocks_restore_failed :
    let outside : Context := [("service", "cache")]
    let start : State := { context := outside, level := .info, sinks := [⟨.info, .json⟩] }
    let m := Memory.ofState start
    let call : Entry := { logger := "app", level := .warning, message := "late" }
    let body : Program := .seq (.bind [("attempt", .ok (.int 2)), ("backend", .ok .null)])
      (.seq (.log "now" call)
        (.seq (.reading fun _ => .alter 0 fun _ => [])
          (.bind [("size", .ok (.int 3)), ("key", .error (.foreign "TypeError" "no text"))])))
    let program : Program := .catching (.block [("operation", .ok (.text "get"))] body) fun _ => .log "now" call
    let ran := program.run { memory := m }
    let inside := outside ++ [("operation", "get"), ("attempt", "2")]
    m.Sound ∧ m.state = start ∧ ran.1.toOption = some () ∧ ran.2.records.map (·.context) = [outside, inside] ∧
    ran.2.blocks.length = 1 ∧ (∀ block ∈ ran.2.blocks, block.2 = block.1) ∧ ran.2.memory.context = outside := by
  intro outside start m call body program ran inside
  have hm : m.Sound := Memory.sound_ofState start
  obtain ⟨-, -, -, -, -, -, hrestored, -, -⟩ := blocks_restore program hm
  have hrecords : ran.2.records.map (·.context) = [outside, inside] := by decide +kernel
  exact ⟨hm, Memory.state_ofState start, by decide +kernel, hrecords, by decide +kernel, hrestored, by decide +kernel⟩

end RemoteCache.Logging
