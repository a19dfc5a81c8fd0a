import RemoteCache.Logging.State

/-!
# Histories of logging

A process configures its logging, binds values, enters and leaves blocks, and makes log calls (`Step`). A history is
the list of these steps, the latest first, and `State.after` is the state that it leads to. What this state is can be
told from the history:

* The only sink is that of the latest configuration, if this one knew its level; else there is none (`sinks_after`).
  However many sinks there were, a configuration leaves one at most (`sinks_resume`). The thresholds of process and
  sink never differ (`thresholds_agree`).
* The context is what was bound in the blocks that are open. `boundAt` finds it by going back through the history and
  skipping what was bound in blocks that have been left (`contexts_after`).

**Theorem (`failed_configuration_spares_iff`).** A configuration with an unknown level leaves everything but the sinks,
which are gone. So all is as before, and all later log calls are emitted as before, exactly if there was no sink: no
configuration had been made, or the latest one had failed, too.
-/

namespace RemoteCache.Logging

/-! ## Binding -/

namespace Context

/-- The texts of values; nothing has none. -/
def texts (values : List (String × Value)) : List (String × String) :=
  values.filterMap fun (name, v) => if v.isNull then none else some (name, v.display)

theorem bind_eq_overlay (ctx : Context) (values : List (String × Value)) : ctx.bind values = ctx.overlay (texts values) := by
  induction values generalizing ctx with
  | nil => rfl
  | cons entry values ih =>
    obtain ⟨name, v⟩ := entry
    cases v <;> exact ih _

/-- Only names of values that are bound are added. -/
theorem mem_names_bind {ctx : Context} {values : List (String × Value)} {e : String × String}
    (h : e ∈ ctx.bind values) : e.1 ∈ values.map (·.1) ∨ e ∈ ctx := by
  rw [bind_eq_overlay] at h
  obtain htexts | hold := Entries.mem_putAll h
  · left
    obtain ⟨⟨name, v⟩, hv, htext⟩ := List.mem_filterMap.1 htexts
    by_cases hnull : v.isNull
    · simp [hnull] at htext
    · obtain rfl : (name, v.display) = e := by simpa [hnull] using htext
      exact List.mem_map_of_mem hv
  · exact .inr hold

theorem nodup_set {ctx : Context} (h : (ctx.map (·.1)).Nodup) (name text : String) :
    ((ctx.set name text).map (·.1)).Nodup := by
  induction ctx with
  | nil => simp [set, Entries.put]
  | cons e ctx ih =>
    obtain ⟨first, old⟩ := e
    rw [List.map_cons, List.nodup_cons] at h
    unfold set Entries.put
    by_cases hfirst : first = name
    · rw [if_pos hfirst, List.map_cons, List.nodup_cons, ← hfirst]
      exact h
    · rw [if_neg hfirst, List.map_cons, List.nodup_cons]
      refine ⟨?_, ih h.2⟩
      intro hmem
      obtain ⟨e, he, heq⟩ := List.mem_map.1 hmem
      obtain rfl | hold := Entries.mem_put he
      · exact hfirst heq.symm
      · exact h.1 (List.mem_map.2 ⟨e, hold, heq⟩)

/-- No name is bound twice. -/
theorem nodup_overlay {ctx : Context} (h : (ctx.map (·.1)).Nodup) (texts : List (String × String)) :
    ((ctx.overlay texts).map (·.1)).Nodup := by
  induction texts generalizing ctx with
  | nil => exact h
  | cons e texts ih => exact ih (nodup_set h e.1 e.2)

end Context

/-! ## Configurations -/

namespace Config

/-- The name of the level in capitals. -/
def capitals (config : Config) : String := String.ofList (Text.upper config.level.toList)

/-- The level that a configuration names, in any letter case. -/
def level? (config : Config) : Option Level := Level.ofName? config.capitals

theorem ofText_level (config : Config) :
    Level.ofText config.level = match config.level? with
      | some level => .ok level
      | none => .error config.capitals := rfl

def format (config : Config) : Format := if config.json then .json else .plain

/-- Where a configuration sends records to. -/
def sink? (config : Config) : Option Sink := config.level?.map fun level => ⟨level, config.format⟩

/-- A name as a value: none and an empty one are nothing. -/
def seed : Option String → Value
  | none | some "" => .null
  | some text => .text text

/-- What a configuration binds. -/
def values (config : Config) : List (String × Value) :=
  [("service", seed config.service), ("environment", seed config.environment)]

theorem seeds_eq (config : Config) : State.seeds config = Context.texts config.values := by
  have hseed (name : String) (value : Option String) :
      (match value with
        | none | some "" => none
        | some text => some (name, text)) =
      if (seed value).isNull then none else some (name, (seed value).display) := by
    unfold seed
    split <;> rfl
  unfold State.seeds Context.texts values
  rw [List.filterMap_cons, List.filterMap_cons, List.filterMap_cons, List.filterMap_cons]
  dsimp only
  rw [← hseed, ← hseed]
  rfl

/-- A configuration that knows its level sets both thresholds to it, and binds its names as values are bound. -/
theorem configure_of_known {config : Config} {level : Level} (h : config.level? = some level) (s : State) :
    s.configure config = (.ok (), { s with
      level := level
      sinks := [⟨level, config.format⟩]
      context := s.context.bind config.values }) := by
  unfold State.configure
  rw [ofText_level, h, Context.bind_eq_overlay, ← seeds_eq]
  rfl

/-- A configuration that does not know its level fails, and takes the sinks away. -/
theorem configure_of_unknown {config : Config} (h : config.level? = none) (s : State) :
    s.configure config = (.error (State.unknownLevel config.capitals), { s with sinks := [] }) := by
  unfold State.configure
  rw [ofText_level, h]

theorem level?_eq_none_of_error {config : Config} {s : State} {f : Failure} (h : (s.configure config).1 = .error f) :
    config.level? = none := by
  cases hlevel : config.level? with
  | none => rfl
  | some level =>
    rw [configure_of_known hlevel] at h
    cases h

end Config

/-! ## Steps -/

/-- What a process does with its logging. -/
inductive Step
  | configure (config : Config)
  | bind (values : List (String × Value))
  /-- Enters a block with values of its own. -/
  | enter (values : List (String × Value))
  | leave
  | log (entry : Entry)

namespace Step

/-- What a step binds. -/
def values : Step → List (String × Value)
  | .configure config => config.values
  | .bind values | .enter values => values
  | .leave | .log _ => []

def config? : Step → Option Config
  | .configure config => some config
  | _ => none

end Step

namespace State

/-- The state that a step leaves. -/
def next (s : State) : Step → State
  | .configure config => (s.configure config).2
  | .bind values => s.bind values
  | .enter values => s.push values
  | .leave => s.pop
  | .log _ => s

/-- The state after a history from a state. -/
def resume (s : State) (history : List Step) : State := history.foldr (fun step s => s.next step) s

/-- The state after all that a process has done. -/
def after (history : List Step) : State := resume {} history

theorem after_cons (step : Step) (before : List Step) : after (step :: before) = (after before).next step := rfl

theorem next_of_known {config : Config} {level : Level} (h : config.level? = some level) (s : State) :
    s.next (.configure config) = { s with
      level := level
      sinks := [⟨level, config.format⟩]
      context := s.context.bind config.values } := by
  unfold next
  dsimp only
  rw [Config.configure_of_known h]

theorem next_of_unknown {config : Config} (h : config.level? = none) (s : State) :
    s.next (.configure config) = { s with sinks := [] } := by
  unfold next
  dsimp only
  rw [Config.configure_of_unknown h]

/-- A configuration leaves its sink and no other, however many there were. -/
theorem next_sinks (s : State) (config : Config) : (s.next (.configure config)).sinks = config.sink?.toList := by
  unfold Config.sink?
  cases hlevel : config.level? with
  | some level =>
    rw [next_of_known hlevel]
    rfl
  | none =>
    rw [next_of_unknown hlevel]
    rfl

@[simp] theorem pop_sinks (s : State) : s.pop.sinks = s.sinks := by
  unfold pop
  cases s.outer <;> rfl

@[simp] theorem pop_level (s : State) : s.pop.level = s.level := by
  unfold pop
  cases s.outer <;> rfl

@[simp] theorem pop_outer (s : State) : s.pop.outer = s.outer.tail := by
  unfold pop
  cases houter : s.outer with
  | nil => exact houter
  | cons context outer => rfl

end State

variable {history : List Step}

/-! ## What is in force -/

/-- The latest configuration, whether it failed or not. -/
def latest? (history : List Step) : Option Config := history.findSome? Step.config?

/-- **From any sinks, the latest configuration leaves its own alone.** -/
theorem sinks_resume (s : State) (history : List Step) :
    (s.resume history).sinks = (latest? history).elim s.sinks fun config => config.sink?.toList := by
  induction history with
  | nil => rfl
  | cons step before ih =>
    show ((s.resume before).next step).sinks = _
    cases step with
    | configure config => exact State.next_sinks _ config
    | leave => exact (State.pop_sinks _).trans ih
    | bind | enter | log => exact ih

/-- The sinks are that of the latest configuration, or none. -/
theorem sinks_after (history : List Step) :
    (State.after history).sinks = ((latest? history).bind Config.sink?).toList := by
  rw [State.after, sinks_resume]
  cases latest? history <;> rfl

theorem sinks_eq_singleton {sink : Sink} :
    (State.after history).sinks = [sink] ↔ (latest? history).bind Config.sink? = some sink := by
  rw [sinks_after]
  cases (latest? history).bind Config.sink? <;> simp

/-- **The thresholds of process and sink never differ.** -/
theorem thresholds_agree {sink : Sink} (h : sink ∈ (State.after history).sinks) :
    (State.after history).level = sink.level := by
  induction history with
  | nil => cases h
  | cons step before ih =>
    rw [State.after_cons] at h ⊢
    cases step with
    | configure config =>
      cases hlevel : config.level? with
      | some level =>
        rw [State.next_of_known hlevel] at h ⊢
        rw [List.mem_singleton.1 h]
      | none =>
        rw [State.next_of_unknown hlevel] at h
        cases h
    | leave =>
      rw [State.next, State.pop_sinks] at h
      exact (State.pop_level _).trans (ih h)
    | bind | enter | log => exact ih h

/-- The one sink of a state takes the records that are emitted. -/
theorem State.takers_of_emits {s : State} {sink : Sink} {level : Level} (hemits : s.emits level = true)
    (hsinks : s.sinks = [sink]) : s.takers level = [sink] := by
  by_cases htaken : sink.level.rank ≤ level.rank
  · simp [State.takers, hsinks, htaken]
  · simp [State.emits, State.takers, hsinks, htaken] at hemits

/-- The sink that the latest configuration leaves. -/
theorem sinks_of_latest {config : Config} {level : Level} (hlatest : latest? history = some config)
    (hlevel : config.level? = some level) : (State.after history).sinks = [⟨level, config.format⟩] := by
  rw [sinks_eq_singleton, hlatest, Option.bind_some, Config.sink?, hlevel, Option.map_some]

/-- A record of a positive level is emitted exactly if it reaches the level of the latest configuration. -/
theorem emits_after {config : Config} {level : Level} (hlatest : latest? history = some config)
    (hlevel : config.level? = some level) (severity : Level) :
    (State.after history).emits severity = true ↔ 0 < severity.rank ∧ level.rank ≤ severity.rank := by
  have hsinks : (State.after history).sinks = [⟨level, config.format⟩] := sinks_of_latest hlatest hlevel
  have hthreshold : (State.after history).level = level := thresholds_agree (hsinks ▸ List.mem_singleton_self _)
  by_cases hreaches : level.rank ≤ severity.rank <;> simp [State.emits, State.takers, hsinks, hthreshold, hreaches]

/-! ## What is bound -/

/-- How many blocks are open; no number if one was left that was not open. -/
def open? : List Step → Option Nat
  | [] => some 0
  | .enter _ :: before => (open? before).map (· + 1)
  | .leave :: before => (open? before).bind fun
    | 0 => none
    | n + 1 => some n
  | _ :: before => open? before

/-- What is bound outside the `i` innermost open blocks. Each block that has been left is skipped. -/
def boundAt : Nat → List Step → Context
  | _, [] => []
  | i, .leave :: before => boundAt (i + 1) before
  | i + 1, .enter _ :: before => boundAt i before
  | 0, step :: before => (boundAt 0 before).bind step.values
  | i + 1, _ :: before => boundAt (i + 1) before

/-- Every configuration has known its level. -/
def AllKnown (history : List Step) : Prop :=
  ∀ config, Step.configure config ∈ history → config.level?.isSome

theorem AllKnown.tail {step : Step} (h : AllKnown (step :: history)) : AllKnown history :=
  fun config hmem => h config (List.mem_cons_of_mem _ hmem)

/-- The contexts of a state, the innermost one first. -/
def State.contexts (s : State) : List Context := s.context :: s.outer

theorem State.contexts_eq_iff {s : State} {n : Nat} {f : Nat → Context} :
    s.contexts = (List.range (n + 1)).map f ↔ s.context = f 0 ∧ s.outer = (List.range n).map fun i => f (i + 1) := by
  rw [List.range_succ_eq_map, List.map_cons, List.map_map, State.contexts, List.cons.injEq]
  exact Iff.rfl

/-- Leaving a block makes the contexts outside those of the state. -/
theorem State.contexts_pop {s : State} (h : s.outer ≠ []) : s.pop.contexts = s.outer := by
  unfold State.pop
  cases houter : s.outer with
  | nil => exact absurd houter h
  | cons context outer => rfl

/-- A step that enters and leaves no block changes the innermost context only. -/
theorem contexts_bind (step : Step) {s : State} {n : Nat}
    (hs : s.contexts = (List.range (n + 1)).map fun i => boundAt i history)
    (hinner : boundAt 0 (step :: history) = (boundAt 0 history).bind step.values)
    (houter : ∀ i, boundAt (i + 1) (step :: history) = boundAt (i + 1) history) :
    (s.bind step.values).contexts = (List.range (n + 1)).map fun i => boundAt i (step :: history) := by
  rw [State.contexts_eq_iff] at hs ⊢
  refine ⟨?_, ?_⟩
  · rw [hinner, ← hs.1]
    rfl
  · simp only [houter]
    exact hs.2

/-- **The contexts that are kept are what is bound outside the open blocks.** -/
theorem contexts_after {n : Nat} (hknown : AllKnown history) (hopen : open? history = some n) :
    (State.after history).contexts = (List.range (n + 1)).map fun i => boundAt i history := by
  induction history generalizing n with
  | nil =>
    cases hopen
    rfl
  | cons step before ih =>
    have hbefore {m : Nat} (hm : open? before = some m) :
        (State.after before).contexts = (List.range (m + 1)).map fun i => boundAt i before := ih hknown.tail hm
    rw [State.after_cons]
    cases step with
    | configure config =>
      obtain ⟨level, hlevel⟩ := Option.isSome_iff_exists.1 (hknown config List.mem_cons_self)
      rw [State.next_of_known hlevel]
      exact contexts_bind (.configure config) (hbefore hopen) rfl fun _ => rfl
    | bind values => exact contexts_bind (.bind values) (hbefore hopen) rfl fun _ => rfl
    | log entry => exact contexts_bind (.log entry) (hbefore hopen) rfl fun _ => rfl
    | enter values =>
      obtain ⟨m, hm, rfl⟩ := Option.map_eq_some_iff.1 hopen
      have hcontexts := hbefore hm
      refine State.contexts_eq_iff.2 ⟨?_, hcontexts⟩
      exact congrArg (Context.bind · values) (State.contexts_eq_iff.1 hcontexts).1
    | leave =>
      obtain ⟨m, hm, hn⟩ := Option.bind_eq_some_iff.1 hopen
      cases m with
      | zero => cases hn
      | succ m =>
        obtain rfl : m = n := Option.some.inj hn
        have houter := (State.contexts_eq_iff.1 (hbefore hm)).2
        exact (State.contexts_pop (by simp [houter])).trans houter

/-- What is bound in the end. -/
theorem context_after {n : Nat} (hknown : AllKnown history) (hopen : open? history = some n) :
    (State.after history).context = boundAt 0 history :=
  (State.contexts_eq_iff.1 (contexts_after hknown hopen)).1

/-- **What binding keeps holds of all contexts.** -/
theorem keeps_after {P : Context → Prop} (hnil : P [])
    (hbind : ∀ step ∈ history, ∀ context, P context → P (context.bind step.values)) :
    ∀ context ∈ (State.after history).contexts, P context := by
  induction history with
  | nil =>
    intro context hmem
    obtain rfl := List.mem_singleton.1 hmem
    exact hnil
  | cons step before ih =>
    have hbefore := ih fun step hmem => hbind step (List.mem_cons_of_mem _ hmem)
    have hstep (context : Context) (h : P context) : P (context.bind step.values) :=
      hbind step List.mem_cons_self context h
    have hhead := hbefore (State.after before).context List.mem_cons_self
    have htail : ∀ context ∈ (State.after before).outer, P context :=
      fun context hmem => hbefore context (List.mem_cons_of_mem _ hmem)
    rw [State.after_cons]
    cases step with
    | configure config =>
      cases hlevel : config.level? with
      | some level =>
        rw [State.next_of_known hlevel]
        exact List.forall_mem_cons.2 ⟨hstep _ hhead, htail⟩
      | none =>
        rw [State.next_of_unknown hlevel]
        exact hbefore
    | bind values => exact List.forall_mem_cons.2 ⟨hstep _ hhead, htail⟩
    | enter values => exact List.forall_mem_cons.2 ⟨hstep _ hhead, hbefore⟩
    | leave =>
      show ∀ context ∈ (State.after before).pop.contexts, P context
      unfold State.pop
      cases houter : (State.after before).outer with
      | nil => exact hbefore
      | cons context outer =>
        rw [houter] at htail
        exact htail
    | log entry => exact hbefore

/-- No name is bound twice. -/
theorem nodup_after (history : List Step) : ((State.after history).context.map (·.1)).Nodup := by
  refine keeps_after (P := fun context => (context.map (·.1)).Nodup) List.nodup_nil ?_ _ List.mem_cons_self
  intro step _ context h
  rw [Context.bind_eq_overlay]
  exact Context.nodup_overlay h _

/-! ## Failed configurations -/

/-- No configuration is in force: none was made, or the latest one did not know its level. -/
def Unconfigured (history : List Step) : Prop :=
  ∀ config, latest? history = some config → config.level? = none

theorem sinks_eq_nil_iff (history : List Step) : (State.after history).sinks = [] ↔ Unconfigured history := by
  rw [sinks_after, Option.toList_eq_nil_iff, Option.bind_eq_none_iff]
  simp only [Config.sink?, Option.map_eq_none_iff]
  exact Iff.rfl

/-- The same records are emitted from both states, whatever is done next. -/
def State.EmitsLike (s t : State) : Prop :=
  ∀ (later : List Step) (entry : Entry), (s.resume later).record? entry = (t.resume later).record? entry

/-- A severe call tells whether there is a sink. -/
theorem emits_severe {s : State} {sink : Sink} (h : sink ∈ s.sinks) : ∃ level, s.emits level = true := by
  let severe : Level := ⟨max 1 (max s.level.rank sink.level.rank)⟩
  have hpositive : 0 < severe.rank := by simp only [severe]; omega
  have hreaches : s.level.rank ≤ severe.rank ∧ sink.level.rank ≤ severe.rank := by simp only [severe]; omega
  have htaken : sink ∈ s.takers severe := List.mem_filter.2 ⟨h, decide_eq_true hreaches.2⟩
  exact ⟨severe, by simp [State.emits, hpositive, hreaches.1, List.ne_nil_of_mem htaken]⟩

/-- **A failed configuration leaves all but the sinks**, and so leaves everything, and the emission of every later
record, exactly if no configuration was in force. It fails because no level has its name. -/
theorem failed_configuration_spares_iff {config : Config} {f : Failure}
    (hfailed : ((State.after history).configure config).1 = .error f) :
    let before := State.after history
    let left := (before.configure config).2
    (Level.ofName? config.capitals = none ∧ f = State.unknownLevel config.capitals) ∧
    left = { before with sinks := [] } ∧
    (left = before ↔ Unconfigured history) ∧ (left.EmitsLike before ↔ Unconfigured history) := by
  intro before left
  have hunknown : config.level? = none := Config.level?_eq_none_of_error hfailed
  have hfailure : f = State.unknownLevel config.capitals := by
    rw [Config.configure_of_unknown hunknown, Except.error.injEq] at hfailed
    exact hfailed.symm
  have hleft : left = { before with sinks := [] } := State.next_of_unknown hunknown before
  have hsame : left = before ↔ before.sinks = [] := by
    constructor
    · intro h
      rw [← h, hleft]
    · intro h
      rw [hleft, ← h]
  have hlike : left.EmitsLike before → before.sinks = [] := by
    intro h
    cases hsinks : before.sinks with
    | nil => rfl
    | cons sink sinks =>
      obtain ⟨level, hemits⟩ := emits_severe (hsinks ▸ List.mem_cons_self)
      have hnone : left.emits level = false := by
        rw [hleft]
        simp [State.emits, State.takers]
      have hrecord := h [] { logger := "", level, message := "" }
      simp [State.resume, State.record?, hemits, hnone] at hrecord
  refine ⟨⟨hunknown, hfailure⟩, hleft, hsame.trans (sinks_eq_nil_iff history), ?_⟩
  rw [← sinks_eq_nil_iff history]
  refine ⟨hlike, ?_⟩
  intro h later entry
  rw [hsame.2 h]

/-- Of two failures in a row the second one changes nothing. -/
theorem failed_configuration_spares_iff_again :
    let history := [Step.configure { level := "verbose" }, .configure { level := "DEBUG" }]
    let failed := (State.after history).configure { level := "bogus" }
    failed.1 = .error (State.unknownLevel "BOGUS") ∧ Unconfigured history ∧ failed.2 = State.after history ∧
      failed.2.EmitsLike (State.after history) := by
  intro history failed
  have hfailed : failed.1 = .error (State.unknownLevel "BOGUS") := rfl
  have hunconfigured : Unconfigured history := by
    intro config hlatest
    cases hlatest
    decide
  obtain ⟨-, -, hsame, hlike⟩ := failed_configuration_spares_iff hfailed
  exact ⟨hfailed, hunconfigured, hsame.2 hunconfigured, hlike.2 hunconfigured⟩

/-- A misspelled level takes away the sink that was configured before, and a severe call gets lost. -/
theorem failed_configuration_loses_sink :
    let before := State.after [.configure { level := "DEBUG" }]
    let failed := before.configure { level := "bogus" }
    let call : Entry := { logger := "app", level := .critical, message := "late" }
    failed.1 = .error (State.unknownLevel "BOGUS") ∧ before.sinks = [⟨.debug, .json⟩] ∧ failed.2.sinks = [] ∧
      before.record? call = some ⟨call, []⟩ ∧ failed.2.record? call = none :=
  ⟨rfl, rfl, rfl, rfl, rfl⟩

end RemoteCache.Logging
