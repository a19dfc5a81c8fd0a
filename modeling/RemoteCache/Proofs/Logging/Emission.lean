import RemoteCache.Proofs.Logging.Lines

/-!
# What a call writes

**Theorem (`write_after`).** After a history in which all configurations succeed and no name of a record's attribute is
bound, a call writes one line or nothing. It writes a line if its level is positive and reaches that of the latest
configuration, and if its arguments fit its template. The line is in the format of the latest configuration, and shows
the call and what is bound at that point (`Entry.Writes`).

What is bound is told from the history alone (`boundAt`): a block that has been left takes with it all that was bound
inside, the names of a configuration among it, and a configuration without a name keeps the one that was bound before.
-/

namespace RemoteCache.Logging

variable {history : List Step}

/-! ## Attributes -/

/-- The attributes of a record that are read when it is made or written, and its context. -/
def Record.attributes : List String :=
  ["context", "name", "levelname", "msg", "args", "getMessage", "exc_info", "exc_text", "stack_info", "created"] ++
    Record.refused

/-- No step binds the name of an attribute. -/
def SparesAttributes (history : List Step) : Prop :=
  ∀ step ∈ history, ∀ name ∈ Record.attributes, name ∉ step.values.map (·.1)

theorem unbound_after (h : SparesAttributes history) {name : String} (hname : name ∈ Record.attributes) :
    (State.after history).context.get? name = none := by
  rw [Context.get?_eq_none_iff]
  refine keeps_after (P := fun context => name ∉ context.map (·.1)) (by simp) ?_ _ List.mem_cons_self
  intro step hstep context hcontext hmem
  obtain ⟨e, he, rfl⟩ := List.mem_map.1 hmem
  obtain hbound | hold := Context.mem_names_bind he
  · exact h step hstep e.1 hname hbound
  · exact hcontext (List.mem_map_of_mem hold)

/-! ## Blocks and seeds -/

/-- What well-nested steps leave outside the blocks that they have opened is what was outside before. -/
theorem outer_after_append {inner before : List Step} {n : Nat} (h : open? inner = some n) :
    (State.after (inner ++ before)).outer.drop n = (State.after before).outer := by
  induction inner generalizing n with
  | nil =>
    cases h
    rfl
  | cons step inner ih =>
    rw [List.cons_append, State.after_cons]
    cases step with
    | configure config =>
      cases hlevel : config.level? with
      | some level =>
        rw [State.next_of_known hlevel]
        exact ih h
      | none =>
        rw [State.next_of_unknown hlevel]
        exact ih h
    | bind | log => exact ih h
    | enter values =>
      obtain ⟨m, hm, rfl⟩ := Option.map_eq_some_iff.1 h
      exact ih hm
    | leave =>
      obtain ⟨m, hm, hn⟩ := Option.bind_eq_some_iff.1 h
      cases m with
      | zero => cases hn
      | succ m =>
        obtain rfl : m = n := Option.some.inj hn
        show (State.after (inner ++ before)).pop.outer.drop m = _
        rw [State.pop_outer, List.drop_tail]
        exact ih hm

/-- A block that is left takes with it all that was bound inside. -/
theorem context_after_block {inner : List Step} (h : open? inner = some 0) (values : List (String × Value))
    (before : List Step) :
    (State.after (.leave :: (inner ++ .enter values :: before))).context = (State.after before).context := by
  have houter : (State.after (inner ++ .enter values :: before)).outer = (State.after before).contexts :=
    outer_after_append h
  rw [State.after_cons]
  show (State.after (inner ++ .enter values :: before)).pop.context = _
  unfold State.pop
  rw [houter]
  rfl

/-- The text that a configuration binds to a name. -/
def Config.seed? (config : Config) (name : String) : Option String :=
  if name = "service" then config.service.filter (· ≠ "")
  else if name = "environment" then config.environment.filter (· ≠ "")
  else none

theorem Config.seed_eq (value : Option String) :
    seed value = ((value.filter (· ≠ "")).map Value.text).getD .null := by
  unfold seed
  split
  · rfl
  · rfl
  · rename_i text hne
    rw [Option.filter_some, if_pos (by simpa using hne)]
    rfl

/-- A configuration binds its names, and leaves what stands where it has none. -/
theorem Config.get?_bind_values (config : Config) (context : Context) (name : String) :
    (context.bind config.values).get? name = (config.seed? name).or (context.get? name) := by
  have hseed (context : Context) (own : String) (value : Option String) :
      (context.bind [(own, seed value)]).get? name =
        (if name = own then value.filter (· ≠ "") else none).or (context.get? name) := by
    rw [seed_eq]
    cases value.filter (· ≠ "") with
    | none =>
      rw [ite_self, Option.none_or]
      rfl
    | some text =>
      show (context.set own text).get? name = _
      rw [Context.get?_set]
      by_cases hname : name = own <;> simp [hname]
  have hboth : context.bind config.values =
      (context.bind [("service", seed config.service)]).bind [("environment", seed config.environment)] := rfl
  rw [hboth, hseed, hseed]
  unfold seed?
  by_cases hservice : name = "service"
  · simp [hservice]
  · simp [hservice]

/-! ## Lines -/

namespace Entry

/-- The fields of a call by itself. -/
def core (entry : Entry) (timestamp message : String) : Context :=
  [("timestamp", timestamp), ("level", entry.level.name), ("logger", entry.logger), ("message", message)]

def failureText? (entry : Entry) : Option String := entry.failure.map (·.summary)

/-- What a line shows under a name: the failure of the call, else what is bound, else what the call says. -/
def field? (entry : Entry) (context : Context) (timestamp message name : String) : Option String :=
  (if name = "exception" then entry.failureText? else none).or
    ((context.get? name).or ((entry.core timestamp message).get? name))

/-- The head of a plain line, with the failure below. -/
def head (entry : Entry) (timestamp message : String) : String :=
  Record.below (timestamp ++ " " ++ entry.level.name ++ " " ++ entry.logger ++ " " ++ message)
    (entry.failureText?.getD "")

/-- The line of a call: an object that has each field once, or its head with what is bound in the order of names. -/
def Writes (entry : Entry) (context : Context) (timestamp message : String) : Format → String → Prop
  | .json, line => ∃ fields : Context, (fields.map (·.1)).Nodup ∧
      (∀ name, fields.get? name = entry.field? context timestamp message name) ∧
      line = String.ofList (Json.writeObject fields)
  | .plain, line => ∃ bound : Context, bound.Perm context ∧ bound.Pairwise (·.1 ≤ ·.1) ∧
      line = entry.head timestamp message ++ String.join (bound.map fun (name, text) => " " ++ name ++ "=" ++ text)

end Entry

section Unbound

variable {entry : Entry} {context : Context} {timestamp message : String}

/-- Where no attribute is bound, the message is that of the call. -/
theorem message?_of_spared (hunbound : ∀ name ∈ Record.attributes, context.get? name = none) :
    (⟨entry, context⟩ : Record).message? = entry.message? :=
  Record.message?_of_unbound (hunbound "getMessage" (by decide)) (hunbound "args" (by decide))
    (hunbound "msg" (by decide))

/-- Where no attribute is bound, the core fields are those of the call, and what is bound is set over them. -/
theorem payload?_of_unbound (hunbound : ∀ name ∈ Record.attributes, context.get? name = none)
    (hmessage : entry.message? = some message) :
    (⟨entry, context⟩ : Record).payload? timestamp =
      some (Record.withFailure ((entry.core timestamp message).overlay context) entry.failureText?) := by
  let r : Record := ⟨entry, context⟩
  have hcore : r.core timestamp message = entry.core timestamp message := by
    unfold Record.core Record.levelName Record.logger Entry.core
    rw [Record.shadowed_of_none (hunbound "levelname" (by decide)), Record.shadowed_of_none (hunbound "name" (by decide))]
  have hvisible : r.visible = context := Record.visible_of_unbound (hunbound "context" (by decide))
  have hown : r.message? = some message := (message?_of_spared hunbound).trans hmessage
  have hfailure : r.failureText? = some entry.failureText? :=
    Record.failureText?_of_unbound (hunbound "exc_info" (by decide))
  exact Record.payload?_eq_some_iff.2 ⟨message, _, hown, hfailure, by rw [hcore, hvisible]⟩

theorem nodup_core (entry : Entry) (timestamp message : String) :
    ((entry.core timestamp message).map (·.1)).Nodup := by
  simp [Entry.core]

/-- A JSON record shows all its fields where no attribute is bound. -/
theorem jsonLine?_of_unbound (hunbound : ∀ name ∈ Record.attributes, context.get? name = none)
    (hnodup : (context.map (·.1)).Nodup) (hmessage : entry.message? = some message) :
    ∃ line, (⟨entry, context⟩ : Record).jsonLine? timestamp = some line ∧
      entry.Writes context timestamp message .json line := by
  let fields := (entry.core timestamp message).overlay context
  have hpayload : (⟨entry, context⟩ : Record).payload? timestamp = some (Record.withFailure fields entry.failureText?) :=
    payload?_of_unbound hunbound hmessage
  have hfields : (fields.map (·.1)).Nodup := Context.nodup_overlay (nodup_core entry timestamp message) context
  refine ⟨_, by rw [Record.jsonLine?, hpayload, Option.map_some], _, ?_, ?_, rfl⟩
  · cases entry.failureText? with
    | none => exact hfields
    | some text => exact Context.nodup_set hfields "exception" text
  · intro name
    rw [Record.get?_withFailure, Context.get?_overlay hnodup]
    rfl

/-- A plain record shows its head, and what is bound in the order of names. -/
theorem plainLine?_of_unbound (hunbound : ∀ name ∈ Record.attributes, context.get? name = none)
    (hmessage : entry.message? = some message) :
    ∃ line, (⟨entry, context⟩ : Record).plainLine? timestamp = some line ∧
      entry.Writes context timestamp message .plain line := by
  let r : Record := ⟨entry, context⟩
  have hvisible : r.visible = context := Record.visible_of_unbound (hunbound "context" (by decide))
  have hown : r.message? = some message := (message?_of_spared hunbound).trans hmessage
  have hfailure : r.plainFailure? = some (entry.failureText?.getD "") := by
    unfold Record.plainFailure?
    rw [Record.shadowed_of_none (hunbound "exc_text" (by decide)),
      Record.failureText?_of_unbound (hunbound "exc_info" (by decide))]
    rfl
  have hcreated : (r.context.get? "created").isSome = false := by
    rw [show r.context.get? "created" = none from hunbound "created" (by decide)]
    rfl
  have hstack : r.shadowed "stack_info" "" = "" := Record.shadowed_of_none (hunbound "stack_info" (by decide)) _
  have hname : r.logger = entry.logger := Record.shadowed_of_none (hunbound "name" (by decide)) _
  have hlevel : r.levelName = entry.level.name := Record.shadowed_of_none (hunbound "levelname" (by decide)) _
  have hline : r.plainLine? timestamp = some (entry.head timestamp message ++ r.suffix) := by
    simp [Record.plainLine?, hown, hcreated, hfailure, hstack, hname, hlevel, Record.below, Entry.head]
  refine ⟨_, hline, context.mergeSort fun a b => a.1 ≤ b.1, List.mergeSort_perm _ _, ?_, ?_⟩
  · refine (List.pairwise_mergeSort ?_ ?_ context).imp ?_
    · intro a b c hab hbc
      exact decide_eq_true (String.le_trans (of_decide_eq_true hab) (of_decide_eq_true hbc))
    · intro a b
      simpa using String.le_total a.1 b.1
    · intro a b hab
      exact of_decide_eq_true hab
  · unfold Record.suffix
    rw [hvisible]

/-- A record whose arguments do not fit its template has no line. -/
theorem line?_of_no_message {r : Record} (h : r.message? = none) (format : Format) :
    r.line? timestamp format = none := by
  cases format with
  | json => simp [Record.line?, Record.jsonLine?, Record.payload?, h]
  | plain => simp [Record.line?, Record.plainLine?, h]

theorem line?_of_unbound (format : Format) (hunbound : ∀ name ∈ Record.attributes, context.get? name = none)
    (hnodup : (context.map (·.1)).Nodup) (hmessage : entry.message? = some message) :
    ∃ line, (⟨entry, context⟩ : Record).line? timestamp format = some line ∧
      entry.Writes context timestamp message format line := by
  cases format with
  | json => exact jsonLine?_of_unbound hunbound hnodup hmessage
  | plain => exact plainLine?_of_unbound hunbound hmessage

end Unbound

/-! ## Calls -/

/-- **A call writes its line once, or nothing**, in the format of the latest configuration and with what is bound. A
block takes with it what was bound inside, and a configuration binds its names. -/
theorem write_after {n : Nat} {config : Config} {level : Level} (hknown : AllKnown history)
    (hopen : open? history = some n) (hspares : SparesAttributes history) (hlatest : latest? history = some config)
    (hlevel : config.level? = some level) (timestamp : String) :
    let s := State.after history
    (∀ entry : Entry, (entry.level.rank ≤ 0 ∨ entry.level.rank < level.rank ∨ entry.message? = none) →
      s.write timestamp entry = .ok "") ∧
    (∀ entry message, 0 < entry.level.rank → level.rank ≤ entry.level.rank → entry.message? = some message →
      ∃ line, entry.Writes (boundAt 0 history) timestamp message config.format line ∧
        s.write timestamp entry = .ok (line ++ "\n")) ∧
    (∀ inner values, open? inner = some 0 →
      (State.after (.leave :: (inner ++ .enter values :: history))).context = s.context) ∧
    (∀ next : Config, next.level?.isSome → ∀ name,
      (State.after (.configure next :: history)).context.get? name = (next.seed? name).or (s.context.get? name)) := by
  intro s
  have hsinks : s.sinks = [⟨level, config.format⟩] := sinks_of_latest hlatest hlevel
  have hunbound : ∀ name ∈ Record.attributes, s.context.get? name = none := fun name => unbound_after hspares
  have hrefusal (entry : Entry) : (⟨entry, s.context⟩ : Record).refusal? = none :=
    Record.refusal?_eq_none_iff.2 fun name hname => hunbound name (List.mem_append_right _ hname)
  refine ⟨?_, ?_, ?_, ?_⟩
  · intro entry hnot
    by_cases hemits : s.emits entry.level = true
    · obtain ⟨hpositive, hreaches⟩ := (emits_after hlatest hlevel _).1 hemits
      have hnone : entry.message? = none := by
        obtain h | h | h := hnot
        · omega
        · omega
        · exact h
      have hown : (⟨entry, s.context⟩ : Record).message? = none := (message?_of_spared hunbound).trans hnone
      rw [State.write_of_emits hemits hsinks (hrefusal entry), line?_of_no_message hown]
      rfl
    · exact State.write_of_not_emits (by simpa using hemits)
  · intro entry message hpositive hreaches hmessage
    have hemits : s.emits entry.level = true := (emits_after hlatest hlevel _).2 ⟨hpositive, hreaches⟩
    obtain ⟨line, hline, hwrites⟩ := line?_of_unbound config.format hunbound (nodup_after history) hmessage
    refine ⟨line, context_after hknown hopen ▸ hwrites, ?_⟩
    rw [State.write_of_emits hemits hsinks (hrefusal entry), hline]
    rfl
  · exact fun inner values h => context_after_block h values history
  · intro next hnext name
    obtain ⟨known, hknown⟩ := Option.isSome_iff_exists.1 hnext
    rw [State.after_cons, State.next_of_known hknown]
    exact next.get?_bind_values s.context name

/-- A block in which a second configuration, without a service, has changed the format. -/
theorem write_after_block :
    let history := [Step.configure { level := "info", json := false, environment := some "dev" },
      .enter [("operation", .text "get")], .configure { level := "Debug", service := some "cache" }]
    let entry : Entry := { logger := "app", level := .warning, message := "late" }
    let bound := [("service", "cache"), ("operation", "get"), ("environment", "dev")]
    AllKnown history ∧ open? history = some 1 ∧ SparesAttributes history ∧ boundAt 0 history = bound ∧
    ∃ line, entry.Writes bound "now" "late" .plain line ∧
      (State.after history).write "now" entry = .ok (line ++ "\n") := by
  intro history entry bound
  have hknown : AllKnown history := by
    intro config hmem
    simp only [history, List.mem_cons, Step.configure.injEq, reduceCtorEq, List.not_mem_nil, or_false,
      false_or] at hmem
    obtain rfl | rfl := hmem <;> decide
  have hspares : SparesAttributes history := by
    unfold SparesAttributes
    decide
  have hlevel : Level.ofName? "INFO" = some .info := by decide
  obtain ⟨-, hwrites, -⟩ := write_after (n := 1) hknown rfl hspares rfl hlevel "now"
  exact ⟨hknown, rfl, hspares, rfl, hwrites entry "late" (by decide) (by decide) rfl⟩

/-- Three calls that reach the level of the latest configuration and do not show what is bound: one without a level,
one with an argument too many, and one with a failure, whose field is bound. -/
theorem reaching_calls_differ :
    let s := State.after [.bind [("exception", .text "bound")], .configure { level := "NOTSET" }]
    let call : Entry := { logger := "app", level := .notSet, message := "late" }
    let extra : Entry := { logger := "app", level := .error, message := "", args := [.null] }
    let failing : Entry := { logger := "app", level := .error, message := "late", failure := some (.value "real") }
    let fields := [("timestamp", "now"), ("level", "ERROR"), ("logger", "app"), ("message", "late"),
      ("exception", "ValueError: real")]
    s.level = .notSet ∧ s.context = [("exception", "bound")] ∧ s.write "now" call = .ok "" ∧
      s.write "now" extra = .ok "" ∧
      s.write "now" failing = .ok (String.ofList (Json.writeObject fields) ++ "\n") := by
  intro s call extra failing fields
  have hextra : (⟨extra, s.context⟩ : Record).message? = none := by
    show Template.fill? "" (.row [.null]) = none
    simp [Template.fill?, Template.parse?, Template.fillPieces?, Template.Supply.ofArguments]
  have hsinks : s.sinks = [⟨.notSet, .json⟩] := rfl
  refine ⟨rfl, rfl, State.write_of_not_emits rfl, ?_, ?_⟩
  · rw [State.write_of_emits rfl hsinks rfl, line?_of_no_message hextra]
    rfl
  · rw [State.write_of_emits rfl hsinks rfl]
    rfl

end RemoteCache.Logging
