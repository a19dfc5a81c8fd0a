import RemoteCache.Proofs.Logging.Histories

/-!
# What a JSON line shows

A JSON line is to show the level, the logger and the message of its call, and all that is bound besides. But the names
of a context are free: a name may be that of a core field, or that of an attribute of the record, which then reads the
bound text in place of its own.

**Theorem (`core_fields_stand_iff`).** After any history that ends with a JSON sink, the lines of all calls show the
core fields and the bound texts exactly if the context is `Harmless`: it binds no name of a list that is spelled out
(`clashing`), the name of the failure's attribute with an empty text at most, and the name of the failure's field only
together with that attribute.

From right to left, an attribute whose name is not bound is the record's own, and fields are found again because no
name is bound twice. From left to right, for each name there are two calls that differ in what the name stands for, or
one call that cannot be written or does not show the name.
-/

namespace RemoteCache.Logging

/-! ## Contexts and their names -/

namespace Context

theorem get?_eq_none_iff {ctx : Context} {name : String} : ctx.get? name = none ↔ name ∉ ctx.map (·.1) := by
  induction ctx with
  | nil => simp [get?]
  | cons e ctx ih =>
    obtain ⟨first, text⟩ := e
    unfold get? at ih ⊢
    rw [Entries.lookup_cons, List.map_cons, List.mem_cons, not_or, ← ih]
    by_cases hname : name = first <;> simp [hname]

/-- A text is found with the value that is set last. -/
theorem get?_overlay {ctx : Context} {texts : List (String × String)} (h : (texts.map (·.1)).Nodup) (name : String) :
    (ctx.overlay texts).get? name = (get? texts name).or (ctx.get? name) := by
  induction texts generalizing ctx with
  | nil => rfl
  | cons e texts ih =>
    obtain ⟨first, text⟩ := e
    rw [List.map_cons, List.nodup_cons] at h
    have hrest : (ctx.overlay ((first, text) :: texts)).get? name =
        (get? texts name).or ((ctx.set first text).get? name) := ih h.2
    have hcons : get? ((first, text) :: texts) name = if name = first then some text else get? texts name :=
      Entries.lookup_cons first text texts name
    rw [hrest, get?_set, hcons]
    by_cases hname : name = first
    · rw [if_pos hname, if_pos hname, hname, get?_eq_none_iff.2 h.1]
      rfl
    · rw [if_neg hname, if_neg hname]

end Context

/-! ## Records by themselves -/

/-- The message of a call that is made where nothing is bound. -/
def Entry.message? (entry : Entry) : Option String := Record.message? ⟨entry, []⟩

namespace Record

variable {r : Record}

theorem shadowed_of_none {name : String} (h : r.context.get? name = none) (own : String) :
    r.shadowed name own = own := by
  rw [shadowed, h, Option.getD_none]

theorem message?_of_unbound (hmethod : r.context.get? "getMessage" = none) (hargs : r.context.get? "args" = none)
    (hmsg : r.context.get? "msg" = none) : r.message? = r.entry.message? := by
  have hown : r.arguments = (⟨r.entry, []⟩ : Record).arguments := by
    unfold arguments
    rw [hargs]
    rfl
  have htemplate : r.template = r.entry.message := shadowed_of_none hmsg _
  unfold Entry.message? message?
  rw [hmethod, hown, htemplate]
  rfl

theorem visible_of_unbound (h : r.context.get? "context" = none) : r.visible = r.context := by
  unfold visible
  rw [h]
  rfl

theorem failureText?_of_unbound (h : r.context.get? "exc_info" = none) :
    r.failureText? = some (r.entry.failure.map (·.summary)) := by
  unfold failureText?
  rw [h]

/-- The names that no record takes. -/
def refused : List String := ["__class__", "__dict__", "__weakref__"]

theorem refusal?_eq_none_iff : r.refusal? = none ↔ ∀ name ∈ refused, r.context.get? name = none := by
  have hentry (e : String × String) :
      ((if e.1 = "__class__" then
          some (.foreign "TypeError" "__class__ must be set to a class, not 'str' object")
        else if e.1 = "__dict__" then
          some (.foreign "TypeError" "__dict__ must be set to a dictionary, not a 'str'")
        else if e.1 = "__weakref__" then
          some (.foreign "AttributeError" "attribute '__weakref__' of 'LogRecord' objects is not writable")
        else none) : Option Failure) = none ↔ e.1 ∉ refused := by
    simp only [refused, List.mem_cons, List.not_mem_nil, or_false, not_or]
    by_cases hclass : e.1 = "__class__"
    · simp [hclass]
    · by_cases hdict : e.1 = "__dict__"
      · simp [hdict]
      · by_cases hweakref : e.1 = "__weakref__" <;> simp [hclass, hdict, hweakref]
  unfold refusal?
  rw [List.findSome?_eq_none_iff]
  simp only [hentry, Context.get?_eq_none_iff]
  constructor
  · intro h name hname hmem
    obtain ⟨e, he, rfl⟩ := List.mem_map.1 hmem
    exact h e he hname
  · intro h e he hname
    exact h e.1 hname (List.mem_map_of_mem he)

/-- Fields with the text of a failure, if there is one. -/
def withFailure (fields : Context) : Option String → Context
  | none => fields
  | some text => fields.set "exception" text

/-- The fields of a record that can be written. -/
theorem payload?_eq_some_iff {timestamp : String} {fields : Context} :
    r.payload? timestamp = some fields ↔ ∃ message failure, r.message? = some message ∧ r.failureText? = some failure ∧
      fields = withFailure ((r.core timestamp message).overlay r.visible) failure := by
  unfold payload?
  cases r.message? with
  | none => simp
  | some message =>
    cases r.failureText? with
    | none => simp
    | some failure => cases failure <;> simp [withFailure, eq_comm]

theorem get?_withFailure (fields : Context) (failure : Option String) (name : String) :
    (withFailure fields failure).get? name =
      (if name = "exception" then failure else none).or (fields.get? name) := by
  cases failure with
  | none => rw [withFailure, ite_self, Option.none_or]
  | some text =>
    rw [withFailure, Context.get?_set]
    by_cases hname : name = "exception"
    · rw [if_pos hname, if_pos hname, Option.some_or]
    · rw [if_neg hname, if_neg hname, Option.none_or]

theorem get?_withFailure_of {fields : Context} {failure : Option String} {name : String}
    (h : name = "exception" → failure = none) : (withFailure fields failure).get? name = fields.get? name := by
  rw [get?_withFailure]
  by_cases hname : name = "exception"
  · rw [if_pos hname, h hname, Option.none_or]
  · rw [if_neg hname, Option.none_or]

end Record

/-! ## Writing -/

namespace State

variable {s : State} {entry : Entry} {timestamp : String} {sink : Sink}

theorem write_of_refused (hemits : s.emits entry.level = true) {f : Failure}
    (hrefusal : (⟨entry, s.context⟩ : Record).refusal? = some f) : s.write timestamp entry = .error f := by
  have hrecord : s.record? entry = some ⟨entry, s.context⟩ := if_pos hemits
  simp only [write, hrecord, hrefusal]

/-- An emitted record that is not refused has its line, if there is one, written by each sink that takes it. -/
theorem write_of_accepted (hemits : s.emits entry.level = true)
    (hrefusal : (⟨entry, s.context⟩ : Record).refusal? = none) :
    s.write timestamp entry = .ok (String.join ((s.takers entry.level).map fun sink =>
      ((⟨entry, s.context⟩ : Record).line? timestamp sink.format).elim "" (· ++ "\n"))) := by
  have hrecord : s.record? entry = some ⟨entry, s.context⟩ := if_pos hemits
  simp only [write, hrecord, hrefusal]

/-- One sink writes one line. -/
theorem write_of_emits (hemits : s.emits entry.level = true) (hsinks : s.sinks = [sink])
    (hrefusal : (⟨entry, s.context⟩ : Record).refusal? = none) :
    s.write timestamp entry =
      .ok (((⟨entry, s.context⟩ : Record).line? timestamp sink.format).elim "" (· ++ "\n")) := by
  rw [write_of_accepted hemits hrefusal, takers_of_emits hemits hsinks, List.map_singleton, String.join_cons,
    String.join_nil, String.append_empty]

theorem write_of_not_emits (hemits : s.emits entry.level = false) : s.write timestamp entry = .ok "" := by
  unfold write record?
  rw [hemits]
  rfl

end State

/-! ## The core fields -/

/-- The fields that every line has. -/
def coreNames : List String := ["timestamp", "level", "logger", "message"]

/-- The line of a call shows the call's own level, logger and message, and all that is bound besides. -/
def State.ShowsCore (s : State) (entry : Entry) (timestamp message : String) : Prop :=
  ∃ fields : Context, (⟨entry, s.context⟩ : Record).payload? timestamp = some fields ∧
    s.write timestamp entry = .ok (String.ofList (Json.writeObject fields) ++ "\n") ∧
    fields.get? "level" = some entry.level.name ∧ fields.get? "logger" = some entry.logger ∧
    fields.get? "message" = some message ∧
    ∀ name text, s.context.get? name = some text → name ∉ coreNames → fields.get? name = some text

/-- The names that clash with a core field or with an attribute of a record. -/
def clashing : List String :=
  ["level", "logger", "message", "context", "name", "levelname", "msg", "args", "getMessage"] ++ Record.refused

/-- No bound name clashes. The failure's attribute may be bound to an empty text, which hides the failure, and only
then its field may be bound. -/
structure Context.Harmless (context : Context) : Prop where
  unbound : ∀ name ∈ clashing, context.get? name = none
  exc_info : ∀ text, context.get? "exc_info" = some text → text = ""
  exception : context.get? "exc_info" = none → context.get? "exception" = none

variable {history : List Step} {sink : Sink}

/-- In a harmless context every line shows the core fields and what is bound. -/
theorem shows_of_harmless {s : State} (hs : s.context.Harmless) (hnodup : (s.context.map (·.1)).Nodup)
    (hsinks : s.sinks = [sink]) (hjson : sink.format = .json) {entry : Entry} {timestamp message : String}
    (hemits : s.emits entry.level = true) (hmessage : entry.message? = some message) :
    s.ShowsCore entry timestamp message := by
  let r : Record := ⟨entry, s.context⟩
  have hunbound {name : String} (h : name ∈ clashing) : r.context.get? name = none := hs.unbound name h
  have hrefusal : r.refusal? = none :=
    Record.refusal?_eq_none_iff.2 fun name hname => hunbound (List.mem_append_right _ hname)
  have hown : r.message? = some message :=
    (Record.message?_of_unbound (hunbound (by decide)) (hunbound (by decide)) (hunbound (by decide))).trans hmessage
  have hvisible : r.visible = s.context := Record.visible_of_unbound (hunbound (by decide))
  -- Where the failure is shown, its field is not bound.
  obtain ⟨failure, hfailure, hfield⟩ : ∃ failure, r.failureText? = some failure ∧
      ∀ text, s.context.get? "exception" = some text → failure = none := by
    cases hinfo : r.context.get? "exc_info" with
    | none =>
      refine ⟨_, Record.failureText?_of_unbound hinfo, ?_⟩
      intro text htext
      rw [hs.exception hinfo] at htext
      cases htext
    | some text =>
      refine ⟨none, ?_, fun _ _ => rfl⟩
      rw [Record.failureText?, hinfo, hs.exc_info text hinfo]
      rfl
  let fields := Record.withFailure ((r.core timestamp message).overlay r.visible) failure
  have hpayload : r.payload? timestamp = some fields :=
    Record.payload?_eq_some_iff.2 ⟨message, failure, hown, hfailure, rfl⟩
  have hfields (name : String) (h : name = "exception" → failure = none) :
      fields.get? name = (s.context.get? name).or ((r.core timestamp message).get? name) := by
    rw [Record.get?_withFailure_of h, hvisible, Context.get?_overlay hnodup]
  refine ⟨fields, hpayload, ?_, ?_, ?_, ?_, ?_⟩
  · have hline : r.line? timestamp sink.format = some (String.ofList (Json.writeObject fields)) := by
      rw [hjson, Record.line?, Record.jsonLine?, hpayload, Option.map_some]
    rw [State.write_of_emits hemits hsinks hrefusal, hline]
    rfl
  · rw [hfields "level" (absurd · (by decide)), hs.unbound "level" (by decide)]
    exact congrArg some (Record.shadowed_of_none (hunbound (by decide)) _)
  · rw [hfields "logger" (absurd · (by decide)), hs.unbound "logger" (by decide)]
    exact congrArg some (Record.shadowed_of_none (hunbound (by decide)) _)
  · rw [hfields "message" (absurd · (by decide)), hs.unbound "message" (by decide)]
    rfl
  · intro name text htext _
    rw [hfields name fun hname => hfield text (hname ▸ htext), htext]
    rfl

/-! ## What clashes -/

/-- Two calls that differ in a text tell that nothing stands in its place. -/
theorem unbound_of_both {field shadow : Option String} {a b : String} (ha : field.getD (shadow.getD a) = a)
    (hb : field.getD (shadow.getD b) = b) (hne : a ≠ b) : field = none ∧ shadow = none := by
  cases field with
  | some text => exact absurd (ha.symm.trans hb) hne
  | none =>
    cases shadow with
    | some text => exact absurd (ha.symm.trans hb) hne
    | none => exact ⟨rfl, rfl⟩

namespace State.ShowsCore

variable {s : State} {entry : Entry} {timestamp message : String}

/-- A context that is hidden would not show the text that hides it. -/
theorem visible (h : s.ShowsCore entry timestamp message) : s.context.get? "context" = none := by
  obtain ⟨fields, hpayload, -, -, -, -, hbound⟩ := h
  obtain ⟨own, failure, -, -, rfl⟩ := Record.payload?_eq_some_iff.1 hpayload
  cases hcontext : s.context.get? "context" with
  | none => rfl
  | some text =>
    have hvisible : (⟨entry, s.context⟩ : Record).visible = [] := by
      unfold Record.visible
      rw [hcontext]
      rfl
    have hfield := hbound "context" text hcontext (by decide)
    rw [Record.get?_withFailure_of (absurd · (by decide)), hvisible] at hfield
    cases hfield

/-- What a line that shows the core fields says about their names and those of their attributes. -/
theorem core (hnodup : (s.context.map (·.1)).Nodup) (h : s.ShowsCore entry timestamp message) :
    (s.context.get? "level").getD ((s.context.get? "levelname").getD entry.level.name) = entry.level.name ∧
    (s.context.get? "logger").getD ((s.context.get? "name").getD entry.logger) = entry.logger ∧
    ∃ own, (⟨entry, s.context⟩ : Record).message? = some own ∧ (s.context.get? "message").getD own = message := by
  let r : Record := ⟨entry, s.context⟩
  have hvisible : r.visible = s.context := Record.visible_of_unbound h.visible
  obtain ⟨fields, hpayload, -, hlevel, hlogger, hmessage, -⟩ := h
  obtain ⟨own, failure, hown, -, rfl⟩ := Record.payload?_eq_some_iff.1 hpayload
  have hfields {name own' text : String} (hname : name ≠ "exception")
      (hcore : (r.core timestamp own).get? name = some own')
      (htext : (Record.withFailure ((r.core timestamp own).overlay r.visible) failure).get? name = some text) :
      (s.context.get? name).getD own' = text := by
    rw [Record.get?_withFailure_of (absurd · hname), hvisible, Context.get?_overlay hnodup, hcore, Option.or_some] at htext
    exact Option.some.inj htext
  exact ⟨hfields (by decide) rfl hlevel, hfields (by decide) rfl hlogger,
    own, hown, hfields (by decide) rfl hmessage⟩

/-- What is written was not refused. -/
theorem not_refused (h : s.ShowsCore entry timestamp message) (hemits : s.emits entry.level = true) :
    ∀ name ∈ Record.refused, s.context.get? name = none := by
  obtain ⟨fields, -, hwrite, -⟩ := h
  cases hrefusal : (⟨entry, s.context⟩ : Record).refusal? with
  | none => exact Record.refusal?_eq_none_iff.1 hrefusal
  | some f =>
    rw [State.write_of_refused hemits hrefusal] at hwrite
    cases hwrite

/-- No text stands in the failure's place, or an empty one. -/
theorem exc_info (h : s.ShowsCore entry timestamp message) {text : String}
    (htext : s.context.get? "exc_info" = some text) : text = "" := by
  obtain ⟨fields, hpayload, -⟩ := h
  obtain ⟨-, failure, -, hfailure, -⟩ := Record.payload?_eq_some_iff.1 hpayload
  by_cases hempty : text = ""
  · exact hempty
  · simp [Record.failureText?, htext] at hfailure

/-- The field of a call's failure has the failure, and can show no other text. -/
theorem exception (h : s.ShowsCore entry timestamp message) {f : Failure} (hf : entry.failure = some f)
    (hinfo : s.context.get? "exc_info" = none) {text : String} (htext : s.context.get? "exception" = some text) :
    f.summary = text := by
  obtain ⟨fields, hpayload, -, -, -, -, hbound⟩ := h
  obtain ⟨own, failure, -, hfailure, rfl⟩ := Record.payload?_eq_some_iff.1 hpayload
  have hown : (⟨entry, s.context⟩ : Record).failureText? = some (some f.summary) := by
    rw [Record.failureText?_of_unbound hinfo, hf]
    rfl
  obtain rfl : some f.summary = failure := Option.some.inj (hown.symm.trans hfailure)
  have hshown := hbound "exception" text htext (by decide)
  rw [Record.get?_withFailure, if_pos rfl, Option.some_or] at hshown
  exact Option.some.inj hshown

end State.ShowsCore

/-- Calls of a level have the messages that they have where nothing is bound only if nothing is bound in place of
their templates, their arguments and the method. -/
theorem Record.unbound_of_own {context : Context} (level : Level)
    (h : ∀ entry message, entry.level = level → entry.message? = some message →
      (⟨entry, context⟩ : Record).message? = some message) :
    context.get? "getMessage" = none ∧ context.get? "msg" = none ∧ context.get? "args" = none := by
  let say (message : String) (args : List Value) : Entry := { logger := "", level, message, args }
  have hmethod : context.get? "getMessage" = none := by
    cases hmethod : context.get? "getMessage" with
    | none => rfl
    | some text =>
      have hown := h (say "" []) "" rfl rfl
      simp [message?, hmethod] at hown
  have hmsg : context.get? "msg" = none := by
    cases hmsg : context.get? "msg" with
    | none => rfl
    | some text =>
      -- The two calls have the bound text as their template, and the same arguments.
      have hsame : (⟨say "a" [], context⟩ : Record).message? = (⟨say "b" [], context⟩ : Record).message? := by
        simp only [message?, template, shadowed, hmsg, Option.getD_some]
        rfl
      rw [h (say "a" []) "a" rfl rfl, h (say "b" []) "b" rfl rfl] at hsame
      exact absurd hsame (by decide)
  refine ⟨hmethod, hmsg, ?_⟩
  cases hargs : context.get? "args" with
  | none => rfl
  | some text =>
    by_cases hempty : text = ""
    · -- The template is not filled in.
      let named : List (Value × Value) := [(.text "name", .null)]
      have hfill : Template.fill? "%%" (.mapping named) = some "%" := by
        simp [Template.fill?, Template.parse?, Template.fillPieces?, Template.Supply.ofArguments]
      have hown : (⟨say "%%" [.dict named], context⟩ : Record).message? = some "%" := h _ _ rfl hfill
      have harguments : (⟨say "%%" [.dict named], context⟩ : Record).arguments = none := by
        simp [arguments, hargs, hempty]
      simp [message?, hmethod, harguments, template, shadowed, hmsg, say] at hown
    · -- The template takes no argument.
      have hfill : Template.fill? "" (.row [.text text]) = none := by
        simp [Template.fill?, Template.parse?, Template.fillPieces?, Template.Supply.ofArguments]
      have hown : (⟨say "" [], context⟩ : Record).message? = some "" := h _ _ rfl rfl
      have harguments : (⟨say "" [], context⟩ : Record).arguments = some (.row [.text text]) := by
        simp [arguments, hargs]
      simp [message?, hmethod, harguments, template, shadowed, hmsg, say, hfill] at hown

/-- What the lines of all calls show is not clashing. -/
theorem harmless_of_shows {s : State} (hnodup : (s.context.map (·.1)).Nodup)
    (hloud : ∀ level : Level, 50 ≤ level.rank → s.emits level = true)
    (h : ∀ entry timestamp message, s.emits entry.level = true → entry.message? = some message →
      s.ShowsCore entry timestamp message) : s.context.Harmless := by
  let say (logger : String) (level : Level) (message : String) : Entry := { logger, level, message }
  have hsay (logger : String) (level : Level) (message : String) (hlevel : 50 ≤ level.rank) :
      s.ShowsCore (say logger level message) "" message := h _ _ _ (hloud level hlevel) rfl
  have hcritical (logger message : String) : s.ShowsCore (say logger .critical message) "" message :=
    hsay logger .critical message (by decide)
  obtain ⟨hlevel, hlevelname⟩ := unbound_of_both ((hcritical "" "").core hnodup).1
    ((hsay "" ⟨51⟩ "" (by decide)).core hnodup).1 (by decide)
  obtain ⟨hlogger, hname⟩ := unbound_of_both ((hcritical "a" "").core hnodup).2.1
    ((hcritical "b" "").core hnodup).2.1 (by decide)
  have hmessage : s.context.get? "message" = none := by
    obtain ⟨own, -, ha⟩ := ((hcritical "" "a").core hnodup).2.2
    obtain ⟨other, -, hb⟩ := ((hcritical "" "b").core hnodup).2.2
    cases hbound : s.context.get? "message" with
    | none => rfl
    | some text =>
      rw [hbound] at ha hb
      exact absurd (ha.symm.trans hb) (by decide)
  have hcontext : s.context.get? "context" = none := (hcritical "" "").visible
  obtain ⟨hmethod, hmsg, hargs⟩ : s.context.get? "getMessage" = none ∧ s.context.get? "msg" = none ∧
      s.context.get? "args" = none := by
    refine Record.unbound_of_own .critical ?_
    intro entry message hentry howned
    have hemits : s.emits entry.level = true := hloud entry.level (by rw [hentry]; decide)
    obtain ⟨own, hown, heq⟩ := ((h entry "" message hemits howned).core hnodup).2.2
    rw [hmessage, Option.getD_none] at heq
    rw [hown, heq]
  have hrefused : ∀ name ∈ Record.refused, s.context.get? name = none :=
    (hcritical "" "").not_refused (hloud .critical (by decide))
  refine ⟨?_, fun _ => (hcritical "" "").exc_info, ?_⟩
  · intro name hname
    obtain hcore | hrefusing := List.mem_append.1 hname
    · simp only [List.mem_cons, List.not_mem_nil, or_false] at hcore
      obtain rfl | rfl | rfl | rfl | rfl | rfl | rfl | rfl | rfl := hcore <;> assumption
    · exact hrefused name hrefusing
  · intro hinfo
    cases hbound : s.context.get? "exception" with
    | none => rfl
    | some text =>
      have hfails (f : Failure) : f.summary = text := by
        let call : Entry := { say "" .critical "" with failure := some f }
        have hshows : s.ShowsCore call "" "" := h call "" "" (hloud .critical (by decide)) rfl
        exact hshows.exception rfl hinfo hbound
      have hsame : (Failure.value "a").summary = (Failure.value "b").summary :=
        (hfails (.value "a")).trans (hfails (.value "b")).symm
      exact absurd hsame (by decide)

/-! ## Which contexts show -/

/-- No name stands for a level above the critical one. -/
theorem Level.rank_le_of_ofName? {name : String} {level : Level} (h : Level.ofName? name = some level) :
    level.rank ≤ 50 := by
  have hnames : ∀ e ∈ Level.names, e.2.rank ≤ 50 := by decide
  exact hnames _ (Entries.mem_of_lookup h)

/-- Where there is a sink, a critical record is emitted. -/
theorem emits_of_sink (hsinks : (State.after history).sinks = [sink]) {level : Level} (hlevel : 50 ≤ level.rank) :
    (State.after history).emits level = true := by
  obtain ⟨config, hconfig, hlatest⟩ := Option.bind_eq_some_iff.1 (sinks_eq_singleton.1 hsinks)
  obtain ⟨named, hnamed, hof⟩ := Option.map_eq_some_iff.1 hlatest
  rw [emits_after hconfig hnamed]
  have hrank : named.rank ≤ 50 := Level.rank_le_of_ofName? hnamed
  omega

/-- **The lines of all calls show the core fields and the context exactly if the context is harmless.** -/
theorem core_fields_stand_iff {level : Level} (hsinks : (State.after history).sinks = [⟨level, .json⟩]) :
    let s := State.after history
    (∀ entry timestamp message, s.emits entry.level = true → entry.message? = some message →
      s.ShowsCore entry timestamp message) ↔ s.context.Harmless := by
  intro s
  constructor
  · exact harmless_of_shows (nodup_after history) fun _ => emits_of_sink hsinks
  · intro hharmless entry timestamp message hemits hmessage
    exact shows_of_harmless hharmless (nodup_after history) hsinks rfl hemits hmessage

/-- What is bound for a service shows beside the core fields. -/
theorem core_fields_stand_iff_service :
    let s := State.after [.bind [("operation", .text "get")], .configure { service := some "cache" }]
    s.sinks = [⟨.info, .json⟩] ∧ s.context.Harmless ∧
      s.ShowsCore { logger := "app", level := .error, message := "late" } "now" "late" := by
  intro s
  have hsinks : s.sinks = [⟨.info, .json⟩] := rfl
  have hharmless : s.context.Harmless := by
    refine ⟨by decide, ?_, ?_⟩
    · intro text htext
      cases htext
    · intro _
      rfl
  exact ⟨hsinks, hharmless, (core_fields_stand_iff hsinks).2 hharmless _ _ _ rfl rfl⟩

/-- A name that is bound can be that of a core field: the line of a call shows the text in place of its level. -/
theorem bound_level_shows :
    let s := State.after [.bind [("level", .text "low")], .configure {}]
    let call : Entry := { logger := "app", level := .info, message := "late" }
    let fields := [("timestamp", "now"), ("level", "low"), ("logger", "app"), ("message", "late")]
    s.write "now" call = .ok (String.ofList (Json.writeObject fields) ++ "\n") ∧
      call.level.name = "INFO" ∧ ¬ s.ShowsCore call "now" "late" := by
  intro s call fields
  have hsinks : s.sinks = [⟨.info, .json⟩] := rfl
  refine ⟨?_, rfl, ?_⟩
  · rw [State.write_of_emits rfl hsinks rfl]
    rfl
  · intro h
    obtain ⟨fields, hpayload, -, hlevel, -⟩ := h
    cases hpayload
    exact absurd hlevel (by decide)

end RemoteCache.Logging
