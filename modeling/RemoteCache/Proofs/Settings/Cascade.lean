import RemoteCache.Proofs.Settings.Environment
import Mathlib.Data.List.ReduceOption

/-!
# Settings from all sources, value by value

A value of the settings can come from the arguments, from a variable of its own, from the object of a section in the
environment, and from the file. **If whatever these offer can be read, then the settings are loaded, and each value is
the first that is offered for it, or its default** (`load_follows`). This holds for each attribute by itself: a
stronger source takes no attribute away that it does not set.

The sources have to keep to some forms. An argument can change how the environment is read or ask for another source, a
key of the file's root that is no text cannot be compared with a section's name, and two keys of one mapping can read as
the same attribute although they differ, or as the same field of an object in the environment. Each of these can let a
weaker source win or no settings be loaded at all (`weaker_value_wins`).
-/

namespace RemoteCache

open Results Validation Value

namespace Settings

open Environment (Leaf nested? whole? lowerNames Conforms)

/-! ## What is offered -/

/-- What the sources offer for what stands at a path, the strongest first. -/
def offers (sources : Sources) (file : Tree) (path : List String) : List Value :=
  [(onlySections sources.arguments).at? path, nested? (lowerNames sources.environment) path,
    whole? (lowerNames sources.environment) path, (onlySections file).at? path].reduceOption

/-- All that is offered can be read as what it is for. -/
structure Readable (offered : List String → List Value) : Prop where
  level : ∀ v ∈ offered ["logging", "level"], ∃ a, readLevel v = .ok a
  json : ∀ v ∈ offered ["logging", "json_output"], ∃ a, Validation.bool v = .ok a
  service : ∀ v ∈ offered ["logging", "service"], ∃ a, Validation.text v = .ok a
  environment : ∀ v ∈ offered ["logging", "environment"], ∃ a, Validation.text v = .ok a
  url : ∀ v ∈ offered ["secondary_storage", "url"], ∃ a, Validation.text v = .ok a
  attributes : ∀ name, ∀ v ∈ offered (attributePath name), ∃ a, checkAttribute v = .valid a

/-- Settings that have what is supplied for each value, or the value's default. -/
structure Follows (supplied : List String → Option Value) (s : Settings) : Prop where
  level : Given readLevel .info (supplied ["logging", "level"]) s.logging.level
  json : Given Validation.bool true (supplied ["logging", "json_output"]) s.logging.json
  service : Given Validation.text "cache" (supplied ["logging", "service"]) s.logging.service
  environment : Given Validation.text "dev" (supplied ["logging", "environment"]) s.logging.environment
  url : Given Validation.text defaultUrl (supplied ["secondary_storage", "url"]) s.storage.url
  attributes : ∀ name, Option.Rel (fun v a => checkAttribute v = .valid a) (supplied (attributePath name))
    (s.storage.attributes.lookup name)

/-- The sections are mappings where there are any, and so are the attributes, whose names are texts. -/
def Sectioned (t : Tree) : Prop :=
  (∃ entries, t.within? ["logging"] = some entries) ∧
    ∃ attributes, t.within? ["secondary_storage", "attributes"] = some attributes ∧
      ∀ e ∈ attributes, e.1.isText = true

/-- The tree of the document in a file, if there is one; the keys of its root are texts. -/
def Holds (file : Option String) (t : Tree) : Prop :=
  (file = none ∧ t = [] ∨
    ∃ text root, file = some text ∧ Yaml.read text = .ok root ∧ treeOfRoot root = .ok t) ∧
      ∀ e ∈ t, hasCase e.1 = true ∧ isBytes e.1 = false

theorem ofFile_of_holds {file : Option String} {t : Tree} (h : Holds file t) : ofFile file = .ok t := by
  obtain ⟨⟨rfl, rfl⟩ | ⟨text, root, rfl, hread, ht⟩, hkeys⟩ := h
  · rfl
  · have hall : t.all (hasCase ·.1) = true := List.all_eq_true.2 fun e he => (hkeys e he).1
    have hdocument : (Yaml.read text).mapError Error.document = .ok root := mapError_eq_ok.2 hread
    unfold ofFile
    simp only [hdocument, ht, hall, Bind.bind, Except.bind, if_true]
    rfl

/-! ## The settings -/

variable {sources : Sources} {file : Tree} {path : List String}

/-- The values that settings have. -/
theorem leaf_iff : Leaf path ↔ path = ["logging", "level"] ∨ path = ["logging", "json_output"] ∨
    path = ["logging", "service"] ∨ path = ["logging", "environment"] ∨ path = ["secondary_storage", "url"] ∨
      ∃ name, path = attributePath name := by
  have hlog : loggingSection ∈ sections := by simp [sections]
  have hstore : storageSection ∈ sections := by simp [sections]
  have hlogging (f : String) (hf : f ∈ loggingSection.fields) : Leaf ["logging", f] :=
    Leaf.field hlog hf (by simp [loggingSection])
  constructor
  · intro h
    cases h with
    | @field sect f hsect hf hjson =>
      simp only [sections, List.mem_cons, List.not_mem_nil, or_false] at hsect
      rcases hsect with rfl | rfl
      · simp only [loggingSection, List.mem_cons, List.not_mem_nil, or_false] at hf
        rcases hf with rfl | rfl | rfl | rfl <;> simp [loggingSection]
      · simp only [storageSection, List.mem_cons, List.not_mem_nil, or_false] at hf hjson
        rcases hf with rfl | rfl
        · simp [storageSection]
        · exact absurd rfl hjson
    | @entry sect f k hsect hf =>
      obtain ⟨rfl, rfl⟩ := Environment.eq_of_jsonField hsect hf
      exact .inr (.inr (.inr (.inr (.inr ⟨k, rfl⟩))))
  · rintro (rfl | rfl | rfl | rfl | rfl | ⟨name, rfl⟩)
    · exact hlogging "level" (by simp [loggingSection])
    · exact hlogging "json_output" (by simp [loggingSection])
    · exact hlogging "service" (by simp [loggingSection])
    · exact hlogging "environment" (by simp [loggingSection])
    · exact Leaf.field hstore (by simp [storageSection]) (by simp [storageSection])
    · exact Leaf.entry name hstore (by simp [storageSection])

/-- What can be read is no mapping. -/
theorem Readable.plain {offered : List String → List Value} (h : Readable offered) (hleaf : Leaf path) :
    ∀ v ∈ offered path, ∀ entries, v ≠ .dict entries := by
  rintro v hv entries rfl
  rcases leaf_iff.1 hleaf with rfl | rfl | rfl | rfl | rfl | ⟨name, rfl⟩
  · obtain ⟨a, ha⟩ := h.level _ hv
    cases ha
  · obtain ⟨a, ha⟩ := h.json _ hv
    cases ha
  · obtain ⟨a, ha⟩ := h.service _ hv
    cases ha
  · obtain ⟨a, ha⟩ := h.environment _ hv
    cases ha
  · obtain ⟨a, ha⟩ := h.url _ hv
    cases ha
  · obtain ⟨a, ha⟩ := h.attributes name _ hv
    cases ha

theorem Sectioned.isOpen {t : Tree} (h : Sectioned t) (hleaf : Leaf path) : t.Open path := by
  obtain ⟨hlogging, attributes, hattributes, -⟩ := h
  obtain ⟨storage, hstorage, hwithin⟩ := Option.bind_eq_some_iff.1 hattributes
  rcases leaf_iff.1 hleaf with rfl | rfl | rfl | rfl | rfl | ⟨name, rfl⟩
  · exact (Tree.open_append ["logging"]).2 hlogging
  · exact (Tree.open_append ["logging"]).2 hlogging
  · exact (Tree.open_append ["logging"]).2 hlogging
  · exact (Tree.open_append ["logging"]).2 hlogging
  · exact (Tree.open_append ["secondary_storage"]).2 ⟨storage, Tree.within?_singleton.trans hstorage⟩
  · exact (Tree.open_append ["secondary_storage", "attributes"]).2 ⟨attributes, hattributes⟩

theorem Sectioned.textAttributes {t : Tree} (h : Sectioned t) : TextAttributes t := by
  obtain ⟨-, attributes, hattributes, htexts⟩ := h
  intro entries hentries
  rw [Option.mem_def, hattributes, Option.some.injEq] at hentries
  exact hentries ▸ htexts

theorem mem_offers {v : Value} : v ∈ offers sources file path ↔
    (onlySections sources.arguments).at? path = some v ∨ nested? (lowerNames sources.environment) path = some v ∨
      whole? (lowerNames sources.environment) path = some v ∨ (onlySections file).at? path = some v := by
  simp [offers, List.reduceOption_mem_iff, eq_comm]

theorem head?_offers (sources : Sources) (file : Tree) (path : List String) : (offers sources file path).head? =
    ((onlySections sources.arguments).at? path).or (((nested? (lowerNames sources.environment) path).or
      (whole? (lowerNames sources.environment) path)).or ((onlySections file).at? path)) := by
  unfold offers
  cases (onlySections sources.arguments).at? path <;> cases nested? (lowerNames sources.environment) path <;>
    cases whole? (lowerNames sources.environment) path <;> cases (onlySections file).at? path <;> rfl

/-- Names that are no sections but options of other sources, such as a command line, a file of variables or a directory
of secrets, or that the settings themselves go by. -/
def otherOptions : List String :=
  Environment.Options.foreignNames ++
    ["_nested_model_default_partial_update", "_env_file", "_env_file_encoding", "_env_parse_enums", "_cli_prog_name",
      "_cli_parse_none_str", "_cli_hide_none_type", "_cli_avoid_json", "_cli_enforce_required",
      "_cli_use_class_docs_for_groups", "_cli_exit_on_error", "_cli_prefix", "_cli_flag_prefix_char",
      "_cli_implicit_flags", "_cli_ignore_unknown_args", "_cli_kebab_case", "_cli_shortcuts", "_secrets_dir",
      "__pydantic_self__"]

/-- The sources keep to the forms that the cascade takes. -/
structure Regular (sources : Sources) (file : Tree) : Prop where
  /-- The arguments are a mapping. -/
  proper : sources.arguments.Proper
  /-- No argument changes how the environment is read. -/
  options : Environment.Options.ofTree sources.arguments = .ok {}
  /-- No argument is an option of another source. -/
  others : ∀ name ∈ otherOptions, get? sources.arguments name = none
  arguments : Sectioned (onlySections sources.arguments)
  environment : ∀ sect ∈ sections, Conforms sect (lowerNames sources.environment)
  holds : Holds sources.file file
  file : Sectioned (onlySections file)

theorem Regular.textAttributes {environment attributes : Tree} (h : Regular sources file)
    (hwithin : environment.within? ["secondary_storage", "attributes"] = some attributes)
    (htexts : ∀ e ∈ attributes, e.1.isText = true) :
    ∀ layer ∈ [onlySections sources.arguments, environment, onlySections file], TextAttributes layer := by
  simp only [List.mem_cons, List.not_mem_nil, or_false, forall_eq_or_imp, forall_eq]
  refine ⟨h.arguments.textAttributes, ?_, h.file.textAttributes⟩
  intro entries hentries
  rw [Option.mem_def, hwithin, Option.some.injEq] at hentries
  exact hentries ▸ htexts

/-- The layers of the sources: each leaves the paths to all values open, and the first of them that has something at
such a path has what is offered first. -/
theorem layers_of_regular (hregular : Regular sources file) (hreadable : Readable (offers sources file)) :
    ∃ layers, sources.layers? = .ok layers ∧ (∀ layer ∈ layers, TextAttributes layer) ∧
      ∀ path, Leaf path → (∀ layer ∈ layers, layer.Open path ∧ layer.Plain path) ∧
        layers.findSome? (·.at? path) = (offers sources file path).head? := by
  have hplain {path : List String} (hleaf : Leaf path) {v : Value} (hv : v ∈ offers sources file path)
      (entries : Tree) : v ≠ .dict entries := hreadable.plain hleaf v hv entries
  obtain ⟨environment, henvironment, ⟨attributes, hwithin, htexts⟩, hleaves⟩ :=
    Environment.ofEnvironment_of_conforms hregular.environment fun path hleaf entries hentries =>
      hplain hleaf (mem_offers.2 (.inr (.inl hentries))) entries rfl
  refine ⟨[onlySections sources.arguments, environment, onlySections file], ?_,
    hregular.textAttributes hwithin htexts, ?_⟩
  · have hbytes : file.any (isBytes ·.1) = false := by
      rw [List.any_eq_false]
      intro e he
      rw [(hregular.holds.2 e he).2]
      exact Bool.false_ne_true
    unfold Sources.layers?
    simp only [ofFile_of_holds hregular.holds, hregular.options, henvironment, hbytes, Except.mapError, Bind.bind,
      Except.bind, pure, Except.pure, Bool.false_eq_true, if_false]
  · intro path hleaf
    obtain ⟨hopen, hat⟩ := hleaves path hleaf
    constructor
    · simp only [List.mem_cons, List.not_mem_nil, or_false, forall_eq_or_imp, forall_eq]
      refine ⟨⟨hregular.arguments.isOpen hleaf, ?_⟩, ⟨hopen, ?_⟩, hregular.file.isOpen hleaf, ?_⟩
      · intro entries hentries
        exact hplain hleaf (mem_offers.2 (.inl hentries)) entries rfl
      · intro entries hentries
        rw [hat] at hentries
        rcases Option.or_eq_some_iff.1 hentries with h | ⟨-, h⟩
        · exact hplain hleaf (mem_offers.2 (.inr (.inl h))) entries rfl
        · exact hplain hleaf (mem_offers.2 (.inr (.inr (.inl h)))) entries rfl
      · intro entries hentries
        exact hplain hleaf (mem_offers.2 (.inr (.inr (.inr hentries)))) entries rfl
    · rw [head?_offers, ← hat]
      simp only [List.findSome?_cons, List.findSome?_nil]
      cases (onlySections sources.arguments).at? path <;> cases environment.at? path <;>
        cases (onlySections file).at? path <;> rfl

theorem exists_given {α : Type} {read : Value → Except Fault α} {vs : List Value} (h : ∀ v ∈ vs, ∃ a, read v = .ok a)
    (default : α) : ∃ a, Given read default vs.head? a := by
  cases vs with
  | nil => exact ⟨default, .default⟩
  | cons v vs =>
    obtain ⟨a, ha⟩ := h v List.mem_cons_self
    exact ⟨a, .read ha⟩

/-- Attributes whose names are texts and that can all be read pass their check. -/
theorem exists_attributes {attributes : Tree} (hnodup : (Value.names attributes).Nodup)
    (htexts : ∀ e ∈ attributes, e.1.isText = true)
    (hreadable : ∀ name v, get? attributes name = some v → ∃ a, checkAttribute v = .valid a) :
    ∃ checked, checkAttributes attributes = .valid checked := by
  refine checkAttributes_of_valid fun e he => ?_
  obtain ⟨key, v⟩ := e
  cases key with
  | text name => exact ⟨⟨name, rfl⟩, hreadable name v (get?_of_mem hnodup he)⟩
  | _ => cases htexts _ he

/-- **If all that is offered can be read, the settings are loaded, and each of their values is the first that is
offered for it, or its default.** -/
theorem load_follows (hregular : Regular sources file) (hreadable : Readable (offers sources file)) :
    ∃ settings, load sources = .ok settings ∧ Follows (fun path => (offers sources file path).head?) settings := by
  obtain ⟨layers, hlayers, htexts, hleaves⟩ := layers_of_regular hregular hreadable
  have hproper := Sources.proper_layers hregular.proper hlayers
  have hstack (path : List String) (hleaf : Leaf path) : (Tree.stack layers).Open path ∧
      (Tree.stack layers).at? path = (offers sources file path).head? := by
    obtain ⟨hlayer, hfirst⟩ := hleaves path hleaf
    rw [← hfirst]
    exact Tree.stack_at?_of_layers fun layer hmem => ⟨hproper layer hmem, hlayer layer hmem⟩
  -- Each value can be read where it is offered first, so there are settings for the tree to fit.
  obtain ⟨level, hlevel⟩ := exists_given hreadable.level .info
  obtain ⟨json, hjson⟩ := exists_given hreadable.json true
  obtain ⟨service, hservice⟩ := exists_given hreadable.service "cache"
  obtain ⟨environment, henvironment⟩ := exists_given hreadable.environment "dev"
  obtain ⟨url, hurl⟩ := exists_given hreadable.url defaultUrl
  have hattribute (name : String) := hstack (attributePath name) (leaf_iff.2 (by simp))
  obtain ⟨attributes, hwithin⟩ := (Tree.open_append ["secondary_storage", "attributes"]).1 (hattribute "").1
  have hnodup : (Value.names attributes).Nodup := ((Tree.proper_stack hproper).within? hwithin).nodup
  have hkeys : ∀ e ∈ attributes, e.1.isText = true := textAttributes_stack hproper htexts attributes hwithin
  obtain ⟨checked, hchecked⟩ := exists_attributes hnodup hkeys fun name v hv => by
    have hat : (Tree.stack layers).at? (attributePath name) = some v := (Tree.at?_append hwithin).trans hv
    rw [(hattribute name).2] at hat
    exact hreadable.attributes name v (List.mem_of_head? hat)
  have hfits : Fits (Tree.stack layers) ⟨⟨level, json, service, environment⟩, url, checked⟩ := by
    refine ⟨?_, ?_, ?_, ?_, ?_, ?_, attributes, hwithin, hchecked⟩
    · exact (Tree.open_append ["logging"]).1 (hstack ["logging", "level"] (leaf_iff.2 (by simp))).1
    · rwa [(hstack _ (leaf_iff.2 (by simp))).2]
    · rwa [(hstack _ (leaf_iff.2 (by simp))).2]
    · rwa [(hstack _ (leaf_iff.2 (by simp))).2]
    · rwa [(hstack _ (leaf_iff.2 (by simp))).2]
    · rwa [(hstack _ (leaf_iff.2 (by simp))).2]
  refine ⟨_, load_eq_ok.2 ⟨layers, hlayers, check_eq_valid.2 hfits⟩, hlevel, hjson, hservice, henvironment, hurl, ?_⟩
  intro name
  have hrel := attribute_of_stack hproper htexts hfits name
  rwa [attribute?, (hleaves _ (leaf_iff.2 (by simp))).2] at hrel

/-! ### Sources that keep to the forms -/

/-- A level among the arguments and in the file, and values in the environment. -/
def layered : Sources where
  arguments := [(.text "logging", .dict [(.text "level", .text "DEBUG")])]
  environment := [("CACHE_LOGGING__SERVICE", "api"), ("cache_secondary_storage__attributes__a", "1")]
  file := some "logging:\n  level: ERROR\n"

/-- The tree of the file. -/
def layeredFile : Tree := [(.text "logging", .dict [(.text "level", .text "ERROR")])]

/-- The one entry of the one section that a document has. -/
def onlyItem? : Value → Option (String × String × String)
  | .dict [(.text name, .dict [(.text field, .text value)])] => some (name, field, value)
  | _ => none

theorem onlyItem?_eq_some {v : Value} {name field value : String} (h : onlyItem? v = some (name, field, value)) :
    v = .dict [(.text name, .dict [(.text field, .text value)])] := by
  unfold onlyItem? at h
  split at h
  · cases h
    rfl
  · cases h

theorem onlySections_single {sect : Environment.Section} (hsect : sect ∈ sections) (v : Value) :
    onlySections [(.text sect.name, v)] = [(.text sect.name, v)] := by
  have hlogging : Environment.lowered "logging" = "logging" := by decide +kernel
  have hstorage : Environment.lowered "secondary_storage" = "secondary_storage" := by decide +kernel
  simp only [sections, List.mem_cons, List.not_mem_nil, or_false] at hsect
  rcases hsect with rfl | rfl
  · simp [onlySections, sections, namesSection, loggingSection, storageSection, hlogging]
  · simp [onlySections, sections, namesSection, loggingSection, storageSection, hstorage]

theorem onlySections_logging (v : Value) : onlySections [(.text "logging", v)] = [(.text "logging", v)] :=
  onlySections_single (show loggingSection ∈ sections by simp [sections]) v

theorem lowerNames_layered : lowerNames layered.environment =
    [("cache_logging__service", "api"), ("cache_secondary_storage__attributes__a", "1")] := by decide +kernel

theorem holds_layered : Holds layered.file layeredFile := by
  have hread : (Yaml.read "logging:\n  level: ERROR\n").toOption.bind onlyItem? =
      some ("logging", "level", "ERROR") := by decide +kernel
  obtain ⟨root, hroot, hentry⟩ := Option.bind_eq_some_iff.1 hread
  rw [toOption_eq_some] at hroot
  refine ⟨.inr ⟨_, root, rfl, hroot, ?_⟩, ?_⟩
  · rw [onlyItem?_eq_some hentry]
    rfl
  · simp [layeredFile, hasCase, isBytes]

theorem conforms_layered : ∀ sect ∈ sections, Conforms sect (lowerNames layered.environment) := by
  rw [lowerNames_layered]
  simp only [sections, List.forall_mem_cons, List.not_mem_nil, false_imp_iff, implies_true, and_true]
  constructor
  · refine { nodup := by decide, sets := ?_, objects := by simp [loggingSection], alone := by simp [loggingSection],
             whole := ?_ }
    · simp only [List.forall_mem_cons, List.not_mem_nil, false_imp_iff, implies_true, and_true]
      exact ⟨.inr (.inr ⟨_, .field (f := "service") (by decide +kernel)⟩), .inl (by decide +kernel)⟩
    · simp [Environment.variableOf, joined, loggingSection]
  · refine { nodup := by decide, sets := ?_, objects := ?_, alone := ?_, whole := ?_ }
    · simp only [List.forall_mem_cons, List.not_mem_nil, false_imp_iff, implies_true, and_true]
      have hundivided : Environment.Undivided "a" := by
        unfold Environment.Undivided
        decide
      exact ⟨.inl (by decide +kernel),
        .inr (.inr ⟨_, .entry (f := "attributes") (k := "a") (by decide +kernel) (by decide) hundivided⟩)⟩
    · simp [Environment.variableOf, joined, storageSection]
    · simp [Environment.variableOf, joined, storageSection]
    · simp [Environment.variableOf, joined, storageSection]

theorem sectioned_logging (entries : Tree) : Sectioned (onlySections [(.text "logging", .dict entries)]) := by
  rw [onlySections_logging]
  exact ⟨⟨entries, rfl⟩, [], rfl, by simp⟩

theorem regular_layered : Regular layered layeredFile where
  proper := .single (Tree.proper_iff.2 (.single (.plain rfl)))
  options := rfl
  others := by decide +kernel
  arguments := sectioned_logging _
  environment := conforms_layered
  holds := holds_layered
  file := sectioned_logging _

theorem offers_layered (path : List String) : offers layered layeredFile path =
    [Tree.at? [(.text "logging", .dict [(.text "level", .text "DEBUG")])] path,
      nested? [("cache_logging__service", "api"), ("cache_secondary_storage__attributes__a", "1")] path,
      whole? [("cache_logging__service", "api"), ("cache_secondary_storage__attributes__a", "1")] path,
      Tree.at? [(.text "logging", .dict [(.text "level", .text "ERROR")])] path].reduceOption := by
  rw [offers, lowerNames_layered, layered, onlySections_logging, layeredFile, onlySections_logging]

theorem offers_layered_attribute (name : String) :
    offers layered layeredFile (attributePath name) = if name = "a" then [.text "1"] else [] := by
  rw [offers_layered]
  by_cases h : name = "a"
  · subst h
    rfl
  · have hentry : Environment.variableOf ["secondary_storage", "attributes", name] ≠
        "cache_secondary_storage__attributes__a" := fun heq => h (Environment.variableOf_entry_inj.1 heq)
    have hservice : Environment.variableOf ["secondary_storage", "attributes", name] ≠ "cache_logging__service" := by
      intro heq
      simpa [Environment.variableOf, joined, String.toList_append] using congrArg String.toList heq
    have hnested : nested? [("cache_logging__service", "api"), ("cache_secondary_storage__attributes__a", "1")]
        (attributePath name) = none := by
      simp only [nested?, attributePath, List.lookup_cons, beq_eq_false_iff_ne.2 hentry,
        beq_eq_false_iff_ne.2 hservice]
      rfl
    rw [hnested, if_neg h]
    rfl

theorem readable_layered : Readable (offers layered layeredFile) := by
  have hlevel : offers layered layeredFile ["logging", "level"] = [.text "DEBUG", .text "ERROR"] := by
    rw [offers_layered]
    rfl
  have hjson : offers layered layeredFile ["logging", "json_output"] = [] := by
    rw [offers_layered]
    rfl
  have hservice : offers layered layeredFile ["logging", "service"] = [.text "api"] := by
    rw [offers_layered]
    rfl
  have henvironment : offers layered layeredFile ["logging", "environment"] = [] := by
    rw [offers_layered]
    rfl
  have hurl : offers layered layeredFile ["secondary_storage", "url"] = [] := by
    rw [offers_layered]
    rfl
  refine ⟨?_, by simp [hjson], by simp [hservice, Validation.text], by simp [henvironment], by simp [hurl], ?_⟩
  · simp only [hlevel, List.forall_mem_cons, List.not_mem_nil, false_imp_iff, implies_true, and_true]
    exact ⟨⟨.debug, rfl⟩, .error, rfl⟩
  · intro name
    rw [offers_layered_attribute]
    split <;> simp [checkAttribute, Validation.text]

theorem load_follows_layered : ∃ settings, load layered = .ok settings ∧
    Follows (fun path => (offers layered layeredFile path).head?) settings :=
  load_follows regular_layered readable_layered

/-! ### Sources that do not -/

/-- An argument that renames the environment's variables. -/
def renamed : Sources where
  arguments := [(.text "_env_prefix", .text "OTHER_")]
  environment := [("CACHE_LOGGING__LEVEL", "DEBUG")]

/-- A key of the file that is no text. -/
def numbered : Sources where
  file := some "1: x\n"

/-- An object that spells a field twice, the second time in another letter case. -/
def respelled : Sources where
  environment := [("CACHE_LOGGING", "\x7b\"level\":\"INFO\",\"LEVEL\":\"ERROR\"\x7d"),
    ("CACHE_LOGGING__LEVEL", "DEBUG")]

/-- An object with the attributes in another letter case. -/
def replaced : Sources where
  environment := [("CACHE_SECONDARY_STORAGE", "\x7b\"ATTRIBUTES\":\x7b\"a\":1\x7d\x7d"),
    ("CACHE_SECONDARY_STORAGE__ATTRIBUTES__B", "2")]

/-- An attribute whose name stands in the file as a text and as bytes. -/
def encoded : Sources where
  arguments := [(.text "secondary_storage", .dict [(.text "attributes", .dict [(.text "a", .int 3)])])]
  file := some "secondary_storage:\n  attributes: \x7ba: 1, !!binary YQ==: 2\x7d\n"

theorem offers_encoded (file : Tree) : (offers encoded file (attributePath "a")).head? = some (.int 3) := by
  have harguments : onlySections encoded.arguments = encoded.arguments :=
    onlySections_single (show storageSection ∈ sections by simp [sections]) _
  rw [head?_offers, harguments]
  rfl

theorem exists_load {P : Settings → Prop} [DecidablePred P] (h : (load sources).toOption.any P = true) :
    ∃ settings, load sources = .ok settings ∧ P settings := by
  cases hload : load sources with
  | ok settings =>
    rw [hload] at h
    exact ⟨settings, rfl, of_decide_eq_true h⟩
  | error e =>
    rw [hload] at h
    cases h

/-- Where the sources do not keep to the forms, what is offered first can lose: the level of a variable that is not
read, a level to another spelling of it, an attribute to those that replace it, and an attribute among the arguments to
one in the file. And a file of which no section is used can keep settings from being loaded. -/
theorem weaker_value_wins :
    (((offers renamed [] ["logging", "level"]).head?.bind fun v => (readLevel v).toOption) = some .debug ∧
      ∃ settings, load renamed = .ok settings ∧ settings.logging.level = .info) ∧
    (((offers respelled [] ["logging", "level"]).head?.bind fun v => (readLevel v).toOption) = some .debug ∧
      ∃ settings, load respelled = .ok settings ∧ settings.logging.level = .error) ∧
    ((offers replaced [] (attributePath "a")).head?.bind (·.asInt?) = some 1 ∧
      ∃ settings, load replaced = .ok settings ∧ settings.storage.attributes.lookup "a" = none) ∧
    (∀ file, (offers encoded file (attributePath "a")).head? = some (.int 3) ∧
      ∃ settings, load encoded = .ok settings ∧
        (settings.storage.attributes.lookup "a").bind (·.asInt?) = some 2) ∧
    ∀ settings, load numbered ≠ .ok settings := by
  refine ⟨⟨?_, exists_load ?_⟩, ⟨?_, exists_load ?_⟩, ⟨?_, exists_load ?_⟩,
    fun file => ⟨offers_encoded file, exists_load ?_⟩, ?_⟩
  · decide +kernel
  · decide +kernel
  · decide +kernel
  · decide +kernel
  · decide +kernel
  · decide +kernel
  · decide +kernel
  · intro settings hload
    have hnone : (load numbered).toOption.isNone = true := by decide +kernel
    rw [hload] at hnone
    cases hnone

end Settings
end RemoteCache
