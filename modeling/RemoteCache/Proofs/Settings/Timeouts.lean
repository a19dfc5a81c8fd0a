import RemoteCache.Proofs.Settings.Layers

/-!
# The timeouts of a configured store

A timeout has two attribute names. The cascade merges attributes name by name, and only then does the name with
hyphens shadow the one with underscores. So **a timeout is the one with hyphens of the first layer that has it, and
only if there is none, the one with underscores of the first layer that has that** (`timeouts_of_sources`). A weaker
layer can win over a stronger one in this way (`weaker_timeout_wins`).

The first layer that has either name counts as long as the names are not mixed: no layer has the name with hyphens
below the first layer that has any of the two, if that one has the name with underscores alone (`Unmixed`).
-/

namespace RemoteCache

open Validation

def Value.isText : Value → Bool
  | .text _ => true
  | _ => false

theorem Value.eq_text_of_isText {v : Value} {name : String} (h : v.isText = true)
    (hread : Validation.text v = .ok name) : v = .text name := by
  cases v with
  | text s =>
    cases hread
    rfl
  | _ => cases h

namespace BackendSettings

/-- A timeout is read from under its first name, or else from under the other one. -/
theorem timeout_eq_valid {attributes : Attributes} {name other : String} {default n : Nat} :
    timeout attributes name other default = .valid n ↔
      Given readTimeout default ((attributes.lookup name).or (attributes.lookup other)) n := by
  unfold timeout
  cases h : attributes.lookup name with
  | none => simp [Checked.optional_eq_valid]
  | some v => simp [Checked.optional_eq_valid, h]

theorem timeouts_of_ofAttributes {attributes : Attributes} {s : BackendSettings}
    (h : ofAttributes attributes = .valid s) :
    Given readTimeout defaultConnectTimeoutMs
      ((attributes.lookup "connect-timeout").or (attributes.lookup "connect_timeout_ms")) s.connectTimeoutMs ∧
    Given readTimeout defaultOperationTimeoutMs
      ((attributes.lookup "operation-timeout").or (attributes.lookup "operation_timeout_ms")) s.operationTimeoutMs := by
  simp only [ofAttributes, Checked.sorted_eq_valid, Checked.also_eq_valid, timeout_eq_valid] at h
  obtain ⟨_, password, ⟨_, username, ⟨_, operation, ⟨_, connect, ⟨⟩, hconnect, rfl⟩, hoperation, rfl⟩, -, rfl⟩, -,
    rfl⟩ := h
  exact ⟨hconnect, hoperation⟩

end BackendSettings

/-- The settings of a store's session are read from the attributes. -/
theorem Storage.settings_of_ofSettings {settings : Settings} {session : Session}
    (h : Storage.ofSettings settings = .ok session) :
    BackendSettings.ofAttributes settings.storage.attributes = .valid session.settings := by
  unfold ofSettings build at h
  split at h
  · cases h
  · dsimp only at h
    split at h
    · unfold ofUrl at h
      split at h
      · cases h
      · split at h
        · cases h
        · rename_i b hb
          cases h
          exact hb
    · cases h

namespace Settings

open BackendSettings Results

/-! ## Attributes in layers -/

/-- Where an attribute stands in the tree of a source. -/
def attributePath (name : String) : List String := ["secondary_storage", "attributes", name]

/-- All keys of the attributes are texts. -/
def TextAttributes (t : Tree) : Prop :=
  ∀ entries ∈ t.within? ["secondary_storage", "attributes"], ∀ e ∈ entries, e.1.isText = true

instance (t : Tree) : Decidable (TextAttributes t) := inferInstanceAs
  (Decidable (∀ entries ∈ t.within? ["secondary_storage", "attributes"], ∀ e ∈ entries, e.1.isText = true))

/-- The value of an attribute in the first layer that has it. -/
def attribute? (layers : List Tree) (name : String) : Option Value := layers.findSome? (·.at? (attributePath name))

/-- The attribute of the first layer that has it under one of two names; the first name shadows the other one in the
same layer. -/
def cascaded? (layers : List Tree) (name other : String) : Option Value :=
  layers.findSome? fun t => (t.at? (attributePath name)).or (t.at? (attributePath other))

/-- If the first layer that has an attribute under one of two names has it under the other name alone, then no layer
below has it under the first name. -/
def Unmixed (name other : String) : List Tree → Prop
  | [] => True
  | t :: below => match t.at? (attributePath name), t.at? (attributePath other) with
    | some _, _ => True
    | none, some _ => ∀ layer ∈ below, layer.at? (attributePath name) = none
    | none, none => Unmixed name other below

/-- Where names are not mixed, shadowing after the cascade is the same as shadowing in each layer. -/
theorem cascaded?_of_unmixed {layers : List Tree} {name other : String} (h : Unmixed name other layers) :
    (attribute? layers name).or (attribute? layers other) = cascaded? layers name other := by
  induction layers with
  | nil => rfl
  | cons t below ih =>
    simp only [attribute?, cascaded?, List.findSome?_cons]
    unfold Unmixed at h
    cases hname : t.at? (attributePath name) with
    | some v => simp
    | none =>
      cases hother : t.at? (attributePath other) with
      | some v =>
        simp only [hname, hother] at h
        have hbelow : below.findSome? (·.at? (attributePath name)) = none := List.findSome?_eq_none_iff.2 h
        simp [hbelow]
      | none =>
        simp only [hname, hother] at h
        exact ih h

theorem textAttributes_stack {layers : List Tree} (hproper : ∀ layer ∈ layers, layer.Proper)
    (htexts : ∀ layer ∈ layers, TextAttributes layer) : TextAttributes (Tree.stack layers) := by
  intro entries hentries e he
  obtain ⟨layer, hlayer, es, hes, hmem⟩ := Tree.mem_keys_stack hproper hentries (List.mem_map_of_mem he)
  obtain ⟨e', he', heq⟩ := List.mem_map.1 hmem
  exact heq ▸ htexts layer hlayer es hes e' he'

/-- Attributes that are loaded are those of the first layers that have them. -/
theorem attribute_of_stack {layers : List Tree} {settings : Settings} (hproper : ∀ layer ∈ layers, layer.Proper)
    (htexts : ∀ layer ∈ layers, TextAttributes layer) (hfits : Fits (Tree.stack layers) settings) (name : String) :
    Option.Rel (fun v a => checkAttribute v = .valid a) (attribute? layers name)
      (settings.storage.attributes.lookup name) := by
  obtain ⟨entries, hentries, hvalid⟩ := hfits.attributes
  have hnodup : (Value.names entries).Nodup := ((Tree.proper_stack hproper).within? hentries).nodup
  have hplain : ∀ e ∈ entries, Validation.text e.1 = .ok name → e.1 = .text name := by
    exact fun e he => Value.eq_text_of_isText (textAttributes_stack hproper htexts entries hentries e he)
  have hattribute := attribute_of_checkAttributes hvalid hnodup hplain
  have hat : (Tree.stack layers).at? (attributePath name) = Value.get? entries name := Tree.at?_append hentries
  have hopen : (Tree.stack layers).Open (attributePath name) := (Tree.open_append _).2 ⟨entries, hentries⟩
  have hleaf : (Tree.stack layers).Plain (attributePath name) := by
    intro es hes
    rw [hat] at hes
    rw [hes] at hattribute
    generalize settings.storage.attributes.lookup name = a at hattribute
    cases hattribute with
    | some h => cases h
  rw [attribute?, ← Tree.stack_at? hproper hopen hleaf, hat]
  exact hattribute

/-- The check of attributes does not change the timeout that is read from them. -/
theorem given_of_rel {v v' a a' : Option Value} {default n : Nat}
    (h : Option.Rel (fun v a => checkAttribute v = .valid a) v a)
    (h' : Option.Rel (fun v a => checkAttribute v = .valid a) v' a') (hgiven : Given readTimeout default (a.or a') n) :
    Given readTimeout default (v.or v') n := by
  have hread {v a : Value} (h : checkAttribute v = .valid a) (hgiven : Given readTimeout default (some a) n) :
      Given readTimeout default (some v) n := by
    cases hgiven with
    | read hread =>
      refine .read ?_
      unfold readTimeout at hread ⊢
      rwa [← integer_of_checkAttribute h]
  cases h with
  | some h => exact hread h hgiven
  | none =>
    cases h' with
    | some h' => exact hread h' hgiven
    | none => exact hgiven

/-- **The timeouts of a store that is built from sources.** If the attributes' names are texts, then a timeout is that
of the first layer that has it under the name with hyphens, or else of the first layer that has it under the name with
underscores, or else the default. If the names are not mixed, it is that of the first layer that has it under either
name. -/
theorem timeouts_of_sources {sources : Sources} {settings : Settings} {session : Session}
    (harguments : sources.arguments.Proper) (hload : load sources = .ok settings)
    (hbuild : Storage.ofSettings settings = .ok session) :
    ∃ layers, sources.layers? = .ok layers ∧ ((∀ layer ∈ layers, TextAttributes layer) →
      Given readTimeout 100 ((attribute? layers "connect-timeout").or (attribute? layers "connect_timeout_ms"))
        session.settings.connectTimeoutMs ∧
      (Unmixed "connect-timeout" "connect_timeout_ms" layers →
        Given readTimeout 100 (cascaded? layers "connect-timeout" "connect_timeout_ms")
          session.settings.connectTimeoutMs) ∧
      Given readTimeout 10000 ((attribute? layers "operation-timeout").or (attribute? layers "operation_timeout_ms"))
        session.settings.operationTimeoutMs ∧
      (Unmixed "operation-timeout" "operation_timeout_ms" layers →
        Given readTimeout 10000 (cascaded? layers "operation-timeout" "operation_timeout_ms")
          session.settings.operationTimeoutMs)) := by
  obtain ⟨layers, hlayers, hcheck⟩ := load_eq_ok.1 hload
  refine ⟨layers, hlayers, fun htexts => ?_⟩
  have hattribute := attribute_of_stack (Sources.proper_layers harguments hlayers) htexts (check_eq_valid.1 hcheck)
  obtain ⟨hconnect, hoperation⟩ := timeouts_of_ofAttributes (Storage.settings_of_ofSettings hbuild)
  have hconnect' := given_of_rel (hattribute _) (hattribute _) hconnect
  have hoperation' := given_of_rel (hattribute _) (hattribute _) hoperation
  refine ⟨hconnect', ?_, hoperation', ?_⟩
  · intro hunmixed
    rw [← cascaded?_of_unmixed hunmixed]
    exact hconnect'
  · intro hunmixed
    rw [← cascaded?_of_unmixed hunmixed]
    exact hoperation'

/-- One timeout, with underscores among the arguments and with hyphens in the file. -/
def crossed : Sources where
  arguments := [(.text "secondary_storage",
    .dict [(.text "attributes", .dict [(.text "connect_timeout_ms", .int 50)])])]
  file := some "secondary_storage:\n  attributes:\n    connect-timeout: 25\n"

theorem proper_crossed : crossed.arguments.Proper :=
  .single (Tree.proper_iff.2 (.single (Tree.proper_iff.2 (.single (.plain rfl)))))

theorem load_crossed : ∃ settings session layers, load crossed = .ok settings ∧
    Storage.ofSettings settings = .ok session ∧ session.settings.connectTimeoutMs = 25 ∧
    crossed.layers? = .ok layers ∧ (∀ layer ∈ layers, TextAttributes layer) ∧
    ∃ v, cascaded? layers "connect-timeout" "connect_timeout_ms" = some v ∧ readTimeout v = .ok 50 := by
  have hloads : ((load crossed).toOption.bind fun settings => (Storage.ofSettings settings).toOption.map fun session =>
      session.settings.connectTimeoutMs) = some 25 := by decide +kernel
  have hlayers : (crossed.layers?.toOption.bind fun layers => if ∀ layer ∈ layers, TextAttributes layer then
      (cascaded? layers "connect-timeout" "connect_timeout_ms").bind fun v => (readTimeout v).toOption else none) =
      some 50 := by decide +kernel
  simp only [Option.bind_eq_some_iff, Option.map_eq_some_iff, toOption_eq_some] at hloads hlayers
  obtain ⟨settings, hload, session, hbuild, hms⟩ := hloads
  obtain ⟨layers, hlayers, hcascaded⟩ := hlayers
  split at hcascaded
  · rename_i htexts
    simp only [Option.bind_eq_some_iff, toOption_eq_some] at hcascaded
    exact ⟨settings, session, layers, hload, hbuild, hms, hlayers, htexts, hcascaded⟩
  · cases hcascaded

/-- The name with hyphens counts, although it is in the weaker layer. -/
theorem timeouts_of_sources_crossed : ∃ settings session layers, load crossed = .ok settings ∧
    Storage.ofSettings settings = .ok session ∧ crossed.layers? = .ok layers ∧
    Given readTimeout 100 ((attribute? layers "connect-timeout").or (attribute? layers "connect_timeout_ms"))
      session.settings.connectTimeoutMs := by
  obtain ⟨settings, session, layers, hload, hbuild, -, hlayers, htexts, -⟩ := load_crossed
  obtain ⟨layers', hlayers', htimeouts⟩ := timeouts_of_sources proper_crossed hload hbuild
  cases hlayers.symm.trans hlayers'
  exact ⟨settings, session, layers, hload, hbuild, hlayers, (htimeouts htexts).1⟩

/-- A timeout in the file wins over one among the arguments if they go by different names. -/
theorem weaker_timeout_wins : ∃ settings session layers, load crossed = .ok settings ∧
    Storage.ofSettings settings = .ok session ∧ crossed.layers? = .ok layers ∧
    ¬ Given readTimeout 100 (cascaded? layers "connect-timeout" "connect_timeout_ms")
      session.settings.connectTimeoutMs := by
  obtain ⟨settings, session, layers, hload, hbuild, hms, hlayers, -, v, hv, hread⟩ := load_crossed
  refine ⟨settings, session, layers, hload, hbuild, hlayers, ?_⟩
  intro hgiven
  rw [hv, hms] at hgiven
  cases hgiven with
  | read hread' => cases hread.symm.trans hread'

end Settings
end RemoteCache
