import RemoteCache.Proofs.BackendSettings
import RemoteCache.Proofs.Number.Decimals
import RemoteCache.Proofs.Settings.Cascade
import RemoteCache.Proofs.Yaml.Integers

/-!
# Timeouts as texts and as integers

A variable of the environment gives a timeout as a text, and a file gives it as an integer. Both are the same store in
the end, with this timeout or refused for it, whatever decimal text the variable has (`decimal_timeout`).
-/

namespace RemoteCache

open Results Validation Value

namespace BackendSettings

variable {d : Decimal} {name : String}

/-! ## Attributes -/

/-- A decimal text is read as the timeout that its integer is. -/
theorem readTimeout_decimal (hlength : d.chars.length ≤ Digits.limit) :
    readTimeout (.text d.text) = readTimeout (.int d.value) := by
  have hinteger : Validation.integer (.text d.text) = Validation.integer (.int d.value) := by
    show integerOfText d.text.toList = .ok d.value
    rw [Decimal.text, String.toList_ofList, integerOfText_decimal hlength]
  rw [readTimeout, hinteger, readTimeout]

theorem ne_of_timeoutNames {other : String} (hname : name ∈ timeoutNames) (hother : other ∈ ["username", "password"]) :
    other ≠ name := by
  have hapart : ∀ name ∈ timeoutNames, name ∉ ["username", "password"] := by decide +kernel
  rintro rfl
  exact hapart other hname hother

/-- Attributes that differ in how one timeout is given. -/
theorem ofAttributes_cons {v w : Value} (hname : name ∈ timeoutNames) (h : readTimeout v = readTimeout w)
    (rest : Attributes) : ofAttributes ((name, v) :: rest) = ofAttributes ((name, w) :: rest) := by
  refine ofAttributes_of_readings (fun other _ => ?_) fun other hother => ?_
  · rw [Entries.lookup_cons, Entries.lookup_cons]
    split
    · exact congrArg some h
    · rfl
  · have hne := ne_of_timeoutNames hname hother
    rw [Entries.lookup_cons, Entries.lookup_cons, if_neg hne, if_neg hne]

end BackendSettings

theorem Storage.build_congr {a b : Attributes} (h : BackendSettings.ofAttributes b = BackendSettings.ofAttributes a)
    (url : String) : Storage.build url b = Storage.build url a := by
  simp only [Storage.build, Storage.ofUrl, h]

namespace Settings

open BackendSettings
open Environment (Conforms Leaf Sets Undivided lowerNames lowered nested? variableOf whole?)

variable {name varName text : String} {n : Int} {path : List String}

/-! ## Sources that differ in how a timeout is given -/

theorem given_unique {α : Type} {read : Value → Except Fault α} {default a b : α} {v : Option Value}
    (ha : Given read default v a) (hb : Given read default v b) : a = b := by
  cases ha with
  | default =>
    cases hb
    rfl
  | read ha =>
    cases hb with
    | read hb => exact Except.ok.inj (ha.symm.trans hb)

theorem checked_unique {v a b : Option Value} (ha : Option.Rel (fun v a => checkAttribute v = .valid a) v a)
    (hb : Option.Rel (fun v a => checkAttribute v = .valid a) v b) : a = b := by
  cases ha with
  | none =>
    cases hb
    rfl
  | some ha =>
    cases hb with
    | some hb => exact congrArg some (Checked.valid.inj (ha.symm.trans hb))

theorem readTimeout_of_checked {v a : Option Value} (h : Option.Rel (fun v a => checkAttribute v = .valid a) v a) :
    a.map readTimeout = v.map readTimeout := by
  cases h with
  | none => rfl
  | some h => rw [Option.map_some, Option.map_some, readTimeout, integer_of_checkAttribute h, readTimeout]

/-- The store is that of attributes which are read as those that are supplied. -/
theorem ofSettings_of_follows {supplied : List String → Option Value} {settings : Settings} {url : String}
    {attributes : Attributes} (hfollows : Follows supplied settings)
    (hurl : Given Validation.text defaultUrl (supplied ["secondary_storage", "url"]) url)
    (htimeouts : ∀ name ∈ timeoutNames,
      (attributes.lookup name).map readTimeout = (supplied (attributePath name)).map readTimeout)
    (hothers : ∀ name ∈ ["username", "password"],
      Option.Rel (fun v a => checkAttribute v = .valid a) (supplied (attributePath name)) (attributes.lookup name)) :
    Storage.ofSettings settings = Storage.build url attributes := by
  rw [Storage.ofSettings, given_unique hfollows.url hurl]
  refine Storage.build_congr (ofAttributes_of_readings (fun name hname => ?_) fun name hname => ?_) url
  · rw [readTimeout_of_checked (hfollows.attributes name), htimeouts name hname]
  · exact checked_unique (hfollows.attributes name) (hothers name hname)

/-- For a store, the same is offered except for a timeout, which is given in two ways. -/
structure Differ (offered offered' : List String → List Value) (name : String) (v v' : Value) : Prop where
  given : (offered (attributePath name)).head? = some v
  given' : (offered' (attributePath name)).head? = some v'
  url : (offered ["secondary_storage", "url"]).head? = (offered' ["secondary_storage", "url"]).head?
  attributes : ∀ other ≠ name, (offered (attributePath other)).head? = (offered' (attributePath other)).head?

/-- Two ways to give a timeout that are read as the same make the same store. -/
theorem same_store {sources sources' : Sources} {file file' : Tree} {v v' : Value} (hregular : Regular sources file)
    (hreadable : Readable (offers sources file)) (hregular' : Regular sources' file')
    (hreadable' : Readable (offers sources' file')) (hname : name ∈ timeoutNames)
    (hdiffer : Differ (offers sources file) (offers sources' file') name v v')
    (hread : readTimeout v = readTimeout v') :
    ∃ settings settings', load sources = .ok settings ∧ load sources' = .ok settings' ∧
      Storage.ofSettings settings = Storage.ofSettings settings' := by
  obtain ⟨settings, hload, hfollows⟩ := load_follows hregular hreadable
  obtain ⟨settings', hload', hfollows'⟩ := load_follows hregular' hreadable'
  refine ⟨settings, settings', hload, hload',
    ofSettings_of_follows hfollows ?_ (fun other _ => ?_) fun other hother => ?_⟩
  · rw [hdiffer.url]
    exact hfollows'.url
  · rw [readTimeout_of_checked (hfollows'.attributes other)]
    by_cases h : other = name
    · rw [h, hdiffer.given, hdiffer.given', Option.map_some, Option.map_some, hread]
    · rw [hdiffer.attributes other h]
  · have hne := ne_of_timeoutNames hname hother
    rw [hdiffer.attributes other hne]
    exact hfollows'.attributes other

/-- An attribute and nothing else is offered. -/
def OffersOnly (offered : List String → List Value) (name : String) (v : Value) : Prop :=
  ∀ path, Leaf path → offered path = if path = attributePath name then [v] else []

theorem OffersOnly.readable {offered : List String → List Value} {v : Value} (h : OffersOnly offered name v)
    (hv : ∃ a, checkAttribute v = .valid a) : Readable offered := by
  have hnone {path : List String} (hleaf : Leaf path) (hne : path ≠ attributePath name) {P : Value → Prop} :
      ∀ v ∈ offered path, P v := by
    rw [h path hleaf, if_neg hne]
    exact List.forall_mem_nil P
  constructor
  case attributes =>
    intro other w hw
    rw [h _ (leaf_iff.2 (by simp))] at hw
    split at hw
    · rwa [List.mem_singleton.1 hw]
    · cases hw
  all_goals exact hnone (leaf_iff.2 (by simp)) (by simp [attributePath])

/-- Settings of which nothing but a timeout is given. -/
theorem load_only {sources : Sources} {file : Tree} {v : Value} (hregular : Regular sources file)
    (honly : OffersOnly (offers sources file) name v) (hv : ∃ a, checkAttribute v = .valid a)
    (hname : name ∈ timeoutNames) :
    ∃ settings, load sources = .ok settings ∧ Storage.ofSettings settings = Storage.build defaultUrl [(name, v)] := by
  obtain ⟨settings, hload, hfollows⟩ := load_follows hregular (honly.readable hv)
  have hurl : offers sources file ["secondary_storage", "url"] = [] := by
    rw [honly _ (leaf_iff.2 (by simp)), if_neg (by simp [attributePath])]
  have hattribute (other : String) :
      (offers sources file (attributePath other)).head? = List.lookup other [(name, v)] := by
    rw [honly _ (leaf_iff.2 (by simp)), Entries.lookup_cons]
    by_cases h : other = name <;> simp [h, attributePath]
  refine ⟨settings, hload, ofSettings_of_follows hfollows ?_ (fun other _ => ?_) fun other hother => ?_⟩
  · rw [hurl]
    exact .default
  · rw [hattribute]
  · have hne := ne_of_timeoutNames hname hother
    rw [hattribute, Entries.lookup_cons, if_neg hne]
    exact .none

/-! ## A variable alone -/

/-- Sources with nothing but a variable. -/
def inVariable (varName text : String) : Sources where
  environment := [(varName, text)]

theorem undivided_of_mem : ∀ name ∈ timeoutNames, name ≠ "" ∧ Undivided name := by
  unfold Undivided
  decide +kernel

theorem pathOf?_logging : ∀ name ∈ timeoutNames,
    Environment.pathOf? {} loggingSection (variableOf (attributePath name)) = none := by
  decide +kernel

/-- The variable of an attribute is no section's own, nor that of a field. -/
theorem variableOf_attribute_ne (name : String) {sect : Environment.Section} (hsect : sect ∈ sections) :
    variableOf [sect.name] ≠ variableOf (attributePath name) ∧
      ∀ f ∈ sect.fields, variableOf [sect.name, f] ≠ variableOf (attributePath name) := by
  simp only [sections, List.mem_cons, List.not_mem_nil, or_false] at hsect
  rcases hsect with rfl | rfl
  · simp [loggingSection, variableOf, attributePath, joined, ← String.toList_inj, String.toList_append]
  · simp only [storageSection, List.forall_mem_cons]
    simp [variableOf, attributePath, joined, ← String.toList_inj, String.toList_append]

theorem conforms_inVariable (hname : name ∈ timeoutNames) :
    ∀ sect ∈ sections, Conforms sect [(variableOf (attributePath name), text)] := by
  intro sect hsect
  obtain ⟨hwhole, hfields⟩ := variableOf_attribute_ne name hsect
  refine { nodup := by simp, sets := ?_, objects := ?_, alone := ?_, whole := ?_ }
  · rw [List.forall_mem_singleton]
    simp only [sections, List.mem_cons, List.not_mem_nil, or_false] at hsect
    rcases hsect with rfl | rfl
    · exact .inl (pathOf?_logging name hname)
    · obtain ⟨hne, hundivided⟩ := undivided_of_mem name hname
      exact .inr (.inr ⟨_, Sets.entry (by simp [storageSection]) hne hundivided⟩)
  · intro f hf value hmem
    exact absurd (congrArg Prod.fst (List.mem_singleton.1 hmem)) (hfields f (Environment.fields_of_jsonField hsect hf))
  · intro f hf k value value' hmem
    exact absurd (congrArg Prod.fst (List.mem_singleton.1 hmem)) (hfields f (Environment.fields_of_jsonField hsect hf))
  · intro value hmem
    exact absurd (congrArg Prod.fst (List.mem_singleton.1 hmem)) hwhole

theorem regular_inVariable (hname : name ∈ timeoutNames) (hvar : lowered varName = variableOf (attributePath name)) :
    Regular (inVariable varName text) [] where
  proper := .nil
  options := rfl
  others _ _ := rfl
  arguments := ⟨⟨[], rfl⟩, [], rfl, by simp⟩
  environment := by
    rw [inVariable, lowerNames, List.map_singleton, hvar]
    exact conforms_inVariable hname
  holds := ⟨.inl ⟨rfl, rfl⟩, by simp⟩
  file := ⟨⟨[], rfl⟩, [], rfl, by simp⟩

theorem offers_inVariable (hvar : lowered varName = variableOf (attributePath name)) :
    OffersOnly (offers (inVariable varName text) []) name (.text text) := by
  intro path hleaf
  have hvars : lowerNames (inVariable varName text).environment = [(variableOf (attributePath name), text)] := by
    rw [inVariable, lowerNames, List.map_singleton, hvar]
  have harguments : (onlySections (inVariable varName text).arguments).at? path = none := Tree.at?_nil path
  have hfile : (onlySections []).at? path = none := Tree.at?_nil path
  have hnone {path : List String} (h : variableOf path ≠ variableOf (attributePath name)) :
      List.lookup (variableOf path) [(variableOf (attributePath name), text)] = none := by
    rw [List.lookup_cons, beq_eq_false_iff_ne.2 h]
    rfl
  rw [offers, hvars, harguments, hfile]
  cases hleaf with
  | @field sect f hsect hf hjson =>
    obtain ⟨hwhole, hfields⟩ := variableOf_attribute_ne name hsect
    simp only [nested?, whole?, hnone hwhole, hnone (hfields f hf), Option.map_none, Option.bind_none]
    simp [List.reduceOption, attributePath]
  | @entry sect f other hsect hf =>
    obtain ⟨hwhole, hfields⟩ := variableOf_attribute_ne name hsect
    have hobject := hnone (hfields f (Environment.fields_of_jsonField hsect hf))
    obtain ⟨rfl, rfl⟩ := Environment.eq_of_jsonField hsect hf
    have hentry : List.lookup (variableOf [storageSection.name, "attributes", other])
        [(variableOf (attributePath name), text)] = if other = name then some text else none := by
      by_cases h : other = name
      · rw [if_pos h, h]
        exact List.lookup_cons_self
      · rw [if_neg h]
        exact hnone fun heq => h (Environment.variableOf_entry_inj.1 heq)
    simp only [nested?, whole?, hnone hwhole, hobject, hentry, Option.bind_none, Option.or_none]
    by_cases h : other = name <;> simp [List.reduceOption, attributePath, storageSection, h]

/-! ## A file alone -/

/-- Sources with nothing but a file, which has an integer for an attribute. -/
def inFile (name : String) (n : Int) : Sources where
  file := some ("secondary_storage:\n  attributes:\n    " ++ name ++ ": " ++ toString n ++ "\n")

/-- The tree of this file. -/
def fileTree (name : String) (n : Int) : Tree :=
  [(.text "secondary_storage", .dict [(.text "attributes", .dict [(.text name, .int n)])])]

/-- The names are ordinary keys of a document. -/
theorem isTextKey_of_mem : ∀ name ∈ "secondary_storage" :: "attributes" :: timeoutNames,
    Yaml.IsTextKey name.toList := by
  decide +kernel

theorem read_inFile (hname : name ∈ timeoutNames) (hlength : (Digits.digitsOf n.natAbs).length ≤ Digits.limit) :
    ∃ content, (inFile name n).file = some content ∧ Yaml.read content = .ok (.dict (fileTree name n)) := by
  refine ⟨_, rfl, ?_⟩
  have hread := Yaml.read_integer (isTextKey_of_mem "secondary_storage" (by simp))
    (isTextKey_of_mem "attributes" (by simp)) (isTextKey_of_mem name (by simp [hname])) hlength
  have hcontent : String.ofList
        (Yaml.nested "secondary_storage".toList "attributes".toList name.toList (toString n).toList) =
      "secondary_storage:\n  attributes:\n    " ++ name ++ ": " ++ toString n ++ "\n" := by
    rw [← String.toList_inj]
    simp [Yaml.nested, String.toList_append]
  rw [hcontent] at hread
  simpa [fileTree] using hread

theorem holds_inFile (hname : name ∈ timeoutNames) (hlength : (Digits.digitsOf n.natAbs).length ≤ Digits.limit) :
    Holds (inFile name n).file (fileTree name n) := by
  obtain ⟨content, hfile, hread⟩ := read_inFile hname hlength
  exact ⟨.inr ⟨content, _, hfile, hread, rfl⟩, by simp [fileTree, hasCase, isBytes]⟩

theorem onlySections_fileTree (name : String) (n : Int) : onlySections (fileTree name n) = fileTree name n :=
  onlySections_single (show storageSection ∈ sections by simp [sections]) _

theorem regular_inFile (hname : name ∈ timeoutNames) (hlength : (Digits.digitsOf n.natAbs).length ≤ Digits.limit) :
    Regular (inFile name n) (fileTree name n) where
  proper := .nil
  options := rfl
  others _ _ := rfl
  arguments := ⟨⟨[], rfl⟩, [], rfl, by simp⟩
  environment _ _ := {
    nodup := by simp [inFile, lowerNames]
    sets := by simp [inFile, lowerNames]
    objects := by simp [inFile, lowerNames]
    alone := by simp [inFile, lowerNames]
    whole := by simp [inFile, lowerNames] }
  holds := holds_inFile hname hlength
  file := by
    rw [onlySections_fileTree]
    exact ⟨⟨[], rfl⟩, [(.text name, .int n)], rfl, by simp [Value.isText]⟩

theorem offers_inFile (name : String) (n : Int) :
    OffersOnly (offers (inFile name n) (fileTree name n)) name (.int n) := by
  intro path hleaf
  have harguments : (onlySections (inFile name n).arguments).at? path = none := Tree.at?_nil path
  rw [offers, harguments, onlySections_fileTree]
  rcases leaf_iff.1 hleaf with rfl | rfl | rfl | rfl | rfl | ⟨other, rfl⟩
  · rfl
  · rfl
  · rfl
  · rfl
  · rfl
  · have hat : (fileTree name n).at? (attributePath other) = if name = other then some (.int n) else none := by
      show get? [(.text name, .int n)] other = _
      rw [get?_cons]
      simp [sameKey]
    have hnested : nested? (lowerNames (inFile name n).environment) (attributePath other) = none := rfl
    have hwhole : whole? (lowerNames (inFile name n).environment) (attributePath other) = none := rfl
    rw [hat, hnested, hwhole]
    by_cases h : other = name
    · subst h
      simp [List.reduceOption]
    · simp [List.reduceOption, attributePath, h, Ne.symm h]

/-! ## Decimal texts -/

theorem length_digitsOf_value (d : Decimal) : (Digits.digitsOf d.value.natAbs).length ≤ d.chars.length := by
  have hvalue : d.value.natAbs = Digits.natOf (Digits.ungroup d.digits) := by
    cases h : d.isNegative <;> simp [Decimal.value, Digits.signed, h]
  have hdigits := Digits.length_digitsOf_natOf d.grouped.ungroup_ne_nil d.grouped.isDigit_of_mem_ungroup
  have hungroup := length_ungroup d.digits
  have hchars := d.length_le_chars
  rw [hvalue]
  omega

/-- **A timeout means the same as a decimal text and as an integer**: among attributes, in a variable and in a file, and
wherever it comes from while everything else that is offered stays the same. -/
theorem decimal_timeout (d : Decimal) (hlength : d.chars.length ≤ 4300) (hname : name ∈ timeoutNames)
    (hvar : lowered varName = variableOf (attributePath name)) :
    (∀ rest, ofAttributes ((name, .text d.text) :: rest) = ofAttributes ((name, .int d.value) :: rest)) ∧
    (∃ settings settings', load (inVariable varName d.text) = .ok settings ∧
      load (inFile name d.value) = .ok settings' ∧ Storage.ofSettings settings = Storage.ofSettings settings') ∧
    ∀ (sources sources' : Sources) (file file' : Tree), Regular sources file → Readable (offers sources file) →
      Regular sources' file' → Readable (offers sources' file') →
      Differ (offers sources file) (offers sources' file') name (.text d.text) (.int d.value) →
      ∃ settings settings', load sources = .ok settings ∧ load sources' = .ok settings' ∧
        Storage.ofSettings settings = Storage.ofSettings settings' := by
  have hread := readTimeout_decimal hlength
  have hdigits := length_digitsOf_value d
  obtain ⟨settings, hload, hstore⟩ := load_only (regular_inVariable hname hvar) (offers_inVariable hvar)
    (v := .text d.text) ⟨_, rfl⟩ hname
  obtain ⟨settings', hload', hstore'⟩ := load_only (regular_inFile hname (hdigits.trans hlength))
    (offers_inFile name d.value) ⟨_, rfl⟩ hname
  refine ⟨ofAttributes_cons hname hread, ⟨settings, settings', hload, hload', ?_⟩,
    fun _ _ _ _ hregular hreadable hregular' hreadable' hdiffer =>
      same_store hregular hreadable hregular' hreadable' hname hdiffer hread⟩
  rw [hstore, hstore', Storage.build_congr (ofAttributes_cons hname hread [])]

/-- Fifty, with everything that a decimal text can have. -/
def spelledFifty : Decimal where
  before := [' ']
  sign := ['+']
  digits := ['0', '_', '0', '5', '0']
  fraction := ['.', '0', '0']
  after := ['\n']
  blank_before := List.all_eq_true.1 (by decide)
  sign_eq := by decide
  grouped := .gap rfl (.next rfl (.next rfl (.last rfl)))
  isFraction := .inr ⟨1, rfl⟩
  blank_after := List.all_eq_true.1 (by decide)

/-- A negative number with zeros in front. -/
def paddedMinusFive : Decimal where
  before := []
  sign := ['-']
  digits := ['0', '_', '0', '5']
  fraction := []
  after := []
  blank_before := List.all_eq_true.1 (by decide)
  sign_eq := by decide
  grouped := .gap rfl (.next rfl (.last rfl))
  isFraction := .inl rfl
  blank_after := List.all_eq_true.1 (by decide)

/-- Fifty in an upper case variable, and a negative number with zeros in front, which is refused as the integer is. -/
theorem decimal_timeout_spelled :
    (∃ settings settings', load (inVariable "CACHE_SECONDARY_STORAGE__ATTRIBUTES__CONNECT-TIMEOUT" " +0_050.00\n") =
        .ok settings ∧ load (inFile "connect-timeout" 50) = .ok settings' ∧
      Storage.ofSettings settings = Storage.ofSettings settings') ∧
    ofAttributes [("operation-timeout", .text "-0_05")] = ofAttributes [("operation-timeout", .int (-5))] ∧
    ∃ settings settings', load (inVariable "cache_secondary_storage__attributes__operation-timeout" "-0_05") =
        .ok settings ∧ load (inFile "operation-timeout" (-5)) = .ok settings' ∧
      Storage.ofSettings settings = Storage.ofSettings settings' := by
  have hfifty : spelledFifty.text = " +0_050.00\n" ∧ spelledFifty.value = 50 := by decide +kernel
  have hfive : paddedMinusFive.text = "-0_05" ∧ paddedMinusFive.value = -5 := by decide +kernel
  have hconnect : lowered "CACHE_SECONDARY_STORAGE__ATTRIBUTES__CONNECT-TIMEOUT" =
      variableOf (attributePath "connect-timeout") := by decide +kernel
  have hoperation : lowered "cache_secondary_storage__attributes__operation-timeout" =
      variableOf (attributePath "operation-timeout") := by decide +kernel
  have hspelled := decimal_timeout spelledFifty (by decide) (by decide +kernel) hconnect
  have hpadded := decimal_timeout paddedMinusFive (by decide) (by decide +kernel) hoperation
  rw [hfifty.1, hfifty.2] at hspelled
  rw [hfive.1, hfive.2] at hpadded
  exact ⟨hspelled.2.1, hpadded.1 [], hpadded.2.1⟩

end Settings
end RemoteCache
