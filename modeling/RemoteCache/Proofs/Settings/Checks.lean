import RemoteCache.Proofs.Settings.Trees
import RemoteCache.Settings

/-!
# What the checks of a settings tree say

A reader that reports all faults succeeds if all its parts do. So a tree passes its checks exactly if its sections are
mappings and each single value can be read (`Settings.check_eq_valid`); what is not there has its default. Attributes
keep their names, as long as no other key reads as one of them (`Settings.attribute_of_checkAttributes`), and a
timeout reads the same before and after the check of its attribute.
-/

namespace RemoteCache

open Validation

namespace Validation

variable {α β : Type}

/-! ## Parts of a record -/

theorem Checked.also_eq_valid {f : Checked (α → β)} {x : Checked α} {b : β} :
    f.also x = .valid b ↔ ∃ g a, f = .valid g ∧ x = .valid a ∧ g a = b := by
  cases f <;> cases x <;> simp [also]

theorem Checked.inside_eq_valid {step : Step} {x : Checked α} {a : α} : x.inside step = .valid a ↔ x = .valid a := by
  cases x <;> simp [inside]

theorem Checked.sorted_eq_valid {x : Checked α} {a : α} : x.sorted = .valid a ↔ x = .valid a := by
  cases x <;> simp [sorted]

/-- What is read from a value, or the default where there is none. -/
inductive Given (read : Value → Except Fault α) (default : α) : Option Value → α → Prop
  | default : Given read default none default
  | read {v : Value} {a : α} : read v = .ok a → Given read default (some v) a

theorem Checked.optional_eq_valid {entries : List (String × Value)} {name : String}
    {read : Value → Except Fault α} {default a : α} :
    Checked.optional entries name read default = .valid a ↔ Given read default (entries.lookup name) a := by
  unfold optional
  cases entries.lookup name with
  | none =>
    constructor
    · intro h
      cases h
      exact .default
    · intro h
      cases h
      rfl
  | some v =>
    simp only [entry]
    cases hread : read v with
    | ok b =>
      constructor
      · intro h
        cases h
        exact .read hread
      · intro h
        cases h with
        | read hread' =>
          cases hread.symm.trans hread'
          rfl
    | error fault =>
      constructor
      · intro h
        cases h
      · intro h
        cases h with
        | read hread' => rw [hread] at hread'; cases hread'

end Validation

/-! ## Mappings at paths -/

namespace Tree

variable {t entries : Tree} {name : String} {path : List String}

/-- The entries of the mapping under a name, none if there is nothing. -/
def mapping? (t : Tree) (name : String) : Option Tree :=
  match Value.get? t name with
  | none => some []
  | some (.dict entries) => some entries
  | some _ => none

theorem mapping?_eq_some :
    t.mapping? name = some entries ↔
      Value.get? t name = none ∧ entries = [] ∨ Value.get? t name = some (.dict entries) := by
  unfold mapping?
  cases h : Value.get? t name with
  | none => simp [eq_comm]
  | some v => cases v <;> simp

theorem at?_nil (path : List String) : at? [] path = none := by
  cases path with
  | nil => rfl
  | cons name path => cases path <;> rfl

/-- The entries of the mapping at the end of a path, none if there is nothing on the way. -/
def within? (t : Tree) : List String → Option Tree
  | [] => some t
  | name :: path => (t.mapping? name).bind (within? · path)

theorem within?_singleton : t.within? [name] = t.mapping? name := by
  cases h : t.mapping? name <;> simp [within?, h]

theorem within?_nil_left (path : List String) : within? [] path = some [] := by
  induction path with
  | nil => rfl
  | cons name path ih => exact ih

/-- What stands at a path stands in the mapping that holds it. -/
theorem at?_append (h : t.within? path = some entries) : t.at? (path ++ [name]) = Value.get? entries name := by
  induction path generalizing t with
  | nil =>
    cases h
    rfl
  | cons first path ih =>
    obtain ⟨inner, hinner, hrest⟩ := Option.bind_eq_some_iff.1 h
    have hpath : ∃ next more, path ++ [name] = next :: more := by cases path <;> simp
    obtain ⟨next, more, hmore⟩ := hpath
    have hstep : t.at? (first :: (path ++ [name])) = inner.at? (path ++ [name]) := by
      rw [hmore, at?_cons]
      rcases mapping?_eq_some.1 hinner with ⟨hnone, rfl⟩ | hsome
      · rw [hnone, at?_nil]
      · rw [hsome]
    rw [List.cons_append, hstep]
    exact ih hrest

/-- A path is open if there is a mapping to hold what stands at its end. -/
theorem open_append (path : List String) : t.Open (path ++ [name]) ↔ ∃ entries, t.within? path = some entries := by
  induction path generalizing t with
  | nil => exact iff_of_true trivial ⟨t, rfl⟩
  | cons first path ih =>
    have hpath : ∃ next more, path ++ [name] = next :: more := by cases path <;> simp
    obtain ⟨next, more, hmore⟩ := hpath
    rw [List.cons_append, hmore, within?, mapping?]
    unfold Open
    rw [← hmore]
    cases hfirst : Value.get? t first with
    | none => exact iff_of_true (.inl rfl) ⟨[], within?_nil_left path⟩
    | some v =>
      cases v with
      | dict entries => simp [ih]
      | _ => simp

end Tree

namespace Settings

open Value

/-! ## Attributes -/

variable {t : Tree} {name : String} {attributes : Attributes}

theorem checkAttributes_cons {key v : Value} {rest : Tree} :
    checkAttributes ((key, v) :: rest) = .valid attributes ↔
      ∃ k a more, Validation.text key = .ok k ∧ checkAttribute v = .valid a ∧ checkAttributes rest = .valid more ∧
        Entries.before k a more = attributes := by
  rw [checkAttributes]
  simp only [Checked.also_eq_valid, Checked.inside_eq_valid, checkKey]
  constructor
  · rintro ⟨_, more, ⟨_, a, ⟨_, k, ⟨⟩, hkey, rfl⟩, ha, rfl⟩, hmore, rfl⟩
    split at hkey
    · rename_i hread
      cases hkey
      exact ⟨_, a, more, hread, ha, hmore, rfl⟩
    · cases hkey
  · rintro ⟨k, a, more, hread, ha, hmore, rfl⟩
    refine ⟨_, more, ⟨_, a, ⟨Entries.before, k, rfl, ?_, rfl⟩, ha, rfl⟩, hmore, rfl⟩
    rw [hread]

/-- An attribute is what its name stands for in the mapping, if no other key reads as this name. -/
theorem attribute_of_checkAttributes (h : checkAttributes t = .valid attributes) (hnodup : (names t).Nodup)
    (hplain : ∀ e ∈ t, Validation.text e.1 = .ok name → e.1 = .text name) :
    Option.Rel (fun v a => checkAttribute v = .valid a) (get? t name) (attributes.lookup name) := by
  induction t generalizing attributes with
  | nil =>
    cases h
    exact .none
  | cons e rest ih =>
    obtain ⟨key, v⟩ := e
    obtain ⟨k, a, more, hkey, ha, hmore, rfl⟩ := checkAttributes_cons.1 h
    have hrest : (names rest).Nodup := hnodup.sublist (List.Sublist.filterMap _ (List.sublist_cons_self _ _))
    have hmore := ih hmore hrest fun e he => hplain e (List.mem_cons_of_mem _ he)
    rw [Entries.lookup_before, get?_cons]
    by_cases hk : name = k
    · subst hk
      obtain rfl : key = .text name := hplain _ List.mem_cons_self hkey
      have hnone : get? rest name = none := by
        rw [get?_eq_none]
        have hnames : (name :: names rest).Nodup := hnodup
        exact (List.nodup_cons.1 hnames).1
      rw [hnone] at hmore
      rw [if_pos (sameKey_text.2 rfl), if_pos rfl]
      generalize more.lookup name = last at hmore
      cases hmore
      exact .some ha
    · have hname : ¬ key.sameKey (.text name) = true := by
        rw [sameKey_text]
        rintro rfl
        cases hkey
        exact hk rfl
      rw [if_neg hname, if_neg hk]
      exact hmore

/-- Attributes whose names and values can be read pass. -/
theorem checkAttributes_of_valid
    (h : ∀ e ∈ t, (∃ k, Validation.text e.1 = .ok k) ∧ ∃ a, checkAttribute e.2 = .valid a) :
    ∃ attributes, checkAttributes t = .valid attributes := by
  induction t with
  | nil => exact ⟨[], rfl⟩
  | cons e rest ih =>
    obtain ⟨key, v⟩ := e
    obtain ⟨⟨k, hk⟩, a, ha⟩ := h _ List.mem_cons_self
    obtain ⟨more, hmore⟩ := ih fun e he => h e (List.mem_cons_of_mem _ he)
    exact ⟨_, checkAttributes_cons.2 ⟨k, a, more, hk, ha, hmore, rfl⟩⟩

/-- The check of an attribute does not change the integer that it reads as. -/
theorem integer_of_checkAttribute {v a : Value} (h : checkAttribute v = .valid a) :
    Validation.integer a = Validation.integer v := by
  cases v with
  | text s | broken points =>
    cases h
    rfl
  | bytes b =>
    cases hdecode : Text.Utf8.decode? b with
    | some cs =>
      simp only [checkAttribute, Validation.text, hdecode] at h
      cases h
      simp only [Validation.integer, hdecode, String.toList_ofList]
    | none => simp [checkAttribute, Validation.text, Validation.integer, hdecode] at h
  | real x =>
    cases hinteger : Validation.integer (.real x) with
    | ok n =>
      simp only [checkAttribute, Validation.text, hinteger] at h
      cases h
      rfl
    | error fault => simp [checkAttribute, Validation.text, hinteger] at h
  | bool b | int n =>
    cases h
    rfl
  | null | date | moment | list | set | dict => cases h

/-! ## Whole trees -/

theorem lookup_textEntries (t : Tree) (name : String) : (textEntries t).lookup name = get? t name := by
  induction t with
  | nil => rfl
  | cons e rest ih =>
    obtain ⟨key, v⟩ := e
    rw [get?_cons, ← ih]
    cases key with
    | text other =>
      have hentries : textEntries ((.text other, v) :: rest) = (other, v) :: textEntries rest := rfl
      rw [hentries, Entries.lookup_cons]
      by_cases h : name = other
      · subst h
        rw [if_pos rfl, if_pos (sameKey_text.2 rfl)]
      · have hkey : ¬ (Value.text other).sameKey (.text name) = true := by
          rw [sameKey_text]
          rintro ⟨⟩
          exact h rfl
        rw [if_neg h, if_neg hkey]
    | _ => rfl

theorem checkLogging_eq_valid {t : Tree} {l : LoggingSettings} :
    checkLogging (.dict t) = .valid l ↔ Given readLevel .info (get? t "level") l.level ∧
      Given Validation.bool true (get? t "json_output") l.json ∧
      Given Validation.text "cache" (get? t "service") l.service ∧
      Given Validation.text "dev" (get? t "environment") l.environment := by
  simp only [checkLogging, Checked.also_eq_valid, Checked.optional_eq_valid, lookup_textEntries]
  constructor
  · rintro ⟨_, environment, ⟨_, service, ⟨_, json, ⟨_, level, ⟨⟩, hlevel, rfl⟩, hjson, rfl⟩, hservice, rfl⟩,
      henvironment, rfl⟩
    exact ⟨hlevel, hjson, hservice, henvironment⟩
  · rintro ⟨hlevel, hjson, hservice, henvironment⟩
    exact ⟨_, _, ⟨_, _, ⟨_, _, ⟨_, _, rfl, hlevel, rfl⟩, hjson, rfl⟩, hservice, rfl⟩, henvironment, rfl⟩

/-- A field that is a mapping: what is not there counts as empty. -/
theorem checkField_eq_valid {t : Tree} {name : String} {attributes : Attributes} {checkMapping : Value → Checked Attributes}
    (hdict : ∀ entries, checkMapping (.dict entries) = checkAttributes entries)
    (hcheck : ∀ v, checkMapping v = .valid attributes → ∃ entries, v = .dict entries) :
    checkField (textEntries t) name [] checkMapping = .valid attributes ↔
      ∃ entries, t.mapping? name = some entries ∧ checkAttributes entries = .valid attributes := by
  unfold checkField Tree.mapping?
  rw [lookup_textEntries]
  cases get? t name with
  | none => simp [checkAttributes]
  | some v =>
    cases v with
    | dict entries => simp [Checked.inside_eq_valid, hdict]
    | _ =>
      refine ⟨fun h => ?_, by simp⟩
      obtain ⟨_, ⟨⟩⟩ := hcheck _ (Checked.inside_eq_valid.1 h)

theorem checkStorage_eq_valid {t : Tree} {st : StorageSettings} :
    checkStorage (.dict t) = .valid st ↔ Given Validation.text defaultUrl (get? t "url") st.url ∧
      ∃ entries, t.mapping? "attributes" = some entries ∧ checkAttributes entries = .valid st.attributes := by
  simp only [checkStorage, Checked.also_eq_valid, Checked.optional_eq_valid, lookup_textEntries]
  constructor
  · rintro ⟨_, attributes, ⟨_, url, ⟨⟩, hurl, rfl⟩, hattributes, rfl⟩
    refine ⟨hurl, (checkField_eq_valid (fun _ => rfl) fun v hv => ?_).1 hattributes⟩
    cases v with
    | dict entries => exact ⟨entries, rfl⟩
    | _ => cases hv
  · rintro ⟨hurl, hattributes⟩
    refine ⟨_, _, ⟨_, _, rfl, hurl, rfl⟩, ?_, rfl⟩
    refine (checkField_eq_valid (fun _ => rfl) fun v hv => ?_).2 hattributes
    cases v with
    | dict entries => exact ⟨entries, rfl⟩
    | _ => cases hv

/-- What a settings tree is checked for: its sections are mappings, and each value can be read. -/
structure Fits (t : Tree) (s : Settings) : Prop where
  logging : ∃ entries, t.within? ["logging"] = some entries
  level : Given readLevel .info (t.at? ["logging", "level"]) s.logging.level
  json : Given Validation.bool true (t.at? ["logging", "json_output"]) s.logging.json
  service : Given Validation.text "cache" (t.at? ["logging", "service"]) s.logging.service
  environment : Given Validation.text "dev" (t.at? ["logging", "environment"]) s.logging.environment
  url : Given Validation.text defaultUrl (t.at? ["secondary_storage", "url"]) s.storage.url
  attributes : ∃ entries, t.within? ["secondary_storage", "attributes"] = some entries ∧
    checkAttributes entries = .valid s.storage.attributes

/-- A section passes its check only if it is a mapping. -/
theorem section_eq_valid {α : Type} {t : Tree} {name : String} {step : Validation.Step}
    {checkSection : Value → Checked α} {a : α}
    (hcheck : ∀ v, checkSection v = .valid a → ∃ entries, v = .dict entries) :
    (checkSection ((get? t name).getD (.dict []))).inside step = .valid a ↔
      ∃ entries, t.mapping? name = some entries ∧ checkSection (.dict entries) = .valid a := by
  rw [Checked.inside_eq_valid]
  unfold Tree.mapping?
  cases get? t name with
  | none => simp
  | some v =>
    cases v with
    | dict entries => simp
    | _ =>
      refine ⟨fun h => ?_, by simp⟩
      obtain ⟨_, ⟨⟩⟩ := hcheck _ h

/-- **A tree passes its checks exactly if it fits the settings.** -/
theorem check_eq_valid {t : Tree} {s : Settings} : check t = .valid s ↔ Fits t s := by
  have hlogging (l : LoggingSettings) : ∀ v, checkLogging v = .valid l → ∃ entries, v = .dict entries := by
    intro v hv
    cases v with
    | dict entries => exact ⟨entries, rfl⟩
    | _ => cases hv
  have hstorage (st : StorageSettings) : ∀ v, checkStorage v = .valid st → ∃ entries, v = .dict entries := by
    intro v hv
    cases v with
    | dict entries => exact ⟨entries, rfl⟩
    | _ => cases hv
  simp only [check, Checked.sorted_eq_valid, Checked.also_eq_valid, section_eq_valid (hlogging _),
    section_eq_valid (hstorage _), checkLogging_eq_valid, checkStorage_eq_valid, loggingSection, storageSection]
  have hat {t entries : Tree} {name field : String} (h : t.mapping? name = some entries) :
      t.at? [name, field] = get? entries field :=
    Tree.at?_append (Tree.within?_singleton.trans h)
  have hinner {t entries : Tree} {name other : String} (h : t.mapping? name = some entries) :
      t.within? [name, other] = entries.mapping? other := by
    rw [Tree.within?, h, Option.bind_some, Tree.within?_singleton]
  constructor
  · rintro ⟨_, st, ⟨_, l, ⟨⟩, ⟨entries, hentries, hlevel, hjson, hservice, henvironment⟩, rfl⟩,
      ⟨entries', hentries', hurl, attributes, hattributes, hvalid⟩, rfl⟩
    refine ⟨⟨entries, Tree.within?_singleton.trans hentries⟩, ?_, ?_, ?_, ?_, ?_,
      attributes, (hinner hentries').trans hattributes, hvalid⟩
    · rwa [hat hentries]
    · rwa [hat hentries]
    · rwa [hat hentries]
    · rwa [hat hentries]
    · rwa [hat hentries']
  · intro h
    obtain ⟨entries, hentries⟩ := h.logging
    rw [Tree.within?_singleton] at hentries
    obtain ⟨attributes, hattributes, hvalid⟩ := h.attributes
    obtain ⟨entries', hentries', -⟩ := Option.bind_eq_some_iff.1 hattributes
    refine ⟨_, s.storage, ⟨_, s.logging, rfl, ⟨entries, hentries, ?_, ?_, ?_, ?_⟩, rfl⟩,
      ⟨entries', hentries', ?_, attributes, (hinner hentries').symm.trans hattributes, hvalid⟩, rfl⟩
    · rw [← hat hentries]
      exact h.level
    · rw [← hat hentries]
      exact h.json
    · rw [← hat hentries]
      exact h.service
    · rw [← hat hentries]
      exact h.environment
    · rw [← hat hentries']
      exact h.url

end Settings
end RemoteCache
