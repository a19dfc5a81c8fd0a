import RemoteCache.Proofs.Settings.Variables

/-!
# What the environment says of a section

The tree of a section has what the variables of its fields have gathered, over the object that comes under the
section's own name. The keys of that object may name a field in any letter case, and fields get their own names only
after the two are merged. **So what a variable sets counts, and else the last key that names the field does**
(`section_of_environment`), as long as no other spelling of a field follows its own name (`Late`). An object that is a
field has to come under its own name: under another spelling it would not be merged with what its entries' variables
set, but replaced.
-/

namespace RemoteCache

open Results Value

namespace Environment

variable {sect : Section} {f : String} {t t' weaker stronger : Tree}

/-! ## Spellings of a field -/

/-- The value of the last key that names a field, in any letter case. -/
def spelled? (f : String) (t : Tree) : Option Value := (t.reverse.find? (namesField f ·.1)).map (·.2)

/-- No other spelling of a field follows the field's own name. -/
def Late (f : String) (t : Tree) : Prop := t.Pairwise fun e e' => e.1 = .text f → namesField f e'.1 = false

theorem spelled?_cons (f : String) (e : Value × Value) (t : Tree) :
    spelled? f (e :: t) = (spelled? f t).or (if namesField f e.1 then some e.2 else none) := by
  unfold spelled?
  rw [List.reverse_cons, List.find?_append, Option.map_or, List.find?_singleton]
  split <;> rfl

theorem spelled?_eq_none (h : ∀ e ∈ t, namesField f e.1 = false) : spelled? f t = none := by
  unfold spelled?
  rw [Option.map_eq_none_iff, List.find?_eq_none]
  intro e he
  rw [h e (List.mem_reverse.1 he)]
  exact Bool.false_ne_true

/-- Under its own name alone, a field is looked up. -/
theorem spelled?_of_ownCase (hnodup : (Value.names t).Nodup) (hown : OwnCase f t) (hf : lowered f = f) :
    spelled? f t = get? t f := by
  induction t with
  | nil => rfl
  | cons e rest ih =>
    obtain ⟨k, v⟩ := e
    have hrest : spelled? f rest = get? rest f :=
      ih (hnodup.sublist (List.Sublist.filterMap _ (List.sublist_cons_self _ _)))
        fun e he => hown e (List.mem_cons_of_mem _ he)
    rw [spelled?_cons, get?_cons, hrest]
    by_cases hk : k = .text f
    · subst hk
      have hnone : get? rest f = none := by
        rw [get?_eq_none]
        have hnames : (f :: Value.names rest).Nodup := hnodup
        exact (List.nodup_cons.1 hnames).1
      simp [hnone, namesField, hf, sameKey]
    · have hnames : ¬ namesField f k = true := fun h => hk (hown _ List.mem_cons_self h)
      rw [if_neg hnames, Option.or_none, if_neg (fun h => hk (sameKey_text.1 h))]

/-- Setting a field under its own name. -/
theorem spelled?_setEntry_self (hf : lowered f = f) (hlate : Late f t) (v : Value) :
    spelled? f (setEntry t (.text f) v) = some v ∧ Late f (setEntry t (.text f) v) := by
  have hself : namesField f (.text f) = true := by simp [namesField, hf]
  induction t with
  | nil => simp [setEntry, spelled?, Late, hself]
  | cons e rest ih =>
    obtain ⟨k, old⟩ := e
    obtain ⟨hlast, hrest⟩ := List.pairwise_cons.1 hlate
    rw [setEntry]
    by_cases hk : k.sameKey (.text f) = true
    · have hnone : spelled? f rest = none := spelled?_eq_none fun e he => hlast e he (sameKey_text.1 hk)
      rw [if_pos hk, spelled?_cons, hnone, sameKey_text.1 hk, hself]
      refine ⟨rfl, List.pairwise_cons.2 ⟨?_, hrest⟩⟩
      exact fun e he _ => hlast e he (sameKey_text.1 hk)
    · obtain ⟨hset, hlate'⟩ := ih hrest
      rw [if_neg hk, spelled?_cons, hset]
      refine ⟨rfl, List.pairwise_cons.2 ⟨?_, hlate'⟩⟩
      exact fun e _ heq => absurd (sameKey_text.2 heq) hk

/-- Setting what is no spelling of the field. -/
theorem spelled?_setEntry_other {key : Value} (hkey : namesField f key = false) (hlate : Late f t) (v : Value) :
    spelled? f (setEntry t key v) = spelled? f t ∧ Late f (setEntry t key v) := by
  induction t with
  | nil => simp [setEntry, spelled?, Late, hkey]
  | cons e rest ih =>
    obtain ⟨k, old⟩ := e
    obtain ⟨hlast, hrest⟩ := List.pairwise_cons.1 hlate
    rw [setEntry]
    by_cases hk : k.sameKey key = true
    · -- The key that stays is the same text as the new one, or no text at all.
      have hnames : namesField f k = false := by
        cases k with
        | text name => rwa [text_sameKey.1 hk] at hkey
        | _ => rfl
      rw [if_pos hk, spelled?_cons, spelled?_cons, hnames]
      exact ⟨rfl, List.pairwise_cons.2 ⟨hlast, hrest⟩⟩
    · obtain ⟨hset, hlate'⟩ := ih hrest
      rw [if_neg hk, spelled?_cons, hset, spelled?_cons]
      refine ⟨rfl, List.pairwise_cons.2 ⟨?_, hlate'⟩⟩
      intro e he heq
      rcases (mem_setEntry he).1 with hnew | hold
      · rw [hnew]
        exact hkey
      · obtain ⟨e', he', heq'⟩ := List.mem_map.1 hold
        rw [← heq']
        exact hlast e' he' heq

/-- **Merging, for a field that the weaker tree may spell in another letter case.** -/
theorem spelled?_merge (hf : lowered f = f) (hs : (Value.names stronger).Nodup) (hown : OwnCase f stronger)
    (hlate : Late f weaker) :
    spelled? f (weaker.merge stronger) = match get? stronger f with
      | none => spelled? f weaker
      | some v => some (Tree.mergeValue (get? weaker f) v) := by
  induction stronger generalizing weaker with
  | nil => rw [Tree.merge_nil, get?_nil]
  | cons e rest ih =>
    obtain ⟨key, v⟩ := e
    have hrest : (Value.names rest).Nodup := hs.sublist (List.Sublist.filterMap _ (List.sublist_cons_self _ _))
    have hown' : OwnCase f rest := fun e he => hown e (List.mem_cons_of_mem _ he)
    rw [Tree.merge_cons, get?_cons]
    by_cases hkey : key = .text f
    · subst hkey
      have hnone : get? rest f = none := by
        rw [get?_eq_none]
        have hnames : (f :: Value.names rest).Nodup := hs
        exact (List.nodup_cons.1 hnames).1
      obtain ⟨hset, hlate'⟩ := spelled?_setEntry_self hf hlate (Tree.mergeValue (find? weaker (.text f)) v)
      rw [ih hrest hown' hlate', hnone, if_pos (sameKey_text.2 rfl)]
      exact hset
    · have hnames : namesField f key = false := by
        rw [Bool.eq_false_iff]
        exact fun h => hkey (hown _ List.mem_cons_self h)
      have hne : ¬ key.sameKey (.text f) = true := fun h => hkey (sameKey_text.1 h)
      obtain ⟨hset, hlate'⟩ := spelled?_setEntry_other hnames hlate (Tree.mergeValue (find? weaker key) v)
      rw [ih hrest hown' hlate', if_neg hne, hset, get?_setEntry, if_neg hne]

theorem sameKey_fieldKey (hsect : sect ∈ Settings.sections) (hf : f ∈ sect.fields) (key : Value) :
    (fieldKey sect key).sameKey (.text f) = namesField f key := by
  rw [Bool.eq_iff_iff, sameKey_text]
  cases key with
  | text name =>
    simp only [fieldKey, namesField, Value.text.injEq, decide_eq_true_eq]
    cases hfind : sect.fields.find? (· = lowered name) with
    | some g =>
      have hg : g = lowered name := by simpa using List.find?_some hfind
      rw [Option.getD_some, hg]
    | none =>
      have hno : lowered name ∉ sect.fields := by
        intro hmem
        simpa using List.find?_eq_none.1 hfind _ hmem
      constructor
      · rintro rfl
        exact absurd ((lowered_of_field hsect hf).symm ▸ hf) hno
      · rintro rfl
        exact absurd hf hno
  | _ => simp [fieldKey, namesField]

/-- A field gets its own name. -/
theorem get?_fieldNames (hsect : sect ∈ Settings.sections) (hf : f ∈ sect.fields) (t : Tree) :
    get? (fieldNames {} sect t) f = spelled? f t := by
  have hfold (acc : Tree) : get? (t.foldl (fun t e => setEntry t (fieldKey sect e.1) e.2) acc) f =
      (spelled? f t).or (get? acc f) := by
    induction t generalizing acc with
    | nil => simp [spelled?]
    | cons e rest ih =>
      rw [List.foldl_cons, ih, get?_setEntry, sameKey_fieldKey hsect hf, spelled?_cons, Option.or_assoc]
      split <;> rfl
  rw [fieldNames_eq, if_neg (by simp), hfold, get?_nil, Option.or_none]

/-- An entry of a mapping. -/
def inner? (k : String) : Value → Option Value
  | .dict entries => get? entries k
  | _ => none

/-! ## The tree of a section -/

/-- The object under the section's own name, empty if there is none. -/
def wholeOf (sect : Section) (vars : Variables) : Tree :=
  ((vars.lookup (variableOf [sect.name])).map objectOf).getD []

/-- The variables of a section where the section's own one, if it is there, has an object: in this object no other
spelling of a field follows its name, and a field that is an object is only there under its own name. -/
structure Conforms (sect : Section) (vars : Variables) : Prop extends Orderly sect vars where
  whole : ∀ text, (variableOf [sect.name], text) ∈ vars → ∃ entries : Tree, Json.read text = .ok (.dict entries) ∧
    (∀ f ∈ sect.fields, Late f entries) ∧ ∀ f ∈ sect.jsonFields, OwnCase f entries ∧
      ∃ under : Tree, entries.mapping? f = some under ∧ ∀ e ∈ under, e.1.isText = true

variable {vars : Variables}

/-- What the section's tree is made from: the object of the section and what its variables have gathered. -/
theorem ofSection_of_conforms (hsect : sect ∈ Settings.sections) (h : Conforms sect vars) :
    ∃ r S : Tree, Gathered sect vars [] r ∧ r.Proper ∧
      (ofSection {} sect vars = .ok none ∧ S = [] ∨ ofSection {} sect vars = .ok (some (.dict S))) ∧
      ∀ f ∈ sect.fields, get? S f = match get? r f with
        | none => spelled? f (wholeOf sect vars)
        | some v => some (Tree.mergeValue (get? (wholeOf sect vars) f) v) := by
  obtain ⟨r, hr, hgathered⟩ := gathered hsect h.toOrderly (t := []) fun f _ => ⟨[], rfl⟩
  have hsingles : singles {} sect vars = .ok r := (singles_eq {} sect vars).trans hr
  have hproper : r.Proper := proper_of_singles hsingles
  have hown : ∀ f ∈ sect.fields, OwnCase f r := fun f hf => hgathered.own f hf (by simp [OwnCase])
  cases hlookup : vars.lookup (variableOf [sect.name]) with
  | none =>
    have hwhole : wholeOf sect vars = [] := by rw [wholeOf, hlookup]; rfl
    have hget : ∀ f ∈ sect.fields, spelled? f r = match get? r f with
        | none => spelled? f (wholeOf sect vars)
        | some v => some (Tree.mergeValue (get? (wholeOf sect vars) f) v) := by
      intro f hf
      rw [spelled?_of_ownCase hproper.nodup (hown f hf) (lowered_of_field hsect hf), hwhole]
      cases get? r f with
      | none => rfl
      | some v => exact congrArg some (Tree.mergeValue_none v).symm
    -- A section of which nothing is said is not there, which reads like an empty one.
    by_cases hempty : r = []
    · refine ⟨r, [], hgathered, hproper, .inl ⟨?_, rfl⟩, ?_⟩
      · simp [ofSection, nameOf_default hsect, hlookup, hsingles, hempty, Bind.bind, Except.bind, pure, Except.pure]
      · intro f hf
        rw [← hget f hf, hempty]
        rfl
    · refine ⟨r, fieldNames {} sect r, hgathered, hproper, .inr ?_, ?_⟩
      · simp [ofSection, nameOf_default hsect, hlookup, hsingles, hempty, Bind.bind, Except.bind, pure, Except.pure]
      · intro f hf
        rw [← hget f hf, get?_fieldNames hsect hf]
  | some text =>
    obtain ⟨entries, hread, hlate, -⟩ := h.whole text (Entries.mem_of_lookup hlookup)
    have hwhole : wholeOf sect vars = entries := by rw [wholeOf, hlookup, Option.map_some, Option.getD_some, objectOf, hread]
    refine ⟨r, fieldNames {} sect (entries.merge r), hgathered, hproper, .inr ?_, ?_⟩
    · simp [ofSection, nameOf_default hsect, hlookup, hread, hsingles, Options.isNullWord, Bind.bind, Except.bind, pure,
        Except.pure]
    · intro f hf
      rw [get?_fieldNames hsect hf, hwhole]
      exact spelled?_merge (lowered_of_field hsect hf) hproper.nodup (hown f hf) (hlate f hf)

theorem wholeOf_mapping? (hsect : sect ∈ Settings.sections) (h : Conforms sect vars) (hf : f ∈ sect.jsonFields) :
    ∃ under : Tree, (wholeOf sect vars).mapping? f = some under ∧ (∀ e ∈ under, e.1.isText = true) ∧
      spelled? f (wholeOf sect vars) = get? (wholeOf sect vars) f := by
  unfold wholeOf
  cases hlookup : vars.lookup (variableOf [sect.name]) with
  | none => exact ⟨[], rfl, by simp, rfl⟩
  | some text =>
    obtain ⟨entries, hread, -, hfields⟩ := h.whole text (Entries.mem_of_lookup hlookup)
    obtain ⟨hown, under, hunder, htexts⟩ := hfields f hf
    have hproper : Tree.Proper entries := Tree.proper_iff.1 (Json.proper_of_read hread)
    have hobject : objectOf text = entries := by rw [objectOf, hread]
    rw [Option.map_some, Option.getD_some, hobject]
    exact ⟨under, hunder, htexts,
      spelled?_of_ownCase hproper.nodup hown (lowered_of_field hsect (fields_of_jsonField hsect hf))⟩

/-- The mapping that comes of merging one into another, where either may be missing. -/
theorem mapping?_merged {S whole r b under : Tree} (hS : get? S f = match get? r f with
      | none => get? whole f
      | some v => some (Tree.mergeValue (get? whole f) v))
    (hb : r.mapping? f = some b) (hunder : whole.mapping? f = some under) (hproper : b.Proper)
    (hplain : ∀ k entries, get? b k ≠ some (.dict entries)) (htexts : ∀ e ∈ b, e.1.isText = true)
    (htexts' : ∀ e ∈ under, e.1.isText = true) :
    ∃ c : Tree, S.mapping? f = some c ∧ (∀ e ∈ c, e.1.isText = true) ∧
      ∀ k, get? c k = (get? b k).or (get? under k) := by
  rcases Tree.mapping?_eq_some.1 hb with ⟨hnone, rfl⟩ | hsome
  · rw [hnone] at hS
    refine ⟨under, ?_, htexts', fun k => rfl⟩
    rw [Tree.mapping?, hS]
    exact hunder
  · have hS' : get? S f = some (Tree.mergeValue (get? whole f) (.dict b)) := by rw [hS, hsome]
    rcases Tree.mapping?_eq_some.1 hunder with ⟨hnone', rfl⟩ | hsome'
    · refine ⟨b, ?_, htexts, ?_⟩
      · rw [Tree.mapping?, hS', hnone', Tree.mergeValue_none]
      · intro k
        rw [get?_nil, Option.or_none]
    · refine ⟨under.merge b, ?_, ?_, ?_⟩
      · rw [Tree.mapping?, hS', hsome', Tree.mergeValue_dict_dict]
      · intro e he
        rcases Tree.mem_keys_merge (List.mem_map_of_mem he) with hmem | hmem
        · obtain ⟨e', he', heq⟩ := List.mem_map.1 hmem
          exact heq ▸ htexts' e' he'
        · obtain ⟨e', he', heq⟩ := List.mem_map.1 hmem
          exact heq ▸ htexts e' he'
      · intro k
        have hsingle : (under.merge b).at? [k] = (b.at? [k]).or (under.at? [k]) :=
          Tree.at?_merge_of_plain under hproper trivial (hplain k)
        exact hsingle

theorem inner?_of_mapping {under : Tree} (h : t.mapping? f = some under) (k : String) :
    (get? t f).bind (inner? k) = get? under k := by
  rcases Tree.mapping?_eq_some.1 h with ⟨hnone, rfl⟩ | hsome
  · rw [hnone]
    rfl
  · rw [hsome]
    rfl

/-- What is gathered for an entry is a text or stands in the field's object. -/
theorem plain_of_gathered {single object : Option String} {k : String}
    (hplain : ∀ text, object = some text → ∀ entries, get? (objectOf text) k ≠ some (.dict entries)) (entries : Tree) :
    (single.map Value.text).or (object.bind fun text => get? (objectOf text) k) ≠ some (.dict entries) := by
  cases single with
  | some text => simp
  | none =>
    cases object with
    | none => simp
    | some text => exact hplain text rfl entries

/-- **What the environment says of a section.** A field is what its variable says, or else what the section's object
says. An entry of a field that is an object is what its variable says, or else what the field's object says, or else
what the field says in the section's object. -/
theorem section_of_environment (hsect : sect ∈ Settings.sections) (h : Conforms sect vars)
    (hplain : ∀ f ∈ sect.jsonFields, ∀ text, vars.lookup (variableOf [sect.name, f]) = some text → ∀ k entries,
      get? (objectOf text) k ≠ some (.dict entries)) :
    ∃ S : Tree, (ofSection {} sect vars = .ok none ∧ S = [] ∨ ofSection {} sect vars = .ok (some (.dict S))) ∧
      (∀ f ∈ sect.fields, f ∉ sect.jsonFields → get? S f =
        ((vars.lookup (variableOf [sect.name, f])).map Value.text).or (spelled? f (wholeOf sect vars))) ∧
      ∀ f ∈ sect.jsonFields, ∃ c : Tree, S.mapping? f = some c ∧ (∀ e ∈ c, e.1.isText = true) ∧ ∀ k, get? c k =
        (((vars.lookup (variableOf [sect.name, f, k])).map Value.text).or
          ((vars.lookup (variableOf [sect.name, f])).bind fun text => get? (objectOf text) k)).or
            ((spelled? f (wholeOf sect vars)).bind (inner? k)) := by
  obtain ⟨r, S, hgathered, hproper, hS, hget⟩ := ofSection_of_conforms hsect h
  refine ⟨S, hS, ?_, ?_⟩
  · intro f hf hjson
    have hr := hgathered.field f hf hjson
    rw [get?_nil, Option.or_none] at hr
    rw [hget f hf, hr]
    cases vars.lookup (variableOf [sect.name, f]) with
    | none => rfl
    | some text =>
      simp only [Option.map_some, Option.some_or]
      rw [Tree.mergeValue_of_not_dict (by simp)]
  · intro f hf
    have hfields := fields_of_jsonField hsect hf
    obtain ⟨b, hb, hbtexts, hbget⟩ := hgathered.mapping f hf [] rfl (by simp)
    obtain ⟨under, hunder, hunderTexts, hspelled⟩ := wholeOf_mapping? hsect h hf
    have hentry (k : String) : (spelled? f (wholeOf sect vars)).bind (inner? k) = get? under k := by
      rw [hspelled]
      exact inner?_of_mapping hunder k
    have hlookups (k : String) : ((vars.lookup (variableOf [sect.name, f, k])).map Value.text).or
        ((vars.lookup (variableOf [sect.name, f])).bind fun text => get? (objectOf text) k) = get? b k := by
      rw [hbget k]
      cases vars.lookup (variableOf [sect.name, f]) <;> rfl
    have hbplain : ∀ k entries, get? b k ≠ some (.dict entries) := by
      intro k
      rw [← hlookups k]
      exact plain_of_gathered fun text htext => hplain f hf text htext k
    have hbproper : b.Proper := by
      rcases Tree.mapping?_eq_some.1 hb with ⟨-, rfl⟩ | hsome
      · exact .nil
      · exact Tree.proper_iff.1 (hproper.get? hsome)
    have hfield := hget f hfields
    rw [hspelled] at hfield
    obtain ⟨c, hc, htexts, hcget⟩ := mapping?_merged hfield hb hunder hbproper hbplain hbtexts hunderTexts
    refine ⟨c, hc, htexts, ?_⟩
    intro k
    rw [hcget k, hlookups k, hentry k]

/-! ## The whole tree -/

/-- The variables under their names in lower case. -/
def lowerNames (env : Variables) : Variables := env.map fun e => (lowered e.1, e.2)

theorem normalized_eq {env : Variables} (h : ((lowerNames env).map (·.1)).Nodup) :
    normalized {} env = lowerNames env := by
  have hall : env.filter (fun e => !(Options.ignoresEmpty {} && e.2 = "")) = env := by simp
  have hputAll : normalized {} env = Entries.putAll [] (lowerNames env) := by
    unfold normalized
    rw [hall]
    rfl
  rw [hputAll, Entries.putAll_of_nodup (by simpa using h), List.nil_append]

/-- Where a single value stands: a field of a section, or an entry of a field that is an object. -/
inductive Leaf : List String → Prop
  | field {sect : Section} {f : String} : sect ∈ Settings.sections → f ∈ sect.fields → f ∉ sect.jsonFields →
      Leaf [sect.name, f]
  | entry {sect : Section} {f : String} (k : String) : sect ∈ Settings.sections → f ∈ sect.jsonFields →
      Leaf [sect.name, f, k]

/-- What variables below a section's own name set: a field, or an entry of an object by itself or in the object. -/
def nested? (vars : Variables) : List String → Option Value
  | [sect, f] => (vars.lookup (variableOf [sect, f])).map Value.text
  | [sect, f, k] => ((vars.lookup (variableOf [sect, f, k])).map Value.text).or
      ((vars.lookup (variableOf [sect, f])).bind fun text => get? (objectOf text) k)
  | _ => none

/-- What the object under a section's own name has; it may name a field in any letter case. -/
def whole? (vars : Variables) : List String → Option Value
  | [sect, f] => (vars.lookup (variableOf [sect])).bind fun text => spelled? f (objectOf text)
  | [sect, f, k] => ((vars.lookup (variableOf [sect])).bind fun text => spelled? f (objectOf text)).bind (inner? k)
  | _ => none

theorem whole?_field (sect : Section) (vars : Variables) (f : String) :
    whole? vars [sect.name, f] = spelled? f (wholeOf sect vars) := by
  rw [whole?, wholeOf]
  cases vars.lookup (variableOf [sect.name]) <;> rfl

theorem whole?_entry (sect : Section) (vars : Variables) (f k : String) :
    whole? vars [sect.name, f, k] = (spelled? f (wholeOf sect vars)).bind (inner? k) := by
  rw [whole?, wholeOf]
  cases vars.lookup (variableOf [sect.name]) <;> rfl

/-- What a section adds to the tree of the environment. -/
def addSection (o : Options) (vars : Variables) (t : Tree) (sect : Section) : Except Settings.Error Tree :=
  match ofSection o sect vars with
  | .error .malformed => .error (.environment sect.name)
  | .error fault => .error (.depth fault)
  | .ok none => .ok t
  | .ok (some v) => .ok (setEntry t (.text sect.name) v)

theorem ofEnvironment_eq (o : Options) (env : Variables) :
    Settings.ofEnvironment o env = Settings.sections.foldlM (addSection o (normalized o env)) [] := rfl

/-- A section is put under its name, and nothing else is changed. -/
theorem addSection_of_mapping {S : Tree} (hS : ofSection {} sect vars = .ok none ∧ S = [] ∨
      ofSection {} sect vars = .ok (some (.dict S))) (ht : get? t sect.name = none) :
    ∃ t' : Tree, addSection {} vars t sect = .ok t' ∧ t'.mapping? sect.name = some S ∧
      ∀ other, sect.name ≠ other → get? t' other = get? t other := by
  rcases hS with ⟨hnone, rfl⟩ | hsome
  · refine ⟨t, by rw [addSection, hnone], ?_, fun _ _ => rfl⟩
    rw [Tree.mapping?, ht]
  · refine ⟨setEntry t (.text sect.name) (.dict S), by rw [addSection, hsome], mapping?_setEntry_self t _ S, ?_⟩
    intro other hne
    rw [get?_setEntry_text, if_neg hne]

/-- Each section is found under its name. -/
theorem ofEnvironment_of_mappings {env : Variables} {P : Section → Tree → Prop}
    (h : ∀ sect ∈ Settings.sections, ∃ S, (ofSection {} sect (normalized {} env) = .ok none ∧ S = [] ∨
      ofSection {} sect (normalized {} env) = .ok (some (.dict S))) ∧ P sect S) :
    ∃ t : Tree, Settings.ofEnvironment {} env = .ok t ∧
      ∀ sect ∈ Settings.sections, ∃ S, t.mapping? sect.name = some S ∧ P sect S := by
  simp only [Settings.sections, List.forall_mem_cons, List.not_mem_nil, false_imp_iff, implies_true, and_true] at h ⊢
  obtain ⟨⟨logging, hlogging, hP⟩, storage, hstorage, hP'⟩ := h
  have hne : Settings.storageSection.name ≠ Settings.loggingSection.name := by decide +kernel
  obtain ⟨t, ht, hmapping, hother⟩ := addSection_of_mapping (t := []) hlogging rfl
  obtain ⟨t', ht', hmapping', hother'⟩ := addSection_of_mapping (t := t) hstorage (by rw [hother _ hne.symm]; rfl)
  refine ⟨t', ?_, ⟨logging, ?_, hP⟩, storage, hmapping', hP'⟩
  · rw [ofEnvironment_eq, Settings.sections]
    simp only [List.foldlM_cons, List.foldlM_nil, ht, ht', Bind.bind, Except.bind, pure, Except.pure]
  · rw [Tree.mapping?, hother' _ hne]
    exact hmapping

theorem plain_of_nested (hsect : sect ∈ Settings.sections) (h : Orderly sect vars)
    (hplain : ∀ path, Leaf path → ∀ entries, nested? vars path ≠ some (.dict entries)) (hf : f ∈ sect.jsonFields)
    {text : String} (htext : vars.lookup (variableOf [sect.name, f]) = some text) (k : String) (entries : Tree) :
    get? (objectOf text) k ≠ some (.dict entries) := by
  have hnone : vars.lookup (variableOf [sect.name, f, k]) = none :=
    lookup_eq_none fun text' => h.alone f hf k text text' (Entries.mem_of_lookup htext)
  have hpath := hplain [sect.name, f, k] (.entry k hsect hf) entries
  rwa [nested?, hnone, htext] at hpath

/-- **The tree of the environment**: along the path to a single value it is open, and there it has what a variable of
its own sets, or else what the section's object has. -/
theorem ofEnvironment_of_conforms {env : Variables}
    (hconforms : ∀ sect ∈ Settings.sections, Conforms sect (lowerNames env))
    (hplain : ∀ path, Leaf path → ∀ entries, nested? (lowerNames env) path ≠ some (.dict entries)) :
    ∃ t : Tree, Settings.ofEnvironment {} env = .ok t ∧
      (∃ a : Tree, t.within? ["secondary_storage", "attributes"] = some a ∧ ∀ e ∈ a, e.1.isText = true) ∧
      ∀ path, Leaf path → t.Open path ∧
        t.at? path = (nested? (lowerNames env) path).or (whole? (lowerNames env) path) := by
  have hnormalized : normalized {} env = lowerNames env :=
    normalized_eq (hconforms Settings.storageSection (by simp [Settings.sections])).nodup
  have hsections (sect : Section) (hsect : sect ∈ Settings.sections) :=
    section_of_environment hsect (hconforms sect hsect) fun f hf text htext =>
      plain_of_nested hsect (hconforms sect hsect).toOrderly hplain hf htext
  rw [← hnormalized] at hsections
  obtain ⟨t, ht, hmappings⟩ := ofEnvironment_of_mappings hsections
  rw [hnormalized] at hmappings
  refine ⟨t, ht, ?_, ?_⟩
  · obtain ⟨S, hS, -, hentries⟩ := hmappings Settings.storageSection (by simp [Settings.sections])
    obtain ⟨c, hc, htexts, -⟩ := hentries "attributes" (by simp [Settings.storageSection])
    refine ⟨c, ?_, htexts⟩
    rw [Tree.within?, show t.mapping? "secondary_storage" = some S from hS, Option.bind_some, Tree.within?_singleton]
    exact hc
  · intro path hleaf
    cases hleaf with
    | @field sect f hsect hf hjson =>
      obtain ⟨S, hS, hfields, -⟩ := hmappings sect hsect
      have hwithin : t.within? [sect.name] = some S := Tree.within?_singleton.trans hS
      refine ⟨(Tree.open_append [sect.name]).2 ⟨S, hwithin⟩, ?_⟩
      rw [whole?_field]
      exact (Tree.at?_append hwithin).trans (hfields f hf hjson)
    | @entry sect f k hsect hf =>
      obtain ⟨S, hS, -, hentries⟩ := hmappings sect hsect
      obtain ⟨c, hc, -, hget⟩ := hentries f hf
      have hwithin : t.within? [sect.name, f] = some c := by
        rw [Tree.within?, hS, Option.bind_some, Tree.within?_singleton]
        exact hc
      refine ⟨(Tree.open_append [sect.name, f]).2 ⟨c, hwithin⟩, ?_⟩
      rw [whole?_entry]
      exact (Tree.at?_append hwithin).trans (hget k)

end Environment
end RemoteCache
