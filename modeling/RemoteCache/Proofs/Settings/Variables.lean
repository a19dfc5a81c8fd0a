import RemoteCache.Proofs.Settings.Timeouts

/-!
# What the variables of a section set

With the default options a variable sets a field of a section if its name leads there: a field comes under the
section's name and its own, and an entry of a field that is an object under a name that is longer still. The fold over
the variables is followed variable by variable (`Gathered`): **a field is what the variable of its name says, and an
object is what the variables of its entries' names say, or else the one that gives it as a whole** (`gathered`). Names
that set different things do not touch each other's values.
-/

namespace RemoteCache

open Results Value

namespace Environment

/-! ## Names -/

/-- The name of the variable for what stands at a path, in lower case. -/
def variableOf (path : List String) : String := "cache_" ++ Value.joined "__" path

/-- No delimiter stands in the text. -/
def Undivided (s : String) : Prop := ¬ "__".toList <:+: s.toList

theorem breakAt?_eq_none {delimiter cs : List Char} : breakAt? delimiter cs = none ↔ ¬ delimiter <:+: cs := by
  induction cs with
  | nil =>
    unfold breakAt?
    cases delimiter <;> simp
  | cons c rest ih =>
    rw [breakAt?, List.infix_cons_iff, not_or, ← ih]
    by_cases hfront : delimiter <+: c :: rest
    · rw [if_pos (List.isPrefixOf_iff_prefix.2 hfront)]
      simp [hfront]
    · rw [if_neg (fun h => hfront (List.isPrefixOf_iff_prefix.1 h))]
      simp [hfront]

theorem splitName_of_undivided {s : String} (h : Undivided s) (most : Nat) :
    splitName "__".toList most s.toList = [s.toList] := by
  cases most with
  | zero => rfl
  | succ most => rw [splitName, breakAt?_eq_none.2 h]

/-- The variables that set something in a section, in lower case, and the path in the section to what they set. -/
inductive Sets (sect : Section) : String → List String → Prop
  | field {f : String} : f ∈ sect.fields → Sets sect (variableOf [sect.name, f]) [f]
  | entry {f k : String} : f ∈ sect.jsonFields → k ≠ "" → Undivided k →
      Sets sect (variableOf [sect.name, f, k]) [f, k]

/-- The sections that settings have. -/
theorem nameOf_default {sect : Section} (hsect : sect ∈ Settings.sections) :
    nameOf {} sect = variableOf [sect.name] := by
  simp only [Settings.sections, List.mem_cons, List.not_mem_nil, or_false] at hsect
  rcases hsect with rfl | rfl
  · decide +kernel
  · decide +kernel

theorem pathOf?_append {sect : Section} (hsect : sect ∈ Settings.sections) (rest : String) :
    pathOf? {} sect (variableOf [sect.name, rest]) =
      some ((splitName "__".toList rest.toList.length rest.toList).map String.ofList) := by
  have hname : (variableOf [sect.name, rest]).toList =
      ((variableOf [sect.name]).toList ++ "__".toList) ++ rest.toList := by
    simp [variableOf, Value.joined, String.toList_append]
  unfold pathOf?
  rw [nameOf_default hsect, hname]
  have hfront : List.isPrefixOf ((variableOf [sect.name]).toList ++ "__".toList)
      (((variableOf [sect.name]).toList ++ "__".toList) ++ rest.toList) = true :=
    List.isPrefixOf_iff_prefix.2 (List.prefix_append _ _)
  simp only [hfront, List.drop_left, Bool.and_true]
  rfl

theorem undivided_of_field {sect : Section} (hsect : sect ∈ Settings.sections) {f : String} (hf : f ∈ sect.fields) :
    Undivided f := by
  have hall : ∀ sect ∈ Settings.sections, ∀ f ∈ sect.fields, ¬ "__".toList <:+: f.toList := by
    decide +kernel
  exact hall sect hsect f hf

theorem eq_of_jsonField {sect : Section} (hsect : sect ∈ Settings.sections) {f : String} (hf : f ∈ sect.jsonFields) :
    sect = Settings.storageSection ∧ f = "attributes" := by
  simp only [Settings.sections, List.mem_cons, List.not_mem_nil, or_false] at hsect
  rcases hsect with rfl | rfl
  · simp [Settings.loggingSection] at hf
  · exact ⟨rfl, by simpa [Settings.storageSection] using hf⟩

theorem pathOf?_field {sect : Section} (hsect : sect ∈ Settings.sections) {f : String} (hf : f ∈ sect.fields) :
    pathOf? {} sect (variableOf [sect.name, f]) = some [f] := by
  rw [pathOf?_append hsect, splitName_of_undivided (undivided_of_field hsect hf)]
  simp

theorem pathOf?_entry {sect : Section} (hsect : sect ∈ Settings.sections) {f : String} (hf : f ∈ sect.jsonFields)
    (k : String) : ∃ most, pathOf? {} sect (variableOf [sect.name, f, k]) =
      some (f :: (splitName "__".toList most k.toList).map String.ofList) := by
  obtain ⟨-, rfl⟩ := eq_of_jsonField hsect hf
  have hpath : variableOf [sect.name, "attributes", k] = variableOf [sect.name, "attributes" ++ "__" ++ k] := rfl
  have hbreak : breakAt? "__".toList ("attributes" ++ "__" ++ k).toList = some ("attributes".toList, k.toList) := by
    simp [String.toList_append, breakAt?]
  have hlength : ∃ most, ("attributes" ++ "__" ++ k).toList.length = most + 1 := by
    simp [String.toList_append]
  obtain ⟨most, hmost⟩ := hlength
  refine ⟨most, ?_⟩
  rw [hpath, pathOf?_append hsect, hmost, splitName, hbreak]
  simp

theorem pathOf?_of_sets {sect : Section} (hsect : sect ∈ Settings.sections) {name : String} {path : List String}
    (h : Sets sect name path) : pathOf? {} sect name = some path := by
  cases h with
  | field hf => exact pathOf?_field hsect hf
  | @entry f k hf _ hk =>
    obtain ⟨most, hpath⟩ := pathOf?_entry hsect hf k
    rw [hpath, splitName_of_undivided hk]
    simp

/-! ## Values -/

theorem valueOf_text {sect : Section} {path : List String} (text : String)
    (hpath : ∀ part, path = [part] → sect.jsonFields.any (names {} part) = false) :
    valueOf {} sect path text = .ok (.text text) := by
  have hnull : Options.isNullWord {} text = false := by simp [Options.isNullWord]
  simp only [valueOf, hnull]
  split
  · rename_i part
    rw [hpath part rfl]
    rfl
  · rfl

theorem names_eq_false {sect : Section} (hsect : sect ∈ Settings.sections) {f : String} (hf : f ∈ sect.fields)
    (hjson : f ∉ sect.jsonFields) : sect.jsonFields.any (names {} f) = false := by
  have hall : ∀ sect ∈ Settings.sections, ∀ f ∈ sect.fields, f ∉ sect.jsonFields →
      sect.jsonFields.any (names {} f) = false := by decide +kernel
  exact hall sect hsect f hf hjson

/-- A field that comes as a JSON text. -/
theorem valueOf_json {sect : Section} (hsect : sect ∈ Settings.sections) {f text : String} {v : Value}
    (hf : f ∈ sect.jsonFields) (hread : Json.read text = .ok v) : valueOf {} sect [f] text = .ok v := by
  have hall : ∀ sect ∈ Settings.sections, ∀ f ∈ sect.jsonFields, sect.jsonFields.any (names {} f) = true := by
    decide +kernel
  have htext : text ≠ "" := by
    rintro rfl
    simp [Json.read, Json.skipBlanks, Json.readValue, Bind.bind, Except.bind] at hread
  simp only [valueOf, hall sect hsect f hf, htext, ne_eq, not_false_eq_true, decide_true, Bool.and_self, if_true]
  exact hread

/-! ## One variable after the other -/

/-- What a variable makes of the tree of a section. -/
def addSingle (o : Options) (sect : Section) (t : Tree) (entry : String × String) : Except Json.Fault Tree :=
  match pathOf? o sect entry.1 with
  | none => .ok t
  | some path => (valueOf o sect path entry.2).map fun v =>
    if v.isNull && o.isNullWord entry.2 then t.addPath path v else t.setPath path v

theorem singles_eq (o : Options) (sect : Section) (vars : Variables) :
    singles o sect vars = vars.foldlM (addSingle o sect) [] := rfl

theorem addSingle_of_path {sect : Section} {t : Tree} {name text : String} {path : List String} {v : Value}
    (hpath : pathOf? {} sect name = some path) (hv : valueOf {} sect path text = .ok v) :
    addSingle {} sect t (name, text) = .ok (t.setPath path v) := by
  simp [addSingle, hpath, hv, Except.map, Options.isNullWord]

/-! ### Names that lead to the same place -/

theorem variableOf_field_inj {sect f f' : String} : variableOf [sect, f] = variableOf [sect, f'] ↔ f = f' := by
  simp [variableOf, Value.joined, String.append_right_inj]

theorem variableOf_entry_inj {sect f k k' : String} :
    variableOf [sect, f, k] = variableOf [sect, f, k'] ↔ k = k' := by
  simp [variableOf, Value.joined, String.append_right_inj]

theorem variableOf_entry_ne {sect f f' k : String} (hf : Undivided f') :
    variableOf [sect, f, k] ≠ variableOf [sect, f'] := by
  intro h
  have hf' : f ++ "__" ++ k = f' := variableOf_field_inj.1 h
  refine hf ⟨f.toList, k.toList, ?_⟩
  rw [← hf', String.toList_append, String.toList_append]

/-! ### What is gathered -/

/-- The object in a text, empty if there is none. -/
def objectOf (text : String) : Tree :=
  match Json.read text with
  | .ok (.dict entries) => entries
  | _ => []

/-- Whether a key names a field, in any letter case. -/
def namesField (f : String) : Value → Bool
  | .text name => lowered name = f
  | _ => false

/-- Every key that names the field, in any letter case, is the field's own name. -/
def OwnCase (f : String) (t : Tree) : Prop := ∀ e ∈ t, namesField f e.1 = true → e.1 = .text f

/-- The name leads below the section, but to no field of it. -/
def Strays (sect : Section) (name : String) : Prop :=
  ∃ part rest, pathOf? {} sect name = some (part :: rest) ∧ ∀ f ∈ sect.fields, names {} part f = false

/-- The variables of a section: no name comes twice, every name that leads to a field sets something there, and a field
that is an object comes either as a whole or entry by entry. -/
structure Orderly (sect : Section) (vars : Variables) : Prop where
  nodup : (vars.map (·.1)).Nodup
  sets : ∀ e ∈ vars, pathOf? {} sect e.1 = none ∨ Strays sect e.1 ∨ ∃ path, Sets sect e.1 path
  objects : ∀ f ∈ sect.jsonFields, ∀ text, (variableOf [sect.name, f], text) ∈ vars →
    ∃ entries, Json.read text = .ok (.dict entries) ∧ ∀ e ∈ entries, e.1.isText = true
  alone : ∀ f ∈ sect.jsonFields, ∀ k text text', (variableOf [sect.name, f], text) ∈ vars →
    (variableOf [sect.name, f, k], text') ∉ vars

theorem Orderly.tail {sect : Section} {entry : String × String} {vars : Variables} (h : Orderly sect (entry :: vars)) :
    Orderly sect vars where
  nodup := (List.nodup_cons.1 h.nodup).2
  sets e he := h.sets e (List.mem_cons_of_mem _ he)
  objects f hf text htext := h.objects f hf text (List.mem_cons_of_mem _ htext)
  alone f hf k text text' htext htext' :=
    h.alone f hf k text text' (List.mem_cons_of_mem _ htext) (List.mem_cons_of_mem _ htext')

/-- What the variables of a section have made of a tree. -/
structure Gathered (sect : Section) (vars : Variables) (t r : Tree) : Prop where
  own : ∀ f ∈ sect.fields, OwnCase f t → OwnCase f r
  field : ∀ f ∈ sect.fields, f ∉ sect.jsonFields →
    get? r f = ((vars.lookup (variableOf [sect.name, f])).map Value.text).or (get? t f)
  mapping : ∀ f ∈ sect.jsonFields, ∀ a, t.mapping? f = some a → (∀ e ∈ a, e.1.isText = true) →
    ∃ b, r.mapping? f = some b ∧ (∀ e ∈ b, e.1.isText = true) ∧ ∀ k, get? b k =
      ((vars.lookup (variableOf [sect.name, f, k])).map Value.text).or
        (match vars.lookup (variableOf [sect.name, f]) with
          | some object => get? (objectOf object) k
          | none => get? a k)

variable {sect : Section} {name text f k : String} {vars : Variables} {t t' r : Tree}

theorem lookup_cons_ne (h : f ≠ name) : ((name, text) :: vars).lookup f = vars.lookup f := by
  rw [Entries.lookup_cons, if_neg h]

theorem lookup_eq_none (h : ∀ text, (name, text) ∉ vars) : vars.lookup name = none := by
  cases hlookup : vars.lookup name with
  | none => rfl
  | some text => exact absurd (Entries.mem_of_lookup hlookup) (h text)

theorem lookup_cons_self (h : (((name, text) :: vars).map (·.1)).Nodup) :
    ((name, text) :: vars).lookup name = some text ∧ vars.lookup name = none := by
  refine ⟨by rw [Entries.lookup_cons, if_pos rfl], lookup_eq_none ?_⟩
  intro text htext
  have hname : name ∉ vars.map (·.1) := (List.nodup_cons.1 h).1
  exact hname (List.mem_map_of_mem htext)

theorem jsonField_unique (hsect : sect ∈ Settings.sections) (hf : f ∈ sect.jsonFields) {f' : String}
    (hf' : f' ∈ sect.jsonFields) : f' = f :=
  (eq_of_jsonField hsect hf').2.trans (eq_of_jsonField hsect hf).2.symm

theorem fields_of_jsonField (hsect : sect ∈ Settings.sections) (hf : f ∈ sect.jsonFields) : f ∈ sect.fields := by
  obtain ⟨rfl, rfl⟩ := eq_of_jsonField hsect hf
  decide +kernel

theorem lowered_of_field (hsect : sect ∈ Settings.sections) (hf : f ∈ sect.fields) : lowered f = f := by
  have hall : ∀ sect ∈ Settings.sections, ∀ f ∈ sect.fields, lowered f = f := by decide +kernel
  exact hall sect hsect f hf

/-- A part of a name adds no other spelling of a field. -/
theorem OwnCase.of_keys (hsect : sect ∈ Settings.sections) (hf : f ∈ sect.fields) {part : String}
    (hpart : part ∈ sect.fields ∨ ∀ f ∈ sect.fields, names {} part f = false) (h : OwnCase f t)
    (hkeys : ∀ e ∈ t', e.1 = .text part ∨ e.1 ∈ t.map (·.1)) : OwnCase f t' := by
  intro e he hnames
  rcases hkeys e he with heq | hold
  · rw [heq] at hnames ⊢
    have hlowered : lowered part = f := by simpa [namesField] using hnames
    rcases hpart with hpart | hpart
    · rw [← hlowered, lowered_of_field hsect hpart]
    · have hfold : names {} part f = true := by simp [names, Options.fold, lowered_of_field hsect hf, hlowered]
      rw [hpart f hf] at hfold
      cases hfold
  · obtain ⟨e', he', heq⟩ := List.mem_map.1 hold
    rw [← heq] at hnames ⊢
    exact h e' he' hnames

/-- Only what stands under the first name of a path is changed. -/
theorem updatePath_cons (t : Tree) (part : String) (rest : List String) (update : Option Value → Value) :
    t.updatePath (part :: rest) update = t ∨
      ∃ v, t.updatePath (part :: rest) update = setEntry t (.text part) v := by
  cases rest with
  | nil => exact .inr ⟨_, rfl⟩
  | cons next rest =>
    rw [Tree.updatePath]
    split
    · exact .inr ⟨_, rfl⟩
    · exact .inr ⟨_, rfl⟩
    · exact .inl rfl

/-- A mapping is found under the name it is set to. -/
theorem mapping?_setEntry_self (t : Tree) (name : String) (entries : Tree) :
    Tree.mapping? (setEntry t (.text name) (.dict entries)) name = some entries := by
  rw [Tree.mapping?, get?_setEntry_text, if_pos rfl]

theorem mapping?_setEntry_ne (t : Tree) {name other : String} (hne : name ≠ other) (v : Value) :
    Tree.mapping? (setEntry t (.text name) v) other = t.mapping? other := by
  rw [Tree.mapping?, get?_setEntry_text, if_neg hne, Tree.mapping?]

theorem Gathered.nil (sect : Section) (t : Tree) : Gathered sect [] t t where
  own _ _ h := h
  field f _ _ := by simp
  mapping f _ a ha htexts := ⟨a, ha, htexts, by simp⟩

/-- A variable whose name leads to no field. -/
theorem Gathered.cons_other (hsect : sect ∈ Settings.sections)
    (hname : ∀ f ∈ sect.fields, ∀ rest, pathOf? {} sect name ≠ some (f :: rest))
    (hsame : ∀ f ∈ sect.fields, get? t' f = get? t f) (hown : ∀ f ∈ sect.fields, OwnCase f t → OwnCase f t')
    (h : Gathered sect vars t' r) : Gathered sect ((name, text) :: vars) t r := by
  have hfield {f : String} (hf : f ∈ sect.fields) : variableOf [sect.name, f] ≠ name := by
    rintro rfl
    exact hname f hf _ (pathOf?_field hsect hf)
  have hentry {f : String} (hf : f ∈ sect.jsonFields) (k : String) : variableOf [sect.name, f, k] ≠ name := by
    rintro rfl
    obtain ⟨most, hpath⟩ := pathOf?_entry hsect hf k
    exact hname f (fields_of_jsonField hsect hf) _ hpath
  refine ⟨fun f hf ht => h.own f hf (hown f hf ht), ?_, ?_⟩
  · intro f hf hjson
    rw [lookup_cons_ne (hfield hf), ← hsame f hf]
    exact h.field f hf hjson
  · intro f hf a ha htexts
    have hmapping : t'.mapping? f = some a := by
      rw [Tree.mapping?, hsame f (fields_of_jsonField hsect hf)]
      exact ha
    obtain ⟨b, hb, htexts', hget⟩ := h.mapping f hf a hmapping htexts
    refine ⟨b, hb, htexts', ?_⟩
    intro k
    rw [lookup_cons_ne (hentry hf k), lookup_cons_ne (hfield (fields_of_jsonField hsect hf))]
    exact hget k

/-- A variable that sets a field. -/
theorem Gathered.cons_field (hsect : sect ∈ Settings.sections) {v : Value} (hf : f ∈ sect.fields)
    (hnodup : (((variableOf [sect.name, f], text) :: vars).map (·.1)).Nodup)
    (hv : f ∉ sect.jsonFields ∧ v = .text text ∨
      f ∈ sect.jsonFields ∧ v = .dict (objectOf text) ∧ ∀ e ∈ objectOf text, e.1.isText = true)
    (h : Gathered sect vars (setEntry t (.text f) v) r) :
    Gathered sect ((variableOf [sect.name, f], text) :: vars) t r := by
  obtain ⟨hself, hlater⟩ := lookup_cons_self hnodup
  have hne {f' : String} (hf' : f' ≠ f) : variableOf [sect.name, f'] ≠ variableOf [sect.name, f] :=
    fun heq => hf' (variableOf_field_inj.1 heq)
  have hentry (f' k : String) : variableOf [sect.name, f', k] ≠ variableOf [sect.name, f] :=
    variableOf_entry_ne (undivided_of_field hsect hf)
  refine ⟨fun f' hf' ht => h.own f' hf' (ht.of_keys hsect hf' (.inl hf) fun e he => (mem_setEntry he).1), ?_, ?_⟩
  · intro f' hf' hjson
    have hfield := h.field f' hf' hjson
    by_cases heq : f' = f
    · subst heq
      rcases hv with ⟨-, rfl⟩ | ⟨hjson', -⟩
      · rw [hfield, hself, hlater, get?_setEntry_text, if_pos rfl]
        rfl
      · exact absurd hjson' hjson
    · rw [hfield, lookup_cons_ne (hne heq), get?_setEntry_text, if_neg (Ne.symm heq)]
  · intro f' hf' a ha htexts
    by_cases heq : f' = f
    · subst heq
      rcases hv with ⟨hjson, -⟩ | ⟨-, rfl, hobject⟩
      · exact absurd hf' hjson
      · obtain ⟨b, hb, htexts', hget⟩ := h.mapping f' hf' _ (mapping?_setEntry_self t f' (objectOf text)) hobject
        refine ⟨b, hb, htexts', ?_⟩
        intro k
        rw [hget k, hself, hlater, lookup_cons_ne (hentry f' k)]
    · have hmapping : Tree.mapping? (setEntry t (.text f) v) f' = some a := by
        rw [mapping?_setEntry_ne t (Ne.symm heq)]
        exact ha
      obtain ⟨b, hb, htexts', hget⟩ := h.mapping f' hf' a hmapping htexts
      refine ⟨b, hb, htexts', ?_⟩
      intro k
      rw [hget k, lookup_cons_ne (hne heq), lookup_cons_ne (hentry f' k)]

/-- A variable that sets an entry of a field. The field does not come as a whole, too. -/
theorem Gathered.cons_entry (hsect : sect ∈ Settings.sections) (hf : f ∈ sect.jsonFields)
    (horderly : Orderly sect ((variableOf [sect.name, f, k], text) :: vars)) {a : Tree} (ha : t.mapping? f = some a)
    (h : Gathered sect vars (setEntry t (.text f) (.dict (setEntry a (.text k) (.text text)))) r) :
    Gathered sect ((variableOf [sect.name, f, k], text) :: vars) t r := by
  have hfields := fields_of_jsonField hsect hf
  obtain ⟨hself, hlater⟩ := lookup_cons_self horderly.nodup
  have hfield {f' : String} (hf' : f' ∈ sect.fields) : variableOf [sect.name, f'] ≠ variableOf [sect.name, f, k] :=
    Ne.symm (variableOf_entry_ne (undivided_of_field hsect hf'))
  -- No later variable replaces the object as a whole, so the entry stays in it.
  have hwhole : vars.lookup (variableOf [sect.name, f]) = none := lookup_eq_none fun text' htext' =>
    horderly.alone f hf k text' text (List.mem_cons_of_mem _ htext') List.mem_cons_self
  refine ⟨fun f' hf' ht => h.own f' hf' (ht.of_keys hsect hf' (.inl hfields) fun e he => (mem_setEntry he).1), ?_, ?_⟩
  · intro f' hf' hjson
    have hne : f ≠ f' := by
      rintro rfl
      exact hjson hf
    rw [h.field f' hf' hjson, lookup_cons_ne (hfield hf'), get?_setEntry_text, if_neg hne]
  · intro f' hf' a' ha' htexts
    obtain rfl := jsonField_unique hsect hf hf'
    obtain rfl : a' = a := Option.some.inj (ha'.symm.trans ha)
    have htexts' : ∀ e ∈ setEntry a' (.text k) (.text text), e.1.isText = true := by
      intro e he
      rcases (mem_setEntry he).1 with heq | hold
      · rw [heq]
        rfl
      · obtain ⟨e', he', heq⟩ := List.mem_map.1 hold
        exact heq ▸ htexts e' he'
    obtain ⟨b, hb, hbtexts, hget⟩ := h.mapping f' hf' _ (mapping?_setEntry_self t f' _) htexts'
    refine ⟨b, hb, hbtexts, ?_⟩
    intro k'
    rw [hget k', lookup_cons_ne (hfield hfields), hwhole, get?_setEntry_text]
    by_cases heq : k = k'
    · subst heq
      rw [hself, hlater, if_pos rfl]
      rfl
    · have hne : variableOf [sect.name, f', k'] ≠ variableOf [sect.name, f', k] :=
        fun h => heq (variableOf_entry_inj.1 h).symm
      rw [lookup_cons_ne hne, if_neg heq]

/-! ### From variable to variable -/

/-- One variable after the other: what is made of the tree still has objects to gather in, and what the later variables
gather there is what all of them gather. -/
def Gathers (sect : Section) (entry : String × String) (vars : Variables) (t : Tree) : Prop :=
  ∃ t' : Tree, addSingle {} sect t entry = .ok t' ∧ (∀ f ∈ sect.jsonFields, ∃ a, t'.mapping? f = some a) ∧
    ∀ r, Gathered sect vars t' r → Gathered sect (entry :: vars) t r

theorem gathers_of_none (hsect : sect ∈ Settings.sections) (hname : pathOf? {} sect name = none)
    (hmappings : ∀ f ∈ sect.jsonFields, ∃ a, t.mapping? f = some a) : Gathers sect (name, text) vars t := by
  refine ⟨t, by rw [addSingle, hname], hmappings, fun r hr => ?_⟩
  exact hr.cons_other hsect (by simp [hname]) (fun _ _ => rfl) fun _ _ ht => ht

theorem ne_of_strays {part : String} (hpart : ∀ f ∈ sect.fields, names {} part f = false) (hf : f ∈ sect.fields) :
    part ≠ f := by
  rintro rfl
  have hself := hpart part hf
  simp [names] at hself

theorem gathers_of_strays (hsect : sect ∈ Settings.sections) (hname : Strays sect name)
    (hmappings : ∀ f ∈ sect.jsonFields, ∃ a, t.mapping? f = some a) : Gathers sect (name, text) vars t := by
  obtain ⟨part, rest, hpath, hpart⟩ := hname
  have hvalue : valueOf {} sect (part :: rest) text = .ok (.text text) := by
    refine valueOf_text text fun part' hpath' => ?_
    cases hpath'
    rw [List.any_eq_false]
    intro f hf
    rw [hpart f (fields_of_jsonField hsect hf)]
    exact Bool.false_ne_true
  have hset := updatePath_cons t part rest fun _ => .text text
  have hsame : ∀ f ∈ sect.fields, get? (t.setPath (part :: rest) (.text text)) f = get? t f := by
    intro f hf
    rcases hset with hset | ⟨v, hset⟩
    · rw [Tree.setPath, hset]
    · rw [Tree.setPath, hset, get?_setEntry_text, if_neg (ne_of_strays hpart hf)]
  refine ⟨_, addSingle_of_path hpath hvalue, ?_, fun r hr => hr.cons_other hsect ?_ hsame ?_⟩
  · intro f hf
    rw [Tree.mapping?, hsame f (fields_of_jsonField hsect hf)]
    exact hmappings f hf
  · intro f hf rest' heq
    cases hpath.symm.trans heq
    exact ne_of_strays hpart hf rfl
  · intro f hf ht
    refine ht.of_keys hsect hf (.inr hpart) fun e he => ?_
    rcases hset with hset | ⟨v, hset⟩
    · rw [Tree.setPath, hset] at he
      exact .inr (List.mem_map_of_mem he)
    · rw [Tree.setPath, hset] at he
      exact (mem_setEntry he).1

theorem gathers_of_field (hsect : sect ∈ Settings.sections) (hf : f ∈ sect.fields)
    (h : Orderly sect ((variableOf [sect.name, f], text) :: vars))
    (hmappings : ∀ f ∈ sect.jsonFields, ∃ a, t.mapping? f = some a) :
    Gathers sect (variableOf [sect.name, f], text) vars t := by
  have hpath := pathOf?_field hsect hf
  by_cases hjson : f ∈ sect.jsonFields
  · obtain ⟨entries, hread, htexts⟩ := h.objects f hjson text List.mem_cons_self
    have hobject : objectOf text = entries := by rw [objectOf, hread]
    refine ⟨_, addSingle_of_path hpath (valueOf_json hsect hjson hread), ?_, fun r hr =>
      hr.cons_field hsect hf h.nodup (.inr ⟨hjson, by rw [hobject], by rwa [hobject]⟩)⟩
    intro f' hf'
    obtain rfl := jsonField_unique hsect hjson hf'
    exact ⟨entries, mapping?_setEntry_self t f' entries⟩
  · refine ⟨_, addSingle_of_path hpath (valueOf_text text ?_), ?_, fun r hr =>
      hr.cons_field hsect hf h.nodup (.inl ⟨hjson, rfl⟩)⟩
    · rintro part ⟨⟩
      exact names_eq_false hsect hf hjson
    · intro f' hf'
      have hne : f ≠ f' := by
        rintro rfl
        exact hjson hf'
      rw [Tree.setPath, Tree.updatePath, mapping?_setEntry_ne t hne]
      exact hmappings f' hf'

/-- Setting an entry of an object, which is made if it is not there. -/
theorem setPath_entry {a : Tree} (ha : t.mapping? f = some a) (k : String) (v : Value) :
    t.setPath [f, k] v = setEntry t (.text f) (.dict (setEntry a (.text k) v)) := by
  rw [Tree.setPath, Tree.updatePath]
  rcases Tree.mapping?_eq_some.1 ha with ⟨hnone, rfl⟩ | hsome
  · rw [hnone]
    rfl
  · rw [hsome]
    rfl

theorem gathers_of_entry (hsect : sect ∈ Settings.sections) (hf : f ∈ sect.jsonFields)
    (hpath : pathOf? {} sect (variableOf [sect.name, f, k]) = some [f, k])
    (h : Orderly sect ((variableOf [sect.name, f, k], text) :: vars))
    (hmappings : ∀ f ∈ sect.jsonFields, ∃ a, t.mapping? f = some a) :
    Gathers sect (variableOf [sect.name, f, k], text) vars t := by
  obtain ⟨a, ha⟩ := hmappings f hf
  refine ⟨_, addSingle_of_path hpath (valueOf_text text (by simp)), ?_, fun r hr =>
    Gathered.cons_entry hsect hf h ha (setPath_entry ha k _ ▸ hr)⟩
  intro f' hf'
  obtain rfl := jsonField_unique hsect hf hf'
  rw [setPath_entry ha]
  exact ⟨_, mapping?_setEntry_self t f' _⟩

/-- **The variables of a section, one after the other.** -/
theorem gathered (hsect : sect ∈ Settings.sections) (h : Orderly sect vars)
    (hmappings : ∀ f ∈ sect.jsonFields, ∃ a, t.mapping? f = some a) :
    ∃ r, vars.foldlM (addSingle {} sect) t = .ok r ∧ Gathered sect vars t r := by
  -- The tree changes with each variable, so the induction is for all trees in which the objects can be gathered.
  induction vars generalizing t with
  | nil => exact ⟨t, rfl, .nil sect t⟩
  | cons entry vars ih =>
    obtain ⟨name, text⟩ := entry
    have hgathers : Gathers sect (name, text) vars t := by
      rcases h.sets _ List.mem_cons_self with hnone | hstrays | ⟨path, hsets⟩
      · exact gathers_of_none hsect hnone hmappings
      · exact gathers_of_strays hsect hstrays hmappings
      · have hpath := pathOf?_of_sets hsect hsets
        cases hsets with
        | field hf => exact gathers_of_field hsect hf h hmappings
        | entry hf _ _ => exact gathers_of_entry hsect hf hpath h hmappings
    obtain ⟨t', hadd, hmappings', hcons⟩ := hgathers
    obtain ⟨r, hr, hgathered⟩ := ih h.tail hmappings'
    refine ⟨r, ?_, hcons r hgathered⟩
    rw [List.foldlM_cons, hadd]
    exact hr

end Environment
end RemoteCache
