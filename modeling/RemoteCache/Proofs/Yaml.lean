import RemoteCache.Proofs.Results
import RemoteCache.Proofs.Settings.Trees
import RemoteCache.Yaml

/-!
# What reading documents gives

The entries of a mapping are set one after the other, and a text is no collection. So what is noted down of the nodes
is in order at every point (`Contents.Sound`): keys are no collections, and no mapping has a text twice as a key. Each
step that looks at nodes keeps this (`Contents.Keeps`), and the tree of a document is proper to any depth.
-/

namespace RemoteCache.Yaml

open Results

/-! ## Texts -/

theorem TimeText.isKey_of_value? {t : TimeText} {v : Value} (h : t.value? = some v) : v.isKey = true := by
  simp only [value?] at h
  split at h
  · split at h
    · cases h
      rfl
    · cases h
  · split at h
    · cases h
      rfl
    · cases h

/-- The value of a text is no collection. -/
theorem Leaf.isKey_of_ofChars {tag : Tag} {cs : List Char} {v : Value} (h : Leaf.ofChars tag cs = .ok v) :
    v.isKey = true := by
  cases tag with
  | null | text =>
    cases h
    rfl
  | bool =>
    simp only [ofChars, bool] at h
    split at h
    · cases h
      rfl
    · cases h
  | int =>
    obtain ⟨n, -, rfl⟩ := map_eq_ok.1 h
    rfl
  | real =>
    simp only [ofChars, real] at h
    split at h
    · cases h
    · obtain ⟨x, -, rfl⟩ := map_eq_ok.1 h
      rfl
  | binary =>
    simp only [ofChars, binary] at h
    split at h
    · obtain ⟨b, -, rfl⟩ := map_eq_ok.1 h
      rfl
    · cases h
  | time =>
    simp only [ofChars, time] at h
    split at h
    · cases h
    · split at h
      · rename_i t _ v' hvalue
        cases h
        exact TimeText.isKey_of_value? hvalue
      · cases h
  | sequence | mapping | set | pairs | merge | content | unknown => cases h

theorem Leaf.isKey_of_read {tag : Tag} {text : Text.Points} {v : Value} (h : Leaf.read tag text = .ok v) :
    v.isKey = true := by
  unfold Leaf.read at h
  split at h
  · exact isKey_of_ofChars h
  · cases h
    rfl
  · cases h
    rfl
  all_goals cases h

theorem Contents.isKey_of_leafOf {d : Document} {tag : Tag} {id : Nat} {v : Value}
    (h : Contents.leafOf d tag id = .ok v) : v.isKey = true := by
  unfold leafOf at h
  split at h
  · cases h
  · obtain ⟨text, -, h⟩ := bind_eq_ok.1 h
    split at h
    · cases h
    · exact Leaf.isKey_of_read h

/-! ## What is noted down -/

/-- Keys and leaves are no collections, and no mapping has a text twice as a key. -/
inductive Content.Sound : Content → Prop
  | leaf {v : Value} : v.isKey = true → Sound (.leaf v)
  | list (items : List Nat) : Sound (.list items)
  | pairs (entries : List (Nat × Nat)) : Sound (.pairs entries)
  | set {keys : List Value} : (∀ k ∈ keys, k.isKey = true) → Sound (.set keys)
  | dict {entries : List (Value × Nat)} : (∀ e ∈ entries, e.1.isKey = true) → (Value.names entries).Nodup →
      Sound (.dict entries)

namespace Contents

def Sound (c : Contents) : Prop := ∀ content, some content ∈ c.known → content.Sound

variable {α β : Type} {P : α → Prop} {Q : β → Prop} {d : Document}

/-- A step that leaves sound contents sound, and what it hands over is as `P` says. -/
def Keeps (P : α → Prop) (step : Step α) : Prop :=
  ∀ c a c', c.Sound → step c = .ok a c' → c'.Sound ∧ P a

theorem keeps_pure {a : α} (h : P a) : Keeps P (pure a) := by
  intro c a' c' hc heq
  cases heq
  exact ⟨hc, h⟩

theorem keeps_throw (e : Error) : Keeps P (throw e) := by
  intro c a c' _ heq
  cases heq

theorem Keeps.bind {step : Step α} {next : α → Step β} (h : Keeps P step) (hnext : ∀ a, P a → Keeps Q (next a)) :
    Keeps Q (step >>= next) := by
  intro c b c' hc heq
  simp only [Bind.bind, EStateM.bind] at heq
  cases hstep : step c with
  | ok a c'' =>
    rw [hstep] at heq
    obtain ⟨hc'', ha⟩ := h c a c'' hc hstep
    exact hnext a ha c'' b c' hc'' heq
  | error e c'' =>
    rw [hstep] at heq
    cases heq

theorem keeps_lift {r : Except Error α} (h : ∀ a, r = .ok a → P a) : Keeps P (lift r) := by
  intro c a c' hc heq
  cases r with
  | ok b =>
    cases heq
    exact ⟨hc, h _ rfl⟩
  | error e => cases heq

theorem keeps_note (id : Nat) {content : Content} (h : content.Sound) : Keeps (fun _ => True) (note id content) := by
  intro c _ c' hc heq
  cases heq
  refine ⟨?_, trivial⟩
  intro other hother
  rcases Array.mem_or_eq_of_mem_setIfInBounds hother with hmem | heq
  · exact hc other hmem
  · cases heq
    exact h

/-- What is known of a node is sound. -/
theorem keeps_known (id : Nat) : Keeps (fun content? => ∀ content, content? = some content → content.Sound)
    (known? id) := by
  intro c _ c' hc heq
  cases heq
  refine ⟨hc, ?_⟩
  intro content hcontent
  rw [Array.getD_eq_getD_getElem?] at hcontent
  cases hknown : c.known[id]? with
  | none => simp [hknown] at hcontent
  | some content? =>
    rw [hknown, Option.getD_some] at hcontent
    exact hc content (hcontent ▸ Array.mem_of_getElem? hknown)

theorem keeps_enqueue (id : Nat) : Keeps (fun _ => True) (enqueue id) := by
  intro c _ c' hc heq
  cases heq
  exact ⟨hc, trivial⟩

theorem keeps_takeWaiting : Keeps (fun _ => True) takeWaiting := by
  intro c _ c' hc heq
  cases heq
  exact ⟨hc, trivial⟩

/-! ## Looking at nodes -/

/-- What stands for a node that was looked at is no collection. -/
theorem keeps_visitAs (tag : Tag) (id : Nat) : Keeps (fun v? => ∀ v, v? = some v → v.isKey = true) (visitAs d tag id) := by
  unfold visitAs
  refine (keeps_known id).bind ?_
  intro content? hcontent
  match content? with
  | some (.leaf v) =>
    refine keeps_pure ?_
    cases hcontent _ rfl with
    | leaf hkey => simpa using hkey
  | some (.list _) | some (.dict _) | some (.set _) | some (.pairs _) => exact keeps_pure (by simp)
  | none =>
    dsimp only
    split
    · refine (keeps_note id (.list [])).bind fun _ _ => (keeps_enqueue id).bind fun _ _ => keeps_pure (by simp)
    · refine (keeps_lift fun v hv => isKey_of_leafOf hv).bind fun v hkey => ?_
      exact (keeps_note id (.leaf hkey)).bind fun _ _ => keeps_pure (by simpa using hkey)

theorem keeps_visit (id : Nat) : Keeps (fun v? => ∀ v, v? = some v → v.isKey = true) (visit d id) := keeps_visitAs _ id

theorem keeps_visitAll (ids : List Nat) : Keeps (fun _ => True) (visitAll d ids) := by
  induction ids with
  | nil => exact keeps_pure trivial
  | cons id rest ih => exact (keeps_visit id).bind fun _ _ => ih

theorem keeps_visitKey (id : Nat) : Keeps (·.isKey = true) (visitKey d id) := by
  unfold visitKey
  refine (keeps_visitAs _ id).bind ?_
  intro v? hv
  cases v? with
  | none => exact keeps_throw _
  | some v => exact keeps_pure (hv v rfl)

theorem keeps_visitEntries (entries : List (Nat × Nat)) :
    Keeps (fun es => ∀ e ∈ es, e.1.isKey = true) (visitEntries d entries) := by
  induction entries with
  | nil => exact keeps_pure (by simp)
  | cons e rest ih =>
    obtain ⟨key, value⟩ := e
    refine (keeps_visitKey key).bind fun k hk => (keeps_visit value).bind fun _ _ => ih.bind fun es hes => ?_
    exact keeps_pure (List.forall_mem_cons.2 ⟨hk, hes⟩)

/-- Entries that are set one after the other. -/
theorem foldl_setEntry_sound {entries es : List (Value × Nat)} (hentries : ∀ e ∈ entries, e.1.isKey = true)
    (hkeys : ∀ e ∈ es, e.1.isKey = true) (hnodup : (Value.names es).Nodup) :
    let all := entries.foldl (fun es (key, value) => Value.setEntry es key value) es
    (∀ e ∈ all, e.1.isKey = true) ∧ (Value.names all).Nodup := by
  induction entries generalizing es with
  | nil => exact ⟨hkeys, hnodup⟩
  | cons e rest ih =>
    obtain ⟨key, value⟩ := e
    have hkey : key.isKey = true := hentries _ List.mem_cons_self
    refine ih (fun e he => hentries e (List.mem_cons_of_mem _ he)) ?_ (Value.nodup_names_setEntry hnodup key value)
    intro e he
    rcases (Value.mem_setEntry he).1 with heq | hmem
    · rwa [heq]
    · obtain ⟨e', he', heq⟩ := List.mem_map.1 hmem
      exact heq ▸ hkeys e' he'

theorem keeps_entriesOf (id : Nat) :
    Keeps (fun es => (∀ e ∈ es, e.1.isKey = true) ∧ (Value.names es).Nodup) (entriesOf d id) := by
  unfold entriesOf
  refine (keeps_lift (P := fun _ => True) fun _ _ => trivial).bind fun entries _ => ?_
  refine (keeps_visitEntries entries).bind fun es hes => keeps_pure ?_
  exact foldl_setEntry_sound hes (by simp) List.nodup_nil

theorem keeps_visitPairs (ids : List Nat) : Keeps (fun _ => True) (visitPairs d ids) := by
  induction ids with
  | nil => exact keeps_pure trivial
  | cons id rest ih =>
    unfold visitPairs
    split
    · exact (keeps_visit _).bind fun _ _ => (keeps_visit _).bind fun _ _ => ih.bind fun _ _ => keeps_pure trivial
    · exact keeps_throw _

/-! ## Documents -/

theorem keeps_openNode (id : Nat) : Keeps (fun _ => True) (openNode d id) := by
  unfold openNode
  split
  · exact (keeps_visitAll _).bind fun _ _ => keeps_note id (.list _)
  · exact (keeps_visitPairs _).bind fun _ _ => keeps_note id (.pairs _)
  · exact (keeps_entriesOf id).bind fun _ h => keeps_note id (.dict h.1 h.2)
  · refine (keeps_entriesOf id).bind fun es h => keeps_note id (.set ?_)
    intro k hk
    obtain ⟨e, he, rfl⟩ := List.mem_map.1 hk
    exact h.1 e he
  · exact keeps_throw _

theorem keeps_openAll (ids : List Nat) : Keeps (fun _ => True) (openAll d ids) := by
  induction ids with
  | nil => exact keeps_pure trivial
  | cons id rest ih => exact (keeps_openNode id).bind fun _ _ => ih

theorem keeps_openRest (fuel : Nat) : Keeps (fun _ => True) (openRest d fuel) := by
  induction fuel with
  | zero => exact keeps_pure trivial
  | succ fuel ih =>
    unfold openRest
    refine keeps_takeWaiting.bind fun ids _ => ?_
    split
    · exact keeps_pure trivial
    · exact (keeps_openAll _).bind fun _ _ => ih

theorem sound_of_ofDocument {c : Contents} (h : ofDocument d = .ok c) : c.Sound := by
  have hall : Keeps (fun _ => True) (visit d d.root >>= fun _ => openRest d (d.nodes.size + 1)) :=
    (keeps_visit d.root).bind fun _ _ => keeps_openRest _
  unfold ofDocument at h
  dsimp only at h
  split at h
  · rename_i c' heq
    cases h
    refine (hall _ () _ ?_ heq).1
    intro content hcontent
    simp at hcontent
  · cases h

/-! ## Trees -/

theorem proper_treeOf {trees : Nat → Value} (htrees : ∀ id, (trees id).Proper) {content : Content}
    (h : content.Sound) : (treeOf trees content).Proper := by
  cases h with
  | leaf hkey => exact .plain hkey
  | list items =>
    refine .list ?_
    simpa using fun id _ => htrees id
  | pairs entries =>
    refine .list ?_
    intro v hv
    obtain ⟨e, -, rfl⟩ := List.mem_map.1 hv
    exact .list (by simp [htrees])
  | set hkeys => exact .set fun k hk => .plain (hkeys k hk)
  | @dict entries hkeys hnodup =>
    have hnames : Value.names (entries.map fun (key, value) => (key, trees value)) = Value.names entries :=
      Value.names_eq_of_keys (by simp)
    refine .dict (hnames ▸ hnodup) ?_ ?_
    · intro e he
      obtain ⟨e', he', rfl⟩ := List.mem_map.1 he
      exact .plain (hkeys e' he')
    · intro e he
      obtain ⟨e', -, rfl⟩ := List.mem_map.1 he
      exact htrees e'.2

theorem proper_getD {values : Array Value} (h : ∀ v ∈ values, v.Proper) (id : Nat) : (values.getD id .null).Proper := by
  rw [Array.getD_eq_getD_getElem?]
  cases hv : values[id]? with
  | none => exact .plain rfl
  | some v => exact h v (Array.mem_of_getElem? hv)

theorem proper_trees {nodes : Array Content} (h : ∀ content ∈ nodes, content.Sound) (depth : Nat) :
    ∀ v ∈ trees nodes depth, v.Proper := by
  induction depth with
  | zero =>
    intro v hv
    obtain ⟨content, hcontent, rfl⟩ := Array.mem_map.1 hv
    exact proper_treeOf (fun _ => .plain rfl) (h content hcontent)
  | succ depth ih =>
    intro v hv
    obtain ⟨content, hcontent, rfl⟩ := Array.mem_map.1 hv
    exact proper_treeOf (proper_getD ih) (h content hcontent)

end Contents

/-- **What is read from a document is proper.** -/
theorem proper_of_read {text : String} {v : Value} (h : read text = .ok v) : v.Proper := by
  unfold read at h
  dsimp only at h
  split at h
  · cases h
  · obtain ⟨document?, -, h⟩ := bind_eq_ok.1 h
    split at h
    · cases h
      exact .plain rfl
    · obtain ⟨c, hc, h⟩ := bind_eq_ok.1 h
      cases h
      have hsound : c.Sound := Contents.sound_of_ofDocument hc
      refine Contents.proper_getD (Contents.proper_trees ?_ _) _
      intro content hcontent
      obtain ⟨content?, hmem, rfl⟩ := Array.mem_map.1 hcontent
      cases content? with
      | none => exact .leaf rfl
      | some content => exact hsound content hmem

end RemoteCache.Yaml
