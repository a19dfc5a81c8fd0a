import RemoteCache.Settings.Tree
import Mathlib.Data.List.Nodup

/-!
# Settings trees and what their paths lead to

A tree is *proper* if no mapping in it has a text twice as a key; other keys are no names and do not matter. Setting
an entry, merging two trees and setting values at paths keep trees proper.

What stands at the end of a path of names (`Tree.at?`) tells trees apart as far as settings go, and merging is
understood path by path: **what the stronger tree has at a path counts, and else what the weaker one has there**
(`Tree.at?_merge`). This takes a stronger tree whose values on the way are mappings (`Tree.Open`). A value that is no
mapping would hide what the weaker tree has further on.
-/

namespace RemoteCache

namespace Value

/-! ## Keys -/

/-- A key is the same as a text only if it is this text. -/
theorem sameKey_text {k : Value} {name : String} : k.sameKey (.text name) = true ↔ k = .text name := by
  cases k <;> simp [sameKey, asNumber?]

theorem text_sameKey {k : Value} {name : String} : (Value.text name).sameKey k = true ↔ k = .text name := by
  cases k with
  | text other =>
    rw [sameKey_text]
    exact eq_comm
  | _ => simp [sameKey, asNumber?]

variable {α : Type} {entries : List (Value × Value)} {name : String}

theorem get?_cons (k v : Value) (entries : List (Value × Value)) (name : String) :
    get? ((k, v) :: entries) name = if k.sameKey (.text name) then some v else get? entries name := by
  unfold get? find?
  cases h : k.sameKey (.text name) <;> simp [h]

@[simp] theorem get?_nil (name : String) : get? [] name = none := rfl

theorem get?_setEntry (entries : List (Value × Value)) (key v : Value) (name : String) :
    get? (setEntry entries key v) name = if key.sameKey (.text name) then some v else get? entries name := by
  induction entries with
  | nil => rw [setEntry, get?_cons]
  | cons e rest ih =>
    obtain ⟨k, old⟩ := e
    rw [setEntry]
    by_cases hk : k.sameKey key = true
    · -- The key that stays is the same text as the new one, or none of them is a text.
      have hsame : k.sameKey (.text name) = key.sameKey (.text name) := by
        rw [Bool.eq_iff_iff, sameKey_text, sameKey_text]
        constructor
        · rintro rfl
          exact text_sameKey.1 hk
        · rintro rfl
          exact sameKey_text.1 hk
      rw [if_pos hk, get?_cons, get?_cons, hsame]
      split <;> rfl
    · rw [if_neg hk, get?_cons, get?_cons, ih]
      by_cases hname : k.sameKey (.text name) = true
      · have hkey : ¬ key.sameKey (.text name) = true := by
          intro hkey
          rw [sameKey_text] at hname hkey
          exact hk (by rw [hname, hkey]; exact sameKey_text.2 rfl)
        rw [if_pos hname, if_neg hkey, if_pos hname]
      · rw [if_neg hname, if_neg hname]

theorem get?_setEntry_text (entries : List (Value × Value)) (other : String) (v : Value) (name : String) :
    get? (setEntry entries (.text other) v) name = if other = name then some v else get? entries name := by
  rw [get?_setEntry]
  by_cases h : other = name <;> simp [sameKey, h]

theorem mem_of_get? {v : Value} (h : get? entries name = some v) : (.text name, v) ∈ entries := by
  induction entries with
  | nil => simp at h
  | cons e rest ih =>
    obtain ⟨k, old⟩ := e
    rw [get?_cons] at h
    by_cases hk : k.sameKey (.text name) = true
    · rw [if_pos hk] at h
      cases h
      rw [sameKey_text.1 hk]
      exact List.mem_cons_self
    · rw [if_neg hk] at h
      exact List.mem_cons_of_mem _ (ih h)

/-- The keys that are texts, in their order. -/
def names (entries : List (Value × α)) : List String :=
  entries.filterMap fun (key, _) => match key with
    | .text name => some name
    | _ => none

theorem mem_names {entries : List (Value × α)} : name ∈ names entries ↔ ∃ v, (.text name, v) ∈ entries := by
  unfold names
  rw [List.mem_filterMap]
  constructor
  · rintro ⟨⟨key, v⟩, he, hkey⟩
    cases key <;> simp at hkey
    subst hkey
    exact ⟨v, he⟩
  · rintro ⟨v, he⟩
    exact ⟨(.text name, v), he, rfl⟩

theorem get?_eq_none : get? entries name = none ↔ name ∉ names entries := by
  induction entries with
  | nil => simp [names]
  | cons e rest ih =>
    obtain ⟨k, v⟩ := e
    rw [get?_cons]
    by_cases hk : k.sameKey (.text name) = true
    · obtain rfl := sameKey_text.1 hk
      simp [hk, mem_names]
    · rw [if_neg hk, ih, mem_names, mem_names]
      rw [sameKey_text] at hk
      simp [Ne.symm hk]

theorem get?_of_mem {v : Value} (hnodup : (names entries).Nodup) (h : (.text name, v) ∈ entries) :
    get? entries name = some v := by
  induction entries with
  | nil => simp at h
  | cons e rest ih =>
    obtain ⟨k, old⟩ := e
    rw [get?_cons]
    by_cases hk : k.sameKey (.text name) = true
    · obtain rfl := sameKey_text.1 hk
      have hnames : (name :: names rest).Nodup := hnodup
      rcases List.mem_cons.1 h with heq | hmem
      · cases heq
        rw [if_pos hk]
      · exact absurd (mem_names.2 ⟨v, hmem⟩) (List.nodup_cons.1 hnames).1
    · rw [if_neg hk]
      rcases List.mem_cons.1 h with heq | hmem
      · cases heq
        exact absurd (sameKey_text.2 rfl) hk
      · exact ih (hnodup.sublist (List.Sublist.filterMap _ (List.sublist_cons_self _ _))) hmem

/-- Setting an entry keeps all keys, and adds its own at the end unless it is there. -/
theorem keys_setEntry (entries : List (Value × α)) (key : Value) (v : α) :
    (setEntry entries key v).map (·.1) = entries.map (·.1) ∨
      (∀ e ∈ entries, ¬ e.1.sameKey key = true) ∧
        (setEntry entries key v).map (·.1) = entries.map (·.1) ++ [key] := by
  induction entries with
  | nil => exact .inr ⟨by simp, rfl⟩
  | cons e rest ih =>
    obtain ⟨k, old⟩ := e
    rw [setEntry]
    by_cases hk : k.sameKey key = true
    · rw [if_pos hk]
      exact .inl rfl
    · rw [if_neg hk]
      rcases ih with hsame | ⟨hnone, hmore⟩
      · exact .inl (by simp [hsame])
      · refine .inr ⟨?_, by simp [hmore]⟩
        intro e he
        rcases List.mem_cons.1 he with rfl | he
        · exact hk
        · exact hnone e he

theorem names_eq_of_keys {β : Type} {es : List (Value × α)} {fs : List (Value × β)}
    (h : es.map (·.1) = fs.map (·.1)) : names es = names fs := by
  have hnames {γ : Type} (es : List (Value × γ)) : names es = (es.map (·.1)).filterMap fun
      | .text name => some name
      | _ => none := by
    rw [names, List.filterMap_map]
    rfl
  rw [hnames, hnames, h]

theorem nodup_names_setEntry {entries : List (Value × α)} (h : (names entries).Nodup) (key : Value) (v : α) :
    (names (setEntry entries key v)).Nodup := by
  rcases keys_setEntry entries key v with hsame | ⟨hnone, hmore⟩
  · rwa [names_eq_of_keys hsame]
  · have hkeys : (setEntry entries key v).map (·.1) = (entries ++ [(key, v)]).map (·.1) := by simp [hmore]
    rw [names_eq_of_keys hkeys]
    cases key with
    | text name =>
      have hname : name ∉ names entries := by
        rw [mem_names]
        rintro ⟨v, he⟩
        exact hnone _ he (sameKey_text.2 rfl)
      have hnames : names (entries ++ [(.text name, v)]) = names entries ++ [name] := by
        simp [names]
      rw [hnames, List.nodup_append]
      refine ⟨h, List.nodup_singleton _, ?_⟩
      intro a ha b hb
      rw [List.mem_singleton] at hb
      subst hb
      rintro rfl
      exact hname ha
    | _ => simpa [names] using h

theorem mem_setEntry {entries : List (Value × α)} {key : Value} {v : α} {e : Value × α}
    (he : e ∈ setEntry entries key v) : (e.1 = key ∨ e.1 ∈ entries.map (·.1)) ∧ (e.2 = v ∨ e ∈ entries) := by
  induction entries with
  | nil =>
    rw [setEntry, List.mem_singleton] at he
    simp [he]
  | cons e' rest ih =>
    obtain ⟨k, old⟩ := e'
    rw [setEntry] at he
    by_cases hk : k.sameKey key = true
    · rw [if_pos hk] at he
      rcases List.mem_cons.1 he with rfl | he
      · simp
      · exact ⟨.inr (List.mem_cons_of_mem _ (List.mem_map_of_mem he)), .inr (List.mem_cons_of_mem _ he)⟩
    · rw [if_neg hk] at he
      rcases List.mem_cons.1 he with rfl | he
      · simp
      · obtain ⟨hkey, hvalue⟩ := ih he
        exact ⟨hkey.imp id fun h => List.mem_cons_of_mem _ h, hvalue.imp id fun h => List.mem_cons_of_mem _ h⟩

/-! ## Proper values -/

/-- No mapping in the value has a text twice as a key. -/
inductive Proper : Value → Prop
  | plain {v : Value} : v.isKey = true → Proper v
  | list {items : List Value} : (∀ v ∈ items, Proper v) → Proper (.list items)
  | set {items : List Value} : (∀ v ∈ items, Proper v) → Proper (.set items)
  | dict {entries : List (Value × Value)} : (names entries).Nodup → (∀ e ∈ entries, Proper e.1) →
      (∀ e ∈ entries, Proper e.2) → Proper (.dict entries)

end Value

namespace Tree

open Value

/-- No mapping in the tree has a text twice as a key, nor has the tree itself. -/
structure Proper (t : Tree) : Prop where
  nodup : (names t).Nodup
  keys : ∀ e ∈ t, e.1.Proper
  values : ∀ e ∈ t, e.2.Proper

variable {t weaker stronger : Tree} {name : String} {path : List String}

theorem proper_iff : (Value.dict t).Proper ↔ t.Proper := by
  constructor
  · intro h
    cases h with
    | plain hkey => cases hkey
    | dict hnodup hkeys hvalues => exact ⟨hnodup, hkeys, hvalues⟩
  · intro h
    exact .dict h.nodup h.keys h.values

namespace Proper

theorem nil : Proper [] := ⟨List.nodup_nil, by simp, by simp⟩

theorem tail {e : Value × Value} (h : Proper (e :: t)) : Proper t := by
  refine ⟨?_, fun e he => h.keys e (List.mem_cons_of_mem _ he), fun e he => h.values e (List.mem_cons_of_mem _ he)⟩
  have hnames : List.Sublist (names t) (names (e :: t)) := List.Sublist.filterMap _ (List.sublist_cons_self _ _)
  exact h.nodup.sublist hnames

theorem get? (h : t.Proper) {v : Value} (hv : Value.get? t name = some v) : v.Proper :=
  h.values _ (mem_of_get? hv)

theorem setEntry {key v : Value} (h : t.Proper) (hkey : key.Proper) (hv : v.Proper) :
    Proper (Value.setEntry t key v) := by
  refine ⟨nodup_names_setEntry h.nodup key v, ?_, ?_⟩
  · intro e he
    rcases (mem_setEntry he).1 with heq | hmem
    · rwa [heq]
    · obtain ⟨e', he', heq⟩ := List.mem_map.1 hmem
      exact heq ▸ h.keys e' he'
  · intro e he
    rcases (mem_setEntry he).2 with heq | hmem
    · rwa [heq]
    · exact h.values e hmem

theorem single {v : Value} (hv : v.Proper) : Proper [(.text name, v)] := nil.setEntry (.plain rfl) hv

end Proper

/-! ## Merging -/

theorem merge_nil (weaker : Tree) : merge weaker [] = weaker := by rw [merge]

theorem merge_cons (weaker : Tree) (key v : Value) (rest : Tree) :
    merge weaker ((key, v) :: rest) = merge (setEntry weaker key (mergeValue (find? weaker key) v)) rest := by
  rw [merge]

/-- A value that is no mapping stands alone. -/
theorem mergeValue_of_not_dict {v : Value} (hv : ∀ entries, v ≠ .dict entries) (old : Option Value) :
    mergeValue old v = v := by
  cases v with
  | dict entries => exact absurd rfl (hv entries)
  | _ => rw [mergeValue]; simp

/-- What stands over a mapping is merged into it. -/
theorem mergeValue_dict_dict (under entries : Tree) :
    mergeValue (some (.dict under)) (.dict entries) = .dict (merge under entries) := by rw [mergeValue]

theorem mergeValue_dict {old : Option Value} (hold : ∀ under, old ≠ some (.dict under)) (entries : Tree) :
    mergeValue old (.dict entries) = .dict entries := by
  rw [mergeValue.eq_2]
  exact hold

theorem mergeValue_none (v : Value) : mergeValue none v = v := by
  cases v <;> simp [mergeValue]

theorem Proper.merge_of {values : Tree} (hw : weaker.Proper) (hkeys : ∀ e ∈ values, e.1.Proper)
    (hvalues : ∀ e ∈ values, ∀ old : Option Value, (∀ v, old = some v → v.Proper) → (mergeValue old e.2).Proper) :
    (merge weaker values).Proper := by
  induction values generalizing weaker with
  | nil => rwa [merge_nil]
  | cons e rest ih =>
    obtain ⟨key, v⟩ := e
    rw [merge_cons]
    refine ih (hw.setEntry (hkeys _ List.mem_cons_self) (hvalues _ List.mem_cons_self _ ?_))
      (fun e he => hkeys e (List.mem_cons_of_mem _ he)) fun e he => hvalues e (List.mem_cons_of_mem _ he)
    intro old hold
    obtain ⟨e, he, rfl⟩ := Option.map_eq_some_iff.1 hold
    exact hw.values e (List.mem_of_find?_eq_some he)

theorem proper_mergeValue {v : Value} (hv : v.Proper) :
    ∀ old : Option Value, (∀ v, old = some v → v.Proper) → (mergeValue old v).Proper := by
  induction hv with
  | @plain v hkey =>
    intro old _
    rw [mergeValue_of_not_dict (by rintro entries rfl; cases hkey)]
    exact .plain hkey
  | @list items hitems =>
    intro old _
    rw [mergeValue_of_not_dict (by simp)]
    exact .list hitems
  | @set items hitems =>
    intro old _
    rw [mergeValue_of_not_dict (by simp)]
    exact .set hitems
  | @dict entries hnodup hkeys hvalues _ ih =>
    intro old hold
    by_cases hdict : ∃ under, old = some (.dict under)
    · obtain ⟨under, rfl⟩ := hdict
      rw [mergeValue_dict_dict]
      exact proper_iff.2 ((proper_iff.1 (hold _ rfl)).merge_of hkeys ih)
    · rw [mergeValue_dict (by simpa using hdict)]
      exact .dict hnodup hkeys hvalues

theorem Proper.merge (hw : weaker.Proper) (hs : stronger.Proper) : (weaker.merge stronger).Proper :=
  hw.merge_of hs.keys fun e he => proper_mergeValue (hs.values e he)

/-- Every key of a merged tree is from one of the two. -/
theorem mem_keys_merge {key : Value} (h : key ∈ (weaker.merge stronger).map (·.1)) :
    key ∈ weaker.map (·.1) ∨ key ∈ stronger.map (·.1) := by
  induction stronger generalizing weaker with
  | nil =>
    rw [merge_nil] at h
    exact .inl h
  | cons e rest ih =>
    rw [merge_cons] at h
    rcases ih h with hmem | hmem
    · obtain ⟨e', he', rfl⟩ := List.mem_map.1 hmem
      rcases (mem_setEntry he').1 with heq | hold
      · exact .inr (by simp [heq])
      · exact .inl hold
    · exact .inr (List.mem_cons_of_mem _ hmem)

/-- What stands under a name after merging. -/
theorem get?_merge (hs : (names stronger).Nodup) :
    get? (weaker.merge stronger) name = match get? stronger name with
      | none => get? weaker name
      | some v => some (mergeValue (get? weaker name) v) := by
  induction stronger generalizing weaker with
  | nil => rw [merge_nil, get?_nil]
  | cons e rest ih =>
    obtain ⟨key, v⟩ := e
    have hrest : (names rest).Nodup := hs.sublist (List.Sublist.filterMap _ (List.sublist_cons_self _ _))
    rw [merge_cons, ih hrest, get?_cons, get?_setEntry]
    by_cases hkey : key.sameKey (.text name) = true
    · obtain rfl := sameKey_text.1 hkey
      have hnone : get? rest name = none := by
        rw [get?_eq_none]
        have hnodup : (name :: names rest).Nodup := hs
        exact (List.nodup_cons.1 hnodup).1
      rw [hnone, if_pos hkey, if_pos hkey]
      rfl
    · rw [if_neg hkey, if_neg hkey]

theorem get?_merge_of_none (weaker : Tree) (hs : (names stronger).Nodup) (hnone : get? stronger name = none) :
    get? (weaker.merge stronger) name = get? weaker name := by
  rw [get?_merge hs, hnone]

theorem get?_merge_of_some (weaker : Tree) {v : Value} (hs : (names stronger).Nodup) (hsome : get? stronger name = some v) :
    get? (weaker.merge stronger) name = some (mergeValue (get? weaker name) v) := by
  rw [get?_merge hs, hsome]

/-! ## Paths -/

/-- What stands at the end of a path. -/
def at? (t : Tree) : List String → Option Value
  | [] => none
  | [name] => get? t name
  | name :: next :: path => match get? t name with
    | some (.dict entries) => at? entries (next :: path)
    | _ => none

/-- What stands on the way to the end of a path is a mapping, as far as there is something. -/
def Open (t : Tree) : List String → Prop
  | name :: next :: path => get? t name = none ∨ ∃ entries, get? t name = some (.dict entries) ∧
      Open entries (next :: path)
  | _ => True

theorem at?_cons (t : Tree) (name next : String) (path : List String) :
    at? t (name :: next :: path) = match get? t name with
      | some (.dict entries) => at? entries (next :: path)
      | _ => none := by rw [at?]

/-- **What the stronger tree has at a path is merged over what the weaker one has there.** -/
theorem at?_merge (hs : stronger.Proper) (hopen : stronger.Open path) :
    (weaker.merge stronger).at? path = match stronger.at? path with
      | none => weaker.at? path
      | some v => some (mergeValue (weaker.at? path) v) := by
  induction path generalizing weaker stronger with
  | nil => rfl
  | cons name path ih =>
    cases path with
    | nil => exact get?_merge hs.nodup
    | cons next path =>
      rw [at?_cons, at?_cons, at?_cons]
      rcases hopen with hnone | ⟨entries, hentries, hrest⟩
      · rw [get?_merge_of_none weaker hs.nodup hnone, hnone]
      · have hproper : Tree.Proper entries := proper_iff.1 (hs.get? hentries)
        rw [get?_merge_of_some weaker hs.nodup hentries, hentries]
        by_cases hdict : ∃ under, get? weaker name = some (.dict under)
        · obtain ⟨under, hunder⟩ := hdict
          rw [hunder, mergeValue_dict_dict]
          exact ih hproper hrest
        · have hnot : ∀ under, get? weaker name ≠ some (.dict under) := by simpa using hdict
          -- Nothing of the weaker tree is left on this path.
          have hweaker : (match get? weaker name with
              | some (.dict entries) => at? entries (next :: path)
              | _ => none) = none := by
            split
            · rename_i under hunder
              exact absurd hunder (hnot under)
            · rfl
          rw [mergeValue_dict hnot, hweaker]
          cases hleaf : at? entries (next :: path) with
          | none => simp only [hleaf]
          | some v => simp only [hleaf, mergeValue_none]

theorem at?_merge_of_none (weaker : Tree) (hs : stronger.Proper) (hopen : stronger.Open path)
    (hnone : stronger.at? path = none) : (weaker.merge stronger).at? path = weaker.at? path := by
  rw [at?_merge hs hopen, hnone]

theorem at?_merge_of_some (weaker : Tree) {v : Value} (hs : stronger.Proper) (hopen : stronger.Open path)
    (hsome : stronger.at? path = some v) :
    (weaker.merge stronger).at? path = some (mergeValue (weaker.at? path) v) := by
  rw [at?_merge hs hopen, hsome]

/-- A stronger tree that blocks a path blocks it in the merged tree. -/
theorem Open.of_merge (hs : stronger.Proper) (h : (weaker.merge stronger).Open path) : stronger.Open path := by
  induction path generalizing weaker stronger with
  | nil => trivial
  | cons name path ih =>
    cases path with
    | nil => trivial
    | cons next path =>
      cases hv : get? stronger name with
      | none => exact .inl hv
      | some v =>
        have hget := get?_merge_of_some weaker hs.nodup hv
        rcases h with hnone | ⟨entries, hentries, hrest⟩
        · rw [hnone] at hget
          cases hget
        · rw [hentries, Option.some.injEq] at hget
          by_cases hdict : ∃ es, v = .dict es
          · obtain ⟨es, rfl⟩ := hdict
            refine .inr ⟨es, hv, ?_⟩
            by_cases hunder : ∃ under, get? weaker name = some (.dict under)
            · obtain ⟨under, hunder⟩ := hunder
              rw [hunder, mergeValue_dict_dict, Value.dict.injEq] at hget
              subst hget
              exact ih (proper_iff.1 (hs.get? hv)) hrest
            · rw [mergeValue_dict (by simpa using hunder), Value.dict.injEq] at hget
              exact hget ▸ hrest
          · have hnot : ∀ es, v ≠ .dict es := by simpa using hdict
            rw [mergeValue_of_not_dict hnot] at hget
            exact absurd hget.symm (hnot entries)

/-- Trees that leave a path open leave it open when they are merged. -/
theorem Open.merge (hs : stronger.Proper) (hweaker : weaker.Open path) (hstronger : stronger.Open path) :
    (weaker.merge stronger).Open path := by
  induction path generalizing weaker stronger with
  | nil => trivial
  | cons name path ih =>
    cases path with
    | nil => trivial
    | cons next path =>
      unfold Open
      rcases hstronger with hnone | ⟨entries, hentries, hrest⟩
      · rw [get?_merge_of_none weaker hs.nodup hnone]
        exact hweaker
      · rw [get?_merge_of_some weaker hs.nodup hentries]
        rcases hweaker with hnone | ⟨under, hunder, hrest'⟩
        · rw [hnone, mergeValue_none]
          exact .inr ⟨entries, rfl, hrest⟩
        · rw [hunder, mergeValue_dict_dict]
          exact .inr ⟨_, rfl, ih (proper_iff.1 (hs.get? hentries)) hrest' hrest⟩

end Tree
end RemoteCache
