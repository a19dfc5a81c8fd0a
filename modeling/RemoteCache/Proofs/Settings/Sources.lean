import RemoteCache.Proofs.Json
import RemoteCache.Proofs.Yaml
import RemoteCache.Settings

/-!
# The trees of the sources

Every source of settings gives a proper tree: the file because its document is proper, and the environment because
its texts are, and because values are set one after the other at their paths. Arguments are proper if what is handed
over is. What is left of a tree when only its sections are looked at is proper, too.
-/

namespace RemoteCache

open Results Value

namespace Tree

variable {t : Tree}

/-- Changing the end of a path keeps a tree proper. -/
theorem Proper.updatePath {update : Option Value → Value} (h : t.Proper) (path : List String)
    (hupdate : ∀ old : Option Value, (∀ v, old = some v → v.Proper) → (update old).Proper) :
    (t.updatePath path update).Proper := by
  induction path generalizing t with
  | nil => exact h
  | cons name path ih =>
    cases path with
    | nil => exact h.setEntry (.plain rfl) (hupdate _ fun v hv => h.get? hv)
    | cons next path =>
      rw [Tree.updatePath]
      split
      · exact h.setEntry (.plain rfl) (proper_iff.2 (ih .nil))
      · rename_i entries hentries
        exact h.setEntry (.plain rfl) (proper_iff.2 (ih (proper_iff.1 (h.get? hentries))))
      · exact h

theorem Proper.setPath {v : Value} (h : t.Proper) (path : List String) (hv : v.Proper) : (t.setPath path v).Proper :=
  h.updatePath path fun _ _ => hv

theorem Proper.addPath {v : Value} (h : t.Proper) (path : List String) (hv : v.Proper) :
    (t.addPath path v).Proper := by
  refine h.updatePath path ?_
  intro old hold
  split
  · exact hv
  · exact hv
  · exact hold _ rfl

/-- Setting entries one after the other keeps a tree proper. -/
theorem Proper.foldl_setEntry {α : Type} {as : List α} {key value : α → Value} (h : t.Proper)
    (hkeys : ∀ a ∈ as, (key a).Proper) (hvalues : ∀ a ∈ as, (value a).Proper) :
    Proper (as.foldl (fun t a => Value.setEntry t (key a) (value a)) t) := by
  induction as generalizing t with
  | nil => exact h
  | cons a as ih =>
    refine ih (h.setEntry (hkeys a List.mem_cons_self) (hvalues a List.mem_cons_self)) ?_ ?_
    · exact fun a ha => hkeys a (List.mem_cons_of_mem _ ha)
    · exact fun a ha => hvalues a (List.mem_cons_of_mem _ ha)

end Tree

/-! ## The environment -/

namespace Environment

variable {o : Options} {sect : Section}

theorem proper_of_valueOf {path : List String} {text : String} {v : Value} (h : valueOf o sect path text = .ok v) :
    v.Proper := by
  have hplain : (if o.isNullWord text then Value.null else .text text).Proper := by
    split <;> exact .plain rfl
  unfold valueOf at h
  dsimp only at h
  split at h
  · split at h
    · exact Json.proper_of_read h
    · cases h
      exact hplain
  · cases h
    exact hplain

theorem proper_of_singles {vars : Variables} {t : Tree} (h : singles o sect vars = .ok t) : t.Proper := by
  refine foldlM_keeps h ?_ Tree.Proper.nil
  rintro ⟨name, text⟩ - t t' ht hstep
  dsimp only at hstep
  split at hstep
  · cases hstep
    exact ht
  · obtain ⟨v, hv, rfl⟩ := map_eq_ok.1 hstep
    have hproper : v.Proper := proper_of_valueOf hv
    split
    · exact ht.addPath _ hproper
    · exact ht.setPath _ hproper

/-- The key of an entry when fields have the letter case of their names. -/
def fieldKey (sect : Section) : Value → Value
  | .text name => .text ((sect.fields.find? (· = lowered name)).getD name)
  | key => key

theorem fieldNames_eq (o : Options) (sect : Section) (t : Tree) :
    fieldNames o sect t =
      if o.isCaseSensitive then t else t.foldl (fun t e => setEntry t (fieldKey sect e.1) e.2) [] := by
  unfold fieldNames
  split
  · rfl
  · congr 1
    funext t ⟨key, v⟩
    cases key with
    | text name =>
      dsimp only [fieldKey]
      cases sect.fields.find? (· = lowered name) <;> rfl
    | _ => rfl

theorem proper_fieldNames {t : Tree} (h : t.Proper) : (fieldNames o sect t).Proper := by
  rw [fieldNames_eq]
  split
  · exact h
  · refine Tree.Proper.nil.foldl_setEntry ?_ h.values
    rintro ⟨key, v⟩ he
    cases key with
    | text name => exact .plain rfl
    | _ => exact h.keys _ he

theorem proper_of_ofSection {vars : Variables} {v : Value} (h : ofSection o sect vars = .ok (some v)) : v.Proper := by
  unfold ofSection at h
  split at h
  · obtain ⟨t, ht, h⟩ := bind_eq_ok.1 h
    have hproper : t.Proper := proper_of_singles ht
    split at h
    · cases h
    · cases h
      exact Tree.proper_iff.2 (proper_fieldNames hproper)
  · split at h
    · cases h
      exact .plain rfl
    · obtain ⟨v', hread, h⟩ := bind_eq_ok.1 h
      have hproper : v'.Proper := Json.proper_of_read hread
      split at h
      · cases h
      · obtain ⟨t, ht, h⟩ := bind_eq_ok.1 h
        cases h
        exact Tree.proper_iff.2 (proper_fieldNames ((Tree.proper_iff.1 hproper).merge (proper_of_singles ht)))
      · cases h
        exact hproper

end Environment

namespace Settings

theorem proper_of_ofEnvironment {o : Environment.Options} {env : Environment.Variables} {t : Tree}
    (h : ofEnvironment o env = .ok t) : t.Proper := by
  refine foldlM_keeps h ?_ Tree.Proper.nil
  intro sect _ t t' ht hstep
  split at hstep
  · cases hstep
  · cases hstep
  · cases hstep
    exact ht
  · rename_i v hv
    cases hstep
    exact ht.setEntry (.plain rfl) (Environment.proper_of_ofSection hv)

/-! ## The file -/

/-- The halves of a pair are proper if the pair is. -/
theorem proper_of_pairOf {item key v : Value} (hitem : item.Proper) (h : pairOf item = .ok (key, v)) :
    key.Proper ∧ v.Proper := by
  have hpoints (points : Text.Points) : (Value.ofPoints points).Proper := .plain (Json.isKey_ofPoints points)
  unfold pairOf at h
  split at h
  · split at h
    · cases h
      exact ⟨.plain rfl, .plain rfl⟩
    · cases h
  · split at h
    · cases h
      exact ⟨hpoints _, hpoints _⟩
    · cases h
  · split at h
    · cases h
      exact ⟨.plain rfl, .plain rfl⟩
    · cases h
  · cases h
    cases hitem with
    | plain hkey => cases hkey
    | list hitems => exact ⟨hitems _ (by simp), hitems _ (by simp)⟩
  · cases h
    cases hitem with
    | plain hkey => cases hkey
    | set hitems => exact ⟨hitems _ (by simp), hitems _ (by simp)⟩
  · cases h
    cases hitem with
    | plain hkey => cases hkey
    | dict _ hkeys =>
      simp only [List.mem_cons, List.not_mem_nil, or_false, forall_eq_or_imp, forall_eq] at hkeys
      exact hkeys
  all_goals cases h

theorem proper_of_treeOfPairs {items : List Value} {t : Tree} (hitems : ∀ v ∈ items, v.Proper)
    (h : treeOfPairs items = .ok t) : t.Proper := by
  refine foldlM_keeps h ?_ Tree.Proper.nil
  intro item hitem t t' ht hstep
  obtain ⟨⟨key, v⟩, hpair, hstep⟩ := bind_eq_ok.1 hstep
  obtain ⟨hkey, hv⟩ := proper_of_pairOf (hitems item hitem) hpair
  dsimp only at hstep
  split at hstep
  · cases hstep
    exact ht.setEntry hkey hv
  · cases hstep

theorem proper_of_treeOfRoot {root : Value} {t : Tree} (hroot : root.Proper) (h : treeOfRoot root = .ok t) :
    t.Proper := by
  unfold treeOfRoot at h
  split at h
  · cases h
    exact .nil
  · cases hroot with
    | plain hkey =>
      cases root with
      | list | set | dict => cases hkey
      | _ => cases h
    | dict hnodup hkeys hvalues =>
      cases h
      exact ⟨hnodup, hkeys, hvalues⟩
    | list hitems | set hitems => exact proper_of_treeOfPairs hitems h

theorem proper_of_ofFile {file : Option String} {t : Tree} (h : ofFile file = .ok t) : t.Proper := by
  unfold ofFile at h
  split at h
  · cases h
    exact .nil
  · obtain ⟨root, hroot, h⟩ := bind_eq_ok.1 h
    obtain ⟨t', ht, h⟩ := bind_eq_ok.1 h
    have hproper := proper_of_treeOfRoot (Yaml.proper_of_read (mapError_eq_ok.1 hroot)) ht
    split at h
    · cases h
      exact hproper
    · cases h

/-! ## Sections -/

theorem proper_onlySections {t : Tree} (h : t.Proper) : (onlySections t).Proper := by
  have hmem {e : Value × Value} (he : e ∈ onlySections t) :
      ∃ sect ∈ sections, e.1 = .text sect.name ∧ ∃ key, (key, e.2) ∈ t := by
    obtain ⟨sect, hsect, hfound⟩ := List.mem_filterMap.1 he
    obtain ⟨⟨key, v⟩, hfind, rfl⟩ := Option.map_eq_some_iff.1 hfound
    exact ⟨sect, hsect, rfl, key, List.mem_of_find?_eq_some hfind⟩
  refine ⟨?_, ?_, ?_⟩
  · unfold onlySections sections
    simp only [List.filterMap_cons, List.filterMap_nil]
    cases t.find? fun e => namesSection loggingSection e.1 <;>
      cases t.find? fun e => namesSection storageSection e.1 <;>
      simp [names, loggingSection, storageSection]
  · intro e he
    obtain ⟨sect, -, heq, -⟩ := hmem he
    exact heq ▸ .plain rfl
  · intro e he
    obtain ⟨-, -, -, key, hkey⟩ := hmem he
    exact h.values (key, e.2) hkey

end Settings
end RemoteCache
