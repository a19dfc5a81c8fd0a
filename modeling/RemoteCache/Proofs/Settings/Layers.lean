import RemoteCache.Proofs.Settings.Checks
import RemoteCache.Proofs.Settings.Sources

/-!
# The cascade of the sources

The sources come in layers, the strongest first, and each layer is put under what the stronger ones have given
(`Tree.stack`). **Along a path that the stacked tree leaves open, the first layer that has something there counts**
(`Tree.stack_at?`). Settings that are loaded are those that the stacked tree fits (`Settings.load_eq_ok`).
-/

namespace RemoteCache

open Value

namespace Tree

variable {t stronger : Tree} {path : List String} {layers : List Tree}

/-! ## Mappings at paths -/

theorem Proper.within? {entries : Tree} (h : t.Proper) (hentries : t.within? path = some entries) :
    entries.Proper := by
  induction path generalizing t with
  | nil =>
    cases hentries
    exact h
  | cons name path ih =>
    obtain ⟨inner, hinner, hrest⟩ := Option.bind_eq_some_iff.1 hentries
    refine ih ?_ hrest
    rcases mapping?_eq_some.1 hinner with ⟨-, rfl⟩ | hsome
    · exact .nil
    · exact proper_iff.1 (h.get? hsome)

/-- Every key at a path of a merged tree is from one of the two. -/
theorem mem_keys_within?_merge {entries : Tree} {key : Value} (hs : stronger.Proper)
    (hentries : (t.merge stronger).within? path = some entries) (hkey : key ∈ entries.map (·.1)) :
    (∃ es, t.within? path = some es ∧ key ∈ es.map (·.1)) ∨
      ∃ es, stronger.within? path = some es ∧ key ∈ es.map (·.1) := by
  induction path generalizing t stronger with
  | nil =>
    cases hentries
    exact (mem_keys_merge hkey).imp (fun h => ⟨t, rfl, h⟩) fun h => ⟨stronger, rfl, h⟩
  | cons name path ih =>
    obtain ⟨inner, hinner, hrest⟩ := Option.bind_eq_some_iff.1 hentries
    have hweaker {es : Tree} (hget : get? t name = some (.dict es)) : t.within? (name :: path) = es.within? path := by
      rw [Tree.within?, mapping?_eq_some.2 (.inr hget), Option.bind_some]
    have hstronger {es : Tree} (hget : get? stronger name = some (.dict es)) :
        stronger.within? (name :: path) = es.within? path := by
      rw [Tree.within?, mapping?_eq_some.2 (.inr hget), Option.bind_some]
    rcases mapping?_eq_some.1 hinner with ⟨-, rfl⟩ | hsome
    · rw [within?_nil_left] at hrest
      cases hrest
      simp at hkey
    · cases hv : get? stronger name with
      | none =>
        rw [get?_merge_of_none t hs.nodup hv] at hsome
        exact .inl ⟨entries, (hweaker hsome).trans hrest, hkey⟩
      | some v =>
        rw [get?_merge_of_some t hs.nodup hv, Option.some.injEq] at hsome
        by_cases hdict : ∃ es, v = .dict es
        · obtain ⟨es, rfl⟩ := hdict
          by_cases hunder : ∃ under, get? t name = some (.dict under)
          · obtain ⟨under, hunder⟩ := hunder
            rw [hunder, mergeValue_dict_dict, Value.dict.injEq] at hsome
            subst hsome
            rw [hweaker hunder, hstronger hv]
            exact ih (proper_iff.1 (hs.get? hv)) hrest
          · rw [mergeValue_dict (by simpa using hunder), Value.dict.injEq] at hsome
            subst hsome
            exact .inr ⟨entries, (hstronger hv).trans hrest, hkey⟩
        · have hnot : ∀ es, v ≠ .dict es := by simpa using hdict
          rw [mergeValue_of_not_dict hnot] at hsome
          exact absurd hsome (hnot inner)

/-! ## Layers -/

/-- Layers, the strongest first, put under a tree. -/
def stackOn (t : Tree) (layers : List Tree) : Tree := layers.foldl (fun stronger weaker => weaker.merge stronger) t

/-- Layers, the strongest first, as one tree. -/
def stack (layers : List Tree) : Tree := stackOn [] layers

theorem proper_stackOn (ht : t.Proper) (hlayers : ∀ layer ∈ layers, layer.Proper) : (stackOn t layers).Proper := by
  induction layers generalizing t with
  | nil => exact ht
  | cons layer rest ih =>
    exact ih ((hlayers _ List.mem_cons_self).merge ht) fun other hother => hlayers other (List.mem_cons_of_mem _ hother)

theorem proper_stack (hlayers : ∀ layer ∈ layers, layer.Proper) : (stack layers).Proper :=
  proper_stackOn .nil hlayers

/-- What stands at a path is no mapping, but a value or nothing. -/
def Plain (t : Tree) (path : List String) : Prop := ∀ entries, t.at? path ≠ some (.dict entries)

/-- Where the stronger tree has a plain value, the weaker one is not looked at. -/
theorem at?_merge_of_plain (weaker : Tree) (hs : stronger.Proper) (hopen : stronger.Open path)
    (hplain : stronger.Plain path) :
    (weaker.merge stronger).at? path = (stronger.at? path).or (weaker.at? path) := by
  cases hv : stronger.at? path with
  | none => rw [at?_merge_of_none weaker hs hopen hv, Option.none_or]
  | some v =>
    have hnot : ∀ entries, v ≠ .dict entries := by
      rintro entries rfl
      exact hplain entries hv
    rw [at?_merge_of_some weaker hs hopen hv, Option.some_or, mergeValue_of_not_dict hnot]

theorem Plain.of_merge {weaker : Tree} (hs : stronger.Proper) (hopen : stronger.Open path)
    (h : (weaker.merge stronger).Plain path) : stronger.Plain path := by
  intro entries hentries
  have hmerged := at?_merge_of_some weaker hs hopen hentries
  by_cases hunder : ∃ under, weaker.at? path = some (.dict under)
  · obtain ⟨under, hunder⟩ := hunder
    rw [hunder, mergeValue_dict_dict] at hmerged
    exact h _ hmerged
  · rw [mergeValue_dict (by simpa using hunder)] at hmerged
    exact h _ hmerged

/-- The layers are followed from the strongest one on; what is stronger than a layer is open and plain, too. -/
theorem stackOn_at? (ht : t.Proper) (hlayers : ∀ layer ∈ layers, layer.Proper) (hopen : (stackOn t layers).Open path)
    (hplain : (stackOn t layers).Plain path) :
    t.Open path ∧ t.Plain path ∧ (stackOn t layers).at? path = (t.at? path).or (layers.findSome? (·.at? path)) := by
  induction layers generalizing t with
  | nil => exact ⟨hopen, hplain, by simp [stackOn]⟩
  | cons layer rest ih =>
    have hlayer : (layer.merge t).Proper := (hlayers _ List.mem_cons_self).merge ht
    obtain ⟨hopen', hplain', heq⟩ := ih hlayer (fun other hother => hlayers other (List.mem_cons_of_mem _ hother))
      hopen hplain
    have htopen : t.Open path := hopen'.of_merge ht
    have htplain : t.Plain path := hplain'.of_merge ht htopen
    refine ⟨htopen, htplain, ?_⟩
    calc (stackOn t (layer :: rest)).at? path
        = ((layer.merge t).at? path).or (rest.findSome? (·.at? path)) := heq
      _ = ((t.at? path).or (layer.at? path)).or (rest.findSome? (·.at? path)) := by
          rw [at?_merge_of_plain layer ht htopen htplain]
      _ = (t.at? path).or ((layer :: rest).findSome? (·.at? path)) := by
          rw [Option.or_assoc, List.findSome?_cons]
          cases layer.at? path <;> rfl

/-- **The first layer that has something at a path counts.** -/
theorem stack_at? (hlayers : ∀ layer ∈ layers, layer.Proper) (hopen : (stack layers).Open path)
    (hplain : (stack layers).Plain path) : (stack layers).at? path = layers.findSome? (·.at? path) := by
  obtain ⟨-, -, heq⟩ := stackOn_at? .nil hlayers hopen hplain
  rw [stack, heq, at?_nil, Option.none_or]

/-- Layers that leave a path open and have plain values there are stacked to one that does, too. -/
theorem stackOn_at?_of_layers (ht : t.Proper) (hopen : t.Open path) (hplain : t.Plain path)
    (hlayers : ∀ layer ∈ layers, layer.Proper ∧ layer.Open path ∧ layer.Plain path) :
    (stackOn t layers).Open path ∧ (stackOn t layers).at? path = (t.at? path).or (layers.findSome? (·.at? path)) := by
  induction layers generalizing t with
  | nil => exact ⟨hopen, by simp [stackOn]⟩
  | cons layer rest ih =>
    obtain ⟨hproper, hopen', hplain'⟩ := hlayers _ List.mem_cons_self
    have hat := at?_merge_of_plain layer ht hopen hplain
    have hmerged : (layer.merge t).Plain path := by
      intro entries hentries
      rw [hat] at hentries
      rcases Option.or_eq_some_iff.1 hentries with h | ⟨-, h⟩
      · exact hplain entries h
      · exact hplain' entries h
    obtain ⟨hstack, heq⟩ := ih (hproper.merge ht) (hopen'.merge ht hopen) hmerged
      fun other hother => hlayers other (List.mem_cons_of_mem _ hother)
    refine ⟨hstack, ?_⟩
    calc (stackOn t (layer :: rest)).at? path
        = ((layer.merge t).at? path).or (rest.findSome? (·.at? path)) := heq
      _ = (t.at? path).or ((layer :: rest).findSome? (·.at? path)) := by
          rw [hat, Option.or_assoc, List.findSome?_cons]
          cases layer.at? path <;> rfl

theorem stack_at?_of_layers (hlayers : ∀ layer ∈ layers, layer.Proper ∧ layer.Open path ∧ layer.Plain path) :
    (stack layers).Open path ∧ (stack layers).at? path = layers.findSome? (·.at? path) := by
  have hplain : Plain [] path := by simp [Plain, at?_nil]
  have hopen : Open [] path := by
    rcases path with - | ⟨name, - | ⟨next, path⟩⟩
    · trivial
    · trivial
    · exact .inl rfl
  obtain ⟨hstack, heq⟩ := stackOn_at?_of_layers .nil hopen hplain hlayers
  exact ⟨hstack, by rw [stack, heq, at?_nil, Option.none_or]⟩

theorem mem_keys_stackOn {entries : Tree} {key : Value} (ht : t.Proper) (hlayers : ∀ layer ∈ layers, layer.Proper)
    (hentries : (stackOn t layers).within? path = some entries) (hkey : key ∈ entries.map (·.1)) :
    ∃ layer ∈ t :: layers, ∃ es, layer.within? path = some es ∧ key ∈ es.map (·.1) := by
  induction layers generalizing t with
  | nil => exact ⟨t, List.mem_cons_self, entries, hentries, hkey⟩
  | cons layer rest ih =>
    have hlayer : (layer.merge t).Proper := (hlayers _ List.mem_cons_self).merge ht
    obtain ⟨other, hother, es, hes, hmem⟩ := ih hlayer
      (fun other hother => hlayers other (List.mem_cons_of_mem _ hother)) hentries
    rcases List.mem_cons.1 hother with rfl | hrest
    · rcases mem_keys_within?_merge ht hes hmem with ⟨es', hes', hmem'⟩ | ⟨es', hes', hmem'⟩
      · exact ⟨layer, by simp, es', hes', hmem'⟩
      · exact ⟨t, by simp, es', hes', hmem'⟩
    · exact ⟨other, by simp [hrest], es, hes, hmem⟩

/-- Every key at a path of a stack is from a layer. -/
theorem mem_keys_stack {entries : Tree} {key : Value} (hlayers : ∀ layer ∈ layers, layer.Proper)
    (hentries : (stack layers).within? path = some entries) (hkey : key ∈ entries.map (·.1)) :
    ∃ layer ∈ layers, ∃ es, layer.within? path = some es ∧ key ∈ es.map (·.1) := by
  obtain ⟨layer, hlayer, es, hes, hmem⟩ := mem_keys_stackOn .nil hlayers hentries hkey
  rcases List.mem_cons.1 hlayer with rfl | hlayer
  · rw [within?_nil_left] at hes
    cases hes
    simp at hmem
  · exact ⟨layer, hlayer, es, hes, hmem⟩

end Tree

namespace Settings

open Results Validation

/-- The trees of the sources, the strongest first. -/
def Sources.layers? (sources : Sources) : Except Error (List Tree) := do
  let options ← (Environment.Options.ofTree sources.arguments).mapError .option
  let file ← ofFile sources.file
  let environment ← ofEnvironment options sources.environment
  if file.any (isBytes ·.1) then throw .rootBytes
  return [onlySections sources.arguments, environment, onlySections file]

/-- Settings that have passed their checks. -/
def ofChecked : Checked Settings → Except Error Settings
  | .valid settings => .ok settings
  | .faulty issues => .error (.invalid issues)

theorem load_eq_ok {sources : Sources} {settings : Settings} :
    load sources = .ok settings ↔
      ∃ layers, sources.layers? = .ok layers ∧ check (Tree.stack layers) = .valid settings := by
  have hload : load sources = sources.layers? >>= fun layers => ofChecked (check (Tree.stack layers)) := by
    unfold load Sources.layers?
    simp only [bind_assoc]
    refine bind_congr fun options => bind_congr fun file => bind_congr fun environment => ?_
    have hstack : Tree.stack [onlySections sources.arguments, environment, onlySections file] =
        (onlySections file).merge (environment.merge (onlySections sources.arguments)) := by
      simp only [Tree.stack, Tree.stackOn, List.foldl_cons, List.foldl_nil, Tree.merge_nil]
    simp only [← hstack]
    split
    · rfl
    · show _ = ofChecked (check (Tree.stack [onlySections sources.arguments, environment, onlySections file]))
      cases check (Tree.stack [onlySections sources.arguments, environment, onlySections file]) <;> rfl
  rw [hload, bind_eq_ok]
  refine exists_congr fun layers => and_congr_right fun _ => ?_
  cases check (Tree.stack layers) with
  | valid s => simp [ofChecked]
  | faulty issues => simp [ofChecked]

theorem Sources.proper_layers {sources : Sources} {layers : List Tree} (harguments : sources.arguments.Proper)
    (h : sources.layers? = .ok layers) : ∀ layer ∈ layers, layer.Proper := by
  unfold Sources.layers? at h
  obtain ⟨options, -, h⟩ := bind_eq_ok.1 h
  obtain ⟨file, hfile, h⟩ := bind_eq_ok.1 h
  obtain ⟨environment, henvironment, h⟩ := bind_eq_ok.1 h
  split at h
  · cases h
  · cases h
    simp only [List.mem_cons, List.not_mem_nil, or_false, forall_eq_or_imp, forall_eq]
    exact ⟨proper_onlySections harguments, proper_of_ofEnvironment henvironment,
      proper_onlySections (proper_of_ofFile hfile)⟩

end Settings
end RemoteCache
