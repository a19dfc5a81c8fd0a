/-!
# Entries in order

Mappings that show the order in which their keys were first set: lists of pairs in which no key comes twice.
Looking a key up is `List.lookup`.
-/

namespace RemoteCache.Entries

variable {α β : Type} [DecidableEq α]

/-- Sets an entry: a key that is there already keeps its place. -/
def put (entries : List (α × β)) (key : α) (value : β) : List (α × β) :=
  match entries with
  | [] => [(key, value)]
  | (k, v) :: rest => if k = key then (key, value) :: rest else (k, v) :: put rest key value

def drop (entries : List (α × β)) (key : α) : List (α × β) := entries.filter (·.1 ≠ key)

/-- Sets an entry before others: if its key comes again, then the later value counts. -/
def before (key : α) (value : β) (rest : List (α × β)) : List (α × β) :=
  (key, (rest.lookup key).getD value) :: drop rest key

/-- Sets several entries in turn. -/
def putAll (entries : List (α × β)) (more : List (α × β)) : List (α × β) :=
  more.foldl (fun entries (key, value) => put entries key value) entries

theorem lookup_cons (key : α) (value : β) (rest : List (α × β)) (other : α) :
    ((key, value) :: rest).lookup other = if other = key then some value else rest.lookup other := by
  by_cases h : other = key
  · simp [h]
  · simp [List.lookup_cons, h, beq_eq_false_iff_ne.2 h]

theorem mem_of_lookup {entries : List (α × β)} {key : α} {value : β} (h : entries.lookup key = some value) :
    (key, value) ∈ entries := by
  obtain ⟨before, after, rfl, -⟩ := List.lookup_eq_some_iff.1 h
  simp

theorem mem_put {entries : List (α × β)} {key : α} {value : β} {e : α × β} (h : e ∈ put entries key value) :
    e = (key, value) ∨ e ∈ entries := by
  induction entries with
  | nil => exact .inl (by simpa [put] using h)
  | cons e' rest ih =>
    obtain ⟨k, v⟩ := e'
    by_cases hk : k = key
    · rw [put, if_pos hk, List.mem_cons] at h
      exact h.imp id (List.mem_cons_of_mem _)
    · rw [put, if_neg hk, List.mem_cons] at h
      rcases h with rfl | h
      · exact .inr List.mem_cons_self
      · exact (ih h).imp id (List.mem_cons_of_mem _)

/-- An entry has been set, or was there before. -/
theorem mem_putAll {entries more : List (α × β)} {e : α × β} (h : e ∈ putAll entries more) :
    e ∈ more ∨ e ∈ entries := by
  induction more generalizing entries with
  | nil => exact .inr h
  | cons e' more ih =>
    have hcases : e ∈ more ∨ e ∈ put entries e'.1 e'.2 := ih h
    rcases hcases with hmore | hput
    · exact .inl (List.mem_cons_of_mem _ hmore)
    · rcases mem_put hput with rfl | hold
      · exact .inl List.mem_cons_self
      · exact .inr hold

theorem lookup_put (entries : List (α × β)) (key : α) (value : β) (other : α) :
    (put entries key value).lookup other = if other = key then some value else entries.lookup other := by
  induction entries with
  | nil => simp [put, lookup_cons]
  | cons e rest ih =>
    obtain ⟨k, v⟩ := e
    by_cases hk : k = key
    · by_cases h : other = key <;> simp [put, lookup_cons, hk, h]
    · by_cases h : other = key
      · subst h
        simp [put, lookup_cons, hk, ih, Ne.symm hk]
      · simp [put, lookup_cons, hk, ih, h]

theorem put_of_not_mem {entries : List (α × β)} {key : α} (h : key ∉ entries.map (·.1)) (value : β) :
    put entries key value = entries ++ [(key, value)] := by
  induction entries with
  | nil => rfl
  | cons e rest ih =>
    obtain ⟨k, v⟩ := e
    rw [List.map_cons, List.mem_cons, not_or] at h
    rw [put, if_neg (Ne.symm h.1), ih h.2]
    rfl

/-- Where no key comes twice, the entries are taken over as they are. -/
theorem putAll_of_nodup {entries more : List (α × β)} (h : ((entries ++ more).map (·.1)).Nodup) :
    putAll entries more = entries ++ more := by
  induction more generalizing entries with
  | nil => rw [List.append_nil]; rfl
  | cons e more ih =>
    obtain ⟨key, value⟩ := e
    have hsplit : entries ++ (key, value) :: more = entries ++ [(key, value)] ++ more := by simp
    have hkey : key ∉ entries.map (·.1) := by
      intro hmem
      rw [List.map_append, List.map_cons, List.nodup_append] at h
      exact h.2.2 key hmem key List.mem_cons_self rfl
    have hput : putAll entries ((key, value) :: more) = putAll (put entries key value) more := rfl
    rw [hput, put_of_not_mem hkey, ih (hsplit ▸ h), ← hsplit]

theorem lookup_drop (entries : List (α × β)) (key other : α) :
    (drop entries key).lookup other = if other = key then none else entries.lookup other := by
  induction entries with
  | nil => simp [drop]
  | cons e rest ih =>
    obtain ⟨k, v⟩ := e
    unfold drop at ih ⊢
    by_cases hk : k = key
    · rw [List.filter_cons_of_neg (by simp [hk]), ih, lookup_cons]
      by_cases h : other = key <;> simp [h, hk]
    · rw [List.filter_cons_of_pos (by simp [hk]), lookup_cons, lookup_cons, ih]
      by_cases h : other = key
      · subst h
        simp [Ne.symm hk]
      · simp [h]

theorem lookup_before (key : α) (value : β) (rest : List (α × β)) (other : α) :
    (before key value rest).lookup other =
      if other = key then some ((rest.lookup key).getD value) else rest.lookup other := by
  rw [before, lookup_cons, lookup_drop]
  by_cases h : other = key <;> simp [h]

end RemoteCache.Entries
