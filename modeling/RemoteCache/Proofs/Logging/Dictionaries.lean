import RemoteCache.Proofs.Logging.Histories
import RemoteCache.Proofs.Results

/-!
# Contexts as dictionaries

The state of logging holds contexts as values. Underneath, a context is a dictionary, which everybody who holds it may
change. Here the state is looked at one level deeper: dictionaries are kept at places, and one of them is bound.

Reading the context hands out a copy of the bound dictionary. Binding fills a copy and binds this one once it is
filled, so where a text cannot be made nothing is bound. Entering a block binds a copy and saves the place of the
dictionary before; leaving the block binds the dictionary at this place.

A memory is `Sound` if no dictionary that is bound, or saved by an open block, has been handed out. Every step keeps it
so, and does to the state (`Memory.state`) what the step of the state does: `bind_of_ok`, `state_enter`, `state_leave`.
Reading the context, changing what has been read, and binding without success do nothing to it (`Spares`). Every state
is that of a sound memory (`sound_ofState`, `state_ofState`).
-/

namespace RemoteCache.Logging

/-! ## Values to bind -/

/-- What is given for a name: a value, or the failure that making its text ends in. -/
abbrev Given := Except Failure Value

/-- The values that are given, if all their texts can be made. -/
def values? : List (String × Given) → Except Failure (List (String × Value))
  | [] => .ok []
  | (_, .error f) :: _ => .error f
  | (name, .ok v) :: rest => (values? rest).map ((name, v) :: ·)

theorem Context.bind_cons (ctx : Context) (name : String) (v : Value) (values : List (String × Value)) :
    ctx.bind ((name, v) :: values) = if v.isNull then ctx.bind values else (ctx.set name v.display).bind values := by
  cases v <;> rfl

/-! ## Memories -/

structure Memory where
  /-- The dictionaries, in the order in which they were made. -/
  dictionaries : List Context := [[]]
  /-- The place of the bound dictionary. -/
  bound : Nat := 0
  /-- The places that the open blocks have saved, the innermost block's first. -/
  saved : List Nat := []
  /-- The places of the dictionaries that were handed out, the latest first. -/
  handed : List Nat := []
  level : Level := .warning
  sinks : List Sink := []

namespace Memory

/-- The place of the next dictionary. -/
def next (m : Memory) : Nat := m.dictionaries.length

def contents (m : Memory) (place : Nat) : Context := m.dictionaries[place]?.getD []

def context (m : Memory) : Context := m.contents m.bound

/-- The state of logging as it shows. -/
def state (m : Memory) : State where
  context := m.context
  outer := m.saved.map m.contents
  level := m.level
  sinks := m.sinks

/-- Copies the bound dictionary. -/
def copy (m : Memory) : Memory := { m with dictionaries := m.dictionaries ++ [m.context] }

/-- Changes a dictionary where it stands. -/
def change (m : Memory) (place : Nat) (edit : Context → Context) : Memory :=
  { m with dictionaries := m.dictionaries.modify place edit }

/-! ## Steps -/

/-- Reads the context. -/
def read (m : Memory) : Memory := { m.copy with handed := m.next :: m.handed }

/-- Changes the dictionary that was handed out `n` reads ago. -/
def alter (m : Memory) (n : Nat) (edit : Context → Context) : Memory :=
  match m.handed[n]? with
  | some place => m.change place edit
  | none => m

/-- Sets the texts of some values in turn. -/
def fill (place : Nat) : List (String × Given) → Memory → Except Failure Unit × Memory
  | [], m => (.ok (), m)
  | (_, .error f) :: _, m => (.error f, m)
  | (name, .ok v) :: rest, m => fill place rest (if v.isNull then m else m.change place (·.set name v.display))

/-- Binds some values. -/
def bind (m : Memory) (values : List (String × Given)) : Except Failure Unit × Memory :=
  if values.isEmpty then (.ok (), m)
  else match fill m.next values m.copy with
    | (.ok (), n) => (.ok (), { n with bound := m.next })
    | (.error f, n) => (.error f, n)

/-- Enters a block. -/
def enter (m : Memory) : Memory := { m.copy with bound := m.next, saved := m.bound :: m.saved }

/-- Leaves the innermost block. -/
def leave (m : Memory) : Memory :=
  match m.saved with
  | [] => m
  | place :: rest => { m with bound := place, saved := rest }

/-! ## What dictionaries hold -/

variable {m n : Memory} {place : Nat} {edit : Context → Context}

theorem next_copy (m : Memory) : m.copy.next = m.next + 1 := by
  simp [next, copy]

theorem next_change (m : Memory) (place : Nat) (edit : Context → Context) : (m.change place edit).next = m.next :=
  List.length_modify _ _ _

theorem contents_copy (h : place < m.next) : m.copy.contents place = m.contents place := by
  unfold contents copy
  rw [List.getElem?_append_left h]

theorem contents_copy_next (m : Memory) : m.copy.contents m.next = m.context := by
  simp [contents, copy, next]

theorem contents_change (h : place < m.next) : (m.change place edit).contents place = edit (m.contents place) := by
  unfold next at h
  simp [contents, change, h]

theorem contents_change_ne {other : Nat} (h : place ≠ other) :
    (m.change place edit).contents other = m.contents other := by
  simp [contents, change, h]

/-- Filling changes one dictionary: it binds the values if all their texts can be made. -/
theorem fill_eq (place : Nat) (values : List (String × Given)) (m : Memory) :
    ∃ edit, fill place values m = ((values? values).map fun _ => (), m.change place edit) ∧
      ∀ vs, values? values = .ok vs → edit = (·.bind vs) := by
  have hid (m : Memory) : m.change place id = m := by
    rw [change, List.modify_id]
  induction values generalizing m with
  | nil =>
    refine ⟨id, by rw [hid]; rfl, ?_⟩
    intro vs hvs
    cases hvs
    rfl
  | cons entry rest ih =>
    obtain ⟨name, given⟩ := entry
    cases given with
    | error f =>
      refine ⟨id, by rw [hid]; rfl, ?_⟩
      intro vs hvs
      cases hvs
    | ok v =>
      let first : Context → Context := fun ctx => if v.isNull then ctx else ctx.set name v.display
      have hfirst : (if v.isNull then m else m.change place (·.set name v.display)) = m.change place first := by
        cases hnull : v.isNull
        · simp [first, hnull]
        · simp only [first, hnull, if_true]
          exact (hid m).symm
      obtain ⟨edit, hedit, hbind⟩ := ih (m.change place first)
      refine ⟨edit ∘ first, ?_, ?_⟩
      · rw [fill, hfirst, hedit, values?, change, change, List.modify_modify_eq]
        cases values? rest <;> rfl
      · intro vs hvs
        obtain ⟨vs', hvs', rfl⟩ := Results.map_eq_ok.1 hvs
        funext ctx
        rw [hbind vs' hvs', Context.bind_cons]
        simp only [Function.comp, first]
        split <;> rfl

/-! ## Soundness -/

/-- Nobody else holds the dictionary that is bound, or one that a block will bind again. -/
structure Sound (m : Memory) : Prop where
  kept : ∀ place ∈ m.bound :: m.saved, place < m.next ∧ place ∉ m.handed
  known : ∀ place ∈ m.handed, place < m.next

/-- A step changes no dictionary but those that were handed out and new ones. -/
structure Spares (m n : Memory) : Prop where
  bound : n.bound = m.bound
  saved : n.saved = m.saved
  level : n.level = m.level
  sinks : n.sinks = m.sinks
  next : m.next ≤ n.next
  handed : ∀ place ∈ n.handed, place ∈ m.handed ∨ m.next ≤ place ∧ place < n.next
  contents : ∀ place < m.next, place ∉ m.handed → n.contents place = m.contents place

theorem Spares.sound (h : Spares m n) (hm : m.Sound) : n.Sound where
  kept := by
    intro place hplace
    rw [h.bound, h.saved] at hplace
    obtain ⟨hlt, hnot⟩ := hm.kept place hplace
    refine ⟨Nat.lt_of_lt_of_le hlt h.next, fun hhanded => ?_⟩
    obtain hold | ⟨hnew, -⟩ := h.handed place hhanded
    · exact hnot hold
    · omega
  known := by
    intro place hplace
    obtain hold | ⟨-, hlt⟩ := h.handed place hplace
    · exact Nat.lt_of_lt_of_le (hm.known place hold) h.next
    · exact hlt

theorem Spares.state_eq (h : Spares m n) (hm : m.Sound) : n.state = m.state := by
  have hcontents : ∀ place ∈ m.bound :: m.saved, n.contents place = m.contents place :=
    fun place hplace => h.contents place (hm.kept place hplace).1 (hm.kept place hplace).2
  obtain ⟨hbound, hsaved⟩ := List.forall_mem_cons.1 hcontents
  have hcontext : n.context = m.context := by rw [context, h.bound, hbound, context]
  rw [state, hcontext, h.saved, h.level, h.sinks, List.map_congr_left hsaved]
  rfl

/-- Reading the context spares it. -/
theorem spares_read (m : Memory) : Spares m m.read where
  bound := rfl
  saved := rfl
  level := rfl
  sinks := rfl
  next := by
    show m.next ≤ m.copy.next
    rw [next_copy]
    omega
  handed := by
    intro place hplace
    obtain rfl | hold := List.mem_cons.1 hplace
    · refine .inr ⟨Nat.le_refl _, ?_⟩
      show m.next < m.copy.next
      rw [next_copy]
      omega
    · exact .inl hold
  contents := fun _ hplace _ => contents_copy hplace

/-- What has been read may be changed at will. -/
theorem spares_alter (m : Memory) (n : Nat) (edit : Context → Context) : Spares m (m.alter n edit) := by
  unfold alter
  cases hplace : m.handed[n]? with
  | none => exact ⟨rfl, rfl, rfl, rfl, Nat.le_refl _, fun _ h => .inl h, fun _ _ _ => rfl⟩
  | some place =>
    refine ⟨rfl, rfl, rfl, rfl, Nat.le_of_eq (next_change m place edit).symm, fun _ h => .inl h, ?_⟩
    rintro other - hnot
    refine contents_change_ne ?_
    rintro rfl
    exact hnot (List.mem_of_getElem? hplace)

/-- A copy that is not bound may be changed at will. -/
theorem spares_copy (m : Memory) (edit : Context → Context) : Spares m (m.copy.change m.next edit) where
  bound := rfl
  saved := rfl
  level := rfl
  sinks := rfl
  next := by
    rw [next_change, next_copy]
    omega
  handed := fun _ h => .inl h
  contents := by
    intro place hplace _
    rw [contents_change_ne (Nat.ne_of_gt hplace), contents_copy hplace]

/-! ## Binding -/

/-- Binds a copy that has been changed, while the blocks have saved these places. -/
def rebind (m : Memory) (edit : Context → Context) (saved : List Nat) : Memory :=
  { m.copy.change m.next edit with bound := m.next, saved := saved }

/-- Nobody else holds a copy. -/
theorem sound_rebind (hm : m.Sound) {saved : List Nat} (hsaved : saved ⊆ m.bound :: m.saved) :
    (m.rebind edit saved).Sound where
  kept := by
    have hnext : (m.rebind edit saved).next = m.next + 1 := (next_change _ _ _).trans (next_copy m)
    intro place hplace
    rw [hnext]
    obtain rfl | hold := List.mem_cons.1 hplace
    · exact ⟨Nat.lt_succ_self _, fun hhanded => Nat.lt_irrefl _ (hm.known _ hhanded)⟩
    · obtain ⟨hlt, hnot⟩ := hm.kept place (hsaved hold)
      exact ⟨Nat.lt_succ_of_lt hlt, hnot⟩
  known := by
    intro place hplace
    have hlt := hm.known place hplace
    exact Nat.lt_of_lt_of_le hlt (spares_copy m edit).next

theorem state_rebind (hm : m.Sound) {saved : List Nat} (hsaved : saved ⊆ m.bound :: m.saved) :
    (m.rebind edit saved).state = { m.state with context := edit m.context, outer := saved.map m.contents } := by
  have hcontext : (m.rebind edit saved).context = edit m.context := by
    show (m.copy.change m.next edit).contents m.next = _
    rw [contents_change (by rw [next_copy]; exact Nat.lt_succ_self _), contents_copy_next]
  have houter : saved.map (m.rebind edit saved).contents = saved.map m.contents := by
    refine List.map_congr_left fun place hplace => ?_
    obtain ⟨hlt, hnot⟩ := hm.kept place (hsaved hplace)
    exact (spares_copy m edit).contents place hlt hnot
  show State.mk _ (saved.map (m.rebind edit saved).contents) _ _ = _
  rw [hcontext, houter]
  rfl

/-- Binding binds the values, if all their texts can be made. -/
theorem bind_of_ok {givens : List (String × Given)} {vs : List (String × Value)} (hm : m.Sound)
    (hvalues : values? givens = .ok vs) :
    (m.bind givens).1 = .ok () ∧ (m.bind givens).2.Sound ∧ (m.bind givens).2.state = m.state.bind vs := by
  cases givens with
  | nil =>
    cases hvalues
    exact ⟨rfl, hm, rfl⟩
  | cons given rest =>
    obtain ⟨edit, hfill, hedit⟩ := fill_eq m.next (given :: rest) m.copy
    obtain rfl := hedit vs hvalues
    have hbind : m.bind (given :: rest) = (.ok (), m.rebind (·.bind vs) m.saved) := by
      unfold bind
      rw [hfill, hvalues]
      rfl
    have hsaved := List.subset_cons_self m.bound m.saved
    rw [hbind]
    exact ⟨rfl, sound_rebind hm hsaved, state_rebind hm hsaved⟩

/-- Where a text cannot be made, binding fails and binds nothing. -/
theorem bind_of_error {givens : List (String × Given)} {f : Failure} (hvalues : values? givens = .error f) :
    (m.bind givens).1 = .error f ∧ Spares m (m.bind givens).2 := by
  cases givens with
  | nil => cases hvalues
  | cons given rest =>
    obtain ⟨edit, hfill, -⟩ := fill_eq m.next (given :: rest) m.copy
    have hbind : m.bind (given :: rest) = (.error f, m.copy.change m.next edit) := by
      unfold bind
      rw [hfill, hvalues]
      rfl
    rw [hbind]
    exact ⟨rfl, spares_copy m edit⟩

/-! ## Blocks -/

theorem enter_eq (m : Memory) : m.enter = m.rebind id (m.bound :: m.saved) := by
  unfold enter rebind change
  rw [List.modify_id]

theorem sound_enter (hm : m.Sound) : m.enter.Sound := by
  rw [enter_eq]
  exact sound_rebind hm (List.Subset.refl _)

/-- Entering a block saves the context. -/
theorem state_enter (hm : m.Sound) : m.enter.state = { m.state with outer := m.context :: m.state.outer } := by
  rw [enter_eq, state_rebind hm (List.Subset.refl _)]
  rfl

theorem sound_leave (hm : m.Sound) : m.leave.Sound := by
  unfold leave
  cases hsaved : m.saved with
  | nil => exact hm
  | cons place rest =>
    refine ⟨fun other hother => hm.kept other ?_, hm.known⟩
    rw [hsaved]
    exact List.mem_cons_of_mem _ hother

/-- Leaving a block restores what was saved. -/
theorem state_leave (m : Memory) : m.leave.state = m.state.pop := by
  unfold leave State.pop
  cases hsaved : m.saved with
  | nil => simp [state, hsaved]
  | cons place rest =>
    have houter : m.state.outer = m.contents place :: rest.map m.contents := by simp [state, hsaved]
    rw [houter]
    rfl

/-! ## Memories of a state -/

/-- A memory in which a state is looked at first: each context has a dictionary of its own. -/
def ofState (s : State) : Memory where
  dictionaries := s.context :: s.outer
  saved := (List.range s.outer.length).map (· + 1)
  level := s.level
  sinks := s.sinks

theorem sound_ofState (s : State) : (ofState s).Sound where
  kept := by
    intro place hplace
    refine ⟨?_, List.not_mem_nil⟩
    simp only [ofState, List.mem_cons, List.mem_map, List.mem_range] at hplace
    simp only [next, ofState, List.length_cons]
    omega
  known := fun _ h => absurd h List.not_mem_nil

theorem state_ofState (s : State) : (ofState s).state = s := by
  have houter : (ofState s).saved.map (ofState s).contents = s.outer := by
    refine List.ext_getElem (by simp [ofState]) fun i h₁ h₂ => ?_
    simp [ofState, contents, h₂]
  show State.mk _ ((ofState s).saved.map (ofState s).contents) _ _ = _
  rw [houter]
  rfl

end Memory
end RemoteCache.Logging
