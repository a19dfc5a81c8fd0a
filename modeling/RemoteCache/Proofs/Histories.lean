/-!
# Histories

A history is a list with the latest entry first: the calls of a line, or the traffic of sockets. `Throughout P`
says of every entry, and of the history before it, what `P` says. It can only be lost by going on.
-/

namespace RemoteCache

variable {α : Type} {P : α → List α → Prop} {after before : List α}

/-- `P` holds of every entry and the history before it. -/
def Throughout (P : α → List α → Prop) : List α → Prop
  | [] => True
  | a :: before => P a before ∧ Throughout P before

theorem Throughout.entry {a : α} (h : Throughout P (after ++ a :: before)) : P a before := by
  induction after with
  | nil => exact h.1
  | cons _ _ ih => exact ih h.2

theorem Throughout.earlier (h : Throughout P (after ++ before)) : Throughout P before := by
  induction after with
  | nil => exact h
  | cons _ _ ih => exact ih h.2

/-- Entries that `P` says nothing about can be left out. -/
theorem throughout_append (hafter : ∀ a ∈ after, ∀ before, P a before) :
    Throughout P (after ++ before) ↔ Throughout P before := by
  refine ⟨Throughout.earlier, ?_⟩
  intro h
  induction after with
  | nil => exact h
  | cons a after ih =>
    have hrest := ih fun b hb => hafter b (List.mem_cons_of_mem _ hb)
    exact ⟨hafter a List.mem_cons_self _, hrest⟩

/-- An entry of a history is after another one, or that one itself, or before it. -/
theorem entry_cases {newer older : List α} {a b : α} (h : after ++ b :: before = newer ++ a :: older) :
    a ∈ after ∨ b = a ∨ ∃ between, newer = after ++ b :: between ∧ before = between ++ a :: older := by
  induction after generalizing newer with
  | nil =>
    cases newer with
    | nil => exact .inr (.inl (List.cons.inj h).1)
    | cons c newer =>
      obtain ⟨rfl, rfl⟩ := List.cons.inj h
      exact .inr (.inr ⟨newer, rfl, rfl⟩)
  | cons c after ih =>
    cases newer with
    | nil =>
      obtain ⟨rfl, -⟩ := List.cons.inj h
      exact .inl List.mem_cons_self
    | cons c' newer =>
      obtain ⟨rfl, hrest⟩ := List.cons.inj h
      rcases ih hrest with hmem | heq | ⟨between, rfl, hbefore⟩
      · exact .inl (List.mem_cons_of_mem _ hmem)
      · exact .inr (.inl heq)
      · exact .inr (.inr ⟨between, rfl, hbefore⟩)

end RemoteCache
