import RemoteCache.Json.Reader
import RemoteCache.Proofs.Results
import RemoteCache.Proofs.Settings.Trees

/-!
# What reading JSON gives

The entries of an object are set one after the other, so no name comes twice in what is read: it is a proper value.
The readers of values, items and entries call each other with less and less fuel, and the proof goes along with it.
-/

namespace RemoteCache.Json

open Results

theorem isKey_ofPoints (points : Text.Points) : (Value.ofPoints points).isKey = true := by
  unfold Value.ofPoints
  split <;> rfl

theorem orMalformed_eq_ok {α : Type} {x : Option α} {a : α} : orMalformed x = .ok a ↔ x = some a := by
  cases x <;> simp [orMalformed]

/-- A word is no collection, nor is a text or a number. -/
theorem isKey_of_readScalar? {cs rest : List Char} {v : Value} (h : readScalar? cs = some (v, rest)) :
    v.isKey = true := by
  have hnumber {negative : Bool} {cs : List Char} (h : readNumber? negative cs = some (v, rest)) :
      v.isKey = true := by
    unfold readNumber? at h
    simp only [Option.bind_eq_bind, Option.bind_eq_some_iff] at h
    obtain ⟨⟨whole, rest'⟩, -, h⟩ := h
    dsimp only at h
    split at h
    · split at h
      · cases h
      · cases h
        rfl
    · cases h
      rfl
  unfold readScalar? at h
  split at h
  · rename_i r hword
    cases h
    unfold readWord? at hword
    obtain ⟨⟨word, v'⟩, hmem, hdrop⟩ := List.exists_of_findSome?_eq_some hword
    obtain ⟨rest', -, heq⟩ := Option.map_eq_some_iff.1 hdrop
    cases heq
    have hwords : ∀ entry ∈ words, entry.2.isKey = true := by decide
    exact hwords _ hmem
  · split at h
    · obtain ⟨⟨text, rest'⟩, -, heq⟩ := Option.map_eq_some_iff.1 h
      cases heq
      exact isKey_ofPoints text
    · exact hnumber h
    · exact hnumber h

/-- What the readers give with some fuel is proper. -/
structure GivesProper (fuel : Nat) : Prop where
  value : ∀ {depth : Nat} {cs rest : List Char} {v : Value}, readValue depth fuel cs = .ok (v, rest) → v.Proper
  items : ∀ {depth : Nat} {cs rest : List Char} {items : List Value},
    readItems depth fuel cs = .ok (items, rest) → ∀ v ∈ items, v.Proper
  entries : ∀ {depth : Nat} {cs rest : List Char} {t t' : Tree}, t.Proper →
    readEntries depth fuel t cs = .ok (t', rest) → t'.Proper

theorem givesProper (fuel : Nat) : GivesProper fuel := by
  induction fuel with
  | zero =>
    constructor
    · intro depth cs rest v h
      simp [readValue] at h
    · intro depth cs rest items h
      simp [readItems] at h
    · intro depth cs rest t t' _ h
      simp [readEntries] at h
  | succ fuel ih =>
    constructor
    · intro depth cs rest v h
      cases cs with
      | nil => simp [readValue] at h
      | cons c cs =>
        rw [readValue] at h
        split at h
        · split at h
          · cases h
          · split at h
            · cases h
              exact .list (by simp)
            · obtain ⟨⟨items, rest'⟩, hitems, heq⟩ := map_eq_ok.1 h
              cases heq
              exact .list (ih.items hitems)
        · split at h
          · split at h
            · cases h
            · split at h
              · cases h
              · split at h
                · cases h
                  exact Tree.proper_iff.2 .nil
                · obtain ⟨⟨entries, rest'⟩, hentries, heq⟩ := map_eq_ok.1 h
                  cases heq
                  exact Tree.proper_iff.2 (ih.entries .nil hentries)
          · exact .plain (isKey_of_readScalar? (orMalformed_eq_ok.1 h))
    · intro depth cs rest items h
      rw [readItems] at h
      obtain ⟨⟨v, rest'⟩, hv, h⟩ := bind_eq_ok.1 h
      have hproper : v.Proper := ih.value hv
      dsimp only at h
      split at h
      · obtain ⟨⟨more, rest''⟩, hmore, heq⟩ := bind_eq_ok.1 h
        cases heq
        exact List.forall_mem_cons.2 ⟨hproper, ih.items hmore⟩
      · cases h
        exact List.forall_mem_cons.2 ⟨hproper, by simp⟩
      · cases h
    · intro depth cs rest t t' ht h
      unfold readEntries at h
      split at h
      · obtain ⟨⟨key, rest'⟩, -, h⟩ := bind_eq_ok.1 h
        dsimp only at h
        split at h
        · obtain ⟨⟨v, rest''⟩, hv, h⟩ := bind_eq_ok.1 h
          have hset : Tree.Proper (Value.setEntry t (.ofPoints key) v) :=
            ht.setEntry (.plain (isKey_ofPoints key)) (ih.value hv)
          dsimp only at h
          split at h
          · exact ih.entries hset h
          · split at h
            · cases h
              exact hset
            · cases h
          · cases h
        · cases h
      · cases h

/-- **What is read from a text is proper.** -/
theorem proper_of_read {text : String} {v : Value} (h : read text = .ok v) : v.Proper := by
  unfold read at h
  obtain ⟨⟨v', rest⟩, hvalue, h⟩ := bind_eq_ok.1 h
  dsimp only at h
  split at h
  · cases h
    exact (givesProper _).value hvalue
  · cases h

end RemoteCache.Json
