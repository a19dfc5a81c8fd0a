import RemoteCache.Yaml

/-!
# A value behind nested keys

A document with three keys, each on a line of its own and further in than the one before, and a plain text behind the
last one is read as three mappings with one entry each, and the innermost entry is what the text is for
(`read_nested`). This holds for all keys and texts that no token of another kind starts with.

The three stages of reading are followed one after the other. Each says what it does with one key, whatever surrounds
it, so the nesting is the same lemma three times.

* Tokens: a key starts a mapping (`Reading.run_key`, `Reading.run_line`), and the end of the document ends all of them
  (`Reading.run_last`).
* Nodes: a mapping with one entry is read around what is read of the entry (`Builder.ofPlace_entry`).
* Contents: a node is opened when it is the only one that waits (`Contents.openNode_entry`), and the tree of a mapping
  shows the tree of its entry (`Contents.getD_trees_entry`).
-/

namespace RemoteCache.Yaml

/-! ## Going forward -/

namespace Cursor

theorem forward_succ (c : Cursor) (n : Nat) : c.forward (n + 1) = c.step.forward n := by
  induction n with
  | zero => rfl
  | succ n ih =>
    show (c.forward (n + 1)).step = (c.step.forward n).step
    rw [ih]

/-- A character that takes a column of its line. -/
def IsInner (c : Char) : Prop := isBreak c = false ∧ c.toNat ≠ 0xfeff

theorem forward_inner {cs rest : List Char} (hcs : ∀ c ∈ cs, IsInner c) (index line column : Nat) :
    forward ⟨cs ++ rest, index, line, column⟩ cs.length =
      ⟨rest, index + cs.length, line, column + cs.length⟩ := by
  induction cs generalizing index column with
  | nil => rfl
  | cons c cs ih =>
    obtain ⟨hc, hcs⟩ := List.forall_mem_cons.1 hcs
    have hstep : step ⟨c :: cs ++ rest, index, line, column⟩ = ⟨cs ++ rest, index + 1, line, column + 1⟩ := by
      simp [step, hc.1, hc.2]
    rw [List.length_cons, forward_succ, hstep, ih hcs]
    simp only [Nat.add_assoc, Nat.add_comm 1]

theorem goTo_inner {cs : List Char} (hcs : ∀ c ∈ cs, IsInner c) (rest : List Char) (index line column : Nat) :
    goTo ⟨cs ++ rest, index, line, column⟩ rest = ⟨rest, index + cs.length, line, column + cs.length⟩ := by
  have hlength : (cs ++ rest).length - rest.length = cs.length := by simp
  rw [goTo, hlength, forward_inner hcs]

/-- Behind a line feed a new line starts. -/
theorem goTo_line {cs : List Char} (hcs : ∀ c ∈ cs, IsInner c) (rest : List Char) (index line column : Nat) :
    goTo ⟨cs ++ '\n' :: rest, index, line, column⟩ rest = ⟨rest, index + cs.length + 1, line + 1, 0⟩ := by
  have hlength : (cs ++ '\n' :: rest).length - rest.length = cs.length + 1 := by simp; omega
  have hforward : forward ⟨cs ++ '\n' :: rest, index, line, column⟩ (cs.length + 1) =
      (forward ⟨cs ++ '\n' :: rest, index, line, column⟩ cs.length).step := rfl
  rw [goTo, hlength, hforward, forward_inner hcs]
  rfl

end Cursor

/-! ## Words -/

/-- A character in the middle of a plain text: no blank, no line break and no colon. -/
structure IsPlainChar (c : Char) : Prop where
  allowed : isAllowed c = true
  noGap : isGapChar c = false
  noColon : c ≠ ':'
  noMark : c.toNat ≠ 0xfeff

instance (c : Char) : Decidable (IsPlainChar c) :=
  decidable_of_iff (isAllowed c = true ∧ isGapChar c = false ∧ c ≠ ':' ∧ c.toNat ≠ 0xfeff)
    ⟨fun ⟨allowed, noGap, noColon, noMark⟩ => { allowed, noGap, noColon, noMark },
      fun h => ⟨h.allowed, h.noGap, h.noColon, h.noMark⟩⟩

theorem IsPlainChar.isInner {c : Char} (h : IsPlainChar c) : Cursor.IsInner c := by
  have hgap := h.noGap
  simp only [isGapChar, Bool.or_eq_false_iff] at hgap
  exact ⟨hgap.2, h.noMark⟩

namespace Scalar

variable {word rest : List Char}

theorem plainWord_append (hword : ∀ c ∈ word, IsPlainChar c)
    (hrest : ∀ c more, rest = c :: more → stopsPlain false c more = true) :
    plainWord false (word ++ rest) = (word, rest) := by
  induction word with
  | nil =>
    cases rest with
    | nil => rfl
    | cons c more => simp [plainWord, hrest c more rfl]
  | cons c word ih =>
    obtain ⟨hc, hword⟩ := List.forall_mem_cons.1 hword
    have hstops : stopsPlain false c (word ++ rest) = false := by simp [stopsPlain, hc.noGap, hc.noColon]
    simp [plainWord, hstops, ih hword]

/-- A word ends at a colon before a gap. -/
theorem plain_key {after : List Char} (hne : word ≠ []) (hword : ∀ c ∈ word, IsPlainChar c)
    (hafter : atGap after = true) (indent : Int) : plain false indent (word ++ ':' :: after) = (word, ':' :: after, false) := by
  obtain ⟨c, more, rfl⟩ := List.exists_cons_of_ne_nil hne
  have hread : plainWord false (c :: more ++ ':' :: after) = (c :: more, ':' :: after) := by
    refine plainWord_append hword ?_
    rintro _ _ ⟨⟩
    simp [stopsPlain, hafter]
  have hgap : gap (':' :: after) = ⟨[], ':' :: after, none, false⟩ := rfl
  unfold plain plainWords
  simp only [hread, hgap, Gap.endsPlain]
  simp

/-- The last word of a document ends at the end of its line. -/
theorem plain_last (hne : word ≠ []) (hword : ∀ c ∈ word, IsPlainChar c) {indent : Int} (hindent : 0 < indent) :
    plain false indent (word ++ ['\n']) = (word, [], true) := by
  obtain ⟨c, more, rfl⟩ := List.exists_cons_of_ne_nil hne
  have hread : plainWord false (c :: more ++ ['\n']) = (c :: more, ['\n']) := by
    refine plainWord_append hword ?_
    rintro _ _ ⟨⟩
    rfl
  have hgap : gap ['\n'] = ⟨[' '], [], some 0, false⟩ := rfl
  unfold plain plainWords
  simp only [hread, hgap, Gap.endsPlain]
  simp [hindent]

end Scalar

namespace Reading

variable {index line column : Nat} {tokens : List Token} {indent : Int} {outer : List Int} {keyAllowed : Bool}
  {places : List (Nat × KeyPlace)} {c : Char} {rest : List Char}

/-! ## Gaps -/

/-- A character that no gap starts with. -/
def StartsNoGap (c : Char) : Prop := c ≠ ' ' ∧ c ≠ '#' ∧ isBreak c = false

instance (c : Char) : Decidable (StartsNoGap c) := inferInstanceAs (Decidable (_ ∧ _ ∧ _))

theorem skipGaps_spaces (hc : StartsNoGap c) (fuel : Nat) (spaces : List Char) (hspaces : ∀ d ∈ spaces, d = ' ') :
    skipGaps (fuel + 1) ⟨⟨spaces ++ c :: rest, index, line, column⟩, tokens, 0, indent, outer, keyAllowed, places⟩ =
      ⟨⟨c :: rest, index + spaces.length, line, column + spaces.length⟩, tokens, 0, indent, outer, keyAllowed,
        places⟩ := by
  have hdrop : (spaces ++ c :: rest).dropWhile (fun d => decide (d = ' ')) = c :: rest := by
    rw [List.dropWhile_append_of_pos (by simpa using hspaces)]
    simp [hc.1]
  have hinner : ∀ d ∈ spaces, Cursor.IsInner d := by
    intro d hd
    rw [hspaces d hd]
    exact ⟨rfl, by decide⟩
  simp [skipGaps, hdrop, hc.2.1, hc.2.2, Cursor.goTo_inner hinner]

theorem skipGaps_here (hc : StartsNoGap c) (fuel : Nat) :
    skipGaps (fuel + 1) ⟨⟨c :: rest, index, line, column⟩, tokens, 0, indent, outer, keyAllowed, places⟩ =
      ⟨⟨c :: rest, index, line, column⟩, tokens, 0, indent, outer, keyAllowed, places⟩ :=
  skipGaps_spaces hc fuel [] nofun

/-- What comes next behind spaces. -/
theorem next_spaces (hc : StartsNoGap c) (spaces : List Char) (hspaces : ∀ d ∈ spaces, d = ' ') :
    next ⟨⟨spaces ++ c :: rest, index, line, column⟩, tokens, 0, indent, outer, keyAllowed, places⟩ =
      next ⟨⟨c :: rest, index + spaces.length, line, column + spaces.length⟩, tokens, 0, indent, outer, keyAllowed,
        places⟩ := by
  unfold next
  rw [skipGaps_spaces hc _ spaces hspaces, skipGaps_here hc]

/-- What comes next on a new line, where a key may start. -/
theorem next_line (hc : StartsNoGap c) (spaces : List Char) (hspaces : ∀ d ∈ spaces, d = ' ') :
    next ⟨⟨'\n' :: (spaces ++ c :: rest), index, line, column⟩, tokens, 0, indent, outer, keyAllowed, places⟩ =
      next ⟨⟨c :: rest, index + 1 + spaces.length, line + 1, spaces.length⟩, tokens, 0, indent, outer, true,
        places⟩ := by
  have hbreak : Cursor.goTo ⟨'\n' :: (spaces ++ c :: rest), index, line, column⟩ (spaces ++ c :: rest) =
      ⟨spaces ++ c :: rest, index + 1, line + 1, 0⟩ := Cursor.goTo_line (List.forall_mem_nil _) _ index line column
  have hskip : skipGaps (('\n' :: (spaces ++ c :: rest)).length + 1)
      ⟨⟨'\n' :: (spaces ++ c :: rest), index, line, column⟩, tokens, 0, indent, outer, keyAllowed, places⟩ =
      skipGaps ((spaces ++ c :: rest).length + 1)
        ⟨⟨spaces ++ c :: rest, index + 1, line + 1, 0⟩, tokens, 0, indent, outer, true, places⟩ := by
    rw [List.length_cons, skipGaps]
    simp [isBreak, hbreak]
  unfold next
  rw [hskip, skipGaps_spaces hc _ spaces hspaces, skipGaps_here hc, Nat.zero_add]

/-! ## Indentation -/

theorem closed_inside {column : Int} (h : indent < column) : closed column indent outer = (0, indent, outer) := by
  cases outer with
  | nil => rw [closed, if_neg (by omega)]
  | cons next outer => rw [closed, if_neg (by omega)]

/-! ## Keys and values -/

/-- The characters that have a meaning of their own at the start of a token. -/
def isSign (c : Char) : Bool := c ∈ signs || c = '.'

theorem token_plain {s : Reading} (hflow : s.flow = 0) (hgap : isGapChar c = false) (hsign : isSign c = false) :
    s.token c rest =
      let (text, left, passed) := Scalar.plain false (s.indent + 1) (c :: rest)
      s.word (.scalar (.ofChars text) true) passed left := by
  simp [isSign, signs] at hsign
  have hstart : s.startsPlain c rest = true := by simp [startsPlain, hgap, signs, hsign]
  simp [token, hsign, hstart, hflow]

/-- A hyphen starts a text if no gap follows it. -/
theorem token_hyphen {s : Reading} (hflow : s.flow = 0) (hcolumn : s.cursor.column ≠ 0) (hrest : atGap rest = false) :
    s.token '-' rest =
      let (text, left, passed) := Scalar.plain false (s.indent + 1) ('-' :: rest)
      s.word (.scalar (.ofChars text) true) passed left := by
  have hstart : s.startsPlain '-' rest = true := by simp [startsPlain, hrest]
  simp [token, hcolumn, hrest, hstart, hflow]

/-- A key: it is no longer than keys may be, and starts with none of the signs. -/
structure IsKey (key : List Char) : Prop where
  starts : ∀ c ∈ key.head?, StartsNoGap c ∧ isGapChar c = false ∧ isSign c = false
  ne_nil : key ≠ []
  plain : ∀ c ∈ key, IsPlainChar c
  length_le : key.length ≤ keyLimit

instance (key : List Char) : Decidable (IsKey key) :=
  decidable_of_iff (key.head?.toList.all (fun c => StartsNoGap c ∧ isGapChar c = false ∧ isSign c = false) = true ∧
      key ≠ [] ∧ key.all (fun c => IsPlainChar c) = true ∧ key.length ≤ keyLimit)
    ⟨fun ⟨starts, ne_nil, plain, length_le⟩ => {
        starts := by simpa only [List.all_eq_true, Option.mem_toList, Option.mem_def, decide_eq_true_eq] using starts
        ne_nil
        plain := by simpa only [List.all_eq_true, decide_eq_true_eq] using plain
        length_le },
      fun h => ⟨by
          simpa only [List.all_eq_true, Option.mem_toList, Option.mem_def, decide_eq_true_eq] using h.starts,
        h.ne_nil, by simpa only [List.all_eq_true, decide_eq_true_eq] using h.plain, h.length_le⟩⟩

variable {key : List Char} {after : List Char}

/-- A text beyond the indentation may be a key. -/
theorem next_key (hkey : IsKey key) (hafter : atGap after = true) (hindent : indent < column) :
    next ⟨⟨key ++ ':' :: after, index, line, column⟩, tokens, 0, indent, outer, true, []⟩ =
      .ok (true, ⟨⟨':' :: after, index + key.length, line, column + key.length⟩,
        tokens ++ [.scalar (.ofChars key) true], 0, indent, outer, false,
        [(0, ⟨tokens.length, false, index, line, column⟩)]⟩) := by
  have hplain := Scalar.plain_key hkey.ne_nil hkey.plain hafter (indent + 1)
  have hgoTo := Cursor.goTo_inner (fun c hc => (hkey.plain c hc).isInner) (':' :: after) index line column
  obtain ⟨c, rest, rfl⟩ := List.exists_cons_of_ne_nil hkey.ne_nil
  obtain ⟨hnoGap, hgap, hsign⟩ := hkey.starts c rfl
  rw [List.cons_append] at hplain hgoTo ⊢
  unfold next
  rw [skipGaps_here hnoGap]
  have hne : ¬ indent = (column : Int) := by omega
  simp [dropStale, unwind, closed_inside hindent, Reading.column, token_plain, hgap, hsign, hplain, word, notePlace,
    dropPlace, hgoTo, emit, Entries.put, hne, bind, Except.bind, pure, Except.pure]

/-- The colon behind a text makes it the first key of a new mapping. -/
theorem next_colon {n : Nat} (hn : n ≤ keyLimit) (hafter : atGap after = true) (hindent : indent < column)
    (key : Text.Points) :
    next ⟨⟨':' :: after, index + n, line, column + n⟩, tokens ++ [.scalar key true], 0, indent, outer, false,
        [(0, ⟨tokens.length, false, index, line, column⟩)]⟩ =
      .ok (true, ⟨⟨after, index + n + 1, line, column + n + 1⟩,
        tokens ++ [.blockMapping, .key, .scalar key true, .value], 0, column, indent :: outer, false, []⟩) := by
  have hnoGap : StartsNoGap ':' := ⟨by decide, by decide, rfl⟩
  have hclosed : closed (column + n) indent outer = (0, indent, outer) := closed_inside (by omega)
  have hforward : Cursor.forward ⟨':' :: after, index + n, line, column + n⟩ 1 =
      ⟨after, index + n + 1, line, column + n + 1⟩ := rfl
  unfold next
  rw [skipGaps_here hnoGap]
  simp [dropStale, isStale, hn, unwind, hclosed, Reading.column, token, hafter, valueSign, insert,
    openBlock, hindent, sign, hforward, emit, Entries.drop, atMarker, bind, Except.bind, pure, Except.pure]

/-- A text that starts where a value may: no gap, no sign, or a hyphen before something. -/
def StartsText : List Char → Prop
  | [] => False
  | c :: rest => StartsNoGap c ∧ (isGapChar c = false ∧ isSign c = false ∨ c = '-' ∧ atGap rest = false)

/-- The last word, behind a colon on the same line. -/
theorem next_last {text : List Char} (htext : ∀ c ∈ text, IsPlainChar c) (hstarts : StartsText (text ++ ['\n']))
    (hne : text ≠ []) (hindent : indent < column) (hpos : 0 ≤ indent) :
    next ⟨⟨text ++ ['\n'], index, line, column⟩, tokens, 0, indent, outer, false, []⟩ =
      .ok (true, ⟨⟨[], index + text.length + 1, line + 1, 0⟩,
        tokens ++ [.scalar (.ofChars text) true], 0, indent, outer, true, []⟩) := by
  have hplain := Scalar.plain_last hne htext (show 0 < indent + 1 by omega)
  have hgoTo := Cursor.goTo_line (fun c hc => (htext c hc).isInner) [] index line column
  obtain ⟨c, rest, rfl⟩ := List.exists_cons_of_ne_nil hne
  rw [List.cons_append] at hplain hgoTo hstarts ⊢
  obtain ⟨hnoGap, hstart⟩ := hstarts
  have hcolumn : column ≠ 0 := by omega
  have htoken : token ⟨⟨c :: (rest ++ ['\n']), index, line, column⟩, tokens, 0, indent, outer, false, []⟩ c
      (rest ++ ['\n']) = word ⟨⟨c :: (rest ++ ['\n']), index, line, column⟩, tokens, 0, indent, outer, false, []⟩
        (.scalar (.ofChars (c :: rest)) true) true [] := by
    rcases hstart with ⟨hgap, hsign⟩ | ⟨rfl, hgap⟩
    · simp [token_plain, hgap, hsign, hplain]
    · simp [token_hyphen, hgap, hcolumn, hplain]
  unfold next
  rw [skipGaps_here hnoGap]
  simp [dropStale, unwind, closed_inside hindent, Reading.column, htoken, word, notePlace, hgoTo, emit, bind,
    Except.bind, pure, Except.pure]

/-- At the end all blocks are closed. -/
theorem next_end {a b : Int} (ha : 0 < a) (hb : 0 < b) :
    next ⟨⟨[], index, line, 0⟩, tokens, 0, a, [b, 0, -1], keyAllowed, []⟩ =
      .ok (false, ⟨⟨[], index, line, 0⟩, tokens ++ [.blockEnd, .blockEnd, .blockEnd], 0, -1, [], keyAllowed, []⟩) := by
  simp [next, skipGaps, Cursor.goTo, Cursor.forward, dropStale, unwind, closed, Reading.column, ha, hb, dropPlace, bind,
    Except.bind, pure, Except.pure, Nat.repeat]

/-! ## Whole documents -/

theorem run_next {s t : Reading} (h : s.next = .ok (true, t)) (fuel : Nat) : run (fuel + 1) s = run fuel t := by
  conv => lhs; unfold run
  simp only [h]

theorem run_end {s t : Reading} (h : s.next = .ok (false, t)) (fuel : Nat) : run fuel s = t.tokens := by
  unfold run
  simp only [h]

/-- A key that comes next, with its colon. -/
theorem run_key {s : Reading} (hkey : IsKey key) (hafter : atGap after = true) (hindent : indent < column)
    (h : s.next =
      next ⟨⟨key ++ ':' :: after, index, line, column⟩, tokens, 0, indent, outer, true, []⟩) (fuel : Nat) :
    run (fuel + 2) s =
      run fuel ⟨⟨after, index + key.length + 1, line, column + key.length + 1⟩,
        tokens ++ [.blockMapping, .key, .scalar (.ofChars key) true, .value], 0, column, indent :: outer, false,
        []⟩ := by
  rw [run_next (h.trans (next_key hkey hafter hindent)),
    run_next (next_colon hkey.length_le hafter hindent (.ofChars key))]

/-- A key on a line of its own, some spaces further in than the last one. -/
theorem run_line (hkey : IsKey key) (hafter : atGap after = true) (spaces : List Char) (hspaces : ∀ d ∈ spaces, d = ' ')
    (hindent : indent < spaces.length) (fuel : Nat) :
    run (fuel + 2) ⟨⟨'\n' :: (spaces ++ (key ++ ':' :: after)), index, line, column⟩, tokens, 0, indent, outer,
        keyAllowed, []⟩ =
      run fuel ⟨⟨after, index + 1 + spaces.length + key.length + 1, line + 1, spaces.length + key.length + 1⟩,
        tokens ++ [.blockMapping, .key, .scalar (.ofChars key) true, .value], 0, spaces.length, indent :: outer, false,
        []⟩ := by
  refine run_key hkey hafter hindent ?_ fuel
  obtain ⟨c, rest, rfl⟩ := List.exists_cons_of_ne_nil hkey.ne_nil
  exact next_line (hkey.starts c rfl).1 spaces hspaces

/-- The value behind the last key ends three blocks, the first of which is not indented. -/
theorem run_last {text : List Char} (htext : ∀ c ∈ text, IsPlainChar c) (hstarts : StartsText (text ++ ['\n']))
    (hne : text ≠ []) {first second third : Int} (hfirst : first = 0) (hsecond : 0 < second) (hthird : 0 < third)
    (hcolumn : third < column) (fuel : Nat) :
    run (fuel + 1) ⟨⟨' ' :: (text ++ ['\n']), index, line, column⟩, tokens, 0, third, [second, first, -1], false, []⟩ =
      tokens ++ [.scalar (.ofChars text) true, .blockEnd, .blockEnd, .blockEnd] := by
  subst hfirst
  have hspace : next ⟨⟨' ' :: (text ++ ['\n']), index, line, column⟩, tokens, 0, third, [second, 0, -1], false, []⟩ =
      next ⟨⟨text ++ ['\n'], index + 1, line, column + 1⟩, tokens, 0, third, [second, 0, -1], false, []⟩ := by
    obtain ⟨c, rest, rfl⟩ := List.exists_cons_of_ne_nil hne
    exact next_spaces hstarts.1 [' '] (by simp)
  have hcolumn : third < (column + 1 : Nat) := by omega
  rw [run_next (hspace.trans (next_last htext hstarts hne hcolumn (by omega))), run_end (next_end hthird hsecond),
    List.append_assoc]
  rfl

end Reading

/-- Three keys, each inside of the one before, and a value behind the last one. -/
def nested (a b c value : List Char) : List Char :=
  a ++ ':' :: '\n' :: ("  ".toList ++ (b ++ ':' :: '\n' :: ("    ".toList ++ (c ++ ':' :: ' ' :: (value ++ ['\n'])))))

open Reading

variable {a b c value : List Char}

theorem tokens_nested (ha : IsKey a) (hb : IsKey b) (hc : IsKey c) (hvalue : ∀ c ∈ value, IsPlainChar c)
    (hstarts : StartsText (value ++ ['\n'])) (hne : value ≠ []) :
    tokens (nested a b c value) =
      [.blockMapping, .key, .scalar (.ofChars a) true, .value,
        .blockMapping, .key, .scalar (.ofChars b) true, .value,
        .blockMapping, .key, .scalar (.ofChars c) true, .value,
        .scalar (.ofChars value) true, .blockEnd, .blockEnd, .blockEnd] := by
  obtain ⟨k, hk⟩ : ∃ k, (nested a b c value).length = k + 1 + 2 + 2 + 2 := by
    refine ⟨(nested a b c value).length - 7, ?_⟩
    simp [nested]
    omega
  have hmark : (nested a b c value).head?.any (·.toNat = 0xfeff) = false := by
    obtain ⟨d, rest, rfl⟩ := List.exists_cons_of_ne_nil ha.ne_nil
    simpa [nested] using (ha.plain d List.mem_cons_self).noMark
  unfold tokens
  rw [hk]
  simp only [hmark, Bool.false_eq_true, if_false]
  rw [nested, run_key ha rfl (by decide) rfl, run_line hb rfl _ (by simp) (by decide),
    run_line hc rfl _ (by simp) (by decide)]
  refine (run_last hvalue hstarts hne ?_ (by decide) (by decide) ?_ k).trans ?_
  · rfl
  · exact Int.ofNat_lt.2 (by omega)
  · simp

/-! ## Nodes -/

namespace Builder

variable {key text : Text.Points} {inner more : List Token} {nodes nodes' : Array Node} {anchors : List (String × Nat)}
  {handles : List (String × String)} {depth id : Nat}

/-- The node of a text without labels. -/
def plainNode (text : Text.Points) : Node := .scalar (Labels.textTag {} text true) text

theorem setIfInBounds_push (nodes : Array Node) (before after : Node) :
    (nodes.push before).setIfInBounds nodes.size after = nodes.push after := by
  simp [← Array.toList_inj]

theorem ofPlace_text (fuel : Nat) (place : Place) :
    ofPlace (fuel + 2) place ⟨.scalar text true :: more, nodes, anchors, handles, depth⟩ =
      .ok nodes.size ⟨more, nodes.push (plainNode text), anchors, handles, depth⟩ := by
  simp [ofPlace, ofLabels, ofText, labels, tokensLeft, skip, add, start, finish, bindAnchor, plainNode,
    setIfInBounds_push, bind, EStateM.bind, pure, EStateM.pure]

/-- The only entry of a mapping. -/
theorem blockEntries_entry {fuel : Nat} {first : Token} (hfirst : first ∉ Place.blockValue.ends)
    (hinner : ofPlace (fuel + 2) .blockValue ⟨first :: inner, nodes.push (plainNode key), anchors, handles, depth⟩ =
      .ok id ⟨.blockEnd :: more, nodes', anchors, handles, depth⟩) :
    blockEntries (fuel + 4) ⟨.key :: .scalar key true :: .value :: first :: inner, nodes, anchors, handles, depth⟩ =
      .ok [(nodes.size, id)] ⟨more, nodes', anchors, handles, depth⟩ := by
  have hkey : ofPlace (fuel + 2) .blockKey
        ⟨.scalar key true :: .value :: first :: inner, nodes, anchors, handles, depth⟩ =
      .ok nodes.size ⟨.value :: first :: inner, nodes.push (plainNode key), anchors, handles, depth⟩ :=
    ofPlace_text fuel .blockKey
  simp only [Place.ends, List.mem_cons, List.not_mem_nil, or_false, not_or] at hfirst
  simp [blockEntries, inPlace, comesNext, accept, expect, skip, hfirst, hkey, hinner, Place.ends, bind, EStateM.bind,
    pure, EStateM.pure]

/-- A mapping with one entry. -/
theorem ofPlace_entry (fuel : Nat) (place : Place) (nodes : Array Node) {first : Token}
    (hplace : place.allowsBlocks = true) (hdepth : depth < depthLimit) (hfirst : first ∉ Place.blockValue.ends)
    (hinner : ofPlace (fuel + 2) .blockValue
        ⟨first :: inner, (nodes.push .empty).push (plainNode key), anchors, handles, depth + 1⟩ =
      .ok id ⟨.blockEnd :: more, nodes', anchors, handles, depth + 1⟩) :
    ofPlace (fuel + 6) place
        ⟨.blockMapping :: .key :: .scalar key true :: .value :: first :: inner, nodes, anchors, handles, depth⟩ =
      .ok nodes.size
        ⟨more, nodes'.setIfInBounds nodes.size (.mapping .mapping [(nodes.size + 1, id)]), anchors, handles, depth⟩ := by
  have hne : depth ≠ depthLimit := by omega
  have hentries := blockEntries_entry hfirst hinner
  rw [Array.size_push] at hentries
  simp [ofPlace, ofLabels, ofEntries, labels, tokensLeft, skip, start, finish, bindAnchor, within, Labels.tagOr,
    Labels.isUntagged, hplace, hne, hentries, bind, EStateM.bind, pure, EStateM.pure]

/-- A document that starts with a mapping is what its root is read as. -/
theorem ofTokens_of_root {root : Nat} {anchors : List (String × Nat)}
    (hroot : ofPlace (5 * (more.length + 1) + 5) .item ⟨.blockMapping :: more, #[], [], commonHandles, 0⟩ =
      .ok root ⟨[], nodes, anchors, commonHandles, 0⟩) :
    Document.ofTokens (.blockMapping :: more) = .ok (some ⟨nodes, root⟩) := by
  have hending : ending (5 * (more.length + 1) + 5) ⟨[], nodes, anchors, commonHandles, 0⟩ =
      .ok () ⟨[], nodes, anchors, commonHandles, 0⟩ := rfl
  unfold Document.ofTokens document
  simp only [tokensLeft, bind, EStateM.bind, List.length_cons]
  unfold directives
  simp [tokensLeft, addCommonHandles, comesNext, hroot, hending, bind, EStateM.bind, pure, EStateM.pure]

end Builder

open Builder in
theorem ofTokens_nested (a b c value : Text.Points) :
    Document.ofTokens [.blockMapping, .key, .scalar a true, .value, .blockMapping, .key, .scalar b true, .value,
        .blockMapping, .key, .scalar c true, .value, .scalar value true, .blockEnd, .blockEnd, .blockEnd] =
      .ok (some ⟨#[.mapping .mapping [(1, 2)], plainNode a, .mapping .mapping [(3, 4)], plainNode b,
        .mapping .mapping [(5, 6)], plainNode c, plainNode value], 0⟩) := by
  have hscalar : Token.scalar value true ∉ Place.blockValue.ends := by simp [Place.ends]
  have hmapping : Token.blockMapping ∉ Place.blockValue.ends := by decide
  -- From the innermost value outwards, with the fuel that is left there.
  have hvalue : ofPlace 73 .blockValue ⟨[.scalar value true, .blockEnd, .blockEnd, .blockEnd],
      #[.empty, plainNode a, .empty, plainNode b, .empty, plainNode c], [], commonHandles, 3⟩ =
      .ok 6 ⟨[.blockEnd, .blockEnd, .blockEnd],
        #[.empty, plainNode a, .empty, plainNode b, .empty, plainNode c, plainNode value], [], commonHandles, 3⟩ :=
    ofPlace_text 71 .blockValue
  have hc : ofPlace 77 .blockValue ⟨[.blockMapping, .key, .scalar c true, .value, .scalar value true, .blockEnd,
      .blockEnd, .blockEnd], #[.empty, plainNode a, .empty, plainNode b], [], commonHandles, 2⟩ =
      .ok 4 ⟨[.blockEnd, .blockEnd], #[.empty, plainNode a, .empty, plainNode b, .mapping .mapping [(5, 6)],
        plainNode c, plainNode value], [], commonHandles, 2⟩ := by
    exact ofPlace_entry 71 .blockValue #[.empty, plainNode a, .empty, plainNode b] rfl (by decide) hscalar hvalue
  have hb : ofPlace 81 .blockValue ⟨[.blockMapping, .key, .scalar b true, .value, .blockMapping, .key, .scalar c true,
      .value, .scalar value true, .blockEnd, .blockEnd, .blockEnd], #[.empty, plainNode a], [], commonHandles, 1⟩ =
      .ok 2 ⟨[.blockEnd], #[.empty, plainNode a, .mapping .mapping [(3, 4)], plainNode b, .mapping .mapping [(5, 6)],
        plainNode c, plainNode value], [], commonHandles, 1⟩ := by
    exact ofPlace_entry 75 .blockValue #[.empty, plainNode a] rfl (by decide) hmapping hc
  have ha : ofPlace 85 .item ⟨[.blockMapping, .key, .scalar a true, .value, .blockMapping, .key, .scalar b true, .value,
      .blockMapping, .key, .scalar c true, .value, .scalar value true, .blockEnd, .blockEnd, .blockEnd], #[], [],
      commonHandles, 0⟩ =
      .ok 0 ⟨[], #[.mapping .mapping [(1, 2)], plainNode a, .mapping .mapping [(3, 4)], plainNode b,
        .mapping .mapping [(5, 6)], plainNode c, plainNode value], [], commonHandles, 0⟩ := by
    exact ofPlace_entry 79 .item #[] rfl (by decide) hmapping hb
  exact ofTokens_of_root ha

/-! ## Contents -/

namespace Contents

variable {d : Document} {known known' : Array (Option Content)} {waiting waiting' : List Nat} {id key entry fuel : Nat}
  {tag : Tag} {text : Text.Points} {cs : List Char} {v : Value} {v? : Option Value}

/-- The content of a text, and of a mapping with one entry. -/
def ofText (cs : List Char) : Content := .leaf (.text (String.ofList cs))

def ofEntry (cs : List Char) (entry : Nat) : Content := .dict [(.text (String.ofList cs), entry)]

/-- A text is looked at once, and so gets its value. -/
theorem visit_text (hnode : d.node id = .scalar tag text) (htag : tag ∈ [Tag.text, .int])
    (hread : Leaf.read tag text = .ok v) (hknown : known.getD id none = none) :
    visit d id ⟨known, waiting⟩ = .ok (some v) ⟨known.setIfInBounds id (some (.leaf v)), waiting⟩ := by
  have htextOf : textOf d (d.nodes.size + 1) id = .ok text := by
    unfold textOf
    simp only [hnode]
  have hleaf : leafOf d tag id = .ok v := by
    simp only [List.mem_cons, List.not_mem_nil, or_false] at htag
    rcases htag with rfl | rfl <;> simp [leafOf, htextOf, hread, bind, Except.bind]
  have hcollection : tag.isCollection = false := by
    simp only [List.mem_cons, List.not_mem_nil, or_false] at htag
    rcases htag with rfl | rfl <;> rfl
  simp [visit, visitAs, hnode, Node.tag, known?, hknown, hcollection, hleaf, lift, note, bind, EStateM.bind, pure,
    EStateM.pure]

theorem visit_mapping {entries : List (Nat × Nat)} (hnode : d.node id = .mapping .mapping entries)
    (hknown : known.getD id none = none) :
    visit d id ⟨known, waiting⟩ = .ok none ⟨known.setIfInBounds id (some (.list [])), id :: waiting⟩ := by
  have hcollection : Tag.mapping.isCollection = true := rfl
  simp [visit, visitAs, hnode, Node.tag, known?, hknown, hcollection, enqueue, note, bind, EStateM.bind, pure,
    EStateM.pure]

/-- A mapping with one entry, whose key is a text. -/
theorem openNode_entry (key entry : Nat) (cs : List Char) (hnode : d.node id = .mapping .mapping [(key, entry)])
    (hkey : d.node key = .scalar .text (.ofChars cs)) (hknown : known.getD key none = none)
    (hentry : visit d entry ⟨known.setIfInBounds key (some (ofText cs)), waiting⟩ = .ok v? ⟨known', waiting'⟩) :
    openNode d id ⟨known, waiting⟩ = .ok () ⟨known'.setIfInBounds id (some (ofEntry cs entry)), waiting'⟩ := by
  have hread : Leaf.read .text (.ofChars cs) = .ok (.text (String.ofList cs)) := by
    simp [Leaf.read, Text.Points.chars?_ofChars, Leaf.ofChars]
  have hvisit : visit d key ⟨known, waiting⟩ = .ok (some (.text (String.ofList cs)))
      ⟨known.setIfInBounds key (some (ofText cs)), waiting⟩ :=
    visit_text hkey (by simp) hread hknown
  have hvisitKey : visitKey d key ⟨known, waiting⟩ = .ok (.text (String.ofList cs))
      ⟨known.setIfInBounds key (some (ofText cs)), waiting⟩ := by
    simp only [visit, hkey, Node.tag] at hvisit
    simp [visitKey, hkey, Node.tag, hvisit, bind, EStateM.bind, pure, EStateM.pure]
  have hmerged : mergedEntries d (2 * d.nodes.size + 2) [] id = .ok [(key, entry)] := by
    unfold mergedEntries
    simp [hnode, hkey, Node.tag, bind, Except.bind, pure, Except.pure]
  simp [openNode, hnode, entriesOf, hmerged, lift, visitEntries, hvisitKey, hentry, note, Value.setEntry, ofEntry, bind,
    EStateM.bind, pure, EStateM.pure]

/-- A collection that waits alone is opened next. -/
theorem openRest_cons (hopen : openNode d id ⟨known, []⟩ = .ok () ⟨known', waiting'⟩) :
    openRest d (fuel + 1) ⟨known, [id]⟩ = openRest d fuel ⟨known', waiting'⟩ := by
  simp [openRest, takeWaiting, openAll, hopen, bind, EStateM.bind, pure, EStateM.pure]

theorem openRest_nil : openRest d (fuel + 1) ⟨known, []⟩ = .ok () ⟨known, []⟩ := by
  simp [openRest, takeWaiting, bind, EStateM.bind, pure, EStateM.pure]

/-- The tree of a mapping with one entry shows the tree of what its key stands for. -/
theorem getD_trees_entry {nodes : Array Content} (h : nodes[id]? = some (ofEntry cs entry)) (depth : Nat) :
    (trees nodes (depth + 1)).getD id .null =
      .dict [(.text (String.ofList cs), (trees nodes depth).getD entry .null)] := by
  simp [trees, h, ofEntry, treeOf]

theorem getD_trees_leaf {nodes : Array Content} (h : nodes[id]? = some (.leaf v)) (depth : Nat) :
    (trees nodes depth).getD id .null = v := by
  cases depth <;> simp [trees, h, treeOf]

end Contents

theorem plainNode_ofChars (cs : List Char) :
    Builder.plainNode (.ofChars cs) = .scalar (Tag.ofPlain cs) (.ofChars cs) := by
  simp [Builder.plainNode, Builder.Labels.textTag, Text.Points.chars?_ofChars]

/-- A key that is read as a text. -/
structure IsTextKey (key : List Char) : Prop where
  isKey : IsKey key
  isText : Tag.ofPlain key = .text

instance (key : List Char) : Decidable (IsTextKey key) :=
  decidable_of_iff (IsKey key ∧ Tag.ofPlain key = .text) ⟨fun ⟨isKey, isText⟩ => { isKey, isText }, fun h => ⟨h.isKey, h.isText⟩⟩

/-- The nodes of three nested keys and a value behind them. -/
def nestedDocument (a b c value : List Char) : Document where
  nodes := #[.mapping .mapping [(1, 2)], .scalar .text (.ofChars a), .mapping .mapping [(3, 4)],
    .scalar .text (.ofChars b), .mapping .mapping [(5, 6)], .scalar .text (.ofChars c), .scalar .int (.ofChars value)]
  root := 0

section

open Yaml.Contents

variable {v : Value}

theorem contents_nested (hread : Leaf.read .int (.ofChars value) = .ok v) :
    ofDocument (nestedDocument a b c value) = .ok ⟨#[some (ofEntry a 2), some (ofText a), some (ofEntry b 4),
      some (ofText b), some (ofEntry c 6), some (ofText c), some (.leaf v)], []⟩ := by
  let d := nestedDocument a b c value
  have hroot : visit d 0 ⟨Array.replicate 7 none, []⟩ =
      .ok none ⟨#[some (.list []), none, none, none, none, none, none], [0]⟩ := visit_mapping rfl rfl
  have ha : openNode d 0 ⟨#[some (.list []), none, none, none, none, none, none], []⟩ =
      .ok () ⟨#[some (ofEntry a 2), some (ofText a), some (.list []), none, none, none, none], [2]⟩ :=
    openNode_entry 1 2 a rfl rfl rfl (visit_mapping rfl rfl)
  have hb : openNode d 2 ⟨#[some (ofEntry a 2), some (ofText a), some (.list []), none, none, none, none], []⟩ =
      .ok () ⟨#[some (ofEntry a 2), some (ofText a), some (ofEntry b 4), some (ofText b), some (.list []), none, none],
        [4]⟩ :=
    openNode_entry 3 4 b rfl rfl rfl (visit_mapping rfl rfl)
  have hc : openNode d 4 ⟨#[some (ofEntry a 2), some (ofText a), some (ofEntry b 4), some (ofText b), some (.list []),
      none, none], []⟩ =
      .ok () ⟨#[some (ofEntry a 2), some (ofText a), some (ofEntry b 4), some (ofText b), some (ofEntry c 6),
        some (ofText c), some (.leaf v)], []⟩ :=
    openNode_entry 5 6 c rfl rfl rfl (visit_text rfl (by simp) hread rfl)
  have hrest : openRest d (7 + 1) ⟨#[some (.list []), none, none, none, none, none, none], [0]⟩ =
      .ok () ⟨#[some (ofEntry a 2), some (ofText a), some (ofEntry b 4), some (ofText b), some (ofEntry c 6),
        some (ofText c), some (.leaf v)], []⟩ := by
    rw [openRest_cons ha, openRest_cons hb, openRest_cons hc, openRest_nil]
  have hsize : (nestedDocument a b c value).nodes.size = 7 := rfl
  have hindex : (nestedDocument a b c value).root = 0 := rfl
  simp only [ofDocument, hsize, hindex, bind, EStateM.bind]
  rw [hroot]
  dsimp only
  rw [hrest]

theorem tree_nested (d : Document) (hroot : d.root = 0) :
    tree ⟨#[some (ofEntry a 2), some (ofText a), some (ofEntry b 4), some (ofText b), some (ofEntry c 6),
        some (ofText c), some (.leaf v)], []⟩ d =
      .dict [(.text (String.ofList a), .dict [(.text (String.ofList b), .dict [(.text (String.ofList c), v)])])] := by
  let nodes : Array Content := #[ofEntry a 2, ofText a, ofEntry b 4, ofText b, ofEntry c 6, ofText c, .leaf v]
  have hnodes : (#[some (ofEntry a 2), some (ofText a), some (ofEntry b 4), some (ofText b), some (ofEntry c 6),
      some (ofText c), some (.leaf v)] : Array (Option Content)).map (·.getD (.leaf .null)) = nodes := by simp [nodes]
  have h0 : nodes[0]? = some (ofEntry a 2) := rfl
  have h2 : nodes[2]? = some (ofEntry b 4) := rfl
  have h4 : nodes[4]? = some (ofEntry c 6) := rfl
  have h6 : nodes[6]? = some (.leaf v) := rfl
  rw [tree, hnodes, hroot, depthLimit, getD_trees_entry h0, getD_trees_entry h2, getD_trees_entry h4,
    getD_trees_leaf h6]

theorem lineFeeds_of_allowed {cs : List Char} (hcs : ∀ c ∈ cs, isAllowed c = true) : lineFeeds cs = cs := by
  induction cs with
  | nil => rfl
  | cons c cs ih =>
    have hc : c ≠ '\r' := by
      rintro rfl
      exact absurd (hcs '\r' List.mem_cons_self) (by decide)
    rw [lineFeeds, ih fun d hd => hcs d (List.mem_cons_of_mem c hd)]
    · exact fun _ heq _ => hc heq
    · exact hc

/-- **A value behind three nested keys.** -/
theorem read_nested (ha : IsTextKey a) (hb : IsTextKey b) (hc : IsTextKey c) (hvalue : ∀ c ∈ value, IsPlainChar c)
    (hstarts : StartsText (value ++ ['\n'])) (hne : value ≠ []) (htag : Tag.ofPlain value = .int)
    (hread : Leaf.read .int (.ofChars value) = .ok v) :
    read (String.ofList (nested a b c value)) = .ok (.dict [(.text (String.ofList a),
      .dict [(.text (String.ofList b), .dict [(.text (String.ofList c), v)])])]) := by
  have hdocument : Document.ofTokens (tokens (nested a b c value)) = .ok (some (nestedDocument a b c value)) := by
    rw [tokens_nested ha.isKey hb.isKey hc.isKey hvalue hstarts hne, ofTokens_nested]
    simp only [plainNode_ofChars, ha.isText, hb.isText, hc.isText, htag, nestedDocument]
  have hallowed : ∀ d ∈ nested a b c value, isAllowed d = true := by
    have hkey {key : List Char} (h : IsTextKey key) : ∀ d ∈ key, isAllowed d = true :=
      fun d hd => (h.isKey.plain d hd).allowed
    have hvalue : ∀ d ∈ value, isAllowed d = true := fun d hd => (hvalue d hd).allowed
    simp only [nested, List.forall_mem_append, List.forall_mem_cons]
    exact ⟨hkey ha, by decide, by decide, List.all_eq_true.1 (by decide), hkey hb, by decide, by decide,
      List.all_eq_true.1 (by decide), hkey hc, by decide, by decide, hvalue, by decide, List.forall_mem_nil _⟩
  simp only [read, String.toList_ofList, lineFeeds_of_allowed hallowed, List.all_eq_true.2 hallowed, hdocument,
    contents_nested hread, tree_nested (nestedDocument a b c value) rfl, Bool.not_true, Bool.false_eq_true, if_false,
    bind, Except.bind, pure, Except.pure]

end

end RemoteCache.Yaml
