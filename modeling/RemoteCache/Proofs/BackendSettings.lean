import RemoteCache.Proofs.Settings.Timeouts

/-!
# Which attributes count, and for what

Four fields are read from the attributes of a store, each from the entries of its own names (`BackendSettings.fields`).
A field is read as if it were alone: the issues of all attributes are those of the fields, each read from nothing but
the entries of its names, and there are settings exactly if there is no issue (`fields_are_read_apart`). So no entry of
another name matters, and none under a name that is shadowed.
-/

namespace RemoteCache

open Validation

namespace Validation.Checked

variable {α β : Type} {f : Checked (α → β)} {x : Checked α}

/-! ## Issues of a record and of its parts -/

@[simp] theorem issues_valid (a : α) : (valid a).issues = [] := rfl

theorem issues_also (f : Checked (α → β)) (x : Checked α) : (f.also x).issues = f.issues ++ x.issues := by
  cases f <;> cases x <;> simp [also, issues]

theorem issues_sorted (x : Checked α) : x.sorted.issues.Perm x.issues := by
  cases x with
  | valid a => rfl
  | faulty issues => exact List.mergeSort_perm issues Issue.le

/-- What is refused is refused for an issue. -/
def Reasoned (x : Checked α) : Prop := x.issues = [] → ∃ a, x = .valid a

theorem reasoned_valid (a : α) : Reasoned (.valid a) := fun _ => ⟨a, rfl⟩

theorem Reasoned.also (hf : Reasoned f) (hx : Reasoned x) : Reasoned (f.also x) := by
  intro h
  rw [issues_also, List.append_eq_nil_iff] at h
  obtain ⟨g, rfl⟩ := hf h.1
  obtain ⟨a, rfl⟩ := hx h.2
  exact ⟨g a, rfl⟩

theorem Reasoned.sorted (hx : Reasoned x) : Reasoned x.sorted := by
  intro h
  obtain ⟨a, rfl⟩ := hx (h ▸ issues_sorted x).nil_eq.symm
  exact ⟨a, rfl⟩

/-- A record of which a single part is read. -/
def reading (x : Checked α) (build : α → β) : Checked β := ((valid build).also x).sorted

theorem issues_reading (x : Checked α) (build : α → β) : (reading x build).issues.Perm x.issues :=
  (issues_sorted _).trans (.of_eq (issues_also _ _))

variable {entries : List (String × Value)} {name : String} {read : Value → Except Fault α} {default : α}

theorem optional_of_none (h : entries.lookup name = none) : optional entries name read default = .valid default := by
  rw [optional, h]

theorem reasoned_optional : Reasoned (optional entries name read default) := by
  unfold optional
  cases entries.lookup name with
  | none => exact reasoned_valid default
  | some v =>
    show Reasoned (entry name read v)
    unfold entry
    cases read v with
    | ok a => exact reasoned_valid a
    | error fault => exact nofun

/-- An issue of an entry stands at its name. -/
theorem place_of_optional {i : Issue} (h : i ∈ (optional entries name read default).issues) :
    (entries.lookup name).isSome = true ∧ i.place = [.name name] := by
  unfold optional at h
  cases hv : entries.lookup name with
  | none => simp [hv] at h
  | some v =>
    simp only [hv, entry] at h
    split at h
    · cases h
    · rw [issues, List.mem_singleton] at h
      exact ⟨rfl, by rw [h]⟩

end Validation.Checked

namespace BackendSettings

open Checked Results

/-! ## Fields -/

/-- The names of each field. The first one shadows the others. -/
def fields : List (List String) :=
  [["connect-timeout", "connect_timeout_ms"], ["operation-timeout", "operation_timeout_ms"], ["username"], ["password"]]

/-- The names of the two timeouts. -/
def timeoutNames : List String :=
  ["connect-timeout", "connect_timeout_ms", "operation-timeout", "operation_timeout_ms"]

/-- The entries of some names. -/
def only (names : List String) (a : Attributes) : Attributes := a.filter (·.1 ∈ names)

/-- The name under which a field is given. -/
def usedName? (names : List String) (a : Attributes) : Option String := names.find? fun name => (a.lookup name).isSome

/-- The settings of a store without attributes. -/
def defaults : BackendSettings := ⟨defaultConnectTimeoutMs, defaultOperationTimeoutMs, none, none⟩

variable {a b : Attributes} {name other : String} {default : Nat}

theorem lookup_only (names : List String) (a : Attributes) (name : String) :
    (only names a).lookup name = if name ∈ names then a.lookup name else none := by
  induction a with
  | nil => simp [only]
  | cons e rest ih =>
    obtain ⟨key, v⟩ := e
    unfold only at ih ⊢
    by_cases hkey : key ∈ names
    · rw [List.filter_cons_of_pos (by simpa using hkey), Entries.lookup_cons, Entries.lookup_cons, ih]
      by_cases h : name = key
      · simp [h, hkey]
      · simp [h]
    · rw [List.filter_cons_of_neg (by simpa using hkey), Entries.lookup_cons, ih]
      by_cases h : name = key
      · simp [h, hkey]
      · simp [h]

/-! ## Timeouts -/

theorem timeout_of_none (h : a.lookup name = none) (h' : a.lookup other = none) :
    timeout a name other default = .valid default := by
  simp [timeout, h, optional_of_none h']

/-- Only what a value is read as matters. -/
theorem optional_congr {α : Type} {read : Value → Except Fault α} {default : α}
    (h : (b.lookup name).map read = (a.lookup name).map read) :
    Checked.optional b name read default = Checked.optional a name read default := by
  unfold Checked.optional
  cases hb : b.lookup name <;> cases ha : a.lookup name <;> simp_all [entry]

theorem timeout_congr (h : (b.lookup name).map readTimeout = (a.lookup name).map readTimeout)
    (h' : (b.lookup other).map readTimeout = (a.lookup other).map readTimeout) :
    timeout b name other default = timeout a name other default := by
  have hgiven : (b.lookup name).isSome = (a.lookup name).isSome := by
    rw [← Option.isSome_map, h, Option.isSome_map]
  rw [timeout, timeout, hgiven, optional_congr h, optional_congr h']

/-- What stands under a name that is shadowed does not matter. -/
theorem timeout_shadowed (hgiven : (a.lookup name).isSome = true) (h : b.lookup name = a.lookup name) :
    timeout b name other default = timeout a name other default := by
  rw [timeout, timeout, h, if_pos hgiven, if_pos hgiven, optional_congr (congrArg _ h)]

theorem reasoned_timeout : Reasoned (timeout a name other default) := by
  unfold timeout
  split <;> exact reasoned_optional

theorem place_of_timeout {i : Issue} (h : i ∈ (timeout a name other default).issues) :
    ∃ used, usedName? [name, other] a = some used ∧ i.place = [.name used] := by
  unfold timeout at h
  by_cases hgiven : (a.lookup name).isSome = true
  · rw [if_pos hgiven] at h
    exact ⟨name, by simp [usedName?, hgiven], (place_of_optional h).2⟩
  · rw [if_neg hgiven] at h
    obtain ⟨hother, hplace⟩ := place_of_optional h
    exact ⟨other, by simp [usedName?, hgiven, hother], hplace⟩

theorem readTimeout_bounds {v : Value} {n : Nat} (h : readTimeout v = .ok n) : 1 ≤ n ∧ n ≤ maxTimeoutMs := by
  obtain ⟨m, -, hlow⟩ := bind_eq_ok.1 h
  obtain ⟨hpos, hhigh⟩ := guard_eq_ok.1 hlow
  obtain ⟨hmax, hn⟩ := guard_eq_ok.1 hhigh
  cases hn
  omega

theorem timeout_bounds {n : Nat} (hdefault : 1 ≤ default ∧ default ≤ maxTimeoutMs)
    (h : timeout a name other default = .valid n) : 1 ≤ n ∧ n ≤ maxTimeoutMs := by
  generalize hv : (a.lookup name).or (a.lookup other) = v at *
  have hgiven : Given readTimeout default v n := hv ▸ timeout_eq_valid.1 h
  cases hgiven with
  | default => exact hdefault
  | read hread => exact readTimeout_bounds hread

/-! ## All fields -/

theorem ofAttributes_eq_valid {s : BackendSettings} :
    ofAttributes a = .valid s ↔
      timeout a "connect-timeout" "connect_timeout_ms" defaultConnectTimeoutMs = .valid s.connectTimeoutMs ∧
      timeout a "operation-timeout" "operation_timeout_ms" defaultOperationTimeoutMs = .valid s.operationTimeoutMs ∧
      Checked.optional a "username" optionalText none = .valid s.username ∧
      Checked.optional a "password" optionalText none = .valid s.password := by
  simp only [ofAttributes, sorted_eq_valid, also_eq_valid]
  constructor
  · rintro ⟨_, password, ⟨_, username, ⟨_, operation, ⟨_, connect, ⟨⟩, hconnect, rfl⟩, hoperation, rfl⟩, husername,
      rfl⟩, hpassword, rfl⟩
    exact ⟨hconnect, hoperation, husername, hpassword⟩
  · rintro ⟨hconnect, hoperation, husername, hpassword⟩
    exact ⟨_, _, ⟨_, _, ⟨_, _, ⟨_, _, rfl, hconnect, rfl⟩, hoperation, rfl⟩, husername, rfl⟩, hpassword, rfl⟩

theorem issues_ofAttributes (a : Attributes) :
    (ofAttributes a).issues.Perm
      ((timeout a "connect-timeout" "connect_timeout_ms" defaultConnectTimeoutMs).issues ++
        (timeout a "operation-timeout" "operation_timeout_ms" defaultOperationTimeoutMs).issues ++
        (Checked.optional a "username" optionalText none).issues ++
        (Checked.optional a "password" optionalText none).issues) := by
  refine (issues_sorted _).trans ?_
  simp only [issues_also, issues_valid, List.nil_append]
  exact .rfl

theorem reasoned_ofAttributes (a : Attributes) : Reasoned (ofAttributes a) :=
  ((((reasoned_valid _).also reasoned_timeout).also reasoned_timeout).also reasoned_optional).also
    reasoned_optional |>.sorted

/-- All that attributes are read for is what their fields are read as. -/
theorem ofAttributes_congr
    (hconnect : timeout b "connect-timeout" "connect_timeout_ms" defaultConnectTimeoutMs =
      timeout a "connect-timeout" "connect_timeout_ms" defaultConnectTimeoutMs)
    (hoperation : timeout b "operation-timeout" "operation_timeout_ms" defaultOperationTimeoutMs =
      timeout a "operation-timeout" "operation_timeout_ms" defaultOperationTimeoutMs)
    (husername : b.lookup "username" = a.lookup "username")
    (hpassword : b.lookup "password" = a.lookup "password") : ofAttributes b = ofAttributes a := by
  rw [ofAttributes, ofAttributes, hconnect, hoperation, optional_congr (congrArg _ husername),
    optional_congr (congrArg _ hpassword)]

/-- Only entries under the fields' names matter, and of a timeout only what it is read as. -/
theorem ofAttributes_of_readings
    (htimeouts : ∀ name ∈ timeoutNames, (b.lookup name).map readTimeout = (a.lookup name).map readTimeout)
    (hothers : ∀ name ∈ ["username", "password"], b.lookup name = a.lookup name) : ofAttributes b = ofAttributes a :=
  ofAttributes_congr (timeout_congr (htimeouts _ (by decide)) (htimeouts _ (by decide)))
    (timeout_congr (htimeouts _ (by decide)) (htimeouts _ (by decide))) (hothers _ (by decide)) (hothers _ (by decide))

theorem ofAttributes_of_lookup (h : ∀ name ∈ fields.flatten, b.lookup name = a.lookup name) :
    ofAttributes b = ofAttributes a := by
  have hfields : fields.flatten = timeoutNames ++ ["username", "password"] := rfl
  rw [hfields] at h
  exact ofAttributes_of_readings (fun name hname => congrArg _ (h name (List.mem_append_left _ hname)))
    fun name hname => h name (List.mem_append_right _ hname)

theorem ofAttributes_of_shadowed (hnames : [name, other] ∈ fields) (hgiven : (a.lookup name).isSome = true)
    (h : ∀ n ∈ fields.flatten, n ≠ other → b.lookup n = a.lookup n) : ofAttributes b = ofAttributes a := by
  simp only [fields, List.mem_cons, List.cons.injEq, reduceCtorEq, and_false, List.not_mem_nil, or_false,
    and_true] at hnames
  rcases hnames with ⟨rfl, rfl⟩ | ⟨rfl, rfl⟩
  · exact ofAttributes_congr (timeout_shadowed hgiven (h _ (by decide) (by decide)))
      (timeout_congr (congrArg _ (h _ (by decide) (by decide))) (congrArg _ (h _ (by decide) (by decide))))
      (h _ (by decide) (by decide)) (h _ (by decide) (by decide))
  · exact ofAttributes_congr
      (timeout_congr (congrArg _ (h _ (by decide) (by decide))) (congrArg _ (h _ (by decide) (by decide))))
      (timeout_shadowed hgiven (h _ (by decide) (by decide)))
      (h _ (by decide) (by decide)) (h _ (by decide) (by decide))

/-! ## One field alone -/

section

variable {names : List String}

/-- A field is read from the entries of its names alone. -/
theorem timeout_only (hname : name ∈ names) (hother : other ∈ names) :
    timeout (only names a) name other default = timeout a name other default :=
  timeout_congr (by rw [lookup_only, if_pos hname]) (by rw [lookup_only, if_pos hother])

theorem optional_only {α : Type} {read : Value → Except Fault α} {default : α} (hname : name ∈ names) :
    Checked.optional (only names a) name read default = Checked.optional a name read default :=
  optional_congr (by rw [lookup_only, if_pos hname])

/-- Without the entries of its names a field has its default. -/
theorem timeout_only_none (hname : name ∉ names) (hother : other ∉ names) :
    timeout (only names a) name other default = .valid default :=
  timeout_of_none (by rw [lookup_only, if_neg hname]) (by rw [lookup_only, if_neg hother])

theorem optional_only_none {α : Type} {read : Value → Except Fault α} {default : α} (hname : name ∉ names) :
    Checked.optional (only names a) name read default = .valid default :=
  optional_of_none (by rw [lookup_only, if_neg hname])

end

/-- All other fields of a field that is alone have their defaults. -/
theorem ofAttributes_only (a : Attributes) :
    ofAttributes (only ["connect-timeout", "connect_timeout_ms"] a) =
      (reading (timeout a "connect-timeout" "connect_timeout_ms" defaultConnectTimeoutMs) fun n =>
        { defaults with connectTimeoutMs := n }) ∧
    ofAttributes (only ["operation-timeout", "operation_timeout_ms"] a) =
      (reading (timeout a "operation-timeout" "operation_timeout_ms" defaultOperationTimeoutMs) fun n =>
        { defaults with operationTimeoutMs := n }) ∧
    ofAttributes (only ["username"] a) =
      (reading (Checked.optional a "username" optionalText none) fun name => { defaults with username := name }) ∧
    ofAttributes (only ["password"] a) =
      (reading (Checked.optional a "password" optionalText none) fun word => { defaults with password := word }) := by
  refine ⟨?_, ?_, ?_, ?_⟩ <;> unfold ofAttributes
  · rw [timeout_only (by decide) (by decide), timeout_only_none (by decide) (by decide),
      optional_only_none (by decide), optional_only_none (by decide)]
    cases timeout a "connect-timeout" "connect_timeout_ms" defaultConnectTimeoutMs <;> rfl
  · rw [timeout_only_none (by decide) (by decide), timeout_only (by decide) (by decide),
      optional_only_none (by decide), optional_only_none (by decide)]
    cases timeout a "operation-timeout" "operation_timeout_ms" defaultOperationTimeoutMs <;> rfl
  · rw [timeout_only_none (by decide) (by decide), timeout_only_none (by decide) (by decide),
      optional_only (by decide), optional_only_none (by decide)]
    cases Checked.optional a "username" optionalText none <;> rfl
  · rw [timeout_only_none (by decide) (by decide), timeout_only_none (by decide) (by decide),
      optional_only_none (by decide), optional_only (by decide)]
    cases Checked.optional a "password" optionalText none <;> rfl

/-- The issues that each field has alone. -/
def fieldIssues (a : Attributes) : List Issue := fields.flatMap fun names => (ofAttributes (only names a)).issues

theorem issues_perm_fieldIssues (a : Attributes) : (ofAttributes a).issues.Perm (fieldIssues a) := by
  obtain ⟨hconnect, hoperation, husername, hpassword⟩ := ofAttributes_only a
  refine (issues_ofAttributes a).trans ?_
  simp only [fieldIssues, fields, List.flatMap_cons, List.flatMap_nil, List.append_nil, ← List.append_assoc,
    hconnect, hoperation, husername, hpassword]
  exact ((((issues_reading _ _).append (issues_reading _ _)).append (issues_reading _ _)).append
    (issues_reading _ _)).symm

theorem place_of_only {names : List String} (hnames : names ∈ fields) {i : Issue}
    (hi : i ∈ (ofAttributes (only names a)).issues) :
    ∃ used, usedName? names a = some used ∧ i.place = [.name used] := by
  obtain ⟨hconnect, hoperation, husername, hpassword⟩ := ofAttributes_only a
  have hplain {name : String}
      (h : i ∈ (Checked.optional a name optionalText none).issues) :
      ∃ used, usedName? [name] a = some used ∧ i.place = [.name used] := by
    obtain ⟨hgiven, hplace⟩ := place_of_optional h
    exact ⟨name, by simp [usedName?, hgiven], hplace⟩
  simp only [fields, List.mem_cons, List.not_mem_nil, or_false] at hnames
  rcases hnames with rfl | rfl | rfl | rfl
  · exact place_of_timeout ((issues_reading _ _).mem_iff.1 (hconnect ▸ hi))
  · exact place_of_timeout ((issues_reading _ _).mem_iff.1 (hoperation ▸ hi))
  · exact hplain ((issues_reading _ _).mem_iff.1 (husername ▸ hi))
  · exact hplain ((issues_reading _ _).mem_iff.1 (hpassword ▸ hi))

/-- **The fields of a store's settings are read apart.** There are settings, with timeouts from a millisecond to an
hour, or there are issues. Entries of other names do not matter, and neither do those under a name that is shadowed.
All issues are those that each field has alone, at the name under which it is given; there are settings exactly if
there is none, and then each field has the value that it has alone. -/
theorem fields_are_read_apart (a : Attributes) :
    ((∃ s, ofAttributes a = .valid s ∧ (1 ≤ s.connectTimeoutMs ∧ s.connectTimeoutMs ≤ 3600000) ∧
        (1 ≤ s.operationTimeoutMs ∧ s.operationTimeoutMs ≤ 3600000)) ∨
      ∃ issues, issues ≠ [] ∧ ofAttributes a = .faulty issues) ∧
    (∀ b : Attributes, (∀ name ∈ fields.flatten, b.lookup name = a.lookup name) → ofAttributes b = ofAttributes a) ∧
    (∀ (name other : String) (b : Attributes), [name, other] ∈ fields → (a.lookup name).isSome = true →
      (∀ n ∈ fields.flatten, n ≠ other → b.lookup n = a.lookup n) → ofAttributes b = ofAttributes a) ∧
    (ofAttributes a).issues.Perm (fieldIssues a) ∧
    (∀ names ∈ fields, ∀ i ∈ (ofAttributes (only names a)).issues,
      ∃ used, usedName? names a = some used ∧ i.place = [.name used]) ∧
    ((∃ s, ofAttributes a = .valid s) ↔ fieldIssues a = []) ∧
    ∀ s, ofAttributes a = .valid s →
      ofAttributes (only ["connect-timeout", "connect_timeout_ms"] a) =
        .valid { defaults with connectTimeoutMs := s.connectTimeoutMs } ∧
      ofAttributes (only ["operation-timeout", "operation_timeout_ms"] a) =
        .valid { defaults with operationTimeoutMs := s.operationTimeoutMs } ∧
      ofAttributes (only ["username"] a) = .valid { defaults with username := s.username } ∧
      ofAttributes (only ["password"] a) = .valid { defaults with password := s.password } := by
  have hperm := issues_perm_fieldIssues a
  refine ⟨?_, fun _ => ofAttributes_of_lookup, fun _ _ _ => ofAttributes_of_shadowed, hperm,
    fun _ hnames _ => place_of_only hnames, ⟨?_, ?_⟩, ?_⟩
  · cases h : ofAttributes a with
    | valid s =>
      obtain ⟨hconnect, hoperation, -, -⟩ := ofAttributes_eq_valid.1 h
      exact .inl ⟨s, rfl, timeout_bounds (by decide) hconnect, timeout_bounds (by decide) hoperation⟩
    | faulty issues =>
      refine .inr ⟨issues, ?_, rfl⟩
      rintro rfl
      obtain ⟨s, hs⟩ := reasoned_ofAttributes a (by rw [h]; rfl)
      rw [hs] at h
      cases h
  · rintro ⟨s, hs⟩
    rw [hs] at hperm
    exact hperm.nil_eq.symm
  · intro h
    rw [h] at hperm
    exact reasoned_ofAttributes a hperm.eq_nil
  · intro s hs
    obtain ⟨hconnect, hoperation, husername, hpassword⟩ := ofAttributes_eq_valid.1 hs
    obtain ⟨hconnect', hoperation', husername', hpassword'⟩ := ofAttributes_only a
    rw [hconnect', hoperation', husername', hpassword', hconnect, hoperation, husername, hpassword]
    exact ⟨rfl, rfl, rfl, rfl⟩

/-- A good value under a name that is shadowed by a bad one, next to a bad name of a user. -/
theorem fields_are_read_apart_shadowed :
    let a : Attributes := [("username", .int 7), ("connect_timeout_ms", .int 50), ("connect-timeout", .text "soon"),
      ("operation_timeout_ms", .int 250)]
    let b : Attributes := [("connect-timeout", .text "soon"), ("connect_timeout_ms", .null), ("color", .text "red"),
      ("operation_timeout_ms", .int 250), ("username", .int 7)]
    ofAttributes b = ofAttributes a ∧
      (ofAttributes a).issues.Perm
        [⟨.integerText, [.name "connect-timeout"]⟩, ⟨.textType, [.name "username"]⟩] ∧
      ¬ ∃ s, ofAttributes a = .valid s := by
  intro a b
  obtain ⟨-, -, hshadowed, hperm, -, hvalid, -⟩ := fields_are_read_apart a
  have hlookup : ∀ n ∈ fields.flatten, n ≠ "connect_timeout_ms" → b.lookup n = a.lookup n := by
    simp [fields, a, b, Entries.lookup_cons]
  have hissues : (ofAttributes a).issues.Perm
      [⟨.integerText, [.name "connect-timeout"]⟩, ⟨.textType, [.name "username"]⟩] :=
    (issues_ofAttributes a).trans (.of_eq (by decide +kernel))
  refine ⟨hshadowed "connect-timeout" "connect_timeout_ms" b (by decide) rfl hlookup, hissues, ?_⟩
  rw [hvalid]
  intro hnone
  have hempty := (hnone ▸ hperm).symm.trans hissues
  cases hempty.nil_eq

end BackendSettings
end RemoteCache
