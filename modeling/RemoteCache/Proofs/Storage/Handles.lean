import RemoteCache.Proofs.Storage.Finality

/-!
# At most one handle is open

A handle is *open* from a connection on it, successful or not, until it is disconnected (`Line.IsOpen`).

**Theorem (`one_handle_open`).** Whatever the peer does in a run from a fresh scene: if every connection that failed
was refused, then at no moment two handles are open. After each operation an open handle is the one that the session
holds, all others have been disconnected last, and an invalid session leaves none open. Closing disconnects the
handle that is held, once, and makes no other call; after that there are no calls at all.

The proof keeps track of the one handle that may be open. `Tidy held calls` says that after these calls no handle
but `held` is open or waits for its disconnection. There are three ways to go on: calls on the handle that is held
(`Tidy.stay`), its disconnection, after which none is held (`Tidy.disconnect`), and holding a handle where there was
none (`Tidy.hold`). A connection that neither succeeds nor is refused is the one case that none of them covers: it
leaves a new handle behind that the session does not know.
-/

namespace RemoteCache

namespace Line

/-! ## Open handles -/

/-- Whether a handle is open after some calls, the latest first. -/
def IsOpen (h : Handle) : List Call → Prop
  | [] => False
  | .connect k _ :: before => k = h ∨ IsOpen h before
  | .disconnect k :: before => k ≠ h ∧ IsOpen h before
  | .create .. :: before | .send .. :: before | .receive .. :: before => IsOpen h before

variable {h k : Handle} {call : Call} {calls before : List Call}

/-- A call opens no handle but its own. -/
theorem IsOpen.of_cons (hopen : IsOpen h (call :: calls)) (hne : call.handle ≠ h) : IsOpen h calls := by
  cases call with
  | connect _ _ => exact hopen.resolve_left hne
  | disconnect _ => exact hopen.2
  | create | send | receive => exact hopen

/-- At no moment of some calls two handles are open. -/
def Exclusive (calls : List Call) : Prop :=
  ∀ before, before <:+ calls → ∀ h k, IsOpen h before → IsOpen k before → h = k

theorem Exclusive.cons (hcalls : Exclusive calls)
    (hlatest : ∀ h k, IsOpen h (call :: calls) → IsOpen k (call :: calls) → h = k) : Exclusive (call :: calls) := by
  intro before hbefore
  rcases List.suffix_cons_iff.1 hbefore with rfl | hbefore
  · exact hlatest
  · exact hcalls before hbefore

/-- The latest call on a handle. -/
def latestOn (h : Handle) (calls : List Call) : Option Call := calls.find? (·.handle = h)

theorem latestOn_cons (h : Handle) (call : Call) (calls : List Call) :
    latestOn h (call :: calls) = if call.handle = h then some call else latestOn h calls := by
  by_cases hcall : call.handle = h <;> simp [latestOn, hcall]

/-! ## Tidy calls -/

/-- No handle is open but the one that is held, and all others have been disconnected last. -/
structure Tidy (held : Option Handle) (calls : List Call) : Prop where
  exclusive : Exclusive calls
  open_held : ∀ h, IsOpen h calls → held = some h
  dropped : ∀ call ∈ calls, held ≠ some call.handle →
    latestOn call.handle calls = some (.disconnect call.handle)

theorem tidy_nil (held : Option Handle) : Tidy held [] where
  exclusive := by
    intro before hbefore h k hopen
    rw [List.suffix_nil.1 hbefore] at hopen
    exact hopen.elim
  open_held _ hopen := hopen.elim
  dropped _ hcall := by simp at hcall

variable {held : Option Handle}

/-- Where no handle is held, any may be held from now on. -/
theorem Tidy.hold (ht : Tidy none calls) (held : Option Handle) : Tidy held calls where
  exclusive := ht.exclusive
  open_held h hopen := by cases ht.open_held h hopen
  dropped call hcall _ := ht.dropped call hcall (by simp)

/-- A call on the handle that is held. -/
theorem Tidy.cons (ht : Tidy held calls) (hh : held = some h) (hcall : call.handle = h) :
    Tidy held (call :: calls) := by
  have hopen : ∀ k, IsOpen k (call :: calls) → held = some k := by
    intro k hk
    by_cases hne : call.handle = k
    · rw [hh, ← hcall, hne]
    · exact ht.open_held k (hk.of_cons hne)
  refine ⟨ht.exclusive.cons fun j k hj hk => ?_, hopen, ?_⟩
  · exact Option.some.inj ((hopen j hj).symm.trans (hopen k hk))
  · intro other hother hne
    have hdiff : call.handle ≠ other.handle := by
      intro heq
      rw [hh, ← hcall, heq] at hne
      exact hne rfl
    rcases List.mem_cons.1 hother with rfl | hother
    · exact absurd rfl hdiff
    · rw [latestOn_cons, if_neg hdiff]
      exact ht.dropped other hother hne

/-- Calls on the handle that is held. -/
theorem Tidy.stay (ht : Tidy held before) (hh : held = some h) (hcalls : ∀ call ∈ calls, call.handle = h) :
    Tidy held (calls ++ before) := by
  induction calls with
  | nil => exact ht
  | cons call calls ih =>
    have hrest := ih fun other hother => hcalls other (List.mem_cons_of_mem _ hother)
    exact hrest.cons hh (hcalls call List.mem_cons_self)

/-- The handle that is held is disconnected, and not held any more. -/
theorem Tidy.disconnect (ht : Tidy held calls) (hh : held = some h) : Tidy none (.disconnect h :: calls) := by
  have hclosed : ∀ k, ¬ IsOpen k (.disconnect h :: calls) := by
    intro k hk
    have hheld : held = some k := ht.open_held k hk.2
    rw [hh] at hheld
    exact hk.1 (Option.some.inj hheld)
  refine ⟨ht.exclusive.cons fun j _ hj => (hclosed j hj).elim, fun k hk => (hclosed k hk).elim, ?_⟩
  intro call hcall _
  rw [latestOn_cons]
  by_cases heq : h = call.handle
  · simp [Call.handle, heq]
  · rcases List.mem_cons.1 hcall with rfl | hcall
    · exact absurd rfl heq
    · rw [if_neg (show ¬ (Call.disconnect h).handle = call.handle from heq)]
      exact ht.dropped call hcall (by simpa [hh] using heq)

/-- Every connection that failed was refused. -/
def Refusing (calls : List Call) : Prop :=
  ∀ h f, Call.connect h (.error f) ∈ calls → f.isConnectFailure = true

theorem refusing_append : Refusing (calls ++ before) ↔ Refusing calls ∧ Refusing before := by
  simp only [Refusing, List.mem_append, or_imp, forall_and]

end Line

open Line

variable {s t : Session} {h n : Handle} {calls before : List Call}

/-! ## Courses are tidy -/

namespace Session

variable {r : Answered}

theorem Login.tidy (hl : Login s h calls r t) (hh : s.handle = some h) (ht : Tidy s.handle before) :
    Tidy t.handle (calls ++ before) := by
  cases hl with
  | needless => exact ht
  | accepted _ hex | interrupted _ hex => exact ht.stay hh hex.handle_eq
  | rejected _ hex => exact (ht.stay hh hex.handle_eq).disconnect hh

/-- A new handle is held, or disconnected at once. -/
theorem Opening.tidy (ho : Opening s n calls r t) (hh : s.handle = none) (ht : Tidy s.handle before)
    (hrefusing : Refusing calls) : Tidy t.handle (calls ++ before) := by
  have hnew : Tidy (some n) before := (hh ▸ ht).hold _
  cases ho with
  | unsupported | nowhere => exact ht
  | opened _ hl =>
    rw [List.append_assoc]
    exact hl.tidy rfl (hnew.stay rfl (by simp [Call.handle]))
  | @refused f =>
    have hcalls : ∀ call ∈ [Call.connect n (.error f), .create n (.of s.endpoint s.settings)], call.handle = n := by
      simp [Call.handle]
    exact ((hnew.stay rfl hcalls).disconnect rfl).hold _
  | @interrupted f hf =>
    rw [hrefusing n f (by simp)] at hf
    cases hf

theorem Readying.tidy (hr : Readying s n calls r t) (ht : Tidy s.handle before) (hrefusing : Refusing calls) :
    Tidy t.handle (calls ++ before) := by
  cases hr with
  | ready | invalid => exact ht
  | fresh _ _ hh ho => exact ho.tidy hh ht hrefusing
  | reopened _ _ hh hl =>
    rw [List.append_assoc]
    exact hl.tidy hh (ht.stay hh (by simp [Call.handle]))
  | @replaced h f _ _ _ _ _ hh _ ho =>
    have hcalls : ∀ call ∈ [Call.connect h (.error f), .disconnect h], call.handle = h := by simp [Call.handle]
    rw [List.append_assoc]
    exact ho.tidy rfl ((ht.stay hh hcalls).disconnect hh) (refusing_append.1 hrefusing).1
  | interrupted _ _ hh => exact ht.stay hh (by simp [Call.handle])

theorem Closing.tidy (hc : Closing s calls t) (ht : Tidy s.handle before) : Tidy t.handle (calls ++ before) := by
  cases hc with
  | idle => exact ht
  | held hh => exact ht.disconnect hh

/-- Closing disconnects the handle that is held, and makes no other call. -/
theorem Closing.calls_eq (hc : Closing s calls t) : calls = s.handle.toList.map .disconnect := by
  cases hc with
  | idle hh | held hh => simp [hh]

end Session

namespace Storage

variable {c : Command} {op : Operation}

theorem Issuing.tidy {r : Except Failure Reply} (hi : Issuing s c calls r t) (ht : Tidy s.handle before) :
    Tidy t.handle (calls ++ before) := by
  cases hi with
  | idle => exact ht
  | answered _ hh hex | lost _ hh hex | interrupted _ hh hex => exact ht.stay hh hex.handle_eq

theorem Serving.tidy {r : op.Result} (hserve : Serving s op calls r t) (ht : Tidy s.handle before) :
    Tidy t.handle (calls ++ before) := by
  cases hserve with
  | get hi | remove hi | put hi | unasked hi | unanswered hi | kept hi => exact hi.tidy ht
  | written hi _ hi' =>
    rw [List.append_assoc]
    exact hi'.tidy (hi.tidy ht)

/-- Every operation leaves the calls tidy. -/
theorem Operating.tidy {r : op.Result} (ho : Operating s n op calls r t) (ht : Tidy s.handle before)
    (hrefusing : Refusing calls) : Tidy t.handle (calls ++ before) := by
  cases ho with
  | closed hc => exact hc.tidy ht
  | interrupted _ hr | unready _ hr => exact hr.tidy ht hrefusing
  | served hr hserve =>
    rw [List.append_assoc]
    exact hserve.tidy (hr.tidy ht (refusing_append.1 hrefusing).2)

/-! ## Runs -/

variable {σ : Type} [Peer σ] {changes : σ → σ → Prop} {x y : Scene σ} {attempts : List Attempt}

theorem Run.tidy (hrun : Run changes x attempts y) (hx : Tidy x.session.handle x.line.calls)
    (hrefusing : Refusing y.line.calls) : Tidy y.session.handle y.line.calls := by
  induction hrun with
  | start => exact hx
  | change _ _ _ ih => exact ih hrefusing
  | @operate _ y op _ ih =>
    obtain ⟨calls, hcourse, hcalls⟩ := op.course y
    rw [hcalls.calls_eq] at hrefusing ⊢
    obtain ⟨hnew, hold⟩ := refusing_append.1 hrefusing
    exact hcourse.tidy (ih hold) hnew

theorem close_calls (x : Scene σ) :
    (Operation.close.perform x).2.line.calls = x.session.handle.toList.map .disconnect ++ x.line.calls ∧
      (Operation.close.perform x).2.session.phase = .invalid ∧
      (Operation.close.perform x).2.session.handle = none := by
  obtain ⟨calls, hcourse, hcalls⟩ := Operation.close.course x
  generalize (Operation.close.perform x).1 = r, (Operation.close.perform x).2 = y at hcourse hcalls ⊢
  cases hcourse with
  | closed hc =>
    refine ⟨?_, hc.closed.1, hc.closed.2.1⟩
    rw [hcalls.calls_eq, hc.calls_eq]
  | interrupted hne | unready hne => exact absurd rfl hne
  | served _ hserve => cases hserve

/-- **At most one handle is open, and none is left behind**, whatever the peer does. -/
theorem one_handle_open {endpoint : Endpoint} {settings : BackendSettings} {peer : σ} {logging : Logging.State}
    (hrun : Run (fun _ _ => True) (Scene.fresh endpoint settings peer logging) attempts x) :
    (Refusing x.line.calls →
      Exclusive x.line.calls ∧
      (∀ h, IsOpen h x.line.calls → x.session.handle = some h) ∧
      (∀ h options, Call.create h options ∈ x.line.calls → x.session.handle ≠ some h →
        latestOn h x.line.calls = some (.disconnect h)) ∧
      (x.session.phase = .invalid → ∀ h, ¬ IsOpen h x.line.calls)) ∧
    (Operation.close.perform x).2.line.calls = x.session.handle.toList.map .disconnect ++ x.line.calls ∧
    ∀ more y, Run (fun _ _ => True) (Operation.close.perform x).2 more y →
      y.line.calls = (Operation.close.perform x).2.line.calls := by
  refine ⟨?_, (close_calls x).1, ?_⟩
  · intro hrefusing
    have htidy : Tidy x.session.handle x.line.calls := hrun.tidy (tidy_nil none) hrefusing
    refine ⟨htidy.exclusive, htidy.open_held, fun h options hcreate => htidy.dropped _ hcreate, ?_⟩
    intro hinvalid h hopen
    have hsound : x.session.Sound := hrun.sound (Scene.sound_fresh ..)
    rw [hsound.invalid hinvalid] at htidy
    cases htidy.open_held h hopen
  · intro more y hmore
    obtain ⟨-, hinvalid, hnone⟩ := close_calls x
    have hsound : (Operation.close.perform x).2.session.Sound :=
      ⟨fun hready => by simp [hinvalid] at hready, fun _ => hnone⟩
    exact (hmore.idles hsound hinvalid).2.calls_eq

/-- After a late answer the store refuses the next connections: the handle and the new one are both disconnected, the
session is invalid, and closing it makes no call. -/
theorem one_handle_open_when_refused :
    let late : Failure := .store .timeout "late"
    let refused : Failure := .store .connection "refused"
    let get : Operation := .get ⟨List.replicate 20 0, rfl⟩
    let x := (get.perform (Scene.onHost ({ receiving := .error late } : Steady))).2
    let y := (get.perform (x.withPeer { connecting := .error refused })).2
    y.line.calls.filter Call.isConnect =
        [.connect 1 (.error refused), .connect 0 (.error refused), .connect 0 (.ok ())] ∧
      Exclusive y.line.calls ∧ latestOn 0 y.line.calls = some (.disconnect 0) ∧
      latestOn 1 y.line.calls = some (.disconnect 1) ∧ (∀ h, ¬ IsOpen h y.line.calls) ∧
      (Operation.close.perform y).2.line.calls = y.line.calls := by
  intro late refused get x y
  have hy : Run (fun _ _ => True) (Scene.onHost ({ receiving := .error late } : Steady)) [⟨get, _⟩, ⟨get, _⟩] y :=
    .operate get (.change _ trivial (.operate get .start))
  have hconnects : y.line.calls.filter Call.isConnect =
      [.connect 1 (.error refused), .connect 0 (.error refused), .connect 0 (.ok ())] := rfl
  have hrefusing : Refusing y.line.calls := by
    intro h f hcall
    have hmem : Call.connect h (.error f) ∈ y.line.calls.filter Call.isConnect :=
      List.mem_filter.2 ⟨hcall, rfl⟩
    rw [hconnects] at hmem
    rcases hmem with _ | ⟨_, _ | ⟨_, _ | ⟨_, ⟨⟩⟩⟩⟩ <;> rfl
  obtain ⟨htidy, hclose, -⟩ := one_handle_open hy
  obtain ⟨hexclusive, -, hdropped, hinvalid⟩ := htidy hrefusing
  exact ⟨hconnects, hexclusive, rfl, rfl, hinvalid rfl, hclose⟩

end Storage
end RemoteCache
