import RemoteCache.Proofs.Storage.Runs

/-!
# Invalid sessions stay invalid

**Theorem (`invalid_is_final`).** Whatever the peer does in a run from a fresh scene: once the session is invalid it
holds no handle, every later operation is refused, and neither an operation nor a close makes a call or changes the
session. And a session only becomes invalid by closing, or in an operation that ends with a `Final` detail.

The first half is an induction over what follows in the run, from the fact that an operation on an invalid session
without a handle takes a course without calls (`Operating.of_invalid`); that no handle is held is the soundness of
the session. The second half is what `Session.Readying.fits` says of the one step of an operation that can make a
session invalid.
-/

namespace RemoteCache.Storage

open Line

variable {s t : Session} {op : Operation} {calls : List Call} {n : Handle} {r : op.Result}

/-- On an invalid session nothing is called and nothing changes. -/
theorem Operating.of_invalid (hs : s.Sound) (hinvalid : s.phase = .invalid) (ho : Operating s n op calls r t) :
    calls = [] ∧ t = s ∧ (op ≠ .close → r = .ok (.failure Session.backendInvalid)) := by
  cases ho with
  | closed hc =>
    obtain ⟨rfl, rfl⟩ := hc.of_none (hs.invalid hinvalid)
    refine ⟨rfl, ?_, fun hop => absurd rfl hop⟩
    rw [← hinvalid]
  | interrupted _ hr =>
    obtain ⟨-, hf, -⟩ := hr.of_invalid hinvalid
    simp at hf
  | unready _ hr =>
    obtain ⟨rfl, hdetail, rfl⟩ := hr.of_invalid hinvalid
    simp only [Except.ok.injEq, Option.some.injEq] at hdetail
    exact ⟨rfl, rfl, fun _ => by rw [hdetail]⟩
  | served hr =>
    obtain ⟨-, hnone, -⟩ := hr.of_invalid hinvalid
    simp at hnone

/-- A session that becomes invalid is closed, or an operation tells why. -/
theorem Operating.final (hs : s.Sound) (hvalid : s.phase ≠ .invalid) (ho : Operating s n op calls r t)
    (hinvalid : t.phase = .invalid) : op = .close ∨ ∃ detail, r = .ok (.failure detail) ∧ detail.Final := by
  cases ho with
  | closed => exact .inl rfl
  | interrupted _ hr =>
    have hphase : t.phase = .connecting := hr.fits hs hvalid
    rw [hinvalid] at hphase
    cases hphase
  | unready _ hr =>
    obtain ⟨-, -, hfinal⟩ := hr.fits hs hvalid
    exact .inr ⟨_, rfl, hfinal⟩
  | served hr hserve =>
    obtain ⟨hready, -⟩ := hr.ready_of_none hs
    rcases hserve.session_eq with rfl | rfl
    · rw [hinvalid] at hready
      cases hready
    · cases hinvalid

/-- Closing is all that an invalid session lets go ahead. -/
def Attempt.Refused (a : Attempt) : Prop :=
  a.op ≠ .close →
    ∃ detail, a.result = .ok (.failure detail) ∧ detail.code = .backendInvalid ∧ detail.category = .error

variable {σ : Type} [Peer σ]

/-- What stays as it is from one scene to another when nothing is called. -/
structure Idles (x y : Scene σ) : Prop where
  session_eq : y.session = x.session
  calls_eq : y.line.calls = x.line.calls
  created_eq : y.line.created = x.line.created

/-- From an invalid session on, every operation is refused without a call. -/
theorem Run.idles {changes : σ → σ → Prop} {x y : Scene σ} {attempts : List Attempt} (hx : x.session.Sound)
    (hinvalid : x.session.phase = .invalid) (hrun : Run changes x attempts y) :
    (∀ a ∈ attempts, a.Refused) ∧ Idles x y := by
  induction hrun with
  | start => exact ⟨by simp, rfl, rfl, rfl⟩
  | change peer _ _ ih => exact ⟨ih.1, ih.2.session_eq, ih.2.calls_eq, ih.2.created_eq⟩
  | @operate attempts y op _ ih =>
    obtain ⟨hrefused, hidles⟩ := ih
    rw [← hidles.session_eq] at hx hinvalid
    obtain ⟨calls, hcourse, hcalls⟩ := op.course y
    obtain ⟨rfl, hsession, hresult⟩ := hcourse.of_invalid hx hinvalid
    have hline := hcalls.eq_of_nil
    refine ⟨?_, ?_, ?_, ?_⟩
    · intro a ha
      rcases List.mem_cons.1 ha with rfl | ha
      · intro hop
        exact ⟨_, hresult hop, rfl, rfl⟩
      · exact hrefused a ha
    · rw [hsession, hidles.session_eq]
    · rw [hline, hidles.calls_eq]
    · rw [hline, hidles.created_eq]

/-- **Being invalid is final**, and comes from closing or with a `Final` detail only. -/
theorem invalid_is_final {endpoint : Endpoint} {settings : BackendSettings} {peer : σ} {logging : Logging.State}
    {attempts : List Attempt} {x : Scene σ}
    (hrun : Run (fun _ _ => True) (Scene.fresh endpoint settings peer logging) attempts x) :
    (x.session.phase = .invalid → ∀ more y, Run (fun _ _ => True) x more y →
      (∀ a ∈ more, a.Refused) ∧ y.session.phase = .invalid ∧ y.session.handle = none ∧ Idles x y) ∧
    (x.session.phase ≠ .invalid → ∀ op : Operation, (op.perform x).2.session.phase = .invalid →
      op = .close ∨ ∃ detail, (op.perform x).1 = .ok (.failure detail) ∧ detail.Final) := by
  have hsound : x.session.Sound := hrun.sound (Scene.sound_fresh ..)
  constructor
  · intro hinvalid more y hmore
    obtain ⟨hrefused, hidles⟩ := hmore.idles hsound hinvalid
    refine ⟨hrefused, ?_, ?_, hidles⟩
    · rw [hidles.session_eq, hinvalid]
    · rw [hidles.session_eq, hsound.invalid hinvalid]
  · intro hvalid op hinvalid
    obtain ⟨calls, hcourse, -⟩ := op.course x
    exact hcourse.final hsound hvalid hinvalid

/-- After a refused connection a store is invalid, and the next read makes no call. -/
theorem invalid_is_final_after_refusal :
    let refusing : Steady := { connecting := .error (.store .connection "refused") }
    let get : Operation := .get ⟨List.replicate 20 0, rfl⟩
    let x := (get.perform (Scene.onHost refusing)).2
    x.session.phase = .invalid ∧ Idles x (get.perform x).2 := by
  intro refusing get x
  have hx : Run (fun _ _ => True) (Scene.onHost refusing) [⟨get, _⟩] x := .operate get .start
  have hinvalid : x.session.phase = .invalid := rfl
  obtain ⟨-, -, -, hidles⟩ := (invalid_is_final hx).1 hinvalid _ _ (.operate get .start)
  exact ⟨hinvalid, hidles⟩

end RemoteCache.Storage
