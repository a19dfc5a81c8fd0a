import RemoteCache.Proofs.Session.Lockstep
import RemoteCache.Proofs.Storage.Runs

/-!
# The password shows in the login only

A `Sight` is what can be seen after an operation: what came of it, the phase and the handle of the session, all log
records, and all calls with the logins masked. `Shows` says what is seen in the course of a run.

**Theorem (`passwords_look_alike`).** Take two stores whose settings differ in their passwords only, and run the same
operations on both. If they are answered alike, then the same is seen in both runs, after every operation.

The programs of the operations run in lockstep because those of their sessions do (`Operation.lockstep`). A run is
then followed operation by operation, and between two operations the peers may change as they like.
-/

namespace RemoteCache.Storage

open RemoteCache.Action

/-! ## Operations in lockstep -/

section

variable {σ τ α : Type} {o : Answers} {p q : String}

theorem lockstep_failed (action key : String) (reply : Reply) :
    Lockstep o p q (failed action key reply : Action σ (Outcome α)) (failed action key reply : Action τ (Outcome α)) :=
  ((lockstep_log _ _ _).within _).bind fun _ => lockstep_pure _

variable [Peer σ] [Peer τ]

theorem lockstep_issue (c : Command) : Lockstep o p q (issue c : Action σ Reply) (issue c : Action τ Reply) := by
  refine Session.lockstep_readyHandle.bind fun h => (lockstep_exchange h rfl).bind fun reply => ?_
  cases reply.tag with
  | null => exact Session.lockstep_markStale.bind fun _ => lockstep_pure _
  | _ => exact (lockstep_pure ()).bind fun _ => lockstep_pure _

theorem lockstep_operation {name key : String} {commands : Action σ (Outcome α)} {commands' : Action τ (Outcome α)}
    (h : Lockstep o p q commands commands') :
    Lockstep o p q (operation name key commands) (operation name key commands') := by
  refine Session.lockstep_ensureConnected.bind fun detail => ?_
  cases detail with
  | none => exact h.within _
  | some detail => exact lockstep_pure _

theorem lockstep_announced (c : Command) (key : String) :
    Lockstep o p q (announced c key : Action σ Reply) (announced c key : Action τ Reply) :=
  (lockstep_log _ _ _).bind fun _ => lockstep_issue c

theorem lockstep_set (d : Digest) (value : Bytes) :
    Lockstep o p q (set d value : Action σ (Outcome Bool)) (set d value : Action τ (Outcome Bool)) := by
  refine (lockstep_announced _ _).bind fun reply => ?_
  cases reply.tag with
  | status _ => exact lockstep_pure _
  | _ => exact lockstep_failed _ _ _

theorem lockstep_setIfMissing (d : Digest) (value : Bytes) :
    Lockstep o p q (setIfMissing d value : Action σ (Outcome Bool))
      (setIfMissing d value : Action τ (Outcome Bool)) := by
  refine (lockstep_announced _ _).bind fun reply => ?_
  cases reply.tag with
  | integer n => exact lockstep_ite Iff.rfl (lockstep_pure _) (lockstep_set d value)
  | null => exact lockstep_failed _ _ _
  | _ => exact (lockstep_log _ _ _).bind fun _ => lockstep_set d value

theorem Operation.lockstep (op : Operation) :
    Lockstep o p q (op.act : Action σ (Outcome op.Value)) (op.act : Action τ (Outcome op.Value)) := by
  cases op with
  | get d =>
    refine lockstep_operation ((lockstep_announced _ _).bind fun reply => ?_)
    cases reply.tag with
    | string _ => exact lockstep_pure _
    | nil => exact lockstep_pure _
    | _ => exact lockstep_failed _ _ _
  | put d value onlyIfMissing =>
    exact lockstep_operation (lockstep_ite Iff.rfl (lockstep_setIfMissing d value) (lockstep_set d value))
  | remove d =>
    refine lockstep_operation ((lockstep_announced _ _).bind fun reply => ?_)
    cases reply.tag with
    | integer _ => exact lockstep_pure _
    | _ => exact lockstep_failed _ _ _
  | close => exact Session.lockstep_close.bind fun _ => lockstep_pure _

end

/-! ## What is seen of a run -/

/-- What can be seen after an operation. -/
structure Sight where
  attempt : Attempt
  phase : Session.Phase
  handle : Option Handle
  records : List Logging.Record
  /-- All calls, the latest first, with the logins masked. -/
  calls : List Call

variable {σ τ : Type}

/-- What can be seen in a scene after an operation. -/
def Sight.of (attempt : Attempt) (x : Scene σ) : Sight where
  attempt := attempt
  phase := x.session.phase
  handle := x.session.handle
  records := x.records
  calls := x.line.calls.map Call.masked

variable [Peer σ] [Peer τ]

/-- A run from `x` to another scene shows these sights, the latest first. Its peer may change in any way. -/
inductive Shows (x : Scene σ) : List Sight → Scene σ → Prop
  | start : Shows x [] x
  | operate {sights : List Sight} {y : Scene σ} (op : Operation) : Shows x sights y →
      Shows x (.of ⟨op, (op.perform y).1⟩ (op.perform y).2 :: sights) (op.perform y).2
  | change {sights : List Sight} {y : Scene σ} (peer : σ) : Shows x sights y → Shows x sights (y.withPeer peer)

/-- Every run shows something. -/
theorem Run.shows {changes : σ → σ → Prop} {x y : Scene σ} {attempts : List Attempt}
    (hrun : Run changes x attempts y) : ∃ sights, sights.map Sight.attempt = attempts ∧ Shows x sights y := by
  induction hrun with
  | start => exact ⟨[], rfl, .start⟩
  | operate op _ ih =>
    obtain ⟨sights, rfl, hshows⟩ := ih
    exact ⟨_, rfl, .operate op hshows⟩
  | change peer _ _ ih =>
    obtain ⟨sights, rfl, hshows⟩ := ih
    exact ⟨sights, rfl, .change peer hshows⟩

theorem Shows.of_nil {x y : Scene σ} (h : Shows x [] y) : ∃ peer, y = x.withPeer peer := by
  generalize hsights : ([] : List Sight) = sights at h
  induction h with
  | start => exact ⟨x.line.peer, rfl⟩
  | operate => cases hsights
  | change peer _ ih =>
    obtain ⟨_, rfl⟩ := ih hsights
    exact ⟨peer, rfl⟩

/-- After the latest operation only the peer may have changed. -/
theorem Shows.latest {x y : Scene σ} {sight : Sight} {sights : List Sight} (h : Shows x (sight :: sights) y) :
    ∃ op z peer, Shows x sights z ∧ sight = .of ⟨op, (op.perform z).1⟩ (op.perform z).2 ∧
      y = (op.perform z).2.withPeer peer := by
  generalize hsights : sight :: sights = all at h
  induction h with
  | start => cases hsights
  | operate op h =>
    cases hsights
    exact ⟨op, _, _, h, rfl, rfl⟩
  | change peer _ ih =>
    obtain ⟨op, z, _, hz, hsight, rfl⟩ := ih hsights
    exact ⟨op, z, peer, hz, hsight, rfl⟩

end RemoteCache.Storage

namespace RemoteCache

variable {σ τ : Type} {p q : String} {x : Scene σ} {y : Scene τ}

theorem Twins.withPeer (h : Twins p q x y) (peer : σ) (peer' : τ) : Twins p q (x.withPeer peer) (y.withPeer peer') :=
  ⟨h.session, ⟨h.line.created_eq, h.line.calls_eq⟩, h.logging_eq, h.records_eq⟩

/-- The same is seen of twins. -/
theorem Twins.sight_eq (h : Twins p q x y) (attempt : Storage.Attempt) :
    Storage.Sight.of attempt x = .of attempt y := by
  obtain ⟨s, hs, hs'⟩ := h.session
  simp only [Storage.Sight.of, hs, hs', h.line.calls_eq, h.records_eq, Session.phase_withPassword,
    Session.handle_withPassword]

namespace Storage

variable [Peer σ] [Peer τ] {o : Answers} {x₀ : Scene σ} {y₀ : Scene τ} {sights sights' : List Sight}

/-- Runs from twins lead to twins and show the same, as long as they are answered alike. -/
theorem Shows.twins (h₀ : Twins p q x₀ y₀) (hx : Shows x₀ sights x) (hy : Shows y₀ sights' y)
    (hops : sights.map (·.attempt.op) = sights'.map (·.attempt.op)) (hgives : o.Gives x.line.calls)
    (hgives' : o.Gives y.line.calls) : sights = sights' ∧ Twins p q x y := by
  induction sights generalizing sights' x y with
  | nil =>
    obtain rfl : sights' = [] := by simpa using hops.symm
    obtain ⟨peer, rfl⟩ := hx.of_nil
    obtain ⟨peer', rfl⟩ := hy.of_nil
    exact ⟨rfl, h₀.withPeer peer peer'⟩
  | cons sight sights ih =>
    cases sights' with
    | nil => simp at hops
    | cons sight' sights' =>
      obtain ⟨op, z, peer, hz, rfl, rfl⟩ := hx.latest
      obtain ⟨op', z', peer', hz', rfl, rfl⟩ := hy.latest
      obtain ⟨hop, hrest⟩ := List.cons.inj hops
      obtain rfl : op = op' := hop
      obtain ⟨calls, -, hcalls⟩ := op.course z
      obtain ⟨calls', -, hcalls'⟩ := op.course z'
      obtain ⟨rfl, htwins⟩ := ih hz hz' hrest (hgives.of_suffix ⟨calls, hcalls.calls_eq.symm⟩)
        (hgives'.of_suffix ⟨calls', hcalls'.calls_eq.symm⟩)
      have hagrees : (op.perform z).1 = (op.perform z').1 ∧ Twins p q (op.perform z).2 (op.perform z').2 :=
        op.lockstep.agrees z z' htwins hgives hgives'
      refine ⟨?_, hagrees.2.withPeer peer peer'⟩
      rw [hagrees.1, hagrees.2.sight_eq]

/-- **Two runs that differ in the password, and are answered alike, show the same.** -/
theorem passwords_look_alike {endpoint : Endpoint} {settings : BackendSettings} {p q : String} {peer : σ} {peer' : τ}
    {logging : Logging.State}
    (hx : Shows (Scene.fresh endpoint { settings with password := some p } peer logging) sights x)
    (hy : Shows (Scene.fresh endpoint { settings with password := some q } peer' logging) sights' y)
    (hops : sights.map (·.attempt.op) = sights'.map (·.attempt.op))
    (hgives : o.Gives x.line.calls) (hgives' : o.Gives y.line.calls) : sights = sights' := by
  have h₀ : Twins p q (Scene.fresh endpoint { settings with password := some p } peer logging)
      (Scene.fresh endpoint { settings with password := some q } peer' logging) :=
    ⟨⟨{ endpoint, settings }, rfl, rfl⟩, ⟨rfl, rfl⟩, rfl, rfl⟩
  exact (Shows.twins h₀ hx hy hops hgives hgives').1

/-- Two logins that are rejected show the same, all log records included, though different passwords are sent. -/
theorem passwords_look_alike_when_rejected :
    let wrong : Failure := .store .response "WRONGPASS invalid username-password pair"
    let host := (Scene.onHost ({} : Steady)).session
    let loud : Logging.State := { level := .debug, sinks := [⟨.debug, .plain⟩] }
    let store (password : String) : Scene Steady :=
      Scene.fresh host.endpoint { host.settings with password := some password } { receiving := .error wrong } loud
    let get : Operation := .get ⟨List.replicate 20 0, rfl⟩
    let x := get.perform (store "first")
    let y := get.perform (store "second")
    Sight.of ⟨get, x.1⟩ x.2 = .of ⟨get, y.1⟩ y.2 ∧ x.2.records.length = 4 ∧
      x.2.line.calls.filterMap Call.command? = [.auth none "first"] ∧
      y.2.line.calls.filterMap Call.command? = [.auth none "second"] := by
  intro wrong host loud store get x y
  let o : Answers := { connection := fun _ => .ok (), sending := fun _ => .ok (), answer := fun _ => .error wrong }
  have hx : Shows (store "first") [.of ⟨get, x.1⟩ x.2] x.2 := .operate get .start
  have hy : Shows (store "second") [.of ⟨get, y.1⟩ y.2] y.2 := .operate get .start
  have hgives : o.Gives x.2.line.calls := ⟨trivial, rfl, rfl, rfl, trivial, trivial⟩
  have hgives' : o.Gives y.2.line.calls := ⟨trivial, rfl, rfl, rfl, trivial, trivial⟩
  have hsights := passwords_look_alike hx hy rfl hgives hgives'
  exact ⟨(List.cons.inj hsights).1, rfl, rfl, rfl⟩

end Storage
end RemoteCache
