import Mathlib.Logic.Relation
import RemoteCache.Proofs.Storage.Interruptions

/-!
# What an exchange hands over

A command is sent once, and its answer is received once unless the sending failed. What comes of this is told by what
was heard, an answer or a failure, and by the families of failures.

The families go back to how the kinds of failures are under each other (`Kind.bases`). A kind may be under two others,
and under one by way of another: a rejected login is a connection failure, and a cluster that is down is a failure of
the cluster and an error reply. The store failures are the kinds under the general one, and the error replies are the
kinds under the general reply, in all ways there are (`isStore_iff`, `isErrorReply_iff`, `isConnection_iff`).

**Theorem (`exchange_classifies`).** Every exchange with every peer makes these calls only, and what it hands over is
classified by what it has heard (`Reply.Classifies`). No behaviour is left out: a failure passes exactly if it is no
store failure.
-/

namespace RemoteCache

namespace Failure

/-! ## Kinds under kinds -/

/-- The kinds that a kind of store failure is directly under. -/
def StoreKind.bases : StoreKind → List Kind
  | .general => []
  | .connection | .timeout | .invalidResponse | .badData | .pubSub | .watch | .cluster | .response =>
    [.store .general]
  | .authentication | .authorization | .busyLoading | .maxConnections | .externalAuthProvider => [.store .connection]
  | .lock => [.store .general, .value]
  | .lockNotOwned => [.store .lock]
  | .readOnly | .noPermission | .noScript | .execAbort | .moduleLoad | .outOfMemory | .tryAgain
  | .authenticationArguments | .ask | .crossSlot | .noSuchFieldset => [.store .response]
  | .clusterDown => [.store .cluster, .store .response]
  | .masterDown => [.store .clusterDown]
  | .moved => [.store .ask]

def SystemKind.bases : SystemKind → List Kind
  | .general => []
  | .connectionRefused | .connectionReset | .connectionAborted | .brokenPipe => [.system .connection]
  | _ => [.system .general]

/-- The kinds that a kind is directly under. -/
def Kind.bases : Kind → List Kind
  | .store k => k.bases
  | .system k => k.bases
  | .value => []
  | .codec .general => [.value]
  | .codec _ => [.codec .general]
  | .foreign _ _ => []

/-- A kind is under another one, by any chain, or it is that one. -/
def Kind.IsA : Kind → Kind → Prop := Relation.ReflTransGen fun k base => base ∈ k.bases

/-- The kinds at most `n` steps above a kind. -/
def Kind.above : Nat → Kind → List Kind
  | 0, k => [k]
  | n + 1, k => k :: k.bases.flatMap (above n)

theorem Kind.isA_of_mem_above {n : Nat} {k top : Kind} (h : top ∈ k.above n) : k.IsA top := by
  induction n generalizing k with
  | zero =>
    obtain rfl := List.mem_singleton.1 h
    exact .refl
  | succ n ih =>
    obtain rfl | h := List.mem_cons.1 h
    · exact .refl
    · obtain ⟨base, hbase, htop⟩ := List.mem_flatMap.1 h
      exact .head hbase (ih htop)

/-- No chain has more than three steps. -/
theorem Kind.above_four (k : Kind) : k.above 4 = k.above 3 := by
  cases k with
  | store k => cases k <;> rfl
  | system k => cases k <;> rfl
  | codec k => cases k <;> rfl
  | value | foreign => rfl

theorem Kind.isA_iff_mem_above {k top : Kind} : k.IsA top ↔ top ∈ k.above 3 := by
  refine ⟨fun h => ?_, isA_of_mem_above⟩
  induction h using Relation.ReflTransGen.head_induction_on with
  | refl => exact List.mem_cons_self
  | head hbase _ ih =>
    rw [← above_four]
    exact List.mem_cons_of_mem _ (List.mem_flatMap.2 ⟨_, hbase, ih⟩)

instance (k top : Kind) : Decidable (k.IsA top) := decidable_of_iff _ Kind.isA_iff_mem_above.symm

/-! ## Families -/

variable {k : Kind} {top : StoreKind} {f : Failure}

/-- Only store failures are under a kind of store failures. -/
theorem Kind.eq_store_of_isA (h : k.IsA (.store top)) : ∃ kind, k = .store kind := by
  induction h using Relation.ReflTransGen.head_induction_on with
  | refl => exact ⟨top, rfl⟩
  | @head k base hbase _ ih =>
    obtain ⟨kind, rfl⟩ := ih
    cases k with
    | store k => exact ⟨k, rfl⟩
    | system k => cases k <;> simp [bases, SystemKind.bases] at hbase
    | codec k => cases k <;> simp [bases] at hbase
    | value | foreign => simp [bases] at hbase

/-- A family of store failures is known by its kinds. -/
theorem Kind.isA_store_iff (family : StoreKind → Bool)
    (hfamily : ∀ kind, family kind = true ↔ (Kind.store kind).IsA (.store top)) (k : Kind) :
    (match k with | .store kind => family kind | _ => false) = true ↔ k.IsA (.store top) := by
  constructor
  · intro h
    cases k with
    | store kind => exact (hfamily kind).1 h
    | system | value | codec | foreign => cases h
  · intro h
    obtain ⟨kind, rfl⟩ := eq_store_of_isA h
    exact (hfamily kind).2 h

theorem isStore_iff : f.isStore = true ↔ f.kind.IsA (.store .general) :=
  Kind.isA_store_iff (fun _ => true) (by intro kind; cases kind <;> decide) f.kind

theorem isErrorReply_iff : f.isErrorReply = true ↔ f.kind.IsA (.store .response) :=
  Kind.isA_store_iff StoreKind.isErrorReply (by intro kind; cases kind <;> decide) f.kind

theorem isConnection_iff : f.isConnection = true ↔ f.kind.IsA (.store .connection) :=
  Kind.isA_store_iff StoreKind.isConnection (by intro kind; cases kind <;> decide) f.kind

/-- A kind with none under it is a family by itself. -/
theorem Kind.isA_store_iff_eq (htop : ∀ kind, (Kind.store kind).IsA (.store top) → kind = top) :
    k.IsA (.store top) ↔ k = .store top := by
  constructor
  · intro h
    obtain ⟨kind, rfl⟩ := eq_store_of_isA h
    rw [htop kind h]
  · rintro rfl
    exact .refl

theorem isAuthentication_iff : f.isAuthentication = true ↔ f.kind.IsA (.store .authentication) := by
  rw [Kind.isA_store_iff_eq (by intro kind; cases kind <;> decide), isAuthentication, beq_iff_eq]

/-- Of the store failures one kind is a timeout. -/
theorem isTimeout_iff (hstore : f.isStore = true) : f.isTimeout = true ↔ f.kind.IsA (.store .timeout) := by
  rw [Kind.isA_store_iff_eq (by intro kind; cases kind <;> decide), isTimeout, Bool.or_eq_true, beq_iff_eq, beq_iff_eq]
  refine ⟨fun h => h.resolve_right fun hsystem => ?_, .inl⟩
  rw [isStore, hsystem] at hstore
  cases hstore

end Failure

/-! ## Tagging -/

namespace Reply

open Failure

/-- What is handed over for a command is classified by what was heard. -/
structure Classifies (word : Argument) (heard : Except Failure Answer) (result : Except Failure Reply) : Prop where
  /-- A failure passes exactly if it is no store failure. -/
  passes : ∀ f, result = .error f ↔ heard = .error f ∧ ¬ f.kind.IsA (.store .general)
  /-- Error replies and rejected logins are replies with the failure's text. -/
  refused : ∀ f, heard = .error f → f.kind.IsA (.store .response) ∨ f.kind.IsA (.store .authentication) →
    result = .ok ⟨.error (.text f.text), none⟩
  /-- An error reply that is handed over as a value is the same reply. -/
  handedOver : ∀ f, heard = .ok (.failure f) → f.kind.IsA (.store .response) →
    result = .ok ⟨.error (.text f.text), none⟩
  /-- With any other store failure no reply has arrived. -/
  lost : ∀ f, heard = .error f → f.kind.IsA (.store .general) → ¬ f.kind.IsA (.store .response) →
    ¬ f.kind.IsA (.store .authentication) → result = .ok ⟨.null, some f⟩
  /-- Where no reply has arrived there is a failure that was heard, and it tells whether time has run out. -/
  null : ∀ reply, result = .ok reply → reply.tag = .null →
    ∃ f, reply.failure = some f ∧ heard = .error f ∧ (reply.isTimeout = true ↔ f.kind.IsA (.store .timeout))
  /-- No answer but an error reply is tagged as an error. -/
  error : ∀ reply answer content, heard = .ok answer → result = .ok reply → reply.tag = .error content →
    ∃ f, answer = .failure f ∧ f.kind.IsA (.store .response)
  /-- The command decides what bytes are. -/
  bytes : ∀ b, heard = .ok (.bytes b) → result =
    .ok ⟨if String.ofList (Text.upper word.display.toList) ∈ ["SET", "AUTH"] then .status b else .string b, none⟩
  /-- Bytes and numbers are handed over as they were heard. -/
  unchanged : ∀ reply, result = .ok reply →
    (∀ b, reply.tag = .string b ∨ reply.tag = .status b → heard = .ok (.bytes b)) ∧
    ∀ n, reply.tag = .integer n ↔ heard = .ok (.int n)

theorem classifies_error (c : Command) (f : Failure) :
    Classifies c.word (.error f) (ofExchange c.name (.error f)) where
  passes := by
    intro g
    rw [← isStore_iff, Bool.not_eq_true]
    constructor
    · intro h
      obtain rfl : f = g := Except.error.inj (eq_error_of_ofExchange h)
      exact ⟨rfl, (ofExchange_error c.name f).1 h⟩
    · rintro ⟨⟨⟩, hstore⟩
      exact (ofExchange_error c.name f).2 hstore
  refused := by
    rintro g ⟨⟩ h
    rw [← isErrorReply_iff, ← isAuthentication_iff] at h
    obtain ⟨-, heq⟩ | ⟨⟨-, herror, hauth⟩, -⟩ | ⟨hstore, -⟩ := ofExchange_cases c.name f
    · exact heq
    · simp [herror, hauth] at h
    · rw [h.elim isStore_of_isErrorReply isStore_of_isAuthentication] at hstore
      cases hstore
  handedOver := by
    rintro g ⟨⟩
  lost := by
    rintro g ⟨⟩ hgeneral herror hauth
    rw [← isStore_iff] at hgeneral
    rw [← isErrorReply_iff] at herror
    rw [← isAuthentication_iff] at hauth
    obtain ⟨hrefused, -⟩ | ⟨-, heq⟩ | ⟨hstore, -⟩ := ofExchange_cases c.name f
    · exact absurd hrefused (not_or.2 ⟨herror, hauth⟩)
    · exact heq
    · rw [hgeneral] at hstore
      cases hstore
  null := by
    intro reply h hnull
    obtain ⟨-, heq⟩ | ⟨⟨hstore, -⟩, heq⟩ | ⟨-, heq⟩ := ofExchange_cases c.name f
    · cases heq.symm.trans h
      cases hnull
    · cases heq.symm.trans h
      exact ⟨f, rfl, rfl, isTimeout_iff hstore⟩
    · cases heq.symm.trans h
  error := by
    rintro reply answer content ⟨⟩
  bytes := by
    rintro b ⟨⟩
  unchanged := by
    intro reply h
    cases fails_ofExchange h with
    | error | null => simp

theorem classifies_answer (c : Command) (a : Answer) :
    Classifies c.word (.ok a) (ofExchange c.name (.ok a)) where
  passes := by
    intro f
    constructor
    · rintro ⟨⟩
    · rintro ⟨⟨⟩, -⟩
  refused := by
    rintro f ⟨⟩
  handedOver := by
    rintro f ⟨⟩ h
    exact congrArg Except.ok (if_pos (isErrorReply_iff.2 h))
  lost := by
    rintro f ⟨⟩
  null := by
    rintro reply ⟨⟩ hnull
    exact absurd hnull (tag_ofAnswer_ne_null c.name a)
  error := by
    rintro reply answer content ⟨⟩ ⟨⟩ htag
    cases a with
    | failure f =>
      refine ⟨f, rfl, isErrorReply_iff.1 ?_⟩
      rw [← Bool.not_eq_false]
      intro herror
      simp [ofAnswer, herror] at htag
    | bytes b => by_cases hstatus : c.name ∈ statusCommands <;> simp [ofAnswer, hstatus] at htag
    | _ => cases htag
  bytes := by
    rintro b ⟨⟩
    rfl
  unchanged := by
    rintro reply ⟨⟩
    cases a with
    | bytes b => by_cases hstatus : c.name ∈ statusCommands <;> simp [ofAnswer, hstatus]
    | failure f => by_cases herror : f.isErrorReply = true <;> simp [ofAnswer, Reply.error, herror]
    | int n => simp [ofAnswer, eq_comm]
    | _ => simp [ofAnswer]

theorem classifies (c : Command) (heard : Except Failure Answer) : Classifies c.word heard (ofExchange c.name heard) :=
  match heard with
  | .error f => classifies_error c f
  | .ok a => classifies_answer c a

end Reply

/-! ## Exchanges -/

namespace Line

open RemoteCache.Action

variable {σ : Type} [Peer σ]

theorem run_finish {τ α : Type} {act : EStateM Failure τ α} {x y : τ} {r : Except Failure α} (h : act x = finish r y) :
    run act x = (r, y) :=
  ends_of_finish (Q := fun r' y' => (r', y') = (r, y)) h rfl

theorem run_send (h : Handle) (c : Command) (l : Line σ) :
    run (send h c) l = ((Peer.send l.peer h c).1, { l with
      peer := (Peer.send l.peer h c).2
      calls := .send h c (Peer.send l.peer h c).1 :: l.calls }) :=
  run_finish rfl

theorem run_receive (h : Handle) (l : Line σ) :
    run (receive h) l = ((Peer.receive l.peer h).1, { l with
      peer := (Peer.receive l.peer h).2
      calls := .receive h (Peer.receive l.peer h).1 :: l.calls }) :=
  run_finish rfl

/-- An answer is received if the command could be sent. -/
theorem run_ask (h : Handle) (c : Command) (l : Line σ) :
    run (ask h c) l = match Peer.send l.peer h c with
      | (.error f, peer) => (.error f, { l with peer, calls := .send h c (.error f) :: l.calls })
      | (.ok (), peer) =>
        let (heard, peer) := Peer.receive peer h
        (heard, { l with peer, calls := .receive h heard :: .send h c (.ok ()) :: l.calls }) := by
  rw [ask, run_bind, run_send]
  obtain ⟨sent, peer⟩ := Peer.send l.peer h c
  cases sent with
  | error f => rfl
  | ok u => exact run_receive h _

theorem run_exchange (h : Handle) (c : Command) (l : Line σ) :
    run (exchange h c) l = (Reply.ofExchange c.name (run (ask h c) l).1, (run (ask h c) l).2) := by
  unfold run exchange
  cases ask h c l with
  | ok a m => rfl
  | error f m =>
    dsimp only
    cases Reply.ofExchange c.name (.error f) <;> rfl

/-- **An exchange hands over what it has heard, and classifies it.** For any word and arguments: the command has just
these. It is sent once. If this fails, nothing else is done, and the failure was heard; else an answer is received
once, and what comes back was heard. -/
theorem exchange_classifies (l : Line σ) (h : Handle) (word : Argument) (args : List Argument) :
    ∃ command, Command.ofArguments (word :: args) = .ok command ∧ command.word :: command.args = word :: args ∧
      let (result, after) := Action.run (exchange h command) l
      match Peer.send l.peer h command with
      | (.error f, peer) =>
        after = { l with peer, calls := .send h command (.error f) :: l.calls } ∧
        Reply.Classifies word (.error f) result
      | (.ok (), peer) =>
        let (heard, peer) := Peer.receive peer h
        after = { l with peer, calls := .receive h heard :: .send h command (.ok ()) :: l.calls } ∧
        Reply.Classifies word heard result := by
  refine ⟨⟨word, args⟩, rfl, rfl, ?_⟩
  rw [run_exchange, run_ask]
  cases Peer.send l.peer h ⟨word, args⟩ with
  | mk sent peer =>
    cases sent with
    | error f => exact ⟨rfl, Reply.classifies ⟨word, args⟩ (.error f)⟩
    | ok u => exact ⟨rfl, Reply.classifies ⟨word, args⟩ (Peer.receive peer h).1⟩

end Line
end RemoteCache
