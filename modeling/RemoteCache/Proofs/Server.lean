import RemoteCache.Entries
import RemoteCache.Server
import RemoteCache.Proofs.Calls
import RemoteCache.Proofs.Reply

/-!
# A store in memory holds a map

What a store in memory holds is a map from keys to values (`Server.contents`). A store without fixed answers executes
commands on this map, and calls change it in no other way: a command that is sent is either executed, or lost with
the handle that it was sent on (`Server.sent`), and connecting, disconnecting and receiving leave the map as it is.

**An exchange is therefore one of two things** (`exchange_on_server`): the command was lost, nothing has changed and
the handle is not connected any more; or the command was executed, and its answer is what was received.
-/

namespace RemoteCache

/-- What a store holds: a value for some keys. -/
abbrev Contents := String → Option Bytes

/-- Changes the value of one key, or removes it. -/
def Contents.set (M : Contents) (key : String) (value : Option Bytes) : Contents :=
  fun other => if other = key then value else M other

namespace Server

/-- The map that a store in memory holds. -/
def contents (s : Server) : Contents := fun key => s.values.lookup key

/-- A store that executes commands: no answer is fixed. -/
def Honest (s : Server) : Prop := s.fixedAnswers = []

variable {s : Server}

/-! ## Commands -/

theorem execute_get (hs : s.Honest) (key : String) :
    s.execute (.get key) = ((s.contents key).elim .nil .bytes, s) := by
  unfold execute
  rw [Command.name_get, hs]
  simp only [List.lookup_nil, Command.get, Command.ofWord, contents]
  cases s.values.lookup key <;> rfl

theorem execute_exists (hs : s.Honest) (key : String) :
    s.execute (.exists? key) = (.int (if (s.contents key).isSome then 1 else 0), s) := by
  unfold execute
  rw [Command.name_exists, hs]
  rfl

theorem execute_set (hs : s.Honest) (key : String) (value : Bytes) :
    s.execute (.set key value) = (.bytes "OK".toUTF8.toList, { s with values := Entries.put s.values key value }) := by
  unfold execute
  rw [Command.name_set, hs]
  rfl

theorem execute_del (hs : s.Honest) (key : String) :
    s.execute (.del key) =
      (.int (if (s.contents key).isSome then 1 else 0), { s with values := Entries.drop s.values key }) := by
  unfold execute
  rw [Command.name_del, hs]
  rfl

/-- A login leaves a store as it is. -/
theorem execute_auth (hs : s.Honest) {c : Command} (hc : c.isAuth = true) : (s.execute c).2 = s := by
  have hname : c.name = "AUTH" := by simpa [Command.isAuth] using hc
  unfold execute
  rw [hname, hs]
  rfl

theorem contents_put (key : String) (value : Bytes) :
    contents { s with values := Entries.put s.values key value } = s.contents.set key (some value) := by
  funext other
  exact Entries.lookup_put s.values key value other

theorem contents_drop (key : String) :
    contents { s with values := Entries.drop s.values key } = s.contents.set key none := by
  funext other
  exact Entries.lookup_drop s.values key other

/-- Executing a command changes the values alone. -/
theorem execute_eq (s : Server) (c : Command) : (s.execute c).2 = { s with values := (s.execute c).2.values } := by
  unfold execute
  split
  · rfl
  · split <;> rfl

/-! ## Calls -/

/-- What two stores have in common if nothing was executed on the way from one to the other. -/
structure Agrees (s t : Server) : Prop where
  values_eq : t.values = s.values
  fixedAnswers_eq : t.fixedAnswers = s.fixedAnswers

namespace Agrees

theorem refl (s : Server) : s.Agrees s := ⟨rfl, rfl⟩

theorem trans {t u : Server} (h₁ : s.Agrees t) (h₂ : t.Agrees u) : s.Agrees u :=
  ⟨h₂.values_eq.trans h₁.values_eq, h₂.fixedAnswers_eq.trans h₁.fixedAnswers_eq⟩

theorem contents_eq {t : Server} (h : s.Agrees t) : t.contents = s.contents := by
  funext key
  rw [contents, contents, h.values_eq]

theorem honest {t : Server} (h : s.Agrees t) (hs : s.Honest) : t.Honest := by
  rw [Honest, h.fixedAnswers_eq, hs]

end Agrees

theorem agrees_connect (s : Server) (h : Handle) : s.Agrees (s.connect h).2 := by
  unfold connect
  split <;> exact ⟨rfl, rfl⟩

theorem agrees_receive (s : Server) (h : Handle) : s.Agrees (s.receive h).2 := ⟨rfl, rfl⟩

/-- A command that is sent is lost, and the handle with it, or it is executed and its answer waits. -/
inductive Sent (s : Server) (h : Handle) (c : Command) : Except Failure Unit × Server → Prop
  | lost {f : Failure} {t : Server} : s.Agrees t → h ∉ t.connected → Sent s h c (.error f, t)
  | executed {t : Server} : h ∈ s.connected → (s.execute c).2.Agrees t →
      t.waiting.lookup h = some (s.execute c).1 → Sent s h c (.ok (), t)

theorem sent (s : Server) (h : Handle) (c : Command) : Sent s h c (s.send h c) := by
  unfold send
  by_cases hh : h ∈ s.connected
  · rw [if_neg (by simpa using hh)]
    cases s.commandFailures.lookup c.name with
    | some f => exact .lost ⟨rfl, rfl⟩ (by simp [disconnect])
    | none =>
      refine .executed hh ⟨rfl, rfl⟩ ?_
      rw [Entries.lookup_put, if_pos rfl]
      rfl
  · rw [if_pos hh]
    exact .lost (.refl s) hh

theorem receive_waiting {h : Handle} {a : Answer} (ha : s.waiting.lookup h = some a) : (s.receive h).1 = a.raised := by
  unfold receive
  rw [ha]
  rfl

/-! ## Exchanges -/

/-- A command is lost with its handle, or executed and answered. -/
inductive Exchanged (s : Server) (h : Handle) (c : Command) : Except Failure Reply → Server → Prop
  | lost {f : Failure} {t : Server} : s.Agrees t → h ∉ t.connected →
      Exchanged s h c (Reply.ofExchange c.name (.error f)) t
  | executed {t : Server} : h ∈ s.connected → (s.execute c).2.Agrees t →
      Exchanged s h c (Reply.ofExchange c.name (s.execute c).1.raised) t

open Line

/-- **An exchange with a store in memory is lost or executed.** -/
theorem exchange_on_server {l m : Line Server} {h : Handle} {c : Command} {calls : List Call}
    {r : Except Failure Reply} (hex : Exchange h c calls r) (hcalls : Leads l calls m) :
    Exchanged l.peer h c r m.peer := by
  cases hex with
  | unsent f =>
    have hsent : Sent l.peer h c (.error f, m.peer) := hcalls.single.send_eq ▸ sent l.peer h c
    cases hsent with
    | lost hagrees hlost => exact .lost hagrees hlost
  | answered r =>
    obtain ⟨k, hsend, hreceive⟩ := hcalls.last
    have hsent : Sent l.peer h c (.ok (), k.peer) := hsend.single.send_eq ▸ sent l.peer h c
    have hreceived : k.peer.receive h = (r, m.peer) := hreceive.receive_eq
    cases hsent with
    | executed hh hagrees hwaiting =>
      have hr : r = (l.peer.execute c).1.raised := by rw [← receive_waiting hwaiting, hreceived]
      have hm : m.peer = (k.peer.receive h).2 := by rw [hreceived]
      rw [hr, hm]
      exact .executed hh (hagrees.trans (agrees_receive k.peer h))

/-- Before a session is ready, a store in memory stays as it is. -/
theorem agrees_of_sends_auth {l m : Line Server} {calls : List Call} (hl : l.peer.Honest)
    (hcalls : Leads l calls m) (hauth : Sends (·.isAuth = true) calls) : l.peer.Agrees m.peer := by
  refine hcalls.preserves (P := fun n => l.peer.Agrees n.peer) (fun {k c n} hc hs hk => ?_) (.refl _)
  refine hk.trans ?_
  cases hs with
  | create => exact .refl _
  | connect h => exact agrees_connect k.peer h
  | disconnect h => exact ⟨rfl, rfl⟩
  | receive h => exact agrees_receive k.peer h
  | send h c =>
    have hc : c.isAuth = true := hauth _ hc c rfl
    have hsent := sent k.peer h c
    show k.peer.Agrees (k.peer.send h c).2
    generalize k.peer.send h c = result at hsent
    cases hsent with
    | lost hagrees => exact hagrees
    | executed _ hagrees =>
      rw [execute_auth (hk.honest hl) hc] at hagrees
      exact hagrees

/-- No call fixes an answer. -/
theorem kept_honest : Line.Kept Honest where
  create _ _ _ hs := hs
  connect s h hs := (agrees_connect s h).honest hs
  disconnect _ _ hs := hs
  receive s h hs := (agrees_receive s h).honest hs
  send s h c hs := by
    have hsent := sent s h c
    show (s.send h c).2.Honest
    generalize s.send h c = result at hsent
    cases hsent with
    | lost hagrees => exact hagrees.honest hs
    | executed _ hagrees =>
      refine hagrees.honest ?_
      rw [execute_eq]
      exact hs

end Server
end RemoteCache
