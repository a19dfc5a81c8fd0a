import RemoteCache.Proofs.Calls
import RemoteCache.Proofs.Resp
import RemoteCache.Wire

/-!
# Sockets under calls

What a call on a handle does to its socket, as far as the traffic tells. A script is *plain* if its failures are
failures of the operating system, and what can be reached from a plain script is `Sound`: what is still to arrive is
plain, and no socket and no traffic has a number above the number of openings. So a socket that is opened has a
number that no traffic has yet.

* A command that is sent goes over the socket of its handle, or over a new one; one that fails leaves the handle
  without a socket (`Sent`).
* An answer leaves the socket, and so does an error reply; any other failure takes the socket away (`Received`).

A failure that takes a socket away is never an error reply, which is what tells the two kinds apart.
-/

namespace RemoteCache.Wire

variable {w : Wire} {h : Handle} {f : Failure}

/-! ## Plain scripts -/

structure Delivery.Plain (d : Delivery) : Prop where
  failure : ∀ f, d.failure = some f → f.IsSystem
  chunks : Resp.Plain d.chunks

inductive Opening.Plain : Opening → Prop
  | refused {f : Failure} : f.IsSystem → Plain (.refused f)
  | accepted {deliveries : List Delivery} : (∀ d ∈ deliveries, d.Plain) → Plain (.accepted deliveries)

structure Socket.Plain (socket : Socket) : Prop where
  deliveries : ∀ d ∈ socket.deliveries, d.Plain
  queue : Resp.Plain socket.stream.queue

/-- What can be reached from a plain script. -/
structure Sound (w : Wire) : Prop where
  script : ∀ opening ∈ w.script, opening.Plain
  sockets : ∀ h socket, w.sockets.lookup h = some socket → socket.Plain ∧ socket.number ≤ w.openings
  traffic : ∀ entry ∈ w.traffic, entry.1 ≤ w.openings

theorem sound_of_script {script : List Opening} (h : ∀ opening ∈ script, opening.Plain) :
    Sound ({ script } : Wire) :=
  ⟨h, fun _ _ h => by simp at h, fun _ h => by simp at h⟩

theorem Sound.put {socket : Socket} (hw : w.Sound) (hplain : socket.Plain) (hnumber : socket.number ≤ w.openings)
    (h : Handle) : Sound { w with sockets := Entries.put w.sockets h socket } := by
  refine ⟨hw.script, ?_, hw.traffic⟩
  intro k other hk
  rw [Entries.lookup_put] at hk
  by_cases hkh : k = h
  · rw [if_pos hkh] at hk
    cases hk
    exact ⟨hplain, hnumber⟩
  · rw [if_neg hkh] at hk
    exact hw.sockets k other hk

theorem Sound.drop (hw : w.Sound) (h : Handle) : Sound { w with sockets := Entries.drop w.sockets h } := by
  refine ⟨hw.script, ?_, hw.traffic⟩
  intro k other hk
  rw [Entries.lookup_drop] at hk
  by_cases hkh : k = h
  · rw [if_pos hkh] at hk
    cases hk
  · rw [if_neg hkh] at hk
    exact hw.sockets k other hk

theorem Sound.note (hw : w.Sound) (event : Event) : (w.note event).Sound := ⟨hw.script, hw.sockets, hw.traffic⟩

theorem Sound.carry {socket : Socket} (hw : w.Sound) (hnumber : socket.number ≤ w.openings) (t : Transfer) :
    (w.carry socket t).Sound := by
  refine ⟨hw.script, hw.sockets, ?_⟩
  intro entry hentry
  rcases List.mem_cons.1 hentry with rfl | hentry
  · exact hnumber
  · exact hw.traffic entry hentry

theorem Sound.disconnect (hw : w.Sound) (h : Handle) : (w.disconnect h).Sound := by
  unfold Wire.disconnect
  split
  · exact (hw.drop h).note .closed
  · exact hw

/-! ## Failures of the operating system -/

theorem isErrorReply_openFailure (hf : f.IsSystem) (isLocal : Bool) (place : String) :
    (openFailure isLocal place f).isErrorReply = false := by
  cases hf
  unfold openFailure
  split
  · cases isLocal <;> rfl
  · rfl
  · rfl

theorem isErrorReply_sendFailure (hf : f.IsSystem) : (sendFailure f).isErrorReply = false := by
  cases hf
  unfold sendFailure
  split
  · rfl
  · split <;> rfl
  · rfl

theorem isErrorReply_readFailure (hf : f.isErrorReply = false) (place : String) :
    (readFailure place f).isErrorReply = false := by
  unfold readFailure
  split
  · rfl
  · exact hf

/-! ## Calls -/

/-- The number of the socket of a handle. -/
def number? (w : Wire) (h : Handle) : Option Nat := (w.sockets.lookup h).map Socket.number

theorem number_disconnect (w : Wire) (h : Handle) : (w.disconnect h).number? h = none := by
  unfold disconnect number?
  cases hsocket : w.sockets.lookup h with
  | some socket => simp [note, Entries.lookup_drop]
  | none => simp [hsocket]

@[simp] theorem traffic_disconnect (w : Wire) (h : Handle) : (w.disconnect h).traffic = w.traffic := by
  unfold disconnect
  split <;> rfl

@[simp] theorem openings_disconnect (w : Wire) (h : Handle) : (w.disconnect h).openings = w.openings := by
  unfold disconnect
  split <;> rfl

/-- Socket `k` is the one that a handle has, or the next one that is opened for it. -/
def Serves (w : Wire) (h : Handle) (k : Nat) : Prop :=
  w.number? h = some k ∨ w.number? h = none ∧ ∀ entry ∈ w.traffic, entry.1 < k

/-- Connecting gives a handle a socket, unless it fails. -/
inductive Connected (w : Wire) (h : Handle) : Except Failure Unit × Wire → Prop
  | ok {k : Nat} {v : Wire} : w.Serves h k → v.number? h = some k → v.traffic = w.traffic →
      Connected w h (.ok (), v)
  | refused {f : Failure} {v : Wire} : f.isErrorReply = false → v.number? h = none → v.traffic = w.traffic →
      Connected w h (.error f, v)

theorem connect_spec (hw : w.Sound) (h : Handle) : Connected w h (w.connect h) ∧ (w.connect h).2.Sound := by
  unfold connect
  cases hsocket : w.sockets.lookup h with
  | some socket =>
    have hnumber : w.number? h = some socket.number := by rw [number?, hsocket]; rfl
    exact ⟨.ok (.inl hnumber) hnumber rfl, hw⟩
  | none =>
    have hnumber : w.number? h = none := by rw [number?, hsocket]; rfl
    have hnext : Sound { w with script := w.script.drop 1, openings := w.openings + 1 } :=
      ⟨fun opening h => hw.script opening (List.mem_of_mem_drop h),
        fun k socket h => ⟨(hw.sockets k socket h).1, Nat.le_succ_of_le (hw.sockets k socket h).2⟩,
        fun entry h => Nat.le_succ_of_le (hw.traffic entry h)⟩
    have hopening : (w.script.head?.getD (.refused refusal)).Plain := by
      cases hhead : w.script.head? with
      | none => exact .refused .intro
      | some opening => exact hw.script opening (List.mem_of_mem_head? hhead)
    simp only [Option.isSome_none, Bool.false_eq_true, if_false]
    cases hfirst : w.script.head?.getD (.refused refusal) with
    | refused f =>
      rw [hfirst] at hopening
      cases hopening with
      | refused hf => exact ⟨.refused (isErrorReply_openFailure hf _ _) hnumber rfl, hnext.note _⟩
    | accepted deliveries =>
      rw [hfirst] at hopening
      cases hopening with
      | accepted hdeliveries =>
        have hplain : Socket.Plain { number := w.openings + 1, deliveries } :=
          ⟨hdeliveries, fun _ h => by simp at h⟩
        have hnew : w.Serves h (w.openings + 1) :=
          .inr ⟨hnumber, fun entry hentry => Nat.lt_succ_of_le (hw.traffic entry hentry)⟩
        refine ⟨.ok hnew ?_ rfl, ?_⟩
        · simp [number?, note, Entries.lookup_put]
        · exact (hnext.put hplain (Nat.le_refl _) h).note _

/-- A command goes over the socket of its handle, or over a new one; one that fails leaves the handle without. -/
inductive Sent (w : Wire) (h : Handle) (c : Command) : Except Failure Unit × Wire → Prop
  | ok {k : Nat} {v : Wire} : w.Serves h k → v.number? h = some k → v.traffic = (k, .command c) :: w.traffic →
      Sent w h c (.ok (), v)
  | failed {f : Failure} {v : Wire} : f.isErrorReply = false → v.number? h = none → v.traffic = w.traffic →
      Sent w h c (.error f, v)

theorem sendOver_spec (hw : w.Sound) {socket : Socket} (hsocket : w.sockets.lookup h = some socket) (c : Command) :
    Sent w h c (w.sendOver h socket c) ∧ (w.sendOver h socket c).2.Sound := by
  obtain ⟨hplain, hnumber⟩ := hw.sockets h socket hsocket
  have hserves : w.Serves h socket.number := .inl (by rw [number?, hsocket]; rfl)
  have hdelivery : (socket.deliveries.head?.getD {}).Plain := by
    cases hhead : socket.deliveries.head? with
    | none => exact ⟨fun _ h => by simp at h, fun _ h => by simp at h⟩
    | some d => exact hplain.deliveries d (List.mem_of_mem_head? hhead)
  unfold sendOver
  simp only
  generalize socket.deliveries.head?.getD {} = delivery at hdelivery
  cases hfailure : delivery.failure with
  | some f =>
    refine ⟨.failed (isErrorReply_sendFailure (hdelivery.failure f hfailure)) (number_disconnect _ h) ?_, ?_⟩
    · rw [traffic_disconnect]
      rfl
    · exact (hw.note _).disconnect h
  | none =>
    have hnext : Socket.Plain { socket with
        deliveries := socket.deliveries.drop 1
        stream := { socket.stream with queue := socket.stream.queue ++ delivery.chunks } } :=
      ⟨fun d h => hplain.deliveries d (List.mem_of_mem_drop h), hplain.queue.append hdelivery.chunks⟩
    refine ⟨.ok hserves ?_ rfl, ((hw.put hnext hnumber h).note _).carry hnumber _⟩
    simp [number?, carry, note, Entries.lookup_put]

theorem send_spec (hw : w.Sound) (h : Handle) (c : Command) : Sent w h c (w.send h c) ∧ (w.send h c).2.Sound := by
  obtain ⟨hconnected, hsound⟩ := connect_spec hw h
  unfold send
  generalize w.connect h = result at hconnected hsound
  cases hconnected with
  | refused hf hnone htraffic => exact ⟨.failed hf hnone htraffic, hsound⟩
  | @ok k v hserves hnumber htraffic =>
    obtain ⟨socket, hsocket, rfl⟩ : ∃ socket, v.sockets.lookup h = some socket ∧ socket.number = k := by
      simpa [number?] using hnumber
    simp only [hsocket]
    obtain ⟨hsent, hnext⟩ := sendOver_spec hsound hsocket c
    refine ⟨?_, hnext⟩
    generalize v.sendOver h socket c = result at hsent
    cases hsent with
    | failed hf hn ht => exact .failed hf hn (htraffic ▸ ht)
    | ok hserves' hn ht =>
      rcases hserves' with hheld | ⟨hnone, -⟩
      · rw [hnumber] at hheld
        cases hheld
        exact .ok hserves hn (htraffic ▸ ht)
      · rw [hnumber] at hnone
        cases hnone

/-- What is received over socket `k`: an answer or an error reply leaves the socket, any other failure takes it. -/
inductive Received (w : Wire) (h : Handle) (k : Nat) : Except Failure Answer × Wire → Prop
  | answered {a : Answer} {v : Wire} : v.number? h = some k → v.traffic = (k, .answer (.ok a)) :: w.traffic →
      Received w h k (.ok a, v)
  | refused {f : Failure} {v : Wire} : f.isErrorReply = true → v.number? h = some k →
      v.traffic = (k, .answer (.error f)) :: w.traffic → Received w h k (.error f, v)
  | dropped {f : Failure} {v : Wire} : f.isErrorReply = false → v.number? h = none →
      v.traffic = (k, .answer (.error f)) :: w.traffic → Received w h k (.error f, v)

/-- Whatever is received, it is the only traffic. -/
theorem Received.traffic_eq {k : Nat} {r : Except Failure Answer} {v : Wire} (hr : Received w h k (r, v)) :
    v.traffic = (k, .answer r) :: w.traffic := by
  cases hr with
  | answered _ htraffic | refused _ _ htraffic | dropped _ _ htraffic => exact htraffic

theorem receive_spec (hw : w.Sound) (h : Handle) :
    Received w h ((w.number? h).getD 0) (w.receive h) ∧ (w.receive h).2.Sound := by
  have hsocket : ((w.sockets.lookup h).getD { deliveries := [] }).Plain ∧
      ((w.sockets.lookup h).getD { deliveries := [] }).number = (w.number? h).getD 0 ∧
      (w.number? h).getD 0 ≤ w.openings := by
    unfold number?
    cases hlookup : w.sockets.lookup h with
    | none => exact ⟨⟨fun _ h => by simp at h, fun _ h => by simp at h⟩, rfl, Nat.zero_le _⟩
    | some socket => exact ⟨(hw.sockets h socket hlookup).1, rfl, (hw.sockets h socket hlookup).2⟩
  unfold receive
  generalize (w.sockets.lookup h).getD { deliveries := [] } = socket at hsocket
  obtain ⟨hplain, hk, hnumber⟩ := hsocket
  rw [← hk] at hnumber ⊢
  have hread := Resp.readAnswer_careful socket.stream hplain.queue
  simp only
  cases hanswer : Resp.readAnswer socket.stream with
  | error f stream =>
    rw [hanswer] at hread
    refine ⟨.dropped (isErrorReply_readFailure hread.2 _) (number_disconnect w h) ?_, ?_⟩
    · simp [carry]
    · exact (hw.disconnect h).carry (by simpa using hnumber) _
  | ok answer stream =>
    rw [hanswer] at hread
    have hnext : Socket.Plain { socket with stream } := ⟨hplain.deliveries, hread.1⟩
    refine ⟨?_, (hw.put hnext hnumber h).carry hnumber _⟩
    have hkept : ∀ result, ({ w with sockets := Entries.put w.sockets h { socket with stream } }.carry socket
        (.answer result)).number? h = some socket.number := by
      intro result
      simp [number?, carry, Entries.lookup_put]
    cases answer with
    | failure f => exact .refused (hread.2 f rfl) (hkept _) rfl
    | _ => exact .answered (hkept _) rfl

/-! ## Frames -/

/-- All that went over sockets. -/
abbrev Traffic := List (Nat × Transfer)

/-- The commands among the traffic, with the numbers of their sockets. -/
def commands (traffic : Traffic) : List (Nat × Command) :=
  traffic.filterMap fun entry => match entry.2 with
    | .command c => some (entry.1, c)
    | .answer _ => none

/-- The bytes that were written, if an event is about any. -/
def Event.sent? : Event → Option Bytes
  | .sent b => some b
  | _ => none

/-- The commands of the traffic are the frames that were written. -/
def Recorded (w : Wire) : Prop :=
  (commands w.traffic).map (fun entry => Resp.writeCommand entry.2) = w.events.filterMap Event.sent?

theorem Recorded.note (hw : w.Recorded) {event : Event} (hevent : event.sent? = none) : (w.note event).Recorded := by
  unfold Recorded at hw ⊢
  simp only [Wire.note, List.filterMap_cons, hevent]
  exact hw

theorem Recorded.disconnect (hw : w.Recorded) (h : Handle) : (w.disconnect h).Recorded := by
  unfold Wire.disconnect
  split
  · exact Recorded.note (w := { w with sockets := Entries.drop w.sockets h }) hw rfl
  · exact hw

theorem Recorded.connect (hw : w.Recorded) (h : Handle) : (w.connect h).2.Recorded := by
  unfold Wire.connect
  split
  · exact hw
  · simp only
    split
    · exact Recorded.note (w := { w with script := w.script.drop 1, openings := w.openings + 1 }) hw rfl
    · exact hw.note rfl

theorem Recorded.send (hw : w.Recorded) (h : Handle) (c : Command) : (w.send h c).2.Recorded := by
  have hconnect := hw.connect h
  unfold Wire.send
  generalize w.connect h = result at hconnect
  obtain ⟨result, v⟩ := result
  cases result with
  | error f => exact hconnect
  | ok _ =>
    simp only
    split
    · unfold sendOver
      simp only
      split
      · exact (hconnect.note rfl).disconnect h
      · unfold Recorded at hconnect ⊢
        simp only [commands, carry, Wire.note, List.filterMap_cons, List.map_cons, Event.sent?] at hconnect ⊢
        rw [hconnect]
    · exact hconnect

theorem Recorded.receive (hw : w.Recorded) (h : Handle) : (w.receive h).2.Recorded := by
  unfold Wire.receive
  simp only
  split
  · exact hw.disconnect h
  · exact hw

/-! ## Commands -/

/-- The commands that went over sockets, whichever these were. -/
def carried (w : Wire) : List Command := (commands w.traffic).map Prod.snd

@[simp] theorem carried_disconnect (w : Wire) (h : Handle) : (w.disconnect h).carried = w.carried := by
  rw [carried, traffic_disconnect, carried]

@[simp] theorem carried_connect (w : Wire) (h : Handle) : (w.connect h).2.carried = w.carried := by
  unfold connect
  split
  · rfl
  · simp only
    split <;> rfl

@[simp] theorem carried_receive (w : Wire) (h : Handle) : (w.receive h).2.carried = w.carried := by
  unfold receive
  simp only
  split
  · exact carried_disconnect w h
  · rfl

theorem lookup_of_connect {v : Wire} (hv : w.connect h = (.ok (), v)) : ∃ socket, v.sockets.lookup h = some socket := by
  unfold connect at hv
  split at hv
  case isTrue hsome =>
    cases hv
    exact Option.isSome_iff_exists.1 hsome
  case isFalse =>
    simp only at hv
    split at hv
    · cases hv
    · cases hv
      simp [note, Entries.lookup_put]

/-- A command has gone over a socket where sending it did not fail, and only there. -/
theorem carried_send (w : Wire) (h : Handle) (c : Command) :
    (w.send h c).2.carried = match (w.send h c).1 with
      | .ok _ => c :: w.carried
      | .error _ => w.carried := by
  have hconnect := carried_connect w h
  unfold send
  cases hv : w.connect h with
  | mk result v =>
    rw [hv] at hconnect
    cases result with
    | error f => exact hconnect
    | ok _ =>
      obtain ⟨socket, hsocket⟩ := lookup_of_connect hv
      simp only [hsocket, ← hconnect]
      unfold sendOver
      simp only
      split
      · exact carried_disconnect _ h
      · rfl

end RemoteCache.Wire
