import RemoteCache.Proofs.Json.Objects
import RemoteCache.Proofs.Logging.Emission

/-!
# What an output of JSON lines says

A process writes its records one after the other, each as a line of its own. What a reader gets out of the output is
what was written: no message, logger or bound text can break a line or pass for another one.

**Theorem (`output_reads_back`).** Of any calls without a failure, made where no name of an attribute is bound, every
one gives a line. It consists of printable ASCII, so it holds no line feed, and reading it as JSON gives its payload:
the core fields with what is bound set over them, every name once and every text as it was. Cut at its line feeds, the
whole output is these lines.
-/

namespace RemoteCache.Logging

/-- A record with the moment and the message that its line shows. -/
structure Written where
  record : Record
  timestamp : String
  message : String

namespace Written

/-- The core fields, with what is bound set over them. -/
def payload (w : Written) : Context :=
  (w.record.entry.core w.timestamp w.message).overlay w.record.context

/-- The line as a text. -/
def line (w : Written) : String := String.ofList (Json.writeObject w.payload)

/-- The message is that of the call, there is no failure, and no name of an attribute is bound. -/
structure Plain (w : Written) : Prop where
  message : w.record.entry.message? = some w.message
  failure : w.record.entry.failure = none
  unbound : ∀ name ∈ Record.attributes, w.record.context.get? name = none

theorem nodup_payload (w : Written) : (w.payload.map (·.1)).Nodup :=
  Context.nodup_overlay (nodup_core _ _ _) _

theorem jsonLine?_eq {w : Written} (h : w.Plain) : w.record.jsonLine? w.timestamp = some w.line := by
  have hfailure : w.record.entry.failureText? = none := by
    rw [Entry.failureText?, h.failure, Option.map_none]
  have hpayload : w.record.payload? w.timestamp = some (Record.withFailure w.payload w.record.entry.failureText?) :=
    payload?_of_unbound h.unbound h.message
  rw [Record.jsonLine?, hpayload, hfailure]
  rfl

theorem isPrintable_line (w : Written) : ∀ c ∈ w.line.toList, Json.IsPrintable c := by
  rw [line, String.toList_ofList]
  exact Json.isPrintable_writeObject w.payload

/-- A line feed is not printable. -/
theorem lineFeed_not_mem_line (w : Written) : '\n' ∉ w.line.toList :=
  fun h => absurd (w.isPrintable_line _ h) (by decide)

/-- The payload has each name once, so reading the line gives it as it is. -/
theorem read_line (w : Written) : Json.read w.line = .ok (.dict (Json.ofTexts w.payload)) := by
  have hall : Entries.putAll [] w.payload = w.payload := Entries.putAll_of_nodup w.nodup_payload
  rw [line, Json.read_writeObject, hall]

/-- Wherever the record is emitted to a JSON sink, its line is written, and ended. -/
theorem write_eq {w : Written} (h : w.Plain) {s : State} {sink : Sink} (hcontext : s.context = w.record.context)
    (hemits : s.emits w.record.entry.level = true) (hsinks : s.sinks = [sink]) (hjson : sink.format = .json) :
    s.write w.timestamp w.record.entry = .ok (w.line ++ "\n") := by
  have hrecord : (⟨w.record.entry, s.context⟩ : Record) = w.record := by rw [hcontext]
  have hrefusal : w.record.refusal? = none :=
    Record.refusal?_eq_none_iff.2 fun name hname => h.unbound name (List.mem_append_right _ hname)
  rw [State.write_of_emits hemits hsinks (hrecord ▸ hrefusal), hrecord, hjson, Record.line?, jsonLine?_eq h]
  rfl

end Written

/-- Lines that hold no line feed are found again where each of them is ended by one. -/
theorem splitOn_lines {lines : List String} (h : ∀ line ∈ lines, '\n' ∉ line.toList) :
    List.splitOn '\n' (String.join (lines.map (· ++ "\n"))).toList = lines.map String.toList ++ [[]] := by
  rw [String.toList_join, List.flatMap_map]
  induction lines with
  | nil => rfl
  | cons line lines ih =>
    obtain ⟨hline, hlines⟩ := List.forall_mem_cons.1 h
    have hfirst : ∀ c ∈ line.toList, (c == '\n') = false :=
      fun c hc => beq_eq_false_iff_ne.2 fun heq => hline (heq ▸ hc)
    have hcons : (line :: lines).flatMap (fun line => (line ++ "\n").toList) =
        line.toList ++ '\n' :: lines.flatMap fun line => (line ++ "\n").toList := by
      simp
    rw [hcons, List.splitOn, List.splitOnP_append_cons_of_forall_mem hfirst '\n' rfl, List.map_cons, List.cons_append]
    exact congrArg (line.toList :: ·) (ih hlines)

/-- **An output of JSON lines reads back as it was written.** Every call gives one line of printable ASCII, whatever its
message, its logger and what is bound hold, and this line reads as the call's payload; cut at its line feeds, the output
is these lines. -/
theorem output_reads_back {calls : List Written} (h : ∀ w ∈ calls, w.Plain) :
    (∀ w ∈ calls, w.record.jsonLine? w.timestamp = some w.line ∧ (∀ c ∈ w.line.toList, ' ' ≤ c ∧ c ≤ '~') ∧
      (w.payload.map (·.1)).Nodup ∧ Json.read w.line = .ok (.dict (Json.ofTexts w.payload)) ∧
      ∀ (s : State) (sink : Sink), s.context = w.record.context → s.emits w.record.entry.level = true →
        s.sinks = [sink] → sink.format = .json → s.write w.timestamp w.record.entry = .ok (w.line ++ "\n")) ∧
    List.splitOn '\n' (String.join (calls.map fun w => w.line ++ "\n")).toList =
      (calls.map fun w => w.line.toList) ++ [[]] := by
  refine ⟨?_, ?_⟩
  · intro w hw
    exact ⟨Written.jsonLine?_eq (h w hw), w.isPrintable_line, w.nodup_payload, w.read_line,
      fun s sink hcontext hemits hsinks hjson => Written.write_eq (h w hw) hcontext hemits hsinks hjson⟩
  · have hlines : ∀ line ∈ calls.map Written.line, '\n' ∉ line.toList := by
      intro line hline
      obtain ⟨w, -, rfl⟩ := List.mem_map.1 hline
      exact w.lineFeed_not_mem_line
    have hsplit := splitOn_lines hlines
    rw [List.map_map, List.map_map] at hsplit
    exact hsplit

/-- A message that would end its line and start another one, and a name that is bound over a core field. -/
theorem output_reads_back_forged :
    let entry : Entry := { logger := "app", level := .info, message := "done\"\x7d\n\x7b\"level\":\"ERROR" }
    let forged : Written := ⟨⟨entry, [("user", "\\\x7f😀"), ("level", "low")]⟩, "now", entry.message⟩
    let other : Written := ⟨⟨entry, []⟩, "later", entry.message⟩
    let fields := [("timestamp", "now"), ("level", "low"), ("logger", "app"), ("message", entry.message),
      ("user", "\\\x7f😀")]
    forged.Plain ∧ other.Plain ∧ Json.read forged.line = .ok (.dict (Json.ofTexts fields)) ∧
      List.splitOn '\n' (String.join [forged.line ++ "\n", other.line ++ "\n"]).toList =
        [forged.line.toList, other.line.toList, []] := by
  intro entry forged other fields
  have hforged : forged.Plain := ⟨rfl, rfl, by decide⟩
  have hother : other.Plain := ⟨rfl, rfl, by decide⟩
  have hpayload : forged.payload = fields := rfl
  have hcalls : ∀ w ∈ [forged, other], w.Plain := by
    simp only [List.forall_mem_cons]
    exact ⟨hforged, hother, by simp⟩
  obtain ⟨hlines, hsplit⟩ := output_reads_back hcalls
  obtain ⟨-, -, -, hread, -⟩ := hlines forged List.mem_cons_self
  rw [hpayload] at hread
  exact ⟨hforged, hother, hread, hsplit⟩

end RemoteCache.Logging
