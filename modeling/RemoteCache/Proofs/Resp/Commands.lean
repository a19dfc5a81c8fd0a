import RemoteCache.Proofs.Resp.Frames

/-!
# Commands read from their frames

A store reads a command as an array of byte strings, of which the first is the word. It takes them for texts, except
for the value of a write, which comes last and may be any bytes (`Command.ofParts?`). The commands that a session has
for its store are told apart in this way (`Command.Spoken`).

**Theorem (`readCommand_reads`).** A store reads from the frame of a command this command, however the frame is cut, and
takes no byte of what is behind it. So the commands that are written one behind the other are the ones that it executes
(`readCommands_read`), and no two commands have one frame (`writeCommand_inj`).
-/

namespace RemoteCache

/-! ## Commands and byte strings -/

namespace Command

variable {c : Command} {word : String}

/-- The byte strings of a command. -/
def parts (c : Command) : List Bytes := (c.word :: c.args).map Argument.toBytes

/-- The numbers in the frame of a command are below the limit of a reader. -/
structure Fits (c : Command) : Prop where
  count : (c.parts.length : Int) < Resp.lengthLimit
  length : ∀ b ∈ c.parts, (b.length : Int) + 2 < Resp.lengthLimit

/-- The text of some bytes that are one. -/
def text? (b : Bytes) : Option String := (Text.Utf8.decode? b).map String.ofList

/-- The arguments behind a word: texts, except for the value of a write. -/
def arguments? (word : String) : List Bytes → Option (List Argument)
  | [] => some []
  | b :: rest => do
    let a ← if word = "SET" ∧ rest = [] then some (.bytes b) else (text? b).map .text
    let more ← arguments? word rest
    return a :: more

/-- The command of some byte strings. -/
def ofParts? : List Bytes → Option Command
  | [] => none
  | b :: rest => do
    let word ← text? b
    let args ← arguments? word rest
    return ofWord word args

/-- A command that its byte strings tell: one of texts alone, or a write. -/
inductive Spoken : Command → Prop
  | texts {word : String} (texts : List String) : word ≠ "SET" → Spoken (ofWord word (texts.map .text))
  | write (key : String) (value : Bytes) : Spoken (set key value)

theorem spoken_auth (username : Option String) (password : String) : (auth username password).Spoken := by
  have htexts : (ofWord "AUTH" ((username.toList ++ [password]).map .text)).Spoken := .texts _ (by decide)
  rwa [List.map_append] at htexts

theorem text?_toBytes (s : String) : text? (Argument.text s).toBytes = some s := by
  have hencode : (Argument.text s).toBytes = Text.Utf8.encode s.toList := by
    rw [Text.Utf8.encode, String.ofList_toList]
    rfl
  rw [text?, hencode, Text.Utf8.decode?, Text.Utf8.decode_encode, if_pos rfl, Option.map_some, String.ofList_toList]

theorem arguments?_texts (hword : word ≠ "SET") (texts : List String) :
    arguments? word (texts.map fun s => (Argument.text s).toBytes) = some (texts.map .text) := by
  induction texts with
  | nil => rfl
  | cons s texts ih => simp [arguments?, hword, text?_toBytes, ih]

/-- **A command is told by its byte strings.** -/
theorem Spoken.ofParts_parts (hc : c.Spoken) : ofParts? c.parts = some c := by
  cases hc with
  | @texts word texts hword =>
    have hparts : (ofWord word (texts.map .text)).parts =
        (Argument.text word).toBytes :: texts.map fun s => (Argument.text s).toBytes := by
      simp [parts, ofWord]
    rw [hparts]
    simp [ofParts?, text?_toBytes, arguments?_texts hword]
  | write key value =>
    have hparts : (set key value).parts = [(Argument.text "SET").toBytes, (Argument.text key).toBytes, value] := rfl
    rw [hparts]
    simp [ofParts?, text?_toBytes, arguments?, set]

end Command

/-! ## Arrays as commands -/

namespace Answer

def bytes? : Answer → Option Bytes
  | .bytes b => some b
  | _ => none

/-- The command that an array stands for. -/
def command? : Answer → Option Command
  | .list items => (items.mapM bytes?).bind Command.ofParts?
  | _ => none

theorem mapM_bytes (parts : List Bytes) : (parts.map Answer.bytes).mapM bytes? = some parts := by
  induction parts with
  | nil => rfl
  | cons b parts ih => simp [bytes?, ih]

theorem command_list (parts : List Bytes) : (Answer.list (parts.map .bytes)).command? = Command.ofParts? parts := by
  rw [command?, mapM_bytes, Option.bind_some]

end Answer

namespace Resp

variable {α β : Type} {c d : Command}

/-- Readings of a kind that follow one another are read one behind the other. -/
theorem times_reads {read : Reader α} {frame : β → Bytes} {value : β → α} {bs : List β}
    (hread : ∀ b ∈ bs, Reads read (frame b) (value b)) :
    Reads (times bs.length read) (bs.flatMap frame) (bs.map value) := by
  induction bs with
  | nil => exact reads_pure []
  | cons b bs ih =>
    have hmore := ih fun b hb => hread b (List.mem_cons_of_mem _ hb)
    exact (hread b List.mem_cons_self).bind (hmore.map (value b :: ·))

/-- What is read from some bytes is one value. -/
theorem Reads.unique {read : Reader α} {front : Bytes} {a b : α} (ha : Reads read front a) (hb : Reads read front b) :
    a = b := by
  have hholds : Stream.Holds { buffer := front } (front ++ []) := ⟨[], .nil, rfl⟩
  obtain ⟨s, hs, -⟩ := ha _ [] hholds
  obtain ⟨t, ht, -⟩ := hb _ [] hholds
  rw [hs] at ht
  cases ht
  rfl

theorem writeCommand_eq (c : Command) :
    writeCommand c = ascii ("*" ++ toString c.parts.length) ++ lineEnd ++ c.parts.flatMap bulk := by
  simp [writeCommand, Command.parts, List.flatMap_map]

/-- A frame is read as the array of the byte strings of its command. -/
theorem writeCommand_reads (hc : c.Fits) : Reads readAnswer (writeCommand c) (.list (c.parts.map .bytes)) := by
  have hmark : ascii "*" = [42] := by decide +kernel
  obtain ⟨hline, hlf⟩ := numbered_line hmark (by decide) c.parts.length
  have hparts : Reads (times c.parts.length (readWithin depthLimit)) (c.parts.flatMap bulk) (c.parts.map .bytes) :=
    times_reads fun b hb => bulk_reads (hc.length b hb)
  rw [writeCommand_eq, readAnswer, readWithin, hline]
  refine (readLine_reads hlf).bind ?_
  show Reads (if ascii (toString c.parts.length) = ascii "-1" then _ else _) _ _
  rw [if_neg (ascii_toString_ne c.parts.length)]
  exact (number_reads hc.count).bind (hparts.map Answer.list)

/-- Reads a command, as a store does. -/
def readCommand : Reader (Option Command) := do
  let a ← readAnswer
  return a.command?

/-- **A store reads a command from its frame.** -/
theorem readCommand_reads (hc : c.Spoken) (hfits : c.Fits) : Reads readCommand (writeCommand c) (some c) := by
  have hread := (writeCommand_reads hfits).map Answer.command?
  rwa [Answer.command_list, hc.ofParts_parts] at hread

/-- **A store reads the commands that are written one behind the other**, each as it was. -/
theorem readCommands_read {commands : List Command} (hcommands : ∀ c ∈ commands, c.Spoken ∧ c.Fits) :
    Reads (times commands.length readCommand) (commands.flatMap writeCommand) (commands.map some) :=
  times_reads fun c hc => readCommand_reads (hcommands c hc).1 (hcommands c hc).2

/-- Two commands that have one frame are one command. -/
theorem writeCommand_inj (hc : c.Spoken) (hd : d.Spoken) (hcfits : c.Fits) (hdfits : d.Fits) :
    writeCommand c = writeCommand d ↔ c = d := by
  refine ⟨fun heq => ?_, congrArg writeCommand⟩
  have hread := readCommand_reads hc hcfits
  rw [heq] at hread
  exact Option.some.inj (hread.unique (readCommand_reads hd hdfits))

end Resp
end RemoteCache
