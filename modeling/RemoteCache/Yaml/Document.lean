import RemoteCache.Yaml.Tag
import RemoteCache.Yaml.Token

/-!
# The nodes of a document

Texts, sequences and mappings, each with its tag, read from the tokens of a document. A place without a token, such as
behind the colon of a key without a value, holds an empty plain text.

Nodes are numbered in the order in which they start, and collections hold numbers. So an alias is one more mention of
a number, also inside of the node that it names. A document is one node with all that it mentions; a second one is
refused.
-/

namespace RemoteCache.Yaml

inductive Node
  | scalar (tag : Tag) (text : Text.Points)
  | sequence (tag : Tag) (items : List Nat)
  | mapping (tag : Tag) (entries : List (Nat × Nat))
deriving Repr

def Node.tag : Node → Tag
  | .scalar tag _ => tag
  | .sequence tag _ => tag
  | .mapping tag _ => tag

/-- Stands where nothing is written. -/
def Node.empty : Node := .scalar .null []

instance : Inhabited Node := ⟨.empty⟩

structure Document where
  nodes : Array Node
  root : Nat

/-- The node of a number. -/
def Document.node (d : Document) (id : Nat) : Node := d.nodes.getD id .empty

/-- How far the nodes of a document have been read. -/
structure Builder where
  /-- The tokens to come. -/
  tokens : List Token
  nodes : Array Node := #[]
  /-- The nodes with anchors. -/
  anchors : List (String × Nat) := []
  /-- What the handles of tags stand for. -/
  handles : List (String × String) := []
  /-- How many collections are being read, each inside of the one before. -/
  depth : Nat := 0

namespace Builder

/-- Something read from the tokens. -/
abbrev Step (α : Type) := EStateM Error Builder α

/-! ## Tokens -/

def tokensLeft : Step (List Token) := fun b => .ok b.tokens b

/-- Goes past one token. -/
def skip : Step Unit := fun b => .ok () { b with tokens := b.tokens.drop 1 }

/-- Fails because of the next token. -/
def refuse {α : Type} : Step α := fun b =>
  match b.tokens with
  | .fault e :: _ => .error e b
  | _ => .error .malformed b

/-- Goes past a token that has to come next. -/
def expect (wanted : Token) : Step Unit := fun b =>
  if b.tokens.head? = some wanted then .ok () { b with tokens := b.tokens.drop 1 } else refuse b

/-- Whether one of some tokens comes next. -/
def comesNext (wanted : List Token) : Step Bool := fun b => .ok (b.tokens.head?.any (· ∈ wanted)) b

/-- Goes past a token if it comes next, and tells whether it did. -/
def accept (wanted : Token) : Step Bool := do
  let comes ← comesNext [wanted]
  if comes then skip
  return comes

/-! ## Nodes -/

/-- Starts a node, which is filled in later. -/
def start : Step Nat := fun b => .ok b.nodes.size { b with nodes := b.nodes.push .empty }

def finish (id : Nat) (node : Node) : Step Unit := fun b =>
  .ok () { b with nodes := b.nodes.setIfInBounds id node }

def add (node : Node) : Step Nat := do
  let id ← start
  finish id node
  return id

/-- What is written before a node. -/
structure Labels where
  anchor : Option String := none
  /-- The tag, written out. -/
  uri : Option String := none

/-- Whether a node with these labels gets its tag from its own form. -/
def Labels.isUntagged (l : Labels) : Bool := l.uri = none || l.uri = some "!"

/-- The tag of a collection. -/
def Labels.tagOr (l : Labels) (tag : Tag) : Tag := if l.isUntagged then tag else (l.uri.map Tag.ofUri).getD tag

/-- The tag of a text. A lone exclamation mark has it read like a plain text. -/
def Labels.textTag (l : Labels) (text : Text.Points) (isPlain : Bool) : Tag :=
  if (isPlain && l.uri = none) || l.uri = some "!" then
    match text.chars? with
    | some cs => Tag.ofPlain cs
    | none => .text
  else l.tagOr .text

/-- Gives a node its anchor; no other node may have it. -/
def bindAnchor (l : Labels) (id : Nat) : Step Unit := fun b =>
  match l.anchor with
  | none => .ok () b
  | some name =>
    if (b.anchors.lookup name).isSome then .error .malformed b
    else .ok () { b with anchors := (name, id) :: b.anchors }

def aliased (name : String) : Step Nat := fun b =>
  match b.anchors.lookup name with
  | some id => .ok id b
  | none => .error .malformed b

/-- A tag written out: the handle is replaced by what it stands for. -/
def uriOf (tag : TagText) : Step String := fun b =>
  match tag.handle with
  | none => .ok tag.suffix b
  | some handle => match b.handles.lookup handle with
    | some start => .ok (start ++ tag.suffix) b
    | none => .error .malformed b

/-- An anchor and a tag, in either order, or less. -/
def labels : Step Labels := do
  match ← tokensLeft with
  | .anchor name :: .tag tag :: _ =>
    skip; skip
    return { anchor := some name, uri := some (← uriOf tag) }
  | .tag tag :: .anchor name :: _ =>
    skip; skip
    return { anchor := some name, uri := some (← uriOf tag) }
  | .anchor name :: _ =>
    skip
    return { anchor := some name }
  | .tag tag :: _ =>
    skip
    return { uri := some (← uriOf tag) }
  | _ => return {}

/-! ## Places -/

/-- The kinds of entries of a collection, by the sign that starts them and by what may end them. -/
inductive Place
  /-- An entry of a block sequence. -/
  | item
  /-- An entry of a block sequence that is not indented beyond its key. -/
  | flushItem
  | blockKey | blockValue
  /-- A node, a key or a value inside a flow sequence. -/
  | flowItem | pairKey | pairValue
  | flowKey | flowValue

/-- The tokens before which a place is empty. -/
def Place.ends : Place → List Token
  | .item => [.blockEntry, .blockEnd]
  | .flushItem => [.blockEntry, .key, .value, .blockEnd]
  | .blockKey | .blockValue => [.key, .value, .blockEnd]
  | .flowItem => []
  | .pairKey => [.value, .flowEntry, .flowSequenceEnd]
  | .pairValue => [.flowEntry, .flowSequenceEnd]
  | .flowKey => [.value, .flowEntry, .flowMappingEnd]
  | .flowValue => [.flowEntry, .flowMappingEnd]

/-- Whether block collections may stand in a place. -/
def Place.allowsBlocks : Place → Bool
  | .item | .flushItem | .blockKey | .blockValue => true
  | _ => false

/-- Whether a block sequence may stand in a place without being indented. -/
def Place.allowsFlush : Place → Bool
  | .blockKey | .blockValue => true
  | _ => false

/-! ## Leaves and frames of collections -/

def ofText (l : Labels) (text : Text.Points) (isPlain : Bool) : Step Nat := do
  let id ← add (.scalar (l.textTag text isPlain) text)
  bindAnchor l id
  return id

/-- An empty text, which has to have labels. -/
def ofNothing (l : Labels) : Step Nat :=
  if l.anchor.isSome || l.uri.isSome then ofText l [] true else refuse

/-- How deep collections may be nested. -/
def depthLimit : Nat := 485

/-- Reads what is inside of a collection. -/
def within {α : Type} (inside : Step α) : Step α := fun b =>
  if b.depth = depthLimit then .error .tooDeep b
  else match inside { b with depth := b.depth + 1 } with
    | .ok a after => .ok a { after with depth := b.depth }
    | .error e after => .error e after

/-- A sequence, whose anchor can be used inside of it. -/
def ofItems (l : Labels) (items : Step (List Nat)) : Step Nat := do
  let id ← start
  bindAnchor l id
  finish id (.sequence (l.tagOr .sequence) (← within items))
  return id

/-- A mapping, whose anchor can be used inside of it. -/
def ofEntries (l : Labels) (entries : Step (List (Nat × Nat))) : Step Nat := do
  let id ← start
  bindAnchor l id
  finish id (.mapping (l.tagOr .mapping) (← within entries))
  return id

/-! ## Collections -/

mutual

/-- Reads what stands in a place; nothing is an empty text. -/
def inPlace (fuel : Nat) (place : Place) : Step Nat :=
  match fuel with
  | 0 => refuse
  | fuel + 1 => do if ← comesNext place.ends then add .empty else ofPlace fuel place

/-- Reads a node, or the alias of one. -/
def ofPlace (fuel : Nat) (place : Place) : Step Nat :=
  match fuel with
  | 0 => refuse
  | fuel + 1 => do
    match (← tokensLeft).head? with
    | some (.alias name) =>
      skip
      aliased name
    | _ => ofLabels fuel place (← labels)

/-- Reads a node behind its labels. -/
def ofLabels (fuel : Nat) (place : Place) (l : Labels) : Step Nat :=
  match fuel with
  | 0 => refuse
  | fuel + 1 => do
    match (← tokensLeft).head? with
    | some (.scalar text isPlain) =>
      skip
      ofText l text isPlain
    | some .flowSequence =>
      skip
      ofItems l (flowItems fuel true)
    | some .flowMapping =>
      skip
      ofEntries l (flowEntries fuel true)
    | some .blockSequence =>
      if place.allowsBlocks then
        skip
        ofItems l (blockItems fuel)
      else ofNothing l
    | some .blockMapping =>
      if place.allowsBlocks then
        skip
        ofEntries l (blockEntries fuel)
      else ofNothing l
    | some .blockEntry => if place.allowsFlush then ofItems l (flushItems fuel) else ofNothing l
    | _ => ofNothing l

def blockItems (fuel : Nat) : Step (List Nat) :=
  match fuel with
  | 0 => refuse
  | fuel + 1 => do
    if ← accept .blockEnd then return []
    expect .blockEntry
    let item ← inPlace fuel .item
    return item :: (← blockItems fuel)

def flushItems (fuel : Nat) : Step (List Nat) :=
  match fuel with
  | 0 => refuse
  | fuel + 1 => do
    if ← accept .blockEntry then
      let item ← inPlace fuel .flushItem
      return item :: (← flushItems fuel)
    else return []

def blockEntries (fuel : Nat) : Step (List (Nat × Nat)) :=
  match fuel with
  | 0 => refuse
  | fuel + 1 => do
    if ← accept .blockEnd then return []
    expect .key
    let key ← inPlace fuel .blockKey
    let value ← if ← accept .value then inPlace fuel .blockValue else add .empty
    return (key, value) :: (← blockEntries fuel)

/-- Reads the entries of a flow sequence; all but the first come behind a comma, and a comma may come last. A single
pair is a mapping. -/
def flowItems (fuel : Nat) (isFirst : Bool) : Step (List Nat) :=
  match fuel with
  | 0 => refuse
  | fuel + 1 => do
    if ← accept .flowSequenceEnd then return []
    if !isFirst then
      expect .flowEntry
      if ← accept .flowSequenceEnd then return []
    let item ← if ← accept .key then ofEntries {} (flowPair fuel) else inPlace fuel .flowItem
    return item :: (← flowItems fuel false)

/-- Reads a single pair of a flow sequence. -/
def flowPair (fuel : Nat) : Step (List (Nat × Nat)) :=
  match fuel with
  | 0 => refuse
  | fuel + 1 => do
    let key ← inPlace fuel .pairKey
    let value ← if ← accept .value then inPlace fuel .pairValue else add .empty
    return [(key, value)]

/-- Reads the entries of a flow mapping; all but the first come behind a comma, and a comma may come last. A key may
stand alone. -/
def flowEntries (fuel : Nat) (isFirst : Bool) : Step (List (Nat × Nat)) :=
  match fuel with
  | 0 => refuse
  | fuel + 1 => do
    if ← accept .flowMappingEnd then return []
    if !isFirst then
      expect .flowEntry
      if ← accept .flowMappingEnd then return []
    let entry ← if ← accept .key then
        let key ← inPlace fuel .flowKey
        let value ← if ← accept .value then inPlace fuel .flowValue else add .empty
        pure (key, value)
      else
        let key ← inPlace fuel .flowItem
        pure (key, ← add .empty)
    return entry :: (← flowEntries fuel false)

end

/-! ## Documents -/

/-- What handles stand for where no directive says otherwise. -/
def commonHandles : List (String × String) := [("!", "!"), ("!!", Tag.home)]

/-- Takes one directive into account: the version has to be the first one, and no directive may come twice. -/
def ofDirective (isVersioned : Bool) : Directive → Step Bool
  | .version major => if isVersioned || major ≠ 1 then throw .malformed else return true
  | .handle name uri => fun b =>
    if (b.handles.lookup name).isSome then .error .malformed b
    else .ok isVersioned { b with handles := b.handles ++ [(name, uri)] }
  | .other => return isVersioned

/-- Reads the directives before a document. -/
def directives (fuel : Nat) (isVersioned : Bool) : Step Unit :=
  match fuel with
  | 0 => refuse
  | fuel + 1 => do
    match (← tokensLeft).head? with
    | some (.directive d) =>
      skip
      directives fuel (← ofDirective isVersioned d)
    | _ => pure ()

def addCommonHandles : Step Unit := fun b => .ok () { b with handles := b.handles ++ commonHandles }

/-- Goes past the ends of the document; nothing may follow. -/
def ending (fuel : Nat) : Step Unit :=
  match fuel with
  | 0 => refuse
  | fuel + 1 => do
    match ← tokensLeft with
    | [] => pure ()
    | .documentEnd :: _ =>
      skip
      ending fuel
    | _ => refuse

/-- The root of a document, if there is one. Every step of the readers takes a token or comes right before one that
does, so that five steps a token are enough. -/
def document : Step (Option Nat) := do
  let tokens ← tokensLeft
  let fuel := 5 * tokens.length + 5
  if tokens = [] then return none
  directives fuel false
  addCommonHandles
  let isMarked := (← tokensLeft).length < tokens.length || tokens.head? = some .documentStart
  if isMarked then expect .documentStart
  let left ← tokensLeft
  let root ← if isMarked && (left = [] || (← comesNext [.documentStart, .documentEnd])) then add .empty
    else ofPlace fuel .item
  ending fuel
  return some root

end Builder

/-- Reads the nodes of a document; there are none without a root. -/
def Document.ofTokens (tokens : List Token) : Except Error (Option Document) :=
  match Builder.document { tokens } with
  | .ok root b => .ok (root.map fun root => { nodes := b.nodes, root })
  | .error e _ => .error e

end RemoteCache.Yaml
