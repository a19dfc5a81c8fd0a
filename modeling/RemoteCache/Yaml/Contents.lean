import RemoteCache.Yaml.Document
import RemoteCache.Yaml.Leaf

/-!
# What the nodes of a document hold

Each node is looked at once: a text gets its value, and a collection is noted down and opened after all that stands
beside it. So of two errors the one further out counts, and of two equally far in the one that comes first. Before
anything in a mapping is looked at, the mappings that it merges in are put in front of its own entries.

What a node holds is told by the numbers of the nodes in it; keys alone are values, since collections are no keys.
-/

namespace RemoteCache.Yaml

inductive Content
  | leaf (v : Value)
  | list (items : List Nat)
  | dict (entries : List (Value × Nat))
  | set (keys : List Value)
  | pairs (entries : List (Nat × Nat))
deriving Repr

/-- What is known of the nodes so far. -/
structure Contents where
  /-- What each node holds, by number, if it was looked at. -/
  known : Array (Option Content)
  /-- The collections that are noted down but not opened, the last one first. -/
  waiting : List Nat := []

namespace Contents

/-- Something that adds to what is known. -/
abbrev Step (α : Type) := EStateM Error Contents α

def lift {α : Type} (r : Except Error α) : Step α := fun c =>
  match r with
  | .ok a => .ok a c
  | .error e => .error e c

def note (id : Nat) (content : Content) : Step Unit := fun c =>
  .ok () { c with known := c.known.setIfInBounds id (some content) }

def known? (id : Nat) : Step (Option Content) := fun c => .ok (c.known.getD id none) c

def enqueue (id : Nat) : Step Unit := fun c => .ok () { c with waiting := id :: c.waiting }

/-- Hands over the collections that wait, in the order in which they were noted down. -/
def takeWaiting : Step (List Nat) := fun c => .ok c.waiting.reverse { c with waiting := [] }

/-! ## Texts -/

/-- The text of a node: a mapping has one under its content key. -/
def textOf (d : Document) (fuel : Nat) (id : Nat) : Except Error Text.Points :=
  match fuel, d.node id with
  | _, .scalar _ text => .ok text
  | fuel + 1, .mapping _ entries => match entries.find? fun (key, _) => (d.node key).tag = .content with
    | some (_, value) => textOf d fuel value
    | none => .error .malformed
  | _, _ => .error .malformed

def isScalar : Node → Bool
  | .scalar .. => true
  | _ => false

/-- The value of a node that is no collection by its tag. -/
def leafOf (d : Document) (tag : Tag) (id : Nat) : Except Error Value :=
  if tag ∈ [Tag.merge, .content, .unknown] then .error .malformed
  else do
    let text ← textOf d (d.nodes.size + 1) id
    if tag = .time && !isScalar (d.node id) then throw .noTimeText
    Leaf.read tag text

/-- Looks at a node under a tag: gives its value, or notes it down if it is a collection. -/
def visitAs (d : Document) (tag : Tag) (id : Nat) : Step (Option Value) := do
  match ← known? id with
  | some (.leaf v) => return some v
  | some _ => return none
  | none =>
    if tag.isCollection then
      note id (.list [])
      enqueue id
      return none
    else
      let v ← lift (leafOf d tag id)
      note id (.leaf v)
      return some v

def visit (d : Document) (id : Nat) : Step (Option Value) := visitAs d (d.node id).tag id

def visitAll (d : Document) : List Nat → Step Unit
  | [] => pure ()
  | id :: rest => do
    let _ ← visit d id
    visitAll d rest

/-! ## Mappings -/

mutual

/-- The entries of a mapping behind those that are merged in. A mapping that is merged into itself adds its own
entries alone; `open_` holds the mappings around. -/
def mergedEntries (d : Document) (fuel : Nat) (open_ : List Nat) (id : Nat) : Except Error (List (Nat × Nat)) :=
  match fuel, d.node id with
  | fuel + 1, .mapping _ entries => do
    let isMerge (e : Nat × Nat) := (d.node e.1).tag = .merge
    let own := entries.filter (!isMerge ·)
    if id ∈ open_ then return own
    let merged ← ((entries.filter isMerge).map (·.2)).mapM fun source =>
      sourceEntries d fuel (id :: open_) source
    return merged.flatten ++ own
  | _, _ => .error .malformed

/-- The entries of what is merged in: those of a mapping, or of several, the last one's first. -/
def sourceEntries (d : Document) (fuel : Nat) (open_ : List Nat) (id : Nat) : Except Error (List (Nat × Nat)) :=
  match fuel, d.node id with
  | fuel + 1, .mapping .. => mergedEntries d fuel open_ id
  | fuel + 1, .sequence _ items => do
    let parts ← items.mapM fun item => mergedEntries d fuel open_ item
    return parts.reverse.flatten
  | _, _ => .error .malformed

end

/-- Looks at a key. The content key is a text, and no collection is a key. -/
def visitKey (d : Document) (id : Nat) : Step Value := do
  let tag := (d.node id).tag
  match ← visitAs d (if tag = .content then .text else tag) id with
  | some key => return key
  | none => throw .malformed

def visitEntries (d : Document) : List (Nat × Nat) → Step (List (Value × Nat))
  | [] => return []
  | (key, value) :: rest => do
    let k ← visitKey d key
    let _ ← visit d value
    return (k, value) :: (← visitEntries d rest)

/-- The entries of a mapping by their keys. Of those with one key the last one's value counts. -/
def entriesOf (d : Document) (id : Nat) : Step (List (Value × Nat)) := do
  let entries ← visitEntries d (← lift (mergedEntries d (2 * d.nodes.size + 2) [] id))
  return entries.foldl (fun es (key, value) => Value.setEntry es key value) []

/-- The entries of mappings that have one each. -/
def visitPairs (d : Document) : List Nat → Step (List (Nat × Nat))
  | [] => return []
  | id :: rest => do
    match d.node id with
    | .mapping _ [(key, value)] =>
      let _ ← visit d key
      let _ ← visit d value
      return (key, value) :: (← visitPairs d rest)
    | _ => throw .malformed

/-! ## Documents -/

/-- Opens a collection. -/
def openNode (d : Document) (id : Nat) : Step Unit := do
  match d.node id with
  | .sequence .sequence items =>
    visitAll d items
    note id (.list items)
  | .sequence .pairs items => note id (.pairs (← visitPairs d items))
  | .mapping .mapping _ => note id (.dict (← entriesOf d id))
  | .mapping .set _ => note id (.set ((← entriesOf d id).map (·.1)))
  | _ => throw .malformed

def openAll (d : Document) : List Nat → Step Unit
  | [] => pure ()
  | id :: rest => do
    openNode d id
    openAll d rest

/-- Opens collections until none waits. -/
def openRest (d : Document) (fuel : Nat) : Step Unit :=
  match fuel with
  | 0 => pure ()
  | fuel + 1 => do
    match ← takeWaiting with
    | [] => pure ()
    | ids =>
      openAll d ids
      openRest d fuel

/-- Looks at all nodes that the root mentions. Each round opens a collection that was not opened before, so that as
many rounds as there are nodes are enough. -/
def ofDocument (d : Document) : Except Error Contents :=
  let all : Step Unit := do
    let _ ← visit d d.root
    openRest d (d.nodes.size + 1)
  match all { known := Array.replicate d.nodes.size none } with
  | .ok () c => .ok c
  | .error e _ => .error e

/-! ## Trees -/

/-- How deep a tree shows its document. Nothing further down is ever asked for, and a document that holds itself has
no end. -/
def depthLimit : Nat := 16

/-- What a content looks like if its parts look like some trees. -/
def treeOf (trees : Nat → Value) : Content → Value
  | .leaf v => v
  | .set keys => .set keys
  | .list items => .list (items.map trees)
  | .dict entries => .dict (entries.map fun (key, value) => (key, trees value))
  | .pairs entries => .list (entries.map fun (key, value) => .list [trees key, trees value])

/-- The trees of all nodes to a depth, by number. -/
def trees (nodes : Array Content) : (depth : Nat) → Array Value
  | 0 => nodes.map (treeOf fun _ => .null)
  | depth + 1 =>
    let parts := trees nodes depth
    nodes.map (treeOf fun id => parts.getD id .null)

/-- The tree of a document. -/
def tree (c : Contents) (d : Document) : Value :=
  (trees (c.known.map (·.getD (.leaf .null))) depthLimit).getD d.root .null

end Contents
end RemoteCache.Yaml
