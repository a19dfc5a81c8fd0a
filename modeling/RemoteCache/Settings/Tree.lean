import RemoteCache.Value

/-!
# Settings trees

Each source of settings gives a tree of mappings. Where two sources meet, mappings are merged entry by entry, and of
all else the stronger source's value stands alone.
-/

namespace RemoteCache

/-- The entries of a mapping. -/
abbrev Tree := List (Value × Value)

namespace Tree

mutual

/-- What stands where a weaker value may have stood. -/
def mergeValue (weaker : Option Value) : Value → Value
  | .dict entries => match weaker with
    | some (.dict under) => .dict (merge under entries)
    | _ => .dict entries
  | v => v

/-- Merges a stronger tree, the second one, into a weaker one. -/
def merge (weaker : Tree) : Tree → Tree
  | [] => weaker
  | (key, v) :: rest => merge (Value.setEntry weaker key (mergeValue (Value.find? weaker key) v)) rest

end

/-- Changes the entry at the end of a path. Mappings on the way are made where there is nothing; a value on the way
that is no mapping stays, and nothing is changed. -/
def updatePath (t : Tree) (path : List String) (update : Option Value → Value) : Tree :=
  match path with
  | [] => t
  | [last] => Value.setEntry t (.text last) (update (Value.get? t last))
  | name :: next :: path =>
    match Value.get? t name with
    | none => Value.setEntry t (.text name) (.dict (updatePath [] (next :: path) update))
    | some (.dict entries) => Value.setEntry t (.text name) (.dict (updatePath entries (next :: path) update))
    | some _ => t

/-- Sets a value at the end of a path. -/
def setPath (t : Tree) (path : List String) (v : Value) : Tree := t.updatePath path fun _ => v

/-- Sets a value at the end of a path where there is none yet, or an empty mapping. -/
def addPath (t : Tree) (path : List String) (v : Value) : Tree :=
  t.updatePath path fun
    | none | some (.dict []) => v
    | some old => old

end Tree
end RemoteCache
