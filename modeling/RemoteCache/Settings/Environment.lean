import RemoteCache.Entries
import RemoteCache.Json.Reader
import RemoteCache.Settings.Tree
import RemoteCache.Text.Case

/-!
# Settings from the environment

A section comes as a JSON text under its own name, and single values come under longer names, whose parts stand
between delimiters. The longer names win over the section's text. A section's text that is no mapping stands alone,
and one that is null counts as none, the longer names included.

What names start with, how they are split and whether their letter case counts is up to the `Options`.
-/

namespace RemoteCache.Environment

/-- The variables with their values. -/
abbrev Variables := List (String × String)

/-- How the environment is read. -/
structure Options where
  /-- What the names of all settings start with. -/
  start : String := "CACHE_"
  /-- What stands between the parts of a name; without it there are no longer names. -/
  delimiter : String := "__"
  /-- Into how many parts the rest of a longer name is split at most. -/
  maxParts : Option Nat := none
  isCaseSensitive : Bool := false
  /-- Whether empty values count as none. -/
  ignoresEmpty : Bool := false
  /-- The value that stands for nothing. -/
  nullWord : Option String := none

namespace Options

/-- Options that lead to sources of another kind. -/
def foreignNames : List String := ["_cli_parse_args", "_cli_settings_source", "_env_prefix_target", "_build_sources"]

/-- Whether arguments ask for what an option stands for. -/
def isAsked (t : Tree) (name : String) : Bool :=
  match Value.get? t name with
  | none | some .null | some (.bool false) => false
  | some _ => true

/-- An option that is a text, if it is given. -/
def text (t : Tree) (name : String) : Except String (Option String) :=
  match Value.get? t name with
  | none | some .null => .ok none
  | some (.text s) => .ok (some s)
  | some _ => .error name

/-- An option that is an integer, if it is given. -/
def integer (t : Tree) (name : String) : Except String (Option Int) :=
  match Value.get? t name with
  | none | some .null => .ok none
  | some v => match v.asInt? with
    | some n => .ok (some n)
    | none => .error name

/-- The options among arguments, or the name of one that is not supported: it leads to another source, or its value is
of another kind than the option. -/
def ofTree (t : Tree) : Except String Options := do
  if let some name := foreignNames.find? (isAsked t) then throw name
  let default : Options := {}
  let start ← text t "_env_prefix"
  let delimiter ← text t "_env_nested_delimiter"
  let maxParts ← integer t "_env_nested_max_split"
  let nullWord ← text t "_env_parse_none_str"
  let isSet (name : String) := (Value.get? t name).any (·.isTruthy)
  return {
    start := start.getD default.start
    delimiter := delimiter.getD default.delimiter
    maxParts := maxParts.bind fun n => if 0 < n then some n.toNat else none
    isCaseSensitive := isSet "_case_sensitive"
    ignoresEmpty := isSet "_env_ignore_empty"
    nullWord }

def isNullWord (o : Options) (text : String) : Bool := o.nullWord = some text

end Options

def lowered (name : String) : String := String.ofList (Text.lower name.toList)

/-- A name as it is compared: in lower case unless the case counts. -/
def Options.fold (o : Options) (name : String) : String := if o.isCaseSensitive then name else lowered name

/-- The variables that count, under their names as they are compared. -/
def normalized (o : Options) (env : Variables) : Variables :=
  let counting := env.filter fun (_, value) => !(o.ignoresEmpty && value = "")
  Entries.putAll [] (counting.map fun (name, value) => (o.fold name, value))

/-! ## Names -/

/-- The parts of a text around the first delimiter. -/
def breakAt? (delimiter cs : List Char) : Option (List Char × List Char) :=
  if delimiter.isPrefixOf cs then some ([], cs.drop delimiter.length)
  else match cs with
    | [] => none
    | c :: rest => (breakAt? delimiter rest).map fun (before, after) => (c :: before, after)

/-- Splits a name at the first `most` delimiters. -/
def splitName (delimiter : List Char) (most : Nat) (cs : List Char) : List (List Char) :=
  match most with
  | 0 => [cs]
  | most + 1 => match breakAt? delimiter cs with
    | none => [cs]
    | some (part, rest) => part :: splitName delimiter most rest

/-- A section of the settings: its name, its fields, and those of them that come as JSON texts. -/
structure Section where
  name : String
  fields : List String
  jsonFields : List String

/-- The name under which a section comes as a whole. -/
def nameOf (o : Options) (sect : Section) : String := o.fold (o.start ++ sect.name)

/-- The parts of a longer name behind a section's own. -/
def pathOf? (o : Options) (sect : Section) (name : String) : Option (List String) :=
  let delimiter := o.delimiter.toList
  let start := (nameOf o sect).toList ++ delimiter
  if delimiter ≠ [] && start.isPrefixOf name.toList then
    let rest := name.toList.drop start.length
    let most := match o.maxParts with
      | some n => n - 1
      | none => rest.length
    some ((splitName delimiter most rest).map String.ofList)
  else none

/-- Whether a part of a name names a field: by its own name, or with what all names start with in front. -/
def names (o : Options) (part field : String) : Bool :=
  o.fold part = o.fold field || o.fold part = o.fold (o.start ++ field)

/-! ## Values -/

/-- The value of a variable. Some fields have a JSON text, unless it is empty. -/
def valueOf (o : Options) (sect : Section) (path : List String) (text : String) : Except Json.Fault Value :=
  let plain := if o.isNullWord text then Value.null else .text text
  match path with
  | [part] => if sect.jsonFields.any (names o part) && text ≠ "" then Json.read text else .ok plain
  | _ => .ok plain

/-- The tree of the single values of a section. What stands for nothing takes no other value's place. -/
def singles (o : Options) (sect : Section) (vars : Variables) : Except Json.Fault Tree :=
  vars.foldlM (fun t (name, text) =>
    match pathOf? o sect name with
    | none => .ok t
    | some path => (valueOf o sect path text).map fun v =>
      if v.isNull && o.isNullWord text then t.addPath path v else t.setPath path v) []

/-- Gives the fields of a section the letter case of their names, unless the case counts. -/
def fieldNames (o : Options) (sect : Section) (t : Tree) : Tree :=
  if o.isCaseSensitive then t
  else t.foldl (fun t (key, v) => match key with
    | .text name => match sect.fields.find? (· = lowered name) with
      | some field => Value.setEntry t (.text field) v
      | none => Value.setEntry t key v
    | key => Value.setEntry t key v) []

/-- What the environment says of a section: nothing, or a value. -/
def ofSection (o : Options) (sect : Section) (vars : Variables) : Except Json.Fault (Option Value) :=
  match vars.lookup (nameOf o sect) with
  | none => do
    let t ← singles o sect vars
    return if t = [] then none else some (.dict (fieldNames o sect t))
  | some text =>
    if o.isNullWord text then .ok (some .null)
    else do
      match ← Json.read text with
      | .null => return none
      | .dict entries =>
        let t ← singles o sect vars
        return some (.dict (fieldNames o sect (Tree.merge entries t)))
      | v => return some v

end RemoteCache.Environment
