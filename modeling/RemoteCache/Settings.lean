import RemoteCache.Logging.Level
import RemoteCache.Settings.Environment
import RemoteCache.Storage
import RemoteCache.Yaml

/-!
# Settings

The settings of a process have two sections, for logging and for the remote store, and come from four sources:
arguments, the environment, a file, and defaults. The sources are merged entry by entry, an earlier one winning over
a later one, and the result is checked as a whole.
-/

namespace RemoteCache

open Validation (Checked Fault Issue)

structure LoggingSettings where
  level : Logging.Level
  json : Bool
  service : String
  environment : String
deriving DecidableEq, Repr

structure StorageSettings where
  url : String
  /-- Texts and integers. -/
  attributes : Attributes
deriving Repr

structure Settings where
  logging : LoggingSettings
  storage : StorageSettings
deriving Repr

namespace Settings

/-- Why no settings can be had. -/
inductive Error
  /-- An argument that is an option, but none that is supported. -/
  | option (name : String)
  | document (e : Yaml.Error)
  /-- The file's root is made of parts that are no pairs. -/
  | rootParts
  /-- The file's root, or a part of it, has no parts. -/
  | rootType
  /-- The file's root has a key that is no text. -/
  | rootKey
  /-- The file's root has a key of bytes. -/
  | rootBytes
  /-- A section's text, or a field's, that is no JSON. -/
  | environment (sect : String)
  /-- A text of the environment that is nested too deeply. -/
  | depth (fault : Json.Fault)
  | invalid (issues : List Issue)
deriving DecidableEq, Repr

def Error.message : Error → String
  | .option name => "the option \"" ++ name ++ "\" is not supported"
  | .document e => e.message
  | .rootParts => "the document's root is no mapping"
  | .rootType => "the document's root is no collection"
  | .rootKey => "a key of the document's root is no text"
  | .rootBytes => "a key of the document's root is made of bytes"
  | .environment sect =>
    "error parsing value for field \"" ++ sect ++ "\" from source \"EnvSettingsSource\""
  | .depth fault => fault.message
  | .invalid issues => Issue.messages issues

/-- What settings are made from. -/
structure Sources where
  /-- Sections of the settings, and options for the environment. -/
  arguments : Tree := []
  environment : Environment.Variables := []
  /-- The text of the file, if there is one. -/
  file : Option String := none

/-! ## The file -/

/-- A part of a list as an entry: a pair of any kind. -/
def pairOf : Value → Except Error (Value × Value)
  | .text s => match s.toList with
    | [a, b] => .ok (.text (String.singleton a), .text (String.singleton b))
    | _ => .error .rootParts
  | .broken points => match points with
    | [a, b] => .ok (.ofPoints [a], .ofPoints [b])
    | _ => .error .rootParts
  | .bytes b => match b with
    | [a, b] => .ok (.int a.toNat, .int b.toNat)
    | _ => .error .rootParts
  | .list [a, b] | .set [a, b] | .dict [(a, _), (b, _)] => .ok (a, b)
  | .list _ | .set _ | .dict _ => .error .rootParts
  | .null | .bool _ | .int _ | .real _ | .date _ | .moment _ => .error .rootType

/-- The entries of a list of pairs. -/
def treeOfPairs (items : List Value) : Except Error Tree :=
  items.foldlM (fun t item => do
    let (key, v) ← pairOf item
    if key.isKey then return Value.setEntry t key v else throw .rootType) []

/-- The tree of a document's root. Whatever counts as empty gives an empty tree, and a list of pairs is read as a
mapping. -/
def treeOfRoot (root : Value) : Except Error Tree :=
  if !root.isTruthy then .ok []
  else match root with
    | .dict entries => .ok entries
    | .list items | .set items => treeOfPairs items
    | .text _ | .broken _ => .error .rootParts
    | _ => .error .rootType

/-- Whether a key has a letter case. -/
def hasCase : Value → Bool
  | .text _ | .broken _ | .bytes _ => true
  | _ => false

def isBytes : Value → Bool
  | .bytes _ => true
  | _ => false

def ofFile (file : Option String) : Except Error Tree := do
  match file with
  | none => return []
  | some text =>
    let tree ← treeOfRoot (← (Yaml.read text).mapError .document)
    if tree.all (hasCase ·.1) then return tree else throw .rootKey

/-! ## The environment -/

def loggingSection : Environment.Section where
  name := "logging"
  fields := ["level", "json_output", "service", "environment"]
  jsonFields := []

def storageSection : Environment.Section where
  name := "secondary_storage"
  fields := ["url", "attributes"]
  jsonFields := ["attributes"]

def sections : List Environment.Section := [loggingSection, storageSection]

/-- The tree of the environment; the sections are read in their order. -/
def ofEnvironment (o : Environment.Options) (env : Environment.Variables) : Except Error Tree :=
  let vars := Environment.normalized o env
  sections.foldlM (fun t sect =>
    match Environment.ofSection o sect vars with
    | .error .malformed => .error (.environment sect.name)
    | .error fault => .error (.depth fault)
    | .ok none => .ok t
    | .ok (some v) => .ok (Value.setEntry t (.text sect.name) v)) []

/-! ## Sections -/

/-- Whether a key names a section, in any letter case. -/
def namesSection (sect : Environment.Section) : Value → Bool
  | .text name => Environment.lowered name = sect.name
  | _ => false

/-- The sections of a tree under their own names. Of several keys that name a section the first one counts. -/
def onlySections (t : Tree) : Tree :=
  sections.filterMap fun sect =>
    (t.find? fun (key, _) => namesSection sect key).map fun (_, v) => (.text sect.name, v)

/-! ## Checks -/

/-- The entries of a mapping whose keys are texts. -/
def textEntries (t : Tree) : List (String × Value) :=
  t.filterMap fun (key, v) => match key with
    | .text name => some (name, v)
    | _ => none

/-- The names of the levels that settings may name. -/
def levels : List Logging.Level := [.debug, .info, .warning, .error, .critical]

def readLevel : Value → Except Fault Logging.Level
  | .text s => match levels.find? (·.name = s) with
    | some level => .ok level
    | none => .error .level
  | .broken _ => .error .textEncoding
  | _ => .error .level

/-- How a key shows in the place of an issue: texts and small integers as themselves, all others as texts. -/
def stepOf (key : Value) : Validation.Step :=
  match key, key.asInt? with
  | _, some n => if Validation.fitsWord n then .number n else .name (toString n)
  | .text s, none => .name s
  | .broken points, none => .name (String.ofList points.lossy)
  | key, none => .name key.quoted

def checkKey (key : Value) : Checked String :=
  match Validation.text key with
  | .ok name => .valid name
  | .error fault => .faulty [⟨fault, [.name "[key]"]⟩]

/-- The value of an attribute: a text stays one, and all else has to be an integer. -/
def checkAttribute (v : Value) : Checked Value :=
  match v, Validation.text v, Validation.integer v with
  | .broken points, _, _ => .valid (.broken points)
  | _, .ok s, _ => .valid (.text s)
  | _, .error _, .ok n => .valid (.int n)
  | _, .error noText, .error noInteger => .faulty [⟨noText, [.name "str"]⟩, ⟨noInteger, [.name "int"]⟩]

/-- The attributes of a mapping. Of those whose keys read as one name the last one counts. -/
def checkAttributes : Tree → Checked Attributes
  | [] => .valid []
  | (key, v) :: rest =>
    (Checked.valid Entries.before)
      |>.also ((checkKey key).inside (stepOf key))
      |>.also ((checkAttribute v).inside (stepOf key))
      |>.also (checkAttributes rest)

/-- A section's entry that is checked as a whole. -/
def checkField {α : Type} (entries : List (String × Value)) (name : String) (default : α)
    (check : Value → Checked α) : Checked α :=
  match entries.lookup name with
  | none => .valid default
  | some v => (check v).inside (.name name)

def checkLogging : Value → Checked LoggingSettings
  | .dict t =>
    let entries := textEntries t
    Checked.valid LoggingSettings.mk
      |>.also (.optional entries "level" readLevel .info)
      |>.also (.optional entries "json_output" Validation.bool true)
      |>.also (.optional entries "service" Validation.text "cache")
      |>.also (.optional entries "environment" Validation.text "dev")
  | _ => .faulty [⟨.recordType "LoggingSettings", []⟩]

def defaultUrl : String := "redis://localhost:6379"

def checkStorage : Value → Checked StorageSettings
  | .dict t =>
    let entries := textEntries t
    Checked.valid StorageSettings.mk
      |>.also (.optional entries "url" Validation.text defaultUrl)
      |>.also (checkField entries "attributes" [] fun v => match v with
        | .dict t => checkAttributes t
        | _ => .faulty [⟨.mappingType, []⟩])
  | _ => .faulty [⟨.recordType "SecondaryStorageSettings", []⟩]

/-- Checks a whole tree; a missing section has its defaults, and other sections are not looked at. -/
def check (t : Tree) : Checked Settings :=
  let section_ (sect : Environment.Section) := (Value.get? t sect.name).getD (.dict [])
  Checked.valid Settings.mk
    |>.also ((checkLogging (section_ loggingSection)).inside (.name loggingSection.name))
    |>.also ((checkStorage (section_ storageSection)).inside (.name storageSection.name))
    |>.sorted

/-- The settings from all sources. -/
def load (sources : Sources) : Except Error Settings := do
  let options ← (Environment.Options.ofTree sources.arguments).mapError .option
  let file ← ofFile sources.file
  let environment ← ofEnvironment options sources.environment
  if file.any (isBytes ·.1) then throw .rootBytes
  match check ((onlySections file).merge (environment.merge (onlySections sources.arguments))) with
  | .valid settings => return settings
  | .faulty issues => throw (.invalid issues)

end Settings

/-- The session for the store that settings name. -/
def Storage.ofSettings (settings : Settings) : Except Storage.Error Session :=
  Storage.build settings.storage.url settings.storage.attributes

end RemoteCache
