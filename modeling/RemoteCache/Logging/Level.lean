import RemoteCache.Text.Case

/-!
# Severity levels

A level is a number, and a higher one is more severe. Six levels are named in capitals, two of them have a second
name. Every other level goes by its number.
-/

namespace RemoteCache.Logging

structure Level where
  rank : Int
deriving DecidableEq, Repr

namespace Level

def notSet : Level := ⟨0⟩

def debug : Level := ⟨10⟩

def info : Level := ⟨20⟩

def warning : Level := ⟨30⟩

def error : Level := ⟨40⟩

def critical : Level := ⟨50⟩

/-- The levels with a name, under the one that is shown. -/
def shown : List (Level × String) := [
  (notSet, "NOTSET"), (debug, "DEBUG"), (info, "INFO"), (warning, "WARNING"), (error, "ERROR"), (critical, "CRITICAL")]

def name (level : Level) : String := (shown.lookup level).getD ("Level " ++ toString level.rank)

def names : List (String × Level) := [
  ("NOTSET", notSet), ("DEBUG", debug), ("INFO", info), ("WARN", warning), ("WARNING", warning),
  ("ERROR", error), ("FATAL", critical), ("CRITICAL", critical)]

def ofName? (name : String) : Option Level := names.lookup name

/-- The level of a name in any letter case; an error is the name in capitals. -/
def ofText (text : String) : Except String Level :=
  let capitals := String.ofList (Text.upper text.toList)
  match ofName? capitals with
  | some l => .ok l
  | none => .error capitals

end Level
end RemoteCache.Logging
