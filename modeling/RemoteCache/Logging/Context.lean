import RemoteCache.Entries
import RemoteCache.Value

/-!
# Logging contexts

A context is what every record carries besides its message: names with texts, in the order in which the names
were first bound. Binding skips values that are null and keeps the text of all others.
-/

namespace RemoteCache.Logging

/-- Bound names with their texts. -/
abbrev Context := List (String × String)

namespace Context

/-- Binds one name. -/
def set (ctx : Context) (name text : String) : Context := Entries.put ctx name text

def get? (ctx : Context) (name : String) : Option String := ctx.lookup name

/-- Binds each of some values in turn. -/
def bind (ctx : Context) (values : List (String × Value)) : Context :=
  values.foldl (fun ctx (name, v) => match v with
    | .null => ctx
    | v => ctx.set name v.display) ctx

/-- Binds each of some texts in turn. -/
def overlay (ctx : Context) (texts : List (String × String)) : Context := Entries.putAll ctx texts

theorem get?_set (ctx : Context) (name text other : String) :
    (ctx.set name text).get? other = if other = name then some text else ctx.get? other :=
  Entries.lookup_put ctx name text other

end Context
end RemoteCache.Logging
