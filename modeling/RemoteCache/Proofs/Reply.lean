import RemoteCache.Reply

/-!
# Commands and replies

The name of a command is its word in upper case. The words of the commands to a store are in upper case already.
A command is about the data of the store if its name is one of four; the login is none of these.

Of a failure comes an error reply, no reply, or the failure itself, which passes (`Reply.ofExchange_cases`). An answer is
never tagged as no reply. Whether there was one does not depend on the command.
-/

namespace RemoteCache

namespace Command

theorem name_ofWord {word : String} (hword : String.ofList (Text.upper word.toList) = word)
    (args : List Argument) : (ofWord word args).name = word := hword

@[simp] theorem name_get (key : String) : (get key).name = "GET" := name_ofWord (by decide +kernel) _

@[simp] theorem name_set (key : String) (value : Bytes) : (set key value).name = "SET" :=
  name_ofWord (by decide +kernel) _

@[simp] theorem name_exists (key : String) : (exists? key).name = "EXISTS" := name_ofWord (by decide +kernel) _

@[simp] theorem name_del (key : String) : (del key).name = "DEL" := name_ofWord (by decide +kernel) _

@[simp] theorem name_auth (username : Option String) (password : String) :
    (auth username password).name = "AUTH" := name_ofWord (by decide +kernel) _

/-- The names of the commands that read or change the data of a store. -/
def dataNames : List String := ["GET", "EXISTS", "SET", "DEL"]

/-- Whether a command reads or changes the data of a store. -/
def isData (c : Command) : Bool := c.name ∈ dataNames

@[simp] theorem isData_get (key : String) : (get key).isData = true := by simp [isData, dataNames]

@[simp] theorem isData_set (key : String) (value : Bytes) : (set key value).isData = true := by
  simp [isData, dataNames]

@[simp] theorem isData_exists (key : String) : (exists? key).isData = true := by simp [isData, dataNames]

@[simp] theorem isData_del (key : String) : (del key).isData = true := by simp [isData, dataNames]

/-- Whether a command is a login. -/
def isAuth (c : Command) : Bool := c.name = "AUTH"

@[simp] theorem isAuth_auth (username : Option String) (password : String) :
    (auth username password).isAuth = true := by simp [isAuth]

theorem not_isData_of_isAuth {c : Command} (h : c.isAuth = true) : c.isData = false := by
  have hname : c.name = "AUTH" := by simpa [isAuth] using h
  simp [isData, dataNames, hname]

theorem not_isAuth_of_isData {c : Command} (h : c.isData = true) : c.isAuth = false := by
  rw [← Bool.not_eq_true]
  intro hauth
  rw [not_isData_of_isAuth hauth] at h
  cases h

end Command

namespace Reply

/-- No answer was heard: the reply is an error, or there is none. -/
inductive Fails : Reply → Prop
  | error (content : Answer) (failure : Option Failure) : Fails ⟨.error content, failure⟩
  | null (failure : Option Failure) : Fails ⟨.null, failure⟩

/-- What comes of a failure is told by its family. -/
theorem ofExchange_cases (name : String) (f : Failure) :
    (f.isErrorReply = true ∨ f.isAuthentication = true) ∧ ofExchange name (.error f) = .ok (error f) ∨
    (f.isStore = true ∧ f.isErrorReply = false ∧ f.isAuthentication = false) ∧
      ofExchange name (.error f) = .ok (null f) ∨
    f.isStore = false ∧ ofExchange name (.error f) = .error f := by
  rw [ofExchange]
  cases herror : f.isErrorReply
  · cases hauth : f.isAuthentication
    · cases hstore : f.isStore
      · exact .inr (.inr ⟨rfl, rfl⟩)
      · exact .inr (.inl ⟨⟨rfl, rfl, rfl⟩, rfl⟩)
    · exact .inl ⟨.inr rfl, rfl⟩
  · exact .inl ⟨.inl rfl, rfl⟩

theorem fails_ofExchange {name : String} {f : Failure} {reply : Reply}
    (h : ofExchange name (.error f) = .ok reply) : reply.Fails := by
  obtain ⟨-, heq⟩ | ⟨-, heq⟩ | ⟨-, heq⟩ := ofExchange_cases name f
  · cases heq.symm.trans h
    exact .error _ _
  · cases heq.symm.trans h
    exact .null _
  · cases heq.symm.trans h

/-- A failure that passes is the one that came back. -/
theorem eq_error_of_ofExchange {name : String} {r : Except Failure Answer} {f : Failure}
    (h : ofExchange name r = .error f) : r = .error f := by
  cases r with
  | ok a => cases h
  | error g =>
    obtain ⟨-, heq⟩ | ⟨-, heq⟩ | ⟨-, heq⟩ := ofExchange_cases name g
    · cases heq.symm.trans h
    · cases heq.symm.trans h
    · cases heq.symm.trans h
      rfl

/-- An answer is a reply of some kind. -/
theorem tag_ofAnswer_ne_null (name : String) (a : Answer) : (ofAnswer name a).tag ≠ .null := by
  unfold ofAnswer
  split
  case h_2 => split <;> simp [Reply.error]
  case h_3 => split <;> simp
  all_goals simp

/-- There is no reply to a command only where there is none to any other. -/
theorem ofExchange_of_null {name : String} {r : Except Failure Answer} {reply : Reply}
    (h : ofExchange name r = .ok reply) (hnull : reply.tag = .null) (other : String) :
    ofExchange other r = .ok reply := by
  cases r with
  | error f => exact h
  | ok a =>
    cases h
    exact absurd hnull (tag_ofAnswer_ne_null name a)

end Reply
end RemoteCache
