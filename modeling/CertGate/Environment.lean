namespace CertGate

structure Environment where
  entries : List (String × String) := []
  deriving DecidableEq, Inhabited

namespace Environment

def get? (e : Environment) (name : String) : Option String := e.entries.lookup name

def set (e : Environment) (name value : String) : Environment :=
  if (e.get? name).isSome then
    ⟨e.entries.map fun v ↦ if v.1 = name then (name, value) else v⟩
  else ⟨e.entries ++ [(name, value)]⟩

def setNew (e : Environment) (name value : String) : Environment :=
  if (e.get? name).isSome then e else e.set name value

def home? (e : Environment) : Option String := (e.get? "HOME").filter (· ≠ "")

end Environment

end CertGate
