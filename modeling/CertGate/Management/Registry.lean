import CertGate.AuthMethod

namespace CertGate

structure Registry where
  variants : Table AuthMethod.Variant := ∅
  endpoints : Table EndpointDefaults := ∅
  deriving DecidableEq

namespace Registry

def register (r : Registry) (v : AuthMethod.Variant) : Registry :=
  { r with variants := r.variants.put v.tag v }

def ofSettings (s : Settings) : Registry :=
  ({ endpoints := s.endpointDefaults } : Registry).register (.apiKey "") |>.register (.headers ∅)

def withMock (r : Registry) : Registry := r.register .mock

def tags (r : Registry) : List String := r.variants.keys

def isRegistered (r : Registry) (tag : String) : Bool := (r.variants.find? tag).isSome

def notFound : Error := .internal "Type is supported but not found"

def variantFor (r : Registry) (tag : String) : Result AuthMethod.Variant :=
  match r.variants.find? tag with
  | some v => pure v
  | none => throw notFound

def ensureRegistered (r : Registry) (tag : String) : Result Unit := do
  let _ ← r.variantFor tag

def create (r : Registry) (tag : String) : Result AuthMethod := do
  return { variant := ← r.variantFor tag }

def defaultsFor (r : Registry) (kind : String) : Result EndpointDefaults :=
  match r.endpoints.find? kind with
  | some e => pure e
  | none => throw notFound

/-- Fills in path and retrieval field for a kind of service; `mock` needs neither. -/
def setDefaults (r : Registry) (a : AuthMethod) (kind : String) : Result AuthMethod :=
  match a.variant with
  | .mock => pure a
  | _ => do
    let e ← r.defaultsFor kind
    return { a with path := e.path, retrievalField := e.retrievalField }

end Registry

end CertGate
