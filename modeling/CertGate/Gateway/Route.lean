import CertGate.Http

namespace CertGate.Gateway

open Http (Method)

inductive Route where
  | health
  /-- The token of a client; the last part of the path names the host and says what is wanted. -/
  | authentication (serviceType host : String)
  | serviceTypes
  | serviceType (name : String)
  | newAuthMethod (serviceType : String)
  | authMethod (serviceType host : String)
  | hostBindings (serviceType host : String)
  | hostBinding (serviceType host authIdentifier : String)
  | authMethods
  | bindings
  | binding (name : String)
  deriving DecidableEq

namespace Route

/-- The parts of a path between its slashes. A part that varies may be empty, but not at the end of
the path. -/
def ofParts : List String → Option Route
  | ["health"] => some health
  | ["v1", "authm"] => some authMethods
  | ["v1", "bindings"] => some bindings
  | ["v1", "bindings", name] => if name = "" then none else some (binding name)
  | ["v1", "service-types"] => some serviceTypes
  | ["v1", "service-types", name] => if name = "" then none else some (serviceType name)
  | ["v1", "service-types", t, "authm"] => some (newAuthMethod t)
  | ["v1", "service-types", t, "hosts", h] => if h = "" then none else some (authentication t h)
  | ["v1", "service-types", t, "hosts", h, "authm"] => some (authMethod t h)
  | ["v1", "service-types", t, "hosts", h, "bindings"] => some (hostBindings t h)
  | ["v1", "service-types", t, "hosts", h, "bindings", id] =>
    if id = "" then none else some (hostBinding t h id)
  | _ => none

def splitSlashes : List Char → List (List Char)
  | [] => [[]]
  | c :: cs =>
    if c = '/' then [] :: splitSlashes cs
    else
      match splitSlashes cs with
      | [] => [[c]]
      | part :: parts => (c :: part) :: parts

def ofPath (path : String) : Option Route :=
  match splitSlashes path.toList with
  | [] :: parts => ofParts (parts.map String.ofList)
  | _ => none

def isManagement : Route → Bool
  | health | authentication .. => false
  | _ => true

def methods : Route → List Method
  | health | authentication .. | hostBindings .. | hostBinding .. | authMethods | bindings => [.get]
  | serviceTypes => [.get, .post]
  | newAuthMethod _ => [.post]
  | serviceType _ | authMethod .. => [.get, .put, .delete]
  | binding _ => [.get, .post, .put, .delete]

/-- The text that a part stands for; the error is the name of a part that stands for none. -/
def decodePart (name part : String) : Except String String :=
  match Utf8.decode? (Percent.decode (Utf8.encode part)) with
  | some s => pure s
  | none => throw name

def decoded : Route → Except String Route
  | authentication t h => return authentication (← serviceTypePart t) (← hostPart h)
  | serviceType name => return serviceType (← serviceTypePart name)
  | newAuthMethod t => return newAuthMethod (← serviceTypePart t)
  | authMethod t h => return authMethod (← serviceTypePart t) (← hostPart h)
  | hostBindings t h => return hostBindings (← serviceTypePart t) (← hostPart h)
  | hostBinding t h id =>
    return hostBinding (← serviceTypePart t) (← hostPart h) (← decodePart "auth_identifier" id)
  | binding name => return binding (← decodePart "name" name)
  | r => pure r
where
  serviceTypePart := decodePart "service_type"
  hostPart := decodePart "host"

end Route

end CertGate.Gateway
