import CertGate.Json.Reader
import CertGate.Management.Registry
import CertGate.Management.ServiceTypes

namespace CertGate.AuthMethods

open Program

def single (found : List AuthMethodRecord) : Result AuthMethod :=
  match found with
  | [] => throw (.notFound "Auth method")
  | [r] => AuthMethod.ofRecord r
  | _ => throw (.internal "More than 1 auth methods found for the given service type and host")

def find (registry : Registry) (serviceUuid host tag : String) : Program AuthMethod := do
  registry.ensureRegistered tag
  single (← store (.authMethodsWith ⟨some serviceUuid, some host, some tag⟩))

def findAll : Program (List AuthMethod) := do
  let found ← store (.authMethodsWith {})
  (found.mapM AuthMethod.ofRecord : Result (List AuthMethod))

/-- No host has two auth methods, whatever their tags. -/
def ensureHostFree (serviceUuid host : String) : Program Unit := do
  match ← store (.authMethodsWith { serviceUuid := some serviceUuid, host := some host }) with
  | [] => return
  | _ => throw (.conflict "Auth method" "host" host)

def validate (a : AuthMethod) : Program Unit := do
  a.checkFilled
  a.checkAgainst (← ServiceTypes.findByUuid a.serviceUuid)

def readPatch (body : Bytes) : Result AuthMethod.Patch :=
  match Json.read? body >>= AuthMethod.Patch.ofDatum? with
  | some p => pure p
  | none => throw (.malformedJson "")

def draft (registry : Registry) (t : ServiceType) (body : Bytes) : Result AuthMethod := do
  let a ← registry.create t.authMethod
  let a ← registry.setDefaults a t.kind
  return { a.apply (← readPatch body) with serviceUuid := t.uuid }

def create (registry : Registry) (t : ServiceType) (body : Bytes) : Program AuthMethod := do
  let a ← draft registry t body
  validate a
  ensureHostFree a.serviceUuid a.host
  let uuid ← perform .freshUuid
  let now ← perform .now
  let a := { a with uuid := uuid, createdOn := now.text }
  store (.insertAuthMethod a.toRecord)
  return a

def merge (current : AuthMethod) (body : Bytes) : Result AuthMethod := do
  return current.apply (← readPatch body)

def update (current : AuthMethod) (body : Bytes) : Program AuthMethod := do
  let a ← merge current body
  validate a
  if a.host ≠ current.host then ensureHostFree a.serviceUuid a.host
  (← store (.updateAuthMethod a.toRecord) : Result Unit)
  return a

def delete (a : AuthMethod) : Program Unit := store (.deleteAuthMethod a.uuid)

end CertGate.AuthMethods
