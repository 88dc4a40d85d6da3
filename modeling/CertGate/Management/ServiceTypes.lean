import CertGate.Program

namespace CertGate.ServiceTypes

open Program

def single (found : List ServiceType) (key : String) : Result ServiceType :=
  match found with
  | [] => throw (.notFound "Service-type")
  | [t] => pure t
  | _ => throw (.database s!"More than 1 service-types found for: {key}")

def findByName (name : String) : Program ServiceType := do
  single (← store (.serviceTypesNamed (some name))) name

def findByUuid (uuid : String) : Program ServiceType := do
  single (← store (.serviceTypesWithUuid uuid)) uuid

def findAll : Program (List ServiceType) := store (.serviceTypesNamed none)

def ensureNameFree (name : String) : Program Unit := do
  match ← store (.serviceTypesNamed (some name)) with
  | [] => return
  | _ => throw (.conflict ServiceType.resource "name" name)

def create (settings : Settings) (t : ServiceType) : Program ServiceType := do
  t.validate settings
  ensureNameFree t.name
  let uuid ← perform .freshUuid
  let now ← perform .now
  let t := { t with uuid := uuid, createdOn := now.text }
  store (.insertServiceType t)
  return t

def update (settings : Settings) (current : ServiceType) (changes : ServiceType.Update) :
    Program ServiceType := do
  let t := current.apply changes
  t.validate settings
  if t.name ≠ current.name then ensureNameFree t.name
  (← store (.updateServiceType t) : Result Unit)
  return t

def delete (t : ServiceType) : Program Unit := do
  store (.deleteBindingsOf t.uuid)
  store (.deleteAuthMethodsOf t.uuid)
  store (.deleteServiceType t.uuid)

end CertGate.ServiceTypes
