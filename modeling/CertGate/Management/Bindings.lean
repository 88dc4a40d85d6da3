import CertGate.Management.ServiceTypes

namespace CertGate.Bindings

open Program

def single (found : List Binding) (several : String) : Result Binding :=
  match found with
  | [] => throw (.notFound "Binding")
  | [b] => pure b
  | _ => throw (.database several)

def severalWithIdentity (id : Binding.Identity) : String :=
  s!"More than 1 bindings found under the service type: {id.serviceUuid} and host: {id.host} " ++
    s!"using the same AuthIdentifier: {id.authIdentifier}"

def severalNamed (name : String) : String := s!"More than 1 bindings found with the name: {name}"

def findByIdentity (id : Binding.Identity) : Program Binding := do
  single (← store (.bindingsWithIdentity id)) (severalWithIdentity id)

def findByName (name : String) : Program Binding := do
  single (← store (.bindingsWith none (some name))) (severalNamed name)

def findAll : Program (List Binding) := store (.bindingsAt none none)

def findByServiceAndHost (serviceUuid host : String) : Program (List Binding) :=
  store (.bindingsAt (some serviceUuid) (some host))

def validate (b : Binding) : Program Unit := do
  b.checkFilled
  b.checkAgainst (← ServiceTypes.findByUuid b.serviceUuid)

/-- Fails on a record that is in the way; that there are several is an error of its own. -/
def vacant (found : List Binding) (field value several : String) : Result Unit :=
  match found with
  | [] => pure ()
  | [_] => throw (.conflict Binding.resource field value)
  | _ => throw (.database several)

def ensureIdentityFree (b : Binding) : Program Unit := do
  vacant (← store (.bindingsWithIdentity b.identity)) "auth_identifier" b.authIdentifier
    (severalWithIdentity b.identity)

def ensureNameFree (name : String) : Program Unit := do
  vacant (← store (.bindingsWith none (some name))) "name" name (severalNamed name)

def create (b : Binding) : Program Binding := do
  validate b
  ensureIdentityFree b
  ensureNameFree b.name
  let uuid ← perform .freshUuid
  let now ← perform .now
  let b := { b with uuid := uuid, createdOn := now.text, lastAuth := "" }
  store (.insertBinding b)
  return b

def update (current : Binding) (changes : Binding.Update) : Program Binding := do
  let b := current.apply changes
  validate b
  if b.identity ≠ current.identity then ensureIdentityFree b
  if b.name ≠ current.name then ensureNameFree b.name
  (← store (.updateBinding b) : Result Unit)
  return b

def delete (b : Binding) : Program Unit := store (.deleteBinding b.uuid)

end CertGate.Bindings
