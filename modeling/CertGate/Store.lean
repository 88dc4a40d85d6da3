import CertGate.AuthMethod
import CertGate.Binding

namespace CertGate

structure Store where
  serviceTypes : Keyed ServiceType.uuid := ∅
  bindings : Keyed Binding.uuid := ∅
  authMethods : Keyed AuthMethodRecord.uuid := ∅
  deriving DecidableEq, Inhabited

structure Seed where
  serviceTypes : List ServiceType := []
  bindings : List Binding := []
  authMethods : List AuthMethodRecord := []
  deriving DecidableEq, Inhabited

namespace Seed

def ofDatum? (d : Datum) : Option Seed := do
  let [serviceTypes, bindings, authMethods] ←
    d.strictSlots? ["service_types", "bindings", "auth_methods"] | none
  return {
    serviceTypes := ← serviceTypes.orElse [] (Datum.listOf? ServiceType.ofDatum?)
    bindings := ← bindings.orElse [] (Datum.listOf? Binding.ofDatum?)
    authMethods := ← authMethods.orElse [] (Datum.listOf? AuthMethodRecord.ofDatum?) }

def toDatum (s : Seed) : Datum :=
  .record [("service_types", .list (s.serviceTypes.map ServiceType.toDatum)),
    ("bindings", .list (s.bindings.map Binding.toDatum)),
    ("auth_methods", .list (s.authMethods.map AuthMethodRecord.toDatum))]

end Seed

/-- A condition on auth methods; what it leaves open matches anything. -/
structure AuthMethodFilter where
  serviceUuid : Option String := none
  host : Option String := none
  kind : Option String := none
  deriving DecidableEq, Inhabited

def agrees (wanted : Option String) (value : String) : Bool := wanted.all (· == value)

def AuthMethodFilter.accepts (f : AuthMethodFilter) (r : AuthMethodRecord) : Bool :=
  agrees f.serviceUuid r.serviceUuid && agrees f.host r.host && agrees f.kind r.kind

def Keyed.sortedBy {α : Type} {key : α → String} (s : Keyed key) (p : α → Bool) (le : α → α → Bool) :
    List α :=
  (s.toList.filter p).mergeSort le

namespace Store

/-- Of several records with one uuid the last counts. -/
def ofSeed (s : Seed) : Store where
  serviceTypes := .ofList s.serviceTypes
  bindings := .ofList s.bindings
  authMethods := .ofList s.authMethods

def byName (a b : ServiceType) : Bool := a.name ≤ b.name

def byBindingName (a b : Binding) : Bool := a.name ≤ b.name

def byPlace (a b : AuthMethodRecord) : Bool :=
  a.serviceUuid < b.serviceUuid || (a.serviceUuid == b.serviceUuid && a.host ≤ b.host)

def toSeed (s : Store) : Seed where
  serviceTypes := s.serviceTypes.sortedBy (fun _ ↦ true) byName
  bindings := s.bindings.sortedBy (fun _ ↦ true) byBindingName
  authMethods := s.authMethods.sortedBy (fun _ ↦ true) byPlace

def serviceTypesNamed (s : Store) (name : Option String) : List ServiceType :=
  s.serviceTypes.sortedBy (fun t ↦ agrees name t.name) byName

def serviceTypesWithUuid (s : Store) (uuid : String) : List ServiceType :=
  (s.serviceTypes.get? uuid).toList

def insertServiceType (s : Store) (t : ServiceType) : Store :=
  { s with serviceTypes := s.serviceTypes.insert t }

def missing (what uuid : String) : Error := .database s!"{what} with uuid {uuid} does not exist"

def updateServiceType (s : Store) (t : ServiceType) : Result Store :=
  if s.serviceTypes.contains t.uuid then pure (s.insertServiceType t)
  else throw (missing "Service type" t.uuid)

def deleteServiceType (s : Store) (uuid : String) : Store :=
  { s with serviceTypes := s.serviceTypes.erase uuid }

def bindingsAt (s : Store) (serviceUuid host : Option String) : List Binding :=
  s.bindings.sortedBy (fun b ↦ agrees serviceUuid b.serviceUuid && agrees host b.host) byBindingName

def bindingsWithIdentity (s : Store) (id : Binding.Identity) : List Binding :=
  s.bindings.sortedBy (fun b ↦ b.identity == id) byBindingName

def bindingsWith (s : Store) (uuid name : Option String) : List Binding :=
  s.bindings.sortedBy (fun b ↦ agrees uuid b.uuid && agrees name b.name) byBindingName

def insertBinding (s : Store) (b : Binding) : Store :=
  { s with bindings := s.bindings.insert b }

def updateBinding (s : Store) (b : Binding) : Result Store :=
  if s.bindings.contains b.uuid then pure (s.insertBinding b)
  else throw (missing "Binding" b.uuid)

def stampBinding (s : Store) (uuid time : String) : Result Store :=
  match s.bindings.get? uuid with
  | some b => pure (s.insertBinding { b with lastAuth := time })
  | none => throw (missing "Binding" uuid)

def deleteBinding (s : Store) (uuid : String) : Store :=
  { s with bindings := s.bindings.erase uuid }

def deleteBindingsOf (s : Store) (serviceUuid : String) : Store :=
  { s with bindings := s.bindings.filter fun b ↦ b.serviceUuid != serviceUuid }

def authMethodsWith (s : Store) (f : AuthMethodFilter) : List AuthMethodRecord :=
  s.authMethods.sortedBy f.accepts byPlace

def insertAuthMethod (s : Store) (r : AuthMethodRecord) : Store :=
  { s with authMethods := s.authMethods.insert r }

def updateAuthMethod (s : Store) (r : AuthMethodRecord) : Result Store :=
  if s.authMethods.contains r.uuid then pure (s.insertAuthMethod r)
  else throw (missing "Auth method" r.uuid)

def deleteAuthMethod (s : Store) (uuid : String) : Store :=
  { s with authMethods := s.authMethods.erase uuid }

def deleteAuthMethodsOf (s : Store) (serviceUuid : String) : Store :=
  { s with authMethods := s.authMethods.filter fun r ↦ r.serviceUuid != serviceUuid }

end Store

end CertGate
