import CertGate.ServiceType

namespace CertGate

structure Binding where
  name : String := ""
  serviceUuid : String := ""
  host : String := ""
  uuid : String := ""
  /-- The identity of the client; for `x509` the distinguished name of its certificate. -/
  authIdentifier : String := ""
  uniqueKey : String := ""
  authType : String := ""
  createdOn : String := ""
  lastAuth : String := ""
  deriving DecidableEq, Inhabited

namespace Binding

def resource : String := "binding"

/-- What no two bindings may share. -/
structure Identity where
  authIdentifier : String
  serviceUuid : String
  host : String
  authType : String
  deriving DecidableEq, Inhabited

def identity (b : Binding) : Identity := ⟨b.authIdentifier, b.serviceUuid, b.host, b.authType⟩

def checkFilled (b : Binding) : Result Unit :=
  match firstEmpty? [("name", b.name), ("service_uuid", b.serviceUuid), ("host", b.host),
    ("auth_identifier", b.authIdentifier), ("unique_key", b.uniqueKey), ("auth_type", b.authType)] with
  | some field => throw (.emptyField resource field)
  | none => pure ()

def checkAgainst (b : Binding) (s : ServiceType) : Result Unit :=
  if s.hasHost b.host then s.supportsAuthType b.authType else throw (.notFound "Host")

structure Update where
  name : Option String := none
  serviceUuid : Option String := none
  host : Option String := none
  authIdentifier : Option String := none
  authType : Option String := none
  uniqueKey : Option String := none
  deriving DecidableEq, Inhabited

def apply (b : Binding) (u : Update) : Binding :=
  { b with
    name := u.name.getD b.name
    serviceUuid := u.serviceUuid.getD b.serviceUuid
    host := u.host.getD b.host
    authIdentifier := u.authIdentifier.getD b.authIdentifier
    authType := u.authType.getD b.authType
    uniqueKey := u.uniqueKey.getD b.uniqueKey }

def ofDatum? (d : Datum) : Option Binding := do
  let [name, serviceUuid, host, uuid, authIdentifier, uniqueKey, authType, createdOn, lastAuth] ←
    d.strictSlots? ["name", "service_uuid", "host", "uuid", "auth_identifier", "unique_key",
      "auth_type", "created_on", "last_auth"] | none
  return {
    name := ← name.orElse "" Datum.string?
    serviceUuid := ← serviceUuid.orElse "" Datum.string?
    host := ← host.orElse "" Datum.string?
    uuid := ← uuid.orElse "" Datum.string?
    authIdentifier := ← authIdentifier.orElse "" Datum.string?
    uniqueKey := ← uniqueKey.orElse "" Datum.string?
    authType := ← authType.orElse "" Datum.string?
    createdOn := ← createdOn.orElse "" Datum.string?
    lastAuth := ← lastAuth.orElse "" Datum.string? }

/-- The two times are left out while they are empty. -/
def toDatum (b : Binding) : Datum :=
  let time (name value : String) := if value = "" then [] else [(name, Datum.text value)]
  .record <|
    [("name", .text b.name), ("service_uuid", .text b.serviceUuid), ("host", .text b.host),
      ("uuid", .text b.uuid), ("auth_identifier", .text b.authIdentifier),
      ("unique_key", .text b.uniqueKey), ("auth_type", .text b.authType)] ++
    time "created_on" b.createdOn ++ time "last_auth" b.lastAuth

def Update.ofDatum? (d : Datum) : Option Update := do
  let [name, serviceUuid, host, authIdentifier, authType, uniqueKey] ← d.strictSlots?
    ["name", "service_uuid", "host", "auth_identifier", "auth_type", "unique_key"] | none
  return {
    name := ← name.optional Datum.string?
    serviceUuid := ← serviceUuid.optional Datum.string?
    host := ← host.optional Datum.string?
    authIdentifier := ← authIdentifier.optional Datum.string?
    authType := ← authType.optional Datum.string?
    uniqueKey := ← uniqueKey.optional Datum.string? }

end Binding

end CertGate
