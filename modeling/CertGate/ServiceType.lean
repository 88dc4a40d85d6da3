import CertGate.Settings.Basic

namespace CertGate

structure ServiceType where
  name : String := ""
  hosts : List String := []
  authTypes : List String := []
  /-- The tag of the auth methods of its hosts. -/
  authMethod : String := ""
  uuid : String := ""
  createdOn : String := ""
  /-- The tag that selects the defaults of its auth methods. -/
  kind : String := ""
  deriving DecidableEq, Inhabited

def firstEmpty? (fields : List (String × String)) : Option String :=
  (fields.find? (·.2.isEmpty)).map (·.1)

namespace ServiceType

def resource : String := "service-type"

def hasHost (s : ServiceType) (host : String) : Bool := s.hosts.contains host

def supportsAuthType (s : ServiceType) (authType : String) : Result Unit :=
  if s.authTypes.contains authType then pure () else throw (.unsupported "Auth type" authType)

def validate (s : ServiceType) (settings : Settings) : Result Unit := do
  if let some field := firstEmpty? [("name", s.name), ("auth_method", s.authMethod), ("type", s.kind)]
  then throw (.emptyField resource field)
  if s.hosts = [] then throw (.emptyField resource "hosts")
  if s.authTypes = [] then throw (.unsupported "auth_types" "empty")
  if !settings.supportedAuthMethods.contains s.authMethod then
    throw (.unsupported "auth_method" s.authMethod)
  if let some unknown := s.authTypes.find? fun t ↦ !settings.supportedAuthTypes.contains t then
    throw (.unsupported "auth_types" unknown)
  if !settings.supportedServiceTypes.contains s.kind then throw (.unsupported "type" s.kind)

structure Update where
  name : Option String := none
  hosts : Option (List String) := none
  authTypes : Option (List String) := none
  authMethod : Option String := none
  deriving DecidableEq, Inhabited

def apply (s : ServiceType) (u : Update) : ServiceType :=
  { s with
    name := u.name.getD s.name
    hosts := u.hosts.getD s.hosts
    authTypes := u.authTypes.getD s.authTypes
    authMethod := u.authMethod.getD s.authMethod }

def ofDatum? (d : Datum) : Option ServiceType := do
  let [name, hosts, authTypes, authMethod, uuid, createdOn, kind] ← d.strictSlots?
    ["name", "hosts", "auth_types", "auth_method", "uuid", "created_on", "type"] | none
  return {
    name := ← name.orElse "" Datum.string?
    hosts := ← hosts.orElse [] (Datum.listOf? Datum.string?)
    authTypes := ← authTypes.orElse [] (Datum.listOf? Datum.string?)
    authMethod := ← authMethod.orElse "" Datum.string?
    uuid := ← uuid.orElse "" Datum.string?
    createdOn := ← createdOn.orElse "" Datum.string?
    kind := ← kind.orElse "" Datum.string? }

def toDatum (s : ServiceType) : Datum :=
  .record [("name", .text s.name), ("hosts", .ofStrings s.hosts),
    ("auth_types", .ofStrings s.authTypes), ("auth_method", .text s.authMethod),
    ("uuid", .text s.uuid), ("created_on", .text s.createdOn), ("type", .text s.kind)]

def Update.ofDatum? (d : Datum) : Option Update := do
  let [name, hosts, authTypes, authMethod] ← d.strictSlots?
    ["name", "hosts", "auth_types", "auth_method"] | none
  return {
    name := ← name.optional Datum.string?
    hosts := ← hosts.optional (Datum.listOf? Datum.string?)
    authTypes := ← authTypes.optional (Datum.listOf? Datum.string?)
    authMethod := ← authMethod.optional Datum.string? }

end ServiceType

end CertGate
