import CertGate.Error
import CertGate.Settings.Duration

namespace CertGate

structure ServerSettings where
  host : String := "0.0.0.0"
  port : UInt16 := 8443
  deriving DecidableEq, Inhabited

structure TlsSettings where
  enabled : Bool := true
  serverCert : String := "/etc/authn-gateway/tls/server.crt"
  serverKey : String := "/etc/authn-gateway/tls/server.key"
  caDir : String := "/etc/grid-security/certificates"
  trustUnknownCas : Bool := false
  deriving DecidableEq, Inhabited

structure RevocationSettings where
  fetchTimeout : Duration := .ofSeconds 60
  scanWorkers : Nat := 2
  deriving DecidableEq, Inhabited

structure RetrievalSettings where
  verifySsl : Bool := true
  timeout : Duration := .ofSeconds 30
  scheme : String := "https"
  deriving DecidableEq, Inhabited

structure EndpointDefaults where
  path : String
  retrievalField : String
  deriving DecidableEq, Inhabited

structure StoreSettings where
  seedFile : Option String := none
  deriving DecidableEq, Inhabited

def identifierPlaceholder : String := "\x7b\x7bidentifier\x7d\x7d"

def accessKeyPlaceholder : String := "\x7b\x7baccess_key\x7d\x7d"

def standardEndpoints : Table EndpointDefaults := Keyed.ofList [
  ("ams", ⟨"/v1/users:byUUID/" ++ identifierPlaceholder ++ "?key=" ++ accessKeyPlaceholder, "token"⟩),
  ("web-api", ⟨"/api/v2/admin/users:byID/" ++ identifierPlaceholder ++ "?export=flat", "token"⟩)]

structure Settings where
  envFiles : List String := []
  server : ServerSettings := {}
  tls : TlsSettings := {}
  verifyCertificate : Bool := true
  revocation : RevocationSettings := {}
  retrieval : RetrievalSettings := {}
  serviceToken : String := ""
  supportedAuthTypes : List String := ["x509", "oidc"]
  supportedAuthMethods : List String := ["api-key", "headers"]
  supportedServiceTypes : List String := ["ams", "web-api"]
  endpointDefaults : Table EndpointDefaults := standardEndpoints
  store : StoreSettings := {}
  deriving DecidableEq, Inhabited

open Datum (Slot)

def maxWorkers : Nat := 1 <<< 64

def Datum.port? (d : Datum) : Option UInt16 := (d.natBelow? 65536).map UInt16.ofNat

def Datum.duration? (d : Datum) : Option Duration := d.string? >>= Duration.ofText?

def UInt16.datum (n : UInt16) : Datum := .number (.int n.toNat)

namespace ServerSettings

def ofDatum? (d : Datum) : Option ServerSettings := do
  let [host, port] ← d.slots? ["host", "port"] | none
  return {
    host := ← host.orElse ({} : ServerSettings).host Datum.string?
    port := ← port.orElse ({} : ServerSettings).port Datum.port? }

def toDatum (s : ServerSettings) : Datum :=
  .record [("host", .text s.host), ("port", UInt16.datum s.port)]

end ServerSettings

namespace TlsSettings

def ofDatum? (d : Datum) : Option TlsSettings := do
  let [enabled, cert, key, cas, trust] ←
    d.slots? ["enabled", "server_cert", "server_key", "ca_dir", "trust_unknown_cas"] | none
  let default : TlsSettings := {}
  return {
    enabled := ← enabled.orElse default.enabled Datum.bool?
    serverCert := ← cert.orElse default.serverCert Datum.string?
    serverKey := ← key.orElse default.serverKey Datum.string?
    caDir := ← cas.orElse default.caDir Datum.string?
    trustUnknownCas := ← trust.orElse default.trustUnknownCas Datum.bool? }

def toDatum (s : TlsSettings) : Datum :=
  .record [("enabled", .bool s.enabled), ("server_cert", .text s.serverCert),
    ("server_key", .text s.serverKey), ("ca_dir", .text s.caDir),
    ("trust_unknown_cas", .bool s.trustUnknownCas)]

end TlsSettings

namespace RevocationSettings

def ofDatum? (d : Datum) : Option RevocationSettings := do
  let [timeout, workers] ← d.slots? ["fetch_timeout", "scan_workers"] | none
  let default : RevocationSettings := {}
  return {
    fetchTimeout := ← timeout.orElse default.fetchTimeout Datum.duration?
    scanWorkers := ← workers.orElse default.scanWorkers (Datum.natBelow? maxWorkers) }

def toDatum (s : RevocationSettings) : Datum :=
  .record [("fetch_timeout", .text s.fetchTimeout.text),
    ("scan_workers", .number (.int s.scanWorkers))]

end RevocationSettings

namespace RetrievalSettings

def ofDatum? (d : Datum) : Option RetrievalSettings := do
  let [verify, timeout, scheme] ← d.slots? ["verify_ssl", "timeout", "scheme"] | none
  let default : RetrievalSettings := {}
  return {
    verifySsl := ← verify.orElse default.verifySsl Datum.bool?
    timeout := ← timeout.orElse default.timeout Datum.duration?
    scheme := ← scheme.orElse default.scheme Datum.string? }

def toDatum (s : RetrievalSettings) : Datum :=
  .record [("verify_ssl", .bool s.verifySsl), ("timeout", .text s.timeout.text),
    ("scheme", .text s.scheme)]

end RetrievalSettings

namespace EndpointDefaults

def ofDatum? (d : Datum) : Option EndpointDefaults := do
  let [path, field] ← d.slots? ["path", "retrieval_field"] | none
  return ⟨← path.required Datum.string?, ← field.required Datum.string?⟩

def toDatum (e : EndpointDefaults) : Datum :=
  .record [("path", .text e.path), ("retrieval_field", .text e.retrievalField)]

end EndpointDefaults

namespace StoreSettings

def ofDatum? (d : Datum) : Option StoreSettings := do
  let [seed] ← d.slots? ["seed_file"] | none
  return ⟨← seed.orElse none (Datum.nullable? Datum.string?)⟩

def toDatum (s : StoreSettings) : Datum :=
  .record [("seed_file", s.seedFile.elim .null .text)]

end StoreSettings

namespace Settings

def fieldNames : List String := [
  "env_files", "server", "tls", "verify_certificate", "revocation", "retrieval", "service_token",
  "supported_auth_types", "supported_auth_methods", "supported_service_types",
  "service_type_defaults", "store"]

/-- Missing settings take their defaults; a setting of the wrong type is refused. -/
def ofDatum? (d : Datum) : Option Settings := do
  let [envFiles, server, tls, verify, revocation, retrieval, token, authTypes, authMethods,
    serviceTypes, endpoints, store] ← d.slots? fieldNames | none
  let default : Settings := {}
  let strings := Datum.listOf? Datum.string?
  return {
    envFiles := ← envFiles.orElse default.envFiles strings
    server := ← server.orElse default.server ServerSettings.ofDatum?
    tls := ← tls.orElse default.tls TlsSettings.ofDatum?
    verifyCertificate := ← verify.orElse default.verifyCertificate Datum.bool?
    revocation := ← revocation.orElse default.revocation RevocationSettings.ofDatum?
    retrieval := ← retrieval.orElse default.retrieval RetrievalSettings.ofDatum?
    serviceToken := ← token.orElse default.serviceToken Datum.string?
    supportedAuthTypes := ← authTypes.orElse default.supportedAuthTypes strings
    supportedAuthMethods := ← authMethods.orElse default.supportedAuthMethods strings
    supportedServiceTypes := ← serviceTypes.orElse default.supportedServiceTypes strings
    endpointDefaults :=
      ← endpoints.orElse default.endpointDefaults (Datum.tableOf? EndpointDefaults.ofDatum?)
    store := ← store.orElse default.store StoreSettings.ofDatum? }

def toDatum (s : Settings) : Datum :=
  .record [
    ("env_files", .ofStrings s.envFiles),
    ("server", s.server.toDatum),
    ("tls", s.tls.toDatum),
    ("verify_certificate", .bool s.verifyCertificate),
    ("revocation", s.revocation.toDatum),
    ("retrieval", s.retrieval.toDatum),
    ("service_token", .text s.serviceToken),
    ("supported_auth_types", .ofStrings s.supportedAuthTypes),
    ("supported_auth_methods", .ofStrings s.supportedAuthMethods),
    ("supported_service_types", .ofStrings s.supportedServiceTypes),
    ("service_type_defaults",
      .record (s.endpointDefaults.toList.map fun e ↦ (e.1, e.2.toDatum))),
    ("store", s.store.toDatum)]

def validate (s : Settings) : Result Unit :=
  if s.serviceToken = "" then throw (.config "service_token must be set")
  else if s.revocation.scanWorkers = 0 then
    throw (.config "revocation.scan_workers must be at least 1")
  else pure ()

def redacted (s : Settings) : Settings :=
  if s.serviceToken = "" then s else { s with serviceToken := "***" }

end Settings

end CertGate
