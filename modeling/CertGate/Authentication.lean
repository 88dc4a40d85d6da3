import CertGate.Management.AuthMethods
import CertGate.Management.Bindings
import CertGate.Retrieval
import CertGate.Revocation.Check

namespace CertGate.Authentication

open Program

def x509 : String := "x509"

def noCertificate : Error := .badRequest "No certificate provided"

def leaf : (chain : List Bytes) → Result Certificate
  | [] => throw noCertificate
  | der :: _ => Certificate.ofDer der

/-- The time of validity comes before any request for a revocation list. -/
def checkCertificate (settings : Settings) (c : Certificate) : Program Unit := do
  if settings.verifyCertificate then
    c.checkValidity (← perform .now)
    Revocation.check settings.revocation.scanWorkers c

def resolve (registry : Registry) (c : Certificate) (serviceType host : String) :
    Program (Binding × AuthMethod) := do
  let t ← ServiceTypes.findByName serviceType
  t.supportsAuthType x509
  if !t.hasHost host then throw (.notFound "Host")
  let b ← Bindings.findByIdentity ⟨c.name, t.uuid, host, x509⟩
  let a ← AuthMethods.find registry t.uuid host t.authMethod
  return (b, a)

/-- The token of the client for a host of a service type. That its binding cannot be stamped any
more does not take it away. -/
def authenticate (settings : Settings) (registry : Registry) (chain : List Bytes)
    (serviceType host : String) : Program Datum := do
  let c ← leaf chain
  checkCertificate settings c
  let (b, a) ← resolve registry c serviceType host
  let token ← Retrieval.retrieve a settings.retrieval.scheme b.uniqueKey
  let now ← perform .now
  let _ ← store (.stampBinding b.uuid now.text)
  return token

end CertGate.Authentication
