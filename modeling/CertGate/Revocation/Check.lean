import CertGate.Certificate.RevocationList
import CertGate.Fetch
import CertGate.Revocation.Partition

namespace CertGate.Revocation

def noPoints : Error :=
  .forbidden "Your certificate is invalid. No CRLDistributionPoints found on the certificate"

def revoked : Error := .forbidden "Your certificate has been revoked"

/-- A response that reports a failure carries no list. -/
def isFailure (r : IncomingResponse) : Bool := 400 ≤ r.status && r.status < 600

def fetchSerials (url : String) : Program (Option (List Nat)) := do
  match ← Fetch.get url [] with
  | .error _ => return none
  | .ok (_, response) =>
    return if isFailure response then none else RevocationList.ofDer? response.body

def isListed (workers serial : Nat) (serials : List Nat) : Bool :=
  (partition serials.length workers).any fun c ↦ (c.of serials).contains serial

def judge (workers serial : Nat) (url : String) : Option (List Nat) → Result Unit
  | none => throw (.crlUnreachable url)
  | some serials => if isListed workers serial serials then throw revoked else pure ()

/-- Tries the points one after the other. What a check may come to when they are tried at the same time
is in `Returns`. -/
def check (workers : Nat) (c : Certificate) : Program Unit := do
  if c.revocationPoints = [] then throw noPoints
  c.revocationPoints.forM fun url ↦ do
    judge workers c.serial url (← fetchSerials url)

end CertGate.Revocation
