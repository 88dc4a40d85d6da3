import CertGate.CommandLine
import CertGate.Management.Registry
import CertGate.Settings.Layers
import CertGate.Store.File
import CertGate.Tls.Config

namespace CertGate

def CommandLine.applyTo (c : CommandLine) (s : Settings) : Settings :=
  { s with server := { host := c.host.getD s.server.host, port := c.port.getD s.server.port } }

structure CheckReport where
  notes : List String
  problems : List String
  deriving DecidableEq

namespace CheckReport

def passed (r : CheckReport) : Bool := r.problems.isEmpty

def ofResult {α : Type} (note : String) (problem : Error → String) : Result α → CheckReport
  | .ok _ => ⟨[note], []⟩
  | .error e => ⟨[], [problem e]⟩

instance : Append CheckReport := ⟨fun r s ↦ ⟨r.notes ++ s.notes, r.problems ++ s.problems⟩⟩

def empty : CheckReport := ⟨[], []⟩

def ofValidation (s : Settings) : CheckReport :=
  match s.validate with
  | .ok _ => empty
  | .error e => ⟨[], [s!"❌ {e.message}"]⟩

def ofAuthMethods (s : Settings) : CheckReport :=
  let r := Registry.ofSettings s
  let available := ", ".intercalate r.tags
  ⟨[], (s.supportedAuthMethods.filter fun tag ↦ !r.isRegistered tag).map fun tag ↦
    s!"❌ Supported auth method '{tag}' has no implementation (available: {available})"⟩

def ofTls (fs : FileSystem) (s : TlsSettings) : CheckReport :=
  if s.enabled then
    ofResult s!"✅ TLS material loaded (CA dir: {s.caDir})" (fun e ↦ s!"❌ TLS: {e.message}")
      (Tls.load fs s)
  else empty

def ofSeed (fs : FileSystem) (s : StoreSettings) : CheckReport :=
  match s.seedFile with
  | some path =>
    ofResult s!"✅ Datastore seed loaded: {path}" (fun e ↦ s!"❌ {e.message}") (Store.ofFile fs path)
  | none => empty

def ofSettings (fs : FileSystem) (s : Settings) : CheckReport :=
  ofValidation s ++ ofAuthMethods s ++ ofTls fs s.tls ++ ofSeed fs s.store

end CheckReport

end CertGate
