import CertGate.Files
import CertGate.Json.Reader
import CertGate.Settings.Basic
import CertGate.Store

namespace CertGate.Store

def ofFile (fs : FileSystem) (path : String) : Result Store :=
  match fs.read path with
  | .error reason => throw (.config s!"Cannot read seed file '{path}': {reason}")
  | .ok content =>
    match Json.read? content >>= Seed.ofDatum? with
    | some seed => pure (.ofSeed seed)
    | none => throw (.config s!"Invalid seed file '{path}': not a list of records")

def initial (fs : FileSystem) (s : StoreSettings) : Result Store :=
  match s.seedFile with
  | some path => ofFile fs path
  | none => pure {}

end CertGate.Store
