import CertGate.Environment.File
import CertGate.Files
import CertGate.Settings.Basic
import CertGate.Settings.Variable
import CertGate.Yaml.Value

namespace CertGate.Settings

/-- The settings of a file, as a record. What is there but is no file has none. -/
def fileRecord (fs : FileSystem) : (path : Option String) → Result Datum
  | none => pure (.record [])
  | some path =>
    if !fs.isThere path then throw (.config s!"Config file not found: {path}")
    else if !fs.isFile path then pure (.record [])
    else
      match (fs.read path).toOption >>= Utf8.decode? >>= Yaml.record? with
      | some d => pure d
      | none => throw (.config s!"invalid YAML in '{path}'")

def ofLayers (fs : FileSystem) (path : Option String) (e : Environment) : Result Settings := do
  let d := Datum.layer (← fileRecord fs path) (Variable.record e)
  match ofDatum? d with
  | some s => pure s
  | none => throw (.config "a setting has the wrong type")

def envFilePath (e : Environment) (path : String) : String :=
  match path.toList, e.home? with
  | '~' :: rest, some home => home ++ String.ofList rest
  | _, _ => path

def loadEnvFile (fs : FileSystem) (e : Environment) (path : String) : Environment :=
  match fs.read (envFilePath e path) with
  | .ok content => e.withFile content
  | .error _ => e

def load (fs : FileSystem) (path : Option String) (e : Environment) : Result (Settings × Environment) := do
  let s ← ofLayers fs path e
  return (s, s.envFiles.foldl (loadEnvFile fs) e)

end CertGate.Settings
