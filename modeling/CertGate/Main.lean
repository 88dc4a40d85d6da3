import CertGate.CheckConfig
import CertGate.Startup
import CertGate.Yaml.Printer

namespace CertGate.Main

structure Seen where
  content : Except String Bytes
  entries : Except String (List DirectoryEntry)
  isFile : Bool
  isThere : Bool

def notFound : String := "No such file or directory (os error 2)"

def refusal : IO.Error → String
  | .noFileOrDirectory .. => notFound
  | .permissionDenied .. => "Permission denied (os error 13)"
  | e => toString e

def nothing : Seen := ⟨.error notFound, .error notFound, false, false⟩

def attempt {α : Type} (action : IO α) : IO (Except String α) := do
  try
    return .ok (← action)
  catch e =>
    return .error (refusal e)

def readEntries (path : String) : IO (List DirectoryEntry) := do
  let entries ← (← IO.FS.realPath path).readDir
  entries.toList.mapM fun e ↦ do
    let kind ← attempt (return (← e.path.metadata).type)
    return ⟨e.fileName, kind.toOption.any (· == .file)⟩

def look (path : String) : IO Seen := do
  let content ← attempt (return (← IO.FS.readBinFile path).toList)
  let entries ← attempt (readEntries path)
  let kind ← attempt (return (← (← IO.FS.realPath path).metadata).type)
  return ⟨content, entries, kind.toOption.any (· == .file), kind.toOption.isSome⟩

def fileSystem (seen : List (String × Seen)) : FileSystem where
  read path := ((seen.lookup path).getD nothing).content
  list path := ((seen.lookup path).getD nothing).entries
  isFile path := ((seen.lookup path).getD nothing).isFile
  isThere path := ((seen.lookup path).getD nothing).isThere

def lookAll (paths : List String) : IO (List (String × Seen)) :=
  paths.mapM fun path ↦ do return (path, ← look path)

def lookFor (s : Settings) (e : Environment) : IO (List (String × Seen)) := do
  let named := [s.tls.serverCert, s.tls.serverKey, s.tls.caDir] ++ s.store.seedFile.toList ++
    s.envFiles.map (Settings.envFilePath e)
  let seen ← lookAll named
  let entries := ((fileSystem seen).list s.tls.caDir).toOption.getD []
  return seen ++ (← lookAll (Tls.anchorFiles s.tls.caDir entries))

def environment : IO Environment := do
  let content ← attempt (IO.FS.readBinFile "/proc/self/environ")
  let text := Utf8.decodeLossy ((content.toOption.map (·.toList)).getD [])
  let found := (Url.splitOn '\x00' text.toList).filter (· ≠ [])
  return ⟨found.map fun v ↦
    (String.ofList (v.takeWhile (· ≠ '=')), String.ofList ((v.dropWhile (· ≠ '=')).drop 1))⟩

def usage : String :=
  "Usage: authn-gateway [OPTIONS] [COMMAND]\n\n" ++
  "Commands:\n" ++
  "  serve         Start the gateway server (default)\n" ++
  "  check-config  Load the configuration and TLS material, report problems and exit\n" ++
  "  help          Print this message\n\n" ++
  "Options:\n" ++
  "  -c, --config <CONFIG>          Path to configuration file (YAML)\n" ++
  "  -p, --port <PORT>              Port to listen on\n" ++
  "      --host <HOST>              Host to bind to\n" ++
  "      --log-level <LOG_LEVEL>    Log level (trace, debug, info, warn, error)\n" ++
  "      --log-format <LOG_FORMAT>  Log format (text, json)\n" ++
  "  -h, --help                     Print help\n" ++
  "  -V, --version                  Print version"

def reason : CommandLine.Stop → String
  | .help => usage
  | .version => "authn-gateway 0.4.0"
  | .unknownCommand => "error: unrecognized subcommand"
  | .unknownArgument => "error: unexpected argument found"
  | .missingValue => "error: a value is required but none was supplied"
  | .badValue => "error: invalid value"
  | .needlessValue => "error: unexpected value for a flag"
  | .repeated => "error: an argument cannot be used multiple times"

def stop (s : CommandLine.Stop) : IO UInt32 := do
  if s.exitCode = 0 then IO.println (reason s) else IO.eprintln (reason s)
  return UInt32.ofNat s.exitCode

def settingsText (s : Settings) : String :=
  match s.redacted.toDatum with
  | .record fields => Yaml.render fields
  | _ => ""

def checkConfig (fs : FileSystem) (s : Settings) : IO UInt32 := do
  let r := CheckReport.ofSettings fs s
  r.notes.forM fun line ↦ IO.println line
  r.problems.forM fun line ↦ IO.eprintln line
  if !r.passed then return 1
  IO.println (settingsText s)
  IO.println "✅ Configuration is valid"
  return 0

/-- Gets ready to serve. There is nothing here to listen with, so that is as far as it goes. -/
def serve (fs : FileSystem) (s : Settings) : IO UInt32 := do
  match Store.initial fs s.store with
  | .error e => IO.eprintln s!"Failed to create gateway: {e.message}"
  | .ok _ =>
    match Endpoint.ofSettings fs s with
    | .error e => IO.eprintln s!"Gateway error: {e.message}"
    | .ok _ => IO.eprintln "Gateway error: no listener available"
  return 1

def run (c : CommandLine) (e : Environment) : IO UInt32 := do
  let seen ← lookAll c.config.toList
  match Settings.ofLayers (fileSystem seen) c.config e with
  | .error fault =>
    IO.println s!"Failed to load configuration: {fault.message}"
    return 1
  | .ok s =>
    let s := c.applyTo s
    let fs := fileSystem (seen ++ (← lookFor s e))
    match c.command with
    | some .checkConfig => checkConfig fs s
    | _ => serve fs s

end CertGate.Main

def main (arguments : List String) : IO UInt32 := do
  let e ← CertGate.Main.environment
  match CertGate.CommandLine.parse arguments e with
  | .error s => CertGate.Main.stop s
  | .ok c => CertGate.Main.run c e
