import CertGate.Error
import CertGate.Files
import CertGate.Settings.Basic
import CertGate.Tls.EndEntity
import CertGate.Tls.PrivateKey

namespace CertGate.Tls

/-- The authorities that clients may be certified by; none if any certificate will do. A client is
asked for a certificate and need not have one. -/
structure ClientVerifier where
  anchors : Option (List EndEntity)

namespace ClientVerifier

def acceptAny : ClientVerifier := ⟨none⟩

def offersAuthentication (_ : ClientVerifier) : Bool := true

def requiresAuthentication (_ : ClientVerifier) : Bool := false

def hints (v : ClientVerifier) : List Bytes := (v.anchors.getD []).map EndEntity.subject

def acceptsUnsigned (v : ClientVerifier) : Bool := v.anchors.isNone

end ClientVerifier

structure Config where
  certificates : List Bytes
  key : PrivateKey
  clients : ClientVerifier
  protocols : List String := ["h2", "http/1.1"]

def readFile (fs : FileSystem) (path : String) : Result Bytes :=
  match fs.read path with
  | .ok content => pure content
  | .error reason => throw (.config s!"Cannot read '{path}': {reason}")

def loadCertificates (fs : FileSystem) (path : String) : Result (List Bytes) := do
  match Pem.certificates (← readFile fs path) with
  | .error fault => throw (.config s!"Failed to parse certs from '{path}': {fault.text}")
  | .ok [] => throw (.config s!"No certificates found in '{path}'")
  | .ok found => return found

def loadPrivateKey (fs : FileSystem) (path : String) : Result Pem.Section := do
  match Pem.privateKey? (Pem.sections (← readFile fs path)) with
  | .error fault => throw (.config s!"Failed to parse private key from '{path}': {fault.text}")
  | .ok none => throw (.config s!"No private key found in '{path}'")
  | .ok (some key) => return key

def anchorFiles (directory : String) (entries : List DirectoryEntry) : List String :=
  let names := (entries.filter fun e ↦
    e.isFile && FileSystem.extension? e.name == some "pem").map (·.name)
  (names.mergeSort (· ≤ ·)).map (FileSystem.join directory)

def loadAnchorFile (fs : FileSystem) (path : String) : Result (List EndEntity) := do
  (← loadCertificates fs path).mapM fun der ↦
    match EndEntity.ofAuthority? der with
    | some anchor => pure anchor
    | none =>
      throw (.config s!"Something went wrong while parsing certificate: {path}: not a certificate")

def loadAnchors (fs : FileSystem) (directory : String) : Result (List EndEntity) := do
  match fs.list directory with
  | .error reason => throw (.config s!"Cannot read CA directory '{directory}': {reason}")
  | .ok entries =>
    let anchors ← (anchorFiles directory entries).mapM (loadAnchorFile fs)
    if anchors.flatten = [] then throw (.config s!"No CA certificates found in '{directory}'")
    return anchors.flatten

def matchingKey (certificates : List Bytes) (s : Pem.Section) : Result PrivateKey :=
  match PrivateKey.ofSection? s, certificates.head? >>= EndEntity.ofDer? with
  | some key, some entity =>
    if key.publicKeyInfo = entity.publicKey then pure key else throw (mismatch "keys do not match")
  | none, _ => throw (mismatch "unusable private key")
  | _, none => throw (mismatch "unusable certificate")
where
  mismatch (reason : String) : Error := .config s!"TLS config error (cert/key mismatch?): {reason}"

def load (fs : FileSystem) (s : TlsSettings) : Result Config := do
  let certificates ← loadCertificates fs s.serverCert
  let key ← loadPrivateKey fs s.serverKey
  let clients ←
    if s.trustUnknownCas then pure ClientVerifier.acceptAny
    else ClientVerifier.mk <$> some <$> loadAnchors fs s.caDir
  return { certificates, key := ← matchingKey certificates key, clients }

end CertGate.Tls
