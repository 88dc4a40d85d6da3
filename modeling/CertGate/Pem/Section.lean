import CertGate.Pem.Base64
import CertGate.Text.Utf8

namespace CertGate.Pem

inductive Kind where
  | certificate
  | publicKey
  | pkcs1Key
  | pkcs8Key
  | sec1Key
  | revocationList
  | certificateRequest
  | echConfigs
  deriving DecidableEq, Repr

def labels : List (String × Kind) := [
  ("CERTIFICATE", .certificate), ("PUBLIC KEY", .publicKey), ("RSA PRIVATE KEY", .pkcs1Key),
  ("PRIVATE KEY", .pkcs8Key), ("EC PRIVATE KEY", .sec1Key), ("X509 CRL", .revocationList),
  ("CERTIFICATE REQUEST", .certificateRequest), ("ECHCONFIG", .echConfigs)]

def Kind.ofLabel? (label : Bytes) : Option Kind :=
  (labels.find? fun e ↦ Utf8.encode e.1 == label).map (·.2)

structure Section where
  kind : Kind
  content : Bytes
  deriving DecidableEq

inductive Fault where
  /-- A line starts like one that opens a section, but does not end like one. -/
  | illegalStart
  | badBase64
  | missingEnd
  deriving DecidableEq

def Fault.text : Fault → String
  | illegalStart => "section start is illegal"
  | badBase64 => "base64 decode error"
  | missingEnd => "section end missing"

def dash : UInt8 := 0x2D

def startMark : Bytes := Utf8.encode "-----BEGIN "

def endMark (label : Bytes) : Bytes := Utf8.encode "-----END " ++ label ++ Utf8.encode "-----"

/-- The label of the section that a line opens, or none if the line ends in other than five dashes.
Spaces among the dashes do not count. -/
def label? (line : Bytes) : Option Bytes :=
  let text := line.drop startMark.length
  let tail := text.reverse.takeWhile fun b ↦ b == dash || b == 0x20
  if tail.count dash = 5 then
    some (text.take (text.length - tail.length) ++ tail.reverse.takeWhile (· ≠ dash))
  else none

/-- Lines end at a line feed or at a carriage return. -/
def lines : Bytes → List Bytes
  | [] => [[]]
  | b :: rest =>
    if b = 0x0A ∨ b = 0x0D then [] :: lines rest
    else
      match lines rest with
      | [] => [[b]]
      | line :: more => (b :: line) :: more

/-- Reads on with the label of the section that is open, if one is, and the text gathered for it.
A line that opens a section does so inside of another one, too, and what had been gathered there
stays. Reading ends at the first fault. -/
def scan : (label : Option Bytes) → (text : Bytes) → List Bytes → List (Except Fault Section)
  | none, _, [] => []
  | some _, _, [] => [.error .missingEnd]
  | label, text, line :: rest =>
    if startMark.isPrefixOf line then
      match label? line with
      | some l => scan (some l) text rest
      | none => [.error .illegalStart]
    else
      match label with
      | none => scan none text rest
      | some l =>
        if (endMark l).isPrefixOf line then
          match Kind.ofLabel? l with
          | none => scan none [] rest
          | some kind =>
            match Base64.decode? text with
            | some content => .ok ⟨kind, content⟩ :: scan none [] rest
            | none => [.error .badBase64]
        else scan (some l) (text ++ line) rest

def sections (file : Bytes) : List (Except Fault Section) := scan none [] (lines file)

def certificates (file : Bytes) : Except Fault (List Bytes) := do
  let all ← (sections file).mapM id
  return (all.filter (·.kind == .certificate)).map (·.content)

def isPrivateKey (s : Section) : Bool :=
  s.kind == .pkcs1Key || s.kind == .pkcs8Key || s.kind == .sec1Key

/-- The first private key; a fault behind it does no harm. -/
def privateKey? : List (Except Fault Section) → Except Fault (Option Section)
  | [] => pure none
  | .error f :: _ => throw f
  | .ok s :: rest => if isPrivateKey s then pure (some s) else privateKey? rest

end CertGate.Pem
