import CertGate.Asn1.Time
import CertGate.Certificate.Extension
import CertGate.Error

namespace CertGate

structure Certificate where
  serial : Nat
  notBefore : Instant
  notAfter : Instant
  subject : List Attribute
  revocationPoints : List String
  deriving DecidableEq

namespace Certificate

open Asn1

/-- The version is optional, and any number will do. -/
def version : Reader Unit := fun b ↦
  if b = [] then some ((), []) else do
    let (e, rest) ← element b
    if e.tag.number ≠ 0 then return ((), b)
    guard (e.tag.tagClass = .context)
    let _ ← word e.content
    return ((), rest)

def validity : Reader (Instant × Instant) :=
  within Tag.sequence do return (← time, ← time)

def publicKey : Reader Unit :=
  within Tag.sequence do
    let _ ← algorithm
    let _ ← bitString

def uniqueId (number : Nat) : Reader Unit := fun b ↦
  if b = [] then some ((), []) else do
    let (e, rest) ← element b
    if e.tag.number ≠ number then return ((), b)
    guard (e.tag.tagClass = .context ∧ !e.tag.constructed ∧ isBitString e.content)
    return ((), rest)

def signedPart : Reader Certificate :=
  within Tag.sequence do
    version
    let serial ← Asn1.serial
    let _ ← algorithm
    let _ ← Attribute.readName
    let (notBefore, notAfter) ← validity
    let subject ← Attribute.readName
    publicKey
    uniqueId 1
    uniqueId 2
    let extensions ← Extension.readTail 3
    return {
      serial, notBefore, notAfter, subject
      revocationPoints := extensions.flatMap Extension.points }

def read : Reader Certificate :=
  within Tag.sequence do
    let c ← signedPart
    let _ ← algorithm
    let _ ← bitString
    return c

/-- The certificate in front of the octets; nobody checks its signature here. -/
def ofDer (der : Bytes) : Result Certificate :=
  match read der with
  | some (c, _) => pure c
  | none => throw (.badRequest "Failed to parse client certificate")

def name (c : Certificate) : String := distinguishedName c.subject

def expired : Error := .forbidden "Your certificate has expired"

def notYetActive : Error := .forbidden "Your certificate is not active yet"

def checkValidity (c : Certificate) (now : Instant) : Result Unit :=
  if c.notAfter.before now then throw expired
  else if now.before c.notBefore then throw notYetActive
  else pure ()

end Certificate

end CertGate
