import CertGate.Certificate.Basic

namespace CertGate.RevocationList

open Asn1

def entry : Reader Nat :=
  within Tag.sequence do
    let n ← serial
    let _ ← time
    let _ ← Reader.opt Extension.readAll
    return n

def signedPart : Reader (List Nat) :=
  within Tag.sequence do
    let _ ← Reader.opt word
    let _ ← algorithm
    let _ ← Attribute.readName
    let _ ← time
    let _ ← Reader.opt time
    let serials ← Reader.opt (within Tag.sequence (Reader.many1 entry))
    let _ ← Extension.readTail 0
    return serials.getD []

def ofDer? (der : Bytes) : Option (List Nat) :=
  (within Tag.sequence (do
    let serials ← signedPart
    let _ ← algorithm
    let _ ← bitString
    return serials) der).map (·.1)

end CertGate.RevocationList
