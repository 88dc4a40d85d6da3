import CertGate.Asn1.Strict

namespace CertGate.Tls

open Asn1 Strict

structure EndEntity where
  subject : Bytes
  publicKey : Bytes
  deriving DecidableEq

namespace EndEntity

def sequenceTag : UInt8 := 0x30

structure Extension where
  oid : Bytes
  critical : Bool
  value : Bytes

def extension : Reader Extension :=
  Strict.within sequenceTag do
    let oid ← content 0x06
    let critical ← Strict.optional 0x01 Strict.boolean
    return ⟨oid, critical.getD false, ← content 0x04⟩

/-- The standard extensions that are looked into, by the end of their identifiers. -/
def knownEnds : List UInt8 := [15, 17, 19, 30, 31, 37]

def Extension.isKnown (x : Extension) : Bool :=
  x.oid.length == 3 && x.oid.take 2 == [0x55, 0x1D] && knownEnds.contains (x.oid.getD 2 0)

/-- All but the key usage hold a sequence and nothing else. -/
def Extension.hasForm (x : Extension) : Bool :=
  x.oid.getD 2 0 == 15 || (Reader.all? (content sequenceTag) x.value).isSome

/-- Whether no known extension comes twice or is malformed, and no unknown one is critical. -/
def fit (xs : List Extension) : Bool :=
  let known := xs.filter Extension.isKnown
  known.all Extension.hasForm && (known.map (·.oid)).Nodup &&
    xs.all fun x ↦ x.isKnown || !x.critical

def names : Reader EndEntity := do
  let _ ← content sequenceTag
  let _ ← content sequenceTag
  let subject ← content sequenceTag
  return ⟨subject, ← content sequenceTag⟩

def version3 (algorithm : Bytes) : Reader EndEntity := do
  let version ← Strict.within 0xA0 natural
  if version ≠ 2 then failure
  let _ ← content 0x02
  if (← content sequenceTag) ≠ algorithm then failure
  let entity ← names
  if ← atEnd then return entity
  let extensions ← Strict.within 0xA3 (Strict.within sequenceTag (untilEnd extension))
  if fit extensions then return entity else failure

/-- The signed part of a certificate of version 1, which has no version number. -/
def version1 : Reader EndEntity := do
  let _ ← content 0x02
  let _ ← content sequenceTag
  names

def ofDer? (der : Bytes) : Option EndEntity :=
  Reader.all? (Strict.within sequenceTag do
    let signed ← content sequenceTag
    let algorithm ← content sequenceTag
    let _ ← wholeBits
    match Reader.all? (version3 algorithm) signed with
    | some entity => return entity
    | none => failure) der

def ofAuthority? (der : Bytes) : Option EndEntity :=
  ofDer? der <|>
    Reader.all? (Strict.within sequenceTag do
      let entity ← Strict.within sequenceTag version1
      let _ ← content sequenceTag
      let _ ← content 0x03
      return entity) der

end EndEntity

end CertGate.Tls
