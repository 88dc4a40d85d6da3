import CertGate.Asn1.Strict
import CertGate.Keys.Edwards
import CertGate.Keys.Weierstrass
import CertGate.Pem.Section

namespace CertGate.Tls

open Asn1 Strict

inductive PrivateKey where
  | rsa (modulus exponent : Nat)
  | curve (c : Curve) (point : Nat × Nat)
  | edwards (publicKey : Bytes)
  deriving DecidableEq

namespace PrivateKey

def rsaOid : Bytes := [0x2A, 0x86, 0x48, 0x86, 0xF7, 0x0D, 0x01, 0x01, 0x01]

def curveOid : Bytes := [0x2A, 0x86, 0x48, 0xCE, 0x3D, 0x02, 0x01]

def edwardsOid : Bytes := [0x2B, 0x65, 0x70]

def sequenceTag : UInt8 := 0x30

def null : Bytes := [0x05, 0x00]

def bitLength (n : Nat) : Nat := if n = 0 then 0 else n.log2 + 1

def isConsistent (modulus exponent secret p q : Nat) : Bool :=
  2048 ≤ bitLength modulus && bitLength modulus ≤ 8192 && p * q == modulus &&
    exponent * secret % (p - 1) == 1 && exponent * secret % (q - 1) == 1

def rsaKey : Reader PrivateKey :=
  Strict.within sequenceTag do
    let [version, modulus, exponent, secret, p, q, _, _, _] ← Reader.times 9 natural | failure
    if version = 0 ∧ isConsistent modulus exponent secret p q then return rsa modulus exponent
    else failure

def pointOctets (c : Curve) (p : Nat × Nat) : Bytes :=
  0x04 :: Sha512.octetsOf c.width p.1 ++ Sha512.octetsOf c.width p.2

/-- A key for a curve. The curve may be named again, and the public point may be given; then they
have to be the right ones. -/
def curveKey (c : Curve) : Reader PrivateKey :=
  Strict.within sequenceTag do
    if (← natural) ≠ 1 then failure
    let secret ← content 0x04
    let named ← Strict.optional 0xA0 (Strict.within 0xA0 (content 0x06))
    let shown ← Strict.optional 0xA1 (Strict.within 0xA1 wholeBits)
    match c.publicPoint? (Bytes.toNat secret) with
    | some p =>
      if named.all (· == c.oid) ∧ shown.all (· == pointOctets c p) then return curve c p else failure
    | none => failure

def edwardsKey : Reader PrivateKey := do
  let seed ← content 0x04
  if seed.length = 32 then return edwards (Edwards.publicKey seed) else failure

def wrapped : Reader PrivateKey :=
  Strict.within sequenceTag do
    if 1 < (← natural) then failure
    let (algorithm, parameters) ← Strict.within sequenceTag do
      return (← content 0x06, ← Strict.rest)
    let key ← content 0x04
    let _ ← Strict.optional 0xA0 (content 0xA0)
    let shown ← Strict.optional 0x81 (content 0x81)
    let found : Option PrivateKey :=
      if algorithm = rsaOid then if parameters = null then Reader.all? rsaKey key else none
      else if algorithm = curveOid then
        (Curve.all.find? fun c ↦ write 0x06 c.oid == parameters).bind fun c ↦
          Reader.all? (curveKey c) key
      else if algorithm = edwardsOid ∧ parameters = [] then
        (Reader.all? edwardsKey key).filter fun k ↦ shown.all fun b ↦ k == .edwards (b.drop 1)
      else none
    found.elim failure pure

/-- A key for a curve that has to be told from its name or, failing that, from the key. -/
def bareCurveKey? (der : Bytes) : Option PrivateKey :=
  Curve.all.findSome? fun c ↦ Reader.all? (curveKey c) der

def ofSection? (s : Pem.Section) : Option PrivateKey :=
  match s.kind with
  | .pkcs1Key => Reader.all? rsaKey s.content
  | .sec1Key =>
    match Reader.all? wrapped s.content with
    | some (.curve c p) => some (.curve c p)
    | some _ => none
    | none => bareCurveKey? s.content
  | .pkcs8Key => Reader.all? wrapped s.content
  | _ => none

def publicKeyInfo : PrivateKey → Bytes
  | rsa modulus exponent =>
    write sequenceTag (write 0x06 rsaOid ++ null) ++
      write 0x03 (0 :: write sequenceTag (writeNat modulus ++ writeNat exponent))
  | curve c p =>
    write sequenceTag (write 0x06 curveOid ++ write 0x06 c.oid) ++ write 0x03 (0 :: pointOctets c p)
  | edwards key => write sequenceTag (write 0x06 edwardsOid) ++ write 0x03 (0 :: key)

end PrivateKey

end CertGate.Tls
