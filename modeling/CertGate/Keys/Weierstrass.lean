import CertGate.Bytes
import CertGate.Keys.Modular

namespace CertGate

structure Curve where
  oid : Bytes
  prime : Nat
  b : Nat
  generator : Nat × Nat
  order : Nat
  width : Nat
  deriving DecidableEq

namespace Curve

/-- A point; none is the one at infinity. -/
abbrev Point := Option (Nat × Nat)

/-- The third point on a line of the given slope through two points, reflected. -/
def third (c : Curve) (slope : Nat) (p q : Nat × Nat) : Point :=
  let x := Modular.subtract c.prime (slope * slope) (p.1 + q.1)
  some (x, Modular.subtract c.prime (slope * Modular.subtract c.prime p.1 x) p.2)

def add (c : Curve) : Point → Point → Point
  | none, q => q
  | p, none => p
  | some p, some q =>
    let m := c.prime
    if p.1 = q.1 then
      if (p.2 + q.2) % m = 0 then none
      else
        let slope := Modular.subtract m (3 * p.1 * p.1) 3 * Modular.inverse m (2 * p.2 % m) % m
        c.third slope p q
    else
      let run := Modular.subtract m q.1 p.1
      c.third (Modular.subtract m q.2 p.2 * Modular.inverse m run % m) p q

def multiply (c : Curve) (n : Nat) (p : Point) : Point := Modular.fold c.add n p none

def publicPoint? (c : Curve) (secret : Nat) : Option (Nat × Nat) :=
  if 0 < secret ∧ secret < c.order then c.multiply secret (some c.generator) else none

def p256 : Curve where
  oid := [0x2A, 0x86, 0x48, 0xCE, 0x3D, 0x03, 0x01, 0x07]
  prime := 1 <<< 256 - 1 <<< 224 + 1 <<< 192 + 1 <<< 96 - 1
  b := 0x5ac635d8aa3a93e7b3ebbd55769886bc651d06b0cc53b0f63bce3c3e27d2604b
  generator := (0x6b17d1f2e12c4247f8bce6e563a440f277037d812deb33a0f4a13945d898c296,
    0x4fe342e2fe1a7f9b8ee7eb4a7c0f9e162bce33576b315ececbb6406837bf51f5)
  order := 0xffffffff00000000ffffffffffffffffbce6faada7179e84f3b9cac2fc632551
  width := 32

def p384 : Curve where
  oid := [0x2B, 0x81, 0x04, 0x00, 0x22]
  prime := 1 <<< 384 - 1 <<< 128 - 1 <<< 96 + 1 <<< 32 - 1
  b := 0xb3312fa7e23ee7e4988e056be3f82d19181d9c6efe8141120314088f5013875ac656398d8a2ed19d2a85c8edd3ec2aef
  generator := (
    0xaa87ca22be8b05378eb1c71ef320ad746e1d3b628ba79b9859f741e082542a385502f25dbf55296c3a545e3872760ab7,
    0x3617de4a96262c6f5d9e98bf9292dc29f8f41dbd289a147ce9da3113b5f0b8c00a60b1ce1d7e819d7a431d7c90ea0e5f)
  order :=
    0xffffffffffffffffffffffffffffffffffffffffffffffffc7634d81f4372ddf581a0db248b0a77aecec196accc52973
  width := 48

def p521 : Curve where
  oid := [0x2B, 0x81, 0x04, 0x00, 0x23]
  prime := 1 <<< 521 - 1
  b :=
    0x51953eb9618e1c9a1f929a21a0b68540eea2da725b99b315f3b8b489918ef109e1 <<< 256 +
      0x56193951ec7e937b1652c0bd3bb1bf073573df883d2c34f1ef451fd46b503f00
  generator := (
    0xc6858e06b70404e9cd9e3ecb662395b4429c648139053fb521f828af606b4d3dba <<< 256 +
      0xa14b5e77efe75928fe1dc127a2ffa8de3348b3c1856a429bf97e7e31c2e5bd66,
    0x11839296a789a3bc0045c8a5fb42c7d1bd998f54449579b446817afbd17273e662c <<< 256 +
      0x97ee72995ef42640c550b9013fad0761353c7086a272c24088be94769fd16650)
  order :=
    0x1fffffffffffffffffffffffffffffffffffffffffffffffffffffffffffffffffa <<< 256 +
      0x51868783bf2f966b7fcc0148f709a5d03bb5c9b8899c47aebb6fb71e91386409
  width := 66

def all : List Curve := [p256, p384, p521]

end Curve

end CertGate
