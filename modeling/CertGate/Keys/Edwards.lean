import CertGate.Keys.Modular
import CertGate.Keys.Sha512

namespace CertGate.Edwards

def prime : Nat := 1 <<< 255 - 19

def d : Nat :=
  Modular.subtract prime 0 (121665 * Modular.inverse prime 121666)

abbrev Point := Nat × Nat

def add (p q : Point) : Point :=
  let product := d * p.1 % prime * q.1 % prime * p.2 % prime * q.2 % prime
  let x := (p.1 * q.2 + q.1 * p.2) % prime * Modular.inverse prime ((1 + product) % prime)
  let y := (p.2 * q.2 + p.1 * q.1) % prime * Modular.inverse prime (Modular.subtract prime 1 product)
  (x % prime, y % prime)

def zero : Point := (0, 1)

def generator : Point :=
  (15112221349535400772501151409588531511454012693041857206046113283949847762202,
    46316835694926478169428394003475163141307993866256225615783033603165251855960)

def littleEndian (b : Bytes) : Nat := Bytes.toNat b.reverse

/-- The secret multiple of the generator: half a hash of the seed with some of its bits set. -/
def scalar (seed : Bytes) : Nat :=
  let n := littleEndian ((Sha512.hash seed).take 32)
  n / 8 * 8 % (1 <<< 254) + 1 <<< 254

def publicKey (seed : Bytes) : Bytes :=
  let p := Modular.fold add (scalar seed) generator zero
  (Sha512.octetsOf 32 (p.2 + (p.1 % 2) <<< 255)).reverse

end CertGate.Edwards
