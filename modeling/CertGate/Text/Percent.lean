import CertGate.Text.Utf8

namespace CertGate.Percent

/-- Each `%` followed by two hexadecimal digits becomes the octet they name; any other `%` stays. -/
def decode : Bytes → Bytes
  | 0x25 :: hi :: lo :: rest =>
    match Bytes.hexValue? hi, Bytes.hexValue? lo with
    | some h, some l => UInt8.ofNat (h * 16 + l) :: decode rest
    | _, _ => 0x25 :: decode (hi :: lo :: rest)
  | b :: rest => b :: decode rest
  | [] => []

end CertGate.Percent

namespace CertGate.Form

def splitOn (sep : UInt8) : Bytes → List Bytes
  | [] => [[]]
  | b :: rest =>
    if b = sep then [] :: splitOn sep rest
    else
      match splitOn sep rest with
      | [] => [[b]]
      | piece :: pieces => (b :: piece) :: pieces

/-- In a form-encoded name or value `+` is a space, and the octets are read leniently as UTF-8. -/
def decodePart (b : Bytes) : String :=
  Utf8.decodeLossy (Percent.decode (b.map fun x ↦ if x = 0x2B then 0x20 else x))

/-- A piece is cut at its first `=`; without one its value is empty. -/
def decodePair (b : Bytes) : String × String :=
  (decodePart (b.takeWhile (· != 0x3D)), decodePart ((b.dropWhile (· != 0x3D)).drop 1))

/-- The pairs of a form-encoded query, in order; empty pieces between `&` are dropped. -/
def pairs (query : Bytes) : List (String × String) :=
  ((splitOn 0x26 query).filter (!·.isEmpty)).map decodePair

end CertGate.Form
