namespace CertGate

abbrev Bytes := List UInt8

namespace Bytes

def toNat (b : Bytes) : Nat := b.foldl (fun n x ↦ n * 256 + x.toNat) 0

def hexDigit (n : Nat) : Char :=
  if n < 10 then Char.ofNat (48 + n) else Char.ofNat (87 + n)

def hexValue? (b : UInt8) : Option Nat :=
  if 48 ≤ b ∧ b ≤ 57 then some (b.toNat - 48)
  else if 97 ≤ b ∧ b ≤ 102 then some (b.toNat - 87)
  else if 65 ≤ b ∧ b ≤ 70 then some (b.toNat - 55)
  else none

def hexOctet (b : UInt8) : List Char := [hexDigit (b.toNat / 16), hexDigit (b.toNat % 16)]

def toHex (b : Bytes) : String := String.ofList (b.flatMap hexOctet)

def ofHexDigits? : List Char → Option Bytes
  | [] => some []
  | [_] => none
  | hi :: lo :: rest =>
    if 128 ≤ hi.toNat ∨ 128 ≤ lo.toNat then none
    else
      match hexValue? (UInt8.ofNat hi.toNat), hexValue? (UInt8.ofNat lo.toNat), ofHexDigits? rest with
      | some h, some l, some tail => some (UInt8.ofNat (h * 16 + l) :: tail)
      | _, _, _ => none

def ofHex? (s : String) : Option Bytes := ofHexDigits? s.toList

def isDigit (b : UInt8) : Bool := 48 ≤ b && b ≤ 57

end Bytes

end CertGate
