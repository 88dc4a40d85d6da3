import CertGate.Bytes

namespace CertGate.Base64

def letter (n : Nat) : Char :=
  if n < 26 then Char.ofNat (65 + n)
  else if n < 52 then Char.ofNat (71 + n)
  else if n < 62 then Char.ofNat (n - 4)
  else if n = 62 then '+'
  else '/'

def value? (b : UInt8) : Option Nat :=
  if 65 ≤ b ∧ b ≤ 90 then some (b.toNat - 65)
  else if 97 ≤ b ∧ b ≤ 122 then some (b.toNat - 71)
  else if 48 ≤ b ∧ b ≤ 57 then some (b.toNat + 4)
  else if b = 0x2B then some 62
  else if b = 0x2F then some 63
  else none

def encode : Bytes → List Char
  | [] => []
  | [a] =>
    let n := a.toNat <<< 16
    [letter (n >>> 18), letter (n >>> 12 % 64), '=', '=']
  | [a, b] =>
    let n := a.toNat <<< 16 + b.toNat <<< 8
    [letter (n >>> 18), letter (n >>> 12 % 64), letter (n >>> 6 % 64), '=']
  | a :: b :: c :: rest =>
    let n := a.toNat <<< 16 + b.toNat <<< 8 + c.toNat
    letter (n >>> 18) :: letter (n >>> 12 % 64) :: letter (n >>> 6 % 64) :: letter (n % 64) ::
      encode rest

def isBlank (b : UInt8) : Bool := b == 0x20 || b == 0x09 || b == 0x0A || b == 0x0D

/-- The octets of groups of four letters; the last group may be shorter, but not a single letter. -/
def ofValues? : List Nat → Option Bytes
  | [] => some []
  | [_] => none
  | [a, b] => some [UInt8.ofNat (a * 4 + b / 16)]
  | [a, b, c] => some [UInt8.ofNat (a * 4 + b / 16), UInt8.ofNat (b % 16 * 16 + c / 4)]
  | a :: b :: c :: d :: rest =>
    (ofValues? rest).map fun tail ↦
      UInt8.ofNat (a * 4 + b / 16) :: UInt8.ofNat (b % 16 * 16 + c / 4) ::
        UInt8.ofNat (c % 4 * 64 + d) :: tail

/-- Reads base64 with blanks anywhere. Padding may be left out, and completes a group of four at
most; nothing may follow it. -/
def decode? (text : Bytes) : Option Bytes := do
  let letters := text.filter (!isBlank ·)
  let padding := letters.dropWhile (· != 0x3D)
  let values ← (letters.takeWhile (· != 0x3D)).mapM value?
  guard (padding.all (· == 0x3D) && padding.length ≤ 2 &&
    (padding == [] || (values.length + padding.length) % 4 == 0))
  ofValues? values

end CertGate.Base64
