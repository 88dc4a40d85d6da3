import CertGate.Asn1.Element

namespace CertGate.Asn1.Strict

open Reader (octet octets)

variable {α : Type}

/-- The length octets of a length: one below 128, and else as many as the number needs, counted in
front. -/
def lengthOctets (n : Nat) : Bytes :=
  if n < 128 then [UInt8.ofNat n]
  else
    let digits := natOctets n
    UInt8.ofNat (0x80 + digits.length) :: digits
where
  natOctets (n : Nat) : Bytes := if n = 0 then [] else natOctets (n / 256) ++ [UInt8.ofNat (n % 256)]

def write (tag : UInt8) (content : Bytes) : Bytes := tag :: lengthOctets content.length ++ content

def writeNat (n : Nat) : Bytes :=
  let digits := lengthOctets.natOctets n
  write 0x02 <| if digits = [] ∨ 0x80 ≤ digits.headD 0 then 0 :: digits else digits

def length : Reader Nat := do
  let b ← octet
  if b < 0x80 then return b.toNat
  if b < 0x81 ∨ 0x84 < b then failure
  let digits ← octets (b.toNat - 0x80)
  let n := Bytes.toNat digits
  if digits.headD 0 = 0 ∨ n < 128 then failure
  return n

def content (tag : UInt8) : Reader Bytes := do
  let t ← octet
  if t % 32 = 31 ∨ t ≠ tag then failure
  octets (← length)

def within (tag : UInt8) (r : Reader α) : Reader α := do
  match Reader.all? r (← content tag) with
  | some a => return a
  | none => failure

/-- Reads an element that may be missing, but only if the one in front has another tag. -/
def optional (tag : UInt8) (r : Reader α) : Reader (Option α) := fun b ↦
  if b.head? = some tag then (r b).map fun found ↦ (some found.1, found.2) else some (none, b)

def atEnd : Reader Bool := fun b ↦ some (b = [], b)

def untilEnd (r : Reader α) : Reader (List α) := fun b ↦ go b.length b
where
  go : (limit : Nat) → Reader (List α)
    | _, [] => some ([], [])
    | 0, _ => none
    | limit + 1, b => do
      let (a, rest) ← r b
      let (more, rest) ← go limit rest
      return (a :: more, rest)

def rest : Reader Bytes := fun b ↦ some (b, [])

/-- A number from 0 on, without a leading zero that its sign does not ask for. -/
def natural : Reader Nat := do
  let b ← content 0x02
  match b with
  | [] => failure
  | [a] => if a < 0x80 then return a.toNat else failure
  | a :: c :: _ => if a < 0x80 ∧ (a ≠ 0 ∨ 0x80 ≤ c) then return Bytes.toNat b else failure

def boolean : Reader Bool := do
  match ← content 0x01 with
  | [0x00] => return false
  | [0xFF] => return true
  | _ => failure

def wholeBits : Reader Bytes := do
  match ← content 0x03 with
  | 0 :: bits => return bits
  | _ => failure

end CertGate.Asn1.Strict
