import CertGate.Asn1.Element
import CertGate.Text.Utf8

namespace CertGate.Asn1

def isShortest : Bytes → Bool
  | [] => false
  | [_] => true
  | a :: b :: _ => !(a = 0x00 && b < 0x80) && !(a = 0xFF && 0x80 ≤ b)

def word : Reader Nat := do
  let b ← primitive Tag.integer
  if isShortest b ∧ b.headD 0 < 0x80 ∧ Bytes.toNat b < 1 <<< 32 then return Bytes.toNat b
  else failure

def serial : Reader Nat := do
  let e ← anyElement
  if e.tag.number = Tag.integer then return Bytes.toNat e.content else failure

def boolean : Reader Bool := do
  let e ← anyElement
  match e.content with
  | [b] => if e.tag.number = Tag.boolean ∧ !e.tag.constructed then return b ≠ 0 else failure
  | _ => failure

def octetString : Reader Bytes := primitive Tag.octetString

def trailingZeros (b : UInt8) : Nat :=
  ((List.range 8).takeWhile fun i ↦ b.toNat >>> i % 2 = 0).length

/-- Whether the first octet of a bit string counts bits at its end that are there and are zero. -/
def isBitString : Bytes → Bool
  | [] => false
  | [unused] => unused = 0
  | unused :: bits => unused.toNat ≤ trailingZeros (bits.getLastD 0)

def bitString : Reader Bytes := do
  let b ← primitive Tag.bitString
  if isBitString b then return b else failure

abbrev Oid := Bytes

namespace Oid

/-- The numbers of the octets after the first, in base 128; the last octet of each is below 128. -/
def arcs : (high : Nat) → (inArc : Bool) → Bytes → List Nat
  | high, inArc, [] => if inArc then [high] else []
  | high, _, b :: rest =>
    let n := (high * 128 + b.toNat % 128) % (1 <<< 64)
    if b < 128 then n :: arcs 0 false rest else arcs n true rest

def longestArc : (current : Nat) → Bytes → Nat
  | _, [] => 0
  | current, b :: rest =>
    if b < 128 then max (current + 1) (longestArc 0 rest) else longestArc (current + 1) rest

def numbers : Oid → List Nat
  | [] => []
  | [0] => [0]
  | first :: rest => first.toNat / 40 :: first.toNat % 40 :: arcs 0 false rest

/-- The dotted numbers; an identifier with a number beyond 63 bits shows its octets instead. -/
def text (oid : Oid) : String :=
  if 9 < longestArc 0 (oid.drop 1) then
    " ".intercalate (oid.map fun b ↦ String.ofList (Bytes.hexOctet b))
  else ".".intercalate (oid.numbers.map toString)

end Oid

def oid : Reader Oid := primitive Tag.oid

def algorithm : Reader Oid :=
  within Tag.sequence do
    let id ← oid
    match ← Reader.opt (fun b ↦ (header b).map fun _ ↦ ((), b)) with
    | some _ =>
      let _ ← element
      return id
    | none => return id

end CertGate.Asn1
