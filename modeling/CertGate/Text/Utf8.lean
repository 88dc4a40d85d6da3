import CertGate.Bytes

namespace CertGate.Utf8

def encode (s : String) : Bytes := s.toList.flatMap String.utf8EncodeChar

def isContinuation (b : UInt8) : Bool := 0x80 ≤ b && b ≤ 0xBF

/-- The octets that may follow a lead octet; overlong forms, surrogates and values beyond U+10FFFF
are kept out here. -/
def secondRange (lead : UInt8) : UInt8 × UInt8 :=
  if lead = 0xE0 then (0xA0, 0xBF)
  else if lead = 0xED then (0x80, 0x9F)
  else if lead = 0xF0 then (0x90, 0xBF)
  else if lead = 0xF4 then (0x80, 0x8F)
  else (0x80, 0xBF)

def trailing? (lead : UInt8) : Option Nat :=
  if lead < 0x80 then some 0
  else if 0xC2 ≤ lead ∧ lead ≤ 0xDF then some 1
  else if 0xE0 ≤ lead ∧ lead ≤ 0xEF then some 2
  else if 0xF0 ≤ lead ∧ lead ≤ 0xF4 then some 3
  else none

def continuation (lead : UInt8) (n : Nat) (rest : Bytes) : Bytes :=
  match n, rest with
  | n + 1, b :: rest =>
    if (secondRange lead).1 ≤ b ∧ b ≤ (secondRange lead).2 then
      b :: (rest.take n).takeWhile isContinuation
    else []
  | _, _ => []

def scalar (lead : UInt8) (tail : Bytes) : Nat :=
  let top :=
    match tail.length with
    | 0 => lead.toNat
    | 1 => lead.toNat % 32
    | 2 => lead.toNat % 16
    | _ => lead.toNat % 8
  tail.foldl (fun n b ↦ n * 64 + b.toNat % 64) top

/-- The character that starts the input, or none for a maximal ill-formed subpart, and the number
of octets after the first that belong to it. -/
def head (lead : UInt8) (rest : Bytes) : Option Char × Nat :=
  match trailing? lead with
  | none => (none, 0)
  | some n =>
    let tail := continuation lead n rest
    if tail.length = n then (some (Char.ofNat (scalar lead tail)), n) else (none, tail.length)

/-- The characters of the input after `skip` octets; none stands for an ill-formed subpart. -/
def units : (skip : Nat) → Bytes → List (Option Char)
  | _, [] => []
  | skip + 1, _ :: rest => units skip rest
  | 0, b :: rest => (head b rest).1 :: units (head b rest).2 rest

def decode? (b : Bytes) : Option String := ((units 0 b).mapM id).map String.ofList

def decodeLossy (b : Bytes) : String := String.ofList ((units 0 b).map (·.getD '\uFFFD'))

end CertGate.Utf8
