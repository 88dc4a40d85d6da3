import CertGate.Json.Number
import CertGate.Text.Utf8

namespace CertGate.Json

def isBlank (b : UInt8) : Bool := b == 0x20 || b == 0x0A || b == 0x0D || b == 0x09

def skipBlanks (b : Bytes) : Bytes := b.dropWhile isBlank

/-- What stands between the quotes of a text literal: an octet, or the UTF-16 unit of an escape. -/
inductive Piece where
  | octet (b : UInt8)
  | unit (n : Nat)

def escape? (b : UInt8) : Option UInt8 :=
  if b = 0x22 ∨ b = 0x5C ∨ b = 0x2F then some b
  else if b = 0x62 then some 0x08
  else if b = 0x66 then some 0x0C
  else if b = 0x6E then some 0x0A
  else if b = 0x72 then some 0x0D
  else if b = 0x74 then some 0x09
  else none

def hexUnit? (a b c d : UInt8) : Option Nat := do
  let a ← Bytes.hexValue? a
  let b ← Bytes.hexValue? b
  let c ← Bytes.hexValue? c
  let d ← Bytes.hexValue? d
  return ((a * 16 + b) * 16 + c) * 16 + d

def pieces? : Bytes → Option (List Piece × Bytes)
  | [] => none
  | 0x22 :: rest => some ([], rest)
  | 0x5C :: 0x75 :: a :: b :: c :: d :: rest => do
    let n ← hexUnit? a b c d
    let (ps, rest) ← pieces? rest
    return (.unit n :: ps, rest)
  | 0x5C :: e :: rest => do
    let e ← escape? e
    let (ps, rest) ← pieces? rest
    return (.octet e :: ps, rest)
  | b :: rest =>
    if b < 0x20 ∨ b = 0x5C then none
    else (pieces? rest).map fun (ps, rest) ↦ (.octet b :: ps, rest)

def encodeScalar (n : Nat) : Bytes := String.utf8EncodeChar (Char.ofNat n)

/-- The octets of a text literal; none if it has an unpaired surrogate. -/
def octets? : List Piece → Option Bytes
  | [] => some []
  | .octet b :: ps => (octets? ps).map (b :: ·)
  | .unit n :: ps =>
    if n < 0xD800 ∨ 0xDFFF < n then (octets? ps).map (encodeScalar n ++ ·)
    else
      match ps with
      | .unit m :: ps =>
        if n ≤ 0xDBFF ∧ 0xDC00 ≤ m ∧ m ≤ 0xDFFF then
          (octets? ps).map (encodeScalar (0x10000 + (n - 0xD800) * 0x400 + (m - 0xDC00)) ++ ·)
        else none
      | _ => none

def textOf? (ps : List Piece) : Option String := octets? ps >>= Utf8.decode?

def word? (word : String) (value : Datum) (b : Bytes) : Option (Datum × Bytes) :=
  let w := Utf8.encode word
  if w.isPrefixOf b then some (value, b.drop w.length) else none

/-- A record one of whose names is not Unicode is not legible either. -/
def recordOf (fields : List (Option String × Datum)) : Datum :=
  match fields.mapM fun f ↦ f.1.map fun name ↦ (name, f.2) with
  | some fields => .record fields
  | none => .illegible

mutual

def value? : (fuel : Nat) → Bytes → Option (Datum × Bytes)
  | 0, _ => none
  | fuel + 1, b =>
    match skipBlanks b with
    | 0x22 :: rest => do
      let (ps, rest) ← pieces? rest
      return ((textOf? ps).elim .illegible .text, rest)
    | 0x5B :: rest => do
      match skipBlanks rest with
      | 0x5D :: rest => return (.list [], rest)
      | _ =>
        let (items, rest) ← items? fuel rest
        return (.list items, rest)
    | 0x7B :: rest => do
      match skipBlanks rest with
      | 0x7D :: rest => return (.record [], rest)
      | _ =>
        let (fields, rest) ← fields? fuel rest
        return (recordOf fields, rest)
    | 0x6E :: rest => word? "ull" .null rest
    | 0x74 :: rest => word? "rue" (.bool true) rest
    | 0x66 :: rest => word? "alse" (.bool false) rest
    | rest => do
      let (l, rest) ← literal? rest
      return (l.value?.elim .illegible .number, rest)

def items? : (fuel : Nat) → Bytes → Option (List Datum × Bytes)
  | 0, _ => none
  | fuel + 1, b => do
    let (item, rest) ← value? fuel b
    match skipBlanks rest with
    | 0x5D :: rest => return ([item], rest)
    | 0x2C :: rest =>
      let (items, rest) ← items? fuel rest
      return (item :: items, rest)
    | _ => none

def fields? : (fuel : Nat) → Bytes → Option (List (Option String × Datum) × Bytes)
  | 0, _ => none
  | fuel + 1, b => do
    match skipBlanks b with
    | 0x22 :: rest =>
      let (name, rest) ← pieces? rest
      match skipBlanks rest with
      | 0x3A :: rest =>
        let (value, rest) ← value? fuel rest
        match skipBlanks rest with
        | 0x7D :: rest => return ([(textOf? name, value)], rest)
        | 0x2C :: rest =>
          let (fields, rest) ← fields? fuel rest
          return ((textOf? name, value) :: fields, rest)
        | _ => none
      | _ => none
    | _ => none

end

/-- The one value of a JSON text. Every step of reading uses up an octet, or goes from a list to
its first item, so twice the length of the text is fuel enough. -/
def read? (b : Bytes) : Option Datum := do
  let (d, rest) ← value? (2 * b.length + 2) b
  guard (skipBlanks rest).isEmpty
  return d

end CertGate.Json
