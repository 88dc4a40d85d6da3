import CertGate.Bytes
import CertGate.Datum

namespace CertGate.Json

def maxWord : Nat := 0xFFFFFFFFFFFFFFFF

def digits (b : Bytes) : List Nat := (b.takeWhile Bytes.isDigit).map fun d ↦ d.toNat - 48

/-- Appends digits to a significand while it stays a 64-bit word: the result, and the number of
digits taken and of digits left. Once a digit is left all later ones are. -/
def appendDigits (significand : Nat) : List Nat → Nat × Nat × Nat
  | [] => (significand, 0, 0)
  | d :: ds =>
    if significand * 10 + d ≤ maxWord then
      let (s, taken, left) := appendDigits (significand * 10 + d) ds
      (s, taken + 1, left)
    else (significand, 0, ds.length + 1)

/-- `x` times ten to the power `exponent`, by one multiplication or division where the power is a
double; none if it overflows. -/
def scaled (x : Float) (exponent : Int) : Option Float :=
  if 0 ≤ exponent then
    if exponent ≤ 308 then
      let y := x * Float.ofScientific 1 false exponent.toNat
      if y.isInf then none else some y
    else if x == 0 then some x else none
  else if -308 ≤ exponent then some (x / Float.ofScientific 1 false (-exponent).toNat)
  else if -616 ≤ exponent then
    some (x / Float.ofScientific 1 false 308 / Float.ofScientific 1 false (-exponent - 308).toNat)
  else some (x / Float.ofScientific 1 false 308 / Float.ofScientific 1 false 308 /
    Float.ofScientific 1 false 308)

structure Literal where
  negative : Bool
  whole : List Nat
  fraction : Option (List Nat)
  exponent : Option Int

def Literal.value? (l : Literal) : Option Number :=
  let (whole, _, left) := appendDigits 0 l.whole
  let (significand, taken, _) := appendDigits whole (l.fraction.getD [])
  let magnitude := UInt64.toFloat (UInt64.ofNat significand)
  let double (x : Float) := Number.double (if l.negative then -x else x).toBits
  match l.fraction, l.exponent, left with
  | none, none, 0 =>
    if !l.negative then some (.int whole)
    else if whole = 0 ∨ 1 <<< 63 < whole then some (double magnitude)
    else some (.int (-whole))
  | _, exponent, left =>
    let exponent := exponent.getD 0
    if 0x80000000 ≤ exponent then if significand = 0 then some (double 0) else none
    else if exponent < -0x80000000 then some (double 0)
    else (scaled magnitude (exponent + left - taken)).map double

def someDigits? (b : Bytes) : Option (List Nat × Bytes) :=
  match digits b with
  | [] => none
  | ds => some (ds, b.dropWhile Bytes.isDigit)

def ofDigits (ds : List Nat) : Nat := ds.foldl (fun n d ↦ n * 10 + d) 0

def exponent? : Bytes → Option (Int × Bytes)
  | 0x2B :: rest => (someDigits? rest).map fun (ds, rest) ↦ ((ofDigits ds : Int), rest)
  | 0x2D :: rest => (someDigits? rest).map fun (ds, rest) ↦ (-(ofDigits ds : Int), rest)
  | rest => (someDigits? rest).map fun (ds, rest) ↦ ((ofDigits ds : Int), rest)

def unsigned? (negative : Bool) (b : Bytes) : Option (Literal × Bytes) := do
  let (whole, rest) ← someDigits? b
  guard (whole.length = 1 ∨ whole.head? ≠ some 0)
  let (fraction, rest) ←
    match rest with
    | 0x2E :: rest => (someDigits? rest).map fun (ds, rest) ↦ (some ds, rest)
    | _ => some (none, rest)
  let (exponent, rest) ←
    match rest with
    | 0x65 :: rest | 0x45 :: rest => (exponent? rest).map fun (e, rest) ↦ (some e, rest)
    | _ => some (none, rest)
  return (⟨negative, whole, fraction, exponent⟩, rest)

def literal? : Bytes → Option (Literal × Bytes)
  | 0x2D :: rest => unsigned? true rest
  | rest => unsigned? false rest

end CertGate.Json
