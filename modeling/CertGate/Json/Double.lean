namespace CertGate.Json

structure Ratio where
  num : Nat
  den : Nat

namespace Ratio

def le (a b : Ratio) : Bool := a.num * b.den ≤ b.num * a.den

def lt (a b : Ratio) : Bool := a.num * b.den < b.num * a.den

def floor (a : Ratio) : Nat := a.num / a.den

def ofPower (n base : Nat) (exponent : Int) : Ratio :=
  if 0 ≤ exponent then ⟨n * base.pow exponent.toNat, 1⟩ else ⟨n, base.pow (-exponent).toNat⟩

def scale (a : Ratio) (exponent : Int) : Ratio :=
  if 0 ≤ exponent then ⟨a.num, a.den * Nat.pow 10 exponent.toNat⟩
  else ⟨a.num * Nat.pow 10 (-exponent).toNat, a.den⟩

def distance (a b : Ratio) : Nat :=
  max (a.num * b.den) (b.num * a.den) - min (a.num * b.den) (b.num * a.den)

end Ratio

/-- A positive finite double is `4 * significand` times two to the power `exponent`; a double below
it differs by less when the significand is the least one of its binade. -/
structure Magnitude where
  significand : Nat
  exponent : Int
  narrow : Bool

def Magnitude.ofBits (bits : Nat) : Magnitude :=
  let e : Nat := bits >>> 52 % (1 <<< 11)
  let f : Nat := bits % (1 <<< 52)
  if e = 0 then ⟨f, -1076, false⟩ else ⟨1 <<< 52 + f, (e : Int) - 1077, f = 0 ∧ 1 < e⟩

namespace Magnitude

def value (m : Magnitude) : Ratio := .ofPower (4 * m.significand) 2 m.exponent

/-- Whether a decimal rounds to the double: it is not beyond half the gap to either neighbour, and
on the half only if the significand is even. -/
def readsBack (m : Magnitude) (r : Ratio) : Bool :=
  let low := Ratio.ofPower (4 * m.significand - if m.narrow then 1 else 2) 2 m.exponent
  let high := Ratio.ofPower (4 * m.significand + 2) 2 m.exponent
  if m.significand % 2 = 0 then low.le r && r.le high else low.lt r && r.lt high

def leading (m : Magnitude) : Int :=
  (Nat.toDigits 10 (m.value.scale (-400)).floor).length - 401

/-- The decimals with `n` digits next to the double that read back as it, the nearer one first. -/
def onGrid (m : Magnitude) (n : Nat) : Option (Nat × Int) :=
  let k := m.leading - n + 1
  let d := (m.value.scale k).floor
  let near (d : Nat) := m.readsBack (.ofPower d 10 k)
  match near d, near (d + 1) with
  | true, true =>
    if Ratio.distance (m.value.scale k) ⟨d, 1⟩ ≤ Ratio.distance (m.value.scale k) ⟨d + 1, 1⟩ then
      some (d, k)
    else some (d + 1, k)
  | true, false => some (d, k)
  | false, true => some (d + 1, k)
  | false, false => none

def shortest (m : Magnitude) : Nat × Int :=
  ((List.range 17).findSome? fun n ↦ m.onGrid (n + 1)).getD (0, 0)

end Magnitude

def zeros (n : Nat) : List Char := List.replicate n '0'

/-- Positional where the point falls within or near the digits, else with an exponent. -/
def layout (ds : List Char) (k : Int) : List Char :=
  let point := ds.length + k
  if 0 ≤ k ∧ point ≤ 16 then ds ++ zeros k.toNat ++ ['.', '0']
  else if 0 < point ∧ point ≤ 16 then ds.take point.toNat ++ ['.'] ++ ds.drop point.toNat
  else if -5 < point ∧ point ≤ 0 then ['0', '.'] ++ zeros (-point).toNat ++ ds
  else
    ds.take 1 ++ (if ds.length = 1 then [] else '.' :: ds.drop 1) ++
      'e' :: (toString (point - 1)).toList

def stripZeros (n : Nat) (k : Int) : (fuel : Nat) → Nat × Int
  | 0 => (n, k)
  | fuel + 1 => if n ≠ 0 ∧ n % 10 = 0 then stripZeros (n / 10) (k + 1) fuel else (n, k)

def doubleText (bits : UInt64) : String :=
  let magnitude := bits.toNat % (1 <<< 63)
  let sign := if 1 <<< 63 ≤ bits.toNat then ['-'] else []
  String.ofList <| sign ++
    if magnitude = 0 then ['0', '.', '0']
    else
      let (n, k) := (Magnitude.ofBits magnitude).shortest
      let (n, k) := stripZeros n k 17
      layout (Nat.toDigits 10 n) k

end CertGate.Json
