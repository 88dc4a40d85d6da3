import CertGate.Datum
import CertGate.Url.Host

namespace CertGate.Decimal

structure Parts where
  negative : Bool
  digits : List Char
  exponent : Int

def sign : List Char → Bool × List Char
  | '-' :: cs => (true, cs)
  | '+' :: cs => (false, cs)
  | cs => (false, cs)

def exponent? : List Char → Option Int
  | [] => some 0
  | c :: cs =>
    let (negative, ds) := sign cs
    if (c = 'e' ∨ c = 'E') ∧ ds ≠ [] ∧ ds.all Char.isDigit then
      some (if negative then -(Url.ofDigits 10 ds : Int) else Url.ofDigits 10 ds)
    else none

def Parts.ofText? (cs : List Char) : Option Parts := do
  let (negative, cs) := sign cs
  let whole := cs.takeWhile Char.isDigit
  let rest := cs.dropWhile Char.isDigit
  let (fraction, rest) :=
    match rest with
    | '.' :: rest => (rest.takeWhile Char.isDigit, rest.dropWhile Char.isDigit)
    | rest => ([], rest)
  guard (whole ≠ [] ∨ fraction ≠ [])
  return ⟨negative, whole ++ fraction, (← exponent? rest) - fraction.length⟩

def Parts.toFloat (p : Parts) : Float :=
  let digits := p.digits.dropWhile (· == '0')
  let magnitude :=
    if digits = [] ∨ digits.length + p.exponent < -400 then 0
    else if 400 < digits.length + p.exponent then 1 / 0
    else Float.ofScientific (Url.ofDigits 10 digits) (p.exponent < 0) p.exponent.natAbs
  if p.negative then -magnitude else magnitude

def float? (s : String) : Option Float := (Parts.ofText? s.toList).map Parts.toFloat

end CertGate.Decimal
