import CertGate.Asn1.Element
import CertGate.Instant

namespace CertGate.Asn1.Time

def pair : Reader Nat := do
  let a ← Reader.octet
  let b ← Reader.octet
  if Bytes.isDigit a ∧ Bytes.isDigit b then return (a.toNat - 48) * 10 + (b.toNat - 48) else failure

structure Fields where
  year : Nat
  month : Nat
  day : Nat
  hour : Nat
  minute : Nat
  second : Nat
  offset : Int

def Fields.inRange (f : Fields) : Bool :=
  1 ≤ f.month && f.month ≤ 12 && 1 ≤ f.day && f.day ≤ Instant.daysInMonth f.year f.month &&
    f.hour ≤ 23 && f.minute ≤ 59 && f.second ≤ 59

def Fields.instant? (f : Fields) : Option Instant :=
  if f.inRange then
    let clock := Instant.ofDate f.year f.month f.day f.hour f.minute f.second
    some { clock with seconds := clock.seconds - f.offset * 60 }
  else none

/-- The offset that ends a time: `Z`, or hours and minutes. The sign counts for the minutes only
if there are hours. -/
def zone? : Bytes → Option Int
  | [0x5A] => some 0
  | sign :: digits => do
    let (hours, rest) ← pair digits
    let minutes ← Reader.all? pair rest
    guard (hours ≤ 25 ∧ minutes ≤ 59)
    if sign = 0x2B then return hours * 60 + minutes
    guard (sign = 0x2D)
    return if hours = 0 then minutes else -(hours * 60 + minutes : Int)
  | [] => none

/-- Seconds may be missing; two characters in their place that are no digits are skipped. -/
def optionalSeconds : Bytes → Nat × Bytes
  | a :: b :: rest =>
    match pair [a, b] with
    | some (s, _) => (s, rest)
    | none => (0, rest)
  | b => (0, b)

def fullYear (year : Nat) : Nat := if 50 ≤ year then 1900 + year else 2000 + year

def ofTwoDigitYear? (b : Bytes) : Option Instant := do
  let ([year, month, day, hour, minute], rest) ← Reader.times 5 pair b | none
  let (second, rest) := optionalSeconds rest
  Fields.instant? ⟨fullYear year, month, day, hour, minute, second, ← zone? rest⟩

/-- A fraction of a second has one to three digits, or none before the zone. -/
def skipFraction? : Bytes → Option Bytes
  | 0x2E :: rest =>
    let digits := rest.takeWhile Bytes.isDigit
    if digits.length ≤ 3 then some (rest.drop digits.length) else none
  | b => some b

/-- A time with a four-digit year is given by the standard zone. -/
def ofFourDigitYear? (b : Bytes) : Option Instant := do
  let ([century, year, month, day, hour, minute], rest) ← Reader.times 6 pair b | none
  let (second, rest) ← if rest.length ≤ 1 then some (0, rest) else pair rest
  let rest ← skipFraction? rest
  guard (rest = [0x5A])
  Fields.instant? ⟨century * 100 + year, month, day, hour, minute, second, 0⟩

def isPrintable (b : UInt8) : Bool := 0x20 ≤ b && b ≤ 0x7F

end Time

def time : Reader Instant := do
  let e ← element
  let found :=
    if !e.content.all Time.isPrintable then none
    else if e.tag.number = Tag.utcTime then Time.ofTwoDigitYear? e.content
    else if e.tag.number = Tag.generalizedTime then Time.ofFourDigitYear? e.content
    else none
  found.elim failure pure

end CertGate.Asn1
