namespace CertGate

structure Instant where
  seconds : Int
  nanoseconds : Nat := 0
  deriving DecidableEq, Inhabited

namespace Instant

def before (a b : Instant) : Bool :=
  a.seconds < b.seconds || (a.seconds == b.seconds && a.nanoseconds < b.nanoseconds)

def isLeap (year : Int) : Bool := year % 4 == 0 && (year % 100 != 0 || year % 400 == 0)

def daysInMonth (year : Int) (month : Nat) : Nat :=
  if month = 2 then if isLeap year then 29 else 28
  else if month = 4 ∨ month = 6 ∨ month = 9 ∨ month = 11 then 30
  else 31

/-- The days from the start of 1970 to a date. Years are counted from March, so that a leap day is
the last of its year. -/
def daysFromDate (year : Int) (month day : Nat) : Int :=
  let y := if month ≤ 2 then year - 1 else year
  let m : Int := (month + 9 : Nat) % 12
  let era := y / 400
  let yearOfEra := y - era * 400
  let dayOfYear := (153 * m + 2) / 5 + day - 1
  era * 146097 + yearOfEra * 365 + yearOfEra / 4 - yearOfEra / 100 + dayOfYear - 719468

structure Date where
  year : Int
  month : Nat
  day : Nat
  deriving DecidableEq

def dateFromDays (days : Int) : Date :=
  let z := days + 719468
  let era := z / 146097
  let dayOfEra := z - era * 146097
  let yearOfEra := (dayOfEra - dayOfEra / 1460 + dayOfEra / 36524 - dayOfEra / 146096) / 365
  let dayOfYear := dayOfEra - (365 * yearOfEra + yearOfEra / 4 - yearOfEra / 100)
  let m := (5 * dayOfYear + 2) / 153
  let month := if m < 10 then m + 3 else m - 9
  let year := yearOfEra + era * 400
  ⟨if month ≤ 2 then year + 1 else year, month.toNat, (dayOfYear - (153 * m + 2) / 5 + 1).toNat⟩

def ofDate (year : Int) (month day hour minute second : Nat) : Instant :=
  ⟨daysFromDate year month day * 86400 + hour * 3600 + minute * 60 + second, 0⟩

def padded (width n : Nat) : String :=
  let digits := Nat.toDigits 10 n
  String.ofList (List.replicate (width - digits.length) '0' ++ digits)

def text (i : Instant) : String :=
  let d := dateFromDays (i.seconds / 86400)
  let s := (i.seconds % 86400).toNat
  let year := (if d.year < 0 then "-" else "") ++ padded 4 d.year.natAbs
  s!"{year}-{padded 2 d.month}-{padded 2 d.day}T{padded 2 (s / 3600)}:{padded 2 (s / 60 % 60)}:" ++
    s!"{padded 2 (s % 60)}Z"

end Instant

end CertGate
