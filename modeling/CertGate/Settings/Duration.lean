import CertGate.Text.Blank

namespace CertGate

structure Duration where
  nanoseconds : Nat
  deriving DecidableEq, Inhabited

namespace Duration

def perSecond : Nat := 1000000000

def ofSeconds (n : Nat) : Duration := ⟨n * perSecond⟩

/-- A unit is a number of nanoseconds; `grain` is the step in which a fraction of it counts, and
`step` the step in which whole ones are reckoned. -/
structure TimeUnit where
  nanoseconds : Nat
  step : Nat
  grain : Nat

def subsecond (n : Nat) : TimeUnit := ⟨n, 1, 1⟩

def short (n : Nat) : TimeUnit := ⟨n * perSecond, perSecond, 1⟩

def long (n : Nat) : TimeUnit := ⟨n * perSecond, perSecond, perSecond⟩

def unitNames : List (List String × TimeUnit) := [
  (["nanos", "nsec", "ns"], subsecond 1),
  (["usec", "us", "µs"], subsecond 1000),
  (["millis", "msec", "ms"], subsecond 1000000),
  (["seconds", "second", "secs", "sec", "s"], short 1),
  (["minutes", "minute", "mins", "min", "m"], short 60),
  (["hours", "hour", "hrs", "hr", "h"], long 3600),
  (["days", "day", "d"], long 86400),
  (["weeks", "week", "wks", "wk", "w"], long (7 * 86400)),
  (["months", "month", "M"], long 2630016),
  (["years", "year", "yrs", "yr", "y"], long 31557600)]

def unit? (name : List Char) : Option TimeUnit :=
  (unitNames.find? fun u ↦ u.1.any fun n ↦ n.toList == name).map (·.2)

def isUnitLetter (c : Char) : Bool := c.isAlpha || c == 'µ'

def maxWord : Nat := 0xFFFFFFFFFFFFFFFF

def word? (n : Nat) : Option Nat := if n ≤ maxWord then some n else none

structure Amount where
  whole : Nat
  fraction : Option (Nat × Nat)

/-- The nanoseconds of an amount of a unit. Every intermediate number has to fit in 64 bits, and
less than a nanosecond has no text. -/
def Amount.times? (a : Amount) (u : TimeUnit) : Option Nat := do
  let whole ← word? (a.whole * (u.nanoseconds / u.step))
  match a.fraction with
  | none => return whole * u.step
  | some (numerator, places) =>
    guard (u.nanoseconds ≠ 1)
    let part ← word? (numerator * (u.nanoseconds / u.grain))
    return whole * u.step + part / Nat.pow 10 places * u.grain

def add? (total part : Nat) : Option Nat :=
  if (total + part) / perSecond ≤ maxWord then some (total + part) else none

inductive Phase where
  | start
  | whole (n : Nat)
  | fraction (n numerator places : Nat)
  | unit (amount : Amount) (name : List Char)

def closeFraction? (n numerator places : Nat) : Option Amount :=
  if places = 0 then none else some ⟨n, some (numerator, places)⟩

/-- Completes a number and its unit, whose letters are given in reverse. -/
def finish? (total : Nat) (a : Amount) (name : List Char) : Option Nat := do
  let u ← unit? name.reverse
  add? total (← a.times? u)

def digit (c : Char) : Nat := c.toNat - 48

/-- Reads on from a phase, adding up the parts. White space ends a unit and is skipped elsewhere. -/
def scan : Phase → (total : Nat) → (seen : Bool) → List Char → Option Nat
  | .start, total, seen, [] => if seen then some total else none
  | .whole n, total, _, [] => finish? total ⟨n, none⟩ []
  | .fraction n f p, total, _, [] => do finish? total (← closeFraction? n f p) []
  | .unit a name, total, _, [] => finish? total a name
  | .start, total, seen, c :: cs =>
    if c.isDigit then scan (.whole (digit c)) total true cs
    else if Text.isBlank c then scan .start total seen cs
    else none
  | .whole n, total, seen, c :: cs =>
    if c.isDigit then do scan (.whole (← word? (n * 10 + digit c))) total seen cs
    else if Text.isBlank c then scan (.whole n) total seen cs
    else if isUnitLetter c then scan (.unit ⟨n, none⟩ [c]) total seen cs
    else if c = '.' then scan (.fraction n 0 0) total seen cs
    else none
  | .fraction n f p, total, seen, c :: cs =>
    if c.isDigit then
      if p < 19 then do scan (.fraction n (← word? (f * 10 + digit c)) (p + 1)) total seen cs else none
    else if Text.isBlank c then scan (.fraction n f p) total seen cs
    else if isUnitLetter c then do scan (.unit (← closeFraction? n f p) [c]) total seen cs
    else none
  | .unit a name, total, seen, c :: cs =>
    if c.isDigit then do scan (.whole (digit c)) (← finish? total a name) seen cs
    else if Text.isBlank c then do scan .start (← finish? total a name) seen cs
    else if isUnitLetter c then scan (.unit a (c :: name)) total seen cs
    else none

def ofText? (s : String) : Option Duration :=
  if s = "0" then some ⟨0⟩ else (scan .start 0 false s.toList).map Duration.mk

def part (n : Nat) (name : String) : List String := if n = 0 then [] else [s!"{n}{name}"]

def counted (n : Nat) (name : String) : List String :=
  if n = 0 then [] else if n = 1 then [s!"1{name}"] else [s!"{n}{name}s"]

/-- The duration in years, months of 30.44 days, days and so on, parts that are zero left out. -/
def text (d : Duration) : String :=
  let secs := d.nanoseconds / perSecond
  let nanos := d.nanoseconds % perSecond
  if d.nanoseconds = 0 then "0s"
  else
    let ofYear := secs % 31557600
    let ofMonth := ofYear % 2630016
    let ofDay := ofMonth % 86400
    String.intercalate " " <|
      counted (secs / 31557600) "year" ++ counted (ofYear / 2630016) "month" ++
      counted (ofMonth / 86400) "day" ++ part (ofDay / 3600) "h" ++ part (ofDay % 3600 / 60) "m" ++
      part (ofDay % 60) "s" ++ part (nanos / 1000000) "ms" ++ part (nanos / 1000 % 1000) "us" ++
      part (nanos % 1000) "ns"

end Duration

end CertGate
