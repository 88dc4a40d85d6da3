namespace CertGate.Punycode

def digitChar (d : Nat) : Char :=
  if d < 26 then Char.ofNat (97 + d) else Char.ofNat (22 + d)

def digitValue? (c : Char) : Option Nat :=
  let n := c.toNat
  if 97 ≤ n ∧ n ≤ 122 then some (n - 97)
  else if 65 ≤ n ∧ n ≤ 90 then some (n - 65)
  else if 48 ≤ n ∧ n ≤ 57 then some (n - 22)
  else none

def threshold (bias k : Nat) : Nat := max 1 (min 26 (k - bias))

theorem threshold_pos (bias k : Nat) : 1 ≤ threshold bias k := Nat.le_max_left ..

theorem threshold_le (bias k : Nat) : threshold bias k ≤ 26 := by
  unfold threshold; omega

def settle (delta k : Nat) : Nat :=
  if 455 < delta then settle (delta / 35) (k + 36) else k + 36 * delta / (delta + 38)
termination_by delta
decreasing_by omega

def adapt (delta length : Nat) (first : Bool) : Nat :=
  let delta := if first then delta / 700 else delta / 2
  settle (delta + delta / length) 0

def digits (bias k q : Nat) : List Char :=
  let t := threshold bias k
  if q < t then [digitChar q]
  else digitChar (t + (q - t) % (36 - t)) :: digits bias (k + 36) ((q - t) / (36 - t))
termination_by q
decreasing_by
  have h₁ := threshold_pos bias k
  have h₂ := threshold_le bias k
  exact Nat.lt_of_le_of_lt (Nat.div_le_self _ _) (by omega)

structure Encoder where
  out : List Char
  delta : Nat
  bias : Nat
  handled : Nat

def Encoder.see (basic n : Nat) (e : Encoder) (c : Char) : Encoder :=
  if c.toNat < n then { e with delta := e.delta + 1 }
  else if c.toNat = n then
    { out := e.out ++ digits e.bias 36 e.delta
      delta := 0
      bias := adapt e.delta (e.handled + 1) (e.handled == basic)
      handled := e.handled + 1 }
  else e

/-- Writes the characters of the text that are `n` or more, those of each value in one pass. -/
def encodeFrom (text : List Char) (basic : Nat) : (values : List Nat) → (n : Nat) → Encoder → Encoder
  | [], _, e => e
  | m :: values, n, e =>
    let e := text.foldl (Encoder.see basic m) { e with delta := e.delta + (m - n) * (e.handled + 1) }
    encodeFrom text basic values (m + 1) { e with delta := e.delta + 1 }

def isBasic (c : Char) : Bool := c.toNat < 128

def encode (text : List Char) : List Char :=
  let basic := text.filter isBasic
  let values := ((text.filter (!isBasic ·)).map Char.toNat).eraseDups.mergeSort
  let e := encodeFrom text basic.length values 128 ⟨[], 0, 72, basic.length⟩
  basic ++ (if basic = [] then [] else ['-']) ++ e.out

/-- Reads one difference onto `i`, with `w` the weight of its next digit. -/
def difference? (bias : Nat) : (k w i : Nat) → List Char → Option (Nat × List Char)
  | _, _, _, [] => none
  | k, w, i, c :: rest => do
    let d ← digitValue? c
    let t := threshold bias k
    if d < t then return (i + d * w, rest) else difference? bias (k + 36) (w * (36 - t)) (i + d * w) rest

def decodeFrom : (fuel : Nat) → (n i bias : Nat) → List Char → List Char → Option (List Char)
  | _, _, _, _, out, [] => some out
  | 0, _, _, _, _, _ => none
  | fuel + 1, n, i, bias, out, rest => do
    let (j, rest) ← difference? bias 36 1 i rest
    let length := out.length + 1
    let n := n + j / length
    guard n.isValidChar
    let place := j % length
    decodeFrom fuel n (place + 1) (adapt (j - i) length (i == 0))
      (out.take place ++ Char.ofNat n :: out.drop place) rest

/-- The basic characters stand before the last hyphen. -/
def decode? (text : List Char) : Option (List Char) :=
  let tail := (text.reverse.takeWhile (· != '-')).reverse
  let basic := text.take (text.length - tail.length - 1)
  if !text.all isBasic then none
  else decodeFrom tail.length 128 0 72 basic tail

end CertGate.Punycode
