import CertGate.Bytes

namespace CertGate.Sha512

/-- The largest number whose `k`-th power is not above `n`, if it has at most `bits` bits. -/
def root (k n : Nat) : (bits : Nat) → (low : Nat) → Nat
  | 0, low => low
  | bits + 1, low =>
    let middle := low + 1 <<< bits
    root k n bits (if middle.pow k ≤ n then middle else low)

def isPrime (n : Nat) : Bool := 2 ≤ n && (List.range n).all fun d ↦ d < 2 || n % d != 0

def primes : List Nat := (List.range 410).filter isPrime

def fraction (k p : Nat) : UInt64 := UInt64.ofNat (root k (p <<< (64 * k)) 70 0)

def roundConstants : List UInt64 := (primes.take 80).map (fraction 3)

structure State where
  a : UInt64
  b : UInt64
  c : UInt64
  d : UInt64
  e : UInt64
  f : UInt64
  g : UInt64
  h : UInt64

def State.words (s : State) : List UInt64 := [s.a, s.b, s.c, s.d, s.e, s.f, s.g, s.h]

def State.ofWords : List UInt64 → State
  | [a, b, c, d, e, f, g, h] => ⟨a, b, c, d, e, f, g, h⟩
  | _ => ⟨0, 0, 0, 0, 0, 0, 0, 0⟩

def initial : State := .ofWords ((primes.take 8).map (fraction 2))

def rotate (x : UInt64) (n : UInt64) : UInt64 := (x >>> n) ||| (x <<< (64 - n))

def round (s : State) (constant word : UInt64) : State :=
  let choice := (s.e &&& s.f) ^^^ ((~~~ s.e) &&& s.g)
  let majority := (s.a &&& s.b) ^^^ (s.a &&& s.c) ^^^ (s.b &&& s.c)
  let t := s.h + (rotate s.e 14 ^^^ rotate s.e 18 ^^^ rotate s.e 41) + choice + constant + word
  let u := (rotate s.a 28 ^^^ rotate s.a 34 ^^^ rotate s.a 39) + majority
  ⟨t + u, s.a, s.b, s.c, s.d + t, s.e, s.f, s.g⟩

/-- Extends the words of a block, latest first, by `n` more. -/
def extend : (n : Nat) → List UInt64 → List UInt64
  | 0, ws => ws
  | n + 1, ws =>
    let s (i : Nat) : UInt64 := ws.getD (i - 1) 0
    let low := rotate (s 15) 1 ^^^ rotate (s 15) 8 ^^^ (s 15 >>> 7)
    let high := rotate (s 2) 19 ^^^ rotate (s 2) 61 ^^^ (s 2 >>> 6)
    extend n ((s 16 + low + s 7 + high) :: ws)

def words (b : Bytes) : List UInt64 :=
  (List.range (b.length / 8)).map fun i ↦ UInt64.ofNat (Bytes.toNat ((b.drop (8 * i)).take 8))

def absorb (s : State) (block : Bytes) : State :=
  let schedule := (extend 64 (words block).reverse).reverse
  let t := (roundConstants.zip schedule).foldl (fun s e ↦ round s e.1 e.2) s
  .ofWords (List.zipWith (· + ·) s.words t.words)

def octetsOf (count n : Nat) : Bytes :=
  (List.range count).reverse.map fun i ↦ UInt8.ofNat (n >>> (8 * i) % 256)

def padded (message : Bytes) : Bytes :=
  let zeros := (239 - message.length % 128) % 128
  message ++ 0x80 :: List.replicate zeros 0 ++ octetsOf 16 (8 * message.length)

def hash (message : Bytes) : Bytes :=
  let m := padded message
  let blocks := (List.range (m.length / 128)).map fun i ↦ (m.drop (128 * i)).take 128
  ((blocks.foldl absorb initial).words).flatMap fun w ↦ octetsOf 8 w.toNat

end CertGate.Sha512
