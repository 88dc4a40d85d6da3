import CertGate.Bytes

namespace CertGate.Asn1

abbrev Reader := StateT Bytes Option

namespace Reader

variable {α : Type}

def octets (n : Nat) : Reader Bytes := fun b ↦
  if n ≤ b.length then some (b.take n, b.drop n) else none

def octet : Reader UInt8
  | [] => none
  | b :: rest => some (b, rest)

def opt (r : Reader α) : Reader (Option α) := fun b ↦
  match r b with
  | some (a, rest) => some (some a, rest)
  | none => some (none, b)

def manyUpTo (r : Reader α) : (limit : Nat) → Reader (List α)
  | 0 => pure []
  | limit + 1 => do
    match ← opt r with
    | some a => return a :: (← manyUpTo r limit)
    | none => return []

/-- Reads as often as it can. Every reading is to take an octet at least. -/
def many (r : Reader α) : Reader (List α) := fun b ↦ manyUpTo r b.length b

def many1 (r : Reader α) : Reader (List α) := do
  match ← many r with
  | [] => failure
  | found => return found

def times (n : Nat) (r : Reader α) : Reader (List α) := (List.replicate n ()).mapM fun _ ↦ r

def all? (r : Reader α) (b : Bytes) : Option α :=
  match r b with
  | some (a, []) => some a
  | _ => none

end Reader

inductive TagClass where
  | universal
  | application
  | context
  | personal
  deriving DecidableEq

structure Tag where
  tagClass : TagClass
  constructed : Bool
  number : Nat
  deriving DecidableEq

structure Element where
  tag : Tag
  content : Bytes
  deriving DecidableEq

namespace Tag

def boolean : Nat := 1
def integer : Nat := 2
def bitString : Nat := 3
def octetString : Nat := 4
def oid : Nat := 6
def sequence : Nat := 16
def set : Nat := 17
def utcTime : Nat := 23
def generalizedTime : Nat := 24

end Tag

open Reader

def TagClass.ofOctet (b : UInt8) : TagClass :=
  match b.toNat / 64 with
  | 0 => .universal
  | 1 => .application
  | 2 => .context
  | _ => .personal

/-- A tag number that does not fit into the first octet: seven bits an octet, at most five octets,
of which the low 32 bits count. -/
def longNumber : (limit : Nat) → (high : Nat) → Reader Nat
  | 0, _ => failure
  | limit + 1, high => do
    let b ← octet
    let n := (high * 128 + b.toNat % 128) % (1 <<< 32)
    if b < 128 then pure n else longNumber limit n

def tag : Reader Tag := do
  let b ← octet
  let low := b.toNat % 32
  let number ← if low = 31 then longNumber 5 0 else pure low
  return ⟨.ofOctet b, b.toNat / 32 % 2 = 1, number⟩

/-- A length; none is an indefinite one. -/
def length : Reader (Option Nat) := do
  let b ← octet
  if b < 0x80 then return some b.toNat
  if b = 0x80 then return none
  if b = 0xFF then failure
  let n := Bytes.toNat (← octets (b.toNat - 0x80))
  if n < 1 <<< 64 then return some n else failure

def header : Reader (Tag × Nat) := do
  let t ← tag
  let some n ← length | failure
  return (t, n)

def element : Reader Element := do
  let (t, n) ← header
  return ⟨t, ← octets n⟩

/-- Skips elements up to the end mark, with a reader of their contents; `start` is where they begin. -/
def skipToEnd (content : Tag → Option Nat → Reader (Option Bytes)) (start : Bytes) :
    (limit : Nat) → Reader (Option Bytes)
  | 0, _ => none
  | limit + 1, b => do
    let ((t, n), rest) ← (do return (← tag, ← length) : Reader (Tag × Option Nat)) b
    let (found, after) ← content t n rest
    if found.isNone then return (some (start.take (start.length - b.length)), after)
    skipToEnd content start limit after

/-- The content of an element as it stands, of definite length or up to its end mark. The end mark
itself reads as none. -/
def anyContent : (depth : Nat) → Tag → Option Nat → Reader (Option Bytes)
  | 0, _, _ => failure
  | _ + 1, t, some n => do
    if n = 0 ∧ t.number = 0 then return none
    return some (← octets n)
  | depth + 1, t, none => fun b ↦
    if t.constructed then skipToEnd (anyContent depth) b b.length b else none

def deepestContent : Nat := 50

def anyElement : Reader Element := do
  let t ← tag
  let n ← length
  if n.isNone ∧ !t.constructed then failure
  return ⟨t, (← anyContent deepestContent t n).getD []⟩

def numbered (number : Nat) : Reader Element := do
  let e ← element
  if e.tag.number = number then return e else failure

def primitive (number : Nat) : Reader Bytes := do
  let e ← numbered number
  if e.tag.constructed then failure
  return e.content

variable {α : Type}

/-- Reads in the content of the element in front, if its tag has the given number. What is left
there is skipped. -/
def within (number : Nat) (r : Reader α) : Reader α := do
  let e ← numbered number
  (r e.content).elim failure fun found ↦ pure found.1

end CertGate.Asn1
