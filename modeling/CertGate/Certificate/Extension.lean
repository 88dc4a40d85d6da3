import CertGate.Certificate.Name

namespace CertGate

structure Extension where
  oid : Asn1.Oid
  critical : Bool
  value : Bytes
  deriving DecidableEq

namespace Extension

open Asn1

def read : Reader Extension :=
  within Tag.sequence do
    let id ← Asn1.oid
    let critical ← Reader.opt boolean
    return ⟨id, critical.getD false, ← octetString⟩

def readAll : Reader (List Extension) := do
  let e ← numbered Tag.sequence
  ((Reader.many read).all? e.content).elim failure pure

def readTail (number : Nat) : Reader (List Extension) := fun b ↦
  if b = [] then some ([], []) else do
    let ((t, _), rest) ← header b
    guard (t.number = number)
    return (← readAll.all? rest, [])

def explicit {α : Type} (number : Nat) (r : Reader α) : Reader α := do
  let e ← numbered number
  if e.tag.tagClass ≠ .context ∨ !e.tag.constructed then failure
  (r e.content).elim failure fun found ↦ pure found.1

def generalName : Reader (Option String) := do
  let e ← element
  if e.tag.tagClass ≠ .context then failure
  match e.tag.number with
  | 0 => (Asn1.oid e.content).elim failure fun _ ↦ pure none
  | 4 => (Attribute.readName.all? e.content).elim failure fun _ ↦ pure none
  | 6 => pure (Utf8.decode? e.content)
  | 1 | 2 | 3 | 5 | 7 | 8 => pure none
  | _ => failure

def pointName : Reader (List String) := do
  let (t, _) ← header
  match t.number with
  | 0 => return (← Reader.many1 generalName).filterMap id
  | 1 =>
    let _ ← within Tag.set (Reader.many1 Attribute.read)
    return []
  | _ => failure

def point : Reader (List String) :=
  within Tag.sequence do
    return (← Reader.opt (explicit 0 pointName)).getD []

def pointsOid : Oid := [0x55, 0x1D, 0x1F]

/-- The URIs of the distribution points that an extension lists; none if it is of another kind or
cannot be read. -/
def points (x : Extension) : List String :=
  if x.oid = pointsOid then
    match numbered Tag.sequence x.value with
    | some (e, _) => (((Reader.many point).all? e.content).getD []).flatten
    | none => []
  else []

end Extension

end CertGate
