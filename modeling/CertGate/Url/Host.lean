import CertGate.Text.Percent
import CertGate.Url.Idna

namespace CertGate.Url

inductive Host where
  | domain (name : String)
  | ipv4 (address : Nat)
  | ipv6 (pieces : List Nat)
  | opaqueName (name : String)
  deriving DecidableEq, Inhabited

def splitOn (sep : Char) : List Char → List (List Char)
  | [] => [[]]
  | c :: cs =>
    if c = sep then [] :: splitOn sep cs
    else
      match splitOn sep cs with
      | [] => [[c]]
      | x :: xs => (c :: x) :: xs

def digitValue (c : Char) : Nat :=
  let n := c.toNat
  if n ≤ 57 then n - 48 else if 97 ≤ n then n - 87 else n - 55

def isHexDigit (c : Char) : Bool :=
  c.isDigit || ('a' ≤ c && c ≤ 'f') || ('A' ≤ c && c ≤ 'F')

def ofDigits (base : Nat) (cs : List Char) : Nat := cs.foldl (fun n c ↦ n * base + digitValue c) 0

/-- A part of an IPv4 address: hexadecimal after `0x`, octal after `0`, else decimal. -/
def ipv4Number? (cs : List Char) : Option Nat :=
  let n? :=
    match cs with
    | [] => none
    | '0' :: 'x' :: ds | '0' :: 'X' :: ds =>
      if ds.all isHexDigit then some (ofDigits 16 ds) else none
    | '0' :: d :: ds =>
      if (d :: ds).all fun c ↦ '0' ≤ c && c ≤ '7' then some (ofDigits 8 (d :: ds)) else none
    | ds => if ds.all Char.isDigit then some (ofDigits 10 ds) else none
  n?.bind fun n ↦ if n < 1 <<< 32 then some n else none

def dottedParts (cs : List Char) : List (List Char) :=
  let parts := splitOn '.' cs
  if parts.length ≠ 1 ∧ parts.getLast? = some [] then parts.dropLast else parts

def endsInNumber (cs : List Char) : Bool :=
  match (dottedParts cs).getLast? with
  | some (c :: last) => (c :: last).all Char.isDigit || (ipv4Number? (c :: last)).isSome
  | _ => false

def ipv4? (cs : List Char) : Option Nat := do
  let numbers ← (dottedParts cs).mapM ipv4Number?
  guard (numbers.length ≤ 4)
  let last ← numbers.getLast?
  guard (numbers.dropLast.all (· ≤ 255))
  guard (last < 1 <<< (8 * (5 - numbers.length)))
  return numbers.dropLast.zipIdx.foldl (fun total (n, i) ↦ total + n <<< (8 * (3 - i))) last

def octet? (cs : List Char) : Option Nat :=
  if cs ≠ [] ∧ cs.all Char.isDigit ∧ (cs.length = 1 ∨ cs.head? ≠ some '0') ∧ cs.length ≤ 3 ∧
      ofDigits 10 cs ≤ 255 then
    some (ofDigits 10 cs)
  else none

def dottedPieces? (cs : List Char) : Option (List Nat) :=
  match (splitOn '.' cs).mapM octet? with
  | some [a, b, c, d] => some [a * 256 + b, c * 256 + d]
  | _ => none

/-- The pieces of a run without `::`; only the last one may be an IPv4 address. -/
def pieces? (atEnd : Bool) : List (List Char) → Option (List Nat)
  | [] => some []
  | [p] =>
    if atEnd ∧ p.contains '.' then dottedPieces? p
    else if p ≠ [] ∧ p.length ≤ 4 ∧ p.all isHexDigit then some [ofDigits 16 p]
    else none
  | p :: ps =>
    if p ≠ [] ∧ p.length ≤ 4 ∧ p.all isHexDigit then
      (pieces? atEnd ps).map (ofDigits 16 p :: ·)
    else none

def cutAtGap : List Char → Option (List Char × List Char)
  | ':' :: ':' :: rest => some ([], rest)
  | c :: rest => (cutAtGap rest).map fun (a, b) ↦ (c :: a, b)
  | [] => none

def run? (atEnd : Bool) (cs : List Char) : Option (List Nat) :=
  if cs = [] then some [] else pieces? atEnd (splitOn ':' cs)

def ipv6? (cs : List Char) : Option (List Nat) :=
  match cutAtGap cs with
  | none => do
    let ps ← run? true cs
    guard (ps.length = 8)
    return ps
  | some (before, after) => do
    let front ← run? false before
    let back ← run? true after
    guard (front.length + back.length ≤ 7)
    return front ++ List.replicate (8 - front.length - back.length) 0 ++ back

def longestZeros (pieces : List Nat) : Nat × Nat :=
  ((List.range pieces.length).map fun i ↦ (i, ((pieces.drop i).takeWhile (· == 0)).length)).foldl
    (fun best r ↦ if best.2 < r.2 then r else best) (0, 0)

def hex (n : Nat) : String := String.ofList (Nat.toDigits 16 n)

def ipv4Text (n : Nat) : String :=
  s!"{n >>> 24}.{n >>> 16 % 256}.{n >>> 8 % 256}.{n % 256}"

/-- A run of two or more zero pieces is written `::`. -/
def ipv6Text (pieces : List Nat) : String :=
  let (start, length) := longestZeros pieces
  if length < 2 then String.intercalate ":" (pieces.map hex)
  else String.intercalate ":" ((pieces.take start).map hex) ++ "::" ++
    String.intercalate ":" ((pieces.drop (start + length)).map hex)

def Host.text : Host → String
  | domain name => name
  | ipv4 n => ipv4Text n
  | ipv6 pieces => s!"[{ipv6Text pieces}]"
  | opaqueName name => name

def isForbiddenInHost (c : Char) : Bool :=
  c == '\x00' || "\t\n\r #/:<>?@[\\]^|".toList.contains c

def isForbiddenInDomain (c : Char) : Bool :=
  isForbiddenInHost c || c.toNat < 0x20 || c == '%' || c == '\x7f'

def hexUpper (n : Nat) : Char := if n < 10 then Char.ofNat (48 + n) else Char.ofNat (55 + n)

def escapeOctet (b : UInt8) : List Char := ['%', hexUpper (b.toNat / 16), hexUpper (b.toNat % 16)]

def escape (inClass : Char → Bool) (cs : List Char) : List Char :=
  cs.flatMap fun c ↦ if inClass c then (String.utf8EncodeChar c).flatMap escapeOctet else [c]

/-- Controls and everything beyond ASCII: the class that is escaped everywhere. -/
def isControl (c : Char) : Bool := c.toNat < 0x20 || 0x7E < c.toNat

def domain? (cs : List Char) : Option Host := do
  let decoded ← Utf8.decode? (Percent.decode (Utf8.encode (String.ofList cs)))
  let ascii ← Idna.toAscii? decoded.toList
  guard (ascii ≠ [] ∧ !ascii.any isForbiddenInDomain)
  if endsInNumber ascii then (ipv4? ascii).map Host.ipv4
  else return .domain (String.ofList ascii)

def host? (special : Bool) (cs : List Char) : Option Host :=
  match cs with
  | '[' :: rest =>
    if rest.getLast? = some ']' then (ipv6? rest.dropLast).map Host.ipv6 else none
  | _ =>
    if special then domain? cs
    else if cs.any isForbiddenInHost then none
    else some (.opaqueName (String.ofList (escape isControl cs)))

end CertGate.Url
