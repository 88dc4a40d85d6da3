import CertGate.Environment
import CertGate.Text.Blank
import CertGate.Text.Decimal

namespace CertGate.Settings.Variable

open Text (isBlank trim)

def isSpace (c : Char) : Bool := c == ' ' || ('\t' ≤ c && c ≤ '\n') || c == '\x0c' || c == '\r'

def skipSpaces (cs : List Char) : List Char := cs.dropWhile isSpace

def isSeparator (c : Char) : Bool := [',', '\x7b', '\x7d', '[', ']'].contains c

def simpleEscapes : List (Char × Char) := [
  ('"', '"'), ('\\', '\\'), ('b', '\x08'), ('f', '\x0c'), ('n', '\n'), ('r', '\r'), ('t', '\t')]

def hexEscape? (count : Nat) (cs : List Char) : Option Char :=
  let ds := cs.take count
  let n := Url.ofDigits 16 ds
  if ds.length = count ∧ ds.all Url.isHexDigit ∧ n.isValidChar then some (Char.ofNat n) else none

/-- The rest of a quoted text, up to and with its closing quote. Controls other than tabs do not
stand in it. -/
def quoted? : (skip : Nat) → List Char → Option (List Char × List Char)
  | _, [] => none
  | skip + 1, _ :: cs => quoted? skip cs
  | 0, '"' :: cs => some ([], cs)
  | 0, '\\' :: cs =>
    match cs with
    | 'u' :: ds => do
      let (text, rest) ← quoted? 5 cs
      return ((← hexEscape? 4 ds) :: text, rest)
    | 'U' :: ds => do
      let (text, rest) ← quoted? 9 cs
      return ((← hexEscape? 8 ds) :: text, rest)
    | c :: _ => do
      let (text, rest) ← quoted? 1 cs
      return ((← simpleEscapes.lookup c) :: text, rest)
    | [] => none
  | 0, c :: cs =>
    if c = '\t' ∨ (' ' ≤ c ∧ c ≠ '\x7f') then (quoted? 0 cs).map fun (text, rest) ↦ (c :: text, rest)
    else none

/-- Text without quotes: a number if it reads as one. Only text with a point is tried as a
fraction. -/
def bare (cs : List Char) : Datum :=
  let s := String.ofList (trim cs)
  match (if cs.contains '.' then Decimal.float? s else none) with
  | some x => .number (.double x.toBits)
  | none =>
    let (negative, ds) := Decimal.sign s.toList
    let n := Url.ofDigits 10 ds
    if ds = [] ∨ !ds.all Char.isDigit then .text s
    else if negative then if n ≤ 1 <<< 63 then .number (.int (-n)) else .text s
    else if n < 1 <<< 64 then .number (.int n)
    else .text s

def isKeyChar (c : Char) : Bool := c.isAlphanum || c == '_' || c == '-'

def key? (cs : List Char) : Option (String × List Char) :=
  match skipSpaces cs with
  | '"' :: cs => (quoted? 0 cs).map fun (text, rest) ↦ (String.ofList text, rest)
  | cs =>
    let name := cs.takeWhile isKeyChar
    if name = [] then none else some (String.ofList name, cs.dropWhile isKeyChar)

mutual

def value? : (fuel : Nat) → List Char → Option (Datum × List Char)
  | 0, _ => none
  | fuel + 1, cs =>
    let closed (found : Option (Datum × List Char)) := found.map fun (d, rest) ↦ (d, skipSpaces rest)
    match skipSpaces cs with
    | 't' :: 'r' :: 'u' :: 'e' :: rest => closed (some (.bool true, rest))
    | 'f' :: 'a' :: 'l' :: 's' :: 'e' :: rest => closed (some (.bool false, rest))
    | '\x7b' :: rest => closed ((fields? fuel rest).map fun (fs, rest) ↦ (.record (Datum.latest fs), rest))
    | '[' :: rest => closed ((items? fuel rest).map fun (ds, rest) ↦ (.list ds, rest))
    | '"' :: rest => closed ((quoted? 0 rest).map fun (text, rest) ↦ (.text (String.ofList text), rest))
    | '\'' :: rest =>
      match rest with
      | c :: '\'' :: rest => closed (some (.text (String.singleton c), rest))
      | _ => none
    | cs => some (bare (cs.takeWhile (!isSeparator ·)), cs.dropWhile (!isSeparator ·))

def items? : (fuel : Nat) → List Char → Option (List Datum × List Char)
  | 0, _ => none
  | _ + 1, ']' :: rest => some ([], rest)
  | fuel + 1, cs => do
    let (d, rest) ← value? fuel cs
    match rest with
    | ',' :: rest =>
      let (ds, rest) ← items? fuel rest
      return (d :: ds, rest)
    | ']' :: rest => return ([d], rest)
    | _ => none

def fields? : (fuel : Nat) → List Char → Option (List (String × Datum) × List Char)
  | 0, _ => none
  | _ + 1, '\x7d' :: rest => some ([], rest)
  | fuel + 1, cs => do
    let (name, rest) ← key? cs
    match skipSpaces rest with
    | '=' :: rest =>
      let (d, rest) ← value? fuel rest
      match skipSpaces rest with
      | ',' :: rest =>
        let (fs, rest) ← fields? fuel rest
        return ((name, d) :: fs, rest)
      | '\x7d' :: rest => return ([(name, d)], rest)
      | _ => none
    | _ => none

end

/-- The value of a variable. What does not read as a value as a whole is the text that it is. -/
def datum (s : String) : Datum :=
  match value? (2 * s.length + 2) s.toList with
  | some (d, []) => d
  | _ => .text s

def start : List Char := "AUTHN_GATEWAY_".toList

def withPoints : List Char → List Char
  | '_' :: '_' :: cs => '.' :: withPoints cs
  | c :: cs => c :: withPoints cs
  | [] => []

/-- The path of the setting that a variable is for. No level has an empty name, and case does not
count. -/
def path? (name : String) : Option (List String) :=
  let cs := trim name.toList
  if (cs.take start.length).map Char.toUpper = start then
    let levels := Url.splitOn '.' (trim (withPoints (cs.drop start.length)))
    if levels.contains [] then none
    else some (levels.map fun l ↦ String.ofList (l.map Char.toLower))
  else none

def nested : (path : List String) → Datum → Datum
  | [], d => d
  | name :: path, d => .record [(name, nested path d)]

def record (e : Environment) : Datum :=
  e.entries.foldl
    (fun lower v ↦
      match path? v.1 with
      | some path => Datum.layer lower (nested path (datum v.2))
      | none => lower)
    (.record [])

end CertGate.Settings.Variable
