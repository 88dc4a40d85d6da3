import CertGate.Environment
import CertGate.Text.Alphanumeric
import CertGate.Text.Blank
import CertGate.Text.Utf8

namespace CertGate.Environment

open Text (isBlank trimStart trimEnd)

inductive Place where
  | bare
  /-- After a blank, where a comment may begin. -/
  | gap
  | escaped
  | single
  | singleEscaped
  | double
  | doubleEscaped
  | comment
  deriving DecidableEq

def Place.afterBare (c : Char) : Place :=
  if c = '\\' then escaped else if c = '"' then double else if c = '\'' then single else bare

def Place.next (p : Place) (c : Char) : Place :=
  match p with
  | bare => if isBlank c && c != '\n' && c != '\r' then gap else afterBare c
  | gap => if c = '#' then comment else afterBare c
  | escaped => bare
  | single => if c = '\\' then singleEscaped else if c = '\'' then bare else single
  | singleEscaped => single
  | double => if c = '\\' then doubleEscaped else if c = '"' then bare else double
  | doubleEscaped => double
  | comment => comment

def follow : Place → List Char → Place × List Char
  | p, [] => (p, [])
  | p, c :: cs =>
    if p.next c = .comment then (.comment, [])
    else
      let (q, kept) := follow (p.next c) cs
      (q, c :: kept)

def dropLineEnd (cs : List Char) : List Char :=
  match cs.reverse with
  | '\n' :: '\r' :: rest | '\n' :: rest => rest.reverse
  | _ => cs

/-- Joins lines where a value is not finished at the end of one; none stands for a fault. The lines
are given with their ends, none for one that is not Unicode. -/
def joinLines : Place → (sofar : List Char) → List (Option (List Char)) → List (Option (List Char))
  | p, _, [] => if p = .bare then [] else [none]
  | _, _, none :: _ => [none]
  | p, sofar, some line :: rest =>
    let all := sofar ++ line
    if (trimStart all).head? = some '#' then some [] :: joinLines .bare [] rest
    else
      match follow p line with
      | (.bare, _) => some (dropLineEnd all) :: joinLines .bare [] rest
      | (.comment, kept) => some (sofar ++ kept) :: joinLines .bare [] rest
      | (p, _) => joinLines p all rest

def byteLines : Bytes → List Bytes
  | [] => []
  | b :: rest =>
    if b = 0x0A then [b] :: byteLines rest
    else
      match byteLines rest with
      | [] => [[b]]
      | line :: more => (b :: line) :: more

def dropMark : Bytes → Bytes
  | 0xEF :: 0xBB :: 0xBF :: rest => rest
  | b => b

def logicalLines (file : Bytes) : List (Option (List Char)) :=
  joinLines .bare [] ((byteLines (dropMark file)).map fun l ↦ (Utf8.decode? l).map (·.toList))

structure Scope where
  process : Environment
  file : List (String × String) := []

def Scope.value (s : Scope) (name : List Char) : List Char :=
  let name := String.ofList name
  ((s.process.get? name).orElse fun _ ↦ s.file.lookup name).elim [] (·.toList)

/-- Where the reading of a value stands. A reference keeps its name so far, and whether it stands
between double quotes. -/
inductive Mode where
  | bare
  | ended
  | escaped (inQuotes : Bool)
  | single
  | double
  | reference (inQuotes : Bool) (name : List Char)
  | braced (inQuotes : Bool) (name : List Char)

def Mode.outside (inQuotes : Bool) : Mode := if inQuotes then double else bare

def unescaped? (c : Char) : Option Char :=
  if ['\\', '\'', '"', '$', ' '].contains c then some c else if c = 'n' then some '\n' else none

/-- The value that a text denotes. A reference without braces ends before the first character that
is no letter or number; that character is taken as it is. -/
def value? (s : Scope) : Mode → List Char → Option (List Char)
  | .bare, [] | .ended, [] | .escaped false, [] => some []
  | .reference false name, [] => some (s.value name)
  | _, [] => none
  | .ended, c :: cs =>
    if c = ' ' ∨ c = '\t' then value? s .ended cs else if c = '#' then some [] else none
  | .escaped inQuotes, c :: cs => do
    let c ← unescaped? c
    return c :: (← value? s (.outside inQuotes) cs)
  | .single, c :: cs =>
    if c = '\'' then value? s .bare cs else (value? s .single cs).map (c :: ·)
  | .reference inQuotes name, c :: cs =>
    if Text.isAlphanumeric c then value? s (.reference inQuotes (name ++ [c])) cs
    else if c = '\x7b' ∧ name = [] then value? s (.braced inQuotes []) cs
    else if c = '$' then (value? s (.reference inQuotes []) cs).map (s.value name ++ ·)
    else (value? s (.outside inQuotes) cs).map (s.value name ++ c :: ·)
  | .braced inQuotes name, c :: cs =>
    if c = '\x7d' then (value? s (.outside inQuotes) cs).map (s.value name ++ ·)
    else value? s (.braced inQuotes (name ++ [c])) cs
  | .double, c :: cs =>
    if c = '$' then value? s (.reference true []) cs
    else if c = '"' then value? s .bare cs
    else if c = '\\' then value? s (.escaped true) cs
    else (value? s .double cs).map (c :: ·)
  | .bare, c :: cs =>
    if c = '$' then value? s (.reference false []) cs
    else if c = '\'' then value? s .single cs
    else if c = '"' then value? s .double cs
    else if c = '\\' then value? s (.escaped false) cs
    else if c = ' ' ∨ c = '\t' then value? s .ended cs
    else (value? s .bare cs).map (c :: ·)

def isNameChar (c : Char) : Bool := c.isAlphanum || c == '_' || c == '.'

def name? (cs : List Char) : Option (List Char × List Char) :=
  if cs.head?.any fun c ↦ c.isAlpha || c == '_' then
    some (cs.takeWhile isNameChar, cs.dropWhile isNameChar)
  else none

def afterEquals? (cs : List Char) : Option (List Char) :=
  match trimStart cs with
  | '=' :: rest => some rest
  | _ => none

/-- A name and the text of its value. The word `export` in front of a name does not count; before an
equals sign it is a name. -/
def split? (cs : List Char) : Option (List Char × List Char) := do
  let (name, rest) ← name? cs
  match afterEquals? rest with
  | some rest => return (name, rest)
  | none =>
    guard (name = "export".toList)
    let (name, rest) ← name? (trimStart rest)
    return (name, ← afterEquals? rest)

/-- The definition on a line; `some none` if the line has none. -/
def definition? (s : Scope) (line : List Char) : Option (Option (String × String)) := do
  let text := trimStart (trimEnd line)
  if text = [] ∨ text.head? = some '#' then return none
  let (name, rest) ← split? text
  let rest := trimStart rest
  let value ← if rest.head? = some '#' then some [] else value? s .bare rest
  return some (String.ofList name, String.ofList value)

def Scope.load (s : Scope) : List (Option (List Char)) → Environment
  | [] => s.process
  | none :: _ => s.process
  | some line :: rest =>
    match definition? s line with
    | none => s.process
    | some none => s.load rest
    | some (some (name, value)) =>
      Scope.load ⟨s.process.setNew name value, (name, value) :: s.file⟩ rest

def withFile (e : Environment) (file : Bytes) : Environment :=
  Scope.load ⟨e, []⟩ (logicalLines file)

end CertGate.Environment
