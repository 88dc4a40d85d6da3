import CertGate.Json.Double
import CertGate.Yaml.Value

namespace CertGate.Yaml

/-- Whether the characters of a plain scalar outside of flow collections may follow one another
like this, given the one in front. -/
def plainFollows : (before : Char) → List Char → Bool
  | _, [] => true
  | before, c :: cs =>
    !(c == ':' && cs.head?.all fun d ↦ isSpace d || isBreak d) && !(c == '#' && isSpace before) &&
      isPrintable c && !isBreak c && c != '\t' && plainFollows c cs

def startsPlainText : List Char → Bool
  | [] => false
  | c :: cs =>
    !isSpace c && (!indicators.contains c ||
      (['-', '?', ':'].contains c && cs.head?.any fun d ↦ !isSpace d))

/-- Whether a text may be written without quotes: it is read as the text that it is. -/
def isPlainText (s : String) : Bool :=
  let cs := s.toList
  startsPlainText cs && plainFollows 'x' cs && !cs.getLast?.any isSpace &&
    !(['-', '-', '-'].isPrefixOf cs) && !(['.', '.', '.'].isPrefixOf cs) &&
    (plainDatum s).string?.isSome

def hexText (width n : Nat) : List Char :=
  let ds := Nat.toDigits 16 n
  List.replicate (width - ds.length) '0' ++ ds

def escapedChar (c : Char) : List Char :=
  match (simpleEscapes.filter fun e ↦ e.1 != '/' && e.1 != ' ' && e.1 != '\t').find? (·.2 == c) with
  | some (e, _) => ['\\', e]
  | none =>
    if isPrintable c && c != '\uFEFF' then [c]
    else if c.toNat < 0x100 then '\\' :: 'x' :: hexText 2 c.toNat
    else if c.toNat < 0x10000 then '\\' :: 'u' :: hexText 4 c.toNat
    else '\\' :: 'U' :: hexText 8 c.toNat

def scalarText (s : String) : String :=
  if isPlainText s then s
  else if s.toList.all fun c ↦ isPrintable c && !isBreak c then
    "'" ++ String.ofList (s.toList.flatMap fun c ↦ if c = '\'' then ['\'', '\''] else [c]) ++ "'"
  else "\"" ++ String.ofList (s.toList.flatMap escapedChar) ++ "\""

def indented (n : Nat) (s : String) : String := String.ofList (List.replicate (2 * n) ' ') ++ s

def behind (head : String) : List String → List String
  | [] => []
  | first :: rest => (head ++ first) :: rest

mutual

/-- The lines of a value behind a name or a dash: the first one follows it on its line. -/
def after (level : Nat) : Datum → List String
  | .null | .illegible => [" null"]
  | .bool b => [if b then " true" else " false"]
  | .number (.int n) => [s!" {n}"]
  | .number (.double bits) => [" " ++ Json.doubleText bits]
  | .text s => [" " ++ scalarText s]
  | .list [] => [" []"]
  | .list items => "" :: itemLines level items
  | .record [] => [" \x7b\x7d"]
  | .record fields => "" :: fieldLines (level + 1) fields

def itemLines (level : Nat) : List Datum → List String
  | [] => []
  | d :: ds => behind (indented level "-") (after (level + 1) d) ++ itemLines level ds

def fieldLines (level : Nat) : List (String × Datum) → List String
  | [] => []
  | (name, d) :: fs =>
    behind (indented level (scalarText name ++ ":")) (after level d) ++ fieldLines level fs

end

def render (fields : List (String × Datum)) : String :=
  String.join ((fieldLines 0 fields).map (· ++ "\n"))

end CertGate.Yaml
