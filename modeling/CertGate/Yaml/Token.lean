import CertGate.Text.Utf8
import CertGate.Yaml.Scalar

namespace CertGate.Yaml

inductive Token where
  | version (major minor : Nat)
  | tagHandle (handle start : String)
  | documentStart
  | documentEnd
  | sequenceStart
  | mappingStart
  | blockEnd
  | flowSequenceStart
  | flowSequenceEnd
  | flowMappingStart
  | flowMappingEnd
  | blockEntry
  | flowEntry
  | key
  | value
  | reference (name : String)
  | anchor (name : String)
  | tag (handle suffix : String)
  | scalar (text : String) (isPlain : Bool)
  deriving DecidableEq

/-- A place where a key may have begun: the number of tokens in front of it, and whether it has to
be a key because it stands where the keys of its mapping stand. -/
structure KeyPlace where
  spot : Spot
  count : Nat
  required : Bool

structure Scan where
  /-- The tokens so far, last first. -/
  tokens : List Token := []
  /-- The columns of the open block collections, innermost first. -/
  indents : List Nat := []
  blockKey : Option KeyPlace := none
  flowKeys : List (Option KeyPlace) := []
  keyAllowed : Bool := true

namespace Scan

def inFlow (s : Scan) : Bool := !s.flowKeys.isEmpty

def push (s : Scan) (t : Token) : Scan := { s with tokens := t :: s.tokens }

def currentKey (s : Scan) : Option KeyPlace := s.flowKeys.headD s.blockKey

def setKey (s : Scan) (k : Option KeyPlace) : Scan :=
  match s.flowKeys with
  | [] => { s with blockKey := k }
  | _ :: ks => { s with flowKeys := k :: ks }

def isDeeper (s : Scan) (column : Nat) : Bool := s.indents.head?.all (· < column)

def allow (s : Scan) (allowed : Bool) : Scan := { s with keyAllowed := allowed }

def dropKey (s : Scan) : Option Scan :=
  if s.currentKey.any (·.required) then none else some (s.setKey none)

def noteKey (s : Scan) (spot : Spot) : Option Scan := do
  if s.keyAllowed then
    let s ← s.dropKey
    return s.setKey (some ⟨spot, s.tokens.length, !s.inFlow && s.indents.head? == some spot.column⟩)
  else return s

def isStale (spot : Spot) (k : KeyPlace) : Bool :=
  k.spot.line < spot.line || k.spot.index + 1024 < spot.index

/-- A key ends on the line where it begins, and is no longer than 1024 characters. -/
def dropStaleKeys (s : Scan) (spot : Spot) : Option Scan :=
  if ((s.blockKey :: s.flowKeys).any fun k ↦ k.any fun k ↦ isStale spot k && k.required) then none
  else
    let keep (k : Option KeyPlace) := k.filter fun k ↦ !isStale spot k
    some { s with blockKey := keep s.blockKey, flowKeys := s.flowKeys.map keep }

def closeWhile (s : Scan) (p : Nat → Bool) : Scan :=
  if s.inFlow then s
  else
    { s with
      tokens := List.replicate (s.indents.takeWhile p).length .blockEnd ++ s.tokens
      indents := s.indents.dropWhile p }

def closeAll (s : Scan) : Scan := s.closeWhile fun _ ↦ true

def insertAt (s : Scan) (count : Nat) (t : Token) : Scan :=
  { s with tokens := s.tokens.insertIdx (s.tokens.length - count) t }

/-- Begins a block collection behind the first `count` tokens if its column lies deeper than those
of the open ones. -/
def beginBlock (s : Scan) (column count : Nat) (t : Token) : Scan :=
  if s.inFlow || !s.isDeeper column then s
  else { s.insertAt count t with indents := column :: s.indents }

def leaveDocument (s : Scan) : Option Scan := do return (← s.closeAll.dropKey).allow false

def flowStart (s : Scan) (spot : Spot) (t : Token) : Option Scan := do
  let s ← s.noteKey spot
  return { s.push t with flowKeys := none :: s.flowKeys, keyAllowed := true }

def flowEnd (s : Scan) (t : Token) : Option Scan := do
  let s ← s.dropKey
  return { s.push t with flowKeys := s.flowKeys.tail, keyAllowed := false }

def flowEntry (s : Scan) : Option Scan := do return ((← s.dropKey).allow true).push .flowEntry

def blockEntry (s : Scan) (spot : Spot) : Option Scan := do
  if !s.inFlow && !s.keyAllowed then none
  let s := s.beginBlock spot.column s.tokens.length .sequenceStart
  return ((← s.dropKey).allow true).push .blockEntry

def markedKey (s : Scan) (spot : Spot) : Option Scan := do
  if !s.inFlow && !s.keyAllowed then none
  let s := s.beginBlock spot.column s.tokens.length .mappingStart
  return ((← s.dropKey).allow (!s.inFlow)).push .key

/-- The colon after a key. If the key has no sign its token goes in front of it now. -/
def value (s : Scan) (spot : Spot) : Option Scan :=
  match s.currentKey with
  | some k =>
    let s := (s.insertAt k.count .key).beginBlock k.spot.column k.count .mappingStart
    some (((s.setKey none).allow false).push .value)
  | none => do
    if !s.inFlow && !s.keyAllowed then none
    let s := s.beginBlock spot.column s.tokens.length .mappingStart
    return (s.allow (!s.inFlow)).push .value

end Scan

def mayFollowName (t : Text) : Bool :=
  t.atGap || t.head?.any fun s ↦ ['?', ':', ',', ']', '}', '%', '@', '\x60'].contains s.char

def anchorName? (t : Text) : Option (String × Text) :=
  let (name, rest) := t.span isWord
  if name.isEmpty || !mayFollowName rest then none else some (String.ofList name, rest)

def isTagChar (c : Char) : Bool := isWord c || ";/?:@&=+$.!~*'()%".toList.contains c

def isUriChar (c : Char) : Bool := isTagChar c || [',', '[', ']'].contains c

def unescape? (cs : List Char) : Option (List Char) :=
  let octets := Utf8.encode (String.ofList cs)
  if isEscaped octets then (Utf8.decode? (Percent.decode octets)).map (·.toList) else none
where
  isEscaped : Bytes → Bool
    | 0x25 :: hi :: lo :: rest =>
      (Bytes.hexValue? hi).isSome && (Bytes.hexValue? lo).isSome && isEscaped rest
    | 0x25 :: _ => false
    | _ :: rest => isEscaped rest
    | [] => true

/-- A tag handle: one exclamation mark, or two around a name that may be empty. -/
def handle? (t : Text) : Option (List Char × Text) :=
  if t.startsWith ['!'] then
    let (name, rest) := Text.span isWord (t.drop 1)
    if Text.startsWith rest ['!'] then some ('!' :: name ++ ['!'], rest.drop 1)
    else some ('!' :: name, rest)
  else none

/-- A tag after its exclamation mark: in full, with a handle, or local. -/
def tag? (t : Text) : Option (Token × Text) :=
  if t.startsWith ['!', '<'] then do
    let (uri, rest) := Text.span isUriChar (t.drop 2)
    let uri ← unescape? uri
    if uri.isEmpty || !Text.startsWith rest ['>'] then none
    return (.tag "" (String.ofList uri), rest.drop 1)
  else do
    let (handle, rest) ← handle? t
    let (tail, rest) := Text.span isTagChar rest
    let tail ← unescape? tail
    if 2 ≤ handle.length ∧ handle.getLast? = some '!' then
      if tail.isEmpty then none
      return (.tag (String.ofList handle) (String.ofList tail), rest)
    else
      let suffix := handle.drop 1 ++ tail
      if suffix.isEmpty then return (.tag "" "!", rest)
      else return (.tag "!" (String.ofList suffix), rest)

def versionNumber? (t : Text) : Option (Nat × Text) :=
  let (ds, rest) := t.span Char.isDigit
  if ds.isEmpty || 9 < ds.length then none else some (Url.ofDigits 10 ds, rest)

def version? (t : Text) : Option (Token × Text) := do
  let (major, rest) ← versionNumber? t.skipSpaces
  if !rest.startsWith ['.'] then none
  let (minor, rest) ← versionNumber? (rest.drop 1)
  return (.version major minor, rest)

def tagHandle? (t : Text) : Option (Token × Text) := do
  let (handle, rest) ← handle? t.skipSpaces
  if handle ≠ ['!'] ∧ handle.getLast? ≠ some '!' then none
  if !rest.head?.any (isSpace ·.char) then none
  let (start, rest) := Text.span isUriChar rest.skipSpaces
  let start ← unescape? start
  if start.isEmpty || !Text.atGap rest then none
  return (.tagHandle (String.ofList handle) (String.ofList start), rest)

def directive? (t : Text) : Option (Token × Text) := do
  let (name, rest) := t.span isWord
  if !Text.atGap rest then none
  let (token, rest) ←
    if name = "YAML".toList then version? rest
    else if name = "TAG".toList then tagHandle? rest
    else none
  return (token, ← Text.lineEnd? rest)

def indicators : List Char := [
  '-', '?', ':', ',', '[', ']', '{', '}', '#', '&', '*', '!', '|', '>', '\'', '"', '%', '@', '\x60']

def startsPlain (flow : Bool) (c : Char) (rest : Text) : Bool :=
  (!indicators.contains c && !isSpace c) ||
    (c == '-' && !rest.head?.any (isSpace ·.char)) ||
    (!flow && (c == '?' || c == ':') && !rest.atGap)

/-- Skips what stands between tokens. Outside of flow collections a new line allows a key, and where
a key is allowed a tab is not white space. -/
def skipGap (flow : Bool) : (keyAllowed inComment : Bool) → Text → Bool × Text
  | allowed, _, [] => (allowed, [])
  | allowed, inComment, s :: t =>
    if isBreak s.char then skipGap flow (allowed || !flow) false t
    else if inComment || s.char == '#' then skipGap flow allowed true t
    else if s.char == ' ' || (s.char == '\t' && (flow || !allowed)) then skipGap flow allowed false t
    else (allowed, s :: t)

def Scan.next (s : Scan) (spot : Spot) (t : Text) : Option (Scan × Text) :=
  let c := spot.char
  let here := spot :: t
  let quoted (found : Taken) := do
    let (cs, rest) ← found
    return (((← s.noteKey spot).allow false).push (.scalar (String.ofList cs) false), rest)
  let named (build : String → Token) := do
    let (name, rest) ← anchorName? t
    return (((← s.noteKey spot).allow false).push (build name), rest)
  let inBlock (literal : Bool) := do
    let (cs, rest) ← blockScalar literal s.indents.head? t
    return (((← s.dropKey).allow true).push (.scalar (String.ofList cs) false), rest)
  if spot.column = 0 ∧ c = '%' then do
    let (token, rest) ← directive? t
    return ((← s.leaveDocument).push token, rest)
  else if Text.atMark ['-', '-', '-'] here then do
    return ((← s.leaveDocument).push .documentStart, t.drop 2)
  else if Text.atMark ['.', '.', '.'] here then do
    return ((← s.leaveDocument).push .documentEnd, t.drop 2)
  else if c = '[' then (s.flowStart spot .flowSequenceStart).map (·, t)
  else if c = '{' then (s.flowStart spot .flowMappingStart).map (·, t)
  else if c = ']' then (s.flowEnd .flowSequenceEnd).map (·, t)
  else if c = '}' then (s.flowEnd .flowMappingEnd).map (·, t)
  else if c = ',' then s.flowEntry.map (·, t)
  else if c = '-' ∧ t.atGap then (s.blockEntry spot).map (·, t)
  else if c = '?' ∧ (s.inFlow || t.atGap) then (s.markedKey spot).map (·, t)
  else if c = ':' ∧ (s.inFlow || t.atGap) then (s.value spot).map (·, t)
  else if c = '*' then named .reference
  else if c = '&' then named .anchor
  else if c = '!' then do
    let (token, rest) ← tag? here
    if !(rest.atGap || (s.inFlow && Text.startsWith rest [','])) then none
    return (((← s.noteKey spot).allow false).push token, rest)
  else if c = '|' ∧ !s.inFlow then inBlock true
  else if c = '>' ∧ !s.inFlow then inBlock false
  else if c = '\'' then quoted (singleQuoted 0 .none t)
  else if c = '"' then quoted (doubleQuoted 0 .none t)
  else if startsPlain s.inFlow c t then do
    let (cs, gap, rest) ← plain s.inFlow (s.indents.head?.elim 0 (· + 1)) .none here
    let s := (← s.noteKey spot).allow gap.hasBreak
    return (s.push (.scalar (String.ofList cs) true), rest)
  else none

def Scan.finish (s : Scan) : Option (List Token) :=
  if s.blockKey.any (·.required) then none else some s.closeAll.tokens.reverse

def Scan.run : (fuel : Nat) → Scan → Text → Option (List Token)
  | 0, _, _ => none
  | fuel + 1, s, t =>
    match skipGap s.inFlow s.keyAllowed false t with
    | (_, []) => s.finish
    | (allowed, spot :: t) => do
      let s ← (s.allow allowed).dropStaleKeys spot
      let (s, t) ← (s.closeWhile (spot.column < ·)).next spot t
      s.run fuel t

def tokens? (s : String) : Option (List Token) :=
  if s.toList.all isPrintable then Scan.run (s.length + 1) {} (Text.ofChars s.toList) else none

end CertGate.Yaml
