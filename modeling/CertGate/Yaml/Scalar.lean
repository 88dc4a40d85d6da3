import CertGate.Url.Host
import CertGate.Yaml.Spot

namespace CertGate.Yaml

/-- White space between two parts of a scalar: blanks, or line breaks and the blanks around them.
The first break may have been escaped. -/
inductive Gap where
  | blanks (cs : List Char)
  | breaks (first : Option Char) (others : List Char)

namespace Gap

def none : Gap := blanks []

def isEmpty : Gap → Bool
  | blanks cs => cs.isEmpty
  | breaks _ _ => false

def hasBreak : Gap → Bool
  | blanks _ => false
  | breaks _ _ => true

def add (c : Char) : Gap → Gap
  | blanks cs => if isBreak c then breaks (some c) [] else blanks (cs ++ [c])
  | breaks first others => if isBreak c then breaks first (others ++ [c]) else breaks first others

/-- What the gap stands for: a lone line feed is a blank, and the first of several is left out. -/
def text : Gap → List Char
  | blanks cs => cs
  | breaks .none others => others
  | breaks (some c) others =>
    if c = '\n' then if others.isEmpty then [' '] else others
    else c :: others

end Gap

abbrev Taken := Option (List Char × Text)

def Taken.after (cs : List Char) (t : Taken) : Taken := t.map fun (ds, rest) ↦ (cs ++ ds, rest)

def simpleEscapes : List (Char × Char) := [
  ('0', '\x00'), ('a', '\x07'), ('b', '\x08'), ('t', '\t'), ('\t', '\t'), ('n', '\n'),
  ('v', '\x0b'), ('f', '\x0c'), ('r', '\r'), ('e', '\x1b'), (' ', ' '), ('"', '"'), ('/', '/'),
  ('\\', '\\'), ('N', '\u0085'), ('_', '\u00a0'), ('L', '\u2028'), ('P', '\u2029')]

def hexEscape? (count : Nat) (cs : List Char) : Option Char :=
  let ds := cs.take count
  let n := Url.ofDigits 16 ds
  if ds.length = count ∧ ds.all Url.isHexDigit ∧ n.isValidChar then some (Char.ofNat n) else none

def escape? : List Char → Option (Char × Nat)
  | [] => none
  | c :: cs =>
    match simpleEscapes.lookup c with
    | some d => some (d, 1)
    | none =>
      let count := if c = 'x' then 2 else if c = 'u' then 4 else if c = 'U' then 8 else 0
      if count = 0 then none else (hexEscape? count cs).map fun d ↦ (d, count + 1)

def singleQuoted : (skip : Nat) → Gap → Text → Taken
  | _, _, [] => none
  | skip + 1, gap, _ :: t => singleQuoted skip gap t
  | 0, gap, s :: t =>
    if isSpace s.char || isBreak s.char then singleQuoted 0 (gap.add s.char) t
    else if Text.atDocumentMark (s :: t) then none
    else if s.char = '\'' then
      if Text.startsWith t ['\''] then (singleQuoted 1 .none t).after (gap.text ++ ['\''])
      else some (gap.text, t)
    else (singleQuoted 0 .none t).after (gap.text ++ [s.char])

def doubleQuoted : (skip : Nat) → Gap → Text → Taken
  | _, _, [] => none
  | skip + 1, gap, _ :: t => doubleQuoted skip gap t
  | 0, gap, s :: t =>
    if isSpace s.char || isBreak s.char then doubleQuoted 0 (gap.add s.char) t
    else if Text.atDocumentMark (s :: t) then none
    else if s.char = '"' then some (gap.text, t)
    else if s.char = '\\' then
      if t.isEmpty then none
      else if Text.atLineEnd t then (doubleQuoted 1 (.breaks none []) t).after gap.text
      else
        match escape? (Text.chars (t.take 9)) with
        | some (c, count) => (doubleQuoted count .none t).after (gap.text ++ [c])
        | none => none
    else (doubleQuoted 0 .none t).after (gap.text ++ [s.char])

def flowIndicators : List Char := [',', '[', ']', '{', '}']

/-- A plain scalar, in a flow collection or outside, with its lines indented at least so far. The
white space behind it is returned, too. -/
def plain (flow : Bool) (indent : Nat) : Gap → Text → Option (List Char × Gap × Text)
  | gap, [] => some ([], gap, [])
  | gap, s :: t =>
    if isSpace s.char || isBreak s.char then
      if gap.hasBreak && s.char == '\t' && s.column < indent then none
      else plain flow indent (gap.add s.char) t
    else if !gap.isEmpty && (Text.atDocumentMark (s :: t) || s.char == '#' ||
        (!flow && s.column < indent)) then
      some ([], gap, s :: t)
    else if flow && s.char == ':' && t.head?.any (fun n ↦ ('?' :: flowIndicators).contains n.char) then
      none
    else if (s.char == ':' && Text.atGap t) || (flow && flowIndicators.contains s.char) then
      some ([], gap, s :: t)
    else
      (plain flow indent .none t).map fun (cs, rest) ↦ (gap.text ++ s.char :: cs, rest)

inductive Chomp where
  | strip
  | clip
  | keep
  deriving DecidableEq

structure BlockStyle where
  literal : Bool
  chomp : Chomp := .clip
  /-- The indentation in excess of that of the parent, if it is written down. -/
  indent : Option Nat := none

def chomp? (c : Char) : Option Chomp :=
  if c = '+' then some .keep else if c = '-' then some .strip else none

def indent? (c : Char) : Option Nat :=
  if '1' ≤ c ∧ c ≤ '9' then some (c.toNat - 48) else none

def BlockStyle.read? (literal : Bool) (t : Text) : Option (BlockStyle × Text) :=
  let first := t.head?.map (·.char)
  let second := (t.drop 1).head?.map (·.char)
  match first >>= chomp?, first >>= indent? with
  | some c, _ =>
    match second >>= indent? with
    | some n => some (⟨literal, c, some n⟩, t.drop 2)
    | none => if second = some '0' then none else some (⟨literal, c, none⟩, t.drop 1)
  | none, some n =>
    match second >>= chomp? with
    | some c => some (⟨literal, c, some n⟩, t.drop 2)
    | none => some (⟨literal, .clip, some n⟩, t.drop 1)
  | none, none => if first = some '0' then none else some (⟨literal, .clip, none⟩, t)

def lines : Text → List Text
  | [] => []
  | s :: t =>
    if isBreak s.char then [s] :: lines t
    else
      match lines t with
      | [] => [[s]]
      | l :: ls => (s :: l) :: ls

def leadingSpaces (line : Text) : Nat := (line.takeWhile (·.char == ' ')).length

/-- The indentation of a block from its first lines: that of the first line with text, though no
less than that of an empty line in front of it. A tab must not stand there. -/
def indentation? (least : Nat) : List Text → Option Nat
  | [] => some least
  | line :: rest =>
    let n := leadingSpaces line
    match line.drop n with
    | [] => some (max n least)
    | s :: _ =>
      if s.char = '\t' then none
      else if isBreak s.char then (indentation? least rest).map (max n)
      else some (max n least)

/-- The block so far: the break that ended its last line, whether that line started with a blank,
and the breaks of the empty lines after it. -/
structure Block where
  lineBreak : List Char := []
  blank : Bool := false
  empty : List Char := []

/-- What stands between the line before and a new one. Where lines are folded a line feed between
two lines of text becomes a blank, or nothing if empty lines follow it. -/
def Block.join (b : Block) (literal blank : Bool) : List Char :=
  if !literal && b.lineBreak == ['\n'] && !b.blank && !blank then
    if b.empty.isEmpty then [' '] else b.empty
  else b.lineBreak ++ b.empty

/-- The text of a block with a given indentation. It ends before the first line with text that is
indented less. -/
def block (style : BlockStyle) (indent : Nat) : Block → List Text → Taken
  | b, [] => some (ending b, [])
  | b, line :: rest =>
    let n := leadingSpaces line
    match line.drop (min n indent) with
    | [] => some (ending b, [])
    | s :: t =>
      if isBreak s.char then block style indent { b with empty := b.empty ++ [s.char] } rest
      else if n < indent then
        if s.char = '\t' then none else some (ending b, (line :: rest).flatten)
      else
        let (text, lineBreak) := Text.span (fun c ↦ !isBreak c) (s :: t)
        let b' : Block := ⟨lineBreak.chars, isSpace s.char, []⟩
        (block style indent b' rest).after (b.join style.literal (isSpace s.char) ++ text)
where
  ending (b : Block) : List Char :=
    (if style.chomp = .strip then [] else b.lineBreak) ++ if style.chomp = .keep then b.empty else []

def blockScalar (literal : Bool) (parent : Option Nat) (t : Text) : Taken := do
  let (style, t) ← BlockStyle.read? literal t
  let t ← t.lineEnd?
  let found := lines (t.drop 1)
  let indent ←
    match style.indent with
    | some n => some (parent.getD 0 + n)
    | none => indentation? (max 1 (parent.elim 0 (· + 1))) found
  block style indent {} found

end CertGate.Yaml
