namespace CertGate.Yaml

structure Spot where
  char : Char
  line : Nat
  column : Nat
  index : Nat
  deriving Inhabited

abbrev Text := List Spot

/-- Line breaks of all kinds but the Unicode separators become line feeds. -/
def unifyBreaks : List Char → List Char
  | '\r' :: '\n' :: cs => '\n' :: unifyBreaks cs
  | c :: cs => (if c = '\r' ∨ c = '\u0085' then '\n' else c) :: unifyBreaks cs
  | [] => []

def isBreak (c : Char) : Bool := c == '\n' || c == '\u2028' || c == '\u2029'

def isSpace (c : Char) : Bool := c == ' ' || c == '\t'

def isWord (c : Char) : Bool := c.isAlphanum || c == '_' || c == '-'

def isPrintable (c : Char) : Bool :=
  let n := c.toNat
  n == 0x09 || n == 0x0A || n == 0x0D || n == 0x85 || (0x20 ≤ n && n ≤ 0x7E) ||
    (0xA0 ≤ n && n ≤ 0xD7FF) || (0xE000 ≤ n && n ≤ 0xFFFD) || 0x10000 ≤ n

namespace Text

def placed (line column index : Nat) : List Char → Text
  | [] => []
  | c :: cs =>
    ⟨c, line, column, index⟩ ::
      if isBreak c then placed (line + 1) 0 (index + 1) cs
      else placed line (column + 1) (index + 1) cs

/-- A byte order mark in front is not part of the text. -/
def ofChars : List Char → Text
  | '\uFEFF' :: cs => placed 0 0 0 (unifyBreaks cs)
  | cs => placed 0 0 0 (unifyBreaks cs)

def chars (t : Text) : List Char := t.map (·.char)

def startsWith (t : Text) (s : List Char) : Bool := s.isPrefixOf (chars (t.take s.length))

def atGap : Text → Bool
  | [] => true
  | s :: _ => isSpace s.char || isBreak s.char

def atLineEnd : Text → Bool
  | [] => true
  | s :: _ => isBreak s.char

def atMark (mark : List Char) (t : Text) : Bool :=
  t.head?.any (·.column == 0) && startsWith t mark && atGap (t.drop 3)

def atDocumentMark (t : Text) : Bool :=
  atMark ['-', '-', '-'] t || atMark ['.', '.', '.'] t

def skipSpaces (t : Text) : Text := t.dropWhile (isSpace ·.char)

def lineEnd? (t : Text) : Option Text :=
  let t := skipSpaces t
  let t := if t.head?.any (·.char == '#') then t.dropWhile (!isBreak ·.char) else t
  if atLineEnd t then some t else none

def span (p : Char → Bool) (t : Text) : List Char × Text :=
  (chars (t.takeWhile (p ·.char)), t.dropWhile (p ·.char))

end Text

end CertGate.Yaml
