import CertGate.Bytes
import CertGate.Datum
import CertGate.Json.Double

namespace CertGate.Json

def escapeChar (c : Char) : List Char :=
  if c = '"' then ['\\', '"']
  else if c = '\\' then ['\\', '\\']
  else if c = '\n' then ['\\', 'n']
  else if c = '\r' then ['\\', 'r']
  else if c = '\t' then ['\\', 't']
  else if c = '\x08' then ['\\', 'b']
  else if c = '\x0c' then ['\\', 'f']
  else if c.toNat < 0x20 then ['\\', 'u', '0', '0'] ++ Bytes.hexOctet (UInt8.ofNat c.toNat)
  else [c]

def quote (s : String) : List Char := '"' :: s.toList.flatMap escapeChar ++ ['"']

def numberText : Number → String
  | .int n => toString n
  | .double bits => doubleText bits

def separated : List (List Char) → List Char
  | [] => []
  | [x] => x
  | x :: xs => x ++ ',' :: separated xs

mutual

/-- An illegible value has no text of its own and is written as null. -/
def chars : Datum → List Char
  | .null | .illegible => "null".toList
  | .bool b => (toString b).toList
  | .number n => (numberText n).toList
  | .text s => quote s
  | .list items => '[' :: separated (itemChars items) ++ [']']
  | .record fields => '{' :: separated (fieldChars fields) ++ ['}']

def itemChars : List Datum → List (List Char)
  | [] => []
  | d :: ds => chars d :: itemChars ds

def fieldChars : List (String × Datum) → List (List Char)
  | [] => []
  | (name, d) :: fs => (quote name ++ ':' :: chars d) :: fieldChars fs

end

def render (d : Datum) : String := String.ofList (chars d)

end CertGate.Json
