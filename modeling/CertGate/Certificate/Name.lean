import CertGate.Asn1.Value

namespace CertGate

structure Attribute where
  oid : String
  value : String
  deriving DecidableEq

namespace Attribute

open Asn1

/-- Whatever the type of its value, an attribute shows the value's octets read leniently as UTF-8. -/
def read : Reader Attribute :=
  within Tag.sequence do
    let id ← Asn1.oid
    let value ← element
    return ⟨id.text, Utf8.decodeLossy value.content⟩

/-- The attributes of a name, in the order of their encoding. Reading ends quietly at the first part
that is none. -/
def readName : Reader (List Attribute) :=
  within Tag.sequence do
    return (← Reader.many (within Tag.set (Reader.many1 read))).flatten

def standardKeys : List (String × String) := [
  ("2.5.4.3", "CN"), ("2.5.4.6", "C"), ("2.5.4.7", "L"), ("2.5.4.8", "ST"), ("2.5.4.10", "O"),
  ("2.5.4.11", "OU")]

def standardKey? (a : Attribute) : Option String := standardKeys.lookup a.oid

def otherKey : String := "DC"

def pairText (a : Attribute) : String := s!"{a.standardKey?.getD otherKey}={a.value}"

end Attribute

/-- The distinguished name made of the attributes of a subject: those with a key of their own, last
one first, and then the others, last one first. -/
def distinguishedName (attributes : List Attribute) : String :=
  let standard := attributes.reverse.filter (·.standardKey?.isSome)
  let others := attributes.reverse.filter (·.standardKey?.isNone)
  ",".intercalate ((standard ++ others).map Attribute.pairText)

end CertGate
