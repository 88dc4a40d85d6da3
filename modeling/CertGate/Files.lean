import CertGate.Bytes

namespace CertGate

structure DirectoryEntry where
  name : String
  isFile : Bool
  deriving DecidableEq

/-- What there is to be read while the gateway starts. Where nothing can be read the answer is the
reason, in the words of the system. A directory lists its entries in any order. -/
structure FileSystem where
  read : String → Except String Bytes
  list : String → Except String (List DirectoryEntry)
  isFile : String → Bool
  isThere : String → Bool

namespace FileSystem

def join (directory name : String) : String :=
  if directory = "" ∨ directory.toList.getLast? = some '/' then directory ++ name
  else directory ++ "/" ++ name

/-- The part of a file name behind its last dot; a dot in front does not count. -/
def extension? (name : String) : Option String :=
  let reversed := name.toList.reverse
  let after := reversed.takeWhile (· ≠ '.')
  match reversed.drop after.length with
  | [] | [_] => none
  | _ => some (String.ofList after.reverse)

end FileSystem

end CertGate
