import CertGate.Text.Percent

namespace CertGate.Gateway

/-- Whether two lists of octets agree, without a hint at the place where they differ. -/
def sameOctets (a b : Bytes) : Bool :=
  a.length == b.length && (List.zipWith (· ^^^ ·) a b).foldl (· ||| ·) 0 == 0

/-- An empty token opens nothing. -/
def keyMatches (presented expected : String) : Bool :=
  expected ≠ "" && sameOctets (Utf8.encode presented) (Utf8.encode expected)

def presentedKey (query : Option String) : String :=
  ((query.map fun q ↦ Form.pairs (Utf8.encode q)).getD [] |>.lookup "key").getD ""

end CertGate.Gateway
