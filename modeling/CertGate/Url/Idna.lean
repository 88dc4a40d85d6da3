import CertGate.Url.Punycode

namespace CertGate.Idna

/-- Ranges of capital letters, the distance to their small letters, and whether capitals and small
letters alternate in the range. -/
def capitals : List (Nat × Nat × Int × Bool) := [
  (0x41, 0x5A, 32, false), (0xC0, 0xD6, 32, false), (0xD8, 0xDE, 32, false),
  (0x100, 0x12F, 1, true), (0x132, 0x137, 1, true), (0x139, 0x148, 1, true),
  (0x14A, 0x177, 1, true), (0x178, 0x178, -121, false), (0x179, 0x17E, 1, true),
  (0x182, 0x185, 1, true), (0x1A0, 0x1A5, 1, true), (0x1CD, 0x1DC, 1, true),
  (0x1DE, 0x1EF, 1, true), (0x1F8, 0x21F, 1, true), (0x222, 0x233, 1, true),
  (0x386, 0x386, 38, false), (0x388, 0x38A, 37, false), (0x38C, 0x38C, 64, false),
  (0x38E, 0x38F, 63, false), (0x391, 0x3A1, 32, false), (0x3A3, 0x3AB, 32, false),
  (0x3D8, 0x3EF, 1, true), (0x400, 0x40F, 80, false), (0x410, 0x42F, 32, false),
  (0x460, 0x481, 1, true), (0x48A, 0x4BF, 1, true), (0x4C1, 0x4CE, 1, true),
  (0x4D0, 0x52F, 1, true), (0x531, 0x556, 48, false), (0x1E00, 0x1E95, 1, true),
  (0x1EA0, 0x1EFF, 1, true), (0x24B6, 0x24CF, -9301, false), (0x24D0, 0x24E9, -9327, false),
  (0xFF21, 0xFF3A, -0xFEC0, false), (0xFF41, 0xFF5A, -0xFEE0, false),
  (0xFF10, 0xFF19, -0xFEE0, false), (0xFF01, 0xFF0F, -0xFEE0, false)]

/-- In an alternating range the capitals are the characters at an even distance from its start. -/
def small (n : Nat) : Nat :=
  match capitals.find? fun r ↦ r.1 ≤ n && n ≤ r.2.1 with
  | some (start, _, shift, alternating) =>
    if alternating && (n - start) % 2 != 0 then n else ((n : Int) + shift).toNat
  | none => n

def isIgnored (n : Nat) : Bool :=
  n == 0xAD || n == 0x34F || n == 0x200B || n == 0x2060 || n == 0x2064 || n == 0xFEFF ||
    (0x180B ≤ n && n ≤ 0x180D) || n == 0x180F || (0xFE00 ≤ n && n ≤ 0xFE0F)

def isForbidden (n : Nat) : Bool :=
  (0x80 ≤ n && n ≤ 0x9F) || n == 0xA0 || n == 0x1680 || (0x2000 ≤ n && n ≤ 0x200A) ||
    n == 0x200E || n == 0x200F || (0x2028 ≤ n && n ≤ 0x202F) || n == 0x205F ||
    (0x2061 ≤ n && n ≤ 0x2063) || (0x2066 ≤ n && n ≤ 0x206F) || n == 0x3000 ||
    (0xE000 ≤ n && n ≤ 0xF8FF) || (0xFDD0 ≤ n && n ≤ 0xFDEF) || (0xFFF9 ≤ n && n ≤ 0xFFFF) ||
    0xE0000 ≤ n

/-- Combining marks with the letters that take them and the letters that result. -/
def compositions : List (Nat × String × String) := [
  (0x300, "aeiounwy", "àèìòùǹẁỳ"),
  (0x301, "aeiouycgklmnprswzæøαεηιουωгк", "áéíóúýćǵḱĺḿńṕŕśẃźǽǿάέήίόύώѓќ"),
  (0x302, "aeioucghjswyz", "âêîôûĉĝĥĵŝŵŷẑ"),
  (0x303, "aeiounvy", "ãẽĩõũñṽỹ"),
  (0x304, "aeiougyæиу", "āēīōūḡȳǣӣӯ"),
  (0x306, "aeiouguиу", "ăĕĭŏŭğŭйў"),
  (0x307, "aeobcdfghmnprstwxyz", "ȧėȯḃċḋḟġḣṁṅṗṙṡṫẇẋẏż"),
  (0x308, "aeiouyhtwxιυеи", "äëïöüÿḧẗẅẍϊϋёӥ"),
  (0x30A, "auwy", "åůẘẙ"),
  (0x30B, "ouу", "őűӳ"),
  (0x30C, "aeioucdghjklnrstz", "ǎěǐǒǔčďǧȟǰǩľňřšťž"),
  (0x31B, "ou", "ơư"),
  (0x323, "aeioubdhklmnrstvwyz", "ạẹịọụḅḍḥḳḷṃṇṛṣṭṿẉỵẓ"),
  (0x326, "st", "șț"),
  (0x327, "cdeghklnrst", "çḑȩģḩķļņŗşţ"),
  (0x328, "aeiou", "ąęįǫų"),
  (0x331, "bdklnrtz", "ḇḏḵḻṉṟṯẕ")]

def composition? (base mark : Char) : Option Char := do
  let (_, bases, results) ← compositions.find? (·.1 == mark.toNat)
  let (_, result) ← (bases.toList.zip results.toList).find? (·.1 == base)
  return result

def compose : List Char → List Char
  | [] => []
  | c :: cs => go c cs
where
  go (base : Char) : List Char → List Char
    | [] => [base]
    | c :: cs =>
      match composition? base c with
      | some d => go d cs
      | none => base :: go c cs

/-- A character after mapping; ideographic full stops become full stops. -/
def mapChar (c : Char) : List Char :=
  let n := c.toNat
  if isIgnored n then []
  else if n == 0x3002 || n == 0xFF0E || n == 0xFF61 then ['.']
  else [Char.ofNat (small n)]

def isMark (c : Char) : Bool := 0x300 ≤ c.toNat && c.toNat ≤ 0x36F

def startsEncoded (label : List Char) : Bool := ['x', 'n', '-', '-'].isPrefixOf label

/-- A label beyond ASCII may not start with a mark, nor hold what mapping would change. -/
def isStable (label : List Char) : Bool :=
  (label.head?.all fun c ↦ !isMark c) &&
    label.all (fun c ↦ !isForbidden c.toNat && mapChar c == [c]) && compose label == label

/-- A label in ASCII. One that comes encoded has to be what encoding gives. -/
def label? (label : List Char) : Option (List Char) :=
  if startsEncoded label then
    match Punycode.decode? (label.drop 4) with
    | some text =>
      if text.all Punycode.isBasic || !isStable text then none
      else some (['x', 'n', '-', '-'] ++ Punycode.encode text)
    | none => none
  else if label.all Punycode.isBasic then some label
  else if isStable label then some (['x', 'n', '-', '-'] ++ Punycode.encode label)
  else none

def splitDots : List Char → List (List Char)
  | [] => [[]]
  | c :: cs =>
    if c = '.' then [] :: splitDots cs
    else
      match splitDots cs with
      | [] => [[c]]
      | l :: ls => (c :: l) :: ls

def joinDots : List (List Char) → List Char
  | [] => []
  | [l] => l
  | l :: ls => l ++ '.' :: joinDots ls

def toAscii? (domain : List Char) : Option (List Char) :=
  ((splitDots (compose (domain.flatMap mapChar))).mapM label?).map joinDots

end CertGate.Idna
