import CertGate.Text.Decimal
import CertGate.Yaml.Node

namespace CertGate.Yaml

def inBase (base : Nat) (ds : List Char) : Option Nat :=
  let isDigit (c : Char) : Bool := Url.isHexDigit c && Url.digitValue c < base
  if ds ≠ [] ∧ ds.all isDigit then some (Url.ofDigits base ds) else none

def hasLeadingZero : List Char → Bool
  | '0' :: d :: ds => (d :: ds).all Char.isDigit
  | _ => false

def natural? (cs : List Char) : Option Nat :=
  match cs with
  | '0' :: 'x' :: ds => inBase 16 ds
  | '0' :: 'o' :: ds => inBase 8 ds
  | '0' :: 'b' :: ds => inBase 2 ds
  | ds => if hasLeadingZero ds then none else inBase 10 ds

def integer? (cs : List Char) : Option Int :=
  let (negative, digits) := Decimal.sign cs
  (natural? digits).bind fun n ↦
    if negative then if n ≤ 1 <<< 127 then some (-n) else none
    else if n < 1 <<< 128 then some n else none

def double (x : Float) : Datum := .number (.double x.toBits)

def infinities : List (String × Float) := [
  (".inf", 1 / 0), (".Inf", 1 / 0), (".INF", 1 / 0), ("+.inf", 1 / 0), ("+.Inf", 1 / 0),
  ("+.INF", 1 / 0), ("-.inf", -1 / 0), ("-.Inf", -1 / 0), ("-.INF", -1 / 0), (".nan", 0 / 0),
  (".NaN", 0 / 0), (".NAN", 0 / 0)]

/-- A number with a point or an exponent. One that is too large for a double is none. -/
def double? (s : String) : Option Datum :=
  match infinities.lookup s with
  | some x => some (double x)
  | none => ((Decimal.float? s).filter Float.isFinite).map double

def isNull (s : String) : Bool := ["null", "Null", "NULL", "~"].contains s

def bool? (s : String) : Option Bool :=
  if ["true", "True", "TRUE"].contains s then some true
  else if ["false", "False", "FALSE"].contains s then some false
  else none

def plainDatum (s : String) : Datum :=
  let unsigned := (Decimal.sign s.toList).2
  if s = "" ∨ isNull s then .null
  else
    match bool? s, integer? s.toList with
    | some b, _ => .bool b
    | none, some n => .number (.int n)
    | none, none => if hasLeadingZero unsigned then .text s else (double? s).getD (.text s)

/-- A scalar with a tag of its own has to be of its kind; a tag that is not known makes it a text. A
local tag has no meaning here. -/
def taggedDatum? (tag s : String) : Option Datum :=
  if tag.startsWith "!" then none
  else if tag = "tag:yaml.org,2002:bool" then (bool? s).map .bool
  else if tag = "tag:yaml.org,2002:int" then (integer? s.toList).map fun n ↦ .number (.int n)
  else if tag = "tag:yaml.org,2002:float" then double? s
  else if tag = "tag:yaml.org,2002:null" then if isNull s then some .null else none
  else some (.text s)

namespace Node

mutual

/-- The number of signs that a tree is written with: one for each leaf, two for each collection. -/
def size : Node → Nat
  | reference _ | scalar _ _ _ => 1
  | sequence _ items => sizeOfItems items + 2
  | mapping _ fields => sizeOfFields fields + 2

def sizeOfItems : List Node → Nat
  | [] => 0
  | n :: ns => size n + sizeOfItems ns

def sizeOfFields : List (Node × Node) → Nat
  | [] => 0
  | (k, v) :: fs => size k + size v + sizeOfFields fs

end

/-- What an anchor names, once it is known, with the number of aliases replaced in it. -/
structure Anchored where
  node : Node
  replaced : Nat

/-- The anchors so far, latest first, and the number of aliases replaced so far, at most `limit`. -/
structure Anchors where
  limit : Nat
  known : List (String × Option Anchored) := []
  replaced : Nat := 0

abbrev Expanding := StateT Anchors Option

/-- The node that an alias stands for. It must not be part of that node itself. -/
def named (name : String) : Expanding Node := do
  let s ← get
  match s.known.lookup name with
  | some (some a) =>
    let replaced := s.replaced + a.replaced + 1
    if s.limit < replaced then failure
    set { s with replaced }
    return a.node
  | _ => failure

def anchoring (p : Properties) (build : Expanding Node) : Expanding Node :=
  match p.anchor with
  | none => build
  | some name => do
    let before := (← get).replaced
    modify fun s ↦ { s with known := (name, none) :: s.known }
    let node ← build
    modify fun s ↦ { s with known := s.known.map fun e ↦
      if e.1 == name && e.2.isNone then (name, some ⟨node, s.replaced - before⟩) else e }
    return node

mutual

def expand : Node → Expanding Node
  | reference name => named name
  | scalar p text isPlain => anchoring p (pure (scalar p text isPlain))
  | sequence p items => anchoring p do return sequence p (← expandItems items)
  | mapping p fields => anchoring p do return mapping p (← expandFields fields)

def expandItems : List Node → Expanding (List Node)
  | [] => pure []
  | n :: ns => do return (← expand n) :: (← expandItems ns)

def expandFields : List (Node × Node) → Expanding (List (Node × Node))
  | [] => pure []
  | (k, v) :: fs => do return (← expand k, ← expand v) :: (← expandFields fs)

end

/-- In a tree of a given size a hundred times as many aliases may be replaced. -/
def expanded? (n : Node) : Option Node := n.expand.run' { limit := 100 * n.size }

def text? : Node → Option String
  | scalar _ s _ => some s
  | _ => none

def Properties.isLocal (p : Properties) : Bool := p.tag.any (·.startsWith "!")

mutual

/-- The value of a tree without aliases, with at most so many collections around each part of it.
Keys are texts; of several fields with one key the last counts. -/
def datum? : (depth : Nat) → Node → Option Datum
  | _, reference _ => none
  | _, scalar p s isPlain =>
    match p.tag with
    | some tag => taggedDatum? tag s
    | none => some (if isPlain then plainDatum s else .text s)
  | 0, _ => none
  | depth + 1, sequence p items =>
    if Properties.isLocal p then none else (data? depth items).map .list
  | depth + 1, mapping p fields =>
    if Properties.isLocal p then none else (fieldData? depth fields).map fun fs ↦ .record (Datum.latest fs)

def data? (depth : Nat) : List Node → Option (List Datum)
  | [] => some []
  | n :: ns => do return (← datum? depth n) :: (← data? depth ns)

def fieldData? (depth : Nat) : List (Node × Node) → Option (List (String × Datum))
  | [] => some []
  | (k, v) :: fs => do return (← k.text?, ← datum? depth v) :: (← fieldData? depth fs)

end

end Node

def maxDepth : Nat := 128

/-- The fields of the node of a document. It may be left out, and a tag of it has no meaning. -/
def Node.fields? : Node → Option (List (Node × Node))
  | mapping _ fields => some fields
  | scalar _ "" true => some []
  | _ => none

/-- The value of a stream with one document, which has to be a record; a stream without a document
is an empty one. -/
def record? (s : String) : Option Datum := do
  match ← Node.ofTokens? (← tokens? s) with
  | none => return .record []
  | some root =>
    let fields ← (← root.expanded?).fields?
    return .record (Datum.latest (← Node.fieldData? (maxDepth - 1) fields))

end CertGate.Yaml
