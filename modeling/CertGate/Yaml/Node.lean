import CertGate.Yaml.Token

namespace CertGate.Yaml

def Token.isDirective (t : Token) : Bool := t matches .version _ _ | .tagHandle _ _

def Token.isOutside (t : Token) : Bool := t.isDirective || t matches .documentStart | .documentEnd

structure Properties where
  anchor : Option String := none
  tag : Option String := none
  deriving DecidableEq, Inhabited

inductive Node where
  | reference (name : String)
  | scalar (p : Properties) (text : String) (isPlain : Bool)
  | sequence (p : Properties) (items : List Node)
  | mapping (p : Properties) (fields : List (Node × Node))
  deriving Inhabited

abbrev Handles := List (String × String)

def standardHandles : Handles := [("!", "!"), ("!!", "tag:yaml.org,2002:")]

namespace Node

def missing : Node := scalar {} "" true

def resolve? (h : Handles) (handle suffix : String) : Option String :=
  if handle = "" then some suffix else (h.lookup handle).map (· ++ suffix)

def properties? (h : Handles) : List Token → Option (Properties × List Token)
  | .anchor a :: .tag handle suffix :: ts => do return (⟨some a, ← resolve? h handle suffix⟩, ts)
  | .tag handle suffix :: .anchor a :: ts => do return (⟨some a, ← resolve? h handle suffix⟩, ts)
  | .anchor a :: ts => some (⟨some a, none⟩, ts)
  | .tag handle suffix :: ts => do return (⟨none, ← resolve? h handle suffix⟩, ts)
  | ts => some ({}, ts)

/-- A scalar with the tag that says nothing has no tag, and is read as if it were plain. -/
def ofScalar (p : Properties) (text : String) (isPlain : Bool) : Node :=
  scalar (if p.tag = some "!" then { p with tag := none } else p) text isPlain

mutual

/-- A node; `inBlock` if it may be a block collection, `inMapping` if it may be a list whose entries
stand no deeper than the keys of the mapping around it. -/
def parse (h : Handles) (inBlock inMapping : Bool) : (fuel : Nat) → List Token → Option (Node × List Token)
  | 0, _ => none
  | _ + 1, .reference name :: ts => some (reference name, ts)
  | fuel + 1, ts => do
    let (p, ts) ← properties? h ts
    match ts with
    | .scalar text isPlain :: ts => return (ofScalar p text isPlain, ts)
    | .flowSequenceStart :: ts =>
      let (items, ts) ← flowItems h true fuel ts
      return (sequence p items, ts)
    | .flowMappingStart :: ts =>
      let (fields, ts) ← flowFields h true fuel ts
      return (mapping p fields, ts)
    | ts =>
      match inMapping, inBlock, ts with
      | true, _, .blockEntry :: _ =>
        let (items, ts) ← entries h fuel ts
        return (sequence p items, ts)
      | _, true, .sequenceStart :: ts =>
        let (items, ts) ← blockItems h fuel ts
        return (sequence p items, ts)
      | _, true, .mappingStart :: ts =>
        let (fields, ts) ← blockFields h fuel ts
        return (mapping p fields, ts)
      | _, _, ts => if p = {} then none else return (scalar p "" true, ts)

def parseUnless (h : Handles) (inBlock inMapping : Bool) (shows : Token → Bool) :
    (fuel : Nat) → List Token → Option (Node × List Token)
  | 0, _ => none
  | fuel + 1, ts =>
    if ts.head?.any shows then some (missing, ts) else parse h inBlock inMapping fuel ts

def blockItems (h : Handles) : (fuel : Nat) → List Token → Option (List Node × List Token)
  | fuel + 1, .blockEntry :: ts => do
    let (item, ts) ← parseUnless h true false (fun t ↦ t matches .blockEntry | .blockEnd) fuel ts
    let (items, ts) ← blockItems h fuel ts
    return (item :: items, ts)
  | _ + 1, .blockEnd :: ts => some ([], ts)
  | _, _ => none

def entries (h : Handles) : (fuel : Nat) → List Token → Option (List Node × List Token)
  | 0, _ => none
  | fuel + 1, .blockEntry :: ts => do
    let (item, ts) ←
      parseUnless h true false (fun t ↦ t matches .blockEntry | .key | .value | .blockEnd) fuel ts
    let (items, ts) ← entries h fuel ts
    return (item :: items, ts)
  | _ + 1, ts => some ([], ts)

def blockFields (h : Handles) : (fuel : Nat) → List Token → Option (List (Node × Node) × List Token)
  | fuel + 1, .key :: ts => do
    let shows (t : Token) : Bool := t matches .key | .value | .blockEnd
    let (key, ts) ← parseUnless h true true shows fuel ts
    let (value, ts) ←
      match ts with
      | .value :: ts => parseUnless h true true shows fuel ts
      | ts => some (missing, ts)
    let (fields, ts) ← blockFields h fuel ts
    return ((key, value) :: fields, ts)
  | _ + 1, .blockEnd :: ts => some ([], ts)
  | _, _ => none

/-- The items of a flow list, with a comma in front of each but the first; a field by itself is a
mapping. -/
def flowItems (h : Handles) (first : Bool) : (fuel : Nat) → List Token → Option (List Node × List Token)
  | 0, _ => none
  | _ + 1, .flowSequenceEnd :: ts => some ([], ts)
  | fuel + 1, ts => do
    let ts ←
      match first, ts with
      | true, ts => some ts
      | false, .flowEntry :: ts => some ts
      | false, _ => none
    match ts with
    | .flowSequenceEnd :: ts => return ([], ts)
    | .key :: ts =>
      let (field, ts) ← flowPair h fuel ts
      let (items, ts) ← flowItems h false fuel ts
      return (mapping {} [field] :: items, ts)
    | ts =>
      let (item, ts) ← parse h false false fuel ts
      let (items, ts) ← flowItems h false fuel ts
      return (item :: items, ts)

/-- A field of its own in a flow list. Where its key is left out the token after it is lost. -/
def flowPair (h : Handles) : (fuel : Nat) → List Token → Option ((Node × Node) × List Token)
  | 0, _ => none
  | fuel + 1, ts => do
    let shows (t : Token) : Bool := t matches .value | .flowEntry | .flowSequenceEnd
    let (key, ts) ←
      if ts.head?.any shows then some (missing, ts.tail) else parse h false false fuel ts
    match ts with
    | .value :: ts =>
      let (value, ts) ←
        parseUnless h false false (fun t ↦ t matches .flowEntry | .flowSequenceEnd) fuel ts
      return ((key, value), ts)
    | ts => return ((key, missing), ts)

/-- The fields of a flow mapping, with a comma in front of each but the first. A key by itself has no
value. -/
def flowFields (h : Handles) (first : Bool) :
    (fuel : Nat) → List Token → Option (List (Node × Node) × List Token)
  | 0, _ => none
  | _ + 1, .flowMappingEnd :: ts => some ([], ts)
  | fuel + 1, ts => do
    let ts ←
      match first, ts with
      | true, ts => some ts
      | false, .flowEntry :: ts => some ts
      | false, _ => none
    match ts with
    | .flowMappingEnd :: ts => return ([], ts)
    | .key :: ts =>
      let (key, ts) ←
        parseUnless h false false (fun t ↦ t matches .value | .flowEntry | .flowMappingEnd) fuel ts
      let (value, ts) ←
        match ts with
        | .value :: ts =>
          parseUnless h false false (fun t ↦ t matches .flowEntry | .flowMappingEnd) fuel ts
        | ts => some (missing, ts)
      let (fields, ts) ← flowFields h false fuel ts
      return ((key, value) :: fields, ts)
    | ts =>
      let (key, ts) ← parse h false false fuel ts
      let (fields, ts) ← flowFields h false fuel ts
      return ((key, missing) :: fields, ts)

end

/-- What the directives in front of a document say of tag handles. At most one gives the version. -/
def directives? : (hasVersion : Bool) → Handles → List Token → Option (Handles × List Token)
  | false, h, .version 1 minor :: ts => if minor = 1 ∨ minor = 2 then directives? true h ts else none
  | _, _, .version _ _ :: _ => none
  | v, h, .tagHandle handle start :: ts =>
    if (h.lookup handle).isSome then none else directives? v (h ++ [(handle, start)]) ts
  | _, h, ts => some (h ++ standardHandles, ts)

def ofTokens? (ts : List Token) : Option (Option Node) := do
  if ts.isEmpty then return none
  let fuel := 3 * ts.length + 3
  let (root, rest) ←
    match ← directives? false [] ts with
    | (h, .documentStart :: rest) =>
      if rest.head?.all Token.isOutside then some (missing, rest)
      else parse h true false fuel rest
    | _ =>
      if ts.head?.any Token.isDirective then none else parse standardHandles true false fuel ts
  if rest.all (· == .documentEnd) then return some root else none

end Node

end CertGate.Yaml
