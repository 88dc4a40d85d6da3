import CertGate.Url.Basic

namespace CertGate.Url

def isEscapedInFragment (c : Char) : Bool := isControl c || " \"<>`".toList.contains c

def isEscapedInQuery (special : Bool) (c : Char) : Bool :=
  isControl c || " \"#<>".toList.contains c || (special && c == '\'')

def isEscapedInPath (c : Char) : Bool := isControl c || " \"#<>?`\x7b\x7d".toList.contains c

def isEscapedInUserinfo (c : Char) : Bool := isEscapedInPath c || "/:;=@[\\]^|".toList.contains c

def escaped (inClass : Char → Bool) (cs : List Char) : String := String.ofList (escape inClass cs)

def isTrimmed (c : Char) : Bool := c.toNat ≤ 0x20

/-- Controls and spaces at the ends do not count, nor do tabs and line ends anywhere. -/
def cleaned (s : String) : List Char :=
  (((s.toList.dropWhile isTrimmed).reverse.dropWhile isTrimmed).reverse).filter fun c ↦
    c != '\t' && c != '\n' && c != '\r'

def lower (cs : List Char) : List Char := cs.map Char.toLower

def isSchemeChar (c : Char) : Bool := c.isAlphanum || c == '+' || c == '-' || c == '.'

def scheme? (cs : List Char) : Option (String × List Char) :=
  match cs with
  | c :: _ =>
    if c.isAlpha then
      match cs.dropWhile isSchemeChar with
      | ':' :: rest => some (String.ofList (lower (cs.takeWhile isSchemeChar)), rest)
      | _ => none
    else none
  | [] => none

def isSlash (special : Bool) (c : Char) : Bool := c == '/' || (special && c == '\\')

def endsAuthority (special : Bool) (c : Char) : Bool := isSlash special c || c == '?' || c == '#'

def cutCredentials (cs : List Char) : Option (List Char × List Char) :=
  match (splitOn '@' cs).reverse with
  | hostPart :: part :: parts =>
    some (((parts.reverse ++ [part]).intersperse ['@']).flatten, hostPart)
  | _ => none

/-- The host and the text of the port, which starts at the first colon outside of brackets. -/
def cutPort (inBrackets : Bool) : List Char → List Char × Option (List Char)
  | [] => ([], none)
  | c :: cs =>
    if c = ':' ∧ !inBrackets then ([], some cs)
    else
      let (h, p) := cutPort (if c = '[' then true else if c = ']' then false else inBrackets) cs
      (c :: h, p)

/-- A port of at most 16 bits; none if the text is empty or names the default port. -/
def port? (scheme : String) (cs : List Char) : Option (Option Nat) :=
  if cs.all Char.isDigit then
    if cs = [] then some none
    else
      let n := ofDigits 10 cs
      if n < 1 <<< 16 then some (if defaultPort? scheme = some n then none else some n) else none
  else none

def authority? (scheme : String) (cs : List Char) : Option Url := do
  let special := isSpecial scheme
  let (userinfo, hostPart) := (cutCredentials cs).getD ([], cs)
  let (hostText, portText) := cutPort false hostPart
  guard (hostText ≠ [] ∨ (!special ∧ portText.isNone ∧ (cutCredentials cs).isNone))
  let host ← host? special hostText
  let port ← port? scheme (portText.getD [])
  return {
    scheme, host, port
    username := escaped isEscapedInUserinfo (userinfo.takeWhile (· != ':'))
    password := escaped isEscapedInUserinfo ((userinfo.dropWhile (· != ':')).drop 1) }

def isSingleDot (s : String) : Bool :=
  let s := lower s.toList
  s == ".".toList || s == "%2e".toList

def isDoubleDot (s : String) : Bool :=
  [["..", ".%2e"], ["%2e.", "%2e%2e"]].flatten.any fun t ↦ t.toList == lower s.toList

def isDriveLetter (s : String) : Bool :=
  match s.toList with
  | [c, d] => c.isAlpha && (d == ':' || d == '|')
  | _ => false

/-- The path without its last segment; a drive letter of a file path stays. -/
def shorten (scheme : String) (path : List String) : List String :=
  match path with
  | [s] => if scheme = "file" ∧ isDriveLetter s then path else []
  | _ => path.dropLast

def appendSegments (scheme : String) : (path : List String) → List (List Char) → List String
  | path, [] => path
  | path, raw :: rest =>
    let s := escaped isEscapedInPath raw
    let isLast := rest.isEmpty
    if isDoubleDot s then
      let path := shorten scheme path
      appendSegments scheme (if isLast then path ++ [""] else path) rest
    else if isSingleDot s then appendSegments scheme (if isLast then path ++ [""] else path) rest
    else
      let s :=
        if scheme = "file" ∧ path = [] ∧ isDriveLetter s then
          String.ofList (s.toList.take 1 ++ [':'])
        else s
      appendSegments scheme (path ++ [s]) rest

def slashesToOne (special : Bool) (cs : List Char) : List Char :=
  cs.map fun c ↦ if isSlash special c then '/' else c

def withSegments (u : Url) (path : List String) (cs : List Char) : Url :=
  let isEnd (c : Char) := c == '?' || c == '#'
  let raw := splitOn '/' (slashesToOne (isSpecial u.scheme) (cs.takeWhile (!isEnd ·)))
  { u with path := .segments (appendSegments u.scheme path raw) }

def withTail (u : Url) (cs : List Char) : Url :=
  let u :=
    match cs with
    | '?' :: rest =>
      let raw := rest.takeWhile (· != '#')
      { u with query := some (escaped (isEscapedInQuery (isSpecial u.scheme)) raw) }
    | _ => u
  match cs.dropWhile (· != '#') with
  | _ :: rest => { u with fragment := some (escaped isEscapedInFragment rest) }
  | [] => u

def tail (cs : List Char) : List Char := cs.dropWhile fun c ↦ c != '?' && c != '#'

def withPathStart (u : Url) (cs : List Char) : Url :=
  let special := isSpecial u.scheme
  let u :=
    match cs with
    | c :: rest =>
      if isSlash special c then withSegments u [] rest
      else if c = '?' ∨ c = '#' then if special then { u with path := .segments [""] } else u
      else withSegments u [] cs
    | [] => if special then { u with path := .segments [""] } else u
  withTail u (tail cs)

def fromAuthority? (scheme : String) (cs : List Char) : Option Url := do
  let ends := endsAuthority (isSpecial scheme)
  let u ← authority? scheme (cs.takeWhile (!ends ·))
  return withPathStart u (cs.dropWhile (!ends ·))

/-- The host of a file URL, where `localhost` and an empty host are the same. -/
def fileHost? (cs : List Char) : Option Host :=
  if cs = [] then some (.domain "")
  else (host? true cs).map fun h ↦ if h = .domain "localhost" then .domain "" else h

def fromFile? (base : Option Url) (cs : List Char) : Option Url :=
  let empty : Url := { scheme := "file", host := some (.domain "") }
  match cs with
  | a :: b :: rest =>
    if isSlash true a ∧ isSlash true b then
      let name := rest.takeWhile (!endsAuthority true ·)
      if isDriveLetter (String.ofList name) then some (withPathStart empty rest)
      else
        (fileHost? name).map fun h ↦
          withPathStart { empty with host := some h } (rest.dropWhile (!endsAuthority true ·))
    else if isSlash true a then
      some (withPathStart { empty with host := (base.bind (·.host)).getD (.domain "") } cs)
    else some (withPathStart empty cs)
  | _ => some (withPathStart empty cs)

def fromOpaque (scheme : String) (cs : List Char) : Url :=
  let path := cs.takeWhile fun c ↦ c != '?' && c != '#'
  withTail { scheme, path := .opaqueText (escaped isControl path) } (tail cs)

/-- A reference without a scheme, or with the special scheme of its base. -/
def relativeTo? (base : Url) (cs : List Char) : Option Url :=
  let special := isSpecial base.scheme
  let bare := { base with query := none, fragment := none }
  match cs with
  | a :: b :: rest =>
    if isSlash special a ∧ isSlash special b then
      fromAuthority? base.scheme (if special then rest.dropWhile (isSlash true) else rest)
    else if isSlash special a then some (withPathStart bare cs)
    else some (fromBasePath base bare cs)
  | [a] => if isSlash special a then some (withPathStart bare cs) else some (fromBasePath base bare cs)
  | [] => some { bare with query := base.query }
where
  fromBasePath (base bare : Url) (cs : List Char) : Url :=
    match cs with
    | '?' :: _ => withTail bare cs
    | '#' :: _ => withTail { bare with query := base.query } cs
    | _ =>
      let path :=
        match base.path with
        | .segments list => shorten base.scheme list
        | .opaqueText _ => []
      withTail (withSegments bare path cs) (tail cs)

def absolute? (base : Option Url) (scheme : String) (rest : List Char) : Option Url :=
  if scheme = "file" then fromFile? base rest
  else if isSpecial scheme then
    match base with
    | some b =>
      if b.scheme = scheme ∧ !"//".toList.isPrefixOf rest then relativeTo? b rest
      else fromAuthority? scheme (rest.dropWhile (isSlash true))
    | none => fromAuthority? scheme (rest.dropWhile (isSlash true))
  else
    match rest with
    | '/' :: '/' :: rest => fromAuthority? scheme rest
    | '/' :: _ => some (withPathStart { scheme } rest)
    | _ => some (fromOpaque scheme rest)

def resolve? (base : Option Url) (s : String) : Option Url :=
  let cs := cleaned s
  match scheme? cs with
  | some (scheme, rest) => absolute? base scheme rest
  | none =>
    match base with
    | none => none
    | some b =>
      match b.path with
      | .opaqueText _ => if cs.head? = some '#' then some (withTail b cs) else none
      | .segments _ => if b.scheme = "file" then fromFile? base cs else relativeTo? b cs

def parse? (s : String) : Option Url := resolve? none s

end CertGate.Url
