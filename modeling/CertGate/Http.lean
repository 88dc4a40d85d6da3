import CertGate.Error
import CertGate.Text.Percent

namespace CertGate.Http

inductive Method where
  | get
  | head
  | post
  | put
  | delete
  | options
  | other (name : String)
  deriving DecidableEq

namespace Method

def ofText (s : String) : Method :=
  if s = "GET" then get
  else if s = "HEAD" then head
  else if s = "POST" then post
  else if s = "PUT" then put
  else if s = "DELETE" then delete
  else if s = "OPTIONS" then options
  else other s

/-- The method whose response, less its body, answers a request. -/
def answeredAs : Method → Method
  | head => get
  | m => m

end Method

structure Target where
  path : String
  query : Option String := none
  deriving DecidableEq

namespace Target

def withoutAuthority (cs : List Char) : List Char :=
  match cs.dropWhile (· ≠ ':') with
  | ':' :: '/' :: '/' :: rest =>
    if cs.head? = some '/' then cs
    else
      match rest.dropWhile fun c ↦ c ≠ '/' ∧ c ≠ '?' ∧ c ≠ '#' with
      | '/' :: path => '/' :: path
      | tail => '/' :: tail
  | _ => cs

/-- The path ends at the first `?`, the query at the first `#`. -/
def ofText (s : String) : Target :=
  let cs := (withoutAuthority s.toList).takeWhile (· ≠ '#')
  ⟨String.ofList (cs.takeWhile (· ≠ '?')),
    match cs.dropWhile (· ≠ '?') with
    | _ :: query => some (String.ofList query)
    | [] => none⟩

end Target

structure Request where
  method : Method
  target : Target
  body : Bytes := []
  chain : List Bytes := []
  deriving DecidableEq

inductive Body where
  | empty
  | json (d : Datum)
  | text (s : String)
  deriving Inhabited

structure Response where
  status : Nat
  body : Body := .empty
  deriving Inhabited

namespace Response

def json (status : Nat) (d : Datum) : Response := ⟨status, .json d⟩

def ofError (e : Error) : Response := json e.statusCode e.body

def noContent : Response := ⟨204, .empty⟩

def notFound : Response := ⟨404, .empty⟩

def methodNotAllowed : Response := ⟨405, .empty⟩

def withoutBody (r : Response) : Response := { r with body := .empty }

def longestBody : Nat := 2 <<< 20

def tooLong : Response := ⟨413, .text "Failed to buffer the request body: length limit exceeded"⟩

def illegible (name : String) : Response :=
  ⟨400, .text ("Invalid URL: Invalid UTF-8 in \x60" ++ name ++ "\x60")⟩

end Response

end CertGate.Http
