import CertGate.Pem.Base64
import CertGate.Program

namespace CertGate

inductive FetchError where
  /-- There is no request to send: the URL or a header is not fit for one. -/
  | unbuildable (url : Option Url)
  | unreachable (url : Url)
  | tooManyRedirects (url : Url)
  | undecodable (url : Url)
  deriving DecidableEq

namespace FetchError

def text : FetchError → String
  | unbuildable none => "builder error"
  | unbuildable (some url) => s!"builder error for url ({url.text})"
  | unreachable url => s!"error sending request for url ({url.text})"
  | tooManyRedirects url => s!"error following redirect for url ({url.text})"
  | undecodable url => s!"error decoding response body for url ({url.text})"

end FetchError

namespace Fetch

def isTokenChar (c : Char) : Bool := c.isAlphanum || "!#$%&'*+-.^_|~\x60".toList.contains c

def isHeaderName (s : String) : Bool := s.toList ≠ [] && s.toList.all isTokenChar

/-- Header values hold anything but controls; the tab is not one of them here. -/
def isHeaderValue (s : String) : Bool :=
  s.toList.all fun c ↦ (0x20 ≤ c.toNat && c.toNat ≠ 0x7F) || c == '\t'

def credentials? (u : Url) : Option (String × String) := do
  let name ← Utf8.decode? (Percent.decode (Utf8.encode u.username))
  let password := (Utf8.decode? (Percent.decode (Utf8.encode u.password))).getD ""
  guard (name ≠ "" ∨ u.password ≠ "")
  return (name, password)

def basicAuthorization (name password : String) : String :=
  "Basic " ++ String.ofList (Base64.encode (Utf8.encode s!"{name}:{password}"))

def withoutCredentials (u : Url) : Url × List (String × String) :=
  match credentials? u with
  | some (name, password) =>
    ({ u with username := "", password := "" }, [("authorization", basicAuthorization name password)])
  | none => (u, [])

def longestUrl : Nat := 65534

def isRequestTarget (u : Url) : Bool :=
  u.text.utf8ByteSize ≤ longestUrl &&
    u.host.all fun h ↦ !h.text.toList.any "\"`\x7b\x7d".toList.contains

def lowerName (s : String) : String := String.ofList (s.toList.map Char.toLower)

def request (url : String) (headers : List (String × String)) :
    Except FetchError OutgoingRequest := do
  let some u := Url.parse? url | throw (.unbuildable none)
  if u.host.isNone then throw (.unbuildable none)
  if !headers.all fun h ↦ isHeaderName h.1 && isHeaderValue h.2 then throw (.unbuildable none)
  let (u, authorization) := withoutCredentials u
  if u.scheme ≠ "http" ∧ u.scheme ≠ "https" then throw (.unbuildable (some u))
  if !isRequestTarget u then throw (.unbuildable (some u))
  return ⟨u, authorization ++ headers.map fun h ↦ (lowerName h.1, h.2)⟩

def isRedirect (status : Nat) : Bool := [301, 302, 303, 307, 308].contains status

def target? (origin : Url) (r : IncomingResponse) : Option Url := do
  guard (isRedirect r.status)
  let u ← Url.resolve? (some origin) (← r.location)
  guard (u.host.isSome && isRequestTarget u)
  return u

def isSensitive (name : String) : Bool :=
  ["authorization", "cookie", "cookie2", "proxy-authorization", "www-authenticate"].contains name

def sameServer (a b : Url) : Bool := a.host == b.host && a.effectivePort? == b.effectivePort?

/-- The page that led to a request; a plain connection is not told of an encrypted one. -/
def referer (origin target : Url) : List (String × String) :=
  if origin.scheme = "https" ∧ target.scheme ≠ "https" then []
  else [("referer", { origin with username := "", password := "" }.textWithoutFragment)]

def redirected (r : OutgoingRequest) (target : Url) : OutgoingRequest :=
  let kept := r.headers.filter fun h ↦
    h.1 != "referer" && (sameServer r.url target || !isSensitive h.1)
  ⟨target, kept ++ referer r.url target⟩

/-- Sends a request; what is to be done about a redirect is left to `next`. -/
def send (r : OutgoingRequest) (next : Url → Program (Except FetchError (Url × IncomingResponse))) :
    Program (Except FetchError (Url × IncomingResponse)) := do
  match ← Program.perform (.exchange r) with
  | none => return .error (.unreachable r.url)
  | some response =>
    match target? r.url response with
    | none => return .ok (r.url, response)
    | some target => next target

def follow : (redirects : Nat) → OutgoingRequest → Program (Except FetchError (Url × IncomingResponse))
  | 0, r => send r fun _ ↦ return .error (.tooManyRedirects r.url)
  | redirects + 1, r => send r fun target ↦ follow redirects (redirected r target)

def get (url : String) (headers : List (String × String)) :
    Program (Except FetchError (Url × IncomingResponse)) :=
  match request url headers with
  | .error e => return .error e
  | .ok r => follow 10 r

def isSuccess (r : IncomingResponse) : Bool := 200 ≤ r.status && r.status < 300

end Fetch

end CertGate
