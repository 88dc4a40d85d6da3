import CertGate.Url.Host

namespace CertGate

inductive Url.Path where
  | segments (list : List String)
  /-- The path of a scheme that has no hierarchy. -/
  | opaqueText (text : String)
  deriving DecidableEq, Inhabited

structure Url where
  scheme : String
  username : String := ""
  password : String := ""
  host : Option Url.Host := none
  /-- The port, unless it is the default one of the scheme. -/
  port : Option Nat := none
  path : Url.Path := .segments []
  query : Option String := none
  fragment : Option String := none
  deriving DecidableEq, Inhabited

namespace Url

def specialSchemes : List (String × Option Nat) := [
  ("http", some 80), ("https", some 443), ("ws", some 80), ("wss", some 443), ("ftp", some 21),
  ("file", none)]

def isSpecial (scheme : String) : Bool := specialSchemes.any (·.1 == scheme)

def defaultPort? (scheme : String) : Option Nat := (specialSchemes.lookup scheme).bind id

def effectivePort? (u : Url) : Option Nat := u.port <|> defaultPort? u.scheme

def credentials (u : Url) : String :=
  if u.username = "" ∧ u.password = "" then ""
  else u.username ++ (if u.password = "" then "" else ":" ++ u.password) ++ "@"

def Path.text : Path → String
  | segments list => String.join (list.map ("/" ++ ·))
  | opaqueText text => text

def authority (u : Url) : String :=
  match u.host, u.path with
  | some h, _ => "//" ++ u.credentials ++ h.text ++ u.port.elim "" fun p ↦ s!":{p}"
  | none, .segments ("" :: _ :: _) => "/."
  | none, _ => ""

def textWithoutFragment (u : Url) : String :=
  u.scheme ++ ":" ++ u.authority ++ u.path.text ++ u.query.elim "" ("?" ++ ·)

def text (u : Url) : String := u.textWithoutFragment ++ u.fragment.elim "" ("#" ++ ·)

end Url

end CertGate
