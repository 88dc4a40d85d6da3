import CertGate.Datum

namespace CertGate

inductive ErrorKind where
  | badRequest
  | unauthorized
  | forbidden
  | notFound
  | conflict
  | unprocessable
  | internal
  | database
  | crlUnreachable
  | config
  | io
  deriving DecidableEq, Repr

structure Error where
  kind : ErrorKind
  detail : String
  deriving DecidableEq

abbrev Result := Except Error

namespace Error

def badRequest (detail : String) : Error := ⟨.badRequest, detail⟩

def unauthorized (detail : String) : Error := ⟨.unauthorized, detail⟩

def forbidden (detail : String) : Error := ⟨.forbidden, detail⟩

def notFound (resource : String) : Error := ⟨.notFound, resource⟩

def unprocessable (detail : String) : Error := ⟨.unprocessable, detail⟩

def internal (detail : String) : Error := ⟨.internal, detail⟩

def database (detail : String) : Error := ⟨.database, detail⟩

def crlUnreachable (url : String) : Error := ⟨.crlUnreachable, url⟩

def config (detail : String) : Error := ⟨.config, detail⟩

def io (detail : String) : Error := ⟨.io, detail⟩

def malformedJson (detail : String) : Error := badRequest s!"Poorly formatted JSON. {detail}"

def conflict (resource field value : String) : Error :=
  ⟨.conflict, s!"{resource} object with {field}: {value} already exists"⟩

def unsupported (place content : String) : Error :=
  unprocessable s!"{place}: {content} is not yet supported"

def emptyField (resource field : String) : Error :=
  unprocessable s!"{resource} object contains empty fields. empty value for field: {field}"

def invalidField (field detail : String) : Error :=
  unprocessable s!"Field: {field} contains invalid data. {detail}"

def message (e : Error) : String :=
  match e.kind with
  | .badRequest | .unauthorized | .forbidden | .conflict | .unprocessable => e.detail
  | .notFound => s!"{e.detail} was not found"
  | .internal => s!"Internal Error: {e.detail}"
  | .database => s!"Database Error: {e.detail}"
  | .crlUnreachable => s!"Could not access CRL {e.detail}"
  | .config => s!"Configuration error: {e.detail}"
  | .io => s!"IO error: {e.detail}"

def statusCode (e : Error) : Nat :=
  match e.kind with
  | .badRequest => 400
  | .unauthorized => 401
  | .forbidden | .crlUnreachable => 403
  | .notFound => 404
  | .conflict => 409
  | .unprocessable => 422
  | .internal | .database | .config | .io => 500

def statusText (e : Error) : String :=
  match e.kind with
  | .badRequest => "BAD REQUEST"
  | .unauthorized => "UNAUTHORIZED"
  | .forbidden | .crlUnreachable => "ACCESS_FORBIDDEN"
  | .notFound => "NOT FOUND"
  | .conflict => "CONFLICT"
  | .unprocessable => "UNPROCESSABLE ENTITY"
  | .internal | .database | .config | .io => "INTERNAL SERVER ERROR"

def body (e : Error) : Datum :=
  .record [("error", .record [
    ("message", .text e.message),
    ("code", .number (.int e.statusCode)),
    ("status", .text e.statusText)])]

end Error

end CertGate
