import CertGate.ServiceType
import CertGate.Url.Reader

namespace CertGate

abbrev HeaderTable := Table String

namespace AuthMethod

inductive Variant where
  | apiKey (key : String)
  | headers (headers : HeaderTable)
  /-- No request: the answer is made up from the unique key of the binding. -/
  | mock
  deriving DecidableEq

def apiKeyTag : String := "api-key"

def headersTag : String := "headers"

def mockTag : String := "mock"

def Variant.tag : Variant → String
  | apiKey _ => apiKeyTag
  | headers _ => headersTag
  | mock => mockTag

end AuthMethod

structure AuthMethod where
  serviceUuid : String := ""
  /-- A host of the service type, and the host that is asked. -/
  host : String := ""
  port : UInt16 := 0
  path : String := ""
  retrievalField : String := ""
  uuid : String := ""
  createdOn : String := ""
  variant : AuthMethod.Variant
  deriving DecidableEq

structure AuthMethodRecord where
  serviceUuid : String
  host : String
  port : UInt16
  path : String := ""
  retrievalField : String := ""
  kind : String
  uuid : String
  createdOn : String := ""
  accessKey : Option String := none
  headers : Option HeaderTable := none
  deriving DecidableEq

namespace AuthMethodRecord

def headersOf? : Datum → Option HeaderTable := Datum.tableOf? Datum.string?

def headersDatum (t : HeaderTable) : Datum := .record (t.toList.map fun e ↦ (e.1, .text e.2))

def ofDatum? (d : Datum) : Option AuthMethodRecord := do
  let [serviceUuid, host, port, path, field, kind, uuid, createdOn, accessKey, headers] ←
    d.strictSlots? ["service_uuid", "host", "port", "path", "retrieval_field", "type", "uuid",
      "created_on", "access_key", "headers"] | none
  return {
    serviceUuid := ← serviceUuid.required Datum.string?
    host := ← host.required Datum.string?
    port := ← port.required Datum.port?
    path := ← path.orElse "" Datum.string?
    retrievalField := ← field.orElse "" Datum.string?
    kind := ← kind.required Datum.string?
    uuid := ← uuid.required Datum.string?
    createdOn := ← createdOn.orElse "" Datum.string?
    accessKey := ← accessKey.orElse none (Datum.nullable? Datum.string?)
    headers := ← headers.orElse none (Datum.nullable? headersOf?) }

def toDatum (r : AuthMethodRecord) : Datum :=
  .record <|
    [("service_uuid", .text r.serviceUuid), ("host", .text r.host), ("port", UInt16.datum r.port),
      ("path", .text r.path), ("retrieval_field", .text r.retrievalField), ("type", .text r.kind),
      ("uuid", .text r.uuid), ("created_on", .text r.createdOn)] ++
    (r.accessKey.map fun k ↦ ("access_key", Datum.text k)).toList ++
    (r.headers.map fun h ↦ ("headers", headersDatum h)).toList

end AuthMethodRecord

namespace AuthMethod

def resource : String := "auth method"

def tag (a : AuthMethod) : String := a.variant.tag

def toRecord (a : AuthMethod) : AuthMethodRecord where
  serviceUuid := a.serviceUuid
  host := a.host
  port := a.port
  path := a.path
  retrievalField := a.retrievalField
  kind := a.tag
  uuid := a.uuid
  createdOn := a.createdOn
  accessKey := match a.variant with | .apiKey key => some key | _ => none
  headers := match a.variant with | .headers h => some h | _ => none

def variantOf? (r : AuthMethodRecord) : Option Variant :=
  if r.kind = apiKeyTag then some (.apiKey (r.accessKey.getD ""))
  else if r.kind = headersTag then some (.headers (r.headers.getD ∅))
  else if r.kind = mockTag then some .mock
  else none

def ofRecord (r : AuthMethodRecord) : Result AuthMethod :=
  match variantOf? r with
  | some variant => pure {
      serviceUuid := r.serviceUuid
      host := r.host
      port := r.port
      path := r.path
      retrievalField := r.retrievalField
      uuid := r.uuid
      createdOn := r.createdOn
      variant }
  | none => throw (.internal s!"Stored auth method {r.uuid} has unknown type {r.kind}")

def toDatum (a : AuthMethod) : Datum := a.toRecord.toDatum

structure Patch where
  host : Option String := none
  port : Option UInt16 := none
  path : Option String := none
  retrievalField : Option String := none
  accessKey : Option String := none
  headers : Option HeaderTable := none
  deriving DecidableEq

def Patch.ofDatum? (d : Datum) : Option Patch := do
  let [host, port, path, field, accessKey, headers] ← d.strictSlots?
    ["host", "port", "path", "retrieval_field", "access_key", "headers"] | none
  return {
    host := ← host.optional Datum.string?
    port := ← port.optional Datum.port?
    path := ← path.optional Datum.string?
    retrievalField := ← field.optional Datum.string?
    accessKey := ← accessKey.optional Datum.string?
    headers := ← headers.optional AuthMethodRecord.headersOf? }

/-- A variant takes only the fields that are its own. -/
def Variant.apply (v : Variant) (p : Patch) : Variant :=
  match v with
  | .apiKey key => .apiKey (p.accessKey.getD key)
  | .headers h => .headers (p.headers.getD h)
  | .mock => .mock

def apply (a : AuthMethod) (p : Patch) : AuthMethod :=
  { a with
    host := p.host.getD a.host
    port := p.port.getD a.port
    path := p.path.getD a.path
    retrievalField := p.retrievalField.getD a.retrievalField
    variant := a.variant.apply p }

def holds (pattern : List Char) : List Char → Bool
  | [] => pattern.isEmpty
  | c :: cs => pattern.isPrefixOf (c :: cs) || holds pattern cs

def checkFilled (a : AuthMethod) : Result Unit := do
  if let some field := firstEmpty? [("service_uuid", a.serviceUuid), ("host", a.host),
    ("path", a.path), ("retrieval_field", a.retrievalField)]
  then throw (.emptyField resource field)
  if a.port = 0 then throw (.emptyField resource "port")

/-- The text whose form as a URL is checked; the requests may use another scheme. -/
def endpoint (a : AuthMethod) : String := s!"https://{a.host}:{a.port.toNat}{a.path}"

def checkPlaceholder (path placeholder : String) : Result Unit :=
  if holds placeholder.toList path.toList then pure ()
  else throw (.invalidField "path" s!"Missing {placeholder} interpolation")

def checkVariant (a : AuthMethod) : Result Unit :=
  match a.variant with
  | .apiKey key => do
    if key = "" then throw (.emptyField resource "access_key")
    checkPlaceholder a.path identifierPlaceholder
    checkPlaceholder a.path accessKeyPlaceholder
  | .headers h => if h.isEmpty then throw (.emptyField resource "headers") else pure ()
  | .mock => pure ()

def checkAgainst (a : AuthMethod) (s : ServiceType) : Result Unit := do
  if !s.hasHost a.host then throw (.notFound "Host")
  if (Url.parse? a.endpoint).isNone then
    throw (.unprocessable s!"The url to access resources in invalid. URL: {a.endpoint}")
  a.checkVariant

def replaceFirst (pattern value : List Char) : List Char → List Char
  | [] => if pattern = [] then value else []
  | c :: cs =>
    if pattern.isPrefixOf (c :: cs) then value ++ (c :: cs).drop pattern.length
    else c :: replaceFirst pattern value cs

/-- The URL to ask for the client with a unique key: first the key of the client is filled in, then
the access key, each where its placeholder stands first at that time. -/
def resourceUrl (a : AuthMethod) (scheme uniqueKey : String) : String :=
  let template := s!"{scheme}://{a.host}:{a.port.toNat}{a.path}".toList
  let url := replaceFirst identifierPlaceholder.toList uniqueKey.toList template
  String.ofList <|
    match a.variant with
    | .apiKey key => replaceFirst accessKeyPlaceholder.toList key.toList url
    | _ => url

end AuthMethod

end CertGate
