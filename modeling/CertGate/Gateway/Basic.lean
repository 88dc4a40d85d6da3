import CertGate.Authentication
import CertGate.Gateway.Key
import CertGate.Gateway.Route

namespace CertGate

structure Gateway where
  settings : Settings
  registry : Registry
  deriving DecidableEq

namespace Gateway

open Http

def ofSettings (s : Settings) : Gateway := ⟨s, Registry.ofSettings s⟩

def version : String := "0.4.0"

def authenticationSuffix : String := ":authx509"

def dropSuffix? (suffix s : String) : Option String :=
  if suffix.toList.isSuffixOf s.toList then
    some (String.ofList (s.toList.take (s.toList.length - suffix.toList.length)))
  else none

def readBody {α : Type} (read : Datum → Option α) (body : Bytes) : Result α :=
  match Json.read? body >>= read with
  | some a => pure a
  | none => throw (.malformedJson "")

def listing (name : String) (items : List Datum) : Response :=
  .json 200 (.record [(name, .list items)])

def serviceTypeWithHost (name host : String) : Program ServiceType := do
  let t ← ServiceTypes.findByName name
  if t.hasHost host then return t else throw (.notFound "Host")

def authMethodAt (g : Gateway) (serviceType host : String) : Program AuthMethod := do
  let t ← serviceTypeWithHost serviceType host
  AuthMethods.find g.registry t.uuid host t.authMethod

def handle (g : Gateway) (body : Bytes) (chain : List Bytes) : Route → Method → Program Response
  | .health, _ =>
    return .json 200 (.record [("status", .text "ok"), ("version", .text version)])
  | .authentication t last, _ => do
    match dropSuffix? authenticationSuffix last with
    | none => throw (.notFound "Resource")
    | some host =>
      let token ← Authentication.authenticate g.settings g.registry chain t host
      return .json 200 (.record [("token", token)])
  | .serviceTypes, .post => do
    let t ← readBody ServiceType.ofDatum? body
    return .json 201 (← ServiceTypes.create g.settings t).toDatum
  | .serviceTypes, _ => do
    return listing "service_types" ((← ServiceTypes.findAll).map ServiceType.toDatum)
  | .serviceType name, .put => do
    let changes ← readBody ServiceType.Update.ofDatum? body
    let t ← ServiceTypes.findByName name
    return .json 200 (← ServiceTypes.update g.settings t changes).toDatum
  | .serviceType name, .delete => do
    ServiceTypes.delete (← ServiceTypes.findByName name)
    return .noContent
  | .serviceType name, _ => return .json 200 (← ServiceTypes.findByName name).toDatum
  | .newAuthMethod t, _ => do
    let t ← ServiceTypes.findByName t
    return .json 201 (← AuthMethods.create g.registry t body).toDatum
  | .authMethods, _ => do
    return listing "auth_methods" ((← AuthMethods.findAll).map AuthMethod.toDatum)
  | .authMethod t host, .put => do
    let a ← g.authMethodAt t host
    return .json 200 (← AuthMethods.update a body).toDatum
  | .authMethod t host, .delete => do
    AuthMethods.delete (← g.authMethodAt t host)
    return .noContent
  | .authMethod t host, _ => return .json 200 (← g.authMethodAt t host).toDatum
  | .hostBindings t host, _ => do
    let t ← serviceTypeWithHost t host
    return listing "bindings" ((← Bindings.findByServiceAndHost t.uuid host).map Binding.toDatum)
  | .hostBinding t host authIdentifier, _ => do
    let t ← serviceTypeWithHost t host
    let b ← Bindings.findByIdentity ⟨authIdentifier, t.uuid, host, Authentication.x509⟩
    return .json 200 b.toDatum
  | .bindings, _ => do
    return listing "bindings" ((← Bindings.findAll).map Binding.toDatum)
  | .binding name, .post => do
    let b ← readBody Binding.ofDatum? body
    return .json 201 (← Bindings.create { b with name }).toDatum
  | .binding name, .put => do
    let changes ← readBody Binding.Update.ofDatum? body
    let b ← Bindings.findByName name
    return .json 200 (← Bindings.update b changes).toDatum
  | .binding name, .delete => do
    Bindings.delete (← Bindings.findByName name)
    return .noContent
  | .binding name, _ => return .json 200 (← Bindings.findByName name).toDatum

/-- Bodies of these methods are read before anything else is done. -/
def readsBody (m : Method) : Bool := m = .post || m = .put

def respondAt (g : Gateway) (r : Request) (route : Route) : Program Response := do
  if route.isManagement ∧ !keyMatches (presentedKey r.target.query) g.settings.serviceToken then
    throw (.unauthorized "Wrong Credentials")
  let method := r.method.answeredAs
  if !route.methods.contains method then return .methodNotAllowed
  match route.decoded with
  | .error name => return .illegible name
  | .ok route =>
    if readsBody method ∧ Response.longestBody < r.body.length then return .tooLong
    g.handle r.body r.chain route method

/-- The response to a request. Errors are responses too, and a request for the head of a response
is spared its body. -/
def respond (g : Gateway) (r : Request) : Program Response := do
  if r.method = .options then return { status := 200 }
  match Route.ofPath r.target.path with
  | none => return .notFound
  | some route =>
    let response ← tryCatch (g.respondAt r route) fun e ↦ return .ofError e
    return if r.method = .head then response.withoutBody else response

end Gateway

end CertGate
