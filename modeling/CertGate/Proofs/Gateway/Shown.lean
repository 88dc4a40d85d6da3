import CertGate.Proofs.Gateway.Path

namespace CertGate.Gateway

open Http (Method Request Response)
open Program

def serving (s : Store) (name host : String) : Result ServiceType := do
  let t ← ServiceTypes.named s name
  if t.hasHost host then return t else throw (.notFound "Host")

theorem serviceTypeWithHost_inspects (name host : String) :
    (serviceTypeWithHost name host).Inspects (serving · name host) :=
  .bind (ServiceTypes.findByName_inspects name) fun t ↦ .ite (.pure t) fun _ _ ↦ rfl

theorem serving_eq_ok_iff {s : Store} {name host : String} {t : ServiceType} :
    serving s name host = .ok t ↔
      IsOnly (·.name = name) s.serviceTypes.toList t ∧ host ∈ t.hosts := by
  rw [serving, Result.bind_eq_ok_iff]
  simp only [ServiceTypes.named_eq_ok_iff]
  constructor
  · rintro ⟨u, hu, h⟩
    by_cases hh : host ∈ u.hosts
    · obtain rfl : u = t := by simpa [ServiceType.hasHost, hh] using h
      exact ⟨hu, hh⟩
    · simp [ServiceType.hasHost, hh] at h
  · rintro ⟨ht, hh⟩
    exact ⟨t, ht, by simp [ServiceType.hasHost, hh]⟩

def authMethodOf (g : Gateway) (s : Store) (serviceType host : String) : Result AuthMethod := do
  let t ← serving s serviceType host
  AuthMethods.reaching g.registry s t.uuid host t.authMethod

theorem authMethodAt_inspects (g : Gateway) (serviceType host : String) :
    (g.authMethodAt serviceType host).Inspects (g.authMethodOf · serviceType host) :=
  .bind (serviceTypeWithHost_inspects serviceType host) fun t ↦
    AuthMethods.find_inspects g.registry t.uuid host t.authMethod

theorem authMethodOf_eq_ok_iff {g : Gateway} {s : Store} {name host : String} {a : AuthMethod} :
    g.authMethodOf s name host = .ok a ↔ ∃ t r, IsOnly (·.name = name) s.serviceTypes.toList t ∧
      host ∈ t.hosts ∧ g.registry.isRegistered t.authMethod = true ∧
      IsOnly (AuthMethods.IsFor t.uuid host t.authMethod) s.authMethods.toList r ∧
      AuthMethod.ofRecord r = .ok a := by
  simp only [authMethodOf, Result.bind_eq_ok_iff, serving_eq_ok_iff, AuthMethods.reaching_eq_ok_iff]
  constructor
  · rintro ⟨t, ⟨ht, hh⟩, hreg, r, hr, ha⟩
    exact ⟨t, r, ht, hh, hreg, hr, ha⟩
  · rintro ⟨t, r, ht, hh, hreg, hr, ha⟩
    exact ⟨t, ⟨ht, hh⟩, hreg, r, hr, ha⟩

def bindingOf (s : Store) (serviceType host authIdentifier : String) : Result Binding := do
  let t ← serving s serviceType host
  Bindings.identified s ⟨authIdentifier, t.uuid, host, Authentication.x509⟩

def Shows (g : Gateway) (s : State) (r : Request) (d : Datum) : Prop :=
  ∀ w, run w (g.respond r) s = (.ok (.json 200 d), s)

def Fails (g : Gateway) (s : State) (r : Request) (e : Error) : Prop :=
  ∀ w, run w (g.respond r) s = (.ok (.ofError e), s)

instance : Inhabited World := ⟨⟨fun _ ↦ none, default, fun _ ↦ ""⟩⟩

/-- The handler of a route shows what a function finds in the store. -/
def Route.Reads (g : Gateway) (route : Route) (f : Store → Result Datum) : Prop :=
  ∀ body chain, (g.handle body chain route .get).Inspects fun s ↦ (f s).map (Response.json 200)

variable {g : Gateway} {r : Request} {s : State} {route : Route} {f : Store → Result Datum}
  {d : Datum} {e : Error}

theorem Route.Reads.of_bind {α : Type} {p : Program α} {f : Store → Result α} (hp : p.Inspects f)
    {toDatum : α → Datum} (h : ∀ body chain,
      g.handle body chain route .get = p >>= fun a ↦ pure (.json 200 (toDatum a))) :
    route.Reads g fun s ↦ (f s).map toDatum := by
  intro body chain w s
  rw [h, hp.run_bind]
  dsimp only
  cases f s.store <;> rfl

theorem reads_serviceType (g : Gateway) (name : String) :
    (Route.serviceType name).Reads g fun s ↦ (ServiceTypes.named s name).map ServiceType.toDatum :=
  .of_bind (ServiceTypes.findByName_inspects name) fun _ _ ↦ rfl

theorem reads_binding (g : Gateway) (name : String) :
    (Route.binding name).Reads g fun s ↦ (Bindings.named s name).map Binding.toDatum :=
  .of_bind (Bindings.findByName_inspects name) fun _ _ ↦ rfl

theorem reads_authMethod (g : Gateway) (serviceType host : String) :
    (Route.authMethod serviceType host).Reads g fun s ↦
      (g.authMethodOf s serviceType host).map AuthMethod.toDatum :=
  .of_bind (authMethodAt_inspects g serviceType host) fun _ _ ↦ rfl

theorem reads_hostBinding (g : Gateway) (serviceType host authIdentifier : String) :
    (Route.hostBinding serviceType host authIdentifier).Reads g fun s ↦
      (bindingOf s serviceType host authIdentifier).map Binding.toDatum := by
  have hp : (serviceTypeWithHost serviceType host >>= fun t ↦
      Bindings.findByIdentity ⟨authIdentifier, t.uuid, host, Authentication.x509⟩).Inspects
        (bindingOf · serviceType host authIdentifier) :=
    .bind (serviceTypeWithHost_inspects serviceType host) fun _ ↦ Bindings.findByIdentity_inspects _
  exact .of_bind hp fun _ _ ↦ (bind_assoc ..).symm

theorem json_200_ne_ofError (d : Datum) (e : Error) : Response.json 200 d ≠ .ofError e := by
  intro h
  have hs : 200 = e.statusCode := congrArg Response.status h
  rw [Error.statusCode] at hs
  cases hk : e.kind <;> simp [hk] at hs

namespace Asks

theorem run_of_reads (h : g.Asks r route) (he : route.endsEmpty = false) (hm : .get ∈ route.methods)
    (hf : route.Reads g f) (w : World) :
    run w (g.respond r) s = (.ok (told ((f s.store).map (Response.json 200))), s) := by
  rw [h.run_eq he hm, hf]

theorem shows_iff (h : g.Asks r route) (he : route.endsEmpty = false) (hm : .get ∈ route.methods)
    (hf : route.Reads g f) : g.Shows s r d ↔ f s.store = .ok d := by
  simp only [Shows, h.run_of_reads he hm hf, Prod.mk.injEq, and_true, Except.ok.injEq, forall_const]
  cases f s.store with
  | ok d' => simp [told, Except.map, Response.json]
  | error e => simp [told, Except.map, (json_200_ne_ofError d e).symm]

theorem fails (h : g.Asks r route) (he : route.endsEmpty = false) (hm : .get ∈ route.methods)
    (hf : route.Reads g f) (hx : f s.store = .error e) : g.Fails s r e := by
  intro w
  rw [h.run_of_reads he hm hf, hx]
  rfl

end Asks

end CertGate.Gateway
