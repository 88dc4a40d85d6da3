import CertGate.Proofs.Authentication
import CertGate.Proofs.Gateway.Shown
import CertGate.Proofs.ReadBack

namespace CertGate

open Program

namespace Certificate

/-- A certificate for the first half of this century, with the name `CN=a b` and no extensions. -/
def named : Bytes :=
  [48, 78, 48, 68, 2, 1, 1, 48, 3, 6, 1, 42, 48, 0, 48, 30, 23, 13, 48, 48, 48, 49, 48, 49, 48, 48, 48, 48,
    48, 48, 90, 23, 13, 52, 57, 48, 49, 48, 49, 48, 48, 48, 48, 48, 48, 90, 48, 14, 49, 12, 48, 10, 6, 3, 85,
    4, 3, 12, 3, 97, 32, 98, 48, 8, 48, 3, 6, 1, 42, 3, 1, 0, 48, 3, 6, 1, 42, 3, 1, 0]

theorem ofDer_named :
    ofDer named = .ok ⟨1, ⟨946684800, 0⟩, ⟨2493072000, 0⟩, [⟨"2.5.4.3", "a b"⟩], []⟩ := by decide +kernel

end Certificate

namespace Authentication

/-- The way of a client up to its binding and the auth method, from which its token is retrieved. -/
def arrive (settings : Settings) (registry : Registry) (chain : List Bytes)
    (serviceType host : String) : Program (Binding × AuthMethod) := do
  let c ← leaf chain
  checkCertificate settings c
  resolve registry c serviceType host

def depart (settings : Settings) : Binding × AuthMethod → Program Datum
  | (b, a) => do
    let token ← Retrieval.retrieve a settings.retrieval.scheme b.uniqueKey
    let now ← perform .now
    let _ ← store (.stampBinding b.uuid now.text)
    return token

theorem authenticate_eq_arrive (settings : Settings) (registry : Registry) (chain : List Bytes)
    (serviceType host : String) :
    authenticate settings registry chain serviceType host =
      arrive settings registry chain serviceType host >>= depart settings := by
  simp only [authenticate, arrive, bind_assoc]
  rfl

namespace Attempt

def arrival (a : Attempt) : Result (Binding × AuthMethod) :=
  (run a.world (arrive a.settings a.registry a.chain a.serviceType a.host) a.state).1

variable {a : Attempt} {c : Certificate} {e : Error}

theorem arrival_of_certifies (hc : a.Certifies c) :
    a.arrival = resolved a.registry a.state.store c a.serviceType a.host := by
  obtain ⟨_, hl, hk⟩ := Result.bind_eq_ok_iff.1 (certified_eq_ok_iff.2 hc)
  obtain ⟨⟨⟩, hk, ⟨⟩⟩ := Result.bind_eq_ok_iff.1 hk
  obtain ⟨t, ht, hst⟩ := (checkCertificate_offline a.settings c).exists_run a.world a.state
  rw [outcome_checkCertificate, hk] at ht
  rw [arrival, arrive, hl]
  change (run a.world (checkCertificate a.settings c >>= _) a.state).1 = _
  rw [run_bind_of_ok ht, resolve_inspects, hst]

theorem result_of_arrival {b : Binding} {m : AuthMethod} (h : a.arrival = .ok (b, m)) :
    a.result = a.retrieval b m := by
  rw [arrival] at h
  rw [result, authenticate_eq_arrive, run_bind]
  rcases hr : run a.world (arrive a.settings a.registry a.chain a.serviceType a.host) a.state with ⟨x, t⟩
  rw [hr] at h
  obtain rfl : x = .ok (b, m) := h
  obtain ⟨u, hu, -⟩ :=
    (Retrieval.retrieve_offline m a.settings.retrieval.scheme b.uniqueKey).exists_run a.world t
  rw [retrieval]
  dsimp only
  rw [depart, run_bind, hu]
  cases outcome a.world (Retrieval.retrieve m a.settings.retrieval.scheme b.uniqueKey) <;> rfl

theorem result_of_arrival_error (h : a.arrival = .error e) : a.result = .error e := by
  rw [arrival] at h
  rw [result, authenticate_eq_arrive, run_bind]
  rcases hr : run a.world (arrive a.settings a.registry a.chain a.serviceType a.host) a.state with ⟨x, t⟩
  rw [hr] at h
  obtain rfl : x = .error e := h
  rfl

end Attempt

end Authentication

namespace Gateway

open Http (Method Request Response)
open Authentication (Attempt)

variable {g : Gateway} {w : World} {s : State} {c : Certificate} {name host : String}

theorem resolved_eq {s : Store}
    (hx : ∀ t, IsOnly (·.name = name) s.serviceTypes.toList t → Authentication.x509 ∈ t.authTypes) :
    Authentication.resolved g.registry s c name host =
      bindingOf s name host c.name >>= fun b ↦
        g.authMethodOf s name host >>= fun m ↦ .ok (b, m) := by
  rw [Authentication.resolved, bindingOf, authMethodOf, serving]
  cases hn : ServiceTypes.named s name with
  | error e => rfl
  | ok t =>
    have ht : t.supportsAuthType Authentication.x509 = .ok () :=
      ServiceType.supportsAuthType_eq_ok_iff.2 (hx t (ServiceTypes.named_eq_ok_iff.1 hn))
    rw [Result.ok_bind, ht]
    cases hh : t.hasHost host with
    | false => simp [hh]
    | true => simp [hh, Authentication.located]

/-- A client with a certificate that is accepted gets to the binding and the auth method that are
shown for it, from which its token is retrieved, and no further than the first of the two that cannot be
shown. -/
theorem arrives_as_shown {chain : List Bytes} {r q : Request}
    (hc : Attempt.Certifies ⟨g.settings, g.registry, w, s, chain, name, host⟩ c) (hn : c.name ≠ "")
    (hx : ∀ t, IsOnly (·.name = name) s.store.serviceTypes.toList t →
      Authentication.x509 ∈ t.authTypes)
    (hr : g.Asks r (.hostBinding name host c.name)) (hq : g.Asks q (.authMethod name host)) :
    let a : Attempt := ⟨g.settings, g.registry, w, s, chain, name, host⟩
    Authentication.authenticate g.settings g.registry chain name host =
        Authentication.arrive g.settings g.registry chain name host >>= Authentication.depart g.settings ∧
      (∀ b m, a.arrival = .ok (b, m) ↔ g.Shows s r b.toDatum ∧ g.Shows s q m.toDatum) ∧
      (∀ b m, a.arrival = .ok (b, m) → a.result = a.retrieval b m) ∧
      ((∃ b : Binding, g.Shows s r b.toDatum) ∨ ∃ e, g.Fails s r e ∧ a.result = .error e) ∧
      ((∃ b : Binding, g.Shows s r b.toDatum) →
        (∃ m : AuthMethod, g.Shows s q m.toDatum) ∨ ∃ e, g.Fails s q e ∧ a.result = .error e) := by
  intro a
  have harrival : a.arrival = bindingOf s.store name host c.name >>= fun b ↦
      g.authMethodOf s.store name host >>= fun m ↦ .ok (b, m) :=
    (Attempt.arrival_of_certifies hc).trans (resolved_eq hx)
  have he : (Route.hostBinding name host c.name).endsEmpty = false := decide_eq_false hn
  have hshown (b : Binding) :
      g.Shows s r b.toDatum ↔ bindingOf s.store name host c.name = .ok b := by
    rw [hr.shows_iff he (by simp [Route.methods]) (reads_hostBinding g name host c.name),
      Result.map_eq_ok_iff Binding.toDatum_injective]
  have hshown' (m : AuthMethod) :
      g.Shows s q m.toDatum ↔ g.authMethodOf s.store name host = .ok m := by
    rw [hq.shows_iff rfl (by simp [Route.methods]) (reads_authMethod g name host),
      Result.map_eq_ok_iff AuthMethod.toDatum_injective]
  simp only [hshown, hshown']
  refine ⟨Authentication.authenticate_eq_arrive .., fun b m ↦ ?_,
    fun b m ↦ Attempt.result_of_arrival, ?_, ?_⟩
  · rw [harrival]
    simp [Result.bind_eq_ok_iff]
  · cases hb : bindingOf s.store name host c.name with
    | ok b => exact .inl ⟨b, rfl⟩
    | error e =>
      have hf : g.Fails s r e :=
        hr.fails he (by simp [Route.methods]) (reads_hostBinding g name host c.name) (by rw [hb]; rfl)
      refine .inr ⟨e, hf, Attempt.result_of_arrival_error ?_⟩
      rw [harrival, hb, Result.error_bind]
  · rintro ⟨b, hb⟩
    cases hm : g.authMethodOf s.store name host with
    | ok m => exact .inl ⟨m, rfl⟩
    | error e =>
      have hf : g.Fails s q e :=
        hq.fails rfl (by simp [Route.methods]) (reads_authMethod g name host) (by rw [hm]; rfl)
      refine .inr ⟨e, hf, Attempt.result_of_arrival_error ?_⟩
      rw [harrival, hb, Result.ok_bind, hm, Result.error_bind]

theorem arrives_as_shown_escaped :
    ∃ (g : Gateway) (w : World) (s : State) (b : Binding) (m : AuthMethod) (r q : Request),
      b.authIdentifier = "CN=a b" ∧ b.host = "h/1" ∧
      r = keyed .get "/v1/service-types/a%20b/hosts/h%2F1/bindings/CN%3Da%20b" "" ∧
      q = keyed .get "/v1/service-types/a%20b/hosts/h%2F1/authm" "" ∧
      Attempt.arrival ⟨g.settings, g.registry, w, s, [Certificate.named], "a b", "h/1"⟩ = .ok (b, m) ∧
      g.Shows s r b.toDatum ∧ g.Shows s q m.toDatum := by
  let g := ofSettings { serviceToken := "k", verifyCertificate := false }
  let w : World := ⟨fun _ ↦ none, ⟨0, 0⟩, fun _ ↦ ""⟩
  let t : ServiceType := {
    name := "a b", hosts := ["h/1"], authTypes := ["x509"], authMethod := "api-key", uuid := "1" }
  let b : Binding := {
    serviceUuid := "1", host := "h/1", uuid := "2", authIdentifier := "CN=a b", authType := "x509" }
  let m : AuthMethod := { serviceUuid := "1", host := "h/1", uuid := "3", variant := .apiKey "x" }
  let s : State := ⟨⟨.ofList [t], .ofList [b], .ofList [m.toRecord]⟩, 0, []⟩
  let c : Certificate := ⟨1, ⟨946684800, 0⟩, ⟨2493072000, 0⟩, [⟨"2.5.4.3", "a b"⟩], []⟩
  let a : Attempt := ⟨g.settings, g.registry, w, s, [Certificate.named], "a b", "h/1"⟩
  have hc : a.Certifies c := ⟨⟨_, _, rfl, Certificate.ofDer_named⟩, nofun⟩
  have hname : c.name = "CN=a b" := by decide +kernel
  have hbinding : "/v1/service-types/a%20b/hosts/h%2F1/bindings/CN%3Da%20b" =
      (Route.hostBinding "a b" "h/1" "CN=a b").encoded.path := by decide +kernel
  have hmethod : "/v1/service-types/a%20b/hosts/h%2F1/authm" =
      (Route.authMethod "a b" "h/1").encoded.path := by decide +kernel
  have hx : ∀ u, IsOnly (·.name = "a b") s.store.serviceTypes.toList u →
      Authentication.x509 ∈ u.authTypes := by
    rintro u ⟨hu, -⟩
    obtain rfl := List.mem_singleton.1 hu
    exact List.mem_singleton_self _
  have harrival : a.arrival = .ok (b, m) :=
    (Attempt.arrival_of_certifies hc).trans (by decide +kernel)
  obtain ⟨-, h, -⟩ := arrives_as_shown hc (by rw [hname]; decide) hx
    ⟨holdsKey_keyed .get _ "", rfl, hname ▸ hbinding ▸ Route.spelledBy_encoded _⟩
    ⟨holdsKey_keyed .get _ "", rfl, hmethod ▸ Route.spelledBy_encoded _⟩
  obtain ⟨hb, hm⟩ := (h b m).1 harrival
  exact ⟨g, w, s, b, m, _, _, rfl, rfl, rfl, rfl, harrival, hb, hm⟩

end Gateway

end CertGate
