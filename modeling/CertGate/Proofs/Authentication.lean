import CertGate.Authentication
import CertGate.Proofs.Management.AuthMethods
import CertGate.Proofs.Management.Bindings
import CertGate.Proofs.Retrieval
import CertGate.Proofs.Revocation.InOrder
import Mathlib.Logic.Basic

namespace CertGate

open Program

theorem ServiceType.supportsAuthType_eq_ok_iff {t : ServiceType} {authType : String} {u : Unit} :
    t.supportsAuthType authType = .ok u ↔ authType ∈ t.authTypes := by
  by_cases h : authType ∈ t.authTypes <;> simp [supportsAuthType, h]

theorem ServiceType.supportsAuthType_eq_error_iff {t : ServiceType} {authType : String} {e : Error} :
    t.supportsAuthType authType = .error e ↔
      authType ∉ t.authTypes ∧ e = .unsupported "Auth type" authType := by
  by_cases h : authType ∈ t.authTypes <;> simp [supportsAuthType, h, eq_comm]

theorem Revocation.check_offline (workers : Nat) (c : Certificate) : (check workers c).Offline := by
  have hp : (c.revocationPoints.forM fun url ↦ do
      judge workers c.serial url (← fetchSerials url) : Program Unit).Offline :=
    .forM fun url ↦ .bind (fetchSerials_offline url) fun _ ↦ .ofResult _
  rw [check]
  split
  · trivial
  · exact hp

namespace Authentication

def checked (settings : Settings) (w : World) (c : Certificate) : Result Unit :=
  if settings.verifyCertificate then do
    c.checkValidity w.now
    outcome w (Revocation.check settings.revocation.scanWorkers c)
  else pure ()

theorem checkCertificate_offline (settings : Settings) (c : Certificate) :
    (checkCertificate settings c).Offline := by
  rw [checkCertificate]
  split
  · exact .bind (fun _ ↦ trivial) fun _ ↦ .bind (.ofResult _) fun _ ↦ Revocation.check_offline _ c
  · trivial

theorem outcome_checkCertificate (settings : Settings) (w : World) (c : Certificate) :
    outcome w (checkCertificate settings c) = checked settings w c := by
  rw [checkCertificate, checked]
  split
  · change outcome w (ofResult (c.checkValidity w.now) >>= fun _ ↦ _) = _
    rw [outcome_bind fun _ ↦ Revocation.check_offline _ c, outcome_ofResult]
  · rfl

theorem checked_eq_ok_iff {settings : Settings} {w : World} {c : Certificate} :
    checked settings w c = .ok () ↔ (settings.verifyCertificate = true →
      (c.notAfter.before w.now = false ∧ w.now.before c.notBefore = false) ∧
        outcome w (Revocation.check settings.revocation.scanWorkers c) = .ok ()) := by
  cases hv : settings.verifyCertificate <;> cases ha : c.notAfter.before w.now <;>
    cases hb : w.now.before c.notBefore <;> simp [checked, hv, Certificate.checkValidity, ha, hb]

def located (registry : Registry) (s : Store) (c : Certificate) (t : ServiceType) (host : String) :
    Result (Binding × AuthMethod) := do
  let b ← Bindings.identified s ⟨c.name, t.uuid, host, x509⟩
  let a ← AuthMethods.reaching registry s t.uuid host t.authMethod
  return (b, a)

def resolved (registry : Registry) (s : Store) (c : Certificate) (serviceType host : String) :
    Result (Binding × AuthMethod) := do
  let t ← ServiceTypes.named s serviceType
  t.supportsAuthType x509
  if t.hasHost host then located registry s c t host else throw (.notFound "Host")

theorem resolve_inspects (registry : Registry) (c : Certificate) (serviceType host : String) :
    (resolve registry c serviceType host).Inspects (resolved registry · c serviceType host) := by
  refine .bind (ServiceTypes.findByName_inspects serviceType) fun t ↦ ?_
  refine .bind (.ofResult _) fun _ ↦ ?_
  dsimp only
  cases ht : t.hasHost host with
  | false => exact fun _ _ ↦ rfl
  | true =>
    refine .bind (Bindings.findByIdentity_inspects _) fun b ↦ ?_
    exact .bind (AuthMethods.find_inspects registry _ host _) fun a ↦ .pure _

/-- All that decides what comes of a client's attempt to authenticate. -/
structure Attempt where
  settings : Settings
  registry : Registry
  world : World
  state : State
  chain : List Bytes
  serviceType : String
  host : String

namespace Attempt

variable (a : Attempt)

def result : Result Datum :=
  (run a.world (authenticate a.settings a.registry a.chain a.serviceType a.host) a.state).1

/-- The first certificate of the chain can be read, as `c`. -/
def Presents (c : Certificate) : Prop :=
  ∃ der rest, a.chain = der :: rest ∧ Certificate.ofDer der = .ok c

def InTime (c : Certificate) : Prop :=
  c.notAfter.before a.world.now = false ∧ a.world.now.before c.notBefore = false

def revocation (c : Certificate) : Result Unit :=
  outcome a.world (Revocation.check a.settings.revocation.scanWorkers c)

def identity (c : Certificate) (t : ServiceType) : Binding.Identity := ⟨c.name, t.uuid, a.host, x509⟩

def Fits (t : ServiceType) (r : AuthMethodRecord) : Prop :=
  AuthMethods.IsFor t.uuid a.host t.authMethod r

def retrieval (b : Binding) (m : AuthMethod) : Result Datum :=
  outcome a.world (Retrieval.retrieve m a.settings.retrieval.scheme b.uniqueKey)

structure Certifies (c : Certificate) : Prop where
  presents : a.Presents c
  passes : a.settings.verifyCertificate = true → a.InTime c ∧ a.revocation c = .ok ()

structure Admits (c : Certificate) (t : ServiceType) : Prop where
  certifies : a.Certifies c
  only : IsOnly (·.name = a.serviceType) a.state.store.serviceTypes.toList t
  authType : x509 ∈ t.authTypes
  host : a.host ∈ t.hosts

structure Knows (c : Certificate) (t : ServiceType) (b : Binding) : Prop where
  admits : a.Admits c t
  only : IsOnly (·.identity = a.identity c t) a.state.store.bindings.toList b

structure Reaches (c : Certificate) (t : ServiceType) (b : Binding) (m : AuthMethod) : Prop where
  knows : a.Knows c t b
  registered : a.registry.isRegistered t.authMethod = true
  only : ∃ r, IsOnly (a.Fits t) a.state.store.authMethods.toList r ∧ AuthMethod.ofRecord r = .ok m

def Issues (token : Datum) : Prop := ∃ c t b m, a.Reaches c t b m ∧ a.retrieval b m = .ok token

variable {a : Attempt} {c : Certificate} {t : ServiceType} {b : Binding} {m : AuthMethod} {e : Error}

theorem leaf_eq_ok_iff : leaf a.chain = .ok c ↔ a.Presents c := by
  cases h : a.chain with
  | nil => simp [leaf, Presents, h]
  | cons der rest => simp [leaf, Presents, h]

theorem leaf_eq_error_iff :
    leaf a.chain = .error e ↔ a.chain = [] ∧ e = Authentication.noCertificate ∨
      ∃ der rest, a.chain = der :: rest ∧ Certificate.ofDer der = .error e := by
  cases h : a.chain with
  | nil => simp [leaf, eq_comm]
  | cons der rest => simp [leaf]

def certified (a : Attempt) : Result Certificate := do
  let c ← leaf a.chain
  checked a.settings a.world c
  return c

theorem certified_eq_ok_iff : a.certified = .ok c ↔ a.Certifies c := by
  simp only [certified, Result.bind_eq_ok_iff, leaf_eq_ok_iff, Result.pure_eq, Except.ok.injEq]
  constructor
  · rintro ⟨c, hc, ⟨⟩, hp, rfl⟩
    exact ⟨hc, checked_eq_ok_iff.1 hp⟩
  · rintro ⟨hc, hp⟩
    exact ⟨c, hc, (), checked_eq_ok_iff.2 hp, rfl⟩

def decided (a : Attempt) : Result (Binding × Datum) := do
  let c ← a.certified
  let (b, m) ← resolved a.registry a.state.store c a.serviceType a.host
  let token ← a.retrieval b m
  return (b, token)

def stamped (a : Attempt) (b : Binding) : Store :=
  (StoreCall.apply a.state.store (.stampBinding b.uuid a.world.now.text)).2

/-- Nothing touches the store before the token is there, and what follows does not take it away. -/
theorem exists_run (a : Attempt) :
    ∃ t, run a.world (authenticate a.settings a.registry a.chain a.serviceType a.host) a.state =
        (a.decided >>= fun p ↦ .ok p.2, t) ∧
      t.store = match a.decided with
        | .ok p => a.stamped p.1
        | .error _ => a.state.store := by
  rw [authenticate, decided, certified]
  cases leaf a.chain with
  | error e => exact ⟨_, rfl, rfl⟩
  | ok c =>
    obtain ⟨t, ht, hst⟩ := (checkCertificate_offline a.settings c).exists_run a.world a.state
    rw [outcome_checkCertificate] at ht
    change ∃ u, run a.world (checkCertificate a.settings c >>= _) a.state = _ ∧ _
    rw [run_bind, ht, Result.ok_bind]
    cases checked a.settings a.world c with
    | error e => exact ⟨t, rfl, hst⟩
    | ok =>
      simp only [Result.ok_bind, Result.pure_eq]
      rw [(resolve_inspects a.registry c a.serviceType a.host).run_bind, hst]
      cases resolved a.registry a.state.store c a.serviceType a.host with
      | error e => exact ⟨t, rfl, hst⟩
      | ok p =>
        obtain ⟨u, hu, hsu⟩ := (Retrieval.retrieve_offline p.2 a.settings.retrieval.scheme
          p.1.uniqueKey).exists_run a.world t
        rw [← retrieval] at hu
        simp only [Result.ok_bind]
        rw [run_bind, hu]
        cases a.retrieval p.1 p.2 with
        | error e => exact ⟨u, rfl, hsu.trans hst⟩
        | ok token =>
          refine ⟨_, rfl, ?_⟩
          change (StoreCall.apply u.store (.stampBinding p.1.uuid a.world.now.text)).2 = a.stamped p.1
          rw [hsu, hst, stamped]

theorem located_eq_ok_iff (ht : a.Admits c t) :
    located a.registry a.state.store c t a.host = .ok (b, m) ↔ a.Reaches c t b m := by
  simp only [located, Result.bind_eq_ok_iff, Bindings.identified_eq_ok_iff,
    AuthMethods.reaching_eq_ok_iff, Result.pure_eq, Except.ok.injEq, Prod.mk.injEq]
  constructor
  · rintro ⟨b, hb, m, ⟨hg, hm⟩, rfl, rfl⟩
    exact ⟨⟨ht, hb⟩, hg, hm⟩
  · rintro ⟨⟨-, hb⟩, hg, hm⟩
    exact ⟨b, hb, m, ⟨hg, hm⟩, rfl, rfl⟩

theorem located_eq_error_iff :
    located a.registry a.state.store c t a.host = .error e ↔
      (∀ b ∈ a.state.store.bindings.toList, b.identity ≠ a.identity c t) ∧ e = .notFound "Binding" ∨
      Several (·.identity = a.identity c t) a.state.store.bindings.toList ∧
        e = .database (Bindings.severalWithIdentity (a.identity c t)) ∨
      ∃ b, IsOnly (·.identity = a.identity c t) a.state.store.bindings.toList b ∧
        AuthMethods.reaching a.registry a.state.store t.uuid a.host t.authMethod = .error e := by
  simp only [located, Result.bind_eq_error_iff, Bindings.identified_eq_error_iff,
    Bindings.identified_eq_ok_iff, Result.pure_eq, reduceCtorEq, and_false, exists_false, or_false,
    or_assoc, identity]

theorem resolved_eq_ok_iff (hc : a.Certifies c) :
    resolved a.registry a.state.store c a.serviceType a.host = .ok (b, m) ↔
      ∃ t, a.Reaches c t b m := by
  simp only [resolved, Result.bind_eq_ok_iff, ServiceTypes.named_eq_ok_iff,
    ServiceType.supportsAuthType_eq_ok_iff, ServiceType.hasHost, List.contains_iff_mem]
  constructor
  · rintro ⟨t, ht, -, hx, hr⟩
    split at hr
    · next hh => exact ⟨t, (located_eq_ok_iff ⟨hc, ht, hx, hh⟩).1 hr⟩
    · cases hr
  · rintro ⟨t, hm⟩
    obtain ⟨-, ht, hx, hh⟩ := hm.knows.admits
    exact ⟨t, ht, (), hx, by rw [if_pos hh, (located_eq_ok_iff hm.knows.admits).2 hm]⟩

theorem resolved_eq_error_iff :
    resolved a.registry a.state.store c a.serviceType a.host = .error e ↔
      (∀ t ∈ a.state.store.serviceTypes.toList, t.name ≠ a.serviceType) ∧
        e = .notFound "Service-type" ∨
      Several (·.name = a.serviceType) a.state.store.serviceTypes.toList ∧
        e = ServiceTypes.several a.serviceType ∨
      ∃ t, IsOnly (·.name = a.serviceType) a.state.store.serviceTypes.toList t ∧
        (x509 ∉ t.authTypes ∧ e = .unsupported "Auth type" x509 ∨
          x509 ∈ t.authTypes ∧
            (a.host ∈ t.hosts ∧ located a.registry a.state.store c t a.host = .error e ∨
              a.host ∉ t.hosts ∧ e = .notFound "Host")) := by
  simp only [resolved, Result.bind_eq_error_iff, ServiceTypes.named_eq_error_iff,
    ServiceTypes.named_eq_ok_iff, ServiceType.supportsAuthType_eq_error_iff,
    ServiceType.supportsAuthType_eq_ok_iff, ServiceType.hasHost, List.contains_iff_mem, ite_eq_iff,
    Result.throw_eq, Except.error.injEq, exists_const, or_assoc, eq_comm (b := e)]

theorem decided_eq_ok_iff {token : Datum} :
    a.decided = .ok (b, token) ↔ ∃ c t m, a.Reaches c t b m ∧ a.retrieval b m = .ok token := by
  simp only [decided, Result.bind_eq_ok_iff, certified_eq_ok_iff, Result.pure_eq, Except.ok.injEq,
    Prod.mk.injEq]
  constructor
  · rintro ⟨c, hc, ⟨b, m⟩, hr, token, ht, rfl, rfl⟩
    obtain ⟨t, hm⟩ := (resolved_eq_ok_iff hc).1 hr
    exact ⟨c, t, m, hm, ht⟩
  · rintro ⟨c, t, m, hm, ht⟩
    have hc : a.Certifies c := hm.knows.admits.certifies
    exact ⟨c, hc, (b, m), (resolved_eq_ok_iff hc).2 ⟨t, hm⟩, token, ht, rfl, rfl⟩

theorem result_eq_ok_iff {token : Datum} : a.result = .ok token ↔ a.Issues token := by
  obtain ⟨u, hu, -⟩ := a.exists_run
  rw [result, hu, Result.bind_eq_ok_iff]
  constructor
  · rintro ⟨⟨b, _⟩, hd, ⟨⟩⟩
    obtain ⟨c, t, m, h⟩ := decided_eq_ok_iff.1 hd
    exact ⟨c, t, b, m, h⟩
  · rintro ⟨c, t, b, m, h⟩
    exact ⟨(b, token), decided_eq_ok_iff.2 ⟨c, t, m, h⟩, rfl⟩

theorem stamped_eq (hb : b ∈ a.state.store.bindings.toList) :
    a.stamped b = a.state.store.insertBinding { b with lastAuth := a.world.now.text } := by
  have h : a.state.store.bindings.get? b.uuid = some b := Keyed.get?_eq_some_iff.2 ⟨hb, rfl⟩
  simp [stamped, StoreCall.apply, Store.stampBinding, h, StoreCall.attempt]

end Attempt

end Authentication

end CertGate
