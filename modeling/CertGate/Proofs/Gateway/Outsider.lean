import CertGate.Proofs.Authentication.AnyOrder
import CertGate.Proofs.Gateway.Respond

namespace CertGate.Gateway

open Http (Request Response)
open Authentication (Attempt)
open Program

/-- A client asks for its token with a certificate that passes, whatever there is in the store. -/
def FromClient (g : Gateway) (w : World) (r : Request) : Prop :=
  r.method.answeredAs = .get ∧ ∃ serviceType host c,
    Request.AsksFor r serviceType host ∧ (g.attempt w ⟨{}, 0, []⟩ r serviceType host).Certifies c

def Request.IsForToken (r : Request) (serviceType host : String) : Prop :=
  r.method.answeredAs = .get ∧ Request.AsksFor r serviceType host

/-- The responses that a request may get, each with the state that it leaves: the points of a client's
certificate are dealt with in any order. -/
inductive Answers (g : Gateway) (w : World) (s : State) (r : Request) : Response → State → Prop
  | client {serviceType host : String} {x : Result Datum} {t : State}
      (hr : Request.IsForToken r serviceType host) (h : (g.attempt w s r serviceType host).Ends x t) :
      g.Answers w s r (reported r (x.map fun token ↦ .json 200 (.record [("token", token)]))) t
  | other {response : Response} {t : State}
      (hr : ∀ serviceType host, ¬ Request.IsForToken r serviceType host)
      (h : run w (g.respond r) s = (.ok response, t)) : g.Answers w s r response t

variable {g : Gateway} {w : World} {r : Request} {route : Route}

theorem answers_run {s t : State} {response : Response} (h : run w (g.respond r) s = (.ok response, t)) :
    g.Answers w s r response t := by
  by_cases hr : ∃ serviceType host, Request.IsForToken r serviceType host
  · obtain ⟨serviceType, host, hm, last, hroute, hs⟩ := hr
    have hh : g.Handles r (.authentication serviceType last) :=
      handles_of_route hroute nofun (hm ▸ List.mem_singleton_self _) (hm ▸ nofun)
    have hrun : run w (g.handle r.body r.chain (.authentication serviceType last) r.method.answeredAs) s =
        ((g.attempt w s r serviceType host).result.map fun token ↦ .json 200 (.record [("token", token)]),
          (run w (Authentication.authenticate g.settings g.registry r.chain serviceType host) s).2) := by
      rw [handle, hs]
      exact run_bind_pure _
    rw [hh.run_eq, hrun] at h
    obtain ⟨hx, rfl⟩ := Prod.mk.inj h
    exact Except.ok.inj hx ▸ .client ⟨hm, last, hroute, hs⟩ (Attempt.ends_run _)
  · exact .other (fun serviceType host hc ↦ hr ⟨serviceType, host, hc⟩) h

theorem authenticate_comesTo {chain : List Bytes} {serviceType host : String} {s₀ : State}
    (h : ∀ c, ¬ Attempt.Certifies ⟨g.settings, g.registry, w, s₀, chain, serviceType, host⟩ c) :
    ∃ e, ComesTo w (Authentication.authenticate g.settings g.registry chain serviceType host)
      (.error e) := by
  cases hc : Attempt.certified ⟨g.settings, g.registry, w, s₀, chain, serviceType, host⟩ with
  | ok c => exact absurd (Attempt.certified_eq_ok_iff.1 hc) (h c)
  | error e =>
    refine ⟨e, fun s ↦ ?_⟩
    -- Nothing up to the checks depends on the store.
    have hd : Attempt.decided ⟨g.settings, g.registry, w, s, chain, serviceType, host⟩ = .error e :=
      Result.bind_eq_error_iff.2 (.inl hc)
    obtain ⟨t, ht, hst⟩ := Attempt.exists_run ⟨g.settings, g.registry, w, s, chain, serviceType, host⟩
    rw [hd] at ht hst
    exact ⟨t, ht, hst⟩

theorem handle_comesTo (hr : Request.route? r = some route) (hm : route.isManagement = false)
    (hg : r.method.answeredAs ∈ route.methods) (hc : ¬ g.FromClient w r) :
    ∃ x, ComesTo w (g.handle r.body r.chain route r.method.answeredAs) x := by
  cases route with
  | health => exact ⟨_, .ofResult (.ok _)⟩
  | authentication serviceType last =>
    rw [handle]
    cases hs : dropSuffix? authenticationSuffix last with
    | none => exact ⟨_, .ofResult (.error _)⟩
    | some host =>
      have ha : Request.AsksFor r serviceType host := ⟨last, hr, hs⟩
      obtain ⟨e, he⟩ := authenticate_comesTo fun c hcc ↦
        hc ⟨List.mem_singleton.1 hg, serviceType, host, c, ha, hcc⟩
      exact ⟨.error e, he.bind_error _⟩
  | _ => cases hm

theorem exists_response (hk : ¬ HoldsKey g.settings.serviceToken r) (hc : ¬ g.FromClient w r) :
    ∃ response, ∀ s : State, ∃ t, run w (g.respond r) s = (.ok response, t) ∧ t.store = s.store := by
  rcases respond_cases g r with ⟨x, h⟩ | ⟨route, h⟩
  · exact ⟨reported r x, fun s ↦ ⟨s, h w s, rfl⟩⟩
  · have hm : route.isManagement = false := Bool.eq_false_iff.2 fun hm ↦ hk (h.holds hm)
    obtain ⟨x, hx⟩ := handle_comesTo h.leads hm h.allowed hc
    refine ⟨reported r x, fun s ↦ ?_⟩
    obtain ⟨t, ht, hst⟩ := hx s
    exact ⟨t, by rw [h.run_eq, ht], hst⟩

/-- There is one response for all stores, and no store is changed. Where a certificate is checked in
another order the response may be another one, but it may be the same for all stores again. -/
theorem respond_to_outsider (g : Gateway) (w : World) (r : Request)
    (hk : ¬ HoldsKey g.settings.serviceToken r) (hc : ¬ g.FromClient w r) :
    (∃ response, ∀ s : State, ∃ t, run w (g.respond r) s = (.ok response, t) ∧ t.store = s.store ∧
      g.Answers w s r response t) ∧
      ∀ s response t, g.Answers w s r response t →
        t.store = s.store ∧ ∀ u : State, ∃ v, g.Answers w u r response v := by
  obtain ⟨response, h⟩ := exists_response hk hc
  refine ⟨⟨response, fun s ↦ ?_⟩, fun s response' t ha ↦ ?_⟩
  · obtain ⟨t, ht, hst⟩ := h s
    exact ⟨t, ht, hst, answers_run ht⟩
  · cases ha with
    | @client serviceType host x _ hr he =>
      have hn : ∀ c, ¬ (g.attempt w s r serviceType host).Certifies c := fun c hcc ↦
        hc ⟨hr.1, serviceType, host, c, hr.2, hcc.presents, hcc.passes⟩
      obtain ⟨hst, hu⟩ := he.of_uncertified hn
      refine ⟨hst, fun u ↦ ?_⟩
      obtain ⟨v, hv⟩ := hu u
      exact ⟨v, .client hr hv⟩
    | other hr ht =>
      obtain ⟨t', ht', hst⟩ := h s
      obtain ⟨rfl, rfl⟩ : response = response' ∧ t' = t := by simpa using ht'.symm.trans ht
      refine ⟨hst, fun u ↦ ?_⟩
      obtain ⟨v, hv, -⟩ := h u
      exact ⟨v, .other hr hv⟩

theorem respond_to_outsider_of_empty_token :
    ∃ (g : Gateway) (w : World) (r : Request), g.settings.serviceToken = "" ∧
      r = ⟨.get, ⟨"/v1/service-types/a/hosts/h:authx509", some "key="⟩, [], []⟩ ∧
      ¬ HoldsKey g.settings.serviceToken r ∧ ¬ g.FromClient w r ∧
      (∃ response, ∀ s : State, ∃ t, run w (g.respond r) s = (.ok response, t) ∧ t.store = s.store ∧
        g.Answers w s r response t) ∧
      ∀ s response t, g.Answers w s r response t →
        t.store = s.store ∧ ∀ u : State, ∃ v, g.Answers w u r response v := by
  let g := ofSettings {}
  let w : World := ⟨fun _ ↦ none, ⟨0, 0⟩, fun n ↦ toString n⟩
  let r : Request := ⟨.get, ⟨"/v1/service-types/a/hosts/h:authx509", some "key="⟩, [], []⟩
  have hk : ¬ HoldsKey g.settings.serviceToken r := fun h ↦ h.1 rfl
  have hc : ¬ g.FromClient w r := by
    rintro ⟨-, serviceType, host, c, -, hc⟩
    obtain ⟨der, rest, hr, -⟩ := hc.presents
    cases hr
  exact ⟨g, w, r, rfl, rfl, hk, hc, respond_to_outsider g w r hk hc⟩

end CertGate.Gateway
