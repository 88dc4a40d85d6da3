import CertGate.Proofs.Gateway.Suited
import CertGate.Proofs.Gateway.Written

namespace CertGate

theorem ServiceType.name_ne_empty_of_validate {t : ServiceType} {settings : Settings} {u : Unit}
    (h : t.validate settings = .ok u) : t.name ≠ "" := by
  rw [validate] at h
  dsimp only at h
  split at h
  · cases h
  · next hf =>
    have hf : "" ∉ [t.name, t.authMethod, t.kind] :=
      firstEmpty?_eq_none_iff.1 (Option.eq_none_iff_forall_ne_some.2 hf)
    exact fun hn ↦ hf (hn ▸ List.mem_cons_self)

theorem Binding.name_ne_empty_of_checkFilled {b : Binding} {u : Unit} (h : b.checkFilled = .ok u) :
    b.name ≠ "" := fun hn ↦ checkFilled_eq_ok_iff.1 h (hn ▸ List.mem_cons_self)

def Datum.textAt? (name : String) : Datum → Option String
  | record fields => fields.lookup name >>= string?
  | _ => none

namespace Gateway

open Http (Method Request Response)
open Program

/-- Where what is shown in the answer to a change can be looked at: by its name, or by the name of its
service type and its host. -/
def Route.shownAt? : Route → Datum → Option Route
  | serviceTypes, d | serviceType _, d => (d.textAt? "name").map serviceType
  | binding _, d => (d.textAt? "name").map binding
  | newAuthMethod t, d | authMethod t _, d => (d.textAt? "host").map (authMethod t)
  | _, _ => none

variable {g : Gateway} {w : World} {n : Nat} {s t : Store} {body : Bytes} {route : Route}
  {method : Method} {response : Response}

structure Route.Finds (g : Gateway) (route : Route) (s : Store) (d : Datum) : Prop where
  named : route.endsEmpty = false
  allowed : .get ∈ route.methods
  found : ∃ f, route.Reads g f ∧ f s = .ok d

theorem finds_serviceType {v : ServiceType} (hs : s.Unique) (hv : v ∈ s.serviceTypes.toList)
    (hn : v.name ≠ "") : (Route.serviceType v.name).Finds g s v.toDatum where
  named := decide_eq_false hn
  allowed := List.mem_cons_self
  found := ⟨_, reads_serviceType g v.name, by rw [named_of_mem hs hv]; rfl⟩

theorem finds_binding {b : Binding} (hs : s.Unique) (hb : b ∈ s.bindings.toList) (hn : b.name ≠ "") :
    (Route.binding b.name).Finds g s b.toDatum where
  named := decide_eq_false hn
  allowed := List.mem_cons_self
  found := ⟨_, reads_binding g b.name, by rw [bindingNamed_of_mem hs hb]; rfl⟩

theorem finds_authMethod {a : AuthMethod} {name host : String} (h : g.authMethodOf s name host = .ok a) :
    (Route.authMethod name host).Finds g s a.toDatum where
  named := rfl
  allowed := List.mem_cons_self
  found := ⟨_, reads_authMethod g name host, by rw [h]; rfl⟩

theorem Change.finds (h : Change g w n s body route method response t) (hg : g.registry.Tagged)
    (hs : s.Unique) (hd : method ≠ .delete) :
    ∃ d place, response.body = .json d ∧ route.shownAt? d = some place ∧ place.Finds g t d := by
  have ht : t.Unique := h.effect.unique hs
  cases h with
  | @createServiceType v hb h =>
    obtain ⟨hv, -⟩ := ServiceTypes.creatable_eq_ok_iff.1 h
    have hn : v.name ≠ "" := ServiceType.name_ne_empty_of_validate hv
    exact ⟨_, _, rfl, rfl, finds_serviceType ht (Keyed.mem_insert.2 (.inl rfl)) hn⟩
  | @updateServiceType name v changes hb hv h =>
    obtain ⟨hv, -⟩ := ServiceTypes.changeable_eq_ok_iff.1 h
    have hn : (v.apply changes).name ≠ "" := ServiceType.name_ne_empty_of_validate hv
    exact ⟨_, _, rfl, rfl, finds_serviceType ht (Keyed.mem_insert.2 (.inl rfl)) hn⟩
  | @createBinding name b hb h =>
    obtain ⟨⟨hf, -⟩, -⟩ := Bindings.creatable_eq_ok_iff.1 h
    have hn : name ≠ "" := Binding.name_ne_empty_of_checkFilled hf
    exact ⟨_, _, rfl, rfl, finds_binding ht (Keyed.mem_insert.2 (.inl rfl)) hn⟩
  | @updateBinding name b changes hc hb h =>
    obtain ⟨⟨hf, -⟩, -⟩ := Bindings.changeable_eq_ok_iff.1 h
    have hn : (b.apply changes).name ≠ "" := Binding.name_ne_empty_of_checkFilled hf
    exact ⟨_, _, rfl, rfl, finds_binding ht (Keyed.mem_insert.2 (.inl rfl)) hn⟩
  | @createAuthMethod name v a hv h =>
    obtain ⟨hvs, rfl, -⟩ := ServiceTypes.named_eq_ok_iff.1 hv
    obtain ⟨hdraft, ha, -⟩ := AuthMethods.creatable_eq_ok_iff.1 h
    obtain ⟨hreg, hu, htag, -⟩ := AuthMethods.of_draft hg hdraft
    have hh : a.host ∈ v.hosts := Store.host_mem_of_valid hvs ha hu
    refine ⟨_, _, rfl, rfl, finds_authMethod ?_⟩
    exact authMethodOf_of_mem ht hvs (Keyed.mem_insert.2 (.inl rfl)) hu hh htag hreg
      (AuthMethod.ofRecord_toRecord _)
  | @updateAuthMethod name host current a hc hm h =>
    obtain ⟨v, r, ⟨hvs, rfl, -⟩, -, hreg, ⟨-, ⟨hu, -, hk⟩, -⟩, hrc⟩ := authMethodOf_eq_ok_iff.1 hc
    obtain ⟨ha, -⟩ := AuthMethods.changeable_eq_ok_iff.1 h
    have hau : a.serviceUuid = v.uuid := (serviceUuid_of_merge hrc hm).trans hu
    have hh : a.host ∈ v.hosts := Store.host_mem_of_valid hvs ha hau
    refine ⟨_, _, rfl, rfl, finds_authMethod ?_⟩
    exact authMethodOf_of_mem ht hvs (Keyed.mem_insert.2 (.inl rfl)) hau hh
      ((tag_of_merge hrc hm).trans hk) hreg (AuthMethod.ofRecord_toRecord _)
  | _ => exact absurd rfl hd

theorem Change.gone (h : Change g w n s body route .delete response t) :
    response = .noContent ∧ .get ∈ route.methods ∧
      ∃ f, route.Reads g f ∧ ∃ e, f t = .error e ∧ e.kind = .notFound := by
  cases h with
  | @deleteServiceType name v hv =>
    have hn : ∀ u ∈ (ServiceTypes.deleted s v.uuid).serviceTypes.toList, u.name ≠ name :=
      Keyed.not_of_mem_erase (ServiceTypes.named_eq_ok_iff.1 hv)
    refine ⟨rfl, by simp [Route.methods], _, reads_serviceType g name, .notFound "Service-type", ?_, rfl⟩
    rw [ServiceTypes.named_eq_error_iff.2 (.inl ⟨hn, rfl⟩)]
    rfl
  | @deleteBinding name b hb =>
    have hn : ∀ c ∈ (s.deleteBinding b.uuid).bindings.toList, c.name ≠ name :=
      Keyed.not_of_mem_erase (Bindings.named_eq_ok_iff.1 hb)
    refine ⟨rfl, by simp [Route.methods], _, reads_binding g name, .notFound "Binding", ?_, rfl⟩
    rw [Bindings.named_eq_error_iff.2 (.inl ⟨hn, rfl⟩)]
    rfl
  | @deleteAuthMethod name host a ha =>
    obtain ⟨v, r, hv, hh, hreg, honly, hra⟩ := authMethodOf_eq_ok_iff.1 ha
    obtain ⟨_, -, rfl⟩ := AuthMethods.ofRecord_eq_ok_iff.1 hra
    have hn : ∀ q ∈ (s.deleteAuthMethod r.uuid).authMethods.toList,
        ¬ AuthMethods.IsFor v.uuid host v.authMethod q := Keyed.not_of_mem_erase honly
    have hserving : serving (s.deleteAuthMethod r.uuid) name host = .ok v :=
      serving_eq_ok_iff.2 ⟨hv, hh⟩
    refine ⟨rfl, by simp [Route.methods], _, reads_authMethod g name host, .notFound "Auth method", ?_, rfl⟩
    rw [authMethodOf, hserving, Result.ok_bind,
      AuthMethods.reaching_eq_error_iff.2 (.inr ⟨hreg, .inl ⟨hn, rfl⟩⟩)]
    rfl

def Hides (g : Gateway) (s : State) (r : Request) : Prop :=
  ∀ w, ∃ response, run w (g.respond r) s = (.ok response, s) ∧ response.status = 404

theorem Route.Finds.shows {u : State} {d : Datum} {q : Request} (h : route.Finds g u.store d)
    (hq : g.Asks q route) : g.Shows u q d := by
  obtain ⟨f, hf, hd⟩ := h.found
  exact (hq.shows_iff h.named h.allowed hf).2 hd

theorem Asks.hides {u : State} {q : Request} {f : Store → Result Datum} {e : Error}
    (hq : g.Asks q route) (hm : .get ∈ route.methods) (hf : route.Reads g f)
    (he : f u.store = .error e) (hk : e.kind = .notFound) : g.Hides u q := by
  intro w
  cases hr : route.endsEmpty with
  | true => exact ⟨.notFound, hq.run_of_endsEmpty hr w u, rfl⟩
  | false =>
    refine ⟨.ofError e, hq.fails hr hm hf he w, ?_⟩
    change e.statusCode = 404
    rw [Error.statusCode, hk]

/-- What comes of a change to the store that succeeds: what is reported can be looked at, and nothing
else has changed. -/
structure Reports (g : Gateway) (w : World) (s : State) (r : Request) (route : Route) (response : Response)
    (u : State) : Prop where
  shown : r.method ≠ .delete → ∃ d place, response.body = .json d ∧ route.shownAt? d = some place ∧
    ∀ q, g.Asks q place → g.Shows u q d
  hidden : r.method = .delete → response = .noContent ∧ ∀ q, g.Asks q route → g.Hides u q
  post : r.method = .post → s.store.Lacks (w.uuids s.issued) →
    ∃ x : Record, response = .json 201 x.toDatum ∧ ∀ y, y ∈ u.store ↔ y = x ∨ y ∈ s.store
  put : r.method = .put → ∃ x y : Record, y ∈ s.store ∧ y.At s.store route ∧ x.fixed = y.fixed ∧
    response = .json 200 x.toDatum ∧ ∀ z, z ∈ u.store ↔ z = x ∨ z ∈ s.store ∧ z ≠ y
  delete : r.method = .delete → ∃ x ∈ s.store, x.At s.store route ∧
    (x.collection ≠ .serviceTypes → ∀ y, y ∈ u.store ↔ y ∈ s.store ∧ y ≠ x)

theorem Change.reports {s u : State} {r : Request}
    (h : g.Change w s.issued s.store r.body route r.method response u.store) (hg : g.registry.Tagged)
    (hs : s.store.Unique) : g.Reports w s r route response u where
  shown hd := by
    obtain ⟨d, place, hb, hp, hf⟩ := h.finds hg hs hd
    exact ⟨d, place, hb, hp, fun q hq ↦ hf.shows hq⟩
  hidden hd := by
    obtain ⟨hr, hm, f, hf, e, he, hk⟩ := (hd ▸ h).gone
    exact ⟨hr, fun q hq ↦ hq.hides hm hf he hk⟩
  post hm := Written.of_post (hm ▸ h.written)
  put hm := Written.of_put (hm ▸ h.written)
  delete hm := Written.of_delete (hm ▸ h.written)

/-- Whatever has come before, a request for a change either fails and changes nothing, or reports what
can be looked at from then on. -/
theorem writes_are_shown (g : Gateway) (hg : g.registry.Tagged) (requests : List (World × Request))
    (w : World) (r : Request) (hm : r.method ∈ [.post, .put, .delete]) :
    let s := g.after ⟨{}, 0, []⟩ requests
    ∃ response u, run w (g.respond r) s = (.ok response, u) ∧
      (400 ≤ response.status ∧ u.store = s.store ∨
        ∃ route, Request.route? r = some route ∧ g.Reports w s r route response u) := by
  intro s
  obtain ⟨-, hs⟩ := anchored_after hg requests (s := ⟨{}, 0, []⟩) .empty .empty
  obtain ⟨response, u, hu, h⟩ := respond_of_change g w s hm
  refine ⟨response, u, hu, h.imp_right ?_⟩
  rintro ⟨route, hr, hc⟩
  exact ⟨route, hr.leads, hc.reports hg hs⟩

theorem writes_are_shown_escaped :
    ∃ (g : Gateway) (w : World) (s u : State) (r q : Request) (d : Datum),
      g = ofSettings { serviceToken := "k" } ∧
      s = g.after ⟨{}, 0, []⟩ [(w, keyed .post "/v1/service-types"
        ("\x7b\"name\":\"a b\",\"hosts\":[\"h\"],\"auth_types\":[\"x509\"]," ++
          "\"auth_method\":\"api-key\",\"type\":\"ams\"\x7d"))] ∧
      r = keyed .put "/v1/service-types/a%20b" "\x7b\"name\":\"c/d\"\x7d" ∧
      q = keyed .get "/v1/service-types/c%2Fd" "" ∧
      run w (g.respond r) s = (.ok (.json 200 d), u) ∧ d.textAt? "name" = some "c/d" ∧ g.Shows u q d := by
  let g := ofSettings { serviceToken := "k" }
  let w : World := ⟨fun _ ↦ none, ⟨0, 0⟩, fun n ↦ toString n⟩
  let create := keyed .post "/v1/service-types"
    ("\x7b\"name\":\"a b\",\"hosts\":[\"h\"],\"auth_types\":[\"x509\"]," ++
      "\"auth_method\":\"api-key\",\"type\":\"ams\"\x7d")
  let r := keyed .put "/v1/service-types/a%20b" "\x7b\"name\":\"c/d\"\x7d"
  let q := keyed .get "/v1/service-types/c%2Fd" ""
  let s := g.after ⟨{}, 0, []⟩ [(w, create)]
  have hroute : Request.route? r = some (.serviceType "a b") := by decide +kernel
  have hname : (run w (g.respond r) s).1.toOption.map (fun response ↦
      (response.status, match response.body with | .json d => d.textAt? "name" | _ => none)) =
        some (200, some "c/d") := by decide +kernel
  obtain ⟨response, u, hu, h⟩ := writes_are_shown g (Registry.tagged_ofSettings _) [(w, create)] w r
    (by decide)
  rw [hu] at hname
  obtain ⟨hstatus, hname⟩ := Prod.mk.inj (Option.some.inj hname)
  rcases h with ⟨hf, -⟩ | ⟨route, hr, h⟩
  · omega
  obtain rfl := Option.some.inj (hroute.symm.trans hr)
  obtain ⟨d, place, hb, hp, hshows⟩ := h.shown (by decide)
  have hd : response = .json 200 d := congrArg₂ Response.mk hstatus hb
  have hq : q.target.path = (Route.serviceType "c/d").encoded.path := by decide +kernel
  rw [hb] at hname
  change d.textAt? "name" = some "c/d" at hname
  rw [Route.shownAt?, hname] at hp
  obtain rfl := Option.some.inj hp
  refine ⟨g, w, s, u, r, q, d, rfl, rfl, rfl, rfl, hd ▸ hu, hname, hshows q ?_⟩
  exact ⟨holdsKey_keyed .get _ "", rfl, hq ▸ Route.spelledBy_encoded _⟩

end Gateway

end CertGate
