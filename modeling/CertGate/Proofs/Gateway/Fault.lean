import CertGate.Proofs.Authentication.Refusal
import CertGate.Proofs.Gateway.Anchored
import CertGate.Proofs.Gateway.Unique

namespace CertGate

/-- The kinds of errors that are no fault of whoever made the request. -/
def ErrorKind.IsFault (k : ErrorKind) : Prop := k ∈ [.internal, .database, .config, .io]

instance : DecidablePred ErrorKind.IsFault := fun k ↦ inferInstanceAs (Decidable (k ∈ _))

theorem ErrorKind.IsFault.ne {j k : ErrorKind} (hk : k.IsFault) (hj : ¬ j.IsFault) : j ≠ k := by
  rintro rfl
  exact hj hk

theorem Error.statusCode_lt_iff {e : Error} : e.statusCode < 500 ↔ ¬ e.kind.IsFault := by
  rw [statusCode]
  cases e.kind <;> decide

def Result.Faultless {α : Type} (x : Result α) : Prop := ∀ k : ErrorKind, k.IsFault → x.Spares k

namespace Result.Faultless

variable {α : Type} {x : Result α} {e : Error}

theorem ok (a : α) : Faultless (.ok a : Result α) := fun _ _ ↦ .ok a

theorem error (he : ¬ e.kind.IsFault) : Faultless (.error e : Result α) := fun _ hk ↦ .error (hk.ne he)

theorem of_error (hx : x.Faultless) (h : x = .error e) : ¬ e.kind.IsFault :=
  fun he ↦ hx e.kind he e h rfl

end Result.Faultless

/-- The gateway knows how to make and to find the auth methods of all service types it supports. -/
structure Gateway.Equipped (g : Gateway) : Prop where
  tagged : g.registry.Tagged
  registered : ∀ tag ∈ g.settings.supportedAuthMethods, g.registry.isRegistered tag = true
  endpoints : ∀ kind ∈ g.settings.supportedServiceTypes, (g.registry.endpoints.find? kind).isSome = true

/-- What a store has to be for nothing in it to come as a surprise. -/
structure Store.Sound (g : Gateway) (s : Store) : Prop where
  unique : s.Unique
  anchored : s.Anchored g.registry
  supported : ∀ t ∈ s.serviceTypes.toList,
    t.authMethod ∈ g.settings.supportedAuthMethods ∧ t.kind ∈ g.settings.supportedServiceTypes

namespace Store.Sound

variable {g : Gateway} {s : Store} {k : ErrorKind}

theorem empty : ({} : Store).Sound g := ⟨.empty, .empty, fun _ ht ↦ absurd ht List.not_mem_nil⟩

theorem registered (hg : g.Equipped) (hs : s.Sound g) {t : ServiceType} (ht : t ∈ s.serviceTypes.toList) :
    g.registry.isRegistered t.authMethod = true :=
  hg.registered _ (hs.supported t ht).1

theorem endpoint (hg : g.Equipped) (hs : s.Sound g) {t : ServiceType} (ht : t ∈ s.serviceTypes.toList) :
    (g.registry.endpoints.find? t.kind).isSome = true :=
  hg.endpoints _ (hs.supported t ht).2

theorem not_several (hs : s.Sound g) (serviceUuid host tag : String) :
    ¬ Several (AuthMethods.IsFor serviceUuid host tag) s.authMethods.toList :=
  hs.unique.places.not_several (x := (serviceUuid, host)) fun _ h ↦ Prod.ext h.1 h.2.1

end Store.Sound

namespace Gateway

open Http (Method Request Response)
open Authentication (Attempt)
open Program

variable {g : Gateway} {w : World} {n : Nat} {s : State} {r : Request} {route : Route} {response : Response}

theorem Effect.sound {s t : Store} (h : Effect g w n s response t) (hg : g.Equipped) (hs : s.Sound g) :
    t.Sound g := by
  refine ⟨h.unique hs.unique, h.anchored hg.tagged hs.anchored, ?_⟩
  cases h with
  | createServiceType h =>
    obtain ⟨hv, -⟩ := ServiceTypes.creatable_eq_ok_iff.1 h
    have ht := ServiceType.supported_of_validate hv
    exact Keyed.forall_mem_insert ht hs.supported
  | updateServiceType _ h =>
    obtain ⟨hv, -⟩ := ServiceTypes.changeable_eq_ok_iff.1 h
    have ht := ServiceType.supported_of_validate hv
    exact Keyed.forall_mem_insert ht hs.supported
  | deleteServiceType _ => exact Keyed.forall_mem_filter hs.supported _
  | _ => exact hs.supported

theorem sound_after (hg : g.Equipped) (hs : s.store.Sound g) (requests : List (World × Request)) :
    (g.after s requests).store.Sound g := by
  induction requests generalizing s with
  | nil => exact hs
  | cons q requests ih =>
    obtain ⟨response, t, ht, he⟩ := respond_effect g q.1 s q.2
    rw [after_cons, ht]
    exact ih (he.sound hg hs)

/-- The run of a program from a state ends with a response that is no fault of the gateway. -/
def Blameless (w : World) (s : State) (p : Program Response) : Prop := (told (run w p s).1).status < 500

namespace Blameless

variable {α : Type} {p : Program α} {f : Store → Result α}

theorem pure (h : response.status < 500) : Blameless w s (Pure.pure response) := h

theorem bind {q : α → Program Response} (hp : p.Inspects f) (hf : (f s.store).Faultless)
    (hq : ∀ a, f s.store = .ok a → Blameless w s (q a)) : Blameless w s (p >>= q) := by
  rw [Blameless, hp.run_bind]
  cases h : f s.store with
  | ok a => exact hq a h
  | error e => exact Error.statusCode_lt_iff.2 (hf.of_error h)

theorem answer {q : α → Response} (hp : (run w p s).1.Faultless) (hq : ∀ a, (q a).status < 500) :
    Blameless w s (p >>= fun a ↦ Pure.pure (q a)) := by
  rw [Blameless, run_bind]
  rcases hr : run w p s with ⟨e | a, t⟩
  · exact Error.statusCode_lt_iff.2 (hp.of_error (congrArg Prod.fst hr))
  · exact hq a

end Blameless

theorem readBody_faultless {α : Type} (read : Datum → Option α) (body : Bytes) :
    (readBody read body).Faultless := by
  rw [readBody]
  split
  · exact .ok _
  · exact .error (by decide)

theorem serving_faultless {s : Store} (hs : s.Sound g) (name host : String) :
    (serving s name host).Faultless := fun k hk ↦
  (ServiceTypes.named_spares hs.unique.serviceTypeNames name (hk.ne (by decide))).bind fun _ _ ↦
    .ite (.ok _) (.error (hk.ne (by decide)))

theorem mem_of_serving {s : Store} {name host : String} {t : ServiceType}
    (h : serving s name host = .ok t) : t ∈ s.serviceTypes.toList := by
  obtain ⟨u, hu, ht⟩ := Result.bind_eq_ok_iff.1 h
  split at ht
  · cases ht
    exact (ServiceTypes.named_eq_ok_iff.1 hu).1
  · cases ht

theorem authMethodOf_faultless (hg : g.Equipped) {s : Store} (hs : s.Sound g) (serviceType host : String) :
    (g.authMethodOf s serviceType host).Faultless := by
  intro k hk
  refine (serving_faultless hs serviceType host k hk).bind fun t ht ↦ ?_
  have htag : g.registry.isRegistered t.authMethod = true := hs.registered hg (mem_of_serving ht)
  exact AuthMethods.reaching_spares htag (hs.not_several _ _ _) (fun r hr ↦ (hs.anchored.readable r hr).2)
    (hk.ne (by decide))

theorem findAll_faultless {s : Store} (hs : s.Sound g) :
    ((s.authMethodsWith {}).mapM AuthMethod.ofRecord).Faultless := by
  refine fun k _ ↦ .mapM fun r hr ↦ ?_
  obtain ⟨a, ha⟩ := (hs.anchored.readable r (Keyed.mem_sortedBy.1 hr).1).2
  exact ha ▸ .ok a

theorem faultless_createServiceType (w : World) (s : State) (t : ServiceType) :
    (run w (ServiceTypes.create g.settings t) s).1.Faultless := by
  intro k hk
  have h := ServiceTypes.creatable_spares g.settings s.store t (hk.ne (by decide)) (hk.ne (by decide))
  rw [ServiceTypes.run_create]
  cases hc : ServiceTypes.creatable g.settings s.store t with
  | ok => exact .ok _
  | error e => exact .error (h e hc)

theorem faultless_updateServiceType (w : World) {t : ServiceType} (ht : t ∈ s.store.serviceTypes.toList)
    (changes : ServiceType.Update) :
    (run w (ServiceTypes.update g.settings t changes) s).1.Faultless := by
  intro k hk
  have h : (ServiceTypes.updated g.settings s.store t (t.apply changes)).Spares k :=
    ServiceTypes.updated_spares g.settings ⟨t, ht, rfl⟩ (hk.ne (by decide)) (hk.ne (by decide))
  rw [ServiceTypes.run_update]
  cases hu : ServiceTypes.updated g.settings s.store t (t.apply changes) with
  | ok u => exact .ok _
  | error e => exact .error (h e hu)

theorem faultless_createBinding (w : World) (hs : s.store.Sound g) (b : Binding) :
    (run w (Bindings.create b) s).1.Faultless := by
  intro k hk
  have h := Bindings.creatable_spares hs.unique.identities hs.unique.bindingNames b (hk.ne (by decide))
    (hk.ne (by decide)) (hk.ne (by decide))
  rw [Bindings.run_create]
  cases hc : Bindings.creatable s.store b with
  | ok => exact .ok _
  | error e => exact .error (h e hc)

theorem faultless_updateBinding (w : World) (hs : s.store.Sound g) {b : Binding}
    (hb : b ∈ s.store.bindings.toList) (changes : Binding.Update) :
    (run w (Bindings.update b changes) s).1.Faultless := by
  intro k hk
  have h : (Bindings.updated s.store b (b.apply changes)).Spares k :=
    Bindings.updated_spares hs.unique.identities hs.unique.bindingNames ⟨b, hb, rfl⟩
      (hk.ne (by decide)) (hk.ne (by decide)) (hk.ne (by decide))
  rw [Bindings.run_update]
  cases hu : Bindings.updated s.store b (b.apply changes) with
  | ok u => exact .ok _
  | error e => exact .error (h e hu)

theorem faultless_createAuthMethod (w : World) (hg : g.Equipped) (hs : s.store.Sound g) {t : ServiceType}
    (ht : t ∈ s.store.serviceTypes.toList) (body : Bytes) :
    (run w (AuthMethods.create g.registry t body) s).1.Faultless := by
  intro k hk
  have h := AuthMethods.creatable_spares s.store body (hs.registered hg ht) (hs.endpoint hg ht)
    (hk.ne (by decide)) (hk.ne (by decide)) (hk.ne (by decide)) (hk.ne (by decide))
  rw [AuthMethods.run_create]
  cases hc : AuthMethods.creatable g.registry s.store t body with
  | ok a => exact .ok _
  | error e => exact .error (h e hc)

theorem faultless_updateAuthMethod (w : World) {r : AuthMethodRecord} {current : AuthMethod}
    (hr : r ∈ s.store.authMethods.toList) (hc : AuthMethod.ofRecord r = .ok current) (body : Bytes) :
    (run w (AuthMethods.update current body) s).1.Faultless := by
  intro k hk
  cases hm : AuthMethods.merge current body with
  | error e =>
    rw [AuthMethods.run_update_of_error hm]
    exact .error (AuthMethods.merge_spares current body (hk.ne (by decide)) e hm)
  | ok a =>
    have ha : ∃ r ∈ s.store.authMethods.toList, r.uuid = a.uuid := ⟨r, hr, (uuid_of_merge hc hm).symm⟩
    have h : (AuthMethods.updated s.store current a).Spares k :=
      AuthMethods.updated_spares ha (hk.ne (by decide)) (hk.ne (by decide)) (hk.ne (by decide))
    rw [AuthMethods.run_update_of_merge hm]
    cases hu : AuthMethods.updated s.store current a with
    | ok u => exact .ok _
    | error e => exact .error (h e hu)

theorem blameless_handle (hg : g.Equipped) (hs : s.store.Sound g) (body : Bytes) (chain : List Bytes)
    (method : Method) (hr : route.isManagement = true) :
    Blameless w s (g.handle body chain route method) := by
  have hservice (name : String) : (ServiceTypes.named s.store name).Faultless := fun k hk ↦
    ServiceTypes.named_spares hs.unique.serviceTypeNames name (hk.ne (by decide))
  have hbinding (name : String) : (Bindings.named s.store name).Faultless := fun k hk ↦
    Bindings.named_spares hs.unique.bindingNames name (hk.ne (by decide))
  have hok : 200 < 500 := by decide
  have hcreated : 201 < 500 := by decide
  have hnone : 204 < 500 := by decide
  unfold handle
  split
  · cases hr
  · cases hr
  · exact .bind (.ofResult _) (readBody_faultless _ _) fun t _ ↦
      .answer (faultless_createServiceType w s t) fun _ ↦ hcreated
  · exact .bind ServiceTypes.findAll_inspects (.ok _) fun _ _ ↦ .pure hok
  · refine .bind (.ofResult _) (readBody_faultless _ _) fun changes _ ↦ ?_
    refine .bind (ServiceTypes.findByName_inspects _) (hservice _) fun t ht ↦ ?_
    have ht : t ∈ s.store.serviceTypes.toList := (ServiceTypes.named_eq_ok_iff.1 ht).1
    exact .answer (faultless_updateServiceType w ht changes) fun _ ↦ hok
  · refine .bind (ServiceTypes.findByName_inspects _) (hservice _) fun t _ ↦ ?_
    exact .answer (ServiceTypes.run_delete (w := w) (s := s) t ▸ .ok ()) fun _ ↦ hnone
  · exact .bind (ServiceTypes.findByName_inspects _) (hservice _) fun _ _ ↦ .pure hok
  · refine .bind (ServiceTypes.findByName_inspects _) (hservice _) fun t ht ↦ ?_
    have ht : t ∈ s.store.serviceTypes.toList := (ServiceTypes.named_eq_ok_iff.1 ht).1
    exact .answer (faultless_createAuthMethod w hg hs ht body) fun _ ↦ hcreated
  · exact .bind AuthMethods.findAll_inspects (findAll_faultless hs) fun _ _ ↦ .pure hok
  · refine .bind (authMethodAt_inspects g _ _) (authMethodOf_faultless hg hs _ _) fun a ha ↦ ?_
    obtain ⟨u, r, -, -, -, ⟨hr, -⟩, hra⟩ := authMethodOf_eq_ok_iff.1 ha
    exact .answer (faultless_updateAuthMethod w hr hra body) fun _ ↦ hok
  · refine .bind (authMethodAt_inspects g _ _) (authMethodOf_faultless hg hs _ _) fun a _ ↦ ?_
    exact .answer (AuthMethods.run_delete (w := w) (s := s) a ▸ .ok ()) fun _ ↦ hnone
  · exact .bind (authMethodAt_inspects g _ _) (authMethodOf_faultless hg hs _ _) fun _ _ ↦ .pure hok
  · exact .bind (serviceTypeWithHost_inspects _ _) (serving_faultless hs _ _) fun t _ ↦
      .bind (Bindings.findByServiceAndHost_inspects _ _) (.ok _) fun _ _ ↦ .pure hok
  · refine .bind (serviceTypeWithHost_inspects _ _) (serving_faultless hs _ _) fun t _ ↦ ?_
    refine .bind (Bindings.findByIdentity_inspects _) (fun k hk ↦ ?_) fun _ _ ↦ .pure hok
    exact Bindings.identified_spares hs.unique.identities _ (hk.ne (by decide))
  · exact .bind Bindings.findAll_inspects (.ok _) fun _ _ ↦ .pure hok
  · exact .bind (.ofResult _) (readBody_faultless _ _) fun b _ ↦
      .answer (faultless_createBinding w hs _) fun _ ↦ hcreated
  · refine .bind (.ofResult _) (readBody_faultless _ _) fun changes _ ↦ ?_
    refine .bind (Bindings.findByName_inspects _) (hbinding _) fun b hb ↦ ?_
    have hb : b ∈ s.store.bindings.toList := (Bindings.named_eq_ok_iff.1 hb).1
    exact .answer (faultless_updateBinding w hs hb changes) fun _ ↦ hok
  · refine .bind (Bindings.findByName_inspects _) (hbinding _) fun b _ ↦ ?_
    exact .answer (Bindings.run_delete (w := w) (s := s) b ▸ .ok ()) fun _ ↦ hnone
  · exact .bind (Bindings.findByName_inspects _) (hbinding _) fun _ _ ↦ .pure hok

theorem returns_faultless {workers : Nat} {c : Certificate} {lists : List (String × Option (List Nat))}
    {e : Error} (h : Revocation.Returns workers c lists (.error e)) : ¬ e.kind.IsFault := by
  by_cases hc : c.revocationPoints = []
  · cases h with
    | noPoints => decide
    | ended hn => exact absurd hc hn
  · rcases (h.sound hc).2 with ⟨rfl, -⟩ | ⟨url, rfl, -⟩
    · decide
    · exact (by decide : ¬ ErrorKind.IsFault .crlUnreachable)

theorem ofDer_faultless (der : Bytes) : (Certificate.ofDer der).Faultless := by
  rw [Certificate.ofDer]
  split
  · exact .ok _
  · exact .error (by decide)

/-- With nothing amiss in the store, a fault can come from the retrieval of the token alone. -/
theorem retrieval_of_refuses {a : Attempt} {e : Error} (hg : g.Equipped) (hs : a.state.store.Sound g)
    (ha : a.registry = g.registry) (h : a.Refuses e) (he : e.kind.IsFault) :
    ∃ c t b m, a.Reaches c t b m ∧ a.retrieval b m = .error e := by
  cases h with
  | noCertificate h => exact absurd he (by decide)
  | unreadable hd h => exact absurd he ((ofDer_faultless _).of_error h)
  | expired hc hv h => exact absurd he (by decide)
  | notYetActive hc hv hn h => exact absurd he (by decide)
  | revocation hc hv ht h => exact absurd he (returns_faultless h)
  | noServiceType hc h => exact absurd he (by decide)
  | severalServiceTypes hc h => exact absurd h (hs.unique.serviceTypeNames.not_several fun _ h ↦ h)
  | unsupported hc ht h => exact absurd he (by decide)
  | noHost hc ht hx h => exact absurd he (by decide)
  | noBinding ht h => exact absurd he (by decide)
  | severalBindings ht h => exact absurd h (hs.unique.identities.not_several fun _ h ↦ h)
  | unregistered hb h =>
    have hr := hs.registered hg hb.admits.only.1
    rw [ha, hr] at h
    cases h
  | noAuthMethod hb hr h => exact absurd he (by decide)
  | severalAuthMethods hb hr h => exact absurd h (hs.not_several _ _ _)
  | @unknownTag c t b r e hb htag hr h =>
    obtain ⟨m, hm⟩ := (hs.anchored.readable r hr.1).2
    rw [hm] at h
    cases h
  | @retrieval c t b m e hm h => exact ⟨c, t, b, m, hm, h⟩

theorem reported_status (r : Request) (x : Result Response) : (reported r x).status = (told x).status := by
  rw [reported]
  split <;> rfl

/-- The response to a request for a token is a fault that the retrieval ended with. -/
def FailsToRetrieve (g : Gateway) (w : World) (s : State) (r : Request) (response : Response) : Prop :=
  ∃ serviceType host, Request.AsksFor r serviceType host ∧ ∃ c t b m e,
    (g.attempt w s r serviceType host).Reaches c t b m ∧
      (g.attempt w s r serviceType host).retrieval b m = .error e ∧ response = reported r (.error e)

theorem handle_authentication (hg : g.Equipped) (hs : s.store.Sound g) {serviceType last : String}
    (hr : Request.route? r = some (.authentication serviceType last)) :
    Blameless w s (g.handle r.body r.chain (.authentication serviceType last) method) ∨
      g.FailsToRetrieve w s r
        (reported r (run w (g.handle r.body r.chain (.authentication serviceType last) method) s).1) := by
  rw [Blameless, handle]
  cases hd : dropSuffix? authenticationSuffix last with
  | none => exact .inl (by decide : 404 < 500)
  | some host =>
    let a : Attempt := g.attempt w s r serviceType host
    dsimp only
    rw [run_bind]
    rcases hu : run w (Authentication.authenticate g.settings g.registry r.chain serviceType host) s with
      ⟨e | token, t⟩
    · have ha : a.Refuses e := Attempt.refuses_of_result (congrArg Prod.fst hu)
      by_cases he : e.kind.IsFault
      · obtain ⟨c, u, b, m, hm, hf⟩ := retrieval_of_refuses hg hs rfl ha he
        exact .inr ⟨serviceType, host, ⟨last, hr, hd⟩, c, u, b, m, e, hm, hf, rfl⟩
      · exact .inl (Error.statusCode_lt_iff.2 he)
    · exact .inl (by decide : 200 < 500)

theorem respond_faultless (hg : g.Equipped) (hs : s.store.Sound g) (w : World) (r : Request) :
    ∃ response t, run w (g.respond r) s = (.ok response, t) ∧
      (500 ≤ response.status → g.FailsToRetrieve w s r response) := by
  rcases faultless_or_handles g r with ⟨x, hx, -, h⟩ | ⟨route, h⟩
  · refine ⟨_, _, h w s, fun hf ↦ absurd hx (Nat.not_lt_of_le ?_)⟩
    exact reported_status r x ▸ hf
  · refine ⟨_, _, h.run_eq w s, fun hf ↦ ?_⟩
    rw [reported_status] at hf
    have hn : ¬ Blameless w s (g.handle r.body r.chain route r.method.answeredAs) := Nat.not_lt_of_le hf
    by_cases ha : ∃ serviceType last, route = .authentication serviceType last
    · obtain ⟨serviceType, last, rfl⟩ := ha
      exact (handle_authentication hg hs h.leads).resolve_left hn
    · refine absurd ?_ hn
      by_cases hm : route.isManagement = true
      · exact blameless_handle hg hs _ _ _ hm
      · cases route with
        | health => exact .pure (by decide)
        | authentication t last => exact absurd ⟨t, last, rfl⟩ ha
        | _ => exact absurd rfl hm

/-- Whatever was requested before, the response to a request is no fault of the gateway unless it is
one to a client whose token could not be retrieved. -/
theorem faultless_after (settings : Settings)
    (hm : ∀ tag ∈ settings.supportedAuthMethods, (Registry.ofSettings settings).isRegistered tag = true)
    (he : ∀ kind ∈ settings.supportedServiceTypes, (settings.endpointDefaults.find? kind).isSome = true)
    (requests : List (World × Request)) (w : World) (r : Request) :
    let g := ofSettings settings
    let s := g.after ⟨{}, 0, []⟩ requests
    ∃ response t, run w (g.respond r) s = (.ok response, t) ∧
      (500 ≤ response.status → g.FailsToRetrieve w s r response) := by
  intro g s
  have hg : g.Equipped := ⟨Registry.tagged_ofSettings settings, hm, he⟩
  exact respond_faultless hg (sound_after hg .empty requests) w r

theorem faultless_after_create :
    ∃ (settings : Settings) (w : World) (q r : Request), settings = { serviceToken := "k" } ∧
      q = ⟨.post, ⟨"/v1/service-types", some "key=k"⟩,
        Utf8.encode ("\x7b\"name\":\"a\",\"hosts\":[\"h\"]," ++
          "\"auth_types\":[\"x509\"],\"auth_method\":\"headers\",\"type\":\"ams\"\x7d"), []⟩ ∧
      r = ⟨.get, ⟨"/v1/service-types/a", some "key=k"⟩, [], []⟩ ∧
      (∀ tag ∈ settings.supportedAuthMethods, (Registry.ofSettings settings).isRegistered tag = true) ∧
      (∀ kind ∈ settings.supportedServiceTypes, (settings.endpointDefaults.find? kind).isSome = true) ∧
      ∃ response t, run w ((ofSettings settings).respond r)
          ((ofSettings settings).after ⟨{}, 0, []⟩ [(w, q)]) = (.ok response, t) ∧
        (500 ≤ response.status → (ofSettings settings).FailsToRetrieve w
          ((ofSettings settings).after ⟨{}, 0, []⟩ [(w, q)]) r response) := by
  let settings : Settings := { serviceToken := "k" }
  let w : World := ⟨fun _ ↦ none, ⟨0, 0⟩, fun n ↦ toString n⟩
  let q : Request :=
    ⟨.post, ⟨"/v1/service-types", some "key=k"⟩, Utf8.encode ("\x7b\"name\":\"a\",\"hosts\":[\"h\"]," ++
      "\"auth_types\":[\"x509\"],\"auth_method\":\"headers\",\"type\":\"ams\"\x7d"), []⟩
  let r : Request := ⟨.get, ⟨"/v1/service-types/a", some "key=k"⟩, [], []⟩
  have hm : ∀ tag ∈ settings.supportedAuthMethods,
      (Registry.ofSettings settings).isRegistered tag = true := by decide
  have he : ∀ kind ∈ settings.supportedServiceTypes,
      (settings.endpointDefaults.find? kind).isSome = true := by decide
  exact ⟨settings, w, q, r, rfl, rfl, rfl, hm, he, faultless_after settings hm he [(w, q)] w r⟩

end Gateway

end CertGate
