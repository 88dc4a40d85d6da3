import CertGate.Proofs.Gateway.Anchored
import CertGate.Proofs.Gateway.Unique

namespace CertGate

theorem Error.statusCode_eq_409_iff {e : Error} : e.statusCode = 409 ↔ e.kind = .conflict := by
  rw [statusCode]
  cases e.kind <;> simp

namespace Gateway

open Http (Method Request Response)
open Program

def Request.change? (r : Request) : Option (String × ServiceType.Update) :=
  match r.method, Request.route? r, readBody ServiceType.Update.ofDatum? r.body with
  | .put, some (.serviceType name), .ok changes => some (name, changes)
  | _, _, _ => none

/-- If the request changes a service type, it still suits what is stored under it. -/
def Keeps (g : Gateway) (w : World) (s : State) (r : Request) : Prop :=
  ∀ p ∈ Request.change? r, ∀ t ∈ s.store.serviceTypes.toList, t.name = p.1 →
    t.apply p.2 ∈ (run w (g.respond r) s).2.store.serviceTypes.toList → s.store.Suits (t.apply p.2)

instance (g : Gateway) (w : World) (s : State) (r : Request) : Decidable (g.Keeps w s r) :=
  inferInstanceAs (Decidable (∀ p ∈ _, ∀ t ∈ _, _ → _ → _))

/-- Requests that keep what there is, with uuids that no service type has yet. -/
def Tidy (g : Gateway) : State → List (World × Request) → Prop
  | _, [] => True
  | s, q :: requests =>
    (∀ t ∈ s.store.serviceTypes.toList, t.uuid ≠ q.1.uuids s.issued) ∧ g.Keeps q.1 s q.2 ∧
      Tidy g (run q.1 (g.respond q.2) s).2 requests

def decidableTidy (g : Gateway) : ∀ s requests, Decidable (g.Tidy s requests)
  | _, [] => .isTrue trivial
  | s, q :: requests =>
    have := decidableTidy g (run q.1 (g.respond q.2) s).2 requests
    inferInstanceAs (Decidable (_ ∧ _ ∧ _))

instance (g : Gateway) (s : State) (requests : List (World × Request)) : Decidable (g.Tidy s requests) :=
  decidableTidy g s requests

/-- The auth method of a record is found under the name of a service type, to be shown, changed and
deleted. -/
structure Finds (g : Gateway) (s : State) (t : ServiceType) (m : AuthMethodRecord) (a : AuthMethod) :
    Prop where
  record : AuthMethod.ofRecord m = .ok a
  get : ∀ w r, g.Manages r .get (.authMethod t.name m.host) →
    run w (g.respond r) s = (.ok (.json 200 a.toDatum), s)
  put : ∀ w r, g.Manages r .put (.authMethod t.name m.host) →
    run w (g.respond r) s =
      (.ok (told ((run w (AuthMethods.update a r.body) s).1.map fun a ↦ .json 200 a.toDatum)),
        (run w (AuthMethods.update a r.body) s).2)
  delete : ∀ w r, g.Manages r .delete (.authMethod t.name m.host) →
    run w (g.respond r) s = (.ok .noContent, { s with store := s.store.deleteAuthMethod m.uuid })

/-- No auth method is found at a host, and none can be created there because there is one. -/
def Stuck (g : Gateway) (s : State) (name host : String) : Prop :=
  ∃ w w' r r' p, g.Manages r .get (.authMethod name host) ∧ g.Manages r' .post (.newAuthMethod name) ∧
    AuthMethods.readPatch r'.body = .ok p ∧ p.host = some host ∧
    (run w (g.respond r) s).1.map Response.status = .ok 404 ∧
    (run w' (g.respond r') s).1.map Response.status = .ok 409

variable {g : Gateway} {w : World} {s : State} {r : Request} {route : Route} {v : ServiceType}

theorem mem_of_change {n : Nat} {s t : Store} {body : Bytes} {method : Method} {response : Response}
    (h : g.Change w n s body route method response t) (hv : v ∈ t.serviceTypes.toList) :
    v ∈ s.serviceTypes.toList ∨ v.uuid = w.uuids n ∨
      ∃ name changes, (route = .serviceType name ∧ method = .put ∧
        readBody ServiceType.Update.ofDatum? body = .ok changes) ∧
        ∃ t ∈ s.serviceTypes.toList, t.name = name ∧ v = t.apply changes := by
  cases h with
  | createServiceType hb h =>
    rcases Keyed.mem_insert.1 hv with rfl | ⟨hv, -⟩
    · exact .inr (.inl rfl)
    · exact .inl hv
  | @updateServiceType name u changes hb hu h =>
    rcases Keyed.mem_insert.1 hv with rfl | ⟨hv, -⟩
    · obtain ⟨hm, hn, -⟩ := ServiceTypes.named_eq_ok_iff.1 hu
      exact .inr (.inr ⟨name, changes, ⟨rfl, rfl, hb⟩, u, hm, hn, rfl⟩)
    · exact .inl hv
  | deleteServiceType hu => exact .inl (Keyed.mem_filter.1 hv).1
  | _ => exact .inl hv

theorem mem_of_respond (hv : v ∈ (run w (g.respond r) s).2.store.serviceTypes.toList) :
    v ∈ s.store.serviceTypes.toList ∨ v.uuid = w.uuids s.issued ∨
      ∃ name changes, Request.change? r = some (name, changes) ∧
        ∃ t ∈ s.store.serviceTypes.toList, t.name = name ∧ v = t.apply changes := by
  obtain ⟨response, ⟨t, n, sent⟩, ht, h⟩ := respond_outcome g w s r
  rw [ht] at hv
  change v ∈ t.serviceTypes.toList at hv
  change g.Outcome w s r response t at h
  rcases h with h | ⟨hr, h⟩ | ⟨hm, ha, hk, token⟩
  · exact .inl hv
  · refine (mem_of_change h hv).imp_right (Or.imp_right ?_)
    rintro ⟨name, changes, ⟨rfl, hm, hb⟩, hu⟩
    refine ⟨name, changes, ?_, hu⟩
    rw [Request.change?, hm, hr.leads, hb]
  · exact .inl hv

theorem suits_respond (hg : g.registry.Tagged) (ha : s.store.Anchored g.registry)
    (hs : ∀ t ∈ s.store.serviceTypes.toList, s.store.Suits t)
    (hn : ∀ t ∈ s.store.serviceTypes.toList, t.uuid ≠ w.uuids s.issued) (hk : g.Keeps w s r) :
    let u := (run w (g.respond r) s).2
    ∀ t ∈ u.store.serviceTypes.toList, u.store.Suits t := by
  intro u v hv
  have hsv : s.store.Suits v := by
    rcases mem_of_respond hv with hv | hv | ⟨name, changes, hc, t, ht, htn, rfl⟩
    · exact hs v hv
    · -- Nothing is stored under a new uuid.
      refine ⟨fun b hb hbv ↦ ?_, fun m hm hmv ↦ ?_⟩
      · obtain ⟨u, hu, hub⟩ := ha.bindings b hb
        exact absurd (hub.trans (hbv.trans hv)) (hn u hu)
      · obtain ⟨u, hu, hum⟩ := ha.authMethods m hm
        exact absurd (hum.trans (hmv.trans hv)) (hn u hu)
    · exact hk (name, changes) hc t ht htn hv
  obtain ⟨response, t, ht, he⟩ := respond_effect g w s r
  obtain rfl : u = t := congrArg Prod.snd ht
  exact he.suits hg hv hsv

theorem anchored_after (hg : g.registry.Tagged) (requests : List (World × Request))
    (ha : s.store.Anchored g.registry) (hu : s.store.Unique) :
    (g.after s requests).store.Anchored g.registry ∧ (g.after s requests).store.Unique := by
  induction requests generalizing s with
  | nil => exact ⟨ha, hu⟩
  | cons q requests ih =>
    obtain ⟨response, t, ht, he⟩ := respond_effect g q.1 s q.2
    rw [after_cons, ht]
    exact ih (he.anchored hg ha) (he.unique hu)

theorem suits_after (hg : g.registry.Tagged) {requests : List (World × Request)} (h : g.Tidy s requests)
    (ha : s.store.Anchored g.registry) (hs : ∀ t ∈ s.store.serviceTypes.toList, s.store.Suits t) :
    ∀ t ∈ (g.after s requests).store.serviceTypes.toList, (g.after s requests).store.Suits t := by
  induction requests generalizing s with
  | nil => exact hs
  | cons q requests ih =>
    obtain ⟨hn, hk, h⟩ := h
    rw [after_cons]
    refine ih h ?_ (suits_respond hg ha hs hn hk)
    obtain ⟨response, t, ht, he⟩ := respond_effect g q.1 s q.2
    rw [ht]
    exact he.anchored hg ha

theorem finds_of_authMethodOf {t : ServiceType} {m : AuthMethodRecord} {a : AuthMethod}
    (h : AuthMethod.ofRecord m = .ok a) (ha : g.authMethodOf s.store t.name m.host = .ok a) :
    g.Finds s t m a := by
  have hrun (w : World) : run w (g.authMethodAt t.name m.host) s = (.ok a, s) :=
    (authMethodAt_inspects g t.name m.host w s).trans (congrArg (·, s) ha)
  refine ⟨h, fun w r hr ↦ ?_, fun w r hr ↦ ?_, fun w r hr ↦ ?_⟩
  · have hget : run w (g.handle r.body r.chain (.authMethod t.name m.host) .get) s =
        (.ok (.json 200 a.toDatum), s) := by
      change run w (g.authMethodAt t.name m.host >>= _) s = _
      rw [run_bind, hrun]
      rfl
    rw [hr.run_eq (by simp [Route.methods]), hget]
    rfl
  · have hput : run w (g.handle r.body r.chain (.authMethod t.name m.host) .put) s =
        ((run w (AuthMethods.update a r.body) s).1.map fun a ↦ .json 200 a.toDatum,
          (run w (AuthMethods.update a r.body) s).2) := by
      rw [handle, run_bind, hrun]
      dsimp only
      rw [run_bind]
      rcases run w (AuthMethods.update a r.body) s with ⟨_ | a, u⟩ <;> rfl
    rw [hr.run_eq (by simp [Route.methods]), hput]
  · have hdelete : run w (g.handle r.body r.chain (.authMethod t.name m.host) .delete) s =
        (.ok .noContent, { s with store := s.store.deleteAuthMethod m.uuid }) := by
      obtain ⟨v, -, rfl⟩ := AuthMethods.ofRecord_eq_ok_iff.1 h
      rw [handle, run_bind, hrun]
      rfl
    rw [hr.run_eq (by simp [Route.methods]), hdelete]
    rfl

theorem exists_of_conflict {name host : String} {p : AuthMethod.Patch} (hg : g.registry.Tagged)
    (hr : g.Manages r .post (.newAuthMethod name)) (hp : AuthMethods.readPatch r.body = .ok p)
    (hh : p.host = some host) (h : (run w (g.respond r) s).1.map Response.status = .ok 409) :
    ∃ t ∈ s.store.serviceTypes.toList, t.name = name ∧
      ∃ m ∈ s.store.authMethods.toList, m.serviceUuid = t.uuid ∧ m.host = host := by
  rw [hr.run_eq (by simp [Route.methods]), handle,
    (ServiceTypes.findByName_inspects name).run_bind] at h
  cases hn : ServiceTypes.named s.store name with
  | error e =>
    rw [hn] at h
    have hk := ServiceTypes.single_spares (k := .conflict) _ _ (by decide) (by decide) e hn
    exact absurd (Error.statusCode_eq_409_iff.1 (Except.ok.inj h)) hk
  | ok t =>
    rw [hn] at h
    dsimp only at h
    rw [run_bind, AuthMethods.run_create] at h
    cases hc : AuthMethods.creatable g.registry s.store t r.body with
    | ok a =>
      rw [hc] at h
      exact absurd (Except.ok.inj h) (by simp [told, Response.json])
    | error e =>
      rw [hc] at h
      have hk : e.kind = .conflict := Error.statusCode_eq_409_iff.1 (Except.ok.inj h)
      obtain ⟨a, hd, m, hm, hma, hmh⟩ := AuthMethods.exists_of_creatable_conflict hc hk
      obtain ⟨-, hat, -, p', hp', hah⟩ := AuthMethods.of_draft hg hd
      obtain rfl := Except.ok.inj (hp.symm.trans hp')
      obtain ⟨ht, htn, -⟩ := ServiceTypes.named_eq_ok_iff.1 hn
      rw [hh, Option.getD_some] at hah
      exact ⟨t, ht, htn, m, hm, hma.trans hat, hmh.trans hah⟩

/-- Whatever the requests are, what is stored belongs to a service type. If they keep what is there,
bindings stay valid and auth methods are found, so that no host is stuck. -/
theorem valid_and_found_after (g : Gateway) (hg : g.registry.Tagged) (requests : List (World × Request)) :
    let s := g.after ⟨{}, 0, []⟩ requests
    s.store.Anchored g.registry ∧ (g.Tidy ⟨{}, 0, []⟩ requests →
      (∀ b ∈ s.store.bindings.toList, ∀ w, run w (Bindings.validate b) s = (.ok (), s)) ∧
      (∀ m ∈ s.store.authMethods.toList, ∃ t ∈ s.store.serviceTypes.toList, t.uuid = m.serviceUuid ∧
        m.host ∈ t.hosts ∧ m.kind = t.authMethod ∧ ∃ a, g.Finds s t m a) ∧
      ∀ name host, ¬ g.Stuck s name host) := by
  intro s
  have hstart : ∀ t ∈ ({} : Store).serviceTypes.toList, ({} : Store).Suits t :=
    fun t ht ↦ absurd ht List.not_mem_nil
  obtain ⟨ha, hu⟩ := anchored_after (s := ⟨{}, 0, []⟩) hg requests .empty .empty
  refine ⟨ha, fun h ↦ ?_⟩
  have hs : ∀ t ∈ s.store.serviceTypes.toList, s.store.Suits t := suits_after hg h .empty hstart
  have hfinds {t : ServiceType} {m : AuthMethodRecord} (ht : t ∈ s.store.serviceTypes.toList)
      (hm : m ∈ s.store.authMethods.toList) (hmt : m.serviceUuid = t.uuid) : ∃ a, g.Finds s t m a := by
    obtain ⟨hreg, a, hra⟩ := ha.readable m hm
    obtain ⟨hh, hk⟩ := (hs t ht).authMethods m hm hmt
    exact ⟨a, finds_of_authMethodOf hra (authMethodOf_of_mem hu ht hm hmt hh hk (hk ▸ hreg) hra)⟩
  refine ⟨fun b hb w ↦ ?_, fun m hm ↦ ?_, ?_⟩
  · obtain ⟨t, ht, htb⟩ := ha.bindings b hb
    have hc : b.checkAgainst t = .ok () :=
      Binding.checkAgainst_eq_ok_iff.2 ((hs t ht).bindings b hb htb.symm)
    have hv : Bindings.valid s.store b = .ok () :=
      Bindings.valid_eq_ok_iff.2 ⟨ha.filled b hb, t, ht, htb, hc⟩
    exact (Bindings.validate_inspects b w s).trans (congrArg (·, s) hv)
  · obtain ⟨t, ht, htm⟩ := ha.authMethods m hm
    obtain ⟨hh, hk⟩ := (hs t ht).authMethods m hm htm.symm
    exact ⟨t, ht, htm, hh, hk, hfinds ht hm htm.symm⟩
  · rintro name host ⟨w, w', r, r', p, hr, hr', hp, hph, hget, hpost⟩
    obtain ⟨t, ht, rfl, m, hm, hmt, rfl⟩ := exists_of_conflict hg hr' hp hph hpost
    obtain ⟨a, hfind⟩ := hfinds ht hm hmt
    rw [hfind.get w r hr] at hget
    exact absurd (Except.ok.inj hget) (by simp [Response.json])

theorem valid_and_found_after_new_host :
    ∃ (g : Gateway) (w : World) (requests : List Request),
      requests = [
        keyed .post "/v1/service-types" ("\x7b\"name\":\"a\",\"hosts\":[\"h\"]," ++
          "\"auth_types\":[\"x509\"],\"auth_method\":\"api-key\",\"type\":\"ams\"\x7d"),
        keyed .post "/v1/service-types/a/authm" "\x7b\"host\":\"h\",\"port\":1,\"access_key\":\"x\"\x7d",
        keyed .put "/v1/service-types/a" "\x7b\"hosts\":[\"h\",\"i\"]\x7d"] ∧
      g.registry.Tagged ∧ g.Tidy ⟨{}, 0, []⟩ (requests.map (w, ·)) ∧
      let s := g.after ⟨{}, 0, []⟩ (requests.map (w, ·))
      s.store.serviceTypes.toList.map ServiceType.hosts = [["h", "i"]] ∧
      s.store.authMethods.toList.map AuthMethodRecord.host = ["h"] ∧ s.store.Anchored g.registry ∧
      (∀ m ∈ s.store.authMethods.toList, ∃ t ∈ s.store.serviceTypes.toList, t.uuid = m.serviceUuid ∧
        m.host ∈ t.hosts ∧ m.kind = t.authMethod ∧ ∃ a, g.Finds s t m a) ∧
      ∀ name host, ¬ g.Stuck s name host := by
  let g := ofSettings { serviceToken := "k" }
  let w : World := ⟨fun _ ↦ none, ⟨0, 0⟩, fun n ↦ toString n⟩
  let requests : List Request := [
    keyed .post "/v1/service-types" ("\x7b\"name\":\"a\",\"hosts\":[\"h\"]," ++
      "\"auth_types\":[\"x509\"],\"auth_method\":\"api-key\",\"type\":\"ams\"\x7d"),
    keyed .post "/v1/service-types/a/authm" "\x7b\"host\":\"h\",\"port\":1,\"access_key\":\"x\"\x7d",
    keyed .put "/v1/service-types/a" "\x7b\"hosts\":[\"h\",\"i\"]\x7d"]
  have hg : g.registry.Tagged := Registry.tagged_ofSettings _
  have ht : g.Tidy ⟨{}, 0, []⟩ (requests.map (w, ·)) := by decide +kernel
  have hstore :
      let s := (g.after ⟨{}, 0, []⟩ (requests.map (w, ·))).store
      s.serviceTypes.toList.map ServiceType.hosts = [["h", "i"]] ∧
        s.authMethods.toList.map AuthMethodRecord.host = ["h"] := by decide +kernel
  obtain ⟨ha, h⟩ := valid_and_found_after g hg (requests.map (w, ·))
  obtain ⟨-, hf, hs⟩ := h ht
  exact ⟨g, w, requests, rfl, hg, ht, hstore.1, hstore.2, ha, hf, hs⟩

/-- A service type gets a new tag while a host has an auth method with the old one. -/
theorem stuck_after_new_tag :
    ∃ (g : Gateway) (w : World) (requests : List Request),
      g = ofSettings { serviceToken := "k" } ∧
      requests = [
        keyed .post "/v1/service-types" ("\x7b\"name\":\"a\",\"hosts\":[\"h\"]," ++
          "\"auth_types\":[\"x509\"],\"auth_method\":\"api-key\",\"type\":\"ams\"\x7d"),
        keyed .post "/v1/service-types/a/authm" "\x7b\"host\":\"h\",\"port\":1,\"access_key\":\"x\"\x7d",
        keyed .put "/v1/service-types/a" "\x7b\"auth_method\":\"headers\"\x7d"] ∧
      g.Stuck (g.after ⟨{}, 0, []⟩ (requests.map (w, ·))) "a" "h" := by
  let w : World := ⟨fun _ ↦ none, ⟨0, 0⟩, fun n ↦ toString n⟩
  let body := "\x7b\"host\":\"h\",\"port\":1,\"headers\":\x7b\"x\":\"y\"\x7d\x7d"
  have hget : (ofSettings { serviceToken := "k" }).Manages
      (keyed .get "/v1/service-types/a/hosts/h/authm" "") .get (.authMethod "a" "h") :=
    manages_keyed (by decide +kernel) (by decide +kernel)
  have hpost : (ofSettings { serviceToken := "k" }).Manages
      (keyed .post "/v1/service-types/a/authm" body) .post (.newAuthMethod "a") :=
    manages_keyed (by decide +kernel) (by decide +kernel)
  have hp : (AuthMethods.readPatch (Utf8.encode body)).map AuthMethod.Patch.host = .ok (some "h") := by
    decide +kernel
  obtain ⟨p, hp, hh⟩ : ∃ p, AuthMethods.readPatch (Utf8.encode body) = .ok p ∧ p.host = some "h" := by
    cases h : AuthMethods.readPatch (Utf8.encode body) with
    | error e => rw [h] at hp; cases hp
    | ok p => rw [h] at hp; exact ⟨p, rfl, Except.ok.inj hp⟩
  refine ⟨_, w, _, rfl, rfl, w, w, _, _, p, hget, hpost, hp, hh, ?_⟩
  decide +kernel

end Gateway

end CertGate
