import CertGate.Proofs.Gateway.Shown

namespace CertGate.Gateway

open Http (Method Request Response)
open Program

/-- The changes to a store `s` at a route, each with the response that reports it; `n` is the number
of uuids given out before. -/
inductive Change (g : Gateway) (w : World) (n : Nat) (s : Store) (body : Bytes) :
    Route → Method → Response → Store → Prop
  | createServiceType {t : ServiceType} (hb : readBody ServiceType.ofDatum? body = .ok t)
      (h : ServiceTypes.creatable g.settings s t = .ok ()) :
      Change g w n s body .serviceTypes .post (.json 201 (ServiceTypes.created w n t).toDatum)
        (s.insertServiceType (ServiceTypes.created w n t))
  | updateServiceType {name : String} {t : ServiceType} {changes : ServiceType.Update}
      (hb : readBody ServiceType.Update.ofDatum? body = .ok changes)
      (ht : ServiceTypes.named s name = .ok t)
      (h : ServiceTypes.changeable g.settings s t (t.apply changes) = .ok ()) :
      Change g w n s body (.serviceType name) .put (.json 200 (t.apply changes).toDatum)
        (s.insertServiceType (t.apply changes))
  | deleteServiceType {name : String} {t : ServiceType} (ht : ServiceTypes.named s name = .ok t) :
      Change g w n s body (.serviceType name) .delete .noContent (ServiceTypes.deleted s t.uuid)
  | createBinding {name : String} {b : Binding} (hb : readBody Binding.ofDatum? body = .ok b)
      (h : Bindings.creatable s { b with name } = .ok ()) :
      Change g w n s body (.binding name) .post
        (.json 201 (Bindings.created w n { b with name }).toDatum)
        (s.insertBinding (Bindings.created w n { b with name }))
  | updateBinding {name : String} {b : Binding} {changes : Binding.Update}
      (hc : readBody Binding.Update.ofDatum? body = .ok changes) (hb : Bindings.named s name = .ok b)
      (h : Bindings.changeable s b (b.apply changes) = .ok ()) :
      Change g w n s body (.binding name) .put (.json 200 (b.apply changes).toDatum)
        (s.insertBinding (b.apply changes))
  | deleteBinding {name : String} {b : Binding} (hb : Bindings.named s name = .ok b) :
      Change g w n s body (.binding name) .delete .noContent (s.deleteBinding b.uuid)
  | createAuthMethod {name : String} {t : ServiceType} {a : AuthMethod}
      (ht : ServiceTypes.named s name = .ok t)
      (h : AuthMethods.creatable g.registry s t body = .ok a) :
      Change g w n s body (.newAuthMethod name) .post (.json 201 (AuthMethods.created w n a).toDatum)
        (s.insertAuthMethod (AuthMethods.created w n a).toRecord)
  | updateAuthMethod {name host : String} {current a : AuthMethod}
      (hc : g.authMethodOf s name host = .ok current) (hm : AuthMethods.merge current body = .ok a)
      (h : AuthMethods.changeable s current a = .ok ()) :
      Change g w n s body (.authMethod name host) .put (.json 200 a.toDatum)
        (s.insertAuthMethod a.toRecord)
  | deleteAuthMethod {name host : String} {a : AuthMethod}
      (ha : g.authMethodOf s name host = .ok a) :
      Change g w n s body (.authMethod name host) .delete .noContent (s.deleteAuthMethod a.uuid)

/-- The run of a program ends with a response and a store that are so related, or with an error and
the store that it began with. -/
def Performs (R : Response → Store → Prop) (w : World) (s : State) (p : Program Response) : Prop :=
  match run w p s with
  | (.ok response, t) => R response t.store
  | (.error _, t) => t.store = s.store

variable {g : Gateway} {w : World} {s : State} {body : Bytes} {name host : String}

theorem Change.method_mem {n : Nat} {s t : Store} {route : Route} {method : Method}
    {response : Response} (h : Change g w n s body route method response t) :
    method ∈ [.post, .put, .delete] := by
  cases h <;> simp

theorem Performs.bind {α : Type} {R : Response → Store → Prop} {p : Program α} {f : Store → Result α}
    {k : α → Program Response} (hp : p.Inspects f)
    (hk : ∀ a, f s.store = .ok a → Performs R w s (k a)) : Performs R w s (p >>= k) := by
  rw [Performs, hp.run_bind]
  cases h : f s.store with
  | ok a => exact hk a h
  | error e => rfl

theorem Performs.mono {R R' : Response → Store → Prop} {p : Program Response} (h : Performs R w s p)
    (hR : ∀ response t, R response t → R' response t) : Performs R' w s p := by
  rw [Performs] at h ⊢
  rcases hr : run w p s with ⟨e | response, t⟩ <;> rw [hr] at h
  · exact h
  · exact hR _ _ h

theorem performs_createServiceType {t : ServiceType} (hb : readBody ServiceType.ofDatum? body = .ok t) :
    Performs (g.Change w s.issued s.store body .serviceTypes .post) w s
      (ServiceTypes.create g.settings t >>= fun t ↦ pure (.json 201 t.toDatum)) := by
  rw [Performs, run_bind, ServiceTypes.run_create]
  cases h : ServiceTypes.creatable g.settings s.store t with
  | ok => exact .createServiceType hb h
  | error e => rfl

theorem performs_updateServiceType {t : ServiceType} {changes : ServiceType.Update}
    (hb : readBody ServiceType.Update.ofDatum? body = .ok changes)
    (ht : ServiceTypes.named s.store name = .ok t) :
    Performs (g.Change w s.issued s.store body (.serviceType name) .put) w s
      (ServiceTypes.update g.settings t changes >>= fun t ↦ pure (.json 200 t.toDatum)) := by
  rw [Performs, run_bind, ServiceTypes.run_update]
  cases h : ServiceTypes.updated g.settings s.store t (t.apply changes) with
  | ok u =>
    obtain ⟨hc, -, rfl⟩ := ServiceTypes.updated_eq_ok_iff.1 h
    exact .updateServiceType hb ht hc
  | error e => rfl

theorem performs_createBinding {b : Binding} (hb : readBody Binding.ofDatum? body = .ok b) :
    Performs (g.Change w s.issued s.store body (.binding name) .post) w s
      (Bindings.create { b with name } >>= fun b ↦ pure (.json 201 b.toDatum)) := by
  rw [Performs, run_bind, Bindings.run_create]
  cases h : Bindings.creatable s.store { b with name } with
  | ok => exact .createBinding hb h
  | error e => rfl

theorem performs_updateBinding {b : Binding} {changes : Binding.Update}
    (hc : readBody Binding.Update.ofDatum? body = .ok changes)
    (hb : Bindings.named s.store name = .ok b) :
    Performs (g.Change w s.issued s.store body (.binding name) .put) w s
      (Bindings.update b changes >>= fun b ↦ pure (.json 200 b.toDatum)) := by
  rw [Performs, run_bind, Bindings.run_update]
  cases h : Bindings.updated s.store b (b.apply changes) with
  | ok u =>
    obtain ⟨ha, -, rfl⟩ := Bindings.updated_eq_ok_iff.1 h
    exact .updateBinding hc hb ha
  | error e => rfl

theorem performs_createAuthMethod {t : ServiceType} (ht : ServiceTypes.named s.store name = .ok t) :
    Performs (g.Change w s.issued s.store body (.newAuthMethod name) .post) w s
      (AuthMethods.create g.registry t body >>= fun a ↦ pure (.json 201 a.toDatum)) := by
  rw [Performs, run_bind, AuthMethods.run_create]
  cases h : AuthMethods.creatable g.registry s.store t body with
  | ok a => exact .createAuthMethod ht h
  | error e => rfl

theorem performs_updateAuthMethod {current : AuthMethod}
    (hc : g.authMethodOf s.store name host = .ok current) :
    Performs (g.Change w s.issued s.store body (.authMethod name host) .put) w s
      (AuthMethods.update current body >>= fun a ↦ pure (.json 200 a.toDatum)) := by
  rw [Performs, run_bind]
  cases hm : AuthMethods.merge current body with
  | error e => rw [AuthMethods.run_update_of_error hm]
  | ok a =>
    rw [AuthMethods.run_update_of_merge hm]
    cases h : AuthMethods.updated s.store current a with
    | ok u =>
      obtain ⟨ha, -, rfl⟩ := AuthMethods.updated_eq_ok_iff.1 h
      exact .updateAuthMethod hc hm ha
    | error e => rfl

theorem performs_handle {route : Route} {method : Method} (chain : List Bytes)
    (hm : method ∈ route.methods) (hg : method ≠ .get) :
    Performs (g.Change w s.issued s.store body route method) w s
      (g.handle body chain route method) := by
  cases route with
  | serviceTypes =>
    obtain rfl : method = .post := by simpa [Route.methods, hg] using hm
    exact .bind (.ofResult _) fun t hb ↦ performs_createServiceType hb
  | serviceType name =>
    obtain rfl | rfl : method = .put ∨ method = .delete := by simpa [Route.methods, hg] using hm
    · exact .bind (.ofResult _) fun changes hb ↦
        .bind (ServiceTypes.findByName_inspects _) fun t ht ↦ performs_updateServiceType hb ht
    · refine .bind (ServiceTypes.findByName_inspects _) fun t ht ↦ ?_
      rw [Performs, run_bind, ServiceTypes.run_delete]
      exact .deleteServiceType ht
  | newAuthMethod t =>
    obtain rfl : method = .post := by simpa [Route.methods] using hm
    exact .bind (ServiceTypes.findByName_inspects _) fun t ht ↦ performs_createAuthMethod ht
  | authMethod t host =>
    obtain rfl | rfl : method = .put ∨ method = .delete := by simpa [Route.methods, hg] using hm
    · exact .bind (authMethodAt_inspects g _ _) fun a ha ↦ performs_updateAuthMethod ha
    · refine .bind (authMethodAt_inspects g _ _) fun a ha ↦ ?_
      rw [Performs, run_bind, AuthMethods.run_delete]
      exact .deleteAuthMethod ha
  | binding name =>
    obtain rfl | rfl | rfl : method = .post ∨ method = .put ∨ method = .delete := by
      simpa [Route.methods, hg] using hm
    · exact .bind (.ofResult _) fun b hb ↦ performs_createBinding hb
    · exact .bind (.ofResult _) fun changes hc ↦
        .bind (Bindings.findByName_inspects _) fun b hb ↦ performs_updateBinding hc hb
    · refine .bind (Bindings.findByName_inspects _) fun b hb ↦ ?_
      rw [Performs, run_bind, Bindings.run_delete]
      exact .deleteBinding hb
  | health | authentication | hostBindings | hostBinding | authMethods | bindings =>
    exact absurd (by simpa [Route.methods] using hm) hg

theorem le_statusCode (e : Error) : 400 ≤ e.statusCode := by
  rw [Error.statusCode]
  cases e.kind <;> simp

inductive Outcome (g : Gateway) (w : World) (s : State) (r : Request) : Response → Store → Prop
  | unchanged {response : Response} (h : r.method ∈ [.post, .put, .delete] → 400 ≤ response.status) :
      Outcome g w s r response s.store
  | changed {route : Route} {response : Response} {t : Store} (hr : g.Handles r route)
      (h : g.Change w s.issued s.store r.body route r.method response t) : Outcome g w s r response t
  | noted {serviceType host : String} {c : Certificate} {t : ServiceType} {b : Binding}
      (hm : r.method.answeredAs = .get) (ha : Request.AsksFor r serviceType host)
      (hk : (g.attempt w s r serviceType host).Knows c t b) (token : Datum) :
      Outcome g w s r (.json 200 (.record [("token", token)]))
        (s.store.insertBinding { b with lastAuth := w.now.text })

variable {r : Request} {route : Route}

theorem exists_inspects_of_get (body : Bytes) (chain : List Bytes) (hm : .get ∈ route.methods)
    (h : ∀ t last, route ≠ .authentication t last) :
    ∃ f, (g.handle body chain route .get).Inspects f := by
  cases route with
  | authentication t last => exact absurd rfl (h t last)
  | newAuthMethod t => simp [Route.methods] at hm
  | health => exact ⟨_, .pure _⟩
  | serviceTypes => exact ⟨_, .bind ServiceTypes.findAll_inspects fun _ ↦ .pure _⟩
  | serviceType name => exact ⟨_, reads_serviceType g name body chain⟩
  | authMethod t host => exact ⟨_, reads_authMethod g t host body chain⟩
  | hostBindings t host =>
    exact ⟨_, .bind (serviceTypeWithHost_inspects t host) fun _ ↦
      .bind (Bindings.findByServiceAndHost_inspects _ host) fun _ ↦ .pure _⟩
  | hostBinding t host id => exact ⟨_, reads_hostBinding g t host id body chain⟩
  | authMethods => exact ⟨_, .bind AuthMethods.findAll_inspects fun _ ↦ .pure _⟩
  | bindings => exact ⟨_, .bind Bindings.findAll_inspects fun _ ↦ .pure _⟩
  | binding name => exact ⟨_, reads_binding g name body chain⟩

theorem performs_authentication {t last : String} (method : Method) (hm : r.method.answeredAs = .get)
    (hr : Request.route? r = some (.authentication t last)) :
    Performs (g.Outcome w s r) w s (g.handle r.body r.chain (.authentication t last) method) := by
  rw [handle]
  cases hl : dropSuffix? authenticationSuffix last with
  | none => rfl
  | some host =>
    have ha : Request.AsksFor r t host := ⟨last, hr, hl⟩
    obtain ⟨u, hu, hst⟩ := (g.attempt w s r t host).exists_run
    change run w (Authentication.authenticate g.settings g.registry r.chain t host) s = _ at hu
    dsimp only
    rw [Performs, run_bind, hu]
    cases hd : (g.attempt w s r t host).decided with
    | error e =>
      rw [hd] at hst
      exact hst
    | ok p =>
      obtain ⟨c, v, m, hreach, -⟩ := Authentication.Attempt.decided_eq_ok_iff.1 hd
      have hb : p.1 ∈ s.store.bindings.toList := hreach.knows.only.1
      rw [hd] at hst
      have hu : u.store = s.store.insertBinding { p.1 with lastAuth := w.now.text } :=
        hst.trans (Authentication.Attempt.stamped_eq hb)
      change g.Outcome w s r _ u.store
      rw [hu]
      exact .noted hm ha hreach.knows p.2

theorem Handles.performs (h : g.Handles r route) :
    Performs (g.Outcome w s r) w s (g.handle r.body r.chain route r.method.answeredAs) := by
  by_cases hg : r.method.answeredAs = .get
  · by_cases ha : ∃ t last, route = .authentication t last
    · obtain ⟨t, last, rfl⟩ := ha
      exact performs_authentication _ hg h.leads
    · obtain ⟨f, hf⟩ := exists_inspects_of_get (g := g) r.body r.chain (hg ▸ h.allowed)
        fun t last hr ↦ ha ⟨t, last, hr⟩
      rw [hg, Performs, hf]
      cases f s.store with
      | error e => rfl
      | ok response =>
        refine .unchanged fun hm ↦ ?_
        simp only [List.mem_cons, List.not_mem_nil, or_false] at hm
        rcases hm with hm | hm | hm <;> rw [hm] at hg <;> cases hg
  · have hm : r.method.answeredAs = r.method := by
      cases hr : r.method with
      | head => exact absurd (congrArg Method.answeredAs hr) hg
      | _ => rfl
    have hallowed : r.method ∈ route.methods := hm ▸ h.allowed
    rw [hm] at hg ⊢
    exact (performs_handle r.chain hallowed hg).mono fun response t ht ↦ .changed h ht

theorem respond_outcome (g : Gateway) (w : World) (s : State) (r : Request) :
    ∃ response t, run w (g.respond r) s =
        (.ok (if r.method = .head then response.withoutBody else response), t) ∧
      g.Outcome w s r response t.store := by
  rcases faultless_or_handles g r with ⟨x, -, hx, h⟩ | ⟨route, h⟩
  · refine ⟨told x, s, h w s, .unchanged fun hm ↦ hx.resolve_left ?_⟩
    rintro ho
    simp [ho] at hm
  · have hp := h.performs (w := w) (s := s)
    refine ⟨_, _, h.run_eq w s, ?_⟩
    rw [Performs] at hp
    rcases hr : run w (g.handle r.body r.chain route r.method.answeredAs) s with ⟨e | response, t⟩ <;>
      rw [hr] at hp
    · change g.Outcome w s r (.ofError e) t.store
      rw [show t.store = s.store from hp]
      exact .unchanged fun _ ↦ le_statusCode e
    · exact hp

theorem respond_of_change (g : Gateway) (w : World) (s : State)
    (hm : r.method ∈ [.post, .put, .delete]) :
    ∃ response t, run w (g.respond r) s = (.ok response, t) ∧
      (400 ≤ response.status ∧ t.store = s.store ∨ ∃ route, g.Handles r route ∧
        g.Change w s.issued s.store r.body route r.method response t.store) := by
  obtain ⟨response, ⟨t, n, sent⟩, ht, h⟩ := respond_outcome g w s r
  change g.Outcome w s r response t at h
  have hne : r.method.answeredAs ≠ .get ∧ r.method ≠ .head := by
    simp only [List.mem_cons, List.not_mem_nil, or_false] at hm
    rcases hm with hm | hm | hm <;> simp [hm, Method.answeredAs]
  rw [if_neg hne.2] at ht
  refine ⟨response, _, ht, ?_⟩
  cases h with
  | unchanged h => exact .inl ⟨h hm, rfl⟩
  | @changed route _ _ hr h => exact .inr ⟨route, hr, h⟩
  | noted hg ha hk token => exact absurd hg hne.1

end CertGate.Gateway
