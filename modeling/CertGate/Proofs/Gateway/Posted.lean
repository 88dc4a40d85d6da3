import CertGate.Proofs.Gateway.Path
import CertGate.Proofs.Heeded
import CertGate.Proofs.Record

namespace CertGate

def Record.created (w : Program.World) (n : Nat) : Record → Record
  | serviceType t => serviceType (ServiceTypes.created w n t)
  | binding b => binding (Bindings.created w n b)
  | authMethod r => authMethod { r with uuid := w.uuids n, createdOn := w.now.text }

@[simp] theorem Record.uuid_created (w : Program.World) (n : Nat) (x : Record) :
    (x.created w n).uuid = w.uuids n := by cases x <;> rfl

namespace Gateway

open Http (Method Request Response)
open Program

/-- What is heeded of the body of a request to create something at a route. -/
def Route.heeded : Route → Datum → Datum
  | serviceTypes => Datum.masked ["uuid", "created_on"]
  | binding _ => Datum.masked ["uuid", "created_on", "last_auth", "name"]
  | newAuthMethod _ => Datum.without ["uuid", "created_on", "type", "service_uuid"]
  | _ => id

/-- A request to create something at a route, and a body that would ask for the same. -/
structure Asked (r : Request) (route : Route) (body : Bytes) : Prop where
  method : r.method = .post
  leads : Request.route? r = some route
  length : Response.longestBody < r.body.length ↔ Response.longestBody < body.length
  heeded : (Json.read? r.body).map route.heeded = (Json.read? body).map route.heeded

def posted (w : World) (s : State) : Except Response Record → Result Response × State
  | .error response => (.ok response, s)
  | .ok x => (.ok (.json 201 (x.created w s.issued).toDatum),
      { s with store := s.store.insert (x.created w s.issued), issued := s.issued + 1 })

variable {g : Gateway} {r r' : Request} {route raw : Route} {body body' : Bytes}

theorem readBody_congr {α : Type} {read : Datum → Option α} {heeded : Datum → Datum}
    (hread : ∀ d, read (heeded d) = read d)
    (h : (Json.read? body).map heeded = (Json.read? body').map heeded) :
    readBody read body = readBody read body' := by
  have hb (b : Bytes) : Json.read? b >>= read = (Json.read? b).map heeded >>= read := by
    cases Json.read? b with
    | none => rfl
    | some d => exact (hread d).symm
  rw [readBody, readBody, hb, hb body', h]

theorem map_readBody {α β : Type} (read : Datum → Option α) (f : α → β) (body : Bytes) :
    (readBody read body).map f = readBody (fun d ↦ (read d).map f) body := by
  have hb : (Json.read? body >>= fun d ↦ (read d).map f) = (Json.read? body >>= read).map f := by
    cases Json.read? body <;> rfl
  rw [readBody, readBody, hb]
  cases Json.read? body >>= read <;> rfl

theorem readBody_bind_congr {α β γ : Type} {read : Datum → Option α} {f : α → β}
    {heeded : Datum → Datum} {k : α → Program γ} (hk : ∀ a a', f a = f a' → k a = k a')
    (hread : ∀ d, (read (heeded d)).map f = (read d).map f)
    (h : (Json.read? body).map heeded = (Json.read? body').map heeded) :
    Program.ofResult (readBody read body) >>= k = Program.ofResult (readBody read body') >>= k := by
  have hf : (readBody read body).map f = (readBody read body').map f := by
    rw [map_readBody, map_readBody, readBody_congr hread h]
  cases hx : readBody read body with
  | error e =>
    cases hy : readBody read body' <;> rw [hx, hy] at hf
    · exact congrArg Program.fail (Except.error.inj hf)
    · cases hf
  | ok a =>
    cases hy : readBody read body' <;> rw [hx, hy] at hf
    · cases hf
    · exact hk _ _ (Except.ok.inj hf)

theorem create_eq_of_anonymous {t t' : ServiceType} (h : t.anonymous = t'.anonymous) (s : Settings) :
    ServiceTypes.create s t = ServiceTypes.create s t' := by
  have hc (t : ServiceType) : ServiceTypes.create s t = ServiceTypes.create s t.anonymous := rfl
  rw [hc, h, ← hc]

theorem createBinding_eq_of_anonymous {b b' : Binding} (h : b.anonymous = b'.anonymous) (name : String) :
    Bindings.create { b with name } = Bindings.create { b' with name } := by
  have hc (b : Binding) : Bindings.create { b with name } = Bindings.create { b.anonymous with name } :=
    rfl
  rw [hc, h, ← hc]

theorem readPatch_eq (body : Bytes) :
    AuthMethods.readPatch body = readBody AuthMethod.Patch.ofDatum? body := by
  rw [AuthMethods.readPatch, readBody]
  cases Json.read? body >>= AuthMethod.Patch.ofDatum? <;> rfl

theorem readPatch_congr
    (h : (Json.read? body).map (Datum.without ["uuid", "created_on", "type", "service_uuid"]) =
      (Json.read? body').map (Datum.without ["uuid", "created_on", "type", "service_uuid"])) :
    AuthMethods.readPatch body = AuthMethods.readPatch body' := by
  rw [readPatch_eq, readPatch_eq, readBody_congr AuthMethod.Patch.ofDatum?_without h]

theorem handle_post_congr (hm : .post ∈ route.methods)
    (h : (Json.read? body).map route.heeded = (Json.read? body').map route.heeded) (chain : List Bytes) :
    g.handle body chain route .post = g.handle body' chain route .post := by
  cases route with
  | serviceTypes =>
    exact readBody_bind_congr (fun t t' ht ↦ by rw [create_eq_of_anonymous ht])
      ServiceType.map_ofDatum?_masked h
  | binding name =>
    exact readBody_bind_congr (fun b b' hb ↦ by rw [createBinding_eq_of_anonymous hb])
      Binding.map_ofDatum?_masked h
  | newAuthMethod t =>
    have hd (v : ServiceType) :
        AuthMethods.create g.registry v body = AuthMethods.create g.registry v body' := by
      rw [AuthMethods.create, AuthMethods.create, AuthMethods.draft, AuthMethods.draft, readPatch_congr h]
    rw [handle, handle]
    simp only [hd]
  | _ => simp [Route.methods] at hm

/-- Requests to create the same are answered by the same program. -/
theorem Asked.respond_eq (h : Asked r route body) : g.respond r = g.respond { r with body } := by
  obtain ⟨raw, hp, hd⟩ := Request.route?_eq_some_iff.1 h.leads
  have hm : r.method.answeredAs = .post := by rw [h.method]; rfl
  have ha : g.respondAt r raw = g.respondAt { r with body } raw := by
    unfold respondAt
    dsimp only
    rw [hm, hd]
    split
    · rfl
    · split
      · rfl
      · next hr =>
        have hr : .post ∈ route.methods := by simpa [Route.methods_of_decoded hd] using hr
        simp only [h.length, handle_post_congr hr h.heeded r.chain]
  rw [respond, respond]
  simp only [hp, ha]

theorem respond_of_long (hr : Request.route? r = some route) (hm : r.method = .post)
    (hp : .post ∈ route.methods) (hk : HoldsKey g.settings.serviceToken r)
    (hl : Response.longestBody < r.body.length) (w : World) (s : State) :
    run w (g.respond r) s = (.ok .tooLong, s) := by
  obtain ⟨raw, hraw, hd⟩ := Request.route?_eq_some_iff.1 hr
  have hkey : ¬ (raw.isManagement = true ∧
      (!keyMatches (presentedKey r.target.query) g.settings.serviceToken) = true) := by
    simp [keyMatches_presentedKey_iff.2 hk]
  have ha : g.respondAt r raw = pure .tooLong := by
    rw [respondAt, if_neg hkey]
    simp [hm, Method.answeredAs, Route.methods_of_decoded hd, hp, hd, readsBody, hl]
  rw [run_respond (by simp [hm]) hraw, ha, reported, if_neg (by simp [hm])]
  rfl

def Creates (p : Program Response) (s : Store) : Prop :=
  ∃ x, ∀ w t, t.store = s → (.ok (told (run w p t).1), (run w p t).2) = posted w t x

variable {s : Store}

theorem Creates.bind {α : Type} {p : Program α} {f : Store → Result α} {k : α → Program Response}
    (hp : p.Inspects f) (hk : ∀ a, f s = .ok a → Creates (k a) s) : Creates (p >>= k) s := by
  cases hf : f s with
  | ok a =>
    obtain ⟨x, hx⟩ := hk a hf
    refine ⟨x, fun w t ht ↦ ?_⟩
    rw [hp.run_bind, ht, hf]
    exact hx w t ht
  | error e =>
    refine ⟨.error (.ofError e), fun w t ht ↦ ?_⟩
    rw [hp.run_bind, ht, hf]
    rfl

theorem creates_serviceType (settings : Settings) (v : ServiceType) (s : Store) :
    Creates (ServiceTypes.create settings v >>= fun v ↦ pure (.json 201 v.toDatum)) s := by
  refine ⟨((ServiceTypes.creatable settings s v).map fun _ ↦ .serviceType v).mapError .ofError, ?_⟩
  rintro w t rfl
  rw [run_bind, ServiceTypes.run_create]
  cases ServiceTypes.creatable settings t.store v <;> rfl

theorem creates_binding (b : Binding) (s : Store) :
    Creates (Bindings.create b >>= fun b ↦ pure (.json 201 b.toDatum)) s := by
  refine ⟨((Bindings.creatable s b).map fun _ ↦ .binding b).mapError .ofError, ?_⟩
  rintro w t rfl
  rw [run_bind, Bindings.run_create]
  cases Bindings.creatable t.store b <;> rfl

theorem creates_authMethod (registry : Registry) (v : ServiceType) (body : Bytes) (s : Store) :
    Creates (AuthMethods.create registry v body >>= fun a ↦ pure (.json 201 a.toDatum)) s := by
  refine ⟨((AuthMethods.creatable registry s v body).map fun a ↦ .authMethod a.toRecord).mapError .ofError,
    ?_⟩
  rintro w t rfl
  rw [run_bind, AuthMethods.run_create]
  cases AuthMethods.creatable registry t.store v body <;> rfl

theorem creates_handle (hm : .post ∈ route.methods) (body : Bytes) (chain : List Bytes) :
    Creates (g.handle body chain route .post) s := by
  cases route with
  | serviceTypes => exact .bind (.ofResult _) fun v _ ↦ creates_serviceType g.settings v s
  | binding name => exact .bind (.ofResult _) fun b _ ↦ creates_binding { b with name } s
  | newAuthMethod name =>
    exact .bind (ServiceTypes.findByName_inspects name) fun v _ ↦ creates_authMethod g.registry v body s
  | _ => simp [Route.methods] at hm

theorem exists_posted (g : Gateway) (hm : r.method = .post) (s : Store) :
    ∃ x, ∀ w t, t.store = s → run w (g.respond r) t = posted w t x := by
  rcases faultless_or_handles g r with ⟨x, -, -, hx⟩ | ⟨route, h⟩
  · refine ⟨.error (told x), fun w t _ ↦ ?_⟩
    rw [hx, reported, if_neg (by simp [hm])]
    rfl
  · have ha : r.method.answeredAs = .post := by rw [hm]; rfl
    have hr : .post ∈ route.methods := ha ▸ h.allowed
    obtain ⟨x, hx⟩ := creates_handle (g := g) (s := s) hr r.body r.chain
    refine ⟨x, fun w t ht ↦ ?_⟩
    rw [h.run_of_mem hm hr, hx w t ht]

/-- Whatever identity the bodies give to the record, it is the same record that is created, or the same
response that says why not. -/
theorem Asked.exists_posted (h : Asked r route body) (g : Gateway) (s : Store) :
    ∃ x, ∀ q ∈ [r, { r with body }], ∀ w t, t.store = s → run w (g.respond q) t = posted w t x := by
  obtain ⟨x, hx⟩ := Gateway.exists_posted g h.method s
  refine ⟨x, fun q hq w t ht ↦ ?_⟩
  simp only [List.mem_cons, List.not_mem_nil, or_false] at hq
  rcases hq with rfl | rfl
  · exact hx w t ht
  · exact h.respond_eq ▸ hx w t ht

end Gateway

end CertGate
