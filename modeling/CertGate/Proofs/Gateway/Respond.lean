import CertGate.Gateway.Basic
import CertGate.Proofs.Authentication
import CertGate.Proofs.Gateway.Key

namespace CertGate.Gateway

open Http (Method Request Response)
open Program

namespace Route

def blank : Route → Route
  | authentication .. => authentication "" ""
  | serviceType _ => serviceType ""
  | newAuthMethod _ => newAuthMethod ""
  | authMethod .. => authMethod "" ""
  | hostBindings .. => hostBindings "" ""
  | hostBinding .. => hostBinding "" "" ""
  | binding _ => binding ""
  | r => r

variable {route decoded : Route} {method : Method}

theorem blank_of_bind {α : Type} {x : Except String α} {f : α → Except String Route} {r : Route}
    (hf : ∀ a, f a = .ok decoded → decoded.blank = r) (h : x >>= f = .ok decoded) : decoded.blank = r := by
  cases x with
  | ok a => exact hf a h
  | error e => cases h

theorem blank_of_pure {r r' : Route} (hr : r.blank = r')
    (h : (pure r : Except String Route) = .ok decoded) : decoded.blank = r' := by
  cases h
  exact hr

theorem blank_of_decoded (h : route.decoded = .ok decoded) : decoded.blank = route.blank := by
  cases route with
  | health => exact blank_of_pure rfl h
  | serviceTypes => exact blank_of_pure rfl h
  | authMethods => exact blank_of_pure rfl h
  | bindings => exact blank_of_pure rfl h
  | serviceType name => exact blank_of_bind (fun name ↦ blank_of_pure (by rfl)) h
  | newAuthMethod t => exact blank_of_bind (fun t ↦ blank_of_pure (by rfl)) h
  | binding name => exact blank_of_bind (fun name ↦ blank_of_pure (by rfl)) h
  | authentication t host =>
    exact blank_of_bind (fun t ↦ blank_of_bind fun host ↦ blank_of_pure (by rfl)) h
  | authMethod t host =>
    exact blank_of_bind (fun t ↦ blank_of_bind fun host ↦ blank_of_pure (by rfl)) h
  | hostBindings t host =>
    exact blank_of_bind (fun t ↦ blank_of_bind fun host ↦ blank_of_pure (by rfl)) h
  | hostBinding t host id =>
    refine blank_of_bind (fun t ↦ blank_of_bind fun host ↦ ?_) h
    exact blank_of_bind fun id ↦ blank_of_pure (by rfl)

theorem methods_blank (route : Route) : route.blank.methods = route.methods := by cases route <;> rfl

theorem isManagement_blank (route : Route) : route.blank.isManagement = route.isManagement := by
  cases route <;> rfl

theorem methods_of_decoded (h : route.decoded = .ok decoded) : route.methods = decoded.methods := by
  rw [← methods_blank, ← blank_of_decoded h, methods_blank]

theorem isManagement_of_decoded (h : route.decoded = .ok decoded) :
    route.isManagement = decoded.isManagement := by
  rw [← isManagement_blank, ← blank_of_decoded h, isManagement_blank]

end Route

/-- The place that the path leads to, with its parts decoded. -/
def Request.route? (r : Request) : Option Route :=
  Route.ofPath r.target.path >>= fun route ↦ route.decoded.toOption

def Request.AsksFor (r : Request) (serviceType host : String) : Prop :=
  ∃ last, Request.route? r = some (.authentication serviceType last) ∧
    dropSuffix? authenticationSuffix last = some host

def attempt (g : Gateway) (w : World) (s : State) (r : Request) (serviceType host : String) :
    Authentication.Attempt :=
  ⟨g.settings, g.registry, w, s, r.chain, serviceType, host⟩

def told : Result Response → Response
  | .ok response => response
  | .error e => .ofError e

def reported (r : Request) (x : Result Response) : Response :=
  if r.method = .head then (told x).withoutBody else told x

variable {g : Gateway} {w : World} {s : State} {r : Request} {route decoded : Route}

theorem Request.route?_eq_some_iff : Request.route? r = some decoded ↔
    ∃ route, Route.ofPath r.target.path = some route ∧ route.decoded = .ok decoded := by
  rw [Request.route?, Option.bind_eq_bind, Option.bind_eq_some_iff]
  refine exists_congr fun route ↦ and_congr_right fun _ ↦ ?_
  cases route.decoded <;> simp [Except.toOption]

theorem Request.AsksFor.unique {t t' host host' : String} (h : Request.AsksFor r t host)
    (h' : Request.AsksFor r t' host') : t = t' ∧ host = host' := by
  obtain ⟨last, hr, hs⟩ := h
  obtain ⟨last', hr', hs'⟩ := h'
  obtain ⟨rfl, rfl⟩ := Route.authentication.inj (Option.some_inj.1 (hr.symm.trans hr'))
  exact ⟨rfl, Option.some_inj.1 (hs.symm.trans hs')⟩

theorem run_respond (hm : r.method ≠ .options) (hr : Route.ofPath r.target.path = some route) :
    run w (g.respond r) s =
      (.ok (reported r (run w (g.respondAt r route) s).1), (run w (g.respondAt r route) s).2) := by
  rw [respond, if_neg hm, hr]
  dsimp only
  rw [run_bind, run_tryCatch]
  rcases run w (g.respondAt r route) s with ⟨_ | response, t⟩ <;> rfl

theorem respondAt_cases (g : Gateway) (r : Request) (route : Route) :
    (∃ x, (400 ≤ (told x).status ∧ (told x).status < 500) ∧ g.respondAt r route = ofResult x) ∨
      ∃ decoded, route.decoded = .ok decoded ∧
      (decoded.isManagement = true → HoldsKey g.settings.serviceToken r) ∧
      r.method.answeredAs ∈ decoded.methods ∧
      g.respondAt r route = g.handle r.body r.chain decoded r.method.answeredAs := by
  unfold respondAt
  dsimp only
  split
  · exact .inl ⟨.error (.unauthorized "Wrong Credentials"), (by decide : 400 ≤ 401 ∧ 401 < 500), rfl⟩
  · next hk =>
    split
    · exact .inl ⟨.ok .methodNotAllowed, (by decide : 400 ≤ 405 ∧ 405 < 500), rfl⟩
    · next hm =>
      split
      · exact .inl ⟨.ok (.illegible _), (by decide : 400 ≤ 400 ∧ 400 < 500), rfl⟩
      · next decoded hd =>
        split
        · exact .inl ⟨.ok .tooLong, (by decide : 400 ≤ 413 ∧ 413 < 500), rfl⟩
        · rw [Route.isManagement_of_decoded hd] at hk
          rw [Route.methods_of_decoded hd] at hm
          refine .inr ⟨decoded, hd, fun h ↦ keyMatches_presentedKey_iff.1 ?_, by simpa using hm, rfl⟩
          simpa [h] using hk

/-- The request comes to the handler of a route, and the response is what the handler comes to. -/
structure Handles (g : Gateway) (r : Request) (route : Route) : Prop where
  leads : Request.route? r = some route
  holds : route.isManagement = true → HoldsKey g.settings.serviceToken r
  allowed : r.method.answeredAs ∈ route.methods
  run_eq : ∀ w s, run w (g.respond r) s =
    (.ok (reported r (run w (g.handle r.body r.chain route r.method.answeredAs) s).1),
      (run w (g.handle r.body r.chain route r.method.answeredAs) s).2)

theorem ne_options_of_mem_methods {method : Method} (h : method.answeredAs ∈ route.methods) :
    method ≠ .options := by
  rintro rfl
  cases route <;> simp [Method.answeredAs, Route.methods] at h

theorem answeredAs_of_mem_methods {method : Method} (h : method ∈ route.methods) :
    method.answeredAs = method ∧ method ≠ .head := by
  cases route <;> simp only [Route.methods, List.mem_cons, List.not_mem_nil, or_false] at h <;>
    rcases h with rfl | rfl | rfl | rfl <;> simp [Method.answeredAs]

/-- A request comes to a handler, or to a result for which the store is not needed, and which is no
fault of the gateway. Only a request for the options then succeeds. -/
theorem faultless_or_handles (g : Gateway) (r : Request) :
    (∃ x, (told x).status < 500 ∧ (r.method = .options ∨ 400 ≤ (told x).status) ∧
      ∀ w s, run w (g.respond r) s = (.ok (reported r x), s)) ∨
      ∃ route, g.Handles r route := by
  by_cases hm : r.method = .options
  · refine .inl ⟨.ok { status := 200 }, (by decide : 200 < 500), .inl hm, fun w s ↦ ?_⟩
    rw [respond, if_pos hm, reported, hm]
    rfl
  · cases hp : Route.ofPath r.target.path with
    | none =>
      refine .inl ⟨.ok .notFound, (by decide : 404 < 500), .inr (by decide : 400 ≤ 404), fun w s ↦ ?_⟩
      have hn : reported r (.ok .notFound) = .notFound := ite_eq_right_iff.2 fun _ ↦ rfl
      rw [respond, if_neg hm, hp, hn]
      rfl
    | some raw =>
      rcases respondAt_cases g r raw with ⟨x, ⟨he, hs⟩, hx⟩ | ⟨route, hd, hk, hg, he⟩
      · exact .inl ⟨x, hs, .inr he, fun w s ↦ by rw [run_respond hm hp, hx, run_ofResult]⟩
      · exact .inr ⟨route, Request.route?_eq_some_iff.2 ⟨raw, hp, hd⟩, hk, hg,
          fun w s ↦ by rw [run_respond hm hp, he]⟩

theorem respond_cases (g : Gateway) (r : Request) :
    (∃ x, ∀ w s, run w (g.respond r) s = (.ok (reported r x), s)) ∨ ∃ route, g.Handles r route :=
  (g.faultless_or_handles r).imp_left fun ⟨x, _, _, hx⟩ ↦ ⟨x, hx⟩

theorem handles_of_route (hr : Request.route? r = some route)
    (hk : route.isManagement = true → HoldsKey g.settings.serviceToken r)
    (hm : r.method.answeredAs ∈ route.methods)
    (hb : readsBody r.method.answeredAs = true → r.body.length ≤ Response.longestBody) :
    g.Handles r route := by
  obtain ⟨raw, hp, hd⟩ := Request.route?_eq_some_iff.1 hr
  have hkey : ¬ (raw.isManagement = true ∧
      (!keyMatches (presentedKey r.target.query) g.settings.serviceToken) = true) := by
    rintro ⟨hr, hn⟩
    rw [Route.isManagement_of_decoded hd] at hr
    simp [keyMatches_presentedKey_iff.2 (hk hr)] at hn
  have hlong : ¬ (readsBody r.method.answeredAs = true ∧ Response.longestBody < r.body.length) :=
    fun ⟨hr, hl⟩ ↦ absurd (hb hr) (Nat.not_le_of_lt hl)
  have he : g.respondAt r raw = g.handle r.body r.chain route r.method.answeredAs := by
    rw [respondAt, if_neg hkey]
    simp [Route.methods_of_decoded hd, hm, hd, hlong]
  exact ⟨hr, hk, hm, fun w s ↦ by rw [run_respond (ne_options_of_mem_methods hm) hp, he]⟩

end CertGate.Gateway
