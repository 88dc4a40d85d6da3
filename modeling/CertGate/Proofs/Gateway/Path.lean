import CertGate.Proofs.Gateway.Respond
import CertGate.Proofs.Text.Percent

namespace CertGate.Gateway

open Http (Method Request Response)
open Program

namespace Route

def parts : Route → List String
  | health => ["health"]
  | authMethods => ["v1", "authm"]
  | bindings => ["v1", "bindings"]
  | binding name => ["v1", "bindings", name]
  | serviceTypes => ["v1", "service-types"]
  | serviceType name => ["v1", "service-types", name]
  | newAuthMethod t => ["v1", "service-types", t, "authm"]
  | authentication t h => ["v1", "service-types", t, "hosts", h]
  | authMethod t h => ["v1", "service-types", t, "hosts", h, "authm"]
  | hostBindings t h => ["v1", "service-types", t, "hosts", h, "bindings"]
  | hostBinding t h id => ["v1", "service-types", t, "hosts", h, "bindings", id]

def path (route : Route) : String := String.ofList (route.parts.flatMap fun p ↦ '/' :: p.toList)

def endsEmpty : Route → Bool
  | authentication _ h => h = ""
  | serviceType name | binding name => name = ""
  | hostBinding _ _ id => id = ""
  | _ => false

variable {raw route : Route}

theorem splitSlashes_of_notMem {part : List Char} (h : '/' ∉ part) : splitSlashes part = [part] := by
  induction part with
  | nil => rfl
  | cons c cs ih =>
    rw [List.mem_cons, not_or] at h
    rw [splitSlashes, if_neg (Ne.symm h.1), ih h.2]

theorem splitSlashes_append {part : List Char} (h : '/' ∉ part) (rest : List Char) :
    splitSlashes (part ++ '/' :: rest) = part :: splitSlashes rest := by
  induction part with
  | nil => rfl
  | cons c cs ih =>
    rw [List.mem_cons, not_or] at h
    rw [List.cons_append, splitSlashes, if_neg (Ne.symm h.1), ih h.2]

theorem splitSlashes_flatMap {part : List Char} {parts : List (List Char)} (h : '/' ∉ part)
    (hs : ∀ p ∈ parts, '/' ∉ p) : splitSlashes (part ++ parts.flatMap ('/' :: ·)) = part :: parts := by
  induction parts generalizing part with
  | nil => rw [List.flatMap_nil, List.append_nil, splitSlashes_of_notMem h]
  | cons p ps ih =>
    obtain ⟨hp, hps⟩ := List.forall_mem_cons.1 hs
    rw [List.flatMap_cons, List.cons_append, splitSlashes_append h, ih hp hps]

theorem ofParts_parts (route : Route) :
    ofParts route.parts = if route.endsEmpty then none else some route := by
  cases route <;> simp [parts, ofParts, endsEmpty]

theorem ofPath_path (h : ∀ p ∈ route.parts, '/' ∉ p.toList) :
    ofPath route.path = if route.endsEmpty then none else some route := by
  have hs : ∀ p ∈ route.parts.map String.toList, '/' ∉ p :=
    List.forall_mem_map.2 h
  have hsplit : splitSlashes route.path.toList = [] :: route.parts.map String.toList := by
    have hflat := splitSlashes_flatMap (List.not_mem_nil : '/' ∉ []) hs
    rw [List.nil_append, List.flatMap_map] at hflat
    rwa [path, String.toList_ofList]
  have hparts : (route.parts.map String.toList).map String.ofList = route.parts := by simp
  rw [ofPath, hsplit]
  dsimp only
  rw [hparts, ofParts_parts]

inductive Spells : (raw route : Route) → Prop
  | health : Spells health health
  | authMethods : Spells authMethods authMethods
  | bindings : Spells bindings bindings
  | serviceTypes : Spells serviceTypes serviceTypes
  | binding {p name : String} (hn : Percent.Writes p name) : Spells (binding p) (binding name)
  | serviceType {p name : String} (hn : Percent.Writes p name) :
      Spells (serviceType p) (serviceType name)
  | newAuthMethod {p t : String} (ht : Percent.Writes p t) :
      Spells (newAuthMethod p) (newAuthMethod t)
  | authentication {p q t h : String} (ht : Percent.Writes p t) (hh : Percent.Writes q h) :
      Spells (authentication p q) (authentication t h)
  | authMethod {p q t h : String} (ht : Percent.Writes p t) (hh : Percent.Writes q h) :
      Spells (authMethod p q) (authMethod t h)
  | hostBindings {p q t h : String} (ht : Percent.Writes p t) (hh : Percent.Writes q h) :
      Spells (hostBindings p q) (hostBindings t h)
  | hostBinding {p q x t h id : String} (ht : Percent.Writes p t) (hh : Percent.Writes q h)
      (hi : Percent.Writes x id) : Spells (hostBinding p q x) (hostBinding t h id)

/-- The path leads to the route, with its names percent-encoded. -/
def SpelledBy (route : Route) (path : String) : Prop := ∃ raw : Route, raw.Spells route ∧ path = raw.path

theorem decodePart_of_writes {part name : String} (h : Percent.Writes part name) (what : String) :
    decodePart what part = .ok name := by
  rw [decodePart, h.decode_eq, Utf8.decode?_encode]
  rfl

namespace Spells

theorem slash_notMem (h : raw.Spells route) : ∀ p ∈ raw.parts, '/' ∉ p.toList := by
  cases h with
  | health | authMethods | bindings | serviceTypes => simp [parts]
  | binding hn | serviceType hn | newAuthMethod hn => simp [parts, hn.slash_notMem]
  | authentication ht hh | authMethod ht hh | hostBindings ht hh =>
    simp [parts, ht.slash_notMem, hh.slash_notMem]
  | hostBinding ht hh hi => simp [parts, ht.slash_notMem, hh.slash_notMem, hi.slash_notMem]

theorem decoded (h : raw.Spells route) : raw.decoded = .ok route := by
  cases h with
  | health | authMethods | bindings | serviceTypes => rfl
  | binding hn | serviceType hn | newAuthMethod hn =>
    simp only [Route.decoded, decoded.serviceTypePart, decodePart_of_writes hn]
    rfl
  | authentication ht hh | authMethod ht hh | hostBindings ht hh =>
    simp only [Route.decoded, decoded.serviceTypePart, decoded.hostPart, decodePart_of_writes ht,
      decodePart_of_writes hh]
    rfl
  | hostBinding ht hh hi =>
    simp only [Route.decoded, decoded.serviceTypePart, decoded.hostPart, decodePart_of_writes ht,
      decodePart_of_writes hh, decodePart_of_writes hi]
    rfl

theorem endsEmpty_eq (h : raw.Spells route) : raw.endsEmpty = route.endsEmpty := by
  cases h with
  | binding hn | serviceType hn => simp [endsEmpty, hn.eq_empty_iff]
  | authentication ht hh => simp [endsEmpty, hh.eq_empty_iff]
  | hostBinding ht hh hi => simp [endsEmpty, hi.eq_empty_iff]
  | _ => rfl

end Spells

def encoded : Route → Route
  | binding name => binding (Percent.written name)
  | serviceType name => serviceType (Percent.written name)
  | newAuthMethod t => newAuthMethod (Percent.written t)
  | authentication t h => authentication (Percent.written t) (Percent.written h)
  | authMethod t h => authMethod (Percent.written t) (Percent.written h)
  | hostBindings t h => hostBindings (Percent.written t) (Percent.written h)
  | hostBinding t h id => hostBinding (Percent.written t) (Percent.written h) (Percent.written id)
  | r => r

theorem spells_encoded (route : Route) : route.encoded.Spells route := by
  cases route with
  | health => exact .health
  | authMethods => exact .authMethods
  | bindings => exact .bindings
  | serviceTypes => exact .serviceTypes
  | binding => exact .binding (Percent.writes_written _)
  | serviceType => exact .serviceType (Percent.writes_written _)
  | newAuthMethod => exact .newAuthMethod (Percent.writes_written _)
  | authentication => exact .authentication (Percent.writes_written _) (Percent.writes_written _)
  | authMethod => exact .authMethod (Percent.writes_written _) (Percent.writes_written _)
  | hostBindings => exact .hostBindings (Percent.writes_written _) (Percent.writes_written _)
  | hostBinding =>
    exact .hostBinding (Percent.writes_written _) (Percent.writes_written _) (Percent.writes_written _)

theorem spelledBy_encoded (route : Route) : route.SpelledBy route.encoded.path :=
  ⟨route.encoded, spells_encoded route, rfl⟩

variable {path : String}

theorem SpelledBy.exists_ofPath (h : route.SpelledBy path) (he : route.endsEmpty = false) :
    ∃ raw, ofPath path = some raw ∧ raw.decoded = .ok route := by
  obtain ⟨raw, hs, rfl⟩ := h
  refine ⟨raw, ?_, hs.decoded⟩
  rw [ofPath_path hs.slash_notMem, hs.endsEmpty_eq, he, if_neg Bool.false_ne_true]

theorem SpelledBy.ofPath_eq_none (h : route.SpelledBy path) (he : route.endsEmpty = true) :
    ofPath path = none := by
  obtain ⟨raw, hs, rfl⟩ := h
  rw [ofPath_path hs.slash_notMem, hs.endsEmpty_eq, he, if_pos rfl]

end Route

/-- Someone who holds the key asks for something at a route. -/
structure Manages (g : Gateway) (r : Request) (method : Method) (route : Route) : Prop where
  holds : HoldsKey g.settings.serviceToken r
  method : r.method = method
  leads : Request.route? r = some route
  short : r.body.length ≤ Response.longestBody

structure Asks (g : Gateway) (r : Request) (route : Route) : Prop where
  holds : HoldsKey g.settings.serviceToken r
  method : r.method = .get
  path : route.SpelledBy r.target.path

variable {g : Gateway} {r : Request} {route : Route} {method : Method}

theorem Handles.run_of_mem (h : g.Handles r route) (hr : r.method = method) (hm : method ∈ route.methods)
    (w : World) (s : State) : run w (g.respond r) s =
      (.ok (told (run w (g.handle r.body r.chain route method) s).1),
        (run w (g.handle r.body r.chain route method) s).2) := by
  obtain ⟨ha, hh⟩ := answeredAs_of_mem_methods hm
  have hrun := h.run_eq w s
  rwa [hr, ha, reported, if_neg (hr ▸ hh)] at hrun

theorem Manages.run_eq (h : g.Manages r method route) (hm : method ∈ route.methods) (w : World)
    (s : State) : run w (g.respond r) s =
      (.ok (told (run w (g.handle r.body r.chain route method) s).1),
        (run w (g.handle r.body r.chain route method) s).2) := by
  have ha : r.method.answeredAs ∈ route.methods := by
    rw [h.method, (answeredAs_of_mem_methods hm).1]
    exact hm
  exact (handles_of_route h.leads (fun _ ↦ h.holds) ha fun _ ↦ h.short).run_of_mem h.method hm w s

theorem Asks.run_eq (h : g.Asks r route) (he : route.endsEmpty = false) (hm : .get ∈ route.methods)
    (w : World) (s : State) : run w (g.respond r) s =
      (.ok (told (run w (g.handle r.body r.chain route .get) s).1),
        (run w (g.handle r.body r.chain route .get) s).2) := by
  have hr : Request.route? r = some route := Request.route?_eq_some_iff.2 (h.path.exists_ofPath he)
  have ha : r.method.answeredAs = .get := by rw [h.method]; rfl
  have hb : readsBody r.method.answeredAs = false := by rw [ha]; rfl
  exact (handles_of_route hr (fun _ ↦ h.holds) (ha.symm ▸ hm) (by simp [hb])).run_of_mem h.method hm w s

theorem Asks.run_of_endsEmpty (h : g.Asks r route) (he : route.endsEmpty = true) (w : World)
    (s : State) : run w (g.respond r) s = (.ok .notFound, s) := by
  rw [respond, h.method, h.path.ofPath_eq_none he]
  rfl

def keyed (method : Method) (path body : String) : Request :=
  ⟨method, ⟨path, some "key=k"⟩, Utf8.encode body, []⟩

theorem holdsKey_keyed (method : Method) (path body : String) : HoldsKey "k" (keyed method path body) :=
  ⟨by decide, "key=k", rfl, by decide +kernel⟩

theorem manages_keyed {path body : String} (hr : Request.route? (keyed method path body) = some route)
    (hb : (Utf8.encode body).length ≤ Response.longestBody) :
    (ofSettings { serviceToken := "k" }).Manages (keyed method path body) method route :=
  ⟨holdsKey_keyed method path body, rfl, hr, hb⟩

end CertGate.Gateway
