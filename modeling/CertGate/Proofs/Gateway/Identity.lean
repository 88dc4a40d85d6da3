import CertGate.Proofs.Gateway.Posted
import CertGate.Proofs.Gateway.Written

namespace CertGate.Gateway

open Http (Method Request Response)
open Program

/-- Requests for which the uuids that are given out are new, each at its time. -/
def Fresh (g : Gateway) : State → List (World × Request) → Prop
  | _, [] => True
  | s, q :: requests =>
    s.store.Lacks (q.1.uuids s.issued) ∧ Fresh g (run q.1 (g.respond q.2) s).2 requests

def decidableFresh (g : Gateway) : ∀ s requests, Decidable (g.Fresh s requests)
  | _, [] => .isTrue trivial
  | s, q :: requests =>
    have := decidableFresh g (run q.1 (g.respond q.2) s).2 requests
    inferInstanceAs (Decidable (_ ∧ _))

instance (g : Gateway) (s : State) (requests : List (World × Request)) : Decidable (g.Fresh s requests) :=
  decidableFresh g s requests

/-- The client of a binding asks for its token, and gets it. -/
structure Admits (g : Gateway) (w : World) (s : State) (r : Request) (b : Binding) : Prop where
  known : ∃ serviceType host c t, Request.AsksFor r serviceType host ∧
    (g.attempt w s r serviceType host).Knows c t b
  status : (run w (g.respond r) s).1.map Response.status = .ok 200

structure Deletes (g : Gateway) (w : World) (s : State) (r : Request) (k : Collection × String) :
    Prop where
  method : r.method = .delete
  status : (run w (g.respond r) s).1.map Response.status = .ok 204
  gone : ∀ y ∈ (run w (g.respond r) s).2.store, y.key ≠ k

def Meets (g : Gateway) (s : State) (requests : List (World × Request))
    (P : World → State → Request → Prop) : Prop :=
  ∃ before q rest, requests = before ++ q :: rest ∧ P q.1 (g.after s before) q.2

variable {g : Gateway} {w : World} {s : State} {r : Request} {x : Record} {q : World × Request}
  {requests : List (World × Request)} {P : World → State → Request → Prop}

theorem Meets.head (h : P q.1 s q.2) : g.Meets s (q :: requests) P := ⟨[], q, requests, rfl, h⟩

theorem Meets.tail (h : g.Meets (run q.1 (g.respond q.2) s).2 requests P) :
    g.Meets s (q :: requests) P := by
  obtain ⟨before, p, rest, rfl, h⟩ := h
  exact ⟨q :: before, p, rest, rfl, h⟩

/-- A record that was not there before has been created, with the uuid and the time given out for it. -/
theorem created_of_new (hx : x ∈ (run w (g.respond r) s).2.store) (hn : ∀ y ∈ s.store, y.key ≠ x.key) :
    r.method = .post ∧ (run w (g.respond r) s).1 = .ok (.json 201 x.toDatum) ∧
      x.uuid = w.uuids s.issued ∧ x.createdOn = w.now.text ∧ x.lastAuth = "" := by
  obtain ⟨response, ⟨t, n, sent⟩, ht, h⟩ := respond_outcome g w s r
  rw [ht] at hx ⊢
  change x ∈ t at hx
  change g.Outcome w s r response t at h
  cases h with
  | unchanged h => exact absurd rfl (hn x hx)
  | changed hr h =>
    obtain ⟨hm, rfl, hu, hc, hl⟩ := h.written.of_new hx hn
    exact ⟨hm, by rw [if_neg (by simp [hm])], hu, hc, hl⟩
  | @noted _ _ _ _ b hm ha hk token =>
    rcases Store.mem_insertBinding.1 hx with rfl | ⟨hx, -⟩
    · exact absurd (Record.key_eq_of_fixed_eq (Record.fixed_stamped b _)).symm (hn _ hk.only.1)
    · exact absurd rfl (hn x hx)

theorem kept_or_deleted (hn : s.store.Lacks (w.uuids s.issued)) (hx : x ∈ s.store) :
    (∃ y ∈ (run w (g.respond r) s).2.store, y.fixed = x.fixed ∧ (y.lastAuth = x.lastAuth ∨
      ∃ b : Binding, x = .binding b ∧ g.Admits w s r b ∧ y.lastAuth = w.now.text)) ∨
      g.Deletes w s r x.key := by
  obtain ⟨response, ⟨t, n, sent⟩, ht, h⟩ := respond_outcome g w s r
  have hstatus : (run w (g.respond r) s).1.map Response.status = .ok response.status := by
    rw [ht]
    split <;> rfl
  change g.Outcome w s r response t at h
  suffices (∃ y ∈ t, y.fixed = x.fixed ∧ (y.lastAuth = x.lastAuth ∨
      ∃ b : Binding, x = .binding b ∧ g.Admits w s r b ∧ y.lastAuth = w.now.text)) ∨
      r.method = .delete ∧ response.status = 204 ∧ ∀ y ∈ t, y.key ≠ x.key by
    refine this.imp (fun h ↦ ht ▸ h) ?_
    rintro ⟨hm, hr, hgone⟩
    exact ⟨hm, hr ▸ hstatus, ht ▸ hgone⟩
  cases h with
  | unchanged h => exact .inl ⟨x, hx, rfl, .inl rfl⟩
  | changed hr h =>
    rcases h.written.kept_or_removed hx hn with ⟨y, hy, hf, hl⟩ | ⟨hm, rfl, hgone⟩
    · exact .inl ⟨y, hy, hf, .inl hl⟩
    · exact .inr ⟨hm, rfl, hgone⟩
  | @noted _ _ _ _ b hm ha hk token =>
    by_cases hb : x = .binding b
    · subst hb
      have hadmits : g.Admits w s r b := ⟨⟨_, _, _, _, ha, hk⟩, hstatus⟩
      exact .inl ⟨_, Store.mem_insertBinding.2 (.inl rfl), Record.fixed_stamped b _,
        .inr ⟨b, rfl, hadmits, rfl⟩⟩
    · have hxb : x.key ≠ (Record.binding b).key := (Store.key_ne_iff hx hk.only.1).2 hb
      exact .inl ⟨x, Store.mem_insertBinding.2 (.inr ⟨hx, hxb⟩), rfl, .inl rfl⟩

/-- The induction is on the requests: after the first of them the record is there with other contents,
and it is these contents that the rest of the requests keep. -/
theorem kept_or_deleted_after (hf : g.Fresh s requests) (hx : x ∈ s.store) :
    (∃ y ∈ (g.after s requests).store, y.fixed = x.fixed ∧ (y.lastAuth = x.lastAuth ∨
      g.Meets s requests fun w t r ↦ ∃ b : Binding, (Record.binding b).key = x.key ∧
        g.Admits w t r b ∧ y.lastAuth = w.now.text)) ∨
      g.Meets s requests fun w t r ↦ (∃ y ∈ t.store, y.fixed = x.fixed) ∧ g.Deletes w t r x.key := by
  induction requests generalizing s x with
  | nil => exact .inl ⟨x, hx, rfl, .inl rfl⟩
  | cons q requests ih =>
    obtain ⟨hn, hf⟩ := hf
    -- What the first request leaves of the record is what the others keep.
    rcases kept_or_deleted (r := q.2) hn hx with ⟨y, hy, hyx, hl⟩ | hd
    · have hk : y.key = x.key := Record.key_eq_of_fixed_eq hyx
      rcases ih hf hy with ⟨z, hz, hzy, hm⟩ | hm
      · refine .inl ⟨z, hz, hzy.trans hyx, ?_⟩
        rcases hm with hzl | hm
        · refine hl.imp hzl.trans ?_
          rintro ⟨b, rfl, ha, hb⟩
          exact .head ⟨b, rfl, ha, hzl.trans hb⟩
        · exact .inr (hk ▸ hm).tail
      · exact .inr (hyx ▸ hk ▸ hm).tail
    · exact .inr (.head ⟨⟨x, hx, rfl⟩, hd⟩)

/-- The identity of a record is given to it when it is created, whatever the caller says, and kept for
as long as the record is there. -/
theorem identity_given_and_kept (g : Gateway) :
    (∀ w s r x, x ∈ (run w (g.respond r) s).2.store → (∀ y ∈ s.store, y.key ≠ x.key) →
      r.method = .post ∧ (run w (g.respond r) s).1 = .ok (.json 201 x.toDatum) ∧
        x.uuid = w.uuids s.issued ∧ x.createdOn = w.now.text ∧ x.lastAuth = "") ∧
      (∀ s requests x, g.Fresh s requests → x ∈ s.store →
        (∃ y ∈ (g.after s requests).store, y.fixed = x.fixed ∧ (y.lastAuth = x.lastAuth ∨
          g.Meets s requests fun w t r ↦ ∃ b : Binding, (Record.binding b).key = x.key ∧
            g.Admits w t r b ∧ y.lastAuth = w.now.text)) ∨
          g.Meets s requests fun w t r ↦ (∃ y ∈ t.store, y.fixed = x.fixed) ∧ g.Deletes w t r x.key) ∧
      ∀ r route body s, Asked r route body → ∃ x : Except Response Record,
        ∀ q ∈ [r, { r with body }], ∀ w t, t.store = s → run w (g.respond q) t = posted w t x :=
  ⟨fun _ _ _ _ hx hn ↦ created_of_new hx hn, fun _ _ _ hf hx ↦ kept_or_deleted_after hf hx,
    fun _ _ _ s h ↦ h.exists_posted g s⟩

theorem identity_given_and_kept_forged :
    ∃ (g : Gateway) (w : World) (s t : State) (said : String) (r q : Request) (body : Bytes) (x : Record),
      g = ofSettings { serviceToken := "k" } ∧
      said = "\x7b\"service_uuid\":\"s\",\"host\":\"h\",\"auth_identifier\":\"i\"," ++
        "\"unique_key\":\"k\",\"auth_type\":\"x509\"," ∧
      r = keyed .post "/v1/bindings/b" (said ++ "\"uuid\":\"u\",\"last_auth\":\"t\"\x7d") ∧
      body = Utf8.encode (said ++ "\"uuid\":\"v\",\"last_auth\":\"\"\x7d") ∧
      q = keyed .put "/v1/bindings/b" "\x7b\"name\":\"c\",\"uuid\":\"u\",\"last_auth\":\"t\"\x7d" ∧
      run w (g.respond r) s = (.ok (.json 201 x.toDatum), t) ∧
      run w (g.respond { r with body }) s = (.ok (.json 201 x.toDatum), t) ∧
      x.uuid = w.uuids 0 ∧ x.createdOn = w.now.text ∧ x.lastAuth = "" ∧ g.Fresh t [(w, q)] ∧
      (run w (g.respond q) t).1.map Response.status = .ok 200 ∧
      ∃ y ∈ (g.after t [(w, q)]).store, y.fixed = x.fixed := by
  let g := ofSettings { serviceToken := "k" }
  let w : World := ⟨fun _ ↦ none, ⟨0, 0⟩, fun n ↦ toString n⟩
  let v : ServiceType := {
    name := "a", hosts := ["h"], authTypes := ["x509"], authMethod := "api-key", uuid := "s", kind := "ams" }
  let s : State := ⟨⟨⟨[v], by decide⟩, ∅, ∅⟩, 0, []⟩
  let said := "\x7b\"service_uuid\":\"s\",\"host\":\"h\",\"auth_identifier\":\"i\"," ++
    "\"unique_key\":\"k\",\"auth_type\":\"x509\","
  let r := keyed .post "/v1/bindings/b" (said ++ "\"uuid\":\"u\",\"last_auth\":\"t\"\x7d")
  let body := Utf8.encode (said ++ "\"uuid\":\"v\",\"last_auth\":\"\"\x7d")
  let q := keyed .put "/v1/bindings/b" "\x7b\"name\":\"c\",\"uuid\":\"u\",\"last_auth\":\"t\"\x7d"
  have hasked : Asked r (.binding "b") body :=
    ⟨rfl, by decide +kernel, by decide +kernel, by decide +kernel⟩
  have hissued : (run w (g.respond r) s).2.issued = 1 := by decide +kernel
  have hfresh : g.Fresh (run w (g.respond r) s).2 [(w, q)] := by decide +kernel
  have hstatus : (run w (g.respond q) (run w (g.respond r) s).2).1.map Response.status = .ok 200 := by
    decide +kernel
  have hlacks : s.store.Lacks "0" := by decide
  obtain ⟨hnew, hkept, hposted⟩ := identity_given_and_kept g
  obtain ⟨x | x, hx⟩ := hposted r (.binding "b") body s.store hasked
  · rw [hx r (by simp) w s rfl] at hissued
    cases hissued
  have hr := hx r (by simp) w s rfl
  have hr' := hx { r with body } (by simp) w s rfl
  have hmem : x.created w 0 ∈ (posted w s (.ok x)).2.store := Store.mem_insert.2 (.inl rfl)
  obtain ⟨-, -, hu, hc, hl⟩ := hnew w s r (x.created w 0) (hr ▸ hmem) fun y hy ↦
    hlacks.key_ne (Record.uuid_created w 0 x) hy
  rw [hr] at hfresh hstatus
  refine ⟨g, w, s, (posted w s (.ok x)).2, said, r, q, body, x.created w 0, rfl, rfl, rfl, rfl, rfl, hr,
    hr', hu, hc, hl, hfresh, hstatus, ?_⟩
  rcases hkept _ [(w, q)] _ hfresh hmem with ⟨y, hy, hf, -⟩ | ⟨before, p, rest, he, -, hd⟩
  · exact ⟨y, hy, hf⟩
  · have hp : p ∈ [(w, q)] := he ▸ by simp
    obtain rfl := List.mem_singleton.1 hp
    cases hd.method

/-- A text that is not Unicode is heeded wherever it stands, and so is the length of a body. -/
theorem identity_heeded_if_illegible_or_long :
    ∃ (g : Gateway) (w : World) (said : String) (fields : List (String × Datum)),
      g = ofSettings { serviceToken := "k" } ∧
      said = "\x7b\"name\":\"a\",\"hosts\":[\"h\"],\"auth_types\":[\"x509\"]," ++
        "\"auth_method\":\"api-key\",\"type\":\"ams\",\"uuid\":\"" ∧
      Json.read? (Utf8.encode (said ++ "a\"\x7d")) = some (.record (fields ++ [("uuid", .text "a")])) ∧
      Json.read? (Utf8.encode (said ++ "\\ud800\"\x7d")) =
        some (.record (fields ++ [("uuid", .illegible)])) ∧
      (run w (g.respond (keyed .post "/v1/service-types" (said ++ "a\"\x7d"))) ⟨{}, 0, []⟩).1.map
        Response.status = .ok 201 ∧
      (run w (g.respond (keyed .post "/v1/service-types" (said ++ "\\ud800\"\x7d"))) ⟨{}, 0, []⟩).1.map
        Response.status = .ok 400 ∧
      ∀ body, Response.longestBody < (Utf8.encode body).length →
        (run w (g.respond (keyed .post "/v1/service-types" body)) ⟨{}, 0, []⟩).1.map Response.status =
          .ok 413 := by
  let fields : List (String × Datum) := [("name", .text "a"), ("hosts", .list [.text "h"]),
    ("auth_types", .list [.text "x509"]), ("auth_method", .text "api-key"), ("type", .text "ams")]
  let w : World := ⟨fun _ ↦ none, ⟨0, 0⟩, fun n ↦ toString n⟩
  have hroute (body : String) :
      Request.route? (keyed .post "/v1/service-types" body) = some .serviceTypes := by
    change Request.route? (keyed .post "/v1/service-types" "") = _
    decide +kernel
  refine ⟨_, w, _, fields, rfl, rfl, by decide +kernel, by decide +kernel, by decide +kernel, by decide +kernel,
    fun body hl ↦ ?_⟩
  rw [respond_of_long (hroute body) rfl (by decide) (holdsKey_keyed .post _ body) hl]
  rfl

end CertGate.Gateway
