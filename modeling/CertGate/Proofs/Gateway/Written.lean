import CertGate.Proofs.Gateway.Anchored

namespace CertGate

def Record.At (s : Store) : Gateway.Route → Record → Prop
  | .serviceType name, .serviceType t => t.name = name
  | .binding name, .binding b => b.name = name
  | .authMethod name host, .authMethod r =>
    r.host = host ∧ ∃ t ∈ s.serviceTypes.toList, t.name = name ∧ t.uuid = r.serviceUuid
  | _, _ => False

namespace Gateway

open Http (Method Request Response)
open Program

/-- What comes of a change to the records of a store, with what is known of them by its method. -/
inductive Written (w : World) (n : Nat) (s : Store) : Route → Method → Response → Store → Prop
  | new {route : Route} {x : Record} (hu : x.uuid = w.uuids n) (hc : x.createdOn = w.now.text)
      (hl : x.lastAuth = "") : Written w n s route .post (.json 201 x.toDatum) (s.insert x)
  | replaced {route : Route} {x y : Record} (hy : y ∈ s) (ha : y.At s route) (hf : x.fixed = y.fixed)
      (hl : x.lastAuth = y.lastAuth) : Written w n s route .put (.json 200 x.toDatum) (s.insert x)
  | removed {route : Route} {x : Record} (hx : x ∈ s) (ha : x.At s route) :
      Written w n s route .delete .noContent (s.erase x.key)
  | cascade {route : Route} {t : ServiceType} (ht : t ∈ s.serviceTypes.toList)
      (ha : (Record.serviceType t).At s route) :
      Written w n s route .delete .noContent (ServiceTypes.deleted s t.uuid)

variable {g : Gateway} {w : World} {n : Nat} {s t : Store} {body : Bytes} {route : Route}
  {method : Method} {response : Response}

theorem fixed_of_merge {r : AuthMethodRecord} {current a : AuthMethod} {body : Bytes}
    (hc : AuthMethod.ofRecord r = .ok current) (hm : AuthMethods.merge current body = .ok a) :
    (Record.authMethod a.toRecord).fixed = (Record.authMethod r).fixed := by
  have hkind : a.toRecord.kind = r.kind := tag_of_merge hc hm
  obtain ⟨v, -, rfl⟩ := AuthMethods.ofRecord_eq_ok_iff.1 hc
  obtain ⟨p, -, rfl⟩ := AuthMethods.merge_eq_ok_iff.1 hm
  simp only [Record.fixed, hkind]
  rfl

theorem exists_at_of_authMethodOf {name host : String} {a : AuthMethod}
    (h : g.authMethodOf s name host = .ok a) :
    ∃ r ∈ s.authMethods.toList, AuthMethod.ofRecord r = .ok a ∧
      (Record.authMethod r).At s (.authMethod name host) := by
  obtain ⟨t, r, ⟨ht, hn, -⟩, -, -, ⟨hr, ⟨hu, hh, -⟩, -⟩, ha⟩ := authMethodOf_eq_ok_iff.1 h
  exact ⟨r, hr, ha, hh, t, ht, hn, hu.symm⟩

theorem Change.written (h : Change g w n s body route method response t) :
    Written w n s route method response t := by
  cases h with
  | @createServiceType t hb h => exact .new (x := .serviceType (ServiceTypes.created w n t)) rfl rfl rfl
  | @updateServiceType name t changes hb ht h =>
    obtain ⟨hm, hn, -⟩ := ServiceTypes.named_eq_ok_iff.1 ht
    exact .replaced (x := .serviceType (t.apply changes)) (y := .serviceType t) hm hn rfl rfl
  | deleteServiceType ht =>
    obtain ⟨hm, hn, -⟩ := ServiceTypes.named_eq_ok_iff.1 ht
    exact .cascade hm hn
  | @createBinding name b hb h =>
    exact .new (x := .binding (Bindings.created w n { b with name })) rfl rfl rfl
  | @updateBinding name b changes hc hb h =>
    obtain ⟨hm, hn, -⟩ := Bindings.named_eq_ok_iff.1 hb
    exact .replaced (x := .binding (b.apply changes)) (y := .binding b) hm hn rfl rfl
  | @deleteBinding name b hb =>
    obtain ⟨hm, hn, -⟩ := Bindings.named_eq_ok_iff.1 hb
    exact .removed (x := .binding b) hm hn
  | @createAuthMethod name t a ht h =>
    exact .new (x := .authMethod (AuthMethods.created w n a).toRecord) rfl rfl rfl
  | @updateAuthMethod name host current a hc hm h =>
    obtain ⟨r, hr, hrc, ha⟩ := exists_at_of_authMethodOf hc
    exact .replaced (x := .authMethod a.toRecord) (y := .authMethod r) hr ha (fixed_of_merge hrc hm) rfl
  | deleteAuthMethod ha =>
    obtain ⟨r, hr, hra, hat⟩ := exists_at_of_authMethodOf ha
    obtain ⟨v, -, rfl⟩ := AuthMethods.ofRecord_eq_ok_iff.1 hra
    exact .removed (x := .authMethod r) hr hat

theorem Written.of_post (h : Written w n s route .post response t)
    (hn : s.Lacks (w.uuids n)) :
    ∃ x : Record, response = .json 201 x.toDatum ∧ ∀ y, y ∈ t ↔ y = x ∨ y ∈ s := by
  cases h with
  | @new x hu hc hl =>
    refine ⟨x, rfl, fun y ↦ Store.mem_insert.trans (or_congr_right (and_iff_left_of_imp ?_))⟩
    exact fun hy ↦ hn.key_ne hu hy

theorem Written.of_put (h : Written w n s route .put response t) :
    ∃ x y : Record, y ∈ s ∧ y.At s route ∧ x.fixed = y.fixed ∧ response = .json 200 x.toDatum ∧
      ∀ z, z ∈ t ↔ z = x ∨ z ∈ s ∧ z ≠ y := by
  cases h with
  | @replaced x y hy ha hf hl =>
    have hk : x.key = y.key := Record.key_eq_of_fixed_eq hf
    refine ⟨x, y, hy, ha, hf, rfl, fun z ↦ Store.mem_insert.trans (or_congr_right ?_)⟩
    exact and_congr_right fun hz ↦ hk ▸ Store.key_ne_iff hz hy

theorem Written.of_delete (h : Written w n s route .delete response t) :
    ∃ x ∈ s, x.At s route ∧ (x.collection ≠ .serviceTypes → ∀ y, y ∈ t ↔ y ∈ s ∧ y ≠ x) := by
  cases h with
  | @removed x hx ha =>
    refine ⟨x, hx, ha, fun _ y ↦ Store.mem_erase.trans ?_⟩
    exact and_congr_right fun hy ↦ Store.key_ne_iff hy hx
  | @cascade v hv ha => exact ⟨.serviceType v, hv, ha, fun h ↦ absurd rfl h⟩

/-- A record that was not there before is new, and its uuid and its times are not the caller's. -/
theorem Written.of_new {x : Record} (h : Written w n s route method response t) (hx : x ∈ t)
    (hn : ∀ y ∈ s, y.key ≠ x.key) :
    method = .post ∧ response = .json 201 x.toDatum ∧ x.uuid = w.uuids n ∧
      x.createdOn = w.now.text ∧ x.lastAuth = "" := by
  cases h with
  | new hu hc hl =>
    rcases Store.mem_insert.1 hx with rfl | ⟨hx, -⟩
    · exact ⟨rfl, rfl, hu, hc, hl⟩
    · exact absurd rfl (hn x hx)
  | @replaced _ y hy ha hf hl =>
    rcases Store.mem_insert.1 hx with rfl | ⟨hx, -⟩
    · exact absurd (Record.key_eq_of_fixed_eq hf).symm (hn y hy)
    · exact absurd rfl (hn x hx)
  | removed hy ha => exact absurd rfl (hn x (Store.mem_erase.1 hx).1)
  | cascade hv ha => exact absurd rfl (hn x (Store.mem_deleted.1 hx).1)

theorem Written.kept_or_removed {x : Record} (h : Written w n s route method response t) (hx : x ∈ s)
    (hn : s.Lacks (w.uuids n)) :
    (∃ y ∈ t, y.fixed = x.fixed ∧ y.lastAuth = x.lastAuth) ∨
      method = .delete ∧ response = .noContent ∧ ∀ y ∈ t, y.key ≠ x.key := by
  cases h with
  | new hu hc hl =>
    exact .inl ⟨x, Store.mem_insert.2 (.inr ⟨hx, hn.key_ne hu hx⟩), rfl, rfl⟩
  | @replaced z y hy ha hf hl =>
    by_cases hxy : x = y
    · exact .inl ⟨z, Store.mem_insert.2 (.inl rfl), hxy ▸ hf, hxy ▸ hl⟩
    · have hk : x.key ≠ z.key := Record.key_eq_of_fixed_eq hf ▸ (Store.key_ne_iff hx hy).2 hxy
      exact .inl ⟨x, Store.mem_insert.2 (.inr ⟨hx, hk⟩), rfl, rfl⟩
  | @removed z hz ha =>
    by_cases hk : x.key = z.key
    · exact .inr ⟨rfl, rfl, fun y hy ↦ hk ▸ (Store.mem_erase.1 hy).2⟩
    · exact .inl ⟨x, Store.mem_erase.2 ⟨hx, hk⟩, rfl, rfl⟩
  | @cascade v hv ha =>
    by_cases ho : x.owner = v.uuid
    · refine .inr ⟨rfl, rfl, fun y hy hk ↦ ?_⟩
      obtain ⟨hys, hyo⟩ := Store.mem_deleted.1 hy
      exact hyo (Store.eq_of_key_eq hys hx hk ▸ ho)
    · exact .inl ⟨x, Store.mem_deleted.2 ⟨hx, ho⟩, rfl, rfl⟩

end Gateway

end CertGate
