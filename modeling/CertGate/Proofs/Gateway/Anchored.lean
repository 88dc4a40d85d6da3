import CertGate.Proofs.Gateway.Orphans

namespace CertGate

theorem Binding.checkAgainst_eq_ok_iff {b : Binding} {t : ServiceType} {u : Unit} :
    b.checkAgainst t = .ok u ↔ b.host ∈ t.hosts ∧ b.authType ∈ t.authTypes := by
  by_cases h : b.host ∈ t.hosts <;>
    simp [checkAgainst, ServiceType.hasHost, h, ServiceType.supportsAuthType_eq_ok_iff]

namespace Store

/-- Each binding and each auth method belongs to a service type, and can be read. -/
structure Anchored (registry : Registry) (s : Store) : Prop where
  filled : ∀ b ∈ s.bindings.toList, b.checkFilled = .ok ()
  readable : ∀ r ∈ s.authMethods.toList,
    registry.isRegistered r.kind = true ∧ ∃ a, AuthMethod.ofRecord r = .ok a
  bindings : ∀ b ∈ s.bindings.toList, ∃ t ∈ s.serviceTypes.toList, t.uuid = b.serviceUuid
  authMethods : ∀ r ∈ s.authMethods.toList, ∃ t ∈ s.serviceTypes.toList, t.uuid = r.serviceUuid

/-- What is stored under the uuid of a service type could be stored under it as it is here. -/
structure Suits (s : Store) (t : ServiceType) : Prop where
  bindings : ∀ b ∈ s.bindings.toList, b.serviceUuid = t.uuid →
    b.host ∈ t.hosts ∧ b.authType ∈ t.authTypes
  authMethods : ∀ r ∈ s.authMethods.toList, r.serviceUuid = t.uuid →
    r.host ∈ t.hosts ∧ r.kind = t.authMethod

instance (s : Store) (t : ServiceType) : Decidable (s.Suits t) :=
  decidable_of_iff (_ ∧ _) ⟨fun h ↦ ⟨h.1, h.2⟩, fun h ↦ ⟨h.1, h.2⟩⟩

variable {registry : Registry} {s : Store} {t : ServiceType}

theorem Anchored.empty : ({} : Store).Anchored registry where
  filled _ h := absurd h List.not_mem_nil
  readable _ h := absurd h List.not_mem_nil
  bindings _ h := absurd h List.not_mem_nil
  authMethods _ h := absurd h List.not_mem_nil

theorem Suits.insertBinding {b : Binding} (h : s.Suits t)
    (hb : b.serviceUuid = t.uuid → b.host ∈ t.hosts ∧ b.authType ∈ t.authTypes) :
    (s.insertBinding b).Suits t :=
  { h with bindings := Keyed.forall_mem_insert hb h.bindings }

theorem Suits.insertAuthMethod {r : AuthMethodRecord} (h : s.Suits t)
    (hr : r.serviceUuid = t.uuid → r.host ∈ t.hosts ∧ r.kind = t.authMethod) :
    (s.insertAuthMethod r).Suits t :=
  { h with authMethods := Keyed.forall_mem_insert hr h.authMethods }

theorem suited_of_valid {b : Binding} (ht : t ∈ s.serviceTypes.toList) (hb : Bindings.Valid s b)
    (h : b.serviceUuid = t.uuid) : b.host ∈ t.hosts ∧ b.authType ∈ t.authTypes := by
  obtain ⟨-, u, hu, hub, hc⟩ := hb
  obtain rfl := Keyed.eq_of_key_eq hu ht (hub.trans h)
  exact Binding.checkAgainst_eq_ok_iff.1 hc

theorem host_mem_of_valid {a : AuthMethod} (ht : t ∈ s.serviceTypes.toList)
    (ha : AuthMethods.Valid s a) (h : a.serviceUuid = t.uuid) : a.host ∈ t.hosts := by
  obtain ⟨-, u, hu, hua, hc⟩ := ha
  obtain rfl := Keyed.eq_of_key_eq hu ht (hua.trans h)
  exact AuthMethod.host_mem_of_checkAgainst hc

end Store

namespace Gateway

open Http Program

variable {g : Gateway} {w : World} {n : Nat} {s t : Store} {response : Response}

theorem tag_of_merge {r : AuthMethodRecord} {current a : AuthMethod} {body : Bytes}
    (hc : AuthMethod.ofRecord r = .ok current) (hm : AuthMethods.merge current body = .ok a) :
    a.tag = r.kind := by
  obtain ⟨v, hv, rfl⟩ := AuthMethods.ofRecord_eq_ok_iff.1 hc
  obtain ⟨p, -, rfl⟩ := AuthMethods.merge_eq_ok_iff.1 hm
  exact (v.tag_apply p).trans (AuthMethod.tag_of_variantOf? hv)

theorem serviceUuid_of_merge {r : AuthMethodRecord} {current a : AuthMethod} {body : Bytes}
    (hc : AuthMethod.ofRecord r = .ok current) (hm : AuthMethods.merge current body = .ok a) :
    a.serviceUuid = r.serviceUuid := by
  obtain ⟨v, -, rfl⟩ := AuthMethods.ofRecord_eq_ok_iff.1 hc
  obtain ⟨p, -, rfl⟩ := AuthMethods.merge_eq_ok_iff.1 hm
  rfl

theorem uuid_of_merge {r : AuthMethodRecord} {current a : AuthMethod} {body : Bytes}
    (hc : AuthMethod.ofRecord r = .ok current) (hm : AuthMethods.merge current body = .ok a) :
    a.uuid = r.uuid := by
  obtain ⟨v, -, rfl⟩ := AuthMethods.ofRecord_eq_ok_iff.1 hc
  obtain ⟨p, -, rfl⟩ := AuthMethods.merge_eq_ok_iff.1 hm
  rfl

theorem Effect.filled (h : Effect g w n s response t)
    (hs : ∀ b ∈ s.bindings.toList, b.checkFilled = .ok ()) :
    ∀ b ∈ t.bindings.toList, b.checkFilled = .ok () := by
  cases h with
  | deleteServiceType | deleteBinding => exact Keyed.forall_mem_filter hs _
  | createBinding h =>
    obtain ⟨⟨hf, -⟩, -⟩ := Bindings.creatable_eq_ok_iff.1 h
    exact Keyed.forall_mem_insert hf hs
  | updateBinding hb h =>
    obtain ⟨⟨hf, -⟩, -⟩ := Bindings.changeable_eq_ok_iff.1 h
    exact Keyed.forall_mem_insert hf hs
  | @stamp b hb token =>
    have hf : b.checkFilled = .ok () := hs b hb
    generalize w.now.text = time
    exact Keyed.forall_mem_insert hf hs
  | _ => exact hs

theorem Effect.readable (h : Effect g w n s response t) (hg : g.registry.Tagged)
    (hs : ∀ r ∈ s.authMethods.toList,
      g.registry.isRegistered r.kind = true ∧ ∃ a, AuthMethod.ofRecord r = .ok a) :
    ∀ r ∈ t.authMethods.toList,
      g.registry.isRegistered r.kind = true ∧ ∃ a, AuthMethod.ofRecord r = .ok a := by
  cases h with
  | deleteServiceType | deleteAuthMethod => exact Keyed.forall_mem_filter hs _
  | @createAuthMethod u body a hu h =>
    obtain ⟨hd, -, -⟩ := AuthMethods.creatable_eq_ok_iff.1 h
    obtain ⟨hr, -, htag, -⟩ := AuthMethods.of_draft hg hd
    have hreg : g.registry.isRegistered (AuthMethods.created w n a).tag = true := htag.symm ▸ hr
    exact Keyed.forall_mem_insert ⟨hreg, _, AuthMethod.ofRecord_toRecord _⟩ hs
  | @updateAuthMethod r current a body hr hc hm h =>
    have hreg : g.registry.isRegistered a.tag = true := tag_of_merge hc hm ▸ (hs r hr).1
    exact Keyed.forall_mem_insert ⟨hreg, _, AuthMethod.ofRecord_toRecord a⟩ hs
  | _ => exact hs

theorem Effect.anchored (h : Effect g w n s response t) (hg : g.registry.Tagged)
    (hs : s.Anchored g.registry) : t.Anchored g.registry := by
  have ho : t.OrphanFree := h.orphanFree (Store.orphanFree_iff.2 ⟨hs.bindings, hs.authMethods⟩)
  obtain ⟨hb, hm⟩ := Store.orphanFree_iff.1 ho
  exact ⟨h.filled hs.filled, h.readable hg hs.readable, hb, hm⟩

theorem Effect.suits (h : Effect g w n s response t) (hg : g.registry.Tagged) {v : ServiceType}
    (hv : v ∈ t.serviceTypes.toList) (hs : s.Suits v) : t.Suits v := by
  cases h with
  | none => exact hs
  | createServiceType h => exact ⟨hs.bindings, hs.authMethods⟩
  | updateServiceType ht h => exact ⟨hs.bindings, hs.authMethods⟩
  | deleteServiceType ht =>
    exact ⟨Keyed.forall_mem_filter hs.bindings _, Keyed.forall_mem_filter hs.authMethods _⟩
  | createBinding h =>
    obtain ⟨hb, -⟩ := Bindings.creatable_eq_ok_iff.1 h
    exact hs.insertBinding (Store.suited_of_valid hv hb)
  | updateBinding hb h =>
    obtain ⟨hb, -⟩ := Bindings.changeable_eq_ok_iff.1 h
    exact hs.insertBinding (Store.suited_of_valid hv hb)
  | deleteBinding hb => exact { hs with bindings := Keyed.forall_mem_filter hs.bindings _ }
  | @createAuthMethod u body a hu h =>
    obtain ⟨hd, ha, -⟩ := AuthMethods.creatable_eq_ok_iff.1 h
    obtain ⟨-, hau, htag, -⟩ := AuthMethods.of_draft hg hd
    refine hs.insertAuthMethod fun h ↦ ⟨Store.host_mem_of_valid hv ha h, ?_⟩
    obtain rfl := Keyed.eq_of_key_eq hu hv (hau.symm.trans h)
    exact htag
  | @updateAuthMethod r current a body hr hc hm h =>
    obtain ⟨ha, -⟩ := AuthMethods.changeable_eq_ok_iff.1 h
    refine hs.insertAuthMethod fun h ↦ ⟨Store.host_mem_of_valid hv ha h, ?_⟩
    have hrv : r.serviceUuid = v.uuid := (serviceUuid_of_merge hc hm).symm.trans h
    exact (tag_of_merge hc hm).trans (hs.authMethods r hr hrv).2
  | deleteAuthMethod hr => exact { hs with authMethods := Keyed.forall_mem_filter hs.authMethods _ }
  | @stamp b hb token =>
    have hf : b.serviceUuid = v.uuid → b.host ∈ v.hosts ∧ b.authType ∈ v.authTypes := hs.bindings b hb
    generalize w.now.text = time
    exact hs.insertBinding hf

end Gateway

end CertGate
