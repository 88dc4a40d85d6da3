import CertGate.Proofs.Gateway.Effect
import CertGate.Proofs.Store.Maps

namespace CertGate

def AuthMethodRecord.place (r : AuthMethodRecord) : String × String := (r.serviceUuid, r.host)

namespace Store

structure Unique (s : Store) : Prop where
  serviceTypeNames : s.serviceTypes.Separates ServiceType.name
  bindingNames : s.bindings.Separates Binding.name
  identities : s.bindings.Separates Binding.identity
  places : s.authMethods.Separates AuthMethodRecord.place

theorem Unique.empty : ({} : Store).Unique := ⟨.empty, .empty, .empty, .empty⟩

end Store

namespace Gateway

open Http Program

variable {g : Gateway} {w : World} {n : Nat} {s t : Store} {response : Response}

/-- One change, of any kind, keeps the records apart. -/
theorem Effect.unique (h : Effect g w n s response t) (hs : s.Unique) : t.Unique := by
  cases h with
  | none => exact hs
  | createServiceType h =>
    obtain ⟨-, hn⟩ := ServiceTypes.creatable_eq_ok_iff.1 h
    exact { hs with serviceTypeNames := hs.serviceTypeNames.insert fun u hu hnu ↦ absurd hnu (hn u hu) }
  | updateServiceType ht h =>
    obtain ⟨-, hn⟩ := ServiceTypes.changeable_eq_ok_iff.1 h
    exact { hs with serviceTypeNames := hs.serviceTypeNames.replace ht rfl hn }
  | deleteServiceType ht =>
    exact {
      serviceTypeNames := hs.serviceTypeNames.erase _
      bindingNames := hs.bindingNames.filter _
      identities := hs.identities.filter _
      places := hs.places.filter _ }
  | createBinding h =>
    obtain ⟨-, hi, hn⟩ := Bindings.creatable_eq_ok_iff.1 h
    exact { hs with
      bindingNames := hs.bindingNames.insert fun c hc hnc ↦ absurd hnc (hn c hc)
      identities := hs.identities.insert fun c hc hic ↦ absurd hic (hi c hc) }
  | updateBinding hb h =>
    obtain ⟨-, hi, hn⟩ := Bindings.changeable_eq_ok_iff.1 h
    exact { hs with
      bindingNames := hs.bindingNames.replace hb rfl hn
      identities := hs.identities.replace hb rfl hi }
  | deleteBinding hb =>
    exact { hs with
      bindingNames := hs.bindingNames.erase _
      identities := hs.identities.erase _ }
  | createAuthMethod ht h =>
    obtain ⟨-, -, hf⟩ := AuthMethods.creatable_eq_ok_iff.1 h
    exact { hs with places := hs.places.insert fun r hr hpr ↦ absurd (Prod.mk.inj hpr) (hf r hr) }
  | updateAuthMethod hr hc hm h =>
    obtain ⟨-, hf⟩ := AuthMethods.changeable_eq_ok_iff.1 h
    obtain ⟨v, -, rfl⟩ := AuthMethods.ofRecord_eq_ok_iff.1 hc
    obtain ⟨p, -, rfl⟩ := AuthMethods.merge_eq_ok_iff.1 hm
    refine { hs with places := hs.places.replace hr rfl fun hne q hq hqp ↦ ?_ }
    exact hf (fun hh ↦ hne (Prod.ext rfl hh)) q hq (Prod.mk.inj hqp)
  | deleteAuthMethod hr => exact { hs with places := hs.places.erase _ }
  | stamp hb token =>
    generalize w.now.text = time
    exact { hs with
      bindingNames := hs.bindingNames.replace hb rfl fun hne ↦ absurd rfl hne
      identities := hs.identities.replace hb rfl fun hne ↦ absurd rfl hne }

theorem named_of_mem {v : ServiceType} (hs : s.Unique) (hv : v ∈ s.serviceTypes.toList) :
    ServiceTypes.named s v.name = .ok v :=
  ServiceTypes.named_eq_ok_iff.2 ⟨hv, rfl, fun u hu hn ↦ hs.serviceTypeNames u hu v hv hn⟩

theorem bindingNamed_of_mem {b : Binding} (hs : s.Unique) (hb : b ∈ s.bindings.toList) :
    Bindings.named s b.name = .ok b :=
  Bindings.named_eq_ok_iff.2 ⟨hb, rfl, fun c hc hn ↦ hs.bindingNames c hc b hb hn⟩

theorem authMethodOf_of_mem {v : ServiceType} {r : AuthMethodRecord} {a : AuthMethod} (hs : s.Unique)
    (hv : v ∈ s.serviceTypes.toList) (hr : r ∈ s.authMethods.toList) (hu : r.serviceUuid = v.uuid)
    (hh : r.host ∈ v.hosts) (hk : r.kind = v.authMethod)
    (hreg : g.registry.isRegistered v.authMethod = true) (ha : AuthMethod.ofRecord r = .ok a) :
    g.authMethodOf s v.name r.host = .ok a := by
  have honly : IsOnly (AuthMethods.IsFor v.uuid r.host v.authMethod) s.authMethods.toList r := by
    refine ⟨hr, ⟨hu, rfl, hk⟩, ?_⟩
    rintro q hq ⟨hqu, hqh, -⟩
    exact hs.places q hq r hr (Prod.ext (hqu.trans hu.symm) hqh)
  have hnamed : IsOnly (·.name = v.name) s.serviceTypes.toList v :=
    ServiceTypes.named_eq_ok_iff.1 (named_of_mem hs hv)
  exact authMethodOf_eq_ok_iff.2 ⟨v, r, hnamed, hh, hreg, honly, ha⟩

/-- The state after requests that are handled one at a time, each in surroundings of its own. -/
def after (g : Gateway) (s : State) (requests : List (World × Request)) : State :=
  requests.foldl (fun s q ↦ (run q.1 (g.respond q.2) s).2) s

theorem after_cons (g : Gateway) (s : State) (q : World × Request) (requests : List (World × Request)) :
    g.after s (q :: requests) = g.after (run q.1 (g.respond q.2) s).2 requests := rfl

theorem after_unique (g : Gateway) {s : State} (hs : s.store.Unique) (requests : List (World × Request)) :
    (g.after s requests).store.Unique := by
  induction requests generalizing s with
  | nil => exact hs
  | cons q requests ih =>
    obtain ⟨response, t, ht, he⟩ := respond_effect g q.1 s q.2
    rw [after_cons, ht]
    exact ih (he.unique hs)

theorem exists_calls_after (g : Gateway) (s : State) (requests : List (World × Request)) :
    ∃ calls : List StoreCall,
      (g.after s requests).store = calls.foldl (fun s c ↦ (c.apply s).2) s.store := by
  induction requests generalizing s with
  | nil => exact ⟨[], rfl⟩
  | cons q requests ih =>
    obtain ⟨first, hfirst⟩ := exists_calls q.1 (g.respond q.2) s
    obtain ⟨calls, hcalls⟩ := ih (run q.1 (g.respond q.2) s).2
    exact ⟨first ++ calls, by rw [after_cons, hcalls, hfirst, List.foldl_append]⟩

/-- Whatever the requests are and whichever uuids are given out. As maps from uuids to records, too, what
is stored comes of the calls that the requests make, and these file every record under its own uuid. -/
theorem unique_after (g : Gateway) {s : State} (hs : s.store.Unique) (requests : List (World × Request)) :
    (g.after s requests).store.Unique ∧ (g.after s requests).store.maps.Filed ∧
      ∃ calls : List StoreCall, (g.after s requests).store.maps = calls.foldl Maps.after s.store.maps ∧
        ∀ m : Maps, m.Filed → (calls.foldl Maps.after m).Filed := by
  obtain ⟨calls, hcalls⟩ := exists_calls_after g s requests
  have hmaps : (g.after s requests).store.maps = calls.foldl Maps.after s.store.maps := by
    rw [hcalls, Store.maps_calls]
  have hfiled : (g.after s requests).store.maps.Filed := hmaps ▸ s.store.filed_maps.calls calls
  exact ⟨after_unique g hs requests, hfiled, calls, hmaps, fun m hm ↦ hm.calls calls⟩

theorem unique_after_rename :
    ∃ (s : State) (w : World) (r : Request),
      s.store.serviceTypes.toList = [{ name := "a", uuid := "1" }, { name := "b", uuid := "2" }] ∧
      r = ⟨.put, ⟨"/v1/service-types/b", some "key=k"⟩, Utf8.encode "\x7b\"name\":\"a\"\x7d", []⟩ ∧
      s.store.Unique ∧
      ((ofSettings { serviceToken := "k" }).after s [(w, r)]).store.Unique ∧
      ((ofSettings { serviceToken := "k" }).after s [(w, r)]).store.maps.Filed := by
  let s : State :=
    ⟨⟨⟨[{ name := "a", uuid := "1" }, { name := "b", uuid := "2" }], by decide⟩, ∅, ∅⟩, 0, []⟩
  have hs : s.store.Unique := {
    serviceTypeNames := by simp [s, Keyed.Separates]
    bindingNames := .empty
    identities := .empty
    places := .empty }
  let w : World := ⟨fun _ ↦ none, ⟨0, 0⟩, fun n ↦ toString n⟩
  let r : Request :=
    ⟨.put, ⟨"/v1/service-types/b", some "key=k"⟩, Utf8.encode "\x7b\"name\":\"a\"\x7d", []⟩
  obtain ⟨hu, hf, -⟩ := unique_after (ofSettings { serviceToken := "k" }) hs [(w, r)]
  exact ⟨s, w, r, rfl, rfl, hs, hu, hf⟩

end Gateway

end CertGate
