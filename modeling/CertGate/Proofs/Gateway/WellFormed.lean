import CertGate.Proofs.Gateway.Anchored
import CertGate.Proofs.Gateway.Shown

namespace CertGate

namespace AuthMethod

theorem holds_iff {pattern cs : List Char} : holds pattern cs = true ↔ pattern <:+: cs := by
  induction cs with
  | nil => simp [holds, List.isEmpty_iff]
  | cons c cs ih => rw [holds, Bool.or_eq_true, ih, List.isPrefixOf_iff_prefix, List.infix_cons_iff]

theorem checkPlaceholder_eq_ok_iff {path placeholder : String} {u : Unit} :
    checkPlaceholder path placeholder = .ok u ↔ placeholder.toList <:+: path.toList := by
  rw [checkPlaceholder, ← holds_iff]
  split <;> simp_all

/-- What a variant needs, and what it needs of the path that it is used with. -/
def Variant.Complete (path : String) : Variant → Prop
  | apiKey key => key ≠ "" ∧
      ∀ p ∈ [identifierPlaceholder, accessKeyPlaceholder], p.toList <:+: path.toList
  | headers h => h.toList ≠ []
  | mock => True

theorem Variant.eq_apiKey_of_tag {v : Variant} (h : v.tag = apiKeyTag) : ∃ key, v = .apiKey key := by
  cases v with
  | apiKey key => exact ⟨key, rfl⟩
  | headers _ => exact absurd h (by decide : headersTag ≠ apiKeyTag)
  | mock => exact absurd h (by decide : mockTag ≠ apiKeyTag)

theorem Variant.eq_headers_of_tag {v : Variant} (h : v.tag = headersTag) : ∃ t, v = .headers t := by
  cases v with
  | apiKey _ => exact absurd h (by decide : apiKeyTag ≠ headersTag)
  | headers t => exact ⟨t, rfl⟩
  | mock => exact absurd h (by decide : mockTag ≠ headersTag)

theorem checkVariant_eq_ok_iff {a : AuthMethod} {u : Unit} :
    a.checkVariant = .ok u ↔ a.variant.Complete a.path := by
  rw [checkVariant, Variant.Complete.eq_def]
  cases a.variant with
  | apiKey key =>
    dsimp only
    simp only [Result.guard_eq_ok_iff, Result.bind_eq_ok_iff, checkPlaceholder_eq_ok_iff,
      List.forall_mem_cons, List.not_mem_nil, false_implies, implies_true, and_true, exists_const]
  | headers h =>
    dsimp only
    split <;> simp_all [Keyed.isEmpty]
  | mock => exact iff_of_true rfl trivial

end AuthMethod

structure AuthMethodRecord.WellFormed (r : AuthMethodRecord) : Prop where
  reads : ∃ a, AuthMethod.ofRecord r = .ok a ∧ a.toRecord = r
  filled : "" ∉ [r.serviceUuid, r.host, r.path, r.retrievalField]
  port : r.port ≠ 0
  endpoint : ∃ u, Url.parse? s!"https://{r.host}:{r.port.toNat}{r.path}" = some u
  apiKey : r.kind = AuthMethod.apiKeyTag → (∃ key, r.accessKey = some key ∧ key ≠ "") ∧
    ∀ p ∈ [identifierPlaceholder, accessKeyPlaceholder], p.toList <:+: r.path.toList
  headers : r.kind = AuthMethod.headersTag → ∃ h, r.headers = some h ∧ h.toList ≠ []

theorem AuthMethod.wellFormed_toRecord {a : AuthMethod} {t : ServiceType} (hf : a.checkFilled = .ok ())
    (hc : a.checkAgainst t = .ok ()) : a.toRecord.WellFormed := by
  obtain ⟨hfilled, hport⟩ := checkFilled_eq_ok_iff.1 hf
  obtain ⟨-, hu, hv⟩ := of_checkAgainst hc
  have hv : a.variant.Complete a.path := checkVariant_eq_ok_iff.1 hv
  refine ⟨⟨a, ofRecord_toRecord a, rfl⟩, hfilled, hport, hu, fun hk ↦ ?_, fun hk ↦ ?_⟩
  · obtain ⟨key, hvar⟩ := Variant.eq_apiKey_of_tag hk
    rw [hvar] at hv
    exact ⟨⟨key, by rw [toRecord, hvar], hv.1⟩, hv.2⟩
  · obtain ⟨h, hvar⟩ := Variant.eq_headers_of_tag hk
    rw [hvar] at hv
    exact ⟨h, by rw [toRecord, hvar], hv⟩

namespace AuthMethods

theorem wellFormed_of_valid {s : Store} {a : AuthMethod} (h : Valid s a) : a.toRecord.WellFormed := by
  obtain ⟨hf, t, -, -, hc⟩ := h
  exact a.wellFormed_toRecord hf hc

theorem exists_mapM_ofRecord {rs : List AuthMethodRecord} (h : ∀ r ∈ rs, r.WellFormed) :
    ∃ as, rs.mapM AuthMethod.ofRecord = .ok as ∧ as.map AuthMethod.toRecord = rs := by
  induction rs with
  | nil => exact ⟨[], rfl, rfl⟩
  | cons r rs ih =>
    rw [List.forall_mem_cons] at h
    obtain ⟨a, ha, hr⟩ := h.1.reads
    obtain ⟨as, has, hrs⟩ := ih h.2
    exact ⟨a :: as, by simp [ha, has], by simp [hr, hrs]⟩

end AuthMethods

/-- Every record passes the checks that do not depend on other records. -/
structure Store.WellFormed (settings : Settings) (s : Store) : Prop where
  serviceTypes : ∀ t ∈ s.serviceTypes.toList, t.validate settings = .ok ()
  bindings : ∀ b ∈ s.bindings.toList,
    "" ∉ [b.name, b.serviceUuid, b.host, b.authIdentifier, b.uniqueKey, b.authType]
  authMethods : ∀ r ∈ s.authMethods.toList, r.WellFormed

theorem Store.WellFormed.empty (settings : Settings) : ({} : Store).WellFormed settings where
  serviceTypes _ h := absurd h List.not_mem_nil
  bindings _ h := absurd h List.not_mem_nil
  authMethods _ h := absurd h List.not_mem_nil

namespace Gateway

open Http (Method Request Response)
open Program

variable {g : Gateway} {w : World} {n : Nat} {s t : Store} {response : Response} {r : Request}

theorem Effect.validated (h : Effect g w n s response t)
    (hs : ∀ v ∈ s.serviceTypes.toList, v.validate g.settings = .ok ()) :
    ∀ v ∈ t.serviceTypes.toList, v.validate g.settings = .ok () := by
  cases h with
  | createServiceType h =>
    obtain ⟨hv, -⟩ := ServiceTypes.creatable_eq_ok_iff.1 h
    exact Keyed.forall_mem_insert hv hs
  | updateServiceType _ h =>
    obtain ⟨hv, -⟩ := ServiceTypes.changeable_eq_ok_iff.1 h
    exact Keyed.forall_mem_insert hv hs
  | deleteServiceType _ => exact Keyed.forall_mem_filter hs _
  | _ => exact hs

theorem Effect.completed (h : Effect g w n s response t)
    (hs : ∀ r ∈ s.authMethods.toList, r.WellFormed) : ∀ r ∈ t.authMethods.toList, r.WellFormed := by
  cases h with
  | deleteServiceType | deleteAuthMethod => exact Keyed.forall_mem_filter hs _
  | @createAuthMethod _ _ a _ h =>
    obtain ⟨-, hv, -⟩ := AuthMethods.creatable_eq_ok_iff.1 h
    have hv : AuthMethods.Valid s (AuthMethods.created w n a) := hv
    exact Keyed.forall_mem_insert (AuthMethods.wellFormed_of_valid hv) hs
  | updateAuthMethod _ _ _ h =>
    obtain ⟨hv, -⟩ := AuthMethods.changeable_eq_ok_iff.1 h
    exact Keyed.forall_mem_insert (AuthMethods.wellFormed_of_valid hv) hs
  | _ => exact hs

theorem Effect.wellFormed (h : Effect g w n s response t) (hs : s.WellFormed g.settings) :
    t.WellFormed g.settings := by
  have hb : ∀ b ∈ t.bindings.toList, b.checkFilled = .ok () :=
    h.filled fun b hb ↦ Binding.checkFilled_eq_ok_iff.2 (hs.bindings b hb)
  exact ⟨h.validated hs.serviceTypes, fun b hbt ↦ Binding.checkFilled_eq_ok_iff.1 (hb b hbt),
    h.completed hs.authMethods⟩

theorem reads_authMethods (g : Gateway) : Route.authMethods.Reads g fun s ↦
    ((s.authMethodsWith {}).mapM AuthMethod.ofRecord).map fun as ↦
      .record [("auth_methods", .list (as.map AuthMethod.toDatum))] :=
  .of_bind AuthMethods.findAll_inspects fun _ _ ↦ rfl

theorem shows_authMethods {s : State} (hs : s.store.WellFormed g.settings) (hr : g.Asks r .authMethods) :
    ∃ rs : List AuthMethodRecord, rs.Perm s.store.authMethods.toList ∧
      g.Shows s r (.record [("auth_methods", .list (rs.map AuthMethodRecord.toDatum))]) := by
  have hperm : (s.store.authMethodsWith {}).Perm s.store.authMethods.toList :=
    Keyed.sortedBy_perm fun _ ↦ rfl
  obtain ⟨as, has, hrs⟩ := AuthMethods.exists_mapM_ofRecord fun r hr ↦
    hs.authMethods r (hperm.mem_iff.1 hr)
  refine ⟨_, hperm, (hr.shows_iff rfl (by simp [Route.methods]) (reads_authMethods g)).2 ?_⟩
  rw [has, ← hrs, List.map_map]
  rfl

theorem wellFormed_after {s : State} (hs : s.store.WellFormed g.settings)
    (requests : List (World × Request)) : (g.after s requests).store.WellFormed g.settings := by
  induction requests generalizing s with
  | nil => exact hs
  | cons q requests ih =>
    obtain ⟨response, t, ht, he⟩ := respond_effect g q.1 s q.2
    rw [after_cons, ht]
    exact ih (he.wellFormed hs)

/-- Whatever was requested before, every record that is stored is well formed, and whoever holds the key
is shown all auth methods there are. -/
theorem wellFormed_and_listed_after (g : Gateway) (requests : List (World × Request)) :
    let s := g.after ⟨{}, 0, []⟩ requests
    s.store.WellFormed g.settings ∧ ∀ r, g.Asks r .authMethods →
      ∃ rs : List AuthMethodRecord, rs.Perm s.store.authMethods.toList ∧
        g.Shows s r (.record [("auth_methods", .list (rs.map AuthMethodRecord.toDatum))]) := by
  intro s
  have hs : s.store.WellFormed g.settings := wellFormed_after (.empty _) requests
  exact ⟨hs, fun r hr ↦ shows_authMethods hs hr⟩

end Gateway

end CertGate
