import CertGate.Management.AuthMethods
import CertGate.Proofs.Management.ServiceTypes

namespace CertGate

/-- Every variant is registered under its own tag. -/
def Registry.Tagged (r : Registry) : Prop := ∀ e ∈ r.variants.toList, e.2.tag = e.1

namespace Registry

variable {r : Registry} {tag kind : String} {v : AuthMethod.Variant} {a b : AuthMethod} {k : ErrorKind}

theorem Tagged.register (h : r.Tagged) (v : AuthMethod.Variant) : (r.register v).Tagged := by
  intro e he
  rcases Keyed.mem_insert.1 he with rfl | ⟨he, -⟩
  · rfl
  · exact h e he

theorem tagged_ofSettings (s : Settings) : (ofSettings s).Tagged := by
  have h : ({ endpoints := s.endpointDefaults } : Registry).Tagged := fun _ he ↦ absurd he List.not_mem_nil
  exact (h.register (.apiKey "")).register (.headers ∅)

theorem variantFor_eq_ok_iff : r.variantFor tag = .ok v ↔ r.variants.find? tag = some v := by
  rw [variantFor]
  cases r.variants.find? tag <;> simp

theorem isRegistered_of_variantFor (h : r.variantFor tag = .ok v) : r.isRegistered tag = true := by
  rw [isRegistered, variantFor_eq_ok_iff.1 h]
  rfl

theorem Tagged.tag_eq (h : r.Tagged) (hv : r.variantFor tag = .ok v) : v.tag = tag := by
  rw [variantFor_eq_ok_iff, Table.find?, Option.map_eq_some_iff] at hv
  obtain ⟨e, he, rfl⟩ := hv
  obtain ⟨hm, rfl⟩ := Keyed.get?_eq_some_iff.1 he
  exact h e hm

theorem host_and_variant_of_setDefaults (h : r.setDefaults a kind = .ok b) :
    b.host = a.host ∧ b.variant = a.variant := by
  rw [setDefaults] at h
  split at h
  · cases h
    exact ⟨rfl, rfl⟩
  · obtain ⟨e, -, h⟩ := Result.bind_eq_ok_iff.1 h
    cases h
    exact ⟨rfl, rfl⟩

theorem variantFor_spares (tag : String) (h : r.isRegistered tag = true ∨ .internal ≠ k) :
    Result.Spares (r.variantFor tag) k := by
  rw [isRegistered] at h
  rw [variantFor]
  cases hv : r.variants.find? tag with
  | some v => exact .ok v
  | none => exact .error (h.resolve_left (by simp [hv]))

theorem setDefaults_spares (a : AuthMethod) (kind : String)
    (h : (r.endpoints.find? kind).isSome = true ∨ .internal ≠ k) :
    Result.Spares (r.setDefaults a kind) k := by
  rw [setDefaults]
  split
  · exact .ok _
  · refine .bind ?_ fun _ _ ↦ .ok _
    rw [defaultsFor]
    cases he : r.endpoints.find? kind with
    | some e => exact .ok e
    | none => exact .error (h.resolve_left (by simp [he]))

end Registry

namespace AuthMethod

variable {k : ErrorKind}

theorem Variant.tag_apply (v : Variant) (p : Patch) : (v.apply p).tag = v.tag := by cases v <;> rfl

theorem ofRecord_toRecord (a : AuthMethod) : ofRecord a.toRecord = .ok a := by
  obtain ⟨serviceUuid, host, port, path, field, uuid, time, v⟩ := a
  cases v <;> rfl

theorem variantOf?_cases (r : AuthMethodRecord) :
    (r.kind = apiKeyTag ∧ variantOf? r = some (.apiKey (r.accessKey.getD ""))) ∨
      (r.kind = headersTag ∧ variantOf? r = some (.headers (r.headers.getD ∅))) ∨
      (r.kind = mockTag ∧ variantOf? r = some .mock) ∨
      (r.kind ∉ [apiKeyTag, headersTag, mockTag] ∧ variantOf? r = none) := by
  rw [variantOf?]
  split
  · next hk => exact .inl ⟨hk, rfl⟩
  · next ha =>
    split
    · next hk => exact .inr (.inl ⟨hk, rfl⟩)
    · next hh =>
      split
      · next hk => exact .inr (.inr (.inl ⟨hk, rfl⟩))
      · next hm => exact .inr (.inr (.inr ⟨by simp [ha, hh, hm], rfl⟩))

theorem tag_of_variantOf? {r : AuthMethodRecord} {v : Variant} (h : variantOf? r = some v) :
    v.tag = r.kind := by
  rcases variantOf?_cases r with ⟨hk, hv⟩ | ⟨hk, hv⟩ | ⟨hk, hv⟩ | ⟨-, hv⟩
  · cases hv.symm.trans h
    exact hk.symm
  · cases hv.symm.trans h
    exact hk.symm
  · cases hv.symm.trans h
    exact hk.symm
  · cases hv.symm.trans h

theorem checkFilled_spares (a : AuthMethod) (hu : .unprocessable ≠ k) :
    Result.Spares a.checkFilled k := by
  rw [checkFilled]
  dsimp only
  split
  · exact .error hu
  · split
    · exact .error hu
    · exact .ok _

theorem checkPlaceholder_spares (path placeholder : String) (hu : .unprocessable ≠ k) :
    Result.Spares (checkPlaceholder path placeholder) k := by
  rw [checkPlaceholder]
  split
  · exact .ok _
  · exact .error hu

theorem checkVariant_spares (a : AuthMethod) (hu : .unprocessable ≠ k) :
    Result.Spares a.checkVariant k := by
  rw [checkVariant]
  split
  · dsimp only
    split
    · exact .error hu
    · exact (checkPlaceholder_spares _ _ hu).bind fun _ _ ↦ checkPlaceholder_spares _ _ hu
  · split
    · exact .error hu
    · exact .ok _
  · exact .ok _

theorem checkAgainst_spares (a : AuthMethod) (t : ServiceType) (hu : .unprocessable ≠ k)
    (hn : .notFound ≠ k) : Result.Spares (a.checkAgainst t) k := by
  rw [checkAgainst]
  dsimp only
  split
  · exact .error hn
  · split
    · exact .error hu
    · exact checkVariant_spares a hu

theorem checkFilled_eq_ok_iff {a : AuthMethod} {u : Unit} : a.checkFilled = .ok u ↔
    "" ∉ [a.serviceUuid, a.host, a.path, a.retrievalField] ∧ a.port ≠ 0 := by
  rw [checkFilled]
  dsimp only
  split
  · next hf =>
    have hn := Option.ne_none_iff_exists'.2 ⟨_, hf⟩
    rw [ne_eq, firstEmpty?_eq_none_iff] at hn
    exact iff_of_false nofun fun h ↦ hn h.1
  · next hf =>
    have hn : "" ∉ [a.serviceUuid, a.host, a.path, a.retrievalField] :=
      firstEmpty?_eq_none_iff.1 (Option.eq_none_iff_forall_ne_some.2 hf)
    rw [and_iff_right hn]
    split
    · next hp => exact iff_of_false nofun (not_not.2 hp)
    · next hp => exact iff_of_true rfl hp

theorem of_checkAgainst {a : AuthMethod} {t : ServiceType} {u : Unit} (h : a.checkAgainst t = .ok u) :
    a.host ∈ t.hosts ∧ (∃ u, Url.parse? a.endpoint = some u) ∧ a.checkVariant = .ok u := by
  rw [checkAgainst] at h
  dsimp only at h
  split at h
  · cases h
  · next hh =>
    split at h
    · cases h
    · next hu =>
      refine ⟨by simpa [ServiceType.hasHost] using hh, ?_, h⟩
      exact Option.ne_none_iff_exists'.1 (by simpa using hu)

theorem host_mem_of_checkAgainst {a : AuthMethod} {t : ServiceType} {u : Unit}
    (h : a.checkAgainst t = .ok u) : a.host ∈ t.hosts := (of_checkAgainst h).1

end AuthMethod

namespace AuthMethods

open Program

variable {w : World} {s : State} {e : Error} {k : ErrorKind}

def several : Error := .internal "More than 1 auth methods found for the given service type and host"

theorem single_spec :
    Keyed.Single single AuthMethod.ofRecord (.notFound "Auth method") several :=
  ⟨rfl, fun _ ↦ rfl, fun _ _ _ ↦ rfl⟩

def IsFor (serviceUuid host tag : String) (r : AuthMethodRecord) : Prop :=
  r.serviceUuid = serviceUuid ∧ r.host = host ∧ r.kind = tag

theorem accepts_iff {serviceUuid host tag : String} {r : AuthMethodRecord} :
    AuthMethodFilter.accepts ⟨some serviceUuid, some host, some tag⟩ r = true ↔
      IsFor serviceUuid host tag r := by
  simp [AuthMethodFilter.accepts, IsFor, and_assoc]

def reaching (registry : Registry) (s : Store) (serviceUuid host tag : String) : Result AuthMethod := do
  registry.ensureRegistered tag
  single (s.authMethodsWith ⟨some serviceUuid, some host, some tag⟩)

/-- The auth method of a record differs from it in the variant alone. -/
theorem ofRecord_eq_ok_iff {r : AuthMethodRecord} {a : AuthMethod} :
    AuthMethod.ofRecord r = .ok a ↔ ∃ v, AuthMethod.variantOf? r = some v ∧
      a = ⟨r.serviceUuid, r.host, r.port, r.path, r.retrievalField, r.uuid, r.createdOn, v⟩ := by
  rw [AuthMethod.ofRecord]
  cases AuthMethod.variantOf? r with
  | none => simp
  | some v => simp [eq_comm (a := a)]

theorem find_inspects (registry : Registry) (serviceUuid host tag : String) :
    (find registry serviceUuid host tag).Inspects (reaching registry · serviceUuid host tag) :=
  .bind (.ofResult _) fun _ _ _ ↦ run_ofResult _

theorem ensureRegistered_eq_ok_iff {registry : Registry} {tag : String} {u : Unit} :
    registry.ensureRegistered tag = .ok u ↔ registry.isRegistered tag = true := by
  cases h : registry.variants.find? tag <;>
    simp [Registry.ensureRegistered, Registry.variantFor, Registry.isRegistered, h]

theorem ensureRegistered_eq_error_iff {registry : Registry} {tag : String} :
    registry.ensureRegistered tag = .error e ↔
      registry.isRegistered tag = false ∧ e = Registry.notFound := by
  cases h : registry.variants.find? tag <;>
    simp [Registry.ensureRegistered, Registry.variantFor, Registry.isRegistered, h, eq_comm]

theorem reaching_eq_ok_iff {registry : Registry} {s : Store} {serviceUuid host tag : String}
    {a : AuthMethod} :
    reaching registry s serviceUuid host tag = .ok a ↔ registry.isRegistered tag = true ∧
      ∃ r, IsOnly (IsFor serviceUuid host tag) s.authMethods.toList r ∧ AuthMethod.ofRecord r = .ok a := by
  simp [reaching, Result.bind_eq_ok_iff, ensureRegistered_eq_ok_iff, Store.authMethodsWith,
    single_spec.eq_ok_iff fun _ ↦ accepts_iff]

theorem reaching_eq_error_iff {registry : Registry} {s : Store} {serviceUuid host tag : String} :
    reaching registry s serviceUuid host tag = .error e ↔
      registry.isRegistered tag = false ∧ e = Registry.notFound ∨ registry.isRegistered tag = true ∧
        ((∀ r ∈ s.authMethods.toList, ¬ IsFor serviceUuid host tag r) ∧ e = .notFound "Auth method" ∨
          Several (IsFor serviceUuid host tag) s.authMethods.toList ∧ e = several ∨
          ∃ r, IsOnly (IsFor serviceUuid host tag) s.authMethods.toList r ∧
            AuthMethod.ofRecord r = .error e) := by
  simp [reaching, Result.bind_eq_error_iff, ensureRegistered_eq_error_iff, ensureRegistered_eq_ok_iff,
    Store.authMethodsWith, single_spec.eq_error_iff fun _ ↦ accepts_iff]

theorem reaching_spares {registry : Registry} {s : Store} {serviceUuid host tag : String}
    (hg : registry.isRegistered tag = true)
    (hs : ¬ Several (IsFor serviceUuid host tag) s.authMethods.toList)
    (hr : ∀ r ∈ s.authMethods.toList, ∃ a, AuthMethod.ofRecord r = .ok a) (hn : .notFound ≠ k) :
    Result.Spares (reaching registry s serviceUuid host tag) k := by
  intro e he
  rcases reaching_eq_error_iff.1 he with ⟨h, -⟩ | ⟨-, ⟨-, rfl⟩ | ⟨h, -⟩ | ⟨r, hm, h⟩⟩
  · exact absurd (hg.symm.trans h) nofun
  · exact hn
  · exact absurd h hs
  · obtain ⟨a, ha⟩ := hr r hm.1
    exact absurd (h.symm.trans ha) nofun

def hostFree (s : Store) (serviceUuid host : String) : Result Unit :=
  match s.authMethodsWith { serviceUuid := some serviceUuid, host := some host } with
  | [] => .ok ()
  | _ => .error (.conflict "Auth method" "host" host)

theorem ensureHostFree_inspects (serviceUuid host : String) :
    (ensureHostFree serviceUuid host).Inspects (hostFree · serviceUuid host) := by
  intro w s
  rw [ensureHostFree, run_store_bind]
  dsimp only [StoreCall.apply, hostFree]
  cases s.store.authMethodsWith { serviceUuid := some serviceUuid, host := some host } <;> rfl

theorem hostFree_eq_ok_iff {s : Store} {serviceUuid host : String} {u : Unit} :
    hostFree s serviceUuid host = .ok u ↔
      ∀ r ∈ s.authMethods.toList, ¬ (r.serviceUuid = serviceUuid ∧ r.host = host) := by
  have h : s.authMethodsWith { serviceUuid := some serviceUuid, host := some host } = [] ↔
      ∀ r ∈ s.authMethods.toList, ¬ (r.serviceUuid = serviceUuid ∧ r.host = host) := by
    simp [Store.authMethodsWith, AuthMethodFilter.accepts, Keyed.sortedBy_eq_nil_iff]
  rw [← h, hostFree]
  split <;> simp_all

theorem hostFree_spares (s : Store) (serviceUuid host : String) (hc : .conflict ≠ k) :
    Result.Spares (hostFree s serviceUuid host) k := by
  rw [hostFree]
  split
  · exact .ok _
  · exact .error hc

def valid (s : Store) (a : AuthMethod) : Result Unit := do
  a.checkFilled
  a.checkAgainst (← ServiceTypes.withUuid s a.serviceUuid)

/-- What an auth method has to satisfy by itself and towards its service type. -/
def Valid (s : Store) (a : AuthMethod) : Prop :=
  a.checkFilled = .ok () ∧
    ∃ t ∈ s.serviceTypes.toList, t.uuid = a.serviceUuid ∧ a.checkAgainst t = .ok ()

theorem valid_eq_ok_iff {s : Store} {a : AuthMethod} {u : Unit} : valid s a = .ok u ↔ Valid s a := by
  simp only [valid, Result.bind_eq_ok_iff, ServiceTypes.withUuid_eq_ok_iff]
  exact ⟨fun ⟨_, ha, t, ⟨ht, hu⟩, hc⟩ ↦ ⟨ha, t, ht, hu, hc⟩,
    fun ⟨ha, t, ht, hu, hc⟩ ↦ ⟨(), ha, t, ⟨ht, hu⟩, hc⟩⟩

theorem validate_inspects (a : AuthMethod) : (validate a).Inspects (valid · a) :=
  .bind (.ofResult _) fun _ ↦ .bind (ServiceTypes.findByUuid_inspects _) fun _ ↦ .ofResult _

theorem findAll_inspects :
    findAll.Inspects fun s ↦ (s.authMethodsWith {}).mapM AuthMethod.ofRecord :=
  fun _ _ ↦ run_ofResult _

theorem draft_eq_ok_iff {registry : Registry} {t : ServiceType} {body : Bytes} {a : AuthMethod} :
    draft registry t body = .ok a ↔ ∃ v b p, registry.variantFor t.authMethod = .ok v ∧
      registry.setDefaults { variant := v } t.kind = .ok b ∧ readPatch body = .ok p ∧
      a = { b.apply p with serviceUuid := t.uuid } := by
  simp [draft, Registry.create, Result.bind_eq_ok_iff, eq_comm (a := a)]

theorem of_draft {registry : Registry} {t : ServiceType} {body : Bytes} {a : AuthMethod}
    (hg : registry.Tagged) (h : draft registry t body = .ok a) :
    registry.isRegistered t.authMethod = true ∧ a.serviceUuid = t.uuid ∧ a.tag = t.authMethod ∧
      ∃ p, readPatch body = .ok p ∧ a.host = p.host.getD "" := by
  obtain ⟨v, b, p, hv, hb, hp, rfl⟩ := draft_eq_ok_iff.1 h
  obtain ⟨hh, hbv⟩ := Registry.host_and_variant_of_setDefaults hb
  have ht : (b.variant.apply p).tag = t.authMethod := by
    rw [AuthMethod.Variant.tag_apply, hbv, hg.tag_eq hv]
  exact ⟨Registry.isRegistered_of_variantFor hv, rfl, ht, p, hp, congrArg p.host.getD hh⟩

theorem readPatch_spares (body : Bytes) (hb : .badRequest ≠ k) : Result.Spares (readPatch body) k := by
  rw [readPatch]
  split
  · exact .ok _
  · exact .error hb

theorem draft_spares {registry : Registry} {t : ServiceType} (body : Bytes) (hb : .badRequest ≠ k)
    (hv : registry.isRegistered t.authMethod = true ∨ .internal ≠ k)
    (he : (registry.endpoints.find? t.kind).isSome = true ∨ .internal ≠ k) :
    Result.Spares (draft registry t body) k := by
  have hc : Result.Spares (registry.create t.authMethod) k :=
    (Registry.variantFor_spares _ hv).bind fun _ _ ↦ .ok _
  refine hc.bind fun a _ ↦ ?_
  exact (Registry.setDefaults_spares a _ he).bind fun _ _ ↦
    (readPatch_spares body hb).bind fun _ _ ↦ .ok _

theorem valid_spares (s : Store) (a : AuthMethod) (hu : .unprocessable ≠ k) (hn : .notFound ≠ k) :
    Result.Spares (valid s a) k :=
  (a.checkFilled_spares hu).bind fun _ _ ↦
    (ServiceTypes.withUuid_spares s _ hn).bind fun t _ ↦ a.checkAgainst_spares t hu hn

def creatable (registry : Registry) (s : Store) (t : ServiceType) (body : Bytes) :
    Result AuthMethod := do
  let a ← draft registry t body
  valid s a
  hostFree s a.serviceUuid a.host
  return a

theorem creatable_eq_ok_iff {registry : Registry} {s : Store} {t : ServiceType} {body : Bytes}
    {a : AuthMethod} :
    creatable registry s t body = .ok a ↔ draft registry t body = .ok a ∧ Valid s a ∧
      ∀ r ∈ s.authMethods.toList, ¬ (r.serviceUuid = a.serviceUuid ∧ r.host = a.host) := by
  simp only [creatable, Result.bind_eq_ok_iff, valid_eq_ok_iff, hostFree_eq_ok_iff, Result.pure_eq,
    Except.ok.injEq]
  constructor
  · rintro ⟨a, hd, -, hv, -, hf, rfl⟩
    exact ⟨hd, hv, hf⟩
  · rintro ⟨hd, hv, hf⟩
    exact ⟨a, hd, (), hv, (), hf, rfl⟩

theorem creatable_spares {registry : Registry} {t : ServiceType} (s : Store) (body : Bytes)
    (hv : registry.isRegistered t.authMethod = true) (he : (registry.endpoints.find? t.kind).isSome = true)
    (hb : .badRequest ≠ k) (hu : .unprocessable ≠ k) (hn : .notFound ≠ k) (hc : .conflict ≠ k) :
    Result.Spares (creatable registry s t body) k :=
  (draft_spares body hb (.inl hv) (.inl he)).bind fun a _ ↦ (valid_spares s a hu hn).bind fun _ _ ↦
    (hostFree_spares s _ _ hc).bind fun _ _ ↦ .ok _

/-- Only an auth method at its host is ever in conflict with a new one. -/
theorem exists_of_creatable_conflict {registry : Registry} {s : Store} {t : ServiceType} {body : Bytes}
    (h : creatable registry s t body = .error e) (he : e.kind = .conflict) :
    ∃ a, draft registry t body = .ok a ∧
      ∃ r ∈ s.authMethods.toList, r.serviceUuid = a.serviceUuid ∧ r.host = a.host := by
  rcases Result.bind_eq_error_iff.1 h with h | ⟨a, ha, h⟩
  · exact absurd he (draft_spares (k := .conflict) body nofun (.inr nofun) (.inr nofun) e h)
  rcases Result.bind_eq_error_iff.1 h with h | ⟨-, -, h⟩
  · exact absurd he (valid_spares (k := .conflict) _ _ nofun nofun e h)
  rcases Result.bind_eq_error_iff.1 h with h | ⟨-, -, h⟩
  · refine ⟨a, ha, ?_⟩
    by_contra hn
    have hf : hostFree s a.serviceUuid a.host = .ok () :=
      hostFree_eq_ok_iff.2 fun r hr hra ↦ hn ⟨r, hr, hra⟩
    rw [hf] at h
    cases h
  · cases h

def ensureCreatable (registry : Registry) (t : ServiceType) (body : Bytes) : Program AuthMethod := do
  let a ← draft registry t body
  validate a
  ensureHostFree a.serviceUuid a.host
  return a

theorem ensureCreatable_inspects (registry : Registry) (t : ServiceType) (body : Bytes) :
    (ensureCreatable registry t body).Inspects (creatable registry · t body) :=
  .bind (.ofResult _) fun a ↦ .bind (validate_inspects a) fun _ ↦
    .bind (ensureHostFree_inspects _ _) fun _ ↦ .pure a

def insertNew (a : AuthMethod) : Program AuthMethod := do
  let uuid ← perform .freshUuid
  let now ← perform .now
  let a := { a with uuid := uuid, createdOn := now.text }
  store (.insertAuthMethod a.toRecord)
  return a

def created (w : World) (n : Nat) (a : AuthMethod) : AuthMethod :=
  { a with uuid := w.uuids n, createdOn := w.now.text }

theorem run_create (registry : Registry) (t : ServiceType) (body : Bytes) :
    run w (create registry t body) s =
      match creatable registry s.store t body with
      | .ok a => (.ok (created w s.issued a),
          { s with
            store := s.store.insertAuthMethod (created w s.issued a).toRecord
            issued := s.issued + 1 })
      | .error e => (.error e, s) := by
  have hp : create registry t body = ensureCreatable registry t body >>= insertNew := by
    simp only [create, ensureCreatable, insertNew, bind_assoc, pure_bind]
  rw [hp, (ensureCreatable_inspects registry t body).run_bind]
  cases creatable registry s.store t body <;> rfl

/-- The condition of changing an auth method, apart from its being there. -/
def changeable (s : Store) (current a : AuthMethod) : Result Unit := do
  valid s a
  if a.host ≠ current.host then hostFree s a.serviceUuid a.host

theorem changeable_eq_ok_iff {s : Store} {current a : AuthMethod} {u : Unit} :
    changeable s current a = .ok u ↔ Valid s a ∧ (a.host ≠ current.host →
      ∀ r ∈ s.authMethods.toList, ¬ (r.serviceUuid = a.serviceUuid ∧ r.host = a.host)) := by
  simp only [changeable, Result.bind_eq_ok_iff, Result.ite_pure_eq_ok_iff, valid_eq_ok_iff,
    hostFree_eq_ok_iff]
  exact ⟨fun ⟨_, hv, hf⟩ ↦ ⟨hv, hf⟩, fun ⟨hv, hf⟩ ↦ ⟨(), hv, hf⟩⟩

def ensureChangeable (current a : AuthMethod) : Program Unit := do
  validate a
  if a.host ≠ current.host then ensureHostFree a.serviceUuid a.host

theorem ensureChangeable_inspects (current a : AuthMethod) :
    (ensureChangeable current a).Inspects (changeable · current a) :=
  .bind (validate_inspects a) fun _ ↦ .ite (ensureHostFree_inspects _ _) (.pure ())

def replace (a : AuthMethod) : Program AuthMethod := do
  (← store (.updateAuthMethod a.toRecord) : Result Unit)
  return a

theorem run_replace (a : AuthMethod) :
    run w (replace a) s =
      match s.store.updateAuthMethod a.toRecord with
      | .ok u => (.ok a, { s with store := u })
      | .error e => (.error e, s) := by
  rw [replace, run_store_bind, StoreCall.apply]
  cases s.store.updateAuthMethod a.toRecord <;> rfl

def updated (s : Store) (current a : AuthMethod) : Result Store := do
  changeable s current a
  s.updateAuthMethod a.toRecord

theorem updated_eq_ok_iff {s u : Store} {current a : AuthMethod} :
    updated s current a = .ok u ↔ changeable s current a = .ok () ∧
      (∃ r ∈ s.authMethods.toList, r.uuid = a.uuid) ∧ u = s.insertAuthMethod a.toRecord := by
  have hu : s.updateAuthMethod a.toRecord = .ok u ↔
      (∃ r ∈ s.authMethods.toList, r.uuid = a.uuid) ∧ u = s.insertAuthMethod a.toRecord := by
    rw [Store.updateAuthMethod, ← Keyed.contains_iff]
    change (if s.authMethods.contains a.uuid = true then _ else _) = _ ↔ _
    cases s.authMethods.contains a.uuid <;> simp [eq_comm]
  rw [updated, Result.bind_eq_ok_iff, ← hu]
  exact ⟨fun ⟨_, h⟩ ↦ h, fun h ↦ ⟨(), h⟩⟩

theorem updated_spares {s : Store} {current a : AuthMethod}
    (ha : ∃ r ∈ s.authMethods.toList, r.uuid = a.uuid) (hu : .unprocessable ≠ k)
    (hn : .notFound ≠ k) (hc : .conflict ≠ k) : Result.Spares (updated s current a) k := by
  have hs : s.updateAuthMethod a.toRecord = .ok (s.insertAuthMethod a.toRecord) := by
    have hr : s.authMethods.contains a.toRecord.uuid = true := Keyed.contains_iff.2 ha
    simp [Store.updateAuthMethod, hr]
  have hv : Result.Spares (changeable s current a) k :=
    (valid_spares s a hu hn).bind fun _ _ ↦ .ite (hostFree_spares s _ _ hc) (.ok _)
  exact hv.bind fun _ _ ↦ hs ▸ .ok _

theorem merge_spares (current : AuthMethod) (body : Bytes) (hb : .badRequest ≠ k) :
    Result.Spares (merge current body) k :=
  (readPatch_spares body hb).bind fun _ _ ↦ .ok _

theorem merge_eq_ok_iff {current a : AuthMethod} {body : Bytes} :
    merge current body = .ok a ↔ ∃ p, readPatch body = .ok p ∧ a = current.apply p := by
  simp [merge, Result.bind_eq_ok_iff, eq_comm (a := a)]

theorem run_update_of_merge {current a : AuthMethod} {body : Bytes} (h : merge current body = .ok a) :
    run w (update current body) s =
      match updated s.store current a with
      | .ok u => (.ok a, { s with store := u })
      | .error e => (.error e, s) := by
  have hp : update current body = ensureChangeable current a >>= fun _ ↦ replace a := by
    simp only [update, h, ensureChangeable, replace, ite_bind, bind_assoc]
    rfl
  rw [hp, (ensureChangeable_inspects _ _).run_bind, updated]
  cases changeable s.store current a with
  | error e => rfl
  | ok => exact run_replace a

theorem run_update_of_error {current : AuthMethod} {body : Bytes} (h : merge current body = .error e) :
    run w (update current body) s = (.error e, s) := by
  rw [update, h]
  rfl

theorem run_delete (a : AuthMethod) :
    run w (delete a) s = (.ok (), { s with store := s.store.deleteAuthMethod a.uuid }) := rfl

end AuthMethods

end CertGate
