import CertGate.Management.ServiceTypes
import CertGate.Proofs.Program
import CertGate.Proofs.Store

namespace CertGate

theorem firstEmpty?_eq_none_iff {fields : List (String × String)} :
    firstEmpty? fields = none ↔ "" ∉ fields.map (·.2) := by
  simp only [firstEmpty?, Option.map_eq_none_iff, List.find?_eq_none, String.isEmpty_iff, List.mem_map,
    not_exists, not_and]

namespace ServiceType

variable {t : ServiceType} {settings : Settings} {k : ErrorKind}

theorem validate_spares (settings : Settings) (t : ServiceType) (hu : .unprocessable ≠ k) :
    Result.Spares (t.validate settings) k := by
  rw [validate]
  dsimp only
  split
  · exact .error hu
  · refine .guard hu (.guard hu (.guard hu ?_))
    split
    · exact .error hu
    · exact .ite (.error hu) (.ok _)

theorem supported_of_validate {u : Unit} (h : t.validate settings = .ok u) :
    t.authMethod ∈ settings.supportedAuthMethods ∧ t.kind ∈ settings.supportedServiceTypes := by
  rw [validate] at h
  dsimp only at h
  split at h
  · cases h
  · obtain ⟨-, h⟩ := Result.guard_eq_ok_iff.1 h
    obtain ⟨-, h⟩ := Result.guard_eq_ok_iff.1 h
    obtain ⟨hm, h⟩ := Result.guard_eq_ok_iff.1 h
    split at h
    · cases h
    · split at h
      · cases h
      · next hk => exact ⟨by simpa using hm, by simpa using hk⟩

end ServiceType

namespace ServiceTypes

open Program

variable {w : World} {s : State} {e : Error} {k : ErrorKind}

def several (key : String) : Error := .database s!"More than 1 service-types found for: {key}"

theorem single_spec (key : String) :
    Keyed.Single (single · key) .ok (.notFound "Service-type") (several key) :=
  ⟨rfl, fun _ ↦ rfl, fun _ _ _ ↦ rfl⟩

theorem single_spares (found : List ServiceType) (key : String) (hn : .notFound ≠ k)
    (hd : .database ≠ k) : Result.Spares (single found key) k := by
  match found with
  | [] => exact .error hn
  | [_] => exact .ok _
  | _ :: _ :: _ => exact .error hd

def named (s : Store) (name : String) : Result ServiceType :=
  single (s.serviceTypesNamed (some name)) name

theorem findByName_inspects (name : String) : (findByName name).Inspects (named · name) :=
  fun _ _ ↦ run_ofResult _

theorem named_eq_ok_iff {s : Store} {name : String} {t : ServiceType} :
    named s name = .ok t ↔ IsOnly (·.name = name) s.serviceTypes.toList t := by
  simp [named, Store.serviceTypesNamed, (single_spec name).eq_ok_iff fun _ ↦ agrees_some]

theorem named_eq_error_iff {s : Store} {name : String} :
    named s name = .error e ↔
      (∀ t ∈ s.serviceTypes.toList, t.name ≠ name) ∧ e = .notFound "Service-type" ∨
        Several (·.name = name) s.serviceTypes.toList ∧ e = several name := by
  simp [named, Store.serviceTypesNamed, (single_spec name).eq_error_iff fun _ ↦ agrees_some]

theorem named_spares {s : Store} (hs : s.serviceTypes.Separates ServiceType.name) (name : String)
    (hn : .notFound ≠ k) : Result.Spares (named s name) k := by
  intro e he
  rcases named_eq_error_iff.1 he with ⟨-, rfl⟩ | ⟨hm, -⟩
  · exact hn
  · exact absurd hm (hs.not_several fun _ h ↦ h)

def withUuid (s : Store) (uuid : String) : Result ServiceType :=
  single (s.serviceTypesWithUuid uuid) uuid

theorem findByUuid_inspects (uuid : String) : (findByUuid uuid).Inspects (withUuid · uuid) :=
  fun _ _ ↦ run_ofResult _

theorem withUuid_spares (s : Store) (uuid : String) (hn : .notFound ≠ k) :
    Result.Spares (withUuid s uuid) k := by
  rw [withUuid, Store.serviceTypesWithUuid]
  cases s.serviceTypes.get? uuid with
  | none => exact .error hn
  | some t => exact .ok t

theorem withUuid_eq_ok_iff {s : Store} {uuid : String} {t : ServiceType} :
    withUuid s uuid = .ok t ↔ t ∈ s.serviceTypes.toList ∧ t.uuid = uuid := by
  rw [← Keyed.get?_eq_some_iff, withUuid, Store.serviceTypesWithUuid]
  cases s.serviceTypes.get? uuid <;> simp [single]

def nameFree (s : Store) (name : String) : Result Unit :=
  match s.serviceTypesNamed (some name) with
  | [] => .ok ()
  | _ => .error (.conflict ServiceType.resource "name" name)

theorem ensureNameFree_inspects (name : String) : (ensureNameFree name).Inspects (nameFree · name) := by
  intro w s
  rw [ensureNameFree, run_store_bind]
  dsimp only [StoreCall.apply, nameFree]
  cases s.store.serviceTypesNamed (some name) <;> rfl

theorem nameFree_eq_ok_iff {s : Store} {name : String} {u : Unit} :
    nameFree s name = .ok u ↔ ∀ t ∈ s.serviceTypes.toList, t.name ≠ name := by
  have h : s.serviceTypesNamed (some name) = [] ↔ ∀ t ∈ s.serviceTypes.toList, t.name ≠ name := by
    simp [Store.serviceTypesNamed, Keyed.sortedBy_eq_nil_iff]
  rw [← h, nameFree]
  split <;> simp_all

theorem nameFree_spares (s : Store) (name : String) (hc : .conflict ≠ k) :
    Result.Spares (nameFree s name) k := by
  rw [nameFree]
  split
  · exact .ok _
  · exact .error hc

theorem findAll_inspects : findAll.Inspects fun s ↦ .ok (s.serviceTypesNamed none) := fun _ _ ↦ rfl

def creatable (settings : Settings) (s : Store) (t : ServiceType) : Result Unit := do
  t.validate settings
  nameFree s t.name

theorem creatable_spares (settings : Settings) (s : Store) (t : ServiceType) (hu : .unprocessable ≠ k)
    (hc : .conflict ≠ k) : Result.Spares (creatable settings s t) k :=
  (t.validate_spares settings hu).bind fun _ _ ↦ nameFree_spares s _ hc

theorem creatable_eq_ok_iff {settings : Settings} {s : Store} {t : ServiceType} {u : Unit} :
    creatable settings s t = .ok u ↔
      t.validate settings = .ok () ∧ ∀ v ∈ s.serviceTypes.toList, v.name ≠ t.name := by
  simp only [creatable, Result.bind_eq_ok_iff, nameFree_eq_ok_iff]
  exact ⟨fun ⟨_, hv, hn⟩ ↦ ⟨hv, hn⟩, fun ⟨hv, hn⟩ ↦ ⟨(), hv, hn⟩⟩

def created (w : World) (n : Nat) (t : ServiceType) : ServiceType :=
  { t with uuid := w.uuids n, createdOn := w.now.text }

theorem run_create (settings : Settings) (t : ServiceType) :
    run w (create settings t) s =
      match creatable settings s.store t with
      | .ok _ => (.ok (created w s.issued t),
          { s with store := s.store.insertServiceType (created w s.issued t), issued := s.issued + 1 })
      | .error e => (.error e, s) := by
  have hg : (ofResult (t.validate settings) >>= fun _ ↦ ensureNameFree t.name).Inspects
      (creatable settings · t) :=
    .bind (.ofResult _) fun _ ↦ ensureNameFree_inspects t.name
  change run w (ofResult (t.validate settings) >>= fun _ ↦ ensureNameFree t.name >>= _) s = _
  rw [← bind_assoc, hg.run_bind]
  cases creatable settings s.store t <;> rfl

def changeable (settings : Settings) (s : Store) (current t : ServiceType) : Result Unit := do
  t.validate settings
  if t.name ≠ current.name then nameFree s t.name

theorem changeable_eq_ok_iff {settings : Settings} {s : Store} {current t : ServiceType} {u : Unit} :
    changeable settings s current t = .ok u ↔ t.validate settings = .ok () ∧
      (t.name ≠ current.name → ∀ v ∈ s.serviceTypes.toList, v.name ≠ t.name) := by
  simp only [changeable, Result.bind_eq_ok_iff, Result.ite_pure_eq_ok_iff, nameFree_eq_ok_iff]
  exact ⟨fun ⟨_, hv, hn⟩ ↦ ⟨hv, hn⟩, fun ⟨hv, hn⟩ ↦ ⟨(), hv, hn⟩⟩

def ensureChangeable (settings : Settings) (current t : ServiceType) : Program Unit := do
  t.validate settings
  if t.name ≠ current.name then ensureNameFree t.name

theorem ensureChangeable_inspects (settings : Settings) (current t : ServiceType) :
    (ensureChangeable settings current t).Inspects (changeable settings · current t) :=
  .bind (.ofResult _) fun _ ↦ .ite (ensureNameFree_inspects t.name) (.pure ())

def replace (t : ServiceType) : Program ServiceType := do
  (← store (.updateServiceType t) : Result Unit)
  return t

theorem run_replace (t : ServiceType) :
    run w (replace t) s =
      match s.store.updateServiceType t with
      | .ok u => (.ok t, { s with store := u })
      | .error e => (.error e, s) := by
  rw [replace, run_store_bind, StoreCall.apply]
  cases s.store.updateServiceType t <;> rfl

def updated (settings : Settings) (s : Store) (current t : ServiceType) : Result Store := do
  changeable settings s current t
  s.updateServiceType t

theorem updated_eq_ok_iff {settings : Settings} {s u : Store} {current t : ServiceType} :
    updated settings s current t = .ok u ↔ changeable settings s current t = .ok () ∧
      (∃ v ∈ s.serviceTypes.toList, v.uuid = t.uuid) ∧ u = s.insertServiceType t := by
  have hu : s.updateServiceType t = .ok u ↔
      (∃ v ∈ s.serviceTypes.toList, v.uuid = t.uuid) ∧ u = s.insertServiceType t := by
    rw [Store.updateServiceType, ← Keyed.contains_iff]
    cases s.serviceTypes.contains t.uuid <;> simp [eq_comm]
  rw [updated, Result.bind_eq_ok_iff, ← hu]
  exact ⟨fun ⟨_, h⟩ ↦ h, fun h ↦ ⟨(), h⟩⟩

theorem updated_spares {s : Store} {current t : ServiceType} (settings : Settings)
    (ht : ∃ v ∈ s.serviceTypes.toList, v.uuid = t.uuid) (hu : .unprocessable ≠ k) (hc : .conflict ≠ k) :
    Result.Spares (updated settings s current t) k := by
  have hs : s.updateServiceType t = .ok (s.insertServiceType t) := by
    simp [Store.updateServiceType, Keyed.contains_iff.2 ht]
  have hv : Result.Spares (changeable settings s current t) k :=
    (t.validate_spares settings hu).bind fun _ _ ↦ .ite (nameFree_spares s _ hc) (.ok _)
  exact hv.bind fun _ _ ↦ hs ▸ .ok _

theorem run_update (settings : Settings) (current : ServiceType) (changes : ServiceType.Update) :
    run w (update settings current changes) s =
      match updated settings s.store current (current.apply changes) with
      | .ok u => (.ok (current.apply changes), { s with store := u })
      | .error e => (.error e, s) := by
  have hp : update settings current changes =
      ensureChangeable settings current (current.apply changes) >>= fun _ ↦
        replace (current.apply changes) := by
    simp only [update, ensureChangeable, replace, ite_bind, bind_assoc]
  rw [hp, (ensureChangeable_inspects _ _ _).run_bind, updated]
  cases changeable settings s.store current (current.apply changes) with
  | error e => rfl
  | ok => exact run_replace _

def deleted (s : Store) (uuid : String) : Store :=
  ((s.deleteBindingsOf uuid).deleteAuthMethodsOf uuid).deleteServiceType uuid

theorem run_delete (t : ServiceType) :
    run w (delete t) s = (.ok (), { s with store := deleted s.store t.uuid }) := rfl

end ServiceTypes

end CertGate
