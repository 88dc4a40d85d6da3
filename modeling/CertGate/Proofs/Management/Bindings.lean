import CertGate.Management.Bindings
import CertGate.Proofs.Management.ServiceTypes

namespace CertGate

namespace Binding

variable {k : ErrorKind}

theorem checkFilled_spares (b : Binding) (hu : .unprocessable ≠ k) : Result.Spares b.checkFilled k := by
  rw [checkFilled]
  split
  · exact .error hu
  · exact .ok _

theorem checkFilled_eq_ok_iff {b : Binding} {u : Unit} : b.checkFilled = .ok u ↔
    "" ∉ [b.name, b.serviceUuid, b.host, b.authIdentifier, b.uniqueKey, b.authType] := by
  rw [checkFilled]
  split
  · next hf =>
    have hn := Option.ne_none_iff_exists'.2 ⟨_, hf⟩
    rw [ne_eq, firstEmpty?_eq_none_iff] at hn
    exact iff_of_false nofun hn
  · next hf => exact iff_of_true rfl (firstEmpty?_eq_none_iff.1 hf)

theorem checkAgainst_spares (b : Binding) (t : ServiceType) (hu : .unprocessable ≠ k)
    (hn : .notFound ≠ k) : Result.Spares (b.checkAgainst t) k :=
  .ite (.ite (.ok _) (.error hu)) (.error hn)

end Binding

namespace Bindings

open Program

variable {w : World} {s : State} {e : Error} {k : ErrorKind}

theorem single_spec (several : String) :
    Keyed.Single (single · several) .ok (.notFound "Binding") (.database several) :=
  ⟨rfl, fun _ ↦ rfl, fun _ _ _ ↦ rfl⟩

def identified (s : Store) (id : Binding.Identity) : Result Binding :=
  single (s.bindingsWithIdentity id) (severalWithIdentity id)

theorem findByIdentity_inspects (id : Binding.Identity) :
    (findByIdentity id).Inspects (identified · id) :=
  fun _ _ ↦ run_ofResult _

theorem identified_eq_ok_iff {s : Store} {id : Binding.Identity} {b : Binding} :
    identified s id = .ok b ↔ IsOnly (·.identity = id) s.bindings.toList b := by
  simp [identified, Store.bindingsWithIdentity, (single_spec _).eq_ok_iff fun _ ↦ beq_iff_eq]

theorem identified_eq_error_iff {s : Store} {id : Binding.Identity} :
    identified s id = .error e ↔
      (∀ b ∈ s.bindings.toList, b.identity ≠ id) ∧ e = .notFound "Binding" ∨
        Several (·.identity = id) s.bindings.toList ∧ e = .database (severalWithIdentity id) := by
  simp [identified, Store.bindingsWithIdentity, (single_spec _).eq_error_iff fun _ ↦ beq_iff_eq]

def named (s : Store) (name : String) : Result Binding :=
  single (s.bindingsWith none (some name)) (severalNamed name)

theorem findByName_inspects (name : String) : (findByName name).Inspects (named · name) :=
  fun _ _ ↦ run_ofResult _

theorem named_eq_ok_iff {s : Store} {name : String} {b : Binding} :
    named s name = .ok b ↔ IsOnly (·.name = name) s.bindings.toList b := by
  simp [named, Store.bindingsWith, (single_spec _).eq_ok_iff fun _ ↦ agrees_some]

theorem named_eq_error_iff {s : Store} {name : String} :
    named s name = .error e ↔
      (∀ b ∈ s.bindings.toList, b.name ≠ name) ∧ e = .notFound "Binding" ∨
        Several (·.name = name) s.bindings.toList ∧ e = .database (severalNamed name) := by
  simp [named, Store.bindingsWith, (single_spec _).eq_error_iff fun _ ↦ agrees_some]

theorem single_spares {β : Type} {s : Keyed Binding.uuid} {f : Binding → β} {x : β} {p : Binding → Bool}
    {le : Binding → Binding → Bool} (hs : s.Separates f) (hp : ∀ b, p b = true → f b = x)
    (several : String) (hn : .notFound ≠ k) : Result.Spares (single (s.sortedBy p le) several) k := by
  rcases hs.sortedBy_cases hp le with h | ⟨b, h⟩
  · exact h ▸ .error hn
  · exact h ▸ .ok b

theorem vacant_spares {β : Type} {s : Keyed Binding.uuid} {f : Binding → β} {x : β} {p : Binding → Bool}
    {le : Binding → Binding → Bool} (hs : s.Separates f) (hp : ∀ b, p b = true → f b = x)
    (field value several : String) (hc : .conflict ≠ k) :
    Result.Spares (vacant (s.sortedBy p le) field value several) k := by
  rcases hs.sortedBy_cases hp le with h | ⟨b, h⟩
  · exact h ▸ .ok _
  · exact h ▸ .error hc

theorem vacant_eq_ok_iff {found : List Binding} {field value several : String} {u : Unit} :
    vacant found field value several = .ok u ↔ found = [] := by
  match found with
  | [] => simp [vacant]
  | [_] => simp [vacant]
  | _ :: _ :: _ => simp [vacant]

def identityFree (s : Store) (b : Binding) : Result Unit :=
  vacant (s.bindingsWithIdentity b.identity) "auth_identifier" b.authIdentifier
    (severalWithIdentity b.identity)

theorem ensureIdentityFree_inspects (b : Binding) : (ensureIdentityFree b).Inspects (identityFree · b) :=
  fun _ _ ↦ run_ofResult _

theorem identityFree_eq_ok_iff {s : Store} {b : Binding} {u : Unit} :
    identityFree s b = .ok u ↔ ∀ c ∈ s.bindings.toList, c.identity ≠ b.identity := by
  simp [identityFree, vacant_eq_ok_iff, Store.bindingsWithIdentity, Keyed.sortedBy_eq_nil_iff]

def nameFree (s : Store) (name : String) : Result Unit :=
  vacant (s.bindingsWith none (some name)) "name" name (severalNamed name)

theorem ensureNameFree_inspects (name : String) : (ensureNameFree name).Inspects (nameFree · name) :=
  fun _ _ ↦ run_ofResult _

theorem nameFree_eq_ok_iff {s : Store} {name : String} {u : Unit} :
    nameFree s name = .ok u ↔ ∀ c ∈ s.bindings.toList, c.name ≠ name := by
  simp [nameFree, vacant_eq_ok_iff, Store.bindingsWith, Keyed.sortedBy_eq_nil_iff]

theorem identified_spares {s : Store} (hs : s.bindings.Separates Binding.identity) (id : Binding.Identity)
    (hn : .notFound ≠ k) : Result.Spares (identified s id) k :=
  single_spares (x := id) hs (fun _ h ↦ beq_iff_eq.1 h) _ hn

theorem named_spares {s : Store} (hs : s.bindings.Separates Binding.name) (name : String)
    (hn : .notFound ≠ k) : Result.Spares (named s name) k :=
  single_spares hs (fun _ h ↦ agrees_some.1 h) _ hn

theorem identityFree_spares {s : Store} (hs : s.bindings.Separates Binding.identity) (b : Binding)
    (hc : .conflict ≠ k) : Result.Spares (identityFree s b) k :=
  vacant_spares (x := b.identity) hs (fun _ h ↦ beq_iff_eq.1 h) _ _ _ hc

theorem nameFree_spares {s : Store} (hs : s.bindings.Separates Binding.name) (name : String)
    (hc : .conflict ≠ k) : Result.Spares (nameFree s name) k :=
  vacant_spares hs (fun _ h ↦ agrees_some.1 h) _ _ _ hc

def valid (s : Store) (b : Binding) : Result Unit := do
  b.checkFilled
  b.checkAgainst (← ServiceTypes.withUuid s b.serviceUuid)

def Valid (s : Store) (b : Binding) : Prop :=
  b.checkFilled = .ok () ∧
    ∃ t ∈ s.serviceTypes.toList, t.uuid = b.serviceUuid ∧ b.checkAgainst t = .ok ()

theorem valid_eq_ok_iff {s : Store} {b : Binding} {u : Unit} : valid s b = .ok u ↔ Valid s b := by
  simp only [valid, Result.bind_eq_ok_iff, ServiceTypes.withUuid_eq_ok_iff]
  exact ⟨fun ⟨_, hb, t, ⟨ht, hu⟩, hc⟩ ↦ ⟨hb, t, ht, hu, hc⟩,
    fun ⟨hb, t, ht, hu, hc⟩ ↦ ⟨(), hb, t, ⟨ht, hu⟩, hc⟩⟩

theorem valid_spares (s : Store) (b : Binding) (hu : .unprocessable ≠ k) (hn : .notFound ≠ k) :
    Result.Spares (valid s b) k :=
  (b.checkFilled_spares hu).bind fun _ _ ↦
    (ServiceTypes.withUuid_spares s _ hn).bind fun t _ ↦ b.checkAgainst_spares t hu hn

theorem validate_inspects (b : Binding) : (validate b).Inspects (valid · b) :=
  .bind (.ofResult _) fun _ ↦ .bind (ServiceTypes.findByUuid_inspects _) fun _ ↦ .ofResult _

theorem findAll_inspects : findAll.Inspects fun s ↦ .ok (s.bindingsAt none none) := fun _ _ ↦ rfl

theorem findByServiceAndHost_inspects (serviceUuid host : String) :
    (findByServiceAndHost serviceUuid host).Inspects fun s ↦
      .ok (s.bindingsAt (some serviceUuid) (some host)) :=
  fun _ _ ↦ rfl

def creatable (s : Store) (b : Binding) : Result Unit := do
  valid s b
  identityFree s b
  nameFree s b.name

theorem creatable_eq_ok_iff {s : Store} {b : Binding} {u : Unit} :
    creatable s b = .ok u ↔ Valid s b ∧ (∀ c ∈ s.bindings.toList, c.identity ≠ b.identity) ∧
      ∀ c ∈ s.bindings.toList, c.name ≠ b.name := by
  simp only [creatable, Result.bind_eq_ok_iff, valid_eq_ok_iff, identityFree_eq_ok_iff,
    nameFree_eq_ok_iff]
  exact ⟨fun ⟨_, hv, _, hi, hn⟩ ↦ ⟨hv, hi, hn⟩, fun ⟨hv, hi, hn⟩ ↦ ⟨(), hv, (), hi, hn⟩⟩

theorem creatable_spares {s : Store} (hi : s.bindings.Separates Binding.identity)
    (hm : s.bindings.Separates Binding.name) (b : Binding) (hu : .unprocessable ≠ k)
    (hn : .notFound ≠ k) (hc : .conflict ≠ k) : Result.Spares (creatable s b) k :=
  (valid_spares s b hu hn).bind fun _ _ ↦
    (identityFree_spares hi b hc).bind fun _ _ ↦ nameFree_spares hm _ hc

def created (w : World) (n : Nat) (b : Binding) : Binding :=
  { b with uuid := w.uuids n, createdOn := w.now.text, lastAuth := "" }

def ensureCreatable (b : Binding) : Program Unit := do
  validate b
  ensureIdentityFree b
  ensureNameFree b.name

theorem ensureCreatable_inspects (b : Binding) : (ensureCreatable b).Inspects (creatable · b) :=
  .bind (validate_inspects b) fun _ ↦ .bind (ensureIdentityFree_inspects b) fun _ ↦
    ensureNameFree_inspects b.name

def insertNew (b : Binding) : Program Binding := do
  let uuid ← perform .freshUuid
  let now ← perform .now
  let b := { b with uuid := uuid, createdOn := now.text, lastAuth := "" }
  store (.insertBinding b)
  return b

theorem run_create (b : Binding) :
    run w (create b) s =
      match creatable s.store b with
      | .ok _ => (.ok (created w s.issued b),
          { s with store := s.store.insertBinding (created w s.issued b), issued := s.issued + 1 })
      | .error e => (.error e, s) := by
  have hp : create b = ensureCreatable b >>= fun _ ↦ insertNew b := by
    simp only [create, ensureCreatable, insertNew, bind_assoc]
  rw [hp, (ensureCreatable_inspects b).run_bind]
  cases creatable s.store b <;> rfl

def changeable (s : Store) (current b : Binding) : Result Unit := do
  valid s b
  if b.identity ≠ current.identity then identityFree s b
  if b.name ≠ current.name then nameFree s b.name

theorem changeable_eq_ok_iff {s : Store} {current b : Binding} {u : Unit} :
    changeable s current b = .ok u ↔ Valid s b ∧
      (b.identity ≠ current.identity → ∀ c ∈ s.bindings.toList, c.identity ≠ b.identity) ∧
      (b.name ≠ current.name → ∀ c ∈ s.bindings.toList, c.name ≠ b.name) := by
  simp only [changeable, ite_bind, Result.bind_eq_ok_iff, Result.ite_pure_eq_ok_iff, valid_eq_ok_iff,
    identityFree_eq_ok_iff, nameFree_eq_ok_iff]
  exact ⟨fun ⟨_, hv, _, hi, hn⟩ ↦ ⟨hv, hi, hn⟩, fun ⟨hv, hi, hn⟩ ↦ ⟨(), hv, (), hi, hn⟩⟩

def ensureChangeable (current b : Binding) : Program Unit := do
  validate b
  if b.identity ≠ current.identity then ensureIdentityFree b
  if b.name ≠ current.name then ensureNameFree b.name

theorem ensureChangeable_inspects (current b : Binding) :
    (ensureChangeable current b).Inspects (changeable · current b) := by
  have hn : (if b.name ≠ current.name then ensureNameFree b.name else pure () : Program Unit).Inspects
      fun s ↦ if b.name ≠ current.name then nameFree s b.name else pure () :=
    .ite (ensureNameFree_inspects b.name) (.pure ())
  exact .bind (validate_inspects b) fun _ ↦ .ite (.bind (ensureIdentityFree_inspects b) fun _ ↦ hn) hn

def replace (b : Binding) : Program Binding := do
  (← store (.updateBinding b) : Result Unit)
  return b

theorem run_replace (b : Binding) :
    run w (replace b) s =
      match s.store.updateBinding b with
      | .ok u => (.ok b, { s with store := u })
      | .error e => (.error e, s) := by
  rw [replace, run_store_bind, StoreCall.apply]
  cases s.store.updateBinding b <;> rfl

def updated (s : Store) (current b : Binding) : Result Store := do
  changeable s current b
  s.updateBinding b

theorem updated_eq_ok_iff {s u : Store} {current b : Binding} :
    updated s current b = .ok u ↔ changeable s current b = .ok () ∧
      (∃ c ∈ s.bindings.toList, c.uuid = b.uuid) ∧ u = s.insertBinding b := by
  have hu : s.updateBinding b = .ok u ↔
      (∃ c ∈ s.bindings.toList, c.uuid = b.uuid) ∧ u = s.insertBinding b := by
    rw [Store.updateBinding, ← Keyed.contains_iff]
    cases s.bindings.contains b.uuid <;> simp [eq_comm]
  rw [updated, Result.bind_eq_ok_iff, ← hu]
  exact ⟨fun ⟨_, h⟩ ↦ h, fun h ↦ ⟨(), h⟩⟩

theorem changeable_spares {s : Store} (hi : s.bindings.Separates Binding.identity)
    (hm : s.bindings.Separates Binding.name) (current b : Binding) (hu : .unprocessable ≠ k)
    (hn : .notFound ≠ k) (hc : .conflict ≠ k) : Result.Spares (changeable s current b) k := by
  have hname : Result.Spares (if b.name ≠ current.name then nameFree s b.name else pure ()) k :=
    .ite (nameFree_spares hm _ hc) (.ok _)
  exact (valid_spares s b hu hn).bind fun _ _ ↦
    .ite ((identityFree_spares hi b hc).bind fun _ _ ↦ hname) hname

theorem updated_spares {s : Store} (hi : s.bindings.Separates Binding.identity)
    (hm : s.bindings.Separates Binding.name) {current b : Binding}
    (hb : ∃ c ∈ s.bindings.toList, c.uuid = b.uuid) (hu : .unprocessable ≠ k)
    (hn : .notFound ≠ k) (hc : .conflict ≠ k) : Result.Spares (updated s current b) k := by
  have hs : s.updateBinding b = .ok (s.insertBinding b) := by
    simp [Store.updateBinding, Keyed.contains_iff.2 hb]
  exact (changeable_spares hi hm current b hu hn hc).bind fun _ _ ↦ hs ▸ .ok _

theorem run_update (current : Binding) (changes : Binding.Update) :
    run w (update current changes) s =
      match updated s.store current (current.apply changes) with
      | .ok u => (.ok (current.apply changes), { s with store := u })
      | .error e => (.error e, s) := by
  have hp : update current changes =
      ensureChangeable current (current.apply changes) >>= fun _ ↦ replace (current.apply changes) := by
    simp only [update, ensureChangeable, replace, ite_bind, bind_assoc]
  rw [hp, (ensureChangeable_inspects _ _).run_bind, updated]
  cases changeable s.store current (current.apply changes) with
  | error e => rfl
  | ok => exact run_replace _

theorem run_delete (b : Binding) :
    run w (delete b) s = (.ok (), { s with store := s.store.deleteBinding b.uuid }) := rfl

end Bindings

end CertGate
