import CertGate.Proofs.Management.ServiceTypes
import CertGate.Proofs.Moves

namespace CertGate

inductive Record where
  | serviceType (t : ServiceType)
  | binding (b : Binding)
  | authMethod (r : AuthMethodRecord)

namespace Record

def collection : Record → Collection
  | serviceType _ => .serviceTypes
  | binding _ => .bindings
  | authMethod _ => .authMethods

def uuid : Record → String
  | serviceType t => t.uuid
  | binding b => b.uuid
  | authMethod r => r.uuid

def key (x : Record) : Collection × String := (x.collection, x.uuid)

/-- The uuid of the service type that the record is or belongs to. -/
def owner : Record → String
  | serviceType t => t.uuid
  | binding b => b.serviceUuid
  | authMethod r => r.serviceUuid

def createdOn : Record → String
  | serviceType t => t.createdOn
  | binding b => b.createdOn
  | authMethod r => r.createdOn

/-- When the record was last used to let a client in; that is noted of bindings alone. -/
def lastAuth : Record → String
  | binding b => b.lastAuth
  | serviceType _ | authMethod _ => ""

/-- The record with blanks for all that can be changed. -/
def fixed : Record → Record
  | serviceType t => serviceType { uuid := t.uuid, createdOn := t.createdOn, kind := t.kind }
  | binding b => binding { uuid := b.uuid, createdOn := b.createdOn }
  | authMethod r => authMethod {
      uuid := r.uuid, createdOn := r.createdOn, serviceUuid := r.serviceUuid, kind := r.kind
      host := "", port := 0 }

def toDatum : Record → Datum
  | serviceType t => t.toDatum
  | binding b => b.toDatum
  | authMethod r => r.toDatum

@[simp] theorem key_fixed (x : Record) : x.fixed.key = x.key := by cases x <;> rfl

theorem fixed_stamped (b : Binding) (time : String) :
    (binding { b with lastAuth := time }).fixed = (binding b).fixed := rfl

theorem key_eq_of_fixed_eq {x y : Record} (h : x.fixed = y.fixed) : x.key = y.key := by
  rw [← key_fixed, h, key_fixed]

end Record

namespace Store

def Holds (s : Store) : Record → Prop
  | .serviceType t => t ∈ s.serviceTypes.toList
  | .binding b => b ∈ s.bindings.toList
  | .authMethod r => r ∈ s.authMethods.toList

instance : Membership Record Store := ⟨Holds⟩

@[simp] theorem mem_serviceType {s : Store} {t : ServiceType} :
    Record.serviceType t ∈ s ↔ t ∈ s.serviceTypes.toList := Iff.rfl

@[simp] theorem mem_binding {s : Store} {b : Binding} : Record.binding b ∈ s ↔ b ∈ s.bindings.toList :=
  Iff.rfl

@[simp] theorem mem_authMethod {s : Store} {r : AuthMethodRecord} :
    Record.authMethod r ∈ s ↔ r ∈ s.authMethods.toList := Iff.rfl

def insert (s : Store) : Record → Store
  | .serviceType t => s.insertServiceType t
  | .binding b => s.insertBinding b
  | .authMethod r => s.insertAuthMethod r

def erase (s : Store) : Collection × String → Store
  | (.serviceTypes, uuid) => s.deleteServiceType uuid
  | (.bindings, uuid) => s.deleteBinding uuid
  | (.authMethods, uuid) => s.deleteAuthMethod uuid

variable {s : Store} {x y : Record} {k : Collection × String}

theorem mem_insert : y ∈ s.insert x ↔ y = x ∨ y ∈ s ∧ y.key ≠ x.key := by
  cases x <;> cases y <;>
    simp [insert, insertServiceType, insertBinding, insertAuthMethod, Record.key, Record.collection,
      Record.uuid, Keyed.mem_insert]

theorem mem_insertBinding {b : Binding} :
    y ∈ s.insertBinding b ↔ y = .binding b ∨ y ∈ s ∧ y.key ≠ (.bindings, b.uuid) :=
  mem_insert (x := .binding b)

theorem mem_erase : y ∈ s.erase k ↔ y ∈ s ∧ y.key ≠ k := by
  obtain ⟨collection, uuid⟩ := k
  cases collection <;> cases y <;>
    simp [erase, deleteServiceType, deleteBinding, deleteAuthMethod, Record.key, Record.collection,
      Record.uuid, Keyed.mem_erase]

theorem eq_of_key_eq (hx : x ∈ s) (hy : y ∈ s) (h : x.key = y.key) : x = y := by
  cases x <;> cases y <;> simp only [Record.key, Record.collection, Record.uuid, Prod.mk.injEq,
    reduceCtorEq, false_and, true_and] at h
  · exact congrArg _ (Keyed.eq_of_key_eq hx hy h)
  · exact congrArg _ (Keyed.eq_of_key_eq hx hy h)
  · exact congrArg _ (Keyed.eq_of_key_eq hx hy h)

/-- No record has the uuid. -/
def Lacks (s : Store) (uuid : String) : Prop := ∀ x ∈ s, x.uuid ≠ uuid

theorem lacks_iff {uuid : String} : s.Lacks uuid ↔ (∀ t ∈ s.serviceTypes.toList, t.uuid ≠ uuid) ∧
    (∀ b ∈ s.bindings.toList, b.uuid ≠ uuid) ∧ ∀ r ∈ s.authMethods.toList, r.uuid ≠ uuid := by
  constructor
  · exact fun h ↦ ⟨fun t ht ↦ h (.serviceType t) ht, fun b hb ↦ h (.binding b) hb,
      fun r hr ↦ h (.authMethod r) hr⟩
  · rintro ⟨ht, hb, hr⟩ x hx
    cases x with
    | serviceType t => exact ht t hx
    | binding b => exact hb b hx
    | authMethod r => exact hr r hx

instance (s : Store) (uuid : String) : Decidable (s.Lacks uuid) := decidable_of_iff _ lacks_iff.symm

theorem Lacks.key_ne {uuid : String} (h : s.Lacks uuid) (hx : x.uuid = uuid) (hy : y ∈ s) :
    y.key ≠ x.key := fun hk ↦ h y hy ((congrArg Prod.snd hk).trans hx)

theorem key_ne_iff (hx : x ∈ s) (hy : y ∈ s) : x.key ≠ y.key ↔ x ≠ y :=
  not_congr ⟨eq_of_key_eq hx hy, congrArg Record.key⟩

theorem mem_deleted {uuid : String} : y ∈ ServiceTypes.deleted s uuid ↔ y ∈ s ∧ y.owner ≠ uuid := by
  cases y <;>
    simp [ServiceTypes.deleted, deleteServiceType, deleteBindingsOf, deleteAuthMethodsOf,
      Record.owner, Keyed.mem_erase, Keyed.mem_filter]

end Store

end CertGate
