import CertGate.Proofs.Moves
import Mathlib.Data.Set.Finite.List

namespace CertGate

namespace StoreCall

def serviceTypeUnder (uuid : String) (there : Option ServiceType) : StoreCall → Option ServiceType
  | insertServiceType t => if t.uuid = uuid then some t else there
  | updateServiceType t => if t.uuid = uuid then there.map fun _ ↦ t else there
  | deleteServiceType k => if k = uuid then none else there
  | _ => there

def bindingUnder (uuid : String) (there : Option Binding) : StoreCall → Option Binding
  | insertBinding b => if b.uuid = uuid then some b else there
  | updateBinding b => if b.uuid = uuid then there.map fun _ ↦ b else there
  | stampBinding k time => if k = uuid then there.map fun b ↦ { b with lastAuth := time } else there
  | deleteBinding k => if k = uuid then none else there
  | deleteBindingsOf serviceUuid => there.filter fun b ↦ b.serviceUuid != serviceUuid
  | _ => there

def authMethodUnder (uuid : String) (there : Option AuthMethodRecord) :
    StoreCall → Option AuthMethodRecord
  | insertAuthMethod r => if r.uuid = uuid then some r else there
  | updateAuthMethod r => if r.uuid = uuid then there.map fun _ ↦ r else there
  | deleteAuthMethod k => if k = uuid then none else there
  | deleteAuthMethodsOf serviceUuid => there.filter fun r ↦ r.serviceUuid != serviceUuid
  | _ => there

/-- The uuid of the one record that a call is to change. -/
def target? : StoreCall → Option String
  | insertServiceType t | updateServiceType t => some t.uuid
  | insertBinding b | updateBinding b => some b.uuid
  | insertAuthMethod r | updateAuthMethod r => some r.uuid
  | deleteServiceType uuid | stampBinding uuid _ | deleteBinding uuid | deleteAuthMethod uuid => some uuid
  | _ => none

def isDeletion : StoreCall → Bool
  | deleteServiceType _ | deleteBinding _ | deleteBindingsOf _ | deleteAuthMethod _
  | deleteAuthMethodsOf _ => true
  | _ => false

def Refused : (c : StoreCall) → c.Answer → Prop
  | updateServiceType _, r | updateBinding _, r | stampBinding _ _, r | updateAuthMethod _, r =>
    ∃ e, r = .error e
  | _, _ => False

variable {c : StoreCall} {uuid : String}

theorem serviceTypeUnder_of_collection_ne {there : Option ServiceType} (h : c.collection ≠ .serviceTypes) :
    c.serviceTypeUnder uuid there = there := by
  cases c <;> first | rfl | exact absurd rfl h

theorem bindingUnder_of_collection_ne {there : Option Binding} (h : c.collection ≠ .bindings) :
    c.bindingUnder uuid there = there := by
  cases c <;> first | rfl | exact absurd rfl h

theorem authMethodUnder_of_collection_ne {there : Option AuthMethodRecord}
    (h : c.collection ≠ .authMethods) : c.authMethodUnder uuid there = there := by
  cases c <;> first | rfl | exact absurd rfl h

end StoreCall

/-- What is filed under a uuid, if anything, is a record with this uuid. -/
def IsUnder {α : Type} (key : α → String) (uuid : String) (there : Option α) : Prop :=
  ∀ a, there = some a → key a = uuid

namespace IsUnder

variable {α : Type} {key : α → String} {uuid : String} {there : Option α}

theorem insert (h : IsUnder key uuid there) (a : α) :
    IsUnder key uuid (if key a = uuid then some a else there) := by
  split
  · next ha =>
    rintro _ ⟨⟩
    exact ha
  · exact h

theorem modify (h : IsUnder key uuid there) {f : α → α} (hf : ∀ a, key (f a) = key a) (k : String) :
    IsUnder key uuid (if k = uuid then there.map f else there) := by
  split
  · intro b hb
    obtain ⟨a, ha, rfl⟩ := Option.map_eq_some_iff.1 hb
    exact (hf a).trans (h a ha)
  · exact h

theorem replace (h : IsUnder key uuid there) (a : α) :
    IsUnder key uuid (if key a = uuid then there.map fun _ ↦ a else there) := by
  split
  · next ha =>
    intro b hb
    obtain ⟨-, -, rfl⟩ := Option.map_eq_some_iff.1 hb
    exact ha
  · exact h

theorem erase (h : IsUnder key uuid there) (k : String) :
    IsUnder key uuid (if k = uuid then none else there) := by
  split
  · nofun
  · exact h

theorem filter (h : IsUnder key uuid there) (p : α → Bool) : IsUnder key uuid (there.filter p) :=
  fun a ha ↦ h a (Option.filter_eq_some_iff.1 ha).1

end IsUnder

structure Maps where
  serviceTypes : String → Option ServiceType
  bindings : String → Option Binding
  authMethods : String → Option AuthMethodRecord

namespace Maps

def ofSeed (s : Seed) : Maps where
  serviceTypes uuid := (s.serviceTypes.filter (·.uuid == uuid)).getLast?
  bindings uuid := (s.bindings.filter (·.uuid == uuid)).getLast?
  authMethods uuid := (s.authMethods.filter (·.uuid == uuid)).getLast?

def after (m : Maps) (c : StoreCall) : Maps where
  serviceTypes uuid := c.serviceTypeUnder uuid (m.serviceTypes uuid)
  bindings uuid := c.bindingUnder uuid (m.bindings uuid)
  authMethods uuid := c.authMethodUnder uuid (m.authMethods uuid)

structure Filed (m : Maps) : Prop where
  serviceType : ∀ uuid t, m.serviceTypes uuid = some t → t.uuid = uuid
  binding : ∀ uuid b, m.bindings uuid = some b → b.uuid = uuid
  authMethod : ∀ uuid r, m.authMethods uuid = some r → r.uuid = uuid

theorem filed_ofSeed (seed : Seed) : (ofSeed seed).Filed where
  serviceType _ _ h := beq_iff_eq.1 (List.mem_filter.1 (List.mem_of_getLast? h)).2
  binding _ _ h := beq_iff_eq.1 (List.mem_filter.1 (List.mem_of_getLast? h)).2
  authMethod _ _ h := beq_iff_eq.1 (List.mem_filter.1 (List.mem_of_getLast? h)).2

theorem Filed.after {m : Maps} (hm : m.Filed) (c : StoreCall) : (m.after c).Filed where
  serviceType uuid := by
    have h : IsUnder ServiceType.uuid uuid (m.serviceTypes uuid) := hm.serviceType uuid
    cases c with
    | insertServiceType t => exact h.insert t
    | updateServiceType t => exact h.replace t
    | deleteServiceType k => exact h.erase k
    | _ => exact h
  binding uuid := by
    have h : IsUnder Binding.uuid uuid (m.bindings uuid) := hm.binding uuid
    cases c with
    | insertBinding b => exact h.insert b
    | updateBinding b => exact h.replace b
    | stampBinding k time =>
      have hstamp (b : Binding) : ({ b with lastAuth := time } : Binding).uuid = b.uuid := rfl
      exact h.modify hstamp k
    | deleteBinding k => exact h.erase k
    | deleteBindingsOf serviceUuid => exact h.filter _
    | _ => exact h
  authMethod uuid := by
    have h : IsUnder AuthMethodRecord.uuid uuid (m.authMethods uuid) := hm.authMethod uuid
    cases c with
    | insertAuthMethod r => exact h.insert r
    | updateAuthMethod r => exact h.replace r
    | deleteAuthMethod k => exact h.erase k
    | deleteAuthMethodsOf serviceUuid => exact h.filter _
    | _ => exact h

theorem Filed.calls {m : Maps} (hm : m.Filed) (calls : List StoreCall) :
    (calls.foldl Maps.after m).Filed := by
  induction calls generalizing m with
  | nil => exact hm
  | cons c calls ih => exact ih (hm.after c)

structure Finite (m : Maps) : Prop where
  serviceTypes : {uuid | (m.serviceTypes uuid).isSome}.Finite
  bindings : {uuid | (m.bindings uuid).isSome}.Finite
  authMethods : {uuid | (m.authMethods uuid).isSome}.Finite

structure SameUnder (m n : Maps) (uuid : String) : Prop where
  serviceType : m.serviceTypes uuid = n.serviceTypes uuid
  binding : m.bindings uuid = n.bindings uuid
  authMethod : m.authMethods uuid = n.authMethods uuid

/-- The records of a map that have a property, each once and in an order. -/
structure Lists {α : Type} (m : String → Option α) (P : α → Prop) (le : α → α → Prop)
    (as : List α) : Prop where
  mem_iff : ∀ a, a ∈ as ↔ (∃ uuid, m uuid = some a) ∧ P a
  nodup : as.Nodup
  pairwise : as.Pairwise le

def outcome {α : Type} (what uuid : String) : Option α → Result Unit
  | some _ => .ok ()
  | none => .error (.database s!"{what} with uuid {uuid} does not exist")

/-- What a call answers. A criterion that is left open is one that every record meets. -/
def Answers (m : Maps) : (c : StoreCall) → c.Answer → Prop
  | .serviceTypesNamed name, ts =>
    Lists m.serviceTypes (fun t ↦ ∀ n ∈ name, t.name = n) (fun t u ↦ t.name ≤ u.name) ts
  | .serviceTypesWithUuid uuid, ts =>
    Lists m.serviceTypes (fun t ↦ t.uuid = uuid) (fun t u ↦ t.name ≤ u.name) ts
  | .bindingsAt serviceUuid host, bs =>
    Lists m.bindings (fun b ↦ (∀ u ∈ serviceUuid, b.serviceUuid = u) ∧ ∀ h ∈ host, b.host = h)
      (fun b c ↦ b.name ≤ c.name) bs
  | .bindingsWithIdentity id, bs =>
    Lists m.bindings (fun b ↦ b.identity = id) (fun b c ↦ b.name ≤ c.name) bs
  | .bindingsWith uuid name, bs =>
    Lists m.bindings (fun b ↦ (∀ u ∈ uuid, b.uuid = u) ∧ ∀ n ∈ name, b.name = n)
      (fun b c ↦ b.name ≤ c.name) bs
  | .authMethodsWith f, rs =>
    Lists m.authMethods
      (fun r ↦ (∀ u ∈ f.serviceUuid, r.serviceUuid = u) ∧ (∀ h ∈ f.host, r.host = h) ∧
        ∀ k ∈ f.kind, r.kind = k)
      (fun q r ↦ q.serviceUuid < r.serviceUuid ∨ q.serviceUuid = r.serviceUuid ∧ q.host ≤ r.host) rs
  | .updateServiceType t, x => x = outcome "Service type" t.uuid (m.serviceTypes t.uuid)
  | .updateBinding b, x => x = outcome "Binding" b.uuid (m.bindings b.uuid)
  | .stampBinding uuid _, x => x = outcome "Binding" uuid (m.bindings uuid)
  | .updateAuthMethod r, x => x = outcome "Auth method" r.uuid (m.authMethods r.uuid)
  | _, _ => True

theorem after_sameUnder {m : Maps} {c : StoreCall} {uuid k : String} (h : uuid ∈ c.target?)
    (hk : k ≠ uuid) : (m.after c).SameUnder m k := by
  cases c <;> cases h <;>
    first
    | exact ⟨if_neg hk.symm, rfl, rfl⟩
    | exact ⟨rfl, if_neg hk.symm, rfl⟩
    | exact ⟨rfl, rfl, if_neg hk.symm⟩

end Maps

namespace Store

def maps (s : Store) : Maps := ⟨s.serviceTypes.get?, s.bindings.get?, s.authMethods.get?⟩

variable {α : Type} {key : α → String} {s : Store} {c : StoreCall}

theorem maps_ofSeed (seed : Seed) : (ofSeed seed).maps = Maps.ofSeed seed := by
  simp only [maps, ofSeed, Maps.ofSeed, funext (Keyed.get?_ofList _)]

theorem filed_maps (s : Store) : s.maps.Filed where
  serviceType _ _ h := (Keyed.get?_eq_some_iff.1 h).2
  binding _ _ h := (Keyed.get?_eq_some_iff.1 h).2
  authMethod _ _ h := (Keyed.get?_eq_some_iff.1 h).2

theorem finite_keys (col : Keyed key) : {k | (col.get? k).isSome}.Finite := by
  refine (col.toList.map key).finite_toSet.subset fun k hk ↦ ?_
  obtain ⟨a, ha⟩ := Option.isSome_iff_exists.1 hk
  obtain ⟨hm, rfl⟩ := Keyed.get?_eq_some_iff.1 ha
  exact List.mem_map_of_mem hm

theorem finite_maps (s : Store) : s.maps.Finite :=
  ⟨finite_keys s.serviceTypes, finite_keys s.bindings, finite_keys s.authMethods⟩

theorem attempt_replace (col : Keyed key) (put : Keyed key → Store) (what : String) (a : α) :
    StoreCall.attempt (put col)
        (if col.contains (key a) then pure (put (col.insert a)) else throw (missing what (key a))) =
      (Maps.outcome what (key a) (col.get? (key a)),
        put (if col.contains (key a) then col.insert a else col)) := by
  rw [Keyed.contains_eq_isSome]
  cases col.get? (key a) <;> rfl

theorem get?_touched (s : Store) (k time uuid : String) :
    (s.touched k time).bindings.get? uuid =
      (StoreCall.stampBinding k time).bindingUnder uuid (s.bindings.get? uuid) := by
  rw [touched, Keyed.get?_modify, StoreCall.bindingUnder]
  cases h : s.bindings.get? uuid with
  | none => split <;> rfl
  | some b =>
    obtain ⟨-, rfl⟩ := Keyed.get?_eq_some_iff.1 h
    rw [Option.map_some, Option.map_some, Binding.touched, eq_comm]
    split
    · next hk => rw [if_pos hk.symm]
    · next hk => rw [if_neg (Ne.symm hk)]

theorem get?_serviceTypes_apply (s : Store) (c : StoreCall) (uuid : String) :
    (c.apply s).2.serviceTypes.get? uuid = c.serviceTypeUnder uuid (s.serviceTypes.get? uuid) := by
  by_cases h : c.collection = .serviceTypes
  · cases c with
    | insertServiceType t => exact Keyed.get?_insert _ _ _
    | updateServiceType t =>
      have hr := attempt_replace s.serviceTypes (fun x ↦ { s with serviceTypes := x }) "Service type" t
      exact (congrArg (fun x ↦ x.2.serviceTypes.get? uuid) hr).trans (Keyed.get?_replace _ _ _)
    | deleteServiceType k => exact Keyed.get?_erase _ _ _
    | _ => first | rfl | cases h
  · have hs : (c.apply s).2.serviceTypes = s.serviceTypes := StoreCall.sameAt_apply h
    rw [hs, StoreCall.serviceTypeUnder_of_collection_ne h]

theorem get?_bindings_apply (s : Store) (c : StoreCall) (uuid : String) :
    (c.apply s).2.bindings.get? uuid = c.bindingUnder uuid (s.bindings.get? uuid) := by
  by_cases h : c.collection = .bindings
  · cases c with
    | insertBinding b => exact Keyed.get?_insert _ _ _
    | updateBinding b =>
      have hr := attempt_replace s.bindings (fun x ↦ { s with bindings := x }) "Binding" b
      exact (congrArg (fun x ↦ x.2.bindings.get? uuid) hr).trans (Keyed.get?_replace _ _ _)
    | stampBinding k time =>
      rw [StoreCall.apply_stampBinding]
      exact get?_touched s k time uuid
    | deleteBinding k => exact Keyed.get?_erase _ _ _
    | deleteBindingsOf serviceUuid => exact Keyed.get?_filter _ _ _
    | _ => first | rfl | cases h
  · have hs : (c.apply s).2.bindings = s.bindings := StoreCall.sameAt_apply h
    rw [hs, StoreCall.bindingUnder_of_collection_ne h]

theorem get?_authMethods_apply (s : Store) (c : StoreCall) (uuid : String) :
    (c.apply s).2.authMethods.get? uuid = c.authMethodUnder uuid (s.authMethods.get? uuid) := by
  by_cases h : c.collection = .authMethods
  · cases c with
    | insertAuthMethod r => exact Keyed.get?_insert _ _ _
    | updateAuthMethod r =>
      have hr := attempt_replace s.authMethods (fun x ↦ { s with authMethods := x }) "Auth method" r
      exact (congrArg (fun x ↦ x.2.authMethods.get? uuid) hr).trans (Keyed.get?_replace _ _ _)
    | deleteAuthMethod k => exact Keyed.get?_erase _ _ _
    | deleteAuthMethodsOf serviceUuid => exact Keyed.get?_filter _ _ _
    | _ => first | rfl | cases h
  · have hs : (c.apply s).2.authMethods = s.authMethods := StoreCall.sameAt_apply h
    rw [hs, StoreCall.authMethodUnder_of_collection_ne h]

theorem maps_apply (s : Store) (c : StoreCall) : (c.apply s).2.maps = s.maps.after c := by
  simp only [maps, Maps.after, funext (get?_serviceTypes_apply s c), funext (get?_bindings_apply s c),
    funext (get?_authMethods_apply s c)]

theorem maps_calls (s : Store) (calls : List StoreCall) :
    (calls.foldl (fun s c ↦ (c.apply s).2) s).maps = calls.foldl Maps.after s.maps := by
  induction calls generalizing s with
  | nil => rfl
  | cons c calls ih => rw [List.foldl_cons, List.foldl_cons, ih, maps_apply]

theorem agrees_iff {wanted : Option String} {value : String} :
    agrees wanted value = true ↔ ∀ w ∈ wanted, value = w := by
  cases wanted with
  | none => simp
  | some w => simp

theorem lists_sortedBy {col : Keyed key} {p : α → Bool} {P : α → Prop} {le : α → α → Bool}
    {r : α → α → Prop} (hp : ∀ a, p a = true ↔ P a) (hr : ∀ a b, le a b = true ↔ r a b)
    (htrans : ∀ a b c, r a b → r b c → r a c) (htotal : ∀ a b, r a b ∨ r b a) :
    Maps.Lists col.get? P r (col.sortedBy p le) where
  mem_iff a := by
    rw [Keyed.mem_sortedBy, hp]
    refine and_congr_left fun _ ↦ ⟨fun ha ↦ ⟨key a, Keyed.get?_eq_some_iff.2 ⟨ha, rfl⟩⟩, ?_⟩
    rintro ⟨uuid, ha⟩
    exact (Keyed.get?_eq_some_iff.1 ha).1
  nodup := Keyed.nodup_sortedBy
  pairwise := by
    have hle : ∀ a b, (le a b || le b a) = true := by simpa only [Bool.or_eq_true, hr] using htotal
    have hs := Keyed.pairwise_sortedBy (s := col) (p := p) (by simpa only [hr] using htrans) hle
    exact hs.imp fun h ↦ (hr _ _).1 h

theorem lists_byText {col : Keyed key} {p : α → Bool} {P : α → Prop} (name : α → String)
    (hp : ∀ a, p a = true ↔ P a) :
    Maps.Lists col.get? P (fun a b ↦ name a ≤ name b)
      (col.sortedBy p fun a b ↦ name a ≤ name b) :=
  lists_sortedBy hp (fun _ _ ↦ decide_eq_true_iff) (fun _ _ _ ↦ String.le_trans)
    fun _ _ ↦ String.le_total _ _

theorem byPlace_iff (q r : AuthMethodRecord) : byPlace q r = true ↔
    q.serviceUuid < r.serviceUuid ∨ q.serviceUuid = r.serviceUuid ∧ q.host ≤ r.host := by
  simp [byPlace]

theorem lists_byPlace {col : Keyed AuthMethodRecord.uuid} {p : AuthMethodRecord → Bool}
    {P : AuthMethodRecord → Prop} (hp : ∀ a, p a = true ↔ P a) :
    Maps.Lists col.get? P
      (fun q r ↦ q.serviceUuid < r.serviceUuid ∨ q.serviceUuid = r.serviceUuid ∧ q.host ≤ r.host)
      (col.sortedBy p byPlace) := by
  refine lists_sortedBy hp byPlace_iff ?_ fun q r ↦ ?_
  · rintro q r t (h | ⟨h, hq⟩) (h' | ⟨h', hr⟩)
    · exact .inl (String.lt_trans h h')
    · exact .inl (h' ▸ h)
    · exact .inl (h ▸ h')
    · exact .inr ⟨h.trans h', String.le_trans hq hr⟩
  · by_cases h : q.serviceUuid < r.serviceUuid
    · exact .inl (.inl h)
    by_cases h' : r.serviceUuid < q.serviceUuid
    · exact .inr (.inl h')
    have he : q.serviceUuid = r.serviceUuid :=
      String.le_antisymm (String.not_lt.1 h') (String.not_lt.1 h)
    exact (String.le_total q.host r.host).imp (fun hq ↦ .inr ⟨he, hq⟩) fun hr ↦ .inr ⟨he.symm, hr⟩

theorem lists_get? (col : Keyed key) (k : String) (r : α → α → Prop) :
    Maps.Lists col.get? (fun a ↦ key a = k) r (col.get? k).toList where
  mem_iff a := by
    rw [Option.mem_toList]
    constructor
    · exact fun h ↦ ⟨⟨k, h⟩, (Keyed.get?_eq_some_iff.1 h).2⟩
    · rintro ⟨⟨j, h⟩, rfl⟩
      rwa [(Keyed.get?_eq_some_iff.1 h).2]
  nodup := by cases col.get? k <;> simp
  pairwise := by cases col.get? k <;> simp

theorem answers_apply (s : Store) (c : StoreCall) : s.maps.Answers c (c.apply s).1 := by
  cases c with
  | serviceTypesNamed name => exact lists_byText _ fun _ ↦ agrees_iff
  | serviceTypesWithUuid uuid => exact lists_get? _ _ _
  | bindingsAt serviceUuid host =>
    exact lists_byText _ fun _ ↦ by rw [Bool.and_eq_true, agrees_iff, agrees_iff]
  | bindingsWithIdentity id => exact lists_byText _ fun _ ↦ beq_iff_eq
  | bindingsWith uuid name =>
    exact lists_byText _ fun _ ↦ by rw [Bool.and_eq_true, agrees_iff, agrees_iff]
  | authMethodsWith f =>
    exact lists_byPlace fun _ ↦ by
      rw [AuthMethodFilter.accepts, Bool.and_eq_true, Bool.and_eq_true, agrees_iff, agrees_iff, agrees_iff,
        and_assoc]
  | updateServiceType t =>
    exact congrArg Prod.fst (attempt_replace s.serviceTypes (fun x ↦ { s with serviceTypes := x }) _ t)
  | updateBinding b =>
    exact congrArg Prod.fst (attempt_replace s.bindings (fun x ↦ { s with bindings := x }) _ b)
  | stampBinding uuid time =>
    simp only [StoreCall.apply, stampBinding, Maps.Answers, maps]
    cases s.bindings.get? uuid <;> rfl
  | updateAuthMethod r =>
    exact congrArg Prod.fst (attempt_replace s.authMethods (fun x ↦ { s with authMethods := x }) _ r)
  | _ => trivial

theorem apply_of_refused (h : c.Refused (c.apply s).1) : (c.apply s).2 = s := by
  have hkeep : ∀ x : Result Store, (∃ e, (StoreCall.attempt s x).1 = .error e) →
      (StoreCall.attempt s x).2 = s := by
    rintro (e | t) ⟨e, he⟩
    · rfl
    · cases he
  cases c with
  | updateServiceType t => exact hkeep _ h
  | updateBinding b => exact hkeep _ h
  | stampBinding uuid time => exact hkeep _ h
  | updateAuthMethod r => exact hkeep _ h
  | _ => exact h.elim

theorem apply_apply_of_isDeletion (h : c.isDeletion = true) :
    (c.apply (c.apply s).2).2 = (c.apply s).2 := by
  cases c with
  | deleteServiceType k =>
    exact congrArg (fun x ↦ { s with serviceTypes := x }) (Keyed.filter_filter_self _ _)
  | deleteBinding k =>
    exact congrArg (fun x ↦ { s with bindings := x }) (Keyed.filter_filter_self _ _)
  | deleteBindingsOf k =>
    exact congrArg (fun x ↦ { s with bindings := x }) (Keyed.filter_filter_self _ _)
  | deleteAuthMethod k =>
    exact congrArg (fun x ↦ { s with authMethods := x }) (Keyed.filter_filter_self _ _)
  | deleteAuthMethodsOf k =>
    exact congrArg (fun x ↦ { s with authMethods := x }) (Keyed.filter_filter_self _ _)
  | _ => cases h

/-- Whatever calls are made, the store and the maps keep in step, and each further call answers by the
maps. A refused call changes nothing, one call changes one collection, one that is about a single record
changes no other, and a deletion may be repeated. -/
theorem refines_maps (seed : Seed) (calls : List StoreCall) :
    let s := calls.foldl (fun s c ↦ (c.apply s).2) (ofSeed seed)
    let m := calls.foldl Maps.after (Maps.ofSeed seed)
    s.maps = m ∧ m.Filed ∧ m.Finite ∧ ∀ c : StoreCall,
      (c.apply s).2.maps = m.after c ∧
      m.Answers c (c.apply s).1 ∧
      (c.Refused (c.apply s).1 → (c.apply s).2 = s) ∧
      (∀ k, c.collection ≠ k → (c.apply s).2.SameAt s k) ∧
      (∀ uuid ∈ c.target?, ∀ k ≠ uuid, (m.after c).SameUnder m k) ∧
      (c.isDeletion → (c.apply (c.apply s).2).2 = (c.apply s).2) := by
  intro s m
  have hm : s.maps = m := by rw [maps_calls, maps_ofSeed]
  refine ⟨hm, (Maps.filed_ofSeed seed).calls calls, hm ▸ s.finite_maps, fun c ↦ ?_⟩
  refine ⟨hm ▸ s.maps_apply c, hm ▸ s.answers_apply c, apply_of_refused, ?_, ?_, apply_apply_of_isDeletion⟩
  · exact fun k hk ↦ StoreCall.sameAt_apply hk
  · exact fun uuid hu k hk ↦ Maps.after_sameUnder hu hk

end Store

end CertGate
