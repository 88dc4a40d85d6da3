import CertGate.Program
import CertGate.Proofs.Store

namespace CertGate

inductive Collection where
  | serviceTypes
  | bindings
  | authMethods
  deriving DecidableEq

def Store.SameAt (s t : Store) : Collection → Prop
  | .serviceTypes => s.serviceTypes = t.serviceTypes
  | .bindings => s.bindings = t.bindings
  | .authMethods => s.authMethods = t.authMethods

namespace Store

variable {s t u : Store} {k : Collection}

theorem SameAt.symm (h : s.SameAt t k) : t.SameAt s k := by
  cases k <;> exact Eq.symm h

theorem SameAt.trans (h : s.SameAt t k) (h' : t.SameAt u k) : s.SameAt u k := by
  cases k <;> exact Eq.trans h h'

theorem ext_sameAt (h : ∀ k, s.SameAt t k) : s = t := by
  obtain ⟨a, b, c⟩ := s
  obtain ⟨a', b', c'⟩ := t
  obtain rfl : a = a' := h .serviceTypes
  obtain rfl : b = b' := h .bindings
  obtain rfl : c = c' := h .authMethods
  rfl

end Store

namespace StoreCall

def collection : StoreCall → Collection
  | serviceTypesNamed _ | serviceTypesWithUuid _ | insertServiceType _ | updateServiceType _
  | deleteServiceType _ => .serviceTypes
  | bindingsAt .. | bindingsWithIdentity _ | bindingsWith .. | insertBinding _ | updateBinding _
  | stampBinding .. | deleteBinding _ | deleteBindingsOf _ => .bindings
  | authMethodsWith _ | insertAuthMethod _ | updateAuthMethod _ | deleteAuthMethod _
  | deleteAuthMethodsOf _ => .authMethods

def isQuery : StoreCall → Bool
  | serviceTypesNamed _ | serviceTypesWithUuid _ | bindingsAt .. | bindingsWithIdentity _
  | bindingsWith .. | authMethodsWith _ => true
  | _ => false

variable {c d : StoreCall} {s t : Store} {k : Collection}

theorem apply_of_isQuery (h : c.isQuery = true) : (c.apply s).2 = s := by
  cases c <;> first | rfl | cases h

theorem sameAt_apply (h : c.collection ≠ k) : (c.apply s).2.SameAt s k := by
  cases c with
  | updateServiceType t =>
    cases k <;> first | exact absurd rfl h | (simp only [apply, Store.updateServiceType]; split <;> rfl)
  | updateBinding b =>
    cases k <;> first | exact absurd rfl h | (simp only [apply, Store.updateBinding]; split <;> rfl)
  | stampBinding uuid time =>
    cases k <;> first | exact absurd rfl h | (simp only [apply, Store.stampBinding]; split <;> rfl)
  | updateAuthMethod r =>
    cases k <;> first | exact absurd rfl h | (simp only [apply, Store.updateAuthMethod]; split <;> rfl)
  | _ => cases k <;> first | exact absurd rfl h | rfl

theorem apply_congr (h : s.SameAt t c.collection) :
    (c.apply s).1 = (c.apply t).1 ∧ (c.apply s).2.SameAt (c.apply t).2 c.collection := by
  obtain ⟨a, b, m⟩ := s
  obtain ⟨a', b', m'⟩ := t
  cases c <;>
    first
    | obtain rfl : a = a' := h
    | obtain rfl : b = b' := h
    | obtain rfl : m = m' := h
  all_goals
    first
    | exact ⟨rfl, rfl⟩
    | simp only [apply, Store.updateServiceType, Store.updateBinding, Store.stampBinding,
        Store.updateAuthMethod]
      split <;> exact ⟨rfl, rfl⟩

theorem apply_sameAt (h : s.SameAt t k) : (c.apply s).2.SameAt (c.apply t).2 k := by
  by_cases hk : c.collection = k
  · subst hk
    exact (apply_congr h).2
  · exact ((sameAt_apply hk).trans h).trans (sameAt_apply hk).symm

theorem apply_comm_of_collection_ne (h : c.collection ≠ d.collection) (s : Store) :
    (c.apply (d.apply s).2).1 = (c.apply s).1 ∧ (d.apply (c.apply s).2).1 = (d.apply s).1 ∧
      (c.apply (d.apply s).2).2 = (d.apply (c.apply s).2).2 := by
  refine ⟨(apply_congr (sameAt_apply h.symm)).1, (apply_congr (sameAt_apply h)).1,
    Store.ext_sameAt fun k ↦ ?_⟩
  by_cases hk : c.collection = k
  · have hd : d.collection ≠ k := hk ▸ h.symm
    exact (apply_sameAt (sameAt_apply hd)).trans (sameAt_apply hd).symm
  · exact (sameAt_apply hk).trans (apply_sameAt (sameAt_apply hk)).symm

end StoreCall

namespace Binding

def unstamped (b : Binding) : Binding := { b with lastAuth := "" }

def touched (uuid time : String) (b : Binding) : Binding :=
  if b.uuid = uuid then { b with lastAuth := time } else b

variable {uuid time : String} {b : Binding}

@[simp] theorem touched_uuid : (b.touched uuid time).uuid = b.uuid := by
  unfold touched
  split <;> rfl

@[simp] theorem touched_serviceUuid : (b.touched uuid time).serviceUuid = b.serviceUuid := by
  unfold touched
  split <;> rfl

@[simp] theorem touched_host : (b.touched uuid time).host = b.host := by
  unfold touched
  split <;> rfl

@[simp] theorem touched_name : (b.touched uuid time).name = b.name := by
  unfold touched
  split <;> rfl

@[simp] theorem touched_identity : (b.touched uuid time).identity = b.identity := by
  unfold touched
  split <;> rfl

@[simp] theorem unstamped_touched : (b.touched uuid time).unstamped = b.unstamped := by
  unfold touched
  split <;> rfl

end Binding

def Store.touched (s : Store) (uuid time : String) : Store :=
  { s with bindings := s.bindings.modify (Binding.touched uuid time) fun _ ↦ Binding.touched_uuid }

namespace StoreCall

theorem apply_stampBinding (uuid time : String) (s : Store) :
    ((stampBinding uuid time).apply s).2 = s.touched uuid time := by
  rw [Store.touched]
  cases h : s.bindings.get? uuid with
  | none =>
    have hb : ∀ b ∈ s.bindings.toList, b.touched uuid time = id b := fun b hb ↦
      if_neg (Keyed.get?_eq_none_iff.1 h b hb)
    have hm : s.bindings.modify (Binding.touched uuid time) (fun _ ↦ Binding.touched_uuid) = s.bindings :=
      Keyed.ext ((List.map_congr_left hb).trans (List.map_id _))
    rw [hm, apply, Store.stampBinding, h]
    rfl
  | some b =>
    obtain ⟨hb, rfl⟩ := Keyed.get?_eq_some_iff.1 h
    have hf : ∀ c : Binding, (c.touched b.uuid time).uuid = c.uuid := fun _ ↦ Binding.touched_uuid
    have hi := Keyed.insert_eq_modify hf hb fun c _ hc ↦ if_neg hc
    have ht : b.touched b.uuid time = { b with lastAuth := time } := if_pos rfl
    rw [← hi, ht, apply, Store.stampBinding, h]
    rfl

end StoreCall

inductive Move where
  | look (k : Collection)
  /-- A query of bindings by a request that does not mind when they were last used. -/
  | glance
  | change (k : Collection)
  | stamp
  | removeBindings
  deriving DecidableEq

namespace Move

def collection : Move → Collection
  | look k | change k => k
  | glance | stamp | removeBindings => .bindings

def isLook : Move → Bool
  | look _ | glance => true
  | _ => false

/-- Moves at one collection that do not get in the way of each other, although one is a change. -/
def tolerates : Move → Move → Bool
  | glance, stamp | stamp, glance | stamp, removeBindings | removeBindings, stamp
  | removeBindings, removeBindings => true
  | _, _ => false

def conflicts (m n : Move) : Bool :=
  m.collection == n.collection && !(m.isLook && n.isLook) && !m.tolerates n

theorem conflicts_comm (m n : Move) : m.conflicts n = n.conflicts m := by
  have hc : (m.collection == n.collection) = (n.collection == m.collection) := BEq.comm
  have hl : (m.isLook && n.isLook) = (n.isLook && m.isLook) := Bool.and_comm _ _
  have ht : m.tolerates n = n.tolerates m := by cases m <;> cases n <;> rfl
  rw [conflicts, conflicts, hc, hl, ht]

/-- Whether a call is one of the move. -/
def Covers : Move → StoreCall → Prop
  | look k, c => c.isQuery = true ∧ c.collection = k
  | glance, c => c.isQuery = true ∧ c.collection = .bindings
  | change k, c => c.collection = k
  | stamp, c => ∃ uuid time, c = .stampBinding uuid time
  | removeBindings, c => ∃ uuid, c = .deleteBinding uuid ∨ c = .deleteBindingsOf uuid

theorem Covers.collection_eq {m : Move} {c : StoreCall} (h : m.Covers c) : c.collection = m.collection := by
  cases m with
  | look k => exact h.2
  | glance => exact h.2
  | change k => exact h
  | stamp => obtain ⟨uuid, time, rfl⟩ := h; rfl
  | removeBindings => obtain ⟨uuid, rfl | rfl⟩ := h <;> rfl

theorem Covers.isQuery {m : Move} {c : StoreCall} (h : m.Covers c) (hm : m.isLook = true) :
    c.isQuery = true := by
  cases m with
  | look k => exact h.1
  | glance => exact h.1
  | _ => cases hm

/-- Whether two answers to a call are the same to a request that makes the move. -/
def Alike : Move → (c : StoreCall) → c.Answer → c.Answer → Prop
  | stamp, _, _, _ => True
  | glance, .bindingsAt _ _, as, bs => List.map Binding.unstamped as = List.map Binding.unstamped bs
  | glance, .bindingsWithIdentity _, as, bs =>
    List.map Binding.unstamped as = List.map Binding.unstamped bs
  | glance, .bindingsWith _ _, as, bs =>
    List.map Binding.unstamped as = List.map Binding.unstamped bs
  | _, _, a, b => a = b

theorem alike_of_eq {m : Move} {c : StoreCall} {a b : c.Answer} (h : a = b) : m.Alike c a b := by
  subst h
  unfold Alike
  split <;> trivial

structure Commutes (m n : Move) (c d : StoreCall) (s : Store) : Prop where
  left : m.Alike c (c.apply (d.apply s).2).1 (c.apply s).1
  right : n.Alike d (d.apply (c.apply s).2).1 (d.apply s).1
  store : (c.apply (d.apply s).2).2 = (d.apply (c.apply s).2).2

variable {m n : Move} {c d : StoreCall} {s : Store}

theorem Commutes.symm (h : Commutes m n c d s) : Commutes n m d c s := ⟨h.right, h.left, h.store.symm⟩

theorem commutes_of_collection_ne (h : c.collection ≠ d.collection) : Commutes m n c d s := by
  obtain ⟨hc, hd, hs⟩ := StoreCall.apply_comm_of_collection_ne h s
  exact ⟨alike_of_eq hc, alike_of_eq hd, hs⟩

theorem commutes_of_isQuery (hc : c.isQuery = true) (hd : d.isQuery = true) : Commutes m n c d s where
  left := alike_of_eq (by rw [StoreCall.apply_of_isQuery hd])
  right := alike_of_eq (by rw [StoreCall.apply_of_isQuery hc])
  store := by rw [StoreCall.apply_of_isQuery hd, StoreCall.apply_of_isQuery hc,
    StoreCall.apply_of_isQuery hd]

theorem commutes_glance_stamp (hc : glance.Covers c) (hd : stamp.Covers d) :
    Commutes glance stamp c d s := by
  obtain ⟨hq, hk⟩ := hc
  obtain ⟨uuid, time, rfl⟩ := hd
  refine ⟨?_, trivial, by rw [StoreCall.apply_of_isQuery hq, StoreCall.apply_of_isQuery hq]⟩
  rw [StoreCall.apply_stampBinding, Store.touched]
  have hf : ∀ b : Binding, (b.touched uuid time).uuid = b.uuid := fun _ ↦ Binding.touched_uuid
  have hu : ∀ b : Binding, (b.touched uuid time).unstamped = b.unstamped :=
    fun _ ↦ Binding.unstamped_touched
  have hle : ∀ a b : Binding, Store.byBindingName (a.touched uuid time) (b.touched uuid time) =
      Store.byBindingName a b := fun _ _ ↦ by simp [Store.byBindingName]
  cases c with
  | bindingsAt serviceUuid host => exact Keyed.map_sortedBy_modify hf hu (fun _ ↦ by simp) hle
  | bindingsWithIdentity id => exact Keyed.map_sortedBy_modify hf hu (fun _ ↦ by simp) hle
  | bindingsWith uuid name => exact Keyed.map_sortedBy_modify hf hu (fun _ ↦ by simp) hle
  | _ => simp_all [StoreCall.isQuery, StoreCall.collection]

theorem Covers.exists_filter (h : removeBindings.Covers c) :
    ∃ p : Binding → Bool, (∀ b uuid time, p (b.touched uuid time) = p b) ∧
      ∀ s, (c.apply s).2 = { s with bindings := s.bindings.filter p } := by
  obtain ⟨uuid, rfl | rfl⟩ := h
  · exact ⟨(·.uuid != uuid), by simp, fun _ ↦ rfl⟩
  · exact ⟨(·.serviceUuid != uuid), by simp, fun _ ↦ rfl⟩

theorem Covers.alike (h : removeBindings.Covers c) (a b : c.Answer) : removeBindings.Alike c a b := by
  obtain ⟨uuid, rfl | rfl⟩ := h <;> rfl

theorem commutes_stamp_removeBindings (hc : stamp.Covers c) (hd : removeBindings.Covers d) :
    Commutes stamp removeBindings c d s := by
  obtain ⟨uuid, time, rfl⟩ := hc
  obtain ⟨p, hp, hs⟩ := hd.exists_filter
  refine ⟨trivial, hd.alike _ _, ?_⟩
  simp only [hs, StoreCall.apply_stampBinding, Store.touched, Keyed.filter_modify _ fun b ↦ hp b uuid time]

theorem commutes_removeBindings (hc : removeBindings.Covers c) (hd : removeBindings.Covers d) :
    Commutes removeBindings removeBindings c d s := by
  obtain ⟨p, -, hp⟩ := hc.exists_filter
  obtain ⟨q, -, hq⟩ := hd.exists_filter
  refine ⟨hc.alike _ _, hd.alike _ _, ?_⟩
  have h : (s.bindings.filter q).filter p = (s.bindings.filter p).filter q :=
    Keyed.ext_mem fun b ↦ by simp only [Keyed.mem_filter, and_right_comm]
  simp only [hp, hq, h]

/-- Calls that do not get in the way of each other may change places at every store. -/
theorem commutes (hc : m.Covers c) (hd : n.Covers d) (h : m.conflicts n = false) (s : Store) :
    Commutes m n c d s := by
  by_cases hk : c.collection = d.collection
  · rw [hc.collection_eq, hd.collection_eq] at hk
    simp only [conflicts, hk, beq_self_eq_true, Bool.true_and, Bool.and_eq_false_iff,
      Bool.not_eq_false', Bool.and_eq_true] at h
    rcases h with ⟨hm, hn⟩ | ht
    · exact commutes_of_isQuery (hc.isQuery hm) (hd.isQuery hn)
    · cases m <;> cases n <;> simp only [tolerates, Bool.false_eq_true] at ht
      · exact commutes_glance_stamp hc hd
      · exact (commutes_glance_stamp hd hc).symm
      · exact commutes_stamp_removeBindings hc hd
      · exact (commutes_stamp_removeBindings hd hc).symm
      · exact commutes_removeBindings hc hd
  · exact commutes_of_collection_ne hk

end Move

end CertGate
