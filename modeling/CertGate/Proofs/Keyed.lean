import CertGate.Keyed
import Mathlib.Data.List.Induction
import Mathlib.Data.List.Nodup

namespace CertGate.Keyed

variable {α : Type} {key : α → String} {s t : Keyed key} {a b : α} {k : String}

theorem nodup_toList (s : Keyed key) : s.toList.Nodup :=
  List.Pairwise.imp (fun h ↦ by rintro rfl; exact String.lt_irrefl _ h) s.sorted

theorem eq_of_key_eq (ha : a ∈ s.toList) (hb : b ∈ s.toList) (h : key a = key b) : a = b := by
  obtain ⟨as, hs⟩ := s
  change a ∈ as at ha
  change b ∈ as at hb
  induction as with
  | nil => simp at ha
  | cons c cs ih =>
    rw [List.pairwise_cons] at hs
    rcases List.mem_cons.1 ha with hac | hac <;> rcases List.mem_cons.1 hb with hbc | hbc
    · exact hac.trans hbc.symm
    · exact absurd (hs.1 b hbc) (h ▸ hac ▸ String.lt_irrefl _)
    · exact absurd (hs.1 a hac) (h ▸ hbc ▸ String.lt_irrefl _)
    · exact ih hs.2 hac hbc

theorem get?_eq_some_iff : s.get? k = some a ↔ a ∈ s.toList ∧ key a = k := by
  constructor
  · intro h
    exact ⟨List.mem_of_find?_eq_some h, by simpa using List.find?_some h⟩
  · rintro ⟨ha, rfl⟩
    obtain ⟨b, hb⟩ : ∃ b, s.get? (key a) = some b := by
      cases h : s.get? (key a) with
      | some b => exact ⟨b, rfl⟩
      | none =>
        rw [get?, List.find?_eq_none] at h
        exact absurd (beq_self_eq_true (key a)) (h a ha)
    have hk : key b = key a := by simpa using List.find?_some hb
    rw [hb, eq_of_key_eq (List.mem_of_find?_eq_some hb) ha hk]

theorem get?_eq_none_iff : s.get? k = none ↔ ∀ a ∈ s.toList, key a ≠ k := by
  simp [get?]

theorem contains_iff : s.contains k = true ↔ ∃ a ∈ s.toList, key a = k := by
  simp [contains]

theorem mem_insertSorted_iff {bs : List α} (h : bs.Pairwise fun a b ↦ key a < key b) :
    b ∈ insertSorted key a bs ↔ b = a ∨ b ∈ bs ∧ key b ≠ key a := by
  induction bs with
  | nil => simp [insertSorted]
  | cons c bs ih =>
    rw [List.pairwise_cons] at h
    unfold insertSorted
    split
    · next hlt =>
      have hne : ∀ d ∈ c :: bs, key d ≠ key a := by
        intro d hd he
        rcases List.mem_cons.1 hd with rfl | hd
        · exact String.lt_irrefl _ (he ▸ hlt)
        · exact String.lt_irrefl _ (String.lt_trans hlt (he ▸ h.1 d hd))
      grind
    · split
      · next heq =>
        have hne : ∀ d ∈ bs, key d ≠ key a := by
          intro d hd he
          exact String.lt_irrefl _ (he ▸ heq ▸ h.1 d hd)
        grind
      · next hlt hne => grind

theorem mem_insert : b ∈ (s.insert a).toList ↔ b = a ∨ b ∈ s.toList ∧ key b ≠ key a :=
  mem_insertSorted_iff s.sorted

theorem forall_mem_insert {P : α → Prop} (ha : P a) (hs : ∀ b ∈ s.toList, P b) :
    ∀ b ∈ (s.insert a).toList, P b := by
  intro b hb
  rcases mem_insert.1 hb with rfl | ⟨hb, -⟩
  · exact ha
  · exact hs b hb

theorem exists_mem_insert (h : ∃ b ∈ s.toList, key b = k) : ∃ b ∈ (s.insert a).toList, key b = k := by
  obtain ⟨b, hb, rfl⟩ := h
  by_cases hk : key b = key a
  · exact ⟨a, mem_insert.2 (.inl rfl), hk.symm⟩
  · exact ⟨b, mem_insert.2 (.inr ⟨hb, hk⟩), rfl⟩

theorem mem_erase : b ∈ (s.erase k).toList ↔ b ∈ s.toList ∧ key b ≠ k := by
  simp [erase, filter]

theorem mem_filter {p : α → Bool} : b ∈ (s.filter p).toList ↔ b ∈ s.toList ∧ p b = true :=
  List.mem_filter

theorem forall_mem_filter {P : α → Prop} (hs : ∀ b ∈ s.toList, P b) (p : α → Bool) :
    ∀ b ∈ (s.filter p).toList, P b :=
  fun b hb ↦ hs b (mem_filter.1 hb).1

/-- No two values of a map agree on `f`. -/
def Separates {β : Type} (f : α → β) (s : Keyed key) : Prop :=
  ∀ a ∈ s.toList, ∀ b ∈ s.toList, f a = f b → a = b

namespace Separates

variable {β : Type} {f : α → β}

theorem empty : Separates f (∅ : Keyed key) := fun _ ha ↦ absurd ha List.not_mem_nil

theorem insert (h : Separates f s) (ha : ∀ b ∈ s.toList, f b = f a → key b = key a) :
    Separates f (s.insert a) := by
  intro b hb c hc hbc
  rcases mem_insert.1 hb with rfl | ⟨hbs, hkb⟩ <;> rcases mem_insert.1 hc with rfl | ⟨hcs, hkc⟩
  · rfl
  · exact absurd (ha c hcs hbc.symm) hkc
  · exact absurd (ha b hbs hbc) hkb
  · exact h b hbs c hcs hbc

theorem replace (h : Separates f s) (hb : b ∈ s.toList) (hk : key a = key b)
    (hf : f a ≠ f b → ∀ c ∈ s.toList, f c ≠ f a) : Separates f (s.insert a) := by
  refine h.insert fun c hc hca ↦ ?_
  by_cases hab : f a = f b
  · rw [h c hc b hb (hca.trans hab), hk]
  · exact absurd hca (hf hab c hc)

theorem nodup_map (h : Separates f s) : (s.toList.map f).Nodup := s.nodup_toList.map_on h

theorem filter (h : Separates f s) (p : α → Bool) : Separates f (s.filter p) :=
  fun a ha b hb ↦ h a (mem_filter.1 ha).1 b (mem_filter.1 hb).1

theorem erase (h : Separates f s) (k : String) : Separates f (s.erase k) := h.filter _

end Separates

theorem ext_mem (h : ∀ a, a ∈ s.toList ↔ a ∈ t.toList) : s = t := by
  refine ext (List.Perm.eq_of_pairwise (fun a b _ _ hab hba ↦ ?_) s.sorted t.sorted ?_)
  · exact absurd (String.lt_trans hab hba) (String.lt_irrefl _)
  · exact (List.perm_ext_iff_of_nodup s.nodup_toList t.nodup_toList).2 h

theorem insert_insert (h : key b = key a) : (s.insert a).insert b = s.insert b := by
  refine ext_mem fun c ↦ ?_
  simp only [mem_insert, h]
  constructor
  · rintro (hc | ⟨rfl | ⟨hc, hk⟩, hn⟩)
    · exact .inl hc
    · exact absurd rfl hn
    · exact .inr ⟨hc, hk⟩
  · rintro (hc | ⟨hc, hk⟩)
    · exact .inl hc
    · exact .inr ⟨.inr ⟨hc, hk⟩, hk⟩

theorem contains_eq_isSome : s.contains k = (s.get? k).isSome := by
  rw [Bool.eq_iff_iff, contains_iff, Option.isSome_iff_exists]
  simp only [get?_eq_some_iff]

theorem get?_insert (s : Keyed key) (a : α) (k : String) :
    (s.insert a).get? k = if key a = k then some a else s.get? k := by
  ext b
  rw [get?_eq_some_iff, mem_insert]
  split
  · next h =>
    rw [Option.some_inj]
    constructor
    · rintro ⟨rfl | ⟨hb, hn⟩, hk⟩
      · rfl
      · exact absurd (hk.trans h.symm) hn
    · rintro rfl
      exact ⟨.inl rfl, h⟩
  · next h =>
    rw [get?_eq_some_iff]
    constructor
    · rintro ⟨rfl | ⟨hb, hn⟩, hk⟩
      · exact absurd hk h
      · exact ⟨hb, hk⟩
    · rintro ⟨hb, rfl⟩
      exact ⟨.inr ⟨hb, Ne.symm h⟩, rfl⟩

theorem filter_filter_self (s : Keyed key) (p : α → Bool) : (s.filter p).filter p = s.filter p :=
  Keyed.ext (by simp [filter])

theorem get?_filter (s : Keyed key) (p : α → Bool) (k : String) :
    (s.filter p).get? k = (s.get? k).filter p := by
  ext b
  simp only [get?_eq_some_iff, mem_filter, Option.filter_eq_some_iff, and_right_comm]

theorem get?_erase (s : Keyed key) (j k : String) :
    (s.erase j).get? k = if j = k then none else s.get? k := by
  ext b
  rw [get?_eq_some_iff, mem_erase]
  split
  · next h => simp [h]
  · next h =>
    rw [get?_eq_some_iff]
    constructor
    · exact fun ⟨⟨hb, _⟩, hk⟩ ↦ ⟨hb, hk⟩
    · rintro ⟨hb, rfl⟩
      exact ⟨⟨hb, Ne.symm h⟩, rfl⟩

theorem get?_replace (s : Keyed key) (a : α) (k : String) :
    (if s.contains (key a) then s.insert a else s).get? k =
      if key a = k then (s.get? k).map fun _ ↦ a else s.get? k := by
  rw [contains_eq_isSome]
  cases h : s.get? (key a) with
  | none =>
    rw [Option.isSome_none, if_neg Bool.false_ne_true]
    split
    · next hk => rw [← hk, h, Option.map_none]
    · rfl
  | some b =>
    rw [Option.isSome_some, if_pos rfl, get?_insert]
    split
    · next hk => rw [← hk, h, Option.map_some]
    · rfl

theorem get?_ofList (as : List α) (k : String) :
    (ofList as : Keyed key).get? k = (as.filter (key · == k)).getLast? := by
  induction as using List.reverseRecOn with
  | nil => rfl
  | append_singleton as a ih =>
    have hl : (ofList (as ++ [a]) : Keyed key) = (ofList as).insert a := List.foldl_append
    rw [hl, get?_insert, List.filter_append, ih]
    by_cases h : key a = k <;> simp [h]

def modify (f : α → α) (hf : ∀ a, key (f a) = key a) (s : Keyed key) : Keyed key :=
  ⟨s.toList.map f, List.pairwise_map.2 (s.sorted.imp fun h ↦ by rwa [hf, hf])⟩

theorem get?_modify {f : α → α} (hf : ∀ a, key (f a) = key a) (k : String) :
    (s.modify f hf).get? k = (s.get? k).map f := by
  ext b
  simp only [get?_eq_some_iff, modify, List.mem_map, Option.map_eq_some_iff]
  constructor
  · rintro ⟨⟨a, ha, rfl⟩, hk⟩
    exact ⟨a, ⟨ha, (hf a).symm.trans hk⟩, rfl⟩
  · rintro ⟨a, ⟨ha, hk⟩, rfl⟩
    exact ⟨⟨a, ha, rfl⟩, (hf a).trans hk⟩

theorem filter_modify {f : α → α} (hf : ∀ a, key (f a) = key a) {p : α → Bool} (hp : ∀ a, p (f a) = p a) :
    (s.modify f hf).filter p = (s.filter p).modify f hf := by
  refine ext ?_
  have hc : p ∘ f = p := funext hp
  simp only [filter, modify, List.filter_map, hc]

theorem insert_eq_modify {f : α → α} (hf : ∀ a, key (f a) = key a) (ha : a ∈ s.toList)
    (hn : ∀ b ∈ s.toList, key b ≠ key a → f b = b) : s.insert (f a) = s.modify f hf := by
  refine ext_mem fun b ↦ ?_
  simp only [mem_insert, hf, modify, List.mem_map]
  constructor
  · rintro (rfl | ⟨hb, hk⟩)
    · exact ⟨a, ha, rfl⟩
    · exact ⟨b, hb, hn b hb hk⟩
  · rintro ⟨c, hc, rfl⟩
    by_cases hk : key c = key a
    · rw [eq_of_key_eq hc ha hk]
      exact .inl rfl
    · rw [hn c hc hk]
      exact .inr ⟨hc, hk⟩

end CertGate.Keyed
