import CertGate.Proofs.Keyed
import CertGate.Proofs.Result
import CertGate.Store

namespace CertGate

def IsOnly {α : Type} (P : α → Prop) (as : List α) (a : α) : Prop :=
  a ∈ as ∧ P a ∧ ∀ b ∈ as, P b → b = a

def Several {α : Type} (P : α → Prop) (as : List α) : Prop :=
  ∃ a ∈ as, ∃ b ∈ as, a ≠ b ∧ P a ∧ P b

variable {α : Type} {P : α → Prop} {as : List α} {a b : α}

theorem IsOnly.eq (ha : IsOnly P as a) (hb : IsOnly P as b) : a = b := hb.2.2 a ha.1 ha.2.1

theorem IsOnly.not_several (h : IsOnly P as a) : ¬ Several P as := by
  rintro ⟨b, hb, c, hc, hbc, hPb, hPc⟩
  exact hbc ((h.2.2 b hb hPb).trans (h.2.2 c hc hPc).symm)

theorem isOnly_singleton (h : P a) : IsOnly P [a] a :=
  ⟨List.mem_singleton_self a, h, fun _ hb _ ↦ List.mem_singleton.1 hb⟩

namespace Keyed

variable {key : α → String} {s : Keyed key} {p : α → Bool} {le : α → α → Bool}

theorem not_of_mem_erase (h : IsOnly P s.toList a) : ∀ b ∈ (s.erase (key a)).toList, ¬ P b := by
  intro b hb hP
  obtain ⟨hbs, hne⟩ := mem_erase.1 hb
  exact hne (congrArg key (h.2.2 b hbs hP))

theorem mem_sortedBy : a ∈ s.sortedBy p le ↔ a ∈ s.toList ∧ p a = true := by
  simp [sortedBy]

theorem sortedBy_perm (hp : ∀ a, p a = true) : (s.sortedBy p le).Perm s.toList := by
  rw [sortedBy, List.filter_eq_self.2 fun a _ ↦ hp a]
  exact List.mergeSort_perm _ _

theorem nodup_sortedBy : (s.sortedBy p le).Nodup :=
  (List.mergeSort_perm _ _).nodup_iff.2 (s.nodup_toList.filter _)

theorem pairwise_sortedBy (htrans : ∀ a b c, le a b → le b c → le a c)
    (htotal : ∀ a b, (le a b || le b a) = true) :
    (s.sortedBy p le).Pairwise fun a b ↦ le a b = true :=
  List.pairwise_mergeSort htrans htotal _

theorem sortedBy_eq_nil_iff : s.sortedBy p le = [] ↔ ∀ a ∈ s.toList, ¬ p a = true := by
  simp [List.eq_nil_iff_forall_not_mem, mem_sortedBy]

theorem sortedBy_eq_singleton_iff :
    s.sortedBy p le = [a] ↔ IsOnly (fun a ↦ p a = true) s.toList a := by
  constructor
  · intro h
    have hm : ∀ b, b ∈ s.toList ∧ p b = true ↔ b = a := fun b ↦ by
      rw [← mem_sortedBy, h, List.mem_singleton]
    exact ⟨((hm a).2 rfl).1, ((hm a).2 rfl).2, fun b hb hp ↦ (hm b).1 ⟨hb, hp⟩⟩
  · rintro ⟨ha, hp, hall⟩
    refine List.Perm.eq_singleton ?_
    refine (List.perm_ext_iff_of_nodup nodup_sortedBy (by simp)).2 fun b ↦ ?_
    rw [mem_sortedBy, List.mem_singleton]
    exact ⟨fun hb ↦ hall b hb.1 hb.2, by rintro rfl; exact ⟨ha, hp⟩⟩

/-- A query lists nothing, one record, or several. -/
theorem sortedBy_cases :
    (s.sortedBy p le = [] ∧ ∀ a ∈ s.toList, ¬ p a = true) ∨
      (∃ a, s.sortedBy p le = [a] ∧ IsOnly (fun a ↦ p a = true) s.toList a) ∨
      (∃ a b rest, s.sortedBy p le = a :: b :: rest) ∧ Several (fun a ↦ p a = true) s.toList := by
  match h : s.sortedBy p le with
  | [] => exact .inl ⟨rfl, sortedBy_eq_nil_iff.1 h⟩
  | [a] => exact .inr (.inl ⟨a, rfl, sortedBy_eq_singleton_iff.1 h⟩)
  | a :: b :: rest =>
    have ha := mem_sortedBy.1 (h ▸ List.mem_cons_self : a ∈ s.sortedBy p le)
    have hb := mem_sortedBy.1 (h ▸ List.mem_cons_of_mem a List.mem_cons_self : b ∈ s.sortedBy p le)
    have hn : (a :: b :: rest).Nodup := h ▸ nodup_sortedBy
    have hab : a ≠ b := fun e ↦ (List.nodup_cons.1 hn).1 (e ▸ List.mem_cons_self)
    exact .inr (.inr ⟨⟨a, b, rest, rfl⟩, a, ha.1, b, hb.1, hab, ha.2, hb.2⟩)

/-- A query sees nothing of the records that do not match. -/
theorem sortedBy_congr {t : Keyed key} (h : ∀ a, p a = true → (a ∈ s.toList ↔ a ∈ t.toList)) :
    s.sortedBy p le = t.sortedBy p le := by
  have hf : s.filter p = t.filter p := ext_mem fun a ↦ by
    simp only [mem_filter]
    exact and_congr_left (h a)
  exact congrArg (List.mergeSort · le) (congrArg toList hf)

/-- A change that the query and its order do not depend on shows in nothing but the records. -/
theorem map_sortedBy_modify {β : Type} {f : α → α} (hf : ∀ a, key (f a) = key a) {g : α → β}
    (hg : ∀ a, g (f a) = g a) (hp : ∀ a, p (f a) = p a) (hle : ∀ a b, le (f a) (f b) = le a b) :
    ((s.modify f hf).sortedBy p le).map g = (s.sortedBy p le).map g := by
  have hpf : p ∘ f = p := funext hp
  have hgf : g ∘ f = g := funext hg
  rw [sortedBy, modify, List.filter_map, hpf, ← List.map_mergeSort fun a _ b _ ↦ (hle a b).symm,
    List.map_map, hgf, sortedBy]

theorem Separates.not_several {β : Type} {f : α → β} {x : β} (h : s.Separates f) (hP : ∀ a, P a → f a = x) :
    ¬ Several P s.toList := by
  rintro ⟨a, ha, b, hb, hab, hPa, hPb⟩
  exact hab (h a ha b hb ((hP a hPa).trans (hP b hPb).symm))

/-- A query for one value of what the records are told apart by never lists several. -/
theorem Separates.sortedBy_cases {β : Type} {f : α → β} {x : β} (h : s.Separates f)
    (hp : ∀ a, p a = true → f a = x) (le : α → α → Bool) :
    s.sortedBy p le = [] ∨ ∃ a, s.sortedBy p le = [a] := by
  have hn : ¬ Several (fun a ↦ p a = true) s.toList := h.not_several hp
  rcases Keyed.sortedBy_cases with ⟨hs, -⟩ | ⟨a, hs, -⟩ | ⟨-, hs⟩
  · exact .inl hs
  · exact .inr ⟨a, hs⟩
  · exact absurd hs hn

/-- The result of a look-up that wants one record: what `g` makes of it, or one of two errors. -/
structure Single {β : Type} (f : List α → Result β) (g : α → Result β) (none several : Error) : Prop where
  nil : f [] = .error none
  singleton : ∀ a, f [a] = g a
  cons_cons : ∀ a b rest, f (a :: b :: rest) = .error several

theorem Single.eq_ok_iff {β : Type} {f : List α → Result β} {g : α → Result β} {none several : Error}
    (hf : Single f g none several) (hP : ∀ a, p a = true ↔ P a) {r : β} :
    f (s.sortedBy p le) = .ok r ↔ ∃ a, IsOnly P s.toList a ∧ g a = .ok r := by
  obtain rfl : (fun a ↦ p a = true) = P := funext fun a ↦ propext (hP a)
  rcases sortedBy_cases (s := s) (p := p) with ⟨h, hn⟩ | ⟨a, h, ha⟩ | ⟨⟨a, b, rest, h⟩, hs⟩
  · rw [h, hf.nil]
    exact ⟨by simp, fun ⟨a, ha, _⟩ ↦ absurd ha.2.1 (hn a ha.1)⟩
  · rw [h, hf.singleton]
    exact ⟨fun hr ↦ ⟨a, ha, hr⟩, fun ⟨b, hb, hr⟩ ↦ ha.eq hb ▸ hr⟩
  · rw [h, hf.cons_cons]
    exact ⟨by simp, fun ⟨a, ha, _⟩ ↦ absurd hs ha.not_several⟩

theorem Single.eq_error_iff {β : Type} {f : List α → Result β} {g : α → Result β} {none several : Error}
    (hf : Single f g none several) (hP : ∀ a, p a = true ↔ P a) {e : Error} :
    f (s.sortedBy p le) = .error e ↔
      (∀ a ∈ s.toList, ¬ P a) ∧ e = none ∨ Several P s.toList ∧ e = several ∨
        ∃ a, IsOnly P s.toList a ∧ g a = .error e := by
  obtain rfl : (fun a ↦ p a = true) = P := funext fun a ↦ propext (hP a)
  rcases sortedBy_cases (s := s) (p := p) with ⟨h, hn⟩ | ⟨a, h, ha⟩ | ⟨⟨a, b, rest, h⟩, hs⟩
  · rw [h, hf.nil, Except.error.injEq]
    refine ⟨fun he ↦ .inl ⟨hn, he.symm⟩, ?_⟩
    rintro (⟨-, rfl⟩ | ⟨⟨a, ha, b, hb, -, hPa, -⟩, -⟩ | ⟨a, ha, -⟩)
    · rfl
    · exact absurd hPa (hn a ha)
    · exact absurd ha.2.1 (hn a ha.1)
  · rw [h, hf.singleton]
    refine ⟨fun he ↦ .inr (.inr ⟨a, ha, he⟩), ?_⟩
    rintro (⟨hn, -⟩ | ⟨hs, -⟩ | ⟨b, hb, he⟩)
    · exact absurd ha.2.1 (hn a ha.1)
    · exact absurd hs ha.not_several
    · exact ha.eq hb ▸ he
  · rw [h, hf.cons_cons, Except.error.injEq]
    refine ⟨fun he ↦ .inr (.inl ⟨hs, he.symm⟩), ?_⟩
    rintro (⟨hn, -⟩ | ⟨-, rfl⟩ | ⟨b, hb, -⟩)
    · obtain ⟨a, ha, b, hb, -, hPa, -⟩ := hs
      exact absurd hPa (hn a ha)
    · rfl
    · exact absurd hs hb.not_several

end Keyed

@[simp] theorem agrees_none (value : String) : agrees none value = true := rfl

@[simp] theorem agrees_some {wanted value : String} :
    agrees (some wanted) value = true ↔ value = wanted :=
  beq_iff_eq.trans eq_comm

end CertGate
