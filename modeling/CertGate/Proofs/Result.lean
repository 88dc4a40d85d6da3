import CertGate.Error
import Mathlib.Data.List.Forall2

namespace CertGate

theorem ite_bind {m : Type → Type} [Monad m] [LawfulMonad m] {β : Type} {p : Prop} [Decidable p]
    {x : m Unit} {k : m β} :
    (if p then x >>= fun _ ↦ k else k) = (if p then x else pure ()) >>= fun _ ↦ k := by
  split
  · rfl
  · rw [pure_bind]

section MapM

variable {ε α β : Type} {f g : α → Except ε β} {as : List α} {bs : List β} {e : ε}

theorem mapM_eq_ok_iff : as.mapM f = .ok bs ↔ List.Forall₂ (fun a b ↦ f a = .ok b) as bs := by
  induction as generalizing bs with
  | nil => cases bs <;> simp [pure, Except.pure]
  | cons a as ih =>
    rw [List.mapM_cons]
    cases h : f a with
    | error e => cases bs <;> simp [bind, Except.bind, h]
    | ok b =>
      cases hs : as.mapM f with
      | error e => cases bs <;> simp [bind, Except.bind, ← ih, h, hs]
      | ok cs => cases bs <;> simp [bind, Except.bind, pure, Except.pure, ← ih, h, hs]

theorem mapM_eq_error_iff : as.mapM f = .error e ↔
    ∃ before a after, as = before ++ a :: after ∧ (∀ b ∈ before, ∃ c, f b = .ok c) ∧ f a = .error e := by
  induction as with
  | nil => simp [pure, Except.pure]
  | cons a as ih =>
    rw [List.mapM_cons]
    constructor
    · intro h
      cases ha : f a with
      | error e' =>
        rw [ha] at h
        cases h
        exact ⟨[], a, as, rfl, by simp, ha⟩
      | ok b =>
        have hs : as.mapM f = .error e := by
          rw [ha] at h
          cases hs : as.mapM f with
          | error e' => rw [hs] at h; cases h; rfl
          | ok cs => rw [hs] at h; cases h
        obtain ⟨before, c, after, rfl, hb, hc⟩ := ih.1 hs
        exact ⟨a :: before, c, after, rfl, List.forall_mem_cons.2 ⟨⟨b, ha⟩, hb⟩, hc⟩
    · rintro ⟨_ | ⟨a', before⟩, c, after, h, hb, hc⟩
      · obtain ⟨rfl, rfl⟩ := List.cons.inj h
        rw [hc]
        rfl
      · obtain ⟨rfl, rfl⟩ := List.cons.inj h
        obtain ⟨⟨b, ha⟩, hb⟩ := List.forall_mem_cons.1 hb
        rw [ha, ih.2 ⟨before, c, after, rfl, hb, hc⟩]
        rfl

theorem exists_mapM_eq_error {a : α} (ha : a ∈ as) (h : f a = .error e) : ∃ e, as.mapM f = .error e := by
  cases hm : as.mapM f with
  | error e => exact ⟨e, rfl⟩
  | ok bs =>
    obtain ⟨i, hi, rfl⟩ := List.getElem_of_mem ha
    have hs := mapM_eq_ok_iff.1 hm
    have hb := hs.get hi (hs.length_eq ▸ hi)
    exact absurd (h.symm.trans hb) nofun

theorem mapM_congr (h : ∀ a ∈ as, f a = g a) : as.mapM f = as.mapM g := by
  induction as with
  | nil => rfl
  | cons a as ih =>
    rw [List.forall_mem_cons] at h
    rw [List.mapM_cons, List.mapM_cons, h.1, ih h.2]

end MapM

namespace Result

variable {α β : Type} {x : Result α} {f : α → Result β} {a : α} {b : β} {e : Error} {p : Prop} [Decidable p]

@[simp] theorem pure_eq (a : α) : (pure a : Result α) = .ok a := rfl

@[simp] theorem throw_eq (e : Error) : (throw e : Result α) = .error e := rfl

@[simp] theorem ok_bind (a : α) (f : α → Result β) : (Except.ok a >>= f : Result β) = f a := rfl

@[simp] theorem error_bind (e : Error) (f : α → Result β) :
    (Except.error e >>= f : Result β) = .error e := rfl

theorem bind_eq_ok_iff : x >>= f = .ok b ↔ ∃ a, x = .ok a ∧ f a = .ok b := by
  cases x <;> simp

theorem ite_pure_eq_ok_iff {x : Result Unit} {u : Unit} :
    (if p then x else pure ()) = .ok u ↔ (p → x = .ok u) := by
  split <;> simp_all

theorem bind_eq_error_iff : x >>= f = .error e ↔ x = .error e ∨ ∃ a, x = .ok a ∧ f a = .error e := by
  cases x <;> simp

theorem map_eq_ok_iff {g : α → β} (hg : ∀ ⦃a b⦄, g a = g b → a = b) :
    x.map g = .ok (g a) ↔ x = .ok a := by
  cases x with
  | ok b => simpa [Except.map] using ⟨@hg b a, congrArg g⟩
  | error e => simp [Except.map]

theorem bind_congr {g : α → Result β} (h : ∀ a, x = .ok a → f a = g a) : x >>= f = x >>= g := by
  cases x with
  | ok a => exact h a rfl
  | error e => rfl

theorem guard_eq_ok_iff :
    (if p then (throw e : Result Unit) >>= fun _ ↦ x else x) = .ok a ↔ ¬ p ∧ x = .ok a := by
  by_cases h : p <;> simp [h]

def Spares (x : Result α) (k : ErrorKind) : Prop := ∀ e, x = .error e → e.kind ≠ k

namespace Spares

variable {k : ErrorKind}

theorem ok (a : α) : Spares (.ok a : Result α) k := nofun

theorem error (h : e.kind ≠ k) : Spares (.error e : Result α) k := by
  rintro _ ⟨⟩
  exact h

theorem bind (hx : Spares x k) (hf : ∀ a, x = .ok a → Spares (f a) k) : Spares (x >>= f) k := by
  intro e he
  rcases bind_eq_error_iff.1 he with he | ⟨a, ha, he⟩
  · exact hx e he
  · exact hf a ha e he

theorem ite {y : Result α} (hx : Spares x k) (hy : Spares y k) : Spares (if p then x else y) k := by
  split
  · exact hx
  · exact hy

theorem guard (he : e.kind ≠ k) (hx : Spares x k) :
    Spares (if p then (throw e : Result Unit) >>= fun _ ↦ x else x) k :=
  ite (error he) hx

theorem mapM {as : List α} {g : α → Result β} (hg : ∀ a ∈ as, Spares (g a) k) : Spares (as.mapM g) k := by
  induction as with
  | nil => exact ok _
  | cons a as ih =>
    rw [List.forall_mem_cons] at hg
    rw [List.mapM_cons]
    exact hg.1.bind fun b _ ↦ (ih hg.2).bind fun _ _ ↦ ok _

end Spares

end Result

end CertGate
