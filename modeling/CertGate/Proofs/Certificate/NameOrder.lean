import CertGate.Certificate.Name
import Mathlib.Data.List.Perm.Basic

namespace CertGate

namespace Attribute

def IsStandard (a : Attribute) : Prop := a.oid ∈ standardKeys.map (·.1)

instance : DecidablePred IsStandard := fun a ↦ inferInstanceAs (Decidable (a.oid ∈ _))

def standard (as : List Attribute) : List Attribute := as.filter fun a ↦ a.IsStandard

def others (as : List Attribute) : List Attribute := as.filter fun a ↦ ¬ a.IsStandard

/-- The attributes of a subject in the order of its name. -/
def ordered (as : List Attribute) : List Attribute := (standard as).reverse ++ (others as).reverse

def joined (names : List String) : String := ",".intercalate (names.filter (· ≠ ""))

variable {a : Attribute} {as bs : List Attribute} {texts : List String}

theorem isSome_standardKey? : a.standardKey?.isSome = true ↔ a.IsStandard := by
  rw [standardKey?, List.lookup_isSome_iff, IsStandard, List.mem_map]
  refine exists_congr fun p ↦ and_congr_right fun _ ↦ ?_
  rw [beq_iff_eq, eq_comm]

theorem pairText_ne_empty (a : Attribute) : a.pairText ≠ "" := by
  intro h
  have ht : (a.standardKey?.getD otherKey ++ "=" ++ a.value).toList = [] := congrArg String.toList h
  simp at ht

theorem intercalate_eq_empty_iff (h : ∀ t ∈ texts, t ≠ "") : ",".intercalate texts = "" ↔ texts = [] := by
  match texts with
  | [] => simp
  | [t] => simpa using h t
  | t :: u :: texts =>
    refine iff_of_false (fun he ↦ ?_) (List.cons_ne_nil t _)
    rw [String.intercalate_cons_cons] at he
    have hl : (t ++ "," ++ ",".intercalate (u :: texts)).toList = [] := congrArg String.toList he
    simp at hl

theorem intercalate_flatten {lists : List (List String)} (h : ∀ l ∈ lists, ∀ t ∈ l, t ≠ "") :
    ",".intercalate lists.flatten = joined (lists.map ",".intercalate) := by
  induction lists with
  | nil => rfl
  | cons l lists ih =>
    rw [List.forall_mem_cons] at h
    have hrest := ih h.2
    rw [List.flatten_cons, List.map_cons, joined, List.filter_cons]
    cases l with
    | nil => simpa [joined] using hrest
    | cons t l =>
      have hl : ",".intercalate (t :: l) ≠ "" := (intercalate_eq_empty_iff h.1).not.2 (List.cons_ne_nil t l)
      rw [if_pos (by simpa using hl)]
      by_cases hn : lists.flatten = []
      · -- Nothing is left to be joined, so that there is no comma.
        have hf : (lists.map ",".intercalate).filter (· ≠ "") = [] := by
          simp only [List.filter_eq_nil_iff, List.mem_map]
          rintro _ ⟨m, hm, rfl⟩
          simp [List.flatten_eq_nil_iff.1 hn m hm]
        rw [hf, hn, List.append_nil, String.intercalate_singleton]
      · have hf : (lists.map ",".intercalate).filter (· ≠ "") ≠ [] := by
          intro hf
          rw [joined, hf, String.intercalate_nil, intercalate_eq_empty_iff] at hrest
          · exact hn hrest
          · exact fun t ht ↦ let ⟨m, hm, htm⟩ := List.mem_flatten.1 ht; h.2 m hm t htm
        rw [String.intercalate_append_of_ne_nil (List.cons_ne_nil t l) hn, hrest,
          String.intercalate_cons_of_ne_nil hf, joined]

theorem distinguishedName_eq (as : List Attribute) :
    distinguishedName as = ",".intercalate ((ordered as).map pairText) := by
  have hs : as.filter (·.standardKey?.isSome) = standard as :=
    List.filter_congr fun a _ ↦ by simp [← isSome_standardKey?]
  have ho : as.filter (·.standardKey?.isNone) = others as := by
    refine List.filter_congr fun a _ ↦ ?_
    simp only [← isSome_standardKey?]
    cases a.standardKey? <;> rfl
  rw [distinguishedName, List.filter_reverse, List.filter_reverse, hs, ho]
  rfl

theorem distinguishedName_standard (as : List Attribute) :
    distinguishedName (standard as) = ",".intercalate ((standard as).reverse.map pairText) := by
  have hs : standard (standard as) = standard as := by simp [standard]
  have ho : others (standard as) = [] := by simp [others, standard]
  rw [distinguishedName_eq, ordered, hs, ho, List.reverse_nil, List.append_nil]

theorem distinguishedName_others (as : List Attribute) :
    distinguishedName (others as) = ",".intercalate ((others as).reverse.map pairText) := by
  have hs : standard (others as) = [] := by simp [others, standard]
  have ho : others (others as) = others as := by simp [others]
  rw [distinguishedName_eq, ordered, hs, ho, List.reverse_nil, List.nil_append]

theorem ordered_append (as bs : List Attribute) : ordered (as ++ bs) =
    [(standard bs).reverse, (standard as).reverse, (others bs).reverse, (others as).reverse].flatten := by
  simp [ordered, standard, others]

theorem ordered_perm (as : List Attribute) : (ordered as).Perm as := by
  have h := List.filter_append_perm (fun a ↦ decide (IsStandard a)) as
  have hr := (List.reverse_perm (standard as)).append (List.reverse_perm (others as))
  refine hr.trans (List.Perm.trans (.of_eq ?_) h)
  simp [standard, others]

end Attribute

open Attribute

theorem distinguishedName_append (as bs : List Attribute) :
    distinguishedName (as ++ bs) = joined [distinguishedName (standard bs),
      distinguishedName (standard as), distinguishedName (others bs), distinguishedName (others as)] := by
  simp only [distinguishedName_standard, distinguishedName_others]
  rw [distinguishedName_eq, ordered_append, List.map_flatten, intercalate_flatten]
  · rfl
  · intro l hl t ht
    obtain ⟨cs, -, rfl⟩ := List.mem_map.1 hl
    obtain ⟨c, -, rfl⟩ := List.mem_map.1 ht
    exact c.pairText_ne_empty

theorem distinguishedName_standard_prefix (as : List Attribute) :
    (distinguishedName (standard as)).toList <+: (distinguishedName as).toList := by
  rw [distinguishedName_standard, distinguishedName_eq, ordered, List.map_append]
  by_cases hs : (standard as).reverse.map pairText = []
  · simp [hs]
  · by_cases ho : (others as).reverse.map pairText = []
    · simp [ho]
    · rw [String.intercalate_append_of_ne_nil hs ho, String.toList_append, String.toList_append,
        List.append_assoc]
      exact List.prefix_append _ _

/-- How a name is put together: from the names of the parts of a subject, whatever stands between their
attributes, with each attribute as often as the subject has it, and the standard ones in front. -/
theorem order_of_name (as bs : List Attribute) :
    distinguishedName (as ++ bs) = joined [distinguishedName (standard bs),
        distinguishedName (standard as), distinguishedName (others bs), distinguishedName (others as)] ∧
      (standard as = standard bs → others as = others bs → distinguishedName as = distinguishedName bs) ∧
      distinguishedName as =
        ",".intercalate (((standard as).reverse ++ (others as).reverse).map pairText) ∧
      ((standard as).reverse ++ (others as).reverse).Perm as ∧
      (distinguishedName (standard as)).toList <+: (distinguishedName as).toList := by
  refine ⟨distinguishedName_append as bs, fun hs ho ↦ ?_, distinguishedName_eq as, ordered_perm as,
    distinguishedName_standard_prefix as⟩
  rw [distinguishedName_eq, distinguishedName_eq, ordered, ordered, hs, ho]

end CertGate
