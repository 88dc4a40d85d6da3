import CertGate.Proofs.Authentication
import Mathlib.Data.List.Infix

namespace CertGate

namespace Attribute

def keys : List String := standardKeys.map (·.2) ++ [otherKey]

def key (a : Attribute) : String := a.standardKey?.getD otherKey

/-- The keys that may come after a key in a name. -/
def keysAfter (key : String) : List String := if key = otherKey then [otherKey] else keys

def opening (key : String) : List Char := ',' :: key.toList ++ ['=']

/-- No part of the value looks like the beginning of the next pair. -/
def Plain (a : Attribute) : Prop := ∀ k ∈ keysAfter a.key, ¬ opening k <:+: a.value.toList

instance (a : Attribute) : Decidable a.Plain := inferInstanceAs (Decidable (∀ _ ∈ _, _))

def pair (a : Attribute) : String × String := (a.key, a.value)

def standardPairs (as : List Attribute) : List (String × String) :=
  (as.filter (·.standardKey?.isSome)).map pair

def otherValues (as : List Attribute) : List String :=
  (as.filter (·.standardKey?.isNone)).map (·.value)

/-- The subjects differ at most in how their standard attributes stand among the others, and in what
the others are called. -/
def Alike (as bs : List Attribute) : Prop :=
  standardPairs as = standardPairs bs ∧ otherValues as = otherValues bs

instance (as bs : List Attribute) : Decidable (Alike as bs) := inferInstanceAs (Decidable (_ ∧ _))

def pairs (as : List Attribute) : List (String × String) :=
  (standardPairs as).reverse ++ ((otherValues as).map (otherKey, ·)).reverse

def spelled (ps : List (String × String)) : List Char :=
  ps.flatMap fun p ↦ opening p.1 ++ p.2.toList

def continued (name : String) : List Char := if name = "" then [] else ',' :: name.toList

/-- The pairs can be read off their text. -/
def Legible : List (String × String) → Prop
  | [] => True
  | (k, v) :: ps =>
    k ∈ keys ∧ (∀ l ∈ keysAfter k, ¬ opening l <:+: v.toList) ∧ (∀ p ∈ ps, p.1 ∈ keysAfter k) ∧
      Legible ps

variable {a : Attribute} {as bs : List Attribute} {k l : String} {ps qs : List (String × String)}

theorem not_mem_key (hk : k ∈ keys) : ',' ∉ k.toList ∧ '=' ∉ k.toList := by
  revert k
  decide

theorem keysAfter_subset : keysAfter k ⊆ keys := by
  unfold keysAfter
  split
  · exact List.subset_append_right _ _
  · exact List.Subset.refl _

theorem append_inj_of_not_mem {xs ys us vs : List Char} (hx : '=' ∉ xs) (hy : '=' ∉ ys)
    (h : xs ++ '=' :: us = ys ++ '=' :: vs) : xs = ys ∧ us = vs := by
  rcases List.append_eq_append_iff.1 h with ⟨zs, rfl, hz⟩ | ⟨zs, rfl, hz⟩ <;> cases zs <;> simp_all

/-- A value ends where the next pair begins, and nowhere before. -/
theorem eq_nil_of_spelled {v w : List Char} (hv : ∀ l ∈ keysAfter k, ¬ opening l <:+: v ++ w)
    (hp : ∀ p ∈ ps, p.1 ∈ keysAfter k) (h : spelled ps = w ++ spelled qs) : w = [] := by
  cases ps with
  | nil => exact (List.append_eq_nil_iff.1 h.symm).1
  | cons p ps =>
    have hk : p.1 ∈ keysAfter k := hp p List.mem_cons_self
    have hw : ∀ x, w ≠ opening p.1 ++ x := by
      rintro x rfl
      exact hv p.1 hk ⟨v, x, by rw [List.append_assoc]⟩
    rw [spelled, List.flatMap_cons, List.append_assoc] at h
    rcases List.append_eq_append_iff.1 h with ⟨x, hx, -⟩ | ⟨x, hx, hq⟩
    · exact absurd hx (hw x)
    · -- The text of `qs` would begin inside of a key, where no comma is.
      cases w with
      | nil => rfl
      | cons c w =>
        cases x with
        | nil => exact absurd (by simpa using hx.symm) (hw [])
        | cons d x =>
          have hd : d = ',' := by
            cases qs with
            | nil => simp [spelled] at hq
            | cons q qs =>
              rw [spelled, List.flatMap_cons, opening] at hq
              exact (List.cons_eq_cons.1 hq).1.symm
          have hx : p.1.toList ++ ['='] = w ++ d :: x := (List.cons_eq_cons.1 hx).2
          have hm : ',' ∈ p.1.toList ++ ['='] := by simp [hx, hd]
          simp [(not_mem_key (keysAfter_subset hk)).1] at hm

theorem spelled_injective (hp : Legible ps) (hq : Legible qs) (h : spelled ps = spelled qs) :
    ps = qs := by
  induction ps generalizing qs with
  | nil =>
    cases qs with
    | nil => rfl
    | cons q qs => simp [spelled, opening] at h
  | cons p ps ih =>
    cases qs with
    | nil => simp [spelled, opening] at h
    | cons q qs =>
      obtain ⟨k, v⟩ := p
      obtain ⟨l, u⟩ := q
      obtain ⟨hk, hv, hps, hp⟩ := hp
      obtain ⟨hl, hu, hqs, hq⟩ := hq
      have hh : k.toList ++ '=' :: (v.toList ++ spelled ps) =
          l.toList ++ '=' :: (u.toList ++ spelled qs) := by
        simpa [spelled, opening] using h
      obtain ⟨hkl, ht⟩ := append_inj_of_not_mem (not_mem_key hk).2 (not_mem_key hl).2 hh
      obtain rfl := String.toList_inj.1 hkl
      rcases List.append_eq_append_iff.1 ht with ⟨w, hw, hs⟩ | ⟨w, hw, hs⟩
      · obtain rfl := eq_nil_of_spelled (hw ▸ hu) hps hs
        rw [List.append_nil, String.toList_inj] at hw
        rw [hw, ih hp hq (by simpa using hs)]
      · obtain rfl := eq_nil_of_spelled (hw ▸ hv) hqs hs
        rw [List.append_nil, String.toList_inj] at hw
        rw [hw, ih hp hq (by simpa using hs.symm)]

theorem toList_pairText (a : Attribute) : a.pairText.toList = a.key.toList ++ '=' :: a.value.toList := by
  change (a.key ++ "=" ++ a.value).toList = _
  simp

theorem mem_keys_of_standardKey? (h : a.standardKey? = some k) : k ∈ keys ∧ k ≠ otherKey := by
  have hs : ∀ p ∈ standardKeys, p.2 ∈ keys ∧ p.2 ≠ otherKey := by decide
  obtain ⟨l, r, hl, -⟩ := List.lookup_eq_some_iff.1 h
  exact hs (a.oid, k) (hl ▸ List.mem_append_right l List.mem_cons_self)

theorem key_mem (a : Attribute) : a.key ∈ keys := by
  rw [key]
  cases h : a.standardKey? with
  | none => decide
  | some k => exact (mem_keys_of_standardKey? h).1

theorem key_eq_otherKey_iff : a.key = otherKey ↔ a.standardKey?.isNone = true := by
  rw [key]
  cases h : a.standardKey? with
  | none => simp
  | some k => simp [(mem_keys_of_standardKey? h).2]

theorem ne_otherKey_of_mem_standardPairs {p : String × String} (h : p ∈ standardPairs as) :
    p.1 ≠ otherKey := by
  simp only [standardPairs, List.mem_map, List.mem_filter] at h
  obtain ⟨a, ⟨-, ha⟩, rfl⟩ := h
  rw [pair, ne_eq, key_eq_otherKey_iff]
  simpa [Option.ne_none_iff_isSome] using ha

theorem map_pair_eq_pairs (as : List Attribute) :
    (as.reverse.filter (·.standardKey?.isSome) ++ as.reverse.filter (·.standardKey?.isNone)).map pair =
      pairs as := by
  have ho : (as.filter (·.standardKey?.isNone)).map pair = (otherValues as).map (otherKey, ·) := by
    rw [otherValues, List.map_map]
    refine List.map_congr_left fun a ha ↦ ?_
    rw [pair, key_eq_otherKey_iff.2 (List.mem_filter.1 ha).2, Function.comp_apply]
  rw [pairs, List.map_append, List.filter_reverse, List.filter_reverse, List.map_reverse,
    List.map_reverse, ho, standardPairs]

theorem spelled_map_pair_cons (a : Attribute) (as : List Attribute) :
    spelled ((a :: as).map pair) = ',' :: (",".intercalate ((a :: as).map pairText)).toList := by
  induction as generalizing a with
  | nil => simp [spelled, opening, pair, toList_pairText]
  | cons b as ih =>
    rw [List.map_cons, spelled, List.flatMap_cons, ← spelled, ih b]
    simp [opening, pair, toList_pairText]

theorem spelled_map_pair (as : List Attribute) :
    spelled (as.map pair) = continued (",".intercalate (as.map pairText)) := by
  cases as with
  | nil => rfl
  | cons a as =>
    rw [continued, if_neg, spelled_map_pair_cons]
    intro h
    have hs := spelled_map_pair_cons a as
    rw [h] at hs
    simp [spelled, opening] at hs

theorem spelled_pairs (as : List Attribute) : spelled (pairs as) = continued (distinguishedName as) := by
  rw [← map_pair_eq_pairs, spelled_map_pair]
  rfl

theorem legible_append (hp : Legible ps) (hq : Legible qs)
    (h : ∀ p ∈ ps, ∀ q ∈ qs, q.1 ∈ keysAfter p.1) : Legible (ps ++ qs) := by
  induction ps with
  | nil => exact hq
  | cons p ps ih =>
    obtain ⟨hk, hv, ha, hp⟩ := hp
    refine ⟨hk, hv, fun q hm ↦ ?_, ih hp fun r hr ↦ h r (List.mem_cons_of_mem p hr)⟩
    rcases List.mem_append.1 hm with hm | hm
    · exact ha q hm
    · exact h p List.mem_cons_self q hm

theorem legible_map_pair (h : ∀ a ∈ as, a.Plain) (hk : ∀ a ∈ as, ∀ b ∈ as, b.key ∈ keysAfter a.key) :
    Legible (as.map pair) := by
  induction as with
  | nil => trivial
  | cons a as ih =>
    refine ⟨a.key_mem, h a List.mem_cons_self, ?_, ih (fun b hb ↦ h b (List.mem_cons_of_mem a hb))
      fun b hb c hc ↦ hk b (List.mem_cons_of_mem a hb) c (List.mem_cons_of_mem a hc)⟩
    rintro p hp
    obtain ⟨b, hb, rfl⟩ := List.mem_map.1 hp
    exact hk a List.mem_cons_self b (List.mem_cons_of_mem a hb)

theorem keysAfter_of_isSome (h : a.standardKey?.isSome = true) : keysAfter a.key = keys := by
  have hn : ¬ a.key = otherKey := by
    rw [key_eq_otherKey_iff]
    simpa [Option.ne_none_iff_isSome] using h
  rw [keysAfter, if_neg hn]

theorem legible_pairs (h : ∀ a ∈ as, a.Plain) : Legible (pairs as) := by
  rw [← map_pair_eq_pairs, List.map_append]
  refine legible_append (legible_map_pair ?_ ?_) (legible_map_pair ?_ ?_) ?_
  · exact fun a ha ↦ h a (List.mem_reverse.1 (List.mem_filter.1 ha).1)
  · intro a ha b hb
    rw [keysAfter_of_isSome (List.mem_filter.1 ha).2]
    exact b.key_mem
  · exact fun a ha ↦ h a (List.mem_reverse.1 (List.mem_filter.1 ha).1)
  · intro a ha b hb
    rw [key_eq_otherKey_iff.2 (List.mem_filter.1 ha).2, key_eq_otherKey_iff.2 (List.mem_filter.1 hb).2]
    decide
  · intro p hp q hq
    obtain ⟨a, ha, rfl⟩ := List.mem_map.1 hp
    obtain ⟨b, hb, rfl⟩ := List.mem_map.1 hq
    rw [pair, keysAfter_of_isSome (List.mem_filter.1 ha).2]
    exact b.key_mem

theorem pairs_eq_iff : pairs as = pairs bs ↔ Alike as bs := by
  have hs (as : List Attribute) : (pairs as).filter (·.1 ≠ otherKey) = (standardPairs as).reverse := by
    rw [pairs, List.filter_append, List.filter_eq_self.2, List.filter_eq_nil_iff.2, List.append_nil]
    · simp
    · exact fun p hp ↦ by simpa using ne_otherKey_of_mem_standardPairs (List.mem_reverse.1 hp)
  have ho (as : List Attribute) : (pairs as).filter (·.1 = otherKey) =
      ((otherValues as).map (otherKey, ·)).reverse := by
    rw [pairs, List.filter_append, List.filter_eq_nil_iff.2, List.filter_eq_self.2, List.nil_append]
    · simp
    · exact fun p hp ↦ by simpa using ne_otherKey_of_mem_standardPairs (List.mem_reverse.1 hp)
  constructor
  · intro h
    have hss := hs as
    have hoo := ho as
    rw [h, hs, List.reverse_inj] at hss
    rw [h, ho, List.reverse_inj] at hoo
    exact ⟨hss.symm, List.map_injective_iff.2 (fun _ _ he ↦ (Prod.mk.inj he).2) hoo.symm⟩
  · rintro ⟨hss, hoo⟩
    rw [pairs, pairs, hss, hoo]

end Attribute

open Attribute

/-- Plain subjects have one name if they are alike, and different names if they are not. -/
theorem distinguishedName_eq_iff {as bs : List Attribute} (ha : ∀ a ∈ as, a.Plain)
    (hb : ∀ b ∈ bs, b.Plain) : distinguishedName as = distinguishedName bs ↔ Alike as bs := by
  rw [← pairs_eq_iff]
  constructor
  · intro h
    refine spelled_injective (legible_pairs ha) (legible_pairs hb) ?_
    rw [spelled_pairs, spelled_pairs, h]
  · intro h
    have hs (as : List Attribute) : distinguishedName as =
        ",".intercalate ((pairs as).map fun p ↦ s!"{p.1}={p.2}") := by
      rw [← map_pair_eq_pairs, List.map_map]
      rfl
    rw [hs, hs, h]

/-- Two clients with plain subjects are known by one binding only if their subjects are alike. -/
theorem alike_of_knows {as bs : List Attribute} (ha : ∀ a ∈ as, a.Plain) (hb : ∀ b ∈ bs, b.Plain) :
    (distinguishedName as = distinguishedName bs ↔ Alike as bs) ∧
      ∀ (x y : Authentication.Attempt) (c d : Certificate) (t u : ServiceType) (b : Binding),
        c.subject = as → d.subject = bs → x.Knows c t b → y.Knows d u b → Alike as bs := by
  have h := distinguishedName_eq_iff ha hb
  refine ⟨h, ?_⟩
  rintro x y c d t u b rfl rfl hx hy
  have hid : x.identity c t = y.identity d u := hx.only.2.1.symm.trans hy.only.2.1
  exact h.1 (congrArg Binding.Identity.authIdentifier hid)

theorem not_knows_of_comma :
    ∃ as bs : List Attribute, as = [⟨"2.5.4.6", "b"⟩, ⟨"2.5.4.10", "a"⟩] ∧
      bs = [⟨"2.5.4.10", "a, C=b"⟩] ∧ (∀ a ∈ as, a.Plain) ∧ (∀ b ∈ bs, b.Plain) ∧
      distinguishedName as ≠ distinguishedName bs ∧
      ∀ (x y : Authentication.Attempt) (c d : Certificate) (t u : ServiceType) (b : Binding),
        c.subject = as → d.subject = bs → x.Knows c t b → ¬ y.Knows d u b := by
  let as : List Attribute := [⟨"2.5.4.6", "b"⟩, ⟨"2.5.4.10", "a"⟩]
  let bs : List Attribute := [⟨"2.5.4.10", "a, C=b"⟩]
  have ha : ∀ a ∈ as, a.Plain := by decide +kernel
  have hb : ∀ b ∈ bs, b.Plain := by decide +kernel
  have hn : ¬ Alike as bs := by decide
  obtain ⟨h, hk⟩ := alike_of_knows ha hb
  exact ⟨as, bs, rfl, rfl, ha, hb, fun he ↦ hn (h.1 he),
    fun x y c d t u b hc hd hx hy ↦ hn (hk x y c d t u b hc hd hx hy)⟩

/-- One organization whose name looks like two attributes is taken for a subject that has both. -/
theorem one_name_of_two_subjects :
    ∃ as bs : List Attribute, as = [⟨"2.5.4.6", "b"⟩, ⟨"2.5.4.10", "a"⟩] ∧
      bs = [⟨"2.5.4.10", "a,C=b"⟩] ∧ ¬ Alike as bs ∧ distinguishedName as = distinguishedName bs ∧
      ∀ (x : Authentication.Attempt) (c d : Certificate) (t : ServiceType),
        c.subject = as → d.subject = bs → x.identity c t = x.identity d t := by
  have h : distinguishedName [⟨"2.5.4.6", "b"⟩, ⟨"2.5.4.10", "a"⟩] =
      distinguishedName [⟨"2.5.4.10", "a,C=b"⟩] := by decide +kernel
  refine ⟨_, _, rfl, rfl, by decide, h, fun x c d t hc hd ↦ ?_⟩
  rw [Authentication.Attempt.identity, Authentication.Attempt.identity, Certificate.name,
    Certificate.name, hc, hd, h]

end CertGate
