import CertGate.Url.Host
import Mathlib.Data.Char
import Mathlib.Data.List.TakeWhile
import Mathlib.Data.Option.Basic

namespace CertGate

variable {c : Char} {b : UInt8} {bs : Bytes}

theorem forall_ascii {P : Char → Prop} (h : ∀ n < 128, P (Char.ofNat n)) (hc : c.toNat < 128) : P c :=
  Char.ofNat_toNat c ▸ h c.toNat hc

theorem toNat_octet (hc : c.toNat < 128) : (UInt8.ofNat c.toNat).toNat = c.toNat := by
  rw [UInt8.toNat_ofNat']
  omega

theorem exists_of_mapM {α β : Type} {f : α → Option β} {as : List α} {ys : List β}
    (h : as.mapM f = some ys) {a : α} (ha : a ∈ as) : ∃ y ∈ ys, f a = some y := by
  induction as generalizing ys with
  | nil => cases ha
  | cons x as ih =>
    simp only [List.mapM_cons, Option.bind_eq_bind, Option.bind_eq_some_iff, Option.pure_def,
      Option.some.injEq] at h
    obtain ⟨y, hy, zs, hzs, rfl⟩ := h
    rcases List.mem_cons.1 ha with rfl | ha
    · exact ⟨y, List.mem_cons_self, hy⟩
    · obtain ⟨z, hz, hf⟩ := ih hzs ha
      exact ⟨z, List.mem_cons_of_mem _ hz, hf⟩

namespace Utf8

theorem mem_encode {s : String} (hc : c.toNat < 128) (h : c ∈ s.toList) :
    UInt8.ofNat c.toNat ∈ encode s := by
  refine List.mem_flatMap.2 ⟨c, h, ?_⟩
  have hv : c.toNat ≤ 127 := by omega
  simp [String.utf8EncodeChar, hv]

variable {lead x : UInt8} {rest : Bytes}

theorem continuation_isPrefix (lead : UInt8) (n : Nat) (rest : Bytes) :
    continuation lead n rest <+: rest := by
  unfold continuation
  split
  · split
    · exact List.cons_prefix_cons.2 ⟨rfl, (List.takeWhile_prefix _).trans (List.take_prefix _ _)⟩
    · exact List.nil_prefix
  · exact List.nil_prefix

theorem le_of_mem_continuation {n : Nat} (h : x ∈ continuation lead n rest) : 0x80 ≤ x := by
  have hl : 0x80 ≤ (secondRange lead).1 := by
    simp only [secondRange]
    split_ifs <;> decide
  unfold continuation at h
  split at h
  · split at h
    · rename_i hb
      rcases List.mem_cons.1 h with rfl | hx
      · exact UInt8.le_trans hl hb.1
      · have hc := List.mem_takeWhile_imp hx
        simp only [isContinuation, Bool.and_eq_true, decide_eq_true_eq] at hc
        exact hc.1
    · cases h
  · cases h

theorem le_of_mem_take_head (h : x ∈ rest.take (head lead rest).2) : 0x80 ≤ x := by
  have hn : ∃ n, (head lead rest).2 = (continuation lead n rest).length := by
    unfold head
    split
    · exact ⟨0, by simp [continuation]⟩
    · rename_i n _
      dsimp only
      split
      · exact ⟨n, by simp [*]⟩
      · exact ⟨n, rfl⟩
  obtain ⟨n, hn⟩ := hn
  rw [hn, ← List.prefix_iff_eq_take.1 (continuation_isPrefix lead n rest)] at h
  exact le_of_mem_continuation h

theorem head_of_lt (rest : Bytes) (h : lead < 0x80) :
    (head lead rest).1 = some (Char.ofNat lead.toNat) := by
  simp [head, trailing?, h, continuation, scalar]

theorem mem_units (hb : b < 0x80) (skip : Nat) (h : b ∈ bs) (hs : ∀ x ∈ bs.take skip, 0x80 ≤ x) :
    some (Char.ofNat b.toNat) ∈ units skip bs := by
  induction bs generalizing skip with
  | nil => cases h
  | cons x bs ih =>
    cases skip with
    | zero =>
      rw [units]
      rcases List.mem_cons.1 h with rfl | h
      · exact head_of_lt bs hb ▸ List.mem_cons_self
      · exact List.mem_cons_of_mem _ (ih _ h fun y hy ↦ le_of_mem_take_head hy)
    | succ skip =>
      -- What is skipped belongs to a character beyond ASCII, so that `b` comes later.
      rw [units]
      have hx : 0x80 ≤ x := hs x (by simp)
      have hne : b ≠ x := by
        rintro rfl
        exact absurd hb (UInt8.not_lt.2 hx)
      exact ih _ ((List.mem_cons.1 h).resolve_left hne) fun y hy ↦ hs y (by simp [hy])

theorem mem_of_decode? {s : String} (hs : decode? bs = some s) (hc : c.toNat < 128)
    (h : UInt8.ofNat c.toNat ∈ bs) : c ∈ s.toList := by
  obtain ⟨cs, hm, rfl⟩ := Option.map_eq_some_iff.1 hs
  have hb : UInt8.ofNat c.toNat < 0x80 := UInt8.lt_iff_toNat_lt.2 ((toNat_octet hc).symm ▸ hc)
  obtain ⟨d, hd, he⟩ := exists_of_mapM hm (mem_units hb 0 h (by simp))
  rw [toNat_octet hc, Char.ofNat_toNat] at he
  rw [String.toList_ofList]
  rwa [Option.some.inj he]

end Utf8

theorem Percent.mem_decode (hb : b ≠ 0x25) (hx : Bytes.hexValue? b = none) (h : b ∈ bs) :
    b ∈ decode bs := by
  fun_induction decode bs with
  | case1 hi lo rest m n hm hn ih =>
    have hhi : b ≠ hi := by
      rintro rfl
      cases hx.symm.trans hn
    have hlo : b ≠ lo := by
      rintro rfl
      cases hx.symm.trans hm
    exact List.mem_cons_of_mem _ (ih (by simpa [hb, hhi, hlo] using h))
  | case2 hi lo rest hn ih => exact List.mem_cons_of_mem _ (ih (by simpa [hb] using h))
  | case3 x rest hn ih =>
    rcases List.mem_cons.1 h with rfl | h
    · exact List.mem_cons_self
    · exact List.mem_cons_of_mem _ (ih h)
  | case4 => cases h

namespace Punycode

variable {n i j bias : Nat} {text out cs rest : List Char}

theorem mem_of_difference? {k w : Nat} (h : difference? bias k w i cs = some (j, rest))
    (hd : digitValue? c = none) (hc : c ∈ cs) : c ∈ rest := by
  induction cs generalizing k w i with
  | nil => cases hc
  | cons x cs ih =>
    rw [difference?] at h
    simp only [Option.bind_eq_bind, Option.bind_eq_some_iff] at h
    obtain ⟨d, hx, h⟩ := h
    have hne : c ≠ x := by
      rintro rfl
      cases hd.symm.trans hx
    have hcs : c ∈ cs := (List.mem_cons.1 hc).resolve_left hne
    split at h
    · cases h
      exact hcs
    · exact ih h hcs

theorem of_decodeFrom {fuel : Nat} (h : decodeFrom fuel n i bias out rest = some text) :
    out ⊆ text ∧ ∀ c ∈ rest, digitValue? c ≠ none := by
  induction fuel generalizing n i bias out rest with
  | zero =>
    cases rest with
    | nil => simp_all [decodeFrom]
    | cons c rest => cases h
  | succ fuel ih =>
    cases rest with
    | nil => simp_all [decodeFrom]
    | cons x rest =>
      rw [decodeFrom] at h
      · simp only [Option.bind_eq_bind, Option.bind_eq_some_iff, Prod.exists] at h
        obtain ⟨j, rest', hr, -, -, h⟩ := h
        obtain ⟨hout, hrest⟩ := ih h
        constructor
        · intro c hc
          refine hout ?_
          rw [← List.take_append_drop (j % (out.length + 1)) out, List.mem_append] at hc
          rcases hc with hc | hc <;> simp [hc]
        · intro c hc hd
          exact hrest c (mem_of_difference? hr hd hc) hd
      · simp

theorem exists_append_tail (text : List Char) :
    ∃ front, let tail := (text.reverse.takeWhile (· != '-')).reverse
      text.take (text.length - tail.length - 1) = front ∧
        (text = tail ∨ text = front ++ '-' :: tail) := by
  have h := List.takeWhile_append_dropWhile (p := (· != '-')) (l := text.reverse)
  cases hd : text.reverse.dropWhile (· != '-') with
  | nil =>
    rw [hd, List.append_nil] at h
    exact ⟨_, rfl, .inl (by rw [h, List.reverse_reverse])⟩
  | cons x front =>
    have hx : x = '-' := by
      have hx := List.head?_dropWhile_not (· != '-') text.reverse
      simpa [hd] using hx
    have ht : text = front.reverse ++ '-' :: (text.reverse.takeWhile (· != '-')).reverse := by
      have := congrArg List.reverse h
      simpa [hd, hx] using this.symm
    refine ⟨front.reverse, ?_, .inr ht⟩
    have hl : text.length - (text.reverse.takeWhile (· != '-')).reverse.length - 1 =
        front.reverse.length := by
      have hl := congrArg List.length ht
      simp only [List.length_append, List.length_cons] at hl
      omega
    rw [hl]
    exact (congrArg (List.take _) ht).trans (List.take_left' rfl)

theorem mem_of_decode? (h : decode? text = some out) (hd : digitValue? c = none) (hn : c ≠ '-')
    (hc : c ∈ text) : c ∈ out := by
  obtain ⟨front, hfront, ht⟩ := exists_append_tail text
  simp only [decode?, hfront] at h
  split at h
  · cases h
  · obtain ⟨hout, htail⟩ := of_decodeFrom h
    rcases ht with ht | ht
    · exact absurd hd (htail c (ht ▸ hc))
    · rw [ht, List.mem_append, List.mem_cons] at hc
      rcases hc with hc | hc | hc
      · exact hout hc
      · exact absurd hc hn
      · exact absurd hd (htail c hc)

theorem subset_encode (hb : isBasic c = true) (hc : c ∈ text) : c ∈ encode text := by
  simp only [encode, List.append_assoc, List.mem_append, List.mem_filter]
  exact .inl ⟨hc, hb⟩

end Punycode

namespace Url

theorem exists_mem_splitOn {sep : Char} {cs : List Char} (hn : c ≠ sep) (hc : c ∈ cs) :
    ∃ part ∈ splitOn sep cs, c ∈ part := by
  induction cs with
  | nil => cases hc
  | cons x cs ih =>
    rw [splitOn]
    split
    · rename_i hx
      obtain ⟨part, hp, hc⟩ := ih ((List.mem_cons.1 hc).resolve_left (hx ▸ hn))
      exact ⟨part, List.mem_cons_of_mem _ hp, hc⟩
    · rcases List.mem_cons.1 hc with rfl | hc
      · split <;> exact ⟨_, List.mem_cons_self, List.mem_cons_self⟩
      · obtain ⟨part, hp, hc⟩ := ih hc
        split
        · simp_all
        · rename_i first parts hs
          rw [hs] at hp
          rcases List.mem_cons.1 hp with rfl | hp
          · exact ⟨_, List.mem_cons_self, List.mem_cons_of_mem _ hc⟩
          · exact ⟨part, List.mem_cons_of_mem _ hp, hc⟩

/-- A character that a domain name may not hold, unless it is the percent sign, which decoding takes
away. -/
def Barred (c : Char) : Prop := isForbiddenInDomain c = true ∧ c ≠ '%'

instance (c : Char) : Decidable (Barred c) := inferInstanceAs (Decidable (_ ∧ _))

theorem Barred.lt (h : Barred c) : c.toNat < 128 := by
  have h := h.1
  simp only [isForbiddenInDomain, isForbiddenInHost, Bool.or_eq_true, beq_iff_eq, decide_eq_true_eq,
    List.contains_iff_mem] at h
  rcases h with (((rfl | h) | h) | rfl) | rfl
  · decide
  · have hall : ("\t\n\r #/:<>?@[\\]^|".toList.all (·.toNat < 128)) = true := by decide
    simpa using List.all_eq_true.1 hall c h
  · omega
  · decide
  · decide

end Url

namespace Idna

open Url

theorem splitDots_eq (cs : List Char) : splitDots cs = splitOn '.' cs := by
  induction cs with
  | nil => rfl
  | cons c cs ih =>
    rw [splitDots, ih]
    rfl

theorem subset_joinDots {l : List Char} {ls : List (List Char)} (h : l ∈ ls) : l ⊆ joinDots ls := by
  induction ls with
  | nil => cases h
  | cons x ls ih =>
    intro c hc
    cases ls with
    | nil => simpa [joinDots, List.mem_singleton.1 h] using hc
    | cons y ls =>
      rw [joinDots, List.mem_append, List.mem_cons]
      · rcases List.mem_cons.1 h with rfl | h
        · exact .inl hc
        · exact .inr (.inr (ih h hc))
      · simp

/-- Neither decoding nor mapping touches a barred character, and Punycode has no use for it. -/
theorem untouched (h : Barred c) :
    Bytes.hexValue? (UInt8.ofNat c.toNat) = none ∧ mapChar c = [c] ∧ Punycode.digitValue? c = none ∧
      c ∉ ['x', 'n', '-', '.'] :=
  forall_ascii (P := fun c ↦ Barred c → Bytes.hexValue? (UInt8.ofNat c.toNat) = none ∧ mapChar c = [c] ∧
    Punycode.digitValue? c = none ∧ c ∉ ['x', 'n', '-', '.']) (by decide +kernel) h.lt h

theorem composes_no_barred {e : Nat × String × String} (he : e ∈ compositions) :
    128 ≤ e.1 ∧ ∀ c ∈ e.2.1.toList, ¬ Barred c := by
  have hall : (compositions.all fun e ↦ 128 ≤ e.1 && e.2.1.toList.all (¬ Barred ·)) = true := by
    decide +kernel
  simpa using List.all_eq_true.1 hall e he

theorem composition?_base (h : Barred c) (mark : Char) : composition? c mark = none := by
  refine Option.eq_none_iff_forall_ne_some.2 fun d hd ↦ ?_
  simp only [composition?, Option.bind_eq_bind, Option.bind_eq_some_iff, Prod.exists] at hd
  obtain ⟨m, bases, results, he, b, result, hb, -⟩ := hd
  have hm : (b, result) ∈ bases.toList.zip results.toList := List.mem_of_find?_eq_some hb
  have hbc : b = c := by simpa using List.find?_some hb
  exact (composes_no_barred (List.mem_of_find?_eq_some he)).2 c (hbc ▸ (List.of_mem_zip hm).1) h

theorem composition?_mark (h : Barred c) (base : Char) : composition? base c = none := by
  have hn : compositions.find? (·.1 == c.toNat) = none := by
    refine List.find?_eq_none.2 fun e he hc ↦ ?_
    have := (composes_no_barred he).1
    have := h.lt
    simp only [beq_iff_eq] at hc
    omega
  simp [composition?, hn]

theorem mem_compose {cs : List Char} (h : Barred c) (hc : c ∈ cs) : c ∈ compose cs := by
  -- The base changes along the way, but neither as `c` nor by `c`.
  have hgo : ∀ (cs : List Char) (base : Char), c ∈ base :: cs → c ∈ compose.go base cs := by
    intro cs
    induction cs with
    | nil => exact fun base hc ↦ hc
    | cons x cs ih =>
      intro base hc
      rw [compose.go]
      cases hx : composition? base x with
      | some d =>
        have hb : c ≠ base := by
          rintro rfl
          cases (composition?_base h x).symm.trans hx
        have hm : c ≠ x := by
          rintro rfl
          cases (composition?_mark h base).symm.trans hx
        exact ih d (List.mem_cons_of_mem _ (by simpa [hb, hm] using hc))
      | none =>
        rcases List.mem_cons.1 hc with rfl | hc
        · exact List.mem_cons_self
        · exact List.mem_cons_of_mem _ (ih x hc)
  cases cs with
  | nil => cases hc
  | cons x cs => exact hgo cs x hc

theorem mem_of_label? {label out : List Char} (h : Barred c) (ho : label? label = some out)
    (hc : c ∈ label) : c ∈ out := by
  have hb : Punycode.isBasic c = true := by simpa [Punycode.isBasic] using h.lt
  obtain ⟨-, -, hdigit, hletter⟩ := untouched h
  rw [label?] at ho
  split at ho
  · rename_i hx
    obtain ⟨rest, rfl⟩ := List.isPrefixOf_iff_prefix.1 hx
    have hrest : c ∈ rest := by simp_all
    have hdrop : (['x', 'n', '-', '-'] ++ rest).drop 4 = rest := rfl
    rw [hdrop] at ho
    split at ho
    · rename_i text ht
      split at ho
      · cases ho
      · cases ho
        have hct : c ∈ text := Punycode.mem_of_decode? ht hdigit (by simp_all) hrest
        exact List.mem_append_right _ (Punycode.subset_encode hb hct)
    · cases ho
  · split at ho
    · cases ho
      exact hc
    · split at ho
      · cases ho
        exact List.mem_append_right _ (Punycode.subset_encode hb hc)
      · cases ho

theorem mem_of_toAscii? {domain out : List Char} (h : Barred c) (ho : toAscii? domain = some out)
    (hc : c ∈ domain) : c ∈ out := by
  obtain ⟨labels, hl, rfl⟩ := Option.map_eq_some_iff.1 ho
  obtain ⟨-, hmap, -, hletter⟩ := untouched h
  have hm : c ∈ compose (domain.flatMap mapChar) :=
    mem_compose h (List.mem_flatMap.2 ⟨c, hc, hmap ▸ List.mem_singleton_self c⟩)
  have hdot : c ≠ '.' := by simp_all
  obtain ⟨label, hlabel, hcl⟩ := exists_mem_splitOn hdot hm
  obtain ⟨l, hl, ho⟩ := exists_of_mapM hl (splitDots_eq _ ▸ hlabel)
  exact subset_joinDots hl (mem_of_label? h ho hcl)

end Idna

namespace Url

/-- A text with a barred character is no domain name, in whatever way it is written. -/
theorem domain?_eq_none {cs : List Char} (h : Barred c) (hc : c ∈ cs) : domain? cs = none := by
  refine Option.eq_none_iff_forall_ne_some.2 fun host hh ↦ ?_
  simp only [domain?, Option.bind_eq_bind, Option.bind_eq_some_iff] at hh
  obtain ⟨decoded, hd, ascii, ha, u, hg, -⟩ := hh
  have he : UInt8.ofNat c.toNat ∈ Utf8.encode (String.ofList cs) :=
    Utf8.mem_encode h.lt (by rwa [String.toList_ofList])
  have hp : UInt8.ofNat c.toNat ∈ Percent.decode (Utf8.encode (String.ofList cs)) := by
    refine Percent.mem_decode (fun hc ↦ h.2 ?_) (Idna.untouched h).1 he
    have hc := congrArg (Char.ofNat ·.toNat) hc
    rwa [toNat_octet h.lt, Char.ofNat_toNat] at hc
  have hca : c ∈ ascii := Idna.mem_of_toAscii? h ha (Utf8.mem_of_decode? hd h.lt hp)
  have hf : ascii.any isForbiddenInDomain = true := List.any_eq_true.2 ⟨c, hca, h.1⟩
  simp [guard, hf] at hg

end Url

end CertGate
