import CertGate.Json.Printer
import CertGate.Json.Reader
import CertGate.Proofs.Text.Utf8
import Mathlib.Data.List.TakeWhile

namespace CertGate.Json

def spelled (cs : List Char) : Bytes := cs.flatMap String.utf8EncodeChar

theorem encode_render (d : Datum) : Utf8.encode (render d) = spelled (chars d) := by
  rw [Utf8.encode, render, String.toList_ofList, spelled]

theorem spelled_append (cs ds : List Char) : spelled (cs ++ ds) = spelled cs ++ spelled ds :=
  List.flatMap_append

theorem spelled_cons {c : Char} (h : c.toNat < 128) (cs : List Char) :
    spelled (c :: cs) = UInt8.ofNat c.toNat :: spelled cs := by
  rw [spelled, List.flatMap_cons, Utf8.utf8EncodeChar_of_lt h]
  rfl

section Pieces

variable {text other octets others : Bytes} {b : UInt8}

/-- What stands between quotes for the octets, whatever else stands there. -/
def Stands (text octets : Bytes) : Prop := ∀ ⦃k ps rest⦄, pieces? k = some (ps, rest) →
  ∃ qs, pieces? (text ++ k) = some (qs ++ ps, rest) ∧ octets? (qs ++ ps) = (octets? ps).map (octets ++ ·)

theorem Stands.nil : Stands [] [] := fun k ps rest hk ↦ ⟨[], hk, by simp⟩

theorem Stands.append (h : Stands text octets) (h' : Stands other others) :
    Stands (text ++ other) (octets ++ others) := by
  intro k ps rest hk
  obtain ⟨qs, hqs, ho⟩ := h' hk
  obtain ⟨rs, hrs, ho'⟩ := h hqs
  refine ⟨rs ++ qs, by rw [List.append_assoc, hrs, List.append_assoc], ?_⟩
  rw [List.append_assoc, ho', ho, Option.map_map]
  simp [Function.comp_def]

def isPlain (b : UInt8) : Prop := 0x20 ≤ b ∧ b ≠ 0x22 ∧ b ≠ 0x5C

theorem Stands.octet (h : isPlain b) : Stands [b] [b] := by
  intro k ps rest hk
  refine ⟨[.octet b], ?_, by simp [octets?]⟩
  obtain ⟨hle, hq, he⟩ := h
  have : ¬ (b < 0x20 ∨ b = 0x5C) := by
    rintro (h | h)
    · exact absurd hle (by simpa using h)
    · exact he h
  rw [List.singleton_append, pieces?, if_neg this, hk]
  rfl
  · exact fun h ↦ hq h
  · intro _ _ _ _ _ h
    exact absurd h he
  · intro _ _ h
    exact absurd h he

theorem Stands.escape {e : UInt8} (h : escape? e = some b) : Stands [0x5C, e] [b] := by
  intro k ps rest hk
  refine ⟨[.octet b], ?_, by simp [octets?]⟩
  have he : e ≠ 0x75 := by
    rintro rfl
    cases h
  change pieces? (0x5C :: e :: k) = _
  rw [pieces?, h, hk]
  · rfl
  · intro _ _ _ _ _ h
    exact absurd h he

theorem Stands.unit {a b c d : UInt8} {n : Nat} (h : hexUnit? a b c d = some n) (hn : n < 0xD800) :
    Stands [0x5C, 0x75, a, b, c, d] (encodeScalar n) := by
  intro k ps rest hk
  refine ⟨[.unit n], ?_, ?_⟩
  · change pieces? (0x5C :: 0x75 :: a :: b :: c :: d :: k) = _
    rw [pieces?, h, hk]
    rfl
  · rw [List.singleton_append, octets?.eq_def]
    exact if_pos (.inl hn)

theorem Stands.of_plain {bs : Bytes} (h : ∀ b ∈ bs, isPlain b) : Stands bs bs := by
  induction bs with
  | nil => exact .nil
  | cons b bs ih =>
    rw [List.forall_mem_cons] at h
    exact (Stands.octet h.1).append (ih h.2)

def hexCode (n : Nat) : UInt8 := UInt8.ofNat (Bytes.hexDigit n).toNat

theorem hexUnit?_hexOctet : ∀ n < 0x20,
    spelled (Bytes.hexOctet (UInt8.ofNat n)) = [hexCode (n / 16), hexCode (n % 16)] ∧
      hexUnit? 0x30 0x30 (hexCode (n / 16)) (hexCode (n % 16)) = some n := by
  decide +kernel

theorem eq_of_octet_eq {c d : Char} (hc : c.toNat < 128) (hd : d.toNat < 128)
    (h : UInt8.ofNat c.toNat = UInt8.ofNat d.toNat) : c = d := by
  have hn := congrArg UInt8.toNat h
  rw [Utf8.toNat_ofNat (by omega), Utf8.toNat_ofNat (by omega)] at hn
  rw [← Char.ofNat_toNat c, hn, Char.ofNat_toNat]

theorem isPlain_of_mem_encodeChar {c : Char} (hle : 0x20 ≤ c.toNat) (hq : c ≠ '"') (he : c ≠ '\\')
    (hb : b ∈ String.utf8EncodeChar c) : isPlain b := by
  by_cases hlt : c.toNat < 128
  · rw [Utf8.utf8EncodeChar_of_lt hlt, List.mem_singleton] at hb
    subst hb
    refine ⟨?_, fun h ↦ hq (eq_of_octet_eq hlt (by decide) h),
      fun h ↦ he (eq_of_octet_eq hlt (by decide) h)⟩
    rwa [UInt8.le_iff_toNat_le, Utf8.toNat_ofNat (by omega)]
  · have h := Utf8.le_of_mem_encodeChar (Nat.not_lt.1 hlt) hb
    refine ⟨UInt8.le_trans (by decide) h, ?_, ?_⟩ <;>
    · rintro rfl
      exact absurd h (by decide)

theorem stands_escapeChar (c : Char) : Stands (spelled (escapeChar c)) (String.utf8EncodeChar c) := by
  rw [escapeChar]
  split_ifs with h1 h2 h3 h4 h5 h6 h7 h8
  · subst h1; exact Stands.escape rfl
  · subst h2; exact Stands.escape rfl
  · subst h3; exact Stands.escape rfl
  · subst h4; exact Stands.escape rfl
  · subst h5; exact Stands.escape rfl
  · subst h6; exact Stands.escape rfl
  · subst h7; exact Stands.escape rfl
  · obtain ⟨hs, hu⟩ := hexUnit?_hexOctet c.toNat h8
    have hc : encodeScalar c.toNat = String.utf8EncodeChar c := by
      rw [encodeScalar, Char.ofNat_toNat]
    rw [spelled_append, hs, ← hc]
    exact Stands.unit hu (by omega)
  · rw [spelled, List.flatMap_singleton]
    exact .of_plain fun b hb ↦ isPlain_of_mem_encodeChar (Nat.not_lt.1 h8) h1 h2 hb

theorem stands_quoted (s : String) : Stands (spelled (s.toList.flatMap escapeChar)) (Utf8.encode s) := by
  rw [Utf8.encode]
  induction s.toList with
  | nil => exact .nil
  | cons c cs ih =>
    rw [List.flatMap_cons, List.flatMap_cons, spelled_append]
    exact (stands_escapeChar c).append ih

theorem pieces?_quoted (s : String) (rest : Bytes) : ∃ ps, textOf? ps = some s ∧
    pieces? (spelled (s.toList.flatMap escapeChar) ++ 0x22 :: rest) = some (ps, rest) := by
  have hrest : pieces? (0x22 :: rest) = some ([], rest) := rfl
  obtain ⟨ps, hps, ho⟩ := stands_quoted s hrest
  rw [List.append_nil] at hps ho
  refine ⟨ps, ?_, hps⟩
  rw [textOf?, ho]
  simpa [octets?] using Utf8.decode?_encode s

end Pieces

section Numbers

variable {rest : Bytes} {cs : List Char} {ds : List Nat} {n : Nat}

/-- What comes after a value without blanks: the end of the text, or a sign that ends the value. -/
def Closes (rest : Bytes) : Prop := ∀ b ∈ rest.head?, b ∈ ([0x2C, 0x5D, 0x7D] : Bytes)

theorem Closes.cases (h : Closes rest) :
    rest = [] ∨ ∃ bs, rest = 0x2C :: bs ∨ rest = 0x5D :: bs ∨ rest = 0x7D :: bs := by
  cases rest with
  | nil => exact .inl rfl
  | cons b bs =>
    have hb : b = 0x2C ∨ b = 0x5D ∨ b = 0x7D := by simpa [Closes] using h
    exact .inr ⟨bs, by rcases hb with rfl | rfl | rfl <;> simp⟩

theorem toNat_of_isDigit {c : Char} (h : c.isDigit = true) : 48 ≤ c.toNat ∧ c.toNat ≤ 57 :=
  Char.isDigit_iff_toNat.1 h

theorem spelled_digits (h : ∀ c ∈ cs, c.isDigit = true) :
    spelled cs = cs.map (fun c ↦ UInt8.ofNat c.toNat) ∧ ∀ b ∈ spelled cs, Bytes.isDigit b = true := by
  induction cs with
  | nil => exact ⟨rfl, nofun⟩
  | cons c cs ih =>
    rw [List.forall_mem_cons] at h
    obtain ⟨hs, hd⟩ := ih h.2
    obtain ⟨hlo, hhi⟩ := toNat_of_isDigit h.1
    have hc : (UInt8.ofNat c.toNat).toNat = c.toNat := Utf8.toNat_ofNat (by omega)
    rw [spelled_cons (by omega)]
    refine ⟨by rw [hs, List.map_cons], List.forall_mem_cons.2 ⟨?_, hd⟩⟩
    simp only [Bytes.isDigit, Bool.and_eq_true, decide_eq_true_eq, UInt8.le_iff_toNat_le, hc]
    exact ⟨hlo, hhi⟩

theorem someDigits?_spelled (h : ∀ c ∈ cs, c.isDigit = true) (hne : cs ≠ []) (hr : Closes rest) :
    someDigits? (spelled cs ++ rest) = some (cs.map fun c ↦ c.toNat - 48, rest) := by
  obtain ⟨hs, hd⟩ := spelled_digits h
  have hrest : rest.takeWhile Bytes.isDigit = [] ∧ rest.dropWhile Bytes.isDigit = rest := by
    obtain rfl | ⟨bs, rfl | rfl | rfl⟩ := hr.cases <;> exact ⟨rfl, rfl⟩
  have hdigits : digits (spelled cs ++ rest) = cs.map fun c ↦ c.toNat - 48 := by
    rw [digits, List.takeWhile_append_of_pos hd, hrest.1, List.append_nil, hs, List.map_map]
    refine List.map_congr_left fun c hc ↦ ?_
    have hlt := (toNat_of_isDigit (h c hc)).2
    exact congrArg (· - 48) (Utf8.toNat_ofNat (by omega))
  rw [someDigits?, hdigits, List.dropWhile_append_of_pos hd, hrest.2]
  cases cs with
  | nil => exact absurd rfl hne
  | cons c cs => rfl

theorem le_foldl_digits (ds : List Nat) (n : Nat) : n ≤ ds.foldl (fun n d ↦ n * 10 + d) n := by
  induction ds generalizing n with
  | nil => exact Nat.le_refl n
  | cons d ds ih => exact Nat.le_trans (by omega) (ih (n * 10 + d))

theorem appendDigits_of_le (h : ds.foldl (fun n d ↦ n * 10 + d) n ≤ maxWord) :
    appendDigits n ds = (ds.foldl (fun n d ↦ n * 10 + d) n, ds.length, 0) := by
  induction ds generalizing n with
  | nil => rfl
  | cons d ds ih =>
    rw [List.foldl_cons] at h
    rw [appendDigits, if_pos (Nat.le_trans (le_foldl_digits ds _) h), ih h]
    rfl

def digitsOf (n : Nat) : List Nat := (Nat.toDigits 10 n).map fun c ↦ c.toNat - 48

theorem digitsOf_of_lt (h : n < 10) : digitsOf n = [n] := by
  rw [digitsOf, Nat.toDigits_of_lt_base h, List.map_singleton, Nat.toNat_digitChar_sub_48_of_lt_ten h]

theorem digitsOf_of_le (h : 10 ≤ n) : digitsOf n = digitsOf (n / 10) ++ [n % 10] := by
  rw [digitsOf, Nat.toDigits_of_base_le (by decide) h, List.map_append, List.map_singleton,
    Nat.toNat_digitChar_sub_48_of_lt_ten (Nat.mod_lt _ (by decide)), digitsOf]

theorem foldl_digitsOf (n : Nat) : (digitsOf n).foldl (fun n d ↦ n * 10 + d) 0 = n := by
  induction n using Nat.strongRecOn with
  | _ n ih =>
    by_cases h : n < 10
    · rw [digitsOf_of_lt h, List.foldl_cons, List.foldl_nil, Nat.zero_mul, Nat.zero_add]
    · rw [digitsOf_of_le (by omega), List.foldl_append, ih _ (by omega), List.foldl_cons, List.foldl_nil]
      omega

theorem exists_digitsOf (h : n ≠ 0) : ∃ d ds, digitsOf n = d :: ds ∧ d ≠ 0 := by
  induction n using Nat.strongRecOn with
  | _ n ih =>
    by_cases hlt : n < 10
    · exact ⟨n, [], digitsOf_of_lt hlt, h⟩
    · obtain ⟨d, ds, hds, hd⟩ := ih (n / 10) (by omega) (by omega)
      exact ⟨d, ds ++ [n % 10], by rw [digitsOf_of_le (by omega), hds, List.cons_append], hd⟩

theorem digitsOf_leads (n : Nat) : (digitsOf n).length = 1 ∨ (digitsOf n).head? ≠ some 0 := by
  by_cases h : n = 0
  · exact .inl (by rw [h, digitsOf_of_lt (by decide), List.length_singleton])
  · obtain ⟨d, ds, hds, hd⟩ := exists_digitsOf h
    exact .inr (by simpa [hds] using hd)

theorem unsigned?_toDigits (negative : Bool) (n : Nat) (hr : Closes rest) :
    unsigned? negative (spelled (Nat.toDigits 10 n) ++ rest) =
      some (⟨negative, digitsOf n, none, none⟩, rest) := by
  have hd := someDigits?_spelled (fun c hc ↦ Nat.isDigit_of_mem_toDigits (by decide) (by decide) hc)
    (Nat.toDigits_ne_nil (n := n) (b := 10)) hr
  change _ = some (digitsOf n, rest) at hd
  have hg : (guard ((digitsOf n).length = 1 ∨ (digitsOf n).head? ≠ some 0) : Option Unit) = some () :=
    if_pos (digitsOf_leads n)
  rw [unsigned?, hd]
  change ((guard ((digitsOf n).length = 1 ∨ (digitsOf n).head? ≠ some 0) : Option Unit) >>= _) = _
  rw [hg]
  obtain rfl | ⟨bs, rfl | rfl | rfl⟩ := hr.cases <;> rfl

theorem value?_digitsOf {negative : Bool} (h : n ≤ maxWord)
    (hneg : negative = true → 0 < n ∧ n ≤ 1 <<< 63) :
    Literal.value? ⟨negative, digitsOf n, none, none⟩ =
      some (.int (if negative then -(n : Int) else n)) := by
  have ha : appendDigits 0 (digitsOf n) = (n, (digitsOf n).length, 0) := by
    have hf := foldl_digitsOf n
    rw [appendDigits_of_le (by rwa [hf]), hf]
  cases negative with
  | false => simp [Literal.value?, ha]
  | true =>
    obtain ⟨h0, hle⟩ := hneg rfl
    simp [Literal.value?, ha]
    omega

theorem toList_toString_nat (n : Nat) : (toString (n : Int)).toList = Nat.toDigits 10 n := by
  change (toString n).toList = _
  rw [Nat.toString_eq_ofList_toDigits, String.toList_ofList]

theorem toList_toString_negSucc (n : Nat) :
    (toString (Int.negSucc n)).toList = '-' :: Nat.toDigits 10 (n + 1) := by
  change ("-" ++ toString (n + 1)).toList = _
  simp

theorem exists_spelled_toDigits (n : Nat) :
    ∃ b bs, spelled (Nat.toDigits 10 n) = b :: bs ∧ Bytes.isDigit b = true := by
  obtain ⟨hs, hd⟩ := spelled_digits fun c hc ↦
    Nat.isDigit_of_mem_toDigits (n := n) (b := 10) (by decide) (by decide) hc
  cases h : spelled (Nat.toDigits 10 n) with
  | nil => exact absurd (List.map_eq_nil_iff.1 (hs ▸ h)) Nat.toDigits_ne_nil
  | cons b bs => exact ⟨b, bs, rfl, hd b (h ▸ List.mem_cons_self)⟩

theorem literal?_of_isDigit {b : UInt8} (hb : Bytes.isDigit b = true) (bs : Bytes) :
    literal? (b :: bs) = unsigned? false (b :: bs) := by
  rw [literal?]
  rintro _ ⟨⟩
  cases hb

theorem exists_spelled_int (n : Int) :
    ∃ b bs, spelled (numberText (.int n)).toList = b :: bs ∧ (b = 0x2D ∨ Bytes.isDigit b = true) := by
  rw [numberText]
  cases n with
  | ofNat n =>
    obtain ⟨b, bs, hb, hd⟩ := exists_spelled_toDigits n
    exact ⟨b, bs, by rw [Int.ofNat_eq_natCast, toList_toString_nat, hb], .inr hd⟩
  | negSucc n =>
    rw [toList_toString_negSucc, spelled_cons (by decide)]
    exact ⟨0x2D, _, rfl, .inl rfl⟩

theorem literal?_int {n : Int} (hlo : -(1 <<< 63) ≤ n) (hhi : n ≤ maxWord) (hr : Closes rest) :
    ∃ l, literal? (spelled (numberText (.int n)).toList ++ rest) = some (l, rest) ∧
      l.value? = some (.int n) := by
  rw [numberText]
  cases n with
  | ofNat n =>
    refine ⟨⟨false, digitsOf n, none, none⟩, ?_, value?_digitsOf (Int.ofNat_le.1 hhi) nofun⟩
    obtain ⟨b, bs, hb, hd⟩ := exists_spelled_toDigits n
    rw [Int.ofNat_eq_natCast, toList_toString_nat, ← unsigned?_toDigits false n hr, hb]
    exact literal?_of_isDigit hd _
  | negSucc n =>
    have hle : n + 1 ≤ 1 <<< 63 := by omega
    refine ⟨⟨true, digitsOf (n + 1), none, none⟩, ?_,
      value?_digitsOf (Nat.le_trans hle (by decide)) fun _ ↦ ⟨Nat.succ_pos n, hle⟩⟩
    rw [toList_toString_negSucc, spelled_cons (by decide)]
    exact unsigned?_toDigits true (n + 1) hr

end Numbers

end CertGate.Json
