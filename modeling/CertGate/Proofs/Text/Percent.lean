import CertGate.Proofs.Text.Utf8
import CertGate.Text.Percent

namespace CertGate

namespace Percent

/-- A part of a path, and the octets that it spells. A `%` and a `/` have to be escaped, any octet
may be. -/
inductive Spells : (part octets : Bytes) → Prop
  | nil : Spells [] []
  | plain {b : UInt8} {part octets : Bytes} (hp : b ≠ 0x25) (hs : b ≠ 0x2F) (h : Spells part octets) :
      Spells (b :: part) (b :: octets)
  | escaped {hi lo : UInt8} {m n : Nat} {part octets : Bytes} (hm : Bytes.hexValue? hi = some m)
      (hn : Bytes.hexValue? lo = some n) (h : Spells part octets) :
      Spells (0x25 :: hi :: lo :: part) (UInt8.ofNat (m * 16 + n) :: octets)

def StartsWithDigits (part : Bytes) : Prop :=
  ∃ hi lo rest m n, part = hi :: lo :: rest ∧ Bytes.hexValue? hi = some m ∧ Bytes.hexValue? lo = some n

/-- What percent-decoding makes of some octets. A `%` without digits stays. -/
inductive Decodes : (part octets : Bytes) → Prop
  | nil : Decodes [] []
  | plain {b : UInt8} {part octets : Bytes} (hb : b ≠ 0x25) (h : Decodes part octets) :
      Decodes (b :: part) (b :: octets)
  | escaped {hi lo : UInt8} {m n : Nat} {part octets : Bytes} (hm : Bytes.hexValue? hi = some m)
      (hn : Bytes.hexValue? lo = some n) (h : Decodes part octets) :
      Decodes (0x25 :: hi :: lo :: part) (UInt8.ofNat (m * 16 + n) :: octets)
  | stray {part octets : Bytes} (hp : ¬ StartsWithDigits part) (h : Decodes part octets) :
      Decodes (0x25 :: part) (0x25 :: octets)

variable {b : UInt8} {part octets : Bytes}

theorem decode_cons (h : b ≠ 0x25) (rest : Bytes) : decode (b :: rest) = b :: decode rest := by
  rw [decode]
  rintro hi lo tail rfl
  exact absurd rfl h

theorem decode_escaped {hi lo : UInt8} {m n : Nat} (hm : Bytes.hexValue? hi = some m)
    (hn : Bytes.hexValue? lo = some n) (part : Bytes) :
    decode (0x25 :: hi :: lo :: part) = UInt8.ofNat (m * 16 + n) :: decode part := by
  rw [decode, hm, hn]

theorem decode_stray (hp : ¬ StartsWithDigits part) : decode (0x25 :: part) = 0x25 :: decode part := by
  match part with
  | [] => rfl
  | [_] => rfl
  | hi :: lo :: rest =>
    rw [decode]
    cases hm : Bytes.hexValue? hi with
    | none => rfl
    | some m =>
      cases hn : Bytes.hexValue? lo with
      | none => rfl
      | some n => exact absurd ⟨hi, lo, rest, m, n, rfl, hm, hn⟩ hp

theorem Decodes.decode_eq (h : Decodes part octets) : decode part = octets := by
  induction h with
  | nil => rfl
  | plain hb h ih => rw [decode_cons hb, ih]
  | escaped hm hn h ih => rw [decode_escaped hm hn, ih]
  | stray hp h ih => rw [decode_stray hp, ih]

theorem decodes_decode (part : Bytes) : Decodes part (decode part) := by
  induction h : part.length using Nat.strong_induction_on generalizing part with
  | _ n ih =>
    cases part with
    | nil => exact .nil
    | cons b rest =>
      rw [List.length_cons] at h
      by_cases hb : b = 0x25
      · subst hb
        by_cases hd : StartsWithDigits rest
        · obtain ⟨hi, lo, rest, m, k, rfl, hm, hk⟩ := hd
          rw [List.length_cons, List.length_cons] at h
          rw [decode_escaped hm hk]
          exact .escaped hm hk (ih rest.length (by omega) rest rfl)
        · rw [decode_stray hd]
          exact .stray hd (ih rest.length (by omega) rest rfl)
      · rw [decode_cons hb]
        exact .plain hb (ih rest.length (by omega) rest rfl)

theorem decodes_iff : Decodes part octets ↔ decode part = octets :=
  ⟨Decodes.decode_eq, fun h ↦ h ▸ decodes_decode part⟩

theorem Spells.decodes (h : Spells part octets) : Decodes part octets := by
  induction h with
  | nil => exact .nil
  | plain hp hs h ih => exact .plain hp ih
  | escaped hm hn h ih => exact .escaped hm hn ih

theorem Spells.decode_eq (h : Spells part octets) : decode part = octets := h.decodes.decode_eq

theorem ne_of_hexValue? {b c : UInt8} {n : Nat} (h : Bytes.hexValue? b = some n)
    (hc : Bytes.hexValue? c = none) : b ≠ c := by
  rintro rfl
  exact absurd (hc.symm.trans h) nofun

theorem Spells.slash_notMem (h : Spells part octets) : 0x2F ∉ part := by
  induction h with
  | nil => exact List.not_mem_nil
  | plain hp hs h ih => exact List.not_mem_cons_of_ne_of_not_mem hs.symm ih
  | escaped hm hn h ih =>
    refine List.not_mem_cons_of_ne_of_not_mem (by decide) ?_
    refine List.not_mem_cons_of_ne_of_not_mem (Ne.symm (ne_of_hexValue? hm (by decide))) ?_
    exact List.not_mem_cons_of_ne_of_not_mem (Ne.symm (ne_of_hexValue? hn (by decide))) ih

theorem Spells.eq_nil_iff (h : Spells part octets) : part = [] ↔ octets = [] := by
  cases h <;> simp

def Writes (part name : String) : Prop := Spells (Utf8.encode part) (Utf8.encode name)

theorem Writes.slash_notMem {part name : String} (h : Writes part name) : '/' ∉ part.toList := by
  intro hs
  have hm : 0x2F ∈ Utf8.encode part := List.mem_flatMap.2 ⟨'/', hs, by decide⟩
  exact Spells.slash_notMem h hm

theorem Writes.eq_empty_iff {part name : String} (h : Writes part name) : part = "" ↔ name = "" := by
  have he : ∀ s : String, Utf8.encode s = [] ↔ s = "" := fun s ↦
    ⟨fun hs ↦ Utf8.encode_injective hs, fun hs ↦ hs ▸ rfl⟩
  rw [← he, ← he name]
  exact Spells.eq_nil_iff h

theorem Writes.decode_eq {part name : String} (h : Writes part name) :
    decode (Utf8.encode part) = Utf8.encode name :=
  Spells.decode_eq h

def digit (n : Nat) : UInt8 := if n < 10 then UInt8.ofNat (48 + n) else UInt8.ofNat (55 + n)

theorem hexValue?_digit : ∀ n < 16, Bytes.hexValue? (digit n) = some n := by decide

def isUnreserved (b : UInt8) : Bool :=
  (0x61 ≤ b && b ≤ 0x7A) || (0x41 ≤ b && b ≤ 0x5A) || Bytes.isDigit b || [0x2D, 0x2E, 0x5F, 0x7E].contains b

def encodeOctet (b : UInt8) : Bytes :=
  if isUnreserved b then [b] else [0x25, digit (b.toNat / 16), digit (b.toNat % 16)]

def encode (bs : Bytes) : Bytes := bs.flatMap encodeOctet

theorem spells_encode (bs : Bytes) : Spells (encode bs) bs := by
  induction bs with
  | nil => exact .nil
  | cons b bs ih =>
    rw [encode, List.flatMap_cons, encodeOctet]
    split
    · next hb =>
      refine .plain ?_ ?_ ih
      · rintro rfl
        exact absurd hb (by decide)
      · rintro rfl
        exact absurd hb (by decide)
    · have hlt : b.toNat < 256 := b.toNat_lt
      have hb : UInt8.ofNat (b.toNat / 16 * 16 + b.toNat % 16) = b := by
        rw [Nat.div_add_mod', UInt8.ofNat_toNat]
      have h := Spells.escaped (hexValue?_digit (b.toNat / 16) (by omega))
        (hexValue?_digit (b.toNat % 16) (by omega)) ih
      rwa [hb] at h

theorem forall_mem_encode {q : UInt8 → Bool}
    (h : ∀ n < 256, (encodeOctet (UInt8.ofNat n)).all q = true) {bs : Bytes} (hb : b ∈ encode bs) :
    q b = true := by
  obtain ⟨x, -, hx⟩ := List.mem_flatMap.1 hb
  have hall := h x.toNat x.toNat_lt
  rw [UInt8.ofNat_toNat] at hall
  exact List.all_eq_true.1 hall b hx

theorem toNat_lt_of_mem_encode {bs : Bytes} (h : b ∈ encode bs) : b.toNat < 128 := by
  have hall : ∀ n < 256, (encodeOctet (UInt8.ofNat n)).all (fun b ↦ decide (b.toNat < 128)) = true := by
    decide +kernel
  exact of_decide_eq_true (forall_mem_encode hall h)

def written (name : String) : String :=
  String.ofList ((encode (Utf8.encode name)).map fun b ↦ Char.ofNat b.toNat)

theorem toNat_ofNat_of_lt : ∀ n < 128, (Char.ofNat n).toNat = n := by decide

theorem encode_ofList_map {bs : Bytes} (h : ∀ b ∈ bs, b.toNat < 128) :
    Utf8.encode (String.ofList (bs.map fun b ↦ Char.ofNat b.toNat)) = bs := by
  rw [Utf8.encode, String.toList_ofList]
  induction bs with
  | nil => rfl
  | cons b bs ih =>
    obtain ⟨hb, hbs⟩ := List.forall_mem_cons.1 h
    have hn : (Char.ofNat b.toNat).toNat = b.toNat := toNat_ofNat_of_lt _ hb
    rw [List.map_cons, List.flatMap_cons, Utf8.utf8EncodeChar_of_lt (by rwa [hn]), ih hbs, hn,
      UInt8.ofNat_toNat]
    rfl

theorem writes_written (name : String) : Writes (written name) name := by
  rw [Writes, written, encode_ofList_map fun _ ↦ toNat_lt_of_mem_encode]
  exact spells_encode _

end Percent

end CertGate
