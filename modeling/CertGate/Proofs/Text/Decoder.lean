import CertGate.Proofs.Text.Utf8

namespace CertGate.Utf8

/-- What the decoder keeps between two octets: the bits of a character that have come, the number of
octets that are to come, and the bounds of the next of them. -/
structure Decoder where
  point : Nat := 0
  needed : Nat := 0
  lower : UInt8 := 0x80
  upper : UInt8 := 0xBF

def pushBits (point : Nat) (b : UInt8) : Nat := point * 64 + b.toNat % 64

namespace Decoder

def first (b : UInt8) : List (Option Nat) × Decoder :=
  if b ≤ 0x7F then ([some b.toNat], {})
  else if 0xC2 ≤ b ∧ b ≤ 0xDF then ([], { point := b.toNat % 32, needed := 1 })
  else if 0xE0 ≤ b ∧ b ≤ 0xEF then
    ([], { point := b.toNat % 16, needed := 2
           lower := if b = 0xE0 then 0xA0 else 0x80, upper := if b = 0xED then 0x9F else 0xBF })
  else if 0xF0 ≤ b ∧ b ≤ 0xF4 then
    ([], { point := b.toNat % 8, needed := 3
           lower := if b = 0xF0 then 0x90 else 0x80, upper := if b = 0xF4 then 0x8F else 0xBF })
  else ([none], {})

/-- One octet. If it is out of bounds, the character that it was to continue is an error, and the
octet is the first of another. -/
def next (d : Decoder) (b : UInt8) : List (Option Nat) × Decoder :=
  if d.needed = 0 then first b
  else if d.lower ≤ b ∧ b ≤ d.upper then
    if d.needed = 1 then ([some (pushBits d.point b)], {})
    else ([], { point := pushBits d.point b, needed := d.needed - 1 })
  else (none :: (first b).1, (first b).2)

def run (d : Decoder) : Bytes → List (Option Nat)
  | [] => if d.needed = 0 then [] else [none]
  | b :: rest => (d.next b).1 ++ (d.next b).2.run rest

end Decoder

/-- The text is what the octets decode to, with a replacement character for each error. -/
def Decodes (octets : Bytes) (text : String) : Prop :=
  text.toList.map Char.toNat = (Decoder.run {} octets).map (·.getD 0xFFFD)

variable {lead b : UInt8} {n : Nat} {d : Decoder} {tail rest : Bytes}

theorem continuation_of_bounds (h : (secondRange lead).1 ≤ b ∧ b ≤ (secondRange lead).2) :
    continuation lead (n + 1) (b :: rest) = b :: (rest.take n).takeWhile isContinuation := by
  rw [continuation, if_pos h]

theorem continuation_of_not_bounds (h : ¬ ((secondRange lead).1 ≤ b ∧ b ≤ (secondRange lead).2)) :
    continuation lead (n + 1) (b :: rest) = [] := by
  rw [continuation, if_neg h]

/-- Where all continuation octets may come second, the second is like those after it. -/
theorem continuation_eq_takeWhile (h : secondRange lead = (0x80, 0xBF)) (rest : Bytes) :
    continuation lead n rest = (rest.take n).takeWhile isContinuation := by
  cases n with
  | zero => rfl
  | succ n =>
    cases rest with
    | nil => rfl
    | cons b rest =>
      rw [continuation, h, List.take_succ_cons, List.takeWhile_cons]
      simp only [isContinuation, Bool.and_eq_true, decide_eq_true_eq]

theorem bounds_of_continuation (h : continuation lead n rest = b :: tail) :
    (secondRange lead).1 ≤ b ∧ b ≤ (secondRange lead).2 := by
  cases n with
  | zero => cases h
  | succ n =>
    cases rest with
    | nil => cases h
    | cons c rest =>
      by_cases hc : (secondRange lead).1 ≤ c ∧ c ≤ (secondRange lead).2
      · rw [continuation_of_bounds hc] at h
        exact (List.cons.inj h).1 ▸ hc
      · rw [continuation_of_not_bounds hc] at h
        cases h

theorem toNat_of_bounds (h : (secondRange lead).1 ≤ b ∧ b ≤ (secondRange lead).2) :
    (0x80 ≤ b.toNat ∧ b.toNat ≤ 0xBF) ∧ (lead.toNat = 0xED → b.toNat ≤ 0x9F) ∧
      (lead.toNat = 0xF0 → 0x90 ≤ b.toNat) ∧ (lead.toNat = 0xF4 → b.toNat ≤ 0x8F) := by
  simp only [secondRange, UInt8.le_iff_toNat_le, ← UInt8.toNat_inj, UInt8.reduceToNat] at h
  split_ifs at h <;> simp only [UInt8.reduceToNat] at h <;> omega

theorem isValidChar_scalar (hn : trailing? lead = some tail.length)
    (ht : continuation lead tail.length rest = tail) : (scalar lead tail).isValidChar := by
  have hl : lead.toNat < 256 := lead.toNat_lt
  rw [← UInt8.ofNat_toNat (x := lead), trailing?_ofNat hl] at hn
  rw [Nat.isValidChar]
  match tail with
  | [] =>
    have hs : scalar lead [] = lead.toNat := rfl
    omega
  | [b] =>
    have hs : scalar lead [b] = lead.toNat % 32 * 64 + b.toNat % 64 := rfl
    omega
  | [b, c] =>
    have hs : scalar lead [b, c] = (lead.toNat % 16 * 64 + b.toNat % 64) * 64 + c.toNat % 64 := rfl
    have hb := toNat_of_bounds (bounds_of_continuation ht)
    split_ifs at hn with h1 h2 h3
    · cases hn
    · cases hn
    · omega
    · cases hn
  | [b, c, d] =>
    have hs : scalar lead [b, c, d] =
        ((lead.toNat % 8 * 64 + b.toNat % 64) * 64 + c.toNat % 64) * 64 + d.toNat % 64 := rfl
    have hb := toNat_of_bounds (bounds_of_continuation ht)
    split_ifs at hn with h1 h2 h3 h4
    · cases hn
    · cases hn
    · cases hn
    · omega
  | _ :: _ :: _ :: _ :: _ => split_ifs at hn <;> cases hn

theorem toNat_ofNat_scalar (hn : trailing? lead = some tail.length)
    (ht : continuation lead tail.length rest = tail) :
    (Char.ofNat (scalar lead tail)).toNat = scalar lead tail := by
  rw [Char.ofNat, dif_pos (isValidChar_scalar hn ht)]
  rfl

namespace Decoder

theorem run_of_not_bounds (hn : d.needed ≠ 0) (hb : ¬ (d.lower ≤ b ∧ b ≤ d.upper)) :
    d.run (b :: rest) = none :: run {} (b :: rest) := by
  rw [run, next, if_neg hn, if_neg hb]
  rfl

theorem run_of_bounds (hb : d.lower ≤ b ∧ b ≤ d.upper) (hn : d.needed = n + 2) :
    d.run (b :: rest) = run { point := pushBits d.point b, needed := n + 1 } rest := by
  rw [run, next, if_neg (by omega), if_pos hb, if_neg (by omega), hn]
  rfl

theorem run_of_last (hb : d.lower ≤ b ∧ b ≤ d.upper) (hn : d.needed = 1) :
    d.run (b :: rest) = some (pushBits d.point b) :: run {} rest := by
  rw [run, next, if_neg (by omega), if_pos hb, if_pos hn]
  rfl

theorem run_needed (hl : secondRange lead = (d.lower, d.upper)) (hn : d.needed = n + 1) (rest : Bytes) :
    d.run rest =
      (if (continuation lead (n + 1) rest).length = n + 1 then
        some ((continuation lead (n + 1) rest).foldl pushBits d.point) else none) ::
      run {} (rest.drop (continuation lead (n + 1) rest).length) := by
  induction n generalizing lead d rest with
  | zero =>
    cases rest with
    | nil => simp [run, hn, continuation]
    | cons b rest =>
      by_cases hb : d.lower ≤ b ∧ b ≤ d.upper
      · rw [run_of_last hb hn, continuation_of_bounds (by rwa [hl])]
        rfl
      · rw [run_of_not_bounds (by omega) hb, continuation_of_not_bounds (by rwa [hl])]
        rfl
  | succ n ih =>
    cases rest with
    | nil => simp [run, hn, continuation]
    | cons b rest =>
      by_cases hb : d.lower ≤ b ∧ b ≤ d.upper
      · -- Any lead octet with the bounds of the third octet and those after it will do.
        have h2 : secondRange 0xC2 = (0x80, 0xBF) := rfl
        have hrest := ih (d := { point := pushBits d.point b, needed := n + 1 }) h2 rfl rest
        rw [continuation_eq_takeWhile h2] at hrest
        rw [run_of_bounds hb hn, hrest, continuation_of_bounds (by rwa [hl])]
        simp
      · rw [run_of_not_bounds (by omega) hb, continuation_of_not_bounds (by rwa [hl])]
        rfl

theorem ascii_iff : lead ≤ 0x7F ↔ lead < 0x80 := by
  rw [UInt8.le_iff_toNat_le, UInt8.lt_iff_toNat_lt]
  exact Nat.lt_succ_iff.symm

theorem first_of_trailing (h : trailing? lead = some (n + 1)) :
    ∃ point, first lead = ([], ⟨point, n + 1, (secondRange lead).1, (secondRange lead).2⟩) ∧
      ∀ tail : Bytes, tail.length = n + 1 → scalar lead tail = tail.foldl pushBits point := by
  have hne (c : UInt8) {l u : UInt8} (hl : l ≤ lead ∧ lead ≤ u) (hc : ¬ (l ≤ c ∧ c ≤ u)) : lead ≠ c := by
    rintro rfl
    exact hc hl
  rw [trailing?] at h
  split_ifs at h with h1 h2 h3 h4 <;> cases h
  · have hr : secondRange lead = (0x80, 0xBF) := by
      simp [secondRange, hne 0xE0 h2 (by decide), hne 0xED h2 (by decide), hne 0xF0 h2 (by decide),
        hne 0xF4 h2 (by decide)]
    refine ⟨lead.toNat % 32, ?_, fun tail ht ↦ ?_⟩
    · rw [first, if_neg (by rwa [ascii_iff]), if_pos h2, hr]
    · rw [scalar, ht]
      rfl
  · refine ⟨lead.toNat % 16, ?_, fun tail ht ↦ ?_⟩
    · rw [first, if_neg (by rwa [ascii_iff]), if_neg h2, if_pos h3, secondRange]
      by_cases hE0 : lead = 0xE0
      · subst hE0
        rfl
      · simp only [hE0, hne 0xF0 h3 (by decide), hne 0xF4 h3 (by decide), ↓reduceIte]
        split_ifs <;> rfl
    · rw [scalar, ht]
      rfl
  · refine ⟨lead.toNat % 8, ?_, fun tail ht ↦ ?_⟩
    · rw [first, if_neg (by rwa [ascii_iff]), if_neg h2, if_neg h3, if_pos h4, secondRange]
      by_cases hF0 : lead = 0xF0
      · subst hF0
        rfl
      · simp only [hF0, hne 0xE0 h4 (by decide), hne 0xED h4 (by decide), ↓reduceIte]
        split_ifs <;> rfl
    · rw [scalar, ht]
      rfl

theorem first_of_ascii (h : trailing? lead = some 0) : first lead = ([some lead.toNat], {}) := by
  rw [trailing?] at h
  split_ifs at h with h1 <;> cases h
  rw [first, if_pos (ascii_iff.2 h1)]

theorem first_of_stray (h : trailing? lead = none) : first lead = ([none], {}) := by
  rw [trailing?] at h
  split_ifs at h with h1 h2 h3 h4
  rw [first, if_neg (by rwa [ascii_iff]), if_neg h2, if_neg h3, if_neg h4]

theorem run_cons (lead : UInt8) (rest : Bytes) :
    run {} (lead :: rest) =
      (head lead rest).1.map Char.toNat :: run {} (rest.drop (head lead rest).2) := by
  have hfirst : run {} (lead :: rest) = (first lead).1 ++ (first lead).2.run rest := rfl
  rw [hfirst, head]
  cases hn : trailing? lead with
  | none =>
    rw [first_of_stray hn]
    rfl
  | some n =>
    cases n with
    | zero =>
      have hc : continuation lead 0 rest = [] := by cases rest <;> rfl
      have hs : (Char.ofNat (scalar lead [])).toNat = lead.toNat := toNat_ofNat_scalar hn hc
      rw [first_of_ascii hn]
      dsimp only
      rw [hc, if_pos List.length_nil, Option.map_some, hs]
      rfl
    | succ n =>
      obtain ⟨point, hf, hs⟩ := first_of_trailing hn
      rw [hf, run_needed rfl rfl]
      dsimp only
      split
      · next hl =>
        have hn : trailing? lead = some (continuation lead (n + 1) rest).length := by rw [hn, hl]
        rw [← hs _ hl, Option.map_some, toNat_ofNat_scalar hn (by rw [hl]), hl]
        rfl
      · rfl

end Decoder

theorem units_skip (n : Nat) (bs : Bytes) : units n bs = units 0 (bs.drop n) := by
  induction n generalizing bs with
  | zero => rfl
  | succ n ih =>
    cases bs with
    | nil => rfl
    | cons b bs => rw [units, ih, List.drop_succ_cons]

theorem map_units (bs : Bytes) : (units 0 bs).map (Option.map Char.toNat) = Decoder.run {} bs := by
  induction h : bs.length using Nat.strong_induction_on generalizing bs with
  | _ n ih =>
    cases bs with
    | nil => rfl
    | cons b bs =>
      have hlt : (bs.drop (head b bs).2).length < n := by
        rw [← h, List.length_drop, List.length_cons]
        omega
      rw [units, units_skip, List.map_cons, Decoder.run_cons, ih _ hlt _ rfl]

/-- The lenient reader is the decoder. -/
theorem decodes_iff {octets : Bytes} {text : String} : Decodes octets text ↔ decodeLossy octets = text := by
  have hmap : (decodeLossy octets).toList.map Char.toNat =
      (Decoder.run {} octets).map (·.getD 0xFFFD) := by
    rw [decodeLossy, String.toList_ofList, ← map_units, List.map_map, List.map_map]
    refine List.map_congr_left fun c _ ↦ ?_
    cases c <;> rfl
  rw [Decodes, ← hmap, List.map_inj_right fun c d hcd ↦ Char.toNat_inj.1 hcd, String.toList_inj, eq_comm]

theorem decodeLossy_encode (s : String) : decodeLossy (encode s) = s := by
  rw [decodeLossy, encode, units_encode, List.map_map]
  exact (congrArg String.ofList (List.map_id _)).trans String.ofList_toList

end CertGate.Utf8
