import CertGate.Text.Utf8
import Mathlib.Data.List.TakeWhile
import Mathlib.Tactic.SplitIfs

namespace CertGate

theorem mapM_map_of_read {α β : Type} {f : α → β} {g : β → Option α} (h : ∀ a, g (f a) = some a)
    (as : List α) : (as.map f).mapM g = some as := by
  induction as with
  | nil => rfl
  | cons a as ih => simp [h, ih]

namespace Utf8

variable {lead b : UInt8} {tail : Bytes} {l m v : Nat}

theorem toNat_ofNat (h : v < 256) : (UInt8.ofNat v).toNat = v := UInt8.toNat_ofNat_of_lt h

theorem continuation_append (hb : (secondRange lead).1 ≤ b ∧ b ≤ (secondRange lead).2)
    (ht : ∀ x ∈ tail, isContinuation x = true) (rest : Bytes) :
    continuation lead (tail.length + 1) (b :: (tail ++ rest)) = b :: tail := by
  have htake : (tail ++ rest).take tail.length = tail := List.take_left' rfl
  rw [continuation, if_pos hb, htake, List.takeWhile_eq_self_iff.2 ht]

theorem head_append (tail : Bytes) (hn : trailing? lead = some (tail.length + 1))
    (hb : (secondRange lead).1 ≤ b ∧ b ≤ (secondRange lead).2)
    (ht : ∀ x ∈ tail, isContinuation x = true) (hs : scalar lead (b :: tail) = v) (rest : Bytes) :
    head lead (b :: (tail ++ rest)) = (some (Char.ofNat v), tail.length + 1) := by
  rw [head, hn]
  dsimp only
  rw [continuation_append hb ht, if_pos List.length_cons, hs]

theorem trailing?_ofNat (h : l < 256) :
    trailing? (UInt8.ofNat l) =
      if l < 0x80 then some 0
      else if 0xC2 ≤ l ∧ l ≤ 0xDF then some 1
      else if 0xE0 ≤ l ∧ l ≤ 0xEF then some 2
      else if 0xF0 ≤ l ∧ l ≤ 0xF4 then some 3
      else none := by
  simp only [trailing?, UInt8.lt_iff_toNat_lt, UInt8.le_iff_toNat_le, toNat_ofNat h]
  rfl

/-- The lead octets after which not every continuation octet may come. -/
theorem secondRange_ofNat (hl : l < 256) (hm : 0x80 ≤ m ∧ m ≤ 0xBF) (hE0 : l = 0xE0 → 0xA0 ≤ m)
    (hED : l = 0xED → m ≤ 0x9F) (hF0 : l = 0xF0 → 0x90 ≤ m) (hF4 : l = 0xF4 → m ≤ 0x8F) :
    (secondRange (UInt8.ofNat l)).1 ≤ UInt8.ofNat m ∧
      UInt8.ofNat m ≤ (secondRange (UInt8.ofNat l)).2 := by
  have hm' : (UInt8.ofNat m).toNat = m := toNat_ofNat (by omega)
  simp only [secondRange, ← UInt8.toNat_inj, toNat_ofNat hl, UInt8.le_iff_toNat_le, hm']
  split_ifs with h1 h2 h3 h4
  · exact ⟨hE0 h1, hm.2⟩
  · exact ⟨hm.1, hED h2⟩
  · exact ⟨hF0 h3, hm.2⟩
  · exact ⟨hm.1, hF4 h4⟩
  · exact hm

theorem isContinuation_ofNat (v : Nat) : isContinuation (UInt8.ofNat (v % 64 + 128)) = true := by
  have hv : (UInt8.ofNat (v % 64 + 128)).toNat = v % 64 + 128 := toNat_ofNat (by omega)
  have hle : v % 64 + 128 ≤ 0xBF := by omega
  simp only [isContinuation, Bool.and_eq_true, decide_eq_true_eq, UInt8.le_iff_toNat_le, hv]
  exact ⟨Nat.le_add_left _ _, hle⟩

/-- The octets of a character are read as this character, whatever comes after them. -/
theorem head_encodeChar (c : Char) :
    ∃ lead tail, String.utf8EncodeChar c = lead :: tail ∧
      ∀ rest, head lead (tail ++ rest) = (some c, tail.length) := by
  have hvalid : c.toNat < 0xD800 ∨ 0xDFFF < c.toNat ∧ c.toNat < 0x110000 := c.valid
  have hc : Char.ofNat c.toNat = c := Char.ofNat_toNat c
  have hencode : String.utf8EncodeChar c = _ := String.utf8EncodeChar.eq_1 c
  generalize hv : c.toNat = v at hvalid hc
  change c.val.toNat = v at hv
  simp only [hv] at hencode
  suffices h : ∃ lead tail, String.utf8EncodeChar c = lead :: tail ∧
      ∀ rest, head lead (tail ++ rest) = (some (Char.ofNat v), tail.length) by rwa [hc] at h
  split_ifs at hencode with h1 h2 h3
  · refine ⟨_, _, hencode, fun rest ↦ ?_⟩
    have hn : trailing? (UInt8.ofNat v) = some 0 := by
      rw [trailing?_ofNat (by omega), if_pos (by omega)]
    have hs : scalar (UInt8.ofNat v) [] = v := toNat_ofNat (by omega)
    simp [head, hn, continuation, hs]
  · refine ⟨_, _, hencode, fun rest ↦ head_append [] ?_ ?_ (by simp) ?_ rest⟩
    · rw [trailing?_ofNat (by omega), if_neg (by omega), if_pos (by omega)]
      rfl
    · exact secondRange_ofNat (by omega) (by omega) (by omega) (by omega) (by omega) (by omega)
    · simp only [scalar, List.length_cons, List.length_nil, List.foldl_cons, List.foldl_nil]
      rw [toNat_ofNat (by omega), toNat_ofNat (by omega)]
      omega
  · refine ⟨_, _, hencode, fun rest ↦ head_append [_] ?_ ?_ ?_ ?_ rest⟩
    · rw [trailing?_ofNat (by omega), if_neg (by omega), if_neg (by omega), if_pos (by omega)]
      rfl
    · exact secondRange_ofNat (by omega) (by omega) (by omega) (by omega) (by omega) (by omega)
    · simpa using isContinuation_ofNat v
    · simp only [scalar, List.length_cons, List.length_nil, List.foldl_cons, List.foldl_nil]
      rw [toNat_ofNat (by omega), toNat_ofNat (by omega), toNat_ofNat (by omega)]
      omega
  · refine ⟨_, _, hencode, fun rest ↦ head_append [_, _] ?_ ?_ ?_ ?_ rest⟩
    · rw [trailing?_ofNat (by omega), if_neg (by omega), if_neg (by omega), if_neg (by omega),
        if_pos (by omega)]
      rfl
    · exact secondRange_ofNat (by omega) (by omega) (by omega) (by omega) (by omega) (by omega)
    · simpa using And.intro (isContinuation_ofNat (v / 64)) (isContinuation_ofNat v)
    · simp only [scalar, List.length_cons, List.length_nil, List.foldl_cons, List.foldl_nil]
      rw [toNat_ofNat (by omega), toNat_ofNat (by omega), toNat_ofNat (by omega), toNat_ofNat (by omega)]
      omega

theorem units_append (c : Char) (rest : Bytes) :
    units 0 (String.utf8EncodeChar c ++ rest) = some c :: units 0 rest := by
  obtain ⟨lead, tail, he, hh⟩ := head_encodeChar c
  have hskip : ∀ tail : Bytes, units tail.length (tail ++ rest) = units 0 rest := by
    intro tail
    induction tail with
    | nil => rfl
    | cons b tail ih => exact ih
  rw [he, List.cons_append, units, hh, hskip]

theorem encode_append (s t : String) : encode (s ++ t) = encode s ++ encode t := by
  rw [encode, String.toList_append, List.flatMap_append, encode, encode]

theorem units_encode (cs : List Char) : units 0 (cs.flatMap String.utf8EncodeChar) = cs.map some := by
  induction cs with
  | nil => rfl
  | cons c cs ih => rw [List.flatMap_cons, units_append, ih, List.map_cons]

theorem decode?_encode (s : String) : decode? (encode s) = some s := by
  have hm : (s.toList.map some).mapM id = some s.toList :=
    mapM_map_of_read (f := some) (g := id) (fun _ ↦ rfl) s.toList
  rw [decode?, encode, units_encode, hm, Option.map_some, String.ofList_toList]

theorem encode_injective {s t : String} (h : encode s = encode t) : s = t := by
  have hd : decode? (encode s) = decode? (encode t) := congrArg decode? h
  rw [decode?_encode, decode?_encode] at hd
  exact Option.some_inj.1 hd

theorem utf8EncodeChar_of_lt {c : Char} (h : c.toNat < 128) :
    String.utf8EncodeChar c = [UInt8.ofNat c.toNat] := by
  rw [String.utf8EncodeChar.eq_1]
  exact if_pos (Nat.le_of_lt_succ h)

theorem le_of_mem_encodeChar {c : Char} (h : 128 ≤ c.toNat) (hb : b ∈ String.utf8EncodeChar c) :
    0x80 ≤ b := by
  have hle (v : Nat) (hv : v < 128) : 0x80 ≤ UInt8.ofNat (v + 128) := by
    rw [UInt8.le_iff_toNat_le, toNat_ofNat (by omega)]
    exact Nat.le_add_left _ _
  have hn : ¬ c.val.toNat ≤ 127 := Nat.not_le.2 h
  rw [String.utf8EncodeChar.eq_1] at hb
  simp only [if_neg hn] at hb
  split_ifs at hb <;> simp only [List.mem_cons, List.not_mem_nil, or_false] at hb
  · rcases hb with rfl | rfl
    · exact hle (_ + 64) (by omega)
    · exact hle _ (by omega)
  · rcases hb with rfl | rfl | rfl
    · exact hle (_ + 96) (by omega)
    · exact hle _ (by omega)
    · exact hle _ (by omega)
  · rcases hb with rfl | rfl | rfl | rfl
    · exact hle (_ + 112) (by omega)
    · exact hle _ (by omega)
    · exact hle _ (by omega)
    · exact hle _ (by omega)

end Utf8

end CertGate
