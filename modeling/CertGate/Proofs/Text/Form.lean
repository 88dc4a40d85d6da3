import CertGate.Proofs.Text.Decoder
import CertGate.Proofs.Text.Percent
import Mathlib.Data.List.Forall2

namespace CertGate

namespace Form

/-- A name or a value is percent-decoded after each `+` has become a space, and is then read as
UTF-8. -/
def Reads (part : Bytes) (text : String) : Prop :=
  ∃ octets, Percent.Decodes (part.map fun b ↦ if b = 0x2B then 0x20 else b) octets ∧
    Utf8.Decodes octets text

inductive ReadsPair : (piece : Bytes) → String × String → Prop
  | cut {name value : Bytes} {n v : String} (hname : 0x3D ∉ name) (hn : Reads name n) (hv : Reads value v) :
      ReadsPair (name ++ 0x3D :: value) (n, v)
  | whole {name : Bytes} {n : String} (hname : 0x3D ∉ name) (hn : Reads name n) : ReadsPair name (n, "")

/-- A query is read piece by piece, where the pieces are what is between the `&`, and the empty ones
are left out. -/
def Parses (query : Bytes) (ps : List (String × String)) : Prop :=
  ∃ pieces : List Bytes, query = [0x26].intercalate pieces ∧ (∀ piece ∈ pieces, 0x26 ∉ piece) ∧
    List.Forall₂ ReadsPair (pieces.filter (!·.isEmpty)) ps

variable {part piece query octets : Bytes} {text : String} {pair : String × String}
  {ps : List (String × String)}

theorem reads_iff : Reads part text ↔ decodePart part = text := by
  simp only [Reads, Percent.decodes_iff, Utf8.decodes_iff, exists_eq_left']
  rfl

theorem decodePair_cut {name : Bytes} (hname : 0x3D ∉ name) (value : Bytes) :
    decodePair (name ++ 0x3D :: value) = (decodePart name, decodePart value) := by
  have hne : ∀ b ∈ name, (b != 0x3D) = true := fun b hb ↦ bne_iff_ne.2 fun h ↦ hname (h ▸ hb)
  rw [decodePair, List.takeWhile_append_of_pos hne, List.dropWhile_append_of_pos hne]
  simp

theorem decodePair_whole (h : 0x3D ∉ piece) : decodePair piece = (decodePart piece, "") := by
  have hne : ∀ b ∈ piece, (b != 0x3D) = true := fun b hb ↦ bne_iff_ne.2 fun hc ↦ h (hc ▸ hb)
  rw [decodePair, List.takeWhile_eq_self_iff.2 hne, List.dropWhile_eq_nil_iff.2 hne]
  rfl

theorem ReadsPair.decodePair_eq (h : ReadsPair piece pair) : decodePair piece = pair := by
  cases h with
  | cut hname hn hv => rw [decodePair_cut hname, reads_iff.1 hn, reads_iff.1 hv]
  | whole hname hn => rw [decodePair_whole hname, reads_iff.1 hn]

theorem readsPair_decodePair (piece : Bytes) : ReadsPair piece (decodePair piece) := by
  by_cases hmem : 0x3D ∈ piece
  · obtain ⟨name, value, rfl, hname⟩ := List.eq_append_cons_of_mem hmem
    rw [decodePair_cut hname]
    exact .cut hname (reads_iff.2 rfl) (reads_iff.2 rfl)
  · rw [decodePair_whole hmem]
    exact .whole hmem (reads_iff.2 rfl)

theorem readsPair_iff : ReadsPair piece pair ↔ decodePair piece = pair :=
  ⟨ReadsPair.decodePair_eq, fun h ↦ h ▸ readsPair_decodePair piece⟩

theorem splitOn_eq (sep : UInt8) (bs : Bytes) : splitOn sep bs = bs.splitOn sep := by
  induction bs with
  | nil => rfl
  | cons b bs ih =>
    rw [splitOn, List.splitOn_cons_eq_if_modifyHead, ih]
    by_cases hb : b = sep
    · simp [hb]
    · simp only [hb, beq_iff_eq, ↓reduceIte]
      cases hs : bs.splitOn sep with
      | nil => exact absurd hs (List.splitOn_ne_nil sep bs)
      | cons piece pieces => rfl

theorem notMem_of_mem_splitOn {sep : UInt8} {bs : Bytes} (h : piece ∈ splitOn sep bs) : sep ∉ piece := by
  fun_induction splitOn sep bs generalizing piece with
  | case1 =>
    rw [List.mem_singleton.1 h]
    exact List.not_mem_nil
  | case2 rest ih =>
    rcases List.mem_cons.1 h with rfl | h
    · exact List.not_mem_nil
    · exact ih h
  | case3 b rest hb ho ih =>
    rw [List.mem_singleton.1 h]
    exact List.not_mem_cons_of_ne_of_not_mem (Ne.symm hb) List.not_mem_nil
  | case4 b rest hb p ps hp ih =>
    rcases List.mem_cons.1 h with rfl | h
    · exact List.not_mem_cons_of_ne_of_not_mem (Ne.symm hb) (ih (hp ▸ List.mem_cons_self))
    · exact ih (hp ▸ List.mem_cons_of_mem p h)

/-- The reader of queries does what the rules for them say. -/
theorem parses_iff : Parses query ps ↔ pairs query = ps := by
  have hpair : ReadsPair = fun piece pair ↦ decodePair piece = pair := by
    ext piece pair
    exact readsPair_iff
  have hpairs (pieces : List Bytes) : List.Forall₂ ReadsPair pieces ps ↔ pieces.map decodePair = ps := by
    rw [hpair, ← List.forall₂_map_left_iff, List.forall₂_eq_eq_eq]
  simp only [Parses, hpairs, pairs]
  constructor
  · rintro ⟨pieces, rfl, hs, rfl⟩
    cases pieces with
    | nil => rfl
    | cons piece pieces => rw [splitOn_eq, List.splitOn_intercalate 0x26 hs (List.cons_ne_nil _ _)]
  · rintro rfl
    have hq : query = [0x26].intercalate (splitOn 0x26 query) := by
      rw [splitOn_eq, List.intercalate_splitOn]
    exact ⟨splitOn 0x26 query, hq, fun _ ↦ notMem_of_mem_splitOn, rfl⟩

theorem pairs_append (query rest : Bytes) : pairs (query ++ 0x26 :: rest) = pairs query ++ pairs rest := by
  simp only [pairs, splitOn_eq, List.splitOn_append_cons_self, List.filter_append, List.map_append]

theorem pairs_of_notMem (hp : piece ≠ []) (h : 0x26 ∉ piece) : pairs piece = [decodePair piece] := by
  rw [pairs, splitOn_eq, List.splitOn_eq_singleton h]
  simp [hp]

/-- A name or a value, and the octets that it spells. Octets with a meaning of their own have to be
escaped, any octet may be, and a `+` may stand for a space. -/
inductive Spells : (part octets : Bytes) → Prop
  | nil : Spells [] []
  | plain {b : UInt8} {part octets : Bytes} (hb : b ∉ [0x25, 0x26, 0x2B]) (h : Spells part octets) :
      Spells (b :: part) (b :: octets)
  | space {part octets : Bytes} (h : Spells part octets) : Spells (0x2B :: part) (0x20 :: octets)
  | escaped {hi lo : UInt8} {m n : Nat} {part octets : Bytes} (hm : Bytes.hexValue? hi = some m)
      (hn : Bytes.hexValue? lo = some n) (h : Spells part octets) :
      Spells (0x25 :: hi :: lo :: part) (UInt8.ofNat (m * 16 + n) :: octets)

def Writes (part text : String) : Prop := Spells (Utf8.encode part) (Utf8.encode text)

theorem Spells.decodes (h : Spells part octets) :
    Percent.Decodes (part.map fun b ↦ if b = 0x2B then 0x20 else b) octets := by
  induction h with
  | nil => exact .nil
  | plain hb h ih =>
    simp only [List.mem_cons, List.not_mem_nil, or_false, not_or] at hb
    rw [List.map_cons, if_neg hb.2.2]
    exact .plain hb.1 ih
  | space h ih => exact .plain (by decide) ih
  | escaped hm hn h ih =>
    rw [List.map_cons, List.map_cons, List.map_cons, if_neg (by decide),
      if_neg (Percent.ne_of_hexValue? hm (by decide)), if_neg (Percent.ne_of_hexValue? hn (by decide))]
    exact .escaped hm hn ih

theorem Spells.notMem (h : Spells part octets) : 0x26 ∉ part := by
  induction h with
  | nil => exact List.not_mem_nil
  | plain hb h ih =>
    simp only [List.mem_cons, List.not_mem_nil, or_false, not_or] at hb
    exact List.not_mem_cons_of_ne_of_not_mem (Ne.symm hb.2.1) ih
  | space h ih => exact List.not_mem_cons_of_ne_of_not_mem (by decide) ih
  | escaped hm hn h ih =>
    refine List.not_mem_cons_of_ne_of_not_mem (by decide) ?_
    refine List.not_mem_cons_of_ne_of_not_mem (Ne.symm (Percent.ne_of_hexValue? hm (by decide))) ?_
    exact List.not_mem_cons_of_ne_of_not_mem (Ne.symm (Percent.ne_of_hexValue? hn (by decide))) ih

theorem Writes.reads {part : String} (h : Writes part text) : Reads (Utf8.encode part) text :=
  ⟨Utf8.encode text, Spells.decodes h, Utf8.decodes_iff.2 (Utf8.decodeLossy_encode text)⟩

theorem Spells.of_percent (h : Percent.Spells part octets) (hp : ∀ b ∈ part, b ∉ [0x26, 0x2B]) :
    Spells part octets := by
  induction h with
  | nil => exact .nil
  | plain hb _ h ih =>
    obtain ⟨hmem, hp⟩ := List.forall_mem_cons.1 hp
    exact .plain (List.not_mem_cons_of_ne_of_not_mem hb hmem) (ih hp)
  | escaped hm hn h ih =>
    refine .escaped hm hn (ih fun b hb ↦ hp b ?_)
    exact List.mem_cons_of_mem _ (List.mem_cons_of_mem _ (List.mem_cons_of_mem _ hb))

theorem exists_writes (text : String) : ∃ part, Writes part text := by
  have hall : ∀ n < 256,
      (Percent.encodeOctet (UInt8.ofNat n)).all (fun b ↦ decide (b ∉ [0x26, 0x2B])) = true := by
    decide +kernel
  refine ⟨Percent.written text, ?_⟩
  rw [Writes, Percent.written, Percent.encode_ofList_map fun _ ↦ Percent.toNat_lt_of_mem_encode]
  exact .of_percent (Percent.spells_encode _) fun b hb ↦
    of_decide_eq_true (Percent.forall_mem_encode hall hb)

theorem pairs_intercalate (ts : List String) :
    pairs (Utf8.encode ("&".intercalate ts)) = ts.flatMap fun t ↦ pairs (Utf8.encode t) := by
  induction ts with
  | nil => rfl
  | cons t ts ih =>
    cases ts with
    | nil => simp
    | cons u ts =>
      have hamp : Utf8.encode "&" = [0x26] := by decide
      rw [List.flatMap_cons, String.intercalate_cons_cons, Utf8.encode_append, Utf8.encode_append, hamp,
        List.append_assoc, List.singleton_append, pairs_append, ih]

theorem pairs_of_writes {name part : String} (hname : Writes name name) (heq : 0x3D ∉ Utf8.encode name)
    (h : Writes part text) : pairs (Utf8.encode (name ++ "=" ++ part)) = [(name, text)] := by
  have hcut : Utf8.encode (name ++ "=" ++ part) = Utf8.encode name ++ 0x3D :: Utf8.encode part := by
    have hsign : Utf8.encode "=" = [0x3D] := by decide
    rw [Utf8.encode_append, Utf8.encode_append, hsign, List.append_assoc, List.singleton_append]
  have hmem : 0x26 ∉ Utf8.encode name ++ 0x3D :: Utf8.encode part := by
    rw [List.mem_append, List.mem_cons, not_or, not_or]
    exact ⟨Spells.notMem hname, by decide, Spells.notMem h⟩
  rw [hcut, pairs_of_notMem (by simp) hmem, decodePair_cut heq, reads_iff.1 hname.reads,
    reads_iff.1 h.reads]

end Form

end CertGate
