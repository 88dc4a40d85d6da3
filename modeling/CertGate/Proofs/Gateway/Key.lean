import CertGate.Gateway.Key
import CertGate.Http
import CertGate.Proofs.Text.Utf8

namespace CertGate

namespace Gateway

/-- The key is looked for in the form-decoded pairs of the query; an empty token is never held. -/
def HoldsKey (token : String) (r : Http.Request) : Prop :=
  token ≠ "" ∧ ∃ q, r.target.query = some q ∧ (Form.pairs (Utf8.encode q)).lookup "key" = some token

variable {a b : Bytes} {token presented : String} {r : Http.Request}

theorem foldl_or_eq_zero_iff {x : UInt8} : a.foldl (· ||| ·) x = 0 ↔ x = 0 ∧ ∀ y ∈ a, y = 0 := by
  induction a generalizing x with
  | nil => simp
  | cons y a ih => simp [ih, and_assoc]

theorem zipWith_xor_eq_zero_iff (h : a.length = b.length) :
    (∀ x ∈ List.zipWith (· ^^^ ·) a b, x = 0) ↔ a = b := by
  induction a generalizing b with
  | nil =>
    cases b with
    | nil => simp
    | cons y b => cases h
  | cons x a ih =>
    cases b with
    | nil => cases h
    | cons y b =>
      rw [List.zipWith_cons_cons, List.forall_mem_cons, UInt8.xor_eq_zero_iff,
        ih (Nat.succ.inj h), List.cons_eq_cons]

theorem sameOctets_iff : sameOctets a b = true ↔ a = b := by
  rw [sameOctets, Bool.and_eq_true, beq_iff_eq, beq_iff_eq, foldl_or_eq_zero_iff]
  constructor
  · rintro ⟨hl, -, h⟩
    exact (zipWith_xor_eq_zero_iff hl).1 h
  · rintro rfl
    exact ⟨rfl, rfl, (zipWith_xor_eq_zero_iff rfl).2 rfl⟩

theorem keyMatches_iff : keyMatches presented token = true ↔ token ≠ "" ∧ presented = token := by
  rw [keyMatches, Bool.and_eq_true, sameOctets_iff, decide_eq_true_iff]
  refine and_congr_right fun _ ↦ ⟨Utf8.encode_injective, ?_⟩
  rintro rfl
  rfl

theorem keyMatches_presentedKey_iff :
    keyMatches (presentedKey r.target.query) token = true ↔ HoldsKey token r := by
  rw [keyMatches_iff]
  refine and_congr_right fun ht ↦ ?_
  rw [presentedKey]
  cases r.target.query with
  | none => simpa using ht.symm
  | some q =>
    cases hl : (Form.pairs (Utf8.encode q)).lookup "key" with
    | none => simpa [hl] using ht.symm
    | some key => simp [hl]

end Gateway

end CertGate
