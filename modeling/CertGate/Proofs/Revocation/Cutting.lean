import CertGate.Proofs.Revocation.Partition
import CertGate.Revocation.Cutting
import Mathlib.Logic.Relation

namespace CertGate.Revocation

namespace Cutting

variable {length : UInt64} {c d : Cutting} {chunks : List Chunk}

theorem turn_of_le (h : length ≤ c.start) : c.turn length = .ok (.done c.chunks) := by
  rw [turn, if_neg (UInt64.not_lt.2 h)]
  rfl

theorem turn_of_last (h : c.start < length) (hw : c.workers.toNat ≠ 0)
    (hlast : c.workers.toNat = 1 ∨ c.share length < 2) :
    c.turn length = .ok (.done (c.chunks ++ [⟨c.start.toNat, length.toNat⟩])) := by
  obtain ⟨rest, share, hrest, hdiv, hshare⟩ := exists_share h hw
  rw [turn, if_pos h]
  refine Word.bind_eq_ok_iff.2 ⟨rest, hrest, Word.bind_eq_ok_iff.2 ⟨share, hdiv, ?_⟩⟩
  rw [if_pos (isLast_iff.2 (hshare ▸ hlast))]
  rfl

theorem exists_next (hs : 2 ≤ c.share length) (hw : 1 < c.workers.toNat) :
    ∃ d, c.turn length = .ok (.next d) := by
  have hlt : c.start < length := start_lt_of_share_pos (by omega)
  have hstart : c.start.toNat + c.share length < UInt64.size := by
    have hle : c.share length ≤ length.toNat - c.start.toNat := Nat.div_le_self _ _
    have hsize : length.toNat < UInt64.size := length.toNat_lt_size
    have hlt' : c.start.toNat < length.toNat := hlt
    omega
  have hworkers : (c.workers - 1).toNat = c.workers.toNat - 1 :=
    UInt64.toNat_sub_of_le _ _ (Nat.le_of_lt hw)
  let stop := UInt64.ofNat (c.start.toNat + c.share length)
  refine ⟨⟨stop, c.workers - 1, c.chunks ++ [⟨c.start.toNat, stop.toNat⟩]⟩,
    turn_eq_next_iff.2 ⟨hs, hw, UInt64.toNat_ofNat_of_lt' hstart, ?_, rfl⟩⟩
  rw [hworkers, Nat.sub_add_cancel (Nat.le_of_lt hw)]

theorem run_of_done (h : c.turn length = .ok (.done chunks)) : c.run length = .ok chunks := by
  rw [run]
  split <;> simp_all

theorem run_of_next (h : c.turn length = .ok (.next d)) : c.run length = d.run length := by
  rw [run]
  split <;> simp_all

/-- The chunks are those so far and the partition of what is left. -/
theorem run_eq (hw : c.workers.toNat ≠ 0) : c.run length =
    .ok (c.chunks ++ partitionFrom c.start.toNat length.toNat c.workers.toNat) := by
  -- on the number of workers, as `partitionFrom` goes
  generalize hk : c.workers.toNat = k at hw ⊢
  induction k generalizing c with
  | zero => exact absurd rfl hw
  | succ k ih =>
    by_cases hlt : c.start.toNat < length.toNat
    · by_cases hlast : k = 0 ∨ (length.toNat - c.start.toNat) / (k + 1) < 2
      · have hdone : c.turn length = .ok (.done (c.chunks ++ [⟨c.start.toNat, length.toNat⟩])) := by
          refine turn_of_last hlt (hk ▸ hw) ?_
          rw [share, hk]
          exact hlast.imp_left (congrArg (· + 1))
        rw [run_of_done hdone, partitionFrom_whole hlt hlast]
      · obtain ⟨hk0, hs⟩ : 0 < k ∧ 2 ≤ c.share length := by
          rw [share, hk]
          omega
        obtain ⟨d, hd⟩ := exists_next hs (by omega)
        obtain ⟨-, -, hstart, hworkers, hchunks⟩ := turn_eq_next_iff.1 hd
        rw [run_of_next hd, ih (by omega) (Nat.ne_of_gt hk0), hchunks, hstart]
        rw [share, hk] at hs ⊢
        rw [partitionFrom_share hk0 hs, List.append_assoc]
        rfl
    · have hle : length.toNat ≤ c.start.toNat := Nat.le_of_not_lt hlt
      rw [run_of_done (turn_of_le hle), partitionFrom_of_le hle, List.append_nil]

theorem toNat_max_one (workers : UInt64) : (max workers 1).toNat = effectiveWorkers workers.toNat := by
  rw [effectiveWorkers, Nat.max_def]
  exact apply_ite UInt64.toNat (workers ≤ 1) 1 workers

theorem run_first (length workers : UInt64) :
    (first workers).run length = .ok (partition length.toNat workers.toNat) := by
  have hw : (first workers).workers.toNat = effectiveWorkers workers.toNat := toNat_max_one workers
  rw [run_eq (hw ▸ Nat.ne_of_gt (effectiveWorkers_pos _)), hw]
  rfl

def Next (length : UInt64) (c d : Cutting) : Prop := c.turn length = .ok (.next d)

/-- Shares never decrease, so that after a first chunk no share is too small to be cut off. -/
theorem two_le_share_of_turn (h : Next length c d) : 2 ≤ d.share length := by
  obtain ⟨hs, hw, hstart, hworkers, -⟩ := turn_eq_next_iff.1 h
  have hle : c.share length ≤ d.share length := by
    rw [share, share, hstart, share, ← hworkers, Nat.sub_add_eq]
    exact share_le_next (by omega)
  exact Nat.le_trans hs hle

end Cutting

/-- Cutting with words has no fault and gives the partition, in which the workers share evenly; shares
that are too small are met on the first turn or never. -/
theorem cuts_even_shares (length workers : UInt64) :
    (Cutting.first workers).run length = .ok (partition length.toNat workers.toNat) ∧
      SharesOut length.toNat (effectiveWorkers workers.toNat) (partition length.toNat workers.toNat) ∧
      ∀ c, Relation.TransGen (Cutting.Next length) (Cutting.first workers) c → 2 ≤ c.share length := by
  refine ⟨?_, sharesOut_partition _ _, ?_⟩
  · exact Cutting.run_first length workers
  · intro c hc
    obtain ⟨_, -, h⟩ := Relation.TransGen.tail'_iff.1 hc
    exact Cutting.two_le_share_of_turn h

end CertGate.Revocation
