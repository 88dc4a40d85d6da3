import CertGate.Revocation.Partition

namespace CertGate.Revocation

inductive WordFault where
  | overflow
  | divisionByZero
  deriving DecidableEq, Repr

namespace Word

variable {a b c : UInt64}

def add (a b : UInt64) : Except WordFault UInt64 :=
  if a.toNat + b.toNat < UInt64.size then .ok (a + b) else .error .overflow

def sub (a b : UInt64) : Except WordFault UInt64 :=
  if b ≤ a then .ok (a - b) else .error .overflow

def div (a b : UInt64) : Except WordFault UInt64 :=
  if b = 0 then .error .divisionByZero else .ok (a / b)

theorem add_eq_ok_iff : add a b = .ok c ↔ c.toNat = a.toNat + b.toNat := by
  rw [add]
  split
  · next h =>
    have hab : (a + b).toNat = a.toNat + b.toNat := (UInt64.toNat_add a b).trans (Nat.mod_eq_of_lt h)
    rw [Except.ok.injEq, ← UInt64.toNat_inj, hab, eq_comm]
  · next h => exact iff_of_false nofun fun hc ↦ h (hc ▸ c.toNat_lt_size)

theorem sub_eq_ok_iff : sub a b = .ok c ↔ c.toNat + b.toNat = a.toNat := by
  rw [sub]
  split
  · next h =>
    have hab : (a - b).toNat = a.toNat - b.toNat := UInt64.toNat_sub_of_le a b h
    have hle : b.toNat ≤ a.toNat := h
    rw [Except.ok.injEq, ← UInt64.toNat_inj, hab]
    omega
  · next h =>
    have hle : ¬ b.toNat ≤ a.toNat := h
    exact iff_of_false nofun (by omega)

theorem div_eq_ok_iff : div a b = .ok c ↔ b.toNat ≠ 0 ∧ c.toNat = a.toNat / b.toNat := by
  have h0 : b = 0 ↔ b.toNat = 0 := UInt64.toNat_inj.symm
  rw [div]
  split
  · next h => exact iff_of_false nofun fun hc ↦ hc.1 (h0.1 h)
  · next h =>
    rw [Except.ok.injEq, ← UInt64.toNat_inj, UInt64.toNat_div, and_iff_right (mt h0.2 h), eq_comm]

theorem bind_eq_ok_iff {α β : Type} {x : Except WordFault α} {f : α → Except WordFault β} {b : β} :
    x >>= f = .ok b ↔ ∃ a, x = .ok a ∧ f a = .ok b := by
  cases x with
  | error e => exact iff_of_false nofun nofun
  | ok a => exact ⟨fun h ↦ ⟨a, rfl, h⟩, fun ⟨_, ha, h⟩ ↦ Except.ok.inj ha ▸ h⟩

end Word

/-- How far the cutting has come: where the next chunk starts, and how many workers are left to take
one. -/
structure Cutting where
  start : UInt64 := 0
  workers : UInt64
  chunks : List Chunk := []
  deriving DecidableEq

namespace Cutting

inductive Turn where
  | done (chunks : List Chunk)
  | next (c : Cutting)
  deriving DecidableEq

def first (workers : UInt64) : Cutting := { workers := max workers 1 }

def turn (length : UInt64) (c : Cutting) : Except WordFault Turn :=
  if c.start < length then do
    let rest ← Word.sub length c.start
    let share ← Word.div rest c.workers
    if c.workers = 1 ∨ share < 2 then
      return .done (c.chunks ++ [⟨c.start.toNat, length.toNat⟩])
    let stop ← Word.add c.start share
    let workers ← Word.sub c.workers 1
    return .next ⟨stop, workers, c.chunks ++ [⟨c.start.toNat, stop.toNat⟩]⟩
  else return .done c.chunks

/-- What each worker gets if all that is left is shared out evenly. -/
def share (length : UInt64) (c : Cutting) : Nat := (length.toNat - c.start.toNat) / c.workers.toNat

variable {length : UInt64} {c d : Cutting}

theorem start_lt_of_share_pos (h : 0 < c.share length) : c.start < length := by
  have hrest : 0 < length.toNat - c.start.toNat := Nat.lt_of_lt_of_le h (Nat.div_le_self _ _)
  exact Nat.lt_of_sub_pos hrest

theorem div_workers_eq_ok_iff {rest share : UInt64} (h : Word.sub length c.start = .ok rest) :
    Word.div rest c.workers = .ok share ↔ c.workers.toNat ≠ 0 ∧ share.toNat = c.share length := by
  rw [Word.div_eq_ok_iff, Cutting.share, ← Word.sub_eq_ok_iff.1 h, Nat.add_sub_cancel]

theorem exists_share (h : c.start < length) (hw : c.workers.toNat ≠ 0) : ∃ rest share,
    Word.sub length c.start = .ok rest ∧ Word.div rest c.workers = .ok share ∧
      share.toNat = c.share length := by
  have hle : c.start ≤ length := UInt64.le_of_lt h
  have hrest : Word.sub length c.start = .ok (length - c.start) := by
    rw [Word.sub_eq_ok_iff, UInt64.toNat_sub_of_le _ _ hle]
    exact Nat.sub_add_cancel hle
  have hshare : Word.div (length - c.start) c.workers = .ok ((length - c.start) / c.workers) :=
    Word.div_eq_ok_iff.2 ⟨hw, UInt64.toNat_div _ _⟩
  exact ⟨_, _, hrest, hshare, ((div_workers_eq_ok_iff hrest).1 hshare).2⟩

theorem isLast_iff {share : UInt64} :
    c.workers = 1 ∨ share < 2 ↔ c.workers.toNat = 1 ∨ share.toNat < 2 := by
  rw [← UInt64.toNat_inj, UInt64.lt_iff_toNat_lt]
  rfl

/-- The cutting goes on if a share of two or more can be cut off and a worker is left after that. -/
theorem turn_eq_next_iff : c.turn length = .ok (.next d) ↔
    2 ≤ c.share length ∧ 1 < c.workers.toNat ∧ d.start.toNat = c.start.toNat + c.share length ∧
      d.workers.toNat + 1 = c.workers.toNat ∧
      d.chunks = c.chunks ++ [⟨c.start.toNat, d.start.toNat⟩] := by
  constructor
  · intro h
    rw [turn] at h
    split at h
    · obtain ⟨rest, hrest, h⟩ := Word.bind_eq_ok_iff.1 h
      obtain ⟨share, hshare, h⟩ := Word.bind_eq_ok_iff.1 h
      obtain ⟨hw, hs⟩ := (div_workers_eq_ok_iff hrest).1 hshare
      split at h
      · cases h
      · next hlast =>
        obtain ⟨stop, hstop, h⟩ := Word.bind_eq_ok_iff.1 h
        obtain ⟨workers, hworkers, h⟩ := Word.bind_eq_ok_iff.1 h
        cases h
        rw [isLast_iff, hs] at hlast
        exact ⟨by omega, by omega, hs ▸ Word.add_eq_ok_iff.1 hstop, Word.sub_eq_ok_iff.1 hworkers, rfl⟩
    · cases h
  · rintro ⟨hs, hw, hstart, hworkers, hchunks⟩
    have hlt : c.start < length := start_lt_of_share_pos (by omega)
    obtain ⟨rest, share, hrest, hdiv, hshare⟩ := exists_share hlt (by omega)
    have hlast : ¬ (c.workers = 1 ∨ share < 2) := by
      rw [isLast_iff, hshare]
      omega
    have hstop : Word.add c.start share = .ok d.start := Word.add_eq_ok_iff.2 (hshare ▸ hstart)
    have hsub : Word.sub c.workers 1 = .ok d.workers := Word.sub_eq_ok_iff.2 hworkers
    rw [turn, if_pos hlt]
    refine Word.bind_eq_ok_iff.2 ⟨rest, hrest, Word.bind_eq_ok_iff.2 ⟨share, hdiv, ?_⟩⟩
    rw [if_neg hlast]
    refine Word.bind_eq_ok_iff.2 ⟨d.start, hstop, Word.bind_eq_ok_iff.2 ⟨d.workers, hsub, ?_⟩⟩
    rw [← hchunks]
    rfl

def run (length : UInt64) (c : Cutting) : Except WordFault (List Chunk) :=
  match _h : c.turn length with
  | .error f => .error f
  | .ok (.done chunks) => .ok chunks
  | .ok (.next d) => run length d
termination_by c.workers.toNat
decreasing_by
  have hd : d.workers.toNat + 1 = c.workers.toNat := (turn_eq_next_iff.1 ‹_›).2.2.2.1
  exact hd ▸ Nat.lt_succ_self _

end Cutting

end CertGate.Revocation
