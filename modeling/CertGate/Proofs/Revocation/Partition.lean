import CertGate.Revocation.Partition

namespace CertGate.Revocation

section

variable {start stop workers : Nat}

theorem partitionFrom_of_le (h : stop ≤ start) : partitionFrom start stop workers = [] := by
  cases workers <;> simp [partitionFrom, h]

theorem partitionFrom_whole (h : start < stop) (hw : workers = 0 ∨ (stop - start) / (workers + 1) < 2) :
    partitionFrom start stop (workers + 1) = [⟨start, stop⟩] := by
  rw [partitionFrom, if_neg (Nat.not_le.2 h), if_pos hw]

theorem partitionFrom_share (hw : 0 < workers) (hs : 2 ≤ (stop - start) / (workers + 1)) :
    partitionFrom start stop (workers + 1) =
      ⟨start, start + (stop - start) / (workers + 1)⟩ ::
        partitionFrom (start + (stop - start) / (workers + 1)) stop workers := by
  have h : ¬ stop ≤ start := by
    intro h
    rw [Nat.sub_eq_zero_of_le h, Nat.zero_div] at hs
    omega
  have hn : ¬ (workers = 0 ∨ (stop - start) / (workers + 1) < 2) := by omega
  rw [partitionFrom, if_neg h, if_neg hn]

/-- Chunks are cut off one after another until nothing is left or the rest goes into one. -/
theorem partitionFrom_induction {motive : Nat → List Chunk → Prop}
    (nil : ∀ start, stop ≤ start → motive start [])
    (whole : ∀ start, start < stop → motive start [⟨start, stop⟩])
    (share : ∀ start share chunks, 0 < share → start + share ≤ stop → motive (start + share) chunks →
      motive start (⟨start, start + share⟩ :: chunks)) (start : Nat) (hw : 0 < workers) :
    motive start (partitionFrom start stop workers) := by
  induction workers generalizing start with
  | zero => exact absurd hw (Nat.lt_irrefl 0)
  | succ workers ih =>
    rcases Nat.lt_or_ge start stop with h | h
    · by_cases hlast : workers = 0 ∨ (stop - start) / (workers + 1) < 2
      · exact partitionFrom_whole h hlast ▸ whole start h
      · have hle : (stop - start) / (workers + 1) ≤ stop - start := Nat.div_le_self _ _
        rw [partitionFrom_share (by omega) (by omega)]
        exact share _ _ _ (by omega) (by omega) (ih _ (by omega))
    · exact partitionFrom_of_le h ▸ nil start h

end

theorem effectiveWorkers_pos (workers : Nat) : 0 < effectiveWorkers workers :=
  Nat.le_max_right workers 1

section

variable {α : Type}

theorem Chunk.of_to_end (start : Nat) (items : List α) :
    (⟨start, items.length⟩ : Chunk).of items = items.drop start := by
  simp [Chunk.of, Chunk.size, ← List.length_drop]

theorem Chunk.of_append_drop (start share : Nat) (items : List α) :
    (⟨start, start + share⟩ : Chunk).of items ++ items.drop (start + share) = items.drop start := by
  simp [Chunk.of, Chunk.size, ← List.drop_drop]

theorem flatMap_partitionFrom (items : List α) (start : Nat) {workers : Nat} (hw : 0 < workers) :
    (partitionFrom start items.length workers).flatMap (·.of items) = items.drop start := by
  refine partitionFrom_induction
    (motive := fun start chunks ↦ chunks.flatMap (·.of items) = items.drop start) ?_ ?_ ?_ start hw
  · intro start h
    exact (List.drop_eq_nil_of_le h).symm
  · intro start _
    rw [List.flatMap_singleton, Chunk.of_to_end]
  · intro start share chunks _ _ ih
    rw [List.flatMap_cons, ih, Chunk.of_append_drop]

theorem flatMap_partition (items : List α) (workers : Nat) :
    (partition items.length workers).flatMap (·.of items) = items := by
  rw [partition, flatMap_partitionFrom items 0 (effectiveWorkers_pos workers), List.drop_zero]

/-- An item is in some chunk exactly if it is in the list. -/
theorem exists_chunk_iff (workers : Nat) {items : List α} {a : α} :
    (∃ c ∈ partition items.length workers, a ∈ c.of items) ↔ a ∈ items := by
  rw [← List.mem_flatMap, flatMap_partition]

end

section

variable {start stop workers n : Nat} {chunks : List Chunk}

theorem sub_share_eq (n workers : Nat) :
    n - n / (workers + 1) = workers * (n / (workers + 1)) + n % (workers + 1) := by
  have h := Nat.div_add_mod n (workers + 1)
  rw [Nat.succ_mul] at h
  omega

theorem share_le_next (hw : 0 < workers) : n / (workers + 1) ≤ (n - n / (workers + 1)) / workers := by
  rw [sub_share_eq, Nat.le_div_iff_mul_le hw, Nat.mul_comm]
  exact Nat.le_add_right _ _

/-- The sizes of even shares of `n`, the smaller ones first. -/
def evenSizes (n workers : Nat) : List Nat :=
  List.replicate (workers - n % workers) (n / workers) ++
    List.replicate (n % workers) (n / workers + 1)

theorem evenSizes_one (n : Nat) : evenSizes n 1 = [n] := by
  simp [evenSizes, Nat.mod_one]

theorem evenSizes_succ (n : Nat) (hw : 0 < workers) :
    evenSizes n (workers + 1) = n / (workers + 1) :: evenSizes (n - n / (workers + 1)) workers := by
  have hlt : n % (workers + 1) < workers + 1 := Nat.mod_lt n workers.succ_pos
  rw [sub_share_eq, evenSizes, evenSizes, Nat.mul_add_div hw, Nat.mul_add_mod]
  generalize n / (workers + 1) = share, n % (workers + 1) = larger at hlt ⊢
  rcases Nat.lt_or_eq_of_le (Nat.le_of_lt_succ hlt) with h | rfl
  · rw [Nat.div_eq_of_lt h, Nat.mod_eq_of_lt h, Nat.succ_sub (Nat.le_of_lt h), List.replicate_succ]
    rfl
  · -- the smaller share was the last of its size
    rw [Nat.div_self hw, Nat.mod_self, Nat.add_sub_cancel_left]
    simp

theorem map_size_partitionFrom (hw : 0 < workers) (h : 2 * workers ≤ stop - start) :
    (partitionFrom start stop workers).map Chunk.size = evenSizes (stop - start) workers := by
  induction workers generalizing start with
  | zero => exact absurd hw (Nat.lt_irrefl 0)
  | succ workers ih =>
    rcases workers.eq_zero_or_pos with rfl | hw'
    · rw [partitionFrom_whole (by omega) (.inl rfl), evenSizes_one]
      rfl
    · have hs : 2 ≤ (stop - start) / (workers + 1) := (Nat.le_div_iff_mul_le hw).2 h
      have hrest : 2 * workers ≤ stop - (start + (stop - start) / (workers + 1)) := by
        rw [Nat.sub_add_eq, ← Nat.le_div_iff_mul_le hw']
        exact Nat.le_trans hs (share_le_next hw')
      rw [partitionFrom_share hw' hs, List.map_cons, ih hw' hrest, Nat.sub_add_eq, evenSizes_succ _ hw']
      simp [Chunk.size]

theorem length_evenSizes (n : Nat) (hw : 0 < workers) : (evenSizes n workers).length = workers := by
  have h : n % workers ≤ workers := Nat.le_of_lt (Nat.mod_lt n hw)
  rw [evenSizes, List.length_append, List.length_replicate, List.length_replicate, Nat.sub_add_cancel h]

theorem mem_evenSizes {size : Nat} (h : size ∈ evenSizes n workers) :
    size = n / workers ∨ size = n / workers + 1 := by
  simp only [evenSizes, List.mem_append, List.mem_replicate] at h
  exact h.imp And.right And.right

/-- Chunks without gaps from `start` up to `stop`, none of them empty. -/
def Tiles (stop : Nat) : Nat → List Chunk → Prop
  | start, [] => start = stop
  | start, c :: chunks => c.start = start ∧ start < c.stop ∧ Tiles stop c.stop chunks

theorem tiles_partitionFrom (hw : 0 < workers) (h : start ≤ stop) :
    Tiles stop start (partitionFrom start stop workers) := by
  refine partitionFrom_induction (motive := fun start chunks ↦ start ≤ stop → Tiles stop start chunks)
    ?_ ?_ ?_ start hw h
  · exact fun start hs h ↦ Nat.le_antisymm h hs
  · exact fun start hs _ ↦ ⟨rfl, hs, rfl⟩
  · intro start share chunks hs hle ih _
    exact ⟨rfl, Nat.lt_add_of_pos_right hs, ih hle⟩

def Chunk.has (c : Chunk) (i : Nat) : Bool := c.start ≤ i && i < c.stop

theorem Tiles.le (h : Tiles stop start chunks) : start ≤ stop := by
  induction chunks generalizing start with
  | nil => exact Nat.le_of_eq h
  | cons c chunks ih =>
    obtain ⟨-, hlt, h⟩ := h
    exact Nat.le_trans (Nat.le_of_lt hlt) (ih h)

/-- No position is in two chunks, and none between the ends is in no chunk. -/
theorem Tiles.countP (h : Tiles stop start chunks) (i : Nat) :
    chunks.countP (·.has i) = if start ≤ i ∧ i < stop then 1 else 0 := by
  induction chunks generalizing start with
  | nil =>
    obtain rfl : start = stop := h
    rw [List.countP_nil, if_neg (by omega)]
  | cons c chunks ih =>
    obtain ⟨rfl, hlt, h⟩ := h
    have hle := h.le
    rw [List.countP_cons, ih h]
    simp only [Chunk.has, Bool.and_eq_true, decide_eq_true_eq]
    split <;> split <;> split <;> omega

structure SharesOut (n workers : Nat) (chunks : List Chunk) : Prop where
  empty : n = 0 → chunks = []
  whole : 0 < n → workers = 1 ∨ n < 2 * workers → chunks = [⟨0, n⟩]
  even : 2 * workers ≤ n → chunks.length = workers ∧ chunks.map Chunk.size = evenSizes n workers
  tiles : Tiles n 0 chunks
  once : ∀ i, chunks.countP (·.has i) = if i < n then 1 else 0
  alike : ∀ c ∈ chunks, ∀ d ∈ chunks, c.size ≤ d.size + 1

theorem partition_zero (workers : Nat) : partition 0 workers = [] := partitionFrom_of_le (Nat.le_refl 0)

theorem partition_whole (hn : 0 < n) (h : effectiveWorkers workers = 1 ∨ n < 2 * effectiveWorkers workers) :
    partition n workers = [⟨0, n⟩] := by
  obtain ⟨k, hk⟩ := Nat.exists_eq_succ_of_ne_zero (Nat.ne_of_gt (effectiveWorkers_pos workers))
  rw [hk] at h
  rw [partition, hk]
  refine partitionFrom_whole hn (h.imp Nat.succ.inj fun h ↦ ?_)
  rwa [Nat.sub_zero, Nat.div_lt_iff_lt_mul k.succ_pos]

theorem map_size_partition (h : 2 * effectiveWorkers workers ≤ n) :
    (partition n workers).map Chunk.size = evenSizes n (effectiveWorkers workers) :=
  map_size_partitionFrom (effectiveWorkers_pos workers) h

theorem tiles_partition (n workers : Nat) : Tiles n 0 (partition n workers) :=
  tiles_partitionFrom (effectiveWorkers_pos workers) n.zero_le

theorem size_le_of_mem_partition {c d : Chunk} (hc : c ∈ partition n workers)
    (hd : d ∈ partition n workers) : c.size ≤ d.size + 1 := by
  by_cases h : 2 * effectiveWorkers workers ≤ n
  · have hsize : ∀ e ∈ partition n workers, e.size = n / effectiveWorkers workers ∨
        e.size = n / effectiveWorkers workers + 1 := fun e he ↦
      mem_evenSizes (map_size_partition h ▸ List.mem_map_of_mem he)
    have hcs := hsize c hc
    have hds := hsize d hd
    omega
  · rcases n.eq_zero_or_pos with rfl | hn
    · rw [partition_zero] at hc
      cases hc
    · rw [partition_whole hn (.inr (Nat.lt_of_not_le h)), List.mem_singleton] at hc hd
      rw [hc, hd]
      exact Nat.le_succ _

theorem sharesOut_partition (n workers : Nat) :
    SharesOut n (effectiveWorkers workers) (partition n workers) where
  empty h := h ▸ partition_zero workers
  whole := partition_whole
  even h := by
    have hsizes := map_size_partition h
    have hlength := congrArg List.length hsizes
    rw [List.length_map, length_evenSizes n (effectiveWorkers_pos workers)] at hlength
    exact ⟨hlength, hsizes⟩
  tiles := tiles_partition n workers
  once i := by
    rw [(tiles_partition n workers).countP]
    simp
  alike c hc d hd := size_le_of_mem_partition hc hd

example : (partition 11 4).map Chunk.size = [2, 3, 3, 3] := by decide

end

end CertGate.Revocation
