import CertGate.Proofs.Interleaving
import CertGate.Proofs.Moves

namespace CertGate.Program

variable {α β : Type} {p : Program α} {f : α → Program β} {l k : List Move}

/-- The calls of a program to the store are of the given moves, in their order; moves may be left
out. -/
def Follows : Program α → List Move → Prop
  | done _, _ | fail _, _ => True
  | call (.store c) next, l =>
    ∃ m k, (m :: k) <:+ l ∧ m.Covers c ∧ (∀ a b, m.Alike c a b → next a = next b) ∧
      ∀ a, (next a).Follows k
  | call (.exchange _) next, l => ∀ a, (next a).Follows l
  | call .now next, l => ∀ a, (next a).Follows l
  | call .freshUuid next, l => ∀ a, (next a).Follows l

namespace Follows

theorem mono (h : p.Follows k) (hk : k <:+ l) : p.Follows l := by
  induction p with
  | done a => trivial
  | fail e => trivial
  | call c next ih =>
    cases c with
    | store c =>
      obtain ⟨m, j, hj, hm⟩ := h
      exact ⟨m, j, hj.trans hk, hm⟩
    | exchange r => exact fun a ↦ ih a (h a)
    | now => exact fun a ↦ ih a (h a)
    | freshUuid => exact fun a ↦ ih a (h a)

theorem pure (a : α) (l : List Move) : (Pure.pure a : Program α).Follows l := trivial

theorem ofResult (r : Result α) (l : List Move) : (Program.ofResult r).Follows l := by
  cases r <;> trivial

theorem bind (hp : p.Follows l) (hf : ∀ a, (f a).Follows k) : (p >>= f).Follows (l ++ k) := by
  change (p.bind f).Follows (l ++ k)
  induction p generalizing l with
  | done a => exact (hf a).mono (List.suffix_append l k)
  | fail e => trivial
  | call c next ih =>
    cases c with
    | store c =>
      obtain ⟨m, j, ⟨i, hj⟩, hc, ha, hn⟩ := hp
      refine ⟨m, j ++ k, ⟨i, ?_⟩, hc, fun a b hab ↦ ?_, fun a ↦ ih a (hn a)⟩
      · rw [← hj, List.append_assoc]
        rfl
      · exact congrArg (Program.bind · f) (ha a b hab)
    | exchange r => exact fun a ↦ ih a (hp a)
    | now => exact fun a ↦ ih a (hp a)
    | freshUuid => exact fun a ↦ ih a (hp a)

theorem of_offline (h : p.Offline) (l : List Move) : p.Follows l := by
  induction p with
  | done a => trivial
  | fail e => trivial
  | call c next ih =>
    cases c with
    | store c => exact h.elim
    | exchange r => exact fun a ↦ ih a (h a)
    | now => exact fun a ↦ ih a (h a)
    | freshUuid => exact h.elim

theorem tryCatch {handle : Error → Program α} (h : p.Follows l) (hh : ∀ e, (handle e).Follows []) :
    (MonadExcept.tryCatch p handle).Follows l := by
  induction p generalizing l with
  | done a => trivial
  | fail e => exact (hh e).mono (List.nil_suffix)
  | call c next ih =>
    cases c with
    | store c =>
      obtain ⟨m, j, hj, hc, ha, hn⟩ := h
      exact ⟨m, j, hj, hc, fun a b hab ↦ congrArg (MonadExcept.tryCatch · handle) (ha a b hab),
        fun a ↦ ih a (hn a)⟩
    | exchange r => exact fun a ↦ ih a (h a)
    | now => exact fun a ↦ ih a (h a)
    | freshUuid => exact fun a ↦ ih a (h a)

theorem ite {c : Prop} [Decidable c] {q : Program α} (hp : p.Follows l) (hq : q.Follows l) :
    (if c then p else q).Follows l := by
  split
  · exact hp
  · exact hq

theorem bind_ite {c : Prop} [Decidable c] {p : Program Unit} {f : Unit → Program β}
    (hp : p.Follows l) (hf : ∀ u, (f u).Follows k) :
    (if c then p >>= f else f ()).Follows (l ++ k) :=
  ite (hp.bind hf) ((hf ()).mono (List.suffix_append l k))

theorem look {c : StoreCall} (h : c.isQuery = true) : (store c).Follows [.look c.collection] :=
  ⟨_, [], List.suffix_refl _, ⟨h, rfl⟩, fun _ _ hab ↦ congrArg done hab, fun _ ↦ trivial⟩

theorem glance {c : StoreCall} {f : c.Answer → Program β} (hq : c.isQuery = true)
    (hc : c.collection = .bindings) (ha : ∀ a b, Move.glance.Alike c a b → f a = f b)
    (hf : ∀ a, (f a).Follows l) : (store c >>= f).Follows (.glance :: l) :=
  ⟨_, l, List.suffix_refl _, ⟨hq, hc⟩, ha, hf⟩

theorem change (c : StoreCall) : (store c).Follows [.change c.collection] :=
  ⟨_, [], List.suffix_refl _, rfl, fun _ _ hab ↦ congrArg done hab, fun _ ↦ trivial⟩

theorem stamp {q : Program β} (uuid time : String) (hq : q.Follows l) :
    (store (.stampBinding uuid time) >>= fun _ ↦ q).Follows (.stamp :: l) :=
  ⟨_, l, List.suffix_refl _, ⟨uuid, time, rfl⟩, fun _ _ _ ↦ rfl, fun _ ↦ hq⟩

theorem removeBindings {c : StoreCall} (h : Move.removeBindings.Covers c) :
    (store c).Follows [.removeBindings] :=
  ⟨_, [], List.suffix_refl _, h, fun _ _ hab ↦ congrArg done hab, fun _ ↦ trivial⟩

theorem atStore (h : p.Follows l) (w : World) (n : Nat) : (p.atStore w n).Follows l := by
  induction p generalizing l n with
  | done a => trivial
  | fail e => trivial
  | call c next ih =>
    cases c with
    | store c =>
      obtain ⟨m, j, hj, hc, ha, hn⟩ := h
      refine ⟨m, j, hj, hc, ?_, fun a ↦ ih a (hn a) n⟩
      exact fun a b hab ↦ congrArg (Program.atStore w n) (ha a b hab)
    | exchange r => exact ih _ (h _) n
    | now => exact ih _ (h _) n
    | freshUuid => exact ih _ (h _) (n + 1)

end Follows

def Free (l k : List Move) : Prop := ∀ m ∈ l, ∀ n ∈ k, m.conflicts n = false

theorem Free.symm (h : Free l k) : Free k l := by
  intro n hn m hm
  rw [Move.conflicts_comm]
  exact h m hm n hn

def MadeBy (l : List Move) (c : Pending α) : Prop :=
  ∃ m ∈ l, m.Covers c.call ∧ ∀ a b, m.Alike c.call a b → c.next a = c.next b

theorem MadeBy.mono {c : Pending α} (h : MadeBy l c) (hk : l ⊆ k) : MadeBy k c := by
  obtain ⟨m, hm, hc⟩ := h
  exact ⟨m, hk hm, hc⟩

theorem MadeBy.swap {c : Pending α} {d : Pending β} (hc : MadeBy l c) (hd : MadeBy k d)
    (h : Free l k) (s : Store) : Swap c d s := by
  obtain ⟨m, hm, hmc, hma⟩ := hc
  obtain ⟨n, hn, hnd, hna⟩ := hd
  obtain ⟨hl, hr, hs⟩ := Move.commutes hmc hnd (h m hm n hn) s
  exact ⟨hma _ _ hl, hna _ _ hr, hs⟩

abbrev Journey (l : List Move) : Program α → Store → Program α → Store → Prop :=
  Path fun c _ ↦ MadeBy l c

theorem Journey.mono {p₀ p : Program α} {s₀ s : Store} (h : Journey l p₀ s₀ p s) (hk : l ⊆ k) :
    Journey k p₀ s₀ p s :=
  Path.mono h fun _ _ hc ↦ hc.mono hk

theorem Journey.overtake {c : Pending α} {q₀ q : Program β} {s₀ s : Store} (hc : MadeBy l c)
    (hq : Journey k q₀ s₀ q s) (h : Free l k) :
    Path (Swap c) q₀ s₀ q s ∧ Journey k q₀ (c.call.apply s₀).2 q (c.call.apply s).2 := by
  have hswap : ∀ (d : Pending β) (u : Store), MadeBy k d → Swap c d u := fun _ u hd ↦ hc.swap hd h u
  refine ⟨Path.mono hq hswap, ?_⟩
  exact (Path.overtake hq fun d u hd ↦ ⟨hswap d u hd, hd⟩).2

/-- In how many places moves of two scripts get in the way of each other. -/
def conflictCount : List Move → List Move → Nat
  | [], _ => 0
  | m :: l, k => k.countP m.conflicts + conflictCount l k

theorem conflictCount_append (l l' k : List Move) :
    conflictCount (l ++ l') k = conflictCount l k + conflictCount l' k := by
  induction l with
  | nil => exact (Nat.zero_add _).symm
  | cons m l ih => rw [List.cons_append, conflictCount, conflictCount, ih, Nat.add_assoc]

theorem conflictCount_nil_right (l : List Move) : conflictCount l [] = 0 := by
  induction l with
  | nil => rfl
  | cons m l ih => rw [conflictCount, ih, List.countP_nil]

theorem conflictCount_cons_right (l k : List Move) (n : Move) :
    conflictCount l (n :: k) = l.countP n.conflicts + conflictCount l k := by
  induction l with
  | nil => rfl
  | cons m l ih =>
    simp only [conflictCount, List.countP_cons, m.conflicts_comm n, ih]
    omega

theorem conflictCount_comm (l k : List Move) : conflictCount l k = conflictCount k l := by
  induction l with
  | nil => exact (conflictCount_nil_right k).symm
  | cons m l ih => rw [conflictCount_cons_right, ← ih, conflictCount]

theorem free_of_conflictCount (h : conflictCount l k = 0) : Free l k := by
  induction l with
  | nil => exact fun m hm ↦ absurd hm List.not_mem_nil
  | cons m l ih =>
    obtain ⟨hm, hl⟩ := Nat.add_eq_zero_iff.1 h
    have hmk : ∀ n ∈ k, m.conflicts n = false := by simpa [List.countP_eq_zero] using hm
    exact List.forall_mem_cons.2 ⟨hmk, ih hl⟩

/-- From the only place on where the moves of two scripts get in the way of each other, what is left
of a script is in the way of nothing in the other. -/
theorem free_after_conflict {l₁ l₂ k₁ k₂ : List Move} {m n : Move}
    (h : conflictCount (l₁ ++ m :: l₂) (k₁ ++ n :: k₂) ≤ 1) (hmn : m.conflicts n = true) :
    Free (l₁ ++ m :: l₂) k₂ := by
  have hm : (k₁ ++ n :: k₂).countP m.conflicts =
      k₁.countP m.conflicts + (k₂.countP m.conflicts + 1) := by
    simp [hmn]
  rw [conflictCount_append, conflictCount] at h
  have h₁ : conflictCount l₁ (k₁ ++ n :: k₂) = 0 := by omega
  have h₂ : conflictCount l₂ (k₁ ++ n :: k₂) = 0 := by omega
  have hk : k₂.countP m.conflicts = 0 := by omega
  intro a ha b hb
  have hb' : b ∈ k₁ ++ n :: k₂ := List.mem_append_right _ (List.mem_cons_of_mem _ hb)
  rcases List.mem_append.1 ha with ha | ha
  · exact free_of_conflictCount h₁ a ha b hb'
  · rcases List.mem_cons.1 ha with rfl | ha
    · simpa using List.countP_eq_zero.1 hk b hb
    · exact free_of_conflictCount h₂ a ha b hb'

variable {p₀ : Program α} {q₀ q : Program β} {s₀ s₁ : Store} {s u : State} {r : Result α}
variable {t : Result β} {w : World}

theorem inOrder_of_free (h : Interleaved w p q s r t u) (hp : p.Follows l) (hq : q.Follows k)
    (hps : p.StoreOnly) (hqs : q.StoreOnly) {k' : List Move} (hk : k <:+ k')
    (hpath : Journey k' q₀ s₀ q s.store) (hc : Free l k') :
    InOrder q₀ s₀ p q s.store r t u.store := by
  induction h generalizing l k s₀ with
  | ended hr ht => exact .ended hr ht
  | @left c next q s u r t h ih =>
    cases c with
    | store c =>
      obtain ⟨m, j, hj, hmc, hma, hn⟩ := hp
      have hm : m ∈ l := hj.subset List.mem_cons_self
      have hmade : MadeBy l (⟨c, next⟩ : Pending α) := ⟨m, hm, hmc, hma⟩
      obtain ⟨hswap, hpath'⟩ := Journey.overtake hmade hpath hc
      refine .left hswap ?_
      exact ih (hn _) hq (hps _) hqs hk hpath' fun a ha b hb ↦
        hc a (hj.subset (List.mem_cons_of_mem _ ha)) b hb
    | exchange r => exact hps.elim
    | now => exact hps.elim
    | freshUuid => exact hps.elim
  | @right p c next s u r t h ih =>
    cases c with
    | store c =>
      obtain ⟨n, j, hj, hnc, hna, hn⟩ := hq
      have hmem : n ∈ k' := hk.subset (hj.subset List.mem_cons_self)
      refine .right (ih hp (hn _) hps (hqs _) ?_ (hpath.tail ⟨n, hmem, hnc, hna⟩) hc)
      exact ((List.suffix_cons n j).trans hj).trans hk
    | exchange r => exact hqs.elim
    | now => exact hqs.elim
    | freshUuid => exact hqs.elim

/-- Before a call of a program, when no two calls that get in the way of each other have been made:
either the call is in the way of none of those made by the other program, or what is left of that
one is in the way of nothing. -/
theorem Follows.free_or_free {c : StoreCall} {next : c.Answer → Program α} {x : Store}
    (hp : (call (.store c) next).Follows l) {l' k' : List Move}
    (hpp : Journey l' p₀ s₁ (call (.store c) next) x) (hqp : Journey k' q₀ s₀ q x)
    (hc : conflictCount (l' ++ l) (k' ++ k) ≤ 1) :
    (Path (Swap ⟨c, next⟩) q₀ s₀ q x ∧ Journey k' q₀ (c.apply s₀).2 q (c.apply x).2 ∧
      ∃ i j, (∀ a, (next a).Follows j) ∧ conflictCount (i ++ j) (k' ++ k) ≤ 1 ∧
        Journey i p₀ s₁ (next (c.apply x).1) (c.apply x).2) ∨
    ∃ i, l <:+ i ∧ Journey i p₀ s₁ (call (.store c) next) x ∧ Free k i := by
  obtain ⟨m, j, ⟨i, rfl⟩, hmc, hma, hn⟩ := hp
  have hmade : MadeBy [m] (⟨c, next⟩ : Pending α) := ⟨m, List.mem_singleton_self m, hmc, hma⟩
  -- If the move is in the way of one that has been made, this is the only place.
  by_cases hfree : ∀ n ∈ k', m.conflicts n = false
  · obtain ⟨hswap, hq⟩ := Journey.overtake hmade hqp (List.forall_mem_singleton.2 hfree)
    refine .inl ⟨hswap, hq, l' ++ i ++ [m], j, hn, by simpa using hc, ?_⟩
    have hpp' : Journey (l' ++ i ++ [m]) p₀ s₁ (call (.store c) next) x := hpp.mono (by simp)
    exact hpp'.tail (hmade.mono (by simp))
  · obtain ⟨n, hnk, hmn⟩ : ∃ n ∈ k', m.conflicts n = true := by simpa using hfree
    obtain ⟨k₁, k₂, rfl⟩ := List.append_of_mem hnk
    have hc' : conflictCount ((l' ++ i) ++ m :: j) (k₁ ++ n :: (k₂ ++ k)) ≤ 1 := by simpa using hc
    have hafter : Free (l' ++ (i ++ m :: j)) k := by
      intro a ha b hb
      exact free_after_conflict hc' hmn a (by simpa using ha) b (List.mem_append_right _ hb)
    exact .inr ⟨_, List.suffix_append _ _, hpp.mono (by simp), hafter.symm⟩

/-- As long as no two calls that get in the way of each other have been made, both orders are open;
the first pair of them decides. -/
theorem inOrder_or_inOrder_of_path (h : Interleaved w p q s r t u) (hp : p.Follows l) (hq : q.Follows k)
    (hps : p.StoreOnly) (hqs : q.StoreOnly) {l' k' : List Move}
    (hpp : Journey l' p₀ s₁ p s.store) (hqp : Journey k' q₀ s₀ q s.store)
    (hc : conflictCount (l' ++ l) (k' ++ k) ≤ 1) :
    InOrder q₀ s₀ p q s.store r t u.store ∨ InOrder p₀ s₁ q p s.store t r u.store := by
  induction h generalizing l k s₀ s₁ l' k' with
  | ended hr ht => exact .inl (.ended hr ht)
  | @left c next q s u r t h ih =>
    cases c with
    | store c =>
      rcases hp.free_or_free hpp hqp hc with ⟨hswap, hqp', i, j, hn, hc', hpp'⟩ | ⟨i, hi, hpp', hfree⟩
      · rcases ih (hn _) hq (hps _) hqs hpp' hqp' hc' with ho | ho
        · exact .inl (.left hswap ho)
        · exact .inr (.right ho)
      · exact .inr (inOrder_of_free (Interleaved.left h).symm hq hp hqs hps hi hpp' hfree)
    | exchange r => exact hps.elim
    | now => exact hps.elim
    | freshUuid => exact hps.elim
  | @right p c next s u r t h ih =>
    cases c with
    | store c =>
      rw [conflictCount_comm] at hc
      rcases hq.free_or_free hqp hpp hc with ⟨hswap, hpp', i, j, hn, hc', hqp'⟩ | ⟨i, hi, hqp', hfree⟩
      · rw [conflictCount_comm] at hc'
        rcases ih hp (hn _) hps (hqs _) hpp' hqp' hc' with ho | ho
        · exact .inl (.right ho)
        · exact .inr (.left hswap ho)
      · exact .inl (inOrder_of_free (Interleaved.right h) hp hq hps hqs hi hqp' hfree)
    | exchange r => exact hqs.elim
    | now => exact hqs.elim
    | freshUuid => exact hqs.elim

/-- If the scripts of two programs meet at one place at most, every interleaving is in the order of
one program or the other. -/
theorem inOrder_or_inOrder (h : Interleaved w p q s r t u) (hp : p.Follows l) (hq : q.Follows k)
    (hps : p.StoreOnly) (hqs : q.StoreOnly) (hc : conflictCount l k ≤ 1) :
    InOrder q s.store p q s.store r t u.store ∨ InOrder p s.store q p s.store t r u.store := by
  have hpp : Journey [] p s.store p s.store := .refl _ _
  have hqp : Journey [] q s.store q s.store := .refl _ _
  exact inOrder_or_inOrder_of_path h hp hq hps hqs hpp hqp hc

end CertGate.Program
