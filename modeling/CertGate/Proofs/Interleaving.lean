import CertGate.Program.Interleaving
import CertGate.Proofs.Program

namespace CertGate.Program

variable {α β : Type}

/-- The calls of a program to the store; all others are answered by surroundings of its own. -/
def atStore (w : World) : (issued : Nat) → Program α → Program α
  | _, done a => done a
  | _, fail e => fail e
  | n, call (.store c) next => call (.store c) fun a ↦ atStore w n (next a)
  | n, call (.exchange r) next => atStore w n (next (w.network r))
  | n, call .now next => atStore w n (next w.now)
  | n, call .freshUuid next => atStore w (n + 1) (next (w.uuids n))

def StoreOnly : Program α → Prop
  | done _ | fail _ => True
  | call (.store _) next => ∀ a, (next a).StoreOnly
  | call (.exchange _) _ | call .now _ | call .freshUuid _ => False

theorem storeOnly_atStore (w : World) (n : Nat) (p : Program α) : (atStore w n p).StoreOnly := by
  induction p generalizing n with
  | done a => trivial
  | fail e => trivial
  | call c next ih =>
    cases c with
    | store c => exact fun a ↦ ih a n
    | exchange r => exact ih _ n
    | now => exact ih _ n
    | freshUuid => exact ih _ (n + 1)

theorem run_atStore (v w : World) (p : Program α) (n : Nat) (l : List OutgoingRequest) (s : State) :
    run v (atStore w n p) s =
      ((run w p ⟨s.store, n, l⟩).1, { s with store := (run w p ⟨s.store, n, l⟩).2.store }) := by
  induction p generalizing n l s with
  | done a => rfl
  | fail e => rfl
  | call c next ih =>
    cases c with
    | store c => exact ih _ n l _
    | exchange r => exact ih _ n _ s
    | now => exact ih _ n l s
    | freshUuid => exact ih _ (n + 1) l s

theorem run_of_result? {v : World} {p : Program α} {r : Result α} (h : p.result? = some r) (s : State) :
    run v p s = (r, s) := by
  cases p with
  | done a => cases h; rfl
  | fail e => cases h; rfl
  | call c next => cases h

theorem Interleaved.symm {w : World} {p : Program α} {q : Program β} {s u : State} {r : Result α}
    {t : Result β} (h : Interleaved w p q s r t u) : Interleaved w q p s t r u := by
  induction h with
  | ended hp hq => exact .ended hq hp
  | left h ih => exact .right ih
  | right h ih => exact .left ih

/-- A call to the store with what the program does on the answer. -/
structure Pending (α : Type) where
  call : StoreCall
  next : call.Answer → Program α

/-- Two calls may change places at a store: it ends up the same, and neither program goes on in
another way. -/
structure Swap (c : Pending α) (d : Pending β) (s : Store) : Prop where
  left : c.next (c.call.apply (d.call.apply s).2).1 = c.next (c.call.apply s).1
  right : d.next (d.call.apply (c.call.apply s).2).1 = d.next (d.call.apply s).1
  store : (c.call.apply (d.call.apply s).2).2 = (d.call.apply (c.call.apply s).2).2

/-- Alone, a program comes from `p` and the store `s` to `q` and the store `t`, by calls with a
property. -/
inductive Path (P : Pending α → Store → Prop) : Program α → Store → Program α → Store → Prop
  | refl (p : Program α) (s : Store) : Path P p s p s
  | head {c : StoreCall} {next : c.Answer → Program α} {q : Program α} {s t : Store}
      (h : P ⟨c, next⟩ s) (hp : Path P (next (c.apply s).1) (c.apply s).2 q t) :
      Path P (.call (.store c) next) s q t

namespace Path

variable {P Q : Pending α → Store → Prop} {p q : Program α} {s t : Store}

theorem tail {c : StoreCall} {next : c.Answer → Program α}
    (hp : Path P p s (.call (.store c) next) t) (h : P ⟨c, next⟩ t) :
    Path P p s (next (c.apply t).1) (c.apply t).2 := by
  generalize hq : Program.call (.store c) next = q at hp
  induction hp with
  | refl p s => subst hq; exact .head h (.refl _ _)
  | head hd hp ih => exact .head hd (ih h hq)

theorem mono (hp : Path P p s q t) (h : ∀ c u, P c u → Q c u) : Path Q p s q t := by
  induction hp with
  | refl p s => exact .refl p s
  | head hd hp ih => exact .head (h _ _ hd) ih

theorem run_eq (hp : Path P p s q t) (v : World) (e : State) :
    run v p { e with store := s } = run v q { e with store := t } := by
  induction hp with
  | refl p s => rfl
  | head hd hp ih => exact ih

/-- A call that may change places with every call of a path may be made before all of them. -/
theorem overtake {c : Pending β} (hp : Path P p s q t)
    (h : ∀ d u, P d u → Swap c d u ∧ Q d (c.call.apply u).2) :
    c.next (c.call.apply t).1 = c.next (c.call.apply s).1 ∧
      Path Q p (c.call.apply s).2 q (c.call.apply t).2 := by
  induction hp with
  | refl p s => exact ⟨rfl, .refl p _⟩
  | head hd hp ih =>
    -- The call is made before the first one of the path, and by induction before all others.
    obtain ⟨hs, hq⟩ := h _ _ hd
    obtain ⟨hn, hpath⟩ := ih
    refine ⟨hn.trans hs.left, .head hq ?_⟩
    have hr := hs.right
    dsimp only at hr
    rw [hr, ← hs.store]
    exact hpath

end Path

/-- An interleaving from the programs `p` and `q` and the store `s` on, in which every call of the
first program could have been made before those of the second that were: the second started as `q₀`,
and `s₀` is the store that the first one alone has come to. -/
inductive InOrder (q₀ : Program β) : (s₀ : Store) → Program α → Program β → Store → Result α →
    Result β → Store → Prop
  | ended {q : Program β} {p : Program α} {s₀ s : Store} {r : Result α} {t : Result β}
      (hp : p.result? = some r) (hq : q.result? = some t) : InOrder q₀ s₀ p q s r t s
  | left {q : Program β} {s₀ s u : Store} {c : StoreCall} {next : c.Answer → Program α}
      {r : Result α} {t : Result β} (hq : Path (Swap ⟨c, next⟩) q₀ s₀ q s)
      (h : InOrder q₀ (c.apply s₀).2 (next (c.apply s).1) q (c.apply s).2 r t u) :
      InOrder q₀ s₀ (.call (.store c) next) q s r t u
  | right {p : Program α} {s₀ s u : Store} {c : StoreCall}
      {next : c.Answer → Program β} {r : Result α} {t : Result β}
      (h : InOrder q₀ s₀ p (next (c.apply s).1) (c.apply s).2 r t u) :
      InOrder q₀ s₀ p (.call (.store c) next) s r t u

namespace InOrder

variable {q₀ q : Program β} {p : Program α} {s₀ s u : Store} {r : Result α} {t : Result β}

theorem interleaved (h : InOrder q₀ s₀ p q s r t u) (w : World) (e : State) :
    Interleaved w p q { e with store := s } r t { e with store := u } := by
  induction h with
  | ended hp hq => exact .ended hp hq
  | left hq h ih => exact .left ih
  | right h ih => exact .right ih

theorem serial (h : InOrder q₀ s₀ p q s r t u) (hq : Path (fun _ _ ↦ True) q₀ s₀ q s) (v : World)
    (e : State) :
    ∃ x, run v p { e with store := s₀ } = (r, { e with store := x }) ∧
      run v q₀ { e with store := x } = (t, { e with store := u }) := by
  induction h with
  | ended hp hqr => exact ⟨_, run_of_result? hp _, (hq.run_eq v e).trans (run_of_result? hqr _)⟩
  | left hs h ih =>
    -- The call overtakes what the second program has done so far.
    obtain ⟨hn, hpath⟩ := hs.overtake (Q := fun _ _ ↦ True) fun d u hd ↦ ⟨hd, trivial⟩
    obtain ⟨x, hp, hr⟩ := ih hpath
    dsimp only at hn
    exact ⟨x, by rw [hn] at hp; exact hp, hr⟩
  | right h ih => exact ih (hq.tail trivial)

end InOrder

/-- The calls of two programs in the order of a schedule, where `true` stands for the first. -/
def interleave (w : World) : (schedule : List Bool) → Program α → Program β → State →
    Option (Result α × Result β × State)
  | [], p, q, s => do return (← p.result?, ← q.result?, s)
  | true :: l, .call c next, q, s => interleave w l (next (answer w s c).1) q (answer w s c).2
  | false :: l, p, .call c next, s => interleave w l p (next (answer w s c).1) (answer w s c).2
  | _, _, _, _ => none

theorem interleaved_of_interleave {w : World} {schedule : List Bool} {p : Program α} {q : Program β}
    {s u : State} {r : Result α} {t : Result β} (h : interleave w schedule p q s = some (r, t, u)) :
    Interleaved w p q s r t u := by
  induction schedule generalizing p q s with
  | nil =>
    simp only [interleave, Option.pure_def, Option.bind_eq_bind, Option.bind_eq_some_iff, Option.some_inj,
      Prod.mk.injEq] at h
    obtain ⟨r, hp, t, hq, rfl, rfl, rfl⟩ := h
    exact .ended hp hq
  | cons first schedule ih =>
    cases first with
    | true =>
      cases p with
      | call c next => exact .left (ih h)
      | done a => simp [interleave] at h
      | fail e => simp [interleave] at h
    | false =>
      cases q with
      | call c next => exact .right (ih h)
      | done a => simp [interleave] at h
      | fail e => simp [interleave] at h

section Tasks

variable {w : World} {ps : List (Program α)} {p : Program α} {s t : State} {i : Nat}

theorem offline_set {c : Call} {next : c.Answer → Program α} {a : c.Answer} (hp : ∀ p ∈ ps, p.Offline)
    (hm : .call c next ∈ ps) : ∀ p ∈ ps.set i (next a), p.Offline := by
  intro q hq
  rcases List.mem_or_eq_of_mem_set hq with hq | rfl
  · exact hp q hq
  · have hc := hp _ hm
    cases c with
    | exchange r => exact hc a
    | now => exact hc a
    | store c => exact hc.elim
    | freshUuid => exact hc.elim

theorem Tasks.exists_sent (h : Tasks w ps s t) (hp : ∀ p ∈ ps, p.Offline) :
    ∃ l, t = { s with sent := s.sent ++ l } ∧ ∀ r ∈ l, ∃ p ∈ ps, r ∈ requests w p := by
  induction h with
  | stop ps s => exact ⟨[], by simp, by simp⟩
  | @step ps i c next s t hi h ih =>
    have hm : .call c next ∈ ps := List.mem_of_getElem? hi
    obtain ⟨l, ht, hl⟩ := ih (offline_set hp hm)
    have hback : ∀ r ∈ l, (∃ p ∈ ps, r ∈ requests w p) ∨ r ∈ requests w (next (answer w s c).1) := by
      intro r hr
      obtain ⟨q, hq, hrq⟩ := hl r hr
      rcases List.mem_or_eq_of_mem_set hq with hq | rfl
      · exact .inl ⟨q, hq, hrq⟩
      · exact .inr hrq
    cases c with
    | exchange r =>
      refine ⟨r :: l, by simp [ht, answer], fun q hq ↦ ?_⟩
      rcases List.mem_cons.1 hq with rfl | hq
      · exact ⟨_, hm, List.mem_cons_self⟩
      · exact (hback q hq).elim id fun hn ↦ ⟨_, hm, List.mem_cons_of_mem _ hn⟩
    | now => exact ⟨l, ht, fun q hq ↦ (hback q hq).elim id fun hn ↦ ⟨_, hm, hn⟩⟩
    | store c => exact (hp _ hm).elim
    | freshUuid => exact (hp _ hm).elim

theorem Tasks.withStore (h : Tasks w ps s t) (hp : ∀ p ∈ ps, p.Offline) (u : Store) :
    Tasks w ps { s with store := u } { t with store := u } := by
  induction h with
  | stop ps s => exact .stop _ _
  | @step ps i c next s t hi h ih =>
    have hm : .call c next ∈ ps := List.mem_of_getElem? hi
    have hs := ih (offline_set hp hm)
    cases c with
    | exchange r => exact .step hi hs
    | now => exact .step hi hs
    | store c => exact (hp _ hm).elim
    | freshUuid => exact (hp _ hm).elim

/-- One of the tasks may run to its end before the others go on. -/
theorem exists_tasks_of_run (hi : ps[i]? = some p) (s : State) :
    ∃ q, ∀ t, Tasks w (ps.set i q) (run w p s).2 t → Tasks w ps s t := by
  induction p generalizing ps s with
  | done a =>
    obtain ⟨hlen, he⟩ := List.getElem?_eq_some_iff.1 hi
    have hset : ps.set i (done a) = ps := by rw [← he, List.set_getElem_self]
    exact ⟨done a, fun t ht ↦ hset ▸ ht⟩
  | fail e =>
    obtain ⟨hlen, he⟩ := List.getElem?_eq_some_iff.1 hi
    have hset : ps.set i (fail e) = ps := by rw [← he, List.set_getElem_self]
    exact ⟨fail e, fun t ht ↦ hset ▸ ht⟩
  | call c next ih =>
    have hlen : i < ps.length := (List.getElem?_eq_some_iff.1 hi).1
    obtain ⟨q, hq⟩ := ih (answer w s c).1 (List.getElem?_set_self hlen) (answer w s c).2
    refine ⟨q, fun t ht ↦ .step hi (hq t ?_)⟩
    rwa [List.set_set]

/-- So they may run one after the other, up to the first whose result is refused. -/
theorem tasks_forM (f : α → Program β) (g : α → β → Result Unit) (before : List (Program β)) (as : List α)
    (s : State) :
    Tasks w (before ++ as.map f) s (run w (as.forM fun a ↦ f a >>= fun b ↦ ofResult (g a b)) s).2 := by
  induction as generalizing before s with
  | nil => exact .stop _ _
  | cons a as ih =>
    have hi : (before ++ (a :: as).map f)[before.length]? = some (f a) := by simp
    obtain ⟨q, hq⟩ := exists_tasks_of_run (w := w) hi s
    refine hq _ ?_
    have hset : (before ++ (a :: as).map f).set before.length q = (before ++ [q]) ++ as.map f := by simp
    change Tasks w _ _ (run w ((f a >>= fun b ↦ ofResult (g a b)) >>= fun _ ↦ as.forM _) s).2
    rw [hset, run_bind, run_bind]
    rcases run w (f a) s with ⟨e | b, t⟩
    · exact .stop _ _
    · dsimp only
      rw [run_ofResult]
      cases g a b with
      | error e => exact .stop _ _
      | ok => exact ih _ _

end Tasks

end CertGate.Program
