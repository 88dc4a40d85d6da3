import CertGate.Program
import CertGate.Proofs.Result

namespace CertGate.Program

variable {α β : Type} {w : World} {s t : State} {p : Program α} {f : α → Program β}

theorem bind_done (p : Program α) : p.bind done = p := by
  induction p with
  | done a => rfl
  | fail e => rfl
  | call c next ih => exact congrArg (call c) (funext ih)

theorem bind_bind {γ : Type} (p : Program α) (f : α → Program β) (g : β → Program γ) :
    (p.bind f).bind g = p.bind fun a ↦ (f a).bind g := by
  induction p with
  | done a => rfl
  | fail e => rfl
  | call c next ih => exact congrArg (call c) (funext ih)

instance : LawfulMonad Program :=
  LawfulMonad.mk' Program bind_done (fun _ _ ↦ rfl) bind_bind

theorem run_bind_of_ok {a : α} (h : run w p s = (.ok a, t)) : run w (p >>= f) s = run w (f a) t := by
  rw [run_bind, h]

theorem run_bind_pure (g : α → β) :
    run w (p >>= fun a ↦ pure (g a)) s = ((run w p s).1.map g, (run w p s).2) := by
  rw [run_bind]
  rcases run w p s with ⟨_ | a, t⟩ <;> rfl

theorem run_ofResult (r : Result α) : run w (ofResult r) s = (r, s) := by cases r <;> rfl

theorem run_tryCatch (p : Program α) (handle : Error → Program α) :
    run w (tryCatch p handle) s =
      match run w p s with
      | (.ok a, t) => (.ok a, t)
      | (.error e, t) => run w (handle e) t := by
  induction p generalizing s with
  | done a => rfl
  | fail e => rfl
  | call c next ih => exact ih _

theorem run_store_bind (c : StoreCall) (f : c.Answer → Program β) :
    run w (store c >>= f) s =
      run w (f (c.apply s.store).1) { s with store := (c.apply s.store).2 } := rfl

theorem exists_calls (w : World) (p : Program α) (s : State) :
    ∃ calls : List StoreCall, (run w p s).2.store = calls.foldl (fun s c ↦ (c.apply s).2) s.store := by
  induction p generalizing s with
  | done a => exact ⟨[], rfl⟩
  | fail e => exact ⟨[], rfl⟩
  | call c next ih =>
    cases c with
    | store c =>
      obtain ⟨calls, hcalls⟩ := ih _ { s with store := (c.apply s.store).2 }
      exact ⟨c :: calls, hcalls⟩
    | exchange r => exact ih _ { s with sent := s.sent ++ [r] }
    | now => exact ih _ s
    | freshUuid => exact ih _ { s with issued := s.issued + 1 }

/-- The program finds out a function of the store and leaves everything as it is. -/
def Inspects (p : Program α) (g : Store → Result α) : Prop :=
  ∀ (w : World) (s : State), run w p s = (g s.store, s)

namespace Inspects

variable {g : Store → Result α}

theorem ofResult (r : Result α) : (Program.ofResult r).Inspects fun _ ↦ r := fun _ _ ↦ run_ofResult r

theorem pure (a : α) : (Pure.pure a : Program α).Inspects fun _ ↦ .ok a := fun _ _ ↦ rfl

theorem bind {h : α → Store → Result β} (hp : p.Inspects g) (hf : ∀ a, (f a).Inspects (h a)) :
    (p >>= f).Inspects fun s ↦ g s >>= fun a ↦ h a s := by
  intro w s
  change run w (p >>= f) s = (g s.store >>= fun a ↦ h a s.store, s)
  rw [Program.run_bind, hp w s]
  cases g s.store with
  | ok a => exact hf a w s
  | error e => rfl

theorem ite {p : Prop} [Decidable p] {x y : Program α} {g h : Store → Result α} (hx : x.Inspects g)
    (hy : y.Inspects h) : (if p then x else y).Inspects fun s ↦ if p then g s else h s := by
  split
  · exact hx
  · exact hy

theorem run_bind (hp : p.Inspects g) (w : World) (s : State) :
    run w (p >>= f) s =
      match g s.store with
      | .ok a => run w (f a) s
      | .error e => (.error e, s) := by
  rw [Program.run_bind, hp w s]
  cases g s.store <;> rfl

end Inspects

def Offline : Program α → Prop
  | done _ | fail _ => True
  | call (.exchange _) next => ∀ x, (next x).Offline
  | call .now next => ∀ x, (next x).Offline
  | call (.store _) _ | call .freshUuid _ => False

namespace Offline

theorem pure (a : α) : (Pure.pure a : Program α).Offline := trivial

theorem ofResult (r : Result α) : (Program.ofResult r).Offline := by cases r <;> trivial

theorem bind (hp : p.Offline) (hf : ∀ a, (f a).Offline) : (p >>= f).Offline := by
  change (p.bind f).Offline
  induction p with
  | done a => exact hf a
  | fail e => trivial
  | call c next ih =>
    cases c with
    | exchange r => exact fun x ↦ ih x (hp x)
    | now => exact fun x ↦ ih x (hp x)
    | store c => exact hp
    | freshUuid => exact hp

theorem forM {as : List α} {f : α → Program Unit} (hf : ∀ a, (f a).Offline) :
    (as.forM f).Offline := by
  induction as with
  | nil => trivial
  | cons a as ih => exact bind (hf a) fun _ ↦ ih

/-- Such a program leaves the store as it is, and the store makes no difference to it. -/
theorem run_eq (hp : p.Offline) (s t : State) :
    (run w p s).1 = (run w p t).1 ∧ (run w p s).2.store = s.store := by
  induction p generalizing s t with
  | done a => exact ⟨rfl, rfl⟩
  | fail e => exact ⟨rfl, rfl⟩
  | call c next ih =>
    cases c with
    | exchange r => exact ih _ (hp _) _ _
    | now => exact ih _ (hp _) _ _
    | store c => exact hp.elim
    | freshUuid => exact hp.elim

end Offline

def outcome (w : World) (p : Program α) : Result α := (run w p ⟨default, 0, []⟩).1

theorem Offline.fst_run (hp : p.Offline) : (run w p s).1 = outcome w p := (hp.run_eq s _).1

theorem Offline.store_run (hp : p.Offline) : (run w p s).2.store = s.store := (hp.run_eq s s).2

theorem Offline.exists_run (hp : p.Offline) (w : World) (s : State) :
    ∃ t, run w p s = (outcome w p, t) ∧ t.store = s.store :=
  ⟨(run w p s).2, Prod.ext hp.fst_run rfl, hp.store_run⟩

theorem outcome_bind (hf : ∀ a, (f a).Offline) :
    outcome w (p >>= f) = outcome w p >>= fun a ↦ outcome w (f a) := by
  rw [outcome, run_bind, outcome]
  cases h : run w p ⟨default, 0, []⟩ with
  | mk r t =>
    cases r with
    | ok a => exact (hf a).fst_run
    | error e => rfl

theorem outcome_ofResult (r : Result α) : outcome w (ofResult r) = r := by
  rw [outcome, run_ofResult]

theorem outcome_forM {as : List α} {f : α → Program Unit} (hf : ∀ a, (f a).Offline) :
    outcome w (as.forM f) = as.forM fun a ↦ outcome w (f a) := by
  induction as with
  | nil => rfl
  | cons a as ih =>
    change outcome w (f a >>= fun _ ↦ as.forM f) = outcome w (f a) >>= fun _ ↦ as.forM _
    rw [outcome_bind fun _ ↦ .forM hf, ih]

def requests (w : World) : Program α → List OutgoingRequest
  | call (.exchange r) next => r :: requests w (next (w.network r))
  | call .now next => requests w (next w.now)
  | _ => []

theorem Offline.run_eq_requests (hp : p.Offline) (w : World) (s : State) :
    run w p s = (outcome w p, { s with sent := s.sent ++ requests w p }) := by
  refine Prod.ext hp.fst_run ?_
  induction p generalizing s with
  | done a => simp [run, requests]
  | fail e => simp [run, requests]
  | call c next ih =>
    cases c with
    | exchange r => simpa [run, requests, answer] using ih _ (hp _) { s with sent := s.sent ++ [r] }
    | now => exact ih _ (hp _) s
    | store c => exact hp.elim
    | freshUuid => exact hp.elim

theorem requests_bind (hp : p.Offline) :
    requests w (p >>= f) = requests w p ++
      match outcome w p with
      | .ok a => requests w (f a)
      | .error _ => [] := by
  change requests w (p.bind f) = _
  induction p with
  | done a => rfl
  | fail e => rfl
  | call c next ih =>
    cases c with
    | exchange r =>
      have ho : outcome w (call (.exchange r) next) = outcome w (next (w.network r)) := (hp _).fst_run
      simp only [bind, requests, ih _ (hp _), ho, List.cons_append]
    | now => exact ih _ (hp _)
    | store c => exact hp.elim
    | freshUuid => exact hp.elim

theorem requests_ofResult (r : Result α) : requests w (ofResult r) = [] := by cases r <;> rfl

/-- Whatever the state, the program has this result and leaves the store as it is. -/
def ComesTo (w : World) (p : Program α) (r : Result α) : Prop :=
  ∀ s, ∃ t, run w p s = (r, t) ∧ t.store = s.store

namespace ComesTo

theorem ofResult (r : Result α) : ComesTo w (Program.ofResult r) r :=
  fun s ↦ ⟨s, run_ofResult r, rfl⟩

theorem bind_error {e : Error} (hp : ComesTo w p (.error e)) (f : α → Program β) :
    ComesTo w (p >>= f) (.error e) := by
  intro s
  obtain ⟨t, ht, hst⟩ := hp s
  exact ⟨t, by rw [run_bind, ht], hst⟩

end ComesTo

end CertGate.Program
