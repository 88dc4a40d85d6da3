import CertGate.Proofs.Authentication
import CertGate.Proofs.Interleaving
import CertGate.Proofs.Moves
import CertGate.Proofs.Revocation.FailClosed

namespace CertGate

open Program

namespace Certificate

/-- A certificate for the first half of this century, with an empty name and no extensions. -/
def nameless : Bytes :=
  [48, 64, 48, 54, 2, 1, 1, 48, 3, 6, 1, 42, 48, 0, 48, 30, 23, 13, 48, 48, 48, 49, 48, 49, 48, 48, 48, 48,
    48, 48, 90, 23, 13, 52, 57, 48, 49, 48, 49, 48, 48, 48, 48, 48, 48, 90, 48, 0, 48, 8, 48, 3, 6, 1, 42, 3,
    1, 0, 48, 3, 6, 1, 42, 3, 1, 0]

theorem ofDer_nameless : ofDer nameless = .ok ⟨1, ⟨946684800, 0⟩, ⟨2493072000, 0⟩, [], []⟩ := by decide +kernel

theorem checkValidity_eq_error_iff {c : Certificate} {now : Instant} {e : Error} :
    c.checkValidity now = .error e ↔ c.notAfter.before now = true ∧ e = expired ∨
      c.notAfter.before now = false ∧ now.before c.notBefore = true ∧ e = notYetActive := by
  rw [checkValidity]
  cases c.notAfter.before now <;> cases now.before c.notBefore <;> simp [eq_comm]

end Certificate

namespace Revocation

variable {w : World} {workers : Nat} {c : Certificate} {s t : State} {r : Result Unit}

/-- What the check of a certificate may come to from a state on. -/
structure Checks (w : World) (workers : Nat) (c : Certificate) (s : State) (r : Result Unit) (t : State) :
    Prop where
  returns : Returns workers c (listsAt w c) r
  tasks : Tasks w (c.revocationPoints.map fetchSerials) s t

theorem checks_run (w : World) (workers : Nat) (c : Certificate) (s : State) :
    Checks w workers c s (run w (check workers c) s).1 (run w (check workers c) s).2 := by
  refine ⟨?_, ?_⟩
  · rw [(check_offline workers c).fst_run]
    exact returns_check w
  · rw [check]
    by_cases hc : c.revocationPoints = []
    · rw [if_pos hc]
      exact .stop _ _
    · rw [if_neg hc]
      exact tasks_forM fetchSerials (judge workers c.serial) [] c.revocationPoints s

theorem Returns.exists_checks (h : Returns workers c (listsAt w c) r) (s : State) :
    ∃ t, Checks w workers c s r t :=
  ⟨_, h, (checks_run w workers c s).tasks⟩

theorem offline_of_mem_tasks (urls : List String) : ∀ p ∈ urls.map fetchSerials, p.Offline := by
  intro p hp
  obtain ⟨url, -, rfl⟩ := List.mem_map.1 hp
  exact fetchSerials_offline url

theorem Checks.withStore (h : Checks w workers c s r t) (u : Store) :
    Checks w workers c { s with store := u } r { t with store := u } :=
  ⟨h.returns, h.tasks.withStore (offline_of_mem_tasks _) u⟩

theorem Checks.store_eq (h : Checks w workers c s r t) : t.store = s.store := by
  obtain ⟨l, rfl, -⟩ := h.tasks.exists_sent (offline_of_mem_tasks _)
  rfl

end Revocation

namespace Authentication

def opened (settings : Settings) (chain : List Bytes) : Program Certificate := do
  let c ← leaf chain
  if settings.verifyCertificate then c.checkValidity (← perform .now)
  return c

def concluded (settings : Settings) (registry : Registry) (c : Certificate) (serviceType host : String) :
    Program Datum := do
  let (b, a) ← resolve registry c serviceType host
  let token ← Retrieval.retrieve a settings.retrieval.scheme b.uniqueKey
  let now ← perform .now
  let _ ← store (.stampBinding b.uuid now.text)
  return token

theorem authenticate_eq (settings : Settings) (registry : Registry) (chain : List Bytes)
    (serviceType host : String) :
    authenticate settings registry chain serviceType host = opened settings chain >>= fun c ↦
      (if settings.verifyCertificate then Revocation.check settings.revocation.scanWorkers c
        else pure ()) >>= fun _ ↦ concluded settings registry c serviceType host := by
  simp only [authenticate, opened, checkCertificate, concluded, bind_assoc]
  split <;> simp only [bind_assoc, pure_bind]

/-- Nothing is sent and stored before there is a token. -/
theorem run_concluded (settings : Settings) (registry : Registry) (c : Certificate)
    (serviceType host : String) (w : World) (s : State) :
    run w (concluded settings registry c serviceType host) s =
      match resolved registry s.store c serviceType host with
      | .error e => (.error e, s)
      | .ok (b, m) =>
        let retrieval := Retrieval.retrieve m settings.retrieval.scheme b.uniqueKey
        (outcome w retrieval, {
          store := match outcome w retrieval with
            | .ok _ => s.store.touched b.uuid w.now.text
            | .error _ => s.store
          issued := s.issued
          sent := s.sent ++ requests w retrieval }) := by
  rw [concluded, (resolve_inspects registry c serviceType host).run_bind]
  cases resolved registry s.store c serviceType host with
  | error e => rfl
  | ok p =>
    dsimp only
    rw [run_bind, (Retrieval.retrieve_offline _ _ _).run_eq_requests]
    cases outcome w (Retrieval.retrieve p.2 settings.retrieval.scheme p.1.uniqueKey) with
    | error e => rfl
    | ok token =>
      exact Prod.ext rfl (congrArg (State.mk · _ _) (StoreCall.apply_stampBinding ..))

namespace Attempt

def opening (a : Attempt) : Result Certificate := do
  let c ← leaf a.chain
  if a.settings.verifyCertificate then c.checkValidity a.world.now
  return c

theorem run_opened (a : Attempt) (s : State) :
    run a.world (opened a.settings a.chain) s = (a.opening, s) := by
  rw [opened, opening]
  cases leaf a.chain with
  | error e => rfl
  | ok c =>
    cases a.settings.verifyCertificate with
    | false => rfl
    | true =>
      change run a.world (ofResult (c.checkValidity a.world.now) >>= fun _ ↦ pure c) s =
        (c.checkValidity a.world.now >>= fun _ ↦ .ok c, s)
      cases c.checkValidity a.world.now <;> rfl

variable {a : Attempt} {c : Certificate} {e : Error} {r : Result Datum} {s t : State}

theorem checkValidity_eq_ok_iff : c.checkValidity a.world.now = .ok () ↔ a.InTime c := by
  rw [Certificate.checkValidity, InTime]
  cases c.notAfter.before a.world.now <;> cases a.world.now.before c.notBefore <;> simp

theorem opening_eq_ok_iff :
    a.opening = .ok c ↔ a.Presents c ∧ (a.settings.verifyCertificate = true → a.InTime c) := by
  rw [opening, Result.bind_eq_ok_iff]
  constructor
  · rintro ⟨d, hd, h⟩
    split at h
    · next hv =>
      obtain ⟨u, hu, hc⟩ := Result.bind_eq_ok_iff.1 h
      cases hc
      exact ⟨leaf_eq_ok_iff.1 hd, fun _ ↦ checkValidity_eq_ok_iff.1 hu⟩
    · next hv =>
      cases h
      exact ⟨leaf_eq_ok_iff.1 hd, fun h ↦ absurd h hv⟩
  · rintro ⟨hc, hv⟩
    refine ⟨c, leaf_eq_ok_iff.2 hc, ?_⟩
    split
    · next h => rw [checkValidity_eq_ok_iff.2 (hv h)]; rfl
    · rfl

theorem Presents.unique {d : Certificate} (hc : a.Presents c) (hd : a.Presents d) : c = d :=
  Except.ok.inj ((leaf_eq_ok_iff.2 hc).symm.trans (leaf_eq_ok_iff.2 hd))

theorem of_run_opened (h : run a.world (opened a.settings a.chain) a.state = (.ok c, s)) :
    s = a.state ∧ a.Presents c ∧ (a.settings.verifyCertificate = true → a.InTime c) := by
  rw [run_opened, Prod.mk.injEq] at h
  exact ⟨h.2.symm, opening_eq_ok_iff.1 h.1⟩

theorem Certifies.of_passed (h : run a.world (opened a.settings a.chain) a.state = (.ok c, s))
    (hc : Revocation.Checks a.world a.settings.revocation.scanWorkers c s (.ok ()) t) : a.Certifies c := by
  obtain ⟨-, hp, hi⟩ := of_run_opened h
  exact ⟨hp, fun hv ↦ ⟨hi hv, hc.returns.eq_ok (Revocation.returns_check a.world)⟩⟩

theorem Certifies.of_unverified (h : run a.world (opened a.settings a.chain) a.state = (.ok c, s))
    (hv : a.settings.verifyCertificate = false) : a.Certifies c := by
  obtain ⟨-, hp, -⟩ := of_run_opened h
  exact ⟨hp, fun hn ↦ absurd (hv.symm.trans hn) nofun⟩

/-- What an attempt may come to: its result, and the state that it leaves. -/
inductive Ends (a : Attempt) : Result Datum → State → Prop
  | unopened {e : Error} {t : State}
      (h : run a.world (opened a.settings a.chain) a.state = (.error e, t)) : a.Ends (.error e) t
  | failed {c : Certificate} {e : Error} {s t : State}
      (h : run a.world (opened a.settings a.chain) a.state = (.ok c, s))
      (hv : a.settings.verifyCertificate = true)
      (hc : Revocation.Checks a.world a.settings.revocation.scanWorkers c s (.error e) t) :
      a.Ends (.error e) t
  | passed {c : Certificate} {r : Result Datum} {s t u : State}
      (h : run a.world (opened a.settings a.chain) a.state = (.ok c, s))
      (hv : a.settings.verifyCertificate = true)
      (hc : Revocation.Checks a.world a.settings.revocation.scanWorkers c s (.ok ()) t)
      (hr : run a.world (concluded a.settings a.registry c a.serviceType a.host) t = (r, u)) : a.Ends r u
  | unverified {c : Certificate} {r : Result Datum} {s t : State}
      (h : run a.world (opened a.settings a.chain) a.state = (.ok c, s))
      (hv : a.settings.verifyCertificate = false)
      (hr : run a.world (concluded a.settings a.registry c a.serviceType a.host) s = (r, t)) : a.Ends r t

theorem ends_run (a : Attempt) :
    a.Ends (run a.world (authenticate a.settings a.registry a.chain a.serviceType a.host) a.state).1
      (run a.world (authenticate a.settings a.registry a.chain a.serviceType a.host) a.state).2 := by
  rw [authenticate_eq, run_bind]
  rcases ho : run a.world (opened a.settings a.chain) a.state with ⟨e | c, s⟩
  · exact .unopened ho
  · dsimp only
    rw [run_bind]
    cases hv : a.settings.verifyCertificate with
    | false => exact .unverified ho hv rfl
    | true =>
      have hc := Revocation.checks_run a.world a.settings.revocation.scanWorkers c s
      simp only [↓reduceIte]
      rcases hr : run a.world (Revocation.check a.settings.revocation.scanWorkers c) s with ⟨e | u, t⟩ <;>
        rw [hr] at hc
      · exact .failed ho hv hc
      · exact .passed ho hv hc rfl

/-- A client whose certificate does not pass leaves the store as it is, and may be told the same whatever
there is in it. -/
theorem Ends.of_uncertified (h : a.Ends r t) (hn : ∀ c, ¬ a.Certifies c) :
    t.store = a.state.store ∧ ∀ u : State, ∃ v, Ends { a with state := u } r v := by
  cases h with
  | unopened h =>
    obtain ⟨ho, rfl⟩ := Prod.mk.inj ((run_opened a _).symm.trans h)
    exact ⟨rfl, fun u ↦ ⟨u, .unopened ((run_opened { a with state := u } u).trans (congrArg (·, u) ho))⟩⟩
  | failed h hv hk =>
    obtain ⟨ho, rfl⟩ := Prod.mk.inj ((run_opened a _).symm.trans h)
    refine ⟨hk.store_eq, fun u ↦ ?_⟩
    obtain ⟨v, hu⟩ := hk.returns.exists_checks u
    exact ⟨v, .failed ((run_opened { a with state := u } u).trans (congrArg (·, u) ho)) hv hu⟩
  | passed h hv hk hr => exact absurd (.of_passed h hk) (hn _)
  | unverified h hv hr => exact absurd (.of_unverified h hv) (hn _)

end Attempt

end Authentication

end CertGate
