import CertGate.Proofs.Authentication.AnyOrder

namespace CertGate

open Program

namespace Store

/-- The stores have the same service types of a name, and under each the same records for a host. -/
structure AgreeAt (s u : Store) (name host : String) : Prop where
  serviceTypes : ∀ t : ServiceType, t.name = name →
    (t ∈ s.serviceTypes.toList ↔ t ∈ u.serviceTypes.toList)
  bindings : ∀ t ∈ s.serviceTypes.toList, t.name = name →
    ∀ b : Binding, b.serviceUuid = t.uuid → b.host = host →
      (b ∈ s.bindings.toList ↔ b ∈ u.bindings.toList)
  authMethods : ∀ t ∈ s.serviceTypes.toList, t.name = name →
    ∀ r : AuthMethodRecord, r.serviceUuid = t.uuid → r.host = host →
      (r ∈ s.authMethods.toList ↔ r ∈ u.authMethods.toList)

/-- Both stores stay as they are, or the time is noted in both at a binding that they share. -/
def SameStamp (time : String) (s u s' u' : Store) : Prop :=
  s' = s ∧ u' = u ∨ ∃ b ∈ s.bindings.toList, b ∈ u.bindings.toList ∧
    s' = s.touched b.uuid time ∧ u' = u.touched b.uuid time

end Store

namespace Authentication

variable {s u : Store} {name host : String} {registry : Registry} {c : Certificate} {t : ServiceType}

theorem named_congr (h : s.AgreeAt u name host) :
    ServiceTypes.named s name = ServiceTypes.named u name := by
  rw [ServiceTypes.named, ServiceTypes.named, Store.serviceTypesNamed, Store.serviceTypesNamed]
  exact congrArg (ServiceTypes.single · name) (Keyed.sortedBy_congr fun t ht ↦
    h.serviceTypes t (agrees_some.1 ht))

theorem located_congr (h : s.AgreeAt u name host) (ht : t ∈ s.serviceTypes.toList) (hn : t.name = name) :
    located registry s c t host = located registry u c t host := by
  have hb : Bindings.identified s ⟨c.name, t.uuid, host, x509⟩ =
      Bindings.identified u ⟨c.name, t.uuid, host, x509⟩ := by
    refine congrArg (Bindings.single · _) (Keyed.sortedBy_congr fun b hb ↦ ?_)
    have hid : b.identity = ⟨c.name, t.uuid, host, x509⟩ := beq_iff_eq.1 hb
    exact h.bindings t ht hn b (congrArg Binding.Identity.serviceUuid hid)
      (congrArg Binding.Identity.host hid)
  have hm : AuthMethods.reaching registry s t.uuid host t.authMethod =
      AuthMethods.reaching registry u t.uuid host t.authMethod := by
    refine Result.bind_congr fun _ _ ↦ ?_
    refine congrArg AuthMethods.single (Keyed.sortedBy_congr fun r hr ↦ ?_)
    obtain ⟨hs, hh, -⟩ := AuthMethods.accepts_iff.1 hr
    exact h.authMethods t ht hn r hs hh
  rw [located, located, hb, hm]

theorem resolved_congr (registry : Registry) (c : Certificate) (h : s.AgreeAt u name host) :
    resolved registry s c name host = resolved registry u c name host := by
  rw [resolved, resolved, ← named_congr h]
  refine Result.bind_congr fun t ht ↦ Result.bind_congr fun _ _ ↦ ?_
  obtain ⟨hm, hn, -⟩ := ServiceTypes.named_eq_ok_iff.1 ht
  rw [located_congr h hm hn]

theorem mem_of_resolved {p : Binding × AuthMethod} (h : resolved registry s c name host = .ok p) :
    p.1 ∈ s.bindings.toList := by
  obtain ⟨t, -, h⟩ := Result.bind_eq_ok_iff.1 h
  obtain ⟨-, -, h⟩ := Result.bind_eq_ok_iff.1 h
  split at h
  · obtain ⟨b, hb, h⟩ := Result.bind_eq_ok_iff.1 h
    obtain ⟨m, -, h⟩ := Result.bind_eq_ok_iff.1 h
    cases h
    exact (Bindings.identified_eq_ok_iff.1 hb).1
  · cases h

def RunsAlike {α : Type} (w : World) (s : State) (u : Store) (p : Program α) : Prop :=
  let x := run w p s
  let y := run w p { s with store := u }
  y.1 = x.1 ∧ y.2.sent = x.2.sent ∧ Store.SameStamp w.now.text s.store u x.2.store y.2.store

theorem RunsAlike.bind {α β : Type} {w : World} {s : State} {p : Program α} {f : α → Program β}
    (hp : p.Offline) (hf : ∀ a l, RunsAlike w { s with sent := l } u (f a)) :
    RunsAlike w s u (p >>= f) := by
  rw [RunsAlike, run_bind, run_bind, hp.run_eq_requests, hp.run_eq_requests]
  cases outcome w p with
  | error e => exact ⟨rfl, rfl, .inl ⟨rfl, rfl⟩⟩
  | ok a => exact hf a _

theorem RunsAlike.exists_run {α : Type} {w : World} {s v : State} {p : Program α} {r : Result α}
    (hr : run w p s = (r, v)) (h : RunsAlike w s u p) :
    ∃ v', run w p { s with store := u } = (r, v') ∧ v'.sent = v.sent ∧
      Store.SameStamp w.now.text s.store u v.store v'.store := by
  rw [RunsAlike, hr] at h
  exact ⟨(run w p { s with store := u }).2, Prod.ext h.1 rfl, h.2⟩

theorem runsAlike_concluded (settings : Settings) (registry : Registry) (c : Certificate) (w : World)
    {s : State} (h : s.store.AgreeAt u name host) :
    RunsAlike w s u (concluded settings registry c name host) := by
  have hr := resolved_congr registry c h
  simp only [RunsAlike, run_concluded]
  cases hs : resolved registry s.store c name host with
  | error e =>
    rw [hs] at hr
    simp only [← hr]
    exact ⟨trivial, trivial, .inl ⟨rfl, rfl⟩⟩
  | ok p =>
    rw [hs] at hr
    simp only [← hr]
    refine ⟨trivial, trivial, ?_⟩
    cases outcome w (Retrieval.retrieve p.2 settings.retrieval.scheme p.1.uniqueKey) with
    | error e => exact .inl ⟨rfl, rfl⟩
    | ok token => exact .inr ⟨p.1, mem_of_resolved hs, mem_of_resolved hr.symm, rfl, rfl⟩

theorem opened_offline (settings : Settings) (chain : List Bytes) : (opened settings chain).Offline := by
  refine .bind (.ofResult _) fun c ↦ ?_
  split
  · exact .bind (fun _ ↦ trivial) fun _ ↦ .bind (.ofResult _) fun _ ↦ .pure c
  · exact .pure c

namespace Attempt

def withStore (a : Attempt) (u : Store) : Attempt := { a with state := { a.state with store := u } }

variable {a : Attempt} {r : Result Datum} {v : State}

theorem runsAlike_authenticate (h : a.state.store.AgreeAt u a.serviceType a.host) :
    RunsAlike a.world a.state u (authenticate a.settings a.registry a.chain a.serviceType a.host) := by
  rw [authenticate_eq]
  refine .bind (opened_offline _ _) fun c _ ↦ .bind ?_ fun _ _ ↦ runsAlike_concluded _ _ c _ h
  split
  · exact Revocation.check_offline _ c
  · trivial

/-- Whatever an attempt may come to, it may come to the same at a store that agrees. -/
theorem Ends.withStore (he : a.Ends r v) (h : a.state.store.AgreeAt u a.serviceType a.host) :
    ∃ v', (a.withStore u).Ends r v' ∧ v'.sent = v.sent ∧
      Store.SameStamp a.world.now.text a.state.store u v.store v'.store := by
  have hopened {x : Result Certificate} {s : State}
      (ho : run a.world (opened a.settings a.chain) a.state = (x, s)) :
      s = a.state ∧ run (a.withStore u).world (opened (a.withStore u).settings (a.withStore u).chain)
        (a.withStore u).state = (x, { a.state with store := u }) := by
    rw [run_opened] at ho
    cases ho
    exact ⟨rfl, run_opened (a.withStore u) _⟩
  cases he with
  | unopened ho =>
    obtain ⟨rfl, ho'⟩ := hopened ho
    exact ⟨_, .unopened ho', rfl, .inl ⟨rfl, rfl⟩⟩
  | failed ho hv hc =>
    obtain ⟨rfl, ho'⟩ := hopened ho
    obtain ⟨l, rfl, -⟩ := hc.tasks.exists_sent (Revocation.offline_of_mem_tasks _)
    exact ⟨_, .failed ho' hv (hc.withStore u), rfl, .inl ⟨rfl, rfl⟩⟩
  | passed ho hv hc hr =>
    obtain ⟨rfl, ho'⟩ := hopened ho
    obtain ⟨l, rfl, -⟩ := hc.tasks.exists_sent (Revocation.offline_of_mem_tasks _)
    obtain ⟨v', hr', hv'⟩ := RunsAlike.exists_run hr (runsAlike_concluded _ _ _ _ h)
    exact ⟨v', .passed ho' hv (hc.withStore u) hr', hv'⟩
  | unverified ho hv hr =>
    obtain ⟨rfl, ho'⟩ := hopened ho
    obtain ⟨v', hr', hv'⟩ := RunsAlike.exists_run hr (runsAlike_concluded _ _ _ _ h)
    exact ⟨v', .unverified ho' hv hr', hv'⟩

/-- What is stored under other names or for other hosts makes no difference, in no order of the tasks of
the check. -/
theorem isolated_of_agreeAt (a : Attempt) {u : Store} (h : a.state.store.AgreeAt u a.serviceType a.host) :
    RunsAlike a.world a.state u (authenticate a.settings a.registry a.chain a.serviceType a.host) ∧
      ∀ r v, a.Ends r v → ∃ v', (a.withStore u).Ends r v' ∧ v'.sent = v.sent ∧
        Store.SameStamp a.world.now.text a.state.store u v.store v'.store :=
  ⟨runsAlike_authenticate h, fun _ _ he ↦ he.withStore h⟩

theorem isolated_from_additions :
    ∃ (a : Attempt) (u : Store), a.state.store.AgreeAt u a.serviceType a.host ∧ a.state.store ≠ u ∧
      a.result = .ok (.text "some-value") ∧ (a.withStore u).result = .ok (.text "some-value") := by
  let t : ServiceType :=
    { name := "s", hosts := ["h", "g"], authTypes := ["x509"], authMethod := "mock", uuid := "1" }
  let b : Binding :=
    { name := "b", serviceUuid := "1", host := "h", uuid := "1", authType := "x509", uniqueKey := "success" }
  let m : AuthMethodRecord :=
    { serviceUuid := "1", host := "h", port := 1, retrievalField := "token", kind := "mock", uuid := "1" }
  let s : Store := ⟨⟨[t], by decide⟩, ⟨[b], by decide⟩, ⟨[m], by decide⟩⟩
  let u : Store := ⟨⟨[t, { t with name := "t", uuid := "2" }], by decide⟩,
    ⟨[b, { b with name := "c", host := "g", uuid := "2" }], by decide⟩, ⟨[m], by decide⟩⟩
  let w : World := ⟨fun _ ↦ none, ⟨1700000000, 0⟩, fun n ↦ toString n⟩
  let a : Attempt :=
    ⟨{ verifyCertificate := false }, ({} : Registry).withMock, w, ⟨s, 0, []⟩, [Certificate.nameless],
      "s", "h"⟩
  have h : a.state.store.AgreeAt u a.serviceType a.host := by
    refine ⟨fun v hv ↦ ?_, fun v hv hn c hcv hch ↦ ?_, fun _ _ _ _ _ _ ↦ Iff.rfl⟩
    · have hne : v ≠ { t with name := "t", uuid := "2" } := by rintro rfl; exact absurd hv (by decide)
      simp [a, s, u, hne]
    · have hne : c ≠ { b with name := "c", host := "g", uuid := "2" } := by
        rintro rfl
        exact absurd hch (by decide)
      simp [a, s, u, hne]
  let c : Certificate := ⟨1, ⟨946684800, 0⟩, ⟨2493072000, 0⟩, [], []⟩
  have hp : a.Presents c := ⟨_, [], rfl, Certificate.ofDer_nameless⟩
  have ht : a.Admits c t := ⟨⟨hp, nofun⟩, isOnly_singleton rfl, by decide, by decide⟩
  have hm : a.Reaches c t b ⟨"1", "h", 1, "", "token", "1", "", .mock⟩ :=
    ⟨⟨ht, isOnly_singleton rfl⟩, rfl, m, isOnly_singleton ⟨rfl, rfl, rfl⟩, rfl⟩
  have hr : a.result = .ok (.text "some-value") := result_eq_ok_iff.2 ⟨c, t, b, _, hm, rfl⟩
  exact ⟨a, u, h, by decide, hr, (isolated_of_agreeAt a h).1.1.trans hr⟩

end Attempt

end Authentication

end CertGate
