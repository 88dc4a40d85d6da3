import CertGate.Proofs.Authentication.AnyOrder

namespace CertGate.Authentication.Attempt

open Program

/-- The errors, each under the first condition that is not met. A revocation check ends with the error of
the point that is first to fail, so that there may be several for one certificate. -/
inductive Refuses (a : Attempt) : Error → Prop
  | noCertificate (h : a.chain = []) : a.Refuses noCertificate
  | unreadable {der : Bytes} {rest : List Bytes} {e : Error} (hd : a.chain = der :: rest)
      (h : Certificate.ofDer der = .error e) : a.Refuses e
  | expired {c : Certificate} (hc : a.Presents c) (hv : a.settings.verifyCertificate = true)
      (h : c.notAfter.before a.world.now = true) : a.Refuses Certificate.expired
  | notYetActive {c : Certificate} (hc : a.Presents c) (hv : a.settings.verifyCertificate = true)
      (ha : c.notAfter.before a.world.now = false)
      (h : a.world.now.before c.notBefore = true) : a.Refuses Certificate.notYetActive
  | revocation {c : Certificate} {e : Error} (hc : a.Presents c)
      (hv : a.settings.verifyCertificate = true) (ht : a.InTime c)
      (h : Revocation.Returns a.settings.revocation.scanWorkers c (Revocation.listsAt a.world c)
        (.error e)) : a.Refuses e
  | noServiceType {c : Certificate} (hc : a.Certifies c)
      (h : ∀ t ∈ a.state.store.serviceTypes.toList, t.name ≠ a.serviceType) :
      a.Refuses (.notFound "Service-type")
  | severalServiceTypes {c : Certificate} (hc : a.Certifies c)
      (h : Several (·.name = a.serviceType) a.state.store.serviceTypes.toList) :
      a.Refuses (ServiceTypes.several a.serviceType)
  | unsupported {c : Certificate} {t : ServiceType} (hc : a.Certifies c)
      (ht : IsOnly (·.name = a.serviceType) a.state.store.serviceTypes.toList t)
      (h : x509 ∉ t.authTypes) : a.Refuses (.unsupported "Auth type" x509)
  | noHost {c : Certificate} {t : ServiceType} (hc : a.Certifies c)
      (ht : IsOnly (·.name = a.serviceType) a.state.store.serviceTypes.toList t)
      (hx : x509 ∈ t.authTypes) (h : a.host ∉ t.hosts) : a.Refuses (.notFound "Host")
  | noBinding {c : Certificate} {t : ServiceType} (ht : a.Admits c t)
      (h : ∀ b ∈ a.state.store.bindings.toList, b.identity ≠ a.identity c t) :
      a.Refuses (.notFound "Binding")
  | severalBindings {c : Certificate} {t : ServiceType} (ht : a.Admits c t)
      (h : Several (·.identity = a.identity c t) a.state.store.bindings.toList) :
      a.Refuses (.database (Bindings.severalWithIdentity (a.identity c t)))
  | unregistered {c : Certificate} {t : ServiceType} {b : Binding} (hb : a.Knows c t b)
      (h : a.registry.isRegistered t.authMethod = false) : a.Refuses Registry.notFound
  | noAuthMethod {c : Certificate} {t : ServiceType} {b : Binding} (hb : a.Knows c t b)
      (hg : a.registry.isRegistered t.authMethod = true)
      (h : ∀ r ∈ a.state.store.authMethods.toList, ¬ a.Fits t r) : a.Refuses (.notFound "Auth method")
  | severalAuthMethods {c : Certificate} {t : ServiceType} {b : Binding} (hb : a.Knows c t b)
      (hg : a.registry.isRegistered t.authMethod = true)
      (h : Several (a.Fits t) a.state.store.authMethods.toList) : a.Refuses AuthMethods.several
  | unknownTag {c : Certificate} {t : ServiceType} {b : Binding} {r : AuthMethodRecord} {e : Error}
      (hb : a.Knows c t b) (hg : a.registry.isRegistered t.authMethod = true)
      (hr : IsOnly (a.Fits t) a.state.store.authMethods.toList r)
      (h : AuthMethod.ofRecord r = .error e) : a.Refuses e
  | retrieval {c : Certificate} {t : ServiceType} {b : Binding} {m : AuthMethod} {e : Error}
      (hm : a.Reaches c t b m) (h : a.retrieval b m = .error e) : a.Refuses e

variable {a : Attempt} {c : Certificate} {t : ServiceType} {b : Binding} {m : AuthMethod} {e : Error}
variable {r : Result Datum} {s u : State}

def conclusion (a : Attempt) (c : Certificate) : Result Datum :=
  resolved a.registry a.state.store c a.serviceType a.host >>= fun p ↦ a.retrieval p.1 p.2

theorem fst_run_concluded (hs : s.store = a.state.store) :
    (run a.world (concluded a.settings a.registry c a.serviceType a.host) s).1 = a.conclusion c := by
  rw [run_concluded, hs, conclusion]
  cases resolved a.registry a.state.store c a.serviceType a.host <;> rfl

theorem conclusion_eq_ok_iff (hc : a.Certifies c) {token : Datum} :
    a.conclusion c = .ok token ↔ ∃ t b m, a.Reaches c t b m ∧ a.retrieval b m = .ok token := by
  rw [conclusion, Result.bind_eq_ok_iff]
  constructor
  · rintro ⟨⟨b, m⟩, hr, h⟩
    obtain ⟨t, hm⟩ := (resolved_eq_ok_iff hc).1 hr
    exact ⟨t, b, m, hm, h⟩
  · rintro ⟨t, b, m, hm, h⟩
    exact ⟨(b, m), (resolved_eq_ok_iff hc).2 ⟨t, hm⟩, h⟩

theorem conclusion_of_resolved (h : resolved a.registry a.state.store c a.serviceType a.host = .error e) :
    a.conclusion c = .error e := by
  rw [conclusion, h, Result.error_bind]

theorem conclusion_of_located (ht : a.Admits c t)
    (h : located a.registry a.state.store c t a.host = .error e) : a.conclusion c = .error e :=
  conclusion_of_resolved <| resolved_eq_error_iff.2 <|
    .inr (.inr ⟨t, ht.only, .inr ⟨ht.authType, .inl ⟨ht.host, h⟩⟩⟩)

theorem conclusion_of_reaching (hb : a.Knows c t b)
    (h : AuthMethods.reaching a.registry a.state.store t.uuid a.host t.authMethod = .error e) :
    a.conclusion c = .error e :=
  conclusion_of_located hb.admits (located_eq_error_iff.2 (.inr (.inr ⟨b, hb.only, h⟩)))

theorem conclusion_of_retrieval (hm : a.Reaches c t b m) (h : a.retrieval b m = .error e) :
    a.conclusion c = .error e := by
  rw [conclusion, (resolved_eq_ok_iff hm.knows.admits.certifies).2 ⟨t, hm⟩, Result.ok_bind, h]

theorem refuses_of_located (ht : a.Admits c t)
    (he : located a.registry a.state.store c t a.host = .error e) : a.Refuses e := by
  rcases located_eq_error_iff.1 he with ⟨h, rfl⟩ | ⟨h, rfl⟩ | ⟨b, hb, hm⟩
  · exact .noBinding ht h
  · exact .severalBindings ht h
  · have hb : a.Knows c t b := ⟨ht, hb⟩
    rcases AuthMethods.reaching_eq_error_iff.1 hm with
      ⟨h, rfl⟩ | ⟨hg, ⟨h, rfl⟩ | ⟨h, rfl⟩ | ⟨r, hr, h⟩⟩
    · exact .unregistered hb h
    · exact .noAuthMethod hb hg h
    · exact .severalAuthMethods hb hg h
    · exact .unknownTag hb hg hr h

theorem refuses_of_resolved (hc : a.Certifies c)
    (he : resolved a.registry a.state.store c a.serviceType a.host = .error e) : a.Refuses e := by
  rcases resolved_eq_error_iff.1 he with
    ⟨h, rfl⟩ | ⟨h, rfl⟩ | ⟨t, ht, ⟨h, rfl⟩ | ⟨hx, ⟨hh, hl⟩ | ⟨h, rfl⟩⟩⟩
  · exact .noServiceType hc h
  · exact .severalServiceTypes hc h
  · exact .unsupported hc ht h
  · exact refuses_of_located ⟨hc, ht, hx, hh⟩ hl
  · exact .noHost hc ht hx h

theorem refuses_of_conclusion (hc : a.Certifies c) (he : a.conclusion c = .error e) : a.Refuses e := by
  rcases Result.bind_eq_error_iff.1 he with h | ⟨⟨b, m⟩, hr, h⟩
  · exact refuses_of_resolved hc h
  · obtain ⟨t, hm⟩ := (resolved_eq_ok_iff hc).1 hr
    exact .retrieval hm h

theorem opening_of_leaf (h : leaf a.chain = .error e) : a.opening = .error e := by
  rw [opening, h, Result.error_bind]

theorem opening_of_checkValidity (hc : a.Presents c) (hv : a.settings.verifyCertificate = true)
    (h : c.checkValidity a.world.now = .error e) : a.opening = .error e := by
  rw [opening, leaf_eq_ok_iff.2 hc, Result.ok_bind, if_pos hv, h, Result.error_bind]

theorem refuses_of_opening (he : a.opening = .error e) : a.Refuses e := by
  rw [opening, Result.bind_eq_error_iff] at he
  rcases he with hl | ⟨c, hc, hk⟩
  · rcases leaf_eq_error_iff.1 hl with ⟨h, rfl⟩ | ⟨der, rest, hd, h⟩
    · exact .noCertificate h
    · exact .unreadable hd h
  · rw [leaf_eq_ok_iff] at hc
    split at hk
    · next hv =>
      rcases Result.bind_eq_error_iff.1 hk with hk | ⟨u, -, hk⟩
      · rcases Certificate.checkValidity_eq_error_iff.1 hk with ⟨h, rfl⟩ | ⟨ha, h, rfl⟩
        · exact .expired hc hv h
        · exact .notYetActive hc hv ha h
      · cases hk
    · cases hk

/-- A certificate that passes in one order passes in all, and leaves nothing else to chance. -/
theorem Ends.eq_conclusion (h : a.Ends r u) (hc : a.Certifies c) : r = a.conclusion c := by
  have hopening : a.opening = .ok c := opening_eq_ok_iff.2 ⟨hc.presents, fun hv ↦ (hc.passes hv).1⟩
  cases h with
  | unopened h =>
    rw [run_opened, hopening] at h
    cases h
  | failed h hv hk =>
    obtain ⟨-, hp, -⟩ := of_run_opened h
    obtain rfl := hc.presents.unique hp
    have hok : Revocation.Returns a.settings.revocation.scanWorkers c (Revocation.listsAt a.world c)
        (.ok ()) :=
      (hc.passes hv).2 ▸ Revocation.returns_check a.world
    cases hok.eq_ok hk.returns
  | passed h hv hk hr =>
    obtain ⟨rfl, hp, -⟩ := of_run_opened h
    obtain rfl := hc.presents.unique hp
    rw [← fst_run_concluded hk.store_eq, hr]
  | unverified h hv hr =>
    obtain ⟨rfl, hp, -⟩ := of_run_opened h
    obtain rfl := hc.presents.unique hp
    rw [← fst_run_concluded rfl, hr]

theorem Ends.certifies_or_refuses (h : a.Ends r u) :
    (∃ c, a.Certifies c) ∨ ∃ e, r = .error e ∧ a.Refuses e := by
  cases h with
  | unopened h =>
    rw [run_opened] at h
    exact .inr ⟨_, rfl, refuses_of_opening (Prod.mk.inj h).1⟩
  | failed h hv hk =>
    obtain ⟨-, hp, hi⟩ := of_run_opened h
    exact .inr ⟨_, rfl, .revocation hp hv (hi hv) hk.returns⟩
  | passed h hv hk hr => exact .inl ⟨_, .of_passed h hk⟩
  | unverified h hv hr => exact .inl ⟨_, .of_unverified h hv⟩

theorem Ends.eq_ok_iff (h : a.Ends r u) {token : Datum} : r = .ok token ↔ a.Issues token := by
  constructor
  · rintro rfl
    rcases h.certifies_or_refuses with ⟨c, hc⟩ | ⟨e, he, -⟩
    · exact ⟨c, (conclusion_eq_ok_iff hc).1 (h.eq_conclusion hc).symm⟩
    · cases he
  · rintro ⟨c, t, b, m, hm, ht⟩
    have hc : a.Certifies c := hm.knows.admits.certifies
    exact (h.eq_conclusion hc).trans ((conclusion_eq_ok_iff hc).2 ⟨t, b, m, hm, ht⟩)

theorem Ends.refuses (h : a.Ends (.error e) u) : a.Refuses e := by
  rcases h.certifies_or_refuses with ⟨c, hc⟩ | ⟨e, he, h⟩
  · exact refuses_of_conclusion hc (h.eq_conclusion hc).symm
  · cases he
    exact h

theorem refuses_of_result (h : a.result = .error e) : a.Refuses e := by
  have hr : a.Ends a.result _ := a.ends_run
  exact (h ▸ hr).refuses

theorem exists_ends_of_opening (h : a.opening = .error e) : ∃ u, a.Ends (.error e) u :=
  ⟨a.state, .unopened (h ▸ a.run_opened a.state)⟩

theorem exists_ends_of_returns (hc : a.Presents c) (hv : a.settings.verifyCertificate = true)
    (ht : a.InTime c)
    (h : Revocation.Returns a.settings.revocation.scanWorkers c (Revocation.listsAt a.world c) (.error e)) :
    ∃ u, a.Ends (.error e) u := by
  have hopening : a.opening = .ok c := opening_eq_ok_iff.2 ⟨hc, fun _ ↦ ht⟩
  obtain ⟨u, hu⟩ := h.exists_checks a.state
  exact ⟨u, .failed (hopening ▸ a.run_opened a.state) hv hu⟩

theorem exists_ends_of_conclusion (hc : a.Certifies c) (h : a.conclusion c = .error e) :
    ∃ u, a.Ends (.error e) u :=
  ⟨_, (a.ends_run.eq_conclusion hc).trans h ▸ a.ends_run⟩

theorem Refuses.exists_ends (h : a.Refuses e) : ∃ u, a.Ends (.error e) u := by
  cases h with
  | noCertificate h =>
    exact exists_ends_of_opening (opening_of_leaf (leaf_eq_error_iff.2 (.inl ⟨h, rfl⟩)))
  | unreadable hd h =>
    exact exists_ends_of_opening (opening_of_leaf (leaf_eq_error_iff.2 (.inr ⟨_, _, hd, h⟩)))
  | expired hc hv h =>
    exact exists_ends_of_opening
      (opening_of_checkValidity hc hv (Certificate.checkValidity_eq_error_iff.2 (.inl ⟨h, rfl⟩)))
  | notYetActive hc hv ha h =>
    exact exists_ends_of_opening
      (opening_of_checkValidity hc hv (Certificate.checkValidity_eq_error_iff.2 (.inr ⟨ha, h, rfl⟩)))
  | revocation hc hv ht h => exact exists_ends_of_returns hc hv ht h
  -- The certificate passes from here on, so that the attempt as it runs ends with the error.
  | noServiceType hc h =>
    exact exists_ends_of_conclusion hc (conclusion_of_resolved (resolved_eq_error_iff.2 (.inl ⟨h, rfl⟩)))
  | severalServiceTypes hc h =>
    exact exists_ends_of_conclusion hc
      (conclusion_of_resolved (resolved_eq_error_iff.2 (.inr (.inl ⟨h, rfl⟩))))
  | unsupported hc ht h =>
    exact exists_ends_of_conclusion hc
      (conclusion_of_resolved (resolved_eq_error_iff.2 (.inr (.inr ⟨_, ht, .inl ⟨h, rfl⟩⟩))))
  | noHost hc ht hx h =>
    exact exists_ends_of_conclusion hc
      (conclusion_of_resolved (resolved_eq_error_iff.2 (.inr (.inr ⟨_, ht, .inr ⟨hx, .inr ⟨h, rfl⟩⟩⟩))))
  | noBinding ht h =>
    exact exists_ends_of_conclusion ht.certifies
      (conclusion_of_located ht (located_eq_error_iff.2 (.inl ⟨h, rfl⟩)))
  | severalBindings ht h =>
    exact exists_ends_of_conclusion ht.certifies
      (conclusion_of_located ht (located_eq_error_iff.2 (.inr (.inl ⟨h, rfl⟩))))
  | unregistered hb h =>
    exact exists_ends_of_conclusion hb.admits.certifies
      (conclusion_of_reaching hb (AuthMethods.reaching_eq_error_iff.2 (.inl ⟨h, rfl⟩)))
  | noAuthMethod hb hg h =>
    exact exists_ends_of_conclusion hb.admits.certifies
      (conclusion_of_reaching hb (AuthMethods.reaching_eq_error_iff.2 (.inr ⟨hg, .inl ⟨h, rfl⟩⟩)))
  | severalAuthMethods hb hg h =>
    exact exists_ends_of_conclusion hb.admits.certifies
      (conclusion_of_reaching hb (AuthMethods.reaching_eq_error_iff.2 (.inr ⟨hg, .inr (.inl ⟨h, rfl⟩)⟩)))
  | unknownTag hb hg hr h =>
    exact exists_ends_of_conclusion hb.admits.certifies
      (conclusion_of_reaching hb
        (AuthMethods.reaching_eq_error_iff.2 (.inr ⟨hg, .inr (.inr ⟨_, hr, h⟩)⟩)))
  | retrieval hm h =>
    exact exists_ends_of_conclusion hm.knows.admits.certifies (conclusion_of_retrieval hm h)

/-- In whatever order the tasks of the revocation check take their steps, a client gets a token if and
only if all of its conditions hold. The errors that it may get otherwise are those of the first condition
that does not, and each of them comes up in some order. -/
theorem ends_iff (a : Attempt) :
    (∃ u, a.Ends a.result u) ∧
      (∀ r u, a.Ends r u → ∀ token, r = .ok token ↔ a.Issues token) ∧
      ∀ e, (∃ u, a.Ends (.error e) u) ↔ a.Refuses e :=
  ⟨⟨_, a.ends_run⟩, fun _ _ h _ ↦ h.eq_ok_iff, fun _ ↦ ⟨fun ⟨_, h⟩ ↦ h.refuses, Refuses.exists_ends⟩⟩

end CertGate.Authentication.Attempt
