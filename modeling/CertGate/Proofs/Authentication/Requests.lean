import CertGate.Proofs.Authentication.AnyOrder

namespace CertGate

open Program

theorem Certificate.kind_of_checkValidity (c : Certificate) {now : Instant} {e : Error}
    (h : c.checkValidity now = .error e) : e.kind = .forbidden := by
  rw [checkValidity] at h
  split at h
  · cases h
    rfl
  · split at h <;> cases h
    rfl

namespace Retrieval

theorem sends_retrieve (w : World) (m : AuthMethod) (scheme uniqueKey : String) :
    Fetch.Sends w (m.resourceUrl scheme uniqueKey) m.requestHeaders
      (requests w (retrieve m scheme uniqueKey)) := by
  by_cases hv : m.variant = .mock
  · rw [retrieve_eq_of_mock hv, requests_ofResult]
    exact .inl rfl
  · have hr : requests w (retrieve m scheme uniqueKey) =
        requests w (Fetch.get (m.resourceUrl scheme uniqueKey) m.requestHeaders) := by
      rw [retrieve_eq hv, requests_bind (Fetch.get_offline _ _)]
      split <;> simp [requests_ofResult]
    exact hr ▸ Fetch.sends_get w _ _

end Retrieval

namespace Revocation

variable {w : World} {workers : Nat} {c : Certificate} {s t : State} {r : Result Unit}

theorem requests_fetchSerials (w : World) (url : String) :
    requests w (fetchSerials url) = requests w (Fetch.get url []) := by
  rw [fetchSerials, requests_bind (Fetch.get_offline url [])]
  rcases outcome w (Fetch.get url []) with e | e | ⟨source, response⟩
  · exact List.append_nil _
  · exact List.append_nil _
  · exact List.append_nil _

theorem Checks.exists_sent (h : Checks w workers c s r t) :
    ∃ l, t = { s with sent := s.sent ++ l } ∧ ∀ q ∈ l, ∃ url ∈ c.revocationPoints,
      ∃ first, Fetch.request url [] = .ok first ∧ Relation.ReflTransGen (Fetch.RedirectedTo w) first q := by
  obtain ⟨l, ht, hl⟩ := h.tasks.exists_sent (offline_of_mem_tasks _)
  refine ⟨l, ht, fun q hq ↦ ?_⟩
  obtain ⟨p, hp, hqp⟩ := hl q hq
  obtain ⟨url, hu, rfl⟩ := List.mem_map.1 hp
  rw [requests_fetchSerials] at hqp
  exact ⟨url, hu, (Fetch.sends_get w url []).exists_reflTransGen hqp⟩

theorem Checks.of_noPoints (h : Checks w workers c s r t) (hc : c.revocationPoints = []) :
    r = .error noPoints ∧ t = s := by
  constructor
  · cases h.returns with
    | noPoints => rfl
    | ended hn => exact absurd hc hn
  · obtain ⟨l, rfl, hl⟩ := h.exists_sent
    have hnil : l = [] := List.eq_nil_iff_forall_not_mem.2 fun q hq ↦ by
      obtain ⟨url, hu, -⟩ := hl q hq
      exact absurd (hc ▸ hu) List.not_mem_nil
    rw [hnil, List.append_nil]

end Revocation

namespace Authentication.Attempt

variable {a : Attempt} {c : Certificate} {r : Result Datum} {s t : State}

/-- A request for a revocation list of the client's certificate, or one it is redirected to. -/
def AsksForList (a : Attempt) (q : OutgoingRequest) : Prop :=
  ∃ c, a.Presents c ∧ a.settings.verifyCertificate = true ∧ a.InTime c ∧ ∃ url ∈ c.revocationPoints,
    ∃ first, Fetch.request url [] = .ok first ∧ Relation.ReflTransGen (Fetch.RedirectedTo a.world) first q

/-- Requests for the token of a client for whom everything has been found. -/
def AskForToken (a : Attempt) (l : List OutgoingRequest) : Prop :=
  ∃ c t b m, a.Reaches c t b m ∧
    Fetch.Sends a.world (m.resourceUrl a.settings.retrieval.scheme b.uniqueKey) m.requestHeaders l

theorem exists_sent_of_concluded (hc : a.Certifies c)
    (h : run a.world (concluded a.settings a.registry c a.serviceType a.host) s = (r, t))
    (hs : s.store = a.state.store) :
    ∃ token, t.sent = s.sent ++ token ∧ (token = [] ∨ a.AskForToken token) := by
  rw [run_concluded, hs] at h
  cases hr : resolved a.registry a.state.store c a.serviceType a.host with
  | error e =>
    rw [hr] at h
    cases h
    exact ⟨[], (List.append_nil _).symm, .inl rfl⟩
  | ok p =>
    obtain ⟨u, hm⟩ := (resolved_eq_ok_iff hc).1 hr
    rw [hr] at h
    cases h
    exact ⟨_, rfl, .inr ⟨c, u, p.1, p.2, hm, Retrieval.sends_retrieve ..⟩⟩

/-- Requests for lists come first, and one for a token only after all that could be held against the
client. -/
theorem Ends.exists_sent (h : a.Ends r t) :
    ∃ lists token, t.sent = a.state.sent ++ lists ++ token ∧ (∀ q ∈ lists, a.AsksForList q) ∧
      (token = [] ∨ a.AskForToken token) := by
  cases h with
  | unopened h =>
    rw [run_opened, Prod.mk.injEq] at h
    exact ⟨[], [], by simp [h.2], by simp, .inl rfl⟩
  | failed h hv hc =>
    obtain ⟨rfl, hp, hi⟩ := of_run_opened h
    obtain ⟨l, rfl, hl⟩ := hc.exists_sent
    exact ⟨l, [], by simp, fun q hq ↦ ⟨_, hp, hv, hi hv, hl q hq⟩, .inl rfl⟩
  | passed h hv hc hr =>
    have hcert : a.Certifies _ := .of_passed h hc
    obtain ⟨rfl, hp, hi⟩ := of_run_opened h
    obtain ⟨l, rfl, hl⟩ := hc.exists_sent
    obtain ⟨token, ht, htoken⟩ := exists_sent_of_concluded hcert hr rfl
    exact ⟨l, token, ht, fun q hq ↦ ⟨_, hp, hv, hi hv, hl q hq⟩, htoken⟩
  | unverified h hv hr =>
    have hcert : a.Certifies _ := .of_unverified h hv
    obtain ⟨rfl, -, -⟩ := of_run_opened h
    obtain ⟨token, ht, htoken⟩ := exists_sent_of_concluded hcert hr rfl
    exact ⟨[], token, by simp [ht], by simp, htoken⟩

theorem Ends.of_noPoints (h : a.Ends r t) (hp : a.Presents c) (hv : a.settings.verifyCertificate = true)
    (hc : c.revocationPoints = []) : t = a.state ∧ ∃ e, r = .error e ∧ e.kind = .forbidden := by
  cases h with
  | unopened h =>
    rw [run_opened, Prod.mk.injEq] at h
    obtain ⟨ho, rfl⟩ := h
    rw [opening, leaf_eq_ok_iff.2 hp, Result.ok_bind, if_pos hv] at ho
    rcases Result.bind_eq_error_iff.1 ho with he | ⟨u, -, he⟩
    · exact ⟨rfl, _, rfl, c.kind_of_checkValidity he⟩
    · cases he
  | failed h hv hk =>
    obtain ⟨rfl, hd, -⟩ := of_run_opened h
    obtain rfl := hp.unique hd
    obtain ⟨he, rfl⟩ := hk.of_noPoints hc
    cases he
    exact ⟨rfl, _, rfl, rfl⟩
  | passed h hv hk hr =>
    obtain ⟨rfl, hd, -⟩ := of_run_opened h
    obtain rfl := hp.unique hd
    cases (hk.of_noPoints hc).1
  | unverified h hn hr => cases hn.symm.trans hv

/-- In whatever order the tasks of the check take their steps, what is sent is first requests for the
lists of a certificate that is in time, if certificates are checked, and then at most one request for a
token, which nothing stands in the way of. -/
theorem requests_gated (a : Attempt) :
    a.Ends (run a.world (authenticate a.settings a.registry a.chain a.serviceType a.host) a.state).1
        (run a.world (authenticate a.settings a.registry a.chain a.serviceType a.host) a.state).2 ∧
      ∀ r t, a.Ends r t → ∃ lists token, t.sent = a.state.sent ++ lists ++ token ∧
        (∀ q ∈ lists, a.AsksForList q) ∧ (token = [] ∨ a.AskForToken token) ∧
        ∀ c, a.Presents c → c.revocationPoints = [] → lists = [] ∧
          (a.settings.verifyCertificate = true → token = [] ∧ ∃ e, r = .error e ∧ e.kind = .forbidden) := by
  refine ⟨a.ends_run, fun r t h ↦ ?_⟩
  obtain ⟨lists, token, ht, hl, htoken⟩ := h.exists_sent
  refine ⟨lists, token, ht, hl, htoken, fun c hp hc ↦ ⟨?_, fun hv ↦ ?_⟩⟩
  · refine List.eq_nil_iff_forall_not_mem.2 fun q hq ↦ ?_
    obtain ⟨d, hd, -, -, url, hu, -⟩ := hl q hq
    obtain rfl := hp.unique hd
    exact absurd (hc ▸ hu) List.not_mem_nil
  · obtain ⟨rfl, he⟩ := h.of_noPoints hp hv hc
    have hlen := congrArg List.length ht
    simp only [List.length_append] at hlen
    exact ⟨List.eq_nil_of_length_eq_zero (by omega), he⟩

theorem nothing_sent_without_points :
    ∃ (a : Attempt) (c : Certificate), a.Presents c ∧ a.InTime c ∧ c.revocationPoints = [] ∧
      a.settings.verifyCertificate = true ∧ ∃ r t, a.Ends r t ∧ t.sent = [] ∧
        ∃ e, r = .error e ∧ e.kind = .forbidden := by
  let c : Certificate := ⟨1, ⟨946684800, 0⟩, ⟨2493072000, 0⟩, [], []⟩
  let w : World := ⟨fun _ ↦ none, ⟨1700000000, 0⟩, fun n ↦ toString n⟩
  let a : Attempt := ⟨{}, {}, w, ⟨{}, 0, []⟩, [Certificate.nameless], "s", "h"⟩
  have hp : a.Presents c := ⟨_, [], rfl, Certificate.ofDer_nameless⟩
  have hi : a.InTime c := ⟨by decide, by decide⟩
  obtain ⟨hr, h⟩ := requests_gated a
  obtain ⟨lists, token, ht, -, -, hc⟩ := h _ _ hr
  obtain ⟨rfl, hv⟩ := hc c hp rfl
  obtain ⟨rfl, he⟩ := hv rfl
  exact ⟨a, c, hp, hi, rfl, rfl, _, _, hr, ht, he⟩

end Authentication.Attempt

end CertGate
