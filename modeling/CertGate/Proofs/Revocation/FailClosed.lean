import CertGate.Proofs.Revocation.InOrder
import CertGate.Proofs.Revocation.Schedule

namespace CertGate.Revocation

variable {workers : Nat} {c : Certificate} {lists : List (String × Option (List Nat))}
variable {r : Result Unit}

/-- The request fails, the response reports a failure, or its body is no revocation list. -/
def Unusable (w : Program.World) (url : String) : Prop :=
  (∃ e, Program.outcome w (Fetch.get url []) = .ok (.error e)) ∨
    ∃ source response, Program.outcome w (Fetch.get url []) = .ok (.ok (source, response)) ∧
      (isFailure response ∨ RevocationList.ofDer? response.body = none)

theorem listAt_eq_none_iff {w : Program.World} {url : String} : listAt w url = none ↔ Unusable w url := by
  obtain ⟨fetched, h⟩ := Fetch.exists_run_get w url [] ⟨default, 0, []⟩
  have ho : Program.outcome w (Fetch.get url []) = .ok fetched := h
  have hl : listAt w url = (Program.outcome w (fetchSerials url)).toOption.join := rfl
  rw [fetchSerials, Program.outcome, Program.run_bind_of_ok (Prod.ext h rfl)] at hl
  rw [hl, Unusable, ho]
  rcases fetched with e | ⟨source, response⟩
  · simp [Except.toOption]
  · refine ⟨fun hn ↦ .inr ⟨source, response, rfl, ?_⟩, ?_⟩
    · cases hf : isFailure response with
      | true => exact .inl rfl
      | false => exact .inr (by simpa [hf, Except.toOption] using hn)
    · rintro (⟨e, he⟩ | ⟨u, r, he, hr⟩)
      · simp at he
      · obtain ⟨rfl, rfl⟩ : source = u ∧ response = r := by simpa using he
        cases hf : isFailure response with
        | true => simp [hf, Except.toOption]
        | false => simpa [hf, Except.toOption] using hr

theorem mem_listsAt_iff {w : Program.World} {url : String} :
    (url, none) ∈ listsAt w c ↔ url ∈ c.revocationPoints ∧ Unusable w url := by
  simp [listsAt, listAt_eq_none_iff]

theorem returns_check (w : Program.World) :
    Returns workers c (listsAt w c) (Program.outcome w (check workers c)) := by
  by_cases hc : c.revocationPoints = []
  · have h : Program.outcome w (check workers c) = .error noPoints := by
      simp only [check, hc, ↓reduceIte]
      rfl
    exact h ▸ .noPoints hc
  · rw [outcome_check w hc]
    exact returns_verdict hc (by simp [listsAt, Function.comp_def])

theorem Returns.sound (hc : c.revocationPoints ≠ []) (h : Returns workers c lists r) :
    lists.map (·.1) = c.revocationPoints ∧ CheckState.Sound c.serial lists r := by
  cases h with
  | noPoints h => exact absurd h hc
  | ended _ hl hs ho => exact ⟨hl, hs.invariant.sound r ho⟩

theorem CheckState.Sound.not_ok {target : Nat} {e : Error} (h : Sound target lists (.error e)) :
    ¬ Sound target lists (.ok ()) := by
  intro hall
  rcases h with ⟨-, l, hml, serials, hls, ht⟩ | ⟨url, -, hml⟩
  · obtain ⟨others, hlo, hn⟩ := hall l hml
    rw [hls, Option.some_inj] at hlo
    exact absurd (hlo ▸ ht) hn
  · obtain ⟨serials, hls, -⟩ := hall _ hml
    cases hls

/-- What passes in one order of the steps passes in all. -/
theorem Returns.eq_ok {n : Nat} (h : Returns workers c lists (.ok ())) (hr : Returns n c lists r) :
    r = .ok () := by
  have hc : c.revocationPoints ≠ [] := by
    cases h with
    | ended h => exact h
  cases r with
  | ok => rfl
  | error e => exact absurd (h.sound hc).2 (hr.sound hc).2.not_ok

/-- Passing means that every list is there and none has the certificate; a failure is one of the two
that a list can give rise to, and says what is wrong with one of the lists. The check as it runs is in one
of the orders, and a list is not there if what is fetched from its URL is of no use. -/
theorem check_fails_closed (hc : c.revocationPoints ≠ []) (h : Returns workers c lists r) :
    (r = .ok () ↔ ∀ l ∈ lists, ∃ serials, l.2 = some serials ∧ c.serial ∉ serials) ∧
      (r = .error revoked → ∃ l ∈ lists, ∃ serials, l.2 = some serials ∧ c.serial ∈ serials) ∧
      (∀ url, r = .error (.crlUnreachable url) →
        url ∈ c.revocationPoints ∧ (url, none) ∈ lists) ∧
      (∀ e, r = .error e → e = revoked ∨ ∃ url, e = .crlUnreachable url) ∧
      ∀ w, Returns workers c (listsAt w c) (Program.outcome w (check workers c)) ∧
        ∀ url, (url, none) ∈ listsAt w c ↔ url ∈ c.revocationPoints ∧ Unusable w url := by
  obtain ⟨hl, hs⟩ := h.sound hc
  have hrun : ∀ w, Returns workers c (listsAt w c) (Program.outcome w (check workers c)) ∧
      ∀ url, (url, none) ∈ listsAt w c ↔ url ∈ c.revocationPoints ∧ Unusable w url :=
    fun w ↦ ⟨returns_check w, fun _ ↦ mem_listsAt_iff⟩
  cases r with
  | ok => exact ⟨⟨fun _ ↦ hs, fun _ ↦ rfl⟩, by simp, by simp, by simp, hrun⟩
  | error e =>
    have hno : ¬ ∀ l ∈ lists, ∃ serials, l.2 = some serials ∧ c.serial ∉ serials := hs.not_ok
    rcases hs with ⟨rfl, l, hml, serials, hls, ht⟩ | ⟨url, rfl, hml⟩
    · refine ⟨⟨by simp, fun hall ↦ absurd hall hno⟩, fun _ ↦ ⟨l, hml, serials, hls, ht⟩, ?_, ?_, hrun⟩
      · exact fun url he ↦ by simp [revoked, Error.forbidden, Error.crlUnreachable] at he
      · exact fun e he ↦ .inl (by simpa using he.symm)
    · refine ⟨⟨by simp, fun hall ↦ absurd hall hno⟩, ?_, fun u he ↦ ?_, ?_, hrun⟩
      · exact fun he ↦ by simp [revoked, Error.forbidden, Error.crlUnreachable] at he
      · obtain rfl : url = u := by simpa [Error.crlUnreachable] using he
        exact ⟨hl ▸ List.mem_map_of_mem hml, hml⟩
      · exact fun e he ↦ .inr ⟨url, by simpa using he.symm⟩

theorem check_fails_closed_second_list :
    ∃ c : Certificate, c.revocationPoints ≠ [] ∧
      Returns 2 c [("a", some [7]), ("b", some [6, 5, 4])] (.error revoked) ∧
      ∃ l ∈ [("a", some [7]), ("b", some [6, 5, 4])], ∃ serials, l.2 = some serials ∧ c.serial ∈ serials := by
  let c : Certificate := ⟨5, ⟨0, 0⟩, ⟨0, 0⟩, [], ["a", "b"]⟩
  have hc : c.revocationPoints ≠ [] := by simp [c]
  have hr : Returns 2 c [("a", some [7]), ("b", some [6, 5, 4])] (.error revoked) := returns_verdict hc rfl
  exact ⟨c, hc, hr, (check_fails_closed hc hr).2.1 rfl⟩

end CertGate.Revocation
