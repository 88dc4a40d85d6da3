import CertGate.Proofs.Program
import CertGate.Fetch
import Mathlib.Data.List.Chain

namespace CertGate.Fetch

open Program

theorem send_offline {r : OutgoingRequest}
    {next : Url → Program (Except FetchError (Url × IncomingResponse))}
    (h : ∀ target, (next target).Offline) : (send r next).Offline := by
  have hr : (perform (.exchange r)).Offline := fun _ ↦ trivial
  refine hr.bind fun response ↦ ?_
  cases response with
  | none => exact .pure _
  | some response =>
    cases htarget : target? r.url response with
    | none =>
      simp only [htarget]
      exact .pure _
    | some target =>
      simp only [htarget]
      exact h target

theorem follow_offline (redirects : Nat) (r : OutgoingRequest) : (follow redirects r).Offline := by
  induction redirects generalizing r with
  | zero => exact send_offline fun _ ↦ .pure _
  | succ redirects ih => exact send_offline fun target ↦ ih _

theorem exists_run_send (w : World) (s : State) {r : OutgoingRequest}
    {next : Url → Program (Except FetchError (Url × IncomingResponse))}
    (h : ∀ target s, ∃ x, (run w (next target) s).1 = .ok x) :
    ∃ x, (run w (send r next) s).1 = .ok x := by
  simp only [send, run_bind, perform, run, answer]
  split
  · exact ⟨_, rfl⟩
  · split
    · exact ⟨_, rfl⟩
    · exact h _ _

theorem exists_run_follow (w : World) (redirects : Nat) (r : OutgoingRequest) (s : State) :
    ∃ x, (run w (follow redirects r) s).1 = .ok x := by
  induction redirects generalizing r s with
  | zero => exact exists_run_send w s fun _ _ ↦ ⟨_, rfl⟩
  | succ redirects ih => exact exists_run_send w s fun _ s ↦ ih _ s

/-- That a fetch fails is a result of its own, which is never an error of the program. -/
theorem exists_run_get (w : World) (url : String) (headers : List (String × String)) (s : State) :
    ∃ x, (run w (get url headers) s).1 = .ok x := by
  rw [get]
  cases request url headers with
  | error e => exact ⟨_, rfl⟩
  | ok r => exact exists_run_follow w 10 r s

theorem get_offline (url : String) (headers : List (String × String)) : (get url headers).Offline := by
  rw [get]
  cases request url headers with
  | error e => exact .pure _
  | ok r => exact follow_offline 10 r

theorem exists_of_request {url : String} {headers : List (String × String)} {q : OutgoingRequest}
    (h : request url headers = .ok q) : ∃ u, Url.parse? url = some u ∧ q.url = (withoutCredentials u).1 ∧
      ∀ e ∈ headers, (lowerName e.1, e.2) ∈ q.headers := by
  rw [request] at h
  cases hu : Url.parse? url with
  | none =>
    rw [hu] at h
    cases h
  | some u =>
    rw [hu] at h
    dsimp only at h
    split at h
    · cases h
    · split at h
      · cases h
      · split at h
        · cases h
        · split at h
          · cases h
          · cases h
            exact ⟨u, rfl, rfl, fun e he ↦ List.mem_append_right _ (List.mem_map_of_mem he)⟩

theorem server_withoutCredentials (u : Url) : (withoutCredentials u).1.host = u.host ∧
    (withoutCredentials u).1.effectivePort? = u.effectivePort? := by
  rw [withoutCredentials]
  split <;> exact ⟨rfl, rfl⟩

theorem server_of_request {url : String} {headers : List (String × String)} {u : Url} {q : OutgoingRequest}
    (hu : Url.parse? url = some u) (h : request url headers = .ok q) :
    q.url.host = u.host ∧ q.url.effectivePort? = u.effectivePort? := by
  obtain ⟨v, hv, hq, -⟩ := exists_of_request h
  obtain rfl : u = v := Option.some.inj (hu.symm.trans hv)
  rw [hq]
  exact server_withoutCredentials u

def RedirectedTo (w : World) (r next : OutgoingRequest) : Prop :=
  ∃ response target, w.network r = some response ∧ target? r.url response = some target ∧
    next = redirected r target

/-- What a fetch may send: nothing, if there is no request to send, or else a request for the URL, and
requests for what each one is redirected to. -/
def Sends (w : World) (url : String) (headers : List (String × String)) (l : List OutgoingRequest) : Prop :=
  l = [] ∨ ∃ r rest, request url headers = .ok r ∧ l = r :: rest ∧ (r :: rest).IsChain (RedirectedTo w)

variable {w : World} {r : OutgoingRequest}

theorem requests_send {next : Url → Program (Except FetchError (Url × IncomingResponse))} :
    requests w (send r next) = r ::
      match w.network r with
      | none => []
      | some response =>
        match target? r.url response with
        | none => []
        | some target => requests w (next target) := by
  change r :: requests w _ = _
  cases w.network r with
  | none => rfl
  | some response =>
    simp only [Program.bind]
    cases target? r.url response <;> rfl

theorem requests_follow (w : World) (redirects : Nat) (r : OutgoingRequest) :
    ∃ rest, requests w (follow redirects r) = r :: rest ∧ (r :: rest).IsChain (RedirectedTo w) := by
  induction redirects generalizing r with
  | zero =>
    refine ⟨[], ?_, .singleton r⟩
    rw [follow, requests_send]
    cases w.network r with
    | none => rfl
    | some response =>
      dsimp only
      cases target? r.url response <;> rfl
  | succ redirects ih =>
    rw [follow, requests_send]
    cases hr : w.network r with
    | none => exact ⟨[], rfl, .singleton r⟩
    | some response =>
      dsimp only
      cases ht : target? r.url response with
      | none => exact ⟨[], rfl, .singleton r⟩
      | some target =>
        obtain ⟨rest, hrest, hc⟩ := ih (redirected r target)
        exact ⟨_, congrArg (r :: ·) hrest, .cons_cons ⟨response, target, hr, ht, rfl⟩ hc⟩

theorem sends_get (w : World) (url : String) (headers : List (String × String)) :
    Sends w url headers (requests w (get url headers)) := by
  rw [get]
  cases hr : request url headers with
  | error e => exact .inl rfl
  | ok r =>
    obtain ⟨rest, hrest, hc⟩ := requests_follow w 10 r
    exact .inr ⟨r, rest, hr, hrest, hc⟩

theorem Sends.exists_reflTransGen {url : String} {headers : List (String × String)}
    {l : List OutgoingRequest} (h : Sends w url headers l) (hr : r ∈ l) :
    ∃ first, request url headers = .ok first ∧ Relation.ReflTransGen (RedirectedTo w) first r := by
  rcases h with rfl | ⟨first, rest, hf, rfl, hc⟩
  · cases hr
  · refine ⟨first, hf, ?_⟩
    exact hc.induction (Relation.ReflTransGen (RedirectedTo w) first) _ (fun _ _ hxy hx ↦ hx.tail hxy)
      (fun _ ↦ .refl) r hr

end CertGate.Fetch
