import CertGate.Proofs.Fetch

namespace CertGate

abbrev Exchange := OutgoingRequest × Option IncomingResponse

namespace Program

variable {α β : Type} {p : Program α} {f : α → Program β} {l : List Exchange}

/-- The exchanges that a program can have with the network, and the result that it then has. The program
keeps away from the store. -/
inductive Exchanges {α : Type} : Program α → List Exchange → Result α → Prop where
  | done (a : α) : Exchanges (done a) [] (.ok a)
  | fail (e : Error) : Exchanges (fail e) [] (.error e)
  | exchange {q : OutgoingRequest} {next : Option IncomingResponse → Program α} {l : List Exchange}
      {r : Result α} (answer : Option IncomingResponse) (h : Exchanges (next answer) l r) :
      Exchanges (call (.exchange q) next) ((q, answer) :: l) r
  | now {next : Instant → Program α} {l : List Exchange} {r : Result α} (time : Instant)
      (h : Exchanges (next time) l r) : Exchanges (call .now next) l r

namespace Exchanges

theorem of_bind {r : Result β} (h : Exchanges (p >>= f) l r) :
    (∃ e, Exchanges p l (.error e) ∧ r = .error e) ∨
      ∃ a before after, Exchanges p before (.ok a) ∧ Exchanges (f a) after r ∧ l = before ++ after := by
  change Exchanges (p.bind f) l r at h
  induction p generalizing l with
  | done a => exact .inr ⟨a, [], l, .done a, h, rfl⟩
  | fail e =>
    cases h
    exact .inl ⟨e, .fail e, rfl⟩
  | call c next ih =>
    cases c with
    | store c => cases h
    | freshUuid => cases h
    | now =>
      cases h with
      | now time h =>
        rcases ih time h with ⟨e, hp, hr⟩ | ⟨a, before, after, hp, hf, hl⟩
        · exact .inl ⟨e, .now time hp, hr⟩
        · exact .inr ⟨a, before, after, .now time hp, hf, hl⟩
    | exchange q =>
      cases h with
      | exchange answer h =>
        rcases ih answer h with ⟨e, hp, hr⟩ | ⟨a, before, after, hp, hf, rfl⟩
        · exact .inl ⟨e, .exchange answer hp, hr⟩
        · exact .inr ⟨a, _, after, .exchange answer hp, hf, rfl⟩

theorem of_ofResult {x r : Result α} (h : Exchanges (ofResult x) l r) : l = [] ∧ r = x := by
  cases x <;> cases h <;> exact ⟨rfl, rfl⟩

/-- A run is one of the possible exchanges: the one in which a fixed network answers. -/
theorem exists_of_run (hp : p.Offline) (w : World) (s : State) :
    ∃ l, Exchanges p l (run w p s).1 ∧ (run w p s).2.sent = s.sent ++ l.map Prod.fst ∧
      ∀ e ∈ l, e.2 = w.network e.1 := by
  induction p generalizing s with
  | done a => exact ⟨[], .done a, (List.append_nil _).symm, List.forall_mem_nil _⟩
  | fail e => exact ⟨[], .fail e, (List.append_nil _).symm, List.forall_mem_nil _⟩
  | call c next ih =>
    cases c with
    | store c => exact hp.elim
    | freshUuid => exact hp.elim
    | now =>
      obtain ⟨l, hl, hs, ha⟩ := ih w.now (hp w.now) s
      exact ⟨l, .now w.now hl, hs, ha⟩
    | exchange q =>
      obtain ⟨l, hl, hs, ha⟩ := ih (w.network q) (hp _) { s with sent := s.sent ++ [q] }
      refine ⟨_, .exchange (w.network q) hl, ?_, List.forall_mem_cons.2 ⟨rfl, ha⟩⟩
      exact hs.trans (by rw [List.append_assoc, List.singleton_append, List.map_cons])

end Exchanges

end Program

namespace Fetch

open Program

variable {q : OutgoingRequest} {l : List Exchange}

def LeadsTo (e f : Exchange) : Prop :=
  ∃ response target, e.2 = some response ∧ target? e.1.url response = some target ∧
    f.1 = redirected e.1 target

def Concludes (l : List Exchange) (q : OutgoingRequest) (response : IncomingResponse) : Prop :=
  l.getLast? = some (q, some response) ∧ target? q.url response = none

theorem exchanges_send {next : Url → Program (Except FetchError (Url × IncomingResponse))}
    {x : Result (Except FetchError (Url × IncomingResponse))} (h : Exchanges (send q next) l x) :
    ∃ answer rest, l = (q, answer) :: rest ∧
      ((answer = none ∧ rest = [] ∧ x = .ok (.error (.unreachable q.url))) ∨
      (∃ response, answer = some response ∧ target? q.url response = none ∧ rest = [] ∧
        x = .ok (.ok (q.url, response))) ∨
      ∃ response target, answer = some response ∧ target? q.url response = some target ∧
        Exchanges (next target) rest x) := by
  cases h with
  | @exchange _ _ rest _ answer h =>
    refine ⟨answer, rest, rfl, ?_⟩
    cases answer with
    | none =>
      cases h
      exact .inl ⟨rfl, rfl, rfl⟩
    | some response =>
      cases ht : target? q.url response with
      | none =>
        simp only [Program.bind, ht] at h
        cases h
        exact .inr (.inl ⟨response, rfl, ht, rfl, rfl⟩)
      | some target =>
        simp only [Program.bind, ht] at h
        exact .inr (.inr ⟨response, target, rfl, ht, h⟩)

/-- Requests one after the other, each after the first as the answer to the one before says. -/
structure Follows (q : OutgoingRequest) (redirects : Nat) (l : List Exchange)
    (y : Except FetchError (Url × IncomingResponse)) : Prop where
  starts : ∃ answer rest, l = (q, answer) :: rest ∧ rest.length ≤ redirects
  chain : l.IsChain LeadsTo
  ends : ∀ u response, y = .ok (u, response) ↔ ∃ q, Concludes l q response ∧ q.url = u

theorem Follows.last {n : Nat} {answer : Option IncomingResponse}
    {y : Except FetchError (Url × IncomingResponse)}
    (hy : ∀ u response, y = .ok (u, response) ↔
      answer = some response ∧ target? q.url response = none ∧ q.url = u) :
    Follows q n [(q, answer)] y where
  starts := ⟨answer, [], rfl, Nat.zero_le n⟩
  chain := .singleton _
  ends u response := by
    rw [hy]
    constructor
    · rintro ⟨rfl, ht, hu⟩
      exact ⟨q, ⟨rfl, ht⟩, hu⟩
    · rintro ⟨_, ⟨hl, ht⟩, hu⟩
      cases hl
      exact ⟨rfl, ht, hu⟩

theorem Follows.arrived {n : Nat} {response : IncomingResponse} (ht : target? q.url response = none) :
    Follows q n [(q, some response)] (.ok (q.url, response)) := by
  refine .last fun u found ↦ ⟨?_, ?_⟩
  · rintro ⟨⟩
    exact ⟨rfl, ht, rfl⟩
  · rintro ⟨⟨⟩, -, rfl⟩
    rfl

theorem Follows.redirect {n : Nat} {response : IncomingResponse} {target : Url}
    {y : Except FetchError (Url × IncomingResponse)} (ht : target? q.url response = some target)
    (h : Follows (redirected q target) n l y) : Follows q (n + 1) ((q, some response) :: l) y := by
  obtain ⟨⟨answer, rest, rfl, hn⟩, hc, he⟩ := h
  exact ⟨⟨_, _, rfl, Nat.succ_le_succ hn⟩, hc.cons_cons ⟨response, target, rfl, ht, rfl⟩, he⟩

theorem follows_of_exchanges {n : Nat} {x : Result (Except FetchError (Url × IncomingResponse))}
    (h : Exchanges (follow n q) l x) : ∃ y, x = .ok y ∧ Follows q n l y := by
  induction n generalizing q l with
  | zero =>
    obtain ⟨answer, rest, rfl, hs⟩ := exchanges_send h
    rcases hs with ⟨rfl, rfl, rfl⟩ | ⟨response, rfl, ht, rfl, rfl⟩ | ⟨response, target, rfl, ht, hs⟩
    · exact ⟨_, rfl, .last (by simp)⟩
    · exact ⟨_, rfl, .arrived ht⟩
    · cases hs
      exact ⟨_, rfl, .last (by simp [ht])⟩
  | succ n ih =>
    obtain ⟨answer, rest, rfl, hs⟩ := exchanges_send h
    rcases hs with ⟨rfl, rfl, rfl⟩ | ⟨response, rfl, ht, rfl, rfl⟩ | ⟨response, target, rfl, ht, hs⟩
    · exact ⟨_, rfl, .last (by simp)⟩
    · exact ⟨_, rfl, .arrived ht⟩
    · obtain ⟨y, hx, hy⟩ := ih hs
      exact ⟨y, hx, hy.redirect ht⟩

def Exchanged (url : String) (headers : List (String × String)) (l : List Exchange)
    (y : Except FetchError (Url × IncomingResponse)) : Prop :=
  match request url headers with
  | .error e => l = [] ∧ y = .error e
  | .ok q => Follows q 10 l y

section Exchanged

variable {url : String} {headers : List (String × String)} {y : Except FetchError (Url × IncomingResponse)}

theorem exchanged_of_error {e : FetchError} (hr : request url headers = .error e) :
    Exchanged url headers l y ↔ l = [] ∧ y = .error e := by
  rw [Exchanged, hr]

theorem exchanged_of_ok (hr : request url headers = .ok q) :
    Exchanged url headers l y ↔ Follows q 10 l y := by
  rw [Exchanged, hr]

theorem exchanged_of_exchanges {x : Result (Except FetchError (Url × IncomingResponse))}
    (h : Exchanges (get url headers) l x) : ∃ y, x = .ok y ∧ Exchanged url headers l y := by
  rw [get] at h
  cases hr : request url headers with
  | error e =>
    rw [hr] at h
    cases h
    exact ⟨_, rfl, (exchanged_of_error hr).2 ⟨rfl, rfl⟩⟩
  | ok q =>
    rw [hr] at h
    obtain ⟨y, hx, hy⟩ := follows_of_exchanges h
    exact ⟨y, hx, (exchanged_of_ok hr).2 hy⟩

/-- A fetch has a response exactly if the last of its requests has got one that leads no further. -/
theorem Exchanged.eq_ok_iff {u : Url} {response : IncomingResponse} (h : Exchanged url headers l y) :
    y = .ok (u, response) ↔ ∃ q, Concludes l q response ∧ q.url = u := by
  cases hr : request url headers with
  | error e =>
    obtain ⟨rfl, rfl⟩ := (exchanged_of_error hr).1 h
    simp [Concludes]
  | ok q => exact ((exchanged_of_ok hr).1 h).ends u response

end Exchanged

end Fetch

end CertGate
