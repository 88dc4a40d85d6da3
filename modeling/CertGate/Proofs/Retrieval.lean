import CertGate.Proofs.Exchanges
import CertGate.Proofs.Keyed
import CertGate.Retrieval
import Mathlib.Data.List.Induction

namespace CertGate

section Members

variable {t : Table Datum} {p : String × Datum} {name : String} {d : Datum}

theorem Table.lookup_eq_some_iff : t.toList.lookup name = some d ↔ (name, d) ∈ t.toList := by
  rw [List.lookup_eq_some_iff]
  constructor
  · rintro ⟨before, after, ht, -⟩
    exact ht ▸ List.mem_append_right _ List.mem_cons_self
  · intro h
    obtain ⟨before, after, ht⟩ := List.append_of_mem h
    refine ⟨before, after, ht, fun p hp ↦ ?_⟩
    have hlt : p.1 < name := (List.pairwise_append.1 (ht ▸ t.sorted)).2.2 p hp _ List.mem_cons_self
    simpa using fun he : name = p.1 ↦ String.lt_irrefl _ (he ▸ hlt)

theorem Table.lookup_insert :
    (t.insert p).toList.lookup name = if name = p.1 then some p.2 else t.toList.lookup name := by
  refine Option.ext fun d ↦ ?_
  rw [Table.lookup_eq_some_iff, Keyed.mem_insert]
  split
  · next h => simp [h, Prod.ext_iff, eq_comm]
  · next h => simp [h, Prod.ext_iff, Table.lookup_eq_some_iff]

theorem lookup_lastFields (members : List (String × Datum)) (name : String) :
    (lastFields members).lookup name = members.reverse.lookup name := by
  induction members using List.reverseRecOn with
  | nil => rfl
  | append_singleton members p ih =>
    have hp : lastFields (members ++ [p]) = ((Keyed.ofList members : Table Datum).insert p).toList := by
      rw [lastFields, Keyed.ofList, List.foldl_append]
      rfl
    rw [hp, Table.lookup_insert, List.reverse_append, List.reverse_singleton, List.singleton_append,
      List.lookup_cons, ← ih]
    by_cases h : name = p.1
    · simp [h]
    · simp [h, beq_false_of_ne h, lastFields]

end Members

def AuthMethod.requestHeaders (m : AuthMethod) : List (String × String) :=
  match m.variant with
  | .headers h => h.toList
  | .apiKey _ | .mock => []

namespace Retrieval

open Program

def members? (body : Bytes) : Option (List (String × Datum)) :=
  match Json.read? body with
  | some (.record fields) => settledFields? (deepestNesting - 1) fields
  | _ => none

theorem bodyRecord?_eq (body : Bytes) : bodyRecord? body = (members? body).map lastFields := by
  rw [bodyRecord?, members?]
  cases Json.read? body with
  | none => rfl
  | some d =>
    cases d with
    | record fields =>
      change (match (settledFields? (deepestNesting - 1) fields).map
          fun fs ↦ Datum.record (lastFields fs) with
        | some (.record fields) => some fields
        | _ => none) = (settledFields? (deepestNesting - 1) fields).map lastFields
      cases settledFields? (deepestNesting - 1) fields <;> rfl
    | list items =>
      change (match (settledItems? (deepestNesting - 1) items).map Datum.list with
        | some (.record fields) => some fields
        | _ => none) = none
      cases settledItems? (deepestNesting - 1) items <;> rfl
    | _ => rfl

def answered (field : String) : Except FetchError (Url × IncomingResponse) → Result Datum
  | .error e => .error (.internal e.text)
  | .ok (source, response) =>
    if Fetch.isSuccess response then
      match members? response.body with
      | some members => token (lastFields members) field
      | none => .error (.internal (FetchError.undecodable source).text)
    else .error (.internal (Utf8.decodeLossy response.body))

variable {field : String} {y : Except FetchError (Url × IncomingResponse)} {v : Datum} {e : Error}

theorem token_lastFields (members : List (String × Datum)) (field : String) :
    token (lastFields members) field =
      match members.reverse.lookup field with
      | some d => .ok d
      | none => .error (missingField field) := by
  rw [token, lookup_lastFields]
  rfl

theorem answered_eq_ok_iff : answered field y = .ok v ↔ ∃ u response members, y = .ok (u, response) ∧
    Fetch.isSuccess response = true ∧ members? response.body = some members ∧
    members.reverse.lookup field = some v := by
  rcases y with e | ⟨u, response⟩
  · simp [answered]
  · rw [answered]
    split
    · next hs =>
      cases hm : members? response.body with
      | none => simp [hm]
      | some members =>
        dsimp only
        rw [token_lastFields]
        cases hl : members.reverse.lookup field <;> simp [hs, hm, hl]
    · next hs => simp [hs]

theorem kind_of_token {fields : List (String × Datum)} (h : token fields field = .error e) :
    e.kind = .internal := by
  rw [token] at h
  split at h <;> cases h
  rfl

theorem kind_of_answered (h : answered field y = .error e) : e.kind = .internal := by
  rcases y with e | ⟨u, response⟩
  · cases h
    rfl
  · rw [answered] at h
    split at h
    · split at h
      · exact kind_of_token h
      · cases h
        rfl
    · cases h
      rfl

theorem requestFields_bind (url : String) (headers : List (String × String)) (field : String) :
    (requestFields url headers >>= fun fields ↦ ofResult (token fields field)) =
      Fetch.get url headers >>= fun y ↦ ofResult (answered field y) := by
  rw [requestFields]
  refine (bind_bind _ _ _).trans (congrArg (Program.bind _) (funext fun y ↦ ?_))
  rcases y with e | ⟨source, response⟩
  · rfl
  · rw [answered]
    dsimp only
    cases hs : Fetch.isSuccess response with
    | false => rfl
    | true =>
      simp only [Bool.not_true, Bool.false_eq_true, if_false, if_true, bodyRecord?_eq]
      cases members? response.body <;> rfl

theorem retrieve_eq {a : AuthMethod} (h : a.variant ≠ .mock) (scheme uniqueKey : String) :
    retrieve a scheme uniqueKey = Fetch.get (a.resourceUrl scheme uniqueKey) a.requestHeaders >>= fun y ↦
      ofResult (answered a.retrievalField y) := by
  rw [retrieve, fields, AuthMethod.requestHeaders]
  cases hv : a.variant with
  | mock => exact absurd hv h
  | apiKey key => exact requestFields_bind ..
  | headers t => exact requestFields_bind ..

theorem retrieve_eq_of_mock {a : AuthMethod} (h : a.variant = .mock) (scheme uniqueKey : String) :
    retrieve a scheme uniqueKey =
      ofResult (mockFields uniqueKey >>= fun fields ↦ token fields a.retrievalField) := by
  rw [retrieve, fields, h]
  cases mockFields uniqueKey <;> rfl

theorem retrieve_offline (a : AuthMethod) (scheme uniqueKey : String) :
    (retrieve a scheme uniqueKey).Offline := by
  by_cases h : a.variant = .mock
  · rw [retrieve_eq_of_mock h]
    exact .ofResult _
  · rw [retrieve_eq h]
    exact .bind (Fetch.get_offline _ _) fun _ ↦ .ofResult _

theorem exists_of_exchanges {a : AuthMethod} (hv : a.variant ≠ .mock) {scheme uniqueKey : String}
    {l : List Exchange} {r : Result Datum} (h : Exchanges (retrieve a scheme uniqueKey) l r) :
    ∃ y, Fetch.Exchanged (a.resourceUrl scheme uniqueKey) a.requestHeaders l y ∧
      r = answered a.retrievalField y := by
  rw [retrieve_eq hv] at h
  rcases h.of_bind with ⟨e, hg, -⟩ | ⟨y, before, after, hg, hr, rfl⟩
  · obtain ⟨y, hy, -⟩ := Fetch.exchanged_of_exchanges hg
    cases hy
  · obtain ⟨y', hy, he⟩ := Fetch.exchanged_of_exchanges hg
    cases hy
    obtain ⟨rfl, rfl⟩ := hr.of_ofResult
    exact ⟨y, by rwa [List.append_nil], rfl⟩

theorem kind_of_mockFields {uniqueKey : String} (h : mockFields uniqueKey = .error e) :
    e.kind = .internal := by
  rw [mockFields] at h
  split at h
  · cases h
  · split at h <;> cases h
    rfl

/-- What retrieving a token with a request comes to, by what has been exchanged. -/
structure Retrieved (a : AuthMethod) (url : String) (l : List Exchange) (r : Result Datum) : Prop where
  /-- One request is made, if there is one to be made, and else only what it is redirected to. -/
  sent : match Fetch.request url a.requestHeaders with
    | .error _ => l = []
    | .ok q => (∃ answer rest, l = (q, answer) :: rest ∧ rest.length ≤ 10) ∧ l.IsChain Fetch.LeadsTo
  /-- It is for the URL, and has all the headers of the auth method. -/
  first : ∀ e ∈ l.head?,
    (∃ u, Url.parse? url = some u ∧ e.1.url = (Fetch.withoutCredentials u).1) ∧
    ∀ t, a.variant = .headers t → ∀ h ∈ t.toList, (Fetch.lowerName h.1, h.2) ∈ e.1.headers
  ok_iff : ∀ v, r = .ok v ↔ ∃ q response members, Fetch.Concludes l q response ∧
    Fetch.isSuccess response = true ∧ members? response.body = some members ∧
    members.reverse.lookup a.retrievalField = some v
  internal : ∀ e, r = .error e → e.kind = .internal
  refused : ∀ q response, Fetch.Concludes l q response → Fetch.isSuccess response = false →
    r = .error (.internal (Utf8.decodeLossy response.body))
  missing : ∀ q response members, Fetch.Concludes l q response → Fetch.isSuccess response = true →
    members? response.body = some members → members.reverse.lookup a.retrievalField = none →
    ∃ before after, r = .error (.internal (before ++ a.retrievalField ++ after))

theorem Retrieved.of_exchanged {a : AuthMethod} {url : String} {l : List Exchange}
    {y : Except FetchError (Url × IncomingResponse)} (h : Fetch.Exchanged url a.requestHeaders l y) :
    Retrieved a url l (answered a.retrievalField y) where
  sent := by
    cases hq : Fetch.request url a.requestHeaders with
    | error e => exact ((Fetch.exchanged_of_error hq).1 h).1
    | ok q =>
      have hf := (Fetch.exchanged_of_ok hq).1 h
      exact ⟨hf.starts, hf.chain⟩
  first e he := by
    cases hq : Fetch.request url a.requestHeaders with
    | error _ =>
      rw [((Fetch.exchanged_of_error hq).1 h).1] at he
      cases he
    | ok q =>
      obtain ⟨answer, rest, rfl, -⟩ := ((Fetch.exchanged_of_ok hq).1 h).starts
      cases he
      obtain ⟨u, hu, hurl, hh⟩ := Fetch.exists_of_request hq
      refine ⟨⟨u, hu, hurl⟩, fun t ht ↦ ?_⟩
      rwa [AuthMethod.requestHeaders, ht] at hh
  ok_iff v := by
    rw [answered_eq_ok_iff]
    constructor
    · rintro ⟨u, response, members, hy, hr⟩
      obtain ⟨q, hq, -⟩ := h.eq_ok_iff.1 hy
      exact ⟨q, response, members, hq, hr⟩
    · rintro ⟨q, response, members, hq, hr⟩
      exact ⟨q.url, response, members, h.eq_ok_iff.2 ⟨q, hq, rfl⟩, hr⟩
  internal e := kind_of_answered
  refused q response hq hs := by
    rw [h.eq_ok_iff.2 ⟨q, hq, rfl⟩, answered, hs]
    rfl
  missing q response members hq hs hm hl := by
    rw [h.eq_ok_iff.2 ⟨q, hq, rfl⟩, answered, if_pos hs, hm]
    dsimp only
    rw [token_lastFields, hl]
    exact ⟨_, _, rfl⟩

/-- Whatever the network answers, a mock method makes no request, and every other method has a token
exactly if the response in the end is a success with the member that is asked for. Everything else is an
internal error. A run in a world is the case in which a fixed network answers. -/
theorem retrieve_outcome (a : AuthMethod) (scheme uniqueKey : String) :
    (∀ w s, ∃ l, Exchanges (retrieve a scheme uniqueKey) l (run w (retrieve a scheme uniqueKey) s).1 ∧
      (run w (retrieve a scheme uniqueKey) s).2.sent = s.sent ++ l.map Prod.fst ∧
      ∀ e ∈ l, e.2 = w.network e.1) ∧
    ∀ l r, Exchanges (retrieve a scheme uniqueKey) l r →
      (a.variant = .mock → l = [] ∧ ∀ e, r = .error e → e.kind = .internal) ∧
      (a.variant ≠ .mock → Retrieved a (a.resourceUrl scheme uniqueKey) l r) := by
  refine ⟨Exchanges.exists_of_run (retrieve_offline a scheme uniqueKey), fun l r h ↦
    ⟨fun hv ↦ ?_, fun hv ↦ ?_⟩⟩
  · rw [retrieve_eq_of_mock hv] at h
    obtain ⟨hl, rfl⟩ := h.of_ofResult
    refine ⟨hl, fun e he ↦ ?_⟩
    rcases Result.bind_eq_error_iff.1 he with hf | ⟨fields, -, ht⟩
    · exact kind_of_mockFields hf
    · exact kind_of_token ht
  · obtain ⟨y, hy, rfl⟩ := exists_of_exchanges hv h
    exact .of_exchanged hy

theorem retrieve_outcome_of_redirect :
    let a : AuthMethod := {
      host := "h", port := 90, path := "/a/\x7b\x7bidentifier\x7d\x7d", retrievalField := "t"
      variant := .headers (Keyed.ofList [("X-Key", "k")]) }
    ∃ l, l.length = 2 ∧ Exchanges (retrieve a "http" "u") l (.ok (.text "v")) ∧
      Retrieved a "http://h:90/a/u" l (.ok (.text "v")) := by
  intro a
  let w : World := {
    network q := some <|
      if q.url.text = "http://h:90/a/u" then ⟨302, [], some "/b"⟩
      else ⟨200, Utf8.encode "\x7b\"t\":1,\"t\":\"v\"\x7d", none⟩
    now := ⟨0, 0⟩
    uuids := fun _ ↦ "" }
  obtain ⟨hrun, h⟩ := retrieve_outcome a "http" "u"
  obtain ⟨l, hl, hs, -⟩ := hrun w ⟨{}, 0, []⟩
  have htext (r : Result Datum) (h : (r.toOption >>= Datum.string?) = some "v") : r = .ok (.text "v") := by
    rcases r with e | d
    · cases h
    · cases d <;> cases h
      rfl
  have hr : (run w (retrieve a "http" "u") ⟨{}, 0, []⟩).1 = .ok (.text "v") :=
    htext _ (by decide +kernel)
  have hlen : (run w (retrieve a "http" "u") ⟨{}, 0, []⟩).2.sent.length = 2 := by decide +kernel
  have hu : a.resourceUrl "http" "u" = "http://h:90/a/u" := by decide +kernel
  rw [hr] at hl
  refine ⟨l, ?_, hl, hu ▸ (h l _ hl).2 nofun⟩
  simpa [hs] using hlen

end Retrieval

end CertGate
