import CertGate.Proofs.Authentication.Requests
import CertGate.Proofs.Management.AuthMethods
import CertGate.Proofs.Url.Authority

namespace CertGate

open Program

namespace AuthMethod

variable {a : AuthMethod} {p l m v rest : List Char} {c d : Char} {ds : List Char}

/-- The pattern begins nowhere in `l`, if `rest` comes after it. -/
def Clear (pattern l rest : List Char) : Prop := ∀ m, m <:+ l → m ≠ [] → ¬ pattern <+: m ++ rest

def Skips (pattern l : List Char) : Prop :=
  ∀ value rest, replaceFirst pattern value (l ++ rest) = l ++ replaceFirst pattern value rest

theorem clear_nil (p rest : List Char) : Clear p [] rest := by
  intro m hm hn
  exact absurd (List.suffix_nil.1 hm) hn

theorem clear_cons : Clear p (c :: l) rest ↔ ¬ p <+: c :: (l ++ rest) ∧ Clear p l rest := by
  constructor
  · intro h
    refine ⟨h (c :: l) List.suffix_rfl (List.cons_ne_nil c l), fun m hm ↦ h m ?_⟩
    exact hm.trans (List.suffix_cons c l)
  · rintro ⟨hc, hl⟩ m hm hn
    rcases List.suffix_cons_iff.1 hm with rfl | hm
    · exact hc
    · exact hl m hm hn

theorem clear_of_not_mem (h : d ∉ l) (ds rest : List Char) : Clear (d :: ds) l rest := by
  rintro (_ | ⟨c, m⟩) hm hn hp
  · exact hn rfl
  · have hc : d = c := (List.cons_prefix_cons.1 hp).1
    exact h (hc ▸ hm.subset List.mem_cons_self)

theorem replaceFirst_append (h : Clear p l rest) :
    replaceFirst p v (l ++ rest) = l ++ replaceFirst p v rest := by
  induction l with
  | nil => rfl
  | cons c l ih =>
    obtain ⟨hc, hl⟩ := clear_cons.1 h
    rw [← List.isPrefixOf_iff_prefix, Bool.not_eq_true] at hc
    rw [List.cons_append, replaceFirst, hc, if_neg Bool.false_ne_true, ih hl, List.cons_append]

theorem Skips.append (hl : Skips p l) (hm : Skips p m) : Skips p (l ++ m) := by
  intro value rest
  rw [List.append_assoc, hl, hm, List.append_assoc]

theorem isPrefix_of_append (hc : c ∉ p) (h : p <+: l ++ c :: rest) : p <+: l := by
  obtain ⟨t, ht⟩ := h
  rcases List.append_eq_append_iff.1 ht with ⟨m, hl, -⟩ | ⟨m, rfl, hm⟩
  · exact ⟨m, hl.symm⟩
  · cases m with
    | nil => exact ⟨[], by simp⟩
    | cons d m => exact absurd (List.cons_eq_cons.1 hm).1 fun hd ↦ hc (by simp [hd])

theorem clear_of_holds (hc : c ∉ p) (h : holds p l = false) (rest : List Char) :
    Clear p (l ++ [c]) rest := by
  induction l with
  | nil =>
    cases p with
    | nil => cases h
    | cons d ds =>
      have hd : d ∉ [c] := fun hd ↦ hc (List.mem_singleton.1 hd ▸ List.mem_cons_self)
      exact clear_of_not_mem hd ds rest
  | cons x l ih =>
    rw [holds, Bool.or_eq_false_iff] at h
    refine clear_cons.2 ⟨fun hp ↦ ?_, ih h.2⟩
    have hp : p <+: (x :: l) ++ c :: rest := by simpa using hp
    simp [List.isPrefixOf_iff_prefix.2 (isPrefix_of_append hc hp)] at h

def placeholders : List String := [identifierPlaceholder, accessKeyPlaceholder]

theorem clear_placeholder {placeholder : String} (hp : placeholder ∈ placeholders) (h : '\x7b' ∉ l)
    (rest : List Char) : Clear placeholder.toList l rest := by
  obtain ⟨ds, hds⟩ : ∃ ds, placeholder.toList = '\x7b' :: ds := by
    rcases List.mem_pair.1 hp with rfl | rfl <;> exact ⟨_, rfl⟩
  rw [hds]
  exact clear_of_not_mem h ds rest

/-- The text stays as it is at the beginning of a request's URL. -/
def Kept (l : List Char) : Prop := ∀ p ∈ placeholders, Skips p.toList l

theorem Kept.append (hl : Kept l) (hm : Kept m) : Kept (l ++ m) := fun p hp ↦ (hl p hp).append (hm p hp)

theorem kept_of_not_mem (h : '\x7b' ∉ l) : Kept l := fun _ hp _ rest ↦
  replaceFirst_append (clear_placeholder hp h rest)

theorem kept_of_holds (h : ∀ p ∈ placeholders, holds p.toList l = false) : Kept (l ++ [':']) := by
  have hc : ∀ p ∈ placeholders, ':' ∉ p.toList := by decide
  exact fun p hp _ rest ↦ replaceFirst_append (clear_of_holds (hc p hp) (h p hp) rest)

def filled (a : AuthMethod) (uniqueKey : String) (cs : List Char) : List Char :=
  let cs := replaceFirst identifierPlaceholder.toList uniqueKey.toList cs
  match a.variant with
  | .apiKey key => replaceFirst accessKeyPlaceholder.toList key.toList cs
  | _ => cs

theorem filled_append (h : Kept l) (uniqueKey : String) (rest : List Char) :
    a.filled uniqueKey (l ++ rest) = l ++ a.filled uniqueKey rest := by
  have hi := h identifierPlaceholder (by decide) uniqueKey.toList
  simp only [filled, hi]
  cases a.variant with
  | apiKey key => exact h accessKeyPlaceholder (by decide) key.toList _
  | headers t => rfl
  | mock => rfl

theorem head?_filled (h : ∀ c ∈ l.head?, c ≠ '\x7b') (uniqueKey : String) :
    (a.filled uniqueKey l).head? = l.head? := by
  cases l with
  | nil =>
    rw [filled]
    cases a.variant <;> rfl
  | cons c l =>
    have hc : '\x7b' ∉ [c] := fun hm ↦ h c rfl (List.mem_singleton.1 hm).symm
    rw [← List.singleton_append, filled_append (kept_of_not_mem hc)]
    rfl

theorem toList_template (a : AuthMethod) (scheme : String) :
    (s!"{scheme}://{a.host}:{a.port.toNat}{a.path}").toList =
      Url.assembled scheme a.host.toList a.port.toNat a.path.toList := by
  simp [Url.assembled, toString]

theorem resourceUrl_eq (a : AuthMethod) (scheme uniqueKey : String) :
    a.resourceUrl scheme uniqueKey = String.ofList (a.filled uniqueKey
      (Url.assembled scheme a.host.toList a.port.toNat a.path.toList)) := by
  rw [resourceUrl, toList_template]
  unfold filled
  cases a.variant <;> rfl

theorem endpoint_eq (a : AuthMethod) : a.endpoint =
    String.ofList (Url.assembled "https" a.host.toList a.port.toNat a.path.toList) := by
  rw [← toList_template, String.ofList_toList]
  rfl

def pathFront (a : AuthMethod) : List Char := a.path.toList.takeWhile (!Url.endsAuthority true ·)

def pathRest (a : AuthMethod) : List Char := a.path.toList.dropWhile (!Url.endsAuthority true ·)

/-- The host stays as it is when a request is made up, and the path does not go on with the port nor
make host and port the credentials for another host. -/
structure Delimited (a : AuthMethod) : Prop where
  host : ∀ p ∈ placeholders, holds p.toList a.host.toList = false
  path : ∀ c ∈ a.pathFront, c ≠ '@' ∧ c.isDigit = false

theorem pathFront_append_pathRest (a : AuthMethod) : a.pathFront ++ a.pathRest = a.path.toList :=
  List.takeWhile_append_dropWhile

theorem not_delimiter_of_mem (a : AuthMethod) : ∀ c ∈ a.pathFront, Url.endsAuthority true c = false :=
  fun c hc ↦ by simpa using List.mem_takeWhile_imp hc

theorem delimiter_of_head? (a : AuthMethod) : ∀ c ∈ a.pathRest.head?, Url.endsAuthority true c = true := by
  intro c hc
  have h := List.head?_dropWhile_not (!Url.endsAuthority true ·) a.path.toList
  rw [pathRest] at hc
  rw [Option.mem_def.1 hc] at h
  simpa using h

variable {h : Url.Host} {scheme : String} {s : Store}

/-- The check of an auth method lets no path pass that adds anything else to the authority. -/
theorem added_path (hv : AuthMethods.Valid s a) (hh : Url.host? true a.host.toList = some h)
    (hd : a.Delimited) : Url.added a.path.toList = [] := by
  obtain ⟨-, t, -, -, hc⟩ := hv
  obtain ⟨-, ⟨u, hu⟩, -⟩ := of_checkAgainst hc
  have hfront : ∀ c ∈ Url.added a.path.toList, c ∈ a.pathFront := fun c hc ↦
    Url.mem_of_mem_added a.not_delimiter_of_mem a.delimiter_of_head? (pathFront_append_pathRest a ▸ hc)
  have hat : '@' ∉ Url.added a.path.toList := fun hc ↦ (hd.path _ (hfront _ hc)).1 rfl
  rw [endpoint_eq] at hu
  refine List.eq_nil_iff_forall_not_mem.2 fun c hc ↦ ?_
  have hdigit := Url.isDigit_of_parse?_assembled (.inr rfl) hh hat hu hc
  simp [(hd.path c (hfront c hc)).2] at hdigit

theorem exists_resourceUrl (hs : scheme = "http" ∨ scheme = "https") (hd : a.Delimited)
    (ha : Url.added a.path.toList = []) (uniqueKey : String) :
    ∃ rest, a.resourceUrl scheme uniqueKey =
        String.ofList (Url.assembled scheme a.host.toList a.port.toNat (a.pathFront ++ rest)) ∧
      Url.added (a.pathFront ++ rest) = [] := by
  have hfront := a.not_delimiter_of_mem
  have hrest := a.delimiter_of_head?
  rw [← pathFront_append_pathRest] at ha
  -- What is before the delimiter is blank, so that no placeholder begins there.
  have hblank : ∀ c ∈ a.pathFront, Url.isTrimmed c = true := fun c hc ↦
    Url.isTrimmed_of_added_eq_nil hfront hrest ha hc
  have hbegin : Kept (scheme.toList ++ "://".toList) :=
    kept_of_not_mem (by rcases hs with rfl | rfl <;> decide)
  have hend : Kept (Nat.toDigits 10 a.port.toNat ++ a.pathFront) := by
    refine kept_of_not_mem fun hc ↦ ?_
    rcases List.mem_append.1 hc with hc | hc
    · cases Url.isDigit_of_mem_toDigits hc
    · cases hblank _ hc
  have hkept := (hbegin.append (kept_of_holds hd.host)).append hend
  have hfilled := filled_append (a := a) hkept uniqueKey a.pathRest
  refine ⟨a.filled uniqueKey a.pathRest, ?_, ?_⟩
  · rw [resourceUrl_eq, ← pathFront_append_pathRest]
    exact congrArg String.ofList (by simpa [Url.assembled] using hfilled)
  · have hbrace : ∀ c ∈ a.pathRest.head?, c ≠ '\x7b' := by
      rintro c hc rfl
      cases hrest _ hc
    have hhead := head?_filled hbrace uniqueKey (a := a)
    have hnil : a.filled uniqueKey a.pathRest = [] ↔ a.pathRest = [] := by
      rw [← List.head?_eq_none_iff, hhead, List.head?_eq_none_iff]
    rw [Url.added_append hfront hrest] at ha
    rw [Url.added_append hfront (hhead ▸ hrest)]
    simpa only [hnil] using ha

variable {v w : World}

/-- An auth method that has passed its check asks its own host at its own port, which is one of its
service type, if host and path are delimited: whatever the unique key of a client and the rest of the
path hold. -/
theorem request_to_own_host {s : State} (hv : (run v (AuthMethods.validate a) s).1 = .ok ())
    (hh : Url.host? true a.host.toList = some h) (hd : a.Delimited)
    (hs : scheme = "http" ∨ scheme = "https") (b : Binding) :
    (∃ t ∈ s.store.serviceTypes.toList, t.uuid = a.serviceUuid ∧ a.host ∈ t.hosts) ∧
      (∃ u, Url.parse? (a.resourceUrl scheme b.uniqueKey) = some u ∧ u.host = some h ∧
        u.effectivePort? = some a.port.toNat) ∧
      ∀ q ∈ (requests w (Retrieval.retrieve a scheme b.uniqueKey)).head?,
        q.url.host = some h ∧ q.url.effectivePort? = some a.port.toNat := by
  rw [AuthMethods.validate_inspects, AuthMethods.valid_eq_ok_iff] at hv
  obtain ⟨rest, hurl, hadded⟩ := exists_resourceUrl hs hd (added_path hv hh hd) b.uniqueKey
  obtain ⟨u, hu, hhost, hport⟩ :=
    Url.exists_parse?_assembled hs hh (n := a.port.toNat) a.port.toNat_lt hadded
  rw [← hurl] at hu
  refine ⟨?_, ⟨u, hu, hhost, hport⟩, fun q hq ↦ ?_⟩
  · obtain ⟨-, t, ht, hut, hc⟩ := hv
    exact ⟨t, ht, hut, host_mem_of_checkAgainst hc⟩
  · rcases Retrieval.sends_retrieve w a scheme b.uniqueKey with hn | ⟨first, l, hf, hl, -⟩
    · simp [hn] at hq
    · rw [hl] at hq
      cases hq
      rw [← hhost, ← hport]
      exact Fetch.server_of_request hu hf

theorem request_to_own_host_of_odd_key :
    ∃ (w : World) (s : State) (a : AuthMethod) (b : Binding),
      (run w (AuthMethods.validate a) s).1 = .ok () ∧ a.host = "Host1" ∧ b.uniqueKey = "@other:1/" ∧
        ∃ u, Url.parse? (a.resourceUrl "https" b.uniqueKey) = some u ∧ u.host = some (.domain "host1") ∧
          u.effectivePort? = some 9000 := by
  let t : ServiceType := { hosts := ["Host1"], uuid := "1" }
  let a : AuthMethod :=
    { serviceUuid := "1", host := "Host1", port := 9000, retrievalField := "token"
      path := "/v1/users/" ++ identifierPlaceholder ++ "?key=" ++ accessKeyPlaceholder
      variant := .apiKey "k" }
  let b : Binding := { uniqueKey := "@other:1/" }
  let s : State := ⟨⟨⟨[t], by decide⟩, ∅, ∅⟩, 0, []⟩
  let w : World := ⟨fun _ ↦ none, ⟨1700000000, 0⟩, fun n ↦ toString n⟩
  have hv : (run w (AuthMethods.validate a) s).1 = .ok () := by
    rw [AuthMethods.validate_inspects, AuthMethods.valid_eq_ok_iff]
    exact ⟨by decide +kernel, t, by decide, rfl, by decide +kernel⟩
  have hh : Url.host? true a.host.toList = some (.domain "host1") := by decide +kernel
  have hfront : a.pathFront = [] := by decide +kernel
  have hd : a.Delimited := ⟨by decide +kernel, by simp [hfront]⟩
  exact ⟨w, s, a, b, hv, rfl, rfl, (request_to_own_host (w := w) hv hh hd (.inr rfl) b).2.1⟩

/-- The check of an auth method lets a path pass that makes its host and port the credentials for
another host, which the secret headers are sent to. -/
theorem request_to_other_host :
    ∃ (w : World) (s : State) (a : AuthMethod) (b : Binding) (u : Url) (q : OutgoingRequest),
      (run w (AuthMethods.validate a) s).1 = .ok () ∧
        Url.host? true a.host.toList = some (.domain "host1") ∧ a.port = 9000 ∧
        Url.parse? (a.resourceUrl "https" b.uniqueKey) = some u ∧ u.host = some (.domain "other") ∧
        u.effectivePort? = some 443 ∧ requests w (Retrieval.retrieve a "https" b.uniqueKey) = [q] ∧
        q.url.host = some (.domain "other") ∧ ("x-api-key", "secret") ∈ q.headers := by
  let t : ServiceType := { hosts := ["host1"], uuid := "1" }
  let a : AuthMethod :=
    { serviceUuid := "1", host := "host1", port := 9000, retrievalField := "token"
      path := "@other/token"
      variant := .headers (.ofList [("x-api-key", "secret")]) }
  let s : State := ⟨⟨⟨[t], by decide⟩, ∅, ∅⟩, 0, []⟩
  let w : World := ⟨fun _ ↦ none, ⟨1700000000, 0⟩, fun n ↦ toString n⟩
  let u : Url := { scheme := "https", host := some (.domain "other"), path := .segments ["token"] }
  have hv : (run w (AuthMethods.validate a) s).1 = .ok () := by
    rw [AuthMethods.validate_inspects, AuthMethods.valid_eq_ok_iff]
    exact ⟨by decide +kernel, t, by decide, rfl, by decide +kernel⟩
  have hu : Url.parse? (a.resourceUrl "https" "") =
      some { u with username := "host1", password := "9000" } := by decide +kernel
  exact ⟨w, s, a, {}, { u with username := "host1", password := "9000" },
    ⟨u, [("authorization", "Basic aG9zdDE6OTAwMA=="), ("x-api-key", "secret")]⟩, hv, by decide +kernel, rfl,
    hu, rfl, by decide, by decide +kernel, rfl, by decide⟩

end AuthMethod

end CertGate
