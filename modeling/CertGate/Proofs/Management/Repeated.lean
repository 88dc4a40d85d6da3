import CertGate.Proofs.AuthMethod.Records
import CertGate.Proofs.Management.AuthMethods
import CertGate.Proofs.Management.Bindings

namespace CertGate

namespace ServiceType

theorem apply_self (t : ServiceType) (u : Update) : (t.apply u).apply u = t.apply u := by
  simp only [apply, ← Option.getD_or, Option.or_self]

end ServiceType

namespace Binding

theorem apply_self (b : Binding) (u : Update) : (b.apply u).apply u = b.apply u := by
  simp only [apply, ← Option.getD_or, Option.or_self]

end Binding

namespace AuthMethod

/-- One patch that does what two do in turn: the later one has the last word on the fields it names. -/
def Patch.orElse (later earlier : Patch) : Patch where
  host := later.host.or earlier.host
  port := later.port.or earlier.port
  path := later.path.or earlier.path
  retrievalField := later.retrievalField.or earlier.retrievalField
  accessKey := later.accessKey.or earlier.accessKey
  headers := later.headers.or earlier.headers

variable {a : AuthMethod} {p q : Patch}

theorem Variant.apply_apply (v : Variant) (p q : Patch) : (v.apply p).apply q = v.apply (q.orElse p) := by
  cases v with
  | apiKey key => exact congrArg apiKey Option.getD_or.symm
  | headers t => exact congrArg headers Option.getD_or.symm
  | mock => rfl

theorem apply_apply (a : AuthMethod) (p q : Patch) : (a.apply p).apply q = a.apply (q.orElse p) := by
  simp only [apply, Variant.apply_apply, Patch.orElse, Option.getD_or]

theorem Patch.orElse_self (p : Patch) : p.orElse p = p := by
  simp only [orElse, Option.or_self]

theorem apply_self (a : AuthMethod) (p : Patch) : (a.apply p).apply p = a.apply p := by
  rw [apply_apply, Patch.orElse_self]

theorem apply_nothing (a : AuthMethod) : a.apply {} = a := by
  obtain ⟨serviceUuid, host, port, path, field, uuid, time, v⟩ := a
  cases v <;> rfl

theorem tag_apply (a : AuthMethod) (p : Patch) : (a.apply p).tag = a.tag := a.variant.tag_apply p

theorem apply_accessKey (h : a.tag ≠ apiKeyTag) (p : Patch) (key : Option String) :
    a.apply { p with accessKey := key } = a.apply p := by
  have hv : a.variant.apply { p with accessKey := key } = a.variant.apply p := by
    cases hv : a.variant with
    | apiKey k => exact absurd (congrArg Variant.tag hv) h
    | headers t => rfl
    | mock => rfl
  simp only [apply, hv]

theorem apply_headers (h : a.tag ≠ headersTag) (p : Patch) (table : Option HeaderTable) :
    a.apply { p with headers := table } = a.apply p := by
  have hv : a.variant.apply { p with headers := table } = a.variant.apply p := by
    cases hv : a.variant with
    | apiKey k => rfl
    | headers t => exact absurd (congrArg Variant.tag hv) h
    | mock => rfl
  simp only [apply, hv]

end AuthMethod

open Program

/-- If an update is accepted, then the record that it returns can be updated in the same way, and stays
as it is with everything else. -/
def Repeats {α : Type} (update : α → Program α) : Prop :=
  ∀ (v w : World) (s t : State) (current a : α),
    run v (update current) s = (.ok a, t) → run w (update a) t = (.ok a, t)

section

variable {α : Type} {update : α → Program α} {merge : α → Result α}
  {updated : Store → α → α → Result Store}

/-- An update that puts together a record, checks it and puts it in the place of the current one. -/
structure Replaces (update : α → Program α) (merge : α → Result α)
    (updated : Store → α → α → Result Store) : Prop where
  run_ok : ∀ {w : World} {s : State} {current a : α}, merge current = .ok a →
    run w (update current) s =
      match updated s.store current a with
      | .ok u => (.ok a, { s with store := u })
      | .error e => (.error e, s)
  run_error : ∀ {w : World} {s : State} {current : α} {e : Error}, merge current = .error e →
    run w (update current) s = (.error e, s)

theorem Replaces.repeats (h : Replaces update merge updated)
    (hmerge : ∀ {current a}, merge current = .ok a → merge a = .ok a)
    (hupdated : ∀ {s u current a}, updated s current a = .ok u → updated u a a = .ok u) :
    Repeats update := by
  intro v w s t current a hr
  cases hm : merge current with
  | error e =>
    rw [h.run_error hm] at hr
    cases hr
  | ok b =>
    rw [h.run_ok hm] at hr
    cases hu : updated s.store current b with
    | error e =>
      rw [hu] at hr
      cases hr
    | ok u =>
      rw [hu] at hr
      cases hr
      rw [h.run_ok (hmerge hm)]
      dsimp only
      rw [hupdated hu]

end

namespace ServiceTypes

theorem updated_again {settings : Settings} {s u : Store} {current t : ServiceType}
    (h : updated settings s current t = .ok u) : updated settings u t t = .ok u := by
  obtain ⟨hc, hm, rfl⟩ := updated_eq_ok_iff.1 h
  obtain ⟨hv, -⟩ := changeable_eq_ok_iff.1 hc
  refine updated_eq_ok_iff.2 ⟨changeable_eq_ok_iff.2 ⟨hv, fun hn ↦ absurd rfl hn⟩,
    Keyed.exists_mem_insert hm, ?_⟩
  rw [Store.insertServiceType, Store.insertServiceType, Keyed.insert_insert rfl]

theorem update_repeats (settings : Settings) (changes : ServiceType.Update) :
    Repeats fun current ↦ update settings current changes := by
  have h : Replaces (fun current ↦ update settings current changes)
      (fun current ↦ .ok (current.apply changes)) (updated settings) := by
    refine ⟨?_, nofun⟩
    rintro w s current _ ⟨⟩
    exact run_update settings current changes
  refine h.repeats ?_ updated_again
  rintro current _ ⟨⟩
  rw [ServiceType.apply_self]

end ServiceTypes

namespace Bindings

theorem valid_insertBinding {s : Store} {b c : Binding} (h : Valid s b) : Valid (s.insertBinding c) b := h

theorem updated_again {s u : Store} {current b : Binding} (h : updated s current b = .ok u) :
    updated u b b = .ok u := by
  obtain ⟨hc, hm, rfl⟩ := updated_eq_ok_iff.1 h
  obtain ⟨hv, -, -⟩ := changeable_eq_ok_iff.1 hc
  refine updated_eq_ok_iff.2 ⟨changeable_eq_ok_iff.2
    ⟨valid_insertBinding hv, fun hi ↦ absurd rfl hi, fun hn ↦ absurd rfl hn⟩,
    Keyed.exists_mem_insert hm, ?_⟩
  rw [Store.insertBinding, Store.insertBinding, Keyed.insert_insert rfl]

theorem update_repeats (changes : Binding.Update) : Repeats fun current ↦ update current changes := by
  have h : Replaces (fun current ↦ update current changes) (fun current ↦ .ok (current.apply changes))
      updated := by
    refine ⟨?_, nofun⟩
    rintro w s current _ ⟨⟩
    exact run_update current changes
  refine h.repeats ?_ updated_again
  rintro current _ ⟨⟩
  rw [Binding.apply_self]

end Bindings

namespace AuthMethods

theorem valid_insertAuthMethod {s : Store} {a : AuthMethod} {r : AuthMethodRecord} (h : Valid s a) :
    Valid (s.insertAuthMethod r) a := h

theorem updated_again {s u : Store} {current a : AuthMethod} (h : updated s current a = .ok u) :
    updated u a a = .ok u := by
  obtain ⟨hc, hm, rfl⟩ := updated_eq_ok_iff.1 h
  obtain ⟨hv, -⟩ := changeable_eq_ok_iff.1 hc
  refine updated_eq_ok_iff.2 ⟨changeable_eq_ok_iff.2
    ⟨valid_insertAuthMethod hv, fun hh ↦ absurd rfl hh⟩, ?_, ?_⟩
  · exact Keyed.exists_mem_insert (a := a.toRecord) hm
  · rw [Store.insertAuthMethod, Store.insertAuthMethod, Keyed.insert_insert rfl]

theorem merge_again {current a : AuthMethod} {body : Bytes} (h : merge current body = .ok a) :
    merge a body = .ok a := by
  obtain ⟨p, hp, rfl⟩ := merge_eq_ok_iff.1 h
  exact merge_eq_ok_iff.2 ⟨p, hp, (current.apply_self p).symm⟩

theorem update_repeats (body : Bytes) : Repeats fun current ↦ update current body := by
  have h : Replaces (fun current ↦ update current body) (fun current ↦ merge current body) updated :=
    ⟨run_update_of_merge, run_update_of_error⟩
  exact h.repeats merge_again updated_again

end AuthMethods

/-- A patch overwrites the fields that it sets and that the record has. Patches in turn are one patch, what
is fixed of an auth method stays, and every update that has been accepted is accepted again by the record
that it returned. -/
theorem overwrites_and_repeats (a : AuthMethod) (p q : AuthMethod.Patch) :
    (a.apply p).toRecord = a.toRecord.patched p ∧
      ((a.apply p).apply q = a.apply (q.orElse p) ∧ a.apply {} = a) ∧
      ((a.apply p).uuid = a.uuid ∧ (a.apply p).createdOn = a.createdOn ∧
        (a.apply p).serviceUuid = a.serviceUuid ∧ (a.apply p).tag = a.tag) ∧
      ((a.tag ≠ AuthMethod.apiKeyTag → ∀ key, a.apply { p with accessKey := key } = a.apply p) ∧
        (a.tag ≠ AuthMethod.headersTag → ∀ table, a.apply { p with headers := table } = a.apply p)) ∧
      (∀ settings changes, Repeats fun t ↦ ServiceTypes.update settings t changes) ∧
      (∀ changes, Repeats fun b ↦ Bindings.update b changes) ∧
      ∀ body, Repeats fun a ↦ AuthMethods.update a body :=
  ⟨a.toRecord_apply p, ⟨a.apply_apply p q, a.apply_nothing⟩, ⟨rfl, rfl, rfl, a.tag_apply p⟩,
    ⟨fun h key ↦ AuthMethod.apply_accessKey h p key, fun h table ↦ AuthMethod.apply_headers h p table⟩,
    ServiceTypes.update_repeats, Bindings.update_repeats, AuthMethods.update_repeats⟩

theorem overwrites_and_repeats_moved :
    ∃ (w : World) (s : State) (t t' : ServiceType) (b b' : Binding) (a a' : AuthMethod) (s₁ s₂ s₃ : State)
      (body : Bytes),
      t.name = "a" ∧ t'.name = "z" ∧ b.identity ≠ b'.identity ∧ a.host ≠ a'.host ∧
        a.toRecord.headers = some (.ofList [("x-api-key", "old")]) ∧
        a'.toRecord.headers = some (.ofList [("x-api-key", "new")]) ∧
        body = Utf8.encode "\x7b\"host\":\"i\",\"headers\":\x7b\"x-api-key\":\"new\"\x7d\x7d" ∧
        (run w (ServiceTypes.update {} t { name := some "z" }) s = (.ok t', s₁) ∧
          run w (ServiceTypes.update {} t' { name := some "z" }) s₁ = (.ok t', s₁)) ∧
        (run w (Bindings.update b { name := some "z", host := some "i" }) s = (.ok b', s₂) ∧
          run w (Bindings.update b' { name := some "z", host := some "i" }) s₂ = (.ok b', s₂)) ∧
        (run w (AuthMethods.update a body) s = (.ok a', s₃) ∧
          run w (AuthMethods.update a' body) s₃ = (.ok a', s₃)) := by
  let t : ServiceType :=
    { name := "a", hosts := ["h", "i"], authTypes := ["x509"], authMethod := "headers", uuid := "1"
      kind := "ams" }
  let b : Binding :=
    { name := "b", serviceUuid := "1", host := "h", uuid := "2", authIdentifier := "CN=c", uniqueKey := "u"
      authType := "x509" }
  let a : AuthMethod :=
    { serviceUuid := "1", host := "h", port := 9000, path := "/p", retrievalField := "token", uuid := "3"
      variant := .headers (.ofList [("x-api-key", "old")]) }
  let p : AuthMethod.Patch := { host := some "i", headers := some (.ofList [("x-api-key", "new")]) }
  let body := Utf8.encode "\x7b\"host\":\"i\",\"headers\":\x7b\"x-api-key\":\"new\"\x7d\x7d"
  let w : World := ⟨fun _ ↦ none, ⟨0, 0⟩, fun n ↦ toString n⟩
  let s : State := ⟨⟨⟨[t], by decide⟩, ⟨[b], by decide⟩, ⟨[a.toRecord], by decide⟩⟩, 0, []⟩
  let t' : ServiceType := { t with name := "z" }
  let b' : Binding := { b with name := "z", host := "i" }
  let a' : AuthMethod := a.apply p
  have ht : run w (ServiceTypes.update {} t { name := some "z" }) s =
      (.ok t', { s with store := s.store.insertServiceType t' }) := by
    decide +kernel
  have hb : run w (Bindings.update b { name := some "z", host := some "i" }) s =
      (.ok b', { s with store := s.store.insertBinding b' }) := by
    decide +kernel
  have ha : run w (AuthMethods.update a body) s =
      (.ok a', { s with store := s.store.insertAuthMethod a'.toRecord }) := by
    decide +kernel
  obtain ⟨hrecord, -, -, -, hts, hbs, has⟩ := overwrites_and_repeats a p {}
  have hsecret : a'.toRecord.headers = some (.ofList [("x-api-key", "new")]) :=
    congrArg AuthMethodRecord.headers hrecord
  exact ⟨w, s, t, t', b, b', a, a', _, _, _, body, rfl, rfl, by decide, by decide, rfl, hsecret, rfl,
    ⟨ht, hts _ _ _ w _ _ _ _ ht⟩, ⟨hb, hbs _ _ w _ _ _ _ hb⟩, ⟨ha, has _ _ w _ _ _ _ ha⟩⟩

end CertGate
