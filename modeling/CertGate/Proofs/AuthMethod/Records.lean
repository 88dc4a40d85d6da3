import CertGate.Proofs.Management.AuthMethods

namespace CertGate

namespace AuthMethodRecord

variable {r : AuthMethodRecord}

/-- The record with the field of its own kind, filled in where it is missing, and with no other's. -/
def settled (r : AuthMethodRecord) : AuthMethodRecord :=
  { r with
    accessKey := if r.kind = "api-key" then some (r.accessKey.getD "") else none
    headers := if r.kind = "headers" then some (r.headers.getD ∅) else none }

/-- The record with what a caller sets of the fields that it has. -/
def patched (r : AuthMethodRecord) (p : AuthMethod.Patch) : AuthMethodRecord :=
  { r with
    host := p.host.getD r.host
    port := p.port.getD r.port
    path := p.path.getD r.path
    retrievalField := p.retrievalField.getD r.retrievalField
    accessKey := r.accessKey.map p.accessKey.getD
    headers := r.headers.map p.headers.getD }

theorem accessKey_patched_settled (p : AuthMethod.Patch) (h : r.kind = "api-key") :
    (r.settled.patched p).accessKey = some (p.accessKey.getD (r.accessKey.getD "")) := by
  rw [patched, settled, if_pos h]
  rfl

theorem headers_patched_settled (p : AuthMethod.Patch) (h : r.kind = "headers") :
    (r.settled.patched p).headers = some (p.headers.getD (r.headers.getD ∅)) := by
  simp only [patched, settled, if_pos h]
  rfl

end AuthMethodRecord

namespace AuthMethod

variable {r : AuthMethodRecord} {a : AuthMethod}

theorem variantOf?_eq_none_iff : variantOf? r = none ↔ r.kind ∉ ["api-key", "headers", "mock"] := by
  change _ ↔ r.kind ∉ [apiKeyTag, headersTag, mockTag]
  rcases variantOf?_cases r with ⟨hk, hv⟩ | ⟨hk, hv⟩ | ⟨hk, hv⟩ | ⟨hk, hv⟩
  · simp [hk, hv]
  · simp [hk, hv]
  · simp [hk, hv]
  · exact iff_of_true hv hk

theorem ofRecord_of_unknown (h : r.kind ∉ ["api-key", "headers", "mock"]) :
    ofRecord r = .error (.internal s!"Stored auth method {r.uuid} has unknown type {r.kind}") := by
  rw [ofRecord, variantOf?_eq_none_iff.2 h]
  rfl

theorem exists_ofRecord (h : r.kind ∈ ["api-key", "headers", "mock"]) : ∃ a, ofRecord r = .ok a := by
  have hn : variantOf? r ≠ none := fun hn ↦ variantOf?_eq_none_iff.1 hn h
  obtain ⟨v, hv⟩ := Option.ne_none_iff_exists'.1 hn
  exact ⟨_, AuthMethods.ofRecord_eq_ok_iff.2 ⟨v, hv, rfl⟩⟩

theorem toRecord_of_ofRecord (h : ofRecord r = .ok a) : a.toRecord = r.settled := by
  obtain ⟨v, hv, rfl⟩ := AuthMethods.ofRecord_eq_ok_iff.1 h
  rw [AuthMethodRecord.settled]
  rcases variantOf?_cases r with ⟨hk, hv'⟩ | ⟨hk, hv'⟩ | ⟨hk, hv'⟩ | ⟨-, hv'⟩
  · cases hv.symm.trans hv'
    rw [hk]
    rfl
  · cases hv.symm.trans hv'
    rw [hk]
    rfl
  · cases hv.symm.trans hv'
    rw [hk]
    rfl
  · cases hv.symm.trans hv'

theorem toRecord_apply (a : AuthMethod) (p : Patch) : (a.apply p).toRecord = a.toRecord.patched p := by
  obtain ⟨serviceUuid, host, port, path, field, uuid, time, v⟩ := a
  cases v <;> rfl

end AuthMethod

open Program

namespace AuthMethods

variable {w : World} {s t : State} {current a : AuthMethod} {body : Bytes}

theorem patched_of_update (h : run w (update current body) s = (.ok a, t)) :
    ∃ p, readPatch body = .ok p ∧ a = current.apply p ∧
      t = { s with store := s.store.insertAuthMethod a.toRecord } := by
  cases hm : merge current body with
  | error e =>
    rw [run_update_of_error hm] at h
    cases h
  | ok b =>
    rw [run_update_of_merge hm] at h
    cases hu : updated s.store current b with
    | error e =>
      rw [hu] at h
      cases h
    | ok u =>
      rw [hu] at h
      cases h
      obtain ⟨p, hp, rfl⟩ := merge_eq_ok_iff.1 hm
      obtain ⟨-, -, rfl⟩ := updated_eq_ok_iff.1 hu
      exact ⟨p, hp, rfl, rfl⟩

theorem stored_of_update {r : AuthMethodRecord} (hr : AuthMethod.ofRecord r = .ok current)
    (h : run w (update current body) s = (.ok a, t)) :
    ∃ p, readPatch body = .ok p ∧ t.store = s.store.insertAuthMethod (r.settled.patched p) := by
  obtain ⟨p, hp, rfl, rfl⟩ := patched_of_update h
  refine ⟨p, hp, ?_⟩
  rw [AuthMethod.toRecord_apply, AuthMethod.toRecord_of_ofRecord hr]

end AuthMethods

/-- An auth method is what is read from its record. A record of a known kind is read, and comes back
settled; no other is. An update of what was read stores the settled record with what the caller sets, so
that the field of its kind is there. -/
theorem reads_and_keeps_records :
    (∀ a : AuthMethod, AuthMethod.ofRecord a.toRecord = .ok a) ∧
      (∀ r : AuthMethodRecord, r.kind ∉ ["api-key", "headers", "mock"] → AuthMethod.ofRecord r =
        .error (.internal s!"Stored auth method {r.uuid} has unknown type {r.kind}")) ∧
      (∀ r : AuthMethodRecord, r.kind ∈ ["api-key", "headers", "mock"] → ∃ a,
        AuthMethod.ofRecord r = .ok a ∧ a.toRecord = r.settled ∧ AuthMethod.ofRecord r.settled = .ok a) ∧
      ∀ (w : World) (s t : State) (r : AuthMethodRecord) (current a : AuthMethod) (body : Bytes),
        AuthMethod.ofRecord r = .ok current →
          run w (AuthMethods.update current body) s = (.ok a, t) →
            ∃ p, AuthMethods.readPatch body = .ok p ∧
              t.store = s.store.insertAuthMethod (r.settled.patched p) ∧
              (r.kind = "api-key" →
                (r.settled.patched p).accessKey = some (p.accessKey.getD (r.accessKey.getD ""))) ∧
              (r.kind = "headers" →
                (r.settled.patched p).headers = some (p.headers.getD (r.headers.getD ∅))) := by
  refine ⟨AuthMethod.ofRecord_toRecord, fun r ↦ AuthMethod.ofRecord_of_unknown, ?_, ?_⟩
  · intro r hk
    obtain ⟨a, ha⟩ := AuthMethod.exists_ofRecord hk
    have hr : a.toRecord = r.settled := AuthMethod.toRecord_of_ofRecord ha
    exact ⟨a, ha, hr, hr ▸ AuthMethod.ofRecord_toRecord a⟩
  · intro w s t r current a body hr h
    obtain ⟨p, hp, ht⟩ := AuthMethods.stored_of_update hr h
    exact ⟨p, hp, ht, AuthMethodRecord.accessKey_patched_settled p,
      AuthMethodRecord.headers_patched_settled p⟩

theorem reads_and_keeps_records_foreign_key :
    ∃ (w : World) (s t : State) (r : AuthMethodRecord) (current a : AuthMethod),
      r.kind = "headers" ∧ r.accessKey = some "old" ∧ r ∈ s.store.authMethods.toList ∧
        AuthMethod.ofRecord r = .ok current ∧
        run w (AuthMethods.update current (Utf8.encode "\x7b\"host\":\"i\"\x7d")) s = (.ok a, t) ∧
        t.store.authMethods.toList = [{ r with host := "i", accessKey := none }] := by
  let v : ServiceType :=
    { name := "a", hosts := ["h", "i"], authTypes := ["x509"], authMethod := "headers", uuid := "1"
      kind := "ams" }
  let r : AuthMethodRecord :=
    { serviceUuid := "1", host := "h", port := 9000, path := "/p", retrievalField := "token"
      kind := "headers", uuid := "3", accessKey := some "old"
      headers := some (.ofList [("x-api-key", "secret")]) }
  let m : AuthMethod :=
    { serviceUuid := "1", host := "h", port := 9000, path := "/p", retrievalField := "token", uuid := "3"
      variant := .headers (.ofList [("x-api-key", "secret")]) }
  let w : World := ⟨fun _ ↦ none, ⟨0, 0⟩, fun n ↦ toString n⟩
  let s : State := ⟨⟨⟨[v], by decide⟩, {}, ⟨[r], by decide⟩⟩, 0, []⟩
  have hr : AuthMethod.ofRecord r = .ok m := rfl
  have hu : run w (AuthMethods.update m (Utf8.encode "\x7b\"host\":\"i\"\x7d")) s =
      (.ok { m with host := "i" },
        { s with store := s.store.insertAuthMethod { m with host := "i" }.toRecord }) := by
    decide +kernel
  have hb : AuthMethods.readPatch (Utf8.encode "\x7b\"host\":\"i\"\x7d") = .ok { host := some "i" } := by
    decide +kernel
  obtain ⟨p, hp, ht, -, -⟩ := reads_and_keeps_records.2.2.2 w s _ r m _ _ hr hu
  cases hb.symm.trans hp
  refine ⟨w, s, _, r, m, _, rfl, rfl, List.mem_singleton_self r, hr, hu, ?_⟩
  rw [ht]
  decide +kernel

end CertGate
