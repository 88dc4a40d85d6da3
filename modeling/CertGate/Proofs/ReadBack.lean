import CertGate.Proofs.Keyed
import CertGate.Proofs.Management.AuthMethods
import CertGate.Proofs.Text.Utf8

namespace CertGate

namespace Keyed

variable {α : Type} {key : α → String} {s : Keyed key} {a : α} {as : List α}

theorem mem_foldl_insert (h : as.Pairwise fun a b ↦ key a ≠ key b)
    (hs : ∀ b ∈ s.toList, ∀ a ∈ as, key b ≠ key a) :
    a ∈ (as.foldl insert s).toList ↔ a ∈ s.toList ∨ a ∈ as := by
  induction as generalizing s with
  | nil => simp
  | cons b as ih =>
    obtain ⟨hb, has⟩ := List.pairwise_cons.1 h
    have hnew : ∀ c ∈ (s.insert b).toList, ∀ a ∈ as, key c ≠ key a := by
      intro c hc a ha
      rcases mem_insert.1 hc with rfl | ⟨hc, -⟩
      · exact hb a ha
      · exact hs c hc a (List.mem_cons_of_mem _ ha)
    have hold : a ∈ s.toList → key a ≠ key b := fun ha ↦ hs a ha b List.mem_cons_self
    rw [List.foldl_cons, ih has hnew, mem_insert, List.mem_cons, and_iff_left_of_imp hold, or_assoc,
      or_left_comm]

theorem ofList_of_perm (h : as.Perm s.toList) : ofList as = s := by
  have hk : s.toList.Pairwise fun a b ↦ key a ≠ key b := s.sorted.imp fun h he ↦ by
    rw [he] at h
    exact String.lt_irrefl _ h
  have hk : as.Pairwise fun a b ↦ key a ≠ key b := (h.pairwise_iff Ne.symm).2 hk
  refine ext_mem fun a ↦ (mem_foldl_insert hk fun b hb ↦ absurd hb List.not_mem_nil).trans ?_
  exact (or_iff_right List.not_mem_nil).trans h.mem_iff

end Keyed

namespace Datum

theorem listOf?_ofStrings (ss : List String) : listOf? string? (ofStrings ss) = some ss :=
  mapM_map_of_read (f := text) (fun _ ↦ rfl) ss

theorem Slot.required_given {α : Type} (read : Datum → Option α) (d : Datum) :
    (Slot.given d).required read = read d := by
  rw [required]

theorem nullable?_text (s : String) : nullable? string? (text s) = some (some s) := rfl

theorem port?_datum (n : UInt16) : Datum.port? (UInt16.datum n) = some n := by
  have hn : (n.toNat : Int) < 65536 := Int.ofNat_lt.2 n.toNat_lt
  simp [Datum.port?, UInt16.datum, natBelow?, hn]

end Datum

theorem ServiceType.ofDatum?_toDatum (t : ServiceType) : ofDatum? t.toDatum = some t := by
  simp [ofDatum?, toDatum, Datum.strictSlots?, Datum.slots?, List.lookup_cons, Datum.Slot.orElse,
    Datum.listOf?_ofStrings, Datum.string?]

theorem Binding.ofDatum?_toDatum (b : Binding) : ofDatum? b.toDatum = some b := by
  obtain ⟨name, serviceUuid, host, uuid, authIdentifier, uniqueKey, authType, createdOn, lastAuth⟩ := b
  by_cases hc : createdOn = "" <;> by_cases hl : lastAuth = "" <;>
    simp [ofDatum?, toDatum, Datum.strictSlots?, Datum.slots?, List.lookup_cons, Datum.Slot.orElse,
      Datum.string?, hc, hl]

namespace AuthMethodRecord

theorem headersOf?_headersDatum (t : HeaderTable) : headersOf? (headersDatum t) = some t := by
  have hm := mapM_map_of_read (f := fun e : String × String ↦ (e.1, Datum.text e.2))
    (g := fun f ↦ (Datum.string? f.2).map fun v ↦ (f.1, v)) (fun _ ↦ rfl) t.toList
  simp [headersOf?, headersDatum, Datum.tableOf?, hm, Keyed.ofList_of_perm (.refl t.toList)]

theorem nullable?_headersDatum (t : HeaderTable) :
    Datum.nullable? headersOf? (headersDatum t) = some (some t) := by
  change (headersOf? (headersDatum t)).map some = _
  rw [headersOf?_headersDatum, Option.map_some]

theorem strictSlots?_toDatum (r : AuthMethodRecord) :
    r.toDatum.strictSlots? ["service_uuid", "host", "port", "path", "retrieval_field", "type", "uuid",
        "created_on", "access_key", "headers"] =
      some [.given (.text r.serviceUuid), .given (.text r.host), .given (UInt16.datum r.port),
        .given (.text r.path), .given (.text r.retrievalField), .given (.text r.kind),
        .given (.text r.uuid), .given (.text r.createdOn),
        (r.accessKey.map Datum.text).elim .missing .given,
        (r.headers.map headersDatum).elim .missing .given] := by
  obtain ⟨serviceUuid, host, port, path, field, kind, uuid, createdOn, accessKey, headers⟩ := r
  cases accessKey <;> cases headers <;> simp [toDatum, Datum.strictSlots?, Datum.slots?, List.lookup_cons]

theorem ofDatum?_toDatum (r : AuthMethodRecord) : ofDatum? r.toDatum = some r := by
  refine Option.bind_eq_some_iff.2 ⟨_, strictSlots?_toDatum r, ?_⟩
  obtain ⟨serviceUuid, host, port, path, field, kind, uuid, createdOn, accessKey, headers⟩ := r
  cases accessKey <;> cases headers <;>
    simp [Datum.Slot.orElse, Datum.Slot.required_given, Datum.string?, Datum.port?_datum,
      Datum.nullable?_text, nullable?_headersDatum]

end AuthMethodRecord

theorem Datum.injective_of_read {α : Type} {f : α → Datum} {read : Datum → Option α}
    (h : ∀ a, read (f a) = some a) : Function.Injective f := by
  intro a b hab
  have hr : read (f a) = read (f b) := congrArg read hab
  rw [h, h] at hr
  exact Option.some_inj.1 hr

theorem Binding.toDatum_injective : Function.Injective Binding.toDatum :=
  Datum.injective_of_read Binding.ofDatum?_toDatum

theorem AuthMethod.toDatum_injective : Function.Injective AuthMethod.toDatum := by
  intro a b h
  have hr : a.toRecord = b.toRecord := Datum.injective_of_read AuthMethodRecord.ofDatum?_toDatum h
  have ha : ofRecord a.toRecord = ofRecord b.toRecord := congrArg ofRecord hr
  rw [ofRecord_toRecord, ofRecord_toRecord] at ha
  exact Except.ok.inj ha

end CertGate
