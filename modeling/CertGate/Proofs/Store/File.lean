import CertGate.Json.Printer
import CertGate.Proofs.Json.Documents
import CertGate.Proofs.ReadBack
import CertGate.Proofs.Store
import CertGate.Store.File

namespace CertGate

section Exact

open Json (Exact)

theorem Datum.exact_ofStrings (ss : List String) : Exact (ofStrings ss) := by
  refine .list fun d hd ↦ ?_
  obtain ⟨s, -, rfl⟩ := List.mem_map.1 hd
  exact .text s

theorem UInt16.exact_datum (n : UInt16) : Exact (datum n) :=
  .int (by omega) (Int.ofNat_le.2 (Nat.le_trans (Nat.le_of_lt n.toNat_lt) (by decide)))

theorem ServiceType.exact_toDatum (t : ServiceType) : Exact t.toDatum := by
  refine .record ?_
  simp [Exact.text, Datum.exact_ofStrings]

theorem Binding.exact_toDatum (b : Binding) : Exact b.toDatum := by
  have htime (name value : String) :
      ∀ f ∈ (if value = "" then [] else [(name, Datum.text value)]), Exact f.2 := by
    split <;> simp [Exact.text]
  refine .record ?_
  rw [List.forall_mem_append, List.forall_mem_append]
  exact ⟨⟨by simp [Exact.text], htime _ _⟩, htime _ _⟩

theorem AuthMethodRecord.exact_headersDatum (t : HeaderTable) : Exact (headersDatum t) := by
  refine .record fun f hf ↦ ?_
  obtain ⟨e, -, rfl⟩ := List.mem_map.1 hf
  exact .text e.2

theorem AuthMethodRecord.exact_toDatum (r : AuthMethodRecord) : Exact r.toDatum := by
  refine .record ?_
  rw [List.forall_mem_append, List.forall_mem_append]
  refine ⟨⟨by simp [Exact.text, UInt16.exact_datum], ?_⟩, ?_⟩
  · cases r.accessKey <;> simp [Exact.text]
  · cases r.headers <;> simp [exact_headersDatum]

theorem Seed.exact_toDatum (s : Seed) : Exact s.toDatum := by
  have hlist {α : Type} {f : α → Datum} (h : ∀ a, Exact (f a)) (as : List α) :
      Exact (.list (as.map f)) := by
    refine .list fun d hd ↦ ?_
    obtain ⟨a, -, rfl⟩ := List.mem_map.1 hd
    exact h a
  refine .record ?_
  simp [hlist ServiceType.exact_toDatum, hlist Binding.exact_toDatum, hlist AuthMethodRecord.exact_toDatum]

end Exact

theorem Seed.ofDatum?_toDatum (s : Seed) : ofDatum? s.toDatum = some s := by
  have ht := mapM_map_of_read ServiceType.ofDatum?_toDatum s.serviceTypes
  have hb := mapM_map_of_read Binding.ofDatum?_toDatum s.bindings
  have hr := mapM_map_of_read AuthMethodRecord.ofDatum?_toDatum s.authMethods
  simp [ofDatum?, toDatum, Datum.strictSlots?, Datum.slots?, List.lookup_cons, Datum.Slot.orElse,
    Datum.listOf?, ht, hb, hr]

/-- The seed has every record that is stored, once and in any order. -/
structure Seed.Lists (seed : Seed) (s : Store) : Prop where
  serviceTypes : seed.serviceTypes.Perm s.serviceTypes.toList
  bindings : seed.bindings.Perm s.bindings.toList
  authMethods : seed.authMethods.Perm s.authMethods.toList

namespace Store

theorem toSeed_lists (s : Store) : s.toSeed.Lists s where
  serviceTypes := Keyed.sortedBy_perm fun _ ↦ rfl
  bindings := Keyed.sortedBy_perm fun _ ↦ rfl
  authMethods := Keyed.sortedBy_perm fun _ ↦ rfl

theorem ofSeed_of_lists {seed : Seed} {s : Store} (h : seed.Lists s) : ofSeed seed = s := by
  rw [ofSeed, Keyed.ofList_of_perm h.serviceTypes, Keyed.ofList_of_perm h.bindings,
    Keyed.ofList_of_perm h.authMethods]

theorem ofFile_of_read {seed : Seed} {s : Store} (h : seed.Lists s) {fs : FileSystem} {path : String}
    {content : Bytes} (hf : fs.read path = .ok content) (hr : Json.read? content = some seed.toDatum) :
    ofFile fs path = .ok s := by
  have hseed : (Json.read? content >>= Seed.ofDatum?) = some seed := by
    rw [hr]
    exact Seed.ofDatum?_toDatum seed
  rw [ofFile, hf]
  dsimp only
  rw [hseed, ← ofSeed_of_lists h]
  rfl

/-- The store is loaded again from a file that says what is stored: from the text that is written for it,
and from every other text that reads as the same document. -/
theorem ofFile_of_lists {seed : Seed} {s : Store} (h : seed.Lists s) {fs : FileSystem} {path : String}
    {content : Bytes} (hf : fs.read path = .ok content)
    (hc : content = Utf8.encode (Json.render seed.toDatum) ∨ Json.read? content = some seed.toDatum) :
    ofFile fs path = .ok s := by
  refine ofFile_of_read h hf ?_
  rcases hc with rfl | hc
  · exact Json.read?_render seed.exact_toDatum
  · exact hc

theorem ofFile_of_lists_unordered :
    let t : ServiceType := { name := "a", hosts := ["h\"", "i"], uuid := "1" }
    let u : ServiceType := { name := "b", uuid := "2" }
    let b : Binding := { name := "c", serviceUuid := "1", host := "i", uuid := "3", lastAuth := "now" }
    let d : Binding := { name := "d", serviceUuid := "1", host := "i", uuid := "4", uniqueKey := "é\n" }
    let r : AuthMethodRecord := {
      serviceUuid := "1", host := "h\"", port := 9000, kind := "headers", uuid := "5", headers := some ∅ }
    let q : AuthMethodRecord := {
      serviceUuid := "1", host := "i", port := 1, kind := "api-key", uuid := "6", accessKey := some "k" }
    let text := "\x7b\"service_types\":[\x7b\"name\":\"b\",\"hosts\":[],\"auth_types\":[]," ++
      "\"auth_method\":\"\",\"uuid\":\"2\",\"created_on\":\"\",\"type\":\"\"\x7d," ++
      "\x7b\"name\":\"a\",\"hosts\":[\"h\\\"\",\"i\"],\"auth_types\":[],\"auth_method\":\"\"," ++
      "\"uuid\":\"1\",\"created_on\":\"\",\"type\":\"\"\x7d],\"bindings\":[\x7b\"name\":\"d\"," ++
      "\"service_uuid\":\"1\",\"host\":\"i\",\"uuid\":\"4\",\"auth_identifier\":\"\"," ++
      "\"unique_key\":\"é\\n\",\"auth_type\":\"\"\x7d,\x7b\"name\":\"c\"," ++
      "\"service_uuid\":\"1\",\"host\":\"i\",\"uuid\":\"3\",\"auth_identifier\":\"\"," ++
      "\"unique_key\":\"\",\"auth_type\":\"\",\"last_auth\":\"now\"\x7d]," ++
      "\"auth_methods\":[\x7b\"service_uuid\":\"1\",\"host\":\"i\",\"port\":1,\"path\":\"\"," ++
      "\"retrieval_field\":\"\",\"type\":\"api-key\",\"uuid\":\"6\",\"created_on\":\"\"," ++
      "\"access_key\":\"k\"\x7d,\x7b\"service_uuid\":\"1\",\"host\":\"h\\\"\",\"port\":9000," ++
      "\"path\":\"\",\"retrieval_field\":\"\",\"type\":\"headers\",\"uuid\":\"5\"," ++
      "\"created_on\":\"\",\"headers\":\x7b\x7d\x7d]\x7d"
    let fs : FileSystem := ⟨fun _ ↦ .ok (Utf8.encode text), fun _ ↦ .error "", fun _ ↦ true, fun _ ↦ true⟩
    ofFile fs "seed.json" =
      .ok ⟨⟨[t, u], by decide⟩, ⟨[b, d], by decide⟩, ⟨[r, q], by decide⟩⟩ := by
  intro t u b d r q text fs
  let seed : Seed := { serviceTypes := [u, t], bindings := [d, b], authMethods := [q, r] }
  have hl : seed.Lists ⟨⟨[t, u], by decide⟩, ⟨[b, d], by decide⟩, ⟨[r, q], by decide⟩⟩ :=
    ⟨.swap t u [], .swap b d [], .swap r q []⟩
  have hchars : text.toList = Json.chars seed.toDatum := by
    simp only [text, String.toList_append, String.reduceToList]
    decide +kernel
  have ht : text = Json.render seed.toDatum := by
    rw [Json.render, ← hchars, String.ofList_toList]
  exact ofFile_of_lists hl rfl (.inl (congrArg Utf8.encode ht))

theorem ofFile_toSeed (s : Store) {fs : FileSystem} {path : String}
    (hf : fs.read path = .ok (Utf8.encode (Json.render s.toSeed.toDatum))) : ofFile fs path = .ok s :=
  ofFile_of_read s.toSeed_lists hf (Json.read?_render s.toSeed.exact_toDatum)

end Store

end CertGate
