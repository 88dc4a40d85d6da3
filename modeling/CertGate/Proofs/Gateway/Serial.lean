import CertGate.Proofs.Gateway.Scripts
import CertGate.Proofs.Gateway.Unique

namespace CertGate.Gateway

open Http (Request Response)
open Program

structure Visit where
  world : World
  request : Request

def atStore (g : Gateway) (x : Visit) : Program Response :=
  (g.respond x.request).atStore x.world 0

/-- Alone, a visit to the store `s` ends with the result `r` and the store `t`. -/
def Ends (g : Gateway) (x : Visit) (s : Store) (r : Result Response) (t : Store) : Prop :=
  (run x.world (g.respond x.request) ⟨s, 0, []⟩).1 = r ∧
    (run x.world (g.respond x.request) ⟨s, 0, []⟩).2.store = t

def Serial (g : Gateway) (x y : Visit) (s : Store) (r r' : Result Response) (t : Store) : Prop :=
  ∃ u, g.Ends x s r u ∧ g.Ends y u r' t

/-- Two visits at the same time, with their calls in any order. -/
def Concurrent (g : Gateway) (x y : Visit) (s : Store) (r r' : Result Response) (t : Store) : Prop :=
  Interleaved x.world (g.atStore x) (g.atStore y) ⟨s, 0, []⟩ r r' ⟨t, 0, []⟩

/-- Two visits at the same time, where every call of the first could have been made before those of
the second that were. -/
def InTurn (g : Gateway) (x y : Visit) (s : Store) (r r' : Result Response) (t : Store) : Prop :=
  InOrder (g.atStore y) s (g.atStore x) (g.atStore y) s r r' t

/-- The calls of two requests get in the way of each other at one place at most. -/
def Compatible (r r' : Request) : Prop := conflictCount (Request.script r) (Request.script r') ≤ 1

instance (r r' : Request) : Decidable (Compatible r r') := inferInstanceAs (Decidable (_ ≤ _))

variable {g : Gateway} {x y : Visit} {s t : Store} {r r' : Result Response}

theorem ends_of_run {w : World} {e e' : State} (h : run w (g.atStore x) e = (r, e')) :
    g.Ends x e.store r e'.store := by
  rw [atStore, run_atStore w x.world _ 0 [] e] at h
  obtain ⟨rfl, rfl⟩ := Prod.mk.inj h
  exact ⟨rfl, rfl⟩

theorem Ends.unique (h : g.Ends x s r t) (hs : s.Unique) : t.Unique := by
  obtain ⟨response, u, hu, he⟩ := respond_effect g x.world ⟨s, 0, []⟩ x.request
  obtain ⟨-, rfl⟩ := h
  rw [hu]
  exact he.unique hs

theorem Serial.unique (h : g.Serial x y s r r' t) (hs : s.Unique) : t.Unique := by
  obtain ⟨u, hx, hy⟩ := h
  exact hy.unique (hx.unique hs)

namespace InTurn

theorem concurrent (h : g.InTurn x y s r r' t) : g.Concurrent x y s r r' t :=
  InOrder.interleaved h x.world ⟨s, 0, []⟩

theorem concurrent_symm (h : g.InTurn x y s r r' t) : g.Concurrent y x s r' r t :=
  (InOrder.interleaved h y.world ⟨s, 0, []⟩).symm

theorem serial (h : g.InTurn x y s r r' t) : g.Serial x y s r r' t := by
  obtain ⟨u, hx, hy⟩ := InOrder.serial h (.refl _ _) x.world ⟨s, 0, []⟩
  exact ⟨u, ends_of_run hx, ends_of_run hy⟩

end InTurn

theorem Concurrent.inTurn (h : g.Concurrent x y s r r' t) (hc : Compatible x.request y.request) :
    g.InTurn x y s r r' t ∨ g.InTurn y x s r' r t :=
  inOrder_or_inOrder h ((respond_follows g _).atStore _ _) ((respond_follows g _).atStore _ _)
    (storeOnly_atStore ..) (storeOnly_atStore ..) hc

/-- Two visits at the same time that get in the way of each other at one place at most, or whose calls
could have been made in turn, come to the same as one visit after the other. -/
theorem serial_of_concurrent (hs : s.Unique)
    (h : Compatible x.request y.request ∧ g.Concurrent x y s r r' t ∨ g.InTurn x y s r r' t ∨
      g.InTurn y x s r' r t) :
    g.Concurrent x y s r r' t ∧ (g.Serial x y s r r' t ∨ g.Serial y x s r' r t) ∧ t.Unique := by
  have hconcurrent : g.Concurrent x y s r r' t := by
    rcases h with ⟨-, h⟩ | h | h
    · exact h
    · exact h.concurrent
    · exact h.concurrent_symm
  have hturn : g.InTurn x y s r r' t ∨ g.InTurn y x s r' r t := by
    rcases h with ⟨hc, h⟩ | h
    · exact h.inTurn hc
    · exact h
  rcases hturn with h | h
  · exact ⟨hconcurrent, .inl h.serial, h.serial.unique hs⟩
  · exact ⟨hconcurrent, .inr h.serial, h.serial.unique hs⟩

theorem concurrent_of_interleave {schedule : List Bool}
    (h : interleave x.world schedule (g.atStore x) (g.atStore y) ⟨s, 0, []⟩ = some (r, r', ⟨t, 0, []⟩)) :
    g.Concurrent x y s r r' t := interleaved_of_interleave h

theorem serial_of_deletions :
    ∃ (g : Gateway) (x y : Visit) (s : Store) (r r' : Result Response),
      x.request = ⟨.delete, ⟨"/v1/bindings/b", some "key=k"⟩, [], []⟩ ∧
      y.request = ⟨.delete, ⟨"/v1/service-types/a", some "key=k"⟩, [], []⟩ ∧
      s.Unique ∧ Compatible x.request y.request ∧ g.Concurrent x y s r r' {} ∧
      (g.Serial x y s r r' {} ∨ g.Serial y x s r' r {}) ∧ ({} : Store).Unique := by
  let g := ofSettings { serviceToken := "k" }
  let w : World := ⟨fun _ ↦ none, ⟨0, 0⟩, fun n ↦ toString n⟩
  let x : Visit := ⟨w, ⟨.delete, ⟨"/v1/bindings/b", some "key=k"⟩, [], []⟩⟩
  let y : Visit := ⟨w, ⟨.delete, ⟨"/v1/service-types/a", some "key=k"⟩, [], []⟩⟩
  let s : Store :=
    ⟨⟨[{ name := "a", uuid := "1" }], by simp⟩,
      ⟨[{ name := "b", serviceUuid := "1", uuid := "2" }], by simp⟩, ∅⟩
  have hs : s.Unique := {
    serviceTypeNames := by simp [s, Keyed.Separates]
    bindingNames := by simp [s, Keyed.Separates]
    identities := by simp [s, Keyed.Separates]
    places := .empty }
  have hc : Compatible x.request y.request := by decide +kernel
  have hrun : (interleave x.world [true, false, false, true, false, false] (g.atStore x) (g.atStore y)
      ⟨s, 0, []⟩).map (·.2.2) = some ⟨{}, 0, []⟩ := by decide +kernel
  obtain ⟨⟨r, r', u⟩, hu, rfl⟩ := Option.map_eq_some_iff.1 hrun
  have h := concurrent_of_interleave hu
  exact ⟨g, x, y, s, r, r', rfl, rfl, hs, hc, serial_of_concurrent hs (.inl ⟨hc, h⟩)⟩

/-- Two service types of one name, created at the same time: both find the name free. Requests that
come one after the other do not, whatever their surroundings. -/
theorem not_serial_of_creations :
    ∃ (g : Gateway) (x y : Visit) (r r' : Result Response) (t : Store),
      x.request = ⟨.post, ⟨"/v1/service-types", some "key=k"⟩, Utf8.encode
        ("\x7b\"name\":\"a\",\"hosts\":[\"h\"],\"auth_types\":[\"x509\"]," ++
          "\"auth_method\":\"api-key\",\"type\":\"ams\"\x7d"), []⟩ ∧
      y.request = x.request ∧ ({} : Store).Unique ∧ g.Concurrent x y {} r r' t ∧
      r.map Response.status = .ok 201 ∧ r'.map Response.status = .ok 201 ∧
      t.serviceTypes.toList.map ServiceType.name = ["a", "a"] ∧
      ∀ w w' r r' u, g.Serial ⟨w, x.request⟩ ⟨w', y.request⟩ {} r r' u →
        u.serviceTypes.toList.map ServiceType.name ≠ ["a", "a"] := by
  let g := ofSettings { serviceToken := "k" }
  let request : Request := ⟨.post, ⟨"/v1/service-types", some "key=k"⟩, Utf8.encode
    ("\x7b\"name\":\"a\",\"hosts\":[\"h\"],\"auth_types\":[\"x509\"]," ++
      "\"auth_method\":\"api-key\",\"type\":\"ams\"\x7d"), []⟩
  let x : Visit := ⟨⟨fun _ ↦ none, ⟨0, 0⟩, fun _ ↦ "1"⟩, request⟩
  let y : Visit := ⟨⟨fun _ ↦ none, ⟨0, 0⟩, fun _ ↦ "2"⟩, request⟩
  let run := interleave x.world [true, false, true, false] (g.atStore x) (g.atStore y) ⟨{}, 0, []⟩
  have hnames : run.map (·.2.2.store.serviceTypes.toList.map ServiceType.name) = some ["a", "a"] := by
    decide +kernel
  have htrace : run.map (fun z ↦ (z.2.2.issued, z.2.2.sent)) = some (0, []) := by decide +kernel
  have hstatus : run.map (fun z ↦ (z.1.map Response.status, z.2.1.map Response.status)) =
      some (.ok 201, .ok 201) := by decide +kernel
  obtain ⟨⟨r, r', t, n, l⟩, hrun, ht⟩ := Option.map_eq_some_iff.1 hnames
  simp only [hrun, Option.map_some, Option.some_inj, Prod.mk.injEq] at htrace hstatus
  obtain ⟨rfl, rfl⟩ := htrace
  obtain ⟨hr, hr'⟩ := hstatus
  refine ⟨g, x, y, r, r', t, rfl, rfl, .empty, concurrent_of_interleave hrun, hr, hr', ht, ?_⟩
  intro w w' r r' u hu hnames
  have hnodup := (hu.unique .empty).serviceTypeNames.nodup_map
  rw [hnames] at hnodup
  simp at hnodup

end CertGate.Gateway
