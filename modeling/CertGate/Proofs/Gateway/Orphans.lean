import CertGate.Proofs.Gateway.Unique
import CertGate.Proofs.Record

namespace CertGate

namespace Store

/-- Every record belongs to a service type of the store. -/
def OrphanFree (s : Store) : Prop := ∀ x ∈ s, ∃ t ∈ s.serviceTypes.toList, t.uuid = x.owner

theorem orphanFree_iff {s : Store} : s.OrphanFree ↔
    (∀ b ∈ s.bindings.toList, ∃ t ∈ s.serviceTypes.toList, t.uuid = b.serviceUuid) ∧
      ∀ r ∈ s.authMethods.toList, ∃ t ∈ s.serviceTypes.toList, t.uuid = r.serviceUuid := by
  constructor
  · exact fun h ↦ ⟨fun b hb ↦ h (.binding b) hb, fun r hr ↦ h (.authMethod r) hr⟩
  · rintro ⟨hb, hr⟩ x hx
    cases x with
    | serviceType t => exact ⟨t, hx, rfl⟩
    | binding b => exact hb b hx
    | authMethod r => exact hr r hx

namespace OrphanFree

variable {s : Store} {x : Record} {uuid : String}

theorem exists_owner_insert (h : ∃ t ∈ s.serviceTypes.toList, t.uuid = uuid) (x : Record) :
    ∃ t ∈ (s.insert x).serviceTypes.toList, t.uuid = uuid := by
  cases x with
  | serviceType t => exact Keyed.exists_mem_insert h
  | binding b => exact h
  | authMethod r => exact h

theorem insertServiceType (h : s.OrphanFree) (t : ServiceType) : (s.insertServiceType t).OrphanFree := by
  intro y hy
  rcases mem_insert (x := .serviceType t).1 hy with rfl | ⟨hy, -⟩
  · exact ⟨t, Keyed.mem_insert.2 (.inl rfl), rfl⟩
  · exact exists_owner_insert (h y hy) (.serviceType t)

theorem insert (h : s.OrphanFree) (hx : ∃ t ∈ s.serviceTypes.toList, t.uuid = x.owner) :
    (s.insert x).OrphanFree := by
  intro y hy
  rcases mem_insert.1 hy with rfl | ⟨hy, -⟩
  · exact exists_owner_insert hx y
  · exact exists_owner_insert (h y hy) x

theorem erase {k : Collection × String} (h : s.OrphanFree) (hk : k.1 ≠ .serviceTypes) :
    (s.erase k).OrphanFree := by
  intro y hy
  obtain ⟨t, ht, hty⟩ := h y (mem_erase.1 hy).1
  refine ⟨t, (mem_erase (y := .serviceType t)).2 ⟨ht, ?_⟩, hty⟩
  exact fun he ↦ hk (congrArg Prod.fst he).symm

theorem deleted (h : s.OrphanFree) (uuid : String) : (ServiceTypes.deleted s uuid).OrphanFree := by
  intro y hy
  obtain ⟨hy, hne⟩ := mem_deleted.1 hy
  obtain ⟨t, ht, hty⟩ := h y hy
  exact ⟨t, (mem_deleted (y := .serviceType t)).2 ⟨ht, fun he ↦ hne (hty.symm.trans he)⟩, hty⟩

end OrphanFree

end Store

namespace Gateway

open Http (Method Request Response)
open Program

variable {g : Gateway} {w : World} {n : Nat} {s t : Store} {response : Response}

theorem Effect.orphanFree (h : Effect g w n s response t) (hs : s.OrphanFree) : t.OrphanFree := by
  cases h with
  | none => exact hs
  | createServiceType h => exact hs.insertServiceType _
  | updateServiceType ht h => exact hs.insertServiceType _
  | deleteServiceType ht => exact hs.deleted _
  | createBinding h =>
    obtain ⟨⟨-, u, hu, hub, -⟩, -⟩ := Bindings.creatable_eq_ok_iff.1 h
    exact hs.insert (x := .binding _) ⟨u, hu, hub⟩
  | updateBinding hb h =>
    obtain ⟨⟨-, u, hu, hub, -⟩, -⟩ := Bindings.changeable_eq_ok_iff.1 h
    exact hs.insert (x := .binding _) ⟨u, hu, hub⟩
  | @deleteBinding b hb => exact hs.erase (k := (.bindings, b.uuid)) nofun
  | createAuthMethod hu h =>
    obtain ⟨-, ⟨-, u, hu, hua, -⟩, -⟩ := AuthMethods.creatable_eq_ok_iff.1 h
    exact hs.insert (x := .authMethod _) ⟨u, hu, hua⟩
  | updateAuthMethod hr hc hm h =>
    obtain ⟨⟨-, u, hu, hua, -⟩, -⟩ := AuthMethods.changeable_eq_ok_iff.1 h
    exact hs.insert (x := .authMethod _) ⟨u, hu, hua⟩
  | @deleteAuthMethod r hr => exact hs.erase (k := (.authMethods, r.uuid)) nofun
  | @stamp b hb token =>
    have hu : ∃ u ∈ s.serviceTypes.toList, u.uuid = b.serviceUuid := hs (.binding b) hb
    generalize w.now.text = time
    exact hs.insert (x := .binding _) hu

theorem orphanFree_after (g : Gateway) {s : State} (hs : s.store.OrphanFree)
    (requests : List (World × Request)) : (g.after s requests).store.OrphanFree := by
  induction requests generalizing s with
  | nil => exact hs
  | cons q requests ih =>
    obtain ⟨response, t, ht, he⟩ := respond_effect g q.1 s q.2
    rw [after_cons, ht]
    exact ih (he.orphanFree hs)

/-- Whatever the requests are, no record is left without its service type; and a service type that is
deleted, be it by a request, takes along exactly what belongs to it. -/
theorem no_orphans_and_exact_cascade (g : Gateway) :
    (∀ (s : State) requests, s.store.OrphanFree → (g.after s requests).store.OrphanFree) ∧
      ∀ (w : World) (s : State) (t : ServiceType), ∃ u : Store,
        (∀ x, x ∈ u ↔ x ∈ s.store ∧ x.owner ≠ t.uuid) ∧
        run w (ServiceTypes.delete t) s = (.ok (), { s with store := u }) ∧
        ∀ r, IsOnly (·.name = t.name) s.store.serviceTypes.toList t →
          g.Manages r .delete (.serviceType t.name) →
          run w (g.respond r) s = (.ok .noContent, { s with store := u }) := by
  refine ⟨fun s requests hs ↦ orphanFree_after g hs requests, fun w s t ↦ ?_⟩
  refine ⟨ServiceTypes.deleted s.store t.uuid, fun x ↦ Store.mem_deleted, ServiceTypes.run_delete t,
    fun r ht hr ↦ ?_⟩
  have hn : ServiceTypes.named s.store t.name = .ok t := ServiceTypes.named_eq_ok_iff.2 ht
  rw [hr.run_eq (by simp [Route.methods]), handle, (ServiceTypes.findByName_inspects _).run_bind, hn]
  rfl

theorem no_orphans_and_exact_cascade_of_two :
    ∃ (g : Gateway) (w : World) (s : State) (b c : Binding) (r : Request) (u : Store),
      s.store.bindings.toList = [b, c] ∧ b.serviceUuid = "1" ∧ c.serviceUuid = "2" ∧
      s.store.OrphanFree ∧ r = keyed .delete "/v1/service-types/a" "" ∧
      run w (g.respond r) s = (.ok .noContent, { s with store := u }) ∧
      .binding b ∉ u ∧ .binding c ∈ u ∧ (g.after s [(w, r)]).store.OrphanFree := by
  let g := ofSettings { serviceToken := "k" }
  let w : World := ⟨fun _ ↦ none, ⟨0, 0⟩, fun n ↦ toString n⟩
  let t : ServiceType := { name := "a", uuid := "1" }
  let b : Binding := { uuid := "3", serviceUuid := "1" }
  let c : Binding := { uuid := "4", serviceUuid := "2" }
  let s : State :=
    ⟨⟨⟨[t, { name := "b", uuid := "2" }], by decide⟩, ⟨[b, c], by decide⟩, ∅⟩, 0, []⟩
  let r := keyed .delete "/v1/service-types/a" ""
  have hs : s.store.OrphanFree := Store.orphanFree_iff.2 ⟨by decide, by decide⟩
  have ht : IsOnly (·.name = t.name) s.store.serviceTypes.toList t := ⟨by decide, rfl, by decide⟩
  have hr : g.Manages r .delete (.serviceType t.name) := manages_keyed (by decide +kernel) (by decide)
  obtain ⟨hafter, hdelete⟩ := no_orphans_and_exact_cascade g
  obtain ⟨u, hu, -, hrun⟩ := hdelete w s t
  have hb : .binding b ∉ u := fun hb ↦ ((hu _).1 hb).2 rfl
  have hc : .binding c ∈ u := (hu _).2 ⟨List.mem_cons_of_mem _ List.mem_cons_self, by decide⟩
  exact ⟨g, w, s, b, c, r, u, rfl, rfl, rfl, hs, rfl, hrun r ht hr, hb, hc, hafter s _ hs⟩

end Gateway

end CertGate
