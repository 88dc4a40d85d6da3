import CertGate.Proofs.Gateway.Effect
import CertGate.Proofs.Moves

namespace CertGate

namespace Gateway

open Http (Method Request Response)
open Authentication (Attempt)
open Program

def Response.succeeds (r : Response) : Prop := 200 ≤ r.status ∧ r.status < 300

/-- The client that the request comes from is known by a binding, and the store `t` differs from the
one before in the time at this binding alone. -/
def Notes (g : Gateway) (w : World) (s : State) (r : Request) (serviceType host : String) (t : Store) :
    Prop :=
  ∃ c u b, (g.attempt w s r serviceType host).Knows c u b ∧ t = s.store.touched b.uuid w.now.text

variable {g : Gateway} {w : World} {s : State} {r : Request} {route : Route}

theorem Effect.eq_of_not_succeeds {n : Nat} {s t : Store} {response : Response}
    (h : Effect g w n s response t) (hr : ¬ Response.succeeds response) : t = s := by
  cases h with
  | none => rfl
  | deleteServiceType | deleteBinding | deleteAuthMethod => exact absurd ⟨by decide, by decide⟩ hr
  | _ => exact absurd ⟨by simp [Response.json], by simp [Response.json]⟩ hr

theorem succeeds_withoutBody {response : Response} :
    Response.succeeds response.withoutBody ↔ Response.succeeds response := Iff.rfl

theorem touched_eq_insertBinding {s : Store} {b : Binding} (hb : b ∈ s.bindings.toList) (time : String) :
    s.touched b.uuid time = s.insertBinding { b with lastAuth := time } := by
  have hget : s.bindings.get? b.uuid = some b := Keyed.get?_eq_some_iff.2 ⟨hb, rfl⟩
  rw [← StoreCall.apply_stampBinding, StoreCall.apply, Store.stampBinding, hget]
  rfl

theorem Request.AsksFor.method_mem {serviceType host : String} (h : Request.AsksFor r serviceType host)
    (hr : g.Handles r route) : r.method ∈ [.get, .head, .options] := by
  obtain ⟨last, hl, -⟩ := h
  obtain rfl := Option.some_inj.1 (hr.leads.symm.trans hl)
  have ha : r.method.answeredAs = .get := List.mem_singleton.1 hr.allowed
  cases hm : r.method <;> rw [hm] at ha <;> simp_all [Method.answeredAs]

theorem store_run_respond (h : r.method ∈ [.get, .head, .options] ∨ ∃ t host, Request.AsksFor r t host) :
    let t := (run w (g.respond r) s).2
    t.store = s.store ∨ ∃ serviceType host,
      Request.AsksFor r serviceType host ∧ g.Notes w s r serviceType host t.store := by
  obtain ⟨response, ⟨t, n, sent⟩, ht, ho⟩ := respond_outcome g w s r
  rw [ht]
  change g.Outcome w s r response t at ho
  change t = s.store ∨ ∃ serviceType host,
    Request.AsksFor r serviceType host ∧ g.Notes w s r serviceType host t
  rcases ho with ho | ⟨hr, hc⟩ | ⟨hm, ha, hk, token⟩
  · exact .inl rfl
  · have hm : r.method ∈ [.get, .head, .options] := h.elim id fun ⟨_, _, ha⟩ ↦ ha.method_mem hr
    have hn : r.method ∈ [.post, .put, .delete] := hc.method_mem
    simp only [List.mem_cons, List.not_mem_nil, or_false] at hm hn
    rcases hm with hm | hm | hm <;> simp [hm] at hn
  · exact .inr ⟨_, _, ha, _, _, _, hk, (touched_eq_insertBinding hk.only.1 _).symm⟩

/-- Every request is answered; the store stays as it is if the answer is an error or if nothing but
records was asked for, and changes at one binding at most if a token was. -/
theorem respond_atomic (g : Gateway) (w : World) (s : State) (r : Request) :
    ∃ response t, run w (g.respond r) s = (.ok response, t) ∧
      (¬ Response.succeeds response → t.store = s.store) ∧
      (r.method ∈ [.get, .head, .options] →
        (∀ serviceType host, ¬ Request.AsksFor r serviceType host) → t.store = s.store) ∧
      ∀ serviceType host, Request.AsksFor r serviceType host →
        t.store = s.store ∨ g.Notes w s r serviceType host t.store := by
  obtain ⟨response, t, ht, he⟩ := respond_effect g w s r
  have hask := store_run_respond (g := g) (w := w) (s := s) (r := r)
  rw [ht] at hask
  refine ⟨_, t, ht, fun hn ↦ he.eq_of_not_succeeds fun hs ↦ hn ?_, fun hm hn ↦ ?_,
    fun serviceType host ha ↦ ?_⟩
  · split
    · exact succeeds_withoutBody.2 hs
    · exact hs
  · rcases hask (.inl hm) with hst | ⟨serviceType, host, ha, -⟩
    · exact hst
    · exact absurd ha (hn serviceType host)
  · refine (hask (.inr ⟨serviceType, host, ha⟩)).imp_right ?_
    rintro ⟨serviceType', host', ha', hn⟩
    obtain ⟨rfl, rfl⟩ := ha.unique ha'
    exact hn

end Gateway

end CertGate
