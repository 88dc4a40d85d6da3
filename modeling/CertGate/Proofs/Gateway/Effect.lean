import CertGate.Proofs.Gateway.Change

namespace CertGate.Gateway

open Http Program

/-- The changes to a store `s`, each with the response that reports it; `n` is the number of uuids
given out before. -/
inductive Effect (g : Gateway) (w : World) (n : Nat) (s : Store) : Response → Store → Prop
  | none (response : Response) : Effect g w n s response s
  | createServiceType {t : ServiceType} (h : ServiceTypes.creatable g.settings s t = .ok ()) :
      Effect g w n s (.json 201 (ServiceTypes.created w n t).toDatum)
        (s.insertServiceType (ServiceTypes.created w n t))
  | updateServiceType {t : ServiceType} {changes : ServiceType.Update}
      (ht : t ∈ s.serviceTypes.toList)
      (h : ServiceTypes.changeable g.settings s t (t.apply changes) = .ok ()) :
      Effect g w n s (.json 200 (t.apply changes).toDatum) (s.insertServiceType (t.apply changes))
  | deleteServiceType {t : ServiceType} (ht : t ∈ s.serviceTypes.toList) :
      Effect g w n s .noContent (ServiceTypes.deleted s t.uuid)
  | createBinding {b : Binding} (h : Bindings.creatable s b = .ok ()) :
      Effect g w n s (.json 201 (Bindings.created w n b).toDatum)
        (s.insertBinding (Bindings.created w n b))
  | updateBinding {b : Binding} {changes : Binding.Update} (hb : b ∈ s.bindings.toList)
      (h : Bindings.changeable s b (b.apply changes) = .ok ()) :
      Effect g w n s (.json 200 (b.apply changes).toDatum) (s.insertBinding (b.apply changes))
  | deleteBinding {b : Binding} (hb : b ∈ s.bindings.toList) :
      Effect g w n s .noContent (s.deleteBinding b.uuid)
  | createAuthMethod {t : ServiceType} {body : Bytes} {a : AuthMethod}
      (ht : t ∈ s.serviceTypes.toList) (h : AuthMethods.creatable g.registry s t body = .ok a) :
      Effect g w n s (.json 201 (AuthMethods.created w n a).toDatum)
        (s.insertAuthMethod (AuthMethods.created w n a).toRecord)
  | updateAuthMethod {r : AuthMethodRecord} {current a : AuthMethod} {body : Bytes}
      (hr : r ∈ s.authMethods.toList) (hc : AuthMethod.ofRecord r = .ok current)
      (hm : AuthMethods.merge current body = .ok a)
      (h : AuthMethods.changeable s current a = .ok ()) :
      Effect g w n s (.json 200 a.toDatum) (s.insertAuthMethod a.toRecord)
  | deleteAuthMethod {r : AuthMethodRecord} (hr : r ∈ s.authMethods.toList) :
      Effect g w n s .noContent (s.deleteAuthMethod r.uuid)
  | stamp {b : Binding} (hb : b ∈ s.bindings.toList) (token : Datum) :
      Effect g w n s (.json 200 (.record [("token", token)]))
        (s.insertBinding { b with lastAuth := w.now.text })

variable {g : Gateway} {w : World} {n : Nat} {s t : Store} {body : Bytes} {route : Route}
  {method : Method} {response : Response}

theorem Change.effect (h : Change g w n s body route method response t) : Effect g w n s response t := by
  cases h with
  | createServiceType hb h => exact .createServiceType h
  | updateServiceType hb ht h => exact .updateServiceType (ServiceTypes.named_eq_ok_iff.1 ht).1 h
  | deleteServiceType ht => exact .deleteServiceType (ServiceTypes.named_eq_ok_iff.1 ht).1
  | createBinding hb h => exact .createBinding h
  | updateBinding hc hb h => exact .updateBinding (Bindings.named_eq_ok_iff.1 hb).1 h
  | deleteBinding hb => exact .deleteBinding (Bindings.named_eq_ok_iff.1 hb).1
  | createAuthMethod ht h => exact .createAuthMethod (ServiceTypes.named_eq_ok_iff.1 ht).1 h
  | updateAuthMethod hc hm h =>
    obtain ⟨u, r, -, -, -, ⟨hr, -⟩, hrc⟩ := authMethodOf_eq_ok_iff.1 hc
    exact .updateAuthMethod hr hrc hm h
  | deleteAuthMethod ha =>
    obtain ⟨u, r, -, -, -, ⟨hr, -⟩, hra⟩ := authMethodOf_eq_ok_iff.1 ha
    obtain ⟨v, -, rfl⟩ := AuthMethods.ofRecord_eq_ok_iff.1 hra
    exact .deleteAuthMethod hr

theorem Outcome.effect {s : State} {r : Request} (h : Outcome g w s r response t) :
    Effect g w s.issued s.store response t := by
  cases h with
  | unchanged h => exact .none _
  | changed hr h => exact h.effect
  | noted hm ha hk token => exact .stamp hk.only.1 token

/-- Every request is answered, if need be with an error. -/
theorem respond_effect (g : Gateway) (w : World) (s : State) (r : Request) :
    ∃ response t, run w (g.respond r) s =
        (.ok (if r.method = .head then response.withoutBody else response), t) ∧
      Effect g w s.issued s.store response t.store := by
  obtain ⟨response, t, ht, h⟩ := respond_outcome g w s r
  exact ⟨response, t, ht, h.effect⟩

end CertGate.Gateway
