import CertGate.Proofs.Gateway.Respond
import CertGate.Proofs.Scripts

namespace CertGate

open Program

namespace ServiceTypes

theorem findByName_follows (name : String) : (findByName name).Follows [.look .serviceTypes] :=
  .bind (.look rfl) fun _ ↦ .ofResult _ _

theorem findByUuid_follows (uuid : String) : (findByUuid uuid).Follows [.look .serviceTypes] :=
  .bind (.look rfl) fun _ ↦ .ofResult _ _

theorem findAll_follows : findAll.Follows [.look .serviceTypes] := .look rfl

theorem ensureNameFree_follows (name : String) :
    (ensureNameFree name).Follows [.look .serviceTypes] :=
  .bind (.look rfl) fun found ↦ by cases found <;> trivial

theorem create_follows (settings : Settings) (t : ServiceType) :
    (create settings t).Follows [.look .serviceTypes, .change .serviceTypes] :=
  .bind (.ofResult _ []) fun _ ↦ .bind (ensureNameFree_follows _) fun _ _ _ ↦
    .bind (.change _) fun _ ↦ .pure _ []

theorem update_follows (settings : Settings) (t : ServiceType) (changes : ServiceType.Update) :
    (update settings t changes).Follows [.look .serviceTypes, .change .serviceTypes] := by
  refine .bind (.ofResult _ []) fun _ ↦ .bind_ite (ensureNameFree_follows _) fun _ ↦ ?_
  exact .bind (.change _) fun _ ↦ .bind (.ofResult _ []) fun _ ↦ .pure _ []

theorem delete_follows (t : ServiceType) :
    (delete t).Follows [.removeBindings, .change .authMethods, .change .serviceTypes] :=
  .bind (.removeBindings ⟨_, .inr rfl⟩) fun _ ↦ .bind (.change _) fun _ ↦ .change _

end ServiceTypes

namespace Bindings

variable {α : Type} {k : Binding → Program α} {l : List Move}

theorem single_unstamped (found : List Binding) (several : String) :
    single (found.map Binding.unstamped) several = Binding.unstamped <$> single found several := by
  match found with
  | [] => rfl
  | [_] => rfl
  | _ :: _ :: _ => rfl

theorem bind_single_congr {as bs : List Binding} (several : String)
    (hk : ∀ b : Binding, k b.unstamped = k b)
    (h : as.map Binding.unstamped = bs.map Binding.unstamped) :
    (ofResult (single as several) >>= k) = (ofResult (single bs several) >>= k) := by
  have hs (found : List Binding) : (ofResult (single found several) >>= k) =
      (ofResult (single (found.map Binding.unstamped) several) >>= k) := by
    rw [single_unstamped]
    cases single found several with
    | ok b => exact (hk b).symm
    | error e => rfl
  rw [hs as, hs bs, h]

theorem findByIdentity_follows (id : Binding.Identity) :
    (findByIdentity id).Follows [.look .bindings] :=
  .bind (.look rfl) fun _ ↦ .ofResult _ _

theorem findByIdentity_bind_follows (id : Binding.Identity) (hk : ∀ b : Binding, k b.unstamped = k b)
    (hl : ∀ b, (k b).Follows l) : (findByIdentity id >>= k).Follows (.glance :: l) :=
  .glance rfl rfl (fun _ _ h ↦ bind_single_congr _ hk h) fun _ ↦ .bind (.ofResult _ []) hl

theorem findByName_follows (name : String) : (findByName name).Follows [.look .bindings] :=
  .bind (.look rfl) fun _ ↦ .ofResult _ _

theorem findByName_bind_follows (name : String) (hk : ∀ b : Binding, k b.unstamped = k b)
    (hl : ∀ b, (k b).Follows l) : (findByName name >>= k).Follows (.glance :: l) :=
  .glance rfl rfl (fun _ _ h ↦ bind_single_congr _ hk h) fun _ ↦ .bind (.ofResult _ []) hl

theorem findAll_follows : findAll.Follows [.look .bindings] := .look rfl

theorem findByServiceAndHost_follows (serviceUuid host : String) :
    (findByServiceAndHost serviceUuid host).Follows [.look .bindings] := .look rfl

theorem validate_follows (b : Binding) : (validate b).Follows [.look .serviceTypes] :=
  .bind (.ofResult _ []) fun _ ↦ .bind (ServiceTypes.findByUuid_follows _) fun _ ↦ .ofResult _ _

theorem ensureIdentityFree_follows (b : Binding) :
    (ensureIdentityFree b).Follows [.look .bindings] :=
  .bind (.look rfl) fun _ ↦ .ofResult _ _

theorem ensureNameFree_follows (name : String) : (ensureNameFree name).Follows [.look .bindings] :=
  .bind (.look rfl) fun _ ↦ .ofResult _ _

theorem create_follows (b : Binding) : (create b).Follows
    [.look .serviceTypes, .look .bindings, .look .bindings, .change .bindings] :=
  .bind (validate_follows b) fun _ ↦ .bind (ensureIdentityFree_follows b) fun _ ↦
    .bind (ensureNameFree_follows _) fun _ _ _ ↦ .bind (.change _) fun _ ↦ .pure _ []

theorem update_follows (b : Binding) (changes : Binding.Update) : (update b changes).Follows
    [.look .serviceTypes, .look .bindings, .look .bindings, .change .bindings] := by
  refine .bind (validate_follows _) fun _ ↦ .bind_ite (ensureIdentityFree_follows _) fun _ ↦ ?_
  refine .bind_ite (ensureNameFree_follows _) fun _ ↦ ?_
  exact .bind (.change _) fun _ ↦ .bind (.ofResult _ []) fun _ ↦ .pure _ []

theorem delete_follows (b : Binding) : (delete b).Follows [.removeBindings] :=
  .removeBindings ⟨_, .inl rfl⟩

end Bindings

namespace AuthMethods

theorem find_follows (registry : Registry) (serviceUuid host tag : String) :
    (find registry serviceUuid host tag).Follows [.look .authMethods] :=
  .bind (.ofResult _ []) fun _ ↦ .bind (.look rfl) fun _ ↦ .ofResult _ _

theorem findAll_follows : findAll.Follows [.look .authMethods] :=
  .bind (.look rfl) fun _ ↦ .ofResult _ _

theorem ensureHostFree_follows (serviceUuid host : String) :
    (ensureHostFree serviceUuid host).Follows [.look .authMethods] :=
  .bind (.look rfl) fun found ↦ by cases found <;> trivial

theorem validate_follows (a : AuthMethod) : (validate a).Follows [.look .serviceTypes] :=
  .bind (.ofResult _ []) fun _ ↦ .bind (ServiceTypes.findByUuid_follows _) fun _ ↦ .ofResult _ _

theorem create_follows (registry : Registry) (t : ServiceType) (body : Bytes) :
    (create registry t body).Follows
      [.look .serviceTypes, .look .authMethods, .change .authMethods] :=
  .bind (.ofResult _ []) fun _ ↦ .bind (validate_follows _) fun _ ↦
    .bind (ensureHostFree_follows _ _) fun _ _ _ ↦ .bind (.change _) fun _ ↦ .pure _ []

theorem update_follows (a : AuthMethod) (body : Bytes) : (update a body).Follows
    [.look .serviceTypes, .look .authMethods, .change .authMethods] := by
  refine .bind (.ofResult _ []) fun _ ↦ .bind (validate_follows _) fun _ ↦ ?_
  refine .bind_ite (ensureHostFree_follows _ _) fun _ ↦ ?_
  exact .bind (.change _) fun _ ↦ .bind (.ofResult _ []) fun _ ↦ .pure _ []

theorem delete_follows (a : AuthMethod) : (delete a).Follows [.change .authMethods] := .change _

end AuthMethods

/-- An authentication notes the time of use of a binding and does not mind what it was before. -/
theorem Authentication.authenticate_follows (settings : Settings) (registry : Registry)
    (chain : List Bytes) (serviceType host : String) :
    (authenticate settings registry chain serviceType host).Follows
      [.look .serviceTypes, .glance, .look .authMethods, .stamp] := by
  refine .bind (.ofResult _ []) fun c ↦ ?_
  refine .bind (.of_offline (checkCertificate_offline settings c) []) fun _ ↦ ?_
  rw [resolve, bind_assoc]
  refine .bind (ServiceTypes.findByName_follows _) fun t ↦ ?_
  rw [bind_assoc]
  refine .bind (.ofResult _ []) fun _ ↦ ?_
  dsimp only
  split
  · trivial
  · simp only [bind_assoc, pure_bind]
    refine Bindings.findByIdentity_bind_follows _ (fun b ↦ rfl) fun b ↦ ?_
    refine .bind (AuthMethods.find_follows ..) fun a ↦ ?_
    refine .bind (.of_offline (Retrieval.retrieve_offline ..) []) fun token _ ↦ ?_
    exact .stamp _ _ (.pure _ [])

namespace Gateway

open Http (Method Request)

/-- The moves of a request with one of the methods of its route. -/
def Route.script : Route → Method → List Move
  | health, _ => []
  | authentication .., _ => [.look .serviceTypes, .glance, .look .authMethods, .stamp]
  | serviceTypes, .post => [.look .serviceTypes, .change .serviceTypes]
  | serviceTypes, _ => [.look .serviceTypes]
  | serviceType _, .put => [.look .serviceTypes, .look .serviceTypes, .change .serviceTypes]
  | serviceType _, .delete =>
    [.look .serviceTypes, .removeBindings, .change .authMethods, .change .serviceTypes]
  | serviceType _, _ => [.look .serviceTypes]
  | newAuthMethod _, _ =>
    [.look .serviceTypes, .look .serviceTypes, .look .authMethods, .change .authMethods]
  | authMethods, _ => [.look .authMethods]
  | authMethod .., .put =>
    [.look .serviceTypes, .look .authMethods, .look .serviceTypes, .look .authMethods,
      .change .authMethods]
  | authMethod .., .delete => [.look .serviceTypes, .look .authMethods, .change .authMethods]
  | authMethod .., _ => [.look .serviceTypes, .look .authMethods]
  | hostBindings .., _ | hostBinding .., _ => [.look .serviceTypes, .look .bindings]
  | bindings, _ => [.look .bindings]
  | binding _, .post => [.look .serviceTypes, .look .bindings, .look .bindings, .change .bindings]
  | binding _, .put =>
    [.look .bindings, .look .serviceTypes, .look .bindings, .look .bindings, .change .bindings]
  | binding _, .delete => [.glance, .removeBindings]
  | binding _, _ => [.look .bindings]

def Request.script (r : Request) : List Move :=
  match Route.ofPath r.target.path with
  | none => []
  | some route => route.script r.method.answeredAs

namespace Route

theorem script_blank (route : Route) (method : Method) :
    route.blank.script method = route.script method := by
  cases route <;> cases method <;> rfl

theorem script_of_decoded {route decoded : Route} {method : Method} (h : route.decoded = .ok decoded) :
    decoded.script method = route.script method := by
  rw [← script_blank, blank_of_decoded h, script_blank]

end Route

theorem serviceTypeWithHost_follows (name host : String) :
    (serviceTypeWithHost name host).Follows [.look .serviceTypes] :=
  .bind (ServiceTypes.findByName_follows name) fun t ↦ .ite (.pure t []) trivial

theorem authMethodAt_follows (g : Gateway) (serviceType host : String) :
    (g.authMethodAt serviceType host).Follows [.look .serviceTypes, .look .authMethods] :=
  .bind (serviceTypeWithHost_follows serviceType host) fun _ ↦ AuthMethods.find_follows ..

theorem handle_follows (g : Gateway) (body : Bytes) (chain : List Bytes) (route : Route) (method : Method) :
    (g.handle body chain route method).Follows (route.script method) := by
  -- The cases are those of `handle`, in its order.
  unfold handle
  split
  · trivial
  · split
    · trivial
    · exact .bind (Authentication.authenticate_follows ..) fun _ ↦ .pure _ []
  · refine .bind (.ofResult _ []) fun t ↦ ?_
    exact .bind (ServiceTypes.create_follows ..) fun _ ↦ .pure _ []
  · next h =>
    rw [Route.script]
    · exact .bind ServiceTypes.findAll_follows fun _ ↦ .pure _ []
    · exact h
  · refine .bind (.ofResult _ []) fun changes ↦ .bind (ServiceTypes.findByName_follows _) fun t ↦ ?_
    exact .bind (ServiceTypes.update_follows ..) fun _ ↦ .pure _ []
  · refine .bind (ServiceTypes.findByName_follows _) fun t ↦ ?_
    exact .bind (ServiceTypes.delete_follows t) fun _ ↦ .pure _ []
  · next hput hdelete =>
    rw [Route.script]
    · exact .bind (ServiceTypes.findByName_follows _) fun _ ↦ .pure _ []
    · exact hput
    · exact hdelete
  · refine .bind (ServiceTypes.findByName_follows _) fun t ↦ ?_
    exact .bind (AuthMethods.create_follows ..) fun _ ↦ .pure _ []
  · exact .bind AuthMethods.findAll_follows fun _ ↦ .pure _ []
  · refine .bind (authMethodAt_follows g ..) fun a ↦ ?_
    exact .bind (AuthMethods.update_follows a body) fun _ ↦ .pure _ []
  · refine .bind (authMethodAt_follows g ..) fun a ↦ ?_
    exact .bind (AuthMethods.delete_follows a) fun _ ↦ .pure _ []
  · next hput hdelete =>
    rw [Route.script]
    · exact .bind (authMethodAt_follows g ..) fun _ ↦ .pure _ []
    · exact hput
    · exact hdelete
  · refine .bind (serviceTypeWithHost_follows ..) fun t ↦ ?_
    exact .bind (Bindings.findByServiceAndHost_follows ..) fun _ ↦ .pure _ []
  · refine .bind (serviceTypeWithHost_follows ..) fun t ↦ ?_
    exact .bind (Bindings.findByIdentity_follows _) fun _ ↦ .pure _ []
  · exact .bind Bindings.findAll_follows fun _ ↦ .pure _ []
  · exact .bind (.ofResult _ []) fun b ↦ .bind (Bindings.create_follows _) fun _ ↦ .pure _ []
  · refine .bind (.ofResult _ []) fun changes ↦ .bind (Bindings.findByName_follows _) fun b ↦ ?_
    exact .bind (Bindings.update_follows b changes) fun _ ↦ .pure _ []
  · refine Bindings.findByName_bind_follows _ (fun b ↦ rfl) fun b ↦ ?_
    exact .bind (Bindings.delete_follows b) fun _ ↦ .pure _ []
  · next hpost hput hdelete =>
    rw [Route.script]
    · exact .bind (Bindings.findByName_follows _) fun _ ↦ .pure _ []
    · exact hpost
    · exact hput
    · exact hdelete

theorem respondAt_follows (g : Gateway) (r : Request) (route : Route) :
    (g.respondAt r route).Follows (route.script r.method.answeredAs) := by
  unfold respondAt
  dsimp only
  split
  · trivial
  · split
    · trivial
    · split
      · trivial
      · next decoded h =>
        rw [← Route.script_of_decoded h]
        exact .ite (.pure _ _) (handle_follows ..)

theorem respond_follows (g : Gateway) (r : Request) : (g.respond r).Follows (Request.script r) := by
  unfold respond Request.script
  split
  · trivial
  · cases Route.ofPath r.target.path with
    | none => trivial
    | some route =>
      have h : (tryCatch (g.respondAt r route) fun e ↦ return .ofError e).Follows
          (route.script r.method.answeredAs) :=
        .tryCatch (respondAt_follows g r route) fun _ ↦ .pure _ []
      have hb := h.bind fun response ↦
        Follows.pure (if r.method = .head then response.withoutBody else response) []
      rwa [List.append_nil] at hb

end Gateway

end CertGate
