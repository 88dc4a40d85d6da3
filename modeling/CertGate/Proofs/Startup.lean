import CertGate.CheckConfig
import CertGate.Proofs.Result
import CertGate.Startup
import Mathlib.Logic.Unique

namespace CertGate

variable {fs : FileSystem} {s : Settings}

namespace CheckReport

@[simp] theorem passed_empty : empty.passed = true := rfl

theorem passed_append {r t : CheckReport} :
    (r ++ t).passed = true ↔ r.passed = true ∧ t.passed = true := by
  change (r.problems ++ t.problems).isEmpty = true ↔ _
  simp [passed]

theorem passed_ofResult {α : Type} {note : String} {problem : Error → String} {x : Result α} :
    (ofResult note problem x).passed = true ↔ ∃ a, x = .ok a := by
  cases x <;> simp [ofResult, passed]

theorem passed_ofValidation : (ofValidation s).passed = true ↔ s.validate = .ok () := by
  rw [ofValidation]
  split
  · next h => exact iff_of_true rfl h
  · next h => simp [passed, h]

theorem passed_ofAuthMethods : (ofAuthMethods s).passed = true ↔
    ∀ tag ∈ s.supportedAuthMethods, (Registry.ofSettings s).isRegistered tag = true := by
  simp [ofAuthMethods, passed]

theorem passed_ofTls {t : TlsSettings} :
    (ofTls fs t).passed = true ↔ (t.enabled = true → ∃ c, Tls.load fs t = .ok c) := by
  rw [ofTls]
  split <;> simp_all [passed_ofResult]

theorem passed_ofSeed {t : StoreSettings} :
    (ofSeed fs t).passed = true ↔ ∃ store, Store.initial fs t = .ok store := by
  rw [ofSeed, Store.initial]
  cases t.seedFile with
  | some path => exact passed_ofResult
  | none => exact iff_of_true rfl ⟨{}, rfl⟩

theorem passed_ofSettings : (ofSettings fs s).passed = true ↔
    s.validate = .ok () ∧
    (∀ tag ∈ s.supportedAuthMethods, (Registry.ofSettings s).isRegistered tag = true) ∧
    (s.tls.enabled = true → ∃ c, Tls.load fs s.tls = .ok c) ∧
    ∃ store, Store.initial fs s.store = .ok store := by
  rw [ofSettings, passed_append, passed_append, passed_append, passed_ofValidation,
    passed_ofAuthMethods, passed_ofTls, passed_ofSeed, and_assoc, and_assoc]

end CheckReport

namespace Endpoint

/-- What is listened with: the configuration that the files hold if TLS is on, and nothing otherwise. -/
def Secures (fs : FileSystem) (s : TlsSettings) : Option Tls.Config → Prop
  | some c => s.enabled = true ∧ Tls.load fs s = .ok c
  | none => s.enabled = false

theorem exists_secures_iff {t : TlsSettings} :
    (∃ tls, Secures fs t tls) ↔ (t.enabled = true → ∃ c, Tls.load fs t = .ok c) := by
  refine ⟨?_, fun h ↦ ?_⟩
  · rintro ⟨tls | c, h⟩ ht
    · exact absurd ht (by simp [show t.enabled = false from h])
    · exact ⟨c, h.2⟩
  · cases ht : t.enabled with
    | false => exact ⟨none, ht⟩
    | true =>
      obtain ⟨c, hc⟩ := h ht
      exact ⟨some c, ht, hc⟩

theorem ofSettings_eq_ok_iff {address : IpAddress} {port : UInt16} {tls : Option Tls.Config} :
    ofSettings fs s = .ok ⟨address, port, tls⟩ ↔ s.validate = .ok () ∧
      IpAddress.ofText? s.server.host = some address ∧ port = s.server.port ∧ Secures fs s.tls tls := by
  rw [ofSettings, Result.bind_eq_ok_iff, Unique.exists_iff]
  refine and_congr_right fun _ ↦ ?_
  cases IpAddress.ofText? s.server.host with
  | none => simp
  | some found =>
    cases ht : s.tls.enabled with
    | false => cases tls <;> simp [ht, Secures, eq_comm]
    | true => cases hc : Tls.load fs s.tls <;> cases tls <;> simp [ht, hc, Secures, eq_comm]

theorem ofSettings_of_no_address (hv : s.validate = .ok ())
    (hh : IpAddress.ofText? s.server.host = none) :
    ofSettings fs s = .error (.config "Invalid host: invalid IP address syntax") := by
  rw [ofSettings, hv, hh]
  rfl

end Endpoint

/-- The check finds nothing to report, and the host to listen on is an address, exactly if the gateway
can load its store and gets as far as listening on that address, with all auth methods implemented that
it is said to support. -/
theorem passed_and_address_iff (fs : FileSystem) (s : Settings) (address : IpAddress) :
    (CheckReport.ofSettings fs s).passed = true ∧ IpAddress.ofText? s.server.host = some address ↔
      (∃ store, Store.initial fs s.store = .ok store) ∧
      (∃ tls, Endpoint.ofSettings fs s = .ok ⟨address, s.server.port, tls⟩ ∧
        Endpoint.Secures fs s.tls tls) ∧
      ∀ tag ∈ s.supportedAuthMethods, (Registry.ofSettings s).isRegistered tag = true := by
  rw [CheckReport.passed_ofSettings, ← Endpoint.exists_secures_iff]
  simp only [Endpoint.ofSettings_eq_ok_iff, true_and]
  constructor
  · rintro ⟨⟨hv, hr, ⟨tls, ht⟩, hs⟩, ha⟩
    exact ⟨hs, ⟨tls, ⟨hv, ha, ht⟩, ht⟩, hr⟩
  · rintro ⟨hs, ⟨tls, ⟨hv, ha, ht⟩, -⟩, hr⟩
    exact ⟨⟨hv, hr, ⟨tls, ht⟩, hs⟩, ha⟩

/-- A host name passes the check, and then there is no listening on it. -/
theorem passed_with_host_name :
    let fs : FileSystem := ⟨fun _ ↦ .error "", fun _ ↦ .error "", fun _ ↦ false, fun _ ↦ false⟩
    let s : Settings :=
      { serviceToken := "tok", server := { host := "localhost" }, tls := { enabled := false } }
    (CheckReport.ofSettings fs s).passed = true ∧
      Endpoint.ofSettings fs s = .error (.config "Invalid host: invalid IP address syntax") :=
  ⟨by decide +kernel, Endpoint.ofSettings_of_no_address rfl (by decide +kernel)⟩

end CertGate
