import CertGate.Instant
import CertGate.Store

namespace CertGate

inductive StoreCall where
  | serviceTypesNamed (name : Option String)
  | serviceTypesWithUuid (uuid : String)
  | insertServiceType (t : ServiceType)
  | updateServiceType (t : ServiceType)
  | deleteServiceType (uuid : String)
  | bindingsAt (serviceUuid host : Option String)
  | bindingsWithIdentity (id : Binding.Identity)
  | bindingsWith (uuid name : Option String)
  | insertBinding (b : Binding)
  | updateBinding (b : Binding)
  | stampBinding (uuid time : String)
  | deleteBinding (uuid : String)
  | deleteBindingsOf (serviceUuid : String)
  | authMethodsWith (f : AuthMethodFilter)
  | insertAuthMethod (r : AuthMethodRecord)
  | updateAuthMethod (r : AuthMethodRecord)
  | deleteAuthMethod (uuid : String)
  | deleteAuthMethodsOf (serviceUuid : String)
  deriving DecidableEq

namespace StoreCall

abbrev Answer : StoreCall → Type
  | serviceTypesNamed _ | serviceTypesWithUuid _ => List ServiceType
  | bindingsAt .. | bindingsWithIdentity _ | bindingsWith .. => List Binding
  | authMethodsWith _ => List AuthMethodRecord
  | updateServiceType _ | updateBinding _ | stampBinding .. | updateAuthMethod _ => Result Unit
  | _ => Unit

/-- A change that may be refused; then the store stays. -/
def attempt (s : Store) : Result Store → Result Unit × Store
  | .ok t => (.ok (), t)
  | .error e => (.error e, s)

/-- One call is one atomic step of the store. -/
def apply (s : Store) : (c : StoreCall) → c.Answer × Store
  | serviceTypesNamed name => (s.serviceTypesNamed name, s)
  | serviceTypesWithUuid uuid => (s.serviceTypesWithUuid uuid, s)
  | insertServiceType t => ((), s.insertServiceType t)
  | updateServiceType t => attempt s (s.updateServiceType t)
  | deleteServiceType uuid => ((), s.deleteServiceType uuid)
  | bindingsAt serviceUuid host => (s.bindingsAt serviceUuid host, s)
  | bindingsWithIdentity id => (s.bindingsWithIdentity id, s)
  | bindingsWith uuid name => (s.bindingsWith uuid name, s)
  | insertBinding b => ((), s.insertBinding b)
  | updateBinding b => attempt s (s.updateBinding b)
  | stampBinding uuid time => attempt s (s.stampBinding uuid time)
  | deleteBinding uuid => ((), s.deleteBinding uuid)
  | deleteBindingsOf serviceUuid => ((), s.deleteBindingsOf serviceUuid)
  | authMethodsWith f => (s.authMethodsWith f, s)
  | insertAuthMethod r => ((), s.insertAuthMethod r)
  | updateAuthMethod r => attempt s (s.updateAuthMethod r)
  | deleteAuthMethod uuid => ((), s.deleteAuthMethod uuid)
  | deleteAuthMethodsOf serviceUuid => ((), s.deleteAuthMethodsOf serviceUuid)

end StoreCall

/-- A request that leaves the gateway; its method is always GET. -/
structure OutgoingRequest where
  url : Url
  headers : List (String × String)
  deriving DecidableEq, Inhabited

structure IncomingResponse where
  status : Nat
  body : Bytes
  location : Option String
  deriving DecidableEq, Inhabited

inductive Call where
  | store (c : StoreCall)
  | exchange (r : OutgoingRequest)
  | now
  | freshUuid
  deriving DecidableEq

abbrev Call.Answer : Call → Type
  | store c => c.Answer
  | exchange _ => Option IncomingResponse
  | now => Instant
  | freshUuid => String

inductive Program (α : Type) where
  | done (a : α)
  | fail (e : Error)
  | call (c : Call) (next : c.Answer → Program α)

namespace Program

variable {α β : Type}

def bind : Program α → (α → Program β) → Program β
  | done a, f => f a
  | fail e, _ => fail e
  | call c next, f => call c fun x ↦ (next x).bind f

instance : Monad Program where
  pure := done
  bind := bind

instance : MonadExceptOf Error Program where
  throw := fail
  tryCatch p handle := go handle p
where
  go {α : Type} (handle : Error → Program α) : Program α → Program α
    | done a => done a
    | fail e => handle e
    | call c next => call c fun x ↦ go handle (next x)

def ofResult : Result α → Program α
  | .ok a => done a
  | .error e => fail e

instance : MonadLift (Except Error) Program := ⟨ofResult⟩

def perform (c : Call) : Program c.Answer := call c done

def store (c : StoreCall) : Program c.Answer := perform (.store c)

structure World where
  network : OutgoingRequest → Option IncomingResponse
  now : Instant
  uuids : Nat → String

structure State where
  store : Store
  issued : Nat := 0
  sent : List OutgoingRequest := []
  deriving DecidableEq

def answer (w : World) (s : State) : (c : Call) → c.Answer × State
  | .store c => let (a, t) := c.apply s.store; (a, { s with store := t })
  | .exchange r => (w.network r, { s with sent := s.sent ++ [r] })
  | .now => (w.now, s)
  | .freshUuid => (w.uuids s.issued, { s with issued := s.issued + 1 })

def run (w : World) : Program α → State → Result α × State
  | done a, s => (.ok a, s)
  | fail e, s => (.error e, s)
  | call c next, s =>
    let (a, t) := answer w s c
    run w (next a) t

@[simp] theorem run_pure (w : World) (a : α) (s : State) :
    run w (pure a : Program α) s = (.ok a, s) := rfl

@[simp] theorem run_throw (w : World) (e : Error) (s : State) :
    run w (throw e : Program α) s = (.error e, s) := rfl

theorem run_bind (w : World) (p : Program α) (f : α → Program β) (s : State) :
    run w (p >>= f) s =
      match run w p s with
      | (.ok a, t) => run w (f a) t
      | (.error e, t) => (.error e, t) := by
  change run w (p.bind f) s = _
  induction p generalizing s with
  | done a => rfl
  | fail e => rfl
  | call c next ih => simp only [bind, run, ih]

end Program

end CertGate
