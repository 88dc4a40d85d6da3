import CertGate.Store.File
import CertGate.Tls.Config
import CertGate.Url.Host

namespace CertGate

inductive IpAddress where
  | v4 (pieces : List Nat)
  | v6 (pieces : List Nat)
  deriving DecidableEq

/-- Four decimal octets without leading zeros, or the text of an IPv6 address without brackets. -/
def IpAddress.ofText? (s : String) : Option IpAddress :=
  (Url.dottedPieces? s.toList).map v4 <|> (Url.ipv6? s.toList).map v6

structure Endpoint where
  address : IpAddress
  port : UInt16
  tls : Option Tls.Config

/-- All that can fail between the settings and the attempt to listen, in this order. -/
def Endpoint.ofSettings (fs : FileSystem) (s : Settings) : Result Endpoint := do
  s.validate
  match IpAddress.ofText? s.server.host with
  | none => throw (.config "Invalid host: invalid IP address syntax")
  | some address =>
    if s.tls.enabled then
      return ⟨address, s.server.port, some (← Tls.load fs s.tls)⟩
    else
      return ⟨address, s.server.port, none⟩

end CertGate
