import CertGate.Asn1.Element
import CertGate.Asn1.Strict
import CertGate.Asn1.Time
import CertGate.Asn1.Value
import CertGate.AuthMethod
import CertGate.Authentication
import CertGate.Binding
import CertGate.Bytes
import CertGate.Certificate.Basic
import CertGate.Certificate.Extension
import CertGate.Certificate.Name
import CertGate.Certificate.RevocationList
import CertGate.CheckConfig
import CertGate.CommandLine
import CertGate.Datum
import CertGate.Environment
import CertGate.Environment.File
import CertGate.Error
import CertGate.Fetch
import CertGate.Files
import CertGate.Gateway.Basic
import CertGate.Gateway.Key
import CertGate.Gateway.Listener
import CertGate.Gateway.Route
import CertGate.Http
import CertGate.Instant
import CertGate.Json.Double
import CertGate.Json.Number
import CertGate.Json.Printer
import CertGate.Json.Reader
import CertGate.Keyed
import CertGate.Keys.Edwards
import CertGate.Keys.Modular
import CertGate.Keys.Sha512
import CertGate.Keys.Weierstrass
import CertGate.Main
import CertGate.Management.AuthMethods
import CertGate.Management.Bindings
import CertGate.Management.Registry
import CertGate.Management.ServiceTypes
import CertGate.Pem.Base64
import CertGate.Pem.Section
import CertGate.Program
import CertGate.Program.Interleaving
import CertGate.Proofs.Authentication
import CertGate.Proofs.Authentication.AnyOrder
import CertGate.Proofs.Fetch
import CertGate.Proofs.Gateway.Effect
import CertGate.Proofs.Gateway.Unique
import CertGate.Proofs.Interleaving
import CertGate.Proofs.Keyed
import CertGate.Proofs.Management.AuthMethods
import CertGate.Proofs.Management.Bindings
import CertGate.Proofs.Management.ServiceTypes
import CertGate.Proofs.Program
import CertGate.Proofs.Result
import CertGate.Proofs.Revocation.FailClosed
import CertGate.Proofs.Revocation.InOrder
import CertGate.Proofs.Revocation.Partition
import CertGate.Proofs.Revocation.Schedule
import CertGate.Proofs.Store
import CertGate.Retrieval
import CertGate.Revocation.Check
import CertGate.Revocation.Cutting
import CertGate.Revocation.Partition
import CertGate.Revocation.Schedule
import CertGate.ServiceType
import CertGate.Settings.Basic
import CertGate.Settings.Duration
import CertGate.Settings.Layers
import CertGate.Settings.Variable
import CertGate.Startup
import CertGate.Store
import CertGate.Store.File
import CertGate.Text.Alphanumeric
import CertGate.Text.Blank
import CertGate.Text.Decimal
import CertGate.Text.Percent
import CertGate.Text.Utf8
import CertGate.Tls.Config
import CertGate.Tls.EndEntity
import CertGate.Tls.PrivateKey
import CertGate.Url.Basic
import CertGate.Url.Host
import CertGate.Url.Idna
import CertGate.Url.Punycode
import CertGate.Url.Reader
import CertGate.Yaml.Node
import CertGate.Yaml.Printer
import CertGate.Yaml.Scalar
import CertGate.Yaml.Spot
import CertGate.Yaml.Token
import CertGate.Yaml.Value
import CertGate.Proofs.Moves
import CertGate.Proofs.Scripts
import CertGate.Proofs.Gateway.Scripts
import CertGate.Proofs.Gateway.Serial
import CertGate.Proofs.Certificate.Name
import CertGate.Proofs.Gateway.Key
import CertGate.Proofs.Gateway.Respond
import CertGate.Proofs.Gateway.Outsider
import CertGate.Proofs.Gateway.Atomic
import CertGate.Proofs.Gateway.Anchored
import CertGate.Proofs.Gateway.Suited
import CertGate.Proofs.Gateway.Fault
import CertGate.Proofs.Authentication.Requests
import CertGate.Proofs.Authentication.Isolated
import CertGate.Proofs.Url.Authority
import CertGate.Proofs.Authentication.Destination
import CertGate.Proofs.Gateway.Agreement
import CertGate.Proofs.Gateway.ReadWrite
import CertGate.Proofs.Gateway.Identity
import CertGate.Proofs.Gateway.WellFormed
import CertGate.Proofs.Startup
import CertGate.Proofs.Store.File
import CertGate.Proofs.Store.Maps
import CertGate.Proofs.Certificate.NameOrder
import CertGate.Proofs.Management.Repeated
import CertGate.Proofs.AuthMethod.Placeholders
import CertGate.Proofs.Gateway.Guard
import CertGate.Proofs.Tls.Anchors
import CertGate.Proofs.Gateway.Listener
import CertGate.Proofs.Environment.File
import CertGate.Proofs.Settings.Layers
import CertGate.Proofs.Revocation.Cutting
import CertGate.Proofs.AuthMethod.Records
