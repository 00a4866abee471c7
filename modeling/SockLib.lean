import SockLib.Foundation.Outcome
import SockLib.Foundation.Runs
import SockLib.Foundation.Refinement
import SockLib.Foundation.Store
import SockLib.Foundation.Memory
import SockLib.Foundation.Text
import SockLib.Foundation.Numeral
import SockLib.Foundation.Lexicographic
import SockLib.Model.Platform
import SockLib.Model.Initialization
import SockLib.Model.IPv4Address
import SockLib.Model.IPv6Address
import SockLib.Model.UnixAddress
import SockLib.Model.Address
import SockLib.Model.NumericHost
import SockLib.Proofs.AddressRules
import SockLib.Proofs.Encoding
import SockLib.Proofs.RoundTrip
import SockLib.Proofs.Decoding
import SockLib.Proofs.Splitting
import SockLib.Proofs.Names
import SockLib.Proofs.NetworkOrder
import SockLib.Proofs.Operands
import SockLib.Proofs.UnixBounds
import SockLib.Proofs.Copies
import SockLib.Proofs.AssignFailure
import SockLib.Model.Kernel
import SockLib.Model.Buffers
import SockLib.Model.LibraryUse
import SockLib.Model.Transfer
import SockLib.Model.Timeouts
import SockLib.Proofs.DescriptorUse
import SockLib.Proofs.LibraryUse
import SockLib.Proofs.Leaks
import SockLib.Proofs.References
import SockLib.Proofs.LinearOwnership
import SockLib.Proofs.PathLifetime
import SockLib.Proofs.Destruction
import SockLib.Proofs.Options
import SockLib.Proofs.Readiness
import SockLib.Proofs.Timeouts
import SockLib.Proofs.StreamIntegrity
import SockLib.Proofs.Transmission
import SockLib.Proofs.SourceAddress
import SockLib.Abstract.AddressValues
import SockLib.Proofs.AddressValues
import SockLib.Proofs.Frames
import SockLib.Proofs.Bystanders
import SockLib.Model.Datagrams
import SockLib.Proofs.Datagrams
import SockLib.Proofs.Replies
import SockLib.Proofs.Pathnames
import SockLib.Model.Connections
import SockLib.Proofs.Connections
import SockLib.Abstract.Handles
import SockLib.Proofs.Handles
import SockLib.Model.Vectors
import SockLib.Proofs.Vectors
import SockLib.Proofs.Failures
import SockLib.Model.EchoServer
import SockLib.Proofs.EchoCalls
import SockLib.Proofs.EchoServer
