import ExpressGateway.Lib.OnesComplement
import ExpressGateway.Lib.SentinelList
import ExpressGateway.Lib.KeyedList
import ExpressGateway.Lib.Bytes
import ExpressGateway.Lib.Text
import ExpressGateway.Lib.SlidingWindow
import ExpressGateway.Lib.Protobuf
import ExpressGateway.Lib.SmoothWeighted
import ExpressGateway.Lib.DoubleHashing
import ExpressGateway.Lib.ExceptChain
import ExpressGateway.Lib.QuicVarint
import ExpressGateway.Lib.Wrapping
import ExpressGateway.Lib.SortedSearch
import ExpressGateway.Lib.FixedWindow
import ExpressGateway.Xdp.Checksum
import ExpressGateway.Xdp.Program
import ExpressGateway.Xdp.FrameEffect
import ExpressGateway.Security.Retry
import ExpressGateway.Security.ZeroRtt
import ExpressGateway.Security.ZeroRttWindow
import ExpressGateway.Security.Glitches
import ExpressGateway.Security.Ticket
import ExpressGateway.Security.ConnGate
import ExpressGateway.Config.Model
import ExpressGateway.Config.Reload
import ExpressGateway.H2.Frame
import ExpressGateway.H2.FrameRoundTrip
import ExpressGateway.H2.Hpack
import ExpressGateway.H2.HpackTable
import ExpressGateway.H2.HpackCoding
import ExpressGateway.H2.HpackRoundTrip
import ExpressGateway.H2.HpackOverflow
import ExpressGateway.H2.Security
import ExpressGateway.H2.DetectorRuns
import ExpressGateway.H1.Chunked
import ExpressGateway.H1.ChunkedSplit
import ExpressGateway.H1.ChunkedRoundTrip
import ExpressGateway.H1.Parse
import ExpressGateway.Grpc.Frame
import ExpressGateway.Grpc.Health
import ExpressGateway.Quic.Router
import ExpressGateway.Quic.RouterInvariant
import ExpressGateway.Quic.RouterCap
import ExpressGateway.Quic.PublicHeader
import ExpressGateway.Balancer.Basic
import ExpressGateway.Balancer.WeightedRoundRobin
import ExpressGateway.Balancer.Maglev
import ExpressGateway.Balancer.RingHash
import ExpressGateway.Io.Pool
import ExpressGateway.Io.QuicPool
import ExpressGateway.Io.PoolCaps
import ExpressGateway.Observability.TraceParent
import ExpressGateway.Observability.RequestTrace
