import Yggdrasil.Foundation.Codec
import Yggdrasil.Foundation.Aead
import Yggdrasil.Foundation.Postcard
import Yggdrasil.Foundation.Framing
import Yggdrasil.Foundation.Net
import Yggdrasil.Foundation.Text
import Yggdrasil.Foundation.AddrText
import Yggdrasil.Foundation.StdAddr
import Yggdrasil.Foundation.StdSocketAddr
import Yggdrasil.Foundation.BitPrefix
import Yggdrasil.Foundation.Check
import Yggdrasil.Foundation.Log
import Yggdrasil.Foundation.Run
import Yggdrasil.Foundation.Keyed
import Yggdrasil.Foundation.SortedMap
import Yggdrasil.Foundation.MultiMap
import Yggdrasil.Foundation.Refcount
import Yggdrasil.Foundation.StableSort
import Yggdrasil.Ratatoskr.Wire
import Yggdrasil.Ratatoskr.ControlFrame
import Yggdrasil.Ratatoskr.Session
import Yggdrasil.Ratatoskr.SessionTrace
import Yggdrasil.Ratatoskr.TypeConfusion
import Yggdrasil.Ratatoskr.PacketSize
import Yggdrasil.Ratatoskr.Flow
import Yggdrasil.Ratatoskr.Handshake
import Yggdrasil.Ratatoskr.RuleSet
import Yggdrasil.Ratatoskr.Validation
import Yggdrasil.Ratatoskr.TargetText
import Yggdrasil.Ratatoskr.RuleDiff
import Yggdrasil.Ratatoskr.Predicate
import Yggdrasil.Ratatoskr.ChainQuery
import Yggdrasil.Chain.Reliability
import Yggdrasil.Chain.Accounting
import Yggdrasil.Chain.Endpoint
import Yggdrasil.Heartbeat.SessionState
import Yggdrasil.Heartbeat.Enrolment
import Yggdrasil.Heartbeat.Server
import Yggdrasil.Chain.Link
import Yggdrasil.Chain.Delivery
import Yggdrasil.Chain.Publisher
import Yggdrasil.Chain.Acceptor
import Yggdrasil.Chain.Orderly
import Yggdrasil.Chain.Publishing
import Yggdrasil.Chain.Derive
import Yggdrasil.Chain.Http3Switch
import Yggdrasil.Chain.Extractor
import Yggdrasil.Chain.Canonical
import Yggdrasil.Chain.Resync
import Yggdrasil.Proxy.Supervisor
import Yggdrasil.Proxy.Undisturbed
import Yggdrasil.Proxy.Certs
import Yggdrasil.Proxy.HttpFrontend
import Yggdrasil.Proxy.Https
import Yggdrasil.Proxy.HttpsReconcile
import Yggdrasil.Proxy.Orphans
import Yggdrasil.Proxy.CertLoading
import Yggdrasil.Proxy.HotSwap
import Yggdrasil.Proxy.CertTracking
import Yggdrasil.Proxy.DirWatches
import Yggdrasil.Proxy.Resilience
import Yggdrasil.Proxy.HttpsTasks
import Yggdrasil.Proxy.LanGate
import Yggdrasil.Proxy.LanCidrs
import Yggdrasil.Proxy.Reachability
import Yggdrasil.Proxy.Forward
import Yggdrasil.Proxy.HopByHop
import Yggdrasil.Proxy.Exchange
import Yggdrasil.Proxy.StaticHeaders
import Yggdrasil.Proxy.BackendHost
import Yggdrasil.Proxy.ProxyProtocol
import Yggdrasil.Proxy.ProxyHeader
import Yggdrasil.Proxy.ClientAddress
import Yggdrasil.Proxy.HeaderDetection
import Yggdrasil.Proxy.HeaderGrammar
import Yggdrasil.Proxy.Canary
import Yggdrasil.Proxy.UdpFlows
import Yggdrasil.Proxy.FlowCount
import Yggdrasil.Proxy.Interpose
import Yggdrasil.Proxy.Announcements
import Yggdrasil.Proxy.FlowRemoval
import Yggdrasil.Heartbeat.PendingPeers
import Yggdrasil.Heartbeat.Invariance
import Yggdrasil.Chain.Walk
import Yggdrasil.Chain.Queries
import Yggdrasil.Chain.QueryRouter
import Yggdrasil.Rules.Watcher
import Yggdrasil.Rules.ReloadTrigger
import Yggdrasil.Rules.ReloadWait
import Yggdrasil.Rules.NotifyBridge
import Yggdrasil.NatTraversal.Wire
import Yggdrasil.NatTraversal.Targets
import Yggdrasil.NatTraversal.Rpc
import Yggdrasil.NatTraversal.Mapper
import Yggdrasil.NatTraversal.Moves
import Yggdrasil.NatTraversal.Nonces
import Yggdrasil.NatTraversal.Releases
import Yggdrasil.NatTraversal.Requests
import Yggdrasil.NatTraversal.Convergence
import Yggdrasil.NatTraversal.Pacing
import Yggdrasil.NatTraversal.Correlation
import Yggdrasil.NatTraversal.Listeners
import Yggdrasil.Control.ChainApply
import Yggdrasil.Control.Walks
import Yggdrasil.Control.ChainDiff
import Yggdrasil.Chain.ReplySize
import Yggdrasil.Acme.Storage
import Yggdrasil.Acme.Renewer
import Yggdrasil.Chain.Liveness
import Yggdrasil.Control.EnrollmentFiles
