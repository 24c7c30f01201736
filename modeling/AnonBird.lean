import AnonBird.Transition
import AnonBird.GoStrings
import AnonBird.NetIP
import AnonBird.FlowKey
import AnonBird.FlowReverse
import AnonBird.GoMap
import AnonBird.RelayMultipath
import AnonBird.RelayFailover
import AnonBird.RelayAffinity
import AnonBird.I2PRegistry
import AnonBird.I2PSessions
import AnonBird.ActiveTransport
import AnonBird.GoText
import AnonBird.HostPort
import AnonBird.GoIO
import AnonBird.SAM
import AnonBird.SAMStream
import AnonBird.SAMDatagram
import AnonBird.LineFormat
import AnonBird.SAMInjection
import AnonBird.GoRunes
import AnonBird.GoJSON
import AnonBird.IPText
import AnonBird.NetURL
import AnonBird.Endpoint
import AnonBird.TransportConfig
import AnonBird.ConnClose
import AnonBird.I2PRetry
import AnonBird.RelayListeners
import AnonBird.WgEndpoint
import AnonBird.WorkerICE
import AnonBird.CloseReturns
import AnonBird.Account
import AnonBird.FirewallRules
import AnonBird.PeerConnection
import AnonBird.Components
import AnonBird.NetworkMap
import AnonBird.RelevantPeers
import AnonBird.ComponentsSpec
import AnonBird.MapSpec
import AnonBird.ValidatedPeers
import AnonBird.ResourceAccess
import AnonBird.PostureRoutes
import AnonBird.TCPState
import AnonBird.TCPTracker
import AnonBird.GoBuffer
import AnonBird.RelayMessages
import AnonBird.RelayFrames
import AnonBird.RelayToken
import AnonBird.RelayEvents
import AnonBird.RelayPresence
import AnonBird.RelayClient
import AnonBird.RelaySubscription
import AnonBird.RelayEarly
import AnonBird.FlowEvents
import AnonBird.FilterRules
import AnonBird.PeerACL
import AnonBird.RouteACL
import AnonBird.DatagramTracker
import AnonBird.PortDNAT
import AnonBird.DNSNames
import AnonBird.LocalResolver
import AnonBird.DNSServer
import AnonBird.DNSUpdates
import AnonBird.DNSLiveness
import AnonBird.FakeIP
import AnonBird.InternalDNAT
import AnonBird.RefCounter
import AnonBird.DNSInterceptor
import AnonBird.InterceptorBalance
import AnonBird.FakeIPMappings
import AnonBird.BufferedUpdates
import AnonBird.SyncStreams
import AnonBird.InterceptedDomains
import AnonBird.FakeIPAllocation
import AnonBird.RouteWatcher
import AnonBird.RouteSelector
import AnonBird.RefDiscipline
import AnonBird.RefPersistence
import AnonBird.RouteRules
import AnonBird.TokenRefresh
import AnonBird.ArtifactVerify
import AnonBird.Checksum
import AnonBird.PeerIPs
import AnonBird.PrefixMerge
import AnonBird.ProxyAuth
import AnonBird.EmbeddedClients
import AnonBird.RelayControl
import AnonBird.Base62
import AnonBird.ClientAddress
import AnonBird.SSHAuthorization
import AnonBird.OfferListener
import AnonBird.LinkClosure
import AnonBird.MgmtCache
import AnonBird.KeyedList
