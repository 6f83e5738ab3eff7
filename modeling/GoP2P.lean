import GoP2P.Traced
import GoP2P.Bytes
import GoP2P.Utf8Text
import GoP2P.Json
import GoP2P.Binary64
import GoP2P.JsonNumbers
import GoP2P.JsonAny
import GoP2P.JsonStructs
import GoP2P.JsonCarry
import GoP2P.Base64
import GoP2P.JsonBytes
import GoP2P.Tlv
import GoP2P.CoreError
import GoP2P.UepsPacket
import GoP2P.UepsReader
import GoP2P.Dispatcher
import GoP2P.UepsBinding
import GoP2P.UepsStream
import GoP2P.UepsMeaning
import GoP2P.SortedAssoc
import GoP2P.Decoding
import GoP2P.LevinVarint
import GoP2P.VarintCodec
import GoP2P.LevinStorage
import GoP2P.LevinFormat
import GoP2P.LevinDecoding
import GoP2P.LevinDocuments
import GoP2P.LevinEncoding
import GoP2P.LevinRoundTrip
import GoP2P.LevinEncodable
import GoP2P.LevinEnumeration
import GoP2P.ChunkedRead
import GoP2P.LevinHeader
import GoP2P.LevinConnection
import GoP2P.Runs
import GoP2P.LevinFraming
import GoP2P.Processes
import GoP2P.ReadWriteLocks
import GoP2P.Tables
import GoP2P.TextReplace
import GoP2P.Channels
import GoP2P.NearestPoints
import GoP2P.AtomicWrite
import GoP2P.PeerRegistry
import GoP2P.PeerOperations
import GoP2P.PeerRecords
import GoP2P.PeerUpdates
import GoP2P.NodeIdentity
import GoP2P.NodeMessage
import GoP2P.MarshalJson
import GoP2P.IntegerPayloads
import GoP2P.IdentityJson
import GoP2P.WireMessages
import GoP2P.Transport
import GoP2P.Deduplication
import GoP2P.RateLimiting
import GoP2P.ReadSide
import GoP2P.TransportAdmission
import GoP2P.FrameFates
import GoP2P.Keepalive
import GoP2P.IdentityFiles
import GoP2P.TransportKeys
import GoP2P.TransportCalls
import GoP2P.TransportWholeCalls
import GoP2P.OutboundConnect
import GoP2P.StoredPeers
import GoP2P.ConnectionBinding
import GoP2P.PeerRebinding
import GoP2P.RegisteredPeers
import GoP2P.Revocation
import GoP2P.ConnectionLimit
import GoP2P.ConnectionFlags
import GoP2P.ConnectionTeardown
import GoP2P.TransportLifecycle
import GoP2P.LifecycleInvariant
import GoP2P.TransportShutdown
import GoP2P.RegistrySaving
import GoP2P.PeersFile
import GoP2P.RegistryClose
import GoP2P.PeerSelection
import GoP2P.RegistryStartup
import GoP2P.AllowlistFile
import GoP2P.MessageDelivery
import GoP2P.Controller
import GoP2P.ResponseChannels
import GoP2P.ResponseCorrelation
import GoP2P.ContentBus
import GoP2P.BusLifecycle
import GoP2P.DeliveryAccounts
import GoP2P.BusDelivery
import GoP2P.EventSenders
import GoP2P.Mesh
import GoP2P.HandshakeAgreement
import GoP2P.MessageAuthenticity
import GoP2P.HandshakeWire
import GoP2P.HandshakeCompletion
import GoP2P.LexicalPath
import GoP2P.BundleExtraction
import GoP2P.BundleConfinement
import GoP2P.FileEffects
import GoP2P.TarballContainment
import GoP2P.WorkerDeploy
import GoP2P.DeployForms
import GoP2P.FailedDeployments
import GoP2P.WorkerRequests
import GoP2P.RemoteCalls
