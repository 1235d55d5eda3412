import PyVpn.EventRun
import PyVpn.Packet
import PyVpn.Frames
import PyVpn.Framing
import PyVpn.Crypto
import PyVpn.Control
import PyVpn.Handlers
import PyVpn.Transparent
import PyVpn.SessionRun
import PyVpn.ServerAuth
import PyVpn.KeyCoherence
import PyVpn.AntiReplay
import PyVpn.ReplayWindow
import PyVpn.ReplayBitmap
import PyVpn.DataChannel
import PyVpn.Sealing
import PyVpn.Opening
import PyVpn.Forgery
import PyVpn.SenderCounters
import PyVpn.Authenticity
import PyVpn.Reassembly
import PyVpn.Fragments
import PyVpn.RoundTrip
import PyVpn.PlaintextRoundTrip
import PyVpn.DecryptTotal
import PyVpn.Delivery
import PyVpn.DeliverySim
import PyVpn.ExactlyOnce
import PyVpn.RoleSeparation
import PyVpn.IpAddress
import PyVpn.Routing
import PyVpn.PoolBooks
import PyVpn.PoolRange
import PyVpn.Config
import PyVpn.Server
import PyVpn.ServerSteps
import PyVpn.ServerUpkeep
import PyVpn.Leases
import PyVpn.ServerTables
import PyVpn.TunRouting
import PyVpn.TunSending
import PyVpn.Client
import PyVpn.ClientSteps
import PyVpn.HelloCodec
import PyVpn.ChannelMatch
import PyVpn.ClientAuth
import PyVpn.HonestHandshake
import PyVpn.Joining
import PyVpn.Setup
import PyVpn.KeepaliveLine
import PyVpn.KernelRoutes
import PyVpn.Privileges
import PyVpn.ServerLife
import PyVpn.ServerResources
import PyVpn.NatRules
import PyVpn.TcpServer
import PyVpn.TcpRuns
import PyVpn.Heartbeat
import PyVpn.IdleEnds
import PyVpn.Survival
import PyVpn.EffectLog
import PyVpn.Ledger
import PyVpn.PeerView
import PyVpn.PeerMachine
import PyVpn.PeerIsolation
import PyVpn.ServerPool
import PyVpn.StaleSweep
import PyVpn.Malformed
import PyVpn.ForeignPackets
import PyVpn.IpAssignment
import PyVpn.ConnectLoop
import PyVpn.AssignFaults
import PyVpn.FailClosed
import PyVpn.KeyAgreement
import PyVpn.TranscriptBinding
import PyVpn.TruncatedHello
import PyVpn.TlsChannel
import PyVpn.Text
import PyVpn.ConfigFile
import PyVpn.ConfigTypes
import PyVpn.PrefixMask
import PyVpn.Netmask
import PyVpn.Cli
import PyVpn.FlagMerge
