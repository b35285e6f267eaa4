import Soter2.Library.Transition
import Soter2.Library.Loop
import Soter2.Library.Serial
import Soter2.Library.UniqueInsert
import Soter2.Library.SwapRemove
import Soter2.Library.FifoChannel
import Soter2.Library.Machine
import Soter2.Library.AssocTable
import Soter2.Library.Words
import Soter2.Library.ShiftRegister
import Soter2.Library.Layout
import Soter2.Library.MaxRegister
import Soter2.Library.EventQueue
import Soter2.Library.Text
import Soter2.Library.Chains
import Soter2.Library.Delimited
import Soter2.Library.IndexLoop
import Soter2.Library.Shuffle
import Soter2.Library.Buffer
import Soter2.Library.Slots
import Soter2.Library.Heap
import Soter2.Library.Drive
import Soter2.Library.Workers
import Soter2.Library.Tlv
import Soter2.Library.FormEncoding
import Soter2.Library.ServiceLine
import Soter2.Library.Base64
import Soter2.Library.Potential
import Soter2.Protocol.Packet
import Soter2.Protocol.Wire
import Soter2.Protocol.Burst
import Soter2.Protocol.Damage
import Soter2.Rudp.Connection
import Soter2.Rudp.Handler
import Soter2.Rudp.Receiver
import Soter2.Rudp.Reordering
import Soter2.Rudp.Retransmission
import Soter2.Rudp.Sender
import Soter2.Rudp.Parameters
import Soter2.Rudp.Acknowledged
import Soter2.Rudp.HostSend
import Soter2.Rudp.Session
import Soter2.Rudp.Dispatcher
import Soter2.Rudp.Endpoint
import Soter2.Rudp.Timeouts
import Soter2.Rudp.Recovery
import Soter2.Rudp.Linked
import Soter2.Rudp.Timing
import Soter2.Rudp.Reestablish
import Soter2.E2ee.Crypto
import Soter2.E2ee.Connection
import Soter2.E2ee.Stream
import Soter2.E2ee.Handshake
import Soter2.E2ee.Nonce
import Soter2.E2ee.Pubuid
import Soter2.Lownet.Addr
import Soter2.Lownet.Netfd
import Soter2.Lownet.TcpSock
import Soter2.Lownet.Client
import Soter2.Base.DynArray
import Soter2.Base.ArrayBlock
import Soter2.Base.ArrayRuns
import Soter2.Base.DynHtable
import Soter2.Base.DynTable
import Soter2.Base.ProtQueue
import Soter2.Base.Events
import Soter2.Base.HtableRuns
import Soter2.Base.Worker
import Soter2.Stating.State
import Soter2.Stating.Server
import Soter2.Stating.Answers
import Soter2.Stating.Silence
import Soter2.Peers.Db
import Soter2.Peers.Handlers
import Soter2.Peers.System
import Soter2.Peers.Identity
import Soter2.Peers.Punching
import Soter2.Peers.Quiet
import Soter2.Turn.Packets
import Soter2.Turn.Client
import Soter2.Turn.Relay
import Soter2.Turn.SystemMsg
import Soter2.Gossip.System
import Soter2.Gossip.Cleanup
import Soter2.Gossip.Selection
import Soter2.Gossip.Packet
import Soter2.Watcher.System
import Soter2.Providers.Sender
import Soter2.Rudp.Worker
import Soter2.Interface.Connections
import Soter2.Interface.Daemons
import Soter2.Interface.Network
import Soter2.Interface.LastSeen
import Soter2.Interface.Gossip
import Soter2.Interface.IoLoop
import Soter2.Interface.KeepAlive
import Soter2.Interface.Identity
import Soter2.Quic.Session
import Soter2.Quic.Handles
import Soter2.Uhttp.Api
import Soter2.Uhttp.Parser
import Soter2.Uhttp.RoundTrip
import Soter2.Uhttp.Framing
import Soter2.Uhttp.Extension
import Soter2.Uhttp.Server
import Soter2.Uhttp.Runner
import Soter2.Uhttp.Query
import Soter2.Uhttp.Params
import Soter2.Uhttp.Routes
import Soter2.Uhttp.Service
import Soter2.Proxy.Socks5
import Soter2.Proxy.Replies
import Soter2.Proxy.Session
import Soter2.Natpunch.Stun
import Soter2.Natpunch.Resolution
import Soter2.Natpunch.Nat
import Soter2.Cli.Connect
