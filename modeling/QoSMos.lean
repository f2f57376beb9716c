import QoSMos.Parser.Invariants
import QoSMos.Flow.CheckModifyDscp
import QoSMos.Flow.Accounting
import QoSMos.Tunnel.Mutex
import QoSMos.Tunnel.Relay
import QoSMos.Tunnel.KeepAlive
import QoSMos.Tunnel.Stop
import QoSMos.Session.Ownership
import QoSMos.Media.Context
import QoSMos.Media.Camera
import QoSMos.Outbound.AggregateLaw
import QoSMos.Flow.Flowmaps
import QoSMos.Flow.LruCache
import QoSMos.Packet.InternetChecksum
import QoSMos.Outbound.SniffLaw
import QoSMos.Syscall.DescriptorLaw
import QoSMos.Syscall.ThreadsLaw
import QoSMos.Wire.Lockstep
import QoSMos.Wire.Framing
import QoSMos.Options.Print
import QoSMos.Parser.Versions
import QoSMos.Wire.Netdev
import QoSMos.Flow.TupleLaw
import QoSMos.Build.ChecksumBuilt
import QoSMos.Script.Evaluation
import QoSMos.Outbound.Timestamps
import QoSMos.Packet.Crc32c
import QoSMos.Script.Unescape
import QoSMos.Build.UdpChecksum
import QoSMos.Outbound.FindSocket
import QoSMos.Outbound.Flowlabel
import QoSMos.Dump.Flags
import QoSMos.Build.Lengths
import QoSMos.Options.Edges
import QoSMos.Options.Append
import QoSMos.Outbound.VerifyOptions
import QoSMos.Outbound.Asserts
import QoSMos.Script.PollFlags
import QoSMos.Script.Times
import QoSMos.Outbound.TunQueue
import QoSMos.Wire.Arguments
import QoSMos.Tunnel.Handshake
import QoSMos.Session.Configure
import QoSMos.Syscall.Accept
import QoSMos.Syscall.ExtendedErr
import QoSMos.Syscall.OptStats
import QoSMos.Media.FlowTable
import QoSMos.Address.Defaults
import QoSMos.Outbound.Filter
import QoSMos.Script.Snippet
import QoSMos.Dump.MemStream
import QoSMos.Outbound.HashChains
import QoSMos.Script.Timing
import QoSMos.Address.PrefixText
import QoSMos.Config.Accepted
import QoSMos.Wire.SetupLaw
import QoSMos.Outbound.Reset
import QoSMos.Syscall.Verdict
import QoSMos.Code.Meaning
import QoSMos.Script.LexerLaw
