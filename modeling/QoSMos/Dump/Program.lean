import QoSMos.Flow.Tuple
import QoSMos.Options.Print

/-!
# Printing packets

`packet_to_string.c`. What is printed to the stream before an error is part of the result, as
`packet_to_string` returns both.
-/

namespace QoSMos

/-- `enum dump_format_t` -/
inductive DumpFormat where
  | short | full | verbose
  deriving DecidableEq, Repr

/-- The text that is printed, and the message of a printer that returns `STATUS_ERR`. -/
structure Dumped where
  text : String
  error : Option String
  deriving DecidableEq, Repr

/-- `ip_to_string` is that of the platform. -/
abbrev IpToString := IpAddress → String

/-! ## Encapsulation headers -/

/-- `ipv4_header_to_string` -/
def ipv4HeaderToString (ipToString : IpToString) (packet : FullPacket) (layer : Nat) :
    Except Halt String := do
  let ipv4 ← (packet.headerAt layer).data "ipv4_header_to_string"
  let b := packet.buffer
  return s!"ipv4 {ipToString (Ipv4.srcIp b ipv4)} > {ipToString (Ipv4.dstIp b ipv4)}: "

/-- `ipv6_header_to_string` -/
def ipv6HeaderToString (ipToString : IpToString) (packet : FullPacket) (layer : Nat) :
    Except Halt String := do
  let ipv6 ← (packet.headerAt layer).data "ipv6_header_to_string"
  let b := packet.buffer
  return s!"ipv6 {ipToString (Ipv6.srcIp b ipv6)} > {ipToString (Ipv6.dstIp b ipv6)}: "

/-- `gre_header_to_string`; `i` counts the optional words in front of the one printed. -/
def greHeaderToString (packet : FullPacket) (layer : Nat) : Except Halt String := do
  let gre ← (packet.headerAt layer).data "gre_header_to_string"
  let b := packet.buffer
  let hasSum := Gre.hasChecksum b gre || Gre.hasRouting b gre
  let sum := if hasSum then s!" sum 0x{hex (Gre.be16 b gre 0)} off 0x{hex (Gre.be16 b gre 1)}"
    else ""
  let i := hasSum.toNat
  let key := if Gre.hasKey b gre then s!" key 0x{hex (Gre.be32 b gre i)}" else ""
  let i := i + (Gre.hasKey b gre).toNat
  let seq := if Gre.hasSeq b gre then s!" seq 0x{hex (Gre.be32 b gre i)}" else ""
  return s!"gre flags 0x{hex (Gre.flags b gre)} proto 0x{hexDigits 4 (Gre.proto b gre)}" ++
    sum ++ key ++ seq ++ ": "

/-- An entry of an MPLS label stack. -/
def mplsEntryToString (b : Memory) (mpls : Nat) : String :=
  let entry := be32At b mpls
  let stack := if Mpls.stack b mpls then " [S]," else ""
  s!" (label {entry / 4096}, tc {entry / 512 % 8},{stack} ttl {entry % 256})"

/-- `mpls_header_to_string` -/
def mplsHeaderToString (packet : FullPacket) (layer : Nat) : Except Halt String := do
  let header := packet.headerAt layer
  let numEntries := header.headerBytes / MPLS_BYTES
  if numEntries = 0 then return "mpls: "
  else
    let mpls ← header.data "mpls_header_to_string"
    let entries := (List.range numEntries).map fun i =>
      mplsEntryToString packet.buffer (mpls + MPLS_BYTES * i)
    return "mpls" ++ String.join entries ++ ": "

/-- `encap_header_to_string` -/
def encapHeaderToString (ipToString : IpToString) (packet : FullPacket) (layer : Nat) :
    Except Halt String :=
  let function := "encap_header_to_string"
  match (packet.headerAt layer).type with
  | .none => .error (.fault (.assertionFailed function "type > HEADER_NONE"))
  | .ipv4 => ipv4HeaderToString ipToString packet layer
  | .ipv6 => ipv6HeaderToString ipToString packet layer
  | .gre => greHeaderToString packet layer
  | .mpls => mplsHeaderToString packet layer
  | .tcp | .udp | .icmpv4 | .icmpv6 =>
    .error (.fault (.assertionFailed function "printer != NULL"))

/-! ## Transport headers -/

/-- `endpoints_to_string` and the blank behind it, which the short format leaves out. -/
def endpointsToString (ipToString : IpToString) (packet : FullPacket) (format : DumpFormat) :
    Except Halt String := do
  if format = .short then return ""
  else
    let tuple ← ofFault (getPacketTuple packet.toPacket)
    return s!"{ipToString tuple.src.ip}:{tuple.src.port} > " ++
      s!"{ipToString tuple.dst.ip}:{tuple.dst.port} "

/-- `packet_buffer_to_string`, for the verbose format. -/
def packetBufferToString (packet : FullPacket) (format : DumpFormat) : Except Halt String := do
  if format = .verbose then
    return "\n" ++ hexDump packet.buffer (← ofFault (packetEnd packet.toPacket))
  else return ""

/-- The flags that are set, in the order of tcpdump. -/
def tcpFlagsToString (b : Memory) (tcp : Nat) : List Char :=
  (if Tcp.fin b tcp then ['F'] else []) ++ (if Tcp.syn b tcp then ['S'] else []) ++
    (if Tcp.rst b tcp then ['R'] else []) ++ (if Tcp.psh b tcp then ['P'] else []) ++
    (if Tcp.ack b tcp then ['.'] else []) ++ (if Tcp.urg b tcp then ['U'] else []) ++
    (if Tcp.ece b tcp then ['E'] else []) ++ (if Tcp.cwr b tcp then ['W'] else [])

/-- The options in angle brackets, or the message for options that cannot be printed. -/
def optionsToString (packet : FullPacket) : Except Halt Dumped := do
  if (← packetTcpOptionsLen packet.toPacket) > 0 then
    match (tcpOptionsToString packet.toPacket).result with
    | .ok tcpOptions => return ⟨s!"<{tcpOptions}>", none⟩
    | .error (.error message) => return ⟨"", some message⟩
    | .error (.halt halt) => .error halt
  else return ⟨"", none⟩

/-- The sequence numbers and the window. -/
def tcpNumbersToString (packet : FullPacket) (tcp : Nat) (payloadLen : Int) : String :=
  let b := packet.buffer
  let seq := Tcp.seq b tcp
  let ack := if Tcp.ack b tcp then s!"ack {Tcp.ackSeq b tcp} " else ""
  let win := if packet.flags &&& FLAG_WIN_NOCHECK = 0 then s!"win {Tcp.window b tcp} " else ""
  s!" {seq}:{u32 (seq + payloadLen)}({u32 payloadLen}) " ++ ack ++ win

/-- `tcp_packet_to_string` of a packet with its TCP header at `tcp`. -/
def tcpPacketToString (ipToString : IpToString) (packet : FullPacket) (tcp : Nat)
    (format : DumpFormat) : Except Halt Dumped := do
  let endpoints ← endpointsToString ipToString packet format
  let flags := String.ofList (tcpFlagsToString packet.buffer tcp)
  let payloadLen ← ofFault (packetPayloadLen packet.toPacket)
  let numbers := tcpNumbersToString packet tcp payloadLen
  let options ← optionsToString packet
  let buffer ← packetBufferToString packet format
  return ⟨endpoints ++ flags ++ numbers ++ options.text ++ buffer, options.error⟩

/-- `udp_packet_to_string` -/
def udpPacketToString (ipToString : IpToString) (packet : FullPacket) (format : DumpFormat) :
    Except Halt Dumped := do
  let endpoints ← endpointsToString ipToString packet format
  let payloadLen ← ofFault (packetPayloadLen packet.toPacket)
  let buffer ← packetBufferToString packet format
  return ⟨endpoints ++ s!"udp ({u32 payloadLen})" ++ buffer, none⟩

/-! ## Packets -/

/-- The loop of `packet_to_string` over the headers in front of the last two. -/
def encapHeadersToString (ipToString : IpToString) (packet : FullPacket) (layer : Nat) :
    Nat → Except Halt String
  | 0 => .ok ""
  | k + 1 =>
    if (packet.headerAt layer).type = .none then .ok ""
    else do
      let header ← encapHeaderToString ipToString packet layer
      let headers ← encapHeadersToString ipToString packet (layer + 1) k
      return header ++ headers

/-- What `packet_to_string` prints of the last two headers. -/
def innermostToString (ipToString : IpToString) (packet : FullPacket) (format : DumpFormat) :
    Except Halt Dumped :=
  if packet.ipv4 = none ∧ packet.ipv6 = none then .ok ⟨"[NO IP HEADER]", none⟩
  else
    match packet.tcp, packet.udp, packet.icmpv4, packet.icmpv6 with
    | some tcp, _, _, _ => tcpPacketToString ipToString packet tcp format
    | none, some _, _, _ => udpPacketToString ipToString packet format
    | none, none, some _, _ => .ok ⟨"icmpv4", none⟩
    | none, none, none, some _ => .ok ⟨"icmpv6", none⟩
    | none, none, none, none => .ok ⟨"[NO TCP OR ICMP HEADER]", none⟩

/-- `packet_to_string` -/
def packetToString (ipToString : IpToString) (packet : FullPacket) (format : DumpFormat) :
    Except Halt Dumped := do
  let headerCount := packetHeaderCount packet.toPacket
  let headers ← encapHeadersToString ipToString packet 0 (headerCount - 2)
  let innermost ← innermostToString ipToString packet format
  return { innermost with text := headers ++ innermost.text }

end QoSMos
