import QoSMos.Packet.Header
import QoSMos.Packet.Write

/-!
# Building packets

`new_tcp_packet`, `new_udp_packet` and `checksum_packet`, with the functions of
`ip_packet.c` that fill in IP headers. A builder is given the bytes that `malloc` returns
as `heap` and clears the part that it uses.

`int address_family` stays a number, since the source fails for any other than two.
-/

namespace QoSMos

/-- How a call ends without returning: a failed assertion, or an operation that C leaves
undefined. -/
inductive Halt where
  | fault (fault : Fault)
  | undefined (function operation : String)
  deriving DecidableEq, Repr

/-- `assert(expression)` -/
def require (c : Prop) [Decidable c] (function expression : String) : Except Halt Unit :=
  if c then .ok () else .error (.fault (.assertionFailed function expression))

def AF_UNSPEC : Int := 0
def AF_INET : Int := 2
def AF_INET6 : Int := 10

def MAX_TCP_HEADER_BYTES : Nat := 60
def MAX_TCP_DATAGRAM_BYTES : Nat := 65536
def MAX_UDP_DATAGRAM_BYTES : Nat := 65536
def TTL_CHECK_NONE : UInt8 := 255

def FLAG_WIN_NOCHECK : Nat := 0x1
def FLAG_OPTIONS_NOCHECK : Nat := 0x2

/-- `enum direction_t` -/
inductive Direction where
  | invalid | inbound | outbound
  deriving DecidableEq, Repr

/-- `enum tos_chk_t` -/
inductive TosCheck where
  | none | ecn | tos
  deriving DecidableEq, Repr

/-- `struct packet` with the fields that the parser does not set. -/
structure FullPacket extends Packet where
  direction : Direction
  flags : Nat
  tosChk : TosCheck
  timeUsecs : Int
  tcpTsVal : Option Nat
  tcpTsEcr : Option Nat
  echoedHeader : Bool

/-- A packet whose other fields are as `calloc` leaves them. -/
def Packet.full (packet : Packet) : FullPacket where
  toPacket := packet
  direction := .invalid
  flags := 0
  tosChk := .none
  timeUsecs := 0
  tcpTsVal := none
  tcpTsEcr := none
  echoedHeader := false

/-- `struct tos_spec` -/
structure TosSpec where
  check : TosCheck
  value : UInt8
  deriving DecidableEq, Repr

/-- `struct ip_info` -/
structure IpInfo where
  tos : TosSpec
  flowLabel : UInt32
  ttl : UInt8
  deriving DecidableEq, Repr

/-! ## IP headers -/

/-- `ip_header_min_len` -/
def ipHeaderMinLen (addressFamily : Int) : Except Halt Nat :=
  if addressFamily = AF_INET then .ok IPV4_BYTES
  else if addressFamily = AF_INET6 then .ok IPV6_BYTES
  else .error (.fault (.assertionFailed "ip_header_min_len" "!\"bad ip_version in config\""))

/-- The bytes that `set_ipv4_header` stores. -/
def ipv4Header (ipBytes : UInt16) (tos ttl protocol : UInt8) : List UInt8 :=
  let version := 4
  let ihl := IPV4_BYTES / 4
  let id := be16 0
  let fragOff := be16 0
  let ttl := if ttl ≠ 0 then ttl else TTL_CHECK_NONE
  let check := le16 0
  let srcIp := List.replicate 4 0
  let dstIp := List.replicate 4 0
  [UInt8.ofNat (16 * version + ihl), tos] ++ be16 ipBytes.toNat ++ id ++ fragOff ++
    [ttl, protocol] ++ check ++ srcIp ++ dstIp

/-- `set_ipv4_header` of the header at `ipv4`. -/
def setIpv4Header (b : Memory) (ipv4 : Nat) (ipBytes : UInt16) (tos ttl protocol : UInt8) :
    Memory :=
  writeBytes b ipv4 (ipv4Header ipBytes tos ttl protocol)

/-- The bytes that `set_ipv6_header` stores. -/
def ipv6Header (ipBytes : UInt16) (tos : UInt8) (flowLabel : UInt32) (hopLimit protocol : UInt8) :
    List UInt8 :=
  let version := 6
  let trafficClassHi := tos.toNat / 16
  let trafficClassLo := tos.toNat % 16
  let flowLabelHi := flowLabel.toNat / 65536 % 16
  let flowLabelLo := be16 (flowLabel.toNat % 65536)
  let payloadLen := be16 (ipBytes.toNat - IPV6_BYTES)
  let hopLimit := if hopLimit ≠ 0 then hopLimit else TTL_CHECK_NONE
  let srcIp := List.replicate 16 0
  let dstIp := List.replicate 16 0
  [UInt8.ofNat (16 * version + trafficClassHi),
    UInt8.ofNat (16 * trafficClassLo + flowLabelHi)] ++ flowLabelLo ++ payloadLen ++
    [protocol, hopLimit] ++ srcIp ++ dstIp

/-- `set_ipv6_header` of the header at `ipv6`. -/
def setIpv6Header (b : Memory) (ipv6 : Nat) (ipBytes : UInt16) (tos : UInt8)
    (flowLabel : UInt32) (hopLimit protocol : UInt8) : Except Halt Memory := do
  require (ipBytes.toNat ≥ IPV6_BYTES) "set_ipv6_header" "ip_bytes >= sizeof(*ipv6)"
  return writeBytes b ipv6 (ipv6Header ipBytes tos flowLabel hopLimit protocol)

/-- A call of `packet_append_header` in a function that sets `total_bytes` of the result
without comparing it with `NULL`. -/
def appendHeaderTotal (function : String) (packet : FullPacket) (headerType : HeaderType)
    (headerBytes totalBytes : Nat) : Except Halt FullPacket :=
  match packetAppendHeader packet.toPacket headerType headerBytes with
  | .error fault => .error (.fault fault)
  | .ok none => .error (.undefined function "header->total_bytes")
  | .ok (some (header, appended)) =>
    .ok { packet with toPacket := appended.setTotalBytes header totalBytes }

/-- `set_packet_ip_header`, which takes the first header to start the buffer. -/
def setPacketIpHeader (packet : FullPacket) (addressFamily : Int) (ipBytes : UInt16)
    (tos : UInt8) (flowlabel : UInt32) (ttl protocol : UInt8) : Except Halt FullPacket :=
  let function := "set_packet_ip_header"
  if addressFamily = AF_INET then do
    let ipv4 := 0
    require (packet.ipv6 = none) function "packet->ipv6 == NULL"
    let packet ← appendHeaderTotal function { packet with ipv4 := some ipv4 } .ipv4 IPV4_BYTES
      ipBytes.toNat
    return { packet with buffer := setIpv4Header packet.buffer ipv4 ipBytes tos ttl protocol }
  else if addressFamily = AF_INET6 then do
    let ipv6 := 0
    require (packet.ipv4 = none) function "packet->ipv4 == NULL"
    let packet ← appendHeaderTotal function { packet with ipv6 := some ipv6 } .ipv6 IPV6_BYTES
      ipBytes.toNat
    let buffer ← setIpv6Header packet.buffer ipv6 ipBytes tos flowlabel ttl protocol
    return { packet with buffer := buffer }
  else .error (.fault (.assertionFailed function "!\"bad ip_version in config\""))

/-- `ip_start`: the innermost IP header. -/
def ipStart (packet : Packet) : Except Halt Nat :=
  match packet.ipv4, packet.ipv6 with
  | some ipv4, _ => .ok ipv4
  | none, some ipv6 => .ok ipv6
  | none, none => .error (.fault (.assertionFailed "ip_start" "!\"bad address family\""))

/-- A new packet of the desired size whose bytes are all zero. -/
def clearPacket (heap : Memory) (ipBytes : Nat) (direction : Direction) (tosChk : TosCheck) :
    FullPacket :=
  { (packetNew (writeBytes heap 0 (List.replicate ipBytes 0)) ipBytes).full with
    direction := direction
    tosChk := tosChk }

/-! ## TCP -/

/-- `struct tcp_options`, of which `length` bytes are in use. -/
structure TcpOptions where
  data : Vector UInt8 (MAX_TCP_HEADER_BYTES - TCP_BYTES)
  length : UInt8
  deriving DecidableEq, Repr

/-- The arguments of `new_tcp_packet`. -/
structure TcpArgs where
  addressFamily : Int
  direction : Direction
  ipInfo : IpInfo
  srcPort : UInt16
  dstPort : UInt16
  flags : List Char
  startSequence : UInt32
  tcpPayloadBytes : UInt16
  ackSequence : UInt32
  window : Int
  urgPtr : UInt16
  tcpOptions : Option TcpOptions
  deriving DecidableEq, Repr

/-- `valid_tcp_flags` -/
def validTcpFlags : List Char := "FSRP.EWCU".toList

/-- `is_tcp_flags_spec_valid`, with the error for the first bad character. -/
def isTcpFlagsSpecValid (flags : List Char) : Except String Unit :=
  match flags.find? fun s => !validTcpFlags.contains s with
  | some s => .error s!"Invalid TCP flag: '{s}'"
  | none => .ok ()

/-- `is_tcp_flag_set` -/
def isTcpFlagSet (flag : Char) (flags : List Char) : Nat := if flags.contains flag then 1 else 0

/-- The byte of the eight flag bits, `fin` being the lowest. -/
def tcpFlagBits (flags : List Char) : Nat :=
  isTcpFlagSet 'F' flags + 2 * isTcpFlagSet 'S' flags + 4 * isTcpFlagSet 'R' flags +
    8 * isTcpFlagSet 'P' flags + 16 * isTcpFlagSet '.' flags + 32 * isTcpFlagSet 'U' flags +
    64 * isTcpFlagSet 'E' flags + 128 * isTcpFlagSet 'W' flags

/-- The bytes that `new_tcp_packet` stores in `struct tcp`. The window is cut to 16 bits and
the reserved bits keep the zeros of the buffer. -/
def tcpHeader (args : TcpArgs) (tcpHeaderBytes : Nat) : List UInt8 :=
  let window := if args.window = -1 then 0 else (args.window % 65536).toNat
  let check := le16 0
  be16 args.srcPort.toNat ++ be16 args.dstPort.toNat ++ be32 args.startSequence.toNat ++
    be32 args.ackSequence.toNat ++ [UInt8.ofNat (16 * (tcpHeaderBytes / 4)),
    UInt8.ofNat (tcpFlagBits args.flags)] ++ be16 window ++ check ++ be16 args.urgPtr.toNat

/-- `tcp_option_bytes` -/
def TcpArgs.optionLength (args : TcpArgs) : Nat :=
  (args.tcpOptions.map fun options => options.length.toNat).getD 0

/-- The TCP options that are copied behind the header. -/
def TcpArgs.optionBytes (args : TcpArgs) : List UInt8 :=
  match args.tcpOptions with
  | some options => options.data.toList.take options.length.toNat
  | none => []

/-- `new_tcp_packet`: a packet, or `NULL` with an error message. -/
def newTcpPacket (heap : Memory) (args : TcpArgs) : Except Halt (Except String FullPacket) := do
  let function := "new_tcp_packet"
  let ipOptionBytes := 0
  let tcpOptionBytes := args.optionLength
  let ipHeaderBytes := (← ipHeaderMinLen args.addressFamily) + ipOptionBytes
  let tcpHeaderBytes := TCP_BYTES + tcpOptionBytes
  let ipBytes := ipHeaderBytes + tcpHeaderBytes + args.tcpPayloadBytes.toNat
  if ipOptionBytes % 4 ≠ 0 then
    return .error (s!"IP options are not padded correctly to ensure IP header is a multiple of " ++
      s!"4 bytes: {ipOptionBytes % 4} excess bytes")
  else if tcpOptionBytes % 4 ≠ 0 then
    return .error (s!"TCP options are not padded correctly to ensure TCP header is a multiple " ++
      s!"of 4 bytes: {tcpOptionBytes % 4} excess bytes")
  else
    require (tcpHeaderBytes % 4 = 0) function "(tcp_header_bytes & 0x3) == 0"
    require (ipHeaderBytes % 4 = 0) function "(ip_header_bytes & 0x3) == 0"
    if tcpHeaderBytes > MAX_TCP_HEADER_BYTES then return .error "TCP header too large"
    else if ipBytes > MAX_TCP_DATAGRAM_BYTES then return .error "TCP segment too large"
    else
      match isTcpFlagsSpecValid args.flags with
      | .error message => return .error message
      | .ok () =>
        let packet := clearPacket heap ipBytes args.direction args.ipInfo.tos.check
        let packet ← setPacketIpHeader packet args.addressFamily (UInt16.ofNat ipBytes)
          args.ipInfo.tos.value args.ipInfo.flowLabel args.ipInfo.ttl (UInt8.ofNat IPPROTO_TCP)
        let packet ← appendHeaderTotal function packet .tcp tcpHeaderBytes
          (tcpHeaderBytes + args.tcpPayloadBytes.toNat)
        let tcp := (← ipStart packet.toPacket) + ipHeaderBytes
        if args.window = -1 ∧ args.direction = .inbound then
          return .error "window must be specified for inbound packets"
        else
          let winFlag := if args.window = -1 then FLAG_WIN_NOCHECK else 0
          let buffer := writeBytes packet.buffer tcp (tcpHeader args tcpHeaderBytes)
          let buffer := writeBytes buffer (tcp + TCP_BYTES) args.optionBytes
          let optionsFlag := if args.tcpOptions = none then FLAG_OPTIONS_NOCHECK else 0
          return .ok { packet with
            buffer := buffer
            tcp := some tcp
            flags := winFlag + optionsFlag
            ipBytes := ipBytes }

/-! ## UDP -/

/-- The arguments of `new_udp_packet`. -/
structure UdpArgs where
  addressFamily : Int
  direction : Direction
  ipInfo : IpInfo
  udpPayloadBytes : UInt16
  srcPort : UInt16
  dstPort : UInt16
  deriving DecidableEq, Repr

/-- The bytes that `new_udp_packet` stores in `struct udp`. -/
def udpHeader (args : UdpArgs) : List UInt8 :=
  let len := UDP_BYTES + args.udpPayloadBytes.toNat
  let check := le16 0
  be16 args.srcPort.toNat ++ be16 args.dstPort.toNat ++ be16 len ++ check

/-- `new_udp_packet`: a packet, or `NULL` with an error message. -/
def newUdpPacket (heap : Memory) (args : UdpArgs) : Except Halt (Except String FullPacket) := do
  let function := "new_udp_packet"
  let ipOptionBytes := 0
  let ipHeaderBytes := (← ipHeaderMinLen args.addressFamily) + ipOptionBytes
  let udpHeaderBytes := UDP_BYTES
  let ipBytes := ipHeaderBytes + udpHeaderBytes + args.udpPayloadBytes.toNat
  if ipOptionBytes % 4 ≠ 0 then
    return .error (s!"IP options are not padded correctly to ensure IP header is a multiple of " ++
      s!"4 bytes: {ipOptionBytes % 4} excess bytes")
  else
    require (udpHeaderBytes % 4 = 0) function "(udp_header_bytes & 0x3) == 0"
    require (ipHeaderBytes % 4 = 0) function "(ip_header_bytes & 0x3) == 0"
    if ipBytes > MAX_UDP_DATAGRAM_BYTES then return .error "UDP datagram too large"
    else
      let packet := clearPacket heap ipBytes args.direction args.ipInfo.tos.check
      let packet ← setPacketIpHeader packet args.addressFamily (UInt16.ofNat ipBytes)
        args.ipInfo.tos.value args.ipInfo.flowLabel args.ipInfo.ttl (UInt8.ofNat IPPROTO_UDP)
      let packet ← appendHeaderTotal function packet .udp UDP_BYTES
        (udpHeaderBytes + args.udpPayloadBytes.toNat)
      let udp := (← ipStart packet.toPacket) + ipHeaderBytes
      let buffer := writeBytes packet.buffer udp (udpHeader args)
      return .ok { packet with
        buffer := buffer
        udp := some udp
        ipBytes := ipBytes }

/-! ## Checksums -/

/-- Clear the checksum field at `check` and store what is then computed there. -/
def fillChecksum (b : Memory) (check : Nat) (compute : Memory → Nat) : Memory :=
  let cleared := writeBytes b check (le16 0)
  writeBytes cleared check (le16 (compute cleared))

/-- `tcp_udp_v4_checksum`, for the addresses of the header at `ipv4`. -/
def tcpUdpV4Checksum (b : Memory) (ipv4 protocol payload len : Nat) : Nat :=
  let pseudoHeader := readBytes b (ipv4 + 12) 4 ++ readBytes b (ipv4 + 16) 4 ++
    [0, UInt8.ofNat protocol] ++ be16 len
  let sum := ipChecksumPartial (.ofList pseudoHeader) 0 12 0
  ipChecksumFold (ipChecksumPartial b payload len sum)

/-- `tcp_udp_v6_checksum`, for the addresses of the header at `ipv6`. -/
def tcpUdpV6Checksum (b : Memory) (ipv6 protocol payload len : Nat) : Nat :=
  let pseudoHeader := readBytes b (ipv6 + 8) 16 ++ readBytes b (ipv6 + 24) 16 ++ be32 len ++
    [0, 0, 0, UInt8.ofNat protocol]
  let sum := ipChecksumPartial (.ofList pseudoHeader) 0 40 0
  ipChecksumFold (ipChecksumPartial b payload len sum)

def Tcp.checkAt (tcp : Nat) : Nat := tcp + 16
def Udp.checkAt (udp : Nat) : Nat := udp + 6
def Ipv4.checkAt (ipv4 : Nat) : Nat := ipv4 + 10
def Icmp.checksumAt (icmp : Nat) : Nat := icmp + 2

/-- `checksum_ipv4_packet` -/
def checksumIpv4Packet (packet : Packet) (ipv4 : Nat) : Except Halt Packet := do
  let function := "checksum_ipv4_packet"
  let b := fillChecksum packet.buffer (Ipv4.checkAt ipv4) fun b =>
    ipv4Checksum b ipv4 (Ipv4.ihl b ipv4 * 4)
  require (packet.ipBytes ≥ Ipv4.totLen b ipv4) function
    "packet->ip_bytes >= ntohs(ipv4->tot_len)"
  let l4Bytes : Int := Ipv4.totLen b ipv4 - Ipv4.ihl b ipv4 * 4
  require (l4Bytes > 0) function "l4_bytes > 0"
  let len := l4Bytes.toNat
  match packet.tcp, packet.udp, packet.icmpv4 with
  | some tcp, _, _ =>
    let compute := fun b => tcpUdpV4Checksum b ipv4 IPPROTO_TCP tcp len
    return { packet with buffer := fillChecksum b (Tcp.checkAt tcp) compute }
  | none, some udp, _ =>
    let compute := fun b => tcpUdpV4Checksum b ipv4 IPPROTO_UDP udp len
    return { packet with buffer := fillChecksum b (Udp.checkAt udp) compute }
  | none, none, some icmpv4 =>
    let compute := fun b => ipv4Checksum b icmpv4 len
    return { packet with buffer := fillChecksum b (Icmp.checksumAt icmpv4) compute }
  | none, none, none => .error (.fault (.assertionFailed function "!\"not TCP or ICMP\""))

/-- `checksum_ipv6_packet` -/
def checksumIpv6Packet (packet : Packet) (ipv6 : Nat) : Except Halt Packet := do
  let function := "checksum_ipv6_packet"
  let b := packet.buffer
  require (packet.ipBytes ≥ IPV6_BYTES + Ipv6.payloadLen b ipv6) function
    "packet->ip_bytes >= sizeof(*ipv6) + ntohs(ipv6->payload_len)"
  let l4Bytes := Ipv6.payloadLen b ipv6
  require (l4Bytes > 0) function "l4_bytes > 0"
  match packet.tcp, packet.udp, packet.icmpv6 with
  | some tcp, _, _ =>
    let compute := fun b => tcpUdpV6Checksum b ipv6 IPPROTO_TCP tcp l4Bytes
    return { packet with buffer := fillChecksum b (Tcp.checkAt tcp) compute }
  | none, some udp, _ =>
    let compute := fun b => tcpUdpV6Checksum b ipv6 IPPROTO_UDP udp l4Bytes
    return { packet with buffer := fillChecksum b (Udp.checkAt udp) compute }
  | none, none, some icmpv6 =>
    let compute := fun b => tcpUdpV6Checksum b ipv6 IPPROTO_ICMPV6 icmpv6 l4Bytes
    return { packet with buffer := fillChecksum b (Icmp.checksumAt icmpv6) compute }
  | none, none, none => .error (.fault (.assertionFailed function "!\"not TCP or ICMP\""))

/-- `packet_address_family` -/
def packetAddressFamily (packet : Packet) : Int :=
  match packet.ipv4, packet.ipv6 with
  | some _, _ => AF_INET
  | none, some _ => AF_INET6
  | none, none => AF_UNSPEC

/-- `checksum_packet`, which branches on `packet_address_family`. -/
def checksumPacket (packet : Packet) : Except Halt Packet :=
  match packet.ipv4, packet.ipv6 with
  | some ipv4, _ => checksumIpv4Packet packet ipv4
  | none, some ipv6 => checksumIpv6Packet packet ipv6
  | none, none => .error (.fault (.assertionFailed "checksum_packet" "!\"bad ip version\""))

end QoSMos
