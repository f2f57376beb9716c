import QoSMos.Build.Layout
import QoSMos.Build.Shape

/-!
# ICMP packets

`new_icmp_packet` of `icmp_packet.c`, with the accessors of `packet.h` for the header that an
ICMP message echoes. A message about a TCP or UDP packet carries the IP header of that packet
and the first bytes behind it; a raw one is filled with zeros to the length asked for.

`int protocol` stays a number, since the source tells three values apart and refuses the others.
-/

namespace QoSMos

/-! ## The echoed header -/

def ICMP_ECHO_BYTES : Nat := 8

def IPPROTO_RAW : Int := 255

/-- A call whose only way to stop is a failed assertion. -/
def liftFault {α : Type} (call : Except Fault α) : Except Halt α := call.mapError Halt.fault

/-- `packet_echoed_ip_header` -/
def packetEchoedIpHeader (packet : Packet) : Except Fault Nat :=
  match packet.icmpv4, packet.icmpv6 with
  | some icmpv4, _ => .ok (icmpv4 + ICMPV4_BYTES)
  | none, some icmpv6 => .ok (icmpv6 + ICMPV6_BYTES)
  | none, none => .error (.assertionFailed "packet_echoed_ip_header" "!\"no valid icmp header\"")

/-- `packet_echoed_ipv4_header` -/
def packetEchoedIpv4Header (packet : Packet) : Option Nat :=
  packet.icmpv4.map fun icmpv4 => icmpv4 + ICMPV4_BYTES

/-- `packet_echoed_ipv6_header` -/
def packetEchoedIpv6Header (packet : Packet) : Option Nat :=
  packet.icmpv6.map fun icmpv6 => icmpv6 + ICMPV6_BYTES

/-- `packet_echoed_ip_header_len` -/
def packetEchoedIpHeaderLen (packet : Packet) : Except Fault Nat :=
  match packet.icmpv4, packet.icmpv6 with
  | some _, _ => .ok IPV4_BYTES
  | none, some _ => .ok IPV6_BYTES
  | none, none =>
    .error (.assertionFailed "packet_echoed_ip_header_len" "!\"no valid icmp header\"")

/-- `packet_echoed_ip_protocol`, read in the place of the echoed header. -/
def packetEchoedIpProtocol (packet : Packet) : Except Fault Nat :=
  match packet.icmpv4, packet.icmpv6 with
  | some icmpv4, _ => .ok (Ipv4.protocol packet.buffer (icmpv4 + ICMPV4_BYTES))
  | none, some icmpv6 => .ok (Ipv6.nextHeader packet.buffer (icmpv6 + ICMPV6_BYTES))
  | none, none =>
    .error (.assertionFailed "packet_echoed_ip_protocol" "!\"no valid icmp header\"")

/-- `packet_echoed_layer4_header` -/
def packetEchoedLayer4Header (packet : Packet) : Except Fault Nat := do
  return (← packetEchoedIpHeader packet) + (← packetEchoedIpHeaderLen packet)

/-- `packet_echoed_tcp_header` -/
def packetEchoedTcpHeader (packet : Packet) : Except Fault (Option Nat) := do
  if (← packetEchoedIpProtocol packet) = IPPROTO_TCP then
    return some (← packetEchoedLayer4Header packet)
  else return none

/-- `packet_echoed_udp_header` -/
def packetEchoedUdpHeader (packet : Packet) : Except Fault (Option Nat) := do
  if (← packetEchoedIpProtocol packet) = IPPROTO_UDP then
    return some (← packetEchoedLayer4Header packet)
  else return none

/-- `packet_echoed_tcp_seq`, whose second assertion compares two constant offsets. -/
def packetEchoedTcpSeq (packet : Packet) : Except Fault Nat := do
  match ← packetEchoedTcpHeader packet with
  | none => .error (.assertionFailed "packet_echoed_tcp_seq" "echoed_tcp")
  | some echoedTcp =>
    let seq := echoedTcp + 4
    if seq + 4 ≤ echoedTcp + ICMP_ECHO_BYTES then return seq
    else .error (.assertionFailed "packet_echoed_tcp_seq"
      "(char *) (seq + 1) <= (char *) echoed_tcp + ICMP_ECHO_BYTES")

/-! ## Types and codes -/

def ICMP_ECHOREPLY : UInt8 := 0
def ICMP_DEST_UNREACH : UInt8 := 3
def ICMP_SOURCE_QUENCH : UInt8 := 4
def ICMP_REDIRECT : UInt8 := 5
def ICMP_ECHO : UInt8 := 8
def ICMP_TIME_EXCEEDED : UInt8 := 11
def ICMP_PARAMETERPROB : UInt8 := 12
def ICMP_TIMESTAMP : UInt8 := 13
def ICMP_TIMESTAMPREPLY : UInt8 := 14
def ICMP_INFO_REQUEST : UInt8 := 15
def ICMP_INFO_REPLY : UInt8 := 16
def ICMP_ADDRESS : UInt8 := 17
def ICMP_ADDRESSREPLY : UInt8 := 18

def ICMP_NET_UNREACH : UInt8 := 0
def ICMP_HOST_UNREACH : UInt8 := 1
def ICMP_PROT_UNREACH : UInt8 := 2
def ICMP_PORT_UNREACH : UInt8 := 3
def ICMP_FRAG_NEEDED : UInt8 := 4
def ICMP_SR_FAILED : UInt8 := 5
def ICMP_NET_UNKNOWN : UInt8 := 6
def ICMP_HOST_UNKNOWN : UInt8 := 7
def ICMP_HOST_ISOLATED : UInt8 := 8
def ICMP_NET_ANO : UInt8 := 9
def ICMP_HOST_ANO : UInt8 := 10
def ICMP_NET_UNR_TOS : UInt8 := 11
def ICMP_HOST_UNR_TOS : UInt8 := 12
def ICMP_PKT_FILTERED : UInt8 := 13
def ICMP_PREC_VIOLATION : UInt8 := 14
def ICMP_PREC_CUTOFF : UInt8 := 15

def ICMPV6_DEST_UNREACH : UInt8 := 1
def ICMPV6_PKT_TOOBIG : UInt8 := 2
def ICMPV6_TIME_EXCEED : UInt8 := 3
def ICMPV6_PARAMPROB : UInt8 := 4
def ICMPV6_ECHO_REQUEST : UInt8 := 128
def ICMPV6_ECHO_REPLY : UInt8 := 129

def ICMPV6_NOROUTE : UInt8 := 0
def ICMPV6_ADM_PROHIBITED : UInt8 := 1
def ICMPV6_NOT_NEIGHBOUR : UInt8 := 2
def ICMPV6_ADDR_UNREACH : UInt8 := 3
def ICMPV6_PORT_UNREACH : UInt8 := 4
def ICMPV6_EXC_HOPLIMIT : UInt8 := 0
def ICMPV6_EXC_FRAGTIME : UInt8 := 1
def ICMPV6_HDR_FIELD : UInt8 := 0
def ICMPV6_UNK_NEXTHDR : UInt8 := 1
def ICMPV6_UNK_OPTION : UInt8 := 2

/-- `struct icmp_code_info` -/
structure IcmpCodeInfo where
  codeByte : UInt8
  codeString : String
  deriving DecidableEq, Repr

/-- `struct icmp_type_info` -/
structure IcmpTypeInfo where
  typeByte : UInt8
  typeString : String
  codeTable : Option (List IcmpCodeInfo)
  deriving DecidableEq, Repr

/-- `icmpv4_unreachable_codes` -/
def icmpv4UnreachableCodes : List IcmpCodeInfo :=
  [⟨ICMP_NET_UNREACH, "net_unreachable"⟩, ⟨ICMP_HOST_UNREACH, "host_unreachable"⟩,
    ⟨ICMP_PROT_UNREACH, "protocol_unreachable"⟩, ⟨ICMP_PORT_UNREACH, "port_unreachable"⟩,
    ⟨ICMP_FRAG_NEEDED, "frag_needed"⟩, ⟨ICMP_SR_FAILED, "source_route_failed"⟩,
    ⟨ICMP_NET_UNKNOWN, "net_unknown"⟩, ⟨ICMP_HOST_UNKNOWN, "host_unknown"⟩,
    ⟨ICMP_HOST_ISOLATED, "source_host_isolated"⟩, ⟨ICMP_NET_ANO, "net_prohibited"⟩,
    ⟨ICMP_HOST_ANO, "host_prohibited"⟩, ⟨ICMP_NET_UNR_TOS, "net_unreachable_for_tos"⟩,
    ⟨ICMP_HOST_UNR_TOS, "host_unreachable_for_tos"⟩, ⟨ICMP_PKT_FILTERED, "packet_filtered"⟩,
    ⟨ICMP_PREC_VIOLATION, "precedence_violation"⟩, ⟨ICMP_PREC_CUTOFF, "precedence_cutoff"⟩]

/-- `icmpv4_types` -/
def icmpv4Types : List IcmpTypeInfo :=
  [⟨ICMP_ECHOREPLY, "echo_reply", none⟩,
    ⟨ICMP_DEST_UNREACH, "unreachable", some icmpv4UnreachableCodes⟩,
    ⟨ICMP_SOURCE_QUENCH, "source_quench", none⟩, ⟨ICMP_REDIRECT, "redirect", none⟩,
    ⟨ICMP_ECHO, "echo_request", none⟩, ⟨ICMP_TIME_EXCEEDED, "time_exceeded", none⟩,
    ⟨ICMP_PARAMETERPROB, "parameter_problem", none⟩, ⟨ICMP_TIMESTAMP, "timestamp_request", none⟩,
    ⟨ICMP_TIMESTAMPREPLY, "timestamp_reply", none⟩,
    ⟨ICMP_INFO_REQUEST, "information_request", none⟩,
    ⟨ICMP_INFO_REPLY, "information_reply", none⟩, ⟨ICMP_ADDRESS, "address_mask_request", none⟩,
    ⟨ICMP_ADDRESSREPLY, "address_mask_reply", none⟩]

/-- `icmpv6_unreachable_codes`, which takes its first code from the IPv4 ones. -/
def icmpv6UnreachableCodes : List IcmpCodeInfo :=
  [⟨ICMP_NET_UNREACH, "net_unreachable"⟩, ⟨ICMPV6_NOROUTE, "no_route"⟩,
    ⟨ICMPV6_ADM_PROHIBITED, "admin_prohibited"⟩, ⟨ICMPV6_NOT_NEIGHBOUR, "not_neighbour"⟩,
    ⟨ICMPV6_ADDR_UNREACH, "address_unreachable"⟩, ⟨ICMPV6_PORT_UNREACH, "port_unreachable"⟩]

/-- `icmpv6_time_exceed_codes` -/
def icmpv6TimeExceedCodes : List IcmpCodeInfo :=
  [⟨ICMPV6_EXC_HOPLIMIT, "exceeded_hop_limit"⟩, ⟨ICMPV6_EXC_FRAGTIME, "exceeded_frag_time"⟩]

/-- `icmpv6_paramprob_codes` -/
def icmpv6ParamprobCodes : List IcmpCodeInfo :=
  [⟨ICMPV6_HDR_FIELD, "header_field"⟩, ⟨ICMPV6_UNK_NEXTHDR, "unknown_next_header"⟩,
    ⟨ICMPV6_UNK_OPTION, "unknown_option"⟩]

/-- `icmpv6_types` -/
def icmpv6Types : List IcmpTypeInfo :=
  [⟨ICMPV6_DEST_UNREACH, "unreachable", some icmpv6UnreachableCodes⟩,
    ⟨ICMPV6_PKT_TOOBIG, "packet_too_big", none⟩,
    ⟨ICMPV6_TIME_EXCEED, "time_exceeded", some icmpv6TimeExceedCodes⟩,
    ⟨ICMPV6_PARAMPROB, "parameter_problem", some icmpv6ParamprobCodes⟩,
    ⟨ICMPV6_ECHO_REQUEST, "echo_request", none⟩, ⟨ICMPV6_ECHO_REPLY, "echo_reply", none⟩]

/-- `isspace` -/
def isSpace (c : Char) : Bool := c == ' ' || (9 ≤ c.toNat && c.toNat ≤ 13)

/-- What `%d` of `sscanf` finds at the start of a string: white space, a sign and digits. -/
def scanDecimal (s : List Char) : Option Int :=
  let s := s.dropWhile isSpace
  let (negative, s) := match s with
    | '-' :: s => (true, s)
    | '+' :: s => (false, s)
    | s => (false, s)
  let digits := s.takeWhile Char.isDigit
  if digits = [] then none
  else
    let value : Nat := digits.foldl (fun value c => 10 * value + (c.toNat - 48)) 0
    some (if negative then -value else value)

/-- `sscanf` with a format of literal characters and `%d`, which stores an `int` if it
returns 1. C does not say what happens where the number is no `int`. -/
def sscanfInt (function : String) (literal s : List Char) : Except Halt (Option Int) :=
  if literal.isPrefixOf s then
    match scanDecimal (s.drop literal.length) with
    | none => .ok none
    | some n =>
      if -2147483648 ≤ n ∧ n ≤ 2147483647 then .ok (some n)
      else .error (.undefined function "sscanf")
  else .ok none

def isValidU8 (x : Int) : Prop := 0 ≤ x ∧ x ≤ 255
def isValidU16 (x : Int) : Prop := 0 ≤ x ∧ x ≤ 65535
def isValidU32 (x : Int) : Prop := 0 ≤ x ∧ x ≤ 4294967295

instance (x : Int) : Decidable (isValidU8 x) := inferInstanceAs (Decidable (_ ∧ _))
instance (x : Int) : Decidable (isValidU16 x) := inferInstanceAs (Decidable (_ ∧ _))
instance (x : Int) : Decidable (isValidU32 x) := inferInstanceAs (Decidable (_ ∧ _))

/-- The type byte and the code table of the last entry with this name. -/
def findIcmpType (icmpTypes : List IcmpTypeInfo) (typeString : List Char) : Option IcmpTypeInfo :=
  icmpTypes.reverse.find? fun info => info.typeString.toList == typeString

/-- The code byte of the last entry with this name. -/
def findIcmpCode (codeTable : List IcmpCodeInfo) (codeString : List Char) : Option IcmpCodeInfo :=
  codeTable.reverse.find? fun info => info.codeString.toList == codeString

/-- `parse_icmp_type_and_code`, called with -1 for both. -/
def parseIcmpTypeAndCode (addressFamily : Int) (typeString : List Char)
    (codeString : Option (List Char)) : Except Halt (Except String (Int × Int)) := do
  let function := "parse_icmp_type_and_code"
  let icmpTypes ←
    if addressFamily = AF_INET then pure icmpv4Types
    else if addressFamily = AF_INET6 then pure icmpv6Types
    else .error (.fault (.assertionFailed function "!\"bad ip_version in config\""))
  let (type, codeTable) ←
    match ← sscanfInt function "type_".toList typeString with
    | some type => pure (type, none)
    | none =>
      match findIcmpType icmpTypes typeString with
      | some info => pure ((info.typeByte.toNat : Int), info.codeTable)
      | none => pure (-1, none)
  if ¬ isValidU8 type then return .error s!"bad ICMP type {String.ofList typeString}"
  else
    match codeString with
    | none => return .ok (type, 0)
    | some codeString =>
      let code ←
        match ← sscanfInt function "code_".toList codeString with
        | some code => pure code
        | none =>
          match codeTable.bind fun codeTable => findIcmpCode codeTable codeString with
          | some info => pure (info.codeByte.toNat : Int)
          | none => pure (-1)
      if ¬ isValidU8 code then return .error s!"bad ICMP code {String.ofList codeString}"
      else return .ok (type, code)

/-! ## The packet -/

/-- `icmp_protocol` -/
def icmpProtocol (addressFamily : Int) : Except Halt Nat :=
  if addressFamily = AF_INET then .ok IPPROTO_ICMP
  else if addressFamily = AF_INET6 then .ok IPPROTO_ICMPV6
  else .error (.fault (.assertionFailed "icmp_protocol" "!\"bad ip version\""))

/-- `icmp_header_len` -/
def icmpHeaderLen (addressFamily : Int) : Except Halt Nat :=
  if addressFamily = AF_INET then .ok ICMPV4_BYTES
  else if addressFamily = AF_INET6 then .ok ICMPV6_BYTES
  else .error (.fault (.assertionFailed "icmp_header_len" "!\"bad ip version\""))

/-- `layer4_header_len` -/
def layer4HeaderLen (protocol : Int) : Except Halt Nat :=
  if protocol = IPPROTO_TCP then .ok TCP_BYTES
  else if protocol = IPPROTO_UDP then .ok UDP_BYTES
  else .error (.fault (.assertionFailed "layer4_header_len" "!\"bad protocol\""))

/-- `set_icmpv4_header` -/
def setIcmpv4Header (b : Memory) (icmpv4 : Nat) (type code : UInt8) (mtu : Int)
    (echoId : UInt16) : Except String Memory :=
  let b := writeBytes b icmpv4 ([type, code] ++ be16 0)
  let withMtu : Except String Memory :=
    if mtu ≥ 0 then
      if type ≠ ICMP_DEST_UNREACH ∨ code ≠ ICMP_FRAG_NEEDED then
        .error "ICMPv4 MTU is only valid for unreachable-frag_needed"
      else if ¬ isValidU16 mtu then .error "ICMPv4 MTU out of 16-bit range"
      else .ok (writeBytes b (icmpv4 + 6) (be16 mtu.toNat))
    else .ok b
  withMtu.map fun b => if echoId > 0 then writeBytes b (icmpv4 + 4) (be16 echoId.toNat) else b

/-- `set_icmpv6_header` -/
def setIcmpv6Header (b : Memory) (icmpv6 : Nat) (type code : UInt8) (mtu : Int)
    (echoId : UInt16) : Except String Memory :=
  let b := writeBytes b icmpv6 ([type, code] ++ be16 0)
  let withMtu : Except String Memory :=
    if mtu ≥ 0 then
      if type ≠ ICMPV6_PKT_TOOBIG ∨ code ≠ 0 then
        .error "ICMPv6 MTU is only valid for packet_too_big-0"
      else if ¬ isValidU32 mtu then .error "ICMPv6 MTU out of 32-bit range"
      else .ok (writeBytes b (icmpv6 + 4) (be32 mtu.toNat))
    else .ok b
  withMtu.map fun b => if echoId > 0 then writeBytes b (icmpv6 + 4) (be16 echoId.toNat) else b

/-- `set_packet_icmp_header` -/
def setPacketIcmpHeader (packet : FullPacket) (icmp : Nat) (addressFamily : Int)
    (icmpBytes : Nat) (type code : UInt8) (mtu : Int) (echoId : UInt16) :
    Except Halt (Except String FullPacket) := do
  let function := "set_packet_icmp_header"
  if addressFamily = AF_INET then
    require (packet.icmpv6 = none) function "packet->icmpv6 == NULL"
    let packet ← appendHeaderTotal function { packet with icmpv4 := some icmp } .icmpv4
      ICMPV4_BYTES icmpBytes
    return (setIcmpv4Header packet.buffer icmp type code mtu echoId).map fun b =>
      { packet with buffer := b }
  else if addressFamily = AF_INET6 then
    require (packet.icmpv4 = none) function "packet->icmpv4 == NULL"
    let packet ← appendHeaderTotal function { packet with icmpv6 := some icmp } .icmpv6
      ICMPV6_BYTES icmpBytes
    return (setIcmpv6Header packet.buffer icmp type code mtu echoId).map fun b =>
      { packet with buffer := b }
  else .error (.fault (.assertionFailed function "!\"bad ip_version in config\""))

/-- `set_ip_header` -/
def setIpHeader (b : Memory) (ipHeader : Nat) (addressFamily : Int) (ipBytes : UInt16)
    (tos : UInt8) (flowlabel : UInt32) (ttl protocol : UInt8) : Except Halt Memory :=
  if addressFamily = AF_INET then .ok (setIpv4Header b ipHeader ipBytes tos ttl protocol)
  else if addressFamily = AF_INET6 then
    setIpv6Header b ipHeader ipBytes tos flowlabel ttl protocol
  else .error (.fault (.assertionFailed "set_ip_header" "!\"bad ip_version in config\""))

/-- An `int` that is assigned a `u32`. -/
def intOfU32 (x : Nat) : Int :=
  if x % 4294967296 < 2147483648 then (x % 4294967296 : Nat)
  else (x % 4294967296 : Nat) - 4294967296

/-- The arguments of `new_icmp_packet`. -/
structure IcmpArgs where
  addressFamily : Int
  direction : Direction
  typeString : List Char
  codeString : Option (List Char)
  protocol : Int
  tcpStartSequence : UInt32
  payloadBytes : UInt32
  ipInfo : IpInfo
  mtu : Int
  echoId : Int
  deriving DecidableEq, Repr

/-- A message about a TCP or UDP packet. -/
def IcmpArgs.Echoes (args : IcmpArgs) : Prop :=
  args.protocol = IPPROTO_TCP ∨ args.protocol = IPPROTO_UDP

instance (args : IcmpArgs) : Decidable args.Echoes := inferInstanceAs (Decidable (_ ∨ _))

/-- `echoed_bytes`, `icmp_bytes` and `ip_bytes` as `new_icmp_packet` computes them first. -/
def IcmpArgs.lengths (args : IcmpArgs) (ipFixedBytes ipHeaderBytes icmpHeaderBytes : Nat) :
    Nat × Int × Int :=
  let payloadBytes := args.payloadBytes.toNat
  if args.Echoes then
    let echoedBytes := ipFixedBytes + ICMP_ECHO_BYTES
    let icmpBytes := icmpHeaderBytes + echoedBytes
    (echoedBytes, icmpBytes, ipHeaderBytes + icmpBytes)
  else if args.protocol = IPPROTO_RAW then
    (0, intOfU32 payloadBytes, intOfU32 (ipHeaderBytes + payloadBytes))
  else (0, 0, 0)

/-- The part of `new_icmp_packet` that fills in the header which the message echoes. -/
def setEchoedHeader (packet : FullPacket) (args : IcmpArgs) (ipFixedBytes : Nat) :
    Except Halt Memory := do
  let echoedIp ← liftFault (packetEchoedIpHeader packet.toPacket)
  let echoedIpBytes := ipFixedBytes + (← layer4HeaderLen args.protocol) + args.payloadBytes.toNat
  let protocol := UInt8.ofNat args.protocol.toNat
  let b ← setIpHeader packet.buffer echoedIp args.addressFamily (UInt16.ofNat echoedIpBytes)
    0 0 0 protocol
  if args.protocol = IPPROTO_TCP then
    let seq ← liftFault (packetEchoedTcpSeq { packet.toPacket with buffer := b })
    return writeBytes b seq (be32 args.tcpStartSequence.toNat)
  else return b

/-- `new_icmp_packet`: a packet, or `NULL` with an error message. A negative length would make
`memset` write beyond every buffer. -/
def newIcmpPacket (heap : Memory) (args : IcmpArgs) :
    Except Halt (Except String FullPacket) := do
  let function := "new_icmp_packet"
  let ipFixedBytes ← ipHeaderMinLen args.addressFamily
  let ipOptionBytes := 0
  let ipHeaderBytes := ipFixedBytes + ipOptionBytes
  let icmpHeaderBytes ← icmpHeaderLen args.addressFamily
  let (echoedBytes, icmpBytes, ipBytes) :=
    args.lengths ipFixedBytes ipHeaderBytes icmpHeaderBytes
  if args.echoId < 0 ∨ args.echoId > 65535 then
    return .error "invalid echo_id, must be between 0 and 65535"
  else if ipOptionBytes % 4 ≠ 0 then
    return .error (s!"IP options are not padded correctly to ensure IP header is a multiple of " ++
      s!"4 bytes: {ipOptionBytes % 4} excess bytes")
  else
    require (ipHeaderBytes % 4 = 0) function "(ip_header_bytes & 0x3) == 0"
    if icmpBytes < icmpHeaderBytes then
      return .error s!"icmp_bytes {icmpBytes} smaller than icmp header length {icmpHeaderBytes}"
    else
      match ← parseIcmpTypeAndCode args.addressFamily args.typeString args.codeString with
      | .error message => return .error message
      | .ok (type, code) =>
        require (isValidU8 type) function "is_valid_u8(type)"
        require (isValidU8 code) function "is_valid_u8(code)"
        if ipBytes < 0 then .error (.undefined function "memset(packet->buffer, 0, ip_bytes)")
        else
          let ipBytes := ipBytes.toNat
          let packet := clearPacket heap ipBytes args.direction args.ipInfo.tos.check
          let packet ← setPacketIpHeader packet args.addressFamily (UInt16.ofNat ipBytes)
            args.ipInfo.tos.value args.ipInfo.flowLabel args.ipInfo.ttl
            (UInt8.ofNat (← icmpProtocol args.addressFamily))
          let icmpHeader := (← ipStart packet.toPacket) + ipHeaderBytes
          match ← setPacketIcmpHeader packet icmpHeader args.addressFamily icmpBytes.toNat
            (UInt8.ofNat type.toNat) (UInt8.ofNat code.toNat) args.mtu
            (UInt16.ofNat args.echoId.toNat) with
          | .error message => return .error message
          | .ok packet =>
            if echoedBytes ≠ 0 then
              let buffer ← setEchoedHeader packet args ipFixedBytes
              return .ok { packet with
                buffer := buffer
                echoedHeader := true
                ipBytes := ipBytes }
            else return .ok { packet with echoedHeader := false, ipBytes := ipBytes }

/-! ## What it returns -/

open Returns

/-- The header that an ICMP packet of an address family has. -/
def icmpType (addressFamily : Int) : HeaderType :=
  if addressFamily = AF_INET then .icmpv4 else .icmpv6

/-- The packet has the ICMP header of an address family at `p`, and no other. -/
structure IcmpAt (packet : Packet) (addressFamily : Int) (p : Nat) : Prop where
  icmpv4 : packet.icmpv4 = if addressFamily = AF_INET then some p else none
  icmpv6 : packet.icmpv6 = if addressFamily = AF_INET then none else some p

/-- What `new_icmp_packet` returns for arguments that it takes. -/
structure IcmpBuilt (args : IcmpArgs) (packet : FullPacket) : Prop where
  family : args.addressFamily = AF_INET ∨ args.addressFamily = AF_INET6
  room : ipHeaderBytes args.addressFamily + ICMPV4_BYTES ≤ packet.ipBytes
  bufferBytes : packet.bufferBytes = packet.ipBytes
  table : Table packet.toPacket [⟨ipType args.addressFamily, ipHeaderBytes args.addressFamily,
      packet.ipBytes % 65536, some 0⟩,
    ⟨icmpType args.addressFamily, ICMPV4_BYTES,
      packet.ipBytes - ipHeaderBytes args.addressFamily, some (ipHeaderBytes args.addressFamily)⟩]
  ipHeader : ∀ i < ipHeaderBytes args.addressFamily, packet.buffer i =
    (ipHeader args.addressFamily (UInt16.ofNat packet.ipBytes) args.ipInfo.tos.value
      args.ipInfo.flowLabel args.ipInfo.ttl
      (UInt8.ofNat (icmpType args.addressFamily).ipProto)).getD i 0
  ipv4 : packet.ipv4 = if args.addressFamily = AF_INET then some 0 else none
  ipv6 : packet.ipv6 = if args.addressFamily = AF_INET then none else some 0
  icmp : IcmpAt packet.toPacket args.addressFamily (ipHeaderBytes args.addressFamily)
  noPorts : packet.tcp = none ∧ packet.udp = none
  echoedHeader : packet.echoedHeader = true ↔ args.Echoes
  echoed : args.Echoes →
    packet.ipBytes = 2 * ipHeaderBytes args.addressFamily + ICMPV4_BYTES + ICMP_ECHO_BYTES ∧
      packetEchoedIpProtocol packet.toPacket = .ok args.protocol.toNat

section Icmp

variable {b b' : Memory} {p n : Nat} {addressFamily mtu : Int} {type code : UInt8}
  {echoId : UInt16} {packet packet' : FullPacket} {hs : List Header} {args : IcmpArgs}

/-- The identifier of an echo is stored behind the start of the header. -/
theorem withEchoId_below {withMtu : Except String Memory}
    (hmtu : ∀ c, withMtu = .ok c → ∀ i < p, c i = b i)
    (hok : withMtu.map (fun c => if echoId > 0 then writeBytes c (p + 4) (be16 echoId.toNat)
      else c) = .ok b') : ∀ i < p, b' i = b i := by
  intro i hi
  obtain ⟨c, hc, rfl⟩ := map_eq_ok_iff.mp hok
  rw [← hmtu c hc i hi]
  split
  · exact writeBytes_below hi
  · rfl

theorem setIcmpv4Header_below (hok : setIcmpv4Header b p type code mtu echoId = .ok b') :
    ∀ i < p, b' i = b i := by
  unfold setIcmpv4Header at hok
  refine withEchoId_below (fun c hc i hi => ?_) hok
  split_ifs at hc with hmtu
  · obtain rfl := Except.ok.inj hc
    exact (writeBytes_below hi).trans (writeBytes_outside (.inl hi))
  · obtain rfl := Except.ok.inj hc
    exact writeBytes_outside (.inl hi)

theorem setIcmpv6Header_below (hok : setIcmpv6Header b p type code mtu echoId = .ok b') :
    ∀ i < p, b' i = b i := by
  unfold setIcmpv6Header at hok
  refine withEchoId_below (fun c hc i hi => ?_) hok
  split_ifs at hc with hmtu
  · obtain rfl := Except.ok.inj hc
    exact (writeBytes_below hi).trans (writeBytes_outside (.inl hi))
  · obtain rfl := Except.ok.inj hc
    exact writeBytes_outside (.inl hi)

/-- The ICMP header is added to the table, and nothing in front of it is written. -/
theorem setPacketIcmpHeader_eq_ok (ht : Table packet.toPacket hs) (hl2 : packet.l2HeaderBytes = 0)
    (h4 : packet.icmpv4 = none) (h6 : packet.icmpv6 = none)
    (hok : setPacketIcmpHeader packet p addressFamily n type code mtu echoId =
      .ok (.ok packet')) :
    ∃ b, (∀ i < p, b i = packet.buffer i) ∧ packet' = { packet with
      toPacket := { packet.toPacket.push
          ⟨icmpType addressFamily, ICMPV4_BYTES, n, some packet.ipBytes⟩ with
        buffer := b
        icmpv4 := if addressFamily = AF_INET then some p else none
        icmpv6 := if addressFamily = AF_INET then none else some p } } := by
  unfold setPacketIcmpHeader at hok
  dsimp only at hok
  split_ifs at hok with hinet hinet6
  · obtain ⟨-, -, hok⟩ := bind_eq_ok_iff.mp hok
    obtain ⟨middle, happend, hok⟩ := bind_eq_ok_iff.mp hok
    obtain rfl := appendHeaderTotal_eq_ok happend ⟨ht.le, ht.entries, ht.used⟩ hl2 rfl
    have hok := pure_eq_ok_iff.mp hok
    cases hset : setIcmpv4Header packet.buffer p type code mtu echoId with
    | error message => simp [Packet.push, hset, Except.map] at hok
    | ok b =>
      simp only [Packet.push, hset, Except.map, Except.ok.injEq] at hok
      refine ⟨b, setIcmpv4Header_below hset, ?_⟩
      simp [← hok, Packet.push, packetHeaderCount, icmpType, hinet, h6]
  · obtain ⟨-, -, hok⟩ := bind_eq_ok_iff.mp hok
    obtain ⟨middle, happend, hok⟩ := bind_eq_ok_iff.mp hok
    obtain rfl := appendHeaderTotal_eq_ok happend ⟨ht.le, ht.entries, ht.used⟩ hl2 rfl
    have hok := pure_eq_ok_iff.mp hok
    cases hset : setIcmpv6Header packet.buffer p type code mtu echoId with
    | error message => simp [Packet.push, hset, Except.map] at hok
    | ok b =>
      simp only [Packet.push, hset, Except.map, Except.ok.injEq] at hok
      refine ⟨b, setIcmpv6Header_below hset, ?_⟩
      simp [← hok, Packet.push, packetHeaderCount, icmpType, hinet, h4, ICMPV4_BYTES, ICMPV6_BYTES]

theorem liftFault_eq_ok_iff {α : Type} {call : Except Fault α} {a : α} :
    liftFault call = .ok a ↔ call = .ok a := by
  cases call <;> simp [liftFault, Except.mapError]

theorem packetEchoedTcpSeq_eq_ok {packet : Packet} {seq : Nat}
    (hok : packetEchoedTcpSeq packet = .ok seq) :
    ∃ layer4, packetEchoedLayer4Header packet = .ok layer4 ∧ seq = layer4 + 4 := by
  unfold packetEchoedTcpSeq packetEchoedTcpHeader at hok
  obtain ⟨tcp, htcp, hok⟩ := bind_eq_ok_iff.mp hok
  obtain ⟨protocol, -, htcp⟩ := bind_eq_ok_iff.mp htcp
  split_ifs at htcp
  · obtain ⟨layer4, hlayer4, htcp⟩ := bind_eq_ok_iff.mp htcp
    obtain rfl := pure_eq_ok_iff.mp htcp
    exact ⟨layer4, hlayer4, (pure_eq_ok_iff.mp (by simpa [ICMP_ECHO_BYTES] using hok)).symm⟩
  · obtain rfl := pure_eq_ok_iff.mp htcp
    cases hok

/-- The bytes that `set_ip_header` stores. -/
theorem setIpHeader_eq_ok {ipBytes : UInt16} {tos ttl protocol : UInt8} {flowLabel : UInt32}
    (hok : setIpHeader b p addressFamily ipBytes tos flowLabel ttl protocol = .ok b') :
    b' = writeBytes b p (ipHeader addressFamily ipBytes tos flowLabel ttl protocol) := by
  unfold setIpHeader at hok
  unfold ipHeader
  split_ifs at hok with hinet hinet6
  · rw [if_pos hinet]
    exact (Except.ok.inj hok).symm
  · rw [if_neg hinet]
    obtain ⟨-, -, hok⟩ := bind_eq_ok_iff.mp hok
    exact (pure_eq_ok_iff.mp hok).symm

section Echoed

variable {packet : Packet}

theorem IcmpAt.echoedIpHeader (hi : IcmpAt packet addressFamily p) :
    packetEchoedIpHeader packet = .ok (p + ICMPV4_BYTES) := by
  unfold packetEchoedIpHeader
  rw [hi.icmpv4, hi.icmpv6]
  split_ifs <;> rfl

theorem IcmpAt.echoedLayer4Header (hi : IcmpAt packet addressFamily p) :
    packetEchoedLayer4Header packet = .ok (p + ICMPV4_BYTES + ipHeaderBytes addressFamily) := by
  unfold packetEchoedLayer4Header packetEchoedIpHeaderLen ipHeaderBytes
  rw [hi.echoedIpHeader, hi.icmpv4, hi.icmpv6]
  split_ifs <;> rfl

theorem IcmpAt.echoedIpProtocol (hi : IcmpAt packet addressFamily p) :
    packetEchoedIpProtocol packet = .ok (if addressFamily = AF_INET then
      Ipv4.protocol packet.buffer (p + ICMPV4_BYTES)
      else Ipv6.nextHeader packet.buffer (p + ICMPV4_BYTES)) := by
  unfold packetEchoedIpProtocol
  rw [hi.icmpv4, hi.icmpv6]
  split_ifs <;> rfl

end Echoed

/-- The echoed header is of the protocol asked for, and nothing in front of it is written. -/
theorem setEchoedHeader_eq_ok (hi : IcmpAt packet.toPacket args.addressFamily p)
    (hechoes : args.Echoes) (hok : setEchoedHeader packet args n = .ok b) :
    (∀ i < p + ICMPV4_BYTES, b i = packet.buffer i) ∧
      packetEchoedIpProtocol { packet.toPacket with buffer := b } = .ok args.protocol.toNat := by
  unfold setEchoedHeader at hok
  obtain ⟨start, hstart, hok⟩ := bind_eq_ok_iff.mp hok
  obtain rfl := Except.ok.inj (hi.echoedIpHeader.symm.trans (liftFault_eq_ok_iff.mp hstart))
  obtain ⟨len, -, hok⟩ := bind_eq_ok_iff.mp hok
  obtain ⟨c, hset, hok⟩ := bind_eq_ok_iff.mp hok
  have hc := setIpHeader_eq_ok hset
  -- the sequence number stands behind the echoed IP header
  have hb : ∀ i < p + ICMPV4_BYTES + ipHeaderBytes args.addressFamily, b i = c i := by
    intro i hlt
    split_ifs at hok
    · obtain ⟨seq, hseq, hok⟩ := bind_eq_ok_iff.mp hok
      obtain ⟨layer4, hlayer4, rfl⟩ := packetEchoedTcpSeq_eq_ok (liftFault_eq_ok_iff.mp hseq)
      have hi' : IcmpAt { packet.toPacket with buffer := c } args.addressFamily p :=
        ⟨hi.icmpv4, hi.icmpv6⟩
      obtain rfl := Except.ok.inj (hi'.echoedLayer4Header.symm.trans hlayer4)
      obtain rfl := pure_eq_ok_iff.mp hok
      exact writeBytes_outside (by omega)
    · obtain rfl := pure_eq_ok_iff.mp hok
      rfl
  have hprotocol : (UInt8.ofNat args.protocol.toNat).toNat = args.protocol.toNat := by
    rcases hechoes with h | h <;> rw [h] <;> rfl
  refine ⟨fun i hlt => ?_, ?_⟩
  · rw [hb i (by omega), hc]
    exact writeBytes_outside (.inl hlt)
  · have hi' : IcmpAt { packet.toPacket with buffer := b } args.addressFamily p :=
      ⟨hi.icmpv4, hi.icmpv6⟩
    refine hi'.echoedIpProtocol.trans (congrArg Except.ok ?_)
    rw [← hprotocol]
    unfold ipHeaderBytes at hb
    unfold ipHeader at hc
    split_ifs at hb hc ⊢
    · have h9 := hb (p + ICMPV4_BYTES + 9) (by simp [IPV4_BYTES])
      simp only [Ipv4.protocol, u8At, h9, hc]
      rw [writeBytes_inside (by simp [IPV4_BYTES])]
      rfl
    · have h6 := hb (p + ICMPV4_BYTES + 6) (by simp [IPV6_BYTES])
      simp only [Ipv6.nextHeader, u8At, h6, hc]
      rw [writeBytes_inside (by simp [IPV6_BYTES])]
      rfl

theorem icmpHeaderLen_eq_ok (hok : icmpHeaderLen addressFamily = .ok n) : n = ICMPV4_BYTES := by
  unfold icmpHeaderLen at hok
  split_ifs at hok
  · exact (Except.ok.inj hok).symm
  · exact (Except.ok.inj hok).symm

theorem icmpProtocol_eq_ok (hok : icmpProtocol addressFamily = .ok n) :
    n = (icmpType addressFamily).ipProto := by
  unfold icmpProtocol at hok
  unfold icmpType
  split_ifs at hok ⊢
  · exact (Except.ok.inj hok).symm
  · exact (Except.ok.inj hok).symm

/-- Lengths that pass the checks agree with each other. -/
theorem lengths_spec {echoedBytes : Nat} {icmpBytes ipBytes : Int} (hn : n ≤ IPV6_BYTES)
    (heq : args.lengths n (n + 0) ICMPV4_BYTES = (echoedBytes, icmpBytes, ipBytes))
    (hmin : ¬ icmpBytes < ICMPV4_BYTES) (hpos : ¬ ipBytes < 0) :
    ipBytes = n + icmpBytes ∧ (echoedBytes ≠ 0 ↔ args.Echoes) ∧
      (args.Echoes → icmpBytes = ICMPV4_BYTES + n + ICMP_ECHO_BYTES) := by
  have h40 : n ≤ 40 := hn
  unfold IcmpArgs.lengths at heq
  simp only [ICMPV4_BYTES, ICMP_ECHO_BYTES] at heq hmin ⊢
  split_ifs at heq with hechoes hraw
  · simp only [Prod.mk.injEq] at heq
    obtain ⟨rfl, rfl, rfl⟩ := heq
    refine ⟨by omega, by simp [hechoes], fun _ => by omega⟩
  · simp only [Prod.mk.injEq, intOfU32] at heq
    obtain ⟨rfl, hicmp, hip⟩ := heq
    have := args.payloadBytes.toNat_lt
    refine ⟨?_, by simp [hechoes], fun h => absurd h hechoes⟩
    split_ifs at hicmp hip <;> omega
  · simp only [Prod.mk.injEq] at heq
    omega

/-- A call of `new_icmp_packet` that returns `packet`, with the lengths that it has computed. -/
structure IcmpCall (heap : Memory) (args : IcmpArgs) (packet : FullPacket)
    (echoedBytes : Nat) (icmpBytes ipBytes : Int) : Prop where
  family : args.addressFamily = AF_INET ∨ args.addressFamily = AF_INET6
  lengths : args.lengths (ipHeaderBytes args.addressFamily) (ipHeaderBytes args.addressFamily + 0)
    ICMPV4_BYTES = (echoedBytes, icmpBytes, ipBytes)
  message : ¬ icmpBytes < ICMPV4_BYTES
  total : ¬ ipBytes < 0
  steps : ∃ withIp start withIcmp, ∃ type code : Int,
    setPacketIpHeader (clearPacket heap ipBytes.toNat args.direction args.ipInfo.tos.check)
      args.addressFamily (UInt16.ofNat ipBytes.toNat) args.ipInfo.tos.value args.ipInfo.flowLabel
      args.ipInfo.ttl (UInt8.ofNat (icmpType args.addressFamily).ipProto) = .ok withIp ∧
    ipStart withIp.toPacket = .ok start ∧
    setPacketIcmpHeader withIp (start + (ipHeaderBytes args.addressFamily + 0)) args.addressFamily
      icmpBytes.toNat (UInt8.ofNat type.toNat) (UInt8.ofNat code.toNat) args.mtu
      (UInt16.ofNat args.echoId.toNat) = .ok (.ok withIcmp) ∧
    ∃ buffer,
      (if echoedBytes ≠ 0 then
        setEchoedHeader withIcmp args (ipHeaderBytes args.addressFamily) = .ok buffer
      else buffer = withIcmp.buffer) ∧
      packet = { withIcmp with
        buffer := buffer
        echoedHeader := decide (echoedBytes ≠ 0)
        ipBytes := ipBytes.toNat }

theorem icmpCall_of_newIcmpPacket {heap : Memory}
    (hok : newIcmpPacket heap args = .ok (.ok packet)) :
    ∃ echoedBytes icmpBytes ipBytes, IcmpCall heap args packet echoedBytes icmpBytes ipBytes := by
  unfold newIcmpPacket at hok
  obtain ⟨m, hmin, hok⟩ := bind_eq_ok_iff.mp hok
  obtain ⟨hfamily, rfl⟩ := ipHeaderMinLen_eq_ok_iff.mp hmin
  obtain ⟨l, hlen, hok⟩ := bind_eq_ok_iff.mp hok
  obtain rfl := icmpHeaderLen_eq_ok hlen
  obtain ⟨⟨echoedBytes, icmpBytes, ipBytes⟩, hlengths⟩ :
      ∃ lengths, args.lengths (ipHeaderBytes args.addressFamily)
        (ipHeaderBytes args.addressFamily + 0) ICMPV4_BYTES = lengths := ⟨_, rfl⟩
  dsimp only at hok
  rw [hlengths] at hok
  dsimp only at hok
  by_cases hecho : args.echoId < 0 ∨ args.echoId > 65535
  · rw [if_pos hecho] at hok
    cases hok
  rw [if_neg hecho, if_neg (by simp)] at hok
  obtain ⟨-, -, hok⟩ := bind_eq_ok_iff.mp hok
  by_cases hshort : icmpBytes < ICMPV4_BYTES
  · rw [if_pos hshort] at hok
    cases hok
  rw [if_neg hshort] at hok
  obtain ⟨parsed, -, hok⟩ := bind_eq_ok_iff.mp hok
  obtain message | ⟨type, code⟩ := parsed
  · cases hok
  obtain ⟨-, -, hok⟩ := bind_eq_ok_iff.mp hok
  obtain ⟨-, -, hok⟩ := bind_eq_ok_iff.mp hok
  by_cases hneg : ipBytes < 0
  · rw [if_pos hneg] at hok
    cases hok
  rw [if_neg hneg] at hok
  obtain ⟨protocol, hprotocol, hok⟩ := bind_eq_ok_iff.mp hok
  obtain rfl := icmpProtocol_eq_ok hprotocol
  obtain ⟨withIp, hset, hok⟩ := bind_eq_ok_iff.mp hok
  obtain ⟨start, hstart, hok⟩ := bind_eq_ok_iff.mp hok
  obtain ⟨result, hicmp, hlast⟩ := bind_eq_ok_iff.mp hok
  obtain message | withIcmp := result
  · cases hlast
  refine ⟨echoedBytes, icmpBytes, ipBytes, hfamily, hlengths, hshort, hneg, withIp, start, withIcmp,
    type, code, hset, hstart, hicmp, ?_⟩
  dsimp only at hlast
  by_cases hechoed : echoedBytes ≠ 0
  · rw [if_pos hechoed] at hlast
    obtain ⟨buffer, hbuffer, hlast⟩ := bind_eq_ok_iff.mp hlast
    refine ⟨buffer, (if_pos hechoed).mpr hbuffer, ?_⟩
    rw [← Except.ok.inj (pure_eq_ok_iff.mp hlast), decide_eq_true hechoed]
  · rw [if_neg hechoed] at hlast
    refine ⟨withIcmp.buffer, (if_neg hechoed).mpr rfl, ?_⟩
    rw [← Except.ok.inj (pure_eq_ok_iff.mp hlast), decide_eq_false hechoed]

theorem newIcmpPacket_built {heap : Memory} (hok : newIcmpPacket heap args = .ok (.ok packet)) :
    IcmpBuilt args packet := by
  obtain ⟨echoedBytes, icmpBytes, ipBytes, hfamily, hlengths, hshort, hneg, withIp, start, withIcmp,
    type, code, hset, hstart, hicmp, buffer, hbuffer, hpacket⟩ := icmpCall_of_newIcmpPacket hok
  obtain ⟨hsum, hechoed, hsize⟩ :=
    lengths_spec (by unfold ipHeaderBytes; split_ifs <;> decide) hlengths hshort hneg
  obtain ⟨k, rfl⟩ := Int.eq_ofNat_of_zero_le (not_lt.mp hneg)
  obtain ⟨j, rfl⟩ := Int.eq_ofNat_of_zero_le (a := icmpBytes) (by omega)
  simp only [Int.toNat_natCast] at hset hicmp hpacket
  have hfresh : Table (clearPacket heap k args.direction args.ipInfo.tos.check).toPacket [] :=
    Table.packetNew _ _
  obtain rfl := setPacketIpHeader_eq_ok hfresh rfl rfl rfl rfl hset
  obtain rfl : start = 0 := by
    unfold ipType at hstart
    split_ifs at hstart <;> exact (Except.ok.inj hstart).symm
  generalize hbytes : ipHeader args.addressFamily (UInt16.ofNat k) args.ipInfo.tos.value
    args.ipInfo.flowLabel args.ipInfo.ttl
    (UInt8.ofNat (icmpType args.addressFamily).ipProto) = bytes at hstart hicmp
  have hlength : bytes.length = ipHeaderBytes args.addressFamily := by
    rw [← hbytes, length_ipHeader]
  have hip : ipType args.addressFamily ≠ .none := by
    unfold ipType
    split <;> simp
  have hicmpType : icmpType args.addressFamily ≠ .none := by
    unfold icmpType
    split <;> simp
  have hone := hfresh.push (h := ⟨ipType args.addressFamily, bytes.length,
    (UInt16.ofNat k).toNat, some 0⟩) (by decide) hip
  obtain ⟨b, hb, hwith⟩ :=
    setPacketIcmpHeader_eq_ok ⟨hone.le, hone.entries, hone.used⟩ rfl rfl rfl hicmp
  have hcount : ((clearPacket heap k args.direction args.ipInfo.tos.check).withIpHeader
      (ipType args.addressFamily) bytes (UInt16.ofNat k).toNat).ipBytes =
      ipHeaderBytes args.addressFamily := (Nat.zero_add _).trans hlength
  rw [Nat.zero_add, Nat.add_zero] at hb hwith
  rw [hcount] at hwith
  have hi : IcmpAt withIcmp.toPacket args.addressFamily (ipHeaderBytes args.addressFamily) := by
    rw [hwith]
    exact ⟨rfl, rfl⟩
  obtain ⟨c, hc, hecho, rfl⟩ : ∃ c, (∀ i < ipHeaderBytes args.addressFamily, c i = b i) ∧
      (args.Echoes → packetEchoedIpProtocol { withIcmp.toPacket with buffer := c } =
        .ok args.protocol.toNat) ∧
      packet = { withIcmp with
        buffer := c, echoedHeader := decide args.Echoes, ipBytes := k } := by
    have hold : withIcmp.buffer = b := by rw [hwith]
    by_cases hechoes : args.Echoes
    · rw [if_pos (hechoed.mpr hechoes)] at hbuffer
      obtain ⟨hbelow, hprotocol⟩ := setEchoedHeader_eq_ok hi hechoes hbuffer
      refine ⟨buffer, fun i hlt => ?_, fun _ => hprotocol, ?_⟩
      · rw [← hold]
        exact hbelow i (by omega)
      · rw [hpacket, decide_eq_true hechoes, decide_eq_true (hechoed.mpr hechoes)]
    · rw [if_neg (mt hechoed.mp hechoes)] at hbuffer
      refine ⟨b, fun _ _ => rfl, fun h => absurd h hechoes, ?_⟩
      rw [hpacket, hbuffer, decide_eq_false hechoes, decide_eq_false (mt hechoed.mp hechoes), hold]
  subst hwith
  refine ⟨hfamily, ?_, ?_, ?_, ?_, ?_, ?_, ⟨hi.icmpv4, hi.icmpv6⟩, ⟨rfl, rfl⟩, by simp,
    fun h => ⟨?_, hecho h⟩⟩
  · simp only
    omega
  · rfl
  · have hu16 : (UInt16.ofNat k).toNat = k % 65536 := by simp
    have hj : k - ipHeaderBytes args.addressFamily = j := by omega
    rw [hj, ← hu16, ← hlength]
    exact table_of_pushes hfresh hip hicmpType rfl
  · intro i hlt
    rw [hbytes]
    have hin : writeBytes (clearPacket heap k args.direction args.ipInfo.tos.check).buffer 0 bytes
        (0 + i) = bytes.getD i 0 := writeBytes_inside (by omega)
    rw [Nat.zero_add] at hin
    exact (hc i hlt).trans ((hb i hlt).trans hin)
  · rcases hfamily with hfamily | hfamily <;>
      simp [FullPacket.withIpHeader, Packet.push, ipType, hfamily, AF_INET, AF_INET6]
  · rcases hfamily with hfamily | hfamily <;>
      simp [FullPacket.withIpHeader, Packet.push, ipType, hfamily, AF_INET, AF_INET6]
  · have := hsize h
    simp only
    omega

end Icmp

end QoSMos
