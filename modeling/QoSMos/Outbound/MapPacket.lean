import QoSMos.Flow.SetTuple
import QoSMos.Outbound.Socket

/-!
# Mapping packets between live and script space

`map_outbound_live_packet` rewrites a copy of a sniffed packet with the values of the script, and
remembers which timestamp of the script stands for which one of the kernel.
`map_inbound_packet` rewrites a packet of the script for the kernel, and its timestamp echo reply
with what was remembered.
-/

namespace QoSMos

open Returns

/-- `packet_copy` -/
def packetCopy (heap : Memory) (oldPacket : FullPacket) : Except Halt FullPacket :=
  packetCopyWithHeadroom heap oldPacket 0

/-- `socket_get_outbound` -/
def socketGetOutbound (socketState : SocketState) : Tuple :=
  ⟨socketState.localEndpoint, socketState.remoteEndpoint⟩

/-- `socket_get_inbound` -/
def socketGetInbound (socketState : SocketState) : Tuple :=
  ⟨socketState.remoteEndpoint, socketState.localEndpoint⟩

/-- `is_equal_ip` -/
def isEqualIp (a b : IpAddress) : Bool :=
  a.addressFamily = b.addressFamily &&
    a.bytes.take a.addressFamily.size = b.bytes.take a.addressFamily.size

/-! ## The fields of a timestamp option -/

/-- `get_unaligned_be32` -/
def getUnalignedBe32 (b : Memory) (p : Nat) : UInt32 := UInt32.ofNat (be32At b p)

/-- `put_unaligned_be32` -/
def putUnalignedBe32 (b : Memory) (p : Nat) (val : UInt32) : Memory :=
  writeBytes b p (be32 val.toNat)

/-- A pointer of a packet where `function` dereferences it. -/
def dereference (function expression : String) : Option Nat → Status Nat
  | some p => .ok p
  | none => .error (.halt (.undefined function expression))

/-- `packet_tcp_ts_val` -/
def packetTcpTsVal (packet : FullPacket) : Status UInt32 := do
  return getUnalignedBe32 packet.buffer
    (← dereference "packet_tcp_ts_val" "packet->tcp_ts_val" packet.tcpTsVal)

/-- `packet_tcp_ts_ecr` -/
def packetTcpTsEcr (packet : FullPacket) : Status UInt32 := do
  return getUnalignedBe32 packet.buffer
    (← dereference "packet_tcp_ts_ecr" "packet->tcp_ts_ecr" packet.tcpTsEcr)

/-- `packet_set_tcp_ts_val` -/
def packetSetTcpTsVal (packet : FullPacket) (tsVal : UInt32) : Status FullPacket := do
  let p ← dereference "packet_set_tcp_ts_val" "packet->tcp_ts_val" packet.tcpTsVal
  return { packet with buffer := putUnalignedBe32 packet.buffer p tsVal }

/-! ## Outbound packets -/

section Outbound

variable (hashKey : UInt32 → UInt32)

/-- `set_outbound_ts_val_mapping` -/
def setOutboundTsValMapping (socket : Socket) (scriptTimestamp liveTimestamp : UInt32) : Socket :=
  { socket with tsValMap := hashMapSet hashKey socket.tsValMap scriptTimestamp liveTimestamp }

/-- `get_outbound_ts_val_mapping` -/
def getOutboundTsValMapping (socket : Socket) (scriptTimestamp : UInt32) : Option UInt32 :=
  hashMapGet hashKey socket.tsValMap scriptTimestamp

/-- The packets and the socket that `map_outbound_live_packet` leaves. -/
structure OutboundMapping where
  socket : Socket
  actual : FullPacket
  script : FullPacket

/-- The assertions of `map_outbound_live_packet` about the addresses of the live packet. -/
def assertOutbound (socket : Socket) (live : FullPacket) : Status Unit := do
  let function := "map_outbound_live_packet"
  let livePacketTuple ← halting (ofFault (getPacketTuple live.toPacket))
  let liveOutbound := socketGetOutbound socket.live
  if socket.protocol = IPPROTO_ICMP ∨ socket.protocol = IPPROTO_ICMPV6 then
    halting (require (isEqualIp livePacketTuple.src.ip liveOutbound.src.ip ∧
        isEqualIp livePacketTuple.dst.ip liveOutbound.dst.ip) function
      ("is_equal_ip(&live_packet_tuple.src.ip, &live_outbound.src.ip) && " ++
        "is_equal_ip(&live_packet_tuple.dst.ip, &live_outbound.dst.ip)"))
  else
    halting (require (livePacketTuple = liveOutbound) function
      "is_equal_tuple(&live_packet_tuple, &live_outbound)")

/-- The baseline of a socket, which its first pair of timestamps sets. -/
def findBaseline (socket : Socket) (scriptTsVal actualTsVal scriptTsEcr actualTsEcr : UInt32) :
    Socket :=
  if socket.foundFirstTcpTs then socket
  else { socket with
    foundFirstTcpTs := true
    firstScriptTsVal := scriptTsVal
    firstActualTsVal := actualTsVal
    firstScriptTsEcr := scriptTsEcr
    firstActualTsEcr := actualTsEcr }

/-- The part of `map_outbound_live_packet` behind the searches for the timestamps. -/
def mapTimestamps (socket : Socket) (actual script : FullPacket) : Status OutboundMapping :=
  if script.tcpTsVal ≠ none ∧ actual.tcpTsVal ≠ none then do
    let scriptTsVal ← packetTcpTsVal script
    let actualTsVal ← packetTcpTsVal actual
    let scriptTsEcr ← packetTcpTsEcr script
    let actualTsEcr ← packetTcpTsEcr actual
    let socket := setOutboundTsValMapping hashKey socket scriptTsVal actualTsVal
    let socket := findBaseline socket scriptTsVal actualTsVal scriptTsEcr actualTsEcr
    let actual ← packetSetTcpTsVal actual
      (socket.firstScriptTsVal + (actualTsVal - socket.firstActualTsVal))
    return ⟨socket, actual, script⟩
  else return ⟨socket, actual, script⟩

/-- `map_outbound_live_packet`. Where it returns an error it has not changed the socket. -/
def mapOutboundLivePacket (socket : Socket) (live actual script : FullPacket) :
    Status OutboundMapping := do
  assertOutbound socket live
  let actual ← halting (ofFault (setPacketTuple actual (socketGetOutbound socket.script)))
  if live.tcp = none then return ⟨socket, actual, script⟩
  else do
    let script ← findTcpTimestamp script
    let actual ← findTcpTimestamp actual
    mapTimestamps hashKey socket actual script

/-- The socket after a call that did not halt. -/
def socketAfter (socket : Socket) : Status OutboundMapping → Socket
  | .ok mapping => mapping.socket
  | .error _ => socket

end Outbound

/-! ## Inbound packets -/

/-- The packet that a function leaves, and how it ends. -/
abbrev Mapped := FullPacket × Status Unit

/-- The ports of the TCP or UDP header, zero if there is none. -/
def presetPorts (packet : FullPacket) : Nat × Nat :=
  match packet.tcp.or packet.udp with
  | some q => (Ports.src packet.buffer q, Ports.dst packet.buffer q)
  | none => (0, 0)

def restorePort (b : Memory) (p port : Nat) : Memory :=
  if port ≠ 0 then writeBytes b p (be16 port) else b

/-- Write the ports that are not zero. -/
def restorePorts (packet : FullPacket) (ports : Nat × Nat) : FullPacket :=
  match packet.tcp.or packet.udp with
  | some q =>
    { packet with buffer := restorePort (restorePort packet.buffer q ports.1) (q + 2) ports.2 }
  | none => packet

/-- The live addresses and ports, where the script does not preset a port. -/
def setInboundTuple (socket : Socket) (live : FullPacket) : Except Fault FullPacket := do
  let ports := presetPorts live
  let live ← setPacketTuple live (socketGetInbound socket.live)
  return restorePorts live ports

/-- `map_inbound_icmp_tcp_packet` -/
def mapInboundIcmpTcpPacket (socket : Socket) (live : FullPacket) : Except Fault FullPacket := do
  let seq ← packetEchoedTcpSeq live.toPacket
  let seqOffset := localSeqScriptToLiveOffset socket false
  let value := (be32At live.buffer seq + seqOffset) % 4294967296
  return { live with buffer := writeBytes live.buffer seq (be32 value) }

/-- `map_inbound_icmp_packet`, which has no error of its own. -/
def mapInboundIcmpPacket (socket : Socket) (live : FullPacket) : Except Fault FullPacket := do
  if live.echoedHeader then
    let protocol ← packetEchoedIpProtocol live.toPacket
    if protocol = IPPROTO_TCP then mapInboundIcmpTcpPacket socket live
    else if protocol = IPPROTO_UDP then return live
    else .error (.assertionFailed "map_inbound_icmp_packet"
      "!\"unsupported layer 4 protocol echoed in ICMP packet\"")
  else return live

/-- `visitOptions` with what it leaves, also where it fails. -/
def leaveOptions {σ : Type} (buffer : σ → Memory) (visit : Nat → σ → Status σ)
    (optionsEnd : Nat) : Nat → Nat → σ → σ × Status Unit
  | 0, _, s => (s, .ok ())
  | n + 1, option, s =>
    if option < optionsEnd then
      match visit option s with
      | .error failure => (s, .error failure)
      | .ok s =>
        match tcpOptionsNext (buffer s) option optionsEnd with
        | .error failure => (s, .error failure)
        | .ok next => leaveOptions buffer visit optionsEnd n next s
    else (s, .ok ())

/-- `offset_sack_blocks` with the packet that it leaves. Where an option is bad, the blocks in
front of it have been offset. -/
def leaveSackBlocks (packet : FullPacket) (ackOffset : Nat) : Mapped :=
  match packet.tcp, packetPayload packet.toPacket with
  | some tcp, .ok optionsEnd =>
    let options := tcp + TCP_BYTES
    let (b, status) := leaveOptions id (offsetSackOption packet.bufferBytes ackOffset) optionsEnd
      (optionsEnd - options) options packet.buffer
    if options ≤ optionsEnd then ({ packet with buffer := b }, status)
    else (packet, halting (require (options ≤ optionsEnd) "get_current_option"
      "iter->current_option <= iter->options_end"))
  | none, _ => (packet, .error (.halt (.fault (.assertionFailed "packet_tcp_options"
      "packet->tcp"))))
  | some _, .error fault => (packet, .error (.halt (.fault fault)))

/-- `config->tcp_ts_ecr_scaled` -/
structure TsConfig where
  tcpTsEcrScaled : Bool

section Inbound

variable (hashKey : UInt32 → UInt32)

/-- The live value of an echo reply of the script. -/
def liveTsEcr (config : TsConfig) (socket : Socket) (tsEcr : UInt32) : Status UInt32 :=
  match getOutboundTsValMapping hashKey socket tsEcr with
  | some liveTsEcr => .ok liveTsEcr
  | none =>
    if config.tcpTsEcrScaled ∧ socket.foundFirstTcpTs then
      .ok (tsEcr - socket.firstScriptTsVal + socket.firstActualTsVal)
    else .error (.error ("unable to infer live TS ecr for " ++ s!"script TS ecr {tsEcr};  " ++
      "no matching or preceding outound TS val"))

/-- The part of `map_inbound_packet` that remaps the echo reply. -/
def remapTsEcr (config : TsConfig) (socket : Socket) (live : FullPacket) (tcp : Nat) : Mapped :=
  match Tcp.ack live.buffer tcp, live.tcpTsEcr with
  | true, some p =>
    match liveTsEcr hashKey config socket (getUnalignedBe32 live.buffer p) with
    | .ok tsEcr => ({ live with buffer := putUnalignedBe32 live.buffer p tsEcr }, .ok ())
    | .error failure => (live, .error failure)
  | _, _ => (live, .ok ())

/-- The part of `map_inbound_packet` for a packet with its TCP header at `tcp`. -/
def mapInboundTcpPacket (config : TsConfig) (socket : Socket) (live : FullPacket) (tcp : Nat) :
    Mapped :=
  let isSyn := Tcp.syn live.buffer tcp
  let b := offsetSeq live.buffer tcp (remoteSeqScriptToLiveOffset socket isSyn)
  let ackOffset := localSeqScriptToLiveOffset socket isSyn
  match leaveSackBlocks { live with buffer := offsetAckSeq b tcp ackOffset } ackOffset with
  | (live, .error failure) => (live, .error failure)
  | (live, .ok ()) =>
    match findTcpTimestamp live with
    | .error failure => (live, .error failure)
    | .ok live => remapTsEcr hashKey config socket live tcp

/-- `map_inbound_packet` -/
def mapInboundPacket (config : TsConfig) (socket : Socket) (live : FullPacket) : Mapped :=
  match setInboundTuple socket live with
  | .error fault => (live, .error (.halt (.fault fault)))
  | .ok live =>
    if live.icmpv4 ≠ none ∨ live.icmpv6 ≠ none then
      match mapInboundIcmpPacket socket live with
      | .error fault => (live, .error (.halt (.fault fault)))
      | .ok live => (live, .ok ())
    else
      match live.tcp with
      | none => (live, .ok ())
      | some tcp => mapInboundTcpPacket hashKey config socket live tcp

end Inbound

end QoSMos
