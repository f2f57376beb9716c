import QoSMos.Outbound.FindSocket
import QoSMos.Outbound.Sniff
import QoSMos.Outbound.VerifyPacket

/-!
# Packet events

`run_packet_event` finds or makes the socket of a packet of the script. For an outbound packet,
`do_outbound_script_packet` sniffs until the payload is complete and compares what it has got. For
an inbound one, `do_inbound_script_packet` maps a copy to live values and injects it. On the way the
socket learns addresses and initial sequence numbers, from the script and from the kernel.
-/

namespace QoSMos

open Returns

/-! ## The socket under test -/

/-- `struct socket` -/
structure EventSocket extends TrackedSocket where
  liveLocalIsn : Nat
  tsValMap : HashMap
  foundFirstTcpTs : Bool
  firstScriptTsVal : UInt32
  firstActualTsVal : UInt32
  firstScriptTsEcr : UInt32
  firstActualTsEcr : UInt32
  lastOutboundTcpHeader : List UInt8
  lastInjectedTcpHeader : List UInt8
  lastInjectedTcpPayloadLen : Nat
  flowlabelMap : FlowlabelMap

/-- `struct endpoint` of zeros, as far as it is copied into a packet. -/
def zeroEndpoint : Endpoint := ⟨⟨.inet, List.replicate 16 0⟩, 0⟩

namespace EventSocket

/-- The socket that `socket_new` allocates. -/
def new : EventSocket where
  toTrackedSocket := .new
  liveLocalIsn := 0
  tsValMap := hashMapNew 1
  foundFirstTcpTs := false
  firstScriptTsVal := 0
  firstActualTsVal := 0
  firstScriptTsEcr := 0
  firstActualTsEcr := 0
  lastOutboundTcpHeader := List.replicate TCP_BYTES 0
  lastInjectedTcpHeader := List.replicate TCP_BYTES 0
  lastInjectedTcpPayloadLen := 0
  flowlabelMap := ⟨0, 0⟩

/-- What the translation between the two spaces uses of a socket. -/
def toSocket (socket : EventSocket) : Socket where
  state := socket.state
  protocol := socket.protocol.toNat
  script := ⟨socket.script.localEnd.getD zeroEndpoint, socket.scriptLocalIsn,
    socket.script.remoteEnd.getD zeroEndpoint, socket.scriptRemoteIsn⟩
  live := ⟨socket.live.localEnd.getD zeroEndpoint, socket.liveLocalIsn,
    socket.live.remoteEnd.getD zeroEndpoint, socket.liveRemoteIsn⟩
  tsValMap := socket.tsValMap
  foundFirstTcpTs := socket.foundFirstTcpTs
  firstScriptTsVal := socket.firstScriptTsVal
  firstActualTsVal := socket.firstActualTsVal
  firstScriptTsEcr := socket.firstScriptTsEcr
  firstActualTsEcr := socket.firstActualTsEcr
  lastOutboundTcpHeader := socket.lastOutboundTcpHeader

/-- The socket with what the translation has changed. -/
def update (socket : EventSocket) (changed : Socket) : EventSocket :=
  { socket with
    state := changed.state
    scriptLocalIsn := changed.script.localIsn
    liveLocalIsn := changed.live.localIsn
    tsValMap := changed.tsValMap
    foundFirstTcpTs := changed.foundFirstTcpTs
    firstScriptTsVal := changed.firstScriptTsVal
    firstActualTsVal := changed.firstActualTsVal
    firstScriptTsEcr := changed.firstScriptTsEcr
    firstActualTsEcr := changed.firstActualTsEcr
    lastOutboundTcpHeader := changed.lastOutboundTcpHeader }

end EventSocket

/-! ## Sniffed packets -/

/-- The tuple between two endpoints, unless one of them was reset: its address family is then not
that of any packet. -/
def tupleBetween (src dst : Option Endpoint) : Option Tuple := do
  return ⟨← src, ← dst⟩

/-- `is_icmp` of the two functions that look for the socket of a live packet. -/
def isIcmpOf (socket : EventSocket) (packet : Packet) : Bool :=
  (socket.protocol = IPPROTO_ICMP && packet.icmpv4.isSome) ||
    (socket.protocol = IPPROTO_ICMPV6 && packet.icmpv6.isSome)

/-- The tuple of a live packet is this one, or its addresses are for a socket for ICMP. -/
def isTupleOf (isIcmp : Bool) (packetTuple : Tuple) (tuple : Option Tuple) : Bool :=
  tuple.any fun t => decide (packetTuple = t) ||
    (isIcmp && isEqualIp packetTuple.dst.ip t.dst.ip && isEqualIp packetTuple.src.ip t.src.ip)

/-- `find_socket_for_live_packet`, for the socket under test: the direction of the packet if it is
one of the socket. -/
def findSocketForLivePacket (socket : EventSocket) (packet : Packet) :
    Except Fault (Option Direction) := do
  let isIcmp := isIcmpOf socket packet
  let packetTuple ← getPacketTuple packet
  if isTupleOf isIcmp packetTuple (tupleBetween socket.live.remoteEnd socket.live.localEnd) then
    return some .inbound
  else if isTupleOf isIcmp packetTuple
      (tupleBetween socket.live.localEnd socket.live.remoteEnd) then
    return some .outbound
  else return none

/-- A SYN without ACK. -/
def isSyn (packet : Packet) : Bool :=
  match packet.tcp with
  | some tcp => Tcp.syn packet.buffer tcp && !Tcp.ack packet.buffer tcp
  | none => false

/-- The live remote address, and for TCP and UDP its port, is where a packet goes to. -/
def isToRemote (socket : EventSocket) (isIcmp : Bool) (packetTuple : Tuple) : Bool :=
  socket.live.remoteEnd.any fun remote => isEqualIp packetTuple.dst.ip remote.ip &&
    (isIcmp || decide (packetTuple.dst.port = remote.port))

/-- `find_connect_for_live_packet`: the socket with what it learns from the packet. -/
def findConnectForLivePacket (socket : EventSocket) (packet : Packet) :
    Except Fault (Option EventSocket) := do
  let packetTuple ← getPacketTuple packet
  let isUdpMatch := packet.udp.isSome && socket.protocol = IPPROTO_UDP &&
    socket.state = .activeConnecting
  let isIcmpMatch := isIcmpOf socket packet && socket.state = .activeConnecting
  let isTcpMatch := isSyn packet && socket.protocol = IPPROTO_TCP && socket.state = .activeSynSent
  if (isUdpMatch || isTcpMatch || isIcmpMatch) && isToRemote socket isIcmpMatch packetTuple then
    return some { socket with
      live := { socket.live with localEnd := some packetTuple.src }
      liveLocalIsn := match packet.tcp with
        | some tcp => Tcp.seq packet.buffer tcp
        | none => socket.liveLocalIsn }
  else return none

/-- What `sniff_outbound_live_packet` makes of a packet: it goes on to the next one, or the packet
is one of the socket under test, which is always the socket that is expected. -/
def sniffOutboundLivePacket (socket : EventSocket) (packet : Packet) :
    Except Fault (Option EventSocket) := do
  if (← findSocketForLivePacket socket packet) = some .outbound then return some socket
  else findConnectForLivePacket socket packet

/-! ## The events -/

/-- `struct config` -/
structure EventConfig where
  lookup : LookupConfig
  verify : VerifyConfig
  tcpTsEcrScaled : Bool
  strictSegments : Bool
  isAnyip : Bool

/-- `struct state`, with the fields that packet events read or set. -/
structure EventState where
  config : EventConfig
  socketUnderTest : Option EventSocket
  nextEphemeralPort : Option UInt16
  scriptStartTimeUsecs : Int
  liveStartTimeUsecs : Int

/-- What an event runs on: how the platform prints, the hash function, and the bytes that `malloc`
returns. -/
structure EventPlatform where
  printing : Printing
  hashKey : UInt32 → UInt32
  heap : Memory

/-- A packet event, with what the world does meanwhile: the port that it would give, the packets
that `netdev_receive` returns, and whether `netdev_send` succeeds. -/
structure PacketEvent where
  lineNumber : Nat
  event : Event
  packet : FullPacket
  ephemeralPort : UInt16
  received : List (Status FullPacket)
  sends : Bool

/-- What an event that was run leaves: its status is `STATUS_OK` or `STATUS_WARN`. -/
structure EventDone where
  socket : EventSocket
  warning : Option String
  injected : Option FullPacket

def EventState.lookup (state : EventState) : LookupState :=
  ⟨state.config.lookup, state.socketUnderTest.map EventSocket.toTrackedSocket,
    state.nextEphemeralPort⟩

def EventState.verify (state : EventState) (event : Event) : VerifyState :=
  ⟨state.config.verify, event, state.scriptStartTimeUsecs, state.liveStartTimeUsecs⟩

def EventConfig.segments (config : EventConfig) : SegmentConfig :=
  ⟨config.strictSegments, config.lookup.isWireServer⟩

/-- The loop of `do_outbound_script_packet` with that of `sniff_outbound_live_packet` in it; `none`
if it waits for another packet. -/
def outboundLoop (config : SegmentConfig) (script : FullPacket) (expectedPayloadLen : Int) :
    List (Status FullPacket) → EventSocket → Sniffing → Status (Option (EventSocket × Sniffing))
  | [], _, _ => .ok none
  | result :: results, socket, s => do
    let packet ← result
    match ← halting (ofFault (sniffOutboundLivePacket socket packet.toPacket)) with
    | none => outboundLoop config script expectedPayloadLen results socket s
    | some socket =>
      let s ← sniffTurn script expectedPayloadLen { s with socket := socket.toSocket }
        ⟨packet, id⟩
      let socket := socket.update s.socket
      if s.sniffedPayloadLen < expectedPayloadLen ∧
          (¬ config.strictSegments ∨ config.isWireServer) then
        outboundLoop config script expectedPayloadLen results socket s
      else return some (socket, s)

/-- The message of a verdict; `asprintf` prints `NULL` so. -/
def Verdict.message (verdict : Verdict) : String := verdict.error.getD "(null)"

/-- The part of `do_outbound_script_packet` behind the loop. -/
def concludeOutbound (platform : EventPlatform) (verify : VerifyState) (script : FullPacket)
    (expectedPayloadLen : Int) (socket : EventSocket) (s : Sniffing) : Status EventDone := do
  check (s.sniffedPayloadLen = expectedPayloadLen)
    (s!"live packet payload: expected {expectedPayloadLen} bytes vs " ++
      s!"actual {s.sniffedPayloadLen} bytes")
  let live ← halting (collectedPacket platform.heap s)
  let verdict ← halting (verifyOutboundLivePacket platform.printing platform.hashKey platform.heap
    verify socket.toSocket socket.flowlabelMap script live)
  let socket := { socket.update verdict.socket with flowlabelMap := verdict.flowlabelMap }
  match verdict.status with
  | .ok => return ⟨socket, none, none⟩
  | .warn => return ⟨socket, some verdict.message, none⟩
  | .err => .error (.error verdict.message)

/-- `do_outbound_script_packet`; `none` if it waits for another packet. -/
def doOutboundScriptPacket (platform : EventPlatform) (config : SegmentConfig)
    (verify : VerifyState) (socket : EventSocket) (script : FullPacket)
    (received : List (Status FullPacket)) : Status (Option EventDone) := do
  let expectedPayloadLen ← halting (ofFault (packetPayloadLen script.toPacket))
  let socket := socket.update (rememberScriptIsn socket.toSocket script)
  match ← outboundLoop config script expectedPayloadLen received socket
      ⟨socket.toSocket, [], 0, 0⟩ with
  | none => return none
  | some (socket, s) =>
    return some (← concludeOutbound platform verify script expectedPayloadLen socket s)

/-- The first statements of `do_inbound_script_packet`, for a packet with its TCP header at
`tcp`. -/
def receiveHandshake (socket : EventSocket) (b : Memory) (tcp : Nat) : EventSocket :=
  if socket.state = .passiveSynackSent ∧ Tcp.ack b tcp then
    { socket with state := .passiveSynackAcked }
  else if socket.state = .activeSynSent ∧ Tcp.syn b tcp ∧ Tcp.ack b tcp then
    { socket with
      state := .activeSynAcked
      scriptRemoteIsn := Tcp.seq b tcp
      liveRemoteIsn := Tcp.seq b tcp }
  else socket

/-- The port of a live endpoint, or the configured one where it is zero. -/
def anyipEndpoint (old : Option Endpoint) (ip : IpAddress) (port : UInt16) : Endpoint :=
  match old with
  | some e => ⟨ip, if e.port = 0 then port.toNat else e.port⟩
  | none => ⟨ip, port.toNat⟩

/-- The addresses for a test without a packet sent before. -/
def fillAnyip (config : EventConfig) (socket : EventSocket) (packet : Packet) : EventSocket :=
  if config.isAnyip && (packet.udp.isSome || packet.icmpv4.isSome || packet.icmpv6.isSome) then
    { socket with live := ⟨
      some (anyipEndpoint socket.live.localEnd config.lookup.liveLocalIp
        config.lookup.liveBindPort),
      some (anyipEndpoint socket.live.remoteEnd config.lookup.liveRemoteIp
        config.lookup.liveConnectPort)⟩ }
  else socket

/-- `send_live_ip_packet` up to the call of `netdev_send` -/
def sendLiveIpPacket (packet : FullPacket) : Except Halt FullPacket := do
  let function := "send_live_ip_packet"
  require (packet.ipBytes > 0) function "packet->ip_bytes > 0"
  require (packet.ipv4 ≠ none ∨ packet.ipv6 ≠ none) function "packet->ipv4 || packet->ipv6"
  require (packet.tcp ≠ none ∨ packet.udp ≠ none ∨ packet.icmpv4 ≠ none ∨ packet.icmpv6 ≠ none)
    function "packet->tcp || packet->udp || packet->icmpv4 || packet->icmpv6"
  return { packet with toPacket := ← checksumPacket packet.toPacket }

/-- Save the TCP header of the packet that is about to be injected. -/
def saveInjected (socket : EventSocket) (live : FullPacket) : Except Fault EventSocket :=
  match live.tcp with
  | some tcp => do
    let len ← packetPayloadLen live.toPacket
    return { socket with
      lastInjectedTcpHeader := readBytes live.buffer tcp TCP_BYTES
      lastInjectedTcpPayloadLen := u32 len }
  | none => .ok socket

/-- `do_inbound_script_packet` -/
def doInboundScriptPacket (platform : EventPlatform) (config : EventConfig) (socket : EventSocket)
    (packet : FullPacket) (sends : Bool) : Status EventDone := do
  let socket := match packet.tcp with
    | some tcp => receiveHandshake socket packet.buffer tcp
    | none => socket
  let socket := fillAnyip config socket packet.toPacket
  let live ← halting (packetCopy platform.heap packet)
  let (live, status) := mapInboundPacket platform.hashKey ⟨config.tcpTsEcrScaled⟩ socket.toSocket
    live
  status
  let socket ← halting (ofFault (saveInjected socket live))
  let live ← halting (sendLiveIpPacket live)
  check sends "(null)"
  return ⟨socket, none, some live⟩

/-- The message that `run_packet_event` makes of another one. -/
def packetMessage (scriptPath : String) (lineNumber : Nat) (type err : String) : String :=
  s!"{scriptPath}:{lineNumber}: {type} handling packet: {err}" ++ "\n"

/-- What `run_packet_event` makes of an error. -/
def reportEvent {α : Type} (message : String → String) : Status α → Status α
  | .error (.error err) => .error (.error (message err))
  | status => status

/-- The socket that `socket_new` makes for the packet, or the one under test. -/
def EventState.eventSocket (state : EventState) (packet : FullPacket) : EventSocket :=
  match state.socketUnderTest with
  | none => .new
  | some socket =>
    if packet.tcp.isSome && listenMatches state.lookup packet.direction then .new else socket

/-- `run_packet_event`, without waiting for the time of an inbound event; `none` if it waits for
another packet. -/
def runPacketEvent (platform : EventPlatform) (state : EventState) (e : PacketEvent) :
    Status (Option (EventState × EventDone)) := do
  let (lookup, tracked) ← runPacketEventSocket e.ephemeralPort e.lineNumber state.lookup e.packet
  let socket := { state.eventSocket e.packet with toTrackedSocket := tracked }
  let config := state.config
  let message := packetMessage config.lookup.scriptPath e.lineNumber
  let finish (done : EventDone) : EventState × EventDone :=
    ({ state with
      socketUnderTest := some done.socket
      nextEphemeralPort := lookup.nextEphemeralPort },
      { done with warning := done.warning.map (message "warning") })
  let report {α : Type} : Status α → Status α := reportEvent (message "error")
  match e.packet.direction with
  | .outbound =>
    return (← report (doOutboundScriptPacket platform config.segments (state.verify e.event) socket
      e.packet e.received)).map finish
  | .inbound =>
    return some (finish (← report (doInboundScriptPacket platform config socket e.packet e.sends)))
  | .invalid => .error (.halt (.fault (.assertionFailed "run_packet_event" "!\"bad direction\"")))

end QoSMos
