import QoSMos.Outbound.Aggregate
import QoSMos.Outbound.Socket

/-!
# Sniffing the packets of a script packet

The loop of `do_outbound_script_packet` collects sniffed packets until their payloads are as
long as that of the script packet. The sniffed packets are given one by one, each with what
`sniff_outbound_live_packet` does to the socket, which may learn the addresses and the initial
sequence number of the connection from the packet.
-/

namespace QoSMos

open Returns

/-- A call of `sniff_outbound_live_packet`: the packet and what the socket learns from it. -/
structure Sniff where
  packet : FullPacket
  learn : Socket → Socket

/-- The fields of `struct config` that the loop reads. -/
structure SegmentConfig where
  strictSegments : Bool
  isWireServer : Bool

/-- The variables of the loop. The list is that of `sniffed_packets_start`. -/
structure Sniffing where
  socket : Socket
  packets : List FullPacket
  packetCount : Int
  sniffedPayloadLen : Int

/-- The sum of two values of type `int`. -/
def addInt (function : String) (x y : Int) : Status Int :=
  if -2147483648 ≤ x + y ∧ x + y ≤ 2147483647 then .ok (x + y)
  else .error (.halt (.undefined function "+"))

/-- `packet->tcp && packet->tcp->syn && packet->tcp->ack` -/
def isSynack (packet : FullPacket) : Bool :=
  match packet.tcp with
  | some tcp => Tcp.syn packet.buffer tcp && Tcp.ack packet.buffer tcp
  | none => false

/-- The script says that an outbound SYNACK is to be seen. -/
def expectsSynack (socket : Socket) (script : FullPacket) : Bool :=
  socket.state = .passivePacketReceived && isSynack script

/-- The statements before the loop. -/
def rememberScriptIsn (socket : Socket) (script : FullPacket) : Socket :=
  match script.tcp with
  | some tcp =>
    if expectsSynack socket script then
      { socket with script := { socket.script with localIsn := Tcp.seq script.buffer tcp } }
    else socket
  | none => socket

/-- Learn the live sequence number of an outbound SYNACK. -/
def rememberLiveIsn (socket : Socket) (script live : FullPacket) : Status Socket :=
  if expectsSynack socket script then
    match live.tcp with
    | some tcp => .ok { socket with
        state := .passiveSynackSent
        live := { socket.live with localIsn := Tcp.seq live.buffer tcp } }
    | none => .error (.halt (.undefined "do_outbound_script_packet" "live_packet->tcp->seq"))
  else .ok socket

/-- Save the TCP header of a sniffed packet and convert its sequence numbers. -/
def convertLivePacket (socket : Socket) (live : FullPacket) : Status (Socket × FullPacket) :=
  match live.tcp with
  | some tcp => do
    let socket := { socket with lastOutboundTcpHeader := readBytes live.buffer tcp TCP_BYTES }
    return (socket, ← tcpConvertSeqNumber socket live)
  | none => .ok (socket, live)

/-- Put a packet at the end of the list, or start a new list with it. -/
def appendSniffed (expectedPayloadLen livePayload : Int) (s : Sniffing) (sniffed : FullPacket) :
    Status Sniffing :=
  match s.packets.getLast? with
  | none => .ok { s with packets := [sniffed] }
  | some sniffedPacketsEnd => do
    let oldPacketTuple ← halting (ofFault (getPacketTuple sniffedPacketsEnd.toPacket))
    let newPacketTuple ← halting (ofFault (getPacketTuple sniffed.toPacket))
    if oldPacketTuple ≠ newPacketTuple then
      return { s with packets := [sniffed], packetCount := 0, sniffedPayloadLen := 0 }
    else
      verifyPacketFragments sniffed sniffedPacketsEnd livePayload s.sniffedPayloadLen
        expectedPayloadLen
      return { s with packets := s.packets ++ [sniffed] }

/-- A turn of the loop. -/
def sniffTurn (script : FullPacket) (expectedPayloadLen : Int) (s : Sniffing) (sniff : Sniff) :
    Status Sniffing := do
  let function := "do_outbound_script_packet"
  let livePayload ← halting (ofFault (packetPayloadLen sniff.packet.toPacket))
  let socket ← rememberLiveIsn (sniff.learn s.socket) script sniff.packet
  let (socket, sniffed) ← convertLivePacket socket sniff.packet
  let s ← appendSniffed expectedPayloadLen livePayload { s with socket } sniffed
  let packetCount ← addInt function s.packetCount 1
  let sniffedPayloadLen ← addInt function s.sniffedPayloadLen livePayload
  return { s with packetCount, sniffedPayloadLen }

/-- The loop over the results of `sniff_outbound_live_packet`; `none` if it waits for another
one. -/
def sniffLoop (config : SegmentConfig) (script : FullPacket) (expectedPayloadLen : Int) :
    List (Status Sniff) → Sniffing → Status (Option Sniffing)
  | [], _ => .ok none
  | result :: results, s => do
    let sniff ← result
    let s ← sniffTurn script expectedPayloadLen s sniff
    if s.sniffedPayloadLen < expectedPayloadLen ∧
        (¬ config.strictSegments ∨ config.isWireServer) then
      sniffLoop config script expectedPayloadLen results s
    else return some s

/-- `do_outbound_script_packet` up to the check of the payload size. -/
def sniffFragments (config : SegmentConfig) (socket : Socket) (script : FullPacket)
    (results : List (Status Sniff)) : Status (Option Sniffing) := do
  let expectedPayloadLen ← halting (ofFault (packetPayloadLen script.toPacket))
  let socket := rememberScriptIsn socket script
  match ← sniffLoop config script expectedPayloadLen results ⟨socket, [], 0, 0⟩ with
  | none => return none
  | some s => do
    check (s.sniffedPayloadLen = expectedPayloadLen)
      (s!"live packet payload: expected {expectedPayloadLen} bytes vs " ++
        s!"actual {s.sniffedPayloadLen} bytes")
    return some s

/-- The packet that is then compared with that of the script. -/
def collectedPacket (heap : Memory) (s : Sniffing) : Except Halt FullPacket :=
  let function := "do_outbound_script_packet"
  match s.packets with
  | [] => .error (.undefined function "sniffed_packets_start->packet")
  | head :: next =>
    if s.packetCount = 1 then .ok head
    else aggregatePackets heap head next (next.getLastD head) s.sniffedPayloadLen

end QoSMos
