import QoSMos.Flow.Key
import QoSMos.Parser.Run

/-!
# Marking a packet with its DSCP

`check_modify_dscp` of `qosmos_native.cpp` with the flow table it keeps. Its argument
`data` is a pointer, and the function takes `sizeof(data)` for the length of the packet:
a copy of four or eight bytes is all that the parser and the rest of the function see.
-/

namespace QoSMos

open WeakestPre

/-- `struct flow`, as far as the function writes it. Indices of `uplink_bytes` are not
checked against its size. -/
structure Flow where
  firstSeen : Int
  lastSeen : Int
  uplinkBytes : Int → Int
  upPackets : Int
  flowType : Int

/-- `flow_table`, in which a key without an entry reads as `NULL`. -/
abbrev FlowTable := String → Option Flow

/-- What a call finds outside its arguments: the bytes behind the new buffer, the contents
of a freshly allocated `struct flow`, the readings of `get_time_second` in order, and what is left
of the array of `get_flow_tuples`. -/
structure Surroundings where
  heap : Memory
  mallocFlow : Flow
  getTimeSecond : Nat → Int
  leftover : Leftover

/-- `memcpy` of `n` bytes of `data` into a new buffer. -/
def copyBytes (data heap : Memory) (n : Nat) : Memory := fun i => if i < n then data i else heap i

/-- `htons`, and `ntohs`, on a little-endian host. -/
def htons (x : Nat) : Nat := x % 256 * 256 + x / 256 % 256

/-- `check_modify_dscp`, where `get_desired_dscp` returned `desired`. -/
def checkModifyDscp (platform : Platform) (around : Surroundings) (data : Memory)
    (desired : Int) (flowTable : FlowTable) : Except Fault (Option Packet × FlowTable) := do
  let sizeofData := platform.dataModel.pointerBytes
  let buffer := copyBytes data around.heap sizeofData
  let (_, state) ← runParsePacket buffer sizeofData sizeofData .layer3Ip
  let newpack := state.packet
  let expectedIpv4 := 0
  let some flowKey ← getFlowTuples platform around.leftover newpack
    | .error (.undefined "check_modify_dscp" "flow_table[flow_key]")
  -- without `ntohs`
  let remainSize : Int := le16At newpack.buffer (expectedIpv4 + 2)
  let newflow := match flowTable flowKey with
    | none =>
      let flow := around.mallocFlow
      { flow with
        firstSeen := around.getTimeSecond 0
        lastSeen := around.getTimeSecond 1
        uplinkBytes := Function.update flow.uplinkBytes flow.upPackets remainSize
        flowType := 0 }
    | some flow =>
      { flow with
        lastSeen := around.getTimeSecond 0
        upPackets := flow.upPackets + 1
        uplinkBytes := Function.update flow.uplinkBytes (flow.upPackets + 1) remainSize }
  let flowTable := Function.update flowTable flowKey (some newflow)
  let tos : Int := Ipv4.tos newpack.buffer expectedIpv4
  if tos = desired then return (none, flowTable)
  else
    -- `htons` is cut to the eight bits of the field, and the checksum is not stored
    let newTos := UInt8.ofNat (htons (desired % 65536).toNat)
    let modified := Function.update newpack.buffer (expectedIpv4 + 1) newTos
    return (some { newpack with buffer := modified }, flowTable)

/-! ## Every call fails -/

/-- Fewer bytes than an IPv4 header has are refused at once. -/
theorem runParsePacket_short (b : Memory) {n : Nat} (hn : n < IPV4_BYTES) :
    ∃ s, runParsePacket b n n .layer3Ip = .ok (.bad, s) ∧ s.packet = packetNew b n := by
  suffices h : wp (parsePacket n .layer3Ip) (fun r s => r = .bad ∧ s.packet = packetNew b n)
      (freshState b n) by
    obtain ⟨r, s, hrun, rfl, hs⟩ := h
    exact ⟨s, hrun, hs⟩
  have hover : ¬ IPV4_BYTES ≤ n := by omega
  simp [parsePacket, parseLayer, parseLayer3Packet, hover, freshState, packetNew]

/-- No call returns: the copy is never parsed, so it has no tuple. -/
theorem checkModifyDscp_dies (platform : Platform) (around : Surroundings) (data : Memory)
    (desired : Int) (flowTable : FlowTable) :
    checkModifyDscp platform around data desired flowTable =
      .error (.assertionFailed "get_packet_tuple" "!\"bad IP version in packet\"") := by
  have hshort : platform.dataModel.pointerBytes < IPV4_BYTES := by
    cases platform.dataModel <;> decide
  obtain ⟨s, hrun, hpacket⟩ := runParsePacket_short
    (copyBytes data around.heap platform.dataModel.pointerBytes) hshort
  have hkey : getFlowTuples platform around.leftover s.packet =
      .error (.assertionFailed "get_packet_tuple" "!\"bad IP version in packet\"") :=
    getFlowTuples_noIp (by rw [hpacket]; rfl) (by rw [hpacket]; rfl)
  simp only [checkModifyDscp, hrun, hkey, bind, Except.bind]

/-! ## The call end to end -/

/-- `data` holds an IPv4 datagram of `n` bytes with TCP or UDP on top, which `parse_packet`
accepts as `packet`. -/
structure AcceptedDatagram (data : Memory) (n : Nat) (packet : Packet) : Prop where
  accepted : ∃ s, runParsePacket data n n .layer3Ip = .ok (.ok, s) ∧ s.packet = packet
  outermost : (packet.headers.toList.getD 0 Header.unused).type = .ipv4
  whole : packet.ipBytes = n
  transport : packet.tcp ≠ none ∨ packet.udp ≠ none

/-- The packet differs from the datagram in `data` by the TOS byte, which is the desired
one, and by the checksum, which verifies. -/
structure MarkedCopy (data : Memory) (n : Nat) (desired : Int) (packet : Packet) : Prop where
  length : packet.bufferBytes = n
  tos : (Ipv4.tos packet.buffer 0 : Int) = desired
  checksum : ChecksumVerifies packet.buffer 0 (Ipv4.ihl packet.buffer 0 * 4)
  rest : ∀ i < n, i ≠ 1 → i ≠ 10 → i ≠ 11 → packet.buffer i = data i

/-- The call records the datagram under its own tuple, and returns a marked copy unless the
datagram is already marked. -/
def MarksDatagram (platform : Platform) (around : Surroundings) (data : Memory) (n : Nat)
    (packet : Packet) (desired : Int) (flowTable : FlowTable) : Prop :=
  ∃ result flowTable' tuple,
    checkModifyDscp platform around data desired flowTable = .ok (result, flowTable') ∧
    getPacketTuple packet = .ok tuple ∧ flowTable' (tupleToString platform tuple) ≠ none ∧
    ((Ipv4.tos data 0 : Int) = desired → result = none) ∧
    ((Ipv4.tos data 0 : Int) ≠ desired →
      ∃ marked, result = some marked ∧ MarkedCopy data n desired marked)

/-- No accepted datagram is recorded and marked. -/
theorem not_marksDatagram (platform : Platform) (around : Surroundings) {data : Memory} {n : Nat}
    {packet : Packet} (_ : AcceptedDatagram data n packet) (desired : Int)
    (flowTable : FlowTable) :
    ¬ MarksDatagram platform around data n packet desired flowTable := by
  rintro ⟨result, flowTable', tuple, hrun, -⟩
  rw [checkModifyDscp_dies] at hrun
  cases hrun

/-- An IPv4/UDP packet, from `packet_parser_test.c`. -/
def udpDatagram : List UInt8 :=
  [0x45, 0x00, 0x00, 0x20, 0x00, 0x00, 0x00, 0x00, 0xff, 0x11, 0x39, 0x22, 0xc0, 0x00, 0x02, 0x01,
   0xc0, 0xa8, 0x00, 0x01, 0x1f, 0x90, 0xe1, 0xf5, 0x00, 0x0c, 0x7b, 0xa5, 0x00, 0x00, 0x00, 0x00]

theorem udpDatagram_accepted : ∃ packet, AcceptedDatagram (.ofList udpDatagram) 32 packet :=
  ⟨_, ⟨_, rfl, rfl⟩, by decide, by decide, by decide⟩

/-- Surroundings of calls on fixed inputs, in which a dead array happens to keep its text. -/
def zeroSurroundings : Surroundings :=
  ⟨fun _ => 0, ⟨0, 0, fun _ => 0, 0, 0⟩, fun _ => 0, some⟩

theorem not_marksDatagram_udpDatagram : ∃ packet,
    AcceptedDatagram (.ofList udpDatagram) 32 packet ∧
    ¬ MarksDatagram plainPlatform zeroSurroundings (.ofList udpDatagram) 32 packet 46
      fun _ => none := by
  obtain ⟨packet, hpacket⟩ := udpDatagram_accepted
  exact ⟨packet, hpacket, not_marksDatagram plainPlatform zeroSurroundings hpacket 46 fun _ => none⟩

theorem not_forall_marksDatagram :
    ¬ ∀ (platform : Platform) (around : Surroundings) (data : Memory) (n : Nat)
      (packet : Packet) (desired : Int) (flowTable : FlowTable),
      AcceptedDatagram data n packet →
      MarksDatagram platform around data n packet desired flowTable := by
  intro h
  obtain ⟨packet, hpacket⟩ := udpDatagram_accepted
  obtain ⟨result, flowTable', tuple, hrun, -⟩ :=
    h plainPlatform zeroSurroundings _ 32 packet 46 (fun _ => none) hpacket
  rw [checkModifyDscp_dies] at hrun
  cases hrun

end QoSMos
